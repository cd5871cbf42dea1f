import LanguageSessions.Location

/-!
# Hovers

What a server says about a position. Its contents come as a text, as an object that holds one, or as lists of these to
any depth; they are joined to one text.
-/

namespace LanguageSessions

/-- What a server says about a position. -/
structure Hover where
  contents : String
  range : Option Range

namespace Hover

open Text

/-- What stands between two parts of the contents. -/
def blankLine : List Char := ['\n', '\n']

mutual

/-- The text of contents. -/
def flatten : Json → List Char
  | .null => []
  | .string s => s.toList
  | .object members =>
    match Members.get? members "value" with
    | some value => value.display.toList
    | none => []
  | .array items => joinWith blankLine (parts items)
  | value => value.shown

/-- The texts of the items that are not empty. -/
def parts : List Json → List (List Char)
  | [] => []
  | item :: items =>
    let text := flatten item
    if text.isEmpty then parts items else text :: parts items

end

/-- Reads a hover. -/
def ofJson (data : Json) : Except ConversionError Hover := do
  let range ← data.fieldOrNull "range"
  let contents ← data.fieldOrNull "contents"
  let range ← Range.ofJson? range
  return ⟨String.ofList (flatten contents), range⟩

end Hover

end LanguageSessions
