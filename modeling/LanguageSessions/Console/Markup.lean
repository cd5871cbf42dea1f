import LanguageSessions.Text.Blank

/-!
# Markup

Texts for the console may hold tags in square brackets that open and close styles. `visible` gives the text that is
seen; it fails where a tag closes what is not open. `escape` makes brackets that look like tags stand for themselves.
-/

namespace LanguageSessions.Console

open Text

/-- A tag that closes a style which is not open. -/
inductive MarkupError where
  | nothingToClose
  deriving DecidableEq, Repr

/-! ## Tags -/

/-- Whether a character may come first in a tag. -/
def startsTag (c : Char) : Bool := ('a' ≤ c && c ≤ 'z') || c == '#' || c == '/' || c == '@'

/-- The characters up to a closing bracket, if no opening one comes before it. -/
def upToBracket : List Char → Option (List Char)
  | [] => none
  | c :: rest =>
    if c = ']' then some []
    else if c = '[' then none
    else (upToBracket rest).map (c :: ·)

/-- The inside of the tag that a text behind an opening bracket begins with. -/
def tag? : List Char → Option (List Char)
  | [] => none
  | c :: rest => if startsTag c then (upToBracket rest).map (c :: ·) else none

/-- A piece of markup. -/
inductive Piece where
  /-- A character that is seen. -/
  | seen (c : Char)
  | tag (inside : List Char)
  deriving DecidableEq, Repr

/-- Characters that are seen. -/
def seenAll (text : List Char) : List Piece := text.map .seen

/-- Backslashes that are seen. -/
def seenSlashes (n : Nat) : List Piece := List.replicate n (.seen '\\')

/-- Reads markup, where the next `skip` characters were read before and `slashes` backslashes come before the text. Of
backslashes before a tag every second one escapes the one before it, and one that is left over escapes the tag; before
any other bracket one backslash is dropped. -/
def pieces (skip slashes : Nat) : List Char → List Piece
  | [] => seenSlashes slashes
  | c :: rest =>
    match skip with
    | skip + 1 => pieces skip 0 rest
    | 0 =>
      if c = '\\' then pieces 0 (slashes + 1) rest
      else if c = '[' then
        match tag? rest with
        | some inside =>
          let tag := if slashes % 2 = 1 then seenAll ('[' :: inside ++ [']']) else [.tag inside]
          seenSlashes (slashes / 2) ++ tag ++ pieces (inside.length + 1) 0 rest
        | none => seenSlashes (slashes - 1) ++ .seen '[' :: pieces 0 0 rest
      else seenSlashes slashes ++ .seen c :: pieces 0 0 rest

/-! ## Styles -/

/-- The full name of an attribute that may be abbreviated. -/
def fullAttribute (word : String) : String :=
  ((([("b", "bold"), ("d", "dim"), ("i", "italic"), ("u", "underline"), ("r", "reverse"), ("c", "conceal"),
      ("s", "strike"), ("uu", "underline2"), ("o", "overline")] : List (String × String)).lookup word)).getD word

/-- The form in which names of styles are compared. -/
def styleName (text : List Char) : List Char :=
  (fullAttribute (String.ofList (lower (trim isBlank text)))).toList

/-- The name of the style that a tag opens or closes: what stands before an equals sign. -/
def tagName (inside : List Char) : List Char := inside.takeWhile (· != '=')

/-- Reads a tag while styles are open, the innermost one first. -/
def applyTag (openStyles : List (List Char)) (inside : List Char) : Except MarkupError (List (List Char)) :=
  match tagName inside with
  | '/' :: name =>
    if (trim isBlank name).isEmpty then
      match openStyles with
      | [] => .error .nothingToClose
      | _ :: outer => .ok outer
    else if openStyles.contains (styleName name) then .ok (openStyles.erase (styleName name))
    else .error .nothingToClose
  | name => .ok (styleName name :: openStyles)

/-- The characters that are seen of pieces. -/
def seenOf (openStyles : List (List Char)) : List Piece → Except MarkupError (List Char)
  | [] => .ok []
  | .seen c :: rest => (seenOf openStyles rest).map (c :: ·)
  | .tag inside :: rest =>
    match applyTag openStyles inside with
    | .ok openStyles => seenOf openStyles rest
    | .error e => .error e

/-! ## Reading and escaping -/

/-- Whether a character is kept on its way to the console. -/
def isPrinted (c : Char) : Bool := !(c == '\x07' || c == '\x08' || c == '\x0b' || c == '\x0c' || c == '\r')

/-- The text that is seen of markup. -/
def visible (markup : List Char) : Except MarkupError (List Char) :=
  if markup.contains '[' then (seenOf [] (pieces 0 0 markup)).map (·.filter isPrinted)
  else .ok (markup.filter isPrinted)

/-- Doubles the backslashes before everything that looks like a tag and puts one more before it. -/
def escapeTags (skip slashes : Nat) : List Char → List Char
  | [] => List.replicate slashes '\\'
  | c :: rest =>
    match skip with
    | skip + 1 => c :: escapeTags skip 0 rest
    | 0 =>
      if c = '\\' then escapeTags 0 (slashes + 1) rest
      else
        match (if c = '[' then tag? rest else none) with
        | some inside => List.replicate (2 * slashes + 1) '\\' ++ c :: escapeTags (inside.length + 1) 0 rest
        | none => List.replicate slashes '\\' ++ c :: escapeTags 0 0 rest

/-- The number of backslashes at the end of a text. -/
def trailingSlashes (text : List Char) : Nat := (text.reverse.takeWhile (· == '\\')).length

/-- Markup of which a text is seen. A lone backslash at the end is written twice. -/
def escape (text : List Char) : List Char :=
  let escaped := escapeTags 0 0 text
  if trailingSlashes escaped = 1 then escaped ++ ['\\'] else escaped

end LanguageSessions.Console
