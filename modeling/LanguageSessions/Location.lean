import LanguageSessions.Json.Basic

/-!
# Positions, ranges and locations

Places in documents, and how they are read from what a server sends. Fields are read in the order in which they are
written here, and the first one that cannot be read decides the error.
-/

namespace LanguageSessions

/-- A position in a document; lines and characters count from nought. -/
structure Position where
  line : Int
  character : Int
  deriving DecidableEq, Repr

/-- A range between two positions, without the second. -/
structure Range where
  start : Position
  stop : Position
  deriving DecidableEq, Repr

/-- A range in a document. The server may put any value in place of the URI. -/
structure Location where
  uri : Json
  range : Range

/-- A link from a range to a target, which has a range of its own and a narrower one to select. -/
structure LocationLink where
  targetUri : Json
  targetRange : Range
  targetSelectionRange : Range
  originSelectionRange : Option Range

namespace Position

/-- Reads a position. -/
def ofJson (data : Json) : Except ConversionError Position := do
  let line ← (← data.field "line").toInt
  let character ← (← data.field "character").toInt
  return ⟨line, character⟩

/-- A position as a value. -/
def toJson (position : Position) : Json :=
  .object [("line", .int position.line), ("character", .int position.character)]

end Position

namespace Range

/-- Reads a range. -/
def ofJson (data : Json) : Except ConversionError Range := do
  let start ← Position.ofJson (← data.field "start")
  let stop ← Position.ofJson (← data.field "end")
  return ⟨start, stop⟩

/-- Reads a range that may be left out. -/
def ofJson? (data : Json) : Except ConversionError (Option Range) :=
  if data.isTruthy then (ofJson data).map some else .ok none

/-- A range as a value. -/
def toJson (range : Range) : Json :=
  .object [("start", range.start.toJson), ("end", range.stop.toJson)]

end Range

namespace Location

/-- Reads a location. -/
def ofJson (data : Json) : Except ConversionError Location := do
  let uri ← data.field "uri"
  let range ← Range.ofJson (← data.field "range")
  return ⟨uri, range⟩

/-- A location as a value. -/
def toJson (location : Location) : Json :=
  .object [("uri", location.uri), ("range", location.range.toJson)]

end Location

namespace LocationLink

/-- Reads a link. Without a target range the range to select takes its place. -/
def ofJson (data : Json) : Except ConversionError LocationLink := do
  let whole ← data.fieldOrNull "targetRange"
  let whole ← if whole.isTruthy then pure whole else data.field "targetSelectionRange"
  let origin ← data.fieldOrNull "originSelectionRange"
  let uri ← data.field "targetUri"
  let targetRange ← Range.ofJson whole
  let selection ← Range.ofJson (← data.field "targetSelectionRange")
  let origin ← Range.ofJson? origin
  return ⟨uri, targetRange, selection, origin⟩

/-- The location that a link selects. -/
def toLocation (link : LocationLink) : Location := ⟨link.targetUri, link.targetSelectionRange⟩

end LocationLink

namespace Location

/-- Reads a location or a link. -/
def ofTarget (item : Json) : Except ConversionError Location := do
  if ← item.holds "targetUri" then return (← LocationLink.ofJson item).toLocation
  else Location.ofJson item

/-- Reads locations and links, whatever the value is that holds them. -/
def listOfJson (data : Json) : Except ConversionError (List Location) := do
  (← data.items).mapM ofTarget

/-- The places of a definition: none for a value that is empty or neither an object nor a list. -/
def definition (result : Json) : Except ConversionError (Option (List Location)) :=
  if !result.isTruthy then .ok none
  else
    match result with
    | .object _ => (ofTarget result).map fun location => some [location]
    | .array _ => (listOfJson result).map fun locations => if locations.isEmpty then none else some locations
    | _ => .ok none

end Location

end LanguageSessions
