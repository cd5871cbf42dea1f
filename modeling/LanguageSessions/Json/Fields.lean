import LanguageSessions.Json.Basic

/-!
# Fields

Access to the parts of values of which it is known what they hold: what is missing or of another kind is taken as empty.
-/

namespace LanguageSessions.Json

/-- The text that a value is; empty if it is none. -/
def asString : Json → String
  | .string text => text
  | _ => ""

/-- The text that a value is, if it is one. -/
def asString? : Json → Option String
  | .string text => some text
  | _ => none

/-- The integer that a value is. -/
def asInt : Json → Int
  | .int n => n
  | .bool b => if b then 1 else 0
  | .float x => x.toInt?.getD 0
  | _ => 0

/-- The members that a value has. -/
def asMembers : Json → Members
  | .object members => members
  | _ => []

/-- The items that a value has. -/
def asList : Json → List Json
  | .array items => items
  | _ => []

/-- The texts that a value lists. -/
def asStrings (value : Json) : List String := value.asList.map asString

/-- A member of a value; null if it is missing. -/
def get (value : Json) (key : String) : Json := (Members.get? value.asMembers key).getD .null

/-- A member that is a text. -/
def stringAt (value : Json) (key : String) : String := (value.get key).asString

/-- A member that may be a text. -/
def stringAt? (value : Json) (key : String) : Option String := (value.get key).asString?

/-- A member that is an integer. -/
def intAt (value : Json) (key : String) : Int := (value.get key).asInt

/-- A member that is a natural number. -/
def natAt (value : Json) (key : String) : Nat := (value.intAt key).toNat

/-- Whether a member counts as present. -/
def flagAt (value : Json) (key : String) : Bool := (value.get key).isTruthy

/-- A member that is a list. -/
def listAt (value : Json) (key : String) : List Json := (value.get key).asList

/-- A member that is an object. -/
def membersAt (value : Json) (key : String) : Members := (value.get key).asMembers

/-- A member that is a time in milliseconds; in seconds, if it is there. -/
def millisAt? (value : Json) (key : String) : Option Binary64 :=
  match value.get key with
  | .null => none
  | time => some (Binary64.ofMillis time.asInt)

end LanguageSessions.Json
