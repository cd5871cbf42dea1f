import LanguageSessions.Number.FloatText
import LanguageSessions.Number.Numeral
import LanguageSessions.Text.Quoted

/-!
# JSON values

Values keep what the text tells apart: integers of any size and floating-point numbers are different values, and the
members of an object stay in order. The second half reads values leniently, as fields of messages from a server are
read; a `ConversionError` tells why a value could not be read.
-/

namespace LanguageSessions

open Text

/-- A JSON value. -/
inductive Json where
  | null
  | bool (b : Bool)
  | int (n : Int)
  | float (x : Binary64)
  | string (s : String)
  | array (items : List Json)
  | object (members : List (String × Json))

instance : Inhabited Json := ⟨.null⟩

/-- The members of an object. -/
abbrev Members := List (String × Json)

/-- Why a value could not be read as something else. -/
inductive ConversionError where
  /-- An object without the field. -/
  | missing (field : String)
  /-- A value of a kind that has no such reading. -/
  | wrongKind
  /-- A text or a number that stands for no integer. -/
  | badValue
  /-- Fields were asked of a value that is no object. -/
  | noFields
  /-- An infinite number where an integer is needed. -/
  | unbounded
  deriving DecidableEq, Repr

namespace Members

/-- The value of a member. -/
def get? (members : Members) (key : String) : Option Json :=
  (members.find? fun member => member.1 == key).map Prod.snd

/-- Sets a member, in its place if it has one and at the end otherwise. -/
def set (members : Members) (key : String) (value : Json) : Members :=
  match members with
  | [] => [(key, value)]
  | member :: rest => if member.1 == key then (key, value) :: rest else member :: set rest key value

end Members

namespace Json

/-! ## Truth and text -/

/-- Whether a value counts as present: null, false, nought and everything empty do not. -/
def isTruthy : Json → Bool
  | .null => false
  | .bool b => b
  | .int n => n != 0
  | .float x => !x.isNought
  | .string s => !s.isEmpty
  | .array items => !items.isEmpty
  | .object members => !members.isEmpty

mutual

/-- A value as it is shown inside another one. -/
def shown : Json → List Char
  | .null => "None".toList
  | .bool b => (if b then "True" else "False").toList
  | .int n => intDigits n
  | .float x => x.plain
  | .string s => quoted s.toList
  | .array items => '[' :: shownItems items ++ [']']
  | .object members => '\x7b' :: shownMembers members ++ ['\x7d']

/-- Values separated by commas. -/
def shownItems : List Json → List Char
  | [] => []
  | [item] => shown item
  | item :: items => shown item ++ ',' :: ' ' :: shownItems items

/-- Members separated by commas. -/
def shownMembers : List (String × Json) → List Char
  | [] => []
  | [(key, value)] => quoted key.toList ++ ':' :: ' ' :: shown value
  | (key, value) :: members => quoted key.toList ++ ':' :: ' ' :: shown value ++ ',' :: ' ' :: shownMembers members

end

/-- A value as text: a string is its own text, any other value is shown. -/
def display : Json → String
  | .string s => s
  | value => String.ofList value.shown

/-! ## Lenient reading -/

/-- The value of a field that has to be there. -/
def field (value : Json) (key : String) : Except ConversionError Json :=
  match value with
  | .object members =>
    match Members.get? members key with
    | some value => .ok value
    | none => .error (.missing key)
  | _ => .error .wrongKind

/-- The value of a field, or null if the object lacks it. -/
def fieldOrNull (value : Json) (key : String) : Except ConversionError Json :=
  match value with
  | .object members => .ok ((Members.get? members key).getD .null)
  | _ => .error .noFields

/-- Whether a text occurs in another one. -/
def occursIn (part : List Char) : List Char → Bool
  | [] => part.isEmpty
  | c :: rest => part.isPrefixOf (c :: rest) || occursIn part rest

/-- Whether a value holds a text: as a field, as an item, or as a part of a string. -/
def holds (value : Json) (text : String) : Except ConversionError Bool :=
  match value with
  | .object members => .ok (Members.get? members text).isSome
  | .array items => .ok (items.any fun item => match item with | .string s => s == text | _ => false)
  | .string s => .ok (occursIn text.toList s.toList)
  | _ => .error .wrongKind

/-- The integer that a value stands for: a number is cut to its whole part, a string is read as a numeral. -/
def toInt : Json → Except ConversionError Int
  | .int n => .ok n
  | .bool b => .ok (if b then 1 else 0)
  | .float (.finite negative m) => .ok (if negative then -(m.floor : Int) else (m.floor : Int))
  | .float (.infinite _) => .error .unbounded
  | .float .nan => .error .badValue
  | .string s =>
    match Numeral.integer? s.toList with
    | some n => .ok n
    | none => .error .badValue
  | _ => .error .wrongKind

/-- The values met on going through a value: the items of an array, the keys of an object, the characters of a string.
-/
def items : Json → Except ConversionError (List Json)
  | .array items => .ok items
  | .object members => .ok (members.map fun member => .string member.1)
  | .string s => .ok (s.toList.map fun c => .string (String.singleton c))
  | _ => .error .wrongKind

end Json

end LanguageSessions
