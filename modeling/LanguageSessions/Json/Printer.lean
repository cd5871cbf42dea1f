import LanguageSessions.Json.Basic

/-!
# Writing JSON

Values are written on one line, with a blank after each comma and colon. The text is printable ASCII: every other
character is escaped as one UTF-16 unit or a pair of them. An integer of too many digits is not written.
-/

namespace LanguageSessions.Json

open Text

/-- Floating-point numbers in JSON. -/
def floatStyle : FloatStyle := ⟨false, "Infinity".toList, "NaN".toList⟩

/-- The escape of a UTF-16 unit. -/
def unitEscape (unit : Nat) : List Char := '\\' :: 'u' :: hexDigits 4 unit

/-- A character inside a string. -/
def escape (c : Char) : List Char :=
  if c = '"' then ['\\', '"']
  else if c = '\\' then ['\\', '\\']
  else if c = '\n' then ['\\', 'n']
  else if c = '\r' then ['\\', 'r']
  else if c = '\t' then ['\\', 't']
  else if c = '\x08' then ['\\', 'b']
  else if c = '\x0c' then ['\\', 'f']
  else if 0x20 ≤ c.toNat ∧ c.toNat < 0x7F then [c]
  else if c.toNat < 0x10000 then unitEscape c.toNat
  else
    let code := c.toNat - 0x10000
    unitEscape (0xD800 + code / 0x400) ++ unitEscape (0xDC00 + code % 0x400)

/-- A string. -/
def quote (s : String) : List Char := '"' :: s.toList.flatMap escape ++ ['"']

mutual

/-- A value. -/
def write : Json → List Char
  | .null => "null".toList
  | .bool b => (if b then "true" else "false").toList
  | .int n => intDigits n
  | .float x => x.text floatStyle
  | .string s => quote s
  | .array items => '[' :: writeItems items ++ [']']
  | .object members => '\x7b' :: writeMembers members ++ ['\x7d']

/-- Values separated by commas. -/
def writeItems : List Json → List Char
  | [] => []
  | [item] => write item
  | item :: items => write item ++ ',' :: ' ' :: writeItems items

/-- Members separated by commas. -/
def writeMembers : List (String × Json) → List Char
  | [] => []
  | [(key, value)] => quote key ++ ':' :: ' ' :: write value
  | (key, value) :: members => quote key ++ ':' :: ' ' :: write value ++ ',' :: ' ' :: writeMembers members

end

/-- The text of a value. -/
def print (value : Json) : String := String.ofList value.write

/-! ## What can be written -/

mutual

/-- Whether a value can be written: no integer in it has more digits than are ever written. -/
def isPrintable : Json → Bool
  | .int n => decide ((natDigits n.natAbs).length ≤ Numeral.maxDigits)
  | .array items => itemsPrintable items
  | .object members => membersPrintable members
  | _ => true

/-- Whether all items can be written. -/
def itemsPrintable : List Json → Bool
  | [] => true
  | item :: items => isPrintable item && itemsPrintable items

/-- Whether the values of all members can be written. -/
def membersPrintable : List (String × Json) → Bool
  | [] => true
  | (_, value) :: members => isPrintable value && membersPrintable members

end

end LanguageSessions.Json
