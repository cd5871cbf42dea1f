/-!
# Decimal digits

The characters with the Unicode property Numeric_Type=Decimal (version 14). They come in runs of ten consecutive code
points, so a table of the zeros is enough.
-/

namespace LanguageSessions.Text

/-- The code points of the digits zero. -/
def digitZeros : List Nat :=
  [0x30, 0x660, 0x6F0, 0x7C0, 0x966, 0x9E6, 0xA66, 0xAE6, 0xB66, 0xBE6,
   0xC66, 0xCE6, 0xD66, 0xDE6, 0xE50, 0xED0, 0xF20, 0x1040, 0x1090, 0x17E0,
   0x1810, 0x1946, 0x19D0, 0x1A80, 0x1A90, 0x1B50, 0x1BB0, 0x1C40, 0x1C50, 0xA620,
   0xA8D0, 0xA900, 0xA9D0, 0xA9F0, 0xAA50, 0xABF0, 0xFF10, 0x104A0, 0x10D30, 0x11066,
   0x110F0, 0x11136, 0x111D0, 0x112F0, 0x11450, 0x114D0, 0x11650, 0x116C0, 0x11730, 0x118E0,
   0x11950, 0x11C50, 0x11D50, 0x11DA0, 0x16A60, 0x16AC0, 0x16B50, 0x1D7CE, 0x1D7D8, 0x1D7E2,
   0x1D7EC, 0x1D7F6, 0x1E140, 0x1E2F0, 0x1E950, 0x1FBF0]

/-- The value of a decimal digit of any script. -/
def digitValue? (c : Char) : Option Nat :=
  (digitZeros.find? fun start => start ≤ c.toNat && c.toNat < start + 10).map fun start => c.toNat - start

/-- The value of one of the digits 0 to 9 of ASCII. -/
def asciiDigit? (c : Char) : Option Nat :=
  if '0' ≤ c ∧ c ≤ '9' then some (c.toNat - '0'.toNat) else none

/-- Whether a character is one of the digits 0 to 9 of ASCII. -/
def isAsciiDigit (c : Char) : Bool := (asciiDigit? c).isSome

/-- The character of a digit below ten. -/
def digitChar (d : Nat) : Char := Char.ofNat ('0'.toNat + d)

/-- The decimal digits of a number, at least one. -/
def natDigits (n : Nat) : List Char :=
  if n < 10 then [digitChar n] else natDigits (n / 10) ++ [digitChar (n % 10)]

/-- The decimal text of an integer. -/
def intDigits : Int → List Char
  | .ofNat n => natDigits n
  | .negSucc n => '-' :: natDigits (n + 1)

/-- The number that a run of digit values writes in base ten. -/
def ofDigits (values : List Nat) : Nat := values.foldl (fun n d => n * 10 + d) 0

/-- The lower-case hexadecimal digit below sixteen. -/
def hexChar (d : Nat) : Char := if d < 10 then digitChar d else Char.ofNat ('a'.toNat + (d - 10))

/-- The upper-case hexadecimal digit below sixteen. -/
def upperHexChar (d : Nat) : Char := if d < 10 then digitChar d else Char.ofNat ('A'.toNat + (d - 10))

/-- The value of a hexadecimal digit. -/
def hexValue? (c : Char) : Option Nat :=
  if '0' ≤ c ∧ c ≤ '9' then some (c.toNat - '0'.toNat)
  else if 'a' ≤ c ∧ c ≤ 'f' then some (c.toNat - 'a'.toNat + 10)
  else if 'A' ≤ c ∧ c ≤ 'F' then some (c.toNat - 'A'.toNat + 10)
  else none

/-- The last `width` lower-case hexadecimal digits of a number. -/
def hexDigits : Nat → Nat → List Char
  | 0, _ => []
  | width + 1, n => hexDigits width (n / 16) ++ [hexChar (n % 16)]

/-- The last `width` upper-case hexadecimal digits of a number. -/
def upperHexDigits : Nat → Nat → List Char
  | 0, _ => []
  | width + 1, n => upperHexDigits width (n / 16) ++ [upperHexChar (n % 16)]

end LanguageSessions.Text
