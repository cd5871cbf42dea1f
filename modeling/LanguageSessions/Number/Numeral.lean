import LanguageSessions.Number.Binary64
import LanguageSessions.Text.Blank
import LanguageSessions.Text.Digit

/-!
# Numerals

Texts read as numbers. An integer numeral may stand between white space, carry a sign, use the decimal digits of any
script and separate digits by single underscores; it has 4300 digits at most. A float numeral has an optional sign, a
point, an exponent, or is one of the words for infinity and for not a number.
-/

namespace LanguageSessions.Numeral

open Text

/-- The greatest number of digits that an integer numeral may have. -/
def maxDigits : Nat := 4300

/-- The values of digits that may have single underscores between them; none if anything else occurs. -/
def digitValues? : List Char → Option (List Nat)
  | [] => none
  | [c] => (digitValue? c).map ([·])
  | c :: '_' :: rest => do
    let d ← digitValue? c
    let ds ← digitValues? rest
    return d :: ds
  | c :: rest => do
    let d ← digitValue? c
    let ds ← digitValues? rest
    return d :: ds

/-- Takes a sign from the front of a text; the flag tells whether it was a minus. -/
def takeSign : List Char → Bool × List Char
  | '-' :: rest => (true, rest)
  | '+' :: rest => (false, rest)
  | text => (false, text)

/-- The integer that a text writes; white space may surround it. -/
def integer? (text : List Char) : Option Int := do
  let (negative, digits) := takeSign (trim hasWhiteSpace text)
  let values ← digitValues? digits
  if maxDigits < values.length then none
  else
    let n := ofDigits values
    return if negative then -(n : Int) else (n : Int)

/-- The unsigned decimal `whole.fraction` times the power of ten with the given exponent. -/
def decimal (negative : Bool) (whole fraction : List Nat) (exponent : Int) : Binary64 :=
  Binary64.ofDecimal negative (ofDigits (whole ++ fraction)) (exponent - fraction.length)

/-- Takes the ASCII digits, with single underscores between them if `underscores`, from the front of a text. -/
def spanDigits : List Char → List Nat × List Char
  | [] => ([], [])
  | c :: rest =>
    match asciiDigit? c with
    | some d => let (ds, rest) := spanDigits rest; (d :: ds, rest)
    | none => ([], c :: rest)

/-- Reads an exponent part, the letter included, up to the end of the text. -/
def exponent? : List Char → Option Int
  | [] => some 0
  | e :: rest =>
    if e = 'e' ∨ e = 'E' then
      let (negative, digits) := takeSign rest
      match spanDigits digits with
      | ([], _) => none
      | (ds, []) => some (if negative then -(ofDigits ds : Int) else (ofDigits ds : Int))
      | _ => none
    else none

/-- The floating-point number that a text without surrounding blanks writes. -/
def float? (text : List Char) : Option Binary64 :=
  let (negative, body) := takeSign text
  let word := lower body
  if word = "inf".toList ∨ word = "infinity".toList then some (.infinite negative)
  else if word = "nan".toList then some .nan
  else
    let (whole, rest) := spanDigits body
    let (fraction, rest) :=
      match rest with
      | '.' :: rest => spanDigits rest
      | rest => ([], rest)
    if whole.isEmpty && fraction.isEmpty then none
    else (exponent? rest).map (decimal negative whole fraction)

end LanguageSessions.Numeral
