import LanguageSessions.Number.Shortest
import LanguageSessions.Text.Digit

/-!
# Written floating-point numbers

A floating-point number is written with its shortest decimal. Numbers from `10 ^ -4` up to `10 ^ 16` are written
positionally, always with a point; all others with an exponent of two digits at least. A `FloatStyle` fixes the rest.
-/

namespace LanguageSessions

open Text

/-- What differs between the formats that floating-point numbers are written in. -/
structure FloatStyle where
  /-- Whether the digits before an exponent always hold a point. -/
  pointBeforeExponent : Bool
  infinity : List Char
  notANumber : List Char

namespace Binary64

/-- The digits of a decimal and the exponent of the first one. -/
def scientific (decimal : Magnitude.Decimal) : List Char × Int :=
  let digits := natDigits decimal.coefficient
  (digits, decimal.exponent + (digits.length : Int) - 1)

/-- Digits with a point after the one whose exponent is nought, the first having exponent `lead`. -/
def positional (digits : List Char) (lead : Int) : List Char :=
  match lead with
  | .ofNat lead =>
    let whole := digits.take (lead + 1) ++ List.replicate (lead + 1 - digits.length) '0'
    let fraction := digits.drop (lead + 1)
    whole ++ '.' :: (if fraction.isEmpty then ['0'] else fraction)
  | .negSucc gap => '0' :: '.' :: List.replicate gap '0' ++ digits

/-- A number of at least two digits, with a sign. -/
def exponentText (exponent : Int) : List Char :=
  let digits := natDigits exponent.natAbs
  (if exponent < 0 then '-' else '+') :: (if digits.length < 2 then '0' :: digits else digits)

/-- A magnitude in a given style. -/
def magnitudeText (style : FloatStyle) (m : Magnitude) : List Char :=
  let (digits, lead) := scientific m.shortest
  if -4 ≤ lead ∧ lead < 16 then positional digits lead
  else
    let mantissa :=
      match digits with
      | [digit] => if style.pointBeforeExponent then [digit, '.', '0'] else [digit]
      | digit :: fraction => digit :: '.' :: fraction
      | [] => []
    mantissa ++ 'e' :: exponentText lead

/-- A floating-point number in a given style. -/
def text (style : FloatStyle) : Binary64 → List Char
  | .finite negative m => (if negative then ['-'] else []) ++ magnitudeText style m
  | .infinite negative => (if negative then ['-'] else []) ++ style.infinity
  | .nan => style.notANumber

/-- Floating-point numbers as people read them. -/
def plainStyle : FloatStyle := ⟨false, "inf".toList, "nan".toList⟩

/-- A floating-point number as people read it. -/
def plain (x : Binary64) : List Char := x.text plainStyle

end Binary64

end LanguageSessions
