/-!
# Binary floating-point numbers

The numbers of the 64-bit binary format, as exact values: a finite number is a sign and a magnitude
`significand * 2 ^ exponent` in its one canonical form. Rounding is to the nearest number, a tie going to the even
significand, and is computed on natural numbers.
-/

namespace LanguageSessions

-- Powers are those of the natural numbers themselves, whatever else knows about powers.
attribute [local instance (high)] instPowNat

/-- A finite magnitude in canonical form: 53 bits of significand, fewer only at the least exponent. -/
structure Magnitude where
  significand : Nat
  exponent : Int
  canonical : significand < 2 ^ (53 : Nat) ∧ -1074 ≤ exponent ∧ exponent ≤ 971 ∧
    (significand < 2 ^ (52 : Nat) → exponent = -1074)
  deriving DecidableEq

/-- A 64-bit binary floating-point number; all undefined results are the one `nan`. -/
inductive Binary64 where
  | finite (negative : Bool) (magnitude : Magnitude)
  | infinite (negative : Bool)
  | nan
  deriving DecidableEq

namespace Magnitude

/-- The magnitude nought. -/
def nought : Magnitude := ⟨0, -1074, by decide⟩

instance : Inhabited Magnitude := ⟨nought⟩

/-- The magnitude with these parts, if they are canonical. -/
def ofParts? (significand : Nat) (exponent : Int) : Option Magnitude :=
  if h : significand < 2 ^ (53 : Nat) ∧ -1074 ≤ exponent ∧ exponent ≤ 971 ∧
      (significand < 2 ^ (52 : Nat) → exponent = -1074)
  then some ⟨significand, exponent, h⟩ else none

/-- `num / den` to the nearest natural number, a tie going to the even one. -/
def divNearest (num den : Nat) : Nat :=
  let quotient := num / den
  let rest := 2 * (num % den)
  if rest < den then quotient
  else if den < rest then quotient + 1
  else quotient + quotient % 2

/-- Numerator and denominator of `num / den / 2 ^ exponent`. -/
def scale (num den : Nat) (exponent : Int) : Nat × Nat :=
  match exponent with
  | .ofNat e => (num, den * 2 ^ e)
  | .negSucc e => (num * 2 ^ (e + 1), den)

/-- The exponent at which a positive `num / den` has a significand of 53 bits, or the least one. -/
def exponentOf (num den : Nat) : Int :=
  let guess : Int := (num.log2 : Int) - (den.log2 : Int) - 52
  let (n, d) := scale num den guess
  max (-1074) (if n < d * 2 ^ (52 : Nat) then guess - 1 else guess)

/-- The magnitude nearest to `num / den`; none if that is beyond the greatest one. -/
def ofRatio? (num den : Nat) : Option Magnitude :=
  if num = 0 ∨ den = 0 then some nought
  else
    let exponent := exponentOf num den
    let (n, d) := scale num den exponent
    let significand := divNearest n d
    if significand = 2 ^ (53 : Nat) then ofParts? (2 ^ (52 : Nat)) (exponent + 1)
    else ofParts? significand exponent

/-- The magnitude nearest to `coefficient * 10 ^ exponent`; none if that is beyond the greatest one. -/
def ofDecimal? (coefficient : Nat) (exponent : Int) : Option Magnitude :=
  if coefficient = 0 then some nought
  else
    -- the number of binary digits of `coefficient` bounds its decimal ones from above
    if exponent > 310 then none
    else if exponent + (coefficient.log2 : Int) < -400 then some nought
    else
      match exponent with
      | .ofNat e => ofRatio? (coefficient * 10 ^ e) 1
      | .negSucc e => ofRatio? coefficient (10 ^ (e + 1))

/-- Numerator and denominator of a magnitude. -/
def ratio (m : Magnitude) : Nat × Nat :=
  match m.exponent with
  | .ofNat e => (m.significand * 2 ^ e, 1)
  | .negSucc e => (m.significand, 2 ^ (e + 1))

/-- The whole part of a magnitude. -/
def floor (m : Magnitude) : Nat := m.ratio.1 / m.ratio.2

end Magnitude

namespace Binary64

/-- The number nought, without a sign. -/
def nought : Binary64 := .finite false .nought

instance : Inhabited Binary64 := ⟨nought⟩

/-- The number nearest to a signed ratio, infinite when that is beyond the greatest finite one. -/
def ofRatio (negative : Bool) (num den : Nat) : Binary64 :=
  match Magnitude.ofRatio? num den with
  | some m => .finite negative m
  | none => .infinite negative

/-- The number nearest to a signed decimal, infinite when that is beyond the greatest finite one. -/
def ofDecimal (negative : Bool) (coefficient : Nat) (exponent : Int) : Binary64 :=
  match Magnitude.ofDecimal? coefficient exponent with
  | some m => .finite negative m
  | none => .infinite negative

/-- The number nearest to an integer; none if that is beyond the greatest finite one. -/
def ofInt? (n : Int) : Option Binary64 :=
  (Magnitude.ofRatio? n.natAbs 1).map (.finite (n < 0))

/-- The number of seconds in a whole number of milliseconds. -/
def ofMillis (ms : Int) : Binary64 := ofRatio (ms < 0) ms.natAbs 1000

/-- Whether the number is a nought of either sign. -/
def isNought : Binary64 → Bool
  | .finite _ m => m.significand == 0
  | _ => false

/-- Whether the number is above nought. -/
def isPositive : Binary64 → Bool
  | .finite negative m => !negative && m.significand != 0
  | .infinite negative => !negative
  | .nan => false

/-- The integer that the number is, if it is one. -/
def toInt? : Binary64 → Option Int
  | .finite negative m =>
    let (n, d) := m.ratio
    if n % d = 0 then some (if negative then -((n / d : Nat) : Int) else ((n / d : Nat) : Int)) else none
  | _ => none

/-- The number in billionths, to the nearest one; none if it is not finite. -/
def toBillionths? : Binary64 → Option Int
  | .finite negative m =>
    let (n, d) := m.ratio
    let value := Magnitude.divNearest (n * 10 ^ (9 : Nat)) d
    some (if negative then -(value : Int) else (value : Int))
  | _ => none

end Binary64

end LanguageSessions
