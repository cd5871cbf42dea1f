import LanguageSessions.Number.Binary64

/-!
# Shortest decimals

The shortest decimal that reads back as a given magnitude: among the decimals of the least number of digits for which
one reads back, the nearest, a tie going to the even last digit.
-/

namespace LanguageSessions.Magnitude

-- Powers are those of the natural numbers, as for the magnitudes themselves.
attribute [local instance (high)] instPowNat

/-- A decimal `coefficient * 10 ^ exponent`. -/
structure Decimal where
  coefficient : Nat
  exponent : Int
  deriving DecidableEq, Repr

/-- The magnitude as a multiple of `10 ^ exponent`: the whole part, and numerator and denominator of the rest. -/
def onGrid (m : Magnitude) (exponent : Int) : Nat × Nat × Nat :=
  let (n, d) := m.ratio
  match exponent with
  | .ofNat e => (n / (d * 10 ^ e), n % (d * 10 ^ e), d * 10 ^ e)
  | .negSucc e => (n * 10 ^ (e + 1) / d, n * 10 ^ (e + 1) % d, d)

/-- Whether the magnitude is below `10 ^ exponent`. -/
def belowPower (m : Magnitude) (exponent : Int) : Bool :=
  let (n, d) := m.ratio
  match exponent with
  | .ofNat e => n < d * 10 ^ e
  | .negSucc e => n * 10 ^ (e + 1) < d

/-- The decimal exponent of the leading digit of a positive magnitude, found among the neighbours of an estimate. -/
def leadingExponent (m : Magnitude) : Int :=
  let guess : Int := ((m.significand.log2 : Int) + m.exponent) * 30103 / 100000
  ([guess - 1, guess, guess + 1].find? fun k => m.belowPower (k + 1)).getD (guess + 2)

/-- Of the two neighbours of the magnitude among the multiples of `10 ^ exponent`, those that read back as it, the
nearer one first. -/
def neighbours (m : Magnitude) (exponent : Int) : List Decimal :=
  let (whole, rest, unit) := m.onGrid exponent
  let down : Decimal := ⟨whole, exponent⟩
  let up : Decimal := ⟨whole + 1, exponent⟩
  let nearer :=
    if 2 * rest < unit then [down, up]
    else if unit < 2 * rest then [up, down]
    else if whole % 2 = 0 then [down, up] else [up, down]
  nearer.filter fun decimal => ofDecimal? decimal.coefficient decimal.exponent = some m

/-- Drops the noughts at the end of the coefficient. -/
def Decimal.trim (decimal : Decimal) : Decimal :=
  if h : decimal.coefficient ≠ 0 ∧ decimal.coefficient % 10 = 0 then
    Decimal.trim ⟨decimal.coefficient / 10, decimal.exponent + 1⟩
  else decimal
termination_by decimal.coefficient
decreasing_by omega

/-- The shortest decimal that reads back as the magnitude. -/
def shortest (m : Magnitude) : Decimal :=
  if m.significand = 0 then ⟨0, 0⟩
  else
    let lead := m.leadingExponent
    let grids := (List.range 17).map fun digits : Nat => lead - (digits : Int)
    match grids.findSome? fun exponent => (m.neighbours exponent).head? with
    | some decimal => decimal.trim
    | none => ⟨(m.onGrid (lead - 16)).1, lead - 16⟩

end LanguageSessions.Magnitude
