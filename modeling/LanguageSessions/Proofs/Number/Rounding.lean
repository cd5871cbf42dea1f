import LanguageSessions.Number.Binary64
import Mathlib.Algebra.Order.Field.Power
import Mathlib.Algebra.Order.Field.Rat
import Mathlib.Algebra.Order.Floor.Semifield
import Mathlib.Data.Int.Log
import Mathlib.Data.Rat.Floor
import Mathlib.Tactic.FieldSimp
import Mathlib.Tactic.Linarith
import Mathlib.Tactic.NormNum
import Mathlib.Tactic.Positivity
import Mathlib.Tactic.Ring

/-!
# Rounding of rational numbers

Rounding is computed on the numerator and the denominator of a ratio, or on the coefficient and the exponent of a
decimal. It depends only on the rational number that these stand for: both are `nearest?` of it (`ofRatio?_eq`,
`ofDecimal?_eq`), so that two ways to write a number are read alike.
-/

namespace LanguageSessions.Magnitude

/-- The rational number that a magnitude is. -/
def value (m : Magnitude) : ℚ := m.significand * 2 ^ m.exponent

/-- The natural number nearest to a rational one, a tie going to the even one. -/
def roundEven (x : ℚ) : ℕ :=
  if 2 * (x - ⌊x⌋₊) < 1 then ⌊x⌋₊
  else if 1 < 2 * (x - ⌊x⌋₊) then ⌊x⌋₊ + 1
  else ⌊x⌋₊ + ⌊x⌋₊ % 2

/-- The exponent of the last binary digit that is kept of a number. -/
def grid (x : ℚ) : ℤ := max (-1074) (Int.log 2 x - 52)

/-- The magnitude nearest to a rational number; none if that is beyond the greatest one. -/
def nearest? (x : ℚ) : Option Magnitude :=
  if x = 0 then some nought
  else if roundEven (x / 2 ^ grid x) = 2 ^ 53 then ofParts? (2 ^ 52) (grid x + 1)
  else ofParts? (roundEven (x / 2 ^ grid x)) (grid x)

/-! ## Ratios -/

theorem divNearest_eq (num : ℕ) {den : ℕ} (hd : 0 < den) : divNearest num den = roundEven (num / den) := by
  have hq : (0 : ℚ) < den := Nat.cast_pos.2 hd
  have hf : ⌊(num / den : ℚ)⌋₊ = num / den := Nat.floor_div_eq_div num den
  have hr : (num / den : ℚ) - (num / den : ℕ) = (num % den : ℕ) / den := by
    have hsum : (num : ℚ) = den * (num / den : ℕ) + (num % den : ℕ) := by exact_mod_cast (Nat.div_add_mod num den).symm
    rw [eq_div_iff hq.ne', sub_mul, div_mul_cancel₀ _ hq.ne']
    linarith
  have hlt : 2 * ((num % den : ℕ) / den : ℚ) < 1 ↔ 2 * (num % den) < den := by
    rw [← mul_div_assoc, div_lt_one hq]
    exact_mod_cast Iff.rfl
  have hgt : 1 < 2 * ((num % den : ℕ) / den : ℚ) ↔ den < 2 * (num % den) := by
    rw [← mul_div_assoc, one_lt_div hq]
    exact_mod_cast Iff.rfl
  unfold divNearest roundEven
  simp only [hf, hr, hlt, hgt]

theorem scale_pos {den : ℕ} (hd : 0 < den) (num : ℕ) (exponent : ℤ) : 0 < (scale num den exponent).2 := by
  cases exponent with
  | ofNat e => exact Nat.mul_pos hd (Nat.pow_pos Nat.zero_lt_two)
  | negSucc e => exact hd

theorem scale_eq (num den : ℕ) (exponent : ℤ) :
    ((scale num den exponent).1 / (scale num den exponent).2 : ℚ) = num / den / 2 ^ exponent := by
  cases exponent with
  | ofNat e =>
    simp only [scale, Int.ofNat_eq_natCast, zpow_natCast, Nat.cast_mul, Nat.cast_pow, Nat.cast_ofNat]
    rw [div_div]
  | negSucc e =>
    simp only [scale, zpow_negSucc, Nat.cast_mul, Nat.cast_pow, Nat.cast_ofNat, div_inv_eq_mul]
    rw [div_mul_eq_mul_div]

/-- Below a power of two are the numbers whose logarithm is less. -/
theorem lt_two_zpow_iff {x : ℚ} (hx : 0 < x) {k : ℤ} : x < 2 ^ k ↔ Int.log 2 x < k := by
  exact_mod_cast Int.lt_zpow_iff_log_lt one_lt_two hx

theorem two_zpow_le_iff {x : ℚ} (hx : 0 < x) {k : ℤ} : 2 ^ k ≤ x ↔ k ≤ Int.log 2 x := by
  exact_mod_cast Int.zpow_le_iff_le_log one_lt_two hx

theorem exponentOf_eq {num den : ℕ} (hn : 0 < num) (hd : 0 < den) : exponentOf num den = grid (num / den) := by
  have hq : (0 : ℚ) < den := Nat.cast_pos.2 hd
  have hx : (0 : ℚ) < num / den := div_pos (Nat.cast_pos.2 hn) hq
  -- the two logarithms leave two values for the one of the ratio
  have hlow : (num.log2 : ℤ) - den.log2 - 1 ≤ Int.log 2 (num / den : ℚ) := by
    rw [← two_zpow_le_iff hx, le_div_iff₀ hq]
    have h1 : (2 : ℚ) ^ num.log2 ≤ num := by exact_mod_cast Nat.log2_self_le hn.ne'
    have h2 : (den : ℚ) ≤ 2 ^ (den.log2 + 1) := by exact_mod_cast Nat.lt_log2_self.le
    calc (2 : ℚ) ^ ((num.log2 : ℤ) - den.log2 - 1) * den
        ≤ 2 ^ ((num.log2 : ℤ) - den.log2 - 1) * 2 ^ (den.log2 + 1) := by gcongr
      _ = 2 ^ num.log2 := by
        rw [← zpow_natCast, ← zpow_natCast, ← zpow_add₀ two_ne_zero]
        congr 1
        push_cast
        ring
      _ ≤ num := h1
  have hhigh : Int.log 2 (num / den : ℚ) < (num.log2 : ℤ) - den.log2 + 1 := by
    rw [← lt_two_zpow_iff hx, div_lt_iff₀ hq]
    have h1 : (num : ℚ) < 2 ^ (num.log2 + 1) := by exact_mod_cast Nat.lt_log2_self
    have h2 : (2 : ℚ) ^ den.log2 ≤ den := by exact_mod_cast Nat.log2_self_le hd.ne'
    calc (num : ℚ) < 2 ^ (num.log2 + 1) := h1
      _ = 2 ^ ((num.log2 : ℤ) - den.log2 + 1) * 2 ^ den.log2 := by
        rw [← zpow_natCast, ← zpow_natCast, ← zpow_add₀ two_ne_zero]
        congr 1
        push_cast
        ring
      _ ≤ 2 ^ ((num.log2 : ℤ) - den.log2 + 1) * den := by gcongr
  have htest : (scale num den ((num.log2 : ℤ) - den.log2 - 52)).1 <
      (scale num den ((num.log2 : ℤ) - den.log2 - 52)).2 * 2 ^ 52 ↔
        Int.log 2 (num / den : ℚ) < (num.log2 : ℤ) - den.log2 := by
    have hs : (0 : ℚ) < (scale num den ((num.log2 : ℤ) - den.log2 - 52)).2 := Nat.cast_pos.2 (scale_pos hd _ _)
    rw [← lt_two_zpow_iff hx, ← Nat.cast_lt (α := ℚ), Nat.cast_mul, mul_comm, ← div_lt_iff₀ hs, scale_eq,
      div_lt_iff₀ (by positivity), Nat.cast_pow,
      Nat.cast_ofNat, ← zpow_natCast, ← zpow_add₀ two_ne_zero, Nat.cast_ofNat, add_sub_cancel]
  unfold exponentOf grid
  simp only [htest]
  split <;> omega

/-- **The nearest magnitude depends on the ratio alone**, not on how it is written. -/
theorem ofRatio?_eq (num den : ℕ) : ofRatio? num den = nearest? (num / den) := by
  have hzero : (num / den : ℚ) = 0 ↔ num = 0 ∨ den = 0 := by
    rw [div_eq_zero_iff]
    exact_mod_cast Iff.rfl
  have hsignificand : ∀ n d, ¬ (num = 0 ∨ den = 0) → scale num den (exponentOf num den) = (n, d) →
      exponentOf num den = grid (num / den) ∧ divNearest n d = roundEven (num / den / 2 ^ grid (num / den)) := by
    intro n d h hs
    rw [not_or] at h
    have he := exponentOf_eq (Nat.pos_of_ne_zero h.1) (Nat.pos_of_ne_zero h.2)
    have hpos := scale_pos (Nat.pos_of_ne_zero h.2) num (exponentOf num den)
    have heq := scale_eq num den (exponentOf num den)
    rw [hs] at hpos heq
    exact ⟨he, by rw [divNearest_eq n hpos, heq, he]⟩
  unfold nearest?
  fun_cases ofRatio? num den with
  | case1 h => rw [if_pos (hzero.2 h)]
  | case2 h exponent n d hs significand hc =>
    obtain ⟨he, hd⟩ := hsignificand n d h hs
    rw [if_neg (mt hzero.1 h), ← hd, if_pos hc, ← he]
  | case3 h exponent n d hs significand hc =>
    obtain ⟨he, hd⟩ := hsignificand n d h hs
    rw [if_neg (mt hzero.1 h), ← hd, if_neg hc, ← he]

/-! ## Decimals -/

theorem ofParts?_self (m : Magnitude) : ofParts? m.significand m.exponent = some m := dif_pos m.canonical

theorem ofParts?_eq_none {significand : ℕ} {exponent : ℤ} (h : 971 < exponent) : ofParts? significand exponent = none :=
  dif_neg fun hc => absurd hc.2.2.1 (by omega)

/-- A number beyond all magnitudes has no nearest one. -/
theorem nearest?_of_large {x : ℚ} (h : 2 ^ 1024 ≤ x) : nearest? x = none := by
  have hx : 0 < x := lt_of_lt_of_le (by positivity) h
  have hlog : 1024 ≤ Int.log 2 x := (two_zpow_le_iff hx).1 (by exact_mod_cast h)
  have hgrid : 971 < grid x := lt_max_of_lt_right (by omega)
  unfold nearest?
  rw [if_neg hx.ne', ofParts?_eq_none hgrid, ofParts?_eq_none (by omega), ite_self]

/-- A number below one half becomes nought. -/
theorem roundEven_of_small {x : ℚ} (h : 2 * x < 1) : roundEven x = 0 := by
  have hf : ⌊x⌋₊ = 0 := Nat.floor_eq_zero.2 (by linarith)
  rw [roundEven, hf, Nat.cast_zero, sub_zero, if_pos h]

/-- The nearest magnitude of a number below all of them is nought. -/
theorem nearest?_of_small {x : ℚ} (hx : 0 < x) (h : x < 2 ^ (-1075 : ℤ)) : nearest? x = some nought := by
  have hlog : Int.log 2 x < -1075 := (lt_two_zpow_iff hx).1 h
  have hgrid : grid x = -1074 := max_eq_left (by omega)
  have hzero : roundEven (x / 2 ^ (-1074 : ℤ)) = 0 := by
    refine roundEven_of_small ?_
    rw [← mul_div_assoc, div_lt_one (by positivity)]
    calc 2 * x < 2 * 2 ^ (-1075 : ℤ) := by linarith
      _ = 2 ^ (-1074 : ℤ) := by rw [← zpow_one_add₀ two_ne_zero]; rfl
  unfold nearest?
  rw [if_neg hx.ne', hgrid, hzero]
  rfl

/-- The bounds on the exponent of a decimal lie beyond the bounds on the exponent of a magnitude. -/
theorem two_pow_le_ten_pow : 2 ^ 1024 ≤ 10 ^ 311 ∧ 2 ^ 1075 ≤ 10 ^ 400 := by decide +kernel

/-- **The nearest magnitude depends on the decimal as a number alone**; the bounds on its exponent only spare work. -/
theorem ofDecimal?_eq (coefficient : ℕ) (exponent : ℤ) :
    ofDecimal? coefficient exponent = nearest? (coefficient * 10 ^ exponent) := by
  fun_cases ofDecimal? coefficient exponent with
  | case1 _ h => rw [h, Nat.cast_zero, zero_mul, nearest?, if_pos rfl]
  | case2 _ hc he =>
    have h1 : (1 : ℚ) ≤ coefficient := by exact_mod_cast Nat.one_le_iff_ne_zero.2 hc
    have h2 : (10 : ℚ) ^ (311 : ℤ) ≤ 10 ^ exponent := zpow_le_zpow_right₀ (by norm_num) (by omega)
    refine (nearest?_of_large ?_).symm
    calc (2 : ℚ) ^ 1024 ≤ 10 ^ (311 : ℤ) := by exact_mod_cast two_pow_le_ten_pow.1
      _ ≤ 10 ^ exponent := h2
      _ ≤ coefficient * 10 ^ exponent := le_mul_of_one_le_left (by positivity) h1
  | case3 _ hc he hl =>
    have h1 : (coefficient : ℚ) < 2 ^ ((coefficient.log2 : ℤ) + 1) := by
      exact_mod_cast Nat.lt_log2_self
    have h2 : (2 : ℚ) ^ ((coefficient.log2 : ℤ) + 1) ≤ 10 ^ ((coefficient.log2 : ℤ) + 1) :=
      zpow_le_zpow_left₀ (by omega) (by norm_num) (by norm_num)
    have h3 : (10 : ℚ) ^ ((coefficient.log2 : ℤ) + 1 + exponent) ≤ 10 ^ (-400 : ℤ) :=
      zpow_le_zpow_right₀ (by norm_num) (by omega)
    have h4 : (10 : ℚ) ^ (-400 : ℤ) ≤ 2 ^ (-1075 : ℤ) := by
      rw [zpow_neg, zpow_neg]
      exact inv_anti₀ (by positivity) (by exact_mod_cast two_pow_le_ten_pow.2)
    refine (nearest?_of_small (mul_pos (Nat.cast_pos.2 (Nat.pos_of_ne_zero hc)) (by positivity)) ?_).symm
    calc (coefficient : ℚ) * 10 ^ exponent
        < 10 ^ ((coefficient.log2 : ℤ) + 1) * 10 ^ exponent := by
          refine mul_lt_mul_of_pos_right (lt_of_lt_of_le h1 h2) (by positivity)
      _ = 10 ^ ((coefficient.log2 : ℤ) + 1 + exponent) := (zpow_add₀ (by norm_num) _ _).symm
      _ ≤ 2 ^ (-1075 : ℤ) := h3.trans h4
  | case4 hc e _ _ =>
    rw [ofRatio?_eq, Nat.cast_one, div_one, Nat.cast_mul, Nat.cast_pow, Int.ofNat_eq_natCast, zpow_natCast]
    rfl
  | case5 hc e _ _ =>
    rw [ofRatio?_eq, Nat.cast_pow, zpow_negSucc, div_eq_mul_inv]
    rfl

end LanguageSessions.Magnitude
