import LanguageSessions.Number.Shortest
import LanguageSessions.Proofs.Number.Rounding

/-!
# Shortest decimals read back

The shortest decimal of a magnitude is read as the magnitude itself (`nearest?_shortest`). A number that is as near to
a magnitude as 17 digits allow is read as it (`nearest?_of_near`), and the leading digit is found no higher than it
stands (`ten_zpow_leadingExponent_le`), so that on the finest grid one of the two neighbours reads back.
-/

namespace LanguageSessions.Magnitude

/-! ## Numbers near a magnitude -/

theorem roundEven_of_near {x : ℚ} {n : ℕ} (hx : 0 ≤ x) (h : |x - n| < 1 / 2) : roundEven x = n := by
  rw [abs_lt] at h
  unfold roundEven
  rcases le_or_gt (n : ℚ) x with hle | hlt
  · have hf : ⌊x⌋₊ = n := (Nat.floor_eq_iff hx).2 ⟨hle, by linarith⟩
    rw [hf, if_pos (by linarith)]
  · obtain _ | n := n
    · rw [Nat.cast_zero] at hlt
      exact absurd hx (not_le.2 hlt)
    · push_cast at h hlt
      have hf : ⌊x⌋₊ = n := (Nat.floor_eq_iff hx).2 ⟨by linarith, hlt⟩
      rw [hf, if_neg (by linarith), if_pos (by linarith)]

section Near

variable {m : Magnitude} {x : ℚ}

theorem grid_eq (hx : 0 < x) {exponent : ℤ} (hlow : 2 ^ (exponent + 52) ≤ x ∨ exponent = -1074)
    (hhigh : x < 2 ^ (exponent + 53)) (he : -1074 ≤ exponent) : grid x = exponent := by
  have h1 := (lt_two_zpow_iff hx).1 hhigh
  unfold grid
  rcases hlow with hlow | rfl
  · have h2 := (two_zpow_le_iff hx).1 hlow
    omega
  · omega

/-- **A number as near to a magnitude as 17 digits allow is read as the magnitude.** -/
theorem nearest?_of_near (hm : 0 < m.significand) (h : |x - m.value| * (2 * 10 ^ 16) ≤ m.value) :
    nearest? x = some m := by
  obtain ⟨hs, he, -, hnormal⟩ := m.canonical
  have hu : (0 : ℚ) < 2 ^ m.exponent := by positivity
  have hs1 : (1 : ℚ) ≤ m.significand := by exact_mod_cast hm
  have hs2 : (m.significand : ℚ) + 1 ≤ 2 ^ 53 := by exact_mod_cast hs
  -- everything in units of the last digit of the magnitude
  obtain ⟨y, rfl⟩ : ∃ y, x = y * 2 ^ m.exponent := ⟨x / 2 ^ m.exponent, (div_mul_cancel₀ _ hu.ne').symm⟩
  have hy : |y - m.significand| * (2 * 10 ^ 16) ≤ m.significand := by
    rw [value, ← sub_mul, abs_mul, abs_of_pos hu, mul_right_comm] at h
    exact le_of_mul_le_mul_right h hu
  have hnear : |y - m.significand| < 1 / 2 := by linarith
  have hbounds := abs_lt.1 hnear
  have hypos : 0 < y := by linarith
  have hx : 0 < y * 2 ^ m.exponent := mul_pos hypos hu
  have hpow : ∀ k : ℤ, (2 : ℚ) ^ (m.exponent + k) = 2 ^ k * 2 ^ m.exponent := fun k => by
    rw [zpow_add₀ two_ne_zero, mul_comm]
  have hsame : ofParts? m.significand m.exponent = some m := ofParts?_self m
  unfold nearest?
  rw [if_neg hx.ne']
  by_cases hcase : 2 ^ 52 ≤ y ∨ m.exponent = -1074
  · have hgrid : grid (y * 2 ^ m.exponent) = m.exponent := by
      refine grid_eq hx (hcase.imp_left fun hy => ?_) ?_ he
      · rw [hpow]
        exact mul_le_mul_of_nonneg_right (by exact_mod_cast hy) hu.le
      · rw [hpow]
        exact mul_lt_mul_of_pos_right (by exact_mod_cast (by linarith : y < 2 ^ 53)) hu
    rw [hgrid, mul_div_cancel_right₀ _ hu.ne', roundEven_of_near hypos.le hnear, if_neg hs.ne, hsame]
  · rw [not_or, not_le] at hcase
    -- the number lies below the least magnitude with this exponent, where the grid is finer
    have hleast : m.significand = 2 ^ 52 := by
      have hge : 2 ^ 52 ≤ m.significand := not_lt.1 (mt hnormal hcase.2)
      have hlt : (m.significand : ℚ) < 2 ^ 52 + 1 := by linarith
      have hlt' : m.significand < 2 ^ 52 + 1 := by exact_mod_cast hlt
      omega
    have hsq : (m.significand : ℚ) = 2 ^ 52 := by exact_mod_cast congrArg (Nat.cast (R := ℚ)) hleast
    rw [hsq] at hy
    have hclose : |y - 2 ^ 52| < 1 / 4 := by
      generalize |y - 2 ^ 52| = distance at hy ⊢
      linarith
    have hbelow := abs_lt.1 hclose
    have hgrid : grid (y * 2 ^ m.exponent) = m.exponent - 1 := by
      refine grid_eq hx (Or.inl ?_) ?_ (by omega)
      · rw [show m.exponent - 1 + 52 = m.exponent + 51 by ring, hpow]
        exact mul_le_mul_of_nonneg_right (by exact_mod_cast (by linarith : 2 ^ 51 ≤ y)) hu.le
      · rw [show m.exponent - 1 + 53 = m.exponent + 52 by ring, hpow]
        exact mul_lt_mul_of_pos_right (by exact_mod_cast hcase.1) hu
    have hround : roundEven (y * 2 ^ m.exponent / 2 ^ (m.exponent - 1)) = 2 ^ 53 := by
      have hdouble : y * 2 ^ m.exponent / 2 ^ (m.exponent - 1) = 2 * y := by
        rw [zpow_sub_one₀ two_ne_zero, mul_comm y, mul_div_mul_left _ _ hu.ne', div_inv_eq_mul, mul_comm]
      rw [hdouble]
      refine roundEven_of_near (by linarith) ?_
      rw [abs_lt]
      push_cast
      constructor <;> linarith
    rw [hgrid, if_pos hround, sub_add_cancel, ← hleast, hsame]

end Near

/-! ## Decimals as numbers -/

/-- The rational number that a decimal is. -/
def Decimal.value (decimal : Decimal) : ℚ := decimal.coefficient * 10 ^ decimal.exponent

theorem ofDecimal?_of_value {decimal : Decimal} {m : Magnitude} (h : nearest? decimal.value = some m) :
    ofDecimal? decimal.coefficient decimal.exponent = some m := (ofDecimal?_eq _ _).trans h

/-- Noughts at the end do not count. -/
theorem value_trim (decimal : Decimal) : decimal.trim.value = decimal.value := by
  fun_induction Decimal.trim decimal with
  | case1 decimal h ih =>
    have hc : decimal.coefficient = decimal.coefficient / 10 * 10 := by omega
    rw [ih, Decimal.value, Decimal.value, zpow_add_one₀ (by norm_num), mul_comm (10 ^ _) (10 : ℚ), ← mul_assoc]
    conv_rhs => rw [hc]
    push_cast
    rfl
  | case2 decimal h => rfl

theorem ratio_pos (m : Magnitude) : 0 < m.ratio.2 := by
  unfold ratio
  split
  · exact Nat.one_pos
  · exact Nat.pow_pos Nat.zero_lt_two

theorem value_eq_ratio (m : Magnitude) : m.value = m.ratio.1 / m.ratio.2 := by
  unfold value ratio
  split
  · next e he => rw [he, Nat.cast_mul, Nat.cast_pow, Nat.cast_one, div_one, Int.ofNat_eq_natCast, zpow_natCast]; rfl
  · next e he => rw [he, zpow_negSucc, Nat.cast_pow, div_eq_mul_inv]; rfl

/-- On a grid the magnitude is a whole number of its steps and a rest that is less than one. -/
theorem onGrid_eq (m : Magnitude) (exponent : ℤ) :
    (m.onGrid exponent).2.1 < (m.onGrid exponent).2.2 ∧
      m.value = ((m.onGrid exponent).1 + (m.onGrid exponent).2.1 / (m.onGrid exponent).2.2) * 10 ^ exponent := by
  have hdiv : ∀ n d : ℕ, 0 < d → ((n / d : ℕ) + (n % d : ℕ) / d : ℚ) = n / d := fun n d hd => by
    have hd' : (d : ℚ) ≠ 0 := (Nat.cast_pos.2 hd).ne'
    rw [eq_div_iff hd', add_mul, div_mul_cancel₀ _ hd', mul_comm]
    exact_mod_cast Nat.div_add_mod n d
  have hd := m.ratio_pos
  rw [value_eq_ratio]
  unfold onGrid
  dsimp only
  split
  · next e =>
    have hpos : 0 < m.ratio.2 * 10 ^ e := Nat.mul_pos hd (Nat.pow_pos (by decide))
    refine ⟨Nat.mod_lt _ hpos, ?_⟩
    dsimp only
    rw [hdiv _ _ hpos]
    push_cast
    rw [Int.ofNat_eq_natCast, zpow_natCast, ← div_div, div_mul_cancel₀ _ (by positivity)]
  · next e =>
    refine ⟨Nat.mod_lt _ hd, ?_⟩
    dsimp only
    rw [hdiv _ _ hd, zpow_negSucc]
    push_cast
    rw [mul_div_right_comm, mul_inv_cancel_right₀ (by positivity)]

theorem belowPower_iff (m : Magnitude) (exponent : ℤ) : m.belowPower exponent = true ↔ m.value < 10 ^ exponent := by
  have hd : (0 : ℚ) < m.ratio.2 := Nat.cast_pos.2 m.ratio_pos
  rw [value_eq_ratio, div_lt_iff₀ hd]
  unfold belowPower
  dsimp only
  split
  · next e =>
    rw [decide_eq_true_iff, Int.ofNat_eq_natCast, zpow_natCast, mul_comm]
    exact_mod_cast Iff.rfl
  · next e =>
    rw [decide_eq_true_iff, zpow_negSucc, ← div_eq_inv_mul, lt_div_iff₀ (by positivity)]
    exact_mod_cast Iff.rfl

/-! ## Neighbours on a grid -/

/-- The neighbours of a magnitude read back as it. -/
theorem nearest?_of_mem_neighbours {m : Magnitude} {exponent : ℤ} {decimal : Decimal}
    (h : decimal ∈ m.neighbours exponent) : nearest? decimal.value = some m := by
  unfold neighbours at h
  dsimp only at h
  have hread := of_decide_eq_true (List.mem_filter.1 h).2
  rwa [ofDecimal?_eq] at hread

/-- The first of two neighbours is the nearer one, which is at most half a step away. -/
theorem exists_nearer (m : Magnitude) (exponent : ℤ) : ∃ decimal others,
    m.neighbours exponent = (decimal :: others).filter (fun decimal =>
      ofDecimal? decimal.coefficient decimal.exponent = some m) ∧
    |decimal.value - m.value| * 2 ≤ 10 ^ exponent := by
  obtain ⟨hrest, hvalue⟩ := m.onGrid_eq exponent
  unfold neighbours
  generalize m.onGrid exponent = parts at hrest hvalue ⊢
  obtain ⟨whole, rest, unit⟩ := parts
  dsimp only at hrest hvalue ⊢
  have hstep : (0 : ℚ) < 10 ^ exponent := by positivity
  have hunit : (0 : ℚ) < unit := by exact_mod_cast lt_of_le_of_lt (Nat.zero_le _) hrest
  have hpart : (rest / unit : ℚ) * unit = rest := div_mul_cancel₀ _ hunit.ne'
  have hpart0 : (0 : ℚ) ≤ rest / unit := by positivity
  have hpart1 : (rest / unit : ℚ) < 1 := (div_lt_one hunit).2 (by exact_mod_cast hrest)
  have hdown : (rest / unit : ℚ) * 2 ≤ 1 → |(⟨whole, exponent⟩ : Decimal).value - m.value| * 2 ≤ 10 ^ exponent := by
    intro hp
    have hdist : (⟨whole, exponent⟩ : Decimal).value - m.value = -(rest / unit * 10 ^ exponent) := by
      rw [hvalue, Decimal.value]
      ring
    rw [hdist, abs_neg, abs_of_nonneg (mul_nonneg hpart0 hstep.le), mul_right_comm]
    exact mul_le_of_le_one_left hstep.le hp
  have hup : 1 ≤ (rest / unit : ℚ) * 2 → |(⟨whole + 1, exponent⟩ : Decimal).value - m.value| * 2 ≤ 10 ^ exponent := by
    intro hp
    have hdist : (⟨whole + 1, exponent⟩ : Decimal).value - m.value = (1 - rest / unit) * 10 ^ exponent := by
      rw [hvalue, Decimal.value]
      push_cast
      ring
    rw [hdist, abs_of_nonneg (mul_nonneg (by linarith) hstep.le), mul_right_comm]
    exact mul_le_of_le_one_left hstep.le (by linarith)
  have htwice : (rest / unit : ℚ) * 2 = (2 * rest : ℕ) / unit := by
    push_cast
    rw [div_mul_eq_mul_div, mul_comm]
  rw [htwice] at hdown hup
  have hle : 2 * rest ≤ unit → ((2 * rest : ℕ) / unit : ℚ) ≤ 1 := fun h => (div_le_one hunit).2 (by exact_mod_cast h)
  have hge : unit ≤ 2 * rest → 1 ≤ ((2 * rest : ℕ) / unit : ℚ) := fun h => (one_le_div hunit).2 (by exact_mod_cast h)
  split
  · exact ⟨_, _, rfl, hdown (hle (by omega))⟩
  · split
    · exact ⟨_, _, rfl, hup (hge (by omega))⟩
    · split
      · exact ⟨_, _, rfl, hdown (hle (by omega))⟩
      · exact ⟨_, _, rfl, hup (hge (by omega))⟩

/-- On a grid of 17 digits one of the two neighbours reads back. -/
theorem neighbours_ne_nil {m : Magnitude} (hm : 0 < m.significand) {exponent : ℤ}
    (h : 10 ^ (exponent + 16) ≤ m.value) : m.neighbours exponent ≠ [] := by
  obtain ⟨decimal, others, hn, hnear⟩ := m.exists_nearer exponent
  have hread : nearest? decimal.value = some m := by
    refine nearest?_of_near hm ?_
    calc |decimal.value - m.value| * (2 * 10 ^ 16) = |decimal.value - m.value| * 2 * 10 ^ 16 := (mul_assoc _ _ _).symm
      _ ≤ 10 ^ exponent * 10 ^ 16 := mul_le_mul_of_nonneg_right hnear (by norm_num)
      _ = 10 ^ (exponent + 16) := by rw [zpow_add₀ (by norm_num)]; rfl
      _ ≤ m.value := h
  rw [hn, List.filter_cons_of_pos (by rw [ofDecimal?_of_value hread]; exact decide_eq_true rfl)]
  exact List.cons_ne_nil _ _

/-! ## The leading digit -/

/-- A power of ten is no greater than a power of two, if its exponent keeps below a fraction that is less than the
logarithm. -/
theorem ten_zpow_le_two_zpow {k l : ℤ} (h : 0 ≤ k ∧ 196 * k ≤ 59 * l ∨ k ≤ 0 ∧ 93 * k ≤ 28 * l) :
    (10 : ℚ) ^ k ≤ 2 ^ l := by
  rcases h with ⟨hk, h⟩ | ⟨hk, h⟩
  · have hbase : (10 : ℚ) ^ (59 : ℤ) ≤ 2 ^ (196 : ℤ) := by norm_num
    refine le_of_pow_le_pow_left₀ (n := 59) (by decide) (by positivity) ?_
    calc ((10 : ℚ) ^ k) ^ 59 = (10 ^ (59 : ℤ)) ^ k := by rw [← zpow_natCast, ← zpow_mul, ← zpow_mul, mul_comm]; rfl
      _ ≤ (2 ^ (196 : ℤ)) ^ k := zpow_le_zpow_left₀ hk (by positivity) hbase
      _ = 2 ^ (196 * k) := (zpow_mul _ _ _).symm
      _ ≤ 2 ^ (59 * l) := zpow_le_zpow_right₀ (by norm_num) h
      _ = (2 ^ l) ^ 59 := by rw [← zpow_natCast, ← zpow_mul, mul_comm]; rfl
  · have hbase : (2 : ℚ) ^ (93 : ℤ) ≤ 10 ^ (28 : ℤ) := by norm_num
    have hpow := zpow_le_zpow_left₀ (neg_nonneg.2 hk) (by positivity) hbase
    refine le_of_pow_le_pow_left₀ (n := 28) (by decide) (by positivity) ?_
    calc ((10 : ℚ) ^ k) ^ 28 = ((10 ^ (28 : ℤ)) ^ (-k))⁻¹ := by
          rw [← zpow_natCast, ← zpow_mul, ← zpow_mul, ← zpow_neg, mul_neg, neg_neg, mul_comm]; rfl
      _ ≤ ((2 ^ (93 : ℤ)) ^ (-k))⁻¹ := inv_anti₀ (by positivity) hpow
      _ = 2 ^ (93 * k) := by rw [← zpow_mul, ← zpow_neg, mul_neg, neg_neg]
      _ ≤ 2 ^ (28 * l) := zpow_le_zpow_right₀ (by norm_num) h
      _ = (2 ^ l) ^ 28 := by rw [← zpow_natCast, ← zpow_mul, mul_comm]; rfl

/-- The leading digit is found no higher than it stands. -/
theorem ten_zpow_leadingExponent_le {m : Magnitude} (hm : 0 < m.significand) : 10 ^ m.leadingExponent ≤ m.value := by
  obtain ⟨hs, he, he', -⟩ := m.canonical
  have hlog : m.significand.log2 < 53 := (Nat.log2_lt hm.ne').2 hs
  have htwo : (2 : ℚ) ^ ((m.significand.log2 : ℤ) + m.exponent) ≤ m.value := by
    rw [zpow_add₀ two_ne_zero, value, zpow_natCast]
    exact mul_le_mul_of_nonneg_right (by exact_mod_cast Nat.log2_self_le hm.ne') (by positivity)
  have hreached : ∀ k, m.belowPower k = false → 10 ^ k ≤ m.value := fun k hk => by
    rw [← not_lt, ← belowPower_iff, hk]
    exact Bool.false_ne_true
  unfold leadingExponent
  dsimp only
  generalize hg : ((m.significand.log2 : ℤ) + m.exponent) * 30103 / 100000 = guess
  have hfirst : 10 ^ (guess - 1) ≤ m.value := by
    refine (ten_zpow_le_two_zpow ?_).trans htwo
    omega
  simp only [List.find?_cons, List.find?_nil]
  -- each guess that is passed over shows that the next one is reached
  cases h0 : m.belowPower (guess - 1 + 1) with
  | true => exact hfirst
  | false =>
    cases h1 : m.belowPower (guess + 1) with
    | true => exact sub_add_cancel guess 1 ▸ hreached _ h0
    | false =>
      cases h2 : m.belowPower (guess + 1 + 1) with
      | true => exact hreached _ h1
      | false => exact add_assoc guess 1 1 ▸ hreached _ h2

/-! ## The shortest decimal -/

theorem eq_nought {m : Magnitude} (h : m.significand = 0) : m = nought := by
  obtain ⟨significand, exponent, hc⟩ := m
  obtain rfl : significand = 0 := h
  obtain rfl : exponent = -1074 := hc.2.2.2 (Nat.pow_pos Nat.zero_lt_two)
  rfl

/-- **The shortest decimal of a magnitude reads back as the magnitude.** -/
theorem nearest?_shortest (m : Magnitude) : nearest? m.shortest.value = some m := by
  unfold shortest
  split
  · next h =>
    have hzero : (⟨0, 0⟩ : Decimal).value = 0 := by rw [Decimal.value, Nat.cast_zero, zero_mul]
    rw [eq_nought h, hzero, nearest?, if_pos rfl]
  · next h =>
    have hm := Nat.pos_of_ne_zero h
    dsimp only
    split
    · next decimal hd =>
      obtain ⟨exponent, -, hhead⟩ := List.exists_of_findSome?_eq_some hd
      rw [value_trim]
      exact nearest?_of_mem_neighbours (List.mem_of_head? hhead)
    · next hnone =>
      -- the finest grid has a neighbour that reads back
      have hmem : m.leadingExponent - 16 ∈ (List.range 17).map fun digits : ℕ => m.leadingExponent - (digits : ℤ) :=
        List.mem_map.2 ⟨16, List.mem_range.2 (by decide), rfl⟩
      have hpower : 10 ^ (m.leadingExponent - 16 + 16) ≤ m.value := by
        rw [sub_add_cancel]
        exact ten_zpow_leadingExponent_le hm
      exact absurd (List.head?_eq_none_iff.1 (List.findSome?_eq_none_iff.1 hnone _ hmem)) (neighbours_ne_nil hm hpower)

end LanguageSessions.Magnitude
