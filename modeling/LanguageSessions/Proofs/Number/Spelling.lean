import LanguageSessions.Number.FloatText
import LanguageSessions.Proofs.Number.Numeral
import LanguageSessions.Proofs.Number.Shortest

/-!
# How numbers are spelled

A `Spelling` is an unsigned number in digits: those before the point, those behind it, and those of an exponent. Every
magnitude is written as a spelling with a point or an exponent whose value is the one of its shortest decimal
(`exists_spelling`).
-/

namespace LanguageSessions.Text

theorem ofDigits_append (values others : List ℕ) :
    ofDigits (values ++ others) = ofDigits values * 10 ^ others.length + ofDigits others := by
  induction others using List.reverseRecOn with
  | nil => simp [ofDigits]
  | append_singleton others d ih =>
    rw [← List.append_assoc, ofDigits_append_singleton, ih, ofDigits_append_singleton, List.length_append,
      List.length_singleton, pow_succ]
    ring

theorem ofDigits_replicate_zero (k : ℕ) : ofDigits (List.replicate k 0) = 0 := by
  induction k with
  | zero => rfl
  | succ k ih => rw [List.replicate_succ', ofDigits_append_singleton, ih]

/-- An unsigned number in digits; `fraction` is empty if there is no point, and the flag of the exponent tells whether
it is negative. -/
structure Spelling where
  whole : List ℕ
  fraction : List ℕ
  exponent : Option (Bool × List ℕ)

namespace Spelling

/-- The digits stand where digits may stand. -/
structure WellFormed (s : Spelling) : Prop where
  whole : IsWhole s.whole
  fraction : ∀ d ∈ s.fraction, d < 10
  exponent : ∀ negative digits, s.exponent = some (negative, digits) → digits ≠ [] ∧ ∀ d ∈ digits, d < 10

/-- The point and what stands behind it. -/
def fractionText (s : Spelling) : List Char := if s.fraction = [] then [] else '.' :: s.fraction.map digitChar

/-- The exponent with its letter and its sign. -/
def exponentText (s : Spelling) : List Char :=
  match s.exponent with
  | none => []
  | some (negative, digits) => 'e' :: (if negative then '-' else '+') :: digits.map digitChar

/-- All that is written. -/
def text (s : Spelling) : List Char := s.whole.map digitChar ++ (s.fractionText ++ s.exponentText)

/-- The exponent as a number. -/
def scale (s : Spelling) : ℤ :=
  match s.exponent with
  | none => 0
  | some (negative, digits) => if negative then -(ofDigits digits : ℤ) else (ofDigits digits : ℤ)

/-- The number that is spelled. -/
def value (s : Spelling) : ℚ := ofDigits (s.whole ++ s.fraction) * 10 ^ (s.scale - s.fraction.length)

end Spelling

end LanguageSessions.Text

namespace LanguageSessions.Binary64

open Text Magnitude

/-- A decimal whose coefficient is nought has no power of ten. -/
theorem exponent_shortest {m : Magnitude} (h : m.shortest.coefficient = 0) : m.shortest.exponent = 0 := by
  have hread := m.nearest?_shortest
  have hzero : m.shortest.value = 0 := by rw [Decimal.value, h, Nat.cast_zero, zero_mul]
  rw [hzero, nearest?, if_pos rfl] at hread
  rw [← Option.some.inj hread]
  rfl

/-- A number with a sign and at least two digits, as the exponent of a spelling. -/
theorem exists_exponent (exponent : ℤ) : ∃ (negative : Bool) (digits : List ℕ),
    exponentText exponent = (if negative then '-' else '+') :: digits.map digitChar ∧
    (digits ≠ [] ∧ ∀ d ∈ digits, d < 10) ∧
    (if negative then -(ofDigits digits : ℤ) else (ofDigits digits : ℤ)) = exponent := by
  obtain ⟨values, hw, heq, hof⟩ := exists_whole exponent.natAbs
  have hvalue : ∀ digits, ofDigits digits = exponent.natAbs →
      (if decide (exponent < 0) then -(ofDigits digits : ℤ) else (ofDigits digits : ℤ)) = exponent := by
    intro digits hd
    rw [hd]
    by_cases h : exponent < 0
    · rw [if_pos (decide_eq_true h)]
      omega
    · rw [if_neg (by simpa using h)]
      omega
  have hsign : (if exponent < 0 then '-' else '+') = if decide (exponent < 0) = true then '-' else '+' := by
    simp only [decide_eq_true_eq]
  unfold exponentText
  dsimp only
  rw [heq, hsign]
  by_cases hshort : (values.map digitChar).length < 2
  · rw [if_pos hshort]
    have hlt : ∀ d ∈ 0 :: values, d < 10 := by
      intro d hd
      rcases List.mem_cons.1 hd with rfl | hd
      · decide
      · exact hw.lt d hd
    have hof' : ofDigits (0 :: values) = exponent.natAbs := hof
    exact ⟨_, 0 :: values, rfl, ⟨List.cons_ne_nil _ _, hlt⟩, hvalue _ hof'⟩
  · rw [if_neg hshort]
    exact ⟨_, values, rfl, ⟨hw.ne_nil, hw.lt⟩, hvalue _ hof⟩

section Forms

variable {values : List ℕ}

theorem positional_natCast (digits : List Char) (lead : ℕ) : positional digits lead =
    digits.take (lead + 1) ++ List.replicate (lead + 1 - digits.length) '0' ++
      '.' :: (if (digits.drop (lead + 1)).isEmpty then ['0'] else digits.drop (lead + 1)) := rfl

/-- A spelling without an exponent that is written as digits with a point. -/
def IsPositional (values : List ℕ) (exponent lead : ℤ) : Prop :=
  ∃ s : Spelling, s.WellFormed ∧ s.fraction ≠ [] ∧ positional (values.map digitChar) lead = s.text ∧
    s.value = ofDigits values * 10 ^ exponent

theorem map_replicate_zero (k : ℕ) : List.replicate k '0' = (List.replicate k 0).map digitChar := by
  rw [List.map_replicate]
  rfl

/-- The point stands among the digits. -/
theorem isPositional_of_lt (hw : IsWhole values) {exponent : ℤ} {lead : ℕ} (h : lead + 1 < values.length)
    (hlead : exponent + values.length - 1 = lead) : IsPositional values exponent lead := by
  have hdrop : values.drop (lead + 1) ≠ [] := mt List.drop_eq_nil_iff.1 (by omega)
  have hnone : lead + 1 - (values.map digitChar).length = 0 := by
    rw [List.length_map]
    omega
  refine ⟨⟨values.take (lead + 1), values.drop (lead + 1), none⟩, ⟨?_, ?_, nofun⟩, hdrop, ?_, ?_⟩
  · refine ⟨mt List.take_eq_nil_iff.1 (by simp [hw.ne_nil]), fun d hd => hw.lt d (List.mem_of_mem_take hd), ?_⟩
    intro h0
    rw [List.head?_take, if_neg (Nat.succ_ne_zero lead)] at h0
    rw [hw.leading h0] at h
    exact absurd h (by simp)
  · exact fun d hd => hw.lt d (List.mem_of_mem_drop hd)
  · have hfraction : ((values.drop (lead + 1)).map digitChar).isEmpty = false := by
      rw [List.isEmpty_map, List.isEmpty_eq_false_iff]
      exact hdrop
    rw [positional_natCast, hnone, ← List.map_drop, hfraction, ← List.map_take]
    simp only [Spelling.text, Spelling.fractionText, Spelling.exponentText, if_neg hdrop, List.append_nil,
      List.replicate_zero, Bool.false_eq_true, if_false]
  · have hscale : (0 : ℤ) - (values.length - (lead + 1) : ℕ) = exponent := by omega
    simp only [Spelling.value, Spelling.scale, List.take_append_drop, List.length_drop, hscale]

/-- The point stands behind the digits, and noughts fill the gap. -/
theorem isPositional_of_ge (hw : IsWhole values) {exponent : ℤ} {lead : ℕ} (h : values.length ≤ lead + 1)
    (hlead : exponent + values.length - 1 = lead) (h0 : values = [0] → exponent = 0) :
    IsPositional values exponent lead := by
  have hdrop : (values.map digitChar).drop (lead + 1) = [] := List.drop_eq_nil_of_le (by rwa [List.length_map])
  have htake : (values.map digitChar).take (lead + 1) = values.map digitChar :=
    List.take_of_length_le (by rwa [List.length_map])
  refine ⟨⟨values ++ List.replicate (lead + 1 - values.length) 0, [0], none⟩, ⟨?_, ?_, nofun⟩,
    List.cons_ne_nil _ _, ?_, ?_⟩
  · refine ⟨by simp [hw.ne_nil], fun d hd => ?_, fun hd => ?_⟩
    · rcases List.mem_append.1 hd with hd | hd
      · exact hw.lt d hd
      · rw [List.eq_of_mem_replicate hd]
        decide
    · rw [List.head?_append_of_ne_nil _ hw.ne_nil] at hd
      have hvalues := hw.leading hd
      have hlead0 : lead = 0 := by
        rw [h0 hvalues, hvalues] at hlead
        simpa using hlead.symm
      rw [hvalues, hlead0]
      rfl
  · intro d hd
    rw [List.mem_singleton.1 hd]
    decide
  · rw [positional_natCast, hdrop, htake, List.length_map, map_replicate_zero, ← List.map_append]
    rfl
  · have hof : ofDigits (values ++ List.replicate (lead + 1 - values.length) 0 ++ [0]) =
        ofDigits values * 10 ^ (lead + 1 - values.length + 1) := by
      rw [List.append_assoc, ← List.replicate_succ', ofDigits_append, ofDigits_replicate_zero, List.length_replicate,
        Nat.add_zero]
    have hscale : ((lead + 1 - values.length + 1 : ℕ) : ℤ) + (0 - ([0] : List ℕ).length) = exponent := by
      rw [List.length_singleton]
      omega
    simp only [Spelling.value, Spelling.scale, hof]
    rw [Nat.cast_mul, Nat.cast_pow, Nat.cast_ofNat, mul_assoc, ← zpow_natCast, ← zpow_add₀ (by norm_num), hscale]

/-- The point stands before the digits, with noughts between. -/
theorem isPositional_negSucc (hw : IsWhole values) {exponent : ℤ} {gap : ℕ}
    (hlead : exponent + values.length - 1 = .negSucc gap) : IsPositional values exponent (.negSucc gap) := by
  have hne : List.replicate gap 0 ++ values ≠ [] := List.append_ne_nil_of_right_ne_nil _ hw.ne_nil
  refine ⟨⟨[0], List.replicate gap 0 ++ values, none⟩, ⟨⟨List.cons_ne_nil _ _, ?_, fun _ => rfl⟩, ?_, nofun⟩, hne, ?_, ?_⟩
  · intro d hd
    rw [List.mem_singleton.1 hd]
    decide
  · intro d hd
    rcases List.mem_append.1 hd with hd | hd
    · rw [List.eq_of_mem_replicate hd]
      decide
    · exact hw.lt d hd
  · change '0' :: '.' :: List.replicate gap '0' ++ values.map digitChar = _
    simp only [Spelling.text, Spelling.fractionText, Spelling.exponentText, if_neg hne, List.append_nil, List.map_append,
      ← map_replicate_zero]
    rfl
  · have hscale : (0 : ℤ) - (gap + values.length : ℕ) = exponent := by omega
    have hzeros : [0] ++ (List.replicate gap 0 ++ values) = List.replicate (gap + 1) 0 ++ values := rfl
    simp only [Spelling.value, Spelling.scale, List.length_append, List.length_replicate, hscale]
    rw [hzeros, ofDigits_append, ofDigits_replicate_zero, Nat.zero_mul, Nat.zero_add]

theorem isPositional (hw : IsWhole values) {exponent lead : ℤ} (hlead : exponent + values.length - 1 = lead)
    (h0 : values = [0] → exponent = 0) : IsPositional values exponent lead := by
  obtain lead | gap := lead
  · rcases lt_or_ge (lead + 1) values.length with h | h
    · exact isPositional_of_lt hw h hlead
    · exact isPositional_of_ge hw h hlead h0
  · exact isPositional_negSucc hw hlead

/-- Digits with an exponent, as a spelling. -/
theorem exists_exponential (pointed : Bool) (hw : IsWhole values) (exponent : ℤ) :
    ∃ s : Spelling, s.WellFormed ∧ (s.exponent ≠ none ∧ (pointed = true → s.fraction ≠ [])) ∧
      (match values.map digitChar with
        | [digit] => if pointed then [digit, '.', '0'] else [digit]
        | digit :: fraction => digit :: '.' :: fraction
        | [] => []) ++ 'e' :: exponentText (exponent + values.length - 1) = s.text ∧
      s.value = ofDigits values * 10 ^ exponent := by
  obtain ⟨negative, digits, htext, hdigits, hscale⟩ := exists_exponent (exponent + values.length - 1)
  have hexponent : ∀ negative' digits', some (negative, digits) = some (negative', digits') →
      digits' ≠ [] ∧ ∀ d ∈ digits', d < 10 := by
    intro negative' digits' h
    cases h
    exact hdigits
  obtain _ | ⟨d, _ | ⟨e, values⟩⟩ := values
  · exact absurd rfl hw.ne_nil
  · have hd : IsWhole [d] := hw
    cases pointed with
    | true =>
      refine ⟨⟨[d], [0], some (negative, digits)⟩, ⟨hd, ?_, hexponent⟩, ⟨nofun, nofun⟩, ?_, ?_⟩
      · simp
      · rw [htext]; rfl
      · simp only [Spelling.value, Spelling.scale, hscale, ofDigits_append_singleton, List.length_singleton]
        rw [Nat.cast_one, add_sub_cancel_right, zpow_sub_one₀ (by norm_num), Nat.add_zero, Nat.cast_mul, Nat.cast_ofNat,
          mul_assoc, mul_left_comm (10 : ℚ), mul_inv_cancel₀ (by norm_num), mul_one]
    | false =>
      refine ⟨⟨[d], [], some (negative, digits)⟩, ⟨hd, nofun, hexponent⟩, ⟨nofun, nofun⟩, ?_, ?_⟩
      · rw [htext]; rfl
      · simp only [Spelling.value, Spelling.scale, hscale]
        simp
  · refine ⟨⟨[d], e :: values, some (negative, digits)⟩, ⟨⟨List.cons_ne_nil _ _, ?_, ?_⟩, ?_, hexponent⟩, ⟨nofun, nofun⟩, ?_, ?_⟩
    · intro c hc
      rw [List.mem_singleton.1 hc]
      exact hw.lt d List.mem_cons_self
    · intro h
      rw [Option.some.inj h]
    · exact fun c hc => hw.lt c (List.mem_cons_of_mem _ hc)
    · rw [htext]; rfl
    · have hplaces : exponent + ((d :: e :: values).length : ℤ) - 1 - (e :: values).length = exponent := by
        simp only [List.length_cons]
        omega
      simp only [Spelling.value, Spelling.scale, hscale, hplaces]
      rfl

end Forms

/-- **Every magnitude is written as a spelling with a point or an exponent**, and with a point in a style that asks for
one; its value is the one of the shortest decimal. -/
theorem exists_spelling (style : FloatStyle) (m : Magnitude) : ∃ s : Spelling, s.WellFormed ∧
    (s.fraction ≠ [] ∨ s.exponent ≠ none ∧ style.pointBeforeExponent = false) ∧ magnitudeText style m = s.text ∧ s.value = m.shortest.value := by
  obtain ⟨values, hw, heq, hof⟩ := exists_whole m.shortest.coefficient
  have h0 : values = [0] → m.shortest.exponent = 0 := by
    intro h
    rw [h] at hof
    exact exponent_shortest hof.symm
  unfold magnitudeText scientific
  dsimp only
  rw [heq, List.length_map]
  split
  · obtain ⟨s, hs, hf, ht, hv⟩ := isPositional hw rfl h0
    exact ⟨s, hs, Or.inl hf, ht, by rw [hv, hof]; rfl⟩
  · obtain ⟨s, hs, he, ht, hv⟩ := exists_exponential style.pointBeforeExponent hw m.shortest.exponent
    have hpoint : s.fraction ≠ [] ∨ s.exponent ≠ none ∧ style.pointBeforeExponent = false := by
      cases hstyle : style.pointBeforeExponent with
      | false => exact Or.inr ⟨he.1, rfl⟩
      | true => exact Or.inl (he.2 hstyle)
    exact ⟨s, hs, hpoint, ht, by rw [hv, hof]; rfl⟩

end LanguageSessions.Binary64
