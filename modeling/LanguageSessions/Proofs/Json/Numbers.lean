import LanguageSessions.Json.Parser
import LanguageSessions.Json.Printer
import LanguageSessions.Proofs.Number.Spelling

/-!
# Numbers in JSON

A number is read up to the place where it ends, whatever comes behind it (`Ends`). An integer is read from its decimal
digits, unless they are too many (`number_intDigits`), and a finite floating-point number from its text
(`number_floatText`), since the text spells a decimal that is rounded to the number.
-/

namespace LanguageSessions.Json

open Text

/-- What may stand behind a value: nothing, or a character that ends it. -/
def Ends (rest : List Char) : Prop := ∀ c ∈ rest.head?, c = ',' ∨ c = ']' ∨ c = '\x7d'

section Digits

variable {values : List ℕ} {rest : List Char}

theorem asciiDigit?_digitChar : ∀ d < 10, asciiDigit? (digitChar d) = some d := by decide

/-- Digits are taken up to the first character that is none. -/
theorem spanDigits_append (hv : ∀ d ∈ values, d < 10) (hr : ∀ c ∈ rest.head?, asciiDigit? c = none) :
    Numeral.spanDigits (values.map digitChar ++ rest) = (values, rest) := by
  induction values with
  | nil =>
    cases rest with
    | nil => rfl
    | cons c rest => rw [List.map_nil, List.nil_append, Numeral.spanDigits, hr c rfl]
  | cons d values ih =>
    rw [List.map_cons, List.cons_append, Numeral.spanDigits, asciiDigit?_digitChar d (hv d List.mem_cons_self),
      ih fun d hd => hv d (List.mem_cons_of_mem _ hd)]

theorem digitChar_ne_minus : ∀ d < 10, digitChar d ≠ '-' ∧ (digitChar d = '0' → d = 0) := by decide

/-- Digits that begin with nought are the nought alone. -/
theorem eq_zero_of_whole (hw : IsWhole values) {tail : List Char} (h : values.map digitChar ++ rest = '0' :: tail) :
    values = [0] ∧ tail = rest := by
  obtain _ | ⟨d, others⟩ := values
  · exact absurd rfl hw.ne_nil
  · obtain ⟨hzero, htail⟩ := List.cons.inj h
    obtain rfl := (digitChar_ne_minus d (hw.lt d List.mem_cons_self)).2 hzero
    obtain rfl : others = [] := (List.cons.inj (hw.leading rfl)).2
    exact ⟨rfl, htail.symm⟩

/-- Digits do not begin with a sign. -/
theorem ne_minus_of_whole (hw : IsWhole values) {tail : List Char} (h : values.map digitChar ++ rest = '-' :: tail) :
    False := by
  obtain _ | ⟨d, others⟩ := values
  · exact hw.ne_nil rfl
  · exact (digitChar_ne_minus d (hw.lt d List.mem_cons_self)).1 (List.cons.inj h).1

theorem takeWhole_minus (hw : IsWhole values) (hr : ∀ c ∈ rest.head?, asciiDigit? c = none) :
    takeWhole ('-' :: (values.map digitChar ++ rest)) = some (true, values, rest) := by
  have hspan := spanDigits_append hw.lt hr
  fun_cases takeWhole ('-' :: (values.map digitChar ++ rest)) with
  | case1 negative tail h =>
    obtain ⟨rfl, hb⟩ := Prod.mk.inj h
    obtain ⟨rfl, rfl⟩ := eq_zero_of_whole hw hb
    rfl
  | case2 negative body _ left hnone h =>
    obtain ⟨rfl, rfl⟩ := Prod.mk.inj h
    rw [hspan] at hnone
    cases hnone
    exact absurd rfl hw.ne_nil
  | case3 negative body _ digits left _ hdigits h =>
    obtain ⟨rfl, rfl⟩ := Prod.mk.inj h
    rw [hspan] at hdigits
    cases hdigits
    rfl

theorem takeWhole_digits (hw : IsWhole values) (hr : ∀ c ∈ rest.head?, asciiDigit? c = none) :
    takeWhole (values.map digitChar ++ rest) = some (false, values, rest) := by
  have hspan := spanDigits_append hw.lt hr
  fun_cases takeWhole (values.map digitChar ++ rest) with
  | case1 negative tail h =>
    split at h
    · next heq => exact (ne_minus_of_whole hw heq).elim
    · obtain ⟨rfl, hb⟩ := Prod.mk.inj h
      obtain ⟨rfl, rfl⟩ := eq_zero_of_whole hw hb
      rfl
  | case2 negative body _ left hnone h =>
    split at h
    · next heq => exact (ne_minus_of_whole hw heq).elim
    · obtain ⟨rfl, rfl⟩ := Prod.mk.inj h
      rw [hspan] at hnone
      cases hnone
      exact absurd rfl hw.ne_nil
  | case3 negative body _ digits left _ hdigits h =>
    split at h
    · next heq => exact (ne_minus_of_whole hw heq).elim
    · obtain ⟨rfl, rfl⟩ := Prod.mk.inj h
      rw [hspan] at hdigits
      cases hdigits
      rfl

/-- The sign and the digits before a point are taken. -/
theorem takeWhole_append (negative : Bool) (hw : IsWhole values) (hr : ∀ c ∈ rest.head?, asciiDigit? c = none) :
    takeWhole ((if negative then ['-'] else []) ++ (values.map digitChar ++ rest)) = some (negative, values, rest) := by
  cases negative with
  | true => exact takeWhole_minus hw hr
  | false => exact takeWhole_digits hw hr

end Digits

section Parts

variable {s : Spelling} {rest : List Char}

/-- What stands behind a number is neither a digit nor a part of a number. -/
theorem Ends.not_number (h : Ends rest) :
    ∀ c ∈ rest.head?, asciiDigit? c = none ∧ c ≠ '.' ∧ c ≠ 'e' ∧ c ≠ 'E' := by
  intro c hc
  rcases h c hc with rfl | rfl | rfl <;> decide

theorem takeFraction_append (hs : s.WellFormed) (hr : ∀ c ∈ rest.head?, asciiDigit? c = none ∧ c ≠ '.') :
    takeFraction (s.fractionText ++ rest) = if s.fraction = [] then none else some (s.fraction, rest) := by
  unfold Spelling.fractionText
  split
  · cases rest with
    | nil => rfl
    | cons c rest =>
      rw [List.nil_append, takeFraction]
      exact fun rest heq => (hr c rfl).2 (List.cons.inj heq).1
  · next hne =>
    rw [List.cons_append, takeFraction, spanDigits_append hs.fraction fun c hc => (hr c hc).1]
    split
    · next heq => exact absurd (Prod.mk.inj heq).1 hne
    · rfl

theorem takeExponent_append (hs : s.WellFormed) (hr : ∀ c ∈ rest.head?, asciiDigit? c = none ∧ c ≠ 'e' ∧ c ≠ 'E') :
    takeExponent (s.exponentText ++ rest) = s.exponent.map fun _ => (s.scale, rest) := by
  unfold Spelling.exponentText Spelling.scale
  cases he : s.exponent with
  | none =>
    cases rest with
    | nil => rfl
    | cons c rest =>
      dsimp only
      rw [List.nil_append, takeExponent, if_neg (not_or.2 (hr c rfl).2)]
      rfl
  | some parts =>
    obtain ⟨negative, digits⟩ := parts
    obtain ⟨hne, hlt⟩ := hs.exponent negative digits he
    have hspan := spanDigits_append hlt fun c hc => (hr c hc).1
    have hsign : ∀ text, Numeral.takeSign ((if negative then '-' else '+') :: text) = (negative, text) := fun text => by
      cases negative <;> rfl
    dsimp only
    rw [List.cons_append, takeExponent, if_pos (Or.inl rfl), List.cons_append, hsign]
    dsimp only
    rw [hspan]
    split
    · next heq => exact absurd (Prod.mk.inj heq).1 hne
    · next heq =>
      obtain ⟨rfl, rfl⟩ := Prod.mk.inj heq
      rfl

theorem head_exponentText (hr : Ends rest) :
    ∀ c ∈ (s.exponentText ++ rest).head?, asciiDigit? c = none ∧ c ≠ '.' := by
  intro c hc
  unfold Spelling.exponentText at hc
  split at hc
  · exact ⟨(hr.not_number c hc).1, (hr.not_number c hc).2.1⟩
  · cases hc
    decide

theorem head_fractionText (hr : Ends rest) :
    ∀ c ∈ (s.fractionText ++ (s.exponentText ++ rest)).head?, asciiDigit? c = none := by
  intro c hc
  unfold Spelling.fractionText at hc
  split at hc
  · exact (head_exponentText hr c hc).1
  · cases hc
    decide

/-- **A number that is spelled out is read as it is spelled**: as an integer if it has neither a point nor an exponent,
and if it is not too long; as a floating-point number otherwise. -/
theorem number_text (negative : Bool) (hs : s.WellFormed) (hr : Ends rest) :
    number ((if negative then ['-'] else []) ++ (s.text ++ rest)) =
      if s.fraction = [] ∧ s.exponent = none then
        if Numeral.maxDigits < s.whole.length then .error .longInteger
        else .ok (.int (if negative then -(ofDigits s.whole : ℤ) else (ofDigits s.whole : ℤ)), rest)
      else .ok (.float (Numeral.decimal negative s.whole s.fraction s.scale), rest) := by
  have hwhole := takeWhole_append negative hs.whole (head_fractionText (s := s) hr)
  have hfraction := takeFraction_append hs (head_exponentText (s := s) hr)
  have hexponent := takeExponent_append hs fun c hc => ⟨(hr.not_number c hc).1, (hr.not_number c hc).2.2⟩
  rw [Spelling.text, List.append_assoc, List.append_assoc, number, hwhole]
  dsimp only
  rw [hfraction]
  by_cases hf : s.fraction = []
  · have htext : s.fractionText = [] := if_pos hf
    rw [if_pos hf, htext, List.nil_append, Option.getD_none]
    dsimp only
    rw [hexponent, hf]
    cases he : s.exponent with
    | none =>
      have htext' : s.exponentText = [] := by rw [Spelling.exponentText, he]
      rw [htext']
      rfl
    | some parts => rfl
  · have hright : ¬ (s.fraction = [] ∧ s.exponent = none) := fun h => hf h.1
    rw [if_neg hf, if_neg hright, Option.getD_some]
    dsimp only
    rw [hexponent]
    cases he : s.exponent with
    | none =>
      have htext' : s.exponentText = [] := by rw [Spelling.exponentText, he]
      have hscale : s.scale = 0 := by rw [Spelling.scale, he]
      rw [htext', hscale]
      rfl
    | some parts => rfl

/-- An integer is written as a spelling without a point and an exponent. -/
theorem exists_spelling_int (n : ℤ) : ∃ s : Spelling, s.WellFormed ∧
    intDigits n = (if decide (n < 0) then ['-'] else []) ++ s.text ∧ (s.fraction = [] ∧ s.exponent = none) ∧
    natDigits n.natAbs = s.whole.map digitChar ∧ ofDigits s.whole = n.natAbs := by
  obtain ⟨values, hw, heq, hof⟩ := exists_whole n.natAbs
  refine ⟨⟨values, [], none⟩, ⟨hw, nofun, nofun⟩, ?_, ⟨rfl, rfl⟩, heq, hof⟩
  have htext : (⟨values, [], none⟩ : Spelling).text = natDigits n.natAbs := by
    rw [heq]
    exact List.append_nil _
  rw [htext]
  cases n with
  | ofNat n => rfl
  | negSucc n => exact (if_pos (decide_eq_true (Int.negSucc_lt_zero n))).symm ▸ rfl

/-- **The decimal digits of an integer are read as the integer**, if they are not too many. -/
theorem number_intDigits {n : ℤ} (hn : (natDigits n.natAbs).length ≤ Numeral.maxDigits) (hr : Ends rest) :
    number (intDigits n ++ rest) = .ok (.int n, rest) := by
  obtain ⟨s, hs, ht, hint, heq, hof⟩ := exists_spelling_int n
  have hlen : ¬ Numeral.maxDigits < s.whole.length := by
    rw [heq, List.length_map] at hn
    exact not_lt.2 hn
  have hvalue : (if decide (n < 0) then -(n.natAbs : ℤ) else (n.natAbs : ℤ)) = n := by
    simp only [decide_eq_true_eq]
    omega
  rw [ht, List.append_assoc, number_text _ hs hr, if_pos hint, if_neg hlen, hof, hvalue]

/-- **The text of a finite floating-point number is read as the number.** -/
theorem number_floatText (style : FloatStyle) (negative : Bool) (m : Magnitude) (hr : Ends rest) :
    number ((Binary64.finite negative m).text style ++ rest) = .ok (.float (.finite negative m), rest) := by
  obtain ⟨s, hs, hf, ht, hv⟩ := Binary64.exists_spelling style m
  have hread : Magnitude.ofDecimal? (ofDigits (s.whole ++ s.fraction)) (s.scale - s.fraction.length) = some m := by
    rw [Magnitude.ofDecimal?_eq]
    exact (congrArg Magnitude.nearest? hv).trans m.nearest?_shortest
  have hfloat : ¬ (s.fraction = [] ∧ s.exponent = none) := fun h => hf.elim (· h.1) (·.1 h.2)
  rw [Binary64.text, ht, List.append_assoc, number_text negative hs hr, if_neg hfloat, Numeral.decimal,
    Binary64.ofDecimal, hread]

end Parts

end LanguageSessions.Json
