import LanguageSessions.Proofs.Json.Numbers
import LanguageSessions.Proofs.Yaml.Scalars

/-!
# Numbers that were written

The text of a number above nought is a word that stands for the number (`ofText_writeFloat`, `isWord_writeFloat`): it is
spelled out with a point, or it is the word for infinity.
-/

namespace LanguageSessions

open Text

namespace Text.Spelling

variable {s : Spelling}

/-- What holds of digits and of the marks between them holds of every character of a spelling. -/
theorem forall_mem_text {P : Char → Prop} (hs : s.WellFormed) (hdigit : ∀ d < 10, P (digitChar d))
    (hmark : P '.' ∧ P 'e' ∧ P '-' ∧ P '+') : ∀ c ∈ s.text, P c := by
  obtain ⟨hpoint, hletter, hminus, hplus⟩ := hmark
  have hdigits : ∀ values : List ℕ, (∀ d ∈ values, d < 10) → ∀ c ∈ values.map digitChar, P c := by
    intro values hv c hc
    obtain ⟨d, hd, rfl⟩ := List.mem_map.1 hc
    exact hdigit d (hv d hd)
  have hfraction : ∀ c ∈ s.fractionText, P c := by
    intro c hc
    unfold fractionText at hc
    split at hc
    · cases hc
    · obtain rfl | hc := List.mem_cons.1 hc
      · exact hpoint
      · exact hdigits _ hs.fraction c hc
  have hexponent : ∀ c ∈ s.exponentText, P c := by
    intro c hc
    unfold exponentText at hc
    split at hc
    · cases hc
    next negative digits he =>
      obtain rfl | rfl | hc := by simpa only [List.mem_cons] using hc
      · exact hletter
      · cases negative
        · exact hplus
        · exact hminus
      · exact hdigits _ (hs.exponent _ _ he).2 c hc
  intro c hc
  rw [text, List.mem_append, List.mem_append] at hc
  obtain hc | hc | hc := hc
  · exact hdigits _ hs.whole.lt c hc
  · exact hfraction c hc
  · exact hexponent c hc

/-- A spelling begins with a digit. -/
theorem exists_digit (hs : s.WellFormed) : ∃ d < 10, ∃ rest, s.text = digitChar d :: rest := by
  obtain ⟨d, whole, hwhole⟩ := List.exists_cons_of_ne_nil hs.whole.ne_nil
  exact ⟨d, hs.whole.lt d (hwhole ▸ List.mem_cons_self), _, by rw [text, hwhole, List.map_cons, List.cons_append]⟩

/-- What stands behind the digits in front of the point. -/
theorem behindWhole (hpoint : s.fraction ≠ []) :
    s.fractionText ++ s.exponentText = '.' :: (s.fraction.map digitChar ++ s.exponentText) := by
  rw [fractionText, if_neg hpoint, List.cons_append]

theorem head_exponentText (s : Spelling) : ∀ c ∈ s.exponentText.head?, c = 'e' := by
  intro c hc
  unfold exponentText at hc
  split at hc <;> cases hc
  rfl

end Text.Spelling

/-! ## The number of a spelling -/

namespace Numeral

variable {s : Spelling}

theorem takeSign_text (hs : s.WellFormed) : takeSign s.text = (false, s.text) := by
  obtain ⟨d, hd, rest, htext⟩ := Spelling.exists_digit hs
  rw [htext, takeSign_of_digit hd]

theorem exponent?_text (hs : s.WellFormed) : exponent? s.exponentText = some s.scale := by
  unfold Spelling.exponentText Spelling.scale
  split
  · rfl
  next negative digits he =>
    obtain ⟨hne, hlt⟩ := hs.exponent negative digits he
    have hspan : spanDigits (digits.map digitChar) = (digits, []) := by
      simpa using Json.spanDigits_append hlt (nofun : ∀ c ∈ ([] : List Char).head?, asciiDigit? c = none)
    have hsign : ∀ text, takeSign ((if negative then '-' else '+') :: text) = (negative, text) := by
      intro text
      cases negative <;> rfl
    obtain ⟨d, digits, rfl⟩ := List.exists_cons_of_ne_nil hne
    rw [exponent?, if_pos (.inl rfl), hsign]
    dsimp only
    rw [hspan]

/-- **A spelling with a point is read as the number that it spells.** -/
theorem float?_text (hs : s.WellFormed) (hpoint : s.fraction ≠ []) :
    float? s.text = some (decimal false s.whole s.fraction s.scale) := by
  obtain ⟨d, hd, rest, htext⟩ := Spelling.exists_digit hs
  have hwords : ∀ d < 10, ∀ word ∈ ["inf".toList, "infinity".toList, "nan".toList],
      word.head? ≠ some (digitChar d).toLower := by decide
  have hword : ∀ word ∈ ["inf".toList, "infinity".toList, "nan".toList], lower s.text ≠ word := by
    rintro word hword rfl
    exact hwords d hd _ hword (by rw [htext, lower, List.map_cons, List.head?_cons])
  have hwhole : spanDigits s.text = (s.whole, '.' :: (s.fraction.map digitChar ++ s.exponentText)) := by
    rw [Spelling.text, Spelling.behindWhole hpoint]
    exact Json.spanDigits_append hs.whole.lt fun c hc => by
      cases hc
      decide
  have hfraction : spanDigits (s.fraction.map digitChar ++ s.exponentText) = (s.fraction, s.exponentText) :=
    Json.spanDigits_append hs.fraction fun c hc => by
      rw [Spelling.head_exponentText s c hc]
      decide
  have hempty : s.whole.isEmpty = false := by
    rw [List.isEmpty_eq_false_iff]
    exact hs.whole.ne_nil
  rw [float?, takeSign_text hs]
  dsimp only
  rw [if_neg (not_or.2 ⟨hword _ (by decide), hword _ (by decide)⟩), if_neg (hword _ (by decide)), hwhole]
  change (if (s.whole.isEmpty && (spanDigits (s.fraction.map digitChar ++ s.exponentText)).1.isEmpty) = true
    then none else _) = _
  rw [hempty, if_neg (by simp)]
  change (exponent? (spanDigits _).2).map (decimal false s.whole (spanDigits _).1) = _
  rw [hfraction, exponent?_text hs]
  rfl

end Numeral

/-! ## What a spelling stands for -/

namespace Yaml

variable {s : Spelling}

theorem span_digits {values : List ℕ} (hv : ∀ d ∈ values, d < 10) {rest : List Char}
    (hrest : ∀ c ∈ rest.head?, Meaning.isDigitOrUnderscore c = false) :
    (values.map digitChar ++ rest).span Meaning.isDigitOrUnderscore = (values.map digitChar, rest) := by
  have hdigit : ∀ d < 10, Meaning.isDigitOrUnderscore (digitChar d) = true := by decide
  have hdigits : ∀ c ∈ values.map digitChar, Meaning.isDigitOrUnderscore c = true := by
    intro c hc
    obtain ⟨d, hd, rfl⟩ := List.mem_map.1 hc
    exact hdigit d (hv d hd)
  have htake : rest.takeWhile Meaning.isDigitOrUnderscore = [] := by
    cases rest with
    | nil => rfl
    | cons c rest => rw [List.takeWhile_cons, hrest c rfl]; rfl
  have hdrop : rest.dropWhile Meaning.isDigitOrUnderscore = rest := by
    cases rest with
    | nil => rfl
    | cons c rest => rw [List.dropWhile_cons, hrest c rfl]; rfl
  rw [List.span_eq_takeWhile_dropWhile, List.takeWhile_append_of_pos hdigits, List.dropWhile_append_of_pos hdigits,
    htake, hdrop, List.append_nil]

theorem isExponent_text (hs : s.WellFormed) : Meaning.isExponent s.exponentText = true := by
  unfold Spelling.exponentText
  split
  · rfl
  next negative digits he =>
    obtain ⟨hne, hlt⟩ := hs.exponent negative digits he
    have hdigit : ∀ d < 10, isAsciiDigit (digitChar d) = true := by decide
    have hdigits : (digits.map digitChar).all isAsciiDigit = true := by
      rw [List.all_map, List.all_eq_true]
      exact fun d hd => hdigit d (hlt d hd)
    have hempty : (digits.map digitChar).isEmpty = false := by
      rw [List.isEmpty_eq_false_iff, Ne, List.map_eq_nil_iff]
      exact hne
    cases negative <;> simp [Meaning.isExponent, hdigits, hempty, -List.isEmpty_map, -List.all_map]

/-- A spelling with a point has the form of a decimal number. -/
theorem isDecimal_text (hs : s.WellFormed) (hpoint : s.fraction ≠ []) : Meaning.isDecimal s.text = true := by
  obtain ⟨d, hd, rest, htext⟩ := Spelling.exists_digit hs
  have hdot : ∀ d < 10, digitChar d ≠ '.' := by decide
  have hdigit : ∀ d < 10, isAsciiDigit (digitChar d) = true ∧ Meaning.isDigitOrUnderscore (digitChar d) = true := by
    decide
  have hwhole : Meaning.isWhole (s.whole.map digitChar) = true := by
    obtain ⟨e, whole, hwhole⟩ := List.exists_cons_of_ne_nil hs.whole.ne_nil
    rw [hwhole, List.map_cons, Meaning.isWhole, Bool.and_eq_true, List.all_map, List.all_eq_true]
    have hlt := hwhole ▸ hs.whole.lt
    rw [List.forall_mem_cons] at hlt
    exact ⟨(hdigit e hlt.1).1, fun e he => (hdigit e (hlt.2 e he)).2⟩
  have hspan : s.text.span Meaning.isDigitOrUnderscore =
      (s.whole.map digitChar, '.' :: (s.fraction.map digitChar ++ s.exponentText)) := by
    rw [Spelling.text, Spelling.behindWhole hpoint]
    exact span_digits hs.whole.lt fun c hc => by
      cases hc
      decide
  have hdrop : (s.fraction.map digitChar ++ s.exponentText).dropWhile Meaning.isDigitOrUnderscore = s.exponentText := by
    have hend : ∀ c ∈ s.exponentText.head?, Meaning.isDigitOrUnderscore c = false := fun c hc => by
      rw [Spelling.head_exponentText s c hc]
      decide
    have hsplit := span_digits hs.fraction hend
    rw [List.span_eq_takeWhile_dropWhile] at hsplit
    exact (Prod.mk.inj hsplit).2
  unfold Meaning.isDecimal
  split
  next heq => exact absurd (List.cons.inj (htext.symm.trans heq)).1 (hdot d hd)
  next =>
    rw [Numeral.takeSign_text hs]
    dsimp only
    rw [hspan]
    change (Meaning.isWhole (s.whole.map digitChar) && Meaning.isExponent (List.dropWhile _ _)) = true
    rw [hwhole, hdrop, isExponent_text hs]
    rfl

/-- A text that begins otherwise than some words is none of them. -/
theorem contains_eq_false {words : List String} {c : Char} (h : ∀ word ∈ words, word.toList.head? ≠ some c)
    (text : List Char) : words.contains (String.ofList (c :: text)) = false := by
  rw [Bool.eq_false_iff, Ne, List.contains_iff_mem]
  intro hm
  exact h _ hm (by rw [String.toList_ofList, List.head?_cons])

/-- The words that stand for something else than a text. -/
def reserved : List String :=
  ["", "~", "null", "Null", "NULL", "=", "<<", "yes", "Yes", "YES", "true", "True", "TRUE", "on", "On", "ON", "no",
    "No", "NO", "false", "False", "FALSE", "off", "Off", "OFF", ".inf", ".Inf", ".INF", ".nan", ".NaN", ".NAN"]

/-- **A spelling with a point stands for the number that it spells.** -/
theorem ofText_text (hs : s.WellFormed) (hpoint : s.fraction ≠ []) :
    Meaning.ofText s.text = .float (Numeral.decimal false s.whole s.fraction s.scale) := by
  obtain ⟨d, hd, rest, htext⟩ := Spelling.exists_digit hs
  have hwords : ∀ d < 10, ∀ word ∈ reserved, word.toList.head? ≠ some (digitChar d) := by decide
  have hnone : ∀ words : List String, (∀ word ∈ words, word ∈ reserved) →
      words.contains (String.ofList s.text) = false := by
    intro words hwords'
    rw [htext]
    exact contains_eq_false (fun word hword => hwords d hd word (hwords' word hword)) rest
  have hmark : ¬ (String.ofList s.text = "=" ∨ String.ofList s.text = "<<") := by
    have hmarks := hnone ["=", "<<"] (by decide)
    simpa using hmarks
  have hbool : Meaning.bool? (String.ofList s.text) = none := by
    rw [Meaning.bool?, hnone _ (by decide), hnone _ (by decide)]
    rfl
  have hdigits : Meaning.withoutUnderscores s.text = s.text := by
    have hplain : ∀ c ∈ s.text, c ≠ '_' := Spelling.forall_mem_text hs (by decide) (by decide)
    exact List.filter_eq_self.2 fun c hc => bne_iff_ne.2 (hplain c hc)
  have hfloat : Meaning.float? s.text = some (.float (Numeral.decimal false s.whole s.fraction s.scale)) := by
    rw [Meaning.float?, Numeral.takeSign_text hs]
    dsimp only
    rw [hnone _ (by decide), hnone _ (by decide), isDecimal_text hs hpoint, hdigits, Numeral.float?_text hs hpoint]
    rfl
  rw [Meaning.ofText, hnone _ (by decide), if_neg hmark, hbool, hfloat]
  rfl

/-- The number that a shortest decimal is written for. -/
theorem decimal_of_value {m : Magnitude} (hvalue : s.value = m.shortest.value) :
    Numeral.decimal false s.whole s.fraction s.scale = .finite false m := by
  have hread : Magnitude.ofDecimal? (ofDigits (s.whole ++ s.fraction)) (s.scale - s.fraction.length) = some m := by
    rw [Magnitude.ofDecimal?_eq]
    exact (congrArg Magnitude.nearest? hvalue).trans m.nearest?_shortest
  rw [Numeral.decimal, Binary64.ofDecimal, hread]

/-- A number above nought is spelled out with a point, unless it is infinity. -/
theorem writeFloat_of_positive {x : Binary64} (h : x.isPositive = true) :
    x = .infinite false ∨ ∃ s : Spelling, s.WellFormed ∧ s.fraction ≠ [] ∧ writeFloat x = s.text ∧
      Numeral.decimal false s.whole s.fraction s.scale = x := by
  cases x with
  | finite negative m =>
    rw [Binary64.isPositive, Bool.and_eq_true, Bool.not_eq_true'] at h
    obtain ⟨s, hs, hform, htext, hvalue⟩ := Binary64.exists_spelling floatStyle m
    have hpoint : s.fraction ≠ [] := hform.resolve_right fun hno => nomatch hno.2
    refine .inr ⟨s, hs, hpoint, ?_, ?_⟩
    · rw [writeFloat, Binary64.text, h.1, htext]
      rfl
    · rw [h.1, decimal_of_value hvalue]
  | infinite negative =>
    rw [Binary64.isPositive, Bool.not_eq_true'] at h
    rw [h]
    exact .inl rfl
  | nan => cases h

/-- **The text of a number above nought stands for the number.** -/
theorem ofText_writeFloat {x : Binary64} (h : x.isPositive = true) : Meaning.ofText (writeFloat x) = .float x := by
  obtain rfl | ⟨s, hs, hpoint, htext, hx⟩ := writeFloat_of_positive h
  · decide
  · rw [htext, ofText_text hs hpoint, hx]

/-- The text of a number above nought is a word. -/
theorem isWord_writeFloat {x : Binary64} (h : x.isPositive = true) : isWord (writeFloat x) = true := by
  obtain rfl | ⟨s, hs, -, htext, -⟩ := writeFloat_of_positive h
  · decide
  · obtain ⟨d, hd, rest, hfirst⟩ := Spelling.exists_digit hs
    have hplain : ∀ c ∈ s.text, (' ' ≤ c && c ≤ '~' && c != ' ' && c != ':' && c != '#') = true :=
      Spelling.forall_mem_text hs (by decide) (by decide)
    have hstart : ∀ d < 10, "#,[]\x7b\x7d&*!|>'\"%@\x60".toList.contains (digitChar d) = false ∧
        (digitChar d == '?' || digitChar d == ':' || digitChar d == '-') = false := by decide
    have hloose : startsWithIndicator s.text = false := by
      rw [hfirst, startsWithIndicator, (hstart d hd).1, (hstart d hd).2]
      rfl
    have hempty : s.text.isEmpty = false := by
      rw [hfirst]
      rfl
    rw [htext, isWord, hempty, hloose, List.all_eq_true.2 hplain]
    rfl

end Yaml

end LanguageSessions
