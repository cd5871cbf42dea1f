import LanguageSessions.Number.Numeral

/-!
# Reading decimal numerals

The decimal digits that `natDigits` writes are read back by `Numeral.integer?` as the number that they write, whatever
blanks stand around them (`integer?_natDigits`), as long as there are no more of them than a numeral may have.

- Taking blanks off both ends leaves a text that has none (`trim_append`).
- The digits of a number are the characters of values below ten that make up the number, with no nought in front
  (`exists_whole`), and each character is read as its value (`digitValues?_map`).
-/

namespace LanguageSessions.Text

/-! ## Blanks at the ends -/

section Trim

variable {p : Char → Bool} {front text back : List Char}

/-- Dropping stops at the first character outside the class. -/
theorem dropWhile_append_cons {c : Char} (hf : ∀ c ∈ front, p c = true) (hc : p c = false) (rest : List Char) :
    (front ++ c :: rest).dropWhile p = c :: rest := by
  induction front with
  | nil => rw [List.nil_append, List.dropWhile_cons, hc]; rfl
  | cons d front ih =>
    rw [List.cons_append, List.dropWhile_cons, hf d List.mem_cons_self]
    exact ih fun c hc => hf c (List.mem_cons_of_mem _ hc)

/-- Taking the characters of a class off both ends stops at a text that has none of them. -/
theorem trim_append (hf : ∀ c ∈ front, p c = true) (hne : text ≠ []) (ht : ∀ c ∈ text, p c = false)
    (hb : ∀ c ∈ back, p c = true) : trim p (front ++ text ++ back) = text := by
  obtain ⟨c, rest, rfl⟩ := List.exists_cons_of_ne_nil hne
  obtain ⟨d, rest', hr⟩ := List.exists_cons_of_ne_nil (mt List.reverse_eq_nil_iff.1 hne)
  have hd : d ∈ c :: rest := List.mem_reverse.1 (hr ▸ List.mem_cons_self)
  rw [trim, List.append_assoc, List.cons_append, dropWhile_append_cons hf (ht c List.mem_cons_self), ← List.cons_append,
    dropEndWhile, List.reverse_append, hr,
    dropWhile_append_cons (fun c hc => hb c (List.mem_reverse.1 hc)) (ht d hd), ← hr, List.reverse_reverse]

theorem trim_eq_self (ht : ∀ c ∈ text, p c = false) : trim p text = text := by
  cases text with
  | nil => rfl
  | cons c text =>
    have hblank : ∀ d ∈ ([] : List Char), p d = true := nofun
    have htrim := trim_append hblank (List.cons_ne_nil c text) ht hblank
    rwa [List.append_nil, List.nil_append] at htrim

end Trim

/-! ## Digits -/

theorem digitValue?_digitChar : ∀ d < 10, digitValue? (digitChar d) = some d := by decide

theorem isBlank_digitChar : ∀ d < 10, isBlank (digitChar d) = false := by decide

theorem digitChar_ne : ∀ d < 10, digitChar d ≠ '_' ∧ digitChar d ≠ '-' ∧ digitChar d ≠ '+' := by decide

/-- What is not blank is no white space. -/
theorem hasWhiteSpace_of_isBlank {c : Char} (h : isBlank c = false) : hasWhiteSpace c = false := by
  rw [isBlank, Bool.or_eq_false_iff] at h
  exact h.1

theorem ofDigits_append_singleton (values : List Nat) (d : Nat) :
    ofDigits (values ++ [d]) = ofDigits values * 10 + d := by
  rw [ofDigits, List.foldl_append]
  rfl

/-- Digits that may stand before a point: at least one, and no nought in front of others. -/
structure IsWhole (values : List Nat) : Prop where
  ne_nil : values ≠ []
  lt : ∀ d ∈ values, d < 10
  leading : values.head? = some 0 → values = [0]

/-- The digits of a number may stand before a point, and they make up the number. -/
theorem exists_whole (n : Nat) : ∃ values, IsWhole values ∧ natDigits n = values.map digitChar ∧ ofDigits values = n := by
  by_cases h : n < 10
  · refine ⟨[n], ⟨List.cons_ne_nil _ _, fun d hd => ?_, fun h0 => ?_⟩, ?_, ?_⟩
    · rw [List.mem_singleton.1 hd]; exact h
    · rw [Option.some.inj h0]
    · rw [natDigits, if_pos h]; rfl
    · exact Nat.zero_add n
  · obtain ⟨values, hw, heq, hof⟩ := exists_whole (n / 10)
    refine ⟨values ++ [n % 10], ⟨by simp, fun d hd => ?_, fun h0 => ?_⟩, ?_, ?_⟩
    · rcases List.mem_append.1 hd with hd | hd
      · exact hw.lt d hd
      · rw [List.mem_singleton.1 hd]; omega
    · -- a nought in front would be all of the digits before, which make up more
      obtain ⟨d, rest, rfl⟩ := List.exists_cons_of_ne_nil hw.ne_nil
      rw [hw.leading h0] at hof
      have : 0 = n / 10 := hof
      omega
    · rw [natDigits, if_neg h, heq, List.map_append]; rfl
    · rw [ofDigits_append_singleton, hof]; omega

/-- A property of the ten digits holds of all digits of a number. -/
theorem forall_mem_natDigits {P : Char → Prop} (h : ∀ d < 10, P (digitChar d)) (n : Nat) : ∀ c ∈ natDigits n, P c := by
  obtain ⟨values, hw, heq, -⟩ := exists_whole n
  intro c hc
  rw [heq] at hc
  obtain ⟨d, hd, rfl⟩ := List.mem_map.1 hc
  exact h d (hw.lt d hd)

theorem natDigits_ne_nil (n : Nat) : natDigits n ≠ [] := by
  obtain ⟨values, hw, heq, -⟩ := exists_whole n
  rw [heq, Ne, List.map_eq_nil_iff]
  exact hw.ne_nil

end LanguageSessions.Text

namespace LanguageSessions.Numeral

open Text

/-! ## Numerals -/

/-- The digits of values below ten are read as these values. -/
theorem digitValues?_map : ∀ {values : List Nat}, values ≠ [] → (∀ d ∈ values, d < 10) →
    digitValues? (values.map digitChar) = some values
  | [], h, _ => absurd rfl h
  | [d], _, h => by
    have hd := h d List.mem_cons_self
    rw [List.map_cons, List.map_nil, digitValues?, digitValue?_digitChar d hd]
    rfl
  | d :: e :: values, _, h => by
    have hd := h d List.mem_cons_self
    have he := h e (List.mem_cons_of_mem _ List.mem_cons_self)
    have htail : ∀ d ∈ e :: values, d < 10 := fun d hd => h d (List.mem_cons_of_mem _ hd)
    have ih := digitValues?_map (List.cons_ne_nil e values) htail
    rw [List.map_cons] at ih ⊢
    rw [List.map_cons, digitValues?, ih, digitValue?_digitChar d hd]
    · rfl
    · nofun
    · intro rest hr
      exact (digitChar_ne e he).1 (List.cons.inj hr).1

theorem takeSign_of_digit {d : Nat} (h : d < 10) (rest : List Char) :
    takeSign (digitChar d :: rest) = (false, digitChar d :: rest) := by
  have := digitChar_ne d h
  rw [takeSign]
  · exact fun rest hr => this.2.1 (List.cons.inj hr).1
  · exact fun rest hr => this.2.2 (List.cons.inj hr).1

/-- **A decimal numeral is read as the number that it writes**, if it has no more digits than a numeral may have;
blanks may stand around it. -/
theorem integer?_natDigits {n : Nat} {front back : List Char} (hf : ∀ c ∈ front, isBlank c = true)
    (hb : ∀ c ∈ back, isBlank c = true) (h : (natDigits n).length ≤ maxDigits) :
    integer? (trim isBlank (front ++ natDigits n ++ back)) = some (n : Int) := by
  have hn : ∀ c ∈ natDigits n, isBlank c = false := forall_mem_natDigits isBlank_digitChar n
  rw [trim_append hf (natDigits_ne_nil n) hn hb, integer?, trim_eq_self fun c hc => hasWhiteSpace_of_isBlank (hn c hc)]
  obtain ⟨values, hw, heq, hof⟩ := exists_whole n
  have hs : takeSign (natDigits n) = (false, natDigits n) := by
    rw [heq]
    cases values with
    | nil => exact absurd rfl hw.ne_nil
    | cons d values => exact takeSign_of_digit (hw.lt d List.mem_cons_self) _
  have hl : ¬ maxDigits < values.length := by
    rw [heq, List.length_map] at h
    omega
  rw [hs, heq]
  simp [digitValues?_map hw.ne_nil hw.lt, hl, hof]

end LanguageSessions.Numeral
