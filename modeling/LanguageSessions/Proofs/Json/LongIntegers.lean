import LanguageSessions.Proofs.Json.RoundTrip

/-!
# Texts with long integers

Whatever is read of a text leaves an end of it, and reading fails for an integer that is too long only in front of a
run of digits that is too long (`Yields`). Each reader yields something in this sense, over any fuel (`yields_all`), so
a text without such a run is JSON, or is refused as no JSON (`hasLongRun_of_longInteger`). A run that is too long and
nothing else is refused (`parse_replicate`).
-/

namespace LanguageSessions.Json

open Text

/-- A run of more digits than an integer may have, somewhere in a text. -/
def HasLongRun (text : List Char) : Prop :=
  ∃ run, run <:+: text ∧ (∀ c ∈ run, isAsciiDigit c = true) ∧ Numeral.maxDigits < run.length

/-- What may come of reading at the front of a text: something is read and an end of the text is left, or the text is
no JSON, or it has a run of digits that is too long. -/
inductive Yields {α : Type} (text : List Char) : Parsed α → Prop where
  | read {rest : List Char} (found : α) (suffix : rest <:+ text) : Yields text (.ok (found, rest))
  | notJson : Yields text (.error .notJson)
  | longInteger (long : HasLongRun text) : Yields text (.error .longInteger)

section Rules

variable {α : Type} {text rest : List Char} {c : Char} {parsed : Parsed α}

theorem HasLongRun.of_suffix (h : HasLongRun rest) (suffix : rest <:+ text) : HasLongRun text := by
  obtain ⟨run, infix', digits, long⟩ := h
  exact ⟨run, infix'.trans suffix.isInfix, digits, long⟩

/-- Reading may begin further on in a text. -/
theorem Yields.of_suffix (h : Yields rest parsed) (suffix : rest <:+ text) : Yields text parsed := by
  cases h with
  | read found left => exact .read found (left.trans suffix)
  | notJson => exact .notJson
  | longInteger long => exact .longInteger (long.of_suffix suffix)

/-- What was read may be put into something else, with the same rest; a fault stays. -/
theorem Yields.wrap {β : Type} {wrapped : Parsed β} (h : Yields text parsed)
    (read : ∀ found rest, parsed = .ok (found, rest) → ∃ whole, wrapped = .ok (whole, rest))
    (failed : ∀ e, parsed = .error e → wrapped = .error e) : Yields text wrapped := by
  cases h with
  | @read rest found suffix =>
    obtain ⟨whole, rfl⟩ := read found rest rfl
    exact .read whole suffix
  | notJson =>
    obtain rfl := failed _ rfl
    exact .notJson
  | longInteger long =>
    obtain rfl := failed _ rfl
    exact .longInteger long

theorem skipGap_suffix (text : List Char) : skipGap text <:+ text := List.dropWhile_suffix _

theorem suffix_of_cons (h : c :: rest <:+ text) : rest <:+ text := (List.suffix_cons c rest).trans h

/-- What stands behind a gap and a first character. -/
theorem suffix_of_skipGap (h : skipGap text = c :: rest) : rest <:+ text :=
  suffix_of_cons (h ▸ skipGap_suffix text)

end Rules

/-! ## Numbers -/

section Numbers

variable {text rest : List Char}

/-- The digits that are taken are a run in front of the rest. -/
theorem spanDigits_eq_append (text : List Char) :
    ∃ run, (∀ c ∈ run, isAsciiDigit c = true) ∧ run.length = (Numeral.spanDigits text).1.length ∧
      text = run ++ (Numeral.spanDigits text).2 := by
  induction text with
  | nil => exact ⟨[], nofun, rfl, rfl⟩
  | cons c text ih =>
    rw [Numeral.spanDigits]
    split
    · next d hd =>
      obtain ⟨run, digits, hlength, htext⟩ := ih
      refine ⟨c :: run, ?_, congrArg (· + 1) hlength, congrArg (c :: ·) htext⟩
      intro c' hm
      rcases List.mem_cons.1 hm with rfl | hm
      · rw [isAsciiDigit, hd]
        rfl
      · exact digits c' hm
    · exact ⟨[], nofun, rfl, rfl⟩

theorem spanDigits_suffix (text : List Char) : (Numeral.spanDigits text).2 <:+ text := by
  obtain ⟨run, -, -, htext⟩ := spanDigits_eq_append text
  exact ⟨run, htext.symm⟩

/-- The digits before a point are a run in the text, behind which the rest stands. -/
theorem takeWhole_suffix {negative : Bool} {whole : List Nat} (h : takeWhole text = some (negative, whole, rest)) :
    rest <:+ text ∧ (Numeral.maxDigits < whole.length → HasLongRun text) := by
  revert h
  fun_cases takeWhole text with
  | case1 sign left hsign =>
    intro h
    cases h
    refine ⟨?_, fun hlong => absurd hlong (by decide)⟩
    split at hsign
    · cases hsign
      exact suffix_of_cons (List.suffix_cons _ _)
    · cases hsign
      exact suffix_of_cons (List.suffix_refl _)
  | case2 sign body left hnone hsplit hsign =>
    intro h
    cases h
  | case3 sign body hzero digits left hne hspan hsign =>
    intro h
    cases h
    have hbody : body <:+ text := by
      split at hsign
      · cases hsign
        exact List.suffix_cons _ _
      · cases hsign
        exact List.suffix_refl _
    obtain ⟨run, isRun, hlength, htext⟩ := spanDigits_eq_append body
    rw [hspan] at hlength htext
    refine ⟨(List.suffix_append run rest).trans (htext ▸ hbody), fun hlong => ?_⟩
    refine HasLongRun.of_suffix ⟨run, ?_, isRun, hlength ▸ hlong⟩ hbody
    rw [htext]
    exact (List.prefix_append run rest).isInfix

theorem takeFraction_suffix {digits : List Nat} (h : takeFraction text = some (digits, rest)) : rest <:+ text := by
  unfold takeFraction at h
  split at h
  · next body =>
    split at h
    · cases h
    · have hrest := spanDigits_suffix body
      rw [Option.some.inj h] at hrest
      exact hrest.trans (List.suffix_cons _ _)
  · cases h

theorem takeSign_suffix (text : List Char) : (Numeral.takeSign text).2 <:+ text := by
  unfold Numeral.takeSign
  split
  · exact List.suffix_cons _ _
  · exact List.suffix_cons _ _
  · exact List.suffix_refl _

theorem takeExponent_suffix {exponent : Int} (h : takeExponent text = some (exponent, rest)) : rest <:+ text := by
  unfold takeExponent at h
  split at h
  · next e body =>
    split at h
    · dsimp only at h
      split at h
      · cases h
      · next hspan =>
        cases h
        have hrest := spanDigits_suffix (Numeral.takeSign body).2
        rw [hspan] at hrest
        exact (hrest.trans (takeSign_suffix body)).trans (List.suffix_cons _ _)
    · cases h
  · cases h

/-- A part that may be left out. -/
theorem suffix_getD {α : Type} {part : Option (α × List Char)} {none : α}
    (h : ∀ found rest, part = some (found, rest) → rest <:+ text) : (part.getD (none, text)).2 <:+ text := by
  cases part with
  | none => exact List.suffix_refl text
  | some part => exact h part.1 part.2 rfl

theorem yields_number (text : List Char) : Yields text (number text) := by
  unfold number
  split
  · exact .notJson
  · next negative whole rest hwhole =>
    obtain ⟨hrest, hlong⟩ := takeWhole_suffix hwhole
    dsimp only
    split
    · split
      · next h => exact .longInteger (hlong h)
      · exact .read _ hrest
    · have hfraction : ((takeFraction rest).getD ([], rest)).2 <:+ rest := suffix_getD fun _ _ => takeFraction_suffix
      have hexponent : ((takeExponent ((takeFraction rest).getD ([], rest)).2).getD
          (0, ((takeFraction rest).getD ([], rest)).2)).2 <:+ ((takeFraction rest).getD ([], rest)).2 :=
        suffix_getD fun _ _ => takeExponent_suffix
      exact .read _ ((hexponent.trans hfraction).trans hrest)

end Numbers

/-! ## Strings -/

section Strings

variable {text rest : List Char}

theorem takeUnit_suffix {unit : Nat} (h : takeUnit text = some (unit, rest)) : rest <:+ text := by
  unfold takeUnit at h
  split at h
  · next a b c d left =>
    obtain ⟨_, -, h⟩ := Option.bind_eq_some_iff.1 h
    obtain ⟨_, -, h⟩ := Option.bind_eq_some_iff.1 h
    obtain ⟨_, -, h⟩ := Option.bind_eq_some_iff.1 h
    obtain ⟨_, -, h⟩ := Option.bind_eq_some_iff.1 h
    cases h
    exact List.suffix_append [a, b, c, d] rest
  · cases h

theorem takeLowHalf_suffix {unit : Nat} (h : takeLowHalf text = some (unit, rest)) : rest <:+ text := by
  unfold takeLowHalf at h
  split at h
  · next body =>
    split at h
    · next hunit =>
      split at h
      · cases h
        exact (takeUnit_suffix hunit).trans (List.suffix_append ['\\', 'u'] body)
      · cases h
    · cases h
  · cases h

theorem takeCharacter_suffix (unit : Nat) (text : List Char) : (takeCharacter unit text).2 <:+ text := by
  unfold takeCharacter
  split
  · split
    · next hlow => exact takeLowHalf_suffix hlow
    · exact List.suffix_refl text
  · split <;> exact List.suffix_refl text

theorem takeEscape_suffix {c : Char} (h : takeEscape text = some (c, rest)) : rest <:+ text := by
  unfold takeEscape at h
  split at h
  case h_9 body =>
    obtain ⟨⟨unit, left⟩, hunit, hcharacter⟩ := Option.map_eq_some_iff.1 h
    have hleft := takeCharacter_suffix unit left
    rw [show takeCharacter unit left = (c, rest) from hcharacter] at hleft
    exact (hleft.trans (takeUnit_suffix hunit)).trans (List.suffix_cons _ _)
  case h_10 => cases h
  all_goals
    cases h
    exact List.suffix_cons _ _

theorem yields_consCharacter {c : Char} {parsed : Parsed (List Char)} (h : Yields text parsed) :
    Yields text (consCharacter c parsed) :=
  h.wrap (fun _ _ heq => ⟨_, by rw [heq, consCharacter]⟩) fun _ heq => by rw [heq, consCharacter]

theorem yields_characters (fuel : Nat) (text : List Char) : Yields text (characters fuel text) := by
  induction fuel generalizing text with
  | zero =>
    rw [characters]
    exact .notJson
  | succ fuel ih =>
    cases text with
    | nil => exact .notJson
    | cons c text =>
      rw [characters]
      split
      · exact .read _ (List.suffix_cons c text)
      · split
        · split
          · exact .notJson
          · next hescape =>
            have hsuffix := (takeEscape_suffix hescape).trans (List.suffix_cons c text)
            exact (yields_consCharacter (ih _)).of_suffix hsuffix
        · split
          · exact .notJson
          · exact (yields_consCharacter (ih text)).of_suffix (List.suffix_cons c text)

end Strings

/-! ## Values -/

theorem takeWord_suffix {text rest : List Char} {word : Json} (h : takeWord text = some (word, rest)) : rest <:+ text := by
  obtain ⟨⟨name, value⟩, -, hword⟩ := Option.map_eq_some_iff.1 h
  cases hword
  exact List.drop_suffix _ _

section Values

variable {fuel : Nat}

/-- A value is a string, an array, an object, a word or a number. -/
theorem yields_value_succ (helements : ∀ text, Yields text (elements fuel text))
    (hfields : ∀ members text, Yields text (fields fuel members text)) (text : List Char) :
    Yields text (value (fuel + 1) text) := by
  unfold value
  split
  · next body =>
    have hread := (yields_characters (body.length + 1) body).of_suffix (List.suffix_cons '"' body)
    exact hread.wrap (fun _ _ heq => ⟨_, by rw [heq]⟩) fun _ heq => by rw [heq]
  · next body =>
    split
    · next rest hclosed => exact .read _ ((suffix_of_skipGap hclosed).trans (List.suffix_cons _ _))
    · have hread := (helements (skipGap body)).of_suffix ((skipGap_suffix body).trans (List.suffix_cons '[' body))
      exact hread.wrap (fun _ _ heq => ⟨_, by rw [heq]⟩) fun _ heq => by rw [heq]
  · next body =>
    split
    · next rest hclosed => exact .read _ ((suffix_of_skipGap hclosed).trans (List.suffix_cons _ _))
    · have hread := (hfields [] (skipGap body)).of_suffix ((skipGap_suffix body).trans (List.suffix_cons '\x7b' body))
      exact hread.wrap (fun _ _ heq => ⟨_, by rw [heq]⟩) fun _ heq => by rw [heq]
  · split
    · next found hword => exact .read found.1 (takeWord_suffix hword)
    · exact yields_number text

/-- Behind an item there is a comma with more items, or the end of the array. -/
theorem yields_elements_succ (hvalue : ∀ text, Yields text (value fuel text))
    (helements : ∀ text, Yields text (elements fuel text)) (text : List Char) :
    Yields text (elements (fuel + 1) text) := by
  have hread := hvalue text
  unfold elements
  generalize value fuel text = parsed at hread
  cases hread with
  | notJson => exact .notJson
  | longInteger long => exact .longInteger long
  | @read rest item suffix =>
    dsimp only
    split
    · next more hcomma =>
      have hmore : skipGap more <:+ text := ((skipGap_suffix more).trans (suffix_of_skipGap hcomma)).trans suffix
      have hread := (helements (skipGap more)).of_suffix hmore
      exact hread.wrap (fun _ _ heq => ⟨_, by rw [heq]⟩) fun _ heq => by rw [heq]
    · next more hbracket => exact .read _ ((suffix_of_skipGap hbracket).trans suffix)
    · exact .notJson

/-- A key stands in front of a colon and a value, and behind it there is a comma with more members, or the end of the
object. -/
theorem yields_fields_succ (hvalue : ∀ text, Yields text (value fuel text))
    (hfields : ∀ members text, Yields text (fields fuel members text)) (members : List (String × Json))
    (text : List Char) : Yields text (fields (fuel + 1) members text) := by
  unfold fields
  split
  · next body =>
    have hread := (yields_characters (body.length + 1) body).of_suffix (List.suffix_cons '"' body)
    generalize characters (body.length + 1) body = parsed at hread
    cases hread with
    | notJson => exact .notJson
    | longInteger long => exact .longInteger long
    | @read rest key suffix =>
      dsimp only
      split
      · next behind hcolon =>
        have hbehind : skipGap behind <:+ '"' :: body :=
          ((skipGap_suffix behind).trans (suffix_of_skipGap hcolon)).trans suffix
        have hread := (hvalue (skipGap behind)).of_suffix hbehind
        generalize value fuel (skipGap behind) = parsed at hread
        cases hread with
        | notJson => exact .notJson
        | longInteger long => exact .longInteger long
        | @read rest item suffix =>
          dsimp only
          split
          · next more hcomma =>
            have hmore := ((skipGap_suffix more).trans (suffix_of_skipGap hcomma)).trans suffix
            exact (hfields _ (skipGap more)).of_suffix hmore
          · next more hbrace => exact .read _ ((suffix_of_skipGap hbrace).trans suffix)
          · exact .notJson
      · exact .notJson
  · exact .notJson

end Values

/-- Whatever is read of a text leaves an end of it, over any fuel. -/
theorem yields_all (fuel : Nat) :
    (∀ text, Yields text (value fuel text)) ∧ (∀ text, Yields text (elements fuel text)) ∧
      ∀ members text, Yields text (fields fuel members text) := by
  induction fuel with
  | zero =>
    refine ⟨fun text => ?_, fun text => ?_, fun members text => ?_⟩
    · rw [value]
      exact .notJson
    · rw [elements]
      exact .notJson
    · rw [fields]
      exact .notJson
  | succ fuel ih =>
    obtain ⟨hvalue, helements, hfields⟩ := ih
    refine ⟨?_, ?_, ?_⟩
    · exact yields_value_succ helements hfields
    · exact yields_elements_succ hvalue helements
    · exact yields_fields_succ hvalue hfields

/-- **Only a run of digits that is too long makes an integer too long**: a text without one is read, or is no JSON. -/
theorem hasLongRun_of_longInteger {text : String} (h : parse text = .error .longInteger) : HasLongRun text.toList := by
  have hread := ((yields_all (text.toList.length + 1)).1 (skipGap text.toList)).of_suffix (skipGap_suffix text.toList)
  unfold parse parseList at h
  generalize value (text.toList.length + 1) (skipGap text.toList) = parsed at h hread
  cases hread with
  | longInteger long => exact long
  | notJson => cases h
  | @read rest found suffix =>
    change (if (skipGap rest).isEmpty then .ok found else .error .notJson) = Except.error ParseError.longInteger at h
    split at h <;> cases h

/-- A run of digits that is too long is refused where it stands alone. -/
theorem parse_replicate {count : ℕ} (h : Numeral.maxDigits < count) :
    parse (String.ofList (List.replicate count '1')) = .error .longInteger := by
  obtain ⟨count, rfl⟩ : ∃ more, count = more + 1 :=
    Nat.exists_eq_add_of_le' (Nat.zero_lt_of_lt h)
  have hwhole : IsWhole (List.replicate (count + 1) 1) := by
    refine ⟨List.cons_ne_nil _ _, fun d hd => ?_, fun hlead => ?_⟩
    · rw [List.eq_of_mem_replicate hd]
      decide
    · cases hlead
  have htext : List.replicate (count + 1) '1' = (List.replicate (count + 1) 1).map digitChar ++ [] := by
    rw [List.append_nil, List.map_replicate]
    rfl
  have hnone : ∀ c ∈ ([] : List Char).head?, asciiDigit? c = none := fun c hc => by cases hc
  have hnumber : number (List.replicate (count + 1) '1') = .error .longInteger := by
    rw [number, htext, takeWhole_digits hwhole hnone]
    dsimp only
    rw [if_pos (by rfl), List.length_replicate, if_pos h]
  have hnumeric : Numeric (List.replicate (count + 1) '1') := ⟨false, 1, List.replicate count '1', by decide, rfl⟩
  rw [parse, parseList, String.toList_ofList]
  rw [show skipGap (List.replicate (count + 1) '1') = List.replicate (count + 1) '1' from rfl,
    value_of_numeric hnumeric, hnumber]
  rfl

end LanguageSessions.Json
