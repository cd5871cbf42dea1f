import LanguageSessions.Proofs.Console.Markup

/-!
# Escaped texts

An escaped text with something behind it that reads on neither a tag nor a row of backslashes (`Apart`) is seen
character by character (`pieces_escape`), but not quite as it is: of the text `shown` is seen. That is the text itself
just if no backslash in it stands right before a bracket that begins no tag, and it does not end in a lone backslash
(`shown_eq_self_iff`); a text without backslashes is (`shown_of_no_slash`).
-/

namespace LanguageSessions.Console

open Text

/-! ## Escaping piece by piece -/

section EscapeTags

variable {inside rest : List Char} {c : Char} (slashes : Nat)

theorem escapeTags_slash : escapeTags 0 slashes ('\\' :: rest) = escapeTags 0 (slashes + 1) rest := by
  simp [escapeTags]

theorem escapeTags_skip (text : List Char) : escapeTags text.length 0 (text ++ rest) = text ++ escapeTags 0 0 rest := by
  induction text with
  | nil => rfl
  | cons c text ih => simpa [escapeTags] using ih

/-- Before a tag, backslashes are doubled and one more is put. -/
theorem escapeTags_tag (h : IsTag inside) :
    escapeTags 0 slashes ('[' :: (inside ++ ']' :: rest)) =
      List.replicate (2 * slashes + 1) '\\' ++ '[' :: (inside ++ ']' :: escapeTags 0 0 rest) := by
  have hskip : escapeTags (inside.length + 1) 0 (inside ++ ']' :: rest) = inside ++ ']' :: escapeTags 0 0 rest := by
    simpa using escapeTags_skip (inside ++ [']'])
  rw [escapeTags, if_neg (by decide), if_pos rfl, h.tag?]
  dsimp only
  rw [hskip]

theorem escapeTags_other (hslash : c ≠ '\\') (htag : c = '[' → tag? rest = none) :
    escapeTags 0 slashes (c :: rest) = List.replicate slashes '\\' ++ c :: escapeTags 0 0 rest := by
  have hnone : (if c = '[' then tag? rest else none) = none := by
    split
    · next hc => exact htag hc
    · rfl
  rw [escapeTags, if_neg hslash, hnone]

end EscapeTags

/-! ## What is seen of an escaped text -/

/-- Whether a bracket comes next that begins no tag. -/
def opensNoTag : List Char → Bool
  | '[' :: rest => (tag? rest).isNone
  | _ => false

/-- A text without the backslashes that stand right before a bracket that begins no tag. -/
def withoutLost : List Char → List Char
  | [] => []
  | c :: rest => if c = '\\' ∧ opensNoTag rest = true then withoutLost rest else c :: withoutLost rest

/-- What is seen of a text that was escaped: a backslash right before a bracket that begins no tag is lost, and a lone
backslash at the end is seen twice. -/
def shown (text : List Char) : List Char := withoutLost text ++ if trailingSlashes text = 1 then ['\\'] else []

section Shown

variable {text rest : List Char} {c : Char}

theorem opensNoTag_of_ne (h : c ≠ '[') (rest : List Char) : opensNoTag (c :: rest) = false := by
  unfold opensNoTag
  split
  · next heq => exact absurd (List.cons.inj heq).1 h
  · rfl

theorem opensNoTag_bracket : opensNoTag ('[' :: rest) = true ↔ tag? rest = none := by
  rw [opensNoTag, Option.isNone_iff_eq_none]

theorem withoutLost_cons (h : c ≠ '\\') : withoutLost (c :: rest) = c :: withoutLost rest := by
  rw [withoutLost, if_neg fun hc => h hc.1]

/-- Of a row of backslashes only the last one can be lost. -/
theorem withoutLost_slashes (slashes : Nat) (text : List Char) :
    withoutLost (List.replicate slashes '\\' ++ text) =
      List.replicate (if opensNoTag text = true then slashes - 1 else slashes) '\\' ++ withoutLost text := by
  induction slashes with
  | zero => simp
  | succ slashes ih =>
    rw [List.replicate_succ, List.cons_append, withoutLost, ih]
    cases slashes with
    | zero => split <;> simp_all
    | succ slashes =>
      have hslash : opensNoTag (List.replicate (slashes + 1) '\\' ++ text) = false := opensNoTag_of_ne (by decide) _
      rw [hslash, if_neg (by decide)]
      split <;> simp [List.replicate_succ]

/-- Nothing is lost where there are no brackets ahead but one that closes. -/
theorem withoutLost_closed (h : '[' ∉ text) (rest : List Char) :
    withoutLost (text ++ ']' :: rest) = text ++ ']' :: withoutLost rest := by
  induction text with
  | nil => exact withoutLost_cons (by decide)
  | cons c text ih =>
    rw [List.mem_cons, not_or] at h
    have hopen : opensNoTag (text ++ ']' :: rest) = false := by
      cases text with
      | nil => exact opensNoTag_of_ne (by decide) rest
      | cons d text => exact opensNoTag_of_ne (fun hd => h.2 (hd ▸ List.mem_cons_self)) _
    rw [List.cons_append, withoutLost, hopen, ih h.2]
    simp

theorem trailingSlashes_append_cons (h : c ≠ '\\') (front rest : List Char) :
    trailingSlashes (front ++ c :: rest) = trailingSlashes rest := by
  rw [trailingSlashes, trailingSlashes, List.reverse_append, List.reverse_cons, List.append_assoc,
    List.takeWhile_append]
  split
  · next hall => simp [h, hall]
  · rfl

/-- Escaping keeps the number of backslashes at the end. -/
theorem trailingSlashes_escapeTags (slashes : Nat) (text : List Char) :
    trailingSlashes (escapeTags 0 slashes text) = trailingSlashes (List.replicate slashes '\\' ++ text) := by
  induction slashes, text using pieceInduction with
  | nil slashes => rw [escapeTags, List.append_nil]
  | slash slashes rest ih => rw [escapeTags_slash, ih, List.replicate_succ', List.append_assoc, List.singleton_append]
  | tag slashes inside rest his ih =>
    rw [escapeTags_tag _ his]
    simp only [← List.cons_append, ← List.append_assoc]
    rw [trailingSlashes_append_cons (by decide), trailingSlashes_append_cons (by decide), ih]
    rfl
  | other slashes c rest hslash htag ih =>
    rw [escapeTags_other _ hslash htag, trailingSlashes_append_cons hslash, trailingSlashes_append_cons hslash, ih]
    rfl

theorem withoutLost_sublist (text : List Char) : (withoutLost text).Sublist text := by
  induction text with
  | nil => exact .slnil
  | cons c text ih =>
    rw [withoutLost]
    split
    · exact ih.cons c
    · exact ih.cons_cons c

theorem mem_shown (h : c ∈ shown text) : c ∈ text ∨ c = '\\' := by
  rw [shown, List.mem_append] at h
  rcases h with h | h
  · exact .inl ((withoutLost_sublist text).subset h)
  · split at h
    · exact .inr (List.mem_singleton.1 h)
    · cases h

/-- The last character of a text is not lost. -/
theorem getLast?_withoutLost (text : List Char) : (withoutLost text).getLast? = text.getLast? := by
  induction text with
  | nil => rfl
  | cons c text ih =>
    rw [withoutLost]
    split
    · next hlost =>
      have hne : text ≠ [] := fun hnil => by simp [hnil, opensNoTag] at hlost
      obtain ⟨d, text, rfl⟩ := List.exists_cons_of_ne_nil hne
      rw [ih, List.getLast?_cons_cons]
    · rw [List.getLast?_cons, List.getLast?_cons, ih]

theorem getLast?_shown (h : (shown text).getLast? = some c) : text.getLast? = some c ∨ c = '\\' := by
  rw [shown] at h
  split at h
  · rw [List.getLast?_concat] at h
    exact .inr (Option.some.inj h).symm
  · rw [List.append_nil, getLast?_withoutLost] at h
    exact .inl h

end Shown

/-! ## Escaped texts with something behind them -/

/-- No tag begins in a text and ends in what stands behind it. -/
def Closed (text rest : List Char) : Prop := ∀ c, text.getLast? = some c → c = ']' ∨ upToBracket rest = none

/-- Nothing that begins in a text is read on in what stands behind it, neither a tag nor a row of backslashes. -/
structure Apart (text rest : List Char) : Prop where
  head : ∀ c, rest.head? = some c → c ≠ '\\' ∧ c ≠ '['
  closed : Closed text rest

section Apart

variable {text rest : List Char} {c : Char}

theorem Closed.tail (h : Closed (c :: text) rest) : Closed text rest := by
  intro d hd
  refine h d ?_
  cases text with
  | nil => cases hd
  | cons e text => rwa [List.getLast?_cons_cons]

theorem Closed.of_append {front : List Char} (h : Closed (front ++ text) rest) : Closed text rest := by
  induction front with
  | nil => exact h
  | cons c front ih => exact ih h.tail

theorem Closed.slashes (h : Closed text rest) (count : Nat) : Closed text (List.replicate count '\\' ++ rest) :=
  fun c hc => (h c hc).imp_right (upToBracket_slashes count rest).2

/-- If a tag does not end in a text, it does not end behind it either. -/
theorem Closed.opening (h : Closed text rest) (hne : text ≠ []) (hnone : upToBracket text = none) :
    '[' ∈ text ∨ upToBracket rest = none := by
  rcases opening_of_upToBracket hnone with ho | hc
  · exact .inl ho
  · obtain ⟨front, c, rfl⟩ := List.eq_nil_or_concat' text |>.resolve_left hne
    rcases h c (by simp) with rfl | hrest
    · simp at hc
    · exact .inr hrest

/-- Escaping a text does not bring a closing bracket ahead. -/
theorem upToBracket_escapeTags (slashes : Nat) (text : List Char) (hnone : upToBracket text = none)
    (hrest : '[' ∈ text ∨ upToBracket rest = none) : upToBracket (escapeTags 0 slashes text ++ rest) = none := by
  induction slashes, text using pieceInduction with
  | nil slashes =>
    rw [escapeTags, upToBracket_slashes]
    exact hrest.resolve_left List.not_mem_nil
  | slash slashes text ih =>
    rw [escapeTags_slash]
    rw [upToBracket_cons_eq_none_iff] at hnone
    exact ih (hnone.2.resolve_left (by decide)) (hrest.imp_left fun hm => List.mem_of_ne_of_mem (by decide) hm)
  | tag slashes inside text his ih =>
    rw [escapeTags_tag _ his, List.append_assoc, upToBracket_slashes, List.cons_append, upToBracket_cons_eq_none_iff]
    exact ⟨by decide, .inl rfl⟩
  | other slashes c text hslash htag ih =>
    rw [upToBracket_cons_eq_none_iff] at hnone
    rw [escapeTags_other _ hslash htag, List.append_assoc, upToBracket_slashes, List.cons_append,
      upToBracket_cons_eq_none_iff]
    by_cases hc : c = '['
    · exact ⟨hnone.1, .inl hc⟩
    · have hopening := hrest.imp_left fun hm => List.mem_of_ne_of_mem (Ne.symm hc) hm
      exact ⟨hnone.1, .inr (ih (hnone.2.resolve_left hc) hopening)⟩

/-- An escaped text begins as it did before, or with a backslash. -/
theorem exists_escapeTags_cons (slashes : Nat) (text : List Char) (c : Char)
    (h : (List.replicate slashes '\\' ++ text).head? = some c) :
    ∃ d more, escapeTags 0 slashes text = d :: more ∧ (d = '\\' ∨ d = c) := by
  induction slashes, text using pieceInduction with
  | nil slashes =>
    cases slashes with
    | zero => cases h
    | succ slashes => exact ⟨_, _, rfl, .inl rfl⟩
  | slash slashes text ih =>
    rw [List.append_cons, ← List.replicate_succ'] at h
    exact escapeTags_slash slashes ▸ ih h
  | tag slashes inside text his ih => exact ⟨_, _, escapeTags_tag _ his, .inl rfl⟩
  | other slashes d text hslash htag ih =>
    rw [escapeTags_other _ hslash htag]
    cases slashes with
    | zero => exact ⟨_, _, rfl, .inr (Option.some.inj h)⟩
    | succ slashes => exact ⟨_, _, rfl, .inl rfl⟩

/-- Escaping a text does not make a tag of it. -/
theorem tag?_escapeTags (h : Closed ('[' :: text) rest) (hnone : tag? text = none) :
    tag? (escapeTags 0 0 text ++ rest) = none := by
  cases text with
  | nil => exact tag?_eq_none_of_upToBracket ((h '[' rfl).resolve_left (by decide))
  | cons c text =>
    by_cases hc : startsTag c = true
    · rw [tag?_cons, if_pos hc] at hnone
      exact tag?_eq_none_of_upToBracket
        (upToBracket_escapeTags 0 _ hnone (h.tail.opening (List.cons_ne_nil _ _) hnone))
    · obtain ⟨d, more, heq, hd⟩ := exists_escapeTags_cons 0 (c :: text) c rfl
      rw [heq, List.cons_append, tag?_cons, if_neg]
      rcases hd with rfl | rfl
      · decide
      · exact hc

/-- Backslashes are seen where neither a bracket nor another one follows. -/
theorem Apart.pieces_slashes (h : Apart text rest) (slashes : Nat) :
    pieces 0 slashes rest = seenSlashes slashes ++ pieces 0 0 rest := by
  cases rest with
  | nil =>
    rw [pieces, pieces]
    exact (List.append_nil _).symm
  | cons c rest =>
    obtain ⟨hslash, hopening⟩ := h.head c rfl
    rw [pieces_other _ hslash fun hc => absurd hc hopening, pieces_other _ hslash fun hc => absurd hc hopening,
      if_neg hopening, if_neg hopening]
    rfl

/-- The pieces of an escaped text, and of more backslashes behind it, are the characters that are not lost. -/
theorem pieces_escapeTags (more slashes : Nat) (text : List Char) (h : Apart text rest) :
    pieces 0 0 (escapeTags 0 slashes text ++ (List.replicate more '\\' ++ rest)) =
      seenAll (withoutLost (List.replicate slashes '\\' ++ text) ++ List.replicate more '\\') ++ pieces 0 0 rest := by
  induction slashes, text using pieceInduction with
  | nil slashes =>
    rw [escapeTags, pieces_slashes, pieces_slashes, h.pieces_slashes, withoutLost_slashes slashes, Nat.zero_add]
    simp [opensNoTag, withoutLost, seenAll, seenSlashes]
  | slash slashes text ih =>
    rw [escapeTags_slash, ih ⟨h.head, h.closed.tail⟩, List.append_cons, ← List.replicate_succ']
  | tag slashes inside text his ih =>
    have hclosed : Closed ('[' :: inside ++ [']'] ++ text) rest := by simpa using h.closed
    have hopen : ¬ opensNoTag ('[' :: (inside ++ ']' :: text)) = true := by
      rw [opensNoTag_bracket, his.tag?]
      exact Option.some_ne_none inside
    have hhalf : (2 * slashes + 1) / 2 = slashes ∧ (2 * slashes + 1) % 2 = 1 := by omega
    rw [escapeTags_tag _ his, List.append_assoc, pieces_slashes, Nat.zero_add, List.cons_append, List.append_assoc,
      List.cons_append, pieces_tag _ his, hhalf.1, if_pos hhalf.2, ih ⟨h.head, hclosed.of_append⟩,
      withoutLost_slashes slashes, if_neg hopen, withoutLost_cons (by decide), withoutLost_closed his.no_opening]
    simp [seenAll, seenSlashes]
  | other slashes c text hslash htag ih =>
    have htag' : c = '[' → tag? (escapeTags 0 0 text ++ (List.replicate more '\\' ++ rest)) = none := by
      rintro rfl
      exact tag?_escapeTags (h.closed.slashes more) (htag rfl)
    have hlost : (if opensNoTag (c :: text) = true then slashes - 1 else slashes) =
        if c = '[' then slashes - 1 else slashes := by
      by_cases hc : c = '['
      · subst hc
        rw [if_pos rfl, if_pos (opensNoTag_bracket.2 (htag rfl))]
      · rw [if_neg hc, opensNoTag_of_ne hc, if_neg Bool.false_ne_true]
    rw [escapeTags_other _ hslash htag, List.append_assoc, pieces_slashes, Nat.zero_add, List.cons_append,
      pieces_other _ hslash htag', ih ⟨h.head, h.closed.tail⟩, withoutLost_slashes slashes, withoutLost_cons hslash,
      hlost]
    simp [seenAll, seenSlashes]

/-- **An escaped text is seen as `shown` says**, whatever it holds. -/
theorem pieces_escape (h : Apart text rest) :
    pieces 0 0 (escape text ++ rest) = seenAll (shown text) ++ pieces 0 0 rest := by
  have htrailing : trailingSlashes (escapeTags 0 0 text) = trailingSlashes text := trailingSlashes_escapeTags 0 text
  rw [escape, shown, htrailing]
  split
  · have hone := pieces_escapeTags 1 0 text h
    simpa using hone
  · have hnone := pieces_escapeTags 0 0 text h
    simpa using hnone

/-- An escaped text is seen as `shown` says, and what stands behind it as if it stood alone. -/
theorem reading_escape {openStyles : List (List Char)} (h : Apart text rest) :
    reading openStyles (escape text ++ rest) = (reading openStyles rest).map (shown text ++ ·) := by
  rw [reading, pieces_escape h, seenOf_seenAll, reading]

theorem reading_escape_alone (openStyles : List (List Char)) (text : List Char) :
    reading openStyles (escape text) = .ok (shown text) := by
  have hapart : Apart text [] := ⟨nofun, fun _ _ => .inr rfl⟩
  have hread : reading openStyles (escape text ++ []) = .ok (shown text ++ []) := reading_escape hapart
  rwa [List.append_nil, List.append_nil] at hread

/-- An escaped text alone can be read, and this is what is seen of it. -/
theorem visible_escape (text : List Char) : visible (escape text) = .ok ((shown text).filter isPrinted) := by
  rw [visible_eq_reading, reading_escape_alone]
  rfl

end Apart

/-! ## Texts that are shown as they are -/

/-- A backslash stands right before a bracket that begins no tag. -/
def LosesSlash (text : List Char) : Prop := ∃ rest, '\\' :: rest <:+ text ∧ opensNoTag rest = true

section Kept

variable {text : List Char}

theorem losesSlash_cons {c : Char} {rest : List Char} :
    LosesSlash (c :: rest) ↔ (c = '\\' ∧ opensNoTag rest = true) ∨ LosesSlash rest := by
  constructor
  · rintro ⟨behind, hsuffix, hopen⟩
    rcases List.suffix_cons_iff.1 hsuffix with heq | hsuffix
    · obtain ⟨rfl, rfl⟩ := List.cons.inj heq
      exact .inl ⟨rfl, hopen⟩
    · exact .inr ⟨behind, hsuffix, hopen⟩
  · rintro (⟨rfl, hopen⟩ | ⟨behind, hsuffix, hopen⟩)
    · exact ⟨rest, List.suffix_refl _, hopen⟩
    · exact ⟨behind, hsuffix.trans (List.suffix_cons c rest), hopen⟩

/-- What is lost at one place is not made up for behind it. -/
theorem withoutLost_append_eq_iff {behind others : List Char} :
    withoutLost text ++ behind = text ++ others ↔ ¬ LosesSlash text ∧ behind = others := by
  induction text with
  | nil =>
    have hnone : ¬ LosesSlash [] := by
      rintro ⟨rest, hsuffix, -⟩
      simp at hsuffix
    simp [withoutLost, hnone]
  | cons c text ih =>
    rw [withoutLost, losesSlash_cons]
    split
    · next hlost =>
      refine iff_of_false (fun heq => ?_) fun h => h.1 (.inl hlost)
      cases text with
      | nil => simp [opensNoTag] at hlost
      | cons d text =>
        -- the bracket comes first, where the backslash was
        have hd : d = '[' := by_contra fun hd => by simp [opensNoTag_of_ne hd] at hlost
        rw [hd, withoutLost_cons (by decide), hlost.1] at heq
        simp at heq
    · next hkept => simp [ih, hkept]

/-- **A text is shown as it is just if** no backslash in it stands right before a bracket that begins no tag, and it
does not end in a lone backslash. -/
theorem shown_eq_self_iff : shown text = text ↔ ¬ LosesSlash text ∧ trailingSlashes text ≠ 1 := by
  have hend : (withoutLost text ++ if trailingSlashes text = 1 then ['\\'] else []) = text ++ [] ↔
      ¬ LosesSlash text ∧ (if trailingSlashes text = 1 then ['\\'] else []) = [] := withoutLost_append_eq_iff
  rw [List.append_nil] at hend
  rw [shown, hend]
  simp

/-- A text that is not shown as it is differs from what is shown before anything else comes that is no backslash. -/
theorem shown_append_eq_iff {behind others : List Char} (hslash : others.head? ≠ some '\\') :
    shown text ++ behind = text ++ others ↔ shown text = text ∧ behind = others := by
  rw [shown_eq_self_iff, shown, List.append_assoc, withoutLost_append_eq_iff, and_assoc]
  refine and_congr_right fun _ => ?_
  split
  · next hone =>
    refine iff_of_false ?_ fun h => h.1 hone
    rintro rfl
    exact hslash rfl
  · next hnone => simp [hnone]

theorem shown_of_no_slash (h : '\\' ∉ text) : shown text = text := by
  refine shown_eq_self_iff.2 ⟨?_, ?_⟩
  · rintro ⟨rest, hsuffix, -⟩
    exact h (hsuffix.subset List.mem_cons_self)
  · rw [trailingSlashes]
    cases hreverse : text.reverse with
    | nil => simp
    | cons c rest =>
      have hc : c ∈ text := List.mem_reverse.1 (hreverse ▸ List.mem_cons_self)
      have hne : c ≠ '\\' := fun heq => h (heq ▸ hc)
      simp [hne]

end Kept

end LanguageSessions.Console
