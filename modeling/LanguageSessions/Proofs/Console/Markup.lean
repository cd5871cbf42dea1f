import LanguageSessions.Console.Markup
import Mathlib.Data.List.Basic

/-!
# What is seen of markup

Markup is gone through backslash by backslash, tag by tag and character by character (`pieceInduction`), and what is
seen of it is put together from what is seen of its parts (`reading_plain`, `reading_styled`).

A text that is taken for markup as it is, and has no backslashes, is seen as it is just if it has no tag
(`visible_eq_self_iff`).
-/

namespace LanguageSessions.Console

open Text

/-! ## Tags -/

section Tags

variable {text inside rest : List Char} {c : Char}

/-- What may stand in a tag. -/
structure IsTag (inside : List Char) : Prop where
  start : ∃ c more, inside = c :: more ∧ startsTag c = true
  no_opening : '[' ∉ inside
  no_closing : ']' ∉ inside

theorem upToBracket_eq_some_iff :
    upToBracket text = some inside ↔ '[' ∉ inside ∧ ']' ∉ inside ∧ ∃ rest, text = inside ++ ']' :: rest := by
  induction text generalizing inside with
  | nil => simp [upToBracket]
  | cons c text ih =>
    rw [upToBracket]
    split
    · next hc =>
      subst hc
      cases inside with
      | nil => simp
      | cons d inside => simp +contextual [eq_comm]
    · next hclosing =>
      split
      · next hc =>
        subst hc
        cases inside with
        | nil => simp
        | cons d inside => simp +contextual [eq_comm]
      · next hopening =>
        cases inside with
        | nil => simp [hclosing]
        | cons d inside =>
          simp only [Option.map_eq_some_iff, List.cons.injEq, ih, List.mem_cons, List.cons_append]
          constructor
          · rintro ⟨_, ⟨ho, hc, rest, rfl⟩, rfl, rfl⟩
            exact ⟨by simp [Ne.symm hopening, ho], by simp [Ne.symm hclosing, hc], rest, rfl, rfl⟩
          · rintro ⟨ho, hc, rest, rfl, rfl⟩
            exact ⟨inside, ⟨fun h => ho (.inr h), fun h => hc (.inr h), rest, rfl⟩, rfl, rfl⟩

theorem not_startsTag : startsTag '[' = false ∧ startsTag ']' = false ∧ startsTag '\\' = false := by decide

theorem startsTag_ne (h : startsTag c = true) : c ≠ '[' ∧ c ≠ ']' ∧ c ≠ '\\' := by
  refine ⟨?_, ?_, ?_⟩
  all_goals
    rintro rfl
    simp [not_startsTag] at h

/-- A tag is what stands before a closing bracket, if it begins as a tag does. -/
theorem tag?_cons (c : Char) (text : List Char) :
    tag? (c :: text) = if startsTag c then upToBracket (c :: text) else none := by
  rw [tag?]
  split
  · next h =>
    rw [upToBracket, if_neg (startsTag_ne h).2.1, if_neg (startsTag_ne h).1]
  · rfl

theorem tag?_eq_some_iff : tag? text = some inside ↔ IsTag inside ∧ ∃ rest, text = inside ++ ']' :: rest := by
  cases text with
  | nil => simp [tag?]
  | cons c text =>
    rw [tag?_cons]
    constructor
    · intro h
      split at h
      · next hc =>
        obtain ⟨ho, hcl, rest, heq⟩ := upToBracket_eq_some_iff.1 h
        refine ⟨⟨?_, ho, hcl⟩, rest, heq⟩
        cases inside with
        | nil =>
          -- a closing bracket begins no tag
          obtain ⟨rfl, -⟩ := List.cons.inj heq
          simp [not_startsTag] at hc
        | cons d inside =>
          obtain ⟨rfl, -⟩ := List.cons.inj heq
          exact ⟨c, inside, rfl, hc⟩
      · cases h
    · rintro ⟨⟨⟨d, more, rfl, hd⟩, ho, hcl⟩, rest, heq⟩
      obtain ⟨rfl, -⟩ := List.cons.inj heq
      rw [if_pos hd]
      exact upToBracket_eq_some_iff.2 ⟨ho, hcl, rest, heq⟩

theorem IsTag.tag? (h : IsTag inside) (rest : List Char) : tag? (inside ++ ']' :: rest) = some inside :=
  tag?_eq_some_iff.2 ⟨h, rest, rfl⟩

theorem upToBracket_cons_eq_none_iff :
    upToBracket (c :: text) = none ↔ c ≠ ']' ∧ (c = '[' ∨ upToBracket text = none) := by
  rw [upToBracket]
  split
  · next hc => simp [hc]
  · next hclosing =>
    split
    · next hc => simp [hc]
    · next hopening => simp [hclosing, hopening]

theorem tag?_eq_none_of_upToBracket (h : upToBracket text = none) : Console.tag? text = none := by
  cases text with
  | nil => rfl
  | cons c text => rw [tag?_cons, h, ite_self]

/-- Without a closing bracket ahead, there is an opening one before it, or none at all. -/
theorem opening_of_upToBracket (h : upToBracket text = none) : '[' ∈ text ∨ ']' ∉ text := by
  induction text with
  | nil => exact .inr List.not_mem_nil
  | cons c text ih =>
    obtain ⟨hc, hopening | h⟩ := upToBracket_cons_eq_none_iff.1 h
    · exact .inl (hopening ▸ List.mem_cons_self)
    · rcases ih h with ho | hcl
      · exact .inl (List.mem_cons_of_mem _ ho)
      · exact .inr (List.not_mem_cons_of_ne_of_not_mem (Ne.symm hc) hcl)

theorem upToBracket_of_opening (h : ']' ∉ text) : upToBracket (text ++ '[' :: rest) = none := by
  induction text with
  | nil => exact upToBracket_cons_eq_none_iff.2 ⟨by decide, .inl rfl⟩
  | cons c text ih =>
    rw [List.mem_cons, not_or] at h
    exact upToBracket_cons_eq_none_iff.2 ⟨Ne.symm h.1, .inr (ih h.2)⟩

theorem upToBracket_slashes (count : Nat) (text : List Char) :
    upToBracket (List.replicate count '\\' ++ text) = none ↔ upToBracket text = none := by
  induction count with
  | zero => rfl
  | succ count ih =>
    rw [List.replicate_succ, List.cons_append, upToBracket_cons_eq_none_iff, ih]
    simp

end Tags

/-! ## Markup piece by piece -/

/-- Induction over a text with backslashes before it: at its end, at one more backslash, at a tag, and at any other
character. -/
theorem pieceInduction {P : Nat → List Char → Prop} (nil : ∀ slashes, P slashes [])
    (slash : ∀ slashes rest, P (slashes + 1) rest → P slashes ('\\' :: rest))
    (tag : ∀ slashes inside rest, IsTag inside → P 0 rest → P slashes ('[' :: (inside ++ ']' :: rest)))
    (other : ∀ slashes c rest, c ≠ '\\' → (c = '[' → tag? rest = none) → P 0 rest → P slashes (c :: rest)) :
    ∀ slashes text, P slashes text
  | slashes, [] => nil slashes
  | slashes, c :: rest => by
    have ih : ∀ slashes shorter, shorter.length ≤ rest.length → P slashes shorter := fun slashes shorter _ =>
      pieceInduction nil slash tag other slashes shorter
    by_cases hslash : c = '\\'
    · subst hslash
      exact slash slashes rest (ih _ rest (Nat.le_refl _))
    · by_cases htag : c = '[' ∧ tag? rest ≠ none
      · obtain ⟨rfl, htag⟩ := htag
        obtain ⟨inside, hinside⟩ := Option.ne_none_iff_exists'.1 htag
        obtain ⟨his, behind, rfl⟩ := tag?_eq_some_iff.1 hinside
        refine tag slashes inside behind his (ih _ behind ?_)
        simp
        omega
      · refine other slashes c rest hslash (fun hc => ?_) (ih _ rest (Nat.le_refl _))
        exact not_not.1 fun hne => htag ⟨hc, hne⟩
termination_by _ text => text.length
decreasing_by
  simp only [List.length_cons]
  omega

section Pieces

variable {inside rest : List Char} {c : Char} (slashes : Nat)

theorem pieces_slash : pieces 0 slashes ('\\' :: rest) = pieces 0 (slashes + 1) rest := by
  simp [pieces]

theorem pieces_skip (text : List Char) : pieces text.length 0 (text ++ rest) = pieces 0 0 rest := by
  induction text with
  | nil => rfl
  | cons c text ih => simpa [pieces] using ih

/-- Of backslashes before a tag every second one is seen; one that is left over makes the tag seen. -/
theorem pieces_tag (h : IsTag inside) :
    pieces 0 slashes ('[' :: (inside ++ ']' :: rest)) =
      seenSlashes (slashes / 2) ++ (if slashes % 2 = 1 then seenAll ('[' :: inside ++ [']']) else [.tag inside]) ++
        pieces 0 0 rest := by
  have hskip : pieces (inside.length + 1) 0 (inside ++ ']' :: rest) = pieces 0 0 rest := by
    simpa using pieces_skip (inside ++ [']'])
  rw [pieces]
  dsimp only
  rw [if_neg (by decide), if_pos rfl, h.tag?]
  dsimp only
  rw [hskip]

theorem pieces_other (hslash : c ≠ '\\') (htag : c = '[' → tag? rest = none) :
    pieces 0 slashes (c :: rest) =
      seenSlashes (if c = '[' then slashes - 1 else slashes) ++ .seen c :: pieces 0 0 rest := by
  rw [pieces]
  dsimp only
  rw [if_neg hslash]
  split
  · next hc =>
    subst hc
    rw [htag rfl]
  · rfl

theorem pieces_tag_first (h : IsTag inside) :
    pieces 0 0 ('[' :: (inside ++ ']' :: rest)) = .tag inside :: pieces 0 0 rest := pieces_tag 0 h

theorem pieces_other_first (hslash : c ≠ '\\') (htag : c = '[' → tag? rest = none) :
    pieces 0 0 (c :: rest) = .seen c :: pieces 0 0 rest := by
  rw [pieces_other 0 hslash htag]
  split <;> rfl

theorem pieces_slashes (slashes count : Nat) (rest : List Char) :
    pieces 0 slashes (List.replicate count '\\' ++ rest) = pieces 0 (slashes + count) rest := by
  induction count generalizing slashes with
  | zero => rfl
  | succ count ih => rw [List.replicate_succ, List.cons_append, pieces_slash, ih, Nat.add_right_comm, Nat.add_assoc]

end Pieces

/-! ## What is seen of markup -/

/-- There is nothing in a text that could be markup, but for brackets that close. -/
def Inert (text : List Char) : Prop := ∀ c ∈ text, c ≠ '\\' ∧ c ≠ '['

instance (text : List Char) : Decidable (Inert text) := List.decidableBAll (fun c => c ≠ '\\' ∧ c ≠ '[') text

/-- What is seen of markup while styles are open. -/
def reading (openStyles : List (List Char)) (markup : List Char) : Except MarkupError (List Char) :=
  seenOf openStyles (pieces 0 0 markup)

section Reading

variable {openStyles : List (List Char)} {text rest : List Char}

theorem seenOf_seenAll (text : List Char) (behind : List Piece) :
    seenOf openStyles (seenAll text ++ behind) = (seenOf openStyles behind).map (text ++ ·) := by
  induction text with
  | nil =>
    change seenOf openStyles behind = _
    cases seenOf openStyles behind <;> rfl
  | cons c text ih =>
    change (seenOf openStyles (seenAll text ++ behind)).map _ = _
    rw [ih]
    cases seenOf openStyles behind <;> rfl

/-- Where no bracket opens, every character is seen. -/
theorem pieces_of_no_opening (slashes : Nat) (h : '[' ∉ text) :
    pieces 0 slashes text = seenSlashes slashes ++ seenAll text := by
  induction slashes, text using pieceInduction with
  | nil slashes => exact (List.append_nil _).symm
  | slash slashes text ih =>
    rw [pieces_slash, ih fun hm => h (List.mem_cons_of_mem _ hm), seenSlashes, List.replicate_succ']
    simp [seenAll, seenSlashes]
  | tag slashes inside text his ih => exact absurd List.mem_cons_self h
  | other slashes c text hslash htag ih =>
    rw [List.mem_cons, not_or] at h
    rw [pieces_other _ hslash htag, if_neg (Ne.symm h.1), ih h.2]
    rfl

theorem visible_eq_reading (markup : List Char) : visible markup = (reading [] markup).map (·.filter isPrinted) := by
  rw [visible]
  split
  · rfl
  · next h =>
    have hno : '[' ∉ markup := by simpa using h
    rw [reading, pieces_of_no_opening 0 hno]
    have hall : seenOf [] (seenAll markup ++ []) = .ok (markup ++ []) := seenOf_seenAll markup []
    rw [List.append_nil, List.append_nil] at hall
    simp only [seenSlashes, List.replicate_zero, List.nil_append, hall]
    rfl

theorem reading_nil : reading openStyles [] = .ok [] := rfl

/-- A text in which there is no markup is seen as it is. -/
theorem reading_plain (h : Inert text) :
    reading openStyles (text ++ rest) = (reading openStyles rest).map (text ++ ·) := by
  have hpieces : pieces 0 0 (text ++ rest) = seenAll text ++ pieces 0 0 rest := by
    induction text with
    | nil => rfl
    | cons c text ih =>
      rw [Inert, List.forall_mem_cons] at h
      rw [List.cons_append, pieces_other_first h.1.1 fun hc => absurd hc h.1.2, ih h.2]
      rfl
  rw [reading, hpieces, seenOf_seenAll, reading]

/-- A style that opens for a name, and is closed behind it, does not show. -/
theorem reading_styled {style name : List Char} (hstyle : IsTag style)
    (hopens : ∃ opened, applyTag openStyles style = .ok (opened :: openStyles))
    (hname : Inert name) :
    reading openStyles ('[' :: (style ++ ']' :: (name ++ '[' :: '/' :: ']' :: rest))) =
      (reading openStyles rest).map (name ++ ·) := by
  obtain ⟨opened, hopens⟩ := hopens
  have hclose : IsTag ['/'] := ⟨⟨'/', [], rfl, by decide⟩, by decide, by decide⟩
  have hopen : reading openStyles ('[' :: (style ++ ']' :: (name ++ '[' :: '/' :: ']' :: rest))) =
      reading (opened :: openStyles) (name ++ '[' :: '/' :: ']' :: rest) := by
    rw [reading, pieces_tag_first hstyle, seenOf, hopens, reading]
  have hend : reading (opened :: openStyles) ('[' :: '/' :: ']' :: rest) = reading openStyles rest := by
    have hpieces : pieces 0 0 ('[' :: '/' :: ']' :: rest) = .tag ['/'] :: pieces 0 0 rest := pieces_tag_first hclose
    rw [reading, hpieces, seenOf, reading]
    simp [applyTag, tagName, trim, dropEndWhile]
  rw [hopen, reading_plain hname, hend]

end Reading

/-! ## Tags in texts that are not escaped -/

/-- A bracket in a text begins a tag. -/
def HasTag (text : List Char) : Prop := ∃ rest, '[' :: rest <:+ text ∧ tag? rest ≠ none

section Unescaped

variable {text : List Char}

theorem HasTag.cons {c : Char} {rest : List Char} (h : HasTag rest) : HasTag (c :: rest) := by
  obtain ⟨behind, hsuffix, htag⟩ := h
  exact ⟨behind, hsuffix.trans (List.suffix_cons c rest), htag⟩

/-- A tag in a text is its first bracket, or comes behind it. -/
theorem HasTag.behind {c : Char} {rest : List Char} (h : HasTag (c :: rest)) (htag : c = '[' → tag? rest = none) :
    HasTag rest := by
  obtain ⟨behind, hsuffix, hsome⟩ := h
  rcases List.suffix_cons_iff.1 hsuffix with heq | hsuffix
  · obtain ⟨rfl, rfl⟩ := List.cons.inj heq
    exact absurd (htag rfl) hsome
  · exact ⟨behind, hsuffix, hsome⟩

theorem pieces_of_no_tag (slashes : Nat) (text : List Char) (hzero : slashes = 0) (hslash : '\\' ∉ text)
    (htag : ¬ HasTag text) : pieces 0 slashes text = seenAll text := by
  induction slashes, text using pieceInduction with
  | nil slashes =>
    subst hzero
    rfl
  | slash slashes text ih => exact absurd List.mem_cons_self hslash
  | tag slashes inside text his ih =>
    refine absurd ⟨_, List.suffix_refl _, ?_⟩ htag
    rw [his.tag?]
    exact nofun
  | other slashes c text hc hnone ih =>
    subst hzero
    rw [pieces_other_first hc hnone, ih rfl (fun hm => hslash (List.mem_cons_of_mem _ hm)) fun hm => htag hm.cons]
    rfl

/-- Of a text without backslashes no more is seen than there is, and less if there is a tag in it. -/
theorem length_seen (slashes : Nat) (text : List Char) (hzero : slashes = 0) (hslash : '\\' ∉ text)
    {openStyles : List (List Char)} {seen : List Char} (h : seenOf openStyles (pieces 0 slashes text) = .ok seen) :
    seen.length ≤ text.length ∧ (HasTag text → seen.length < text.length) := by
  induction slashes, text using pieceInduction generalizing openStyles seen with
  | nil slashes =>
    subst hzero
    cases h
    refine ⟨Nat.le_refl _, ?_⟩
    rintro ⟨rest, hsuffix, -⟩
    simp at hsuffix
  | slash slashes text ih => exact absurd List.mem_cons_self hslash
  | tag slashes inside text his ih =>
    subst hzero
    have htext : '\\' ∉ text := fun hm => hslash (by simp [hm])
    rw [pieces_tag_first his, seenOf] at h
    split at h
    · have hle := (ih rfl htext h).1
      have hlt : seen.length < ('[' :: (inside ++ ']' :: text)).length := by
        simp
        omega
      exact ⟨Nat.le_of_lt hlt, fun _ => hlt⟩
    · cases h
  | other slashes c text hc hnone ih =>
    subst hzero
    have htext : '\\' ∉ text := fun hm => hslash (List.mem_cons_of_mem _ hm)
    rw [pieces_other_first hc hnone, seenOf] at h
    cases hread : seenOf openStyles (pieces 0 0 text) with
    | error e => simp [hread, Except.map] at h
    | ok behind =>
      obtain ⟨hle, hlt⟩ := ih rfl htext hread
      simp only [hread, Except.map, Except.ok.injEq] at h
      subst h
      exact ⟨Nat.succ_le_succ hle, fun htag => Nat.succ_lt_succ (hlt (htag.behind hnone))⟩

/-- **A text without backslashes that is not escaped is seen as it is just if there is no tag in it.** -/
theorem visible_eq_self_iff (hslash : '\\' ∉ text) (hprinted : ∀ c ∈ text, isPrinted c = true) :
    visible text = .ok text ↔ ¬ HasTag text := by
  rw [visible_eq_reading]
  constructor
  · intro h htag
    cases hread : reading [] text with
    | error e => simp [hread, Except.map] at h
    | ok seen =>
      have hlt := (length_seen 0 text rfl hslash hread).2 htag
      have hle := List.length_filter_le isPrinted seen
      simp only [hread, Except.map, Except.ok.injEq] at h
      rw [h] at hle
      omega
  · intro htag
    have hall : seenOf [] (seenAll text ++ []) = .ok (text ++ []) := seenOf_seenAll text []
    rw [List.append_nil, List.append_nil] at hall
    rw [reading, pieces_of_no_tag 0 text rfl hslash htag, hall]
    exact congrArg Except.ok (List.filter_eq_self.2 hprinted)

end Unescaped

end LanguageSessions.Console
