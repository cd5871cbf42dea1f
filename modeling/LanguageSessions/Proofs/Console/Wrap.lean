import LanguageSessions.Console.Table
import LanguageSessions.Proofs.Console.Escape
import LanguageSessions.Proofs.Path

/-!
# Texts that fit

The words of a text make up the text (`flatten_words`), so that a line which takes no more cells than there are is not
broken (`breakLine_of_fits`). A text that can stand in a line as it is (`Flat`) is printed in one line if there is room
for it (`Flat.printed`), and in a cell it is laid out as one line, with blanks beside it as it is justified, if nothing
at its end is taken for loose (`Legible.wrap`).
-/

namespace LanguageSessions.Console

open Text

-- Sums begin with the number nought itself, whatever else has one.
attribute [local instance (high)] Zero.ofOfNat0

/-! ## Cells -/

section Cells

theorem cells_eq_sum (text : List Char) : cells text = (text.map cellsOf).sum := by
  rw [cells, List.sum_eq_foldl, List.foldl_map]

@[simp] theorem cells_nil : cells [] = 0 := rfl

@[simp] theorem cells_cons (c : Char) (text : List Char) : cells (c :: text) = cellsOf c + cells text := by
  simp [cells_eq_sum]

@[simp] theorem cells_append (front back : List Char) : cells (front ++ back) = cells front + cells back := by
  simp [cells_eq_sum]

theorem cells_replicate {c : Char} (h : cellsOf c = 1) (count : Nat) : cells (List.replicate count c) = count := by
  simp [cells_eq_sum, h]

@[simp] theorem cells_blanks (count : Nat) : cells (blanks count) = count := cells_replicate (by decide) count

theorem cellsOf_le_one (c : Char) : cellsOf c ≤ 1 := by
  rw [cellsOf]
  split <;> decide

theorem cells_le_length (text : List Char) : cells text ≤ text.length := by
  induction text with
  | nil => exact Nat.le_refl 0
  | cons c text ih =>
    have hc := cellsOf_le_one c
    rw [cells_cons, List.length_cons]
    omega

/-- What fits is not cut. -/
theorem fitting_of_fits {width : Nat} {text : List Char} (h : cells text ≤ width) : fitting width text = text := by
  induction text generalizing width with
  | nil => rfl
  | cons c text ih =>
    rw [cells_cons] at h
    rw [fitting, if_pos (by omega), ih (by omega)]

theorem cells_dropEndWhile_le (p : Char → Bool) (text : List Char) : cells (dropEndWhile p text) ≤ cells text := by
  have hsplit : dropEndWhile p text ++ (text.reverse.takeWhile p).reverse = text := by
    rw [dropEndWhile, ← List.reverse_append, List.takeWhile_append_dropWhile, List.reverse_reverse]
  have hcells := congrArg cells hsplit
  rw [cells_append] at hcells
  omega

end Cells

/-! ## Words -/

/-- One more character before the words found so far, and whether it is blank. -/
def wordAt (c : Char) (found : Bool × List (List Char)) : Bool × List (List Char) :=
  let (blankNext, words) := found
  match words with
  | [] => (isBlank c, [[c]])
  | word :: others =>
    if isBlank c && !blankNext then (true, [c] :: word :: others) else (isBlank c, (c :: word) :: others)

theorem words_eq (text : List Char) :
    words text =
      let found := (text.foldr wordAt (true, [])).2
      match found with
      | first :: second :: others => if first.all isBlank then (first ++ second) :: others else found
      | [only] => if only.all isBlank then [] else found
      | [] => [] := rfl

theorem flatten_wordAt (c : Char) (found : Bool × List (List Char)) :
    (wordAt c found).2.flatten = c :: found.2.flatten := by
  obtain ⟨blankNext, words⟩ := found
  cases words with
  | nil => rfl
  | cons word others =>
    unfold wordAt
    dsimp only
    split <;> rfl

/-- The words of a text make up the text, unless it is blank. -/
theorem flatten_words (text : List Char) : words text = [] ∨ (words text).flatten = text := by
  have hall : (text.foldr wordAt (true, [])).2.flatten = text := by
    induction text with
    | nil => rfl
    | cons c text ih => rw [List.foldr_cons, flatten_wordAt, ih]
  rw [words_eq]
  generalize (text.foldr wordAt (true, [])).2 = found at hall
  subst hall
  match found with
  | [] => exact .inl rfl
  | [only] =>
    dsimp only
    split
    · exact .inl rfl
    · exact .inr rfl
  | first :: second :: others =>
    dsimp only
    split
    · exact .inr (by simp)
    · exact .inr rfl

/-! ## Lines that are not broken -/

section Lines

variable {width : Nat} {overflow : Overflow}

/-- Words that fit into a line are put into it one behind the other. -/
theorem distribute_of_fits {words : List (List Char)} {line : List Char} {used : Nat} {begun : Bool}
    (h : used + cells words.flatten ≤ width) :
    distribute width overflow line used begun words = [line ++ words.flatten] := by
  induction words generalizing line used begun with
  | nil => simp [distribute]
  | cons word words ih =>
    rw [List.flatten_cons, cells_append] at h
    have hword := cells_dropEndWhile_le isBlank word
    unfold distribute
    dsimp only
    rw [if_pos (by omega), ih (by omega), List.flatten_cons, List.append_assoc]

theorem breakLine_of_fits {line : List Char} (h : cells line ≤ width) : breakLine width overflow line = [line] := by
  rw [breakLine]
  split
  · rfl
  · next hne =>
    have hwords := (flatten_words line).resolve_left hne
    rw [distribute_of_fits (by rwa [hwords, Nat.zero_add]), hwords, List.nil_append]

theorem expandTabs_of_no_tab {text : List Char} (h : '\t' ∉ text) (column : Nat) : expandTabs column text = text := by
  induction text generalizing column with
  | nil => rfl
  | cons c text ih =>
    rw [List.mem_cons, not_or] at h
    rw [expandTabs, if_neg (Ne.symm h.1), ih h.2]

theorem shorten_of_fits {line : List Char} (h : cells line ≤ width) : shorten width overflow line = line := by
  unfold shorten
  rw [if_neg (Nat.not_lt.2 h)]

end Lines

/-! ## Texts that stand in one line -/

/-- Every character of a text gets to the console and stays in its line. -/
def Flat (text : List Char) : Prop := ∀ c ∈ text, isPrinted c = true ∧ c ≠ '\t' ∧ Table.endsLine c = false

/-- A text ends with a character that is not blank, if it has any. -/
def EndsWithInk (text : List Char) : Prop := ∀ c, text.getLast? = some c → isBlank c = false

/-- A text stands in a cell as it is: it is flat, and blanks at its end are not taken for loose ones, for which every
character has to take a cell. -/
structure Legible (text : List Char) : Prop where
  flat : Flat text
  snug : text.length ≤ cells text ∨ EndsWithInk text

instance (text : List Char) : Decidable (Flat text) :=
  List.decidableBAll (fun c => isPrinted c = true ∧ c ≠ '\t' ∧ Table.endsLine c = false) text

instance (text : List Char) : Decidable (EndsWithInk text) :=
  Option.decidableForallMem (p := fun c => isBlank c = false) text.getLast?

instance (text : List Char) : Decidable (Legible text) :=
  decidable_of_iff (Flat text ∧ (text.length ≤ cells text ∨ EndsWithInk text))
    ⟨fun h => ⟨h.1, h.2⟩, fun h => ⟨h.1, h.2⟩⟩

/-- A line of text in a number of cells, with blanks beside it. -/
def aligned (width : Nat) (justify : Justify) (text : List Char) : List Char :=
  let gap := width - cells text
  match justify with
  | .loose => text
  | .left => text ++ blanks gap
  | .center => blanks (gap / 2) ++ text ++ blanks (gap - gap / 2)
  | .right => blanks gap ++ text

section FlatLines

variable {width : Nat} {overflow : Overflow} {justify : Justify} {text : List Char} {c : Char}

theorem Flat.cons (hc : isPrinted c = true ∧ c ≠ '\t' ∧ Table.endsLine c = false) (h : Flat text) : Flat (c :: text) :=
  List.forall_mem_cons.2 ⟨hc, h⟩

theorem Flat.append {behind : List Char} (h : Flat text) (hbehind : Flat behind) : Flat (text ++ behind) :=
  List.forall_mem_append.2 ⟨h, hbehind⟩

theorem Flat.filter_printed (h : Flat text) : text.filter isPrinted = text :=
  List.filter_eq_self.2 fun c hc => (h c hc).1

/-- No more is seen of a flat text than flat text, when it was escaped. -/
theorem Flat.shown (h : Flat text) : Flat (shown text) := by
  intro c hc
  rcases mem_shown hc with hm | rfl
  · exact h c hm
  · decide

theorem endsWithInk_append_cons (hc : isBlank c = false) (front : List Char) : EndsWithInk (front ++ [c]) := by
  intro d hd
  rw [List.getLast?_concat] at hd
  cases hd
  exact hc

/-- A text in which every character takes a cell has as many cells as characters. -/
theorem length_le_cells_iff : text.length ≤ cells text ↔ ∀ c ∈ text, cellsOf c = 1 := by
  induction text with
  | nil => simp
  | cons c text ih =>
    have hc : cellsOf c ≤ 1 := cellsOf_le_one c
    have htext := cells_le_length text
    rw [List.forall_mem_cons, ← ih, cells_cons, List.length_cons]
    omega

theorem Legible.shown (h : Legible text) : Legible (shown text) := by
  refine ⟨h.flat.shown, ?_⟩
  rcases h.snug with hlength | hink
  · left
    rw [length_le_cells_iff] at hlength ⊢
    intro c hc
    rcases mem_shown hc with hm | rfl
    · exact hlength c hm
    · decide
  · right
    intro c hc
    rcases getLast?_shown hc with hlast | rfl
    · exact hink c hlast
    · decide

theorem dropEndWhile_of_ink (h : EndsWithInk text) : dropEndWhile isBlank text = text := by
  cases hlast : text.getLast? with
  | none =>
    rw [List.getLast?_eq_none_iff.1 hlast]
    rfl
  | some c => exact Path.dropEndWhile_of_getLast? hlast (h c hlast)

theorem dropLooseEnd_of_room (h : text.length ≤ width ∨ EndsWithInk text) : dropLooseEnd width text = text := by
  have hnothing : min (text.reverse.takeWhile isBlank).length (text.length - width) = 0 := by
    rcases h with hlength | hink
    · omega
    · cases hlast : text.getLast? with
      | none => simp [List.getLast?_eq_none_iff.1 hlast]
      | some c =>
        obtain ⟨front, rfl⟩ := List.getLast?_eq_some_iff.1 hlast
        simp [hink c hlast]
  rw [dropLooseEnd, hnothing, Nat.sub_zero, List.take_length]

theorem fill_of_fits (hfits : cells text ≤ width) (hink : justify = .center ∨ justify = .right → EndsWithInk text) :
    fill width justify overflow text = aligned width justify text := by
  cases justify with
  | loose => exact shorten_of_fits hfits
  | left =>
    unfold fill
    rw [shorten_of_fits hfits]
    rfl
  | center =>
    unfold fill
    dsimp only
    rw [dropEndWhile_of_ink (hink (.inl rfl)), shorten_of_fits hfits, cells_append, cells_blanks]
    refine congrArg (_ ++ blanks ·) ?_
    omega
  | right =>
    unfold fill
    dsimp only
    rw [dropEndWhile_of_ink (hink (.inr rfl)), shorten_of_fits hfits]
    rfl

theorem wrap_of_flat (h : Flat text) (hfits : cells text ≤ width) (hroom : text.length ≤ width ∨ EndsWithInk text)
    (hink : justify = .center ∨ justify = .right → EndsWithInk text) :
    wrap width justify overflow text = [aligned width justify text] := by
  have hline : '\n' ∉ text := fun hm => absurd (h _ hm).2.2 (by decide)
  have htab : '\t' ∉ text := fun hm => absurd rfl (h _ hm).2.1
  rw [wrap, Path.splitOn_of_not_mem hline, List.flatMap_singleton, expandTabs_of_no_tab htab, breakLine_of_fits hfits,
    List.map_singleton, dropLooseEnd_of_room hroom, fill_of_fits hfits hink]

/-- **A legible text that fits is laid out in one line**, as it is. -/
theorem Legible.wrap (h : Legible text) (hfits : cells text ≤ width)
    (hink : justify = .center ∨ justify = .right → EndsWithInk text) :
    Console.wrap width justify overflow text = [aligned width justify text] :=
  wrap_of_flat h.flat hfits (h.snug.imp_left fun hlength => Nat.le_trans hlength hfits) hink

/-- **A flat text for which there is room is printed in one line**, as it is. -/
theorem Flat.printed (h : Flat text) (hroom : text.length ≤ width) : printed width text = [text] :=
  wrap_of_flat h (Nat.le_trans (cells_le_length text) hroom) (.inl hroom) (by simp)

theorem cells_aligned (hfits : cells text ≤ width) (hjustify : justify ≠ .loose) :
    cells (aligned width justify text) = width := by
  cases justify with
  | loose => exact absurd rfl hjustify
  | left => simp [aligned, hfits]
  | center =>
    simp [aligned]
    omega
  | right => simp [aligned, hfits]

end FlatLines

end LanguageSessions.Console
