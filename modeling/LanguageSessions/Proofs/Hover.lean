import LanguageSessions.Hover

/-!
# Hover texts are flat

The contents of a hover are lists in lists, to any depth, with leaves that are no lists. Joining them list by list gives
what joining the texts of the leaves at once would give (`flatten_eq_joined`). Setting texts below one another
(`below`) is what carries this: it has the empty text as its unit, so nothing without a text leaves a trace, and it is
associative, so it does not matter which leaves share a list.

`contents_are_flat` is the whole of it: how the leaves are grouped is not seen in the text, and blank lines stand between
two texts that are not empty and nowhere else.
-/

namespace LanguageSessions

namespace Hover

open Text

/-! ## Leaves -/

mutual

/-- The leaves of contents from left to right, whatever lists they are in. -/
def leaves : Json → List Json
  | .array items => itemLeaves items
  | leaf => [leaf]

/-- The leaves of items, one item after the other. -/
def itemLeaves : List Json → List Json
  | [] => []
  | item :: items => leaves item ++ itemLeaves items

end

/-- The text of a leaf. Null has none, an object has that of its value, if there is one, and whatever else is no list is
shown. -/
def leafText : Json → List Char
  | .null => []
  | .object members => ((Members.get? members "value").map fun value => value.display.toList).getD []
  | leaf => leaf.display.toList

/-- The leaves with a text that is not empty. -/
def textLeaves (contents : Json) : List Json := (leaves contents).filter fun leaf => !(leafText leaf).isEmpty

/-- The texts of leaves, with a blank line between any two. -/
def joined (leaves : List Json) : List Char := blankLine.intercalate (leaves.map leafText)

/-! ## Texts below one another -/

/-- A text below another one, after a blank line; where one of them is empty, the other one is all there is. -/
def below (upper lower : List Char) : List Char :=
  if upper = [] then lower else if lower = [] then upper else upper ++ blankLine ++ lower

/-- Texts below one another. -/
def stack (texts : List (List Char)) : List Char := texts.foldr below []

@[simp] theorem nil_below (text : List Char) : below [] text = text := if_pos rfl

@[simp] theorem below_nil (text : List Char) : below text [] = text := by
  by_cases h : text = [] <;> simp [below, h]

theorem below_of_ne_nil {upper lower : List Char} (hu : upper ≠ []) (hl : lower ≠ []) :
    below upper lower = upper ++ blankLine ++ lower := by
  rw [below, if_neg hu, if_neg hl]

theorem below_eq_nil_iff {upper lower : List Char} : below upper lower = [] ↔ upper = [] ∧ lower = [] := by
  by_cases hu : upper = []
  · simp [hu]
  · by_cases hl : lower = []
    · simp [hl]
    · simp [below_of_ne_nil hu hl, hu]

theorem below_assoc (first second third : List Char) :
    below (below first second) third = below first (below second third) := by
  by_cases h₁ : first = []
  · simp [h₁]
  by_cases h₂ : second = []
  · simp [h₂]
  by_cases h₃ : third = []
  · simp [h₃]
  have hleft : below first second ≠ [] := fun h => h₁ (below_eq_nil_iff.1 h).1
  have hright : below second third ≠ [] := fun h => h₂ (below_eq_nil_iff.1 h).1
  rw [below_of_ne_nil hleft h₃, below_of_ne_nil h₁ hright, below_of_ne_nil h₁ h₂, below_of_ne_nil h₂ h₃]
  simp only [List.append_assoc]

theorem stack_cons (text : List Char) (texts : List (List Char)) : stack (text :: texts) = below text (stack texts) := rfl

theorem stack_append (upper lower : List (List Char)) : stack (upper ++ lower) = below (stack upper) (stack lower) := by
  induction upper with
  | nil => exact (nil_below _).symm
  | cons text upper ih =>
    rw [List.cons_append, stack_cons, stack_cons, ih, below_assoc]

theorem stack_eq_nil_iff {texts : List (List Char)} : stack texts = [] ↔ ∀ text ∈ texts, text = [] := by
  induction texts with
  | nil => exact iff_of_true rfl nofun
  | cons text texts ih =>
    rw [List.forall_mem_cons, ← ih, stack_cons, below_eq_nil_iff]

/-- Joining the texts that are not empty is setting all of them below one another. -/
theorem intercalate_filter (texts : List (List Char)) :
    blankLine.intercalate (texts.filter fun text => !text.isEmpty) = stack texts := by
  induction texts with
  | nil => rfl
  | cons text texts ih =>
    rw [stack_cons]
    -- An empty text is not joined, and the last text has nothing below it that could ask for a blank line.
    by_cases ht : text = []
    · rw [ht, nil_below, ← ih]
      rfl
    rw [List.filter_cons_of_pos (by simpa using ht)]
    by_cases hrest : texts.filter (fun text => !text.isEmpty) = []
    · rw [hrest, List.intercalate_nil] at ih
      rw [hrest, List.intercalate_singleton, ← ih, below_nil]
    · have hstack : stack texts ≠ [] := by
        refine fun h => hrest (List.filter_eq_nil_iff.2 fun other hm => ?_)
        simp [stack_eq_nil_iff.1 h other hm]
      rw [List.intercalate_cons_of_ne_nil hrest, ih, below_of_ne_nil ht hstack]

/-! ## The text of contents -/

theorem joinWith_eq_intercalate (separator : List Char) :
    ∀ pieces : List (List Char), joinWith separator pieces = separator.intercalate pieces
  | [] => rfl
  | [_] => List.intercalate_singleton.symm
  | _ :: next :: pieces => by
    rw [joinWith, joinWith_eq_intercalate separator (next :: pieces), List.intercalate_cons_cons]
    exact List.cons_ne_nil _ _

theorem parts_eq_filter (items : List Json) : parts items = (items.map flatten).filter fun text => !text.isEmpty := by
  induction items with
  | nil => rw [parts, List.map_nil, List.filter_nil]
  | cons item items ih =>
    rw [parts, List.map_cons, List.filter_cons, ih]
    by_cases h : (flatten item).isEmpty = true <;> simp [h]

theorem flatten_array (items : List Json) : flatten (.array items) = stack (items.map flatten) := by
  rw [flatten, joinWith_eq_intercalate, parts_eq_filter, intercalate_filter]

theorem leaves_leaf {leaf : Json} (h : ∀ items, leaf ≠ .array items) : leaves leaf = [leaf] := by
  cases leaf with
  | array items => exact absurd rfl (h items)
  | _ => simp only [leaves]

theorem flatten_leaf {leaf : Json} (h : ∀ items, leaf ≠ .array items) : flatten leaf = leafText leaf := by
  cases leaf with
  | array items => exact absurd rfl (h items)
  | object members =>
    rw [flatten, leafText]
    cases Members.get? members "value" <;> rfl
  | _ => simp [flatten, leafText, Json.display]

theorem stack_leaf {leaf : Json} (h : ∀ items, leaf ≠ .array items) :
    flatten leaf = stack ((leaves leaf).map leafText) := by
  rw [flatten_leaf h, leaves_leaf h]
  exact (below_nil _).symm

-- Only lists hold other contents, so the induction is on these alone; associativity is used where an item ends.
mutual

/-- The text of contents is the texts of their leaves below one another. -/
theorem flatten_eq_stack : ∀ contents : Json, flatten contents = stack ((leaves contents).map leafText)
  | .array items => by rw [flatten_array, leaves, stack_items items]
  | .null | .bool _ | .int _ | .float _ | .string _ | .object _ => stack_leaf (by simp)

theorem stack_items : ∀ items : List Json, stack (items.map flatten) = stack ((itemLeaves items).map leafText)
  | [] => rfl
  | item :: items => by
    rw [itemLeaves, List.map_append, stack_append, ← flatten_eq_stack item, ← stack_items items]
    rfl

end

theorem flatten_eq_joined (contents : Json) : flatten contents = joined (textLeaves contents) := by
  rw [flatten_eq_stack, ← intercalate_filter, List.filter_map]
  rfl

/-! ## Where blank lines stand -/

theorem intercalate_append {separator : List Char} {front back : List (List Char)} (hf : front ≠ []) (hb : back ≠ []) :
    separator.intercalate (front ++ back) = separator.intercalate front ++ separator ++ separator.intercalate back := by
  induction front with
  | nil => exact absurd rfl hf
  | cons piece front ih =>
    by_cases hne : front = []
    · rw [hne, List.singleton_append, List.intercalate_cons_of_ne_nil hb, List.intercalate_singleton]
    · rw [List.cons_append, List.intercalate_cons_of_ne_nil (List.append_ne_nil_of_right_ne_nil _ hb), ih hne,
        List.intercalate_cons_of_ne_nil hne]
      simp only [List.append_assoc]

theorem joined_append {front back : List Json} (hf : front ≠ []) (hb : back ≠ []) :
    joined (front ++ back) = joined front ++ blankLine ++ joined back := by
  rw [joined, List.map_append, intercalate_append (by simpa using hf) (by simpa using hb)]
  rfl

theorem joined_cons (leaf : Json) (after : List Json) :
    joined (leaf :: after) = leafText leaf ++ if after = [] then [] else blankLine ++ joined after := by
  split
  · next h => rw [h, joined, List.map_singleton, List.intercalate_singleton, List.append_nil]
  · next h =>
    rw [joined, List.map_cons, List.intercalate_cons_of_ne_nil (by simpa using h), List.append_assoc]
    rfl

/-- A leaf has a blank line before it just if there is another one before it, and one behind it just if there is another
one behind it. -/
theorem joined_around (before : List Json) (leaf : Json) (after : List Json) :
    joined (before ++ leaf :: after) =
      (if before = [] then [] else joined before ++ blankLine) ++ leafText leaf ++
        if after = [] then [] else blankLine ++ joined after := by
  rw [List.append_assoc, ← joined_cons]
  split
  · next h => rw [h, List.nil_append, List.nil_append]
  · next h => exact joined_append h (List.cons_ne_nil _ _)

theorem ofJson_object (members : Members) :
    ofJson (.object members) = (Range.ofJson? ((members.get? "range").getD .null)).map fun range =>
      ⟨String.ofList (flatten ((members.get? "contents").getD .null)), range⟩ := by
  dsimp only [ofJson, Json.fieldOrNull, bind, Except.bind]
  cases Range.ofJson? ((members.get? "range").getD .null) <;> rfl

/-- **The text of contents is flat.** It is the texts of the leaves that are not empty, from left to right, with blank
lines between. Contents with the same leaves have the same text, however these are grouped, and an item in which no leaf
has a text could as well be left out. Each leaf with a text has a blank line before it just if another one is before it,
and one behind it just if another one is behind it. This text is what a hover says. -/
theorem contents_are_flat :
    (∀ contents : Json, flatten contents = joined (textLeaves contents)) ∧
    (∀ contents other : Json, leaves contents = leaves other → flatten contents = flatten other) ∧
    (∀ (before : List Json) (item : Json) (after : List Json), textLeaves item = [] →
      flatten (.array (before ++ item :: after)) = flatten (.array (before ++ after))) ∧
    (∀ (contents : Json) (before : List Json) (leaf : Json) (after : List Json),
      textLeaves contents = before ++ leaf :: after →
        leafText leaf ≠ [] ∧
        flatten contents =
          (if before = [] then [] else joined before ++ blankLine) ++ leafText leaf ++
            if after = [] then [] else blankLine ++ joined after) ∧
    ∀ members : Members, ofJson (.object members) =
      (Range.ofJson? ((members.get? "range").getD .null)).map fun range =>
        ⟨String.ofList (flatten ((members.get? "contents").getD .null)), range⟩ := by
  refine ⟨flatten_eq_joined, ?_, ?_, ?_, ofJson_object⟩
  · intro contents other h
    rw [flatten_eq_stack, flatten_eq_stack, h]
  · intro before item after h
    have hitem : flatten item = [] := by
      rw [flatten_eq_joined, h]
      rfl
    rw [flatten_array, flatten_array, List.map_append, List.map_append, List.map_cons, stack_append, stack_append,
      stack_cons, hitem, nil_below]
  · intro contents before leaf after h
    refine ⟨?_, ?_⟩
    · have hm : leaf ∈ textLeaves contents := h ▸ List.mem_append_right _ List.mem_cons_self
      simpa using (List.mem_filter.1 hm).2
    · rw [flatten_eq_joined, h, joined_around]

/-- Null, an empty list and an object with an empty value leave no trace among three texts at different depths. -/
theorem nested_contents_are_flat :
    let code := Json.object [("language", .string "python"), ("value", .string "x: int")]
    let silent := Json.object [("value", .string "")]
    let nothing := Json.array [.null, .array []]
    let rest := [.string "plain", .array [silent, .array [code]], .bool true]
    let contents := Json.array ([] ++ nothing :: rest)
    let flat := Json.array [.null, .string "plain", silent, code, .bool true]
    (leaves contents = leaves flat ∧ flatten contents = flatten flat) ∧
    (textLeaves nothing = [] ∧ flatten contents = flatten (.array ([] ++ rest))) ∧
    (textLeaves contents = [.string "plain"] ++ code :: [.bool true] ∧
      flatten contents = "plain\n\nx: int\n\nTrue".toList) ∧
    ofJson (.object [("contents", contents)]) = .ok ⟨"plain\n\nx: int\n\nTrue", none⟩ := by
  intro code silent nothing rest contents flat
  obtain ⟨-, grouping, dropping, around, hover⟩ := contents_are_flat
  have hleaves : leaves contents = leaves flat := rfl
  have hnothing : textLeaves nothing = [] := rfl
  have htexts : textLeaves contents = [.string "plain"] ++ code :: [.bool true] := rfl
  have htext : flatten contents = "plain\n\nx: int\n\nTrue".toList := (around contents _ code _ htexts).2
  refine ⟨⟨hleaves, grouping _ _ hleaves⟩, ⟨hnothing, dropping [] nothing rest hnothing⟩, ⟨htexts, htext⟩, ?_⟩
  refine (hover _).trans ?_
  change Except.ok (⟨String.ofList (flatten contents), none⟩ : Hover) = _
  rw [htext, String.ofList_toList]

end Hover

end LanguageSessions
