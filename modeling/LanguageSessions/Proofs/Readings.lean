import Mathlib.Data.List.Forall2

/-!
# Readings one after the other

Items are read one after the other until one of them cannot be read. All are read if each one is (`mapM_eq_ok_iff`); if
not, the first one that cannot be read decides the error (`mapM_eq_error_iff`).
-/

namespace LanguageSessions

variable {ε α β : Type}

theorem bind_eq_ok_iff {first : Except ε α} {next : α → Except ε β} {found : β} :
    first >>= next = .ok found ↔ ∃ value, first = .ok value ∧ next value = .ok found := by
  cases first with
  | error e => exact ⟨nofun, nofun⟩
  | ok value =>
    constructor
    · exact fun h => ⟨value, rfl, h⟩
    · rintro ⟨_, ⟨⟩, h⟩
      exact h

theorem map_eq_ok_iff {first : Except ε α} {change : α → β} {found : β} :
    first.map change = .ok found ↔ ∃ value, first = .ok value ∧ change value = found := by
  cases first with
  | error e => exact ⟨nofun, nofun⟩
  | ok value => simp [Except.map]

variable {read : α → Except ε β} {items : List α}

/-- All items are read if each one is. -/
theorem mapM_eq_ok_iff {found : List β} :
    items.mapM read = .ok found ↔ List.Forall₂ (fun item value => read item = .ok value) items found := by
  induction items generalizing found with
  | nil =>
    rw [List.mapM_nil, List.forall₂_nil_left_iff]
    constructor
    · rintro ⟨⟩
      rfl
    · rintro rfl
      rfl
  | cons item items ih =>
    rw [List.mapM_cons, bind_eq_ok_iff]
    simp only [bind_eq_ok_iff, ih]
    constructor
    · rintro ⟨value, hitem, values, hitems, ⟨⟩⟩
      exact .cons hitem hitems
    · rintro (_ | ⟨hitem, hitems⟩)
      exact ⟨_, hitem, _, hitems, rfl⟩

/-- The first item that cannot be read decides the error. -/
theorem mapM_eq_error_iff {e : ε} :
    items.mapM read = .error e ↔
      ∃ before item after, items = before ++ item :: after ∧ (∀ other ∈ before, ∃ value, read other = .ok value) ∧
        read item = .error e := by
  induction items with
  | nil =>
    constructor
    · nofun
    · rintro ⟨before, item, after, h, -⟩
      simp at h
  | cons first items ih =>
    rw [List.mapM_cons]
    cases hfirst : read first with
    | error e' =>
      constructor
      · rintro ⟨⟩
        exact ⟨[], first, items, rfl, nofun, hfirst⟩
      · rintro ⟨_ | ⟨other, before⟩, item, after, h, hbefore, hitem⟩
        · cases h
          rw [hfirst] at hitem
          cases hitem
          rfl
        · cases h
          obtain ⟨value, hvalue⟩ := hbefore first List.mem_cons_self
          rw [hfirst] at hvalue
          cases hvalue
    | ok value =>
      have hrest : (do let values ← items.mapM read; pure (value :: values)) = .error e ↔
          items.mapM read = .error e := by
        cases items.mapM read with
        | error e' => exact ⟨id, id⟩
        | ok values => exact ⟨nofun, nofun⟩
      refine hrest.trans (ih.trans ?_)
      constructor
      · rintro ⟨before, item, after, rfl, hbefore, hitem⟩
        exact ⟨first :: before, item, after, rfl, List.forall_mem_cons.2 ⟨⟨value, hfirst⟩, hbefore⟩, hitem⟩
      · rintro ⟨_ | ⟨other, before⟩, item, after, h, hbefore, hitem⟩
        · cases h
          rw [hfirst] at hitem
          cases hitem
        · cases h
          exact ⟨before, item, after, rfl, fun other hm => hbefore other (List.mem_cons_of_mem _ hm), hitem⟩

/-- Items that can all be read give the list of what each one is read as. -/
theorem mapM_eq_map {value : α → β} (h : ∀ item ∈ items, read item = .ok (value item)) :
    items.mapM read = .ok (items.map value) := by
  rw [mapM_eq_ok_iff, List.forall₂_map_right_iff, List.forall₂_same]
  exact h

/-- The reading fails just if one of the items cannot be read. -/
theorem mapM_fails_iff : (∃ e, items.mapM read = .error e) ↔ ∃ item ∈ items, ∃ e, read item = .error e := by
  constructor
  · rintro ⟨e, h⟩
    obtain ⟨before, item, after, rfl, -, hitem⟩ := mapM_eq_error_iff.1 h
    exact ⟨item, by simp, e, hitem⟩
  · rintro ⟨item, hm, e, hitem⟩
    cases h : items.mapM read with
    | error e' => exact ⟨e', rfl⟩
    | ok found =>
      have hall := mapM_eq_ok_iff.1 h
      obtain ⟨i, hi, rfl⟩ := List.getElem_of_mem hm
      have hvalue := hall.get hi (hall.length_eq ▸ hi)
      simp [hitem] at hvalue

end LanguageSessions
