import LanguageSessions.Entries
import Mathlib.Data.List.Basic

/-!
# Laws of ordered tables

- `get?` is the view of a table: `get?_set` and `get?_erase` say what putting in and taking out do to it;
- in a table whose keys are distinct, a pair that occurs is the one that is found (`get?_of_mem`), and what is kept of it
  by its value is found as before (`get?_filter`);
- taking a key out is a filter (`erase_eq_filter`), and putting in a new key appends (`set_of_get?_none`).
-/

namespace LanguageSessions.Entries

variable {κ α : Type} [DecidableEq κ]

/-- A value that is found occurs with its key. -/
theorem mem_of_get? {key : κ} {value : α} : ∀ {entries : Entries κ α}, entries.get? key = some value →
    (key, value) ∈ entries
  | [], h => by cases h
  | (k, v) :: rest, h => by
    rw [get?] at h
    split at h
    · next hk =>
      cases h; subst hk
      exact List.mem_cons_self
    · exact List.mem_cons_of_mem _ (mem_of_get? h)

theorem get?_eq_none_iff {key : κ} : ∀ {entries : Entries κ α}, entries.get? key = none ↔ key ∉ entries.keys
  | [] => by simp [get?, keys]
  | (k, v) :: rest => by
    have ih : get? rest key = none ↔ key ∉ keys rest := get?_eq_none_iff
    rw [get?]
    split
    · next hk => simp [keys, hk]
    · next hk =>
      rw [ih]
      simp [keys, Ne.symm hk]

omit [DecidableEq κ] in
theorem mem_keys_of_mem {entries : Entries κ α} {key : κ} {value : α} (h : (key, value) ∈ entries) :
    key ∈ entries.keys := List.mem_map_of_mem (f := Prod.fst) h

/-- With distinct keys, a pair that occurs is the one that is found. -/
theorem get?_of_mem {key : κ} {value : α} : ∀ {entries : Entries κ α}, entries.keys.Nodup → (key, value) ∈ entries →
    entries.get? key = some value
  | (k, v) :: rest, hn, h => by
    obtain ⟨hk, hn⟩ := List.nodup_cons.1 hn
    rw [get?]
    rcases List.mem_cons.1 h with h | h
    · cases h; simp
    · have hne : k ≠ key := fun e => hk (e ▸ mem_keys_of_mem h)
      rw [if_neg hne]
      exact get?_of_mem hn h

/-! ## Putting in -/

theorem get?_set (key other : κ) (value : α) : ∀ (entries : Entries κ α),
    (entries.set key value).get? other = if key = other then some value else entries.get? other
  | [] => by simp [set, get?]
  | (k, v) :: rest => by
    have ih := get?_set key other value rest
    rw [set]
    split
    · next hk =>
      subst hk
      rw [get?, get?]
      split <;> rfl
    · next hk =>
      rw [get?, ih, get?]
      by_cases ho : k = other
      · subst ho
        simp [Ne.symm hk]
      · simp [ho]

/-- A new key goes to the end. -/
theorem set_of_get?_none {key : κ} {value : α} : ∀ {entries : Entries κ α}, entries.get? key = none →
    entries.set key value = entries ++ [(key, value)]
  | [], _ => rfl
  | (k, v) :: rest, h => by
    rw [get?] at h
    split at h
    · cases h
    · next hk => rw [set, if_neg hk, set_of_get?_none h, List.cons_append]

/-- What occurs after a value was put in occurred before, or is what was put in. -/
theorem mem_set {key other : κ} {value v : α} : ∀ {entries : Entries κ α}, (other, v) ∈ entries.set key value →
    (other, v) ∈ entries ∨ (other = key ∧ v = value)
  | [], h => by simpa [set] using h
  | (k, old) :: rest, h => by
    rw [set] at h
    split at h
    · next hk =>
      rcases List.mem_cons.1 h with h | h
      · cases h; exact Or.inr ⟨hk, rfl⟩
      · exact Or.inl (List.mem_cons_of_mem _ h)
    · rcases List.mem_cons.1 h with h | h
      · exact Or.inl (h ▸ List.mem_cons_self)
      · exact (mem_set h).imp_left (List.mem_cons_of_mem _)

/-- The other keys keep their values and their places. -/
theorem filter_set_ne (key : κ) (value : α) (entries : Entries κ α) :
    ((entries.set key value).filter fun entry => entry.1 != key) = entries.filter fun entry => entry.1 != key := by
  induction entries with
  | nil => simp [set]
  | cons entry rest ih =>
    obtain ⟨k, old⟩ := entry
    rw [set]
    split
    · next hk => simp [hk]
    · rw [List.filter_cons, List.filter_cons, ih]

/-! ## Taking out -/

theorem erase_eq_filter (key : κ) : ∀ (entries : Entries κ α),
    entries.erase key = entries.filter fun entry => decide (entry.1 ≠ key)
  | [] => rfl
  | (k, v) :: rest => by
    have ih := erase_eq_filter key rest
    rw [erase, List.filter_cons]
    by_cases hk : k = key <;> simp [hk, ih]

theorem get?_erase (key other : κ) : ∀ (entries : Entries κ α),
    (entries.erase key).get? other = if key = other then none else entries.get? other
  | [] => by simp [erase, get?]
  | (k, v) :: rest => by
    have ih := get?_erase key other rest
    rw [erase]
    split
    · next hk =>
      rw [ih, get?, hk]
      split <;> rfl
    · next hk =>
      rw [get?, ih, get?]
      by_cases ho : k = other
      · subst ho
        simp [Ne.symm hk]
      · simp [ho]

theorem mem_erase {entries : Entries κ α} {key other : κ} {value : α} :
    (other, value) ∈ entries.erase key ↔ (other, value) ∈ entries ∧ other ≠ key := by
  rw [erase_eq_filter, List.mem_filter, decide_eq_true_iff]

/-- With distinct keys, keeping some of the values hides no other value and shows none behind it. -/
theorem get?_filter (keep : α → Bool) (key : κ) : ∀ {entries : Entries κ α}, entries.keys.Nodup →
    get? (entries.filter fun entry => keep entry.2) key = (entries.get? key).filter keep
  | [], _ => rfl
  | (k, v) :: rest, hn => by
    obtain ⟨hk, hn⟩ := List.nodup_cons.1 hn
    have ih := get?_filter keep key hn
    rw [List.filter_cons, get?]
    by_cases he : k = key
    · have hnone : get? rest key = none := get?_eq_none_iff.2 (he ▸ hk)
      rw [if_pos he, Option.filter_some]
      split
      · rw [get?, if_pos he]
      · rw [ih, hnone, Option.filter_none]
    · rw [if_neg he]
      split
      · rw [get?, if_neg he, ih]
      · exact ih

end LanguageSessions.Entries
