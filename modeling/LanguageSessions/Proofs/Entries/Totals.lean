import LanguageSessions.Proofs.Entries
import Mathlib.Algebra.BigOperators.Group.List.Basic
import Mathlib.Data.List.Nodup
import Mathlib.Tactic.Abel

/-!
# Totals over tables

A total adds up what each value of a table amounts to. Putting a value in changes it by the difference to the value that
was there (`total_set`), and in a table with distinct keys taking a key out takes its amount away (`total_erase`).
-/

namespace LanguageSessions.Entries

variable {κ α G : Type} [DecidableEq κ]

/-! ## Distinct keys -/

theorem nodup_keys_set {entries : Entries κ α} (h : entries.keys.Nodup) (key : κ) (value : α) :
    (entries.set key value).keys.Nodup := by
  induction entries with
  | nil => exact List.nodup_singleton key
  | cons entry rest ih =>
    obtain ⟨k, old⟩ := entry
    obtain ⟨hk, hrest⟩ := List.nodup_cons.1 h
    rw [set]
    split
    · exact List.nodup_cons.2 ⟨hk, hrest⟩
    · next hne =>
      refine List.nodup_cons.2 ⟨fun hm => ?_, ih hrest⟩
      obtain ⟨⟨other, v⟩, hin, rfl⟩ := List.mem_map.1 hm
      rcases mem_set hin with hin | ⟨heq, -⟩
      · exact hk (mem_keys_of_mem hin)
      · exact hne heq

omit [DecidableEq κ] in
theorem nodup_keys_filter {entries : Entries κ α} (h : entries.keys.Nodup) (keep : κ × α → Bool) :
    (keys (entries.filter keep)).Nodup :=
  (List.filter_sublist.map Prod.fst).nodup h

theorem nodup_keys_erase {entries : Entries κ α} (h : entries.keys.Nodup) (key : κ) :
    (entries.erase key).keys.Nodup := by
  rw [erase_eq_filter]
  exact nodup_keys_filter h _

theorem erase_eq_self {entries : Entries κ α} {key : κ} (h : entries.get? key = none) :
    entries.erase key = entries := by
  rw [erase_eq_filter, List.filter_eq_self]
  intro entry he
  exact decide_eq_true fun e => get?_eq_none_iff.1 h (e ▸ List.mem_map_of_mem he)

/-- The values of a table are the one at a key and those that are left without it. -/
theorem values_perm_erase {key : κ} {value : α} : ∀ {entries : Entries κ α}, entries.keys.Nodup →
    entries.get? key = some value → entries.values.Perm (value :: (entries.erase key).values)
  | (k, v) :: rest, hn, h => by
    obtain ⟨hk, hn⟩ := List.nodup_cons.1 hn
    rw [get?] at h
    rw [erase]
    split at h
    · next heq =>
      have hnone : get? rest key = none := get?_eq_none_iff.2 (heq ▸ hk)
      cases h
      rw [if_pos heq, erase_eq_self hnone]
      exact List.Perm.refl _
    · next hne =>
      rw [if_neg hne]
      exact ((values_perm_erase hn h).cons v).trans (List.Perm.swap value v _)

/-! ## Totals -/

variable [AddCommGroup G]

/-- What all values of a table amount to. -/
def total (amount : α → G) (entries : Entries κ α) : G := (entries.values.map amount).sum

omit [DecidableEq κ] in
theorem total_cons (amount : α → G) (key : κ) (value : α) (rest : Entries κ α) :
    total amount ((key, value) :: rest) = amount value + total amount rest := List.sum_cons

/-- A value that is put in adds its amount, and the one that it replaces takes its own away. -/
theorem total_set (amount : α → G) (entries : Entries κ α) (key : κ) (value : α) :
    total amount (entries.set key value) =
      total amount entries - ((entries.get? key).elim 0 amount) + amount value := by
  induction entries with
  | nil => simp [set, get?, total, values]
  | cons entry rest ih =>
    obtain ⟨k, old⟩ := entry
    rw [set, get?]
    by_cases hk : k = key
    · rw [if_pos hk, if_pos hk, total_cons, total_cons, Option.elim_some]
      abel
    · rw [if_neg hk, if_neg hk, total_cons, total_cons, ih]
      abel

/-- A key that is taken out takes the amount of its value away. -/
theorem total_erase (amount : α → G) {entries : Entries κ α} (h : entries.keys.Nodup) (key : κ) :
    total amount (entries.erase key) = total amount entries - ((entries.get? key).elim 0 amount) := by
  induction entries with
  | nil => simp [erase, get?]
  | cons entry rest ih =>
    obtain ⟨k, old⟩ := entry
    obtain ⟨hk, hrest⟩ := List.nodup_cons.1 h
    rw [erase, get?]
    by_cases heq : k = key
    · have hnone : get? rest key = none := get?_eq_none_iff.2 (heq ▸ hk)
      rw [if_pos heq, if_pos heq, erase_eq_self hnone, total_cons, Option.elim_some]
      abel
    · rw [if_neg heq, if_neg heq, total_cons, total_cons, ih hrest]
      abel

end LanguageSessions.Entries
