import LanguageSessions.Proofs.Diagnostic.Malformed
import LanguageSessions.Proofs.Number.Numeral

/-!
# Identifiers of diagnostics

An identifier is a path and an index with a hyphen between them, and the path may hold hyphens and digits of its own.
There is no hyphen in an index, so that the last one parts the two and an identifier tells its path and its index
(`idOf_inj`).

What a push stores has the indices of the list that was pushed, each one once and in their order, however many items
were left out between them (`survivors_increasing`). This is kept by every event (`Numbered.after`), and each path is
stored once; so no two diagnostics of a store ever share an identifier (`identifiers_are_distinct`).
-/

namespace LanguageSessions

open Text

/-! ## Paths and indices -/

/-- The decimal digits of a number tell the number. -/
theorem natDigits_injective : Function.Injective natDigits := by
  intro m n h
  obtain ⟨values, hwm, hm, rfl⟩ := exists_whole m
  obtain ⟨values', hwn, hn, rfl⟩ := exists_whole n
  have hread : some values = some values' := by
    rw [← Numeral.digitValues?_map hwm.ne_nil hwm.lt, ← Numeral.digitValues?_map hwn.ne_nil hwn.lt, ← hm, ← hn, h]
  rw [Option.some.inj hread]

theorem hyphen_not_mem_natDigits (n : Nat) : '-' ∉ natDigits n := by
  intro hm
  exact forall_mem_natDigits (P := (· ≠ '-')) (fun d hd => (digitChar_ne d hd).2.1) n '-' hm rfl

/-- A separator that does not occur behind itself parts a text in one way. -/
theorem append_cons_inj_of_last {separator : Char} {front front' back back' : List Char} (hb : separator ∉ back)
    (hb' : separator ∉ back') (h : front ++ separator :: back = front' ++ separator :: back') :
    front = front' ∧ back = back' := by
  rcases List.append_eq_append_iff.1 h with ⟨more, rfl, hrest⟩ | ⟨more, rfl, hrest⟩
  all_goals
    cases more with
    | nil => simp_all
    | cons c more =>
      -- what is more in one of the fronts brings the other separator into a back
      rw [List.cons_append, List.cons.injEq] at hrest
      simp [hrest.2] at hb hb'

/-- An identifier tells its path and its index, whatever stands in the path. -/
theorem Diagnostic.idOf_inj {path path' : String} {index index' : Nat} :
    idOf path index = idOf path' index' ↔ path = path' ∧ index = index' := by
  constructor
  · intro h
    have htext : "lsp-".toList ++ path.toList ++ '-' :: natDigits index =
        "lsp-".toList ++ path'.toList ++ '-' :: natDigits index' := String.ofList_inj.1 h
    simp only [List.append_assoc] at htext
    obtain ⟨hpath, hindex⟩ := append_cons_inj_of_last (hyphen_not_mem_natDigits index) (hyphen_not_mem_natDigits index')
      (List.append_cancel_left htext)
    exact ⟨String.toList_inj.1 hpath, natDigits_injective hindex⟩
  · rintro ⟨rfl, rfl⟩
    rfl

namespace DiagnosticStore

/-! ## Indices in a list -/

/-- What survives of items has increasing indices, with gaps where an item was left out. -/
theorem survivors_increasing (visibility : Visibility) (items : List Json) :
    (survivors visibility items).Pairwise fun a b => a.2 < b.2 := by
  have hitems : items.zipIdx.Pairwise fun a b => a.2 < b.2 := by
    rw [← List.pairwise_map, List.zipIdx_map_snd]
    exact List.pairwise_lt_range'
  rw [survivors, List.pairwise_filterMap]
  refine hitems.imp fun {a b} hlt survivor ha survivor' hb => ?_
  obtain ⟨_, -, rfl⟩ := Option.map_eq_some_iff.1 ha
  obtain ⟨_, -, rfl⟩ := Option.map_eq_some_iff.1 hb
  exact hlt

/-- Diagnostics have identifiers of a path, with increasing indices. -/
def NumberedFor (path : String) (diagnostics : List Diagnostic) : Prop :=
  ∃ indices : List Nat, indices.Pairwise (· < ·) ∧ diagnostics.map Diagnostic.id = indices.map (Diagnostic.idOf path)

theorem numberedFor_stored (path : String) (visibility : Visibility) (items : List Json) :
    NumberedFor path (stored path (survivors visibility items)) := by
  refine ⟨(survivors visibility items).map Prod.snd, List.pairwise_map.2 (survivors_increasing visibility items), ?_⟩
  rw [stored, List.map_map, List.map_map]
  rfl

theorem numberedFor_of_kept? {visibility : Visibility} {uri : String} {data : Json} {diagnostics : List Diagnostic}
    (h : kept? visibility uri data = some diagnostics) : NumberedFor (Uri.toPath uri) diagnostics := by
  unfold kept? at h
  split at h
  · cases h
  · next items _ =>
    dsimp only at h
    split at h
    · cases h
    · cases h
      rw [filter_readings]
      exact numberedFor_stored _ visibility items

/-! ## Indices along a run -/

/-- The diagnostics of every file have identifiers of its path, with increasing indices. -/
def Numbered (store : DiagnosticStore) : Prop :=
  ∀ path diagnostics, (path, diagnostics) ∈ store.files → NumberedFor path diagnostics

/-- One event keeps the identifiers of every file those of its path. -/
theorem Numbered.after {desk : Desk} (h : desk.store.Numbered) (event : Event) : (desk.after event).store.Numbered := by
  cases event with
  | push uri data =>
    rw [desk.after_push]
    cases hk : kept? desk.store.visibility uri data with
    | none => exact h
    | some diagnostics =>
      intro path found hm
      rcases Entries.mem_set hm with hm | ⟨rfl, rfl⟩
      · exact h path found hm
      · exact numberedFor_of_kept? hk
  | clear uri =>
    intro path found hm
    dsimp only [Desk.after] at hm
    rw [clear_eq] at hm
    exact h path found (Entries.mem_erase.1 hm).1
  | clearAll => exact fun _ _ hm => absurd hm List.not_mem_nil
  | see visibility => exact h
  | alterCounts change => exact h
  | alterList path change => exact h

theorem Numbered.run {desk : Desk} (h : desk.store.Numbered) (events : List Event) :
    (desk.run events).store.Numbered := by
  induction events generalizing desk with
  | nil => exact h
  | cons event events ih => exact ih (h.after event)

/-- **No two diagnostics of a store share an identifier.** After any run, the identifiers of all diagnostics of all
files are pairwise distinct. -/
theorem identifiers_are_distinct (visibility : Visibility) (counts : SeverityCounts) (list : List Diagnostic)
    (events : List Event) :
    ((Desk.run ⟨empty visibility, counts, list⟩ events).store.files.values.flatten.map Diagnostic.id).Nodup := by
  have hb : (Desk.run ⟨empty visibility, counts, list⟩ events).store.Balanced := (balanced_empty visibility).run events
  have hn : (Desk.run ⟨empty visibility, counts, list⟩ events).store.Numbered :=
    Numbered.run (fun _ _ hm => absurd hm List.not_mem_nil) events
  rw [Entries.values, ← List.flatMap_def, List.map_flatMap, List.Nodup, List.pairwise_flatMap]
  constructor
  · rintro ⟨path, diagnostics⟩ hm
    obtain ⟨indices, hlt, heq⟩ := hn path diagnostics hm
    rw [heq, List.pairwise_map]
    exact hlt.imp fun hlt hid => hlt.ne (Diagnostic.idOf_inj.1 hid).2
  · -- two files differ in their paths
    have hkeys := List.pairwise_map.1 hb.keys
    refine hkeys.imp_of_mem fun {first second} hf hs hne id hid id' hid' => ?_
    obtain ⟨indices, -, heq⟩ := hn first.1 first.2 hf
    obtain ⟨indices', -, heq'⟩ := hn second.1 second.2 hs
    rw [heq] at hid
    rw [heq'] at hid'
    obtain ⟨index, -, rfl⟩ := List.mem_map.1 hid
    obtain ⟨index', -, rfl⟩ := List.mem_map.1 hid'
    exact fun h => hne (Diagnostic.idOf_inj.1 h).1

end DiagnosticStore

end LanguageSessions
