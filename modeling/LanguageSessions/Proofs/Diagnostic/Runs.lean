import LanguageSessions.Diagnostic.Store
import LanguageSessions.Proofs.Diagnostic.Counts
import LanguageSessions.Proofs.Entries.Totals
import Mathlib.Data.List.Induction

/-!
# The store of diagnostics along a run

A run is any number of pushes and clearings, of changes of the filter between them, and of changes that readers make to
the counts and lists that they were given. Along every run

- the counts that are kept by difference are those of all files taken anew (`Balanced.after`);
- each file holds what the last push for it left under the filter of that time (`Agrees.after`), where `kept?` says what
  a push leaves and `stored?` finds the last one in the events themselves.

`counts_and_lists_of_run` puts them together with what a push does that fails.
-/

namespace LanguageSessions.DiagnosticStore

/-! ## What a push leaves -/

/-- Whether a diagnostic could not be read because a position in it is infinite. -/
def isUnbounded : Except ConversionError Diagnostic → Bool
  | .error .unbounded => true
  | _ => false

/-- What the items of a list are read as for a file, each under its own index. -/
def readings (path : String) (items : List Json) : List (Except ConversionError Diagnostic) :=
  items.mapIdx (Diagnostic.ofJson path)

/-- What a push leaves for its file: those of its items that can be read, in their order, as far as the filter lets them
through; none if the push fails, because it has no items or an infinite position is among them. -/
def kept? (visibility : Visibility) (uri : String) (data : Json) : Option (List Diagnostic) :=
  match data.items with
  | .error _ => none
  | .ok items =>
    let readings := readings (Uri.toPath uri) items
    if readings.any isUnbounded then none
    else some ((readings.filterMap Except.toOption).filter fun diagnostic => visibility.allows diagnostic.severity)

/-- To read the items from an index on is to read each one under its own index. -/
theorem convert_snd (path : String) (items : List Json) (index : Nat) :
    (convert path index items).2 =
      let readings := items.mapIdx fun i => Diagnostic.ofJson path (index + i)
      if readings.any isUnbounded then .error .unbounded else .ok (readings.filterMap Except.toOption) := by
  induction items generalizing index with
  | nil => rfl
  | cons item items ih =>
    have hshift : (fun i => Diagnostic.ofJson path (index + (i + 1))) =
        fun i => Diagnostic.ofJson path (index + 1 + i) := by
      funext i
      rw [Nat.add_assoc, Nat.add_comm 1 i]
    rw [convert, List.mapIdx_cons, hshift, Nat.add_zero]
    cases Diagnostic.ofJson path index item with
    | error e =>
      cases e with
      | unbounded => rfl
      | _ => exact ih (index + 1)
    | ok diagnostic =>
      dsimp only
      rw [ih (index + 1)]
      simp only [List.any_cons, List.filterMap_cons, isUnbounded, Bool.false_or, Except.toOption]
      split <;> rfl

/-- **A push puts what it leaves in place of the diagnostics of its file, or fails.** -/
theorem push_snd (store : DiagnosticStore) (uri : String) (data : Json) :
    (store.push uri data).2.toOption = (kept? store.visibility uri data).map (store.replace (Uri.toPath uri)) := by
  rw [push, kept?]
  cases data.items with
  | error e => rfl
  | ok items =>
    have hindex : (fun i => Diagnostic.ofJson (Uri.toPath uri) (0 + i)) = Diagnostic.ofJson (Uri.toPath uri) := by
      funext i
      rw [Nat.zero_add]
    dsimp only
    rw [convert_snd, hindex, readings]
    dsimp only
    split <;> rfl

/-! ## Runs -/

/-- What can happen to a store of diagnostics. -/
inductive Event where
  | push (uri : String) (data : Json)
  | clear (uri : String)
  | clearAll
  /-- The filter is changed; what is stored stays. -/
  | see (visibility : Visibility)
  /-- A reader changes the counts that it was given. -/
  | alterCounts (change : SeverityCounts → SeverityCounts)
  /-- A reader changes the list that it was given for a file. -/
  | alterList (path : String) (change : List Diagnostic → List Diagnostic)

/-- A store, and what its readers made of the counts and the list that they were given last. -/
structure Desk where
  store : DiagnosticStore
  counts : SeverityCounts
  list : List Diagnostic

/-- The desk after an event; a push that fails leaves it alone. -/
def Desk.after (desk : Desk) : Event → Desk
  | .push uri data => { desk with store := (desk.store.push uri data).2.toOption.getD desk.store }
  | .clear uri => { desk with store := desk.store.clear uri }
  | .clearAll => { desk with store := desk.store.clearAll }
  | .see visibility => { desk with store := { desk.store with visibility } }
  | .alterCounts change => { desk with counts := change desk.store.counts }
  | .alterList path change => { desk with list := change (desk.store.get path) }

/-- The desk after events one after the other. -/
def Desk.run (desk : Desk) (events : List Event) : Desk := events.foldl Desk.after desk

theorem Desk.after_push (desk : Desk) (uri : String) (data : Json) :
    (desk.after (.push uri data)).store =
      ((kept? desk.store.visibility uri data).map (desk.store.replace (Uri.toPath uri))).getD desk.store :=
  congrArg (·.getD desk.store) (desk.store.push_snd uri data)

/-! ## Counting anew -/

/-- Each file is stored once, and the counts are those of all files. -/
structure Balanced (store : DiagnosticStore) : Prop where
  keys : store.files.keys.Nodup
  counts : store.counts = Entries.total SeverityCounts.ofList store.files

theorem balanced_empty (visibility : Visibility) : (empty visibility).Balanced := ⟨List.nodup_nil, rfl⟩

theorem ofList_get (store : DiagnosticStore) (path : String) :
    SeverityCounts.ofList (store.get path) = (store.files.get? path).elim 0 SeverityCounts.ofList := by
  rw [get]
  cases store.files.get? path <;> rfl

theorem Balanced.replace {store : DiagnosticStore} (h : store.Balanced) (path : String)
    (diagnostics : List Diagnostic) : (store.replace path diagnostics).Balanced where
  keys := Entries.nodup_keys_set h.keys path diagnostics
  counts := by
    dsimp only [DiagnosticStore.replace]
    rw [Entries.total_set, ← h.counts, ofList_get]

theorem clear_eq (store : DiagnosticStore) (uri : String) :
    store.clear uri = { store with
      files := store.files.erase (Uri.toPath uri)
      counts := store.counts - (store.files.get? (Uri.toPath uri)).elim 0 SeverityCounts.ofList } := by
  rw [clear]
  split
  · next hnone => rw [hnone, Entries.erase_eq_self hnone, Option.elim_none, sub_zero]
  · next previous hsome => rw [hsome, Option.elim_some]

theorem Balanced.clear {store : DiagnosticStore} (h : store.Balanced) (uri : String) : (store.clear uri).Balanced := by
  rw [clear_eq]
  constructor
  case keys => exact Entries.nodup_keys_erase h.keys _
  case counts => rw [Entries.total_erase _ h.keys, ← h.counts]

/-- One event keeps the counts those of all files. -/
theorem Balanced.after {desk : Desk} (h : desk.store.Balanced) (event : Event) : (desk.after event).store.Balanced := by
  cases event with
  | push uri data =>
    rw [desk.after_push]
    cases kept? desk.store.visibility uri data with
    | none => exact h
    | some diagnostics => exact h.replace _ _
  | clear uri => exact h.clear uri
  | clearAll => exact ⟨List.nodup_nil, rfl⟩
  | see visibility => exact ⟨h.keys, h.counts⟩
  | alterCounts change => exact h
  | alterList path change => exact h

theorem Balanced.run {desk : Desk} (h : desk.store.Balanced) (events : List Event) : (desk.run events).store.Balanced := by
  induction events generalizing desk with
  | nil => exact h
  | cons event events ih => exact ih (h.after event)

theorem Balanced.nonneg {store : DiagnosticStore} (h : store.Balanced) : store.counts.Nonneg := by
  rw [h.counts]
  refine SeverityCounts.nonneg_sum fun counts hc => ?_
  obtain ⟨diagnostics, -, rfl⟩ := List.mem_map.1 hc
  exact SeverityCounts.nonneg_ofList diagnostics

/-! ## The last push -/

/-- The filter in force behind events, the latest first. -/
def inForce (first : Visibility) : List Event → Visibility
  | [] => first
  | .see visibility :: _ => visibility
  | _ :: earlier => inForce first earlier

/-- What the last push for a file left behind events, the latest first; none if there was no push that succeeded, or the
file was cleared since. -/
def stored? (first : Visibility) (path : String) : List Event → Option (List Diagnostic)
  | [] => none
  | .push uri data :: earlier =>
    if Uri.toPath uri = path then (kept? (inForce first earlier) uri data).or (stored? first path earlier)
    else stored? first path earlier
  | .clear uri :: earlier => if Uri.toPath uri = path then none else stored? first path earlier
  | .clearAll :: _ => none
  | _ :: earlier => stored? first path earlier

/-- A store holds what the last pushes left. -/
structure Agrees (first : Visibility) (history : List Event) (store : DiagnosticStore) : Prop where
  visibility : store.visibility = inForce first history
  files : ∀ path, store.files.get? path = stored? first path history

/-- One event keeps every file in agreement with its last push. -/
theorem Agrees.after {first : Visibility} {history : List Event} {desk : Desk} (h : Agrees first history desk.store)
    (event : Event) : Agrees first (event :: history) (desk.after event).store := by
  cases event with
  | push uri data =>
    rw [desk.after_push, h.visibility]
    cases hk : kept? (inForce first history) uri data with
    | none =>
      refine ⟨h.visibility, fun path => ?_⟩
      rw [stored?, hk, Option.none_or, ite_self]
      exact h.files path
    | some diagnostics =>
      refine ⟨h.visibility, fun path => ?_⟩
      rw [stored?, hk, Option.some_or, ← h.files path]
      exact Entries.get?_set _ _ _ _
  | clear uri =>
    dsimp only [Desk.after]
    rw [clear_eq]
    refine ⟨h.visibility, fun path => ?_⟩
    rw [stored?, ← h.files path]
    exact Entries.get?_erase _ _ _
  | clearAll => exact ⟨h.visibility, fun _ => rfl⟩
  | see visibility => exact ⟨rfl, h.files⟩
  | alterCounts change => exact ⟨h.visibility, h.files⟩
  | alterList path change => exact ⟨h.visibility, h.files⟩

theorem agrees_run (desk : Desk) (hempty : desk.store.files = []) (events : List Event) :
    Agrees desk.store.visibility events.reverse (desk.run events).store := by
  induction events using List.reverseRecOn with
  | nil =>
    refine ⟨rfl, fun path => ?_⟩
    rw [Desk.run, List.foldl_nil, hempty]
    rfl
  | append_singleton events event ih =>
    rw [List.reverse_concat, Desk.run, List.foldl_append]
    exact ih.after event

/-! ## All together -/

/-- **The counts are those of all files, and every file holds what its last push left.** In every state that a run comes
to: the counts kept by difference are the sum over all files, each of which is stored once, and none is negative; each
path holds what the last push for it left under the filter of that time, if it was not cleared since; and the next push
fails and changes nothing, or puts what it leaves in place of the diagnostics of its file. -/
theorem counts_and_lists_of_run (visibility : Visibility) (counts : SeverityCounts) (list : List Diagnostic)
    (events : List Event) :
    let desk := Desk.run ⟨empty visibility, counts, list⟩ events
    desk.store.counts = (desk.store.files.values.map SeverityCounts.ofList).sum ∧
    desk.store.files.keys.Nodup ∧
    (0 ≤ desk.store.counts.errors ∧ 0 ≤ desk.store.counts.warnings ∧ 0 ≤ desk.store.counts.info ∧
      0 ≤ desk.store.counts.hints) ∧
    desk.store.visibility = inForce visibility events.reverse ∧
    (∀ path, desk.store.files.get? path = stored? visibility path events.reverse ∧
      desk.store.get path = (stored? visibility path events.reverse).getD []) ∧
    ∀ uri data,
      ((∃ error, (desk.store.push uri data).2 = .error error) ∧ kept? desk.store.visibility uri data = none ∧
        desk.after (.push uri data) = desk) ∨
      ∃ diagnostics, kept? desk.store.visibility uri data = some diagnostics ∧
        (desk.store.push uri data).2 = .ok (desk.store.replace (Uri.toPath uri) diagnostics) := by
  intro desk
  have hb : desk.store.Balanced := (balanced_empty visibility).run events
  have ha : Agrees visibility events.reverse desk.store := agrees_run ⟨empty visibility, counts, list⟩ rfl events
  refine ⟨hb.counts, hb.keys, hb.nonneg, ha.visibility, fun path => ⟨ha.files path, ?_⟩, fun uri data => ?_⟩
  · rw [get, ha.files]
  · have hp := desk.store.push_snd uri data
    cases hk : kept? desk.store.visibility uri data with
    | none =>
      rw [hk] at hp
      left
      cases hpush : (desk.store.push uri data).2 with
      | error error =>
        refine ⟨⟨error, rfl⟩, rfl, ?_⟩
        rw [Desk.after, hpush]
        rfl
      | ok store =>
        rw [hpush] at hp
        cases hp
    | some diagnostics =>
      rw [hk] at hp
      refine Or.inr ⟨diagnostics, rfl, ?_⟩
      cases hpush : (desk.store.push uri data).2 with
      | error error =>
        rw [hpush] at hp
        cases hp
      | ok store =>
        rw [hpush] at hp
        cases hp
        rfl

end LanguageSessions.DiagnosticStore
