import LanguageSessions.Proofs.Diagnostic.Runs
import LanguageSessions.Proofs.Location

/-!
# Pushes with malformed items

Of the items of a push those survive that can be read, each on its own, and that the filter lets through (`survivors`);
each of them is stored under the index at which it came. An item that cannot be read costs only itself: those behind it
come one index later, and nothing else changes (`survivors_insert`). But if the position in an item is infinite, then
the whole push fails and what was stored before stays (`malformed_items_cost_only_themselves`). It takes an infinite
number in the item for that (`blames_published`).
-/

namespace LanguageSessions

open Json

/-- **A diagnostic cannot be read for an infinite number only if there is one in it.** -/
theorem blames_published {data : Json} : Blames data (PublishedDiagnostic.ofJson data) := by
  refine Blames.bind blames_field fun range hrange => ?_
  refine (Blames.of_part blames_range (holdsInfinite_of_field hrange)).bind fun _ _ => ?_
  refine Blames.bind blames_fieldOrNull fun severity _ => ?_
  refine Blames.bind blames_fieldOrNull fun code _ => ?_
  exact Blames.bind blames_fieldOrNull fun source _ => blames_ok _

namespace DiagnosticStore

/-! ## Items that survive -/

/-- What an item is read as, if it can be read and the filter lets it through. -/
def survivor? (visibility : Visibility) (item : Json) : Option PublishedDiagnostic :=
  (PublishedDiagnostic.ofJson item).toOption.filter fun published =>
    visibility.allows (Severity.ofPublished published.severity)

/-- What survives of items, in their order, each with the index at which it came. -/
def survivors (visibility : Visibility) (items : List Json) : List (PublishedDiagnostic × Nat) :=
  items.zipIdx.filterMap fun entry => (survivor? visibility entry.1).map (·, entry.2)

/-- What is stored of the items that survive. -/
def stored (path : String) (survivors : List (PublishedDiagnostic × Nat)) : List Diagnostic :=
  survivors.map fun survivor => Diagnostic.ofPublished path survivor.2 survivor.1

/-- The same items, so many indices later. -/
def later (count : Nat) (survivors : List (PublishedDiagnostic × Nat)) : List (PublishedDiagnostic × Nat) :=
  survivors.map fun survivor => (survivor.1, survivor.2 + count)

section Survivors

variable {visibility : Visibility} {before after items : List Json} {item : Json}

/-- Items that come behind others survive as they do alone, but at later indices. -/
theorem survivors_append :
    survivors visibility (before ++ after) =
      survivors visibility before ++ later before.length (survivors visibility after) := by
  have hshift : after.zipIdx before.length = after.zipIdx.map (Prod.map id (· + before.length)) := by
    rw [List.map_snd_add_zipIdx_eq_zipIdx, Nat.add_zero]
  rw [survivors, List.zipIdx_append, List.filterMap_append, Nat.zero_add, hshift, List.filterMap_map]
  refine congrArg (survivors visibility before ++ ·) ?_
  rw [later, survivors, List.map_filterMap]
  refine List.filterMap_congr fun entry _ => ?_
  rw [Function.comp_apply, Option.map_map]
  rfl

/-- **An item that does not survive costs only its index.** -/
theorem survivors_insert (lost : survivor? visibility item = none) :
    survivors visibility (before ++ item :: after) =
      survivors visibility before ++ later (before.length + 1) (survivors visibility after) := by
  have hlost : survivors visibility [item] = [] := by
    rw [survivors, List.zipIdx_singleton, List.filterMap_cons]
    dsimp only
    rw [lost]
    rfl
  have hnone : survivors visibility (before ++ [item]) = survivors visibility before := by
    rw [survivors_append, hlost, later, List.map_nil, List.append_nil]
  rw [List.append_cons, survivors_append, hnone, List.length_append, List.length_singleton]

end Survivors

/-! ## Pushes -/

section Pushes

variable (visibility : Visibility) (path : String) (items : List Json)

theorem isUnbounded_ofJson (index : Nat) (item : Json) :
    isUnbounded (Diagnostic.ofJson path index item) = true ↔ PublishedDiagnostic.ofJson item = .error .unbounded := by
  rw [Diagnostic.ofJson]
  cases PublishedDiagnostic.ofJson item with
  | ok published => exact ⟨nofun, nofun⟩
  | error e => cases e <;> simp [Except.map, isUnbounded]

/-- The readings of items hold one that was cut off by an infinite position just where an item is read so on its own. -/
theorem any_isUnbounded_readings :
    (readings path items).any isUnbounded = true ↔
      ∃ item ∈ items, PublishedDiagnostic.ofJson item = .error .unbounded := by
  simp only [readings, List.mapIdx_eq_zipIdx_map, List.any_map, List.any_eq_true, Function.comp_apply,
    isUnbounded_ofJson]
  constructor
  · rintro ⟨⟨item, index⟩, hm, hu⟩
    exact ⟨item, List.fst_mem_of_mem_zipIdx hm, hu⟩
  · rintro ⟨item, hm, hu⟩
    obtain ⟨index, hi⟩ := List.mem_iff_getElem?.1 hm
    exact ⟨(item, index), List.mem_zipIdx_iff_getElem?.2 hi, hu⟩

/-- What is read and let through is what is stored of the items that survive. -/
theorem filter_readings :
    ((readings path items).filterMap Except.toOption).filter (fun diagnostic => visibility.allows diagnostic.severity) =
      stored path (survivors visibility items) := by
  rw [readings, List.mapIdx_eq_zipIdx_map, List.filterMap_map, List.filter_filterMap, stored, survivors,
    List.map_filterMap]
  refine List.filterMap_congr fun entry _ => ?_
  dsimp only [survivor?, Function.comp_apply, Diagnostic.ofJson]
  cases PublishedDiagnostic.ofJson entry.1 with
  | error e => rfl
  | ok published =>
    dsimp only [Except.map, Except.toOption]
    rw [Option.filter_some, Option.filter_some, Diagnostic.ofPublished]
    split <;> rfl

end Pushes

/-- A push fails where the position in one of its items is infinite, and else stores what survives of them. -/
theorem push_array (store : DiagnosticStore) (uri : String) (items : List Json) :
    (store.push uri (.array items)).2 =
      if (readings (Uri.toPath uri) items).any isUnbounded then .error .unbounded
      else .ok (store.replace (Uri.toPath uri) (stored (Uri.toPath uri) (survivors store.visibility items))) := by
  have hindex : (fun i => Diagnostic.ofJson (Uri.toPath uri) (0 + i)) = Diagnostic.ofJson (Uri.toPath uri) := by
    funext i
    rw [Nat.zero_add]
  rw [push, Json.items]
  dsimp only
  rw [convert_snd, hindex, ← filter_readings, readings]
  dsimp only
  split <;> rfl

/-- **Malformed items of a push cost only themselves.** A push fails just where the position in one of its items is
infinite, for which it takes an infinite number in the item. Otherwise it puts what is stored of the items that survive
in place of the diagnostics of the file, whatever was there before. One more item that cannot be read, wherever it
comes, changes nothing but the indices of those behind it. -/
theorem malformed_items_cost_only_themselves (store : DiagnosticStore) (uri : String) (items : List Json) :
    ((store.push uri (.array items)).2 = .error .unbounded ↔
      ∃ item ∈ items, PublishedDiagnostic.ofJson item = .error .unbounded) ∧
    (∀ item, PublishedDiagnostic.ofJson item = .error .unbounded → item.HoldsInfinite) ∧
    ((∀ item ∈ items, PublishedDiagnostic.ofJson item ≠ .error .unbounded) →
      (store.push uri (.array items)).2 =
        .ok (store.replace (Uri.toPath uri) (stored (Uri.toPath uri) (survivors store.visibility items)))) ∧
    ∀ before item after e, items = before ++ after → PublishedDiagnostic.ofJson item = .error e →
      survivors store.visibility items =
        survivors store.visibility before ++ later before.length (survivors store.visibility after) ∧
      survivors store.visibility (before ++ item :: after) =
        survivors store.visibility before ++ later (before.length + 1) (survivors store.visibility after) := by
  refine ⟨?_, fun item hu => blames_published hu, fun bounded => ?_, ?_⟩
  · rw [push_array, ← any_isUnbounded_readings (Uri.toPath uri)]
    split
    · next hu => exact iff_of_true rfl hu
    · next hu => exact iff_of_false nofun hu
  · rw [push_array, if_neg]
    intro hu
    obtain ⟨item, hm, hitem⟩ := (any_isUnbounded_readings _ _).1 hu
    exact bounded item hm hitem
  · rintro before item after e rfl hitem
    have lost : survivor? store.visibility item = none := by
      rw [survivor?, hitem]
      rfl
    exact ⟨survivors_append, survivors_insert lost⟩

/-- A diagnostic at the beginning of a line, as it is published. -/
def placed (line : Json) (message : String) : Json :=
  let position := fun (line : Json) => Json.object [("line", line), ("character", .int 0)]
  .object [("range", .object [("start", position line), ("end", position (.int 0))]), ("message", .string message)]

/-- An item that is no diagnostic, and one in a place that is not a number, are left out. One in an infinite place makes
the push fail, and what was stored before stays. -/
theorem infinite_place_fails_the_push :
    let push := fun (store : DiagnosticStore) (items : List Json) =>
      store.push "file:///w/a.py" (.array items)
    let messages := fun (store : DiagnosticStore) => (store.get "/w/a.py").map fun diagnostic =>
      (diagnostic.id, diagnostic.message)
    ((push (empty .standard) [.null, placed (.int 1) "x", placed (.float .nan) "y"]).2.map messages).toOption =
        some [("lsp-/w/a.py-1", "x")] ∧
      (push (empty .standard) [placed (.int 1) "x", placed (.float (.infinite false)) "y"]).2.toOption.isNone := by
  decide +kernel

end DiagnosticStore

end LanguageSessions
