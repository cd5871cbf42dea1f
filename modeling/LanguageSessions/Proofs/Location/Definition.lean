import LanguageSessions.Location
import LanguageSessions.Proofs.Readings

/-!
# Definitions

A server answers with one location or link, or with a list of both; an answer without any content, or of another kind,
has no places. `ReadsAs` says which location an item of an answer stands for, member by member: an item with a target is
a link, of which the target and the range to select are taken, whatever other ranges it has, as long as these are ranges
where they are there at all. Reading an item finds just that location (`ofTarget_eq_ok_iff`).

One object is read as the list of it, lists are read item by item, and the first item that cannot be read decides the
error: `definitions_are_uniform`.
-/

namespace LanguageSessions

namespace Location

/-! ## What an item stands for -/

/-- What is at a key, if it counts as present, can be read as a range. -/
def MayHaveRange (members : Members) (key : String) : Prop :=
  ∀ value, members.get? key = some value → value.isTruthy = true → ∃ range, Range.ofJson value = .ok range

/-- An item stands for a location: as the location itself, or as a link to it. -/
inductive ReadsAs : Json → Location → Prop where
  | location {members : Members} {uri place : Json} {range : Range} (no_target : members.get? "targetUri" = none)
      (uri_eq : members.get? "uri" = some uri) (place_eq : members.get? "range" = some place)
      (range_eq : Range.ofJson place = .ok range) : ReadsAs (.object members) ⟨uri, range⟩
  | link {members : Members} {target place : Json} {range : Range} (target_eq : members.get? "targetUri" = some target)
      (place_eq : members.get? "targetSelectionRange" = some place) (range_eq : Range.ofJson place = .ok range)
      (whole : MayHaveRange members "targetRange") (origin : MayHaveRange members "originSelectionRange") :
      ReadsAs (.object members) ⟨target, range⟩

section Items

variable {members : Members} {key : String} {value : Json}

theorem field_eq_ok_iff : (Json.object members).field key = .ok value ↔ members.get? key = some value := by
  rw [Json.field]
  cases members.get? key with
  | none => exact ⟨nofun, nofun⟩
  | some found => simp

theorem ofJson_eq_ok_iff {location : Location} :
    ofJson (.object members) = .ok location ↔
      members.get? "uri" = some location.uri ∧
        ∃ place, members.get? "range" = some place ∧ Range.ofJson place = .ok location.range := by
  simp only [ofJson, bind_eq_ok_iff, field_eq_ok_iff]
  constructor
  · rintro ⟨uri, huri, place, hplace, range, hrange, ⟨⟩⟩
    exact ⟨huri, place, hplace, hrange⟩
  · rintro ⟨huri, place, hplace, hrange⟩
    exact ⟨_, huri, place, hplace, _, hrange, rfl⟩

theorem mayHaveRange_iff (key : String) :
    MayHaveRange members key ↔
      (((members.get? key).getD .null).isTruthy = true →
        ∃ range, Range.ofJson ((members.get? key).getD .null) = .ok range) := by
  rw [MayHaveRange]
  cases members.get? key with
  | none => exact iff_of_true nofun nofun
  | some value => simp

/-- A range that may be left out is read just if what counts as present is a range. -/
theorem range?_eq_ok_iff (key : String) :
    (∃ found, Range.ofJson? ((members.get? key).getD .null) = .ok found) ↔ MayHaveRange members key := by
  rw [mayHaveRange_iff, Range.ofJson?]
  split
  · next ht =>
    cases Range.ofJson ((members.get? key).getD .null) with
    | error e => exact ⟨nofun, fun h => by simpa using h ht⟩
    | ok range => exact iff_of_true ⟨some range, rfl⟩ fun _ => ⟨range, rfl⟩
  · next ht => exact iff_of_true ⟨none, rfl⟩ fun h => absurd h ht

/-- The member from which the range of a target is read: its own one, or the range to select in its place. -/
def targetPlace (members : Members) : Except ConversionError Json :=
  let whole := (members.get? "targetRange").getD .null
  if whole.isTruthy then .ok whole else (Json.object members).field "targetSelectionRange"

theorem targetPlace_eq_ok_iff {place : Json} {range : Range} (hplace : members.get? "targetSelectionRange" = some place)
    (hrange : Range.ofJson place = .ok range) :
    (∃ whole, targetPlace members = .ok whole ∧ ∃ found, Range.ofJson whole = .ok found) ↔
      MayHaveRange members "targetRange" := by
  rw [mayHaveRange_iff, targetPlace]
  split
  · next ht =>
    constructor
    · rintro ⟨_, ⟨⟩, hfound⟩ -
      exact hfound
    · exact fun h => ⟨_, rfl, h ht⟩
  · next ht => exact iff_of_true ⟨place, field_eq_ok_iff.2 hplace, range, hrange⟩ fun h => absurd h ht

/-- The steps in which a link is read. -/
theorem link_ofJson_object :
    LocationLink.ofJson (.object members) = targetPlace members >>= fun whole => do
      let uri ← (Json.object members).field "targetUri"
      let targetRange ← Range.ofJson whole
      let selection ← Range.ofJson (← (Json.object members).field "targetSelectionRange")
      let origin ← Range.ofJson? ((members.get? "originSelectionRange").getD .null)
      return ⟨uri, targetRange, selection, origin⟩ := by
  rw [targetPlace]
  dsimp only [LocationLink.ofJson, Json.fieldOrNull, bind, Except.bind]
  split <;> rfl

theorem link_eq_ok_iff {location : Location} :
    (∃ link, LocationLink.ofJson (.object members) = .ok link ∧ link.toLocation = location) ↔
      members.get? "targetUri" = some location.uri ∧
        (∃ place, members.get? "targetSelectionRange" = some place ∧ Range.ofJson place = .ok location.range) ∧
        MayHaveRange members "targetRange" ∧ MayHaveRange members "originSelectionRange" := by
  rw [← range?_eq_ok_iff "originSelectionRange"]
  simp only [link_ofJson_object, bind_eq_ok_iff, field_eq_ok_iff]
  constructor
  · rintro ⟨link, ⟨whole, hwhole, uri, huri, target, htarget, place, hplace, range, hrange, origin, horigin, ⟨⟩⟩, rfl⟩
    exact ⟨huri, ⟨place, hplace, hrange⟩, (targetPlace_eq_ok_iff hplace hrange).1 ⟨whole, hwhole, target, htarget⟩,
      origin, horigin⟩
  · rintro ⟨huri, ⟨place, hplace, hrange⟩, htarget, origin, horigin⟩
    obtain ⟨whole, hwhole, target, htarget⟩ := (targetPlace_eq_ok_iff hplace hrange).2 htarget
    exact ⟨⟨location.uri, target, location.range, origin⟩,
      ⟨whole, hwhole, _, huri, target, htarget, place, hplace, _, hrange, origin, horigin, rfl⟩, rfl⟩

end Items

theorem ofTarget_object (members : Members) :
    ofTarget (.object members) =
      if (members.get? "targetUri").isSome then (LocationLink.ofJson (.object members)).map LocationLink.toLocation
      else ofJson (.object members) := by
  dsimp only [ofTarget, Json.holds, bind, Except.bind]
  split
  · cases LocationLink.ofJson (.object members) <;> rfl
  · rfl

/-- What is no object has no members to read, whether or not it holds the name of one. -/
theorem ofTarget_ne_ok {item : Json} (h : ∀ members, item ≠ .object members) (location : Location) :
    ofTarget item ≠ .ok location := by
  cases item with
  | object members => exact absurd rfl (h members)
  | array items =>
    dsimp only [ofTarget, Json.holds, bind, Except.bind]
    split <;> nofun
  | string text =>
    dsimp only [ofTarget, Json.holds, bind, Except.bind]
    split <;> nofun
  | _ => nofun

/-- **An item is read as the location that it stands for**, and cannot be read if it stands for none. -/
theorem ofTarget_eq_ok_iff {item : Json} {location : Location} :
    ofTarget item = .ok location ↔ ReadsAs item location := by
  by_cases hobject : ∃ members : Members, item = .object members
  · obtain ⟨members, rfl⟩ := hobject
    rw [ofTarget_object]
    cases htarget : members.get? "targetUri" with
    | none =>
      rw [Option.isSome_none, if_neg Bool.false_ne_true, ofJson_eq_ok_iff]
      constructor
      · rintro ⟨huri, place, hplace, hrange⟩
        exact .location htarget huri hplace hrange
      · rintro (⟨-, huri, hplace, hrange⟩ | ⟨hsome, -, -, -, -⟩)
        · exact ⟨huri, _, hplace, hrange⟩
        · rw [htarget] at hsome
          cases hsome
    | some target =>
      rw [Option.isSome_some, if_pos rfl, map_eq_ok_iff, link_eq_ok_iff]
      constructor
      · rintro ⟨htarget, ⟨place, hplace, hrange⟩, hwhole, horigin⟩
        exact .link htarget hplace hrange hwhole horigin
      · rintro (⟨hnone, -, -, -⟩ | ⟨htarget, hplace, hrange, hwhole, horigin⟩)
        · rw [htarget] at hnone
          cases hnone
        · exact ⟨htarget, ⟨_, hplace, hrange⟩, hwhole, horigin⟩
  · constructor
    · exact fun h => absurd h (ofTarget_ne_ok (fun members heq => hobject ⟨members, heq⟩) location)
    · rintro (_ | _)
      all_goals exact absurd ⟨_, rfl⟩ hobject

/-! ## Answers -/

theorem definition_object {members : Members} (h : members ≠ []) :
    definition (.object members) = (ofTarget (.object members)).map fun location => some [location] := by
  rw [definition, Json.isTruthy, List.isEmpty_eq_false_iff.2 h]
  rfl

/-- A list is read item by item, and is not empty then. -/
theorem definition_array {items : List Json} (h : items ≠ []) :
    definition (.array items) = (items.mapM ofTarget).map some := by
  rw [definition, Json.isTruthy, List.isEmpty_eq_false_iff.2 h]
  change (items.mapM ofTarget).map _ = _
  cases hread : items.mapM ofTarget with
  | error e => rfl
  | ok locations =>
    have hlength := (mapM_eq_ok_iff.1 hread).length_eq
    have hne : locations ≠ [] := by
      rintro rfl
      exact h (List.length_eq_zero_iff.1 hlength)
    dsimp only [Except.map]
    rw [List.isEmpty_eq_false_iff.2 hne]
    rfl

theorem definition_item (item : Json) :
    definition (.array [item]) = (ofTarget item).map fun location => some [location] := by
  rw [definition_array (List.cons_ne_nil _ _), List.mapM_cons, List.mapM_nil]
  cases ofTarget item <;> rfl

theorem definition_other {value : Json} (hobject : ∀ members, value ≠ .object members)
    (harray : ∀ items, value ≠ .array items) : definition value = .ok none := by
  unfold definition
  split
  · rfl
  · cases value with
    | object members => exact absurd rfl (hobject members)
    | array items => exact absurd rfl (harray items)
    | _ => rfl

theorem definition_eq_none_iff {value : Json} :
    definition value = .ok none ↔
      value.isTruthy = false ∨ ((∀ members, value ≠ .object members) ∧ ∀ items, value ≠ .array items) := by
  constructor
  · intro h
    cases value with
    | object members =>
      refine Or.inl (by_contra fun ht => ?_)
      have hne : members ≠ [] := by
        rintro rfl
        exact ht rfl
      rw [definition_object hne] at h
      cases hread : ofTarget (.object members) <;> simp [hread, Except.map] at h
    | array items =>
      refine Or.inl (by_contra fun ht => ?_)
      have hne : items ≠ [] := by
        rintro rfl
        exact ht rfl
      rw [definition_array hne] at h
      cases hread : items.mapM ofTarget <;> simp [hread, Except.map] at h
    | _ => exact Or.inr ⟨nofun, nofun⟩
  · rintro (h | ⟨hobject, harray⟩)
    · unfold definition
      rw [h]
      rfl
    · exact definition_other hobject harray

/-- **All answers are read alike.** There are no places in an answer just if it does not count as present or is neither
an object nor a list. One object is read as the list of it. Lists are read one behind the other; the first item that
cannot be read alone decides the error; and if there is none, every item is read as the one location that it stands for,
in the order of the items. -/
theorem definitions_are_uniform :
    (∀ value : Json, definition value = .ok none ↔
      value.isTruthy = false ∨ ((∀ members, value ≠ .object members) ∧ ∀ items, value ≠ .array items)) ∧
    (∀ members : Members, members ≠ [] → definition (.object members) = definition (.array [.object members])) ∧
    (∀ xs ys : List Json, xs ≠ [] → ys ≠ [] → definition (.array (xs ++ ys)) = do
      let found ← definition (.array xs)
      let others ← definition (.array ys)
      return some (found.getD [] ++ others.getD [])) ∧
    (∀ (items : List Json) (e : ConversionError), definition (.array items) = .error e ↔
      ∃ before item after, items = before ++ item :: after ∧
        (∀ other ∈ before, ∃ found, definition (.array [other]) = .ok found) ∧ definition (.array [item]) = .error e) ∧
    ∀ (items : List Json) (locations : List Location), definition (.array items) = .ok (some locations) ↔
      items ≠ [] ∧ List.Forall₂ ReadsAs items locations := by
  refine ⟨fun _ => definition_eq_none_iff, ?_, ?_, ?_, ?_⟩
  · intro members hne
    rw [definition_object hne, definition_item]
  · intro xs ys hxs hys
    rw [definition_array hxs, definition_array hys, definition_array (List.append_ne_nil_of_left_ne_nil hxs ys),
      List.mapM_append]
    cases xs.mapM ofTarget with
    | error e => rfl
    | ok found =>
      cases ys.mapM ofTarget <;> rfl
  · intro items e
    have hitem : ∀ item e, definition (.array [item]) = .error e ↔ ofTarget item = .error e := by
      intro item e
      rw [definition_item]
      cases ofTarget item <;> simp [Except.map]
    have hfound : ∀ item, (∃ found, definition (.array [item]) = .ok found) ↔
        ∃ location, ofTarget item = .ok location := by
      intro item
      rw [definition_item]
      cases ofTarget item <;> simp [Except.map]
    simp only [hitem, hfound]
    rw [← mapM_eq_error_iff]
    by_cases hne : items = []
    · subst hne
      exact ⟨nofun, nofun⟩
    · rw [definition_array hne]
      cases items.mapM ofTarget <;> simp [Except.map]
  · intro items locations
    have hreads : List.Forall₂ ReadsAs items locations ↔ items.mapM ofTarget = .ok locations := by
      simp only [mapM_eq_ok_iff, ofTarget_eq_ok_iff]
    rw [hreads]
    by_cases hne : items = []
    · subst hne
      exact ⟨nofun, fun h => absurd rfl h.1⟩
    · rw [definition_array hne]
      cases items.mapM ofTarget <;> simp [Except.map, hne]

/-- A range in one line, as a value. -/
def inLine (line : Int) : Json := (⟨⟨line, 0⟩, ⟨line, 4⟩⟩ : Range).toJson

/-- A link need not have a range for its target. Alone it is read as the list of it, behind a location it is read as the
second one, and a text behind them is read as none, though it holds the name of the member. -/
theorem location_and_link_are_read :
    let location := Json.object [("uri", .string "file:///a.py"), ("range", inLine 1)]
    let members : Members := [("targetUri", .string "file:///b.py"), ("targetSelectionRange", inLine 6)]
    let link := Json.object members
    (members ≠ [] ∧ definition link = definition (.array [link])) ∧
    ([location] ≠ [] ∧ [link] ≠ [] ∧ definition (.array ([location] ++ [link])) = do
      let found ← definition (.array [location])
      let others ← definition (.array [link])
      return some (found.getD [] ++ others.getD [])) ∧
    definition (.array [location, link]) =
      .ok (some [⟨.string "file:///a.py", ⟨⟨1, 0⟩, ⟨1, 4⟩⟩⟩, ⟨.string "file:///b.py", ⟨⟨6, 0⟩, ⟨6, 4⟩⟩⟩]) ∧
    definition (.array [location, link, .string "a targetUri"]) = .error .noFields := by
  intro location members link
  obtain ⟨-, alone, joined, failing, reading⟩ := definitions_are_uniform
  refine ⟨⟨List.cons_ne_nil _ _, alone members (List.cons_ne_nil _ _)⟩,
    ⟨List.cons_ne_nil _ _, List.cons_ne_nil _ _,
      joined [location] [link] (List.cons_ne_nil _ _) (List.cons_ne_nil _ _)⟩, ?_, ?_⟩
  · refine (reading _ _).2 ⟨List.cons_ne_nil _ _, .cons ?_ (.cons ?_ .nil)⟩
    · exact .location rfl rfl rfl rfl
    · exact .link rfl rfl rfl nofun nofun
  · refine (failing _ _).2 ⟨[location, link], .string "a targetUri", [], rfl, ?_, rfl⟩
    intro other hm
    rcases List.mem_pair.1 hm with rfl | rfl
    · exact ⟨_, rfl⟩
    · exact ⟨_, rfl⟩

end Location

end LanguageSessions
