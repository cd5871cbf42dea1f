import LanguageSessions.Hover

/-!
# Why places cannot be read

A value that a server sends is read as a place, as places or as a hover, or it cannot be read for one of a few reasons.
One of them is that an infinite number stands where a line or a character is wanted; it takes an infinite number in the
value for this (`HoldsInfinite`). Each reader blames what it was given in this way only if something that it reads in it
does (`Blames`).
-/

namespace LanguageSessions

namespace Json

/-- An infinite number occurs in a value. -/
inductive HoldsInfinite : Json → Prop where
  | number (negative : Bool) : HoldsInfinite (.float (.infinite negative))
  | item {items : List Json} {item : Json} (mem : item ∈ items) (holds : HoldsInfinite item) :
      HoldsInfinite (.array items)
  | member {members : Members} {member : String × Json} (mem : member ∈ members) (holds : HoldsInfinite member.2) :
      HoldsInfinite (.object members)

/-- Reading fails for an infinite number only if there is one in a value. -/
def Blames {α : Type} (data : Json) (read : Except ConversionError α) : Prop :=
  read = .error .unbounded → data.HoldsInfinite

section Rules

variable {α β : Type} {data value : Json} {key : String}

theorem blames_ok (found : α) : Blames data (.ok found) := nofun

/-- One thing is read and then another. -/
theorem Blames.bind {first : Except ConversionError α} {next : α → Except ConversionError β} (h : Blames data first)
    (hn : ∀ found, first = .ok found → Blames data (next found)) : Blames data (first >>= next) := by
  intro hfail
  cases first with
  | error e =>
    obtain rfl : e = .unbounded := Except.error.inj hfail
    exact h rfl
  | ok found => exact hn found rfl hfail

theorem Blames.map {first : Except ConversionError α} (h : Blames data first) (f : α → β) :
    Blames data (first.map f) := by
  intro hfail
  cases first with
  | error e =>
    cases hfail
    exact h rfl
  | ok found => cases hfail

/-- A part of a value is to blame. -/
theorem Blames.of_part {read : Except ConversionError α} (h : Blames value read)
    (part : value.HoldsInfinite → data.HoldsInfinite) : Blames data read := fun hfail => part (h hfail)

/-! ## Fields and items -/

theorem holdsInfinite_of_get? {members : Members} (h : members.get? key = some value) (hv : value.HoldsInfinite) :
    HoldsInfinite (.object members) := by
  obtain ⟨member, hfind, rfl⟩ := Option.map_eq_some_iff.1 h
  exact .member (List.mem_of_find?_eq_some hfind) hv

/-- What is found in a field is a part of the value. -/
theorem holdsInfinite_of_field (h : data.field key = .ok value) (hv : value.HoldsInfinite) : data.HoldsInfinite := by
  unfold field at h
  split at h
  · split at h
    · next hget =>
      cases h
      exact holdsInfinite_of_get? hget hv
    · cases h
  · cases h

theorem holdsInfinite_of_fieldOrNull (h : data.fieldOrNull key = .ok value) (hv : value.HoldsInfinite) :
    data.HoldsInfinite := by
  unfold fieldOrNull at h
  split at h
  · next members =>
    cases h
    cases hget : Members.get? members key with
    | none =>
      rw [hget] at hv
      cases hv
    | some found =>
      rw [hget] at hv
      exact holdsInfinite_of_get? hget hv
  · cases h

theorem blames_field : Blames data (data.field key) := by
  intro hfail
  unfold field at hfail
  split at hfail
  · split at hfail <;> cases hfail
  · cases hfail

theorem blames_fieldOrNull : Blames data (data.fieldOrNull key) := by
  intro hfail
  unfold fieldOrNull at hfail
  split at hfail <;> cases hfail

theorem blames_holds : Blames data (data.holds key) := by
  intro hfail
  unfold holds at hfail
  split at hfail <;> cases hfail

theorem blames_items : Blames data data.items := by
  intro hfail
  unfold items at hfail
  split at hfail <;> cases hfail

/-- What is gone through is a part of the value, or a text. -/
theorem holdsInfinite_of_items {found : List Json} (h : data.items = .ok found) {item : Json} (hm : item ∈ found)
    (hi : item.HoldsInfinite) : data.HoldsInfinite := by
  unfold items at h
  split at h
  · cases h
    exact .item hm hi
  · cases h
    obtain ⟨member, -, rfl⟩ := List.mem_map.1 hm
    cases hi
  · cases h
    obtain ⟨c, -, rfl⟩ := List.mem_map.1 hm
    cases hi
  · cases h

/-- A number is the only value that can be infinite itself. -/
theorem blames_toInt : Blames data data.toInt := by
  intro hfail
  unfold toInt at hfail
  split at hfail
  case h_4 negative => exact .number negative
  case h_6 =>
    split at hfail <;> cases hfail
  all_goals cases hfail

theorem blames_mapM {items : List Json} {read : Json → Except ConversionError α}
    (h : ∀ item ∈ items, Blames data (read item)) : Blames data (items.mapM read) := by
  induction items with
  | nil =>
    rw [List.mapM_nil]
    exact blames_ok []
  | cons item items ih =>
    rw [List.mapM_cons]
    refine (h item List.mem_cons_self).bind fun found _ => ?_
    exact (ih fun other hm => h other (List.mem_cons_of_mem _ hm)).bind fun others _ => blames_ok _

end Rules

end Json

open Json

section Readers

variable {data : Json}

theorem blames_position : Blames data (Position.ofJson data) := by
  refine Blames.bind blames_field fun line hline => ?_
  refine (Blames.of_part blames_toInt (holdsInfinite_of_field hline)).bind fun _ _ => ?_
  refine Blames.bind blames_field fun character hcharacter => ?_
  exact (Blames.of_part blames_toInt (holdsInfinite_of_field hcharacter)).bind fun _ _ => blames_ok _

theorem blames_range : Blames data (Range.ofJson data) := by
  refine Blames.bind blames_field fun start hstart => ?_
  refine (Blames.of_part blames_position (holdsInfinite_of_field hstart)).bind fun _ _ => ?_
  refine Blames.bind blames_field fun stop hstop => ?_
  exact (Blames.of_part blames_position (holdsInfinite_of_field hstop)).bind fun _ _ => blames_ok _

theorem blames_range? : Blames data (Range.ofJson? data) := by
  unfold Range.ofJson?
  split
  · exact Blames.map blames_range some
  · exact blames_ok none

theorem blames_location : Blames data (Location.ofJson data) := by
  refine Blames.bind blames_field fun uri _ => ?_
  refine Blames.bind blames_field fun range hrange => ?_
  exact (Blames.of_part blames_range (holdsInfinite_of_field hrange)).bind fun _ _ => blames_ok _

/-- The fields of a link that are read behind the range of the target. -/
theorem blames_linkTo {whole origin : Json} (hwhole : whole.HoldsInfinite → data.HoldsInfinite)
    (horigin : origin.HoldsInfinite → data.HoldsInfinite) : Blames data (do
      let uri ← data.field "targetUri"
      let targetRange ← Range.ofJson whole
      let selection ← Range.ofJson (← data.field "targetSelectionRange")
      let origin ← Range.ofJson? origin
      return (⟨uri, targetRange, selection, origin⟩ : LocationLink)) := by
  refine Blames.bind blames_field fun uri _ => ?_
  refine (Blames.of_part blames_range hwhole).bind fun _ _ => ?_
  refine Blames.bind blames_field fun selection hselection => ?_
  refine (Blames.of_part blames_range (holdsInfinite_of_field hselection)).bind fun _ _ => ?_
  exact (Blames.of_part blames_range? horigin).bind fun _ _ => blames_ok _

theorem blames_link : Blames data (LocationLink.ofJson data) := by
  refine (blames_fieldOrNull).bind fun whole hwhole => ?_
  dsimp only
  split
  · refine (blames_fieldOrNull).bind fun origin horigin => ?_
    exact blames_linkTo (holdsInfinite_of_fieldOrNull hwhole) (holdsInfinite_of_fieldOrNull horigin)
  · refine Blames.bind blames_field fun selection hselection => ?_
    refine (blames_fieldOrNull).bind fun origin horigin => ?_
    exact blames_linkTo (holdsInfinite_of_field hselection) (holdsInfinite_of_fieldOrNull horigin)

theorem blames_target : Blames data (Location.ofTarget data) := by
  refine Blames.bind blames_holds fun isLink _ => ?_
  split
  · exact Blames.bind blames_link fun _ _ => blames_ok _
  · exact blames_location

theorem blames_list : Blames data (Location.listOfJson data) := by
  refine Blames.bind blames_items fun items hitems => ?_
  exact blames_mapM fun item hm => Blames.of_part blames_target (holdsInfinite_of_items hitems hm)

/-- **A definition cannot be read for an infinite number only if there is one in it.** -/
theorem blames_definition : Blames data (Location.definition data) := by
  unfold Location.definition
  split
  · exact blames_ok none
  · split
    · exact Blames.map blames_target _
    · exact Blames.map blames_list _
    · exact blames_ok none

/-- **A hover cannot be read for an infinite number only if there is one in it.** -/
theorem blames_hover : Blames data (Hover.ofJson data) := by
  refine Blames.bind blames_fieldOrNull fun range hrange => ?_
  refine Blames.bind blames_fieldOrNull fun contents _ => ?_
  exact (Blames.of_part blames_range? (holdsInfinite_of_fieldOrNull hrange)).bind fun _ _ => blames_ok _

end Readers

end LanguageSessions
