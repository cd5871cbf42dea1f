import LanguageSessions.Proofs.Entries.Totals
import LanguageSessions.Subscribers
import Mathlib.Data.List.Induction

/-!
# What subscribers do to their registry, and what becomes of it

An event goes through the subscribers that were there when it began (`Reaches`, after the recursion of
`Subscribers.emit`). What one of them does, up to the first thing that fails (`Performs`), changes the registry that the
later ones act on, but not who they are: `emit_reaches_its_snapshot`.

A handle takes out the first subscription that is equal to its own. Among equal ones it does not matter which, so what
counts is how many are left, and that there is still one to take out. As long as no handle is used twice, each takes one
out for itself (`handles_used_once_end_their_own`); a second use takes out another one, if there is another one
(`unsubscribe?_eq_self_iff`, `handle_used_twice_ends_another`).
-/

namespace LanguageSessions.SubscriberRegistry

variable {registry later : SubscriberRegistry} {action : SubscriberAction} {actions done : List SubscriberAction}
  {handle subscriber : String}

/-- Does one thing after the other; none if one fails. -/
def acts? (registry : SubscriberRegistry) (actions : List SubscriberAction) : Option SubscriberRegistry :=
  actions.foldlM act? registry

theorem acts?_cons (action : SubscriberAction) (rest : List SubscriberAction) :
    registry.acts? (action :: rest) = (registry.act? action).bind fun mid => mid.acts? rest := rfl

theorem acts?_append (first second : List SubscriberAction) :
    registry.acts? (first ++ second) = (registry.acts? first).bind fun mid => mid.acts? second :=
  List.foldlM_append

theorem acts?_concat (h : registry.acts? (actions ++ [action]) = some later) :
    ∃ mid, registry.acts? actions = some mid ∧ mid.act? action = some later := by
  rw [acts?_append, Option.bind_eq_some_iff] at h
  obtain ⟨mid, hmid, hact⟩ := h
  refine ⟨mid, hmid, ?_⟩
  rw [acts?_cons, Option.bind_eq_some_iff] at hact
  obtain ⟨last, hlast, hnil⟩ := hact
  cases hnil
  exact hlast

/-- All that one thing can do. -/
theorem act?_cases (h : registry.act? action = some later) :
    (∃ handle subscriber, action = .unsubscribe handle ∧ registry.handles.get? handle = some subscriber ∧
      later = { registry with subscribers := registry.subscribers.erase subscriber }) ∨
    (∃ handle subscriber, action = .subscribe handle subscriber ∧
      later = { registry with
        subscribers := registry.subscribers ++ [subscriber], handles := registry.handles.set handle subscriber }) ∨
    (action = .clear ∧ later = registry.clear) := by
  cases action with
  | fail => cases h
  | unsubscribe handle =>
    obtain ⟨subscriber, hget, rfl⟩ := Option.map_eq_some_iff.1 h
    exact Or.inl ⟨handle, subscriber, rfl, hget, rfl⟩
  | subscribe handle subscriber =>
    rw [act?] at h
    split at h
    · exact Or.inr (Or.inl ⟨handle, subscriber, rfl, (Option.some.inj h).symm⟩)
    · cases h
  | clear => exact Or.inr (Or.inr ⟨rfl, (Option.some.inj h).symm⟩)

/-! ## An event -/

/-- What came of a subscriber that sets out to do some things: those that it did, the registry that they led to, and
whether the next one failed. -/
inductive Performs (registry : SubscriberRegistry) (actions : List SubscriberAction) :
    List SubscriberAction → SubscriberRegistry → Bool → Prop
  | finished {later : SubscriberRegistry} : registry.acts? actions = some later →
      Performs registry actions actions later false
  | failed {done rest : List SubscriberAction} {action : SubscriberAction} {later : SubscriberRegistry} :
      actions = done ++ action :: rest → registry.acts? done = some later → later.act? action = none →
      Performs registry actions done later true

theorem Performs.acts {fails : Bool} (h : Performs registry actions done later fails) :
    registry.acts? done = some later := by
  cases h with
  | finished h => exact h
  | failed _ h _ => exact h

theorem Performs.cons {mid : SubscriberRegistry} {fails : Bool} (hact : registry.act? action = some mid)
    (h : Performs mid actions done later fails) : Performs registry (action :: actions) (action :: done) later fails := by
  have acts (rest : List SubscriberAction) : registry.acts? (action :: rest) = mid.acts? rest := by
    rw [acts?_cons, hact, Option.bind_some]
  cases h with
  | finished h => exact .finished ((acts _).trans h)
  | failed hactions h hnext =>
    subst hactions
    exact .failed rfl ((acts _).trans h) hnext

theorem performs_perform (actions : List SubscriberAction) : ∀ registry : SubscriberRegistry,
    ∃ done, Performs registry actions done (registry.perform actions).1 (registry.perform actions).2 := by
  induction actions with
  | nil => exact fun _ => ⟨[], .finished rfl⟩
  | cons action rest ih =>
    intro registry
    rw [perform]
    cases hact : registry.act? action with
    | none => exact ⟨[], .failed rfl rfl hact⟩
    | some mid =>
      obtain ⟨done, h⟩ := ih mid
      exact ⟨action :: done, h.cons hact⟩

/-- What one thing does leaves the name alone, and so does a subscriber. -/
theorem act?_name (h : registry.act? action = some later) : later.name = registry.name := by
  obtain ⟨_, _, _, _, rfl⟩ | ⟨_, _, _, rfl⟩ | ⟨_, rfl⟩ := act?_cases h <;> rfl

theorem acts?_name (actions : List SubscriberAction) : ∀ {registry later : SubscriberRegistry},
    registry.acts? actions = some later → later.name = registry.name := by
  induction actions with
  | nil =>
    intro registry later h
    cases h
    rfl
  | cons action rest ih =>
    intro registry later h
    rw [acts?_cons, Option.bind_eq_some_iff] at h
    obtain ⟨mid, hact, hrest⟩ := h
    exact (ih hrest).trans (act?_name hact)

variable {behave : Behaviour} {args : List Json} {emission last : Emission} {subscribers : List String}
  {dones : List (List SubscriberAction)}

/-- An event after one more subscriber was told, which left a registry behind and may have failed. -/
def Emission.after (emission : Emission) (args : List Json) (subscriber : String) (later : SubscriberRegistry)
    (fails : Bool) : Emission where
  registry := later
  told := emission.told ++ [(subscriber, args)]
  log := emission.log ++ if fails then [Subscribers.failed emission.registry.name] else []

theorem emit_cons {later : SubscriberRegistry} {fails : Bool} (hname : later.name = emission.registry.name)
    (hperform : emission.registry.perform (behave emission subscriber) = (later, fails)) :
    Subscribers.emit (Emission.tell behave args) Emission.report emission (subscriber :: subscribers) =
      Subscribers.emit (Emission.tell behave args) Emission.report (emission.after args subscriber later fails)
        subscribers := by
  rw [Subscribers.emit, Emission.tell, hperform]
  cases fails with
  | false => simp [Emission.after]
  | true => simp [Emission.after, Emission.report, hname]

/-- An event on its way through some subscribers. Each is told once; what it does, up to the first thing that fails, is
done to the registry that the one before it left, and there is a report of it if something failed. -/
inductive Reaches (behave : Behaviour) (args : List Json) :
    Emission → List String → List (List SubscriberAction) → Emission → Prop
  | nil (emission : Emission) : Reaches behave args emission [] [] emission
  | cons {emission last : Emission} {subscriber : String} {subscribers : List String} {done : List SubscriberAction}
      {dones : List (List SubscriberAction)} {later : SubscriberRegistry} {fails : Bool} :
      Performs emission.registry (behave emission subscriber) done later fails →
      Reaches behave args (emission.after args subscriber later fails) subscribers dones last →
      Reaches behave args emission (subscriber :: subscribers) (done :: dones) last

theorem reaches_emit (behave : Behaviour) (args : List Json) (subscribers : List String) : ∀ emission : Emission,
    ∃ dones, Reaches behave args emission subscribers dones
      (Subscribers.emit (Emission.tell behave args) Emission.report emission subscribers) := by
  induction subscribers with
  | nil => exact fun emission => ⟨[], .nil emission⟩
  | cons subscriber rest ih =>
    intro emission
    obtain ⟨done, hdone⟩ := performs_perform (behave emission subscriber) emission.registry
    obtain ⟨dones, hrest⟩ := ih (emission.after args subscriber _ _)
    refine ⟨done :: dones, .cons hdone ?_⟩
    rwa [emit_cons (acts?_name done hdone.acts) rfl]

/-- Whatever they do, those that are told are the ones that were to be told. -/
theorem Reaches.told (h : Reaches behave args emission subscribers dones last) :
    last.told = emission.told ++ subscribers.map fun subscriber => (subscriber, args) := by
  induction h with
  | nil emission => rw [List.map_nil, List.append_nil]
  | cons _ _ ih => rw [ih, Emission.after, List.map_cons, List.append_assoc, List.singleton_append]

/-- What all of them did, one after the other, led to the registry that is there in the end. -/
theorem Reaches.acts (h : Reaches behave args emission subscribers dones last) :
    emission.registry.acts? dones.flatten = some last.registry := by
  induction h with
  | nil emission => rfl
  | cons hdone _ ih =>
    rw [List.flatten_cons, acts?_append, hdone.acts, Option.bind_some]
    exact ih

/-- **An event reaches exactly its snapshot.** Whatever subscribers do when they are told of an event, each subscription
that was there when it began is told once, in order and of the same, and nobody else is; the registry that is there in
the end is what the things led to that they did, up to the first one of each that failed. -/
theorem emit_reaches_its_snapshot (registry : SubscriberRegistry) (behave : Behaviour) (args : List Json) :
    (registry.emitWith behave args).told = registry.subscribers.map (fun subscriber => (subscriber, args)) ∧
    ∃ dones, Reaches behave args ⟨registry, [], []⟩ registry.subscribers dones (registry.emitWith behave args) ∧
      registry.acts? dones.flatten = some (registry.emitWith behave args).registry := by
  obtain ⟨dones, h⟩ := reaches_emit behave args registry.subscribers ⟨registry, [], []⟩
  exact ⟨h.told, dones, h, h.acts⟩

/-- The first one takes out the second one, subscribes a third one and fails: the second one is told all the same, the
third one is not. -/
example :
    let registry := ((((SubscriberRegistry.empty "Notification").define "a"
      [.unsubscribe "second", .subscribe "third" "c", .fail, .clear]).define "c" []).subscribe "first" "a").subscribe
        "second" "b"
    let emission := registry.emit [.int 1]
    emission.told = [("a", [.int 1]), ("b", [.int 1])] ∧ emission.registry.subscribers = ["a", "c"] :=
  ⟨by rfl, by decide⟩

/-! ## Handles -/

/-- The subscriptions that some actions make, each under its handle. -/
def made (actions : List SubscriberAction) : Entries String String :=
  actions.filterMap fun
    | .subscribe handle subscriber => some (handle, subscriber)
    | _ => none

/-- The handles that some actions use. -/
def used (actions : List SubscriberAction) : List String :=
  actions.filterMap fun
    | .unsubscribe handle => some handle
    | _ => none

/-- The subscriptions whose handles were never used. -/
def unused (actions : List SubscriberAction) : Entries String String :=
  (made actions).filter fun subscription => subscription.1 ∉ used actions

/-- Each subscription is given a handle of its own. -/
def HandsOutAnew (actions : List SubscriberAction) : Prop := (made actions).keys.Nodup

theorem made_subscribe (handle subscriber : String) :
    made (actions ++ [.subscribe handle subscriber]) = made actions ++ [(handle, subscriber)] :=
  List.filterMap_append

theorem made_unsubscribe (handle : String) : made (actions ++ [.unsubscribe handle]) = made actions := by
  rw [made, List.filterMap_append]
  exact List.append_nil _

theorem used_subscribe (handle subscriber : String) :
    used (actions ++ [.subscribe handle subscriber]) = used actions := by
  rw [used, List.filterMap_append]
  exact List.append_nil _

theorem used_unsubscribe (handle : String) : used (actions ++ [.unsubscribe handle]) = used actions ++ [handle] :=
  List.filterMap_append

theorem HandsOutAnew.before (h : HandsOutAnew (actions ++ [action])) : HandsOutAnew actions := by
  rw [HandsOutAnew, made, List.filterMap_append] at h
  exact ((List.sublist_append_left _ _).map Prod.fst).nodup h

/-- The handle of one more subscription was not given out before. -/
theorem HandsOutAnew.new (h : HandsOutAnew (actions ++ [.subscribe handle subscriber])) :
    handle ∉ (made actions).keys := by
  rw [HandsOutAnew, made_subscribe, Entries.keys, List.map_append] at h
  exact fun hmem => List.disjoint_of_nodup_append h hmem List.mem_cons_self

/-- The handle of a new subscription was not used. -/
theorem unused_subscribe (hnew : handle ∉ used actions) :
    unused (actions ++ [.subscribe handle subscriber]) = unused actions ++ [(handle, subscriber)] := by
  rw [unused, made_subscribe, used_subscribe, List.filter_append, unused]
  exact congrArg _ (List.filter_eq_self.2 fun _ hin => by rw [List.mem_singleton.1 hin]; exact decide_eq_true hnew)

theorem unused_unsubscribe (handle : String) :
    unused (actions ++ [.unsubscribe handle]) = (unused actions).erase handle := by
  rw [Entries.erase_eq_filter, unused, made_unsubscribe, used_unsubscribe, unused, List.filter_filter]
  refine List.filter_congr fun subscription _ => ?_
  rw [← Bool.decide_and, decide_eq_decide, List.mem_append, List.mem_singleton, not_or, and_comm]

/-- As long as a handle was not used, the subscription that it was given out for is among the unused ones. -/
theorem get?_unused (hanew : HandsOutAnew actions) (hget : (made actions).get? handle = some subscriber)
    (hnew : handle ∉ used actions) : (unused actions).get? handle = some subscriber :=
  Entries.get?_of_mem (Entries.nodup_keys_filter hanew _)
    (List.mem_filter.2 ⟨Entries.mem_of_get? hget, decide_eq_true hnew⟩)

/-- A handle that was used is that of no unused subscription. -/
theorem get?_unused_of_mem (hused : handle ∈ used actions) : (unused actions).get? handle = none := by
  refine Entries.get?_eq_none_iff.2 fun hmem => ?_
  obtain ⟨subscription, hin, rfl⟩ := List.mem_map.1 hmem
  exact of_decide_eq_true (List.mem_filter.1 hin).2 hused

/-- What becomes of a registry without subscribers in which each subscription is given a handle of its own. -/
structure Kept (actions : List SubscriberAction) (registry : SubscriberRegistry) : Prop where
  handles : registry.handles = made actions
  /-- Only handles that were given out are used. -/
  given : ∀ {handle}, handle ∈ used actions → handle ∈ (made actions).keys
  /-- There are no more subscriptions than those whose handles were never used. -/
  atMost : ∀ subscriber, registry.subscribers.count subscriber ≤ (unused actions).values.count subscriber
  /-- There are as many, as long as no handle was used twice. -/
  exact : (used actions).Nodup → ∀ subscriber,
    registry.subscribers.count subscriber = (unused actions).values.count subscriber

theorem Kept.subscribe (h : Kept actions registry)
    (hanew : HandsOutAnew (actions ++ [.subscribe handle subscriber])) :
    Kept (actions ++ [.subscribe handle subscriber]) (registry.subscribe handle subscriber) where
  handles := by
    have hnone : registry.handles.get? handle = none := by
      rw [h.handles]
      exact Entries.get?_eq_none_iff.2 hanew.new
    rw [made_subscribe, ← h.handles]
    exact Entries.set_of_get?_none hnone
  given hused := by
    rw [used_subscribe] at hused
    rw [made_subscribe, Entries.keys, List.map_append]
    exact List.mem_append_left _ (h.given hused)
  atMost other := by
    rw [unused_subscribe fun hused => hanew.new (h.given hused), Entries.values, List.map_append, List.count_append]
    exact (List.count_append).trans_le (Nat.add_le_add_right (h.atMost other) _)
  exact hnodup other := by
    rw [used_subscribe] at hnodup
    rw [unused_subscribe fun hused => hanew.new (h.given hused), Entries.values, List.map_append, List.count_append]
    exact (List.count_append).trans (congrArg (· + _) (h.exact hnodup other))

theorem Kept.unsubscribe (h : Kept actions registry) (hanew : HandsOutAnew actions)
    (hget : registry.handles.get? handle = some subscriber) :
    Kept (actions ++ [.unsubscribe handle])
      { registry with subscribers := registry.subscribers.erase subscriber } := by
  rw [h.handles] at hget
  have given : ∀ {other}, other ∈ used (actions ++ [.unsubscribe handle]) →
      other ∈ (made (actions ++ [.unsubscribe handle])).keys := by
    intro other hused
    rw [used_unsubscribe] at hused
    rw [made_unsubscribe]
    rcases List.mem_append.1 hused with hused | hused
    · exact h.given hused
    · rw [List.mem_singleton.1 hused]
      exact Entries.mem_keys_of_mem (Entries.mem_of_get? hget)
  have handles : registry.handles = made (actions ++ [.unsubscribe handle]) := by rw [made_unsubscribe, h.handles]
  by_cases hused : handle ∈ used actions
  · -- The subscription that is taken out is another one.
    have hsame : (unused actions).erase handle = unused actions := Entries.erase_eq_self (get?_unused_of_mem hused)
    refine ⟨handles, given, fun other => ?_, fun hnodup => ?_⟩
    · rw [unused_unsubscribe, hsame]
      exact (List.erase_sublist.count_le other).trans (h.atMost other)
    · rw [used_unsubscribe] at hnodup
      exact absurd List.mem_cons_self (List.disjoint_of_nodup_append hnodup hused)
  · have hperm : (unused actions).values.Perm (subscriber :: ((unused actions).erase handle).values) :=
      Entries.values_perm_erase (Entries.nodup_keys_filter hanew _) (get?_unused hanew hget hused)
    have hcount (other : String) : ((unused actions).erase handle).values.count other =
        (unused actions).values.count other - if subscriber == other then 1 else 0 := by
      rw [hperm.count_eq, List.count_cons, Nat.add_sub_cancel]
    refine ⟨handles, given, fun other => ?_, fun hnodup other => ?_⟩
    · rw [unused_unsubscribe, hcount, List.count_erase]
      exact Nat.sub_le_sub_right (h.atMost other) _
    · rw [used_unsubscribe] at hnodup
      rw [unused_unsubscribe, hcount, List.count_erase, h.exact (List.Nodup.of_append_left hnodup)]

theorem kept_acts (start : SubscriberRegistry) (hnobody : start.subscribers = []) (hnone : start.handles = [])
    (actions : List SubscriberAction) : HandsOutAnew actions → .clear ∉ actions → ∀ {later : SubscriberRegistry},
    start.acts? actions = some later → Kept actions later := by
  induction actions using List.reverseRecOn with
  | nil =>
    intro _ _ later h
    cases h
    exact ⟨hnone, fun h => absurd h List.not_mem_nil, fun _ => by rw [hnobody]; exact Nat.zero_le _,
      fun _ _ => by rw [hnobody]; rfl⟩
  | append_singleton front action ih =>
    intro hanew hclear later h
    obtain ⟨mid, hfront, hact⟩ := acts?_concat h
    have kept := ih hanew.before (fun hmem => hclear (List.mem_append_left _ hmem)) hfront
    obtain ⟨handle, subscriber, rfl, hget, rfl⟩ | ⟨handle, subscriber, rfl, rfl⟩ | ⟨rfl, -⟩ := act?_cases hact
    · exact kept.unsubscribe hanew.before hget
    · exact kept.subscribe hanew
    · exact absurd (List.mem_append_right _ List.mem_cons_self) hclear

/-- **Handles that are used once end their own subscriptions.** However subscriptions are made, of the same subscriber
too, and handles are used, of each subscriber there are never more subscriptions left than those whose handles were
never used, and exactly as many if no handle was used twice. -/
theorem handles_used_once_end_their_own (start : SubscriberRegistry) (hnobody : start.subscribers = [])
    (hnone : start.handles = []) {actions : List SubscriberAction} (hanew : HandsOutAnew actions)
    (hclear : .clear ∉ actions) {later : SubscriberRegistry} (h : start.acts? actions = some later)
    (subscriber : String) :
    later.subscribers.count subscriber ≤ (unused actions).values.count subscriber ∧
    ((used actions).Nodup → later.subscribers.count subscriber = (unused actions).values.count subscriber) :=
  have kept := kept_acts start hnobody hnone actions hanew hclear h
  ⟨kept.atMost subscriber, fun hnodup => kept.exact hnodup subscriber⟩

/-- The use of a handle changes nothing just if its subscriber has no subscription left. -/
theorem unsubscribe?_eq_self_iff (hget : registry.handles.get? handle = some subscriber) :
    registry.unsubscribe? handle = some registry ↔ subscriber ∉ registry.subscribers := by
  rw [unsubscribe?, hget, Option.map_some, Option.some_inj]
  constructor
  · intro hsame hmem
    have hlength := congrArg (fun registry => registry.subscribers.length) hsame
    have hpos := List.length_pos_of_mem hmem
    simp only [Subscribers.unsubscribe, List.length_erase_of_mem hmem] at hlength
    omega
  · intro hout
    rw [Subscribers.unsubscribe, List.erase_of_not_mem hout]

/-- A subscriber with two subscriptions, of which the handle of the first is used twice: the second one is gone too. -/
theorem handle_used_twice_ends_another :
    let actions := [SubscriberAction.subscribe "first" "a", .subscribe "second" "a", .unsubscribe "first",
      .unsubscribe "first"]
    HandsOutAnew actions ∧ (unused actions).values.count "a" = 1 ∧
      (((SubscriberRegistry.empty "Notification").define "a" []).acts? actions).map
        (fun registry => registry.subscribers) = some [] := by
  refine ⟨?_, by decide, by decide⟩
  rw [HandsOutAnew]
  decide

end LanguageSessions.SubscriberRegistry
