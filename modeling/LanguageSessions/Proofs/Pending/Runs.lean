import LanguageSessions.Proofs.Pending.Operations

/-!
# Every request is settled once, and none is lost

`Run` is any number of events on the pending requests in any order: requests are registered and answered, given up,
released, cancelled together and ended by their timers. Along every run

- the parts stay in agreement (`Run.consistent`);
- a promise has the outcome that the first event to reach it brought, whatever came later (`Waits.outcome_run`);
- each promise without an outcome has exactly one entry and an armed timer (`Consistent.ownedOnce`).

`settled_once_and_none_lost` puts them together with what `Leaves` says about each operation.
-/

namespace LanguageSessions.Pending

/-! ## Runs -/

/-- What can happen to the pending requests. -/
inductive Event where
  | giveOut
  | register (id : RequestId) (method : String) (delay : Option Binary64) (session : Option String)
  | resolve (id : RequestId) (result : Json)
  | reject (id : RequestId) (fault : Fault)
  | cancelAll (reason : String) (session : Option String)
  /-- A timer fires. -/
  | expire (timer : RequestTimer)
  /-- The waiter of a promise gives up. -/
  | abandon (promise : Nat)
  /-- The release that was asked for first is carried out. -/
  | release

/-- The pending requests after an event. -/
def after (pending : Pending) : Event → Pending
  | .giveOut => pending.nextId.1
  | .register id method delay session =>
    match pending.register id method delay session with
    | .ok (registered, _) => registered
    | .error _ => pending
  | .resolve id result => (pending.resolve id result).1
  | .reject id fault => (pending.reject id fault).1
  | .cancelAll reason session => (pending.cancelAll reason session).1
  | .expire timer => (pending.expire timer).1
  | .abandon promise => (pending.abandon promise).1
  | .release => pending.release

/-- An identifier is registered once at most, and only armed timers fire. -/
def Allows (pending : Pending) : Event → Prop
  | .register id _ _ _ => pending.Unregistered id
  | .expire timer => timer ∈ pending.timers
  | _ => True

/-- Events one after the other. -/
inductive Run : Pending → List Event → Pending → Prop
  | nil (pending : Pending) : Run pending [] pending
  | cons {pending final : Pending} {event : Event} {events : List Event} :
      pending.Allows event → Run (pending.after event) events final → Run pending (event :: events) final

theorem consistent_empty (standardDelay : Binary64) : (Pending.empty standardDelay).Consistent :=
  ⟨List.nodup_nil, List.nodup_nil, by simp [Pending.empty], rfl, List.nodup_nil, by simp [Pending.empty],
    by simp [Pending.empty], by simp [Pending.empty]⟩

/-- One event keeps the parts in agreement. -/
theorem Consistent.after {pending : Pending} (h : pending.Consistent) {event : Event} (ha : pending.Allows event) :
    (pending.after event).Consistent := by
  cases event with
  | giveOut => exact ⟨h.requests, h.keys, h.owner, h.timed, h.handles, h.handed, h.waiting, h.released⟩
  | register id method delay session =>
    simp only [Pending.after, h.register_eq ha]
    exact h.enter ha method delay session
  | resolve id result =>
    rw [Pending.after, resolve_fst]
    exact h.finish id _
  | reject id fault =>
    rw [Pending.after, reject_fst]
    exact h.finish id _
  | cancelAll reason session => exact h.finishAll _
  | expire timer => exact h.expire ha
  | abandon promise => exact h.abandon promise
  | release => exact h.release

/-- Every run keeps the parts in agreement. -/
theorem Run.consistent {pending final : Pending} {events : List Event} (run : Run pending events final) :
    pending.Consistent → final.Consistent := by
  induction run with
  | nil _ => exact id
  | cons allowed _ ih => exact fun h => ih (h.after allowed)

/-! ## An outcome stays -/

/-- Nothing changes an outcome that is there. -/
theorem Consistent.outcome_after {pending : Pending} (h : pending.Consistent) {event : Event}
    (ha : pending.Allows event) {index : Nat} {outcome : Outcome} (ho : pending.outcome? index = some outcome) :
    (pending.after event).outcome? index = some outcome := by
  obtain ⟨promise, hp, hs⟩ := Option.bind_eq_some_iff.1 ho
  have finish : ∀ id new, ((pending.finish? id new).getD pending).outcome? index = some outcome := by
    intro id new
    by_cases hid : promise.request = id
    · rw [h.finish_settles id new hp hid, hs, Option.getD_some]
    · rw [outcome?, (h.finish_leaves id new).promises index promise hp (decide_eq_true hid)]
      exact hs
  cases event with
  | giveOut => exact ho
  | register id method delay session =>
    simp only [Pending.after, h.register_eq ha]
    rw [outcome?, Pending.enter, List.getElem?_append_left (List.getElem?_eq_some_iff.1 hp).1]
    exact ho
  | resolve id result =>
    rw [Pending.after, resolve_fst]
    exact finish id _
  | reject id fault =>
    rw [Pending.after, reject_fst]
    exact finish id _
  | cancelAll reason session =>
    rw [Pending.after, cancelAll_fst, h.finishAll_settles _ hp, hs, Option.getD_some, ite_self]
  | expire timer =>
    obtain ⟨entry, -, he⟩ := h.expire_eq ha
    rw [Pending.after, he]
    exact finish timer.request _
  | abandon other =>
    rw [Pending.after]
    by_cases hw : ∃ waiting, pending.promises[other]? = some waiting ∧ waiting.outcome = none
    · obtain ⟨waiting, hother, hn⟩ := hw
      rw [abandon_of_waiting hother hn]
      have := outcome?_settle pending other index (.error .cancelled) hp
      rw [hs, Option.getD_some, ite_self] at this
      exact this
    · rw [abandon_of_settled fun waiting hother hn => hw ⟨waiting, hother, hn⟩]
      exact ho
  | release =>
    rw [Pending.after, outcome?, release_promises]
    exact ho

theorem Run.outcome {pending final : Pending} {events : List Event} (run : Run pending events final) {index : Nat}
    {outcome : Outcome} : pending.Consistent → pending.outcome? index = some outcome →
    final.outcome? index = some outcome := by
  induction run with
  | nil _ => exact fun _ ho => ho
  | cons allowed _ ih => exact fun h ho => ih (h.after allowed) (h.outcome_after allowed ho)

/-! ## The first event that reaches a promise -/

/-- A request as it was registered, with the index of its promise. -/
structure Call where
  id : RequestId
  method : String
  session : Option String
  /-- The time that it was given. -/
  delay : Binary64
  promise : Nat

/-- The outcome that an event brings to a request, if it reaches it. -/
def Event.outcomeFor (call : Call) : Event → Option Outcome
  | .resolve id result => if id = call.id then some (.ok result) else none
  | .reject id fault => if id = call.id then some (.error fault) else none
  | .cancelAll reason session =>
    if session = none ∨ session = call.session then some (.error (.requestCancelled reason)) else none
  | .expire timer =>
    if timer.request = call.id then some (.error (.requestTimeout call.method (.float call.delay))) else none
  | .abandon promise => if promise = call.promise then some (.error .cancelled) else none
  | .giveOut | .register .. | .release => none

/-- A request waits: its promise has no outcome, and its entry and its timer are as it was registered. -/
structure Waits (call : Call) (pending : Pending) : Prop where
  promise : pending.promises[call.promise]? = some ⟨call.id, none⟩
  entry : ∃ timer, (call.id, ⟨call.method, call.session, call.promise, timer⟩) ∈ pending.entries
  delay : ∀ timer ∈ pending.timers, timer.request = call.id → timer.delay = call.delay

/-- A request waits from the time that it is registered. -/
theorem Consistent.waits_enter {pending : Pending} (h : pending.Consistent) {id : RequestId}
    (hu : pending.Unregistered id) (method : String) (delay : Option Binary64) (session : Option String) :
    Waits ⟨id, method, session, delay.getD pending.standardDelay, pending.promises.length⟩
      (pending.enter id method delay session) := by
  refine ⟨by simp [Pending.enter], ⟨pending.armed, by simp [Pending.enter]⟩, fun timer ht hr => ?_⟩
  rcases List.mem_append.1 ht with ht | ht
  · obtain ⟨entry, he, -⟩ := h.entry_of_timer ht
    rw [hr, h.get?_of_unregistered hu] at he
    cases he
  · cases List.mem_singleton.1 ht
    rfl

section Waits

variable {call : Call} {pending : Pending}

/-- A request goes on waiting where it is left alone. -/
theorem Waits.of_leaves {keep : RequestId → Bool} {next : Pending} (w : Waits call pending)
    (l : Leaves keep pending next) (hk : keep call.id = true) : Waits call next := by
  obtain ⟨timer, hm⟩ := w.entry
  refine ⟨l.promises _ _ w.promise hk, ⟨timer, ?_⟩, fun timer ht => w.delay timer ?_⟩
  · rw [l.entries]
    exact List.mem_filter.2 ⟨hm, hk⟩
  · rw [l.timers] at ht
    exact List.mem_of_mem_filter ht

theorem Waits.get? (w : Waits call pending) (h : pending.Consistent) :
    ∃ timer, pending.entries.get? call.id = some ⟨call.method, call.session, call.promise, timer⟩ := by
  obtain ⟨timer, hm⟩ := w.entry
  exact ⟨timer, Entries.get?_of_mem h.keys hm⟩

/-- A waiting request is among those of a session if it was sent to it. -/
theorem Waits.mem_idsOf (w : Waits call pending) (h : pending.Consistent) (session : Option String) :
    call.id ∈ pending.idsOf session ↔ session = none ∨ session = call.session := by
  obtain ⟨timer, hm⟩ := w.entry
  cases session with
  | none => simpa [idsOf] using Entries.mem_keys_of_mem hm
  | some session =>
    simp only [idsOf, reduceCtorEq, false_or, List.mem_map, List.mem_filter]
    constructor
    · rintro ⟨⟨id, entry⟩, ⟨he, hs⟩, rfl⟩
      have := (Entries.get?_of_mem h.keys he).symm.trans (Entries.get?_of_mem h.keys hm)
      cases this
      exact (beq_iff_eq.1 hs).symm
    · intro hs
      exact ⟨_, ⟨hm, by simp [hs]⟩, rfl⟩

/-- A waiting request has taken the outcome that it was brought, if it was brought one, and waits on otherwise. -/
def Takes (call : Call) (next : Pending) : Option Outcome → Prop
  | some outcome => next.outcome? call.promise = some outcome
  | none => Waits call next

theorem Waits.finish (w : Waits call pending) (h : pending.Consistent) (id : RequestId) (outcome : Outcome) :
    Takes call ((pending.finish? id outcome).getD pending) (if id = call.id then some outcome else none) := by
  split
  · next hid => exact h.finish_settles id outcome w.promise hid.symm
  · next hid => exact w.of_leaves (h.finish_leaves id outcome) (decide_eq_true (Ne.symm hid))

/-- A request goes on waiting where another one is registered. -/
theorem Waits.enter (w : Waits call pending) {id : RequestId} (hu : pending.Unregistered id) (method : String)
    (delay : Option Binary64) (session : Option String) : Waits call (pending.enter id method delay session) := by
  obtain ⟨timer, hm⟩ := w.entry
  have hne : id ≠ call.id := (hu _ (List.mem_of_getElem? w.promise)).symm
  have hlt := (List.getElem?_eq_some_iff.1 w.promise).1
  refine ⟨(List.getElem?_append_left hlt).trans w.promise, ⟨timer, List.mem_append_left _ hm⟩, fun timer ht hr => ?_⟩
  rcases List.mem_append.1 ht with ht | ht
  · exact w.delay timer ht hr
  · cases List.mem_singleton.1 ht
    exact absurd hr hne

theorem Waits.cancelAll (w : Waits call pending) (h : pending.Consistent) (reason : String) (session : Option String) :
    Takes call (pending.cancelAll reason session).1
      (if session = none ∨ session = call.session then some (.error (.requestCancelled reason)) else none) := by
  have hi := w.mem_idsOf h session
  rw [cancelAll_fst]
  split
  · next hs =>
    rw [Takes, h.finishAll_settles _ w.promise, if_pos (hi.2 hs)]
    rfl
  · next hs => exact w.of_leaves (h.finishAll_leaves _) (decide_eq_true (mt hi.1 hs))

theorem Waits.expire (w : Waits call pending) (h : pending.Consistent) {timer : RequestTimer}
    (ht : timer ∈ pending.timers) :
    Takes call (pending.expire timer).1
      (if timer.request = call.id then some (.error (.requestTimeout call.method (.float call.delay))) else none) := by
  obtain ⟨entry, he, heq⟩ := h.expire_eq ht
  have hw := w.finish h timer.request (.error (.requestTimeout entry.method (.float timer.delay)))
  rw [heq]
  by_cases hr : timer.request = call.id
  · obtain ⟨own, hget⟩ := w.get? h
    rw [hr, hget] at he
    cases he
    rw [if_pos hr, w.delay timer ht hr] at hw
    rw [if_pos hr, w.delay timer ht hr]
    exact hw
  · rw [if_neg hr] at hw ⊢
    exact ⟨hw.promise, hw.entry, hw.delay⟩

theorem Waits.abandon (w : Waits call pending) (index : Nat) :
    Takes call (pending.abandon index).1 (if index = call.promise then some (.error .cancelled) else none) := by
  by_cases hi : index = call.promise
  · subst hi
    rw [if_pos rfl, abandon_of_waiting w.promise rfl]
    have hsettled := outcome?_settle pending call.promise call.promise (.error .cancelled) w.promise
    rwa [if_pos rfl] at hsettled
  · rw [if_neg hi]
    by_cases hw : ∃ waiting, pending.promises[index]? = some waiting ∧ waiting.outcome = none
    · obtain ⟨waiting, hother, hn⟩ := hw
      rw [abandon_of_waiting hother hn]
      refine ⟨?_, w.entry, w.delay⟩
      exact (getElem?_settle pending index call.promise _).trans ((if_neg hi).trans w.promise)
    · rw [abandon_of_settled fun waiting hother hn => hw ⟨waiting, hother, hn⟩]
      exact w

theorem Waits.release (w : Waits call pending) (h : pending.Consistent) : Waits call pending.release := by
  cases hr : pending.releases with
  | nil =>
    rw [Pending.release, hr]
    exact w
  | cons id releases =>
    refine w.of_leaves (h.release_leaves hr) (decide_eq_true ?_)
    rintro rfl
    -- whose release was asked for has given up, and waits no longer
    obtain ⟨owned, ho, hreq, hc⟩ := h.released call.id (hr ▸ List.mem_cons_self)
    rw [List.inj_on_of_nodup_map h.requests ho (List.mem_of_getElem? w.promise) hreq] at hc
    cases hc

/-- **One event settles a waiting request with the outcome that it brings, or leaves it waiting.** -/
theorem Waits.after (w : Waits call pending) (h : pending.Consistent) {event : Event} (ha : pending.Allows event) :
    Takes call (pending.after event) (event.outcomeFor call) := by
  cases event with
  | giveOut => exact ⟨w.promise, w.entry, w.delay⟩
  | register id method delay session =>
    rw [Pending.after, h.register_eq ha]
    exact w.enter ha method delay session
  | resolve id result =>
    rw [Pending.after, resolve_fst]
    exact w.finish h id (.ok result)
  | reject id fault =>
    rw [Pending.after, reject_fst]
    exact w.finish h id (.error fault)
  | cancelAll reason session => exact w.cancelAll h reason session
  | expire timer => exact w.expire h ha
  | abandon index => exact w.abandon index
  | release => exact w.release h

end Waits

/-- **A request ends with the outcome that the first event to reach it brings.** -/
theorem Waits.outcome_run {call : Call} {pending final : Pending} {events : List Event}
    (run : Run pending events final) : pending.Consistent → Waits call pending →
    final.outcome? call.promise = events.findSome? (Event.outcomeFor call) := by
  induction run with
  | nil pending =>
    intro _ w
    rw [outcome?, w.promise]
    rfl
  | @cons pending final event events allowed run ih =>
    intro h w
    have hw := w.after h allowed
    rw [List.findSome?_cons]
    cases ho : event.outcomeFor call with
    | some outcome =>
      rw [ho] at hw
      exact run.outcome (h.after allowed) hw
    | none =>
      rw [ho] at hw
      exact ih (h.after allowed) hw

/-! ## Owners -/

/-- A promise has exactly one entry, under the identifier of its request, and the timer of the entry is armed. -/
def OwnedOnce (pending : Pending) (index : Nat) (id : RequestId) : Prop :=
  ∃ entry timer, (pending.entries.filter fun entry => entry.2.promise == index) = [(id, entry)] ∧
    timer ∈ pending.timers ∧ timer.handle = entry.timer ∧ timer.request = id

theorem Consistent.ownedOnce {pending : Pending} (h : pending.Consistent) {index : Nat} {promise : Promise}
    (hp : pending.promises[index]? = some promise) (hn : promise.outcome = none) :
    pending.OwnedOnce index promise.request := by
  obtain ⟨entry, he, hi⟩ := h.entry_of_waiting hp hn
  have hm := Entries.mem_of_get? he
  have ht : (promise.request, entry.timer) ∈ pending.timers.map fun timer => (timer.request, timer.handle) := by
    rw [h.timed]
    exact List.mem_map.2 ⟨(promise.request, entry), hm, rfl⟩
  obtain ⟨timer, ht, heq⟩ := List.mem_map.1 ht
  simp only [Prod.mk.injEq] at heq
  refine ⟨entry, timer, ?_, ht, heq.2, heq.1⟩
  have hu : ∀ other ∈ pending.entries, (other.2.promise == index) = (other == (promise.request, entry)) := by
    rintro ⟨id, other⟩ ho
    rw [Bool.eq_iff_iff, beq_iff_eq, beq_iff_eq]
    constructor
    · intro hoi
      obtain ⟨owned, hown, hr, -⟩ := h.owner id other ho
      rw [hoi, hp] at hown
      cases hown
      subst hr
      rw [← Option.some.inj ((Entries.get?_of_mem h.keys ho).symm.trans he)]
    · intro heq
      cases heq
      exact hi
  rw [List.filter_congr hu, List.filter_beq, List.count_eq_one_of_mem h.keys.of_map hm, List.replicate_one]

/-- Whether a request was sent to a session. -/
def belongsTo (pending : Pending) (session : String) (id : RequestId) : Bool :=
  (pending.entries.get? id).bind (·.session) == some session

theorem Consistent.mem_idsOf {pending : Pending} (h : pending.Consistent) (session : String) (id : RequestId) :
    id ∈ pending.idsOf (some session) ↔ pending.belongsTo session id = true := by
  simp only [idsOf, belongsTo, List.mem_map, List.mem_filter, beq_iff_eq]
  constructor
  · rintro ⟨⟨id, entry⟩, ⟨he, hs⟩, rfl⟩
    rw [Entries.get?_of_mem h.keys he]
    exact hs
  · intro hs
    obtain ⟨entry, he, hs⟩ := Option.bind_eq_some_iff.1 hs
    exact ⟨(id, entry), ⟨Entries.mem_of_get? he, hs⟩, rfl⟩

/-! ## All together -/

/-- **Requests are settled once, and none is lost.** In every state that a run reaches: registering a new identifier
succeeds, and its promise takes the outcome of the first later event that reaches it; an outcome never changes; a
promise without an outcome has exactly one entry and an armed timer; the entry of a promise with an outcome only waits
for the release that its waiter asked for; every armed timer has its entry; and what ends one request, or those of one
session, leaves all others alone. -/
theorem settled_once_and_none_lost {standardDelay : Binary64} {events : List Event} {pending : Pending}
    (run : Run (Pending.empty standardDelay) events pending) :
    (∀ id method delay session, pending.Unregistered id →
      ∃ registered, pending.register id method delay session = .ok (registered, pending.promises.length) ∧
        ∀ later final, Run registered later final →
          final.outcome? pending.promises.length = later.findSome? (Event.outcomeFor
            ⟨id, method, session, delay.getD pending.standardDelay, pending.promises.length⟩)) ∧
    (∀ index outcome later final, pending.outcome? index = some outcome → Run pending later final →
      final.outcome? index = some outcome) ∧
    (∀ (index : Nat) (promise : Promise), pending.promises[index]? = some promise → promise.outcome = none →
      pending.OwnedOnce index promise.request) ∧
    (∀ id entry outcome, (id, entry) ∈ pending.entries → pending.outcome? entry.promise = some outcome →
      outcome = .error .cancelled ∧ id ∈ pending.releases) ∧
    (∀ timer ∈ pending.timers, ∃ entry, (timer.request, entry) ∈ pending.entries ∧ entry.timer = timer.handle) ∧
    (∀ id result, Leaves (fun other => decide (other ≠ id)) pending (pending.resolve id result).1) ∧
    (∀ id fault, Leaves (fun other => decide (other ≠ id)) pending (pending.reject id fault).1) ∧
    (∀ timer ∈ pending.timers,
      Leaves (fun other => decide (other ≠ timer.request)) pending (pending.expire timer).1) ∧
    ∀ reason session,
      Leaves (fun other => !pending.belongsTo session other) pending (pending.cancelAll reason (some session)).1 := by
  have h := run.consistent (consistent_empty standardDelay)
  refine ⟨?_, ?_, ?_, ?_, ?_, ?_, ?_, ?_, ?_⟩
  · intro id method delay session hu
    refine ⟨_, h.register_eq hu method delay session, fun later final hrun => ?_⟩
    exact Waits.outcome_run hrun (h.enter hu method delay session) (h.waits_enter hu method delay session)
  · intro index outcome later final ho hrun
    exact hrun.outcome h ho
  · intro index promise hp hn
    exact h.ownedOnce hp hn
  · intro id entry outcome hm ho
    obtain ⟨promise, hp, -, hs⟩ := h.owner id entry hm
    rw [outcome?, hp, Option.bind_some] at ho
    rcases hs with hs | ⟨hs, hr⟩
    · rw [hs] at ho
      cases ho
    · rw [hs] at ho
      cases ho
      exact ⟨rfl, hr⟩
  · intro timer ht
    obtain ⟨entry, he, hh⟩ := h.entry_of_timer ht
    exact ⟨entry, Entries.mem_of_get? he, hh⟩
  · intro id result
    rw [resolve_fst]
    exact h.finish_leaves id _
  · intro id fault
    rw [reject_fst]
    exact h.finish_leaves id _
  · intro timer ht
    exact h.expire_leaves ht
  · intro reason session
    refine (h.finishAll_leaves _).congr fun id => ?_
    have := h.mem_idsOf session id
    cases hb : pending.belongsTo session id <;> simp_all

/-- A waiter that gave up keeps the cancellation, though a response comes before its release. -/
theorem response_after_giving_up :
    ∃ pending registered final,
      Run (Pending.empty .nan) [.giveOut, .register (.number 1) "textDocument/hover" none none] pending ∧
      pending.register (.number 2) "textDocument/definition" none (some "python-1") = .ok (registered, 1) ∧
      Run registered [.abandon 1, .resolve (.number 2) .null, .release] final ∧
      final.outcome? 1 = some (.error .cancelled) := by
  have first : Run (Pending.empty .nan) [.giveOut, .register (.number 1) "textDocument/hover" none none] _ :=
    .cons trivial (.cons (fun _ hp => by cases hp) (.nil _))
  obtain ⟨registered, hr, hl⟩ :=
    (settled_once_and_none_lost first).1 (.number 2) "textDocument/definition" none (some "python-1") (by
      intro promise hp
      cases List.mem_singleton.1 hp
      decide)
  have later : Run registered [.abandon 1, .resolve (.number 2) .null, .release] _ :=
    .cons trivial (.cons trivial (.cons trivial (.nil _)))
  exact ⟨_, registered, _, first, hr, later, hl _ _ later⟩

end LanguageSessions.Pending
