import LanguageSessions.Pending
import LanguageSessions.Proofs.Entries
import Mathlib.Data.List.Nodup

/-!
# The table, the promises and the timers agree

`Consistent` ties the four parts of the pending requests together: the table and the armed timers name the same
requests in the same order, each entry belongs to the promise of its request, a promise without an outcome has its
entry, and an entry whose promise has an outcome is about to be released. Ending one request keeps it, and so does
ending several (`Consistent.finish`, `Consistent.finishAll`).

`Leaves` says what an operation leaves alone: it takes out the entries and timers of some requests and changes no
promise of another one (`Consistent.finish_leaves`, `Consistent.finishAll_leaves`).
-/

namespace LanguageSessions.Pending

/-- The parts of the pending requests agree with each other. -/
structure Consistent (pending : Pending) : Prop where
  requests : (pending.promises.map (·.request)).Nodup
  keys : pending.entries.keys.Nodup
  owner : ∀ id entry, (id, entry) ∈ pending.entries → ∃ promise, pending.promises[entry.promise]? = some promise ∧
    promise.request = id ∧
    (promise.outcome = none ∨ promise.outcome = some (.error .cancelled) ∧ id ∈ pending.releases)
  timed : pending.timers.map (fun timer => (timer.request, timer.handle)) =
    pending.entries.map fun entry => (entry.1, entry.2.timer)
  handles : (pending.timers.map (·.handle)).Nodup
  handed : ∀ timer ∈ pending.timers, timer.handle < pending.armed
  waiting : ∀ promise ∈ pending.promises, promise.outcome = none → promise.request ∈ pending.entries.keys
  released : ∀ id ∈ pending.releases,
    ∃ promise ∈ pending.promises, promise.request = id ∧ promise.outcome = some (.error .cancelled)

/-- Only the requests that `keep` refuses are taken out, and only their promises may change. -/
structure Leaves (keep : RequestId → Bool) (before after : Pending) : Prop where
  entries : after.entries = before.entries.filter fun entry => keep entry.1
  timers : after.timers = before.timers.filter fun timer => keep timer.request
  promises : ∀ (index : Nat) (promise : Promise), before.promises[index]? = some promise → keep promise.request = true →
    after.promises[index]? = some promise

/-- No request was ever registered under an identifier. -/
def Unregistered (pending : Pending) (id : RequestId) : Prop :=
  ∀ promise ∈ pending.promises, promise.request ≠ id

/-! ## Promises -/

theorem Promise.settle_request (promise : Promise) (outcome : Outcome) :
    (promise.settle outcome).request = promise.request := by
  unfold Promise.settle
  split <;> rfl

theorem Promise.settle_outcome (promise : Promise) (outcome : Outcome) :
    (promise.settle outcome).outcome = some (promise.outcome.getD outcome) := by
  unfold Promise.settle Promise.isSettled
  cases h : promise.outcome <;> simp [h]

theorem getElem?_settle (pending : Pending) (index other : Nat) (outcome : Outcome) :
    (pending.settle index outcome).promises[other]? =
      if index = other then pending.promises[other]?.map (·.settle outcome) else pending.promises[other]? := by
  simp only [settle, List.getElem?_modify]
  split <;> simp

theorem map_request_settle (pending : Pending) (index : Nat) (outcome : Outcome) :
    (pending.settle index outcome).promises.map (·.request) = pending.promises.map (·.request) := by
  apply List.ext_getElem?
  intro other
  rw [List.getElem?_map, List.getElem?_map, getElem?_settle]
  split
  · rw [Option.map_map]
    cases pending.promises[other]? <;> simp [Promise.settle_request]
  · rfl

/-- Where the promises belong to the same requests, each one was there before, with or without an outcome. -/
theorem exists_promise_before {before after : Pending}
    (hr : after.promises.map (·.request) = before.promises.map (·.request)) {index : Nat} {promise : Promise}
    (hp : after.promises[index]? = some promise) :
    ∃ old, before.promises[index]? = some old ∧ old.request = promise.request := by
  have hm : (before.promises.map (·.request))[index]? = some promise.request := by
    rw [← hr, List.getElem?_map, hp, Option.map_some]
  rwa [List.getElem?_map, Option.map_eq_some_iff] at hm

/-- Two promises of one request are the same promise. -/
theorem Consistent.index_eq {pending : Pending} (h : pending.Consistent) {i j : Nat} {a b : Promise}
    (ha : pending.promises[i]? = some a) (hb : pending.promises[j]? = some b) (hab : a.request = b.request) :
    i = j := by
  have hi := (List.getElem?_eq_some_iff.1 ha).1
  have hj := (List.getElem?_eq_some_iff.1 hb).1
  refine (List.getElem?_inj (by simpa using hi) h.requests).1 ?_
  rw [List.getElem?_map, List.getElem?_map, ha, hb, Option.map_some, Option.map_some, hab]

/-- A promise without an outcome has its entry in the table. -/
theorem Consistent.entry_of_waiting {pending : Pending} (h : pending.Consistent) {index : Nat} {promise : Promise}
    (hp : pending.promises[index]? = some promise) (hn : promise.outcome = none) :
    ∃ entry, pending.entries.get? promise.request = some entry ∧ entry.promise = index := by
  have hk := h.waiting promise (List.mem_of_getElem? hp) hn
  obtain ⟨⟨id, entry⟩, hm, hid⟩ := List.mem_map.1 hk
  simp only at hid
  subst hid
  obtain ⟨owned, ho, hr, -⟩ := h.owner _ _ hm
  exact ⟨entry, Entries.get?_of_mem h.keys hm, h.index_eq ho hp hr⟩

/-! ## Taking out -/

/-- The timer of an entry is the only one of its request. -/
theorem Consistent.timer_iff {pending : Pending} (h : pending.Consistent) {id : RequestId} {entry : PendingRequest}
    (he : pending.entries.get? id = some entry) {timer : RequestTimer} (ht : timer ∈ pending.timers) :
    timer.handle = entry.timer ↔ timer.request = id := by
  have hm : (id, entry.timer) ∈ pending.timers.map fun timer => (timer.request, timer.handle) := by
    rw [h.timed]
    exact List.mem_map.2 ⟨(id, entry), Entries.mem_of_get? he, rfl⟩
  obtain ⟨own, ho, heq⟩ := List.mem_map.1 hm
  simp only [Prod.mk.injEq] at heq
  constructor
  · intro hh
    have : timer = own := List.inj_on_of_nodup_map h.handles ht ho (hh.trans heq.2.symm)
    rw [this, heq.1]
  · intro hr
    have hk : (pending.timers.map (·.request)).Nodup := by
      have : pending.timers.map (·.request) = pending.entries.keys := by
        have := congrArg (List.map Prod.fst) h.timed
        simpa [Entries.keys, Function.comp_def] using this
      rw [this]; exact h.keys
    have : timer = own := List.inj_on_of_nodup_map hk ht ho (hr.trans heq.1.symm)
    rw [this, heq.2]

theorem take_entries (pending : Pending) (id : RequestId) :
    (pending.take id).entries = pending.entries.filter fun entry => decide (entry.1 ≠ id) := by
  rw [← Entries.erase_eq_filter, take]
  cases h : pending.entries.get? id with
  | some entry => rfl
  | none =>
    rw [Entries.erase_eq_filter, List.filter_eq_self.2]
    intro entry he
    have := Entries.get?_eq_none_iff.1 h
    exact decide_eq_true fun e => this (e ▸ List.mem_map_of_mem he)

theorem Consistent.take_timers {pending : Pending} (h : pending.Consistent) (id : RequestId) :
    (pending.take id).timers = pending.timers.filter fun timer => decide (timer.request ≠ id) := by
  rw [take]
  cases he : pending.entries.get? id with
  | some entry =>
    refine List.filter_congr fun timer ht => ?_
    have := h.timer_iff he ht
    by_cases hr : timer.request = id
    · simp [hr, this.2 hr]
    · simp [hr, mt this.1 hr]
  | none =>
    refine (List.filter_eq_self.2 fun timer ht => ?_).symm
    rw [decide_eq_true_iff]
    intro hr
    have hm : (timer.request, timer.handle) ∈ pending.entries.map fun entry => (entry.1, entry.2.timer) := by
      rw [← h.timed]; exact List.mem_map_of_mem ht
    obtain ⟨entry, hm, heq⟩ := List.mem_map.1 hm
    simp only [Prod.mk.injEq] at heq
    exact Entries.get?_eq_none_iff.1 he (hr ▸ heq.1 ▸ List.mem_map_of_mem hm)

@[simp] theorem take_promises (pending : Pending) (id : RequestId) : (pending.take id).promises = pending.promises := by
  unfold take; split <;> rfl

@[simp] theorem take_releases (pending : Pending) (id : RequestId) : (pending.take id).releases = pending.releases := by
  unfold take; split <;> rfl

@[simp] theorem take_armed (pending : Pending) (id : RequestId) : (pending.take id).armed = pending.armed := by
  unfold take; split <;> rfl

/-- Taking out the requests of one identifier keeps the parts in agreement if its promise has an outcome then. -/
theorem Consistent.of_leaves {before after : Pending} {id : RequestId} (h : before.Consistent)
    (l : Leaves (fun other => decide (other ≠ id)) before after)
    (hr : after.promises.map (·.request) = before.promises.map (·.request)) (ha : after.armed = before.armed)
    (hs : ∀ promise ∈ after.promises, promise.request = id → promise.outcome ≠ none)
    (hq : ∀ other, other ≠ id → (other ∈ after.releases ↔ other ∈ before.releases))
    (hc : id ∈ after.releases →
      ∃ promise ∈ after.promises, promise.request = id ∧ promise.outcome = some (.error .cancelled)) :
    after.Consistent := by
  -- a promise of another request was there before, and it is the same
  have same : ∀ promise ∈ after.promises, promise.request ≠ id → promise ∈ before.promises := by
    intro promise hp hne
    obtain ⟨index, hi⟩ := List.mem_iff_getElem?.1 hp
    obtain ⟨old, ho, he⟩ := exists_promise_before hr hi
    have := l.promises index old ho (decide_eq_true (he ▸ hne))
    rw [hi] at this
    cases this
    exact List.mem_of_getElem? ho
  have hme : ∀ {other entry}, (other, entry) ∈ after.entries → (other, entry) ∈ before.entries ∧ other ≠ id := by
    intro other entry hm
    rw [l.entries, List.mem_filter] at hm
    exact ⟨hm.1, of_decide_eq_true hm.2⟩
  have hmt : ∀ {timer}, timer ∈ after.timers → timer ∈ before.timers := by
    intro timer hm
    rw [l.timers] at hm
    exact List.mem_of_mem_filter hm
  constructor
  case requests => exact hr ▸ h.requests
  case keys =>
    rw [Entries.keys, l.entries]
    exact (List.filter_sublist.map _).nodup h.keys
  case owner =>
    intro other entry hm
    obtain ⟨hm, hne⟩ := hme hm
    obtain ⟨promise, hp, hr', ho⟩ := h.owner other entry hm
    exact ⟨promise, l.promises _ _ hp (decide_eq_true (hr' ▸ hne)), hr', ho.imp_right (And.imp_right (hq other hne).2)⟩
  case timed =>
    rw [l.timers, l.entries]
    have := congrArg (List.filter fun pair => decide (pair.1 ≠ id)) h.timed
    rwa [List.filter_map, List.filter_map] at this
  case handles =>
    rw [l.timers]
    exact (List.filter_sublist.map _).nodup h.handles
  case handed =>
    intro timer hm
    rw [ha]
    exact h.handed timer (hmt hm)
  case waiting =>
    intro promise hp hn
    have hne : promise.request ≠ id := fun e => hs promise hp e hn
    obtain ⟨entry, hm, he⟩ := List.mem_map.1 (h.waiting promise (same promise hp hne) hn)
    rw [Entries.keys, l.entries]
    exact List.mem_map.2 ⟨entry, List.mem_filter.2 ⟨hm, decide_eq_true (he ▸ hne)⟩, he⟩
  case released =>
    intro other hm
    by_cases hne : other = id
    · subst hne
      exact hc hm
    · obtain ⟨promise, hp, hr', ho⟩ := h.released other ((hq other hne).1 hm)
      obtain ⟨index, hi⟩ := List.mem_iff_getElem?.1 hp
      exact ⟨promise, List.mem_of_getElem? (l.promises index promise hi (decide_eq_true (hr' ▸ hne))), hr', ho⟩

/-! ## Ending a request -/

theorem finish?_eq_some {pending after : Pending} {id : RequestId} {outcome : Outcome}
    (h : pending.finish? id outcome = some after) :
    ∃ entry, pending.entries.get? id = some entry ∧ after = (pending.take id).settle entry.promise outcome := by
  obtain ⟨entry, he, rfl⟩ := Option.map_eq_some_iff.1 h
  exact ⟨entry, he, rfl⟩

theorem finish?_eq_none {pending : Pending} {id : RequestId} {outcome : Outcome}
    (h : pending.finish? id outcome = none) : pending.entries.get? id = none := by
  simpa [finish?] using h

/-- The promise of an entry belongs to the request of the entry. -/
theorem Consistent.request_eq {pending : Pending} (h : pending.Consistent) {id : RequestId} {entry : PendingRequest}
    (he : pending.entries.get? id = some entry) {promise : Promise}
    (hp : pending.promises[entry.promise]? = some promise) : promise.request = id := by
  obtain ⟨owned, ho, hr, -⟩ := h.owner _ _ (Entries.mem_of_get? he)
  rw [hp] at ho
  cases ho
  exact hr

/-- **Ending one request leaves all others alone.** -/
theorem Consistent.finish_leaves {pending : Pending} (h : pending.Consistent) (id : RequestId) (outcome : Outcome) :
    Leaves (fun other => decide (other ≠ id)) pending ((pending.finish? id outcome).getD pending) := by
  cases hf : pending.finish? id outcome with
  | none =>
    have hn := finish?_eq_none hf
    have ht : pending.take id = pending := by rw [take, hn]
    have hentries := take_entries pending id
    have htimers := h.take_timers id
    rw [ht] at hentries htimers
    exact ⟨hentries, htimers, fun _ _ hp _ => hp⟩
  | some after =>
    obtain ⟨entry, he, rfl⟩ := finish?_eq_some hf
    refine ⟨take_entries pending id, h.take_timers id, fun index promise hp hk => ?_⟩
    rw [Option.getD_some, getElem?_settle, take_promises, if_neg]
    · exact hp
    · rintro rfl
      exact of_decide_eq_true hk (h.request_eq he hp)

/-- Once a request has ended, its promise has an outcome. -/
theorem Consistent.finish_settles {pending : Pending} (h : pending.Consistent) (id : RequestId) (outcome : Outcome)
    {index : Nat} {promise : Promise} (hp : pending.promises[index]? = some promise) (hr : promise.request = id) :
    ((pending.finish? id outcome).getD pending).outcome? index = some (promise.outcome.getD outcome) := by
  cases hf : pending.finish? id outcome with
  | none =>
    -- a promise without an outcome would have an entry
    have hn := finish?_eq_none hf
    cases ho : promise.outcome with
    | some old => simp [outcome?, hp, ho]
    | none =>
      obtain ⟨entry, he, -⟩ := h.entry_of_waiting hp ho
      rw [hr, hn] at he
      cases he
  | some after =>
    obtain ⟨entry, he, rfl⟩ := finish?_eq_some hf
    obtain ⟨owned, ho, hr', hw⟩ := h.owner _ _ (Entries.mem_of_get? he)
    have hi : entry.promise = index := h.index_eq ho hp (hr'.trans hr.symm)
    rw [Option.getD_some, outcome?, getElem?_settle, take_promises, if_pos hi, hp]
    exact Promise.settle_outcome promise outcome

theorem map_request_finish (pending : Pending) (id : RequestId) (outcome : Outcome) :
    ((pending.finish? id outcome).getD pending).promises.map (·.request) = pending.promises.map (·.request) := by
  cases hf : pending.finish? id outcome with
  | none => rfl
  | some after =>
    obtain ⟨entry, -, rfl⟩ := finish?_eq_some hf
    rw [Option.getD_some, map_request_settle, take_promises]

theorem finish_releases (pending : Pending) (id : RequestId) (outcome : Outcome) :
    ((pending.finish? id outcome).getD pending).releases = pending.releases ∧
      ((pending.finish? id outcome).getD pending).armed = pending.armed := by
  cases hf : pending.finish? id outcome with
  | none => exact ⟨rfl, rfl⟩
  | some after =>
    obtain ⟨entry, -, rfl⟩ := finish?_eq_some hf
    exact ⟨take_releases pending id, take_armed pending id⟩

theorem Consistent.finish {pending : Pending} (h : pending.Consistent) (id : RequestId) (outcome : Outcome) :
    ((pending.finish? id outcome).getD pending).Consistent := by
  obtain ⟨hq, ha⟩ := finish_releases pending id outcome
  have hr := map_request_finish pending id outcome
  refine h.of_leaves (h.finish_leaves id outcome) hr ha (fun promise hp hid hn => ?_) (fun other _ => by rw [hq])
    fun hm => ?_
  · obtain ⟨index, hi⟩ := List.mem_iff_getElem?.1 hp
    obtain ⟨old, ho, he⟩ := exists_promise_before hr hi
    have := h.finish_settles id outcome ho (he.trans hid)
    rw [outcome?, hi, Option.bind_some, hn] at this
    cases this
  · obtain ⟨old, hold, hid, hcancelled⟩ := h.released id (hq ▸ hm)
    obtain ⟨index, hi⟩ := List.mem_iff_getElem?.1 hold
    have hs := h.finish_settles id outcome hi hid
    obtain ⟨promise, hp, ho⟩ := Option.bind_eq_some_iff.1 hs
    obtain ⟨old', hold', hreq⟩ := exists_promise_before hr hp
    rw [hi] at hold'
    cases hold'
    exact ⟨promise, List.mem_of_getElem? hp, hreq ▸ hid, by rw [ho, hcancelled]; rfl⟩

theorem resolve_fst (pending : Pending) (id : RequestId) (result : Json) :
    (pending.resolve id result).1 = (pending.finish? id (.ok result)).getD pending := by
  unfold resolve
  cases pending.finish? id (.ok result) <;> rfl

theorem reject_fst (pending : Pending) (id : RequestId) (fault : Fault) :
    (pending.reject id fault).1 = (pending.finish? id (.error fault)).getD pending := by
  unfold reject
  cases pending.finish? id (.error fault) <;> rfl

/-! ## Ending several requests -/

/-- Ends requests one after the other with one outcome. -/
def finishAll (outcome : Outcome) (pending : Pending) (ids : List RequestId) : Pending :=
  ids.foldl (fun pending id => (pending.finish? id outcome).getD pending) pending

theorem cancelAll_fst (pending : Pending) (reason : String) (session : Option String) :
    (pending.cancelAll reason session).1 =
      finishAll (.error (.requestCancelled reason)) pending (pending.idsOf session) := rfl

theorem Consistent.finishAll {outcome : Outcome} : ∀ {pending : Pending} (ids : List RequestId), pending.Consistent →
    (finishAll outcome pending ids).Consistent
  | _, [], h => h
  | _, id :: ids, h => Consistent.finishAll ids (h.finish id outcome)

/-- What two operations leave alone, one after the other. -/
theorem Leaves.trans {first second : RequestId → Bool} {a b c : Pending} (h : Leaves first a b)
    (h' : Leaves second b c) : Leaves (fun id => first id && second id) a c := by
  refine ⟨?_, ?_, fun index promise hp hk => ?_⟩
  · rw [h'.entries, h.entries, List.filter_filter]
    exact List.filter_congr fun entry _ => Bool.and_comm _ _
  · rw [h'.timers, h.timers, List.filter_filter]
    exact List.filter_congr fun timer _ => Bool.and_comm _ _
  · obtain ⟨h₁, h₂⟩ := (Bool.and_eq_true _ _).mp hk
    exact h'.promises _ _ (h.promises _ _ hp h₁) h₂

theorem Leaves.refl (pending : Pending) : Leaves (fun _ => true) pending pending :=
  ⟨(List.filter_true _).symm, (List.filter_true _).symm, fun _ _ hp _ => hp⟩

theorem Leaves.congr {keep keep' : RequestId → Bool} {a b : Pending} (h : Leaves keep a b)
    (he : ∀ id, keep id = keep' id) : Leaves keep' a b := by
  rw [← funext he]; exact h

/-- **Ending some requests leaves all others alone.** -/
theorem Consistent.finishAll_leaves {outcome : Outcome} : ∀ {pending : Pending} (ids : List RequestId),
    pending.Consistent → Leaves (fun other => decide (other ∉ ids)) pending (Pending.finishAll outcome pending ids)
  | pending, [], _ => (Leaves.refl pending).congr fun _ => by simp
  | pending, id :: ids, h =>
    ((h.finish_leaves id outcome).trans (Consistent.finishAll_leaves ids (h.finish id outcome))).congr fun other => by
      simp only [List.mem_cons, not_or, Bool.decide_and, ne_eq]

/-- An outcome that a promise has stays as requests end. -/
theorem Consistent.finishAll_settles {outcome : Outcome} : ∀ {pending : Pending} (ids : List RequestId),
    pending.Consistent → ∀ {index : Nat} {promise : Promise}, pending.promises[index]? = some promise →
    (Pending.finishAll outcome pending ids).outcome? index =
      if promise.request ∈ ids then some (promise.outcome.getD outcome) else promise.outcome
  | pending, [], _, index, promise, hp => by simp [Pending.finishAll, outcome?, hp]
  | pending, id :: ids, h, index, promise, hp => by
    have ih := @Consistent.finishAll_settles outcome _ ids (h.finish id outcome) index
    by_cases hid : promise.request = id
    · have hs := h.finish_settles id outcome hp hid
      obtain ⟨after, ha, ho⟩ := Option.bind_eq_some_iff.1 hs
      obtain ⟨old, hold, hreq⟩ := exists_promise_before (map_request_finish pending id outcome) ha
      rw [hp] at hold
      cases hold
      have := ih ha
      rw [ho, Option.getD_some, ite_self] at this
      rw [if_pos (by simp [hid])]
      exact this
    · have := ih ((h.finish_leaves id outcome).promises index promise hp (decide_eq_true hid))
      simp only [List.mem_cons, hid, false_or]
      exact this

end LanguageSessions.Pending
