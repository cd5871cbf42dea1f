import LanguageSessions.Proofs.Pending.Consistent

/-!
# Registering, giving up, releasing and timers

The operations that do not answer a request keep the parts of the pending requests in agreement as well:

- a request that is registered for the first time gets an entry, a promise and a timer (`Consistent.register_eq`,
  `Consistent.enter`);
- a waiter that gives up settles its promise and asks for a release, which takes out the entry (`Consistent.abandon`,
  `Consistent.release`);
- a timer that fires ends the request it belongs to (`Consistent.expire_eq`, `Consistent.expire`).
-/

namespace LanguageSessions.Pending

/-! ## Registering -/

/-- An identifier that was never registered is not in the table. -/
theorem Consistent.get?_of_unregistered {pending : Pending} (h : pending.Consistent) {id : RequestId}
    (hu : pending.Unregistered id) : pending.entries.get? id = none := by
  rw [Entries.get?_eq_none_iff]
  intro hk
  obtain ⟨⟨other, entry⟩, hm, rfl⟩ := List.mem_map.1 hk
  obtain ⟨promise, hp, hr, -⟩ := h.owner _ _ hm
  exact hu promise (List.mem_of_getElem? hp) hr

/-- The pending requests with one more, under an identifier that is not in the table. -/
def enter (pending : Pending) (id : RequestId) (method : String) (delay : Option Binary64)
    (session : Option String) : Pending :=
  { pending with
    entries := pending.entries ++ [(id, ⟨method, session, pending.promises.length, pending.armed⟩)]
    promises := pending.promises ++ [⟨id, none⟩]
    timers := pending.timers ++
      [⟨pending.armed, (delay.getD pending.standardDelay).toBillionths?.map (pending.now + ·), id,
        delay.getD pending.standardDelay⟩]
    armed := pending.armed + 1 }

/-- Registering an identifier for the first time succeeds. -/
theorem Consistent.register_eq {pending : Pending} (h : pending.Consistent) {id : RequestId}
    (hu : pending.Unregistered id) (method : String) (delay : Option Binary64) (session : Option String) :
    pending.register id method delay session =
      .ok (pending.enter id method delay session, pending.promises.length) := by
  have hg := h.get?_of_unregistered hu
  have hh : pending.has id = false := by rw [has, Entries.has, hg]; rfl
  simp only [register, hh, Bool.false_eq_true, if_false, Entries.set_of_get?_none hg, enter]

/-- A list without duplicates keeps having none when something new is put behind it. -/
theorem nodup_append_new {α β : Type} {f : α → β} {items : List α} {new : α} (h : (items.map f).Nodup)
    (hn : ∀ item ∈ items, f item ≠ f new) : ((items ++ [new]).map f).Nodup := by
  rw [List.map_append, List.map_singleton]
  refine List.Nodup.append h (List.nodup_singleton _) (List.disjoint_singleton.2 fun hm => ?_)
  obtain ⟨item, hi, he⟩ := List.mem_map.1 hm
  exact hn item hi he

theorem Consistent.enter {pending : Pending} (h : pending.Consistent) {id : RequestId}
    (hu : pending.Unregistered id) (method : String) (delay : Option Binary64) (session : Option String) :
    (pending.enter id method delay session).Consistent := by
  have hg := Entries.get?_eq_none_iff.1 (h.get?_of_unregistered hu)
  constructor
  case requests => exact nodup_append_new h.requests hu
  case keys =>
    refine nodup_append_new h.keys fun entry he e => ?_
    exact hg (List.mem_map.2 ⟨entry, he, e⟩)
  case owner =>
    intro other entry hm
    rcases List.mem_append.1 hm with hm | hm
    · obtain ⟨promise, hp, hr, ho⟩ := h.owner other entry hm
      exact ⟨promise, (List.getElem?_append_left (List.getElem?_eq_some_iff.1 hp).1).trans hp, hr, ho⟩
    · cases List.mem_singleton.1 hm
      exact ⟨⟨id, none⟩, by simp [Pending.enter], rfl, Or.inl rfl⟩
  case timed =>
    simp [Pending.enter, h.timed]
  case handles => exact nodup_append_new h.handles fun timer ht => Nat.ne_of_lt (h.handed timer ht)
  case handed =>
    intro timer ht
    rcases List.mem_append.1 ht with ht | ht
    · exact Nat.lt_succ_of_lt (h.handed timer ht)
    · cases List.mem_singleton.1 ht
      exact Nat.lt_succ_self _
  case waiting =>
    intro promise hp hn
    simp only [Pending.enter, Entries.keys, List.map_append, List.mem_append]
    rcases List.mem_append.1 hp with hp | hp
    · exact Or.inl (h.waiting promise hp hn)
    · cases List.mem_singleton.1 hp
      exact Or.inr (by simp)
  case released =>
    intro other hm
    obtain ⟨promise, hp, hr, ho⟩ := h.released other hm
    exact ⟨promise, List.mem_append_left _ hp, hr, ho⟩

/-! ## Giving up and releasing -/

theorem abandon_of_waiting {pending : Pending} {index : Nat} {promise : Promise}
    (hp : pending.promises[index]? = some promise) (hn : promise.outcome = none) :
    (pending.abandon index).1 =
      { pending.settle index (.error .cancelled) with releases := pending.releases ++ [promise.request] } := by
  simp [abandon, hp, Promise.isSettled, hn]

theorem abandon_of_settled {pending : Pending} {index : Nat}
    (h : ∀ promise, pending.promises[index]? = some promise → promise.outcome ≠ none) :
    (pending.abandon index).1 = pending := by
  unfold abandon
  split
  · rfl
  · next promise hp =>
    have : promise.isSettled = true := Option.isSome_iff_ne_none.2 (h promise hp)
    rw [if_pos this]

/-- An outcome that a promise has stays as another promise is settled, or the same one once more. -/
theorem outcome?_settle (pending : Pending) (index other : Nat) (outcome : Outcome) {promise : Promise}
    (hp : pending.promises[other]? = some promise) :
    (pending.settle index outcome).outcome? other =
      if index = other then some (promise.outcome.getD outcome) else promise.outcome := by
  rw [outcome?, getElem?_settle, hp]
  split
  · exact Promise.settle_outcome promise outcome
  · rfl

/-- Where a waiter gives up, its promise is cancelled and its release is asked for; nothing else changes. -/
theorem Consistent.abandon {pending : Pending} (h : pending.Consistent) (index : Nat) :
    (pending.abandon index).1.Consistent := by
  by_cases hw : ∃ promise, pending.promises[index]? = some promise ∧ promise.outcome = none
  · obtain ⟨promise, hp, hn⟩ := hw
    rw [abandon_of_waiting hp hn]
    have hnew : (pending.settle index (.error .cancelled)).promises[index]? =
        some { promise with outcome := some (.error .cancelled) } := by
      rw [getElem?_settle, if_pos rfl, hp, Option.map_some, Promise.settle, Promise.isSettled, hn]
      rfl
    have hold : ∀ {other}, index ≠ other →
        (pending.settle index (.error .cancelled)).promises[other]? = pending.promises[other]? := by
      intro other hne
      rw [getElem?_settle, if_neg hne]
    constructor
    case requests =>
      exact (map_request_settle pending index _).symm ▸ h.requests
    case keys => exact h.keys
    case owner =>
      intro id entry hm
      obtain ⟨owned, ho, hr, hs⟩ := h.owner id entry hm
      by_cases he : index = entry.promise
      · rw [← he, hp] at ho
        cases ho
        exact ⟨{ promise with outcome := some (.error .cancelled) }, he ▸ hnew, hr, Or.inr ⟨rfl, by simp [hr]⟩⟩
      · exact ⟨owned, (hold he).trans ho, hr, hs.imp_right (And.imp_right (List.mem_append_left _))⟩
    case timed => exact h.timed
    case handles => exact h.handles
    case handed => exact h.handed
    case waiting =>
      intro other hm hnone
      obtain ⟨i, hi⟩ := List.mem_iff_getElem?.1 hm
      by_cases he : index = i
      · subst he
        rw [hnew] at hi
        cases hi
        cases hnone
      · exact h.waiting other (List.mem_of_getElem? ((hold he).symm.trans hi)) hnone
    case released =>
      intro id hm
      rcases List.mem_append.1 hm with hm | hm
      · obtain ⟨owned, ho, hr, hs⟩ := h.released id hm
        obtain ⟨i, hi⟩ := List.mem_iff_getElem?.1 ho
        have hne : index ≠ i := by
          rintro rfl
          rw [hp] at hi
          cases hi
          rw [hn] at hs
          cases hs
        exact ⟨owned, List.mem_of_getElem? ((hold hne).trans hi), hr, hs⟩
      · cases List.mem_singleton.1 hm
        exact ⟨_, List.mem_of_getElem? hnew, rfl, rfl⟩
  · rw [abandon_of_settled fun promise hp hn => hw ⟨promise, hp, hn⟩]
    exact h

theorem take_with_releases (pending : Pending) (releases : List RequestId) (id : RequestId) :
    ({ pending with releases }).take id = { pending.take id with releases } := by
  simp only [take]
  split <;> rfl

theorem release_cons {pending : Pending} {id : RequestId} {releases : List RequestId}
    (h : pending.releases = id :: releases) : pending.release = { pending.take id with releases } := by
  rw [release, h]
  exact take_with_releases pending releases id

/-- A release takes out the entry of a waiter that gave up, if it is still there, and nothing else. -/
theorem Consistent.release_leaves {pending : Pending} (h : pending.Consistent) {id : RequestId}
    {releases : List RequestId} (hr : pending.releases = id :: releases) :
    Leaves (fun other => decide (other ≠ id)) pending pending.release := by
  rw [release_cons hr]
  refine ⟨take_entries pending id, h.take_timers id, fun index promise hp _ => ?_⟩
  exact (congrArg (·[index]?) (take_promises pending id)).trans hp

theorem release_promises (pending : Pending) : pending.release.promises = pending.promises := by
  unfold release
  split
  · rfl
  · rw [take_promises]

theorem Consistent.release {pending : Pending} (h : pending.Consistent) : pending.release.Consistent := by
  cases hr : pending.releases with
  | nil => rw [Pending.release, hr]; exact h
  | cons id releases =>
    have hp := release_promises pending
    have hrel : pending.release.releases = releases := by rw [release_cons hr]
    have harmed : pending.release.armed = pending.armed := by rw [release_cons hr]; exact take_armed pending id
    have hcancelled := h.released id (hr ▸ List.mem_cons_self)
    refine h.of_leaves (h.release_leaves hr) (by rw [hp]) harmed ?_ ?_ fun _ => by rwa [hp]
    · intro promise hm hid hn
      rw [hp] at hm
      obtain ⟨owned, ho, hreq, hs⟩ := hcancelled
      rw [List.inj_on_of_nodup_map h.requests hm ho (hid.trans hreq.symm), hs] at hn
      cases hn
    · intro other hne
      rw [hrel, hr, List.mem_cons]
      simp [hne]

/-! ## Timers -/

/-- The entry that an armed timer belongs to. -/
theorem Consistent.entry_of_timer {pending : Pending} (h : pending.Consistent) {timer : RequestTimer}
    (ht : timer ∈ pending.timers) :
    ∃ entry, pending.entries.get? timer.request = some entry ∧ entry.timer = timer.handle := by
  have hm : (timer.request, timer.handle) ∈ pending.entries.map fun entry => (entry.1, entry.2.timer) := by
    rw [← h.timed]; exact List.mem_map_of_mem ht
  obtain ⟨⟨id, entry⟩, he, heq⟩ := List.mem_map.1 hm
  simp only [Prod.mk.injEq] at heq
  rw [heq.1] at he
  exact ⟨entry, Entries.get?_of_mem h.keys he, heq.2⟩

/-- A timer that fires ends its request; but for that only the clock moves. -/
theorem Consistent.expire_eq {pending : Pending} (h : pending.Consistent) {timer : RequestTimer}
    (ht : timer ∈ pending.timers) :
    ∃ entry, pending.entries.get? timer.request = some entry ∧
      (pending.expire timer).1 =
        { (pending.finish? timer.request (.error (.requestTimeout entry.method (.float timer.delay)))).getD pending with
          now := max pending.now (timer.due.getD pending.now) } := by
  obtain ⟨entry, he, hh⟩ := h.entry_of_timer ht
  refine ⟨entry, he, ?_⟩
  have hf : ∀ timers : List RequestTimer, (timers.filter fun other => other.handle != timer.handle).filter
      (fun other => other.handle != entry.timer) = timers.filter fun other => other.handle != entry.timer := by
    intro timers
    rw [hh, List.filter_filter]
    simp
  simp [expire, moveClock, he, finish?, take, settle, hf]

theorem Consistent.with_now {pending : Pending} (h : pending.Consistent) (now : Int) :
    ({ pending with now } : Pending).Consistent :=
  ⟨h.requests, h.keys, h.owner, h.timed, h.handles, h.handed, h.waiting, h.released⟩

theorem Consistent.expire {pending : Pending} (h : pending.Consistent) {timer : RequestTimer}
    (ht : timer ∈ pending.timers) : (pending.expire timer).1.Consistent := by
  obtain ⟨entry, -, he⟩ := h.expire_eq ht
  rw [he]
  exact (h.finish _ _).with_now _

/-- **A timer that fires leaves all other requests alone.** -/
theorem Consistent.expire_leaves {pending : Pending} (h : pending.Consistent) {timer : RequestTimer}
    (ht : timer ∈ pending.timers) :
    Leaves (fun other => decide (other ≠ timer.request)) pending (pending.expire timer).1 := by
  obtain ⟨entry, -, he⟩ := h.expire_eq ht
  have hl := h.finish_leaves timer.request (.error (.requestTimeout entry.method (.float timer.delay)))
  rw [he]
  exact ⟨hl.entries, hl.timers, hl.promises⟩

end LanguageSessions.Pending
