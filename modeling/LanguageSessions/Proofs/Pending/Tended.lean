import LanguageSessions.Proofs.Pending.Moves

/-!
# Requests are tended

An entry stays in the table no longer than its promise is without an outcome, unless its waiter gave up and its release
is still to be carried out. An armed timer belongs to an entry. And what ends a request is a result, or one of a few
faults (`Fault.endsRequest`). All of this is kept by whatever happens to the pending requests (`Tended`).
-/

namespace LanguageSessions

/-- Whether a request that was registered can end with a fault while its waiter waits for it. -/
def Fault.endsRequest : Fault → Bool
  | .requestTimeout .. | .protocol .. | .transport _ | .requestCancelled _ => true
  | _ => false

namespace Pending

/-- A request ends with an outcome that is not a cancellation of its waiter. -/
def IsReply (outcome : Outcome) : Prop := ∀ fault, outcome = .error fault → fault.endsRequest = true

theorem isReply_ok (result : Json) : IsReply (.ok result) := nofun

theorem isReply_error {fault : Fault} (h : fault.endsRequest = true) : IsReply (.error fault) := by
  rintro _ ⟨⟩
  exact h

theorem IsReply.ne_cancelled {outcome : Outcome} (h : IsReply outcome) : outcome ≠ .error .cancelled := by
  rintro rfl
  cases h _ rfl

/-- No two promises belong to one request, an entry is there only as long as it is waited for or to be released, and a
timer only as long as its entry is. -/
structure Tended (pending : Pending) : Prop where
  requests : (pending.promises.map (·.request)).Nodup
  given : ∀ promise ∈ pending.promises, ∃ number : Int, promise.request = .number number ∧ number ≤ pending.lastId
  settled : ∀ entry ∈ pending.entries, ∀ outcome, pending.outcome? entry.2.promise = some outcome →
    outcome = .error .cancelled ∧ entry.1 ∈ pending.releases
  timed : ∀ timer ∈ pending.timers, ∃ entry ∈ pending.entries, entry.1 = timer.request ∧ entry.2.timer = timer.handle
  ended : ∀ index fault, pending.outcome? index = some (.error fault) → fault.endsRequest = true ∨ fault = .cancelled

section Tending

variable {pending after : Pending}

theorem tended_empty (standardDelay : Binary64) : (Pending.empty standardDelay).Tended where
  requests := List.nodup_nil
  given _ hm := absurd hm List.not_mem_nil
  settled _ hm := absurd hm List.not_mem_nil
  timed _ hm := absurd hm List.not_mem_nil
  ended _ _ h := by
    obtain ⟨promise, hp, -⟩ := outcome?_eq_some_iff.1 h
    cases hp

/-- A request has one promise. -/
theorem Tended.index_eq (h : pending.Tended) {index other : Nat} {promise promise' : Promise}
    (hp : pending.promises[index]? = some promise) (hp' : pending.promises[other]? = some promise')
    (hr : promise.request = promise'.request) : index = other := by
  have hlt : index < (pending.promises.map (·.request)).length := by
    rw [List.length_map]
    exact (List.getElem?_eq_some_iff.1 hp).1
  refine (List.getElem?_inj hlt h.requests).1 ?_
  rw [List.getElem?_map, List.getElem?_map, hp, hp', Option.map_some, Option.map_some, hr]

/-- The table, the promises and the timers stay as they are. -/
theorem Tended.of_eq (h : pending.Tended) (he : after.entries = pending.entries)
    (hp : after.promises = pending.promises) (ht : ∀ timer ∈ after.timers, timer ∈ pending.timers)
    (hr : after.releases = pending.releases) (hl : pending.lastId ≤ after.lastId) : after.Tended where
  requests := hp ▸ h.requests
  given promise hm := by
    obtain ⟨number, hn, hle⟩ := h.given promise (hp ▸ hm)
    exact ⟨number, hn, Int.le_trans hle hl⟩
  settled entry hm outcome ho := by
    rw [outcome?, hp] at ho
    rw [hr]
    exact h.settled entry (he ▸ hm) outcome ho
  timed timer hm := by
    rw [he]
    exact h.timed timer (ht timer hm)
  ended index fault ho := by
    rw [outcome?, hp] at ho
    exact h.ended index fault ho

/-! ## Registering -/

theorem Tended.nextId (h : pending.Tended) : pending.nextId.1.Tended :=
  h.of_eq rfl rfl (fun _ hm => hm) rfl (Int.le_of_lt (Int.lt_succ _))

/-- The new request waits for its outcome, and its timer belongs to it. -/
theorem Tended.enter (h : pending.Tended) (n : pending.Numbered) (method : String) (delay : Option Binary64)
    (session : Option String) : (pending.nextId.1.enter pending.nextId.2 method delay session).Tended := by
  have hold : ∀ {index : Nat}, index < pending.promises.length →
      (pending.nextId.1.enter pending.nextId.2 method delay session).outcome? index = pending.outcome? index := by
    intro index hlt
    change ((pending.promises ++ [⟨pending.nextId.2, none⟩])[index]?).bind (·.outcome) = _
    rw [List.getElem?_append_left hlt]
    rfl
  have hnew : (pending.nextId.1.enter pending.nextId.2 method delay session).outcome? pending.promises.length = none := by
    change ((pending.promises ++ [⟨pending.nextId.2, none⟩])[pending.promises.length]?).bind (·.outcome) = none
    rw [List.getElem?_concat_length]
    rfl
  constructor
  case requests =>
    refine nodup_append_new h.requests fun promise hm heq => ?_
    obtain ⟨number, hn, hle⟩ := h.given promise hm
    have hid : number = pending.lastId + 1 := RequestId.number.inj (hn.symm.trans heq)
    omega
  case given =>
    intro promise hm
    rcases List.mem_append.1 hm with hm | hm
    · obtain ⟨number, hn, hle⟩ := h.given promise hm
      exact ⟨number, hn, Int.le_trans hle (Int.le_of_lt (Int.lt_succ _))⟩
    · rw [List.mem_singleton.1 hm]
      exact ⟨pending.lastId + 1, rfl, Int.le_refl _⟩
  case settled =>
    intro entry hm outcome ho
    rcases List.mem_append.1 hm with hm | hm
    · obtain ⟨promise, hp, -⟩ := n.owner _ _ hm
      rw [hold (List.getElem?_eq_some_iff.1 hp).1] at ho
      exact h.settled entry hm outcome ho
    · cases List.mem_singleton.1 hm
      cases hnew.symm.trans ho
  case timed =>
    intro timer hm
    rcases List.mem_append.1 hm with hm | hm
    · obtain ⟨entry, he, hrest⟩ := h.timed timer hm
      exact ⟨entry, List.mem_append_left _ he, hrest⟩
    · rw [List.mem_singleton.1 hm]
      exact ⟨_, List.mem_append_right _ (List.mem_singleton_self _), rfl, rfl⟩
  case ended =>
    intro index fault ho
    by_cases hlt : index < pending.promises.length
    · rw [hold hlt] at ho
      exact h.ended index fault ho
    · obtain ⟨promise, hp, -⟩ := outcome?_eq_some_iff.1 ho
      have hle := (List.getElem?_eq_some_iff.1 hp).1
      change index < (pending.promises ++ [_]).length at hle
      rw [List.length_append, List.length_singleton] at hle
      obtain rfl : index = pending.promises.length := by omega
      cases hnew.symm.trans ho

/-! ## Ending requests -/

/-- Where an entry is taken out its timer is too. -/
theorem Tended.take_timed (h : pending.Tended) (once : pending.entries.keys.Nodup) (id : RequestId) :
    ∀ timer ∈ (pending.take id).timers,
      ∃ entry ∈ (pending.take id).entries, entry.1 = timer.request ∧ entry.2.timer = timer.handle := by
  intro timer hm
  cases he : pending.entries.get? id with
  | none =>
    have hsame : pending.take id = pending := by rw [take, he]
    rw [hsame] at hm ⊢
    exact h.timed timer hm
  | some entry =>
    have htimers : (pending.take id).timers = pending.timers.filter fun timer => timer.handle != entry.timer := by
      rw [take, he]
    rw [htimers] at hm
    obtain ⟨hm, hother⟩ := List.mem_filter.1 hm
    obtain ⟨⟨key, owner⟩, hentry, hkey, hhandle⟩ := h.timed timer hm
    refine ⟨(key, owner), ?_, hkey, hhandle⟩
    rw [take_entries]
    refine List.mem_filter.2 ⟨hentry, decide_eq_true fun heq => ?_⟩
    subst heq
    cases he.symm.trans (Entries.get?_of_mem once hentry)
    exact bne_iff_ne.1 hother hhandle.symm

theorem Tended.take (h : pending.Tended) (once : pending.entries.keys.Nodup) (id : RequestId) :
    (pending.take id).Tended where
  requests := by
    rw [take_promises]
    exact h.requests
  given := by
    rw [take_promises, take_lastId]
    exact h.given
  settled entry hm outcome ho := by
    rw [outcome?, take_promises] at ho
    rw [take_releases]
    exact h.settled entry (mem_take_entries hm) outcome ho
  timed := h.take_timed once id
  ended index fault ho := by
    rw [outcome?, take_promises] at ho
    exact h.ended index fault ho

/-- An outcome behind the settling of a promise is the new one of that promise, or was there before. -/
theorem outcome?_of_settle_cases {index other : Nat} {outcome found : Outcome}
    (h : (pending.settle index outcome).outcome? other = some found) :
    pending.outcome? other = some found ∨ index = other ∧ found = outcome := by
  rw [outcome?, getElem?_settle] at h
  split at h
  · next heq =>
    obtain ⟨settled, hs, ho⟩ := Option.bind_eq_some_iff.1 h
    obtain ⟨promise, hp, rfl⟩ := Option.map_eq_some_iff.1 hs
    rw [Promise.settle_outcome, Option.some.injEq] at ho
    cases hb : promise.outcome with
    | none =>
      rw [hb, Option.getD_none] at ho
      exact Or.inr ⟨heq, ho.symm⟩
    | some before =>
      rw [hb, Option.getD_some] at ho
      exact Or.inl (outcome?_eq_some_iff.2 ⟨promise, hp, hb.trans (congrArg some ho)⟩)
  · exact Or.inl h

/-- A request ends: nothing in the table has its promise any more. -/
theorem Tended.finish (h : pending.Tended) (n : pending.Numbered) (once : pending.entries.keys.Nodup) {id : RequestId}
    {entry : PendingRequest} (he : pending.entries.get? id = some entry) {outcome : Outcome} (ho : IsReply outcome) :
    ((pending.take id).settle entry.promise outcome).Tended := by
  have htaken := h.take once id
  constructor
  case requests =>
    rw [map_request_settle]
    exact htaken.requests
  case given =>
    intro promise hm
    obtain ⟨index, hi⟩ := List.getElem?_of_mem hm
    obtain ⟨old, hold, hr⟩ := exists_promise_before (map_request_settle _ _ _) hi
    obtain ⟨number, hn, hle⟩ := htaken.given old (List.mem_of_getElem? hold)
    exact ⟨number, hr ▸ hn, hle⟩
  case settled =>
    intro other hm found hfound
    rcases outcome?_of_settle_cases hfound with hbefore | ⟨hindex, -⟩
    · exact htaken.settled other hm found hbefore
    · -- The promise belongs to the request that was taken out.
      change other ∈ (pending.take id).entries at hm
      rw [take_entries] at hm
      obtain ⟨hm, hne⟩ := List.mem_filter.1 hm
      obtain ⟨promise, hp, hr⟩ := n.owner _ _ hm
      obtain ⟨promise', hp', hr'⟩ := n.owner _ _ (Entries.mem_of_get? he)
      rw [hindex] at hp'
      cases hp.symm.trans hp'
      exact absurd (hr.symm.trans hr') (of_decide_eq_true hne)
  case timed => exact htaken.timed
  case ended =>
    intro index fault hfound
    rcases outcome?_of_settle_cases hfound with hbefore | ⟨-, heq⟩
    · exact htaken.ended index fault hbefore
    · exact Or.inl (ho fault heq.symm)

/-! ## Giving up, releasing and timers -/

/-- Whoever gives up asks for a release. -/
theorem Tended.abandon (h : pending.Tended) (n : pending.Numbered) (index : Nat) : (pending.abandon index).1.Tended := by
  unfold Pending.abandon
  split
  · exact h
  · next promise hp =>
    split
    · exact h
    · constructor
      case requests =>
        change ((pending.settle index _).promises.map _).Nodup
        rw [map_request_settle]
        exact h.requests
      case given =>
        intro other hm
        obtain ⟨position, hi⟩ := List.getElem?_of_mem hm
        obtain ⟨old, hold, hr⟩ := exists_promise_before (map_request_settle _ _ _) hi
        obtain ⟨number, hn, hle⟩ := h.given old (List.mem_of_getElem? hold)
        exact ⟨number, hr ▸ hn, hle⟩
      case settled =>
        intro entry hm found hfound
        rcases outcome?_of_settle_cases hfound with hbefore | ⟨hindex, heq⟩
        · obtain ⟨hc, hr⟩ := h.settled entry hm found hbefore
          exact ⟨hc, List.mem_append_left _ hr⟩
        · obtain ⟨owner, hw, hr⟩ := n.owner _ _ hm
          rw [← hindex] at hw
          cases hp.symm.trans hw
          exact ⟨heq, List.mem_append_right _ (List.mem_singleton.2 hr.symm)⟩
      case timed => exact h.timed
      case ended =>
        intro position fault hfound
        rcases outcome?_of_settle_cases hfound with hbefore | ⟨-, heq⟩
        · exact h.ended position fault hbefore
        · exact Or.inr (Except.error.inj heq)

/-- A release takes out the entry that it was asked for, and leaves the releases of all others. -/
theorem Tended.release (h : pending.Tended) (once : pending.entries.keys.Nodup) : pending.release.Tended := by
  unfold Pending.release
  split
  · exact h
  · next id releases hr =>
    have hpromises : ({ pending with releases }.take id).promises = pending.promises := take_promises _ id
    have hentries : ∀ entry ∈ ({ pending with releases }.take id).entries, entry ∈ pending.entries ∧ entry.1 ≠ id := by
      intro entry hm
      rw [take_entries] at hm
      obtain ⟨hm, hne⟩ := List.mem_filter.1 hm
      exact ⟨hm, of_decide_eq_true hne⟩
    constructor
    case requests =>
      rw [hpromises]
      exact h.requests
    case given =>
      rw [hpromises, take_lastId]
      exact h.given
    case settled =>
      intro entry hm outcome ho
      obtain ⟨hm, hne⟩ := hentries entry hm
      rw [outcome?, hpromises] at ho
      obtain ⟨hc, hrel⟩ := h.settled entry hm outcome ho
      rw [take_releases]
      rw [hr] at hrel
      exact ⟨hc, (List.mem_cons.1 hrel).resolve_left hne⟩
    case timed =>
      have hw : ∀ timer ∈ (pending.take id).timers, ∃ entry ∈ (pending.take id).entries,
          entry.1 = timer.request ∧ entry.2.timer = timer.handle := h.take_timed once id
      rw [take_with_releases]
      exact hw
    case ended =>
      intro index fault ho
      rw [outcome?, hpromises] at ho
      exact h.ended index fault ho

end Tending

end Pending

end LanguageSessions
