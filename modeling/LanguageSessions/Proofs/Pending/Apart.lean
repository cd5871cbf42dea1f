import LanguageSessions.Proofs.Pending.Tended

/-!
# Pending requests keep apart

No two pending requests share an identifier or a timer (`Apart`), since all of these are given out one after the other.
Whatever happens to the pending requests keeps it so, keeps them tended, puts nothing into the table under an identifier
that was given out before, and cancels no promise but those whose waiters give up (`Lasts`).

What is done to the requests of one session leaves the requests of all others alone: their entries, their promises and
their timers (`Spares`).
-/

namespace LanguageSessions.Pending

/-- No two pending requests share an identifier or a timer. -/
structure Apart (pending : Pending) : Prop extends pending.Numbered where
  once : pending.entries.keys.Nodup
  timed : (pending.entries.map fun entry => entry.2.timer).Nodup
  armed : ∀ entry ∈ pending.entries, entry.2.timer < pending.armed

/-- The promises are there still, for the same requests, and with the outcomes that they had. -/
def Retains (before after : Pending) : Prop :=
  ∀ (index : Nat) (promise : Promise), before.promises[index]? = some promise →
    ∃ later, after.promises[index]? = some later ∧ later.request = promise.request ∧
      (promise.outcome.isSome → later.outcome = promise.outcome)

/-- What lasts: the requests keep apart and are tended, identifiers and promises are given out anew, promises keep their
outcomes, and none is cancelled but those whose waiters quit. -/
structure Lasts (quits : Nat → Prop) (before after : Pending) : Prop where
  apart : before.Apart → after.Apart
  tended : before.Apart → before.Tended → after.Tended
  lastId : before.lastId ≤ after.lastId
  length : before.promises.length ≤ after.promises.length
  retains : before.Apart → before.Retains after
  fresh : ∀ entry ∈ after.entries,
    entry ∈ before.entries ∨ ∃ number : Int, entry.1 = .number number ∧ before.lastId < number
  uncancelled : ∀ index, ¬ quits index → after.outcome? index = some (.error .cancelled) →
    before.outcome? index = some (.error .cancelled)

/-- The pending requests of all sessions but one are as they were. -/
structure Spares (id : String) (before after : Pending) : Prop where
  entries : (after.entries.filter fun entry => entry.2.session != some id) =
    before.entries.filter fun entry => entry.2.session != some id
  promises : ∀ entry ∈ before.entries, entry.2.session ≠ some id →
    after.promises[entry.2.promise]? = before.promises[entry.2.promise]?
  timers : ∀ entry ∈ before.entries, entry.2.session ≠ some id → ∀ timer : RequestTimer,
    timer.handle = entry.2.timer → (timer ∈ after.timers ↔ timer ∈ before.timers)

section Relations

variable {quits more : Nat → Prop} {id : String} {first second third pending : Pending}

/-- The promises are as they were. -/
theorem retains_of_eq (hp : second.promises = first.promises) : first.Retains second :=
  fun _ promise found => ⟨promise, hp ▸ found, rfl, fun _ => rfl⟩

theorem Retains.trans (h : first.Retains second) (h' : second.Retains third) : first.Retains third := by
  intro index promise found
  obtain ⟨later, hlater, hrequest, houtcome⟩ := h index promise found
  obtain ⟨last, hlast, hrequest', houtcome'⟩ := h' index later hlater
  refine ⟨last, hlast, hrequest'.trans hrequest, fun hs => ?_⟩
  exact (houtcome' (houtcome hs ▸ hs)).trans (houtcome hs)

/-- A promise keeps its outcome. -/
theorem Retains.outcome? (h : first.Retains second) {index : Nat} {outcome : Outcome}
    (ho : first.outcome? index = some outcome) : second.outcome? index = some outcome := by
  obtain ⟨promise, hp, hs⟩ := outcome?_eq_some_iff.1 ho
  obtain ⟨later, hlater, -, hkept⟩ := h index promise hp
  refine outcome?_eq_some_iff.2 ⟨later, hlater, ?_⟩
  rw [hkept (hs ▸ rfl), hs]

theorem Lasts.refl (pending : Pending) : Lasts quits pending pending :=
  ⟨fun h => h, fun _ h => h, Int.le_refl _, Nat.le_refl _, fun _ => retains_of_eq rfl, fun _ hm => Or.inl hm,
    fun _ _ hc => hc⟩

theorem Lasts.trans (h : Lasts quits first second) (h' : Lasts quits second third) : Lasts quits first third where
  apart ha := h'.apart (h.apart ha)
  tended ha ht := h'.tended (h.apart ha) (h.tended ha ht)
  lastId := Int.le_trans h.lastId h'.lastId
  length := Nat.le_trans h.length h'.length
  retains ha := (h.retains ha).trans (h'.retains (h.apart ha))
  fresh entry hm := by
    rcases h'.fresh entry hm with hm | ⟨number, hn, hlt⟩
    · exact h.fresh entry hm
    · exact Or.inr ⟨number, hn, Int.lt_of_le_of_lt h.lastId hlt⟩
  uncancelled index hq hc := h.uncancelled index hq (h'.uncancelled index hq hc)

theorem Lasts.weaken (h : Lasts quits first second) (hq : ∀ index, quits index → more index) :
    Lasts more first second :=
  ⟨h.apart, h.tended, h.lastId, h.length, h.retains, h.fresh,
    fun index hn => h.uncancelled index fun hi => hn (hq index hi)⟩

theorem Spares.refl (id : String) (pending : Pending) : Spares id pending pending :=
  ⟨rfl, fun _ _ _ => rfl, fun _ _ _ _ _ => Iff.rfl⟩

/-- An entry of another session stays in the table. -/
theorem Spares.mem_entries (h : Spares id first second) {entry : RequestId × PendingRequest}
    (hm : entry ∈ first.entries) (ho : entry.2.session ≠ some id) : entry ∈ second.entries := by
  have hkept : entry ∈ second.entries.filter fun entry => entry.2.session != some id := by
    rw [h.entries]
    exact List.mem_filter.2 ⟨hm, bne_iff_ne.2 ho⟩
  exact List.mem_of_mem_filter hkept

theorem Spares.trans (h : Spares id first second) (h' : Spares id second third) : Spares id first third where
  entries := h'.entries.trans h.entries
  promises entry hm ho := (h'.promises entry (h.mem_entries hm ho) ho).trans (h.promises entry hm ho)
  timers entry hm ho timer ht :=
    (h'.timers entry (h.mem_entries hm ho) ho timer ht).trans (h.timers entry hm ho timer ht)

/-- The requests keep apart where entries are taken out. -/
theorem Apart.of_sublist (h : first.Apart) (hn : second.Numbered) (he : second.entries.Sublist first.entries)
    (ha : second.armed = first.armed) : second.Apart where
  toNumbered := hn
  once := (he.map _).nodup h.once
  timed := (he.map _).nodup h.timed
  armed entry hm := ha ▸ h.armed entry (he.subset hm)

/-- Nothing is registered. -/
theorem lasts_of_sublist (hn : first.Numbered → second.Numbered) (ht : first.Apart → first.Tended → second.Tended)
    (he : second.entries.Sublist first.entries) (ha : second.armed = first.armed) (hl : second.lastId = first.lastId)
    (hp : second.promises.length = first.promises.length) (hk : first.Apart → first.Retains second)
    (hu : ∀ index, ¬ quits index → second.outcome? index = some (.error .cancelled) →
      first.outcome? index = some (.error .cancelled)) : Lasts quits first second :=
  ⟨fun h => h.of_sublist (hn h.toNumbered) he ha, ht, Int.le_of_eq hl.symm, Nat.le_of_eq hp.symm, hk,
    fun _ hm => Or.inl (he.subset hm), hu⟩

/-- The clock moves on. -/
theorem lasts_of_eq (he : second.entries = first.entries) (hp : second.promises = first.promises)
    (ha : second.armed = first.armed) (hl : second.lastId = first.lastId) (ht : second.timers = first.timers)
    (hr : second.releases = first.releases) : Lasts quits first second := by
  refine lasts_of_sublist (fun h => ?_) (fun _ h => ?_) (he ▸ List.Sublist.refl _) ha hl (congrArg List.length hp)
    (fun _ => retains_of_eq hp) fun _ _ hc => ?_
  · exact h.of_entries (fun _ hm => he ▸ hm) hp (Int.le_of_eq hl.symm)
  · exact h.of_eq he hp (fun _ hm => ht ▸ hm) hr (Int.le_of_eq hl.symm)
  · rw [outcome?, hp] at hc
    exact hc

/-- An entry with an identifier that was given out before is one that was there. -/
theorem Lasts.get? (h : Lasts quits first second) (hf : first.Apart) {number : Int} (hle : number ≤ first.lastId)
    {entry : PendingRequest} (he : second.entries.get? (.number number) = some entry) :
    first.entries.get? (.number number) = some entry := by
  rcases h.fresh _ (Entries.mem_of_get? he) with hm | ⟨other, hn, hlt⟩
  · exact Entries.get?_of_mem hf.once hm
  · cases hn
    exact absurd hle (Int.not_le.2 hlt)

end Relations

/-! ## Each operation -/

section Operations

variable {quits : Nat → Prop} {id : String} {pending : Pending}

theorem apart_empty (standardDelay : Binary64) : (Pending.empty standardDelay).Apart :=
  ⟨numbered_empty standardDelay, List.nodup_nil, List.nodup_nil, nofun⟩

/-- A promise that is settled with something else is not cancelled. -/
theorem outcome?_of_settle {outcome : Outcome} (ho : outcome ≠ .error .cancelled) {index other : Nat}
    (hc : (pending.settle index outcome).outcome? other = some (.error .cancelled)) :
    pending.outcome? other = some (.error .cancelled) := by
  rw [outcome?, getElem?_settle] at hc
  split at hc
  · obtain ⟨settled, hs, hcancelled⟩ := Option.bind_eq_some_iff.1 hc
    obtain ⟨promise, hp, rfl⟩ := Option.map_eq_some_iff.1 hs
    rw [Promise.settle_outcome, Option.some.injEq] at hcancelled
    refine outcome?_eq_some_iff.2 ⟨promise, hp, ?_⟩
    cases hb : promise.outcome with
    | some before =>
      rw [hb, Option.getD_some] at hcancelled
      rw [hcancelled]
    | none =>
      rw [hb, Option.getD_none] at hcancelled
      exact absurd hcancelled ho
  · exact hc

/-! ### Registering -/

/-- What is registered is entered, at the next promise. -/
theorem eq_enter_of_register {request : RequestId} {method : String} {delay : Option Binary64}
    {session : Option String} {later : Pending} {promise : Nat}
    (h : pending.register request method delay session = .ok (later, promise)) :
    later = pending.enter request method delay session ∧ promise = pending.promises.length := by
  unfold register at h
  split at h
  · cases h
  · next hhas =>
    have hnone : pending.entries.get? request = none := by simpa [has, Entries.has] using hhas
    cases h
    refine ⟨?_, rfl⟩
    rw [enter, Entries.set_of_get?_none hnone]

theorem ne_cancelled_of_register {request : RequestId} {method : String} {delay : Option Binary64}
    {session : Option String} {fault : Fault} (h : pending.register request method delay session = .error fault) :
    fault ≠ .cancelled := by
  unfold register at h
  split at h <;> cases h
  exact nofun

theorem Apart.enter (h : pending.Apart) (method : String) (delay : Option Binary64) (session : Option String) :
    (pending.nextId.1.enter pending.nextId.2 method delay session).Apart where
  toNumbered :=
    have moves : Moves (fun _ _ => True) pending _ := h.toNumbered.enter method delay session
    moves.numbered
  once := by
    refine nodup_append_new h.once fun entry hm heq => ?_
    exact Entries.get?_eq_none_iff.1 h.get?_nextId (List.mem_map.2 ⟨entry, hm, heq⟩)
  timed := nodup_append_new h.timed fun entry hm => Nat.ne_of_lt (h.armed entry hm)
  armed entry hm := by
    rcases List.mem_append.1 hm with hm | hm
    · exact Nat.lt_succ_of_lt (h.armed entry hm)
    · cases List.mem_singleton.1 hm
      exact Nat.lt_succ_self _

theorem lasts_nextId (pending : Pending) : Lasts quits pending pending.nextId.1 where
  apart h := by
    refine h.of_sublist ?_ (List.Sublist.refl _) rfl
    exact h.toNumbered.of_entries (fun _ hm => hm) rfl (Int.le_of_lt (Int.lt_succ _))
  tended _ h := h.nextId
  lastId := Int.le_of_lt (Int.lt_succ _)
  length := Nat.le_refl _
  retains _ := retains_of_eq rfl
  fresh _ hm := Or.inl hm
  uncancelled _ _ hc := hc

theorem lasts_enter (pending : Pending) (method : String) (delay : Option Binary64) (session : Option String) :
    Lasts quits pending (pending.nextId.1.enter pending.nextId.2 method delay session) where
  apart h := h.enter method delay session
  tended ha h := h.enter ha.toNumbered method delay session
  lastId := Int.le_of_lt (Int.lt_succ _)
  length := by
    rw [enter, List.length_append]
    exact Nat.le_add_right _ _
  retains _ index promise hp :=
    ⟨promise, (List.getElem?_append_left (List.getElem?_eq_some_iff.1 hp).1).trans hp, rfl, fun _ => rfl⟩
  fresh entry hm := by
    rcases List.mem_append.1 hm with hm | hm
    · exact Or.inl hm
    · cases List.mem_singleton.1 hm
      exact Or.inr ⟨pending.lastId + 1, rfl, Int.lt_succ _⟩
  uncancelled index _ hc := by
    obtain ⟨promise, hp, ho⟩ := outcome?_eq_some_iff.1 hc
    change (pending.promises ++ [⟨pending.nextId.2, none⟩])[index]? = some promise at hp
    rw [List.getElem?_append] at hp
    split at hp
    · exact outcome?_eq_some_iff.2 ⟨promise, hp, ho⟩
    · -- The new promise has no outcome yet.
      rw [List.mem_singleton.1 (List.mem_of_getElem? hp)] at ho
      cases ho

theorem Apart.spares_enter (h : pending.Apart) (method : String) (delay : Option Binary64) :
    Spares id pending (pending.nextId.1.enter pending.nextId.2 method delay (some id)) where
  entries := by simp [Pending.enter, nextId]
  promises entry hm _ := by
    obtain ⟨promise, hp, -⟩ := h.owner _ _ hm
    exact List.getElem?_append_left (List.getElem?_eq_some_iff.1 hp).1
  timers entry hm _ timer ht := by
    have hlt := h.armed entry hm
    rw [Pending.enter, List.mem_append, List.mem_singleton]
    refine or_iff_left fun heq => ?_
    subst heq
    exact Nat.ne_of_lt hlt ht.symm

/-! ### Ending requests -/

/-- A request ends that is pending. -/
theorem lasts_takeAndSettle (pending : Pending) {request : RequestId} {entry : PendingRequest}
    (he : pending.entries.get? request = some entry) {outcome : Outcome} (ho : IsReply outcome) :
    Lasts quits pending ((pending.take request).settle entry.promise outcome) := by
  have hmoves : pending.Numbered →
      Moves (fun _ _ => True) (pending.take request) ((pending.take request).settle entry.promise outcome) :=
    fun h => (h.take request).moves_settle entry.promise outcome fun _ _ _ _ => trivial
  refine lasts_of_sublist (fun h => (hmoves h).numbered) (fun ha h => h.finish ha.toNumbered ha.once he ho) ?_
    (pending.take_armed request) (pending.take_lastId request) ?_ (fun ha => ?_) fun _ _ hc => ?_
  · change (pending.take request).entries.Sublist pending.entries
    rw [take_entries]
    exact List.filter_sublist
  · exact (List.length_modify ..).trans (congrArg List.length (pending.take_promises request))
  · exact (retains_of_eq (pending.take_promises request)).trans (hmoves ha.toNumbered).promise
  · have hbefore := outcome?_of_settle ho.ne_cancelled hc
    rw [outcome?, take_promises] at hbefore
    exact hbefore

theorem lasts_finish (pending : Pending) (request : RequestId) {outcome : Outcome} (ho : IsReply outcome) :
    Lasts quits pending ((pending.finish? request outcome).getD pending) := by
  unfold finish?
  cases he : pending.entries.get? request with
  | none => exact .refl pending
  | some entry => exact pending.lasts_takeAndSettle he ho

theorem lasts_finishAll {outcome : Outcome} (ho : IsReply outcome) (requests : List RequestId)
    (pending : Pending) : Lasts quits pending (finishAll outcome pending requests) := by
  induction requests generalizing pending with
  | nil => exact .refl pending
  | cons request requests ih => exact (pending.lasts_finish request ho).trans (ih _)

theorem lasts_cancelAll (pending : Pending) (reason : String) (session : Option String) :
    Lasts quits pending (pending.cancelAll reason session).1 := by
  rw [cancelAll_fst]
  exact lasts_finishAll (isReply_error rfl) _ pending

/-- A request ends that is one of a session, if it is pending. -/
theorem Apart.spares_finish (h : pending.Apart) (request : RequestId) (outcome : Outcome)
    (own : ∀ entry, pending.entries.get? request = some entry → entry.session = some id) :
    Spares id pending ((pending.finish? request outcome).getD pending) := by
  cases hf : pending.finish? request outcome with
  | none => exact .refl id pending
  | some after =>
    obtain ⟨ended, he, rfl⟩ := finish?_eq_some hf
    have hmem := Entries.mem_of_get? he
    have howner := own ended he
    have hother : ∀ entry ∈ pending.entries, entry.2.session ≠ some id → entry.1 ≠ request := by
      intro entry hm ho heq
      subst heq
      rw [Entries.get?_of_mem h.once hm] at he
      cases he
      exact ho howner
    rw [Option.getD_some]
    constructor
    case entries =>
      change ((pending.take request).entries.filter _) = _
      rw [take_entries, List.filter_filter]
      refine List.filter_congr fun entry hm => ?_
      by_cases ho : entry.2.session = some id
      · simp [ho]
      · simp [hother entry hm ho]
    case promises =>
      intro entry hm ho
      rw [getElem?_settle, take_promises, if_neg]
      -- A promise belongs to one request.
      intro hindex
      obtain ⟨promise, hp, hr⟩ := h.owner _ _ hm
      obtain ⟨promise', hp', hr'⟩ := h.owner _ _ hmem
      rw [hindex] at hp'
      cases hp.symm.trans hp'
      exact hother entry hm ho (hr.symm.trans hr')
    case timers =>
      intro entry hm ho timer ht
      change timer ∈ (pending.take request).timers ↔ _
      rw [take, he]
      refine List.mem_filter.trans (and_iff_left ?_)
      rw [bne_iff_ne, ht]
      intro heq
      have hsame := List.inj_on_of_nodup_map h.timed hm hmem heq
      exact hother entry hm ho (congrArg Prod.fst hsame)

theorem Apart.spares_finishAll (h : pending.Apart) {outcome : Outcome} (ho : IsReply outcome)
    (requests : List RequestId)
    (own : ∀ request ∈ requests, ∀ entry, pending.entries.get? request = some entry → entry.session = some id) :
    Spares id pending (finishAll outcome pending requests) := by
  induction requests generalizing pending with
  | nil => exact .refl id pending
  | cons request requests ih =>
    have hlasts : Lasts (fun _ => False) pending ((pending.finish? request outcome).getD pending) :=
      pending.lasts_finish request ho
    refine (h.spares_finish request outcome (own request List.mem_cons_self)).trans (ih (hlasts.apart h) ?_)
    intro other hm entry he
    rw [entries_finish] at he
    have hm' := (Entries.mem_erase.1 (Entries.mem_of_get? he)).1
    exact own other (List.mem_cons_of_mem _ hm) entry (Entries.get?_of_mem h.once hm')

/-- All requests of a session are cancelled, and no others. -/
theorem Apart.spares_cancelAll (h : pending.Apart) (reason : String) :
    Spares id pending (pending.cancelAll reason (some id)).1 := by
  rw [cancelAll_fst]
  refine h.spares_finishAll (isReply_error rfl) _ fun request hm entry he => ?_
  obtain ⟨⟨key, listed⟩, hlisted, rfl⟩ := List.mem_map.1 hm
  obtain ⟨hentry, howner⟩ := List.mem_filter.1 hlisted
  rw [Entries.get?_of_mem h.once hentry] at he
  cases he
  exact beq_iff_eq.1 howner

/-! ### Giving up, releasing and timers -/

/-- The waiter of one promise quits. -/
theorem lasts_abandon (pending : Pending) (index : Nat) : Lasts (· = index) pending (pending.abandon index).1 := by
  unfold abandon
  split
  · exact .refl pending
  · split
    · exact .refl pending
    · next promise hp hopen =>
      have hmoves : pending.Numbered → Moves (fun _ _ => True) pending (pending.settle index (.error .cancelled)) :=
        fun h => h.moves_settle index _ nofun
      refine lasts_of_sublist (fun h => ?_) (fun ha h => ?_) (List.Sublist.refl _) rfl rfl (List.length_modify ..)
        (fun ha => (hmoves ha.toNumbered).promise) fun other hq hc => ?_
      · exact ⟨(hmoves h).numbered.keys, (hmoves h).numbered.owner⟩
      · have habandoned := h.abandon ha.toNumbered index
        rw [Pending.abandon, hp] at habandoned
        dsimp only at habandoned
        rwa [if_neg hopen] at habandoned
      · change (pending.settle index (.error .cancelled)).outcome? other = _ at hc
        rw [outcome?, getElem?_settle, if_neg (Ne.symm hq)] at hc
        exact hc

theorem lasts_release (pending : Pending) : Lasts quits pending pending.release := by
  cases hr : pending.releases with
  | nil =>
    rw [release, hr]
    exact .refl pending
  | cons request releases =>
    have htended : pending.Apart → pending.Tended → pending.release.Tended := fun ha h => h.release ha.once
    rw [release, hr] at htended ⊢
    refine lasts_of_sublist (fun h => ?_) htended ?_ (take_armed _ request) (take_lastId _ request)
      (congrArg List.length (take_promises _ request)) (fun _ => retains_of_eq (take_promises _ request))
      fun index _ hc => ?_
    · have hrest : { pending with releases }.Numbered := ⟨h.keys, h.owner⟩
      exact hrest.take request
    · rw [take_entries]
      exact List.filter_sublist
    · rw [outcome?, take_promises] at hc
      exact hc

theorem lasts_moveClock (pending : Pending) (time : Option Int) : Lasts quits pending (pending.moveClock time) :=
  lasts_of_eq rfl rfl rfl rfl rfl rfl

theorem lasts_expire (pending : Pending) (timer : RequestTimer) : Lasts quits pending (pending.expire timer).1 := by
  unfold expire
  generalize hb : ({ pending.moveClock timer.due with
    timers := pending.timers.filter fun other => other.handle != timer.handle } : Pending) = before
  have hbefore : Lasts quits pending before := by
    subst hb
    refine lasts_of_sublist (fun h => ⟨h.keys, h.owner⟩) (fun _ h => ?_) (List.Sublist.refl _) rfl rfl rfl
      (fun _ => retains_of_eq rfl) fun _ _ hc => hc
    exact h.of_eq rfl rfl (fun _ hm => List.mem_of_mem_filter hm) rfl (Int.le_refl _)
  dsimp only
  split
  · exact hbefore
  · next entry he => exact hbefore.trans (before.lasts_takeAndSettle he (isReply_error rfl))

end Operations

end LanguageSessions.Pending
