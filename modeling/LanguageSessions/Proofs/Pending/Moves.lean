import LanguageSessions.Proofs.Entries.Totals
import LanguageSessions.Proofs.Pending.Operations

/-!
# How promises move

`Moves` is all that ever happens to the pending requests, as far as their promises are concerned: a promise stays with
its request, keeps the outcome that it has, and gets a result only if somebody answers its request. Every operation on
the pending requests moves them so. Along with it goes `Numbered`: the identifiers in the table are numbers that were
given out, and so the next number can always be registered (`Numbered.register_eq`).
-/

namespace LanguageSessions.Pending

/-- The identifiers in the table were given out, and each entry belongs to a promise of its request. -/
structure Numbered (pending : Pending) : Prop where
  keys : ∀ id ∈ pending.entries.keys, ∃ number : Int, id = .number number ∧ number ≤ pending.lastId
  owner : ∀ id entry, (id, entry) ∈ pending.entries →
    ∃ promise, pending.promises[entry.promise]? = some promise ∧ promise.request = id

/-- The promises before are there afterwards, for the same requests, and with the outcomes that they had. One gets a
result only if `answers` says so of its request. -/
structure Moves (answers : RequestId → Json → Prop) (before after : Pending) : Prop where
  numbered : after.Numbered
  promise : ∀ (index : Nat) (promise : Promise), before.promises[index]? = some promise →
    ∃ later, after.promises[index]? = some later ∧ later.request = promise.request ∧
      (promise.outcome.isSome → later.outcome = promise.outcome)
  answered : ∀ (index : Nat) (later : Promise) (result : Json), after.promises[index]? = some later →
    later.outcome = some (.ok result) → before.outcome? index = some (.ok result) ∨ answers later.request result

section Moves

variable {answers : RequestId → Json → Prop} {first second third pending : Pending}

theorem outcome?_eq_some_iff {index : Nat} {outcome : Outcome} :
    pending.outcome? index = some outcome ↔
      ∃ promise, pending.promises[index]? = some promise ∧ promise.outcome = some outcome :=
  Option.bind_eq_some_iff

theorem Moves.trans (h : Moves answers first second) (h' : Moves answers second third) :
    Moves answers first third where
  numbered := h'.numbered
  promise index promise hp := by
    obtain ⟨later, hl, hr, ho⟩ := h.promise index promise hp
    obtain ⟨last, hlast, hr', ho'⟩ := h'.promise index later hl
    refine ⟨last, hlast, hr'.trans hr, fun hs => ?_⟩
    have hlater := ho hs
    rw [← hlater]
    exact ho' (hlater ▸ hs)
  answered index last result hlast hresult := by
    rcases h'.answered index last result hlast hresult with hs | hs
    · obtain ⟨later, hl, ho⟩ := outcome?_eq_some_iff.1 hs
      obtain ⟨last', hlast', hr, -⟩ := h'.promise index later hl
      cases hlast.symm.trans hlast'
      rw [hr]
      exact h.answered index later result hl ho
    · exact Or.inr hs

/-- Nothing happens to the promises. -/
theorem moves_of_promises (hn : second.Numbered) (hp : second.promises = first.promises) :
    Moves answers first second where
  numbered := hn
  promise _ promise h := ⟨promise, hp ▸ h, rfl, fun _ => rfl⟩
  answered _ later _ hl ho := Or.inl (outcome?_eq_some_iff.2 ⟨later, hp ▸ hl, ho⟩)

theorem Moves.refl (h : pending.Numbered) : Moves answers pending pending := moves_of_promises h rfl

/-- Entries may be taken out, and more identifiers given out. -/
theorem Numbered.of_entries (h : first.Numbered) (he : ∀ entry ∈ second.entries, entry ∈ first.entries)
    (hp : second.promises = first.promises) (hl : first.lastId ≤ second.lastId) : second.Numbered where
  keys id hm := by
    obtain ⟨entry, hentry, rfl⟩ := List.mem_map.1 hm
    obtain ⟨number, hn, hle⟩ := h.keys entry.1 (List.mem_map_of_mem (he entry hentry))
    exact ⟨number, hn, Int.le_trans hle hl⟩
  owner id entry hm := by
    rw [hp]
    exact h.owner id entry (he _ hm)

end Moves

/-! ## Each operation -/

section Operations

variable {answers : RequestId → Json → Prop} {pending : Pending}

theorem numbered_empty (standardDelay : Binary64) : (Pending.empty standardDelay).Numbered :=
  ⟨nofun, nofun⟩

/-- The next number was not given out before. -/
theorem Numbered.get?_nextId (h : pending.Numbered) : pending.nextId.1.entries.get? pending.nextId.2 = none := by
  refine Entries.get?_eq_none_iff.2 fun hk => ?_
  obtain ⟨number, hn, hle⟩ := h.keys _ hk
  simp only [nextId, RequestId.number.injEq] at hn
  omega

/-- The next number can be registered. -/
theorem Numbered.register_eq (h : pending.Numbered) (method : String) (delay : Option Binary64)
    (session : Option String) :
    pending.nextId.1.register pending.nextId.2 method delay session =
      .ok (pending.nextId.1.enter pending.nextId.2 method delay session, pending.promises.length) := by
  have hg := h.get?_nextId
  have hh : pending.nextId.1.has pending.nextId.2 = false := by
    rw [has, Entries.has, hg]
    rfl
  rw [register, hh, if_neg Bool.false_ne_true]
  dsimp only
  rw [Entries.set_of_get?_none hg]
  rfl

/-- An identifier may be given out that nothing is registered under. -/
theorem Numbered.moves_nextId (h : pending.Numbered) : Moves answers pending pending.nextId.1 :=
  moves_of_promises (h.of_entries (fun _ hm => hm) rfl (Int.le_add_one (Int.le_refl _))) rfl

/-- The promise of a request that is registered is new. -/
theorem getElem?_enter (pending : Pending) (id : RequestId) (method : String) (delay : Option Binary64)
    (session : Option String) :
    (pending.enter id method delay session).promises[pending.promises.length]? = some ⟨id, none⟩ :=
  List.getElem?_concat_length

theorem Numbered.enter (h : pending.Numbered) (method : String) (delay : Option Binary64) (session : Option String) :
    Moves answers pending (pending.nextId.1.enter pending.nextId.2 method delay session) := by
  have hlt : ∀ {index : Nat} {promise : Promise}, pending.promises[index]? = some promise →
      (pending.nextId.1.enter pending.nextId.2 method delay session).promises[index]? = some promise := by
    intro index promise hp
    exact (List.getElem?_append_left (List.getElem?_eq_some_iff.1 hp).1).trans hp
  refine ⟨⟨fun id hm => ?_, fun id entry hm => ?_⟩, fun index promise hp => ⟨promise, hlt hp, rfl, fun _ => rfl⟩,
    fun index later result hl ho => ?_⟩
  · obtain ⟨entry, hentry, rfl⟩ := List.mem_map.1 hm
    rcases List.mem_append.1 hentry with hold | hnew
    · obtain ⟨number, hn, hle⟩ := h.keys entry.1 (List.mem_map_of_mem hold)
      refine ⟨number, hn, ?_⟩
      change number ≤ pending.lastId + 1
      omega
    · rw [List.mem_singleton.1 hnew]
      exact ⟨pending.lastId + 1, rfl, Int.le_refl _⟩
  · rcases List.mem_append.1 hm with hold | hnew
    · obtain ⟨promise, hp, hr⟩ := h.owner id entry hold
      exact ⟨promise, hlt hp, hr⟩
    · cases List.mem_singleton.1 hnew
      exact ⟨_, getElem?_enter _ _ _ _ _, rfl⟩
  · -- The new promise has no outcome yet.
    change (pending.promises ++ [⟨pending.nextId.2, none⟩])[index]? = some later at hl
    rw [List.getElem?_append] at hl
    split at hl
    · exact Or.inl (outcome?_eq_some_iff.2 ⟨later, hl, ho⟩)
    · rw [List.getElem?_singleton] at hl
      split at hl
      · cases hl
        cases ho
      · cases hl

/-- A promise takes an outcome unless it has one. -/
theorem Numbered.moves_settle (h : pending.Numbered) (index : Nat) (outcome : Outcome)
    (ha : ∀ promise result, pending.promises[index]? = some promise → outcome = .ok result →
      answers promise.request result) : Moves answers pending (pending.settle index outcome) := by
  have hsettle := fun other => pending.getElem?_settle index other outcome
  refine ⟨⟨h.keys, fun id entry hm => ?_⟩, fun other promise hp => ?_, fun other later result hl ho => ?_⟩
  · obtain ⟨promise, hp, hr⟩ := h.owner id entry hm
    rw [hsettle, hp]
    split
    · exact ⟨_, rfl, (Promise.settle_request _ _).trans hr⟩
    · exact ⟨promise, rfl, hr⟩
  · rw [hsettle, hp]
    split
    · refine ⟨_, rfl, Promise.settle_request _ _, fun hs => ?_⟩
      rw [Promise.settle_outcome]
      obtain ⟨before, hb⟩ := Option.isSome_iff_exists.1 hs
      rw [hb, Option.getD_some]
    · exact ⟨promise, rfl, rfl, fun _ => rfl⟩
  · rw [hsettle] at hl
    split at hl
    · next hi =>
      subst hi
      obtain ⟨promise, hp, rfl⟩ := Option.map_eq_some_iff.1 hl
      rw [Promise.settle_outcome, Option.some.injEq] at ho
      cases hb : promise.outcome with
      | some before =>
        rw [hb, Option.getD_some] at ho
        exact Or.inl (outcome?_eq_some_iff.2 ⟨promise, hp, by rw [hb, ho]⟩)
      | none =>
        rw [hb, Option.getD_none] at ho
        rw [Promise.settle_request]
        exact Or.inr (ha promise result hp ho)
    · exact Or.inl (outcome?_eq_some_iff.2 ⟨later, hl, ho⟩)

theorem mem_take_entries {id : RequestId} {entry : RequestId × PendingRequest}
    (h : entry ∈ (pending.take id).entries) : entry ∈ pending.entries := by
  rw [take_entries] at h
  exact List.mem_of_mem_filter h

@[simp] theorem take_lastId (pending : Pending) (id : RequestId) : (pending.take id).lastId = pending.lastId := by
  unfold take
  split <;> rfl

theorem Numbered.take (h : pending.Numbered) (id : RequestId) : (pending.take id).Numbered :=
  h.of_entries (fun _ => mem_take_entries) (pending.take_promises id) (Int.le_of_eq (pending.take_lastId id).symm)

/-- A request ends with an outcome; with a result only if somebody answers it. -/
theorem Numbered.moves_finish (h : pending.Numbered) (id : RequestId) (outcome : Outcome)
    (ha : ∀ result, outcome = .ok result → pending.has id = true → answers id result) :
    Moves answers pending ((pending.finish? id outcome).getD pending) := by
  unfold finish?
  cases he : pending.entries.get? id with
  | none => exact .refl h
  | some entry =>
    rw [Option.map_some, Option.getD_some]
    refine (moves_of_promises (h.take id) (pending.take_promises id)).trans ((h.take id).moves_settle _ _ ?_)
    intro promise result hp hresult
    obtain ⟨owner, ho, hr⟩ := h.owner id entry (Entries.mem_of_get? he)
    rw [take_promises, ho] at hp
    cases hp
    rw [hr]
    exact ha result hresult (by rw [has, Entries.has, he]; rfl)

theorem Numbered.moves_resolve (h : pending.Numbered) (id : RequestId) (result : Json)
    (ha : pending.has id = true → answers id result) : Moves answers pending (pending.resolve id result).1 := by
  rw [resolve_fst]
  refine h.moves_finish id _ fun other ho hid => ?_
  cases ho
  exact ha hid

theorem Numbered.moves_reject (h : pending.Numbered) (id : RequestId) (fault : Fault) :
    Moves answers pending (pending.reject id fault).1 := by
  rw [reject_fst]
  exact h.moves_finish id _ nofun

theorem Numbered.moves_finishAll (fault : Fault) (ids : List RequestId) {pending : Pending} (h : pending.Numbered) :
    Moves answers pending (finishAll (.error fault) pending ids) := by
  induction ids generalizing pending with
  | nil => exact .refl h
  | cons id ids ih =>
    have hm : Moves answers pending ((pending.finish? id (.error fault)).getD pending) := h.moves_finish id _ nofun
    exact hm.trans (ih hm.numbered)

theorem Numbered.moves_cancelAll (h : pending.Numbered) (reason : String) (session : Option String) :
    Moves answers pending (pending.cancelAll reason session).1 := by
  rw [cancelAll_fst]
  exact h.moves_finishAll _ _

theorem Numbered.moves_abandon (h : pending.Numbered) (index : Nat) :
    Moves answers pending (pending.abandon index).1 := by
  unfold abandon
  split
  · exact .refl h
  · split
    · exact .refl h
    · have hm : Moves answers pending (pending.settle index (.error .cancelled)) := h.moves_settle index _ nofun
      exact hm.trans (moves_of_promises ⟨hm.numbered.keys, hm.numbered.owner⟩ rfl)

theorem Numbered.moves_release (h : pending.Numbered) : Moves answers pending pending.release := by
  unfold release
  split
  · exact .refl h
  · next id releases _ =>
    have hn : { pending with releases }.Numbered := ⟨h.keys, h.owner⟩
    exact moves_of_promises (hn.take id) (take_promises _ id)

/-- A timer fires, whether or not it is armed. -/
theorem Numbered.moves_expire (h : pending.Numbered) (timer : RequestTimer) :
    Moves answers pending (pending.expire timer).1 := by
  unfold expire
  generalize hb : ({ pending.moveClock timer.due with
    timers := pending.timers.filter fun other => other.handle != timer.handle } : Pending) = before
  have hn : before.Numbered := by
    subst hb
    exact ⟨h.keys, h.owner⟩
  have hm : Moves answers pending before := moves_of_promises hn (by subst hb; rfl)
  dsimp only
  split
  · exact hm
  · next entry _ =>
    have ht : Moves answers before (before.take timer.request) := moves_of_promises (hn.take _) (take_promises _ _)
    exact (hm.trans ht).trans (ht.numbered.moves_settle entry.promise _ nofun)

theorem Numbered.moves_moveClock (h : pending.Numbered) (time : Option Int) :
    Moves answers pending (pending.moveClock time) := moves_of_promises ⟨h.keys, h.owner⟩ rfl

/-! ## What is left in the table -/

theorem entries_finish (pending : Pending) (id : RequestId) (outcome : Outcome) :
    ((pending.finish? id outcome).getD pending).entries = pending.entries.erase id := by
  unfold finish?
  cases he : pending.entries.get? id with
  | none => exact (Entries.erase_eq_self he).symm
  | some entry => simp [settle, Pending.take, he]

theorem entries_finishAll (outcome : Outcome) (ids : List RequestId) (pending : Pending) :
    (finishAll outcome pending ids).entries = pending.entries.filter fun entry => decide (entry.1 ∉ ids) := by
  induction ids generalizing pending with
  | nil => simp [finishAll]
  | cons id ids ih =>
    have hfinished := ih ((pending.finish? id outcome).getD pending)
    rw [entries_finish, Entries.erase_eq_filter, List.filter_filter] at hfinished
    refine hfinished.trans (List.filter_congr fun entry _ => ?_)
    simp [Bool.and_comm]

/-- Nothing is pending once all requests were cancelled. -/
theorem entries_cancelAll (pending : Pending) (reason : String) : (pending.cancelAll reason none).1.entries = [] := by
  rw [cancelAll_fst, entries_finishAll, List.filter_eq_nil_iff]
  intro entry hm
  simp only [decide_not, Bool.not_eq_true', decide_eq_false_iff_not, not_not]
  exact Entries.mem_keys_of_mem hm

/-- No request of a session is pending once those of the session were cancelled; the others are. -/
theorem mem_entries_cancelAll (pending : Pending) (reason session : String) (entry : RequestId × PendingRequest)
    (h : entry ∈ (pending.cancelAll reason (some session)).1.entries) :
    entry ∈ pending.entries ∧ entry.2.session ≠ some session := by
  rw [cancelAll_fst, entries_finishAll, List.mem_filter, decide_eq_true_iff] at h
  refine ⟨h.1, fun howner => h.2 ?_⟩
  refine List.mem_map_of_mem (f := Prod.fst) (List.mem_filter.2 ⟨h.1, ?_⟩)
  exact beq_iff_eq.2 howner

/-- A request that is registered is put into the table. -/
theorem entries_register {later : Pending} {id : RequestId} {method : String} {delay : Option Binary64}
    {session : Option String} {promise : Nat} (h : pending.register id method delay session = .ok (later, promise)) :
    ∃ timer, later.entries = pending.entries.set id ⟨method, session, promise, timer⟩ := by
  unfold register at h
  split at h
  · cases h
  · cases h
    exact ⟨_, rfl⟩

theorem mem_entries_release {entry : RequestId × PendingRequest} (h : entry ∈ pending.release.entries) :
    entry ∈ pending.entries := by
  unfold release at h
  split at h
  · exact h
  · next id releases _ =>
    have hm : entry ∈ { pending with releases }.entries := mem_take_entries h
    exact hm

theorem mem_entries_expire (timer : RequestTimer) {entry : RequestId × PendingRequest}
    (h : entry ∈ (pending.expire timer).1.entries) : entry ∈ pending.entries := by
  unfold expire at h
  generalize hb : ({ pending.moveClock timer.due with
    timers := pending.timers.filter fun other => other.handle != timer.handle } : Pending) = before at h
  have hm : entry ∈ before.entries := by
    dsimp only at h
    split at h
    · exact h
    · have htaken : entry ∈ (before.take _).entries := h
      exact mem_take_entries htaken
  subst hb
  exact hm

theorem entries_abandon (pending : Pending) (index : Nat) : (pending.abandon index).1.entries = pending.entries := by
  unfold abandon
  split
  · rfl
  · split <;> rfl

end Operations

end LanguageSessions.Pending
