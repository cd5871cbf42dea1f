import LanguageSessions.Proofs.Engine.Tickets

/-!
# Whoever waits for an attempt hears of its end

A call that waits for an attempt stands among those who joined it while it runs, and hears of its end in a turn to come
when it has ended (`Told`). This holds when a call begins to wait (`enlisted_beginTask`), every turn keeps it
(`Told.moves`), and the turn in which the call hears of the end ends the call (`Hears.perform`).
-/

namespace LanguageSessions.Engine

open Client

variable {σ : Type} {engine later : Engine σ} {setup : Setup σ}

/-! ## Who is to hear of the end of an attempt -/

/-- A call that waits for an attempt is among those who joined it, and the attempt runs. -/
structure Enlisted (client : Client σ) (phase : JoinPhase) (attempt : Attempt) : Prop where
  found : client.attempts[phase.attempt]? = some attempt
  running : attempt.outcome = none
  joined : .caller phase.ticket ∈ attempt.joiners

/-- A call that waits for an attempt stands among those who joined it, or it hears of its end in a turn to come. -/
inductive Told (client : Client σ) (phase : JoinPhase) : Prop where
  | stands {attempt : Attempt} (found : client.attempts[phase.attempt]? = some attempt)
      (running : attempt.outcome = none) (joined : .caller phase.ticket ∈ attempt.joiners)
  | hears {attempt : Attempt} {outcome : Except Fault String} (found : client.attempts[phase.attempt]? = some attempt)
      (ended : attempt.outcome = some outcome)
      (turn : .joined phase.ticket ∈ client.queue ∨ .wake (.ticket phase.ticket) ∈ client.queue)

section Told

variable {client next : Client σ} {phase : JoinPhase}

theorem Enlisted.told {attempt : Attempt} (h : Enlisted client phase attempt) : Told client phase :=
  .stands h.found h.running h.joined

theorem Told.quiet (h : Told client phase) (hc : Quiet client next) : Told next phase := by
  cases h with
  | stands found running joined =>
    obtain ⟨attempt, ha, hj⟩ := hc.attempt _ _ found
    exact .stands ha (hj.outcome.trans running) (hj.joiners _ joined)
  | hears found ended turn =>
    obtain ⟨attempt, ha, hj⟩ := hc.attempt _ _ found
    exact .hears ha (hj.outcome.trans ended) (turn.imp hc.mem_queue hc.mem_queue)

theorem Told.launches (h : Told client phase) {key : String × String} (hl : Launches key client next) :
    Told next phase := by
  cases h with
  | stands found running joined => exact .stands (hl.attempt found) running joined
  | hears found ended turn =>
    have hmem : ∀ turn ∈ client.queue, turn ∈ next.queue := by
      intro turn hm
      rw [hl.queue]
      exact List.mem_append_left _ hm
    exact .hears (hl.attempt found) ended (turn.imp (hmem _) (hmem _))

/-- Who stands among those who joined an attempt hears of its end. -/
theorem Told.ended (h : Told client phase) {number : Nat} {joiners : List Joiner}
    (hj : ∀ attempt, client.attempts[number]? = some attempt → attempt.joiners = joiners)
    (outcome : Except Fault String) : Told (client.ended number outcome joiners) phase := by
  have hmem : ∀ turn ∈ client.queue, turn ∈ (client.ended number outcome joiners).queue :=
    fun turn hm => List.mem_append_left _ hm
  cases h with
  | stands found running joined =>
    by_cases hn : number = phase.attempt
    · subst hn
      rw [hj _ found] at joined
      refine .hears (by rw [getElem?_ended, if_pos rfl, found]; rfl) rfl (Or.inl ?_)
      exact List.mem_append_right _ (List.mem_cons_of_mem _ (List.mem_map_of_mem (f := hearing) joined))
    · exact .stands (by rw [getElem?_ended, if_neg hn, found]) running joined
  | hears found ended turn =>
    by_cases hn : number = phase.attempt
    · exact .hears (by rw [getElem?_ended, if_pos hn, found]; rfl) rfl (turn.imp (hmem _) (hmem _))
    · exact .hears (by rw [getElem?_ended, if_neg hn, found]) ended (turn.imp (hmem _) (hmem _))

/-- A turn leaves those who are to hear of the end of an attempt. -/
theorem Told.moves (h : Told client phase) (hm : Moves client next) : Told next phase := by
  cases hm with
  | quiet quiet => exact h.quiet quiet
  | launches launches => exact h.launches launches
  | ends quiet _ joined outcome => exact (h.quiet quiet).ended joined outcome
  | forget _ =>
    cases h with
    | stands found running joined => exact .stands found running joined
    | hears found ended turn => exact .hears found ended turn

end Told

/-! ## Starts that join an attempt -/

section Starts

variable {client : Client σ} {phases : Entries Nat AttemptPhase} {language root : String}

/-- The attempt that a start for a key joins: the one under way, or a new one. -/
def joining (client : Client σ) (key : String × String) : Nat := (client.starting.get? key).getD client.attempts.length

/-- Where no session of its key is ready, a start joins an attempt. -/
theorem startAt_eq_join (h : client.Booked phases)
    (hu : (client.sessions.find? language root).filter Session.isReady = none) :
    ∃ (next : Client σ) (attempt : Attempt),
      client.startAt language root = next.join (joining client (language, root)) ∧
      next.attempts[joining client (language, root)]? = some attempt := by
  unfold startAt joining
  rw [hu]
  cases hs : client.starting.get? (language, root) with
  | some number =>
    obtain ⟨attempt, ha, -⟩ := h.starting _ number hs
    exact ⟨_, attempt, rfl, ha⟩
  | none =>
    refine ⟨(client.launch language root).1, Attempt.new language root, rfl, ?_⟩
    exact List.getElem?_concat_length

/-- A start that waits is among those who joined its attempt. -/
theorem enlisted_startAt (h : client.Booked phases) {phase : JoinPhase}
    (hw : (client.startAt language root).2 = .waits phase) :
    ∃ attempt, Enlisted (client.startAt language root).1 phase attempt := by
  cases hu : (client.sessions.find? language root).filter Session.isReady with
  | some session =>
    rw [startAt, hu] at hw
    cases hw
  | none =>
    obtain ⟨next, attempt, heq, ha⟩ := startAt_eq_join h hu
    rw [heq] at hw ⊢
    cases ho : attempt.outcome with
    | some outcome =>
      rw [join_of_outcome ha ho] at hw
      cases hw
    | none =>
      obtain ⟨hjoin, hf⟩ := join_of_running ha ho
      cases hjoin.symm.trans hw
      exact ⟨_, hf, ho, List.mem_append_right _ (List.mem_singleton_self _)⟩

theorem enlisted_start (h : client.Booked phases) {phase : JoinPhase}
    (hw : (client.start setup language root).2 = .waits phase) :
    ∃ attempt, Enlisted (client.start setup language root).1 phase attempt := by
  unfold start at hw ⊢
  split at hw
  · cases hw
  · rw [if_neg ‹_›]
    exact enlisted_startAt (h.quiet client.same_listen.calm.toQuiet) hw

end Starts

/-! ## Calls that wait for an attempt -/

/-- A task waits for an attempt that it joined. -/
def Attends (engine : Engine σ) (number : Nat) (phase : JoinPhase) : Prop :=
  ∃ activity, engine.Waits number activity ∧ activity.join? = some phase

/-- **Every call that waits for an attempt is to hear of its end.** -/
def Heard (engine : Engine σ) : Prop := ∀ number phase, engine.Attends number phase → Told engine.client phase

section Attends

variable {number : Nat} {phase : JoinPhase}

theorem Attends.awaited (h : engine.Attends number phase) : engine.Awaited number phase.ticket := by
  obtain ⟨activity, waits, hj⟩ := h
  exact ⟨activity, waits, Activity.signal_of_join? hj⟩

/-- A task that begins to wait for an attempt is among those who joined it. -/
theorem enlisted_beginTask (hs : engine.Sound) (h : (engine.beginTask setup number).Attends number phase) :
    engine.Attends number phase ∨ ∃ attempt, Enlisted (engine.beginTask setup number).client phase attempt := by
  obtain ⟨activity, hw, hj⟩ := h
  unfold beginTask at hw ⊢
  split at hw
  · next operation cancelled ht =>
    have hstep := waits_afterTask hw
    cases cancelled with
    | true => cases hstep
    | false =>
      rw [if_neg Bool.false_ne_true] at hstep ⊢
      obtain ⟨first, language, root, hcalm, hclient, hstart⟩ := starts_beginOperation hstep hj
      have henlisted := enlisted_start (hs.toBooked.quiet hcalm.toQuiet) hstart
      rw [← hclient] at henlisted
      rcases hbegun : engine.client.beginOperation setup operation with ⟨next, progress⟩
      rw [hbegun] at hstep henlisted
      cases hstep
      exact Or.inr henlisted
  · exact Or.inl ⟨activity, hw, hj⟩

/-- A task that goes on waiting for an attempt has waited for it, and the attempt still runs. -/
theorem attends_resumeTask (h : (engine.resumeTask setup number).Attends number phase) :
    engine.Attends number phase ∧ (engine.client.attempts[phase.attempt]?.bind (·.outcome)) = none := by
  obtain ⟨activity, hw, hj⟩ := h
  unfold resumeTask at hw
  split at hw
  · next before cancelled ht =>
    obtain ⟨hbefore, unended⟩ := waits_resumeActivity (waits_afterTask hw) hj
    exact ⟨⟨before, ⟨cancelled, ht⟩, hbefore⟩, unended⟩
  · next hne =>
    obtain ⟨cancelled, ht⟩ := hw
    exact absurd ht (hne _ cancelled)

/-- The ticket that a task waits for wakes it, since no other task waits for it. -/
theorem perform_wake (htickets : engine.Tickets) (h : engine.Attends number phase) :
    engine.perform setup (.wake (.ticket phase.ticket)) = engine.resumeTask setup number := by
  obtain ⟨other, hf, hother⟩ := h.awaited.found
  rw [htickets.once number other _ h.awaited hother] at hf
  exact perform_wake_of_some engine setup hf

/-- In a turn a task begins to wait for an attempt where it begins, and only there. -/
theorem attends_perform {turn : Turn} (h : (engine.perform setup turn).Attends number phase) (hs : engine.Sound) :
    engine.Attends number phase ∨ ∃ attempt, Enlisted (engine.perform setup turn).client phase attempt := by
  rcases engine.task_perform setup turn number with hsame | ⟨-, heq⟩ | ⟨signal, -, -, heq⟩
  · obtain ⟨activity, ⟨cancelled, ht⟩, hj⟩ := h
    exact Or.inl ⟨activity, ⟨cancelled, hsame ▸ ht⟩, hj⟩
  · rw [heq] at h ⊢
    exact enlisted_beginTask hs h
  · rw [heq] at h
    exact Or.inl (attends_resumeTask h).1

end Attends

/-- With a turn in hand, a call that waits for an attempt is to hear of its end later on, or it hears of it now. -/
inductive Hears (client : Client σ) (phase : JoinPhase) (turn : Turn) : Prop where
  | later (told : Told client phase)
  | now {attempt : Attempt} {outcome : Except Fault String} (found : client.attempts[phase.attempt]? = some attempt)
      (ended : attempt.outcome = some outcome)
      (turn : turn = .joined phase.ticket ∨ turn = .wake (.ticket phase.ticket))

theorem Told.pop {client : Client σ} {phase : JoinPhase} (h : Told client phase) {turn : Turn} {queue : List Turn}
    (hq : client.queue = turn :: queue) : Hears { client with queue } phase turn := by
  cases h with
  | stands found running joined => exact .later (.stands found running joined)
  | hears found ended turns =>
    rw [hq, List.mem_cons, List.mem_cons] at turns
    rcases turns with (hnow | hm) | hnow | hm
    · exact .now found ended (Or.inl hnow.symm)
    · exact .later (.hears found ended (Or.inl hm))
    · exact .now found ended (Or.inr hnow.symm)
    · exact .later (.hears found ended (Or.inr hm))

/-- A call that hears of an end in a turn does not wait any more behind it, or it hears of it again. -/
theorem Hears.perform {turn : Turn} {number : Nat} {phase : JoinPhase} (h : Hears engine.client phase turn)
    (htickets : engine.Tickets) (hturned : Turned engine (engine.perform setup turn))
    (hb : engine.Attends number phase) (hw : (engine.perform setup turn).Attends number phase) :
    Told (engine.perform setup turn).client phase := by
  cases h with
  | later told => exact told.moves hturned.moves
  | now found ended hturn =>
    rcases hturn with rfl | rfl
    · exact .hears found ended (Or.inr (List.mem_append_right _ (List.mem_singleton_self _)))
    · rw [perform_wake htickets hb] at hw
      have ho := (attends_resumeTask hw).2
      rw [found] at ho
      exact nomatch ended.symm.trans ho

theorem heard_perform {turn : Turn} (h : ∀ number phase, engine.Attends number phase →
      Hears engine.client phase turn) (hs : engine.Sound) (htickets : engine.Tickets)
    (hturned : Turned engine (engine.perform setup turn)) : (engine.perform setup turn).Heard := by
  intro number phase hw
  by_cases hb : engine.Attends number phase
  · exact (h number phase hb).perform htickets hturned hb hw
  · obtain ⟨attempt, henlisted⟩ := (attends_perform hw hs).resolve_left hb
    exact henlisted.told

/-- **After a turn every call that waits for an attempt is still to hear of its end.** -/
theorem Heard.next (h : engine.Heard) (hs : engine.Sound) (htickets : engine.Tickets)
    (hlayer : setup.layer.StopsUncancelled) : (engine.next setup).Heard := by
  rcases next_cases engine setup with heq | ⟨turn, queue, hq, heq⟩
  · rw [heq]
    exact h
  · have hpopped : (engine.withQueue queue).Tickets := htickets.of_awaited (fun _ _ => id) (Nat.le_refl _)
    rw [heq]
    exact heard_perform (fun number phase hw => (h number phase hw).pop hq) (hs.pop hq) hpopped
      (turned_perform hs hlayer hq)

theorem Heard.after (h : engine.Heard) (hs : engine.Sound) (htickets : engine.Tickets)
    (hlayer : setup.layer.StopsUncancelled) {event : Event σ} (ha : engine.Allows event) :
    (engine.after setup event).Heard := by
  by_cases hne : event = .turn
  · subst hne
    exact h.next hs htickets hlayer
  · rintro number phase ⟨activity, hw, hj⟩
    exact (h number phase ⟨activity, waits_after ha hne hw, hj⟩).quiet (still_after setup ha hne).1.toQuiet

end LanguageSessions.Engine
