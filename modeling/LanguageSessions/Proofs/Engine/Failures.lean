import LanguageSessions.Proofs.Client.Failures
import LanguageSessions.Proofs.Engine.Conduct
import LanguageSessions.Proofs.Engine.Owners
import LanguageSessions.Proofs.Engine.Routes
import LanguageSessions.Proofs.Engine.Statuses
import LanguageSessions.Proofs.Engine.Teardown

/-!
# How an attempt stands in the course of events

It is reported to an attempt in one of its own turns that its server was started (`Reported`). Nothing has come of the
attempt before. Behind that it stands with its session as its own turns have left it (`Fate`, `fate_course`), if nobody
disturbs it (`Undisturbed`): whoever acts meanwhile is in charge of other sessions (`Secluded.covers`), and no request of
this one becomes pending (`freeOf_goes`, `freeOf_goes_of_absent`).
-/

namespace LanguageSessions

/-- Somebody who is in charge of some sessions, writes some letters and brings any results, but has no process stopped
that belongs to no session. -/
def Role.minding (minds : Nat → Prop) (writes : Letter → Prop) : Role where
  greets := minds
  opens _ _ := True
  ends := minds
  aborts _ := False
  answers _ _ := True
  writes := writes

theorem Role.not_minds_minding {minds : Nat → Prop} {writes : Letter → Prop} {number : Nat} (h : ¬ minds number) :
    ¬ (Role.minding minds writes).Minds number := fun hm => hm.elim h h

section Happening

variable {warrant : Warrant} {before after : Scene} {id : String}

theorem Happens.waiting_calls (h : Happens warrant before after) (id : String) :
    ∃ calls, after.calls = before.calls ++ calls ∧ ∀ request entry, (request, entry) ∈ after.waiting →
      entry.session = some id → (request, entry) ∈ before.waiting ∨
        ∃ params, .send id (Message.request request.toJson entry.method params).print ∈ calls := by
  cases h with
  | changes changes => exact changes.waiting_calls id
  | concludes changes attains =>
    obtain ⟨calls, hcalls, hwaiting⟩ := changes.waiting_calls id
    exact ⟨calls, hcalls, hwaiting⟩
  | binds rebinds => exact ⟨[], (List.append_nil _).symm, fun _ _ hm _ => Or.inl hm⟩

theorem Happens.unregistered (h : Happens warrant before after) (absent : before.sessions.has id = false)
    (new : ∀ number session, after.sessions.session? number = some session → session.id = id →
      number < before.sessions.sessions.length) :
    ∀ request entry, (request, entry) ∈ after.waiting → entry.session = some id →
      (request, entry) ∈ before.waiting := by
  cases h with
  | changes changes => exact (changes.unregistered absent new).2
  | concludes changes attains => exact (Changes.unregistered changes absent new).2
  | binds rebinds => exact fun _ _ hm _ => hm

end Happening

namespace Engine

open Client

variable {σ : Type}

/-! ## Reports -/

/-- In an event an attempt has its turn, and the process layer reports that it has started a server. -/
structure Reports (engine : Engine (σ × List Exchange)) (event : Event σ) (setup : Setup σ) (number : Nat) (id : String) :
    Prop where
  tries : engine.Tries event number
  started : startedBy (engine.goes setup event).client.layer.2 = startedBy engine.client.layer.2 ++ [id]

/-- In the course of events the process layer reported to an attempt that it had started a server. -/
def Reported (setup : Setup σ) (first : Engine (σ × List Exchange)) (events : List (Event σ)) (number : Nat)
    (id : String) : Prop :=
  ∃ before event after, events = before ++ event :: after ∧ (course setup first before).Reports event setup number id

theorem Reported.append {setup : Setup σ} {first : Engine (σ × List Exchange)} {events : List (Event σ)} {number : Nat}
    {id : String} (h : Reported setup first events number id) (more : List (Event σ)) :
    Reported setup first (events ++ more) number id := by
  obtain ⟨before, event, after, rfl, reports⟩ := h
  exact ⟨before, event, after ++ more, by simp, reports⟩

theorem Reported.concat {setup : Setup σ} {first : Engine (σ × List Exchange)} {events : List (Event σ)} {number : Nat}
    {id : String} {event : Event σ} (h : Reported setup first (events ++ [event]) number id) :
    Reported setup first events number id ∨ (course setup first events).Reports event setup number id := by
  obtain ⟨before, other, after, heq, reports⟩ := h
  rcases concat_eq_append_cons heq with ⟨rfl, rfl⟩ | ⟨more, rfl⟩
  · exact Or.inr reports
  · exact Or.inl ⟨before, other, more, rfl, reports⟩

/-! ## The turns of an attempt -/

/-- An attempt has got so far. -/
inductive IsAt (engine : Engine σ) (number : Nat) : Progress AttemptPhase String → Prop where
  | waits {phase : AttemptPhase} (found : engine.attempts.get? number = some phase) : IsAt engine number (.waits phase)
  | ends {attempt : Attempt} {outcome : Except Fault String} (found : engine.client.attempts[number]? = some attempt)
      (ended : attempt.outcome = some outcome) : IsAt engine number (.ends outcome)

section Turns

variable {engine : Engine (σ × List Exchange)} {setup : Setup σ} {event : Event σ} {number : Nat}

/-- An attempt that has its turn has not ended. It begins, or it goes on from the phase that it was in. -/
theorem Tries.cases (h : engine.Tries event number) (hs : engine.Sound) (setup : Setup σ) :
    ∃ queue attempt step, engine.client.attempts[number]? = some attempt ∧ attempt.outcome = none ∧
      engine.goes setup event = (engine.withQueue queue).afterAttempt number attempt step ∧
      (engine.attempts.get? number = none ∧
          step = (engine.withQueue queue).client.attempt setup.recorded attempt.language attempt.root ∨
        ∃ phase, engine.attempts.get? number = some phase ∧ step =
          (engine.withQueue queue).client.resumeAttempt setup.recorded false attempt.language attempt.root phase) := by
  obtain ⟨rfl, ⟨queue, hq⟩ | ⟨signal, queue, phase, hq, hnone, hf⟩⟩ := h
  · obtain ⟨hp, key, attempt, found, -, unended⟩ := hs.toBooked.launched number (hq ▸ List.mem_cons_self)
    refine ⟨queue, attempt, _, found, unended, ?_, Or.inl ⟨hp, rfl⟩⟩
    change engine.next setup.recorded = _
    rw [next_of_turn hq, Engine.perform, Engine.beginAttempt,
      show (engine.withQueue queue).client.attempts[number]? = _ from found]
    dsimp only
    rw [hs.toBooked.uncancelled number attempt found]
    rfl
  · obtain ⟨phase, hp⟩ : ∃ phase, engine.attempts.get? number = some phase := by
      refine Option.ne_none_iff_exists'.1 fun hn => Entries.get?_eq_none_iff.1 hn ?_
      exact Entries.mem_keys_of_mem (List.mem_of_find?_eq_some hf)
    obtain ⟨key, attempt, found, -, unended⟩ := hs.toBooked.phased number phase hp
    refine ⟨queue, attempt, _, found, unended, ?_, Or.inr ⟨phase, hp, rfl⟩⟩
    change engine.next setup.recorded = _
    rw [next_of_turn hq, perform_wake_of_attempt (engine.withQueue queue) setup.recorded hnone hf,
      Engine.resumeAttempt, show (engine.withQueue queue).client.attempts[number]? = _ from found,
      show (engine.withQueue queue).attempts.get? number = _ from hp]
    dsimp only
    rw [hs.toBooked.uncancelled number attempt found]

/-- An attempt is there after an event, for the same key and with the outcome that it had. -/
theorem lasts_goes (hs : engine.Sound) (hlayer : setup.layer.StopsUncancelled)
    (allowed : engine.Allows (event.recorded engine.client.layer.2)) {attempt : Attempt}
    (found : engine.client.attempts[number]? = some attempt) :
    ∃ later, (engine.goes setup event).client.attempts[number]? = some later ∧ Lasts attempt later := by
  by_cases hne : event = .turn
  · subst hne
    change ∃ later, (engine.next setup.recorded).client.attempts[number]? = some later ∧ _
    rcases next_cases engine setup.recorded with heq | ⟨turn, queue, hq, heq⟩
    · rw [heq]
      exact ⟨attempt, found, .refl attempt⟩
    · rw [heq]
      exact (turned_perform hs (stopsUncancelled_recorded hlayer) hq).moves.lasts found
  · exact lasts_of_quiet (still_after setup.recorded allowed (Event.recorded_ne_turn hne _)).1.toQuiet found

section After

variable {queue : List Turn} {attempt : Attempt} {step : Client (σ × List Exchange) × Progress AttemptPhase String}

theorem tables_afterAttempt :
    ((engine.withQueue queue).afterAttempt number attempt step).client.tables = step.1.tables := by
  obtain ⟨client, phase | outcome⟩ := step <;> rfl

theorem calls_afterAttempt : Calls [] [] step.1 ((engine.withQueue queue).afterAttempt number attempt step).client := by
  obtain ⟨client, phase | outcome⟩ := step <;> exact calls_of_account rfl rfl rfl

/-- The attempt that has got on is where it has got to. -/
theorem isAt_afterAttempt {later : Attempt}
    (found : ((engine.withQueue queue).afterAttempt number attempt step).client.attempts[number]? = some later) :
    ((engine.withQueue queue).afterAttempt number attempt step).IsAt number step.2 := by
  obtain ⟨client, phase | outcome⟩ := step
  · refine .waits ?_
    change (engine.attempts.set number phase).get? number = _
    rw [Entries.get?_set, if_pos rfl]
  · refine .ends found ?_
    change (client.attempts.modify number _)[number]? = some later at found
    rw [List.getElem?_modify_eq] at found
    obtain ⟨before, -, rfl⟩ := Option.map_eq_some_iff.1 found
    rfl

end After

end Turns

/-- In an event nobody begins to end the session with an identifier. To stop one that is not registered does nothing. -/
def LeavesUnended (engine : Engine (σ × List Exchange)) (event : Event σ) (id : String) : Prop :=
  ∀ task operation, engine.Begins event task operation → operation.Ends engine.client.sessions id →
    operation = .stop id ∧ engine.client.sessions.has id = false

/-! ## Courses in which the client is not closed -/

section Open

variable {setup : Setup σ} {layer : σ} {settings : Settings} {events : List (Event σ)}

/-- The client is not being closed at any point of the course of events. -/
def StaysOpen (setup : Setup σ) (first : Engine (σ × List Exchange)) (events : List (Event σ)) : Prop :=
  ∀ before after, events = before ++ after → (course setup first before).client.isClosing = false

theorem StaysOpen.concat {first : Engine (σ × List Exchange)} {event : Event σ}
    (h : StaysOpen setup first (events ++ [event])) :
    StaysOpen setup first events ∧ (course setup first events).client.isClosing = false :=
  ⟨fun before after heq => h before (after ++ [event]) (by rw [heq, List.append_assoc]), h events [event] rfl⟩

/-- Whoever is in charge of all sessions covers all events where the client is not being closed. -/
theorem covers_all {engine : Engine (σ × List Exchange)} (event : Event σ) (letters : List Letter)
    (isOpen : engine.client.isClosing = false) :
    engine.Covers event letters (.minding (fun _ => True) (engine.Writes event)) where
  answers _ _ := trivial
  writes task operation _ begins hw := ⟨task, operation, begins, hw⟩
  begins _ _ _ := .of_all fun _ => trivial
  goesOn _ _ _ := ⟨.of_all fun _ => trivial, fun _ _ => trivial⟩
  begun _ _ := trivial
  opens _ _ := trivial
  tries _ _ _ _ _ _ := trivial
  aborts closing := absurd (closing.symm.trans isOpen) (by decide)

/-- **Only the processes of sessions are stopped that were started.** -/
theorem stopped_has_session (isOpen : StaysOpen setup (fresh layer settings) events) :
    ∀ id ∈ (course setup (fresh layer settings) events).client.stopped, ∃ number session,
      (course setup (fresh layer settings) events).client.sessions.session? number = some session ∧ session.id = id := by
  induction events using List.reverseRecOn with
  | nil => exact fun id hm => absurd hm List.not_mem_nil
  | append_singleton events event ih =>
    obtain ⟨isOpen, hopen⟩ := isOpen.concat
    obtain ⟨letters, lawful⟩ := lawful_course setup layer settings events
    obtain ⟨letters', conducts⟩ := conducts_goes lawful (covers_all event letters hopen) setup
    rw [course_concat]
    exact conducts.deeds.stopped_has_session lawful.coherent (fun _ => id) (ih isOpen)

/-- **A session that no operation was called to end is to be ended by none that waits.** -/
theorem unended_course (isOpen : StaysOpen setup (fresh layer settings) events) {id : String}
    (unended : ∀ before event after, events = before ++ event :: after →
      (course setup (fresh layer settings) before).LeavesUnended event id) :
    ∀ task activity, (course setup (fresh layer settings) events).Waits task activity → ¬ activity.Ends id := by
  induction events using List.reverseRecOn with
  | nil =>
    rintro task activity ⟨cancelled, found⟩
    cases found
  | append_singleton events event ih =>
    obtain ⟨isOpen, hopen⟩ := isOpen.concat
    obtain ⟨letters, lawful⟩ := lawful_course setup layer settings events
    obtain ⟨letters', conducts⟩ := conducts_goes lawful (covers_all event letters hopen) setup
    have hbefore := ih isOpen fun before other after heq => unended before other (after ++ [event]) (by rw [heq]; simp)
    rw [course_concat]
    intro task activity waits he
    rcases conducts.waits task activity waits with old | ⟨⟨operation, begins, hends⟩ | ⟨earlier, goesOn, hends⟩, -⟩
    · exact hbefore task activity old he
    · -- A stop ends its session in its first turn, and so it is none of these.
      obtain ⟨rfl, -⟩ := unended events event [] rfl task operation begins (hends id he).ends
      exact hends id he
    · exact hbefore task earlier goesOn.2.2 (hends id he)

end Open

/-! ## Sessions that only one attempt is at work on -/

/-- Only one attempt is at work on the session with a number, and no stop is. -/
structure Secluded (number session : Nat) (engine : Engine σ) : Prop where
  attempts : ∀ n phase, engine.attempts.get? n = some phase → phase.session? = some session → n = number
  stops : ∀ task phase, engine.Stops task phase → phase.session ≠ session

section Secluded

variable {opens : String → Bool} {called : Operation → Prop} {answers : RequestId → Json → Prop} {letters : List Letter}
  {engine : Engine (σ × List Exchange)} {setup : Setup σ} {event : Event σ} {number times n : Nat} {session current : Session}
  {progress : Progress AttemptPhase String}

/-- Nobody is at work on a session that is not there yet. -/
theorem Lawful.secluded (h : Lawful opens called answers letters engine) :
    Secluded number engine.client.sessions.sessions.length engine where
  attempts n phase found hphase := absurd ((h.attempting n phase found).lt_length hphase) (Nat.lt_irrefl _)
  stops task phase stops heq := by
    obtain ⟨session, found, -⟩ := (h.parting task phase stops).1
    have hlt : phase.session < engine.client.sessions.sessions.length := SessionRegistry.lt_length found
    exact absurd (heq ▸ hlt) (Nat.lt_irrefl _)

/-- In a turn of its own an attempt disturbs no secluded one. -/
theorem Secluded.tries (h : Secluded number n engine) (tries : engine.Tries event number) (hs : engine.Sound)
    (setup : Setup σ) : Secluded number n (engine.goes setup event) := by
  obtain ⟨queue, attempt, step, -, -, hgoes, -⟩ := tries.cases hs setup
  rw [hgoes]
  refine ⟨fun m phase found hphase => ?_, fun task phase stops => ?_⟩
  · by_contra hm
    rw [get?_afterAttempt_of_ne hm] at found
    exact hm (h.attempts m phase found hphase)
  · refine h.stops task phase ?_
    unfold Stops at stops ⊢
    rw [tasks_afterAttempt] at stops
    exact stops

/-- Whoever acts while the attempt of a session does not is in charge of other sessions only. -/
theorem Secluded.covers (h : Secluded number n engine) (idle : ¬ engine.Tries event number) (letters : List Letter)
    (isOpen : engine.client.isClosing = false) (found : engine.client.sessions.session? n = some current)
    (gone : engine.client.sessions.has current.id = false → current.stage.isEnding = true)
    (unended : engine.LeavesUnended event current.id)
    (waits : ∀ task activity, engine.Waits task activity → ¬ activity.Ends current.id) :
    engine.Covers event letters (.minding (· ≠ n) (engine.Writes event)) where
  answers _ _ := trivial
  writes task operation _ begins hw := ⟨task, operation, begins, hw⟩
  begins task operation hb := by
    by_cases hends : operation.Ends engine.client.sessions current.id
    · -- The session has been ended before, and so nobody ends it any more.
      have hending := gone (unended task operation hb hends).2
      refine .of_live fun m hlive => ?_
      rintro rfl
      exact hlive ⟨current, found, hending⟩
    · exact .of_others found hends fun _ => id
  goesOn task activity hg := by
    refine ⟨.of_others found (waits task activity hg.2.2) fun _ => id, fun phase hphase => ?_⟩
    obtain ⟨cancelled, hwaits⟩ := hg.2.2
    exact h.stops task phase ⟨_, activity, hwaits, rfl, hphase⟩
  begun m hle := Nat.ne_of_gt (Nat.lt_of_lt_of_le (SessionRegistry.lt_length found) hle)
  opens _ _ := trivial
  tries m phase other tries hphase hother := by
    rintro rfl
    exact idle (h.attempts m phase hphase hother ▸ tries)
  aborts closing := absurd (closing.symm.trans isOpen) (by decide)

theorem Secluded.conducts (h : Secluded number n engine) {letters' : List Letter}
    (conducts : Conducts (.minding (· ≠ n) (engine.Writes event)) letters letters' event engine
      (engine.goes setup event)) :
    Secluded number n (engine.goes setup event) where
  attempts m phase found hphase := by
    by_cases tries : engine.Tries event m
    · exact absurd rfl (conducts.greets m phase n tries found hphase)
    · rw [conducts.attempts m tries] at found
      exact h.attempts m phase found hphase
  stops task phase stops := by
    obtain ⟨⟨state, cancelled⟩, activity, found, rfl, hstop⟩ := stops
    rcases conducts.waits task activity ⟨cancelled, found⟩ with ⟨before, old⟩ | ⟨-, hends⟩
    · exact h.stops task phase ⟨_, activity, old, rfl, hstop⟩
    · exact hends phase hstop

end Secluded

/-! ## Sessions that nobody asks -/

/-- In an event nobody begins to make a request of the session with an identifier, if it is registered. -/
def LeavesUnasked (engine : Engine (σ × List Exchange)) (event : Event σ) (setup : Setup σ) (id : String) : Prop :=
  engine.client.sessions.has id = true →
    ∀ task operation, engine.Begins event task operation → engine.client.asked? setup operation ≠ some id

section Unasked

variable {engine : Engine (σ × List Exchange)} {setup : Setup σ} {event : Event σ} {n : Nat} {current : Session}
  {id : String}

theorem freeOf_of_asks {task : Nat} {operation : Operation} (begins : engine.Begins event task operation)
    (asks : operation.asks = true) (ha : engine.client.pending.Apart)
    (unasked : engine.client.asked? setup operation ≠ some id) (free : engine.client.pending.FreeOf id) :
    (engine.goes setup event).client.pending.FreeOf id := by
  obtain ⟨queue, hgoes⟩ := goes_of_begins setup begins
  have hpending : ∀ step : Client (σ × List Exchange) × Progress Activity Answer,
      ((engine.withQueue queue).afterTask task step).client.pending = step.1.pending := by
    rintro ⟨client, activity | outcome⟩ <;> rfl
  rw [hgoes, hpending]
  have hapart : (engine.withQueue queue).client.pending.Apart := ha
  have hunasked : (engine.withQueue queue).client.asked? setup operation ≠ some id := unasked
  exact freeOf_beginOperation hapart asks hunasked free

/-- **No request becomes pending of a session that is being set up**, if nobody asks it and nobody acts who is in charge
of it. -/
theorem freeOf_goes {letters letters' scenery : List Letter} (composed : Composed scenery engine)
    (coherent : (engine.client.account letters).Coherent)
    (shown : engine.client.sessions.Distinct → (engine.client.account letters).Shown)
    (deeds : Deeds (.minding (· ≠ n) (engine.Writes event)) (engine.client.account letters)
      ((engine.goes setup event).client.account letters'))
    (distinct : (engine.goes setup event).client.sessions.Distinct) (ha : engine.client.pending.Apart)
    (found : engine.client.sessions.session? n = some current) (begins : current.stage = .initializing)
    (registered : engine.client.sessions.has current.id = true)
    (unasked : engine.LeavesUnasked event setup current.id) (free : engine.client.pending.FreeOf current.id) :
    (engine.goes setup event).client.pending.FreeOf current.id := by
  by_cases hasks : ∃ task operation, engine.Begins event task operation ∧ operation.asks = true
  · obtain ⟨task, operation, hbegins, asks⟩ := hasks
    exact freeOf_of_asks hbegins asks ha (unasked registered task operation hbegins) free
  · obtain ⟨scenery', happens, -⟩ := composed.goes coherent.named setup (permits_latitude engine event setup)
    obtain ⟨calls, hcalls, hwaiting⟩ := happens.waiting_calls current.id
    obtain ⟨calls', hcalls', hspoke⟩ := deeds.unasked coherent shown distinct found begins
      (Role.not_minds_minding (not_not_intro rfl)) id
    cases List.append_cancel_left (hcalls.symm.trans hcalls')
    rintro ⟨request, entry⟩ hm howner
    rcases hwaiting request entry hm howner with hold | ⟨params, hsent⟩
    · exact free _ hold howner
    · rcases hspoke _ hsent with ⟨_, _, _, _, _, task, operation, hbegins, hwrites⟩ | ⟨method, params', heq⟩
      · exact hasks ⟨task, operation, hbegins, hwrites.asks⟩
      · exact Message.print_request_ne_notice _ _ _ _ _ heq

/-- **No request becomes pending of a session that is not registered any more.** -/
theorem freeOf_goes_of_absent {scenery : List Letter} (composed : Composed scenery engine)
    (named : engine.client.sessions.Named) (distinct : (engine.goes setup event).client.sessions.Distinct)
    (passes : engine.client.sessions.Advances (engine.goes setup event).client.sessions)
    (found : engine.client.sessions.session? n = some current) (absent : engine.client.sessions.number? current.id = none)
    (free : engine.client.pending.FreeOf current.id) : (engine.goes setup event).client.pending.FreeOf current.id := by
  obtain ⟨scenery', happens, -⟩ := composed.goes named setup (permits_latitude engine event setup)
  have hhas : engine.client.sessions.has current.id = false := by
    rw [SessionRegistry.has_eq_isSome, absent]
    rfl
  rintro ⟨request, entry⟩ hm howner
  refine free (request, entry) (happens.unregistered hhas (fun m other hother hid => ?_) request entry hm howner) howner
  -- Only the session itself has its identifier.
  obtain ⟨later, hlater, advances⟩ := passes n current found
  cases distinct m n other later hother hlater (hid.trans advances.id.symm)
  exact SessionRegistry.lt_length found

end Unasked

/-! ## Attempts that nobody disturbs -/

/-- Nobody disturbs an attempt in the course of events: the client is not closed, the process layer gives each session an
identifier of its own, and nobody is called to stop the session whose server was started for the attempt, or to ask it. A
task that waits for several starts closes the client, and so there is none that could be cancelled. -/
structure Undisturbed (setup : Setup σ) (first : Engine (σ × List Exchange)) (events : List (Event σ)) (number : Nat) :
    Prop where
  permitted : Permitted setup first events
  staysOpen : StaysOpen setup first events
  distinct : (course setup first events).client.sessions.Distinct
  unended : ∀ id, Reported setup first events number id → ∀ before event after, events = before ++ event :: after →
    (course setup first before).LeavesUnended event id
  unasked : ∀ id, Reported setup first events number id → ∀ before event after, events = before ++ event :: after →
    (course setup first before).LeavesUnasked event setup id

/-- The server of an attempt was started, and how the attempt stands now with its session. -/
structure Founded (number n : Nat) (session : Session) (progress : Progress AttemptPhase String)
    (engine : Engine (σ × List Exchange)) : Prop where
  isAt : engine.IsAt number progress
  stands : Stands n session 0 engine.client progress
  secluded : Secluded number n engine

/-- How it is with an attempt in the course of events: its server was not started yet, or it was, for one session. -/
inductive Fate (setup : Setup σ) (first : Engine (σ × List Exchange)) (events : List (Event σ)) (number : Nat) : Prop where
  | unfounded (silent : ∀ id, ¬ Reported setup first events number id)
      (phase : ∀ phase, (course setup first events).attempts.get? number = some phase → phase.session? = none) :
      Fate setup first events number
  | founded {n : Nat} {session : Session} {progress : Progress AttemptPhase String}
      (reported : ∀ id, Reported setup first events number id ↔ id = session.id)
      (attempt : ∃ attempt, (course setup first events).client.attempts[number]? = some attempt ∧
        session.language = attempt.language ∧ session.root = attempt.root)
      (born : ∀ before after, events = before ++ after → (∀ id, ¬ Reported setup first before number id) →
        (course setup first before).client.sessions.sessions.length ≤ n)
      (founded : Founded number n session progress (course setup first events)) : Fate setup first events number

/-! ### In its own turns -/

section Own

variable {engine : Engine (σ × List Exchange)} {setup : Setup σ} {event : Event σ} {number times n : Nat}
  {session current : Session} {progress : Progress AttemptPhase String}

/-- An attempt whose server was not started yet has its turn. -/
theorem goes_of_tries (hs : engine.Sound) (hstops : setup.layer.StopsUncancelled)
    (allowed : engine.Allows (event.recorded engine.client.layer.2)) (isOpen : engine.client.isClosing = false)
    (ha : engine.client.pending.Apart) (tries : engine.Tries event number)
    (unfounded : ∀ phase, engine.attempts.get? number = some phase → phase.session? = none) :
    ∃ attempt progress, engine.client.attempts[number]? = some attempt ∧ (engine.goes setup event).IsAt number progress ∧
      Goes attempt.language attempt.root engine.client ((engine.goes setup event).client, progress) := by
  obtain ⟨queue, attempt, step, found, -, hgoes, hstep⟩ := tries.cases hs setup
  obtain ⟨later, hlater, -⟩ := lasts_goes hs hstops allowed found
  have hapart : (engine.withQueue queue).client.pending.Apart := ha
  have hopen : (engine.withQueue queue).client.isClosing = false := isOpen
  have hsteps : Goes attempt.language attempt.root (engine.withQueue queue).client step := by
    rcases hstep with ⟨-, rfl⟩ | ⟨phase, hphase, rfl⟩
    · exact goes_attempt hstops hapart hopen _ _
    · exact goes_resumeAttempt hstops hapart hopen false _ _ (unfounded phase hphase)
  have hcalls : Calls [] [] engine.client (engine.withQueue queue).client := calls_of_account rfl rfl rfl
  have htables : (engine.withQueue queue).client.tables = engine.client.tables := rfl
  rw [hgoes] at hlater ⊢
  refine ⟨attempt, step.2, found, isAt_afterAttempt hlater, ?_⟩
  exact (hsteps.after htables hcalls).extend tables_afterAttempt calls_afterAttempt

/-- An attempt whose server was started has its turn. -/
theorem fares_of_tries (hs : engine.Sound) (hstops : setup.layer.StopsUncancelled)
    (allowed : engine.Allows (event.recorded engine.client.layer.2)) (tries : engine.Tries event number)
    (founded : Founded number n session progress engine) (found : engine.client.sessions.session? n = some current)
    (hosts : engine.client.tables.Hosts n current) :
    ∃ later, (engine.goes setup event).IsAt number later ∧
      Fares n session 0 engine.client ((engine.goes setup event).client, later) := by
  obtain ⟨queue, attempt, step, hattempt, unended, hgoes, hstep⟩ := tries.cases hs setup
  obtain ⟨later, hlater, -⟩ := lasts_goes hs hstops allowed hattempt
  obtain ⟨advances, hstands⟩ := founded.stands.current found
  have hfound : (engine.withQueue queue).client.sessions.session? n = some current := found
  have hthere : (engine.withQueue queue).client.tables.Hosts n current := hosts
  have hsteps : Fares n current 0 (engine.withQueue queue).client step := by
    cases founded.isAt with
    | ends hf ho =>
      cases hattempt.symm.trans hf
      exact nomatch unended.symm.trans ho
    | waits hf =>
      rcases hstep with ⟨hnone, -⟩ | ⟨phase, hphase, rfl⟩
      · exact nomatch hnone.symm.trans hf
      · cases hf.symm.trans hphase
        exact fares_resumeAttempt hstops false _ _ hfound hthere rfl (hstands.of_tables rfl rfl)
  have hcalls : Calls [] [] engine.client (engine.withQueue queue).client := calls_of_account rfl rfl rfl
  have hspares : engine.client.tables.Spares session.id (engine.withQueue queue).client.tables := .refl _ _
  rw [hgoes] at hlater ⊢
  refine ⟨step.2, isAt_afterAttempt hlater, ?_⟩
  exact ((hsteps.of_advances advances).after hspares (fun _ hm => absurd hm List.not_mem_nil) hcalls).extend
    tables_afterAttempt calls_afterAttempt

/-- Where it does not have its turn an attempt is where it was. -/
theorem IsAt.lasts (h : engine.IsAt number progress) (hs : engine.Sound) (hstops : setup.layer.StopsUncancelled)
    (allowed : engine.Allows (event.recorded engine.client.layer.2))
    (same : (engine.goes setup event).attempts.get? number = engine.attempts.get? number) :
    (engine.goes setup event).IsAt number progress := by
  cases h with
  | waits found => exact .waits (same.trans found)
  | ends found ended =>
    obtain ⟨later, hlater, -, houtcome⟩ := lasts_goes hs hstops allowed found
    exact .ends hlater (houtcome _ ended)

/-- An attempt that waits in a phase is in it. -/
theorem IsAt.eq_of_waits (h : engine.IsAt number progress) (hs : engine.Sound) {phase : AttemptPhase}
    (found : engine.attempts.get? number = some phase) : progress = .waits phase := by
  cases h with
  | waits found' =>
    cases found.symm.trans found'
    rfl
  | ends hf ended =>
    obtain ⟨key, attempt, hattempt, -, unended⟩ := hs.toBooked.phased number phase found
    cases hf.symm.trans hattempt
    exact nomatch ended.symm.trans unended

/-- An attempt that has ended is at its end. -/
theorem IsAt.eq_of_ends (h : engine.IsAt number progress) (hs : engine.Sound) {attempt : Attempt}
    {outcome : Except Fault String} (found : engine.client.attempts[number]? = some attempt)
    (ended : attempt.outcome = some outcome) : progress = .ends outcome := by
  cases h with
  | waits waiting =>
    obtain ⟨key, attempt, hattempt, -, unended⟩ := hs.toBooked.phased number _ waiting
    cases found.symm.trans hattempt
    exact nomatch ended.symm.trans unended
  | ends hf ended' =>
    cases found.symm.trans hf
    cases ended.symm.trans ended'
    rfl

/-! ### In the turns of others -/

/-- An attempt whose server was started stands with its session as it stood, where it does not have its turn itself. -/
theorem Founded.stays {called : Operation → Prop} {answers : RequestId → Json → Prop} {letters scenery : List Letter}
    (h : Founded number n session progress engine) (lawful : Lawful setup.opens called answers letters engine)
    (composed : Composed scenery engine) (hs : engine.Sound)
    (hp : engine.Pledged) (hstops : setup.layer.StopsUncancelled)
    (allowed : engine.Allows (event.recorded engine.client.layer.2)) (isOpen : engine.client.isClosing = false)
    (idle : ¬ engine.Tries event number) (distinct : (engine.goes setup event).client.sessions.Distinct)
    (unended : engine.LeavesUnended event session.id)
    (waits : ∀ task activity, engine.Waits task activity → ¬ activity.Ends session.id)
    (unasked : engine.LeavesUnasked event setup session.id) :
    Founded number n session progress (engine.goes setup event) := by
  obtain ⟨current, found, advances⟩ := h.stands.found
  rw [← advances.id] at unended waits unasked
  have hadvances := (lawful.goes setup event).1.advances
  have hregistered : current.stage ≠ .stopped → engine.client.sessions.has current.id = true := fun hstage => by
    have hlisted : engine.client.sessions.number? current.id = some n :=
      (lawful.shown (hadvances.distinct distinct)).registered n current found hstage
    rw [SessionRegistry.has_eq_isSome, hlisted]
    rfl
  have hgone : engine.client.sessions.has current.id = false → current.stage.isEnding = true := fun hnone => by
    by_contra hstage
    refine absurd (hregistered ?_) (by rw [hnone]; nofun)
    intro hstopped
    exact hstage (hstopped ▸ rfl)
  obtain ⟨letters', conducts⟩ :=
    conducts_goes lawful (h.secluded.covers idle letters isOpen found hgone unended waits) setup
  have hminds : ¬ (Role.minding (· ≠ n) (engine.Writes event)).Minds n := Role.not_minds_minding (not_not_intro rfl)
  have hleaves : ∀ other, engine.client.sessions.session? n = some other → Account.Leaves n other
      (engine.client.account letters) ((engine.goes setup event).client.account letters') := fun other hother =>
    conducts.deeds.leaves lawful.coherent lawful.shown distinct hother hminds id
  refine ⟨h.isAt.lasts hs hstops allowed (conducts.attempts number idle), ?_, h.secluded.conducts conducts⟩
  refine h.stands.leaves (honours_goes setup event).keeps.lasts hp.apart hadvances hleaves fun other hother hstage => ?_
  cases found.symm.trans hother
  rcases hstage with hbegins | absent
  · exact freeOf_goes composed lawful.coherent lawful.shown conducts.deeds distinct hp.apart found hbegins
      (hregistered (by rw [hbegins]; nofun)) unasked
  · exact freeOf_goes_of_absent composed lawful.coherent.named distinct hadvances found absent

end Own

/-! ### In the course of events -/

theorem composed_course (setup : Setup σ) (layer : σ) (settings : Settings) (events : List (Event σ)) :
    ∃ letters, Composed letters (course setup (fresh layer settings) events) := by
  obtain ⟨letters, composed, -⟩ := scene_course setup layer settings (fun _ _ => True) trivial
    (fun _ _ _ _ _ _ _ => trivial) events
  exact ⟨letters, composed⟩

section Fates

variable {setup : Setup σ} {layer : σ} {settings : Settings} {events more : List (Event σ)} {event : Event σ}
  {number n : Nat} {session : Session} {progress : Progress AttemptPhase String}

theorem Undisturbed.append (h : Undisturbed setup (fresh layer settings) (events ++ more) number) :
    Undisturbed setup (fresh layer settings) events number where
  permitted before event after heq := h.permitted before event (after ++ more) (by rw [heq]; simp)
  staysOpen before after heq := h.staysOpen before (after ++ more) (by rw [heq]; simp)
  distinct := (passes_course setup layer settings events more).advances.distinct h.distinct
  unended id reported before event after heq :=
    h.unended id (reported.append more) before event (after ++ more) (by rw [heq]; simp)
  unasked id reported before event after heq :=
    h.unasked id (reported.append more) before event (after ++ more) (by rw [heq]; simp)

/-- The session of an attempt is the only one of its identifier, and registered under it if any is. -/
theorem Undisturbed.hosts (h : Undisturbed setup (fresh layer settings) events number) {current : Session}
    (found : (course setup (fresh layer settings) events).client.sessions.session? n = some current) :
    (course setup (fresh layer settings) events).client.tables.Hosts n current :=
  hosts_course setup layer settings events (fun m other hother hid =>
    Nat.le_of_eq (h.distinct m n other current hother found hid)) found

/-- No process is stopped under the identifier of a session that is not there yet. -/
theorem Undisturbed.uncalled (h : Undisturbed setup (fresh layer settings) (events ++ [event]) number)
    {current : Session}
    (found : (course setup (fresh layer settings) (events ++ [event])).client.sessions.session?
      (course setup (fresh layer settings) events).client.sessions.sessions.length = some current) :
    (course setup (fresh layer settings) events).client.stopped.count current.id = 0 := by
  refine List.count_eq_zero.2 fun hm => ?_
  obtain ⟨m, other, hother, hid⟩ := stopped_has_session h.append.staysOpen current.id hm
  obtain ⟨later, hlater, advances⟩ := session?_course setup layer settings events [event] hother
  have hsame := h.distinct m _ later current hlater found (advances.id.trans hid)
  exact absurd (SessionRegistry.lt_length hother) (Nat.not_lt_of_le (Nat.le_of_eq hsame.symm))

/-- Whoever has no turn starts no server. -/
theorem Fate.unfounded_of_idle (isOpen : (course setup (fresh layer settings) events).client.isClosing = false)
    (silent : ∀ id, ¬ Reported setup (fresh layer settings) events number id)
    (phase : ∀ phase, (course setup (fresh layer settings) events).attempts.get? number = some phase →
      phase.session? = none)
    (idle : ¬ (course setup (fresh layer settings) events).Tries event number) :
    Fate setup (fresh layer settings) (events ++ [event]) number := by
  obtain ⟨letters, lawful⟩ := lawful_course setup layer settings events
  obtain ⟨letters', conducts⟩ := conducts_goes lawful (covers_all event letters isOpen) setup
  refine .unfounded (fun id reported => ?_) fun waiting found => phase waiting ?_
  · exact reported.concat.elim (silent id) fun reports => idle reports.tries
  · rw [course_concat, conducts.attempts number idle] at found
    exact found

/-- The attempt has its turn, and its server is started or not. -/
theorem Fate.goes (h : Undisturbed setup (fresh layer settings) (events ++ [event]) number)
    (hstops : setup.layer.StopsUncancelled)
    (silent : ∀ id, ¬ Reported setup (fresh layer settings) events number id)
    (tries : (course setup (fresh layer settings) events).Tries event number) {attempt : Attempt}
    (found : (course setup (fresh layer settings) events).client.attempts[number]? = some attempt)
    (isAt : ((course setup (fresh layer settings) events).goes setup event).IsAt number progress)
    (goes : Goes attempt.language attempt.root (course setup (fresh layer settings) events).client
      (((course setup (fresh layer settings) events).goes setup event).client, progress)) :
    Fate setup (fresh layer settings) (events ++ [event]) number := by
  have hs := sound_course hstops h.append.permitted
  have hlater := sound_course hstops h.permitted
  have hreports : ∀ id, Reported setup (fresh layer settings) (events ++ [event]) number id →
      (course setup (fresh layer settings) events).Reports event setup number id := fun id reported =>
    reported.concat.resolve_left (silent id)
  rcases goes with ⟨-, -, calls, unfounded⟩ | ⟨id, -, ⟨stops, -, calls⟩, stands⟩
  · refine .unfounded (fun id reported => ?_) fun phase waiting => ?_
    · have hstarted := (hreports id reported).started.symm.trans calls.started
      exact absurd (List.append_cancel_left hstarted) (List.cons_ne_nil _ _)
    · rw [course_concat] at hlater waiting
      exact unfounded phase (isAt.eq_of_waits hlater waiting)
  · have hreported : Reported setup (fresh layer settings) (events ++ [event]) number id :=
      ⟨events, event, [], rfl, tries, calls.started⟩
    obtain ⟨current, hcurrent, advances⟩ := stands.found
    have huncalled : (course setup (fresh layer settings) events).client.stopped.count
        (Session.begin id attempt.language attempt.root).id = 0 := by
      rw [← advances.id]
      exact h.uncalled (by rw [course_concat]; exact hcurrent)
    rw [huncalled] at stands
    obtain ⟨later, hattempt, hkey, -⟩ := lasts_goes hs hstops h.permitted.concat.2 found
    obtain ⟨letters, lawful⟩ := lawful_course setup layer settings events
    have hfounded : Founded number (course setup (fresh layer settings) events).client.sessions.sessions.length
        (.begin id attempt.language attempt.root) progress ((course setup (fresh layer settings) events).goes setup event) :=
      ⟨isAt, stands, lawful.secluded.tries tries hs setup⟩
    rw [← course_concat] at hattempt hfounded
    refine .founded (fun other => ⟨fun reported => ?_, ?_⟩) ⟨later, hattempt, ?_⟩ (fun before after heq silent => ?_)
      hfounded
    · exact (List.cons.inj (List.append_cancel_left ((hreports other reported).started.symm.trans calls.started))).1
    · rintro rfl
      exact hreported
    · exact Prod.mk.inj hkey.symm
    · rcases List.eq_nil_or_concat after with rfl | ⟨after, last, rfl⟩
      · rw [List.append_nil] at heq
        exact absurd hreported (heq ▸ silent id)
      · rw [List.concat_eq_append, ← List.append_assoc] at heq
        obtain ⟨rfl, -⟩ := List.append_inj' heq rfl
        exact (passes_course setup layer settings before after).advances.length_le

/-- **In the course of events an attempt that nobody disturbs stands with its session as it has left it.** -/
theorem fate_course (hstops : setup.layer.StopsUncancelled)
    (h : Undisturbed setup (fresh layer settings) events number) : Fate setup (fresh layer settings) events number := by
  induction events using List.reverseRecOn with
  | nil =>
    refine .unfounded ?_ fun phase found => nomatch found
    rintro id ⟨before, event, after, heq, -⟩
    exact absurd heq.symm (by simp)
  | append_singleton events event ih =>
    have hs := sound_course hstops h.append.permitted
    have hp := pledged_course setup layer settings events
    obtain ⟨-, isOpen⟩ := h.staysOpen.concat
    obtain ⟨-, allowed⟩ := h.permitted.concat
    cases ih h.append with
    | unfounded silent phase =>
      by_cases tries : (course setup (fresh layer settings) events).Tries event number
      · obtain ⟨attempt, progress, found, isAt, goes⟩ := goes_of_tries hs hstops allowed isOpen hp.apart tries phase
        exact .goes h hstops silent tries found isAt goes
      · exact .unfounded_of_idle isOpen silent phase tries
    | @founded n session progress reported hattempt born founded =>
      have hreported : Reported setup (fresh layer settings) (events ++ [event]) number session.id :=
        ((reported _).2 rfl).append [event]
      obtain ⟨current, found, advances⟩ := founded.stands.found
      -- The server is started once only, so no turn brings a report any more.
      have hgoesOn : ∃ later, Founded number n session later
            ((course setup (fresh layer settings) events).goes setup event) ∧
          ∀ id, ¬ (course setup (fresh layer settings) events).Reports event setup number id := by
        by_cases tries : (course setup (fresh layer settings) events).Tries event number
        · obtain ⟨later, isAt, fares⟩ := fares_of_tries hs hstops allowed tries founded found (h.append.hosts found)
          obtain ⟨stops, -, calls⟩ := fares.calls
          refine ⟨later, ⟨isAt, fares.stands, founded.secluded.tries tries hs setup⟩, fun id reports => ?_⟩
          exact absurd (List.append_cancel_left (reports.started.symm.trans calls.started)) (List.cons_ne_nil _ _)
        · obtain ⟨letters, lawful⟩ := lawful_course setup layer settings events
          have hdistinct := h.distinct
          rw [course_concat] at hdistinct
          refine ⟨progress, ?_, fun id reports => tries reports.tries⟩
          obtain ⟨scenery, composed⟩ := composed_course setup layer settings events
          refine founded.stays lawful composed hs hp hstops allowed isOpen tries hdistinct ?_ ?_ ?_
          · exact h.unended session.id hreported events event [] rfl
          · exact unended_course h.append.staysOpen (h.append.unended session.id ((reported _).2 rfl))
          · exact h.unasked session.id hreported events event [] rfl
      obtain ⟨later, founded, unreported⟩ := hgoesOn
      obtain ⟨attempt, hfound, hlanguage, hroot⟩ := hattempt
      obtain ⟨attempt', hfound', hkey, -⟩ := lasts_goes hs hstops allowed hfound
      obtain ⟨hlanguage', hroot'⟩ := Prod.mk.inj hkey.symm
      rw [← course_concat] at founded hfound'
      refine .founded (fun id => ⟨fun hr => ?_, ?_⟩) ⟨attempt', hfound', hlanguage.trans hlanguage', hroot.trans hroot'⟩
        (fun before after heq silent => ?_) founded
      · exact hr.concat.elim (reported id).1 fun reports => absurd reports (unreported id)
      · rintro rfl
        exact hreported
      · rcases List.eq_nil_or_concat after with rfl | ⟨after, last, rfl⟩
        · rw [List.append_nil] at heq
          exact absurd hreported (heq ▸ silent session.id)
        · rw [List.concat_eq_append, ← List.append_assoc] at heq
          obtain ⟨heq, -⟩ := List.append_inj' heq rfl
          exact born before after heq silent

end Fates

end Engine

end LanguageSessions
