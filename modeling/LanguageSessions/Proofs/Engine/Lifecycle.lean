import LanguageSessions.Proofs.Engine.Documents
import LanguageSessions.Proofs.Engine.Order

/-!
# The life of a session

In the course of any events sessions go from stage to stage in one direction, a session is ready only after it was set
up (`SetUp`), and none that is registered has stopped. A call about a document that begins while its session is not
ready is refused (`beginTask_of_unready`), and in none of its turns in which the session is not ready it hands anything
over or changes a version (`Pursues.idle`). In an event a task keeps its state or has its turn (`task_goes`), and so
what the turns keep holds of the task of a call throughout (`CalledFor.throughout`). `sessions_only_advance` puts this
together.
-/

namespace LanguageSessions.Engine

open Client Account

variable {σ : Type}

/-! ## Sessions that were set up -/

/-- A session was set up in the course of events, as letters tell: a response with a result to the request that opened
the handshake was received, and the server was told that the session is set up, which did not fail. -/
structure SetUp (setup : Setup σ) (first : Engine (σ × List Exchange)) (events : List (Event σ)) (letters : List Letter)
    (number : Nat) (id : String) : Prop where
  answered : ∃ request params result, .own id number (.opening request params) ∈ letters ∧
    Received setup first events request result
  told : .own id number .initialized ∈ letters
  delivered : ⟨.send id Dispatch.initialized.print, .returns ()⟩ ∈ (course setup first events).client.layer.2

/-! ## Calls about documents -/

/-- A task pursues a call about a document of a session: it is still to begin, or it has begun and only waits for an
answer, or it has ended. -/
inductive Pursues (session : String) (call : DocumentCall) : TaskState → Prop where
  | ready : Pursues session call (.ready (call.operation session))
  | waiting {activity : Activity} (waits : activity.onlyWaits = true) : Pursues session call (.waiting activity)
  | finished (outcome : Except Fault Answer) : Pursues session call (.finished outcome)

/-- The next turn is one of a task: it begins, or it goes on. -/
def TurnOf (engine : Engine σ) (task : Nat) : Prop :=
  ∃ turn queue, engine.client.queue = turn :: queue ∧
    (turn = .begin task ∨ ∃ signal, turn = .wake signal ∧ engine.tasks.findIdx? (Task.waitsFor signal) = some task)

/-- No ready session is registered under an identifier. -/
def Unready (engine : Engine σ) (id : String) : Prop :=
  ∀ session, engine.client.sessions.get? id = some session → session.stage ≠ .ready

section Documents

variable {setup : Setup σ} {engine : Engine σ} {id : String} {call : DocumentCall} {task : Nat}

theorem Unready.ready? (h : engine.Unready id) : engine.client.ready? id = none := by
  refine Option.eq_none_iff_forall_ne_some.2 fun ⟨number, session⟩ hr => ?_
  obtain ⟨listed, found, hstage⟩ := (ready?_eq_some_iff _).1 hr
  have hget : engine.client.sessions.get? id = some session := Option.bind_eq_some_iff.2 ⟨number, listed, found⟩
  exact h session hget (beq_iff_eq.1 hstage)

/-- A call about a document of a session that is not ready is refused as it begins. -/
theorem beginTask_of_unready (hu : engine.Unready id)
    (found : engine.tasks[task]? = some ⟨.ready (call.operation id), false⟩) :
    engine.beginTask setup task =
      { engine with
        client := engine.client.note (.finished task (call.refusal id))
        tasks := engine.tasks.set task ⟨.finished (call.refusal id), false⟩ } := by
  rw [beginTask, found]
  dsimp only
  rw [if_neg Bool.false_ne_true, engine.client.beginOperation_of_unready setup hu.ready? call]
  rfl

/-- What a task did is all that is handed over, and all that becomes of the sessions. -/
theorem aside_afterTask {step : Client σ × Progress Activity Answer} (ha : Aside engine.client step.1) (number : Nat) :
    Aside engine.client (engine.afterTask number step).client := by
  obtain ⟨client, activity | outcome⟩ := step
  · exact ha
  · exact ha.trans (client.aside_note fun _ => rfl)

/-- **A call about a document does nothing in a turn in which its session is not ready.** -/
theorem Pursues.idle {state : TaskState} (h : Pursues id call state) {cancelled : Bool}
    (found : engine.tasks[task]? = some ⟨state, cancelled⟩) (hu : engine.Unready id) (ht : engine.TurnOf task) :
    Aside engine.client (engine.next setup).client := by
  obtain ⟨turn, queue, hq, hturn⟩ := ht
  have hpop : Aside engine.client (engine.withQueue queue).client :=
    ⟨rfl, fun _ => rfl, fun _ hm => hq ▸ List.mem_cons_of_mem _ hm⟩
  have hfound : (engine.withQueue queue).tasks[task]? = some ⟨state, cancelled⟩ := found
  rw [next_of_turn hq]
  refine hpop.trans ?_
  rcases hturn with rfl | ⟨signal, rfl, hwaits⟩
  · change Aside _ ((engine.withQueue queue).beginTask setup task).client
    cases h with
    | ready =>
      cases cancelled with
      | false =>
        have hunready : (engine.withQueue queue).Unready id := hu
        rw [beginTask_of_unready hunready hfound]
        exact aside_note _ fun _ => rfl
      | true =>
        rw [beginTask, hfound]
        exact aside_afterTask (.refl _) task
    | waiting waits =>
      rw [beginTask, hfound]
      exact .refl _
    | finished outcome =>
      rw [beginTask, hfound]
      exact .refl _
  · rw [perform_wake_of_some (engine.withQueue queue) setup hwaits, resumeTask, hfound]
    cases h with
    | ready => exact .refl _
    | waiting waits => exact aside_afterTask (aside_resumeActivity _ setup cancelled waits).aside task
    | finished outcome => exact .refl _

/-- A call about a document that has its turn pursues it further. -/
theorem Pursues.afterTask (number : Nat) {step : Client σ × Progress Activity Answer}
    (hw : ∀ activity, step.2 = .waits activity → activity.onlyWaits = true) (hlt : number < engine.tasks.length) :
    ∃ state cancelled, (engine.afterTask number step).tasks[number]? = some ⟨state, cancelled⟩ ∧
      Pursues id call state := by
  obtain ⟨client, activity | outcome⟩ := step
  · exact ⟨_, false, List.getElem?_set_self hlt, .waiting (hw activity rfl)⟩
  · exact ⟨_, false, List.getElem?_set_self hlt, .finished outcome⟩

theorem Pursues.beginTask {state : TaskState} (h : Pursues id call state) {cancelled : Bool}
    (found : engine.tasks[task]? = some ⟨state, cancelled⟩) :
    ∃ state' cancelled', (engine.beginTask setup task).tasks[task]? = some ⟨state', cancelled'⟩ ∧
      Pursues id call state' := by
  rw [Engine.beginTask, found]
  cases h with
  | ready =>
    refine Pursues.afterTask task ?_ (List.getElem?_eq_some_iff.1 found).1
    intro activity hw
    split at hw
    · cases hw
    · exact onlyWaits_beginOperation hw
  | waiting waits => exact ⟨_, cancelled, found, .waiting waits⟩
  | finished outcome => exact ⟨_, cancelled, found, .finished outcome⟩

theorem Pursues.resumeTask {state : TaskState} (h : Pursues id call state) {cancelled : Bool}
    (found : engine.tasks[task]? = some ⟨state, cancelled⟩) :
    ∃ state' cancelled', (engine.resumeTask setup task).tasks[task]? = some ⟨state', cancelled'⟩ ∧
      Pursues id call state' := by
  rw [Engine.resumeTask, found]
  cases h with
  | ready => exact ⟨_, cancelled, found, .ready⟩
  | waiting waits =>
    exact Pursues.afterTask task (aside_resumeActivity _ setup cancelled waits).onlyWaits
      (List.getElem?_eq_some_iff.1 found).1
  | finished outcome => exact ⟨_, cancelled, found, .finished outcome⟩

end Documents

/-! ## In the course of events -/

section Course

variable {setup : Setup σ} {engine first : Engine (σ × List Exchange)} {id : String} {call : DocumentCall} {task : Nat}

/-- In the course of events an operation was called, as a task. -/
def CalledFor (setup : Setup σ) (first : Engine (σ × List Exchange)) (events : List (Event σ)) (task : Nat)
    (operation : Operation) : Prop :=
  ∃ before after, events = before ++ .call operation :: after ∧ (course setup first before).tasks.length = task

/-- A task that is cancelled is told so later. -/
theorem getElem?_cancel (engine : Engine (σ × List Exchange)) (number : Nat) {n : Nat} {task : Task}
    (found : engine.tasks[n]? = some task) :
    ∃ cancelled, (engine.cancel number).1.tasks[n]? = some ⟨task.state, cancelled⟩ := by
  have hset : ∀ other : Task, engine.tasks[number]? = some other →
      ∃ cancelled, (engine.tasks.set number { other with isCancelled := true })[n]? = some ⟨task.state, cancelled⟩ := by
    intro other hother
    by_cases hn : number = n
    · subst hn
      cases hother.symm.trans found
      exact ⟨true, List.getElem?_set_self (List.getElem?_eq_some_iff.1 found).1⟩
    · exact ⟨task.isCancelled, (List.getElem?_set_ne hn).trans found⟩
  unfold Engine.cancel
  split
  · exact ⟨task.isCancelled, found⟩
  · next other hother =>
    dsimp only
    split
    · exact ⟨task.isCancelled, found⟩
    · exact hset other hother
    · split
      · rw [(cancelAttempts_rest _ _).2]
        exact hset other hother
      · exact hset other hother

/-- In an event a task keeps its state, or it has its turn: it begins, or it goes on. -/
theorem task_goes (setup : Setup σ) (event : Event σ) {state : TaskState} {cancelled : Bool}
    (found : engine.tasks[task]? = some ⟨state, cancelled⟩) :
    (∃ cancelled', (engine.goes setup event).tasks[task]? = some ⟨state, cancelled'⟩) ∨
      ∃ queue, engine.goes setup event = (engine.withQueue queue).beginTask setup.recorded task ∨
        engine.goes setup event = (engine.withQueue queue).resumeTask setup.recorded task := by
  cases event with
  | call operation =>
    exact Or.inl ⟨cancelled, (List.getElem?_append_left (List.getElem?_eq_some_iff.1 found).1).trans found⟩
  | turn =>
    rcases next_cases engine setup.recorded with heq | ⟨turn, queue, -, heq⟩
    · have hgoes : engine.goes setup .turn = engine := heq
      rw [hgoes]
      exact Or.inl ⟨cancelled, found⟩
    · have hgoes : engine.goes setup .turn = (engine.withQueue queue).perform setup.recorded turn := heq
      rw [hgoes]
      rcases (engine.withQueue queue).task_perform setup.recorded turn task with hsame | ⟨-, heq⟩ | ⟨_, -, -, heq⟩
      · exact Or.inl ⟨cancelled, hsame.trans found⟩
      · exact Or.inr ⟨queue, Or.inl heq⟩
      · exact Or.inr ⟨queue, Or.inr heq⟩
  | cancel number => exact Or.inl (engine.getElem?_cancel number found)
  | expire _ | moveClock _ | layer _ _ _ | hear _ | listen _ | bind _ | reorder _ => exact Or.inl ⟨cancelled, found⟩

/-- What holds of the task of a call before it begins, and is kept by every event, holds of it ever after. -/
theorem CalledFor.throughout {operation : Operation} {events : List (Event σ)}
    (h : CalledFor setup first events task operation) (holds : List (Event σ) → TaskState → Prop)
    (ready : ∀ events, holds events (.ready operation))
    (step : ∀ events event state cancelled, (course setup first events).tasks[task]? = some ⟨state, cancelled⟩ →
      holds events state →
      ∃ state' cancelled', ((course setup first events).goes setup event).tasks[task]? = some ⟨state', cancelled'⟩ ∧
        holds (events ++ [event]) state') :
    ∃ state cancelled, (course setup first events).tasks[task]? = some ⟨state, cancelled⟩ ∧ holds events state := by
  obtain ⟨before, after, rfl, rfl⟩ := h
  -- By induction on the events behind the call.
  induction after using List.reverseRecOn with
  | nil =>
    rw [course_concat]
    exact ⟨_, false, List.getElem?_concat_length, ready _⟩
  | append_singleton after event ih =>
    obtain ⟨state, cancelled, found, hs⟩ := ih
    rw [← List.cons_append, ← List.append_assoc, course_concat]
    exact step _ event state cancelled found hs

/-- A call about a document is pursued through every event. -/
theorem Pursues.goes {state : TaskState} (h : Pursues id call state) {cancelled : Bool}
    (found : engine.tasks[task]? = some ⟨state, cancelled⟩) (setup : Setup σ) (event : Event σ) :
    ∃ state' cancelled', (engine.goes setup event).tasks[task]? = some ⟨state', cancelled'⟩ ∧
      Pursues id call state' := by
  rcases task_goes setup event found with ⟨cancelled', hfound⟩ | ⟨queue, heq | heq⟩
  · exact ⟨state, cancelled', hfound, h⟩
  · rw [heq]
    exact h.beginTask found
  · rw [heq]
    exact h.resumeTask found

theorem CalledFor.pursues {events : List (Event σ)} (h : CalledFor setup first events task (call.operation id)) :
    ∃ state cancelled, (course setup first events).tasks[task]? = some ⟨state, cancelled⟩ ∧ Pursues id call state :=
  h.throughout (fun _ => Pursues id call) (fun _ => .ready) fun _ event _ _ found hp => hp.goes found setup event

end Course

/-- A session that is ready was set up. -/
theorem Lawful.setUp {setup : Setup σ} {first : Engine (σ × List Exchange)} {events : List (Event σ)}
    {opens : String → Bool} {called : Operation → Prop} {letters : List Letter}
    (h : Lawful opens called (Received setup first events) letters (course setup first events)) {number : Nat}
    {session : Session} (found : (course setup first events).client.sessions.session? number = some session)
    (ready : session.stage = .ready) : SetUp setup first events letters number session.id := by
  have hgreeted := h.coherent.greeted number session found ready
  have howned : ∀ id dispatch, .own id number dispatch ∈ letters → id = session.id := by
    intro id dispatch hm
    obtain ⟨session', found', rfl⟩ := h.coherent.owned id number dispatch hm
    cases found.symm.trans found'
    rfl
  constructor
  case answered =>
    obtain ⟨id, request, params, result, hm, hreceived⟩ := h.received hgreeted.answered
    cases howned id _ hm
    exact ⟨request, params, result, hm, hreceived⟩
  case told =>
    obtain ⟨letter, hm, hdispatch⟩ := List.mem_filterMap.1 hgreeted.told
    obtain ⟨id, rfl⟩ := Letter.dispatch?_eq_some_iff.1 hdispatch
    cases howned id _ hm
    exact hm
  case delivered => exact hgreeted.delivered

/-- **Sessions only advance.** Through any events a session goes on from its stage or stays there, and one that is ready
later on is none whose end had begun. One that is ready was set up, as the letters tell that were handed over, and one
that is registered has not stopped. A call about a document of a session that is not ready hands nothing over in any of
its turns and changes no session; if that is its first turn, it is refused there, and nothing else happens. -/
theorem sessions_only_advance (setup : Setup σ) (layer : σ) (settings : Settings) (events more : List (Event σ)) :
    let first := fresh layer settings
    let engine := course setup first events
    let later := course setup first (events ++ more)
    (∀ number session, engine.client.sessions.session? number = some session →
      ∃ session', later.client.sessions.session? number = some session' ∧ session'.id = session.id ∧
        session.stage ≠ .starting ∧ session.stage.rank ≤ session'.stage.rank ∧
        (session'.stage = .ready → session.stage.isEnding = false)) ∧
    (∃ letters, Tells setup events engine letters ∧
      ∀ number session, engine.client.sessions.session? number = some session → session.stage = .ready →
        SetUp setup first events letters number session.id) ∧
    (∀ number session, engine.client.sessions.Registered number session → session.stage ≠ .stopped) ∧
    (∀ task id call, CalledFor setup first events task (DocumentCall.operation id call) → engine.Unready id →
      engine.TurnOf task →
      (engine.goes setup .turn).client.sessions = engine.client.sessions ∧
      (∀ other, (engine.goes setup .turn).client.handed other = engine.client.handed other) ∧
      ∀ queue, engine.client.queue = .begin task :: queue →
        engine.tasks[task]? = some ⟨.ready (call.operation id), false⟩ →
        engine.goes setup .turn =
          { engine with
            client := { engine.client with queue }.note (.finished task (call.refusal id))
            tasks := engine.tasks.set task ⟨.finished (call.refusal id), false⟩ }) := by
  intro first engine later
  obtain ⟨letters, h⟩ := lawful_course setup layer settings events
  refine ⟨fun number session found => ?_, ⟨letters, h.tells, fun number session => h.setUp⟩, h.coherent.live,
    fun task id call hcalled hu ht => ?_⟩
  · obtain ⟨session', found', advances⟩ :=
      (passes_course setup layer settings events more).advances number session found
    refine ⟨session', found', advances.id, h.coherent.begun number session found, advances.stage, fun hready => ?_⟩
    refine Bool.eq_false_iff.2 fun hending => ?_
    have hlater := advances.isEnding hending
    rw [hready] at hlater
    cases hlater
  · obtain ⟨state, cancelled, found, hp⟩ := hcalled.pursues
    have haside : Aside engine.client (engine.next setup.recorded).client := hp.idle found hu ht
    refine ⟨haside.sessions, haside.handed, fun queue hq hready => ?_⟩
    have hunready : (engine.withQueue queue).Unready id := hu
    have hnext : engine.goes setup .turn = (engine.withQueue queue).beginTask setup.recorded task := by
      change engine.next setup.recorded = _
      rw [Engine.next, hq]
      rfl
    rw [hnext]
    exact beginTask_of_unready hunready hready

/-! ## One session, from its start to its end -/

/-- A session is started, its server answers, and it is ready when a document of another session is to be opened. -/
def greeting : List (Event Unit) :=
  [.call (.start "python" "/w"), .turn, .turn, .hear ⟨"s", "\x7b\"id\": 1, \"result\": \x7b\x7d\x7d"⟩, .turn, .turn,
    .turn, .turn, .call (.openDocument "t" "/w/a.py" "python" "")]

/-- The session is stopped. -/
def leaving : List (Event Unit) := [.turn, .call (.stop "s"), .turn]

/-- The session is ready, and was set up then; its end begins later. The call about the document of another session is
refused. -/
theorem session_is_set_up_before_its_end :
    (course prompt (fresh () Settings.standard) greeting).client.sessions.sessions.map (·.stage) = [.ready] ∧
      (course prompt (fresh () Settings.standard) (greeting ++ leaving)).client.sessions.sessions.map (·.stage) =
        [.shuttingDown] ∧
      (∃ letters, SetUp prompt (fresh () Settings.standard) greeting letters 0 "s") ∧
      ((course prompt (fresh () Settings.standard) greeting).goes prompt .turn).tasks[1]? =
        some ⟨.finished (.error (.notInitialized "t")), false⟩ := by
  obtain ⟨-, ⟨letters, -, hsetUp⟩, -, hdocuments⟩ :=
    sessions_only_advance prompt () Settings.standard greeting leaving
  have hready : ((course prompt (fresh () Settings.standard) greeting).client.sessions.session? 0).map
      (fun session => (session.id, session.stage)) = some ("s", .ready) := by decide +kernel
  have hset : SetUp prompt (fresh () Settings.standard) greeting letters 0 "s" := by
    obtain ⟨session, found, hsession⟩ := Option.map_eq_some_iff.1 hready
    obtain ⟨hid, hstage⟩ := Prod.mk.inj hsession
    exact hid ▸ hsetUp 0 session found hstage
  have hunready : (course prompt (fresh () Settings.standard) greeting).Unready "t" := by
    have hnone : (course prompt (fresh () Settings.standard) greeting).client.sessions.get? "t" = none :=
      Option.isNone_iff_eq_none.1 (by decide +kernel)
    intro session hs
    rw [hnone] at hs
    cases hs
  have hqueue : (course prompt (fresh () Settings.standard) greeting).client.queue = [.begin 1] := by decide +kernel
  have hlength : (course prompt (fresh () Settings.standard) (greeting.take 8)).tasks.length = 1 := by decide +kernel
  have hcalled : CalledFor prompt (fresh () Settings.standard) greeting 1
      (DocumentCall.operation "t" (.opening "/w/a.py" "python" "")) :=
    ⟨greeting.take 8, [], rfl, hlength⟩
  have hfound : (course prompt (fresh () Settings.standard) greeting).tasks[1]? =
      some ⟨.ready (DocumentCall.operation "t" (.opening "/w/a.py" "python" "")), false⟩ := by
    rw [← List.take_append_drop 8 greeting, show greeting.drop 8 = [.call _] from rfl, course_concat]
    generalize course prompt (fresh () Settings.standard) (greeting.take 8) = engine at hlength
    exact hlength ▸ List.getElem?_concat_length
  obtain ⟨-, -, hrefused⟩ := hdocuments 1 "t" _ hcalled hunready ⟨_, _, hqueue, .inl rfl⟩
  refine ⟨by decide +kernel, by decide +kernel, ⟨letters, hset⟩, ?_⟩
  -- the engine is opaque from here on: what its run computes to does not matter any more
  generalize course prompt (fresh () Settings.standard) greeting = engine at hrefused hqueue hfound ⊢
  rw [hrefused _ hqueue hfound]
  exact List.getElem?_set_self (List.getElem?_eq_some_iff.1 hfound).1

end LanguageSessions.Engine
