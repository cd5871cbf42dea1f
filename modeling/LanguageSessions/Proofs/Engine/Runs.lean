import LanguageSessions.Proofs.Engine.Sound

/-!
# Runs of the engine

`Run` is any number of events in any order: operations are called, turns are carried out one after the other and may be
put in any order before, timers fire, tasks are cancelled, the process layer goes on by itself, and servers send
messages. Only a task that waits for several starts is not cancelled, since they would be cancelled with it.

Every event keeps the starts in agreement with the sessions (`Sound.after`). What a turn does to the attempts is one of
four things (`Moves`), and they last through it with their outcomes (`Moves.lasts`).
-/

namespace LanguageSessions.Engine

variable {σ : Type}

/-! ## Events -/

/-- What can happen to an engine. -/
inductive Event (σ : Type) where
  /-- Somebody calls an operation. -/
  | call (operation : Operation)
  /-- The next turn is carried out. -/
  | turn
  /-- A timer fires. -/
  | expire (timer : RequestTimer)
  | moveClock (time : Int)
  /-- A task is cancelled. -/
  | cancel (task : Nat)
  /-- The process layer goes on by itself: it comes to a state, calls tickets, and has messages to be delivered. -/
  | layer (state : σ) (tickets : List Nat) (deliveries : List Delivery)
  /-- A message of a server arrives between two turns. -/
  | hear (delivery : Delivery)
  /-- Somebody begins or ceases to listen. -/
  | listen (audience : Audience)
  /-- Files are bound. -/
  | bind (bindings : List Binding)
  /-- The turns to come are put in another order. -/
  | reorder (queue : List Turn)

/-- The engine with other turns to come. -/
def withQueue (engine : Engine σ) (queue : List Turn) : Engine σ :=
  { engine with client := { engine.client with queue } }

/-- The next turn, if there is one. -/
def next (engine : Engine σ) (setup : Setup σ) : Engine σ :=
  match engine.client.queue with
  | [] => engine
  | turn :: queue => (engine.withQueue queue).perform setup turn

/-- The engine after an event. -/
def after (setup : Setup σ) (engine : Engine σ) : Event σ → Engine σ
  | .call operation => (engine.call operation).1
  | .turn => engine.next setup
  | .expire timer => engine.expire timer
  | .moveClock time => engine.moveClock time
  | .cancel task => (engine.cancel task).1
  | .layer state tickets deliveries =>
    { engine with
      client := { engine.client with layer := state }.pushAll
        (tickets.map (fun ticket => Turn.wake (.ticket ticket)) ++ deliveries.map Turn.deliver) }
  | .hear delivery => { engine with client := engine.client.hear delivery }
  | .listen audience => { engine with client := { engine.client with audience } }
  | .bind bindings => { engine with client := { engine.client with bindings } }
  | .reorder queue => engine.withQueue queue

/-- A task that waits for several starts is not cancelled, and no turn is lost or made up. -/
def Allows (engine : Engine σ) : Event σ → Prop
  | .cancel number => ∀ task activity, engine.tasks[number]? = some task → task.state = .waiting activity →
    activity.gathered = none
  | .reorder queue => queue.Perm engine.client.queue
  | _ => True

/-- Events one after the other. -/
inductive Run (setup : Setup σ) : Engine σ → List (Event σ) → Engine σ → Prop
  | nil (engine : Engine σ) : Run setup engine [] engine
  | cons {engine final : Engine σ} {event : Event σ} {events : List (Event σ)} :
      engine.Allows event → Run setup (engine.after setup event) events final → Run setup engine (event :: events) final

/-- A run goes through a state at each of its events. -/
theorem Run.split {setup : Setup σ} {engine final : Engine σ} {events more : List (Event σ)}
    (run : Run setup engine (events ++ more) final) :
    ∃ middle, Run setup engine events middle ∧ Run setup middle more final := by
  induction events generalizing engine with
  | nil => exact ⟨engine, .nil engine, run⟩
  | cons event events ih =>
    cases run with
    | cons allowed run =>
      obtain ⟨middle, first, second⟩ := ih run
      exact ⟨middle, .cons allowed first, second⟩

/-- Events that are allowed in every state are a run. -/
theorem run_foldl {σ : Type} {setup : Setup σ} {events : List (Event σ)}
    (h : ∀ event ∈ events, ∀ engine : Engine σ, engine.Allows event) (engine : Engine σ) :
    Run setup engine events (events.foldl (after setup) engine) := by
  induction events generalizing engine with
  | nil => exact .nil engine
  | cons event events ih =>
    rw [List.forall_mem_cons] at h
    exact .cons (h.1 engine) (ih h.2 _)

/-! ## Events without a turn are calm -/

open Client

theorem calm_interrupt (client : Client σ) (signal : Signal) : Calm client (interrupt client signal) := by
  unfold interrupt
  split
  · split
    split
    · exact (client.calm_push rfl).trans (calm_setPending _ _)
    · exact .refl client
  · exact client.calm_push rfl

/-- A task is cancelled that does not wait for several starts. -/
theorem calm_cancel {engine : Engine σ} {number : Nat} (h : engine.Allows (.cancel number)) :
    Calm engine.client (engine.cancel number).1.client ∧ (engine.cancel number).1.attempts = engine.attempts := by
  unfold cancel
  split
  · exact ⟨.refl _, rfl⟩
  · next task ht =>
    dsimp only
    split
    · exact ⟨.refl _, rfl⟩
    · exact ⟨.refl _, rfl⟩
    · next activity hs =>
      rw [h task activity ht hs]
      exact ⟨calm_interrupt _ _, rfl⟩

/-- **Whatever happens between two turns is calm**, if the turns to come are left in their order. -/
theorem calm_after (setup : Setup σ) {engine : Engine σ} {event : Event σ} (ha : engine.Allows event)
    (hne : event ≠ .turn) (ordered : ∀ queue, event ≠ .reorder queue) :
    Calm engine.client (engine.after setup event).client ∧ (engine.after setup event).attempts = engine.attempts := by
  cases event with
  | call operation => exact ⟨engine.client.calm_push rfl, rfl⟩
  | turn => exact absurd rfl hne
  | expire timer => exact ⟨(engine.client.calm_setPending _).trans (calm_logAll _ _), rfl⟩
  | moveClock time => exact ⟨calm_of_eq rfl rfl rfl rfl rfl, rfl⟩
  | cancel number => exact calm_cancel ha
  | layer state tickets deliveries =>
    have hc : Calm engine.client { engine.client with layer := state } := calm_of_eq rfl rfl rfl rfl rfl
    refine ⟨hc.trans (calm_pushAll _ fun turn ht => ?_), rfl⟩
    rcases List.mem_append.1 ht with ht | ht
    · obtain ⟨ticket, -, rfl⟩ := List.mem_map.1 ht
      rfl
    · obtain ⟨delivery, -, rfl⟩ := List.mem_map.1 ht
      rfl
  | hear delivery => exact ⟨engine.client.calm_hear delivery, rfl⟩
  | listen audience => exact ⟨calm_of_eq rfl rfl rfl rfl rfl, rfl⟩
  | bind bindings => exact ⟨calm_of_eq rfl rfl rfl rfl rfl, rfl⟩
  | reorder queue => exact absurd rfl (ordered queue)

/-- Whatever happens between two turns leaves the attempts going on. -/
theorem still_after (setup : Setup σ) {engine : Engine σ} {event : Event σ} (ha : engine.Allows event)
    (hne : event ≠ .turn) :
    Still engine.client (engine.after setup event).client ∧ (engine.after setup event).attempts = engine.attempts := by
  by_cases hordered : ∀ queue, event ≠ .reorder queue
  · obtain ⟨hcalm, hattempts⟩ := calm_after setup ha hne hordered
    exact ⟨hcalm.toStill, hattempts⟩
  · obtain ⟨queue, heq⟩ := not_forall.1 hordered
    cases not_not.1 heq
    exact ⟨⟨quiet_of_eq rfl rfl ha rfl, .refl _⟩, rfl⟩

/-! ## Turns -/

/-- The starts of an engine are in agreement with its sessions. -/
def Sound (engine : Engine σ) : Prop := engine.client.Sound engine.attempts

section Turns

variable {engine : Engine σ} {setup : Setup σ} {number : Nat}

/-- The turn of a task: the task advances, or there is nothing to do. -/
inductive TaskTurn (engine : Engine σ) (number : Nat) : Engine σ → Prop where
  | nothing : TaskTurn engine number engine
  | step {old : Option Signal} {step : Client σ × Progress Activity Answer}
      (advances : Advances Activity.signal old engine.client step)
      (waited : ∀ signal, old = some signal →
        ∃ activity cancelled, engine.tasks[number]? = some ⟨.waiting activity, cancelled⟩ ∧ activity.signal = signal) :
      TaskTurn engine number (engine.afterTask number step)

theorem taskTurn_begin (engine : Engine σ) (setup : Setup σ) (number : Nat) :
    TaskTurn engine number (engine.beginTask setup number) := by
  unfold Engine.beginTask
  split
  · next operation cancelled _ =>
    have ha : Advances Activity.signal none engine.client
        (if cancelled then (engine.client, .ends (.error .cancelled))
          else engine.client.beginOperation setup operation) := by
      split
      · exact (Proceeds.ends (.refl _) _).advances
      · exact engine.client.advances_beginOperation setup operation
    exact .step ha nofun
  · exact .nothing

theorem taskTurn_resume (engine : Engine σ) (setup : Setup σ) (number : Nat) :
    TaskTurn engine number (engine.resumeTask setup number) := by
  unfold Engine.resumeTask
  split
  · next activity cancelled ht =>
    refine .step (engine.client.advances_resumeActivity setup cancelled activity) fun signal hs => ?_
    cases hs
    exact ⟨activity, cancelled, ht, rfl⟩
  · exact .nothing

/-- In an attempt that was not cancelled nothing is to be taken back. -/
theorem modify_heard {client : Client σ} {phases : Entries Nat AttemptPhase} (h : client.Booked phases) (number : Nat) :
    { client with attempts := client.attempts.modify number fun attempt => { attempt with isCancelled := false } } =
      client := by
  have ha : client.attempts.modify number (fun attempt => { attempt with isCancelled := false }) = client.attempts := by
    refine List.ext_getElem? fun n => ?_
    rw [List.getElem?_modify]
    split
    · cases hn : client.attempts[n]? with
      | none => rfl
      | some attempt =>
        have := h.uncancelled n attempt hn
        cases attempt
        cases this
        rfl
    · exact Option.map_id' ..
  rw [ha]

/-- What a turn does, once it was taken from the queue. -/
inductive Turned (engine : Engine σ) : Engine σ → Prop where
  /-- A task has its turn. -/
  | task {number : Nat} {later : Engine σ} (turn : TaskTurn engine number later) : Turned engine later
  /-- An attempt comes to a phase. -/
  | waits {number : Nat} {key : String × String} {client : Client σ} {phase : AttemptPhase}
      (running : engine.client.Running number key) (begun : .launch number ∉ engine.client.queue)
      (attempts : Attempts key engine.client (client, .waits phase)) :
      Turned engine { engine with client, attempts := engine.attempts.set number phase }
  /-- An attempt ends, and all who joined it are to hear of it. -/
  | ends {number : Nat} {key : String × String} {client : Client σ} {outcome : Except Fault String}
      {joiners : List Joiner} (running : engine.client.Running number key)
      (begun : .launch number ∉ engine.client.queue) (attempts : Attempts key engine.client (client, .ends outcome))
      (joined : ∀ attempt, client.attempts[number]? = some attempt → attempt.joiners = joiners) :
      Turned engine
        { engine with client := client.ended number outcome joiners, attempts := engine.attempts.erase number }
  /-- An attempt that has ended is forgotten. -/
  | forget {number : Nat} {attempt : Attempt} {outcome : Except Fault String}
      (found : engine.client.attempts[number]? = some attempt) (ended : attempt.outcome = some outcome)
      (once : .forget number ∉ engine.client.queue) :
      Turned engine { engine with client := forget engine.client number }
  | calm {client : Client σ} (calm : Calm engine.client client) : Turned engine { engine with client }

theorem turned_afterAttempt (h : engine.Sound) {key : String × String} (hr : engine.client.Running number key)
    (hq : .launch number ∉ engine.client.queue) (attempt : Attempt) {step : Client σ × Progress AttemptPhase String}
    (ha : Attempts key engine.client step) : Turned engine (engine.afterAttempt number attempt step) := by
  obtain ⟨client, phase | outcome⟩ := step
  · have hs := Client.Sound.waits h hr hq ha
    unfold Engine.afterAttempt
    dsimp only
    rw [modify_heard hs.toBooked]
    exact .waits hr hq ha
  · refine .ends hr hq ha fun found hf => ?_
    rw [hf]
    rfl

/-- An attempt begins where no session of its key is live. -/
theorem turned_beginAttempt (h : engine.Sound) (hlayer : setup.layer.StopsUncancelled)
    (hr : ∃ key, engine.client.Running number key) (hp : engine.attempts.get? number = none)
    (hq : .launch number ∉ engine.client.queue) : Turned engine (engine.beginAttempt setup number) := by
  obtain ⟨key, hr⟩ := hr
  have hidle := h.unphased number key hr hp
  obtain ⟨attempt, ha, rfl, -⟩ := id hr
  have hc := h.uncancelled number attempt ha
  unfold Engine.beginAttempt
  rw [ha]
  dsimp only
  rw [hc]
  exact turned_afterAttempt h hr hq attempt (attempts_attempt hlayer h.named hidle)

theorem turned_resumeAttempt (h : engine.Sound) (hlayer : setup.layer.StopsUncancelled) (number : Nat) :
    Turned engine (engine.resumeAttempt setup number) := by
  unfold Engine.resumeAttempt
  split
  · next attempt phase ha hp =>
    obtain ⟨key, hr⟩ := h.phased number phase hp
    have hf := h.fits number phase key hp hr
    have hc := h.uncancelled number attempt ha
    obtain ⟨attempt', ha', rfl, -⟩ := id hr
    cases ha.symm.trans ha'
    rw [hc]
    refine turned_afterAttempt h hr (fun hm => ?_) attempt (attempts_resumeAttempt hlayer h.named hf)
    rw [(h.launched number hm).1] at hp
    cases hp
  · exact .calm (.refl _)

theorem turned_wake (h : engine.Sound) (hlayer : setup.layer.StopsUncancelled) (signal : Signal) :
    Turned engine (engine.wake setup signal) := by
  unfold Engine.wake
  split
  · exact .task (taskTurn_resume engine setup _)
  · split
    · exact turned_resumeAttempt h hlayer _
    · exact .calm (.refl _)

theorem calm_countGathered (client : Client σ) (ticket : Nat) : Calm client (countGathered client ticket) := by
  unfold countGathered
  split
  · exact .refl client
  · exact calm_of_eq rfl rfl rfl rfl rfl
  · have hc : Calm client { client with gathers := client.gathers.erase ticket } := calm_of_eq rfl rfl rfl rfl rfl
    exact hc.trans (calm_push _ rfl)

/-- The task that waits for a signal goes on with it. -/
theorem perform_wake_of_some (engine : Engine σ) (setup : Setup σ) {signal : Signal} {task : Nat}
    (hf : engine.tasks.findIdx? (Task.waitsFor signal) = some task) :
    engine.perform setup (.wake signal) = engine.resumeTask setup task := by
  rw [Engine.perform, wake, hf]

/-- Where no task waits for a signal, the attempt that waits for it goes on with it. -/
theorem perform_wake_of_attempt (engine : Engine σ) (setup : Setup σ) {signal : Signal}
    (hnone : engine.tasks.findIdx? (Task.waitsFor signal) = none) {number : Nat} {phase : AttemptPhase}
    (hf : engine.attempts.find? (fun entry => entry.2.signal == signal) = some (number, phase)) :
    engine.perform setup (.wake signal) = engine.resumeAttempt setup number := by
  rw [Engine.perform, wake, hnone]
  dsimp only
  rw [hf]

/-- With a signal a task goes on, or an attempt, or nobody. -/
theorem perform_wake_cases (engine : Engine σ) (setup : Setup σ) (signal : Signal) :
    (∃ task, engine.tasks.findIdx? (Task.waitsFor signal) = some task ∧
        engine.perform setup (.wake signal) = engine.resumeTask setup task) ∨
      (∃ number phase, engine.tasks.findIdx? (Task.waitsFor signal) = none ∧
        engine.attempts.find? (fun entry => entry.2.signal == signal) = some (number, phase) ∧
        engine.perform setup (.wake signal) = engine.resumeAttempt setup number) ∨
      engine.perform setup (.wake signal) = engine := by
  cases ht : engine.tasks.findIdx? (Task.waitsFor signal) with
  | some task => exact Or.inl ⟨task, rfl, engine.perform_wake_of_some setup ht⟩
  | none =>
    cases hf : engine.attempts.find? fun entry => entry.2.signal == signal with
    | some entry => exact Or.inr (Or.inl ⟨entry.1, entry.2, rfl, rfl, engine.perform_wake_of_attempt setup ht hf⟩)
    | none =>
      refine Or.inr (Or.inr ?_)
      rw [Engine.perform, wake, ht]
      dsimp only
      rw [hf]

/-- A task that was not cancelled begins with its operation. -/
theorem beginTask_of_ready (engine : Engine σ) (setup : Setup σ) {task : Nat} {operation : Operation}
    (ready : engine.tasks[task]? = some ⟨.ready operation, false⟩) :
    engine.beginTask setup task = engine.afterTask task (engine.client.beginOperation setup operation) := by
  rw [beginTask, ready]
  rfl

/-- The first turn is taken from the queue and carried out. -/
theorem next_of_turn {engine : Engine σ} {turn : Turn} {queue : List Turn} (hq : engine.client.queue = turn :: queue)
    (setup : Setup σ) : engine.next setup = (engine.withQueue queue).perform setup turn := by
  rw [Engine.next, hq]

/-- No turn is left, or the first one is taken from the queue and carried out. -/
theorem next_cases (engine : Engine σ) (setup : Setup σ) :
    engine.next setup = engine ∨ ∃ turn queue, engine.client.queue = turn :: queue ∧
      engine.next setup = (engine.withQueue queue).perform setup turn := by
  cases hq : engine.client.queue with
  | nil => exact Or.inl (by rw [Engine.next, hq])
  | cons turn queue => exact Or.inr ⟨turn, queue, rfl, next_of_turn hq setup⟩

theorem Sound.pop (h : engine.Sound) {turn : Turn} {queue : List Turn} (hq : engine.client.queue = turn :: queue) :
    (engine.withQueue queue).Sound := Client.Sound.pop h hq

/-- What a turn does that is taken from the front of the queue. -/
theorem turned_perform (h : engine.Sound) (hlayer : setup.layer.StopsUncancelled) {turn : Turn} {queue : List Turn}
    (hq : engine.client.queue = turn :: queue) :
    Turned (engine.withQueue queue) ((engine.withQueue queue).perform setup turn) := by
  cases turn with
  | begin task => exact .task (taskTurn_begin _ setup task)
  | launch number =>
    obtain ⟨hp, hr⟩ := h.launched number (hq ▸ List.mem_cons_self)
    exact turned_beginAttempt (h.pop hq) hlayer hr hp (Client.Sound.launch_not_mem h hq)
  | wake signal => exact turned_wake (h.pop hq) hlayer signal
  | release => exact .calm (calm_setPending _ _)
  | forget number =>
    obtain ⟨attempt, outcome, ha, ho, -⟩ := h.forgotten number (hq ▸ List.mem_cons_self)
    exact .forget ha ho (Client.Sound.forget_not_mem h hq)
  | joined ticket => exact .calm (calm_push _ rfl)
  | gathered ticket => exact .calm (calm_countGathered _ ticket)
  | deliver delivery => exact .calm (calm_hear _ delivery)

theorem Sound.turned (h : engine.Sound) {later : Engine σ} (ht : Turned engine later) : later.Sound := by
  cases ht with
  | task turn =>
    cases turn with
    | nothing => exact h
    | @step _ step ha _ =>
      have hs := Client.Sound.advances h ha
      obtain ⟨client, activity | outcome⟩ := step
      · exact hs
      · exact hs.still (client.calm_note _).toStill
  | waits hr hq ha => exact Client.Sound.waits h hr hq ha
  | ends hr hq ha _ => exact Client.Sound.ends h hr hq ha _
  | forget ha ho once => exact Client.Sound.forget h ha ho once
  | calm hc => exact Client.Sound.still h hc.toStill

/-- **A turn keeps the starts in agreement with the sessions.** -/
theorem Sound.next (h : engine.Sound) (hlayer : setup.layer.StopsUncancelled) : (engine.next setup).Sound := by
  rcases next_cases engine setup with heq | ⟨turn, queue, hq, heq⟩
  · rw [heq]
    exact h
  · rw [heq]
    exact (h.pop hq).turned (turned_perform h hlayer hq)

end Turns

/-- **Every event keeps the starts in agreement with the sessions.** -/
theorem Sound.after {engine : Engine σ} {setup : Setup σ} (h : engine.Sound) (hlayer : setup.layer.StopsUncancelled)
    {event : Event σ} (ha : engine.Allows event) : (engine.after setup event).Sound := by
  by_cases hne : event = .turn
  · subst hne
    exact h.next hlayer
  · obtain ⟨hc, hattempts⟩ := still_after setup ha hne
    have hs := Client.Sound.still h hc
    rw [← hattempts] at hs
    exact hs

/-! ## Attempts later on -/

section Later

variable {engine later : Engine σ} {before after : Client σ}

/-- What a turn does to the attempts. -/
inductive Moves (before : Client σ) : Client σ → Prop where
  /-- They go on. -/
  | quiet {after : Client σ} (quiet : Quiet before after) : Moves before after
  | launches {after : Client σ} {key : String × String} (launches : Launches key before after) : Moves before after
  /-- One of them ends. -/
  | ends {client : Client σ} {number : Nat} {key : String × String} {joiners : List Joiner}
      (quiet : Quiet before client) (running : before.Running number key)
      (joined : ∀ attempt, client.attempts[number]? = some attempt → attempt.joiners = joiners)
      (outcome : Except Fault String) : Moves before (client.ended number outcome joiners)
  /-- One that has ended is not under way any more. -/
  | forget {starting : Entries (String × String) Nat}
      (under : ∀ key number, starting.get? key = some number → before.starting.get? key = some number) :
      Moves before { before with starting }

theorem Turned.moves (ht : Turned engine later) : Moves engine.client later.client := by
  cases ht with
  | task turn =>
    cases turn with
    | nothing => exact .quiet (Calm.refl _).toQuiet
    | @step _ step advances _ =>
      obtain ⟨client, activity | outcome⟩ := step
      · rcases advances.change with hc | ⟨-, key, hl⟩
        · exact .quiet hc.toQuiet
        · exact .launches hl
      · exact .quiet (advances.calm.trans (client.calm_note _)).toQuiet
  | waits _ _ attempts => exact .quiet attempts.quiet
  | ends running _ attempts joined => exact .ends attempts.quiet running joined _
  | @forget number attempt _ found _ _ =>
    dsimp only [Engine.forget]
    rw [found]
    dsimp only
    split
    · refine .forget fun key number hs => ?_
      rw [Entries.get?_erase] at hs
      split at hs
      · cases hs
      · exact hs
    · exact .quiet (Calm.refl _).toQuiet
  | calm hc => exact .quiet hc.toQuiet

theorem Moves.tickets (h : Moves before after) : before.tickets ≤ after.tickets := by
  cases h with
  | quiet quiet => exact quiet.tickets
  | launches launches => exact launches.tickets
  | ends quiet _ _ _ => exact quiet.tickets
  | forget _ => exact Nat.le_refl _

/-- An attempt is for the same key later on, and keeps its outcome. -/
def Lasts (before after : Attempt) : Prop :=
  after.key = before.key ∧ ∀ outcome, before.outcome = some outcome → after.outcome = some outcome

theorem Lasts.refl (attempt : Attempt) : Lasts attempt attempt := ⟨rfl, fun _ ho => ho⟩

theorem Lasts.trans {first second third : Attempt} (h : Lasts first second) (h' : Lasts second third) : Lasts first third :=
  ⟨h'.1.trans h.1, fun outcome ho => h'.2 outcome (h.2 outcome ho)⟩

theorem lasts_of_quiet (h : Quiet before after) {n : Nat} {attempt : Attempt}
    (ha : before.attempts[n]? = some attempt) :
    ∃ attempt', after.attempts[n]? = some attempt' ∧ Lasts attempt attempt' := by
  obtain ⟨attempt', ha', hj⟩ := h.attempt n attempt ha
  exact ⟨attempt', ha', hj.key, fun _ ho => hj.outcome.trans ho⟩

/-- An attempt lasts through a turn. -/
theorem Moves.lasts (h : Moves before after) {n : Nat} {attempt : Attempt}
    (ha : before.attempts[n]? = some attempt) :
    ∃ attempt', after.attempts[n]? = some attempt' ∧ Lasts attempt attempt' := by
  cases h with
  | quiet quiet => exact lasts_of_quiet quiet ha
  | launches launches => exact ⟨attempt, launches.attempt ha, .refl attempt⟩
  | ends quiet running _ _ =>
    obtain ⟨attempt', ha', hlasts⟩ := lasts_of_quiet quiet ha
    rw [getElem?_ended, ha']
    split
    · next hn =>
      -- The attempt that ends had no outcome before.
      subst hn
      obtain ⟨running, hf, -, hn⟩ := running
      cases ha.symm.trans hf
      exact ⟨_, rfl, hlasts.1, fun outcome ho => nomatch hn.symm.trans ho⟩
    · exact ⟨attempt', rfl, hlasts⟩
  | forget _ => exact ⟨attempt, ha, .refl attempt⟩

/-- An attempt that is under way behind a turn was so before, or it is launched in this turn. -/
theorem Moves.underWay (h : Moves before after) {key : String × String} {n : Nat}
    (hs : after.starting.get? key = some n) :
    before.starting.get? key = some n ∨ n = before.attempts.length ∧ Launches key before after := by
  cases h with
  | quiet quiet => exact Or.inl (quiet.starting ▸ hs)
  | launches launches =>
    have hset := hs
    rw [launches.starting, Entries.get?_set] at hset
    split at hset
    · next hk => exact Or.inr ⟨(Option.some.inj hset).symm, hk ▸ launches⟩
    · exact Or.inl hset
  | ends quiet _ _ _ => exact Or.inl (quiet.starting ▸ hs)
  | forget under => exact Or.inl (under key n hs)

/-- A new attempt is launched. -/
theorem Moves.launched (h : Moves before after) {n : Nat} {attempt : Attempt} (hn : before.attempts.length ≤ n)
    (ha : after.attempts[n]? = some attempt) : Launches attempt.key before after := by
  have hlt := (List.getElem?_eq_some_iff.1 ha).1
  cases h with
  | quiet quiet =>
    rw [quiet.length] at hlt
    omega
  | launches launches =>
    obtain ⟨new, hattempts, hk, -⟩ := launches.attempts
    rw [hattempts, List.length_append, List.length_singleton] at hlt
    have hnew : n = before.attempts.length := by omega
    rw [hattempts, hnew, List.getElem?_concat_length] at ha
    cases ha
    exact hk ▸ launches
  | ends quiet _ _ _ =>
    rw [Client.ended, pushAll, List.length_modify, quiet.length] at hlt
    omega
  | forget _ => exact absurd hlt (Nat.not_lt_of_le hn)

end Later

end LanguageSessions.Engine
