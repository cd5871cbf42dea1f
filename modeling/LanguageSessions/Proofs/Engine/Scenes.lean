import LanguageSessions.Proofs.Client.Errands
import LanguageSessions.Proofs.Engine.Course

/-!
# Scenes of events

Every event of a course shows in the scene as changes within a warrant that permits it, as the end of an attempt, or as
the binding of files (`Happens`). Between two events the engine is composed (`Composed`): sessions whose processes are
being stopped are halted, an attempt that ended well brought its session to be ready, and the calls that hand something
over are those of the letters.
-/

namespace LanguageSessions

open Client Scene

/-! ## What happens to a scene -/

/-- What an event does to a scene, within a warrant. -/
inductive Happens (warrant : Warrant) : Scene → Scene → Prop
  | changes {before after : Scene} (changes : Changes warrant before after) : Happens warrant before after
  /-- Behind changes an attempt ends. -/
  | concludes {before after : Scene} {number : Nat} {outcome : Except Fault String}
      (changes : Changes warrant before after) (attains : ∀ id, outcome = .ok id → after.Attains id) :
      Happens warrant before { after with outcomes := after.outcomes.modify number fun _ => some outcome }
  /-- Files are bound. -/
  | binds {scene : Scene} {bindings : List Binding} (rebinds : warrant.rebinds bindings) :
      Happens warrant scene { scene with bindings }

namespace Scene

/-- Every attempt that ended well brought its session to be ready. -/
def Fruitful (scene : Scene) : Prop := ∀ id, some (.ok id) ∈ scene.outcomes → scene.Reached id

/-- The calls that hand something over are those of the letters. -/
def Accounted (scene : Scene) : Prop :=
  scene.calls.filterMap LayerCall.sent? = scene.letters.map fun letter => (letter.session, letter.text)

end Scene

section Lasting

variable {warrant : Warrant} {before after : Scene}

theorem Changes.fruitful (h : Changes warrant before after) (hf : before.Fruitful) : after.Fruitful :=
  fun id hm => (hf id (h.outcomes hm)).advances h.advances

theorem Scene.Accounted.handOver (h : before.Accounted) (letter : Letter) (reply : Reply Unit) :
    (before.handOver letter reply).Accounted := by
  unfold Accounted Scene.handOver at *
  dsimp only
  rw [List.filterMap_append, List.map_append, h]
  rfl

theorem Change.accounted (h : Change warrant before after) (ha : before.Accounted) : after.Accounted := by
  cases h with
  | called exchange silent =>
    unfold Accounted at *
    dsimp only
    rw [List.filterMap_append, List.filterMap_cons_none silent, ha]
    exact List.append_nil _
  | handed reply plain passes => exact ha.handOver _ reply
  | @asked letter request entry params reply plain own registered owner text =>
    have hset : Scene.Accounted { before with waiting := before.waiting.set request entry } := ha
    exact hset.handOver letter reply
  | @noticed id number session notice reply listed found ready tells =>
    have hset : Scene.Accounted { before with sessions := before.sessions.modify number (·.takeDown notice) } := ha
    exact hset.handOver _ reply
  | _ => exact ha

theorem Changes.accounted (h : Changes warrant before after) (ha : before.Accounted) : after.Accounted := by
  induction h with
  | refl => exact ha
  | tail _ last ih => exact last.accounted ih

theorem Happens.advances (h : Happens warrant before after) : before.sessions.Advances after.sessions := by
  cases h with
  | changes changes => exact changes.advances
  | concludes changes attains => exact changes.advances
  | binds rebinds => exact .refl _

theorem Happens.passed (h : Happens warrant before after) {letter : Letter} (hm : letter ∈ after.letters)
    (hp : letter.IsPassed) : letter ∈ before.letters ∨ warrant.passes letter := by
  cases h with
  | changes changes => exact changes.passed hm hp
  | concludes changes attains => exact changes.passed hm hp
  | binds rebinds => exact Or.inl hm

theorem Happens.halts (h : Happens warrant before after) {number : Nat} (hh : before.Halts number) :
    after.Halts number := by
  cases h with
  | changes changes => exact changes.halts hh
  | concludes changes attains =>
    obtain ⟨id, bears, waited, overdue⟩ := changes.halts hh
    exact ⟨id, bears, waited, overdue⟩
  | binds rebinds =>
    obtain ⟨id, bears, waited, overdue⟩ := hh
    exact ⟨id, bears, waited, overdue⟩

theorem Happens.fruitful (h : Happens warrant before after) (hf : before.Fruitful) : after.Fruitful := by
  cases h with
  | changes changes => exact changes.fruitful hf
  | @concludes after number outcome changes attains =>
    intro id hm
    obtain ⟨n, hn⟩ := List.mem_iff_getElem?.1 hm
    rw [List.getElem?_modify] at hn
    split at hn
    · -- The attempt that has ended.
      obtain ⟨_, -, heq⟩ := Option.map_eq_some_iff.1 hn
      cases heq
      exact (attains id rfl).reached
    · have hm : some (.ok id) ∈ after.outcomes := List.mem_of_getElem? (by simpa using hn)
      exact changes.fruitful hf id hm
  | binds rebinds => exact hf

theorem Happens.accounted (h : Happens warrant before after) (ha : before.Accounted) : after.Accounted := by
  cases h with
  | changes changes => exact changes.accounted ha
  | concludes changes attains => exact changes.accounted ha
  | binds rebinds => exact ha

end Lasting

/-! ## Messages of servers -/

namespace Client

variable {σ : Type} {before after : Client (σ × List Exchange)}

theorem Told.unseen {listeners : List Listener} {first second : Json} (h : Told listeners first second before after) :
    Unseen before after := by
  intro letters
  have hcalls := congrArg Account.calls (h.accords letters)
  change after.history.filterMap Effect.called? = before.history.filterMap Effect.called? at hcalls
  unfold scene
  rw [hcalls, h.rest]

theorem Notified.unseen {method : String} {params : Json} (h : Notified method params before after) :
    Unseen before after := by
  obtain ⟨middle, htold, hpublished⟩ := h.told
  refine htold.unseen.trans ?_
  cases hpublished with
  | diagnostics _ _ _ told => exact told.unseen
  | malformed text _ _ => exact unseen_log _ (.error text)
  | nothing _ => exact .refl _

/-- A message that is heard ends a request, or it is not seen. -/
theorem changes_hear {warrant : Warrant} (client : Client (σ × List Exchange)) (letters : List Letter)
    (delivery : Delivery) : Changes warrant (client.scene letters) ((client.hear delivery).scene letters) := by
  have hunseen : ∀ next : Client (σ × List Exchange), Unseen client next →
      Changes warrant (client.scene letters) (next.scene letters) := by
    intro next hu
    rw [hu]
    exact .refl
  unfold hear
  split
  · unfold hear?
    cases Message.decode delivery.text with
    | error e =>
      cases e with
      | longInteger => exact .refl
      | _ => exact hunseen _ (client.unseen_log _)
    | ok message =>
      cases message with
      | notification method params id =>
        exact hunseen _ (client.notified_hearNotification delivery.session method params).unseen
      | response id result error =>
        cases error with
        | none =>
          refine .single ?_
          change Change warrant _ ((client.resolve id result).scene letters)
          unfold Client.resolve
          rw [unseen_logAll]
          refine .settled fun entry hm => ?_
          change entry ∈ (client.pending.resolve id result).1.entries at hm
          rw [Pending.resolve_fst, Pending.entries_finish, Entries.erase_eq_filter] at hm
          exact List.mem_of_mem_filter hm
        | some error =>
          change Changes warrant _ ((client.refuse id error).scene letters)
          unfold Client.refuse
          dsimp only
          split
          · next method _ =>
            rw [← client.unseen_log (answeredWithError method id (errorText error)) letters]
            exact .single (change_reject _ letters id _ _)
          · exact .single (client.change_reject letters id _ _)
  · exact .refl

end Client

namespace Engine

variable {σ : Type}

/-! ## Who acts in an event -/

section Acting

variable (engine : Engine (σ × List Exchange)) (event : Event σ)

/-- In an event a task begins with its operation. -/
def Begins (task : Nat) (operation : Operation) : Prop :=
  event = .turn ∧ (∃ queue, engine.client.queue = .begin task :: queue) ∧
    engine.tasks[task]? = some ⟨.ready operation, false⟩

/-- In an event a task goes on with its activity. -/
def GoesOn (task : Nat) (activity : Activity) : Prop :=
  event = .turn ∧ (∃ signal queue, engine.client.queue = .wake signal :: queue ∧
    engine.tasks.findIdx? (Task.waitsFor signal) = some task) ∧ engine.Waits task activity

/-- In an event somebody asks for a letter. -/
def Writes (letter : Letter) : Prop := ∃ task operation, engine.Begins event task operation ∧ operation.Writes letter

/-- A task has ended with a session. -/
def GaveBack (task : Nat) (id : String) : Prop :=
  engine.tasks[task]? = some ⟨.finished (.ok (.session (some id))), false⟩

/-- In an event a binding is connected to a session: the call that connects it ends. -/
def Connects (setup : Setup σ) (number : Nat) (id : String) : Prop :=
  ∃ task, ((∃ operation, engine.Begins event task operation ∧ operation.connected? = some number) ∨
    ∃ activity, engine.GoesOn event task activity ∧ activity.connected? = some number) ∧
      (engine.goes setup event).GaveBack task id

/-- A warrant permits an event: it covers whoever acts in it. -/
structure Permits (setup : Setup σ) (warrant : Warrant) : Prop where
  begins : ∀ task operation, engine.Begins event task operation → warrant.Covers engine.client.bindings operation
  goesOn : ∀ task activity, engine.GoesOn event task activity → warrant.CoversActivity activity
  connects : ∀ number id, engine.Connects event setup number id → warrant.connects number id
  rebinds : ∀ bindings, event = .bind bindings → warrant.rebinds bindings

end Acting

/-- The event in which a task begins. -/
theorem goes_of_begins (setup : Setup σ) {engine : Engine (σ × List Exchange)} {event : Event σ} {task : Nat}
    {operation : Operation} (h : engine.Begins event task operation) :
    ∃ queue, engine.goes setup event = (engine.withQueue queue).afterTask task
      ((engine.withQueue queue).client.beginOperation setup.recorded operation) := by
  obtain ⟨rfl, ⟨queue, hq⟩, ready⟩ := h
  exact ⟨queue, (next_of_turn hq setup.recorded).trans (beginTask_of_ready (engine.withQueue queue) setup.recorded ready)⟩

/-- The event in which a task goes on. -/
theorem goes_of_goesOn (setup : Setup σ) {engine : Engine (σ × List Exchange)} {event : Event σ} {task : Nat}
    {activity : Activity} (h : engine.GoesOn event task activity) :
    ∃ queue, engine.goes setup event = (engine.withQueue queue).resumeTask setup.recorded task := by
  obtain ⟨rfl, ⟨signal, queue, hq, hf⟩, -⟩ := h
  exact ⟨queue, (next_of_turn hq setup.recorded).trans (perform_wake_of_some (engine.withQueue queue) setup.recorded hf)⟩

/-! ## Composed engines -/

/-- Somebody waits for the process of the session with a number to stop. -/
def Discards (engine : Engine σ) (number : Nat) : Prop :=
  (∃ task activity, engine.Waits task activity ∧ activity.discarded? = some number) ∨
    ∃ attempt phase, engine.attempts.get? attempt = some phase ∧ phase.discarded? = some number

/-- Sessions whose processes are being stopped are halted, attempts that ended well were fruitful, and the calls are
accounted for by letters. -/
structure Composed (letters : List Letter) (engine : Engine (σ × List Exchange)) : Prop where
  halts : ∀ number, engine.Discards number → (engine.client.scene letters).Halts number
  fruitful : (engine.client.scene letters).Fruitful
  accounted : (engine.client.scene letters).Accounted

/-- What happens to an engine happens to its scene within a warrant, and leaves the engine composed. -/
def Plays (warrant : Warrant) (letters : List Letter) (before after : Engine (σ × List Exchange)) : Prop :=
  ∃ letters', Happens warrant (before.client.scene letters) (after.client.scene letters') ∧ Composed letters' after

section Composed

variable {warrant : Warrant} {letters letters' : List Letter} {engine after : Engine (σ × List Exchange)}

/-- Something happens, and nobody else waits for a process to stop but where the session is halted. -/
theorem Composed.happens (h : Composed letters engine)
    (happens : Happens warrant (engine.client.scene letters) (after.client.scene letters'))
    (discards : ∀ number, after.Discards number →
      engine.Discards number ∨ (after.client.scene letters').Halts number) : Composed letters' after := by
  refine ⟨fun number hd => ?_, happens.fruitful h.fruitful, happens.accounted h.accounted⟩
  rcases discards number hd with hd | hh
  · exact happens.halts (h.halts number hd)
  · exact hh

theorem Composed.plays (h : Composed letters engine)
    (happens : Happens warrant (engine.client.scene letters) (after.client.scene letters'))
    (discards : ∀ number, after.Discards number →
      engine.Discards number ∨ (after.client.scene letters').Halts number) : Plays warrant letters engine after :=
  ⟨letters', happens, h.happens happens discards⟩

/-- Something happens to the client alone. -/
theorem Composed.changes (h : Composed letters engine) {client : Client (σ × List Exchange)}
    (changes : Changes warrant (engine.client.scene letters) (client.scene letters)) :
    Plays warrant letters engine { engine with client } := h.plays (.changes changes) fun _ => Or.inl

theorem Composed.unseen (h : Composed letters engine) {client : Client (σ × List Exchange)}
    (hu : Unseen engine.client client) : Plays warrant letters engine { engine with client } := by
  refine h.changes ?_
  rw [hu]
  exact .refl

/-! ### Tasks -/

/-- A task has got on. -/
theorem Composed.task (h : Composed letters engine) (number : Nat) {post : Scene → Progress Activity Answer → Prop}
    {step : Client (σ × List Exchange) × Progress Activity Answer}
    (makes : Makes warrant (engine.client.scene letters) post step)
    (halting : ∀ scene, post scene step.2 → Halting Activity.discarded? scene step.2) :
    ∃ letters', Happens warrant (engine.client.scene letters) ((engine.afterTask number step).client.scene letters') ∧
      Composed letters' (engine.afterTask number step) ∧
      post ((engine.afterTask number step).client.scene letters') step.2 := by
  obtain ⟨letters', changes, hpost⟩ := makes
  have hscene : (engine.afterTask number step).client.scene letters' = step.1.scene letters' := by
    obtain ⟨client, activity | outcome⟩ := step
    · rfl
    · exact client.unseen_note rfl letters'
  have hattempts := engine.attempts_afterTask number step
  rw [← hscene] at changes hpost
  refine ⟨letters', .changes changes, h.happens (.changes changes) fun session hd => ?_, hpost⟩
  rcases hd with ⟨task, activity, waits, hactivity⟩ | ⟨attempt, phase, hget, hphase⟩
  · by_cases hn : task = number
    · subst hn
      exact Or.inr (halting _ hpost activity session (waits_afterTask waits) hactivity)
    · obtain ⟨cancelled, hfound⟩ := waits
      rw [engine.getElem?_afterTask hn] at hfound
      exact Or.inl (Or.inl ⟨task, activity, ⟨cancelled, hfound⟩, hactivity⟩)
  · rw [hattempts] at hget
    exact Or.inl (Or.inr ⟨attempt, phase, hget, hphase⟩)

theorem Composed.afterTask (h : Composed letters engine) (number : Nat)
    {step : Client (σ × List Exchange) × Progress Activity Answer}
    (makes : Makes warrant (engine.client.scene letters) (Halting Activity.discarded?) step) :
    Plays warrant letters engine (engine.afterTask number step) := by
  obtain ⟨letters', happens, composed, -⟩ := h.task number makes fun _ => id
  exact ⟨letters', happens, composed⟩

/-- A task that ends with an outcome has that outcome. -/
theorem getElem?_afterTask_ends {number : Nat} {task : Task} {outcome : Except Fault Answer}
    {step : Client (σ × List Exchange) × Progress Activity Answer} (found : engine.tasks[number]? = some task)
    (ends : step.2 = .ends outcome) :
    (engine.afterTask number step).tasks[number]? = some ⟨.finished outcome, false⟩ := by
  obtain ⟨client, progress⟩ := step
  subst ends
  exact List.getElem?_set_self (List.getElem?_eq_some_iff.1 found).1

theorem Composed.beginTask (h : Composed letters engine) (named : engine.client.sessions.Named) (setup : Setup σ)
    (number : Nat)
    (covers : ∀ operation, engine.tasks[number]? = some ⟨.ready operation, false⟩ →
      warrant.Covers engine.client.bindings operation)
    (connects : ∀ operation binding id, engine.tasks[number]? = some ⟨.ready operation, false⟩ →
      operation.connected? = some binding → (engine.beginTask setup.recorded number).GaveBack number id →
      warrant.connects binding id) : Plays warrant letters engine (engine.beginTask setup.recorded number) := by
  unfold Engine.beginTask at connects ⊢
  split
  · next operation cancelled ht =>
    rw [ht] at connects covers
    refine h.afterTask number ?_
    split
    · exact makes_nothing rfl (halting_ends _)
    · next hc =>
      rw [Bool.not_eq_true] at hc
      subst hc
      refine makes_beginOperation setup named (covers operation rfl) fun binding id hb hstep => ?_
      exact connects operation binding id rfl hb (getElem?_afterTask_ends ht hstep)
  · exact h.unseen (.refl _)

theorem Composed.resumeTask (h : Composed letters engine) (setup : Setup σ) (number : Nat)
    (covers : ∀ activity, engine.Waits number activity → warrant.CoversActivity activity)
    (connects : ∀ activity binding id, engine.Waits number activity → activity.connected? = some binding →
      (engine.resumeTask setup.recorded number).GaveBack number id → warrant.connects binding id) :
    Plays warrant letters engine (engine.resumeTask setup.recorded number) := by
  unfold Engine.resumeTask at connects ⊢
  split
  · next activity cancelled ht =>
    rw [ht] at connects
    have waits : engine.Waits number activity := ⟨cancelled, ht⟩
    refine h.afterTask number (makes_resumeActivity setup cancelled (covers activity waits) ?_ ?_)
    · exact fun binding id hb hstep => connects activity binding id waits hb (getElem?_afterTask_ends ht hstep)
    · exact fun session hd => h.halts session (Or.inl ⟨number, activity, waits, hd⟩)
  · exact h.unseen (.refl _)

/-! ### Attempts -/

/-- An attempt has got on: it waits, or it has ended and brought its session to be ready if it ended well. -/
theorem Composed.afterAttempt (h : Composed letters engine) (number : Nat) (attempt : Attempt)
    {step : Client (σ × List Exchange) × Progress AttemptPhase String}
    (makes : Makes warrant (engine.client.scene letters) Staged step) :
    Plays warrant letters engine (engine.afterAttempt number attempt step) := by
  obtain ⟨letters', changes, staged⟩ := makes
  obtain ⟨client, phase | outcome⟩ := step
  · have hheard : Unseen client
        { client with attempts := client.attempts.modify number fun attempt => { attempt with isCancelled := false } } :=
      client.unseen_attempts number fun _ => rfl
    rw [← hheard letters'] at changes
    refine h.plays (.changes changes) fun session hd => ?_
    rcases hd with hd | ⟨other, waiting, hget, hphase⟩
    · exact Or.inl (Or.inl hd)
    · change (engine.attempts.set number phase).get? other = some waiting at hget
      rw [Entries.get?_set] at hget
      split at hget
      · cases hget
        right
        change Scene.Halts (Client.scene { client with
          attempts := client.attempts.modify number fun attempt => { attempt with isCancelled := false } } letters') session
        rw [hheard letters']
        exact staged.halting phase session rfl hphase
      · exact Or.inl (Or.inr ⟨other, waiting, hget, hphase⟩)
  · have hscene : (engine.afterAttempt number attempt (client, .ends outcome)).client.scene letters' =
        { client.scene letters' with
          outcomes := (client.scene letters').outcomes.modify number fun _ => some outcome } := by
      have hmap : (client.attempts.modify number fun attempt =>
          { attempt with outcome := some outcome, joiners := [] }).map (·.outcome) =
          (client.attempts.map (·.outcome)).modify number fun _ => some outcome := by
        refine List.ext_getElem? fun n => ?_
        rw [List.getElem?_map, List.getElem?_modify, List.getElem?_modify, List.getElem?_map]
        split
        · cases client.attempts[n]? <;> rfl
        · simp
      unfold Engine.afterAttempt scene
      exact congrArg (fun outcomes => { client.scene letters' with outcomes }) hmap
    have hhappens : Happens warrant _ { client.scene letters' with
        outcomes := (client.scene letters').outcomes.modify number fun _ => some outcome } :=
      .concludes changes fun id hid => staged.attains id (hid ▸ rfl)
    rw [← hscene] at hhappens
    refine h.plays hhappens fun session hd => ?_
    rcases hd with hd | ⟨other, waiting, hget, hphase⟩
    · exact Or.inl (Or.inl hd)
    · change (engine.attempts.erase number).get? other = some waiting at hget
      rw [Entries.get?_erase] at hget
      split at hget
      · cases hget
      · exact Or.inl (Or.inr ⟨other, waiting, hget, hphase⟩)

theorem Composed.beginAttempt (h : Composed letters engine) (setup : Setup σ) (number : Nat) :
    Plays warrant letters engine (engine.beginAttempt setup.recorded number) := by
  unfold Engine.beginAttempt
  split
  · exact h.unseen (.refl _)
  · next attempt _ =>
    refine h.afterAttempt number attempt ?_
    split
    · exact makes_nothing rfl (staged_fails _)
    · exact engine.client.makes_attempt setup letters _ _

theorem Composed.resumeAttempt (h : Composed letters engine) (setup : Setup σ) (number : Nat) :
    Plays warrant letters engine (engine.resumeAttempt setup.recorded number) := by
  unfold Engine.resumeAttempt
  split
  · next attempt phase _ hp =>
    refine h.afterAttempt number attempt (engine.client.makes_resumeAttempt setup letters _ _ _ fun session hd => ?_)
    exact h.halts session (Or.inr ⟨number, phase, hp, hd⟩)
  · exact h.unseen (.refl _)

/-! ### Cancelling -/

theorem unseen_interrupt (client : Client (σ × List Exchange)) (signal : Signal) :
    Unseen client (interrupt client signal) := by
  unfold interrupt
  split
  · next index =>
    split
    · next pending waited heq =>
      have hentries : pending.entries = client.pending.entries := by
        rw [← client.pending.entries_abandon index, heq]
      split
      · exact (client.push .release).unseen_setPending hentries
      · exact .refl client
  · exact fun _ => rfl

theorem unseen_cancelAttempts (attempts : List Nat) (engine : Engine (σ × List Exchange)) :
    Unseen engine.client (attempts.foldl cancelAttempt engine).client := by
  induction attempts generalizing engine with
  | nil => exact .refl _
  | cons number attempts ih =>
    have hcancelled := engine.client.unseen_attempts number (f := fun attempt =>
      { attempt with isCancelled := attempt.outcome.isNone }) fun _ => rfl
    have hone : Unseen engine.client (engine.cancelAttempt number).client := by
      unfold cancelAttempt
      dsimp only
      split
      · exact hcancelled
      · exact hcancelled.trans (unseen_interrupt _ _)
    exact hone.trans (ih _)

/-- A task that is cancelled stays in its phase. -/
theorem Composed.flag (h : Composed letters engine) {number : Nat} {task : Task}
    (found : engine.tasks[number]? = some task) (hu : Unseen engine.client after.client)
    (attempts : after.attempts = engine.attempts)
    (tasks : after.tasks = engine.tasks.set number { task with isCancelled := true }) :
    Plays warrant letters engine after := by
  have hhappens : Happens warrant (engine.client.scene letters) (after.client.scene letters) := by
    rw [hu]
    exact .changes .refl
  refine h.plays hhappens fun session hd => Or.inl ?_
  rcases hd with ⟨other, activity, ⟨cancelled, hother⟩, hd⟩ | ⟨attempt, phase, hget, hphase⟩
  · rw [tasks, List.getElem?_set] at hother
    split at hother
    · next hn =>
      subst hn
      split at hother
      · obtain ⟨state, flag⟩ := task
        cases hother
        exact Or.inl ⟨number, activity, ⟨flag, found⟩, hd⟩
      · cases hother
    · exact Or.inl ⟨other, activity, ⟨cancelled, hother⟩, hd⟩
  · rw [attempts] at hget
    exact Or.inr ⟨attempt, phase, hget, hphase⟩

theorem Composed.cancel (h : Composed letters engine) (number : Nat) :
    Plays warrant letters engine (engine.cancel number).1 := by
  unfold Engine.cancel
  split
  · exact h.unseen (.refl _)
  · next task found =>
    dsimp only
    split
    · exact h.unseen (.refl _)
    · exact h.flag found (.refl _) rfl rfl
    · split
      · next attempts _ =>
        let flagged := { engine with tasks := engine.tasks.set number { task with isCancelled := true } }
        obtain ⟨ha, ht⟩ := cancelAttempts_rest attempts flagged
        exact h.flag found (unseen_cancelAttempts attempts flagged) ha ht
      · exact h.flag found (unseen_interrupt _ _) rfl rfl

/-! ### Turns -/

theorem unseen_countGathered (client : Client (σ × List Exchange)) (ticket : Nat) :
    Unseen client (countGathered client ticket) := by
  unfold countGathered
  split <;> exact fun _ => rfl

theorem unseen_forget (client : Client (σ × List Exchange)) (number : Nat) : Unseen client (forget client number) := by
  unfold forget
  split
  · exact .refl client
  · dsimp only
    split <;> exact fun _ => rfl

/-- A task begins, goes on, or neither. -/
theorem Composed.perform (h : Composed letters engine) (named : engine.client.sessions.Named) (setup : Setup σ)
    {turn : Turn}
    (begins : ∀ task operation, turn = .begin task → engine.tasks[task]? = some ⟨.ready operation, false⟩ →
      warrant.Covers engine.client.bindings operation ∧ ∀ binding id, operation.connected? = some binding →
        (engine.perform setup.recorded turn).GaveBack task id → warrant.connects binding id)
    (goesOn : ∀ signal task activity, turn = .wake signal →
      engine.tasks.findIdx? (Task.waitsFor signal) = some task → engine.Waits task activity →
      warrant.CoversActivity activity ∧ ∀ binding id, activity.connected? = some binding →
        (engine.perform setup.recorded turn).GaveBack task id → warrant.connects binding id) :
    Plays warrant letters engine (engine.perform setup.recorded turn) := by
  cases turn with
  | begin task =>
    refine h.beginTask named setup task (fun operation ht => (begins task operation rfl ht).1) ?_
    exact fun operation binding id ht hb hgave => (begins task operation rfl ht).2 binding id hb hgave
  | launch number => exact h.beginAttempt setup number
  | wake signal =>
    rcases engine.perform_wake_cases setup.recorded signal with ⟨task, hf, heq⟩ | ⟨number, phase, -, -, heq⟩ | heq
    · rw [heq] at goesOn ⊢
      refine h.resumeTask setup task (fun activity hw => (goesOn signal task activity rfl hf hw).1) ?_
      exact fun activity binding id hw hb hgave => (goesOn signal task activity rfl hf hw).2 binding id hb hgave
    · rw [heq]
      exact h.resumeAttempt setup number
    · rw [heq]
      exact h.unseen (.refl _)
  | release => exact h.changes (.single (.settled fun _ hm => Pending.mem_entries_release hm))
  | forget number => exact h.unseen (unseen_forget _ number)
  | joined ticket => exact h.unseen fun _ => rfl
  | gathered ticket => exact h.unseen (unseen_countGathered _ ticket)
  | deliver delivery => exact h.changes (engine.client.changes_hear letters delivery)

theorem Composed.next (h : Composed letters engine) (named : engine.client.sessions.Named) (setup : Setup σ)
    (permits : engine.Permits (.turn : Event σ) setup warrant) :
    Plays warrant letters engine (engine.next setup.recorded) := by
  rcases next_cases engine setup.recorded with heq | ⟨turn, queue, hq, heq⟩
  · rw [heq]
    exact h.unseen (.refl _)
  · have hgoes : (engine.goes setup (.turn : Event σ)) = (engine.withQueue queue).perform setup.recorded turn := heq
    rw [heq]
    have hpopped : Composed letters (engine.withQueue queue) := ⟨h.halts, h.fruitful, h.accounted⟩
    refine hpopped.perform named setup ?_ ?_
    · rintro task operation rfl ht
      have hbegins : engine.Begins (.turn : Event σ) task operation := ⟨rfl, ⟨queue, hq⟩, ht⟩
      refine ⟨permits.begins task operation hbegins, fun binding id hb hgave => permits.connects binding id ?_⟩
      exact ⟨task, Or.inl ⟨operation, hbegins, hb⟩, hgoes ▸ hgave⟩
    · rintro signal task activity rfl hf hw
      have hgoesOn : engine.GoesOn (.turn : Event σ) task activity := ⟨rfl, ⟨signal, queue, hq, hf⟩, hw⟩
      refine ⟨permits.goesOn task activity hgoesOn, fun binding id hb hgave => permits.connects binding id ?_⟩
      exact ⟨task, Or.inr ⟨activity, hgoesOn, hb⟩, hgoes ▸ hgave⟩

/-- **Every event shows in the scene within a warrant that permits it**, and keeps the engine composed. -/
theorem Composed.goes (h : Composed letters engine) (named : engine.client.sessions.Named) (setup : Setup σ)
    {event : Event σ} (permits : engine.Permits event setup warrant) :
    Plays warrant letters engine (engine.goes setup event) := by
  cases event with
  | call operation =>
    refine h.plays (.changes .refl) fun session hd => Or.inl ?_
    rcases hd with ⟨task, activity, ⟨cancelled, found⟩, hd⟩ | hd
    · change (engine.tasks ++ [⟨.ready operation, false⟩])[task]? = _ at found
      rw [List.getElem?_append] at found
      split at found
      · exact Or.inl ⟨task, activity, ⟨cancelled, found⟩, hd⟩
      · cases List.mem_singleton.1 (List.mem_of_getElem? found)
    · exact Or.inr hd
  | turn => exact h.next named setup permits
  | expire timer =>
    let expired := engine.client.pending.expire timer
    have hchange : Change warrant (engine.client.scene letters)
        (((engine.client.setPending expired.1).logAll expired.2).scene letters) := by
      rw [unseen_logAll]
      exact .settled fun _ hm => Pending.mem_entries_expire timer hm
    have hplays := h.changes (.single hchange)
    exact hplays
  | moveClock time => exact h.unseen fun _ => rfl
  | cancel number => exact h.cancel number
  | layer state tickets deliveries => exact h.unseen fun _ => rfl
  | hear delivery => exact h.changes (engine.client.changes_hear letters delivery)
  | listen audience => exact h.unseen fun _ => rfl
  | bind bindings => exact h.plays (.binds (permits.rebinds bindings rfl)) fun _ => Or.inl
  | reorder queue => exact h.unseen fun _ => rfl

end Composed

/-! ## Courses -/

section Courses

variable (setup : Setup σ) (layer : σ) (settings : Settings)

theorem composed_fresh : Composed [] (fresh layer settings) where
  halts number hd := by
    rcases hd with ⟨task, activity, ⟨cancelled, found⟩, -⟩ | ⟨attempt, phase, hget, -⟩
    · cases found
    · cases hget
  fruitful id hm := absurd hm List.not_mem_nil
  accounted := rfl

theorem named_course (events : List (Event σ)) :
    (course setup (fresh layer settings) events).client.sessions.Named := by
  obtain ⟨letters, lawful⟩ := lawful_course setup layer settings events
  exact lawful.coherent.named

/-- What anybody may do in an event: nothing is passed on, connected or bound but what is in it. -/
def latitude (engine : Engine (σ × List Exchange)) (event : Event σ) (setup : Setup σ) : Warrant :=
  ⟨fun _ => True, engine.Writes event, fun _ => True, engine.Connects event setup,
    fun bindings => event = .bind bindings⟩

theorem permits_latitude (engine : Engine (σ × List Exchange)) (event : Event σ) (setup : Setup σ) :
    engine.Permits event setup (engine.latitude event setup) where
  begins task operation begins := by
    cases operation with
    | notify session method params => exact ⟨task, _, begins, .notify⟩
    | _ => simp [latitude, Warrant.Covers]
  goesOn task activity _ := by
    cases activity with
    | noticing use phase => cases use <;> exact trivial
    | _ => exact trivial
  connects _ _ := id
  rebinds _ := id

/-- **What each event keeps of the scene holds in the course of events.** -/
theorem scene_course (holds : List (Event σ) → Scene → Prop) (first : holds [] ((fresh layer settings).client.scene []))
    (step : ∀ events event letters letters', Composed letters (course setup (fresh layer settings) events) →
      holds events ((course setup (fresh layer settings) events).client.scene letters) →
      Happens ((course setup (fresh layer settings) events).latitude event setup)
        ((course setup (fresh layer settings) events).client.scene letters)
        ((course setup (fresh layer settings) (events ++ [event])).client.scene letters') →
      holds (events ++ [event]) ((course setup (fresh layer settings) (events ++ [event])).client.scene letters'))
    (events : List (Event σ)) :
    ∃ letters, Composed letters (course setup (fresh layer settings) events) ∧
      holds events ((course setup (fresh layer settings) events).client.scene letters) := by
  induction events using List.reverseRecOn with
  | nil => exact ⟨[], composed_fresh layer settings, first⟩
  | append_singleton events event ih =>
    obtain ⟨letters, composed, held⟩ := ih
    have hplays := composed.goes (named_course setup layer settings events) setup (permits_latitude _ event setup)
    rw [← course_concat] at hplays
    obtain ⟨letters', happens, composed'⟩ := hplays
    exact ⟨letters', composed', step events event letters letters' composed held happens⟩

/-- At some point in the course of events a session with an identifier was ready. -/
def WasReady (events : List (Event σ)) (id : String) : Prop :=
  ∃ before after, events = before ++ after ∧ ∃ number session,
    (course setup (fresh layer settings) before).client.sessions.session? number = some session ∧ session.id = id ∧
      session.stage = .ready

/-- **An attempt that ended well brought its session to be ready.** -/
theorem ready_of_ended_well (events : List (Event σ)) {attempt : Attempt} {id : String}
    (hm : attempt ∈ (course setup (fresh layer settings) events).client.attempts)
    (ended : attempt.outcome = some (.ok id)) : WasReady setup layer settings events id := by
  have hcourse := scene_course setup layer settings
    (fun events scene => ∀ id, some (.ok id) ∈ scene.outcomes → WasReady setup layer settings events id)
    (fun id hm => absurd hm List.not_mem_nil) ?_ events
  · obtain ⟨letters, -, hready⟩ := hcourse
    exact hready id (List.mem_map.2 ⟨attempt, hm, ended⟩)
  intro events event letters letters' composed hold happens id hm
  have hlater : WasReady setup layer settings events id → WasReady setup layer settings (events ++ [event]) id := by
    rintro ⟨before, after, rfl, hready⟩
    exact ⟨before, after ++ [event], List.append_assoc .., hready⟩
  generalize hscene : (course setup (fresh layer settings) (events ++ [event])).client.scene letters' = scene at happens hm
  cases happens with
  | changes changes => exact hlater (hold id (changes.outcomes hm))
  | @concludes after number outcome changes attains =>
    obtain ⟨n, hn⟩ := List.mem_iff_getElem?.1 hm
    rw [List.getElem?_modify] at hn
    split at hn
    · obtain ⟨_, -, heq⟩ := Option.map_eq_some_iff.1 hn
      cases heq
      obtain ⟨m, session, found, hid, ready⟩ := attains id rfl
      refine ⟨events ++ [event], [], (List.append_nil _).symm, m, session, ?_, hid, ready⟩
      exact (congrArg (fun scene : Scene => scene.sessions.session? m) hscene).trans found
    · exact hlater (hold id (changes.outcomes (List.mem_of_getElem? (by simpa using hn))))
  | binds rebinds => exact hlater (hold id hm)

end Courses

end Engine

end LanguageSessions
