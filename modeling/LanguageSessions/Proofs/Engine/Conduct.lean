import LanguageSessions.Proofs.Engine.Scenes

/-!
# The conduct of an event

Whoever acts in an event acts in any role that covers it (`Covers`): the role ends the sessions that a task which begins
or goes on is to end, it greets the one that an attempt which goes on is at work on, and it greets all that are new. Then
the event is a chain of deeds of the role, the attempts and the tasks that do not act stay in their phases, and whoever
waits behind the event is at work on a session of the role (`Conducts`, `conducts_goes`).
-/

namespace LanguageSessions.Engine

open Client Account

variable {σ : Type}

/-- In an event an attempt has a turn of its own: it begins, or it goes on. -/
def Tries (engine : Engine (σ × List Exchange)) (event : Event σ) (number : Nat) : Prop :=
  event = .turn ∧ ((∃ queue, engine.client.queue = .launch number :: queue) ∨
    ∃ signal queue phase, engine.client.queue = .wake signal :: queue ∧
      engine.tasks.findIdx? (Task.waitsFor signal) = none ∧
      engine.attempts.find? (fun entry => entry.2.signal == signal) = some (number, phase))

/-- No attempt has a turn in which a task begins. -/
theorem not_tries_of_begin {engine : Engine (σ × List Exchange)} {task : Nat} {queue : List Turn}
    (hq : engine.client.queue = .begin task :: queue) (number : Nat) : ¬ engine.Tries (.turn : Event σ) number := by
  rintro ⟨-, ⟨queue', hq'⟩ | ⟨signal, queue', phase, hq', -⟩⟩ <;> cases hq.symm.trans hq'

/-- No attempt has a turn in which a task goes on. -/
theorem not_tries_of_wake {engine : Engine (σ × List Exchange)} {task : Nat} {queue : List Turn} {signal : Signal}
    (hq : engine.client.queue = .wake signal :: queue)
    (hf : engine.tasks.findIdx? (Task.waitsFor signal) = some task) (number : Nat) :
    ¬ engine.Tries (.turn : Event σ) number := by
  rintro ⟨-, ⟨queue', hq'⟩ | ⟨other, queue', phase, hq', hnone, -⟩⟩
  · cases hq.symm.trans hq'
  · cases hq.symm.trans hq'
    exact nomatch hf.symm.trans hnone

/-- What a task that waits behind an event is still to end, it or its operation was to end before. -/
def Traces (engine : Engine (σ × List Exchange)) (event : Event σ) (task : Nat) (activity : Activity) : Prop :=
  (∃ operation, engine.Begins event task operation ∧
    ∀ id, activity.Ends id → operation.EndsLater engine.client.sessions id) ∨
  ∃ earlier, engine.GoesOn event task earlier ∧ ∀ id, activity.Ends id → earlier.Ends id

/-- A role covers whoever acts in an event. -/
structure Covers (engine : Engine (σ × List Exchange)) (event : Event σ) (letters : List Letter) (role : Role) :
    Prop where
  answers : ∀ id result, role.answers id result
  writes : ∀ task operation letter, engine.Begins event task operation → operation.Writes letter → role.writes letter
  begins : ∀ task operation, engine.Begins event task operation →
    (engine.client.account letters).MayEnd role (operation.Ends engine.client.sessions ·)
  goesOn : ∀ task activity, engine.GoesOn event task activity →
    (engine.client.account letters).MayEnd role (activity.Ends ·) ∧
      ∀ phase, activity.stop? = some phase → role.ends phase.session
  begun : ∀ number, engine.client.sessions.sessions.length ≤ number → role.greets number
  opens : ∀ language opened, role.opens language opened
  tries : ∀ number phase session, engine.Tries event number → engine.attempts.get? number = some phase →
    phase.session? = some session → role.greets session
  aborts : engine.client.isClosing = true → ∀ id, role.aborts id

/-- An event is a chain of deeds of a role. Attempts that do not act stay in their phases, and tasks begin to wait only
where they act; both are then at work on sessions of the role. -/
structure Conducts (role : Role) (letters letters' : List Letter) (event : Event σ)
    (before after : Engine (σ × List Exchange)) : Prop where
  deeds : Deeds role (before.client.account letters) (after.client.account letters')
  attempts : ∀ number, ¬ before.Tries event number → after.attempts.get? number = before.attempts.get? number
  greets : ∀ number phase session, before.Tries event number → after.attempts.get? number = some phase →
    phase.session? = some session → role.greets session
  waits : ∀ task activity, after.Waits task activity → before.Waits task activity ∨
    before.Traces event task activity ∧ ∀ phase, activity.stop? = some phase → role.ends phase.session

section Conducts

variable {opens : String → Bool} {called : Operation → Prop} {answers : RequestId → Json → Prop}
  {engine after : Engine (σ × List Exchange)} {setup : Setup σ} {letters : List Letter} {role : Role} {queue : List Turn}
  {event : Event σ} {number : Nat}

/-- No task and no attempt gets on. -/
theorem Covers.bystander (covers : engine.Covers event letters role)
    (deeds : Deeds role (engine.client.account letters) (after.client.account letters))
    (attempts : after.attempts = engine.attempts)
    (waits : ∀ task activity, after.Waits task activity → engine.Waits task activity) :
    ∃ letters', Conducts role letters letters' event engine after := by
  refine ⟨letters, deeds, fun number _ => by rw [attempts], fun number phase session tries found => ?_, ?_⟩
  · exact covers.tries number phase session tries (attempts ▸ found)
  · exact fun task activity hw => Or.inl (waits task activity hw)

theorem Covers.accords (covers : engine.Covers event letters role) {client : Client (σ × List Exchange)}
    (ha : Accords engine.client client) : ∃ letters', Conducts role letters letters' event engine { engine with client } := by
  refine covers.bystander ?_ rfl fun _ _ => id
  rw [ha]
  exact .refl

theorem Covers.pending (covers : engine.Covers event letters role) {client : Client (σ × List Exchange)}
    {pending : Pending} (ha : Accords { engine.client with pending } client)
    (moves : Pending.Moves role.answers engine.client.pending pending) :
    ∃ letters', Conducts role letters letters' event engine { engine with client } := by
  refine covers.bystander ?_ rfl fun _ _ => id
  rw [ha]
  exact .single (.pending moves)

/-! ## Tasks and attempts -/

/-- A task has got on. -/
theorem conducts_afterTask (idle : ∀ number, ¬ engine.Tries event number)
    {step : Client (σ × List Exchange) × Progress Activity Answer}
    (does : Does role (engine.client.account letters) (Parted Activity.stop? role) step)
    (traces : ∀ activity, step.2 = .waits activity → engine.Traces event number activity) :
    ∃ letters', Conducts role letters letters' event engine ((engine.withQueue queue).afterTask number step) := by
  obtain ⟨letters', deeds, hparted⟩ := does
  refine ⟨letters', ?_, fun n _ => ?_, fun n _ _ tries => absurd tries (idle n), fun task activity hw => ?_⟩
  · rw [account_afterTask]
    exact deeds
  · rw [attempts_afterTask]
    rfl
  · by_cases hn : task = number
    · subst hn
      have hstep := waits_afterTask hw
      exact Or.inr ⟨traces activity hstep, fun phase hphase => (hparted activity phase hstep hphase).2⟩
    · obtain ⟨cancelled, found⟩ := hw
      rw [getElem?_afterTask _ hn] at found
      exact Or.inl ⟨cancelled, found⟩

theorem Covers.beginTask (covers : engine.Covers (.turn : Event σ) letters role)
    (h : Lawful opens called answers letters engine) (hq : engine.client.queue = .begin number :: queue) :
    ∃ letters', Conducts role letters letters' (.turn : Event σ) engine
      ((engine.withQueue queue).beginTask setup.recorded number) := by
  have idle : ∀ n, ¬ engine.Tries (.turn : Event σ) n := not_tries_of_begin hq
  unfold Engine.beginTask
  split
  · next operation cancelled ht =>
    cases cancelled with
    | true => exact conducts_afterTask idle (does_nothing rfl (parted_ends _)) fun _ hw => by cases hw
    | false =>
      have begins : engine.Begins (.turn : Event σ) number operation := ⟨rfl, ⟨queue, hq⟩, ht⟩
      have ho : ((engine.withQueue queue).client.account letters).Coherent := h.coherent
      refine conducts_afterTask idle ?_ fun activity hw => Or.inl ⟨operation, begins, fun id he => ?_⟩
      · exact does_beginOperation setup ho (covers.begins number operation begins)
          fun letter => covers.writes number operation letter begins
      · exact endsOnly_beginOperation (engine.withQueue queue).client operation activity id hw he
  · exact covers.bystander .refl rfl fun _ _ => id

theorem Covers.resumeTask (covers : engine.Covers (.turn : Event σ) letters role)
    (h : Lawful opens called answers letters engine) {signal : Signal} (hq : engine.client.queue = .wake signal :: queue)
    (hf : engine.tasks.findIdx? (Task.waitsFor signal) = some number) :
    ∃ letters', Conducts role letters letters' (.turn : Event σ) engine
      ((engine.withQueue queue).resumeTask setup.recorded number) := by
  have idle : ∀ n, ¬ engine.Tries (.turn : Event σ) n := not_tries_of_wake hq hf
  unfold Engine.resumeTask
  split
  · next activity cancelled ht =>
    have goesOn : engine.GoesOn (.turn : Event σ) number activity := ⟨rfl, ⟨signal, queue, hq, hf⟩, cancelled, ht⟩
    obtain ⟨ends, own⟩ := covers.goesOn number activity goesOn
    have ho : ((engine.withQueue queue).client.account letters).Coherent := h.coherent
    refine conducts_afterTask idle ?_ fun later hw => Or.inr ⟨activity, goesOn, fun id he => ?_⟩
    · exact does_resumeActivity setup ho cancelled ends fun phase hphase =>
        ⟨h.parting number phase ⟨_, activity, ht, rfl, hphase⟩, own phase hphase⟩
    · exact endsOnly_resumeActivity (engine.withQueue queue).client cancelled activity later id hw he
  · exact covers.bystander .refl rfl fun _ _ => id

/-- An attempt has got on. -/
theorem conducts_afterAttempt (tries : engine.Tries event number) (own : ∀ n, engine.Tries event n → n = number)
    (attempt : Attempt) {step : Client (σ × List Exchange) × Progress AttemptPhase String}
    (does : Does role (engine.client.account letters) (Attempted role) step) :
    ∃ letters', Conducts role letters letters' event engine
      ((engine.withQueue queue).afterAttempt number attempt step) := by
  obtain ⟨letters', deeds, hattempted⟩ := does
  refine ⟨letters', ?_, fun n hn => ?_, fun n phase session hn found hphase => ?_, fun task activity hw => ?_⟩
  · rw [account_afterAttempt]
    exact deeds
  · exact get?_afterAttempt_of_ne fun heq => hn (heq ▸ tries)
  · cases own n hn
    have hstep := waits_of_get?_afterAttempt found
    exact (hattempted phase hstep).2 session hphase
  · obtain ⟨cancelled, hw⟩ := hw
    rw [tasks_afterAttempt] at hw
    exact Or.inl ⟨cancelled, hw⟩

theorem Covers.beginAttempt (covers : engine.Covers (.turn : Event σ) letters role)
    (h : Lawful opens called answers letters engine) (hq : engine.client.queue = .launch number :: queue) :
    ∃ letters', Conducts role letters letters' (.turn : Event σ) engine
      ((engine.withQueue queue).beginAttempt setup.recorded number) := by
  have tries : engine.Tries (.turn : Event σ) number := ⟨rfl, Or.inl ⟨queue, hq⟩⟩
  have own : ∀ n, engine.Tries (.turn : Event σ) n → n = number := by
    rintro n ⟨-, ⟨queue', hq'⟩ | ⟨signal, queue', phase, hq', -⟩⟩ <;> cases hq.symm.trans hq'
    rfl
  unfold Engine.beginAttempt
  split
  · exact covers.bystander .refl rfl fun _ _ => id
  · next attempt _ =>
    refine conducts_afterAttempt tries own attempt ?_
    split
    · exact does_nothing rfl (attempted_ends _)
    · exact does_attempt (engine.withQueue queue).client setup letters h.coherent covers.begun covers.aborts
        (fun language => covers.opens language _) _ _

theorem Covers.resumeAttempt (covers : engine.Covers (.turn : Event σ) letters role)
    (h : Lawful opens called answers letters engine) {signal : Signal} (hq : engine.client.queue = .wake signal :: queue)
    (hnone : engine.tasks.findIdx? (Task.waitsFor signal) = none) {phase : AttemptPhase}
    (hf : engine.attempts.find? (fun entry => entry.2.signal == signal) = some (number, phase)) :
    ∃ letters', Conducts role letters letters' (.turn : Event σ) engine
      ((engine.withQueue queue).resumeAttempt setup.recorded number) := by
  have tries : engine.Tries (.turn : Event σ) number := ⟨rfl, Or.inr ⟨signal, queue, phase, hq, hnone, hf⟩⟩
  have own : ∀ n, engine.Tries (.turn : Event σ) n → n = number := by
    rintro n ⟨-, ⟨queue', hq'⟩ | ⟨other, queue', phase', hq', -, hf'⟩⟩
    · cases hq.symm.trans hq'
    · cases hq.symm.trans hq'
      cases hf.symm.trans hf'
      rfl
  unfold Engine.resumeAttempt
  split
  · next attempt phase _ hp =>
    refine conducts_afterAttempt tries own attempt ?_
    exact does_resumeAttempt (engine.withQueue queue).client setup letters h.coherent covers.begun covers.aborts
      (fun language => covers.opens language _) _ _ _ (fun session => covers.tries number phase session tries hp) (h.attempting number phase hp)
  · exact covers.bystander .refl rfl fun _ _ => id

/-! ## Events -/

theorem Covers.next (covers : engine.Covers (.turn : Event σ) letters role)
    (h : Lawful opens called answers letters engine) (setup : Setup σ) : ∃ letters', Conducts role letters letters' (.turn : Event σ) engine (engine.next setup.recorded) := by
  rcases next_cases engine setup.recorded with heq | ⟨turn, queue, hq, heq⟩
  · rw [heq]
    exact covers.bystander .refl rfl fun _ _ => id
  · rw [heq]
    cases turn with
    | begin task => exact covers.beginTask h hq
    | launch number => exact covers.beginAttempt h hq
    | wake signal =>
      rcases (engine.withQueue queue).perform_wake_cases setup.recorded signal with
        ⟨task, hf, heq⟩ | ⟨number, phase, hnone, hf, heq⟩ | heq
      · rw [heq]
        exact covers.resumeTask h hq hf
      · rw [heq]
        exact covers.resumeAttempt h hq hnone hf
      · rw [heq]
        exact covers.bystander .refl rfl fun _ _ => id
    | release => exact covers.pending (fun _ => rfl) h.coherent.numbered.moves_release
    | forget number => exact covers.accords (accords_forget (engine.withQueue queue).client number)
    | joined ticket => exact covers.accords fun _ => rfl
    | gathered ticket => exact covers.accords (accords_countGathered (engine.withQueue queue).client ticket)
    | deliver delivery =>
      have ho : ((engine.withQueue queue).client.account letters).Coherent := h.coherent
      exact covers.bystander (deeds_hear ho delivery fun id result _ _ _ => covers.answers id result) rfl fun _ _ => id

theorem deeds_cancel (ho : (engine.client.account letters).Coherent) (number : Nat) :
    Deeds role (engine.client.account letters) ((engine.cancel number).1.client.account letters) := by
  unfold Engine.cancel
  split
  · exact .refl
  · next task _ =>
    dsimp only
    split
    · exact .refl
    · exact .refl
    · split
      · exact deeds_cancelAttempts _
          { engine with tasks := engine.tasks.set number { task with isCancelled := true } } ho
      · exact deeds_interrupt ho _

/-- **Every event is a chain of deeds of a role that covers it.** -/
theorem conducts_goes (h : Lawful opens called answers letters engine) (covers : engine.Covers event letters role)
    (setup : Setup σ) : ∃ letters', Conducts role letters letters' event engine (engine.goes setup event) := by
  by_cases hne : event = .turn
  · subst hne
    exact covers.next h setup
  · have deeds : Deeds role (engine.client.account letters) ((engine.goes setup event).client.account letters) ∧
        (engine.goes setup event).attempts = engine.attempts := by
      cases event with
      | turn => exact absurd rfl hne
      | expire timer =>
        refine ⟨?_, rfl⟩
        change Deeds role _ (((engine.client.setPending (engine.client.pending.expire timer).1).logAll _).account letters)
        rw [account_logAll, account_setPending]
        exact .single (.pending (h.coherent.numbered.moves_expire timer))
      | moveClock time => exact ⟨.single (.pending (h.coherent.numbered.moves_moveClock (some time))), rfl⟩
      | cancel number => exact ⟨deeds_cancel h.coherent number, (engine.cancel_rest number).2⟩
      | hear delivery =>
        exact ⟨deeds_hear h.coherent delivery fun id result _ _ _ => covers.answers id result, rfl⟩
      | call _ | layer _ _ _ | listen _ | bind _ | reorder _ => exact ⟨.refl, rfl⟩
    exact covers.bystander deeds.1 deeds.2 fun _ _ => waits_goes hne

end Conducts

end LanguageSessions.Engine
