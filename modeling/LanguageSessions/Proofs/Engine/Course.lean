import LanguageSessions.Proofs.Client.Farewells
import LanguageSessions.Proofs.Client.Statuses
import LanguageSessions.Proofs.Engine.Tickets

/-!
# The course of sessions

A course is any number of events in any order, with a process layer whose replies are put on record. Between two events
the engine is lawful (`Lawful`): its account is coherent, every attempt and every stop that waits is known to have got
as far as its phase says, and no two of them are at work on the same session. Each event is a chain of deeds of somebody
who leaves the others' sessions alone (`Acts`), and so every event keeps the engine lawful (`Lawful.goes`).
-/

namespace LanguageSessions

open Client Account

/-- Somebody who greets and ends no session, and writes no letter. -/
def Role.bystander (answers : RequestId → Json → Prop) : Role where
  greets _ := False
  opens _ _ := False
  ends _ := False
  aborts _ := False
  answers := answers
  writes _ := False

/-- Whoever carries out an attempt that was in a phase: it greets the session that it is at work on, or a new one, and
opens the handshake if that is for a language for which it can be opened. -/
def Role.starter (opens : String → Bool) (account : Account) (own : Option AttemptPhase) : Role where
  greets number := account.sessions.sessions.length ≤ number ∨ ∃ phase, own = some phase ∧ phase.session? = some number
  opens language opened := opens language = opened
  ends _ := False
  aborts _ := True
  answers _ _ := False
  writes _ := False

/-- Whoever carries out an operation that was in a stop: it ends the session of that stop, or one whose end is still to
begin. -/
def Role.caller (account : Account) (own : Option StopPhase) (writes : Letter → Prop) : Role where
  greets _ := False
  opens _ _ := False
  ends number := ¬ account.IsEnding number ∨ ∃ phase, own = some phase ∧ phase.session = number
  aborts _ := False
  answers _ _ := False
  writes := writes

/-! ## Messages and timers -/

namespace Client

section Hearing

variable {σ : Type} {before after : Client (σ × List Exchange)}

theorem Told.accords {listeners : List Listener} {first second : Json} (h : Told listeners first second before after) :
    Accords before after := by
  intro letters
  obtain ⟨effects, hh, -, he⟩ := h.history
  have hsilent : effects.filterMap Effect.called? = [] := by
    refine List.filterMap_eq_nil_iff.2 fun effect hm => ?_
    rcases he effect hm with ht | hl
    · cases effect <;> first | rfl | cases ht
    · cases effect <;> first | rfl | cases hl
  have hcalls : after.history.filterMap Effect.called? = before.history.filterMap Effect.called? := by
    rw [hh, List.filterMap_append, hsilent, List.append_nil]
  unfold account
  rw [hcalls, h.rest]

theorem Notified.accords {method : String} {params : Json} (h : Notified method params before after) :
    Accords before after := by
  obtain ⟨middle, htold, hpublished⟩ := h.told
  refine htold.accords.trans ?_
  cases hpublished with
  | diagnostics _ _ _ told => exact told.accords
  | malformed text _ _ => exact accords_log _ (.error text)
  | nothing _ => exact .refl _

variable {role : Role} {client : Client (σ × List Exchange)} {letters : List Letter}

/-- A message that is heard brings a result to a request only if it is a response with that result. -/
theorem deeds_hear (ho : (client.account letters).Coherent) (delivery : Delivery)
    (answers : ∀ id result, client.isListening = true → client.pending.has id = true →
      Message.decode delivery.text = .ok (.response id result none) → role.answers id result) :
    Deeds role (client.account letters) ((client.hear delivery).account letters) := by
  have haccords : ∀ next : Client (σ × List Exchange), Accords client next →
      Deeds role (client.account letters) (next.account letters) := by
    intro next ha
    rw [ha]
    exact .refl
  unfold hear
  split
  · next hlistening =>
    unfold hear?
    cases hd : Message.decode delivery.text with
    | error e =>
      cases e with
      | longInteger => exact .refl
      | _ => exact haccords _ (client.accords_log _)
    | ok message =>
      cases message with
      | notification method params id =>
        exact haccords _ (client.notified_hearNotification delivery.session method params).accords
      | response id result error =>
        cases error with
        | none =>
          refine .single ?_
          change Deed role _ ((client.resolve id result).account letters)
          unfold Client.resolve
          rw [account_logAll, account_setPending]
          exact .pending (ho.numbered.moves_resolve id result fun hid => answers id result hlistening hid hd)
        | some error =>
          have hreject : ∀ (next : Client (σ × List Exchange)) (fault : Fault), Accords client next →
              next.pending = client.pending → Deeds role (client.account letters) ((next.reject id fault).account letters) := by
            intro next fault ha hp
            refine .single ?_
            unfold Client.reject
            rw [account_logAll, account_setPending, ha, hp]
            exact .pending (ho.numbered.moves_reject id fault)
          change Deeds role _ ((client.refuse id error).account letters)
          unfold Client.refuse
          dsimp only
          split
          · exact hreject _ _ (client.accords_log _) rfl
          · exact hreject _ _ (.refl client) rfl
  · exact .refl

end Hearing

end Client

namespace Engine

variable {σ : Type}

/-! ## Courses -/

/-- An event with a process layer whose replies are on record: what the layer does by itself adds nothing to it. -/
def Event.recorded (record : List Exchange) : Event σ → Event (σ × List Exchange)
  | .call operation => .call operation
  | .turn => .turn
  | .expire timer => .expire timer
  | .moveClock time => .moveClock time
  | .cancel task => .cancel task
  | .layer state tickets deliveries => .layer (state, record) tickets deliveries
  | .hear delivery => .hear delivery
  | .listen audience => .listen audience
  | .bind bindings => .bind bindings
  | .reorder queue => .reorder queue

theorem Event.recorded_ne_turn {event : Event σ} (h : event ≠ .turn) (record : List Exchange) :
    event.recorded record ≠ .turn := by
  cases event <;> first | exact absurd rfl h | nofun

/-- The engine after an event, with the replies of the process layer put on record. -/
def goes (setup : Setup σ) (engine : Engine (σ × List Exchange)) (event : Event σ) : Engine (σ × List Exchange) :=
  engine.after setup.recorded (event.recorded engine.client.layer.2)

/-- The engine after events, one after the other. -/
def course (setup : Setup σ) (engine : Engine (σ × List Exchange)) (events : List (Event σ)) :
    Engine (σ × List Exchange) := events.foldl (goes setup) engine

theorem course_append (setup : Setup σ) (engine : Engine (σ × List Exchange)) (events more : List (Event σ)) :
    course setup engine (events ++ more) = course setup (course setup engine events) more := List.foldl_append

theorem course_concat (setup : Setup σ) (engine : Engine (σ × List Exchange)) (events : List (Event σ))
    (event : Event σ) : course setup engine (events ++ [event]) = (course setup engine events).goes setup event :=
  course_append setup engine events [event]

/-- In an event a response with a result is heard, and its request is pending. -/
def Receives (engine : Engine (σ × List Exchange)) (event : Event σ) (id : RequestId) (result : Json) : Prop :=
  ∃ delivery : Delivery,
    (event = .hear delivery ∨ event = .turn ∧ ∃ queue, engine.client.queue = .deliver delivery :: queue) ∧
      engine.client.isListening = true ∧ engine.client.pending.has id = true ∧
      Message.decode delivery.text = .ok (.response id result none)

/-- In the course of events a response with a result was heard. -/
def Received (setup : Setup σ) (first : Engine (σ × List Exchange)) (events : List (Event σ)) (id : RequestId)
    (result : Json) : Prop :=
  ∃ before event after, events = before ++ event :: after ∧ (course setup first before).Receives event id result

/-! ## Lawful engines -/

/-- A task waits in the stop of a session. -/
def Stops (engine : Engine σ) (number : Nat) (phase : StopPhase) : Prop :=
  ∃ task activity, engine.tasks[number]? = some task ∧ task.state = .waiting activity ∧ activity.stop? = some phase

/-- The account of an engine is coherent, and what is shown about servers fits if all sessions have identifiers of their
own. Results were brought to requests by responses, and letters were asked for by operations that were called. What is
known of each attempt and each stop that waits holds, and no two of them are at work on the same session. Handshakes have
been opened for the languages for which they can be. -/
structure Lawful (opens : String → Bool) (called : Operation → Prop) (answers : RequestId → Json → Prop)
    (letters : List Letter) (engine : Engine (σ × List Exchange)) : Prop where
  coherent : (engine.client.account letters).Coherent
  opened : (engine.client.account letters).Opened opens
  shown : engine.client.sessions.Distinct → (engine.client.account letters).Shown
  answered : ∀ (index : Nat) promise result, engine.client.pending.promises[index]? = some promise →
    promise.outcome = some (.ok result) → answers promise.request result
  written : ∀ letter ∈ letters, letter.IsWritten → ∃ operation, called operation ∧ operation.Writes letter
  ready : ∀ task ∈ engine.tasks, ∀ operation, task.state = .ready operation → called operation
  attempting : ∀ number phase, engine.attempts.get? number = some phase → (engine.client.account letters).Attempting phase
  apart : ∀ m n phase phase' session, engine.attempts.get? m = some phase → engine.attempts.get? n = some phase' →
    phase.session? = some session → phase'.session? = some session → m = n
  parting : ∀ number phase, engine.Stops number phase → (engine.client.account letters).Parting phase
  alone : ∀ m n phase phase', engine.Stops m phase → engine.Stops n phase' → phase.session = phase'.session → m = n

section GettingOn

variable (engine : Engine (σ × List Exchange)) (number : Nat)

theorem account_afterTask (step : Client (σ × List Exchange) × Progress Activity Answer) (letters : List Letter) :
    (engine.afterTask number step).client.account letters = step.1.account letters := by
  obtain ⟨client, activity | outcome⟩ := step
  · rfl
  · exact client.account_note letters rfl

theorem attempts_afterTask (step : Client (σ × List Exchange) × Progress Activity Answer) :
    (engine.afterTask number step).attempts = engine.attempts := by
  obtain ⟨client, activity | outcome⟩ := step <;> rfl

variable (attempt : Attempt) (step : Client (σ × List Exchange) × Progress AttemptPhase String)

theorem account_afterAttempt (letters : List Letter) :
    (engine.afterAttempt number attempt step).client.account letters = step.1.account letters := by
  obtain ⟨client, phase | outcome⟩ := step <;> rfl

theorem tasks_afterAttempt : (engine.afterAttempt number attempt step).tasks = engine.tasks := by
  obtain ⟨client, phase | outcome⟩ := step <;> rfl

variable {engine number attempt step}

/-- Other attempts stay in their phases. -/
theorem get?_afterAttempt_of_ne {n : Nat} (hn : n ≠ number) :
    (engine.afterAttempt number attempt step).attempts.get? n = engine.attempts.get? n := by
  obtain ⟨client, phase | outcome⟩ := step
  · change (engine.attempts.set number phase).get? n = _
    rw [Entries.get?_set, if_neg hn.symm]
  · change (engine.attempts.erase number).get? n = _
    rw [Entries.get?_erase, if_neg hn.symm]

/-- An attempt that has got on waits in a phase only if it has come to it. -/
theorem waits_of_get?_afterAttempt {phase : AttemptPhase}
    (h : (engine.afterAttempt number attempt step).attempts.get? number = some phase) : step.2 = .waits phase := by
  obtain ⟨client, waiting | outcome⟩ := step
  · change (engine.attempts.set number waiting).get? number = _ at h
    rw [Entries.get?_set, if_pos rfl] at h
    cases h
    rfl
  · change (engine.attempts.erase number).get? number = _ at h
    rw [Entries.get?_erase, if_pos rfl] at h
    cases h

end GettingOn

/-- Somebody acts in a role. An attempt that waits was waiting before, at work on a session that the role does not greet,
or it is the one that acts; and so it is with stops. -/
structure Acts (role : Role) (letters letters' : List Letter) (before after : Engine (σ × List Exchange)) : Prop where
  deeds : Deeds role (before.client.account letters) (after.client.account letters')
  attempts : ∃ own, ∀ number phase, after.attempts.get? number = some phase →
    (before.attempts.get? number = some phase ∧ ∀ session, phase.session? = some session → ¬ role.greets session) ∨
    number = own ∧ (after.client.account letters').Attempting phase ∧
      ∀ session, phase.session? = some session → role.greets session
  stops : ∃ own, ∀ number phase, after.Stops number phase →
    (before.Stops number phase ∧ ¬ role.ends phase.session) ∨
    number = own ∧ (after.client.account letters').Parting phase ∧ role.ends phase.session

section Acts

variable {opens : String → Bool} {called : Operation → Prop} {answers : RequestId → Json → Prop}
  {letters letters' : List Letter} {role : Role} {before after : Engine (σ × List Exchange)}

/-- **Whoever acts keeps the engine lawful**, if it writes only what it was asked for. -/
theorem Lawful.acts (h : Lawful opens called answers letters before) (ha : Acts role letters letters' before after)
    (ready : ∀ task ∈ after.tasks, ∀ operation, task.state = .ready operation → called operation)
    (writes : ∀ letter, role.writes letter → ∃ operation, called operation ∧ operation.Writes letter)
    (brings : ∀ id result, role.answers id result → answers id result)
    (honest : ∀ language opened, role.opens language opened → opens language = opened) :
    before.client.sessions.Passes after.client.sessions ∧ Lawful opens called answers letters' after := by
  obtain ⟨hs, hc⟩ := ha.deeds.since_coherent h.coherent
  obtain ⟨own, hattempts⟩ := ha.attempts
  obtain ⟨own', hstops⟩ := ha.stops
  refine ⟨ha.deeds.passes h.coherent, hc, ha.deeds.opened h.coherent honest h.opened,
    fun distinct => ha.deeds.shown h.coherent distinct h.shown, fun index promise result hp ho => ?_,
    fun letter hm hw => ?_, ready, fun number phase hg => ?_,
    fun m n phase phase' session hm hn hk hk' => ?_, fun number phase hp => ?_, fun m n phase phase' hm hn hk => ?_⟩
  · rcases hs.pending.answered index promise result hp ho with hold | hnew
    · obtain ⟨old, hp', ho'⟩ := Pending.outcome?_eq_some_iff.1 hold
      obtain ⟨later, hl, hr, -⟩ := hs.pending.promise index old hp'
      cases hp.symm.trans hl
      rw [hr]
      exact h.answered index old result hp' ho'
    · exact brings _ _ hnew
  · exact (hs.written letter hm hw).elim (fun hm => h.written letter hm hw) (writes letter)
  · rcases hattempts number phase hg with ⟨hg, hother⟩ | ⟨-, hnew, -⟩
    · exact hs.attempting hother (h.attempting number phase hg)
    · exact hnew
  · rcases hattempts m phase hm with ⟨hm, hother⟩ | ⟨hown, -, hgreets⟩ <;>
      rcases hattempts n phase' hn with ⟨hn, hother'⟩ | ⟨hown', -, hgreets'⟩
    · exact h.apart m n phase phase' session hm hn hk hk'
    · exact absurd (hgreets' session hk') (hother session hk)
    · exact absurd (hgreets session hk) (hother' session hk')
    · rw [hown, hown']
  · rcases hstops number phase hp with ⟨hp, hother⟩ | ⟨-, hnew, -⟩
    · exact hs.parting hother (h.parting number phase hp)
    · exact hnew
  · rcases hstops m phase hm with ⟨hm, hother⟩ | ⟨hown, -, hends⟩ <;>
      rcases hstops n phase' hn with ⟨hn, hother'⟩ | ⟨hown', -, hends'⟩
    · exact h.alone m n phase phase' hm hn hk
    · exact absurd (hk ▸ hends') hother
    · exact absurd (hk ▸ hends) hother'
    · rw [hown, hown']

/-- Nobody acts but those who answer: attempts and tasks stay in their phases. -/
theorem acts_bystander
    (deeds : Deeds (.bystander answers) (before.client.account letters) (after.client.account letters'))
    (attempts : after.attempts = before.attempts) (stops : ∀ number phase, after.Stops number phase →
      before.Stops number phase) : Acts (.bystander answers) letters letters' before after where
  deeds := deeds
  attempts := ⟨0, fun _ _ hg => Or.inl ⟨attempts ▸ hg, fun _ _ => id⟩⟩
  stops := ⟨0, fun number phase hp => Or.inl ⟨stops number phase hp, id⟩⟩

/-- A task has got on. -/
theorem acts_afterTask (h : Lawful opens called answers letters before) (number : Nat) (own : Option StopPhase)
    (hown : ∀ phase, own = some phase → before.Stops number phase) {writes : Letter → Prop}
    {step : Client (σ × List Exchange) × Progress Activity Answer}
    (does : Does (.caller (before.client.account letters) own writes) (before.client.account letters)
      (Parted Activity.stop? (.caller (before.client.account letters) own writes)) step) :
    ∃ letters', Acts (.caller (before.client.account letters) own writes) letters letters' before
      (before.afterTask number step) := by
  obtain ⟨letters', deeds, hparted⟩ := does
  have haccount := before.account_afterTask number step letters'
  have hattempts := before.attempts_afterTask number step
  refine ⟨letters', ?_, ⟨0, fun n phase hg => Or.inl ⟨hattempts ▸ hg, fun _ _ => id⟩⟩, ⟨number, fun n phase hp => ?_⟩⟩
  · rw [haccount]
    exact deeds
  · obtain ⟨⟨state, cancelled⟩, activity, hfound, rfl, hstop⟩ := hp
    by_cases hn : n = number
    · subst hn
      have hw : (before.afterTask n step).Waits n activity := ⟨cancelled, hfound⟩
      rw [haccount]
      exact Or.inr ⟨rfl, hparted activity phase (waits_afterTask hw) hstop⟩
    · -- The stops of other tasks are at work on sessions whose ends have begun.
      rw [getElem?_afterTask before hn] at hfound
      have hother : before.Stops n phase := ⟨_, activity, hfound, rfl, hstop⟩
      refine Or.inl ⟨hother, ?_⟩
      rintro (hlive | ⟨phase', hphase, hsession⟩)
      · exact hlive (h.parting n phase hother).1
      · exact hn (h.alone n number phase phase' hother (hown phase' hphase) hsession.symm)

/-- An attempt has got on. -/
theorem acts_afterAttempt (h : Lawful opens called answers letters before) (number : Nat) (attempt : Attempt)
    (own : Option AttemptPhase) (hown : ∀ phase, own = some phase → before.attempts.get? number = some phase)
    {step : Client (σ × List Exchange) × Progress AttemptPhase String}
    (does : Does (.starter opens (before.client.account letters) own) (before.client.account letters)
      (Attempted (.starter opens (before.client.account letters) own)) step) :
    ∃ letters', Acts (.starter opens (before.client.account letters) own) letters letters' before
      (before.afterAttempt number attempt step) := by
  obtain ⟨letters', deeds, hattempted⟩ := does
  have haccount := before.account_afterAttempt number attempt step letters'
  have htasks := before.tasks_afterAttempt number attempt step
  -- The sessions that other attempts are at work on are there already.
  have hothers : ∀ n phase, before.attempts.get? n = some phase → n ≠ number → ∀ session,
      phase.session? = some session → ¬ (Role.starter opens (before.client.account letters) own).greets session := by
    rintro n phase hg hn session hs (hnew | ⟨phase', hphase, hsession⟩)
    · exact absurd ((h.attempting n phase hg).lt_length hs) (Nat.not_lt_of_le hnew)
    · exact hn (h.apart n number phase phase' session hg (hown phase' hphase) hs hsession)
  refine ⟨letters', ?_, ⟨number, fun n phase hg => ?_⟩, ⟨0, fun n phase hp => Or.inl ⟨?_, id⟩⟩⟩
  · rw [haccount]
    exact deeds
  · rw [haccount]
    by_cases hn : n = number
    · subst hn
      exact Or.inr ⟨rfl, hattempted phase (waits_of_get?_afterAttempt hg)⟩
    · rw [get?_afterAttempt_of_ne hn] at hg
      exact Or.inl ⟨hg, hothers n phase hg hn⟩
  · unfold Stops at hp ⊢
    rw [htasks] at hp
    exact hp

end Acts

/-! ## Events -/

section Events

variable {opens : String → Bool} {called : Operation → Prop} {answers : RequestId → Json → Prop}
  {letters : List Letter} {setup : Setup σ} {engine : Engine (σ × List Exchange)}

/-- An engine comes to a lawful one, and its sessions pass on. -/
def Leads (opens : String → Bool) (called : Operation → Prop) (answers : RequestId → Json → Prop)
    (before after : Engine (σ × List Exchange)) : Prop :=
  before.client.sessions.Passes after.client.sessions ∧ ∃ letters, Lawful opens called answers letters after

/-- More may have been called and answered. -/
theorem Lawful.weaken (h : Lawful opens called answers letters engine) {called' : Operation → Prop}
    {answers' : RequestId → Json → Prop} (hc : ∀ operation, called operation → called' operation)
    (ha : ∀ id result, answers id result → answers' id result) : Lawful opens called' answers' letters engine where
  coherent := h.coherent
  opened := h.opened
  shown := h.shown
  answered index promise result hp ho := ha _ _ (h.answered index promise result hp ho)
  written letter hm hw := (h.written letter hm hw).imp fun _ ⟨hop, hwrites⟩ => ⟨hc _ hop, hwrites⟩
  ready task hm operation ht := hc _ (h.ready task hm operation ht)
  attempting := h.attempting
  apart := h.apart
  parting := h.parting
  alone := h.alone

/-- Something happens to the account that nobody does who starts or stops sessions. -/
theorem Lawful.bystander (h : Lawful opens called answers letters engine) {client : Client (σ × List Exchange)}
    (deeds : Deeds (.bystander answers) (engine.client.account letters) (client.account letters)) :
    Leads opens called answers engine { engine with client } := by
  have ha : Acts (.bystander answers) letters letters engine { engine with client } :=
    acts_bystander deeds rfl fun _ _ => id
  obtain ⟨hs, ho⟩ := h.acts ha h.ready nofun (fun _ _ => id) nofun
  exact ⟨hs, letters, ho⟩

/-- Something happens that the account does not show. -/
theorem Lawful.accords (h : Lawful opens called answers letters engine) {client : Client (σ × List Exchange)}
    (ha : Accords engine.client client) : Leads opens called answers engine { engine with client } := by
  refine h.bystander ?_
  rw [ha]
  exact .refl

/-- The pending requests move, without a result. -/
theorem Lawful.pending (h : Lawful opens called answers letters engine) {client : Client (σ × List Exchange)}
    {pending : Pending} (ha : Accords { engine.client with pending } client)
    (moves : Pending.Moves answers engine.client.pending pending) :
    Leads opens called answers engine { engine with client } := by
  refine h.bystander ?_
  rw [ha]
  exact .single (.pending moves)

/-! ### Tasks and attempts -/

theorem ready_afterTask (h : Lawful opens called answers letters engine) (number : Nat)
    (step : Client (σ × List Exchange) × Progress Activity Answer) :
    ∀ task ∈ (engine.afterTask number step).tasks, ∀ operation, task.state = .ready operation → called operation := by
  intro task hm operation hready
  have hset : ∀ state, state ≠ .ready operation → task ∈ engine.tasks.set number ⟨state, false⟩ → task ∈ engine.tasks := by
    intro state hne hm
    rcases List.mem_or_eq_of_mem_set hm with hm | rfl
    · exact hm
    · exact absurd hready hne
  obtain ⟨client, activity | outcome⟩ := step
  · exact h.ready task (hset (.waiting activity) nofun hm) operation hready
  · exact h.ready task (hset (.finished outcome) nofun hm) operation hready

theorem Lawful.beginTask (h : Lawful opens called answers letters engine) (setup : Setup σ) (number : Nat) :
    Leads opens called answers engine (engine.beginTask setup.recorded number) := by
  unfold Engine.beginTask
  split
  · next operation cancelled ht =>
    have hcalled := h.ready _ (List.mem_of_getElem? ht) operation rfl
    have hdoes : Does (.caller (engine.client.account letters) none operation.Writes) (engine.client.account letters)
        (Parted Activity.stop? (.caller (engine.client.account letters) none operation.Writes))
        (if cancelled then (engine.client, .ends (.error .cancelled))
          else engine.client.beginOperation setup.recorded operation) := by
      split
      · exact does_nothing rfl (parted_ends _)
      · exact does_beginOperation setup h.coherent (.of_live fun _ hlive => Or.inl hlive) fun _ => id
    obtain ⟨letters', ha⟩ := acts_afterTask h number none nofun hdoes
    obtain ⟨hs, ho⟩ := h.acts ha (ready_afterTask h number _) (fun letter hw => ⟨operation, hcalled, hw⟩) nofun nofun
    exact ⟨hs, letters', ho⟩
  · exact h.accords (.refl _)

theorem Lawful.resumeTask (h : Lawful opens called answers letters engine) (setup : Setup σ) (number : Nat) :
    Leads opens called answers engine (engine.resumeTask setup.recorded number) := by
  unfold Engine.resumeTask
  split
  · next activity cancelled ht =>
    have hown : ∀ phase, activity.stop? = some phase → engine.Stops number phase :=
      fun phase hp => ⟨_, activity, ht, rfl, hp⟩
    have hdoes : Does (.caller (engine.client.account letters) activity.stop? fun _ => False)
        (engine.client.account letters)
        (Parted Activity.stop? (.caller (engine.client.account letters) activity.stop? fun _ => False))
        (engine.client.resumeActivity setup.recorded cancelled activity) :=
      does_resumeActivity setup h.coherent cancelled (.of_live fun _ hlive => Or.inl hlive) fun phase hp =>
        ⟨h.parting number phase (hown phase hp), Or.inr ⟨phase, hp, rfl⟩⟩
    obtain ⟨letters', ha⟩ := acts_afterTask h number activity.stop? hown hdoes
    obtain ⟨hs, ho⟩ := h.acts ha (ready_afterTask h number _) nofun nofun nofun
    exact ⟨hs, letters', ho⟩
  · exact h.accords (.refl _)

theorem Lawful.beginAttempt (setup : Setup σ) (h : Lawful setup.opens called answers letters engine) (number : Nat) :
    Leads setup.opens called answers engine (engine.beginAttempt setup.recorded number) := by
  unfold Engine.beginAttempt
  split
  · exact h.accords (.refl _)
  · next attempt _ =>
    have hdoes : Does (.starter setup.opens (engine.client.account letters) none) (engine.client.account letters)
        (Attempted (.starter setup.opens (engine.client.account letters) none))
        (if attempt.isCancelled then (engine.client, .ends (.error .cancelled))
          else engine.client.attempt setup.recorded attempt.language attempt.root) := by
      split
      · exact does_nothing rfl (attempted_ends _)
      · exact does_attempt engine.client setup letters h.coherent (fun _ hn => Or.inl hn) (fun _ _ => trivial)
          (fun _ => rfl) _ _
    obtain ⟨letters', ha⟩ := acts_afterAttempt h number attempt none nofun hdoes
    obtain ⟨hs, ho⟩ := h.acts ha (by rw [tasks_afterAttempt]; exact h.ready) nofun nofun fun _ _ => id
    exact ⟨hs, letters', ho⟩

theorem Lawful.resumeAttempt (setup : Setup σ) (h : Lawful setup.opens called answers letters engine) (number : Nat) :
    Leads setup.opens called answers engine (engine.resumeAttempt setup.recorded number) := by
  unfold Engine.resumeAttempt
  split
  · next attempt phase _ hp =>
    have hdoes : Does (.starter setup.opens (engine.client.account letters) (some phase)) (engine.client.account letters)
        (Attempted (.starter setup.opens (engine.client.account letters) (some phase)))
        (engine.client.resumeAttempt setup.recorded attempt.isCancelled attempt.language attempt.root phase) :=
      does_resumeAttempt engine.client setup letters h.coherent (fun _ hn => Or.inl hn) (fun _ _ => trivial)
        (fun _ => rfl) _ _ _ (fun session hs => Or.inr ⟨phase, rfl, hs⟩) (h.attempting number phase hp)
    obtain ⟨letters', ha⟩ := acts_afterAttempt h number attempt (some phase) (fun _ heq => heq ▸ hp) hdoes
    obtain ⟨hs, ho⟩ := h.acts ha (by rw [tasks_afterAttempt]; exact h.ready) nofun nofun fun _ _ => id
    exact ⟨hs, letters', ho⟩
  · exact h.accords (.refl _)

/-! ### Cancelling -/

theorem deeds_interrupt {role : Role} {client : Client (σ × List Exchange)} (ho : (client.account letters).Coherent)
    (signal : Signal) : Deeds role (client.account letters) ((interrupt client signal).account letters) := by
  unfold interrupt
  split
  · next index =>
    split
    · next pending waited heq =>
      split
      · rw [account_setPending]
        refine .single (.pending ?_)
        rw [show pending = (client.pending.abandon index).1 from (congrArg Prod.fst heq).symm]
        exact ho.numbered.moves_abandon index
      · exact .refl
  · exact .refl

/-- An attempt that is cancelled stays in its phase, and so do the tasks. -/
theorem cancelAttempts_rest (attempts : List Nat) (engine : Engine (σ × List Exchange)) :
    (attempts.foldl cancelAttempt engine).attempts = engine.attempts ∧
      (attempts.foldl cancelAttempt engine).tasks = engine.tasks := by
  induction attempts generalizing engine with
  | nil => exact ⟨rfl, rfl⟩
  | cons number attempts ih =>
    have hone : (engine.cancelAttempt number).attempts = engine.attempts ∧
        (engine.cancelAttempt number).tasks = engine.tasks := by
      unfold cancelAttempt
      dsimp only
      split <;> exact ⟨rfl, rfl⟩
    exact ⟨(ih _).1.trans hone.1, (ih _).2.trans hone.2⟩

/-- In the cancelling of a task only that task is told so, and attempts stay in their phases. -/
theorem cancel_rest (engine : Engine (σ × List Exchange)) (number : Nat) :
    ((engine.cancel number).1.tasks = engine.tasks ∨ ∃ task, engine.tasks[number]? = some task ∧
      (engine.cancel number).1.tasks = engine.tasks.set number { task with isCancelled := true }) ∧
    (engine.cancel number).1.attempts = engine.attempts := by
  unfold Engine.cancel
  split
  · exact ⟨Or.inl rfl, rfl⟩
  · next task found =>
    dsimp only
    split
    · exact ⟨Or.inl rfl, rfl⟩
    · exact ⟨Or.inr ⟨task, found, rfl⟩, rfl⟩
    · split
      · obtain ⟨ha, ht⟩ := cancelAttempts_rest _
          { engine with tasks := engine.tasks.set number { task with isCancelled := true } }
        exact ⟨Or.inr ⟨task, found, ht⟩, ha⟩
      · exact ⟨Or.inr ⟨task, found, rfl⟩, rfl⟩

/-- A task that is cancelled waits as before. -/
theorem waits_cancel {engine : Engine (σ × List Exchange)} {number n : Nat} {activity : Activity}
    (h : (engine.cancel number).1.Waits n activity) : engine.Waits n activity := by
  obtain ⟨cancelled, ht⟩ := h
  rcases (engine.cancel_rest number).1 with htasks | ⟨task, found, htasks⟩
  · exact ⟨cancelled, htasks ▸ ht⟩
  · rw [htasks, List.getElem?_set] at ht
    split at ht
    · next hn =>
      subst hn
      split at ht
      · obtain ⟨state, flag⟩ := task
        cases ht
        exact ⟨flag, found⟩
      · cases ht
    · exact ⟨cancelled, ht⟩

/-- Between two turns no task begins to wait. -/
theorem waits_goes {engine : Engine (σ × List Exchange)} {event : Event σ} (hne : event ≠ .turn) {n : Nat}
    {activity : Activity} (h : (engine.goes setup event).Waits n activity) : engine.Waits n activity := by
  cases event with
  | call operation =>
    obtain ⟨cancelled, ht⟩ := h
    change (engine.tasks ++ [⟨.ready operation, false⟩])[n]? = _ at ht
    rw [List.getElem?_append] at ht
    split at ht
    · exact ⟨cancelled, ht⟩
    · cases List.mem_singleton.1 (List.mem_of_getElem? ht)
  | cancel number => exact waits_cancel h
  | turn => exact absurd rfl hne
  | expire _ | moveClock _ | layer _ _ _ | hear _ | listen _ | bind _ | reorder _ => exact h

theorem deeds_cancelAttempts {role : Role} (attempts : List Nat) (engine : Engine (σ × List Exchange))
    (ho : (engine.client.account letters).Coherent) :
    Deeds role (engine.client.account letters) ((attempts.foldl cancelAttempt engine).client.account letters) := by
  induction attempts generalizing engine with
  | nil => exact .refl
  | cons number attempts ih =>
    have hd : Deeds role (engine.client.account letters) ((engine.cancelAttempt number).client.account letters) := by
      unfold cancelAttempt
      dsimp only
      split
      · exact .refl
      · next phase _ =>
        let client := { engine.client with
          attempts := engine.client.attempts.modify number fun attempt =>
            { attempt with isCancelled := attempt.outcome.isNone } }
        have hc : (client.account letters).Coherent := ho
        exact (deeds_interrupt hc phase.signal : Deeds role (client.account letters) _)
    exact hd.trans (ih _ (hd.since_coherent ho).2)

/-- A task that is cancelled stays in its phase. -/
theorem Lawful.flag (h : Lawful opens called answers letters engine) {number : Nat} {task : Task}
    (found : engine.tasks[number]? = some task) {after : Engine (σ × List Exchange)}
    (deeds : Deeds (.bystander answers) (engine.client.account letters) (after.client.account letters))
    (attempts : after.attempts = engine.attempts)
    (tasks : after.tasks = engine.tasks.set number { task with isCancelled := true }) :
    Leads opens called answers engine after := by
  have hstops : ∀ n phase, after.Stops n phase → engine.Stops n phase := by
    rintro n phase ⟨other, activity, hother, hstate, hstop⟩
    rw [tasks, List.getElem?_set] at hother
    split at hother
    · next hn =>
      subst hn
      split at hother
      · cases hother
        exact ⟨task, activity, found, hstate, hstop⟩
      · cases hother
    · exact ⟨other, activity, hother, hstate, hstop⟩
  have hready : ∀ other ∈ after.tasks, ∀ operation, other.state = .ready operation → called operation := by
    intro other hm operation hstate
    rw [tasks] at hm
    rcases List.mem_or_eq_of_mem_set hm with hm | rfl
    · exact h.ready other hm operation hstate
    · exact h.ready task (List.mem_of_getElem? found) operation hstate
  obtain ⟨hs, ho⟩ := h.acts (acts_bystander deeds attempts hstops) hready nofun (fun _ _ => id) nofun
  exact ⟨hs, letters, ho⟩

theorem Lawful.cancel (h : Lawful opens called answers letters engine) (number : Nat) :
    Leads opens called answers engine (engine.cancel number).1 := by
  unfold Engine.cancel
  split
  · exact h.accords (.refl _)
  · next task found =>
    dsimp only
    split
    · exact h.accords (.refl _)
    · exact h.flag found .refl rfl rfl
    · split
      · next attempts _ =>
        let flagged := { engine with tasks := engine.tasks.set number { task with isCancelled := true } }
        obtain ⟨ha, ht⟩ := cancelAttempts_rest attempts flagged
        exact h.flag found (deeds_cancelAttempts attempts flagged h.coherent) ha ht
      · exact h.flag found (deeds_interrupt h.coherent _) rfl rfl

/-! ### Turns -/

theorem accords_countGathered (client : Client (σ × List Exchange)) (ticket : Nat) :
    Accords client (countGathered client ticket) := by
  unfold countGathered
  split <;> exact fun _ => rfl

theorem accords_forget (client : Client (σ × List Exchange)) (number : Nat) : Accords client (forget client number) := by
  unfold forget
  split
  · exact .refl client
  · dsimp only
    split <;> exact fun _ => rfl

theorem Lawful.perform (setup : Setup σ) (h : Lawful setup.opens called answers letters engine) {turn : Turn}
    (brings : ∀ delivery id result, turn = .deliver delivery → engine.client.isListening = true →
      engine.client.pending.has id = true → Message.decode delivery.text = .ok (.response id result none) →
      answers id result) : Leads setup.opens called answers engine (engine.perform setup.recorded turn) := by
  cases turn with
  | begin task => exact h.beginTask setup task
  | launch number => exact h.beginAttempt setup number
  | wake signal =>
    dsimp only [Engine.perform, wake]
    split
    · exact h.resumeTask setup _
    · split
      · exact h.resumeAttempt setup _
      · exact h.accords (.refl _)
  | release => exact h.pending (fun _ => rfl) h.coherent.numbered.moves_release
  | forget number => exact h.accords (accords_forget _ number)
  | joined ticket => exact h.accords fun _ => rfl
  | gathered ticket => exact h.accords (accords_countGathered _ ticket)
  | deliver delivery => exact h.bystander (deeds_hear h.coherent delivery fun id result => brings delivery id result rfl)

theorem Lawful.next (setup : Setup σ) (h : Lawful setup.opens called answers letters engine)
    (brings : ∀ id result, engine.Receives (.turn : Event σ) id result → answers id result) :
    Leads setup.opens called answers engine (engine.next setup.recorded) := by
  rcases next_cases engine setup.recorded with heq | ⟨turn, queue, hq, heq⟩
  · rw [heq]
    exact h.accords (.refl _)
  · rw [heq]
    have hpop : Leads setup.opens called answers engine (engine.withQueue queue) := h.accords fun _ => rfl
    obtain ⟨hs, letters', h'⟩ := hpop
    have hperform : Leads setup.opens called answers (engine.withQueue queue)
        ((engine.withQueue queue).perform setup.recorded turn) := by
      refine h'.perform setup fun delivery id result hturn hlistening hid hdecode => ?_
      exact brings id result ⟨delivery, Or.inr ⟨rfl, queue, hturn ▸ hq⟩, hlistening, hid, hdecode⟩
    exact ⟨hs.trans hperform.1, hperform.2⟩

/-- An operation is called. -/
theorem Lawful.call (h : Lawful opens called answers letters engine) {operation : Operation} (hc : called operation) :
    Leads opens called answers engine (engine.call operation).1 := by
  have hstops : ∀ n phase, (engine.call operation).1.Stops n phase → engine.Stops n phase := by
    rintro n phase ⟨task, activity, found, hstate, hstop⟩
    rw [Engine.call, List.getElem?_append] at found
    split at found
    · exact ⟨task, activity, found, hstate, hstop⟩
    · rw [List.mem_singleton.1 (List.mem_of_getElem? found)] at hstate
      cases hstate
  have hready : ∀ task ∈ (engine.call operation).1.tasks, ∀ other, task.state = .ready other → called other := by
    intro task hm other hstate
    rcases List.mem_append.1 hm with hm | hm
    · exact h.ready task hm other hstate
    · rw [List.mem_singleton.1 hm] at hstate
      cases hstate
      exact hc
  have ha : Acts (.bystander answers) letters letters engine (engine.call operation).1 :=
    acts_bystander .refl rfl hstops
  obtain ⟨hs, ho⟩ := h.acts ha hready (fun _ => False.elim) (fun _ _ => id) fun _ _ => False.elim
  exact ⟨hs, letters, ho⟩

/-- **Every event keeps the engine lawful.** -/
theorem Lawful.goes (setup : Setup σ) (h : Lawful setup.opens called answers letters engine) (event : Event σ) :
    Leads setup.opens (fun operation => called operation ∨ event = .call operation)
      (fun id result => answers id result ∨ engine.Receives event id result) engine (engine.goes setup event) := by
  have h' : Lawful setup.opens (fun operation => called operation ∨ event = .call operation)
      (fun id result => answers id result ∨ engine.Receives event id result) letters engine :=
    h.weaken (fun _ => Or.inl) fun _ _ => Or.inl
  cases event with
  | call operation => exact h'.call (Or.inr rfl)
  | turn => exact h'.next setup fun id result => Or.inr
  | expire timer =>
    refine h'.pending (fun letters => ?_) (h.coherent.numbered.moves_expire timer)
    exact account_logAll _ letters _
  | moveClock time => exact h'.pending (fun _ => rfl) (h.coherent.numbered.moves_moveClock (some time))
  | cancel number => exact h'.cancel number
  | layer state tickets deliveries => exact h'.accords fun _ => rfl
  | hear delivery =>
    exact h'.bystander (deeds_hear h.coherent delivery fun id result hlistening hid hdecode =>
      Or.inr ⟨delivery, Or.inl rfl, hlistening, hid, hdecode⟩)
  | listen audience => exact h'.accords fun _ => rfl
  | bind bindings => exact h'.accords fun _ => rfl
  | reorder queue => exact h'.accords fun _ => rfl

end Events

/-! ## Courses from the beginning -/

section Courses

variable (setup : Setup σ) (layer : σ) (settings : Settings)

/-- An engine that has done nothing yet, with an empty record. -/
def fresh (layer : σ) (settings : Settings) : Engine (σ × List Exchange) := Engine.new (Client.new (layer, []) settings)

theorem lawful_fresh (opens : String → Bool) (called : Operation → Prop) (answers : RequestId → Json → Prop) :
    Lawful opens called answers [] (fresh layer settings) := by
  have hnone : ∀ number, (fresh layer settings).client.sessions.session? number = none := fun _ => rfl
  have hcoherent : ((fresh layer settings).client.account []).Coherent := by
    constructor
    case named => exact SessionRegistry.named_empty
    case unique => exact List.nodup_nil
    case numbered => exact Pending.numbered_empty settings.requestTimeout.seconds
    case sent => rfl
    case inOrder => exact fun _ => Dispatch.inOrder_nil
    case live => exact fun _ _ hr => absurd hr.session (hnone _ ▸ nofun)
    all_goals nofun
  have hstops : ∀ number phase, ¬ (fresh layer settings).Stops number phase := by
    rintro number phase ⟨task, activity, found, -⟩
    cases found
  constructor
  case coherent => exact hcoherent
  case opened => nofun
  case shown => exact fun _ => ⟨nofun, List.nodup_nil, nofun, nofun⟩
  case answered =>
    intro index promise result found
    cases found
  case written => exact fun _ hm => absurd hm List.not_mem_nil
  case ready => exact fun _ hm => absurd hm List.not_mem_nil
  case attempting =>
    intro number phase found
    cases found
  case apart =>
    intro m n phase phase' session found
    cases found
  case parting => exact fun number phase hp => absurd hp (hstops number phase)
  case alone => exact fun m n phase phase' hp => absurd hp (hstops m phase)

/-- **In the course of events the engine is lawful**, by the operations that were called and the responses that were
heard. -/
theorem lawful_course (events : List (Event σ)) :
    ∃ letters, Lawful setup.opens (fun operation => .call operation ∈ events)
      (Received setup (fresh layer settings) events) letters (course setup (fresh layer settings) events) := by
  induction events using List.reverseRecOn with
  | nil => exact ⟨[], lawful_fresh layer settings _ _ _⟩
  | append_singleton events event ih =>
    obtain ⟨letters, h⟩ := ih
    obtain ⟨-, letters', h'⟩ := h.goes setup event
    rw [course_concat]
    refine ⟨letters', h'.weaken (fun operation hc => ?_) fun id result ha => ?_⟩
    · exact List.mem_append.2 (hc.imp id fun heq => List.mem_singleton.2 heq.symm)
    · rcases ha with ⟨before, heard, after, rfl, hh⟩ | hh
      · exact ⟨before, heard, after ++ [event], by simp, hh⟩
      · exact ⟨events, event, [], rfl, hh⟩

/-- **In the course of events the sessions pass on.** -/
theorem passes_course (events more : List (Event σ)) :
    (course setup (fresh layer settings) events).client.sessions.Passes
      (course setup (fresh layer settings) (events ++ more)).client.sessions := by
  induction more using List.reverseRecOn with
  | nil =>
    rw [List.append_nil]
    exact .refl _
  | append_singleton more event ih =>
    obtain ⟨letters, h⟩ := lawful_course setup layer settings (events ++ more)
    rw [← List.append_assoc, course_concat]
    exact ih.trans (h.goes setup event).1

end Courses

end Engine

end LanguageSessions
