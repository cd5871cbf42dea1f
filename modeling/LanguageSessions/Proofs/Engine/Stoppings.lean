import LanguageSessions.Proofs.Client.Stakes
import LanguageSessions.Proofs.Engine.Order
import LanguageSessions.Proofs.Engine.Owners
import LanguageSessions.Proofs.Engine.Readiness

/-!
# How often a process is stopped in the course of events

What an event does about stops is that a task pays what it owes, or that an attempt calls for what was at stake
(`Counts`, `Lawful.counts_goes`). So it is tallied how often processes were stopped (`Tallied`, `tallied_course`): once
at most, and the server is asked to shut down once at most (`processes_are_stopped_once`). But an attempt whose
handshake fails does not begin the end of its session before it waits for the process to stop. A stop that comes
meanwhile begins it, and the process is stopped once more (`Overlapped`, `process_is_stopped_twice`).
-/

namespace LanguageSessions

open Client Account SessionRegistry

/-- A letter asks the server of the session with an identifier to shut down. -/
def Letter.isShutdown (id : String) : Letter → Bool
  | .own session _ (.shutdown _) => session == id
  | _ => false

theorem Letter.isShutdown_iff {letter : Letter} {id : String} :
    letter.isShutdown id = true ↔ ∃ number request, letter = .own id number (.shutdown request) := by
  constructor
  · intro h
    unfold Letter.isShutdown at h
    split at h
    · exact ⟨_, _, by rw [eq_of_beq h]⟩
    · cases h
  · rintro ⟨number, request, rfl⟩
    exact beq_self_eq_true id

/-- Where none comes before another there is one at most. -/
theorem countP_le_one {α : Type} {p : α → Bool} {items : List α}
    (h : ∀ before item after, items = before ++ item :: after → p item = true → ∀ other ∈ before, ¬ p other = true) :
    items.countP p ≤ 1 := by
  induction items using List.reverseRecOn with
  | nil => exact Nat.zero_le _
  | append_singleton items item ih =>
    rw [List.countP_append, List.countP_singleton]
    split
    · next hp => rw [List.countP_eq_zero.2 (h items item [] rfl hp)]
    · exact ih fun before other after heq => h before other (after ++ [item]) (by rw [heq]; simp)

/-- Somebody who may do anything. -/
def Role.anybody : Role where
  greets _ := True
  opens _ _ := True
  ends _ := True
  aborts _ := True
  answers _ _ := True
  writes _ := True

namespace Engine

variable {σ : Type}

/-! ## What an event does about stops -/

/-- No attempt is at work on a session that is ready. -/
def LeavesReady (engine : Engine σ) : Prop :=
  ∀ number phase n session, engine.attempts.get? number = some phase → phase.session? = some n →
    engine.client.sessions.session? n = some session → session.stage ≠ .ready

/-- What an event does about stops: nothing, or a task gets on, or an attempt. -/
inductive Counts (event : Event σ) (engine : Engine (σ × List Exchange)) : Engine (σ × List Exchange) → Prop where
  | idle {later : Engine (σ × List Exchange)} (stopped : later.client.stopped = engine.client.stopped)
      (sessions : engine.client.sessions.Wanes later.client.sessions) (attempts : later.attempts = engine.attempts)
      (stops : ∀ task phase, later.Stops task phase → engine.Stops task phase) : Counts event engine later
  | pays {number : Nat} {queue : List Turn} {step : Client (σ × List Exchange) × Progress Activity Answer}
      {old : Option StopPhase} (idle : ∀ n, ¬ engine.Tries event n)
      (sessions : engine.client.sessions.Wanes step.1.sessions)
      (own : ∀ phase, old = some phase → engine.Stops number phase)
      (pays : ∀ n id, engine.client.sessions.Sole n id →
        Pays n id ((old.map (StopPhase.owes n)).getD 0) (owed Activity.stop? n step.2) engine.client step.1) :
      Counts event engine ((engine.withQueue queue).afterTask number step)
  | stakes {number : Nat} {queue : List Turn} {attempt : Attempt}
      {step : Client (σ × List Exchange) × Progress AttemptPhase String} {starts : List String}
      {shaken : Nat → Bool}
      (own : ∀ n, shaken n = true → ∃ phase, engine.attempts.get? number = some phase ∧ phase.shakes n = true)
      (stakes : Stakes starts shaken engine.client step) :
      Counts event engine ((engine.withQueue queue).afterAttempt number attempt step)

section Counting

variable {opens : String → Bool} {called : Operation → Prop} {answers : RequestId → Json → Prop}
  {letters : List Letter} {setup : Setup σ} {engine : Engine (σ × List Exchange)} {event : Event σ} {queue : List Turn} {number : Nat}

/-- What is done in charge of no session, and without anything being aborted, stops no process. -/
theorem stopped_of_harmless {before after : Client (σ × List Exchange)} {letters letters' : List Letter}
    {writes : Letter → Prop} (deeds : Deeds (.harmless writes) (before.account letters) (after.account letters')) :
    after.stopped = before.stopped := deeds.stopped_eq (fun _ hm => hm.elim False.elim False.elim) fun _ => False.elim

theorem stopped_of_accords {before after : Client (σ × List Exchange)} (h : Accords before after) :
    after.stopped = before.stopped := h.calls.stopped.trans (List.append_nil _)

/-- That a turn is taken from the queue is nothing to what is owed, or at stake. -/
theorem pays_popped {n own debt : Nat} {id : String} {after : Client (σ × List Exchange)}
    (h : Pays n id own debt (engine.withQueue queue).client after) : Pays n id own debt engine.client after :=
  ⟨h.sessions, h.paid⟩

theorem stakes_popped {starts : List String} {shaken : Nat → Bool}
    {step : Client (σ × List Exchange) × Progress AttemptPhase String}
    (h : Stakes starts shaken (engine.withQueue queue).client step) : Stakes starts shaken engine.client step :=
  ⟨h.founded, h.started, h.paid⟩

theorem wanes_of_eq {before after : SessionRegistry} (heq : after = before) : before.Wanes after := heq ▸ .refl _

theorem Lawful.counts_begin (h : Lawful opens called answers letters engine) (setup : Setup σ)
    (hq : engine.client.queue = .begin number :: queue) :
    Counts (.turn : Event σ) engine ((engine.withQueue queue).beginTask setup.recorded number) := by
  have idle : ∀ n, ¬ engine.Tries (.turn : Event σ) n := not_tries_of_begin hq
  unfold Engine.beginTask
  split
  · next operation cancelled _ =>
    have hnone : ∀ phase, (none : Option StopPhase) = some phase → engine.Stops number phase := nofun
    refine .pays idle ?_ hnone fun n id sole => ?_ <;> split
    · exact .refl _
    · have hwanes :=
        wanes_of_advances ((engine.withQueue queue).client.advances_beginOperation setup.recorded operation)
      exact hwanes
    · exact pays_popped (.refl _ 0)
    · have ho : ((engine.withQueue queue).client.account letters).Coherent := h.coherent
      exact pays_popped (pays_beginOperation ho setup sole operation)
  · exact .idle rfl (.refl _) rfl fun _ _ => id

theorem Lawful.counts_resume (h : Lawful opens called answers letters engine) (setup : Setup σ) {signal : Signal}
    (hq : engine.client.queue = .wake signal :: queue)
    (hf : engine.tasks.findIdx? (Task.waitsFor signal) = some number) :
    Counts (.turn : Event σ) engine ((engine.withQueue queue).resumeTask setup.recorded number) := by
  have idle : ∀ n, ¬ engine.Tries (.turn : Event σ) n := not_tries_of_wake hq hf
  unfold Engine.resumeTask
  split
  · next activity cancelled ht =>
    have own : ∀ phase, activity.stop? = some phase → engine.Stops number phase :=
      fun phase hp => ⟨_, activity, ht, rfl, hp⟩
    have ho : ((engine.withQueue queue).client.account letters).Coherent := h.coherent
    have hsessions :=
      wanes_of_advances ((engine.withQueue queue).client.advances_resumeActivity setup.recorded cancelled activity)
    exact .pays idle hsessions own fun n id sole => pays_popped (pays_resumeActivity ho setup sole cancelled activity)
  · exact .idle rfl (.refl _) rfl fun _ _ => id

theorem counts_launch (setup : Setup σ) (number : Nat) :
    Counts event engine ((engine.withQueue queue).beginAttempt setup.recorded number) := by
  unfold Engine.beginAttempt
  split
  · exact .idle rfl (.refl _) rfl fun _ _ => id
  · next attempt _ =>
    obtain ⟨starts, stakes⟩ : ∃ starts, Stakes starts (fun _ => false) (engine.withQueue queue).client
        (if attempt.isCancelled then ((engine.withQueue queue).client, .ends (.error .cancelled))
          else (engine.withQueue queue).client.attempt setup.recorded attempt.language attempt.root) := by
      split
      · exact ⟨[], stakes_fails (Accords.refl _).calls (.refl _) _⟩
      · exact stakes_attempt _ setup _ _
    have own : ∀ n, false = true → ∃ phase, engine.attempts.get? number = some phase ∧ phase.shakes n = true := nofun
    exact .stakes own (stakes_popped stakes)

theorem counts_wake (setup : Setup σ) (number : Nat) (unready : engine.LeavesReady) :
    Counts event engine ((engine.withQueue queue).resumeAttempt setup.recorded number) := by
  unfold Engine.resumeAttempt
  split
  · next attempt phase _ hp =>
    obtain ⟨starts, stakes⟩ := (engine.withQueue queue).client.stakes_resumeAttempt setup attempt.isCancelled
      attempt.language attempt.root fun n session => unready number phase n session hp
    exact .stakes (fun n shakes => ⟨phase, hp, shakes⟩) (stakes_popped stakes)
  · exact .idle rfl (.refl _) rfl fun _ _ => id

/-- **What an event does about stops.** -/
theorem Lawful.counts_goes (h : Lawful opens called answers letters engine) (setup : Setup σ) (event : Event σ)
    (unready : engine.LeavesReady) :
    Counts event engine (engine.goes setup event) := by
  have hheard : ∀ (client : Client (σ × List Exchange)) (delivery : Delivery),
      (client.account letters).Coherent → (client.hear delivery).stopped = client.stopped := by
    intro client delivery ho
    have deeds : Deeds (.harmless fun _ => False) (client.account letters) ((client.hear delivery).account letters) :=
      deeds_hear ho delivery fun _ _ _ _ _ => trivial
    exact stopped_of_harmless deeds
  by_cases hne : event = .turn
  · subst hne
    change Counts (.turn : Event σ) engine (engine.next setup.recorded)
    rcases next_cases engine setup.recorded with heq | ⟨turn, queue, hq, heq⟩
    · rw [heq]
      exact .idle rfl (.refl _) rfl fun _ _ => id
    · rw [heq]
      cases turn with
      | begin task => exact h.counts_begin setup hq
      | launch number => exact counts_launch setup number
      | wake signal =>
        rcases (engine.withQueue queue).perform_wake_cases setup.recorded signal with
          ⟨task, hf, heq⟩ | ⟨number, phase, -, -, heq⟩ | heq
        · rw [heq]
          exact h.counts_resume setup hq hf
        · rw [heq]
          exact counts_wake setup number unready
        · rw [heq]
          exact .idle rfl (.refl _) rfl fun _ _ => id
      | release =>
        exact .idle ((calls_setPending _ _).stopped.trans (List.append_nil _)) (.refl _) rfl fun _ _ => id
      | forget number =>
        have hsessions := sessions_forget (engine.withQueue queue).client number
        exact .idle (stopped_of_accords (accords_forget _ number)) (wanes_of_eq hsessions) rfl fun _ _ => id
      | joined ticket => exact .idle rfl (.refl _) rfl fun _ _ => id
      | gathered ticket =>
        have hcalm := calm_countGathered (engine.withQueue queue).client ticket
        exact .idle (stopped_of_accords (accords_countGathered _ ticket)) hcalm.sessions rfl fun _ _ => id
      | deliver delivery =>
        have hcalm := calm_hear (engine.withQueue queue).client delivery
        exact .idle (hheard _ delivery h.coherent) hcalm.sessions rfl fun _ _ => id
  · have hstops : ∀ task phase, (engine.goes setup event).Stops task phase → engine.Stops task phase := by
      rintro task phase ⟨⟨state, cancelled⟩, activity, found, rfl, hstop⟩
      obtain ⟨flag, found'⟩ := waits_goes hne ⟨cancelled, found⟩
      exact ⟨_, activity, found', rfl, hstop⟩
    cases event with
    | turn => exact absurd rfl hne
    | hear delivery =>
      exact .idle (hheard _ delivery h.coherent) (calm_hear engine.client delivery).sessions rfl hstops
    | cancel number =>
      have deeds : Deeds (.harmless fun _ => False) (engine.client.account letters)
          ((engine.cancel number).1.client.account letters) := deeds_cancel h.coherent number
      exact .idle (stopped_of_harmless deeds) (engine.stays_cancel number).2 (engine.cancel_rest number).2 hstops
    | expire timer =>
      have hstopped : (engine.goes setup (.expire timer)).client.stopped = engine.client.stopped :=
        (stopped_of_accords (accords_logAll _ _)).trans
          ((engine.client.calls_setPending _).stopped.trans (List.append_nil _))
      exact .idle hstopped ((calm_setPending _ _).trans (calm_logAll _ _)).sessions rfl hstops
    | call _ | moveClock _ | layer _ _ _ | listen _ | bind _ | reorder _ => exact .idle rfl (.refl _) rfl hstops

end Counting

/-! ## How often processes were stopped -/

/-- An attempt waits in the handshake of the session with a number. -/
def Shakes (engine : Engine σ) (number : Nat) : Prop :=
  ∃ attempt phase, engine.attempts.get? attempt = some phase ∧ phase.shakes number = true

theorem Shakes.of_own {engine : Engine σ} {attempt number : Nat}
    (h : ∃ phase, engine.attempts.get? attempt = some phase ∧ phase.shakes number = true) : engine.Shakes number := by
  obtain ⟨phase, waits, shakes⟩ := h
  exact ⟨attempt, phase, waits, shakes⟩

/-- The process of a session was stopped once at most, or twice if its identifier is one of some, and what a stop of it
owes is counted. -/
def Settles (engine : Engine (σ × List Exchange)) (overlaps : String → Prop) (n : Nat) (id : String) : Prop :=
  ∃ more, (more = 0 ∨ more = 1 ∧ overlaps id) ∧ engine.client.stopped.count id ≤ 1 + more ∧
    ∀ task phase, engine.Stops task phase → engine.client.stopped.count id + phase.owes n ≤ 1 + more

/-- The sessions are those whose servers were started, and none of two has the identifier of the other. For an
identifier that no session has, no process was stopped more often than it was started. The process of a session whose
end has not begun was stopped once at most, and not at all if its handshake lasts or it is ready; how often one was
stopped whose end has begun `Settles` says. -/
structure Tallied (overlaps : String → Prop) (engine : Engine (σ × List Exchange)) : Prop where
  founded : ∀ n session, engine.client.sessions.session? n = some session →
    session.id ∈ startedBy engine.client.layer.2
  distinct : engine.client.sessions.Distinct
  absent : ∀ id, (∀ n session, engine.client.sessions.session? n = some session → session.id ≠ id) →
    engine.client.stopped.count id ≤ (startedBy engine.client.layer.2).count id
  live : ∀ n session, engine.client.sessions.session? n = some session → session.stage.isEnding = false →
    engine.client.stopped.count session.id ≤ 1 ∧
      (session.stage = .ready ∨ engine.Shakes n → engine.client.stopped.count session.id = 0)
  ending : ∀ n session, engine.client.sessions.session? n = some session → session.stage.isEnding = true →
    engine.Settles overlaps n session.id

section Tallying

variable {opens : String → Bool} {called : Operation → Prop} {answers : RequestId → Json → Prop}
  {letters : List Letter} {setup : Setup σ} {engine later : Engine (σ × List Exchange)} {event : Event σ} {overlaps : String → Prop}

theorem tallied_fresh (layer : σ) (settings : Settings) : Tallied overlaps (fresh layer settings) where
  founded _ _ found := by cases found
  distinct _ _ _ _ found := by cases found
  absent _ _ := Nat.zero_le _
  live _ _ found := by cases found
  ending _ _ found := by cases found

theorem settles_of_once {n : Nat} {id : String} (once : engine.client.stopped.count id ≤ 1)
    (owes : ∀ task phase, engine.Stops task phase → phase.owes n = 0) : engine.Settles overlaps n id := by
  refine ⟨0, Or.inl rfl, once, fun task phase stops => ?_⟩
  rw [owes task phase stops]
  exact once

theorem Settles.lasts {n : Nat} {id : String} (h : engine.Settles overlaps n id)
    (stopped : later.client.stopped.count id ≤ engine.client.stopped.count id)
    (stops : ∀ task phase, later.Stops task phase → engine.Stops task phase) : later.Settles overlaps n id := by
  obtain ⟨more, hmore, hcount, howed⟩ := h
  refine ⟨more, hmore, Nat.le_trans stopped hcount, fun task phase hs => ?_⟩
  exact Nat.le_trans (Nat.add_le_add_right stopped _) (howed task phase (stops task phase hs))

/-- A stop that waits owes nothing for a session whose end has not begun. -/
theorem Lawful.owes_nothing (h : Lawful opens called answers letters engine) {n : Nat}
    (live : ∀ session, engine.client.sessions.session? n = some session → session.stage.isEnding = false)
    {task : Nat} {phase : StopPhase} (stops : engine.Stops task phase) : phase.owes n = 0 := by
  refine StopPhase.owes_of_ne ?_
  rintro rfl
  obtain ⟨session, found, ending⟩ := (h.parting task phase stops).1
  exact Bool.false_ne_true ((live session found).symm.trans ending)

theorem Lawful.old_owes_nothing (h : Lawful opens called answers letters engine) {n task : Nat} {old : Option StopPhase}
    (live : ∀ session, engine.client.sessions.session? n = some session → session.stage.isEnding = false)
    (own : ∀ phase, old = some phase → engine.Stops task phase) : (old.map (StopPhase.owes n)).getD 0 = 0 := by
  cases old with
  | none => rfl
  | some phase => exact h.owes_nothing live (own phase rfl)

/-- Sessions that are there later were there before. -/
theorem Tallied.founded_of_wanes (h : engine.Tallied overlaps)
    (sessions : engine.client.sessions.Wanes later.client.sessions)
    (record : engine.client.layer.2 <+: later.client.layer.2) :
    ∀ n session, later.client.sessions.session? n = some session → session.id ∈ startedBy later.client.layer.2 := by
  intro n session found
  obtain ⟨earlier, hearlier, wanes⟩ := session?_of_wanes sessions found
  rw [wanes.id]
  exact (record.filterMap _).subset (h.founded n earlier hearlier)

theorem absent_of_wanes {before after : SessionRegistry} (sessions : before.Wanes after) {id : String}
    (absent : ∀ n session, after.session? n = some session → session.id ≠ id) :
    ∀ n session, before.session? n = some session → session.id ≠ id := by
  intro n session found
  obtain ⟨session', found', wanes⟩ := sessions.session n session found
  exact wanes.id ▸ absent n session' found'

theorem count_started_le {record record' : List Exchange} (h : record <+: record') (id : String) :
    (startedBy record).count id ≤ (startedBy record').count id := (h.filterMap _).sublist.count_le id

/-- Nobody has a process stopped. -/
theorem Tallied.idle (h : engine.Tallied overlaps) (lawful : Lawful opens called answers letters engine)
    (record : engine.client.layer.2 <+: later.client.layer.2)
    (stopped : later.client.stopped = engine.client.stopped)
    (sessions : engine.client.sessions.Wanes later.client.sessions) (attempts : later.attempts = engine.attempts)
    (stops : ∀ task phase, later.Stops task phase → engine.Stops task phase) : later.Tallied overlaps where
  founded := h.founded_of_wanes sessions record
  distinct := sessions.distinct h.distinct
  absent id absent := by
    rw [stopped]
    exact Nat.le_trans (h.absent id (absent_of_wanes sessions absent)) (count_started_le record id)
  live n session found live := by
    obtain ⟨earlier, hearlier, wanes⟩ := session?_of_wanes sessions found
    have hstage := wanes.stage.resolve_right (by rw [live]; exact Bool.false_ne_true)
    have hbefore := h.live n earlier hearlier (hstage ▸ live)
    unfold Shakes
    rw [stopped, wanes.id, attempts, hstage]
    exact hbefore
  ending n session found ending := by
    obtain ⟨earlier, hearlier, wanes⟩ := session?_of_wanes sessions found
    rw [wanes.id]
    cases hending : earlier.stage.isEnding with
    | true => exact (h.ending n earlier hearlier hending).lasts (stopped ▸ Nat.le_refl _) stops
    | false =>
      have hcount := (h.live n earlier hearlier hending).1
      refine settles_of_once (stopped ▸ hcount) fun task phase hs => ?_
      refine lawful.owes_nothing (fun other hother => ?_) (stops task phase hs)
      cases hearlier.symm.trans hother
      exact hending

section Tasks

variable {number : Nat} {queue : List Turn} {step : Client (σ × List Exchange) × Progress Activity Answer}
  {old : Option StopPhase}

theorem client_afterTask (engine : Engine (σ × List Exchange)) (number : Nat)
    (step : Client (σ × List Exchange) × Progress Activity Answer) :
    (engine.afterTask number step).client.stopped = step.1.stopped ∧
      (engine.afterTask number step).client.sessions = step.1.sessions ∧
      (engine.afterTask number step).client.layer = step.1.layer := by
  obtain ⟨client, activity | outcome⟩ := step
  · exact ⟨rfl, rfl, rfl⟩
  · have haccords : Accords client (client.note (.finished number outcome)) := fun letters =>
      client.account_note letters rfl
    exact ⟨stopped_of_accords haccords, rfl, rfl⟩

/-- A task that waits in a stop behind a turn of some task was waiting in it, or that turn has brought it there. -/
theorem stops_afterTask {task : Nat} {phase : StopPhase}
    (stops : ((engine.withQueue queue).afterTask number step).Stops task phase) :
    task ≠ number ∧ engine.Stops task phase ∨
      ∀ n, owed Activity.stop? n step.2 = phase.owes n := by
  obtain ⟨⟨state, cancelled⟩, activity, found, rfl, hstop⟩ := stops
  by_cases hn : task = number
  · subst hn
    have hw : ((engine.withQueue queue).afterTask task step).Waits task activity := ⟨cancelled, found⟩
    refine Or.inr fun n => ?_
    rw [waits_afterTask hw, owed, hstop]
    rfl
  · rw [getElem?_afterTask _ hn] at found
    exact Or.inl ⟨hn, _, activity, found, rfl, hstop⟩

/-- No two tasks owe a call for one session. -/
theorem Lawful.owes_alone (h : Lawful opens called answers letters engine)
    (own : ∀ phase, old = some phase → engine.Stops number phase) {task n : Nat} {phase : StopPhase}
    (other : task ≠ number) (stops : engine.Stops task phase) :
    phase.owes n = 0 ∨ (old.map (StopPhase.owes n)).getD 0 = 0 := by
  cases old with
  | none => exact Or.inr rfl
  | some waited =>
    by_cases hphase : phase.session = n
    · refine Or.inr (StopPhase.owes_of_ne fun hwaited => other ?_)
      exact h.alone task number phase waited stops (own waited rfl) (hphase.trans hwaited.symm)
    · exact Or.inl (StopPhase.owes_of_ne hphase)

/-- A task gets on, where the end of a session has begun: what its stop owed is called for, or is owed still. -/
theorem Settles.pays {n : Nat} {id : String} (h : engine.Settles overlaps n id)
    (lawful : Lawful opens called answers letters engine) (own : ∀ phase, old = some phase → engine.Stops number phase)
    (paid : step.1.stopped.count id + owed Activity.stop? n step.2 ≤
      engine.client.stopped.count id + (old.map (StopPhase.owes n)).getD 0) :
    ((engine.withQueue queue).afterTask number step).Settles overlaps n id := by
  obtain ⟨more, hmore, hcount, howed⟩ := h
  unfold Settles
  rw [((engine.withQueue queue).client_afterTask number step).1]
  have hold : engine.client.stopped.count id + (old.map (StopPhase.owes n)).getD 0 ≤ 1 + more := by
    cases old with
    | none => exact hcount
    | some phase => exact howed number phase (own phase rfl)
  refine ⟨more, hmore, by omega, fun task phase stops => ?_⟩
  rcases stops_afterTask stops with ⟨hother, hstops⟩ | hdebt
  · have hwaited := howed task phase hstops
    rcases lawful.owes_alone own (n := n) hother hstops with hnone | hnone <;> omega
  · rw [← hdebt n]
    omega

/-- The end of a session begins. Its process was stopped already if its handshake had failed. -/
theorem settles_begins {n : Nat} {id : String} (lawful : Lawful opens called answers letters engine)
    (live : ∀ session, engine.client.sessions.session? n = some session → session.stage.isEnding = false)
    (stopped : engine.client.stopped.count id ≤ 1) (overlapping : engine.client.stopped.count id = 1 → overlaps id)
    (paid : step.1.stopped.count id + owed Activity.stop? n step.2 ≤ engine.client.stopped.count id + 1) :
    ((engine.withQueue queue).afterTask number step).Settles overlaps n id := by
  unfold Settles
  rw [((engine.withQueue queue).client_afterTask number step).1]
  refine ⟨engine.client.stopped.count id, ?_, by omega, fun task phase stops => ?_⟩
  · exact (Nat.le_one_iff_eq_zero_or_eq_one.1 stopped).imp_right fun hone => ⟨hone, overlapping hone⟩
  · rcases stops_afterTask stops with ⟨-, hstops⟩ | hdebt
    · rw [lawful.owes_nothing live hstops]
      omega
    · rw [← hdebt n]
      omega

section Paying

variable (h : engine.Tallied overlaps) (lawful : Lawful opens called answers letters engine)
  (sessions : engine.client.sessions.Wanes step.1.sessions)
  (own : ∀ phase, old = some phase → engine.Stops number phase)
  (paid : ∀ n id, engine.client.sessions.Sole n id →
    Pays n id ((old.map (StopPhase.owes n)).getD 0) (owed Activity.stop? n step.2) engine.client step.1)

include h lawful sessions own paid

/-- A task that pays what it owes has no process stopped that no session has the identifier of. -/
theorem Tallied.absent_of_pays {id : String}
    (absent : ∀ n session, step.1.sessions.session? n = some session → session.id ≠ id) :
    step.1.stopped.count id ≤ (startedBy engine.client.layer.2).count id := by
  have habsent := absent_of_wanes sessions absent
  have hpaid := (paid _ id (sole_of_absent habsent)).paid
  have hold := lawful.old_owes_nothing (n := engine.client.sessions.sessions.length) (fun session found => absurd
    (lt_length found) (Nat.lt_irrefl _)) own
  have hnone : engine.client.sessions.lives engine.client.sessions.sessions.length id = 0 := by
    unfold lives
    rw [stageAs?_length]
  have hcount := h.absent id habsent
  omega

/-- A session whose end has not begun is one that had not begun to end before, and its process is left alone. -/
theorem Tallied.live_of_pays {n : Nat} {session : Session} (found : step.1.sessions.session? n = some session)
    (live : session.stage.isEnding = false) :
    step.1.stopped.count session.id ≤ 1 ∧
      (session.stage = .ready ∨ engine.Shakes n → step.1.stopped.count session.id = 0) := by
  obtain ⟨earlier, hearlier, wanes⟩ := session?_of_wanes sessions found
  have hstage := wanes.stage.resolve_right (by rw [live]; exact Bool.false_ne_true)
  have hlive : earlier.stage.isEnding = false := hstage ▸ live
  obtain ⟨hcount, hnone⟩ := h.live n earlier hearlier hlive
  have hpaid := (paid n earlier.id (h.distinct.sole hearlier)).paid
  have hold := lawful.old_owes_nothing (n := n) (fun other hother => by
    cases hearlier.symm.trans hother
    exact hlive) own
  rw [lives_of_live (stageAs?_of_found hearlier) hlive, ← wanes.id,
    lives_of_live (stageAs?_of_found found) live] at hpaid
  rw [← wanes.id] at hcount hnone
  refine ⟨by omega, fun hrisk => ?_⟩
  rw [hstage] at hrisk
  have hbefore := hnone hrisk
  omega

/-- A session whose end has begun: it had begun before, or it begins now. -/
theorem Tallied.settles_of_pays {n : Nat} {session : Session} (found : step.1.sessions.session? n = some session)
    (ending : session.stage.isEnding = true)
    (overlapping : ∀ earlier, engine.client.sessions.session? n = some earlier → earlier.stage.isEnding = false →
      engine.client.stopped.count earlier.id = 1 → overlaps earlier.id) :
    ((engine.withQueue queue).afterTask number step).Settles overlaps n session.id := by
  obtain ⟨earlier, hearlier, wanes⟩ := session?_of_wanes sessions found
  have hpaid := (paid n earlier.id (h.distinct.sole hearlier)).paid
  have hnow : step.1.sessions.lives n session.id = 0 := lives_of_ending (stageAs?_of_found found) ending
  rw [wanes.id] at hnow ⊢
  cases hending : earlier.stage.isEnding with
  | true =>
    have hbefore := lives_of_ending (stageAs?_of_found hearlier) hending
    exact (h.ending n earlier hearlier hending).pays lawful own (by omega)
  | false =>
    have hlive : ∀ other, engine.client.sessions.session? n = some other → other.stage.isEnding = false := by
      intro other hother
      cases hearlier.symm.trans hother
      exact hending
    have hold := lawful.old_owes_nothing (n := n) hlive own
    have hbefore := lives_of_live (stageAs?_of_found hearlier) hending
    exact settles_begins lawful hlive (h.live n earlier hearlier hending).1 (overlapping earlier hearlier hending)
      (by omega)

/-- A task gets on, and pays what it owes. -/
theorem Tallied.pays (record : engine.client.layer.2 <+: step.1.layer.2)
    (overlapping : ∀ n session later, engine.client.sessions.session? n = some session →
      session.stage.isEnding = false → engine.client.stopped.count session.id = 1 →
      step.1.sessions.session? n = some later → later.stage.isEnding = true → overlaps session.id) :
    ((engine.withQueue queue).afterTask number step).Tallied overlaps := by
  obtain ⟨hstopped, hsessions, hlayer⟩ := (engine.withQueue queue).client_afterTask number step
  have hattempts : ((engine.withQueue queue).afterTask number step).attempts = engine.attempts :=
    attempts_afterTask ..
  constructor
  case founded => exact h.founded_of_wanes (hsessions ▸ sessions) (hlayer ▸ record)
  case distinct =>
    rw [hsessions]
    exact sessions.distinct h.distinct
  case absent =>
    intro id absent
    rw [hsessions] at absent
    rw [hstopped, hlayer]
    exact Nat.le_trans (h.absent_of_pays lawful sessions own paid absent) (count_started_le record id)
  case live =>
    intro n session found live
    rw [hsessions] at found
    unfold Shakes
    rw [hstopped, hattempts]
    exact h.live_of_pays lawful sessions own paid found live
  case ending =>
    intro n session found ending
    rw [hsessions] at found
    exact h.settles_of_pays lawful sessions own paid found ending fun earlier hearlier hending hone =>
      overlapping n earlier session hearlier hending hone found ending

end Paying

end Tasks

/-! ### Attempts -/

section Attempts

variable {number : Nat} {queue : List Turn} {attempt : Attempt}
  {step : Client (σ × List Exchange) × Progress AttemptPhase String} {starts : List String} {shaken : Nat → Bool}
  {n : Nat} {session : Session}

theorem client_afterAttempt (engine : Engine (σ × List Exchange)) (number : Nat) (attempt : Attempt)
    (step : Client (σ × List Exchange) × Progress AttemptPhase String) :
    (engine.afterAttempt number attempt step).client.stopped = step.1.stopped ∧
      (engine.afterAttempt number attempt step).client.sessions = step.1.sessions ∧
      (engine.afterAttempt number attempt step).client.layer = step.1.layer := by
  obtain ⟨client, phase | outcome⟩ := step <;> exact ⟨rfl, rfl, rfl⟩

/-- Behind a turn of an attempt the handshake of a session lasts if it did so before, of another attempt, or if the turn
has brought the attempt there. -/
theorem shakes_afterAttempt (shakes : ((engine.withQueue queue).afterAttempt number attempt step).Shakes n) :
    (∃ m phase, m ≠ number ∧ engine.attempts.get? m = some phase ∧ phase.shakes n = true) ∨
      step.2.shakes n = true := by
  obtain ⟨m, phase, found, hshakes⟩ := shakes
  by_cases hm : m = number
  · subst hm
    rw [waits_of_get?_afterAttempt found]
    exact Or.inr hshakes
  · rw [get?_afterAttempt_of_ne hm] at found
    exact Or.inl ⟨m, phase, hm, found, hshakes⟩

theorem stops_afterAttempt {task : Nat} {phase : StopPhase}
    (stops : ((engine.withQueue queue).afterAttempt number attempt step).Stops task phase) :
    engine.Stops task phase := by
  unfold Stops at stops
  rw [tasks_afterAttempt] at stops
  exact stops

/-- Where identifiers are given to servers once only, no server is started under one that a session has. -/
theorem Tallied.unstarted (h : engine.Tallied overlaps) (stakes : Stakes starts shaken engine.client step)
    (nodup : (startedBy step.1.layer.2).Nodup) (found : engine.client.sessions.session? n = some session) :
    session.id ∉ starts := by
  rw [stakes.started] at nodup
  exact fun hm => (List.nodup_append.1 nodup).2.2 session.id (h.founded n session found) session.id hm rfl

/-- So no session is added under an identifier that another has. -/
theorem Tallied.distinct_of_stakes (h : engine.Tallied overlaps) (stakes : Stakes starts shaken engine.client step)
    (nodup : (startedBy step.1.layer.2).Nodup) : step.1.sessions.Distinct := by
  intro m n first second hm hn hid
  rcases stakes.founded m first hm with ⟨rfl, hfirst⟩ | ⟨first', hm', hid'⟩ <;>
    rcases stakes.founded n second hn with ⟨rfl, hsecond⟩ | ⟨second', hn', hid''⟩
  · rfl
  · exact absurd hfirst (hid ▸ hid'' ▸ h.unstarted stakes nodup hn')
  · exact absurd hsecond (hid ▸ hid' ▸ h.unstarted stakes nodup hm')
  · exact h.distinct m n first' second' hm' hn' (hid'.trans (hid.trans hid''.symm))

/-- What an attempt calls for was at stake, or is for a server that was just started. -/
theorem Tallied.charged (h : engine.Tallied overlaps) (stakes : Stakes starts shaken engine.client step)
    (nodup : (startedBy step.1.layer.2).Nodup) (found : step.1.sessions.session? n = some session) :
    step.1.stopped.count session.id + step.1.sessions.stake n session.id (step.2.shakes n) ≤
      engine.client.stopped.count session.id + engine.client.sessions.stake n session.id (shaken n) +
        starts.count session.id := by
  refine stakes.paid n session.id (fun m other hother hid => ?_) fun hm => ?_ <;>
    rcases stakes.founded n session found with ⟨hn, hnew⟩ | ⟨earlier, hearlier, hid'⟩
  · exact absurd hnew (hid ▸ h.unstarted stakes nodup hother)
  · exact h.distinct m n other earlier hother hearlier (hid.trans hid'.symm)
  · exact hn
  · exact absurd hm (hid' ▸ h.unstarted stakes nodup hearlier)

/-- The same for a session that was there before. -/
theorem Tallied.charged_before (h : engine.Tallied overlaps) (stakes : Stakes starts shaken engine.client step)
    (nodup : (startedBy step.1.layer.2).Nodup) (found : step.1.sessions.session? n = some session)
    {earlier : Session} (before : engine.client.sessions.session? n = some earlier) (same : earlier.id = session.id) :
    step.1.stopped.count session.id + step.1.sessions.stake n session.id (step.2.shakes n) ≤
      engine.client.stopped.count session.id + engine.client.sessions.stake n session.id (shaken n) := by
  have hnone : starts.count session.id = 0 := List.count_eq_zero.2 (same ▸ h.unstarted stakes nodup before)
  have hcharged := h.charged stakes nodup found
  rwa [hnone] at hcharged

/-- The process of a session whose end has not begun was stopped before or is at stake, but not both. -/
theorem Tallied.staked (h : engine.Tallied overlaps) {shaking : Bool}
    (found : engine.client.sessions.session? n = some session) (live : session.stage.isEnding = false)
    (shakes : shaking = true → engine.Shakes n) :
    engine.client.stopped.count session.id + engine.client.sessions.stake n session.id shaking ≤ 1 := by
  obtain ⟨hcount, hnone⟩ := h.live n session found live
  have hstage := stageAs?_of_found found
  cases shaking with
  | true => rw [hnone (Or.inr (shakes rfl)), stake_of_live hstage live]
  | false =>
    by_cases hready : session.stage = .ready
    · rw [hnone (Or.inl hready), Nat.zero_add]
      exact stake_le_one ..
    · rw [stake_of_unready hstage hready]
      exact hcount

/-- So it is after a turn of an attempt, if the end of the session had not begun before. -/
theorem Tallied.staked_after (h : engine.Tallied overlaps) (stakes : Stakes starts shaken engine.client step)
    (nodup : (startedBy step.1.layer.2).Nodup) (shakes : ∀ n, shaken n = true → engine.Shakes n)
    (found : step.1.sessions.session? n = some session)
    (live : ∀ earlier, engine.client.sessions.session? n = some earlier → earlier.stage.isEnding = false) :
    step.1.stopped.count session.id + step.1.sessions.stake n session.id (step.2.shakes n) ≤ 1 := by
  rcases stakes.founded n session found with ⟨rfl, hnew⟩ | ⟨earlier, hearlier, hid⟩
  · -- The session is added: its server was started just now and once only, and was not stopped before.
    have hcharged := h.charged stakes nodup found
    rw [stakes.started] at nodup
    obtain ⟨-, honce, hnever⟩ := List.nodup_append.1 nodup
    have hbefore : (startedBy engine.client.layer.2).count session.id = 0 :=
      List.count_eq_zero.2 fun hm => hnever session.id hm session.id hnew rfl
    have hstopped := h.absent session.id fun m other hother hid =>
      hnever session.id (hid ▸ h.founded m other hother) session.id hnew rfl
    have hstarted : starts.count session.id ≤ 1 := List.nodup_iff_count_le_one.1 honce session.id
    rw [stake_length] at hcharged
    omega
  · have hstaked := h.staked hearlier (live earlier hearlier) (shakes n)
    rw [hid] at hstaked
    exact Nat.le_trans (h.charged_before stakes nodup found hearlier hid) hstaked

/-- A handshake that lasts of another attempt lasted before, and its session is left alone. -/
theorem Tallied.unstopped_elsewhere (h : engine.Tallied overlaps) (lawful : Lawful opens called answers letters engine)
    (stakes : Stakes starts shaken engine.client step) (nodup : (startedBy step.1.layer.2).Nodup)
    (own : ∀ n, shaken n = true → ∃ phase, engine.attempts.get? number = some phase ∧ phase.shakes n = true)
    {m : Nat} {phase : AttemptPhase} (other : m ≠ number) (waits : engine.attempts.get? m = some phase)
    (shakes : phase.shakes n = true)
    (unready : ∀ session, engine.client.sessions.session? n = some session → session.stage ≠ .ready)
    (found : step.1.sessions.session? n = some session)
    (live : ∀ earlier, engine.client.sessions.session? n = some earlier → earlier.stage.isEnding = false) :
    step.1.stopped.count session.id = 0 := by
  have hphase := AttemptPhase.session?_of_shakes shakes
  have hfree : shaken n = false := by
    refine Bool.eq_false_iff.2 fun heq => ?_
    obtain ⟨mine, hmine, hshakes⟩ := own n heq
    exact other (lawful.apart m number phase mine n waits hmine hphase (AttemptPhase.session?_of_shakes hshakes))
  rcases stakes.founded n session found with ⟨hn, -⟩ | ⟨earlier, hearlier, hid⟩
  · exact absurd hn (Nat.ne_of_lt ((lawful.attempting m phase waits).lt_length hphase))
  · have hcharged := h.charged_before stakes nodup found hearlier hid
    have hstake := stake_of_unready (stageAs?_of_found hearlier) (unready earlier hearlier)
    have hnone := (h.live n earlier hearlier (live earlier hearlier)).2 (Or.inr ⟨m, phase, waits, shakes⟩)
    rw [hid] at hstake hnone
    rw [hfree, hstake, hnone] at hcharged
    omega

section Staking

variable (h : engine.Tallied overlaps) (lawful : Lawful opens called answers letters engine)
  (advances : engine.client.sessions.Advances step.1.sessions) (nodup : (startedBy step.1.layer.2).Nodup)
  (own : ∀ n, shaken n = true → ∃ phase, engine.attempts.get? number = some phase ∧ phase.shakes n = true)
  (staked : Stakes starts shaken engine.client step)

include h advances staked

/-- No process is stopped more often than it was started that no session has the identifier of. -/
theorem Tallied.absent_of_stakes {id : String}
    (absent : ∀ n session, step.1.sessions.session? n = some session → session.id ≠ id) :
    step.1.stopped.count id ≤ (startedBy step.1.layer.2).count id := by
  rw [staked.started, List.count_append]
  have habsent : ∀ n session, engine.client.sessions.session? n = some session → session.id ≠ id := by
    intro n session found
    obtain ⟨later, hlater, hadvances⟩ := advances n session found
    exact hadvances.id ▸ absent n later hlater
  have hpaid := staked.paid _ id (sole_of_absent habsent).lone fun _ => rfl
  have hbefore := h.absent id habsent
  rw [stake_length] at hpaid
  omega

include lawful nodup own

/-- A session whose end has not begun: its process was stopped once at most, and not at all while its handshake lasts or
it is ready. -/
theorem Tallied.live_of_stakes (unready : engine.LeavesReady) (found : step.1.sessions.session? n = some session)
    (live : session.stage.isEnding = false) :
    step.1.stopped.count session.id ≤ 1 ∧
      (session.stage = .ready ∨ ((engine.withQueue queue).afterAttempt number attempt step).Shakes n →
        step.1.stopped.count session.id = 0) := by
  have hlive : ∀ earlier, engine.client.sessions.session? n = some earlier → earlier.stage.isEnding = false := by
    intro earlier hearlier
    obtain ⟨later, hlater, hadvances⟩ := advances n earlier hearlier
    cases found.symm.trans hlater
    exact Bool.eq_false_iff.2 fun ending => Bool.false_ne_true (live.symm.trans (hadvances.isEnding ending))
  have hbound := h.staked_after staked nodup (fun n hs => .of_own (own n hs)) found hlive
  have hstage := stageAs?_of_found found
  refine ⟨by omega, ?_⟩
  rintro (ready | shakes)
  · rw [stake_of_ready (hstage.trans (congrArg some ready))] at hbound
    omega
  · rcases shakes_afterAttempt shakes with ⟨m, phase, hm, waits, hs⟩ | hs
    · have hunready := unready m phase n
      exact h.unstopped_elsewhere lawful staked nodup own hm waits hs
        (fun earlier => hunready earlier waits (AttemptPhase.session?_of_shakes hs)) found hlive
    · rw [hs, stake_of_live hstage live] at hbound
      omega

/-- What a stop of a session owes, it owed before; if its end had not begun, nothing is owed. -/
theorem Tallied.settles_of_stakes (found : step.1.sessions.session? n = some session) :
    ((engine.withQueue queue).afterAttempt number attempt step).Settles overlaps n session.id := by
  have hstopped := ((engine.withQueue queue).client_afterAttempt number attempt step).1
  by_cases hbegun : ∃ earlier, engine.client.sessions.session? n = some earlier ∧ earlier.stage.isEnding = true
  · obtain ⟨earlier, hearlier, hending⟩ := hbegun
    obtain ⟨later, hlater, hadvances⟩ := advances n earlier hearlier
    cases found.symm.trans hlater
    have hcharged := h.charged_before staked nodup found hearlier hadvances.id.symm
    have hstake := stake_of_ending (stageAs?_of_found hearlier) hending (shaken n)
    have hbefore := h.ending n earlier hearlier hending
    rw [← hadvances.id] at hstake hbefore
    refine hbefore.lasts ?_ fun task phase => stops_afterAttempt
    rw [hstopped]
    omega
  · have hlive : ∀ earlier, engine.client.sessions.session? n = some earlier → earlier.stage.isEnding = false :=
      fun earlier hearlier => Bool.eq_false_iff.2 fun hending => hbegun ⟨earlier, hearlier, hending⟩
    have hbound := h.staked_after staked nodup (fun n hs => .of_own (own n hs)) found hlive
    refine settles_of_once ?_ fun task phase hs => lawful.owes_nothing hlive (stops_afterAttempt hs)
    rw [hstopped]
    omega

/-- An attempt gets on, and calls for what was at stake. -/
theorem Tallied.stakes (unready : engine.LeavesReady) :
    ((engine.withQueue queue).afterAttempt number attempt step).Tallied overlaps := by
  obtain ⟨hstopped, hsessions, hlayer⟩ := (engine.withQueue queue).client_afterAttempt number attempt step
  constructor
  case founded =>
    intro n session found
    rw [hsessions] at found
    rw [hlayer, staked.started]
    rcases staked.founded n session found with ⟨-, hm⟩ | ⟨earlier, hearlier, hid⟩
    · exact List.mem_append_right _ hm
    · exact List.mem_append_left _ (hid ▸ h.founded n earlier hearlier)
  case distinct =>
    rw [hsessions]
    exact h.distinct_of_stakes staked nodup
  case absent =>
    intro id absent
    rw [hsessions] at absent
    rw [hstopped, hlayer]
    exact h.absent_of_stakes advances staked absent
  case live =>
    intro n session found live
    rw [hsessions] at found
    rw [hstopped]
    exact h.live_of_stakes lawful advances nodup own staked unready found live
  case ending =>
    intro n session found _
    rw [hsessions] at found
    exact h.settles_of_stakes lawful advances nodup own staked found

end Staking

end Attempts

/-! ### Events -/

/-- In an event the end of a session begins whose handshake has failed, and whose process was to be stopped for that. -/
def Overlaps (engine : Engine (σ × List Exchange)) (setup : Setup σ) (event : Event σ) (id : String) : Prop :=
  ∃ n session later, engine.client.sessions.session? n = some session ∧ session.id = id ∧
    session.stage = .initializing ∧ engine.client.stopped.count id = 1 ∧ engine.BringsEnd event id ∧
    (engine.goes setup event).client.sessions.session? n = some later ∧ later.stage.isEnding = true

theorem Tallied.weaken (h : engine.Tallied overlaps) {overlaps' : String → Prop}
    (hw : ∀ id, overlaps id → overlaps' id) : engine.Tallied overlaps' where
  founded := h.founded
  distinct := h.distinct
  absent := h.absent
  live := h.live
  ending n session found ending := by
    obtain ⟨more, hmore, hcounts⟩ := h.ending n session found ending
    exact ⟨more, hmore.imp_right (And.imp_right (hw _)), hcounts⟩

theorem Lawful.record_goes (h : Lawful opens called answers letters engine) (setup : Setup σ) (event : Event σ) :
    engine.client.layer.2 <+: (engine.goes setup event).client.layer.2 := by
  have covers : engine.Covers event letters .anybody :=
    { answers := fun _ _ => trivial
      writes := fun _ _ _ _ _ => trivial
      begins := fun _ _ _ => .of_all fun _ => trivial
      goesOn := fun _ _ _ => ⟨.of_all fun _ => trivial, fun _ _ => trivial⟩
      begun := fun _ _ => trivial
      opens := fun _ _ => trivial
      tries := fun _ _ _ _ _ _ => trivial
      aborts := fun _ _ => trivial }
  obtain ⟨letters', conducts⟩ := conducts_goes h covers setup
  exact (conducts.deeds.since_coherent h.coherent).1.record

/-- Where a task brings the end of a session whose process was stopped already, its handshake had failed. -/
theorem Tallied.overlaps_of_ending (h : engine.Tallied overlaps) (lawful : Lawful opens called answers letters engine)
    {setup : Setup σ} (idle : ∀ n, ¬ engine.Tries event n) {n : Nat} {session last : Session}
    (found : engine.client.sessions.session? n = some session) (live : session.stage.isEnding = false)
    (stopped : engine.client.stopped.count session.id = 1)
    (found' : (engine.goes setup event).client.sessions.session? n = some last) (ending : last.stage.isEnding = true) :
    engine.Overlaps setup event session.id := by
  refine ⟨n, session, last, found, rfl, ?_, stopped, ?_, found', ending⟩
  · have unready : session.stage ≠ .ready := fun ready => by
      rw [(h.live n session found live).2 (Or.inl ready)] at stopped
      cases stopped
    have begun : session.stage ≠ .starting := lawful.coherent.begun n session found
    cases hs : session.stage with
    | initializing => rfl
    | starting => exact absurd hs begun
    | ready => exact absurd hs unready
    | shuttingDown | stopped => rw [hs] at live; cases live
  · by_contra unended
    obtain ⟨later, hlater, -, hstage⟩ :=
      lawful.stage_goes found live (fun m _ tries _ => absurd tries (idle m)) unended setup
    cases found'.symm.trans hlater
    rw [hstage, live] at ending
    cases ending

/-- **The tally after an event**, where identifiers are given to servers once only. -/
theorem Tallied.goes (h : engine.Tallied overlaps) (setup : Setup σ)
    (lawful : Lawful setup.opens called answers letters engine) (unready : engine.LeavesReady) (event : Event σ)
    (nodup : (startedBy (engine.goes setup event).client.layer.2).Nodup) :
    (engine.goes setup event).Tallied fun id => overlaps id ∨ engine.Overlaps setup event id := by
  have hweak : engine.Tallied fun id => overlaps id ∨ engine.Overlaps setup event id := h.weaken fun _ => Or.inl
  have hrecord := lawful.record_goes setup event
  have hadvances := (lawful.goes setup event).1.advances
  have hcounts := lawful.counts_goes setup event unready
  generalize hgoes : engine.goes setup event = later at *
  cases hcounts with
  | idle stopped sessions attempts stops => exact hweak.idle lawful hrecord stopped sessions attempts stops
  | @pays number queue step old idle sessions own pays =>
    obtain ⟨-, hsessions, hlayer⟩ := (engine.withQueue queue).client_afterTask number step
    refine hweak.pays lawful sessions own pays (hlayer ▸ hrecord)
      fun n session last found live stopped found' ending => ?_
    have hlast : (engine.goes setup event).client.sessions.session? n = some last := by rw [hgoes, hsessions, found']
    exact Or.inr (h.overlaps_of_ending lawful idle found live stopped hlast ending)
  | @stakes number queue attempt step starts shaken own stakes =>
    obtain ⟨-, hsessions, hlayer⟩ := (engine.withQueue queue).client_afterAttempt number attempt step
    exact hweak.stakes lawful (hsessions ▸ hadvances) (hlayer ▸ nodup) own stakes unready

end Tallying

section Courses

variable {setup : Setup σ} {layer : σ} {settings : Settings} {events : List (Event σ)}

/-- Where every session has an identifier of its own, a server is asked to shut down once at most. -/
theorem Tells.asked_once {engine : Engine (σ × List Exchange)} {letters : List Letter}
    (h : Tells setup events engine letters) (distinct : engine.client.sessions.Distinct) (id : String) :
    letters.countP (Letter.isShutdown id) ≤ 1 := by
  refine countP_le_one fun before letter after heq hp other hm hother => ?_
  obtain ⟨number, request, rfl⟩ := Letter.isShutdown_iff.1 hp
  obtain ⟨number', request', rfl⟩ := Letter.isShutdown_iff.1 hother
  obtain ⟨session, found, hid⟩ := h.owned id number _ (heq ▸ List.mem_append_right _ List.mem_cons_self)
  obtain ⟨session', found', hid'⟩ := h.owned id number' _ (heq ▸ List.mem_append_left _ hm)
  cases distinct number' number session' session found' found (hid'.trans hid.symm)
  have hsplit : letters.filterMap (Letter.dispatch? number) = before.filterMap (Letter.dispatch? number) ++
      .shutdown request :: after.filterMap (Letter.dispatch? number) := by
    rw [heq, List.filterMap_append, List.filterMap_cons_some]
    exact Letter.dispatch?_eq_some_iff.2 ⟨id, rfl⟩
  refine h.inOrder number _ _ _ hsplit ⟨request', List.mem_filterMap.2 ⟨_, hm, ?_⟩⟩
  exact Letter.dispatch?_eq_some_iff.2 ⟨id, rfl⟩

/-- In the course of events the end of a session began whose handshake had failed, and whose process was to be stopped
for that. -/
def Overlapped (setup : Setup σ) (first : Engine (σ × List Exchange)) (events : List (Event σ)) (id : String) : Prop :=
  ∃ before event after, events = before ++ event :: after ∧ (course setup first before).Overlaps setup event id

theorem Overlapped.concat {first : Engine (σ × List Exchange)} {event : Event σ} {id : String}
    (h : Overlapped setup first events id ∨ (course setup first events).Overlaps setup event id) :
    Overlapped setup first (events ++ [event]) id := by
  rcases h with ⟨before, other, after, rfl, overlaps⟩ | overlaps
  · exact ⟨before, other, after ++ [event], by simp, overlaps⟩
  · exact ⟨events, event, [], rfl, overlaps⟩

theorem leavesReady_course (setup : Setup σ) (layer : σ) (settings : Settings) (events : List (Event σ)) :
    (course setup (fresh layer settings) events).LeavesReady :=
  fun _ _ _ _ waits hs found ready => session?_ne_of_ready found ready waits hs

/-- **The tally in the course of events**, where identifiers are given to servers once only. -/
theorem tallied_course (anew : (startedBy (course setup (fresh layer settings) events).client.layer.2).Nodup) :
    (course setup (fresh layer settings) events).Tallied (Overlapped setup (fresh layer settings) events) := by
  induction events using List.reverseRecOn with
  | nil => exact tallied_fresh layer settings
  | append_singleton events event ih =>
    obtain ⟨letters, lawful⟩ := lawful_course setup layer settings events
    rw [course_concat] at anew ⊢
    have hrecord := (lawful.record_goes setup event).filterMap Exchange.started?
    have hnodup : (startedBy (course setup (fresh layer settings) events).client.layer.2).Nodup :=
      hrecord.sublist.nodup anew
    exact ((ih hnodup).goes setup lawful (leavesReady_course setup layer settings events) event anew).weaken
      fun _ => Overlapped.concat

/-- **Whatever is called, and in whatever order, the server of a session is asked to shut down at most once, and its
process is stopped at most once** but where a session ends whose handshake has failed, while it is waited for that the
process stops: then it is stopped twice. That is for every process layer which gives its identifiers to servers once
only. -/
theorem processes_are_stopped_once (setup : Setup σ) (layer : σ) (settings : Settings) (events : List (Event σ))
    (anew : (startedBy (course setup (fresh layer settings) events).client.layer.2).Nodup) :
    let engine := course setup (fresh layer settings) events
    (∃ letters, Tells setup events engine letters ∧ ∀ id, letters.countP (Letter.isShutdown id) ≤ 1) ∧
      ∀ id, engine.client.stopped.count id ≤ 1 ∨
        engine.client.stopped.count id = 2 ∧ Overlapped setup (fresh layer settings) events id := by
  intro engine
  have hall : engine.Tallied (Overlapped setup (fresh layer settings) events) := tallied_course anew
  obtain ⟨letters, lawful⟩ := lawful_course setup layer settings events
  refine ⟨⟨letters, lawful.tells, fun id => lawful.tells.asked_once hall.distinct id⟩, fun id => ?_⟩
  by_cases hthere : ∃ n session, engine.client.sessions.session? n = some session ∧ session.id = id
  · obtain ⟨n, session, found, rfl⟩ := hthere
    cases hending : session.stage.isEnding with
    | false => exact Or.inl (hall.live n session found hending).1
    | true =>
      obtain ⟨more, rfl | ⟨rfl, overlapped⟩, hcount, -⟩ := hall.ending n session found hending
      · exact Or.inl hcount
      · rcases Nat.lt_or_eq_of_le hcount with hlt | heq
        · exact Or.inl (Nat.le_of_lt_succ hlt)
        · exact Or.inr ⟨heq, overlapped⟩
  · have habsent := hall.absent id fun n session found hid => hthere ⟨n, session, found, hid⟩
    exact Or.inl (Nat.le_trans habsent (List.nodup_iff_count_le_one.1 anew id))

end Courses

/-! ## A process that is stopped twice -/

/-- A session is started, and its server answers the request that opens the handshake with an error. While it is waited
for that the process stops, somebody stops the session, and its server is asked to shut down. -/
def hounded : List (Event Unit) :=
  [.call (.start "python" "/w"), .turn, .turn,
    .hear ⟨"s", "\x7b\"id\": 1, \"error\": \x7b\"code\": -32603, \"message\": \"no\"\x7d\x7d"⟩, .turn,
    .call (.stop "s"), .turn, .hear ⟨"s", "\x7b\"id\": 2, \"result\": null\x7d"⟩, .turn]

/-- One server was started, and the process layer is called twice to stop it. -/
theorem process_is_stopped_twice :
    let client := (course lingering (fresh () Settings.standard) hounded).client
    startedBy client.layer.2 = ["s"] ∧ client.stopped = ["s", "s"] := by
  refine ⟨?_, ?_⟩ <;> decide +kernel

end Engine

end LanguageSessions
