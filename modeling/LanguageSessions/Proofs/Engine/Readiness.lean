import LanguageSessions.Proofs.Client.Undisturbed
import LanguageSessions.Proofs.Engine.Conduct
import LanguageSessions.Proofs.Engine.Routes
import LanguageSessions.Proofs.Engine.Starts

/-!
# Sessions that are ready

A session that is ready stays so until somebody acts who is to end it: a stop of it, a stop of all sessions, or the end
of a scope (`BringsEnd`, `stage_goes`, `ready_course`). Nobody else is in charge of it, since no attempt is at work on a
session that is ready. So a start gives back a session that was ready for its language and root, and that is ready still
if nobody was to end it meanwhile (`starts_give_back_what_was_ready`). Between the end of an attempt and the turn in which
a call that waited for it gives back its session others have their turns, and one of them may be a stop.
-/

namespace LanguageSessions

open Client Account

/-- Somebody who may do anything, but is not in charge of one session. -/
def Role.sparing (number : Nat) : Role where
  greets := (· ≠ number)
  opens _ _ := True
  ends := (· ≠ number)
  aborts _ := True
  answers _ _ := True
  writes _ := True

/-- The session that a task has given back, if it has finished with one. -/
def Task.given? : Task → Option String
  | ⟨.finished (.ok (.session id)), false⟩ => id
  | _ => none

theorem Task.given?_eq_some_iff {task : Task} {id : String} :
    task.given? = some id ↔ task = ⟨.finished (.ok (.session (some id))), false⟩ := by
  constructor
  · intro given
    unfold given? at given
    split at given
    · rw [given]
    · cases given
  · rintro rfl
    rfl

namespace Engine

variable {σ : Type}

/-- In an event somebody acts who is to end the session with an identifier. -/
def BringsEnd (engine : Engine (σ × List Exchange)) (event : Event σ) (id : String) : Prop :=
  ∃ task, (∃ operation, engine.Begins event task operation ∧ operation.Ends engine.client.sessions id) ∨
    ∃ activity, engine.GoesOn event task activity ∧ activity.Ends id

section Ready

variable {opens : String → Bool} {called : Operation → Prop} {answers : RequestId → Json → Prop}
  {engine : Engine (σ × List Exchange)} {letters : List Letter} {event : Event σ} {number : Nat} {session : Session}

/-- Nobody is in charge of a session whose end has not begun but who is to end it, and the attempt that is at work on it. -/
theorem Lawful.covers_sparing (h : Lawful opens called answers letters engine)
    (found : engine.client.sessions.session? number = some session) (live : session.stage.isEnding = false)
    (attempts : ∀ n phase, engine.Tries event n → engine.attempts.get? n = some phase → phase.session? ≠ some number)
    (unended : ¬ engine.BringsEnd event session.id) : engine.Covers event letters (.sparing number) where
  answers _ _ := trivial
  writes _ _ _ _ _ := trivial
  begins task operation begins :=
    .of_others found (fun hends => unended ⟨task, .inl ⟨operation, begins, hends⟩⟩) fun _ => id
  goesOn task activity goesOn := by
    refine ⟨.of_others found (fun hends => unended ⟨task, .inr ⟨activity, goesOn, hends⟩⟩) fun _ => id, ?_⟩
    rintro phase hphase rfl
    obtain ⟨cancelled, hwaits⟩ := goesOn.2.2
    obtain ⟨current, hcurrent, hending⟩ := (h.parting task phase ⟨_, activity, hwaits, rfl, hphase⟩).1
    cases found.symm.trans hcurrent
    exact Bool.false_ne_true (live.symm.trans hending)
  begun n hle := Nat.ne_of_gt (Nat.lt_of_lt_of_le (SessionRegistry.lt_length found) hle)
  opens _ _ := trivial
  tries n phase other tries hphase hother := by
    rintro rfl
    exact attempts n phase tries hphase hother
  aborts _ _ := trivial

/-- **A session whose end has not begun stays at its stage** in an event in which nobody acts who is to end it, nor the
attempt that is at work on it. -/
theorem Lawful.stage_goes (h : Lawful opens called answers letters engine)
    (found : engine.client.sessions.session? number = some session) (live : session.stage.isEnding = false)
    (attempts : ∀ n phase, engine.Tries event n → engine.attempts.get? n = some phase → phase.session? ≠ some number)
    (unended : ¬ engine.BringsEnd event session.id) (setup : Setup σ) :
    ∃ later, (engine.goes setup event).client.sessions.session? number = some later ∧ session.Advances later ∧
      later.stage = session.stage := by
  obtain ⟨letters', conducts⟩ := conducts_goes h (h.covers_sparing found live attempts unended) setup
  have hminds : ¬ (Role.sparing number).Minds number := fun hm => hm.elim (· rfl) (· rfl)
  exact conducts.deeds.stage found hminds

end Ready

section Courses

variable {setup : Setup σ} {layer : σ} {settings : Settings} {events : List (Event σ)} {number : Nat} {session : Session}

/-- No attempt is at work on a session that is ready. -/
theorem session?_ne_of_ready
    (found : (course setup (fresh layer settings) events).client.sessions.session? number = some session)
    (ready : session.stage = .ready) {n : Nat} {phase : AttemptPhase}
    (waits : (course setup (fresh layer settings) events).attempts.get? n = some phase) :
    phase.session? ≠ some number := by
  intro hs
  obtain ⟨attempt, -, current, hcurrent, -, unready⟩ := (keyed_course events).attempting n phase number waits hs
  cases found.symm.trans hcurrent
  exact unready ready

/-- Behind some events somebody acts in one of more events who is to end the session with an identifier. -/
def EndsMeanwhile (setup : Setup σ) (first : Engine (σ × List Exchange)) (events more : List (Event σ)) (id : String) :
    Prop :=
  ∃ middle event rest, more = middle ++ event :: rest ∧ (course setup first (events ++ middle)).BringsEnd event id

/-- **A session that is ready stays so until somebody acts who is to end it.** -/
theorem ready_course
    (found : (course setup (fresh layer settings) events).client.sessions.session? number = some session)
    (ready : session.stage = .ready) (more : List (Event σ)) :
    ∃ later, (course setup (fresh layer settings) (events ++ more)).client.sessions.session? number = some later ∧
      session.Advances later ∧
      (later.stage = .ready ∨ EndsMeanwhile setup (fresh layer settings) events more session.id) := by
  induction more using List.reverseRecOn with
  | nil => exact ⟨session, by rw [List.append_nil, found], .refl session, .inl ready⟩
  | append_singleton more event ih =>
    obtain ⟨later, hlater, advances, hstage⟩ := ih
    rw [← List.append_assoc]
    by_cases ends : EndsMeanwhile setup (fresh layer settings) events (more ++ [event]) session.id
    · obtain ⟨last, hlast, advances'⟩ :=
        (passes_course setup layer settings (events ++ more) [event]).advances number later hlater
      exact ⟨last, hlast, advances.trans advances', .inr ends⟩
    · have hready : later.stage = .ready := hstage.resolve_right fun ⟨middle, event', rest, heq, hends⟩ =>
        ends ⟨middle, event', rest ++ [event], by rw [heq]; simp, hends⟩
      have hunended : ¬ (course setup (fresh layer settings) (events ++ more)).BringsEnd event later.id :=
        fun hends => ends ⟨more, event, [], rfl, advances.id ▸ hends⟩
      obtain ⟨letters, lawful⟩ := lawful_course setup layer settings (events ++ more)
      obtain ⟨last, hlast, advances', hstage⟩ := lawful.stage_goes hlater (hready ▸ rfl)
        (fun n phase _ waits => session?_ne_of_ready hlater hready waits) hunended setup
      exact ⟨last, by rw [course_concat, hlast], advances.trans advances', .inl (hstage.trans hready)⟩

/-- **A start gives back a session that was ready** for its language and the normal form of its root. That session is
ready still, and registered under its identifier if all sessions have identifiers of their own, or somebody has acted
meanwhile who was to end it. -/
theorem starts_give_back_what_was_ready (setup : Setup σ) (layer : σ) (settings : Settings) (events : List (Event σ))
    (task : Nat) (language root id : String)
    (started : CalledFor setup (fresh layer settings) events task (.start language root))
    (gave : (course setup (fresh layer settings) events).GaveBack task id) :
    let key := (language, normalizeRoot setup.surroundings root)
    let sessions := (course setup (fresh layer settings) events).client.sessions
    ∃ before after number session later, events = before ++ after ∧
      (course setup (fresh layer settings) before).client.sessions.session? number = some session ∧
      session.id = id ∧ session.key = key ∧ session.stage = .ready ∧
      sessions.session? number = some later ∧ later.id = id ∧ later.key = key ∧
      (later.stage = .ready ∧ (sessions.Distinct → sessions.get? id = some later) ∨
        EndsMeanwhile setup (fresh layer settings) before after id) := by
  intro key sessions
  obtain ⟨state, cancelled, found, starting⟩ := started.starting
  cases found.symm.trans gave
  cases starting with
  | finished gives =>
    obtain ⟨before, after, rfl, number, session, hsession, rfl, hkey, ready⟩ := gives id rfl
    obtain ⟨later, hlater, advances, hstage⟩ := ready_course hsession ready after
    have hkey' : later.key = session.key := Prod.ext advances.language advances.root
    refine ⟨before, after, number, session, later, rfl, hsession, rfl, hkey, ready, hlater, advances.id,
      hkey'.trans hkey, hstage.imp_left fun hready => ⟨hready, fun distinct => ?_⟩⟩
    obtain ⟨letters, lawful⟩ := lawful_course setup layer settings (before ++ after)
    have hlisted := (lawful.shown distinct).registered number later hlater (by rw [hready]; nofun)
    rw [← advances.id]
    exact Option.bind_eq_some_iff.2 ⟨number, hlisted, hlater⟩

end Courses

/-! ## A session that is gone when it is given back -/

theorem gaveBack_iff {engine : Engine (σ × List Exchange)} {task : Nat} {id : String} :
    engine.GaveBack task id ↔ engine.tasks[task]?.bind Task.given? = some id := by
  unfold GaveBack
  constructor
  · intro gave
    rw [gave]
    rfl
  · intro given
    obtain ⟨found, hfound, hgiven⟩ := Option.bind_eq_some_iff.1 given
    rw [hfound, Task.given?_eq_some_iff.1 hgiven]

/-- A session is started. Its server answers, and it is to be stopped before anything has come of the answer. -/
def overtaken : List (Event Nat) :=
  [.call (.start "python" "/w"), .turn, .turn, .hear ⟨"s", "\x7b\"id\": 1, \"result\": \x7b\x7d\x7d"⟩,
    .call (.stop "s")] ++ List.replicate 6 .turn

/-- The attempt ends with a session that is ready. The turn in which its end begins comes before the one in which the
start gives it back, and it is gone by then. -/
theorem start_gives_back_a_session_that_is_gone :
    let engine := course breaking (fresh 0 Settings.standard) overtaken
    engine.GaveBack 0 "s" ∧ engine.client.sessions.get? "s" = none ∧
      engine.client.sessions.sessions.map (·.stage) = [.stopped] := by
  have hgiven : (course breaking (fresh 0 Settings.standard) overtaken).tasks[0]?.bind Task.given? = some "s" := by
    decide +kernel
  have hgone : ((course breaking (fresh 0 Settings.standard) overtaken).client.sessions.get? "s").isNone = true := by
    decide +kernel
  exact ⟨gaveBack_iff.2 hgiven, Option.isNone_iff_eq_none.1 hgone, by decide +kernel⟩

end Engine

end LanguageSessions
