import LanguageSessions.Proofs.Client.Stop

/-!
# What a step of an attempt does

An attempt for a key begins where no session of the key is live, and each step of it, from the first one to the last
one, leaves other keys alone (`Attempts`). While it waits before its session is registered there is still no live
session of the key, and behind that there is none but the session of the attempt, which is initializing
(`AttemptPhase.Fits`). At its end either that session is ready or there is none again (`EndsFit`).

The session whose handshake failed would be left behind if the call that stops its process were itself cancelled;
`Layer.StopsUncancelled` says that the process layer does not do that.
-/

namespace LanguageSessions

open SessionRegistry

/-- No call to stop a process ends as if its caller had been cancelled, which would cancel the attempt that makes it. -/
def Layer.StopsUncancelled {σ : Type} (layer : Layer σ) : Prop :=
  ∀ state ticket session, (layer.call state ticket (.stop session)).reply ≠ .raises .cancelled ∧
    (layer.resume state ticket (.stop session)).reply ≠ .raises .cancelled

/-- What is registered of a key while an attempt for it waits in a phase. -/
def AttemptPhase.Fits (key : String × String) (registry : SessionRegistry) : AttemptPhase → Prop
  | .checking _ | .inspecting _ | .starting _ | .aborting .. => registry.Idle key
  | .shaking number _ | .discarding _ number _ => registry.Only key number

/-- What is registered of a key when an attempt for it has got so far. -/
def EndsFit (key : String × String) (registry : SessionRegistry) : Progress AttemptPhase String → Prop
  | .waits phase => phase.Fits key registry
  | .ends (.error _) => registry.Idle key
  | .ends (.ok _) => registry.Settled key

namespace Client

variable {σ : Type}

/-- A step of an attempt for a key leaves other attempts and other keys alone, and what it leaves of its own fits. -/
structure Attempts (key : String × String) (before : Client σ) (step : Client σ × Progress AttemptPhase String) :
    Prop where
  quiet : Quiet before step.1
  spares : Spares key before.sessions step.1.sessions
  fits : EndsFit key step.1.sessions step.2

section Attempts

variable {key : String × String} {before client : Client σ} {progress : Progress AttemptPhase String}

theorem Calm.attempts (h : Calm before client) (hf : EndsFit key client.sessions progress) :
    Attempts key before (client, progress) := ⟨h.toQuiet, h.sessions.spares key, hf⟩

theorem Attempts.after {step : Client σ × Progress AttemptPhase String} (hc : Calm before client)
    (h : Attempts key client step) : Attempts key before step :=
  ⟨hc.toQuiet.trans h.quiet, (hc.sessions.spares key).trans h.spares, h.fits⟩

end Attempts

/-! ## The handshake -/

section Handshakes

variable {before : Client σ} {setup : Setup σ}

theorem proceeds_afterConfiguring {step : Client σ × Progress NoticePhase Unit}
    (h : Proceeds NoticePhase.signal before step) :
    Proceeds HandshakePhase.signal before (step.1.afterConfiguring step.2) := h.inPhase fun _ => rfl

theorem proceeds_configure (client : Client σ) (session : Session) :
    Proceeds HandshakePhase.signal client (client.configure setup session) := by
  unfold configure
  split
  · exact .ends (.refl client) _
  · split
    · exact .ends (.refl client) _
    · dsimp only
      exact proceeds_afterConfiguring (client.proceeds_notifyIfPrintable setup _ _ _)

theorem proceeds_afterTelling (session : Session) {step : Client σ × Progress NoticePhase Unit}
    (h : Proceeds NoticePhase.signal before step) :
    Proceeds HandshakePhase.signal before (step.1.afterTelling setup session step.2) := by
  obtain ⟨client, told⟩ := step
  dsimp only [afterTelling]
  split
  · exact h.waits rfl
  · exact .ends h.calm _
  · exact (client.proceeds_configure session).after h.calm

theorem proceeds_afterAsking (number : Nat) (session : Session) {step : Client σ × Progress RequestPhase Json}
    (h : Proceeds RequestPhase.signal before step) :
    Proceeds HandshakePhase.signal before (step.1.afterAsking setup number session step.2) := by
  obtain ⟨client, asked⟩ := step
  dsimp only [afterAsking]
  split
  · exact h.waits rfl
  · exact .ends h.calm _
  · refine proceeds_afterTelling session ((proceeds_notify _ setup _ _ _).after (h.calm.trans ?_))
    split
    · exact client.calm_changeSession number fun _ => ⟨rfl, rfl, Or.inl rfl⟩
    · exact .refl client

theorem proceeds_shakeHands (setup : Setup σ) (client : Client σ) (number : Nat) (session : Session) :
    Proceeds HandshakePhase.signal client (client.shakeHands setup number session) := by
  unfold shakeHands
  dsimp only
  exact proceeds_afterAsking number session (client.proceeds_requestIfPrintable setup _ _ _ _)

theorem proceeds_resumeHandshake (client : Client σ) (cancelled : Bool) (number : Nat) (session : Session)
    (phase : HandshakePhase) :
    Proceeds HandshakePhase.signal client (client.resumeHandshake setup cancelled number session phase) := by
  cases phase with
  | asking request => exact proceeds_afterAsking number session (client.proceeds_resumeRequest setup cancelled request)
  | telling notice => exact proceeds_afterTelling session (client.proceeds_resumeNotice setup cancelled notice)
  | configuring notice => exact proceeds_afterConfiguring (client.proceeds_resumeNotice setup cancelled notice)

end Handshakes

/-! ## Taking the session of a failed handshake apart -/

section Discarding

variable {setup : Setup σ}

theorem afterCall_ne_cancelled {α : Type} (client : Client σ) {step : LayerStep σ α}
    (h : step.reply ≠ .raises .cancelled) : (client.afterCall step).2 ≠ .ends (.error .cancelled) := by
  unfold afterCall
  cases hr : step.reply with
  | waits => nofun
  | returns answer => nofun
  | raises fault =>
    intro he
    cases he
    exact h hr

/-- A session that was taken apart is stopped. -/
theorem afterStopCall_ends (client : Client σ) (number : Nat) (session : Session) {stopped : Progress Nat Unit}
    (hne : stopped ≠ .ends (.error .cancelled)) {outcome : Except Fault Unit}
    (ho : (client.afterStopCall number session stopped).2 = .ends outcome) :
    outcome = .ok () ∧ ∀ later, (client.afterStopCall number session stopped).1.sessions.session? number = some later →
      later.stage = .stopped := by
  unfold afterStopCall at ho ⊢
  split at ho
  · cases ho
  · exact absurd rfl hne
  · cases ho
    refine ⟨rfl, fun later hl => ?_⟩
    dsimp only [setStage, changeSession] at hl
    rw [session?_modify, if_pos rfl] at hl
    obtain ⟨earlier, -, rfl⟩ := Option.map_eq_some_iff.1 hl
    rfl

theorem attempts_afterDiscard {key : String × String} {before : Client σ} {number : Nat} (session : Session)
    (fault : Fault) (honly : before.sessions.Only key number) {step : Client σ × Progress Nat Unit}
    (h : Proceeds Signal.ticket before step)
    (hends : ∀ outcome, step.2 = .ends outcome → outcome = .ok () ∧
      ∀ later, step.1.sessions.session? number = some later → later.stage = .stopped) :
    Attempts key before (step.1.afterDiscard number session fault step.2) := by
  obtain ⟨client, discarded⟩ := step
  have hlater := honly.of_wanes h.calm.sessions
  dsimp only [afterDiscard]
  split
  · exact h.calm.attempts hlater
  · cases (hends _ rfl).1
  · refine Calm.attempts (h.calm.trans (client.calm_setStatus _ _ _)) ?_
    refine hlater.idle fun later hl => ?_
    rw [(hends _ rfl).2 later hl]
    nofun

theorem attempts_discard {key : String × String} (client : Client σ) {number : Nat} (session : Session) (fault : Fault)
    (reason : String) (hlayer : setup.layer.StopsUncancelled) (honly : client.sessions.Only key number) :
    Attempts key client ((client.discard setup number session reason).1.afterDiscard number session fault
      (client.discard setup number session reason).2) := by
  refine attempts_afterDiscard session fault honly (client.proceeds_discard setup number session reason) ?_
  intro outcome ho
  exact afterStopCall_ends _ number session (afterCall_ne_cancelled _ (hlayer _ _ _).1) ho

theorem attempts_handshakeFailed {key : String × String} {client : Client σ} {number : Nat} {session : Session}
    (hlayer : setup.layer.StopsUncancelled) (honly : client.sessions.Only key number)
    (hs : client.sessions.session? number = some session) (fault : Fault) :
    Attempts key client (client.handshakeFailed setup number session fault) := by
  unfold handshakeFailed
  split
  · next hending =>
    refine Calm.attempts (client.calm_log _) (honly.idle fun later hl => ?_)
    cases hs.symm.trans hl
    intro hi
    rw [hi] at hending
    cases hending
  · exact .after (client.calm_log _) (attempts_discard _ session fault _ hlayer honly)

end Discarding

/-! ## The handshake ends -/

section Shaking

variable {key : String × String} {setup : Setup σ}

theorem attempts_handshakeSucceeded {client : Client σ} {number : Nat} {session : Session}
    (honly : client.sessions.Only key number) (hs : client.sessions.session? number = some session) :
    Attempts key client (client.handshakeSucceeded number session) := by
  unfold handshakeSucceeded
  split
  · exact ⟨quiet_of_eq rfl rfl (.refl _) rfl, honly.spares, honly.settled⟩
  · next hstage =>
    refine Calm.attempts (.refl client) (honly.idle fun later hl => ?_)
    cases hs.symm.trans hl
    exact hstage

theorem attempts_afterHandshake {before : Client σ} (hlayer : setup.layer.StopsUncancelled) {number : Nat}
    (honly : before.sessions.Only key number) {step : Client σ × Progress HandshakePhase Unit}
    (h : Proceeds HandshakePhase.signal before step) :
    Attempts key before (step.1.afterHandshake setup number step.2) := by
  obtain ⟨client, shaken⟩ := step
  have hlater := honly.of_wanes h.calm.sessions
  obtain ⟨session, hs, -⟩ := hlater.session
  cases shaken with
  | waits handshake => exact h.calm.attempts hlater
  | ends outcome =>
    dsimp only [afterHandshake]
    rw [hs]
    cases outcome with
    | error fault => exact .after h.calm (attempts_handshakeFailed hlayer hlater hs fault)
    | ok _ => exact .after h.calm (attempts_handshakeSucceeded hlater hs)

end Shaking

/-! ## From the beginning to the handshake -/

section Beginning

variable {language root : String} {before : Client σ} {setup : Setup σ}

theorem calm_status (client : Client σ) (status : StatusBoard) : Calm client { client with status } :=
  calm_of_eq rfl rfl rfl rfl rfl

theorem sessions_enrol (client : Client σ) (session : Session) :
    (client.enrol session).sessions = client.sessions.add session := by
  unfold enrol
  dsimp only
  split <;> rfl

theorem quiet_enrol (client : Client σ) (session : Session) : Quiet client (client.enrol session) := by
  unfold enrol
  dsimp only
  split <;> exact quiet_of_eq rfl rfl (.refl _) rfl

/-- The session of a server that was started is the only one of its key. -/
theorem enrol_spec {client : Client σ} (session : Session) (hn : client.sessions.Named)
    (hidle : client.sessions.Idle session.key) (hs : session.stage = .initializing) :
    Quiet client (client.enrol session) ∧ Spares session.key client.sessions (client.enrol session).sessions ∧
      (client.enrol session).sessions.Only session.key client.sessions.sessions.length := by
  rw [sessions_enrol]
  exact ⟨client.quiet_enrol session, spares_add hn session, hidle.add hs⟩

theorem attempts_afterAbort (session : String) (hidle : before.sessions.Idle (language, root))
    {step : Client σ × Progress Nat Unit} (h : Proceeds Signal.ticket before step) :
    Attempts (language, root) before (step.1.afterAbort language session step.2) := by
  obtain ⟨client, stopped⟩ := step
  have hlater := hidle.of_wanes h.calm.sessions
  dsimp only [afterAbort]
  split <;> exact h.calm.attempts hlater

theorem attempts_afterServerStart (hlayer : setup.layer.StopsUncancelled) (hn : before.sessions.Named)
    (hidle : before.sessions.Idle (language, root)) {step : Client σ × Progress Nat StartResult}
    (h : Proceeds Signal.ticket before step) :
    Attempts (language, root) before (step.1.afterServerStart setup language root step.2) := by
  obtain ⟨client, started⟩ := step
  have hlater := hidle.of_wanes h.calm.sessions
  dsimp only [afterServerStart]
  split
  · exact h.calm.attempts hlater
  · exact h.calm.attempts hlater
  · next result =>
    split
    · exact h.calm.attempts hlater
    · split
      · exact .after h.calm (attempts_afterAbort _ hlater (client.proceeds_ask setup _))
      · have henrol := enrol_spec (Session.begin result.session language root) (h.calm.sessions.named hn) hlater rfl
        have hshake := attempts_afterHandshake hlayer henrol.2.2 (proceeds_shakeHands setup
          (client.enrol (Session.begin result.session language root)) client.sessions.sessions.length
          (Session.begin result.session language root))
        exact .after h.calm ⟨henrol.1.trans hshake.quiet, henrol.2.1.trans hshake.spares, hshake.fits⟩

theorem attempts_afterInspection (hidle : before.sessions.Idle (language, root))
    {step : Client σ × Progress Nat Availability} (h : Proceeds Signal.ticket before step) :
    Attempts (language, root) before (step.1.afterInspection setup language step.2) := by
  obtain ⟨client, inspected⟩ := step
  have hlater := hidle.of_wanes h.calm.sessions
  dsimp only [afterInspection]
  split
  · exact h.calm.attempts hlater
  · exact h.calm.attempts hlater
  · split
    · exact (h.calm.trans (client.calm_status _)).attempts hlater
    · exact h.calm.attempts hlater

theorem attempts_afterCheck (hlayer : setup.layer.StopsUncancelled) (hn : before.sessions.Named)
    (hidle : before.sessions.Idle (language, root)) {step : Client σ × Progress Nat Bool}
    (h : Proceeds Signal.ticket before step) :
    Attempts (language, root) before (step.1.afterCheck setup language root step.2) := by
  obtain ⟨client, checked⟩ := step
  have hlater := hidle.of_wanes h.calm.sessions
  dsimp only [afterCheck]
  split
  · exact h.calm.attempts hlater
  · exact h.calm.attempts hlater
  · refine .after h.calm ?_
    exact attempts_afterServerStart hlayer (h.calm.sessions.named hn) hlater (client.proceeds_ask setup _)
  · exact .after h.calm (attempts_afterInspection hlater (client.proceeds_ask setup _))

/-- **The first step of an attempt**, where no session of its key is live. -/
theorem attempts_attempt {client : Client σ} (hlayer : setup.layer.StopsUncancelled) (hn : client.sessions.Named)
    (hidle : client.sessions.Idle (language, root)) :
    Attempts (language, root) client (client.attempt setup language root) := by
  unfold attempt
  dsimp only
  exact attempts_afterCheck hlayer hn hidle ((proceeds_ask _ setup _).after (client.calm_log _))

/-- **A further step of an attempt**, where what is registered of its key fits its phase. -/
theorem attempts_resumeAttempt {client : Client σ} (hlayer : setup.layer.StopsUncancelled) (hn : client.sessions.Named)
    {phase : AttemptPhase} (hfits : phase.Fits (language, root) client.sessions) :
    Attempts (language, root) client (client.resumeAttempt setup false language root phase) := by
  cases phase with
  | checking ticket => exact attempts_afterCheck hlayer hn hfits (client.proceeds_goOn setup false _)
  | inspecting ticket => exact attempts_afterInspection hfits (client.proceeds_goOn setup false _)
  | starting ticket => exact attempts_afterServerStart hlayer hn hfits (client.proceeds_goOn setup false _)
  | aborting ticket session => exact attempts_afterAbort session hfits (client.proceeds_goOn setup false _)
  | shaking number handshake =>
    have honly : client.sessions.Only (language, root) number := hfits
    obtain ⟨session, hs, -⟩ := honly.session
    dsimp only [resumeAttempt]
    rw [hs]
    exact attempts_afterHandshake hlayer honly (client.proceeds_resumeHandshake false number session handshake)
  | discarding ticket number fault =>
    have honly : client.sessions.Only (language, root) number := hfits
    obtain ⟨session, hs, -⟩ := honly.session
    dsimp only [resumeAttempt]
    rw [hs]
    refine attempts_afterDiscard session fault honly (client.proceeds_resumeDiscard setup false number session) ?_
    intro outcome ho
    exact afterStopCall_ends _ number session (afterCall_ne_cancelled _ (hlayer _ _ _).2) ho

end Beginning

end Client

end LanguageSessions
