import LanguageSessions.Client.Stop
import LanguageSessions.Proofs.Client.Calm

/-!
# Stopping is calm

Taking a session apart, the stop of one session or of all, and the closing of a client leave the attempts alone, and
each step of theirs that waits for a ticket waits for a fresh one.
-/

namespace LanguageSessions.Client

variable {σ : Type} {before : Client σ}

/-! ## Taking a session apart -/

section Discarding

variable (client : Client σ) (setup : Setup σ)

/-- What leads to a session is dropped. -/
theorem calm_drop (number : Nat) (id : String) :
    Calm client ({ client with
      routes := client.routes.unregisterSession id
      sessions := client.sessions.remove id }.setStage number .stopped) := by
  refine Calm.trans ?_ (calm_setStage _ number rfl)
  exact calm_of_wanes (client.sessions.wanes_remove id) rfl rfl rfl rfl

theorem proceeds_afterStopCall (number : Nat) (session : Session) {step : Client σ × Progress Nat Unit}
    (h : Proceeds Signal.ticket before step) :
    Proceeds Signal.ticket before (step.1.afterStopCall number session step.2) := by
  obtain ⟨client, stopped⟩ := step
  dsimp only [afterStopCall]
  split
  · exact h.waits rfl
  · exact .ends h.calm _
  · split
    · exact .ends (h.calm.trans (client.calm_drop number session.id)) _
    · exact .ends ((h.calm.trans (client.calm_log _)).trans (calm_drop _ number session.id)) _

theorem proceeds_discard (number : Nat) (session : Session) (reason : String) :
    Proceeds Signal.ticket client (client.discard setup number session reason) := by
  unfold discard
  dsimp only
  exact proceeds_afterStopCall number session ((proceeds_ask _ setup _).after (client.calm_setPending _))

theorem proceeds_resumeDiscard (cancelled : Bool) (number : Nat) (session : Session) :
    Proceeds Signal.ticket client (client.resumeDiscard setup cancelled number session) := by
  unfold resumeDiscard
  dsimp only
  exact proceeds_afterStopCall number session (client.proceeds_goOn setup cancelled _)

end Discarding

/-! ## One session -/

section Stopping

variable {setup : Setup σ}

theorem proceeds_afterStopDiscard (number : Nat) (session : Session) {step : Client σ × Progress Nat Unit}
    (h : Proceeds Signal.ticket before step) :
    Proceeds StopPhase.signal before (step.1.afterStopDiscard number session step.2) := by
  obtain ⟨client, stopped⟩ := step
  dsimp only [afterStopDiscard]
  split
  · exact h.waits rfl
  · exact .ends h.calm _
  · exact .ends ((h.calm.trans (client.calm_setStatus _ _ _)).trans (calm_log _ _)) _

theorem proceeds_afterGoodbye (client : Client σ) (number : Nat) (session : Session) (outcome : Except Fault Unit) :
    Proceeds StopPhase.signal client (client.afterGoodbye setup number session outcome) := by
  unfold afterGoodbye
  split
  · exact .ends (.refl client) _
  · dsimp only
    split
    · exact proceeds_afterStopDiscard number session (client.proceeds_discard setup number session _)
    · exact proceeds_afterStopDiscard number session ((proceeds_discard _ setup number session _).after
        (client.calm_log _))

theorem proceeds_afterExit (number : Nat) (session : Session) {step : Client σ × Progress NoticePhase Unit}
    (h : Proceeds NoticePhase.signal before step) :
    Proceeds StopPhase.signal before (step.1.afterExit setup number session step.2) := by
  obtain ⟨client, told⟩ := step
  dsimp only [afterExit]
  split
  · exact h.waits rfl
  · exact (proceeds_afterGoodbye client number session _).after h.calm

theorem proceeds_afterShutdown (number : Nat) (session : Session) {step : Client σ × Progress RequestPhase Json}
    (h : Proceeds RequestPhase.signal before step) :
    Proceeds StopPhase.signal before (step.1.afterShutdown setup number session step.2) := by
  obtain ⟨client, asked⟩ := step
  dsimp only [afterShutdown]
  split
  · exact h.waits rfl
  · exact (proceeds_afterGoodbye client number session _).after h.calm
  · exact proceeds_afterExit number session ((client.proceeds_notify setup _ _ _).after h.calm)

theorem proceeds_stop (client : Client σ) (setup : Setup σ) (id : String) :
    Proceeds StopPhase.signal client (client.stop setup id) := by
  unfold stop
  split
  · next number session _ _ =>
    split
    · exact .ends (.refl client) _
    · refine proceeds_afterShutdown number session ((proceeds_request _ setup _ _ _ _).after ?_)
      exact (client.calm_log _).trans (calm_setStage _ number rfl)
  · exact .ends (.refl client) _

theorem proceeds_resumeStop (client : Client σ) (setup : Setup σ) (cancelled : Bool) (phase : StopPhase) :
    Proceeds StopPhase.signal client (client.resumeStop setup cancelled phase) := by
  unfold resumeStop
  dsimp only
  split
  · exact .ends (.refl client) _
  · next session _ =>
    cases phase with
    | asking number request =>
      exact proceeds_afterShutdown number session (client.proceeds_resumeRequest setup cancelled request)
    | telling number notice =>
      exact proceeds_afterExit number session (client.proceeds_resumeNotice setup cancelled notice)
    | discarding number ticket =>
      exact proceeds_afterStopDiscard number session (client.proceeds_resumeDiscard setup cancelled number session)

/-! ## Several sessions -/

theorem proceeds_stopEach (client : Client σ) (setup : Setup σ) (ids : List String) :
    Proceeds StopAllPhase.signal client (client.stopEach setup ids) := by
  induction ids generalizing client with
  | nil => exact .ends (.refl client) _
  | cons id rest ih =>
    have h := client.proceeds_stop setup id
    rw [stopEach]
    generalize client.stop setup id = step at h
    obtain ⟨client, current | fault | ⟨⟩⟩ := step
    · exact h.waits rfl
    · exact .ends h.calm _
    · exact (ih client).after h.calm

theorem proceeds_resumeStopAll (client : Client σ) (setup : Setup σ) (cancelled : Bool) (phase : StopAllPhase) :
    Proceeds StopAllPhase.signal client (client.resumeStopAll setup cancelled phase) := by
  have h := client.proceeds_resumeStop setup cancelled phase.current
  rw [resumeStopAll]
  generalize client.resumeStop setup cancelled phase.current = step at h
  obtain ⟨client, current | fault | ⟨⟩⟩ := step
  · exact h.waits rfl
  · exact .ends h.calm _
  · exact (client.proceeds_stopEach setup _).after h.calm

/-! ## Closing -/

theorem calm_closeScope (client : Client σ) (scope : Scope) : Calm client (client.closeScope scope) := by
  have h : Calm client client.closeSessions := by
    unfold closeSessions
    have hc : Calm client { client with isListening := false } := calm_of_eq rfl rfl rfl rfl rfl
    exact hc.trans (Calm.trans (calm_setPending _ _) (calm_of_eq rfl rfl rfl rfl rfl))
  cases scope with
  | sessions => exact h
  | everything => exact h.trans (calm_of_eq rfl rfl rfl rfl rfl)

theorem calm_gather (client : Client σ) (ticket attempt : Nat) : Calm client (client.gather ticket attempt) := by
  unfold gather
  split
  · exact client.calm_push rfl
  · exact client.calm_joined attempt _

theorem calm_gatherAll (client : Client σ) (ticket : Nat) (attempts : List Nat) :
    Calm client (attempts.foldl (fun client attempt => client.gather ticket attempt) client) := by
  induction attempts generalizing client with
  | nil => exact .refl client
  | cons attempt attempts ih => exact (client.calm_gather ticket attempt).trans (ih _)

theorem proceeds_afterStopAll (scope : Scope) {step : Client σ × Progress StopAllPhase Unit}
    (h : Proceeds StopAllPhase.signal before step) :
    Proceeds ClosePhase.signal before (step.1.afterStopAll scope step.2) := by
  obtain ⟨client, stopped⟩ := step
  dsimp only [afterStopAll]
  split
  · exact h.waits rfl
  · exact .ends h.calm _
  · split
    · exact .ends (h.calm.trans (client.calm_closeScope scope)) _
    · -- The starts share one ticket, the next one.
      have hg := calm_gatherAll { client with
        tickets := client.tickets + 1
        gathers := client.gathers.set client.tickets client.starting.values.length }
        client.tickets client.starting.values
      refine ⟨(h.calm.trans (client.calm_tickets _)).trans hg, fun phase hp => ?_⟩
      cases hp
      exact ⟨h.calm.tickets, Nat.lt_of_lt_of_le (Nat.lt_succ_self _) hg.tickets⟩

theorem proceeds_close (client : Client σ) (setup : Setup σ) (scope : Scope) :
    Proceeds ClosePhase.signal client (client.close setup scope) := by
  unfold close
  dsimp only
  refine proceeds_afterStopAll scope ((proceeds_stopEach _ setup _).after ?_)
  exact calm_of_eq rfl rfl rfl rfl rfl

theorem proceeds_resumeClose (client : Client σ) (setup : Setup σ) (cancelled : Bool) (scope : Scope)
    (phase : ClosePhase) : Proceeds ClosePhase.signal client (client.resumeClose setup cancelled scope phase) := by
  unfold resumeClose
  split
  · dsimp only
    exact proceeds_afterStopAll scope (client.proceeds_resumeStopAll setup cancelled _)
  · split
    · exact .ends (.refl client) _
    · exact .ends (client.calm_closeScope scope) _

end Stopping

end LanguageSessions.Client
