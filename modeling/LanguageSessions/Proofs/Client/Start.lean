import LanguageSessions.Client.Start
import LanguageSessions.Proofs.Client.Messages
import LanguageSessions.Proofs.Client.Stop

/-!
# Starts join or launch

A call that starts a session is calm, or it launches an attempt and waits for it (`Advances`); it launches one only for
a key that no ready session was found for and that no attempt is under way for (`Launches`).
-/

namespace LanguageSessions.Client

variable {σ φ ψ α β : Type}

/-! ## Joining -/

theorem proceeds_join (client : Client σ) (attempt : Nat) :
    Proceeds JoinPhase.signal client (client.join attempt) := by
  unfold join
  split
  · exact .ends (.refl client) _
  · refine ⟨?_, fun phase hp => ?_⟩
    · exact Calm.trans (client.calm_joined attempt (.caller client.tickets)) (calm_tickets _ client.gathers)
    · cases hp
      exact ⟨Nat.le_refl _, Nat.lt_succ_self _⟩

/-- A call that joins an attempt which has ended gets its outcome. -/
theorem join_of_outcome {client : Client σ} {number : Nat} {attempt : Attempt} {outcome : Except Fault String}
    (ha : client.attempts[number]? = some attempt) (ho : attempt.outcome = some outcome) :
    client.join number = (client, .ends outcome) := by
  rw [join, ha, Option.bind_some, ho]

/-- A call that joins an attempt under way waits, and stands among those who joined it. -/
theorem join_of_running {client : Client σ} {number : Nat} {attempt : Attempt}
    (ha : client.attempts[number]? = some attempt) (ho : attempt.outcome = none) :
    (client.join number).2 = .waits ⟨client.tickets, number⟩ ∧
      (client.join number).1.attempts[number]? =
        some { attempt with joiners := attempt.joiners ++ [.caller client.tickets] } := by
  have hn : client.attempts[number]?.bind (·.outcome) = none := by
    rw [ha]
    exact ho
  rw [join, hn]
  refine ⟨rfl, ?_⟩
  simp only [List.getElem?_modify_eq, ha]
  rfl

/-! ## Launching -/

/-- An attempt is launched for a key. -/
structure Launches (key : String × String) (before after : Client σ) : Prop where
  unready : (before.sessions.find? key.1 key.2).filter Session.isReady = none
  free : before.starting.get? key = none
  sessions : after.sessions = before.sessions
  starting : after.starting = before.starting.set key before.attempts.length
  attempts : ∃ attempt, after.attempts = before.attempts ++ [attempt] ∧ attempt.key = key ∧ attempt.outcome = none ∧
    attempt.isCancelled = false
  queue : after.queue = before.queue ++ [.launch before.attempts.length]
  tickets : before.tickets ≤ after.tickets

/-- A step is calm, or it launches an attempt and waits; a ticket that it waits for then is fresh, or the one that it
waited for already. -/
structure Advances (signal : φ → Signal) (old : Option Signal) (before : Client σ) (step : Client σ × Progress φ α) :
    Prop where
  change : Calm before step.1 ∨ ((∃ phase, step.2 = .waits phase) ∧ ∃ key, Launches key before step.1)
  fresh : ∀ phase, step.2 = .waits phase → Fresh before step.1 (signal phase) ∨ old = some (signal phase)

section Advances

variable {signal : φ → Signal} {signal' : ψ → Signal} {old : Option Signal} {before client : Client σ}
  {step : Client σ × Progress φ α}

theorem Proceeds.advances (h : Proceeds signal before step) : Advances signal old before step :=
  ⟨Or.inl h.calm, fun phase hp => Or.inl (h.fresh phase hp)⟩

/-- A step that has ended was calm. -/
theorem Advances.calm {outcome : Except Fault α} (h : Advances signal old before (client, .ends outcome)) :
    Calm before client := by
  rcases h.change with hc | ⟨⟨phase, hp⟩, -⟩
  · exact hc
  · cases hp

/-- To wait in another phase for the same signal. -/
theorem Advances.waits {phase : φ} {phase' : ψ}
    (h : Advances signal old before ((client, .waits phase) : Client σ × Progress φ α))
    (hs : signal' phase' = signal phase) :
    Advances signal' old before ((client, .waits phase') : Client σ × Progress ψ β) where
  change := h.change.imp_right fun hl => ⟨⟨phase', rfl⟩, hl.2⟩
  fresh _ hp := by cases hp; exact hs ▸ h.fresh phase rfl

theorem Advances.inPhase {f : φ → ψ} (h : Advances signal old before step)
    (hs : ∀ phase, signal' (f phase) = signal phase) :
    Advances signal' old before (step.1, step.2.inPhase f) := by
  obtain ⟨client, progress⟩ := step
  cases progress with
  | waits phase => exact h.waits (hs phase)
  | ends outcome => exact (Proceeds.ends h.calm outcome).advances

theorem Advances.map (g : α → β) (h : Advances signal old before step) :
    Advances signal old before (step.1, step.2.map g) := by
  obtain ⟨client, progress⟩ := step
  cases progress with
  | waits phase => exact h.waits rfl
  | ends outcome => exact (Proceeds.ends h.calm _).advances

/-- Something else may have changed before. -/
theorem Launches.of_same {key : String × String} {later : Client σ} (hs : Same before client)
    (h : Launches key client later) : Launches key before later where
  unready := hs.sessions ▸ h.unready
  free := hs.starting ▸ h.free
  sessions := h.sessions.trans hs.sessions
  starting := by rw [h.starting, hs.starting, hs.attempts]
  attempts := hs.attempts ▸ h.attempts
  queue := by rw [h.queue, hs.queue, hs.attempts]
  tickets := hs.tickets ▸ h.tickets

theorem Advances.of_same (hs : Same before client) (h : Advances signal old client step) :
    Advances signal old before step where
  change := h.change.imp hs.calm.trans fun ⟨hp, key, hl⟩ => ⟨hp, key, hl.of_same hs⟩
  fresh phase hp := by
    refine (h.fresh phase hp).imp_left fun hf => ?_
    cases hsignal : signal phase with
    | promise index => trivial
    | ticket number =>
      rw [hsignal] at hf
      exact ⟨hs.tickets ▸ hf.1, hf.2⟩

end Advances

/-! ## Starting -/

section Starting

variable (client : Client σ) (setup : Setup σ)

/-- To launch an attempt and to wait for it. -/
theorem launches_join (key : String × String) (hf : (client.sessions.find? key.1 key.2).filter Session.isReady = none)
    (hs : client.starting.get? key = none) :
    Launches key client ((client.launch key.1 key.2).1.join client.attempts.length).1 ∧
      ((client.launch key.1 key.2).1.join client.attempts.length).2 =
        .waits ⟨client.tickets, client.attempts.length⟩ := by
  have hnew : (client.launch key.1 key.2).1.attempts[client.attempts.length]? = some (Attempt.new key.1 key.2) := by
    rw [launch]
    exact List.getElem?_concat_length
  have hp := proceeds_join (client.launch key.1 key.2).1 client.attempts.length
  refine ⟨⟨hf, hs, ?_, ?_, ?_, ?_, hp.calm.tickets⟩, (join_of_running hnew rfl).1⟩
  all_goals rw [join, hnew, Option.bind_some]
  all_goals dsimp only [Attempt.new, launch, push]
  refine ⟨⟨key.1, key.2, none, [.caller client.tickets], false⟩, ?_, rfl, rfl, rfl⟩
  exact List.modifyTailIdx_add _ 0 client.attempts _

theorem advances_startAt (language root : String) :
    Advances JoinPhase.signal none client (client.startAt language root) := by
  unfold startAt
  split
  · exact (Proceeds.ends (client.calm_log _) _).advances
  · next hf =>
    split
    · exact ((proceeds_join _ _).after (client.calm_log _)).advances
    · next hs =>
      obtain ⟨launches, waits⟩ := client.launches_join (language, root) hf hs
      have hp := proceeds_join (client.launch language root).1 client.attempts.length
      exact ⟨Or.inr ⟨⟨_, waits⟩, _, launches⟩, fun phase hw => Or.inl (hp.fresh phase hw)⟩

theorem same_listen : Same client client.listen := by
  unfold listen
  split <;> exact ⟨rfl, rfl, rfl, rfl, rfl⟩

theorem advances_start (language root : String) :
    Advances JoinPhase.signal none client (client.start setup language root) := by
  unfold start
  split
  · exact (Proceeds.ends (.refl client) _).advances
  · exact .of_same client.same_listen (advances_startAt _ language _)

/-- A call that joined an attempt goes on waiting for it, or ends. -/
theorem advances_resumeJoin (cancelled : Bool) (phase : JoinPhase) :
    Advances JoinPhase.signal (some phase.signal) client (client.resumeJoin cancelled phase) := by
  unfold resumeJoin
  split
  · exact (Proceeds.ends (.refl client) _).advances
  · split
    · exact (Proceeds.ends (.refl client) _).advances
    · exact ⟨Or.inl (.refl client), fun _ hp => by cases hp; exact Or.inr rfl⟩

end Starting

end LanguageSessions.Client
