import LanguageSessions.Proofs.Engine.Heard

/-!
# What becomes of a call that joined an attempt

A call that joins an attempt (`Joins`) waits for it or has ended as the attempt has (`Awaits`), and so it is in every
state behind that as long as it is not cancelled (`Run.awaits`). `Orderly` is all that every run keeps
(`Run.orderly`).
-/

namespace LanguageSessions.Engine

open Client

variable {σ : Type} {engine later : Engine σ} {setup : Setup σ}

/-! ## Calls that joined -/

/-- A call to start a session waits for an attempt, or has ended as the attempt has. -/
inductive Awaits (engine : Engine σ) (task number : Nat) : Prop where
  | waits {attempt : Attempt} {ticket : Nat} (found : engine.client.attempts[number]? = some attempt)
      (waiting : engine.tasks[task]? = some ⟨.waiting (.joining ⟨ticket, number⟩), false⟩)
  | ended {attempt : Attempt} {outcome : Except Fault String} (found : engine.client.attempts[number]? = some attempt)
      (ended : attempt.outcome = some outcome)
      (finished : engine.tasks[task]? = some ⟨.finished (outcome.map fun session => .session (some session)), false⟩)

/-- In its next turn a call to start a session joins an attempt: the client is not being closed, and no session of the
key is ready. -/
structure Joins (setup : Setup σ) (engine : Engine σ) (task : Nat) (key : String × String) (number : Nat) : Prop where
  turn : ∃ queue, engine.client.queue = .begin task :: queue
  call : ∃ root, engine.tasks[task]? = some ⟨.ready (.start key.1 root), false⟩ ∧
    normalizeRoot setup.surroundings root = key.2
  isOpen : engine.client.isClosing = false
  unready : (engine.client.sessions.find? key.1 key.2).filter Session.isReady = none
  number : number = joining engine.client key

section Awaits

variable {task number : Nat}

theorem awaits_join {client : Client σ} {attempt : Attempt} (hlt : task < engine.tasks.length)
    (ha : client.attempts[number]? = some attempt) :
    (engine.afterTask task (withSession .joining (client.join number))).Awaits task number := by
  cases ho : attempt.outcome with
  | some outcome =>
    rw [join_of_outcome ha ho]
    exact .ended ha ho (List.getElem?_set_self hlt)
  | none =>
    obtain ⟨hw, hf⟩ := join_of_running ha ho
    rcases hj : client.join number with ⟨next, progress⟩
    rw [hj] at hw hf
    obtain rfl : progress = .waits ⟨client.tickets, number⟩ := hw
    exact .waits hf (List.getElem?_set_self hlt)

/-- A call that joins an attempt waits for it, or ends as the attempt has ended. -/
theorem Joins.awaits {key : String × String} (h : Joins setup engine task key number) (hs : engine.Sound) :
    (engine.next setup).Awaits task number := by
  obtain ⟨queue, hq⟩ := h.turn
  obtain ⟨root, ht, hroot⟩ := h.call
  have hlt : task < engine.tasks.length := (List.getElem?_eq_some_iff.1 ht).1
  have hsame := (engine.withQueue queue).client.same_listen
  have hjoin := startAt_eq_join (((hs.pop hq).toBooked).quiet hsame.calm.toQuiet) (hsame.sessions ▸ h.unready)
  have hnumber : joining (engine.withQueue queue).client.listen key = number := by
    rw [joining, hsame.starting, hsame.attempts, h.number, joining, withQueue]
  obtain ⟨joined, attempt, heq, ha⟩ := hjoin
  rw [hnumber] at heq ha
  have hopen : (engine.withQueue queue).client.isClosing = false := h.isOpen
  have hstart : (engine.withQueue queue).client.start setup key.1 root = joined.join number := by
    rw [Client.start, hopen, if_neg Bool.false_ne_true, hroot, heq]
  have hbegun : (engine.withQueue queue).tasks[task]? = some ⟨.ready (.start key.1 root), false⟩ := ht
  rw [next_of_turn hq, Engine.perform, beginTask_of_ready (engine.withQueue queue) setup hbegun, beginOperation, hstart]
  exact awaits_join hlt ha

theorem Awaits.beginTask (h : engine.Awaits task number) : engine.beginTask setup task = engine := by
  cases h with
  | waits _ waiting => rw [Engine.beginTask, waiting]
  | ended _ _ finished => rw [Engine.beginTask, finished]

theorem Awaits.resumeTask (h : engine.Awaits task number) : (engine.resumeTask setup task).Awaits task number := by
  cases id h with
  | @waits attempt ticket found waiting =>
    have hlt : task < engine.tasks.length := (List.getElem?_eq_some_iff.1 waiting).1
    rw [Engine.resumeTask, waiting]
    dsimp only
    rw [resumeActivity, resumeJoin, if_neg nofun, found]
    cases ho : attempt.outcome with
    | some outcome =>
      rw [Option.bind_some, ho]
      exact .ended found ho (List.getElem?_set_self hlt)
    | none =>
      rw [Option.bind_some, ho]
      exact .waits found (List.getElem?_set_self hlt)
  | ended _ _ finished =>
    rw [Engine.resumeTask, finished]
    exact h

theorem Awaits.perform (h : engine.Awaits task number) {turn : Turn}
    (hturned : Turned engine (engine.perform setup turn)) : (engine.perform setup turn).Awaits task number := by
  rcases engine.task_perform setup turn task with hsame | ⟨-, heq⟩ | ⟨signal, -, -, heq⟩
  · cases h with
    | waits found waiting =>
      obtain ⟨attempt, ha, -⟩ := hturned.moves.lasts found
      exact .waits ha (hsame.trans waiting)
    | ended found ended finished =>
      obtain ⟨attempt, ha, hlasts⟩ := hturned.moves.lasts found
      exact .ended ha (hlasts.2 _ ended) (hsame.trans finished)
  · rw [heq, h.beginTask]
    exact h
  · rw [heq]
    exact h.resumeTask

/-- A call waits for its attempt, or has ended as the attempt has, also after a turn. -/
theorem Awaits.next (h : engine.Awaits task number) (hs : engine.Sound) (hlayer : setup.layer.StopsUncancelled) :
    (engine.next setup).Awaits task number := by
  rcases next_cases engine setup with heq | ⟨turn, queue, hq, heq⟩
  · rw [heq]
    exact h
  · have hpopped : (engine.withQueue queue).Awaits task number := by
      cases h with
      | waits found waiting => exact .waits found waiting
      | ended found ended finished => exact .ended found ended finished
    rw [heq]
    exact hpopped.perform (turned_perform hs hlayer hq)

/-- **A call that is not cancelled goes on waiting for its attempt, or has ended as the attempt has.** -/
theorem Awaits.after (h : engine.Awaits task number) (hs : engine.Sound) (hlayer : setup.layer.StopsUncancelled)
    {event : Event σ} (ha : engine.Allows event) (hc : event ≠ .cancel task) :
    (engine.after setup event).Awaits task number := by
  by_cases hne : event = .turn
  · subst hne
    exact h.next hs hlayer
  · have hquiet := (still_after setup ha hne).1.toQuiet
    cases h with
    | waits found waiting =>
      obtain ⟨attempt, hf, -⟩ := hquiet.attempt _ _ found
      exact .waits hf (getElem?_after ha hne hc waiting)
    | ended found ended finished =>
      obtain ⟨attempt, hf, hjoined⟩ := hquiet.attempt _ _ found
      exact .ended hf (hjoined.outcome.trans ended) (getElem?_after ha hne hc finished)

/-- A call that has finished has the outcome of its attempt. -/
theorem Awaits.outcome (h : engine.Awaits task number) {result : Except Fault Answer} {cancelled : Bool}
    (hf : engine.tasks[task]? = some ⟨.finished result, cancelled⟩) :
    ∃ attempt outcome, engine.client.attempts[number]? = some attempt ∧ attempt.outcome = some outcome ∧
      result = outcome.map fun session => .session (some session) := by
  cases h with
  | waits _ waiting => cases waiting.symm.trans hf
  | @ended attempt outcome found ended finished =>
    cases finished.symm.trans hf
    exact ⟨attempt, outcome, found, ended, rfl⟩

/-- Where no turn is left and its attempt has ended, a call has finished. -/
theorem Awaits.finished (h : engine.Awaits task number) (hheard : engine.Heard) (hq : engine.client.queue = [])
    {attempt : Attempt} {outcome : Except Fault String} (ha : engine.client.attempts[number]? = some attempt)
    (ho : attempt.outcome = some outcome) :
    engine.tasks[task]? = some ⟨.finished (outcome.map fun session => .session (some session)), false⟩ := by
  cases h with
  | waits found waiting =>
    cases hheard task _ ⟨_, ⟨false, waiting⟩, rfl⟩ with
    | stands found running _ =>
      cases found.symm.trans ha
      exact nomatch running.symm.trans ho
    | hears _ _ turn =>
      rw [hq] at turn
      exact (turn.elim nofun nofun)
  | ended found ended finished =>
    cases found.symm.trans ha
    cases ended.symm.trans ho
    exact finished

end Awaits

/-! ## Runs -/

/-- An engine whose starts, tickets and waiting calls are in order. -/
structure Orderly (engine : Engine σ) : Prop where
  sound : engine.Sound
  tickets : engine.Tickets
  heard : engine.Heard

theorem orderly_new (layer : σ) (settings : Settings) : (Engine.new (Client.new layer settings)).Orderly where
  sound := sound_new layer settings
  tickets := tickets_new _
  heard _ _ h := nomatch h.choose_spec.1.choose_spec

theorem Orderly.after (h : engine.Orderly) (hlayer : setup.layer.StopsUncancelled) {event : Event σ}
    (ha : engine.Allows event) : (engine.after setup event).Orderly where
  sound := h.sound.after hlayer ha
  tickets := h.tickets.after h.sound hlayer ha
  heard := h.heard.after h.sound h.tickets hlayer ha

/-- **Every run keeps an engine in order.** -/
theorem Run.orderly {final : Engine σ} {events : List (Event σ)} (run : Run setup engine events final)
    (hlayer : setup.layer.StopsUncancelled) : engine.Orderly → final.Orderly := by
  induction run with
  | nil _ => exact id
  | cons allowed _ ih => exact fun h => ih (h.after hlayer allowed)

/-- A call that is not cancelled in a run goes on waiting for its attempt, or has ended as the attempt has. -/
theorem Run.awaits {final : Engine σ} {events : List (Event σ)} {task number : Nat}
    (run : Run setup engine events final) (hlayer : setup.layer.StopsUncancelled) (hc : .cancel task ∉ events) :
    engine.Sound → engine.Awaits task number → final.Awaits task number := by
  induction run with
  | nil _ => exact fun _ => id
  | cons allowed _ ih =>
    intro hs h
    refine ih (fun hm => hc (List.mem_cons_of_mem _ hm)) (hs.after hlayer allowed) ?_
    exact h.after hs hlayer allowed fun he => hc (he ▸ List.mem_cons_self)

end LanguageSessions.Engine
