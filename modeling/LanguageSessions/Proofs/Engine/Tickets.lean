import LanguageSessions.Proofs.Engine.Runs

/-!
# Tasks that wait

A task has a turn of its own when it begins or when it goes on (`task_perform`); between two turns it begins to wait for
nothing (`waits_after`), and it stays as it is unless it is cancelled (`getElem?_after`).

No two tasks wait for the same ticket, since a ticket is given out once (`Tickets`). So a ticket that is called wakes
the task that waits for it.
-/

namespace LanguageSessions.Engine

open Client

variable {σ : Type} {engine later : Engine σ} {setup : Setup σ}

/-! ## Tasks that wait -/

/-- A task waits in an activity. -/
def Waits (engine : Engine σ) (number : Nat) (activity : Activity) : Prop :=
  ∃ cancelled, engine.tasks[number]? = some ⟨.waiting activity, cancelled⟩

/-- A task waits for a ticket. -/
def Awaited (engine : Engine σ) (number ticket : Nat) : Prop :=
  ∃ activity, engine.Waits number activity ∧ activity.signal = .ticket ticket

/-- A task that waits for a signal is found by it, unless another one is. -/
theorem Waits.found {number : Nat} {activity : Activity} (h : engine.Waits number activity) :
    ∃ other activity', engine.tasks.findIdx? (Task.waitsFor activity.signal) = some other ∧
      engine.Waits other activity' ∧ activity'.signal = activity.signal := by
  obtain ⟨cancelled, ht⟩ := h
  cases hf : engine.tasks.findIdx? (Task.waitsFor activity.signal) with
  | none =>
    have := List.findIdx?_eq_none_iff.1 hf _ (List.mem_of_getElem? ht)
    simp [Task.waitsFor] at this
  | some other =>
    obtain ⟨hlt, hw, -⟩ := List.findIdx?_eq_some_iff_getElem.1 hf
    obtain ⟨⟨state, cancelled⟩, hother⟩ : ∃ task, engine.tasks[other] = task := ⟨_, rfl⟩
    rw [hother] at hw
    cases state with
    | waiting activity' =>
      exact ⟨other, activity', rfl, ⟨cancelled, List.getElem?_eq_some_iff.2 ⟨hlt, hother⟩⟩,
        by simpa [Task.waitsFor] using hw⟩
    | ready _ | finished _ => cases hw

theorem Awaited.found {number ticket : Nat} (h : engine.Awaited number ticket) :
    ∃ other, engine.tasks.findIdx? (Task.waitsFor (.ticket ticket)) = some other ∧ engine.Awaited other ticket := by
  obtain ⟨activity, hw, hs⟩ := h
  obtain ⟨other, activity', hf, hw', hs'⟩ := hw.found
  exact ⟨other, hs ▸ hf, activity', hw', hs'.trans hs⟩

theorem getElem?_afterTask (engine : Engine σ) {number n : Nat} (hn : n ≠ number)
    (step : Client σ × Progress Activity Answer) : (engine.afterTask number step).tasks[n]? = engine.tasks[n]? := by
  obtain ⟨client, activity | outcome⟩ := step <;> exact List.getElem?_set_ne hn.symm

theorem waits_afterTask {number : Nat} {step : Client σ × Progress Activity Answer} {activity : Activity}
    (h : (engine.afterTask number step).Waits number activity) : step.2 = .waits activity := by
  obtain ⟨cancelled, ht⟩ := h
  have hset : ∀ task, (engine.tasks.set number task)[number]? = some ⟨.waiting activity, cancelled⟩ →
      task = ⟨.waiting activity, cancelled⟩ := by
    intro task ht
    rw [List.getElem?_set_self'] at ht
    obtain ⟨_, _, h⟩ := Option.map_eq_some_iff.1 ht
    exact h
  obtain ⟨client, phase | outcome⟩ := step
  · cases hset _ ht
    rfl
  · cases hset _ ht

theorem TaskTurn.getElem?_of_ne {number n : Nat} (turn : TaskTurn engine number later) (hn : n ≠ number) :
    later.tasks[n]? = engine.tasks[n]? := by
  cases turn with
  | nothing => rfl
  | step _ _ => exact engine.getElem?_afterTask hn _

/-- The turn in which a task begins leaves the other tasks as they are. -/
theorem getElem?_next {task n : Nat} {queue : List Turn} (hq : engine.client.queue = .begin task :: queue)
    (hn : n ≠ task) : (engine.next setup).tasks[n]? = engine.tasks[n]? := by
  rw [next_of_turn hq]
  exact (taskTurn_begin _ setup task).getElem?_of_ne hn

/-- In a turn a task stays as it is, or it begins, or it goes on. -/
theorem task_perform (engine : Engine σ) (setup : Setup σ) (turn : Turn) (n : Nat) :
    (engine.perform setup turn).tasks[n]? = engine.tasks[n]? ∨
      (turn = .begin n ∧ engine.perform setup turn = engine.beginTask setup n) ∨
      ∃ signal, turn = .wake signal ∧ engine.tasks.findIdx? (Task.waitsFor signal) = some n ∧
        engine.perform setup turn = engine.resumeTask setup n := by
  have hattempt : ∀ number attempt step, (engine.afterAttempt number attempt step).tasks = engine.tasks := by
    intro number attempt step
    obtain ⟨client, phase | outcome⟩ := step <;> rfl
  cases turn with
  | begin task =>
    by_cases hn : n = task
    · exact Or.inr (Or.inl ⟨by rw [hn], by rw [hn]; rfl⟩)
    · exact Or.inl ((taskTurn_begin engine setup task).getElem?_of_ne hn)
  | launch number =>
    refine Or.inl ?_
    dsimp only [perform, beginAttempt]
    split
    · rfl
    · rw [hattempt]
  | wake signal =>
    dsimp only [perform, wake]
    split
    · next task hf =>
      by_cases hn : n = task
      · exact Or.inr (Or.inr ⟨signal, rfl, hn ▸ hf, by rw [hn]⟩)
      · exact Or.inl ((taskTurn_resume engine setup task).getElem?_of_ne hn)
    · refine Or.inl ?_
      split
      · unfold resumeAttempt
        split
        · rw [hattempt]
        · rfl
      · rfl
  | release | forget _ | joined _ | gathered _ | deliver _ => exact Or.inl rfl

/-- A task that is cancelled is told so in its next turn. -/
theorem tasks_cancel {number : Nat} (h : engine.Allows (.cancel number)) :
    (engine.cancel number).1.tasks = engine.tasks ∨ ∃ task, engine.tasks[number]? = some task ∧
      (engine.cancel number).1.tasks = engine.tasks.set number { task with isCancelled := true } := by
  unfold cancel
  split
  · exact Or.inl rfl
  · next task ht =>
    dsimp only
    split
    · exact Or.inl rfl
    · exact Or.inr ⟨task, ht, rfl⟩
    · next activity hs =>
      rw [h task activity ht hs]
      exact Or.inr ⟨task, ht, rfl⟩

/-- Between two turns no task begins to wait. -/
theorem waits_after {event : Event σ} (ha : engine.Allows event) (hne : event ≠ .turn) {n : Nat} {activity : Activity}
    (h : (engine.after setup event).Waits n activity) : engine.Waits n activity := by
  cases event with
  | call operation =>
    obtain ⟨cancelled, ht⟩ := h
    rw [after, call, List.getElem?_append] at ht
    split at ht
    · exact ⟨cancelled, ht⟩
    · cases List.mem_singleton.1 (List.mem_of_getElem? ht)
  | cancel number =>
    obtain ⟨cancelled, ht⟩ := h
    rw [after] at ht
    rcases tasks_cancel ha with hc | ⟨⟨state, flag⟩, hf, hc⟩
    · exact ⟨cancelled, hc ▸ ht⟩
    · rw [hc, List.getElem?_set] at ht
      split at ht
      · next hn =>
        split at ht
        · cases ht
          exact ⟨flag, hn ▸ hf⟩
        · cases ht
      · exact ⟨cancelled, ht⟩
  | turn => exact absurd rfl hne
  | expire _ | moveClock _ | layer _ _ _ | hear _ | listen _ | bind _ | reorder _ => exact h

/-- Between two turns a task stays as it is, unless it is cancelled. -/
theorem getElem?_after {event : Event σ} (ha : engine.Allows event) (hne : event ≠ .turn) {n : Nat} {task : Task}
    (hc : event ≠ .cancel n) (ht : engine.tasks[n]? = some task) :
    (engine.after setup event).tasks[n]? = some task := by
  cases event with
  | call operation =>
    rw [after, call, List.getElem?_append_left (List.getElem?_eq_some_iff.1 ht).1]
    exact ht
  | cancel number =>
    have hn : number ≠ n := fun hn => hc (by rw [hn])
    rw [after]
    rcases tasks_cancel ha with htasks | ⟨_, -, htasks⟩
    · rw [htasks, ht]
    · rw [htasks, List.getElem?_set_ne hn, ht]
  | turn => exact absurd rfl hne
  | expire _ | moveClock _ | layer _ _ _ | hear _ | listen _ | bind _ | reorder _ => exact ht

/-! ## No two tasks wait for one ticket -/

/-- Every ticket that a task waits for was given out, and no other task waits for it. -/
structure Tickets (engine : Engine σ) : Prop where
  given : ∀ number ticket, engine.Awaited number ticket → ticket < engine.client.tickets
  once : ∀ number other ticket, engine.Awaited number ticket → engine.Awaited other ticket → other = number

theorem tickets_new (client : Client σ) : Tickets (Engine.new client) where
  given _ _ h := nomatch h.choose_spec.1.choose_spec
  once _ _ _ h := nomatch h.choose_spec.1.choose_spec

theorem Tickets.of_awaited (h : engine.Tickets) (hw : ∀ n ticket, later.Awaited n ticket → engine.Awaited n ticket)
    (ht : engine.client.tickets ≤ later.client.tickets) : later.Tickets where
  given n ticket ha := Nat.lt_of_lt_of_le (h.given n ticket (hw n ticket ha)) ht
  once n other ticket ha ho := h.once n other ticket (hw n ticket ha) (hw other ticket ho)

/-- A task that has its turn waits for the same ticket again, or for a fresh one. -/
theorem Tickets.task (h : engine.Tickets) {number : Nat} (turn : TaskTurn engine number later) : later.Tickets := by
  cases turn with
  | nothing => exact h
  | @step old step advances waited =>
    have hlater : (engine.afterTask number step).client.tickets = step.1.tickets := by
      obtain ⟨client, activity | outcome⟩ := step <;> rfl
    have htickets := (Turned.task (.step advances waited)).moves.tickets
    rw [hlater] at htickets
    have hawaited : ∀ n ticket, (engine.afterTask number step).Awaited n ticket →
        engine.Awaited n ticket ∨ (n = number ∧ engine.client.tickets ≤ ticket ∧ ticket < step.1.tickets) := by
      rintro n ticket ⟨activity, hw, hs⟩
      by_cases hn : n = number
      · subst hn
        rcases advances.fresh activity (waits_afterTask hw) with hf | ho
        · rw [hs] at hf
          exact Or.inr ⟨rfl, hf⟩
        · obtain ⟨activity', cancelled, ht, hs'⟩ := waited _ ho
          exact Or.inl ⟨activity', ⟨cancelled, ht⟩, hs'.trans hs⟩
      · obtain ⟨cancelled, ht⟩ := hw
        rw [engine.getElem?_afterTask hn] at ht
        exact Or.inl ⟨activity, ⟨cancelled, ht⟩, hs⟩
    refine ⟨fun n ticket ha => ?_, fun n other ticket ha ho => ?_⟩
    · rw [hlater]
      rcases hawaited n ticket ha with ha | ⟨-, -, hlt⟩
      · exact Nat.lt_of_lt_of_le (h.given n ticket ha) htickets
      · exact hlt
    · -- A fresh ticket is that of no task which waited before.
      rcases hawaited n ticket ha with ha | ⟨hn, hle, -⟩ <;> rcases hawaited other ticket ho with ho | ⟨hn', hle', -⟩
      · exact h.once n other ticket ha ho
      · exact absurd (h.given n ticket ha) (Nat.not_lt_of_le hle')
      · exact absurd (h.given other ticket ho) (Nat.not_lt_of_le hle)
      · rw [hn, hn']

theorem Turned.tickets (ht : Turned engine later) (h : engine.Tickets) : later.Tickets := by
  have htickets := ht.moves.tickets
  cases ht with
  | task turn => exact h.task turn
  | waits _ _ _ | ends _ _ _ _ | forget _ _ _ | calm _ => exact h.of_awaited (fun _ _ => id) htickets

theorem Tickets.after (h : engine.Tickets) (hs : engine.Sound) (hlayer : setup.layer.StopsUncancelled)
    {event : Event σ} (ha : engine.Allows event) : (engine.after setup event).Tickets := by
  by_cases hne : event = .turn
  · subst hne
    rcases next_cases engine setup with heq | ⟨turn, queue, hq, heq⟩
    · rw [Engine.after, heq]
      exact h
    · rw [Engine.after, heq]
      exact (turned_perform hs hlayer hq).tickets (h.of_awaited (fun _ _ => id) (Nat.le_refl _))
  · refine h.of_awaited (fun n ticket => ?_) (still_after setup ha hne).1.tickets
    rintro ⟨activity, hw, hsignal⟩
    exact ⟨activity, waits_after ha hne hw, hsignal⟩

end LanguageSessions.Engine
