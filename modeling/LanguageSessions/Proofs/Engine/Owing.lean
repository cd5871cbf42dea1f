import LanguageSessions.Proofs.Engine.Pledges
import LanguageSessions.Proofs.Engine.Scenes

/-!
# Nobody waits in vain

A task that waits has its turn when what it waits for has come about. Until then its signal is owed (`Owed`): the
promise has no outcome, or the process layer has not called the ticket since it was given out. Behind that a turn of the
task is to come, and it is not lost (`to_come_or_owed`), since no two tasks wait for the same signal
(`waitsFor_unique`).
-/

namespace LanguageSessions.Engine

open Client

variable {σ : Type}

/-! ## No two tasks wait for one signal -/

section Tickets

variable {engine : Engine (σ × List Exchange)}

theorem tickets_perform (h : engine.Tickets) (setup : Setup σ) (turn : Turn) :
    (engine.perform setup.recorded turn).Tickets := by
  by_cases hsame : ∀ n : Nat, (engine.perform setup.recorded turn).tasks[n]? = engine.tasks[n]?
  · have honours : Honours (fun _ => False) engine _ := honours_perform setup turn
    refine h.of_awaited (fun n ticket => ?_) honours.keeps.tickets
    rintro ⟨activity, ⟨cancelled, ht⟩, hs⟩
    exact ⟨activity, ⟨cancelled, (hsame n).symm.trans ht⟩, hs⟩
  · obtain ⟨n, hn⟩ := not_forall.1 hsame
    rcases engine.task_perform setup.recorded turn n with hsame | ⟨-, heq⟩ | ⟨signal, -, -, heq⟩
    · exact absurd hsame hn
    · exact heq ▸ h.task (taskTurn_begin engine setup.recorded n)
    · exact heq ▸ h.task (taskTurn_resume engine setup.recorded n)

/-- **In the course of events no two tasks wait for the same ticket.** -/
theorem tickets_course (setup : Setup σ) (layer : σ) (settings : Settings) (events : List (Event σ)) :
    (course setup (fresh layer settings) events).Tickets := by
  induction events using List.reverseRecOn with
  | nil => exact tickets_new _
  | append_singleton events event ih =>
    rw [course_concat]
    by_cases hne : event = .turn
    · subst hne
      change (Engine.next _ setup.recorded).Tickets
      rcases next_cases (course setup (fresh layer settings) events) setup.recorded with heq | ⟨turn, queue, -, heq⟩
      · rw [heq]
        exact ih
      · rw [heq]
        have hpopped : ((course setup (fresh layer settings) events).withQueue queue).Tickets :=
          ih.of_awaited (fun _ _ => id) (Nat.le_refl _)
        exact tickets_perform hpopped setup turn
    · refine ih.of_awaited (fun n ticket => ?_) (honours_goes setup event).keeps.tickets
      rintro ⟨activity, hw, hs⟩
      exact ⟨activity, waits_goes hne hw, hs⟩

/-- A task is found by the signal that it waits for. -/
theorem waitsFor_unique (hp : engine.Pledged) (ht : engine.Tickets) {task : Nat} {activity : Activity}
    (hw : engine.Waits task activity) : engine.tasks.findIdx? (Task.waitsFor activity.signal) = some task := by
  obtain ⟨other, activity', hf, hw', hs⟩ := hw.found
  rw [hf]
  cases hsignal : activity.signal with
  | ticket ticket => rw [ht.once task other ticket ⟨activity, hw, hsignal⟩ ⟨activity', hw', hs.trans hsignal⟩]
  | promise index =>
    cases hp.once (.task task) (.task other) index ⟨activity, hw, activity.promise?_of_signal hsignal⟩
      ⟨activity', hw', activity'.promise?_of_signal (hs.trans hsignal)⟩
    rfl

end Tickets

/-! ## What is still to come -/

section Owing

variable (setup : Setup σ) (first : Engine (σ × List Exchange))

/-- No turn is lost or made up where the turns to come are put in another order. -/
def KeepsTurns (events : List (Event σ)) : Prop :=
  ∀ passed queue rest, events = passed ++ .reorder queue :: rest →
    queue.Perm (course setup first passed).client.queue

/-- Behind events a signal is still to come: the promise has no outcome, or the process layer has not called the ticket
since it was given out. -/
def Owed (events : List (Event σ)) : Signal → Prop
  | .promise index => (course setup first events).client.pending.outcome? index = none
  | .ticket ticket => ∀ passed state tickets deliveries rest,
      events = passed ++ .layer state tickets deliveries :: rest →
      ticket < (course setup first passed).client.tickets → ticket ∉ tickets

variable {setup first} {events : List (Event σ)} {event : Event σ}

/-- The events up to one of them and behind it, where another one follows. -/
theorem concat_eq_append_cons {passed rest : List (Event σ)} {other : Event σ}
    (h : events ++ [event] = passed ++ other :: rest) :
    (events = passed ∧ event = other) ∨ ∃ more, events = passed ++ other :: more := by
  rcases List.eq_nil_or_concat rest with rfl | ⟨more, last, rfl⟩
  · obtain ⟨heq, hlast⟩ := List.append_inj' h rfl
    exact Or.inl ⟨heq, (List.cons.inj hlast).1⟩
  · rw [List.concat_eq_append, ← List.cons_append, ← List.append_assoc] at h
    exact Or.inr ⟨more, (List.append_inj' h rfl).1⟩

theorem KeepsTurns.concat (h : KeepsTurns setup first (events ++ [event])) :
    KeepsTurns setup first events ∧
      ∀ queue, event = .reorder queue → queue.Perm (course setup first events).client.queue := by
  constructor
  · rintro passed queue rest rfl
    exact h passed queue (rest ++ [event]) (by simp)
  · rintro queue rfl
    exact h events queue [] rfl

theorem tickets_le_course (events more : List (Event σ)) :
    (course setup first events).client.tickets ≤ (course setup first (events ++ more)).client.tickets := by
  induction more using List.reverseRecOn with
  | nil => rw [List.append_nil]
  | append_singleton more event ih =>
    rw [← List.append_assoc, course_concat]
    exact Nat.le_trans ih (honours_goes setup event).keeps.tickets

/-- A ticket is owed while the process layer does not call it. -/
theorem Owed.concat {ticket : Nat} (h : Owed setup first events (.ticket ticket))
    (uncalled : ∀ state tickets deliveries, event = .layer state tickets deliveries → ticket ∉ tickets) :
    Owed setup first (events ++ [event]) (.ticket ticket) := by
  intro passed state tickets deliveries rest split hlt
  rcases concat_eq_append_cons split with ⟨-, heq⟩ | ⟨more, heq⟩
  · exact uncalled state tickets deliveries heq
  · exact h passed state tickets deliveries more heq hlt

/-- Whatever a task begins to wait for is owed. -/
theorem owed_of_fresh {signal : Signal}
    (hf : Fresh (course setup first events).client (course setup first (events ++ [.turn])).client signal)
    (ho : ∀ index, signal = .promise index →
      (course setup first (events ++ [.turn])).client.pending.outcome? index = none) :
    Owed setup first (events ++ [.turn]) signal := by
  cases signal with
  | promise index => exact ho index rfl
  | ticket ticket =>
    intro passed state tickets deliveries rest split hlt
    rcases concat_eq_append_cons split with ⟨-, heq⟩ | ⟨more, rfl⟩
    · cases heq
    · exact absurd (Nat.lt_of_lt_of_le hlt (tickets_le_course passed _)) (Nat.not_lt_of_le hf.1)

/-- **A turn to come is not lost, and whoever is owed a signal has a turn to come when it has come about**, as long as
no turn is lost. -/
theorem to_come_or_owed (hp : (course setup first events).Pledged) (ht : (course setup first events).Tickets)
    (keeps : KeepsTurns setup first (events ++ [event])) {task : Nat} {activity : Activity}
    (hw : (course setup first events).Waits task activity)
    (idle : ∀ activity, ¬ (course setup first events).GoesOn event task activity)
    (h : .wake activity.signal ∈ (course setup first events).client.queue ∨ Owed setup first events activity.signal) :
    .wake activity.signal ∈ (course setup first (events ++ [event])).client.queue ∨
      Owed setup first (events ++ [event]) activity.signal := by
  have hkeeps : ((course setup first events).withQueue _).client.Keeps _ _ := (honours_goes setup event).keeps
  rcases h with to_come | owed
  · left
    rw [course_concat]
    refine hkeeps.turns.subset ?_
    cases event with
    | reorder queue => exact ((keeps.concat.2 queue rfl).mem_iff).2 to_come
    | turn =>
      change _ ∈ (course setup first events).client.queue.tail
      cases hq : (course setup first events).client.queue with
      | nil => exact absurd (hq ▸ to_come) List.not_mem_nil
      | cons turn queue =>
        rcases List.mem_cons.1 (hq ▸ to_come) with rfl | hm
        · exact absurd ⟨rfl, ⟨_, queue, hq, waitsFor_unique hp ht hw⟩, hw⟩ (idle activity)
        · exact hm
    | call _ | expire _ | moveClock _ | cancel _ | layer _ _ _ | hear _ | listen _ | bind _ => exact to_come
  · cases hsignal : activity.signal with
    | promise index =>
      rw [hsignal] at owed
      by_cases hn : (course setup first (events ++ [event])).client.pending.outcome? index = none
      · exact Or.inr hn
      · rw [course_concat] at hn ⊢
        exact Or.inl (hkeeps.rouses index owed hn)
    | ticket ticket =>
      rw [hsignal] at owed
      by_cases called : ∃ state tickets deliveries, event = .layer state tickets deliveries ∧ ticket ∈ tickets
      · obtain ⟨state, tickets, deliveries, rfl, hm⟩ := called
        rw [course_concat]
        exact Or.inl (List.mem_append_right _ (List.mem_append_left _ (List.mem_map_of_mem hm)))
      · exact Or.inr (owed.concat fun state tickets deliveries heq hm => called ⟨state, tickets, deliveries, heq, hm⟩)

end Owing

end LanguageSessions.Engine
