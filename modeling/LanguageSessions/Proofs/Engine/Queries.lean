import LanguageSessions.Proofs.Client.Queries
import LanguageSessions.Proofs.Engine.Pledges

/-!
# What becomes of a query

A session that is asked about a place is asked by a task, which waits in its query until that comes to what it may come
to (`Asking`). So in the course of any events a query gives back what was read of a result that a server sent, or
nothing; it fails only if it was cancelled, or for an infinite number in such a result (`queries_degrade`).
-/

namespace LanguageSessions.Engine

open Client

variable {σ : Type}

/-- A task asks a session about a place: it is still to begin, or it waits for an answer, or it has ended. -/
inductive Asking (operation : Operation) (query : Query) (brought : Json → Prop) : TaskState → Prop where
  | ready : Asking operation query brought (.ready operation)
  | waiting (phase : QueryPhase) (same : phase.query = query) : Asking operation query brought (.waiting (.querying phase))
  | finished (outcome : Except Fault Answer) (comes : query.Comes brought outcome) :
      Asking operation query brought (.finished outcome)

section Turns

variable {operation : Operation} {query : Query} {brought more : Json → Prop} {setup : Setup σ} {engine : Engine σ}
  {task : Nat}

theorem Asking.weaken {state : TaskState} (h : Asking operation query brought state)
    (hb : ∀ result, brought result → more result) : Asking operation query more state := by
  cases h with
  | ready => exact .ready
  | waiting phase same => exact .waiting phase same
  | finished outcome comes => exact .finished outcome (comes.weaken hb)

/-- A query that has got on is asked still, or has come to what it may come to. -/
theorem Asking.afterTask {step : Client σ × Progress QueryPhase Answer} (h : Queries query step.1 step.2)
    (hlt : task < engine.tasks.length)
    (hb : ∀ result, (∃ index, step.1.pending.outcome? index = some (.ok result)) → brought result) :
    ∃ state cancelled, (engine.afterTask task (queried step)).tasks[task]? = some ⟨state, cancelled⟩ ∧
      Asking operation query brought state := by
  obtain ⟨client, phase | outcome⟩ := step
  · exact ⟨_, false, List.getElem?_set_self hlt, .waiting phase (h.1 phase rfl)⟩
  · exact ⟨_, false, List.getElem?_set_self hlt, .finished outcome ((h.2 outcome rfl).weaken hb)⟩

theorem Asking.beginTask (asks : operation.Asks query) {state : TaskState} (h : Asking operation query brought state)
    {cancelled : Bool} (found : engine.tasks[task]? = some ⟨state, cancelled⟩)
    (tended : (engine.beginTask setup task).client.pending.Tended)
    (hb : ∀ result, (∃ index, (engine.beginTask setup task).client.pending.outcome? index = some (.ok result)) →
      brought result) :
    ∃ state' cancelled', (engine.beginTask setup task).tasks[task]? = some ⟨state', cancelled'⟩ ∧
      Asking operation query brought state' := by
  have hlt : task < engine.tasks.length := (List.getElem?_eq_some_iff.1 found).1
  revert tended hb
  rw [Engine.beginTask, found]
  cases h with
  | ready =>
    dsimp only
    rw [pending_afterTask]
    intro tended hb
    cases cancelled with
    | true => exact ⟨_, false, List.getElem?_set_self hlt, .finished _ .cancelled⟩
    | false =>
      obtain ⟨step, heq, hqueries⟩ := engine.client.beginOperation_of_asks setup asks
      rw [if_neg Bool.false_ne_true, heq] at tended hb ⊢
      exact Asking.afterTask (hqueries tended) hlt hb
  | waiting phase same => exact fun _ _ => ⟨_, cancelled, found, .waiting phase same⟩
  | finished outcome comes => exact fun _ _ => ⟨_, cancelled, found, .finished outcome comes⟩

theorem Asking.resumeTask (asks : operation.Asks query) {state : TaskState} (h : Asking operation query brought state)
    {cancelled : Bool} (found : engine.tasks[task]? = some ⟨state, cancelled⟩)
    (tended : (engine.resumeTask setup task).client.pending.Tended)
    (hb : ∀ result, (∃ index, (engine.resumeTask setup task).client.pending.outcome? index = some (.ok result)) →
      brought result) :
    ∃ state' cancelled', (engine.resumeTask setup task).tasks[task]? = some ⟨state', cancelled'⟩ ∧
      Asking operation query brought state' := by
  have hlt : task < engine.tasks.length := (List.getElem?_eq_some_iff.1 found).1
  revert tended hb
  rw [Engine.resumeTask, found]
  cases h with
  | ready => exact fun _ _ => ⟨_, cancelled, found, .ready⟩
  | waiting phase same =>
    dsimp only
    rw [pending_afterTask]
    intro tended hb
    exact Asking.afterTask (same ▸ engine.client.queries_resumeQuery setup cancelled (same.symm ▸ asks) tended) hlt hb
  | finished outcome comes => exact fun _ _ => ⟨_, cancelled, found, .finished outcome comes⟩

end Turns

section Course

variable {setup : Setup σ} {engine first : Engine (σ × List Exchange)} {operation : Operation} {query : Query}
  {brought : Json → Prop} {task : Nat}

/-- **A query is asked on through every event.** -/
theorem Asking.goes (asks : operation.Asks query) {state : TaskState} (h : Asking operation query brought state)
    {cancelled : Bool} (found : engine.tasks[task]? = some ⟨state, cancelled⟩) (event : Event σ)
    (tended : (engine.goes setup event).client.pending.Tended)
    (hb : ∀ result, (∃ index, (engine.goes setup event).client.pending.outcome? index = some (.ok result)) →
      brought result) :
    ∃ state' cancelled', (engine.goes setup event).tasks[task]? = some ⟨state', cancelled'⟩ ∧
      Asking operation query brought state' := by
  rcases task_goes setup event found with ⟨cancelled', hfound⟩ | ⟨queue, heq | heq⟩
  · exact ⟨state, cancelled', hfound, h⟩
  · rw [heq] at tended hb ⊢
    exact h.beginTask asks found tended hb
  · rw [heq] at tended hb ⊢
    exact h.resumeTask asks found tended hb

/-- A result that a promise has was received. -/
theorem received_of_outcome {layer : σ} {settings : Settings} {events : List (Event σ)} {result : Json}
    (h : ∃ index, (course setup (fresh layer settings) events).client.pending.outcome? index = some (.ok result)) :
    ∃ request, Received setup (fresh layer settings) events request result := by
  obtain ⟨letters, lawful⟩ := lawful_course setup layer settings events
  obtain ⟨index, houtcome⟩ := h
  obtain ⟨promise, hp, ho⟩ := Pending.outcome?_eq_some_iff.1 houtcome
  exact ⟨promise.request, lawful.answered index promise result hp ho⟩

theorem Received.concat {events : List (Event σ)} {request : RequestId} {result : Json}
    (h : Received setup first events request result) (event : Event σ) :
    Received setup first (events ++ [event]) request result := by
  obtain ⟨before, heard, after, rfl, hreceives⟩ := h
  exact ⟨before, heard, after ++ [event], by simp, hreceives⟩

end Course

/-- **A query about a place gives back what was read of a result, or nothing.** Through any events, with any process
layer, the task that asks is still to begin, or it waits in its query, or the query has come to what was read of a result
that was received, or to nothing. It fails only if it was cancelled, or because an infinite number stands in a result
that was received. -/
theorem queries_degrade (setup : Setup σ) (layer : σ) (settings : Settings) (events : List (Event σ)) (task : Nat)
    (operation : Operation) (query : Query) (asks : operation.Asks query)
    (called : CalledFor setup (fresh layer settings) events task operation) :
    ∃ state cancelled, (course setup (fresh layer settings) events).tasks[task]? = some ⟨state, cancelled⟩ ∧
      Asking operation query (fun result => ∃ request, Received setup (fresh layer settings) events request result)
        state := by
  refine called.throughout (fun events => Asking operation query fun result =>
    ∃ request, Received setup (fresh layer settings) events request result) (fun _ => .ready) ?_
  intro events event state cancelled found h
  have hmore : Asking operation query (fun result => ∃ request, Received setup (fresh layer settings)
      (events ++ [event]) request result) state := by
    refine h.weaken ?_
    rintro result ⟨request, hr⟩
    exact ⟨request, hr.concat event⟩
  have htended := tended_course setup layer settings (events ++ [event])
  have hreceived : ∀ result, (∃ index,
      (course setup (fresh layer settings) (events ++ [event])).client.pending.outcome? index = some (.ok result)) → _ :=
    fun _ => received_of_outcome
  rw [course_concat] at htended
  simp only [course_concat] at hreceived
  exact hmore.goes asks found event htended hreceived

/-- A query is answered with an infinite number. -/
def boundless : List (Event Unit) :=
  hovering ++
    [.hear ⟨"s", "\x7b\"id\": 2, \"result\": \x7b\"contents\": \"x\", \"range\": \x7b\"start\": \x7b\"line\": Infinity, \"character\": 0\x7d, \"end\": \x7b\"line\": 0, \"character\": 0\x7d\x7d\x7d\x7d"⟩,
      .turn]

/-- The query fails, though nobody cancelled it. -/
theorem query_fails_for_an_infinite_number :
    (course prompt (fresh () Settings.standard) boundless).tasks[1]?.map
      (·.state matches .finished (.error (.conversion .unbounded))) = some true := by decide +kernel

end LanguageSessions.Engine
