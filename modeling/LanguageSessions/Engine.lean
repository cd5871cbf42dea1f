import LanguageSessions.Client.Operation

/-!
# The engine

The engine carries out the turns of a client in the order in which they were queued. Each turn begins a task, goes on
with one that waits, or does one small thing; between two turns every task waits in a phase of its operation. Tasks can
be cancelled wherever they wait. Timers fire when no turns are left.
-/

namespace LanguageSessions

/-- How far a task has got. -/
inductive TaskState where
  | ready (operation : Operation)
  | waiting (activity : Activity)
  | finished (outcome : Except Fault Answer)

/-- An operation that somebody called. -/
structure Task where
  state : TaskState
  /-- Whether the task is told in its next turn that it was cancelled. -/
  isCancelled : Bool

/-- A client with its tasks. -/
structure Engine (σ : Type) where
  client : Client σ
  /-- The tasks by number. -/
  tasks : List Task
  /-- The phases of the attempts that were launched and have not ended, by number. -/
  attempts : Entries Nat AttemptPhase

namespace Task

/-- Whether a task waits for a signal. -/
def waitsFor (signal : Signal) (task : Task) : Bool :=
  match task.state with
  | .waiting activity => activity.signal == signal
  | _ => false

/-- Whether a task has not finished. -/
def isRunning (task : Task) : Bool :=
  match task.state with
  | .finished _ => false
  | _ => true

end Task

namespace Engine

variable {σ : Type}

/-- An engine without tasks. -/
def new (client : Client σ) : Engine σ := ⟨client, [], []⟩

/-! ## Tasks -/

/-- Calls an operation: its task begins in a turn of its own. The number of the task. -/
def call (engine : Engine σ) (operation : Operation) : Engine σ × Nat :=
  let number := engine.tasks.length
  ({ engine with
      tasks := engine.tasks ++ [⟨.ready operation, false⟩], client := engine.client.push (.begin number) },
    number)

/-- Takes over how far a task has got. -/
def afterTask (engine : Engine σ) (number : Nat) (step : Client σ × Progress Activity Answer) : Engine σ :=
  match step with
  | (client, .waits activity) => { engine with client, tasks := engine.tasks.set number ⟨.waiting activity, false⟩ }
  | (client, .ends outcome) =>
    { engine with
      client := client.note (.finished number outcome)
      tasks := engine.tasks.set number ⟨.finished outcome, false⟩ }

/-- Begins a task, unless it was cancelled before. -/
def beginTask (engine : Engine σ) (setup : Setup σ) (number : Nat) : Engine σ :=
  match engine.tasks[number]? with
  | some ⟨.ready operation, cancelled⟩ =>
    engine.afterTask number
      (if cancelled then (engine.client, .ends (.error .cancelled))
        else engine.client.beginOperation setup operation)
  | _ => engine

/-- Goes on with a task that waits. -/
def resumeTask (engine : Engine σ) (setup : Setup σ) (number : Nat) : Engine σ :=
  match engine.tasks[number]? with
  | some ⟨.waiting activity, cancelled⟩ =>
    engine.afterTask number (engine.client.resumeActivity setup cancelled activity)
  | _ => engine

/-! ## Attempts -/

/-- The turn in which somebody hears of the end of an attempt. -/
def hearing : Joiner → Turn
  | .caller ticket => .joined ticket
  | .gatherer ticket => .gathered ticket

/-- Takes over how far an attempt has got; at its end it is forgotten, and all who joined it hear of it. -/
def afterAttempt (engine : Engine σ) (number : Nat) (attempt : Attempt)
    (step : Client σ × Progress AttemptPhase String) : Engine σ :=
  match step with
  | (client, .waits phase) =>
    let heard := fun (attempt : Attempt) => { attempt with isCancelled := false }
    { engine with
      client := { client with attempts := client.attempts.modify number heard }
      attempts := engine.attempts.set number phase }
  | (client, .ends outcome) =>
    let joiners := ((client.attempts[number]?).getD attempt).joiners
    let ended := fun (attempt : Attempt) => { attempt with outcome := some outcome, joiners := [] }
    { engine with
      client := { client with attempts := client.attempts.modify number ended }.pushAll
        (.forget number :: joiners.map hearing)
      attempts := engine.attempts.erase number }

/-- Begins an attempt, unless it was given up before. -/
def beginAttempt (engine : Engine σ) (setup : Setup σ) (number : Nat) : Engine σ :=
  match engine.client.attempts[number]? with
  | none => engine
  | some attempt =>
    engine.afterAttempt number attempt
      (if attempt.isCancelled then (engine.client, .ends (.error .cancelled))
        else engine.client.attempt setup attempt.language attempt.root)

/-- Goes on with an attempt that waits. -/
def resumeAttempt (engine : Engine σ) (setup : Setup σ) (number : Nat) : Engine σ :=
  match engine.client.attempts[number]?, engine.attempts.get? number with
  | some attempt, some phase =>
    engine.afterAttempt number attempt
      (engine.client.resumeAttempt setup attempt.isCancelled attempt.language attempt.root phase)
  | _, _ => engine

/-! ## Turns -/

/-- Goes on with the task or the attempt that waits for a signal, if one does. -/
def wake (engine : Engine σ) (setup : Setup σ) (signal : Signal) : Engine σ :=
  match engine.tasks.findIdx? (Task.waitsFor signal) with
  | some number => engine.resumeTask setup number
  | none =>
    match engine.attempts.find? fun entry => entry.2.signal == signal with
    | some (number, _) => engine.resumeAttempt setup number
    | none => engine

/-- Forgets that an attempt is under way, unless another one took its place. -/
def forget (client : Client σ) (number : Nat) : Client σ :=
  match client.attempts[number]? with
  | none => client
  | some attempt =>
    let key := (attempt.language, attempt.root)
    if client.starting.get? key = some number then { client with starting := client.starting.erase key } else client

/-- One of the attempts that the call with a ticket waits for has ended; behind the last one the call goes on. -/
def countGathered (client : Client σ) (ticket : Nat) : Client σ :=
  match client.gathers.get? ticket with
  | none => client
  | some (missing + 2) => { client with gathers := client.gathers.set ticket (missing + 1) }
  | some _ => { client with gathers := client.gathers.erase ticket }.push (.wake (.ticket ticket))

/-- Carries out a turn. -/
def perform (engine : Engine σ) (setup : Setup σ) : Turn → Engine σ
  | .begin task => engine.beginTask setup task
  | .launch attempt => engine.beginAttempt setup attempt
  | .wake signal => engine.wake setup signal
  | .release => { engine with client := engine.client.setPending engine.client.pending.release }
  | .forget attempt => { engine with client := forget engine.client attempt }
  | .joined ticket => { engine with client := engine.client.push (.wake (.ticket ticket)) }
  | .gathered ticket => { engine with client := countGathered engine.client ticket }
  | .deliver delivery => { engine with client := engine.client.hear delivery }

/-- Carries out turns until none is left, at most a number of them. -/
def run (setup : Setup σ) : Nat → Engine σ → Engine σ
  | 0, engine => engine
  | turns + 1, engine =>
    match engine.client.queue with
    | [] => engine
    | turn :: queue =>
      run setup turns ({ engine with client := { engine.client with queue } }.perform setup turn)

/-! ## Time -/

/-- A timer fires. -/
def expire (engine : Engine σ) (timer : RequestTimer) : Engine σ :=
  let (pending, entries) := engine.client.pending.expire timer
  { engine with client := (engine.client.setPending pending).logAll entries }

/-- Moves the clock on to a time. -/
def moveClock (engine : Engine σ) (time : Int) : Engine σ :=
  { engine with client := { engine.client with pending := engine.client.pending.moveClock time } }

/-- Carries out all turns, and then fires the timers that are due by a time, one after the other with the turns that
each brings about; at most a number of turns each time and a number of timers. -/
def settle (setup : Setup σ) (turns : Nat) (time : Int) : Nat → Engine σ → Engine σ
  | 0, engine => (run setup turns engine).moveClock time
  | timers + 1, engine =>
    let engine := run setup turns engine
    match engine.client.pending.dueTimer? time with
    | none => engine.moveClock time
    | some timer => settle setup turns time timers (engine.expire timer)

/-- Lets time pass, in billionths of a second, and carries out whatever is due by then. -/
def elapse (engine : Engine σ) (setup : Setup σ) (turns timers : Nat) (time : Int) : Engine σ :=
  settle setup turns (engine.client.pending.now + time) timers engine

/-! ## Cancelling -/

/-- Whoever waits for a signal waits no longer. -/
def interrupt (client : Client σ) : Signal → Client σ
  | .promise index =>
    let (pending, waited) := client.pending.abandon index
    if waited then (client.push .release).setPending pending else client
  | .ticket number => client.push (.wake (.ticket number))

/-- Cancels an attempt that has not ended. -/
def cancelAttempt (engine : Engine σ) (number : Nat) : Engine σ :=
  let cancelled := fun (attempt : Attempt) => { attempt with isCancelled := attempt.outcome.isNone }
  let client := { engine.client with attempts := engine.client.attempts.modify number cancelled }
  match engine.attempts.get? number with
  | none => { engine with client }
  | some phase => { engine with client := interrupt client phase.signal }

/-- Cancels a task; the flag tells whether it was still running. A task that waits for several attempts cancels them,
and hears of it when they have ended. -/
def cancel (engine : Engine σ) (number : Nat) : Engine σ × Bool :=
  match engine.tasks[number]? with
  | none => (engine, false)
  | some task =>
    let engine' := { engine with tasks := engine.tasks.set number { task with isCancelled := true } }
    match task.state with
    | .finished _ => (engine, false)
    | .ready _ => (engine', true)
    | .waiting activity =>
      match activity.gathered with
      | some attempts => (attempts.foldl cancelAttempt engine', true)
      | none => ({ engine' with client := interrupt engine'.client activity.signal }, true)

end Engine

end LanguageSessions
