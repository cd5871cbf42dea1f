import LanguageSessions.Client.Start

/-!
# Stopping sessions

A session is asked to shut down and told to exit, and then taken apart whatever became of that. Closing the client stops
all sessions, waits for the starts under way, and ends all requests that are still pending.
-/

namespace LanguageSessions

/-! ## Phases -/

/-- How far the stop of a session, given by its number, has got. -/
inductive StopPhase where
  /-- The server is asked to shut down. -/
  | asking (session : Nat) (request : RequestPhase)
  /-- The server is told to exit. -/
  | telling (session : Nat) (notice : NoticePhase)
  /-- The process is stopped. -/
  | discarding (session ticket : Nat)
  deriving DecidableEq, Repr

/-- What the stop of a session waits for. -/
def StopPhase.signal : StopPhase → Signal
  | .asking _ request => request.signal
  | .telling _ notice => notice.signal
  | .discarding _ ticket => .ticket ticket

/-- How far the stop of several sessions has got. -/
structure StopAllPhase where
  current : StopPhase
  /-- The sessions that come after the current one. -/
  rest : List String
  deriving DecidableEq, Repr

/-- What the stop of several sessions waits for. -/
def StopAllPhase.signal (phase : StopAllPhase) : Signal := phase.current.signal

/-- How far the closing of a client has got. -/
inductive ClosePhase where
  | stopping (phase : StopAllPhase)
  /-- The closing waits for starts under way, under a ticket. -/
  | gathering (ticket : Nat) (attempts : List Nat)
  deriving DecidableEq, Repr

/-- What the closing of a client waits for. -/
def ClosePhase.signal : ClosePhase → Signal
  | .stopping phase => phase.signal
  | .gathering ticket _ => .ticket ticket

/-- What is closed: the sessions alone, or everything that comes with them. -/
inductive Scope where
  | sessions
  | everything
  deriving DecidableEq, Repr

namespace Client

variable {σ : Type}

/-! ## One session -/

/-- The session was taken apart, or not. -/
def afterStopDiscard (client : Client σ) (number : Nat) (session : Session) :
    Progress Nat Unit → Client σ × Progress StopPhase Unit
  | .waits ticket => (client, .waits (.discarding number ticket))
  | .ends (.error fault) => (client, .ends (.error fault))
  | .ends (.ok ()) =>
    ((client.setStatus session .stopped none).log (.info ("Stopped server: " ++ session.id)), .ends (.ok ()))

/-- The server was asked and told, or that failed: the session is taken apart. -/
def afterGoodbye (client : Client σ) (setup : Setup σ) (number : Nat) (session : Session) :
    Except Fault Unit → Client σ × Progress StopPhase Unit
  | .error .cancelled => (client, .ends (.error .cancelled))
  | outcome =>
    let client :=
      match outcome with
      | .ok () => client
      | .error fault =>
        client.log (.warning ("Error during graceful shutdown of " ++ session.id ++ ": " ++ fault.message))
    let (client, discarded) := client.discard setup number session ("Session " ++ session.id ++ " stopped")
    client.afterStopDiscard number session discarded

/-- The server was told to exit, or not. -/
def afterExit (client : Client σ) (setup : Setup σ) (number : Nat) (session : Session) :
    Progress NoticePhase Unit → Client σ × Progress StopPhase Unit
  | .waits notice => (client, .waits (.telling number notice))
  | .ends outcome => client.afterGoodbye setup number session outcome

/-- The server answered that it shuts down, or not. -/
def afterShutdown (client : Client σ) (setup : Setup σ) (number : Nat) (session : Session) :
    Progress RequestPhase Json → Client σ × Progress StopPhase Unit
  | .waits request => (client, .waits (.asking number request))
  | .ends (.error fault) => client.afterGoodbye setup number session (.error fault)
  | .ends (.ok _) =>
    let (client, told) := client.notify setup session.id "exit" .null
    client.afterExit setup number session told

/-- Stops the session with an identifier, unless it is unknown or being stopped already. -/
def stop (client : Client σ) (setup : Setup σ) (id : String) : Client σ × Progress StopPhase Unit :=
  match client.sessions.number? id, client.sessions.get? id with
  | some number, some session =>
    if session.stage.isEnding then (client, .ends (.ok ()))
    else
      let client := (client.log (.info ("Stopping server: " ++ id))).setStage number .shuttingDown
      let (client, asked) :=
        client.request setup id "shutdown" .null (some client.settings.shutdownTimeout.seconds)
      client.afterShutdown setup number session asked
  | _, _ => (client, .ends (.ok ()))

/-- Goes on with the stop of a session. -/
def resumeStop (client : Client σ) (setup : Setup σ) (cancelled : Bool) (phase : StopPhase) :
    Client σ × Progress StopPhase Unit :=
  let number := match phase with | .asking number _ | .telling number _ | .discarding number _ => number
  match client.sessions.session? number with
  | none => (client, .ends (.error .cancelled))
  | some session =>
    match phase with
    | .asking _ request =>
      let (client, asked) := client.resumeRequest setup cancelled request
      client.afterShutdown setup number session asked
    | .telling _ notice =>
      let (client, told) := client.resumeNotice setup cancelled notice
      client.afterExit setup number session told
    | .discarding _ _ =>
      let (client, discarded) := client.resumeDiscard setup cancelled number session
      client.afterStopDiscard number session discarded

/-! ## Several sessions -/

/-- Stops sessions one after the other. -/
def stopEach (client : Client σ) (setup : Setup σ) : List String → Client σ × Progress StopAllPhase Unit
  | [] => (client, .ends (.ok ()))
  | id :: rest =>
    match client.stop setup id with
    | (client, .waits current) => (client, .waits ⟨current, rest⟩)
    | (client, .ends (.error fault)) => (client, .ends (.error fault))
    | (client, .ends (.ok ())) => stopEach client setup rest

/-- Stops all registered sessions. -/
def stopAll (client : Client σ) (setup : Setup σ) : Client σ × Progress StopAllPhase Unit :=
  client.stopEach setup client.sessions.ids

/-- Goes on with the stop of several sessions. -/
def resumeStopAll (client : Client σ) (setup : Setup σ) (cancelled : Bool) (phase : StopAllPhase) :
    Client σ × Progress StopAllPhase Unit :=
  match client.resumeStop setup cancelled phase.current with
  | (client, .waits current) => (client, .waits ⟨current, phase.rest⟩)
  | (client, .ends (.error fault)) => (client, .ends (.error fault))
  | (client, .ends (.ok ())) => client.stopEach setup phase.rest

/-! ## Closing -/

/-- The end of closing the sessions. -/
def closeSessions (client : Client σ) : Client σ :=
  let client := { client with isListening := false }
  let (pending, _) := client.pending.cancelAll "LSP service shutting down" none
  { client.setPending pending with isClosing := false }

/-- The end of closing everything that comes with the sessions. -/
def closeRest (client : Client σ) : Client σ :=
  { client with
    audience :=
      if client.isAttached then client.audience.modify .diagnostics (·.unsubscribe .store) else client.audience
    isAttached := false
    routes := Routes.empty
    diagnostics := client.diagnostics.clearAll }

/-- The end of closing. -/
def closeScope (client : Client σ) : Scope → Client σ
  | .sessions => client.closeSessions
  | .everything => client.closeSessions.closeRest

/-- Waits for an attempt under a ticket that several attempts share. -/
def gather (client : Client σ) (ticket attempt : Nat) : Client σ :=
  if (client.attempts[attempt]?.bind (·.outcome)).isSome then client.push (.gathered ticket)
  else
    let joined := fun (entry : Attempt) => { entry with joiners := entry.joiners ++ [.gatherer ticket] }
    { client with attempts := client.attempts.modify attempt joined }

/-- All sessions were stopped, or not: the starts under way are waited for. -/
def afterStopAll (client : Client σ) (scope : Scope) :
    Progress StopAllPhase Unit → Client σ × Progress ClosePhase Unit
  | .waits phase => (client, .waits (.stopping phase))
  | .ends (.error fault) => (client, .ends (.error fault))
  | .ends (.ok ()) =>
    match client.starting.values with
    | [] => (client.closeScope scope, .ends (.ok ()))
    | attempts =>
      let ticket := client.tickets
      let client :=
        { client with tickets := ticket + 1, gathers := client.gathers.set ticket attempts.length }
      (attempts.foldl (fun client attempt => client.gather ticket attempt) client, .waits (.gathering ticket attempts))

/-- Closes the client. -/
def close (client : Client σ) (setup : Setup σ) (scope : Scope) : Client σ × Progress ClosePhase Unit :=
  let client := { client.log (.info "Cleaning up LSP session manager") with isClosing := true }
  let (client, stopped) := client.stopAll setup
  client.afterStopAll scope stopped

/-- Goes on with closing the client. -/
def resumeClose (client : Client σ) (setup : Setup σ) (cancelled : Bool) (scope : Scope) :
    ClosePhase → Client σ × Progress ClosePhase Unit
  | .stopping phase =>
    let (client, stopped) := client.resumeStopAll setup cancelled phase
    client.afterStopAll scope stopped
  | .gathering _ _ =>
    if cancelled then (client, .ends (.error .cancelled)) else (client.closeScope scope, .ends (.ok ()))

end Client

end LanguageSessions
