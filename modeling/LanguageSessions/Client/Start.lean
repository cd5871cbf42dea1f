import LanguageSessions.Client.Request
import LanguageSessions.Uri

/-!
# Starting sessions

A call that starts the server for a language and a root joins the attempt under way for them, or launches one. An
attempt asks whether the server can be run, starts it, registers its session and shakes hands with it; an attempt whose
handshake fails takes the session apart again.
-/

namespace LanguageSessions

/-! ## Phases -/

/-- How far a handshake has got. -/
inductive HandshakePhase where
  /-- The server is asked what it can do. -/
  | asking (request : RequestPhase)
  /-- The server is told that the session is set up. -/
  | telling (notice : NoticePhase)
  /-- The server is told its settings. -/
  | configuring (notice : NoticePhase)
  deriving DecidableEq, Repr

/-- What a handshake waits for. -/
def HandshakePhase.signal : HandshakePhase → Signal
  | .asking request => request.signal
  | .telling notice | .configuring notice => notice.signal

/-- How far an attempt has got; sessions are given by number. -/
inductive AttemptPhase where
  | checking (ticket : Nat)
  | inspecting (ticket : Nat)
  | starting (ticket : Nat)
  /-- The client is being closed, and the new process is stopped again. -/
  | aborting (ticket : Nat) (session : String)
  | shaking (session : Nat) (handshake : HandshakePhase)
  /-- The handshake failed, and the process of the session is stopped. -/
  | discarding (ticket session : Nat) (fault : Fault)

/-- What an attempt waits for. -/
def AttemptPhase.signal : AttemptPhase → Signal
  | .checking ticket | .inspecting ticket | .starting ticket | .aborting ticket _ | .discarding ticket _ _ =>
    .ticket ticket
  | .shaking _ handshake => handshake.signal

/-- A call that joined an attempt waits for its end, under a ticket. -/
structure JoinPhase where
  ticket : Nat
  attempt : Nat
  deriving DecidableEq, Repr

/-- What a call that joined an attempt waits for. -/
def JoinPhase.signal (phase : JoinPhase) : Signal := .ticket phase.ticket

/-! ## What is said in the handshake -/

namespace Handshake

/-- The name of the one folder of a workspace. -/
def workspaceName (root : String) : String :=
  match Path.name (Path.forwardSlashes root.toList) with
  | [] => "workspace"
  | name => String.ofList name

/-- What the client can do. -/
def capabilities : Json :=
  .object
    [("textDocument", .object
        [("synchronization", .object [("didSave", .bool true)]),
         ("hover", .object [("contentFormat", .array [.string "markdown", .string "plaintext"])]),
         ("definition", .object [("linkSupport", .bool true)]),
         ("references", .object []),
         ("documentSymbol", .object [("hierarchicalDocumentSymbolSupport", .bool true)]),
         ("publishDiagnostics", .object
            [("relatedInformation", .bool true), ("versionSupport", .bool true),
             ("codeDescriptionSupport", .bool true), ("dataSupport", .bool true)])]),
     ("workspace", .object [("workspaceFolders", .bool true)])]

/-- The parameters of the request that opens a handshake. -/
def parameters (settings : Settings) (root : String) (server : Option Server) : Json :=
  let uri := Json.string (Uri.ofPath root)
  let options := (server.map (·.initializationOptions)).getD []
  .object
    ([("processId", .null),
      ("clientInfo", .object [("name", .string settings.clientName), ("version", .string settings.clientVersion)]),
      ("rootUri", uri), ("rootPath", .string root), ("capabilities", capabilities),
      ("workspaceFolders", .array [.object [("uri", uri), ("name", .string (workspaceName root))]])]
      ++ if options.isEmpty then [] else [("initializationOptions", .object options)])

/-- What a server says that it can do, if it says so. -/
def capabilitiesOf (result : Json) : Option Json :=
  match result with
  | .object members =>
    match Members.get? members "capabilities" with
    | some value => some (if value.isTruthy then value else .object [])
    | none => some (.object [])
  | _ => none

end Handshake

namespace Client

variable {σ : Type}

/-! ## The handshake -/

/-- The last message of a handshake was sent, or not. -/
def afterConfiguring (client : Client σ) (told : Progress NoticePhase Unit) :
    Client σ × Progress HandshakePhase Unit :=
  (client, told.inPhase .configuring)

/-- Tells the server of a session its settings, if there are any; they may be such as cannot be written. -/
def configure (client : Client σ) (setup : Setup σ) (session : Session) : Client σ × Progress HandshakePhase Unit :=
  match setup.servers.get? session.language with
  | none => (client, .ends (.ok ()))
  | some server =>
    if server.settings.isEmpty then (client, .ends (.ok ()))
    else
      let (client, told) :=
        client.notifyIfPrintable setup session.id "workspace/didChangeConfiguration"
          (.object [("settings", .object server.settings)])
      client.afterConfiguring told

/-- The server was told that the session is set up, or not. -/
def afterTelling (client : Client σ) (setup : Setup σ) (session : Session) :
    Progress NoticePhase Unit → Client σ × Progress HandshakePhase Unit
  | .waits notice => (client, .waits (.telling notice))
  | .ends (.error fault) => (client, .ends (.error fault))
  | .ends (.ok ()) => client.configure setup session

/-- The server said what it can do, or not. -/
def afterAsking (client : Client σ) (setup : Setup σ) (number : Nat) (session : Session) :
    Progress RequestPhase Json → Client σ × Progress HandshakePhase Unit
  | .waits request => (client, .waits (.asking request))
  | .ends (.error fault) => (client, .ends (.error fault))
  | .ends (.ok result) =>
    let client :=
      match Handshake.capabilitiesOf result with
      | some capabilities => client.changeSession number fun session => { session with capabilities }
      | none => client
    let (client, told) := client.notify setup session.id "initialized" (.object [])
    client.afterTelling setup session told

/-- Begins the handshake with the server of a session. Where the options of the server cannot be written, it fails at
once, and the server is told nothing. -/
def shakeHands (client : Client σ) (setup : Setup σ) (number : Nat) (session : Session) :
    Client σ × Progress HandshakePhase Unit :=
  let params := Handshake.parameters client.settings session.root (setup.servers.get? session.language)
  let (client, asked) := client.requestIfPrintable setup session.id "initialize" params none
  client.afterAsking setup number session asked

/-- Goes on with a handshake. -/
def resumeHandshake (client : Client σ) (setup : Setup σ) (cancelled : Bool) (number : Nat) (session : Session) :
    HandshakePhase → Client σ × Progress HandshakePhase Unit
  | .asking request =>
    let (client, asked) := client.resumeRequest setup cancelled request
    client.afterAsking setup number session asked
  | .telling notice =>
    let (client, told) := client.resumeNotice setup cancelled notice
    client.afterTelling setup session told
  | .configuring notice =>
    let (client, told) := client.resumeNotice setup cancelled notice
    client.afterConfiguring told

/-! ## Taking a session apart -/

/-- The process of a session was stopped, or not: everything that leads to the session is dropped. -/
def afterStopCall (client : Client σ) (number : Nat) (session : Session) :
    Progress Nat Unit → Client σ × Progress Nat Unit
  | .waits ticket => (client, .waits ticket)
  | .ends (.error .cancelled) => (client, .ends (.error .cancelled))
  | .ends outcome =>
    let client :=
      match outcome with
      | .ok () => client
      | .error fault =>
        client.log (.warning ("Error stopping server process " ++ session.id ++ ": " ++ fault.message))
    let client :=
      { client with
        routes := client.routes.unregisterSession session.id, sessions := client.sessions.remove session.id }
    (client.setStage number .stopped, .ends (.ok ()))

/-- Takes a session apart: its pending requests end first, then its process, then what leads to it. -/
def discard (client : Client σ) (setup : Setup σ) (number : Nat) (session : Session) (reason : String) :
    Client σ × Progress Nat Unit :=
  let (pending, _) := client.pending.cancelAll reason (some session.id)
  let (client, stopped) := (client.setPending pending).ask setup (.stop session.id)
  client.afterStopCall number session stopped

/-- Goes on with taking a session apart. -/
def resumeDiscard (client : Client σ) (setup : Setup σ) (cancelled : Bool) (number : Nat) (session : Session) :
    Client σ × Progress Nat Unit :=
  let (client, stopped) := client.goOn setup cancelled (.stop session.id)
  client.afterStopCall number session stopped

/-! ## An attempt, from its end to its beginning -/

/-- The session whose handshake failed was taken apart, or not. -/
def afterDiscard (client : Client σ) (number : Nat) (session : Session) (fault : Fault) :
    Progress Nat Unit → Client σ × Progress AttemptPhase String
  | .waits ticket => (client, .waits (.discarding ticket number fault))
  | .ends (.error other) => (client, .ends (.error other))
  | .ends (.ok ()) => (client.setStatus session .error (some fault.message), .ends (.error fault))

/-- The handshake failed: the session is taken apart, unless somebody else stopped it. -/
def handshakeFailed (client : Client σ) (setup : Setup σ) (number : Nat) (session : Session) (fault : Fault) :
    Client σ × Progress AttemptPhase String :=
  if session.stage.isEnding then
    (client.log (.info ("Server " ++ session.id ++ " stopped during startup")), .ends (.error fault))
  else
    let client := client.log (.error ("Handshake with " ++ session.id ++ " failed: " ++ fault.message))
    let (client, discarded) := client.discard setup number session ("Handshake failed: " ++ fault.message)
    client.afterDiscard number session fault discarded

/-- The handshake succeeded: the session is ready, unless somebody stopped it. -/
def handshakeSucceeded (client : Client σ) (number : Nat) (session : Session) :
    Client σ × Progress AttemptPhase String :=
  if session.stage = .initializing then
    let client := (client.setStage number .ready).setStatus session .running none
    (client.log (.info ("Server started and initialized: " ++ session.id)), .ends (.ok session.id))
  else
    let reason := "Server " ++ session.id ++ " stopped during startup"
    (client, .ends (.error (.sessionStart session.language (some reason))))

/-- The handshake came to an end, or not. -/
def afterHandshake (client : Client σ) (setup : Setup σ) (number : Nat) :
    Progress HandshakePhase Unit → Client σ × Progress AttemptPhase String
  | .waits handshake => (client, .waits (.shaking number handshake))
  | .ends outcome =>
    match client.sessions.session? number, outcome with
    | none, _ => (client, .ends (.error .cancelled))
    | some session, .ok () => client.handshakeSucceeded number session
    | some session, .error fault => client.handshakeFailed setup number session fault

/-- Registers the session of a server that was started. -/
def enrol (client : Client σ) (session : Session) : Client σ :=
  let client :=
    match client.status.find? session.language session.root with
    | some stale => { client with status := client.status.remove stale.session }
    | none => client
  { client with sessions := client.sessions.add session }.setStatus session .starting none

/-- The fault of a start on a client that is being closed. -/
def closingFault (language : String) : Fault := .sessionStart language (some "LSP service shutting down")

/-- A process that was started in vain was stopped, or not. -/
def afterAbort (client : Client σ) (language session : String) :
    Progress Nat Unit → Client σ × Progress AttemptPhase String
  | .waits ticket => (client, .waits (.aborting ticket session))
  | .ends (.error fault) => (client, .ends (.error fault))
  | .ends (.ok ()) => (client, .ends (.error (closingFault language)))

/-- A server was started, or not. -/
def afterServerStart (client : Client σ) (setup : Setup σ) (language root : String) :
    Progress Nat StartResult → Client σ × Progress AttemptPhase String
  | .waits ticket => (client, .waits (.starting ticket))
  | .ends (.error fault) => (client, .ends (.error fault))
  | .ends (.ok result) =>
    if !result.success then (client, .ends (.error (.sessionStart language result.error)))
    else if client.isClosing then
      let (client, stopped) := client.ask setup (.stop result.session)
      client.afterAbort language result.session stopped
    else
      let number := client.sessions.sessions.length
      let session := Session.begin result.session language root
      let (client, shaken) := (client.enrol session).shakeHands setup number session
      client.afterHandshake setup number shaken

/-- Starts the server. -/
def startServer (client : Client σ) (setup : Setup σ) (language root : String) :
    Client σ × Progress AttemptPhase String :=
  let (client, started) := client.ask setup (.start language root)
  client.afterServerStart setup language root started

/-- What a user can do to install a server. -/
def installHint (server : Server) : Option String :=
  match server.installCommand with
  | none | some "" => server.command.head?
  | some command => some command

/-- It is known what can be done about a server that cannot be run, or not. -/
def afterInspection (client : Client σ) (setup : Setup σ) (language : String) :
    Progress Nat Availability → Client σ × Progress AttemptPhase String
  | .waits ticket => (client, .waits (.inspecting ticket))
  | .ends (.error fault) => (client, .ends (.error fault))
  | .ends (.ok availability) =>
    let server := setup.servers.get? language
    if availability.canDownload then
      let download : PendingDownload :=
        ⟨language, Language.displayName language, (server.map (·.name)).getD language, availability.downloadUrl⟩
      ({ client with status := client.status.addDownload download },
        .ends (.error (.serverNotInstalled language availability.downloadUrl)))
    else (client, .ends (.error (.serverUnavailable language (server.bind installHint))))

/-- It is known whether the server can be run, or not. -/
def afterCheck (client : Client σ) (setup : Setup σ) (language root : String) :
    Progress Nat Bool → Client σ × Progress AttemptPhase String
  | .waits ticket => (client, .waits (.checking ticket))
  | .ends (.error fault) => (client, .ends (.error fault))
  | .ends (.ok true) => client.startServer setup language root
  | .ends (.ok false) =>
    let (client, inspected) := client.ask setup (.inspect language)
    client.afterInspection setup language inspected

/-- Begins an attempt. -/
def attempt (client : Client σ) (setup : Setup σ) (language root : String) :
    Client σ × Progress AttemptPhase String :=
  let client := client.log (.info ("Starting server for " ++ language ++ " in " ++ root))
  let (client, checked) := client.ask setup (.check language)
  client.afterCheck setup language root checked

/-- Goes on with an attempt. -/
def resumeAttempt (client : Client σ) (setup : Setup σ) (cancelled : Bool) (language root : String) :
    AttemptPhase → Client σ × Progress AttemptPhase String
  | .checking _ =>
    let (client, checked) := client.goOn setup cancelled (.check language)
    client.afterCheck setup language root checked
  | .inspecting _ =>
    let (client, inspected) := client.goOn setup cancelled (.inspect language)
    client.afterInspection setup language inspected
  | .starting _ =>
    let (client, started) := client.goOn setup cancelled (.start language root)
    client.afterServerStart setup language root started
  | .aborting _ session =>
    let (client, stopped) := client.goOn setup cancelled (.stop session)
    client.afterAbort language session stopped
  | .shaking number handshake =>
    match client.sessions.session? number with
    | none => (client, .ends (.error .cancelled))
    | some session =>
      let (client, shaken) := client.resumeHandshake setup cancelled number session handshake
      client.afterHandshake setup number shaken
  | .discarding _ number fault =>
    match client.sessions.session? number with
    | none => (client, .ends (.error .cancelled))
    | some session =>
      let (client, discarded) := client.resumeDiscard setup cancelled number session
      client.afterDiscard number session fault discarded

/-! ## Joining an attempt -/

/-- Begins to hear the messages of servers, unless the client hears them already. -/
def listen (client : Client σ) : Client σ :=
  if client.isListening then client
  else { client.log (.info "Initializing LSP session manager") with isListening := true }

/-- Waits for the end of an attempt, unless it has ended. -/
def join (client : Client σ) (attempt : Nat) : Client σ × Progress JoinPhase String :=
  match client.attempts[attempt]?.bind (·.outcome) with
  | some outcome => (client, .ends outcome)
  | none =>
    let ticket := client.tickets
    let joined := fun (entry : Attempt) => { entry with joiners := entry.joiners ++ [.caller ticket] }
    ({ client with tickets := ticket + 1, attempts := client.attempts.modify attempt joined }, .waits ⟨ticket, attempt⟩)

/-- Goes on with a call that joined an attempt. -/
def resumeJoin (client : Client σ) (cancelled : Bool) (phase : JoinPhase) : Client σ × Progress JoinPhase String :=
  if cancelled then (client, .ends (.error .cancelled))
  else
    match client.attempts[phase.attempt]?.bind (·.outcome) with
    | some outcome => (client, .ends outcome)
    | none => (client, .waits phase)

/-- Launches an attempt; its number. -/
def launch (client : Client σ) (language root : String) : Client σ × Nat :=
  let number := client.attempts.length
  ({ client with
      attempts := client.attempts ++ [Attempt.new language root]
      starting := client.starting.set (language, root) number }.push (.launch number),
    number)

/-- The live session for a language and a root, if there is one. -/
def liveSession? (client : Client σ) (setup : Setup σ) (language root : String) : Option String :=
  (client.sessions.find? language (normalizeRoot setup.surroundings root)).map (·.id)

/-- Starts the session for a language and a root that is in normal form: a ready one is used again. -/
def startAt (client : Client σ) (language root : String) : Client σ × Progress JoinPhase String :=
  match (client.sessions.find? language root).filter Session.isReady with
  | some session => (client.log (.info ("Reusing existing server: " ++ session.id)), .ends (.ok session.id))
  | none =>
    match client.starting.get? (language, root) with
    | some attempt =>
      (client.log (.info ("Waiting for server already starting for " ++ language ++ " in " ++ root))).join attempt
    | none =>
      let (client, attempt) := client.launch language root
      client.join attempt

/-- Starts the session for a language and a root, or finds it. -/
def start (client : Client σ) (setup : Setup σ) (language root : String) : Client σ × Progress JoinPhase String :=
  if client.isClosing then (client, .ends (.error (closingFault language)))
  else client.listen.startAt language (normalizeRoot setup.surroundings root)

end Client

end LanguageSessions
