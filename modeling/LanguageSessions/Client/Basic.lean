import LanguageSessions.Diagnostic.Store
import LanguageSessions.Hover
import LanguageSessions.Language
import LanguageSessions.Layer
import LanguageSessions.Location
import LanguageSessions.Pending
import LanguageSessions.Routes.Lookup
import LanguageSessions.Session.Registry
import LanguageSessions.Settings.Basic
import LanguageSessions.Status
import LanguageSessions.Subscribers

/-!
# The client

Everything the client holds: its sessions and their pending requests, the starts under way, the routes of files, what is
shown to the user, and whoever listens. Calls of the client are carried out in turns, and whatever has to wait puts its
next turn into the queue when it may go on.
-/

namespace LanguageSessions

/-! ## Who listens -/

/-- What can be listened to. -/
inductive Topic where
  /-- Every notification of a server. -/
  | notifications
  /-- The diagnostics that a server publishes. -/
  | diagnostics
  deriving DecidableEq, Repr

namespace Topic

/-- The name that failures are reported under. -/
def name : Topic → String
  | .notifications => "Notification"
  | .diagnostics => "Diagnostics"

end Topic

/-- What an observer does after it has taken note of an event. -/
inductive Conduct where
  | listen
  | fail
  /-- Ends the subscription of the observer with a name. -/
  | unsubscribe (name : String)
  deriving DecidableEq, Repr

/-- Somebody outside who listens. -/
structure Observer where
  name : String
  topic : Topic
  conduct : Conduct
  deriving DecidableEq, Repr

/-- A subscriber of a topic. -/
inductive Listener where
  /-- The store of diagnostics. -/
  | store
  /-- The observer with a number. -/
  | observer (number : Nat)
  deriving DecidableEq, Repr

/-- All who listen. -/
structure Audience where
  /-- The observers by number. -/
  observers : List Observer
  /-- The number of the observer that last subscribed under a name. -/
  handles : Entries String Nat
  notifications : Subscribers Listener
  diagnostics : Subscribers Listener

namespace Audience

/-- Nobody listens. -/
def empty : Audience := ⟨[], [], [], []⟩

/-- The subscribers of a topic. -/
def of (audience : Audience) : Topic → Subscribers Listener
  | .notifications => audience.notifications
  | .diagnostics => audience.diagnostics

/-- Changes the subscribers of a topic. -/
def modify (audience : Audience) (topic : Topic) (f : Subscribers Listener → Subscribers Listener) : Audience :=
  match topic with
  | .notifications => { audience with notifications := f audience.notifications }
  | .diagnostics => { audience with diagnostics := f audience.diagnostics }

/-- Adds an observer. -/
def subscribe (audience : Audience) (observer : Observer) : Audience :=
  let number := audience.observers.length
  { audience with
    observers := audience.observers ++ [observer], handles := audience.handles.set observer.name number }.modify
      observer.topic (·.subscribe (.observer number))

/-- Ends the subscription that was last made under a name; none if there never was one. -/
def unsubscribe? (audience : Audience) (name : String) : Option Audience := do
  let number ← audience.handles.get? name
  let observer ← audience.observers[number]?
  return audience.modify observer.topic (·.unsubscribe (.observer number))

end Audience

/-! ## Starts under way -/

/-- What is told of the end of a start. -/
inductive Joiner where
  /-- A call that waits for this start. -/
  | caller (ticket : Nat)
  /-- A call that waits for several starts. -/
  | gatherer (ticket : Nat)
  deriving DecidableEq, Repr

/-- An attempt to start the server for a language and a root. -/
structure Attempt where
  language : String
  root : String
  /-- The session that was started, or why none was. -/
  outcome : Option (Except Fault String)
  /-- Who waits for the end, in order. -/
  joiners : List Joiner
  /-- Whether the attempt was given up before it began. -/
  isCancelled : Bool

/-- An attempt that has just been launched. -/
def Attempt.new (language root : String) : Attempt := ⟨language, root, none, [], false⟩

/-! ## Bindings -/

/-- A file in an editor and the session it is connected to. -/
structure Binding where
  path : String
  root : String
  language : Option String
  session : Option String
  error : Option String
  isOpen : Bool
  deriving DecidableEq, Repr

/-! ## Turns and what they leave behind -/

/-- What a waiting call waits for. -/
inductive Signal where
  /-- The promise of a request. -/
  | promise (index : Nat)
  /-- A ticket of the process layer or of a start. -/
  | ticket (number : Nat)
  deriving DecidableEq, Repr

/-- A thing that is done in one go. -/
inductive Turn where
  /-- A call of the client begins. -/
  | begin (task : Nat)
  /-- An attempt to start a server begins. -/
  | launch (attempt : Nat)
  /-- Whoever waits for a signal goes on. -/
  | wake (signal : Signal)
  /-- The pending request of a waiter that gave up is released. -/
  | release
  /-- A finished attempt is forgotten. -/
  | forget (attempt : Nat)
  /-- The call with a ticket hears of the end of an attempt. -/
  | joined (ticket : Nat)
  /-- The call with a ticket hears of the end of one of the attempts it waits for. -/
  | gathered (ticket : Nat)
  /-- A message of a server is delivered. -/
  | deliver (delivery : Delivery)
  deriving DecidableEq, Repr

/-- What a call of the client gives back. -/
inductive Answer where
  | nothing
  | session (id : Option String)
  | path (path : String)
  | availability (availability : Availability)
  | value (value : Json)
  | hover (hover : Option Hover)
  | locations (locations : Option (List Location))

/-- What can be seen of a client from outside. -/
inductive Effect where
  | logged (entry : LogEntry)
  /-- The process layer was called. -/
  | called (call : LayerCall)
  /-- An observer was told of an event. -/
  | told (observer : String) (first second : Json)
  /-- A call of the client ended. -/
  | finished (task : Nat) (outcome : Except Fault Answer)

/-- How far a call has got: it waits in a phase, or it has ended. -/
inductive Progress (φ α : Type) where
  | waits (phase : φ)
  | ends (outcome : Except Fault α)

namespace Progress

variable {φ ψ α β : Type}

/-- Changes the phase. -/
def inPhase (f : φ → ψ) : Progress φ α → Progress ψ α
  | .waits phase => .waits (f phase)
  | .ends outcome => .ends outcome

/-- Changes what is given back. -/
def map (f : α → β) : Progress φ α → Progress φ β
  | .waits phase => .waits phase
  | .ends outcome => .ends (outcome.map f)

end Progress

/-! ## The client -/

/-- What a client works with. -/
structure Setup (σ : Type) where
  layer : Layer σ
  surroundings : Surroundings
  servers : Servers

/-- A client over a process layer with states in `σ`. -/
structure Client (σ : Type) where
  layer : σ
  settings : Settings
  sessions : SessionRegistry
  pending : Pending
  /-- The number of the attempt under way for a language and a root. -/
  starting : Entries (String × String) Nat
  /-- All attempts by number. -/
  attempts : List Attempt
  routes : Routes
  status : StatusBoard
  diagnostics : DiagnosticStore
  audience : Audience
  bindings : List Binding
  /-- Whether the client hears the messages of servers. -/
  isListening : Bool
  /-- Whether the client is being closed. -/
  isClosing : Bool
  /-- Whether the store of diagnostics was subscribed. -/
  isAttached : Bool
  /-- The number of tickets that were given out. -/
  tickets : Nat
  /-- How many attempts the call with a ticket still waits for. -/
  gathers : Entries Nat Nat
  /-- The turns to come, the next one first. -/
  queue : List Turn
  /-- What could be seen up to now, the oldest first. -/
  history : List Effect

namespace Client

variable {σ : Type}

/-- A client that has done nothing yet. -/
def new (layer : σ) (settings : Settings) : Client σ where
  layer
  settings
  sessions := SessionRegistry.empty
  pending := Pending.empty settings.requestTimeout.seconds
  starting := []
  attempts := []
  routes := Routes.empty
  status := StatusBoard.empty
  diagnostics := DiagnosticStore.empty settings.diagnostics
  audience := Audience.empty
  bindings := []
  isListening := false
  isClosing := false
  isAttached := false
  tickets := 0
  gathers := []
  queue := []
  history := []

/-! ## Small changes -/

/-- Takes note of what can be seen. -/
def note (client : Client σ) (effect : Effect) : Client σ := { client with history := client.history ++ [effect] }

/-- Logs an entry. -/
def log (client : Client σ) (entry : LogEntry) : Client σ := client.note (.logged entry)

/-- Logs entries. -/
def logAll (client : Client σ) (entries : Log) : Client σ := entries.foldl log client

/-- Puts a turn at the end of the queue. -/
def push (client : Client σ) (turn : Turn) : Client σ := { client with queue := client.queue ++ [turn] }

/-- Puts turns at the end of the queue. -/
def pushAll (client : Client σ) (turns : List Turn) : Client σ := { client with queue := client.queue ++ turns }

/-- Changes the session with a number. -/
def changeSession (client : Client σ) (number : Nat) (f : Session → Session) : Client σ :=
  { client with sessions := client.sessions.modify number f }

/-- Brings the session with a number to a stage. -/
def setStage (client : Client σ) (number : Nat) (stage : SessionStage) : Client σ :=
  client.changeSession number fun session => { session with stage }

/-- Shows the status of the server of a session. -/
def setStatus (client : Client σ) (session : Session) (state : RunState) (error : Option String) : Client σ :=
  { client with status := client.status.set ⟨session.id, session.language, session.root, state, error⟩ }

/-- Changes the binding with a number. -/
def changeBinding (client : Client σ) (number : Nat) (f : Binding → Binding) : Client σ :=
  { client with bindings := client.bindings.modify number f }

/-- Takes over a new state of the pending requests; whoever waits for a promise that is settled now gets a turn. -/
def setPending (client : Client σ) (pending : Pending) : Client σ :=
  { client with pending }.pushAll ((client.pending.newlySettled pending).map fun index => .wake (.promise index))

/-! ## Calling the process layer -/

/-- Takes over what came of a call. -/
def afterCall {α : Type} (client : Client σ) (step : LayerStep σ α) : Client σ × Progress Nat α :=
  let client := { client with layer := step.layer }.pushAll (step.deliveries.map .deliver)
  match step.reply with
  | .waits => ({ client with tickets := client.tickets + 1 }, .waits client.tickets)
  | .returns answer => (client, .ends (.ok answer))
  | .raises fault => (client, .ends (.error fault))

/-- Makes a call; while it waits its phase is its ticket. -/
def ask (client : Client σ) (setup : Setup σ) (call : LayerCall) : Client σ × Progress Nat call.Answer :=
  let client := client.note (.called call)
  client.afterCall (setup.layer.call client.layer client.tickets call)

/-- Goes on with a call that waited, or gives it up. -/
def goOn (client : Client σ) (setup : Setup σ) (cancelled : Bool) (call : LayerCall) :
    Client σ × Progress Nat call.Answer :=
  if cancelled then (client, .ends (.error .cancelled))
  else client.afterCall (setup.layer.resume client.layer client.tickets call)

end Client

end LanguageSessions
