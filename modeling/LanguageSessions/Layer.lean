import LanguageSessions.Fault

/-!
# The process layer

What starts and stops the processes of servers and carries messages to them. The client only calls it; a call may return
or fail at once, or wait, and then it goes on when its ticket is called.
-/

namespace LanguageSessions

/-- What is known about the server of a language. -/
structure Availability where
  available : Bool
  installed : Bool
  canDownload : Bool
  installPath : Option String
  downloadUrl : Option String
  deriving DecidableEq, Repr

/-- How the start of a server went. -/
structure StartResult where
  session : String
  success : Bool
  error : Option String
  deriving DecidableEq, Repr

/-- What the process layer is asked for. -/
inductive LayerCall where
  /-- Whether the server of a language can be run. -/
  | check (language : String)
  /-- What is known about the server of a language. -/
  | inspect (language : String)
  /-- To download the server of a language. -/
  | download (language : String)
  /-- To start a server. -/
  | start (language root : String)
  /-- To stop the server of a session. -/
  | stop (session : String)
  /-- To hand a message to the server of a session. -/
  | send (session text : String)
  deriving DecidableEq, Repr

/-- What a call gives back. -/
@[reducible] def LayerCall.Answer : LayerCall → Type
  | .check _ => Bool
  | .inspect _ => Availability
  | .download _ => String
  | .start .. => StartResult
  | .stop _ => Unit
  | .send .. => Unit

/-- How far a call has got. -/
inductive Reply (α : Type) where
  /-- It waits until its ticket is called. -/
  | waits
  | returns (answer : α)
  | raises (fault : Fault)

/-- A message that a server sent. -/
structure Delivery where
  session : String
  text : String
  deriving DecidableEq, Repr

/-- The layer after a call was made or went on, and what came of it. -/
structure LayerStep (σ α : Type) where
  layer : σ
  reply : Reply α
  /-- The messages that are delivered as soon as everything else has had its turn. -/
  deliveries : List Delivery

/-- A process layer with states in `σ`. -/
structure Layer (σ : Type) where
  /-- Makes a call, with a ticket in case it has to wait. -/
  call : σ → Nat → (call : LayerCall) → LayerStep σ call.Answer
  /-- Goes on with a call whose ticket was called, with a ticket in case it has to wait again. -/
  resume : σ → Nat → (call : LayerCall) → LayerStep σ call.Answer

end LanguageSessions
