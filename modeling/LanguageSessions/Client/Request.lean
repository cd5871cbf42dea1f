import LanguageSessions.Client.Basic

/-!
# Requests and notifications

How messages are handed to the process layer. A notification is done once it was handed over; a request then waits for
its promise. A request that cannot be handed over ends through its promise as well.
-/

namespace LanguageSessions

/-- A message on its way to the server of a session. -/
structure Outgoing where
  session : String
  method : String
  text : String
  deriving DecidableEq, Repr

namespace Outgoing

/-- The call that hands the message over. -/
def call (message : Outgoing) : LayerCall := .send message.session message.text

/-- The fault of a message that could not be handed over. -/
def failed (message : Outgoing) (cause : Fault) : Fault :=
  .transport ("Failed to send " ++ message.method ++ ": " ++ cause.message)

end Outgoing

/-- A notification that is being handed over, under a ticket. -/
structure NoticePhase where
  ticket : Nat
  message : Outgoing
  deriving DecidableEq, Repr

/-- How far a request has got. -/
inductive RequestPhase where
  /-- It is being handed over, under a ticket. -/
  | sending (ticket : Nat) (id : RequestId) (promise : Nat) (message : Outgoing)
  /-- It waits for its response. -/
  | waiting (promise : Nat)
  deriving DecidableEq, Repr

/-- What a notification waits for. -/
def NoticePhase.signal (phase : NoticePhase) : Signal := .ticket phase.ticket

/-- What a request waits for. -/
def RequestPhase.signal : RequestPhase → Signal
  | .sending ticket _ _ _ => .ticket ticket
  | .waiting promise => .promise promise

namespace Client

variable {σ : Type}

/-! ## Notifications -/

/-- What becomes of a notification. -/
def afterNotice (client : Client σ) (message : Outgoing) : Progress Nat Unit → Client σ × Progress NoticePhase Unit
  | .waits ticket => (client, .waits ⟨ticket, message⟩)
  | .ends (.ok ()) => (client, .ends (.ok ()))
  | .ends (.error .cancelled) => (client, .ends (.error .cancelled))
  | .ends (.error cause) => (client, .ends (.error (message.failed cause)))

/-- Sends a notification. -/
def notify (client : Client σ) (setup : Setup σ) (session method : String) (params : Json) :
    Client σ × Progress NoticePhase Unit :=
  let message : Outgoing := ⟨session, method, (Message.notice method params).print⟩
  let (client, sent) := client.ask setup message.call
  client.afterNotice message sent

/-- Sends a notification with parameters from outside, unless they cannot be written. -/
def notifyIfPrintable (client : Client σ) (setup : Setup σ) (session method : String) (params : Json) :
    Client σ × Progress NoticePhase Unit :=
  if params.isPrintable then client.notify setup session method params
  else (client, .ends (.error .longInteger))

/-- Goes on with a notification. -/
def resumeNotice (client : Client σ) (setup : Setup σ) (cancelled : Bool) (phase : NoticePhase) :
    Client σ × Progress NoticePhase Unit :=
  let (client, sent) := client.goOn setup cancelled phase.message.call
  client.afterNotice phase.message sent

/-! ## Requests -/

/-- Waits for a promise, unless it is settled. -/
def awaitPromise (client : Client σ) (promise : Nat) : Client σ × Progress RequestPhase Json :=
  match client.pending.outcome? promise with
  | some outcome => (client, .ends outcome)
  | none => (client, .waits (.waiting promise))

/-- What becomes of a request that was registered. -/
def afterSend (client : Client σ) (id : RequestId) (promise : Nat) (message : Outgoing) :
    Progress Nat Unit → Client σ × Progress RequestPhase Json
  | .waits ticket => (client, .waits (.sending ticket id promise message))
  | .ends (.ok ()) => client.awaitPromise promise
  | .ends (.error .cancelled) => (client, .ends (.error .cancelled))
  | .ends (.error cause) =>
    let (pending, _, entries) := client.pending.reject id (message.failed cause)
    ((client.setPending pending).logAll entries).awaitPromise promise

/-- Sends a request to a registered session and waits for its response. -/
def request (client : Client σ) (setup : Setup σ) (session method : String) (params : Json)
    (delay : Option Binary64) : Client σ × Progress RequestPhase Json :=
  if !client.sessions.has session then (client, .ends (.error (.notInitialized session)))
  else
    let (pending, id) := client.pending.nextId
    let message : Outgoing := ⟨session, method, (Message.request id.toJson method params).print⟩
    match pending.register id method delay (some session) with
    | .error fault => ({ client with pending }, .ends (.error fault))
    | .ok (pending, promise) =>
      let (client, sent) := { client with pending }.ask setup message.call
      client.afterSend id promise message sent

/-- Sends a request with parameters from outside. Those that cannot be written are found when the request has got its
identifier, and before it is registered. -/
def requestIfPrintable (client : Client σ) (setup : Setup σ) (session method : String) (params : Json)
    (delay : Option Binary64) : Client σ × Progress RequestPhase Json :=
  if client.sessions.has session && !params.isPrintable then
    ({ client with pending := client.pending.nextId.1 }, .ends (.error .longInteger))
  else client.request setup session method params delay

/-- Goes on with a request. -/
def resumeRequest (client : Client σ) (setup : Setup σ) (cancelled : Bool) :
    RequestPhase → Client σ × Progress RequestPhase Json
  | .sending _ id promise message =>
    let (client, sent) := client.goOn setup cancelled message.call
    client.afterSend id promise message sent
  | .waiting promise =>
    if cancelled then (client, .ends (.error .cancelled)) else client.awaitPromise promise

end Client

end LanguageSessions
