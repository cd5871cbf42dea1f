import LanguageSessions.Client.Basic

/-!
# Messages of servers

A response ends the request it belongs to. A notification is told to all who listen to notifications, and then, if it
publishes diagnostics, to those who listen to diagnostics. A message that cannot be read is logged.
-/

namespace LanguageSessions.Client

variable {σ : Type}

/-! ## Telling -/

/-- An observer takes note of an event and then does what it does; the flag tells whether it fails. -/
def tellObserver (client : Client σ) (observer : Observer) (first second : Json) : Client σ × Bool :=
  let client := client.note (.told observer.name first second)
  match observer.conduct with
  | .listen => (client, false)
  | .fail => (client, true)
  | .unsubscribe name =>
    match client.audience.unsubscribe? name with
    | some audience => ({ client with audience }, false)
    | none => (client, true)

/-- The store takes in published diagnostics; the flag tells whether it fails. -/
def tellStore (client : Client σ) (uri : String) (items : Json) : Client σ × Bool :=
  let (entries, pushed) := client.diagnostics.push uri items
  match pushed with
  | .ok diagnostics => ({ client.logAll entries with diagnostics }, false)
  | .error _ => (client.logAll entries, true)

/-- One who listens is told of an event. -/
def tellListener (first second : Json) (client : Client σ) : Listener → Client σ × Bool
  | .store =>
    match first with
    | .string uri => client.tellStore uri second
    | _ => (client, true)
  | .observer number =>
    match client.audience.observers[number]? with
    | some observer => client.tellObserver observer first second
    | none => (client, false)

/-- All who listen to a topic are told of an event. -/
def tell (client : Client σ) (topic : Topic) (first second : Json) : Client σ :=
  Subscribers.emit (tellListener first second) (fun client => client.log (Subscribers.failed topic.name)) client
    (client.audience.of topic)

/-! ## Responses -/

/-- A response with a result ends its request. -/
def resolve (client : Client σ) (id : RequestId) (result : Json) : Client σ :=
  let (pending, _, entries) := client.pending.resolve id result
  (client.setPending pending).logAll entries

/-- A fault ends a request. -/
def reject (client : Client σ) (id : RequestId) (fault : Fault) : Client σ :=
  let (pending, _, entries) := client.pending.reject id fault
  (client.setPending pending).logAll entries

/-- The text of an error that a server answered with. -/
def errorText (error : Members) : String := ((Members.get? error "message").getD (.string "Unknown error")).display

/-- The entry for an error that answers a request. -/
def answeredWithError (method : String) (id : RequestId) (text : String) : LogEntry :=
  .warning ("Server returned error for " ++ method ++ " (" ++ id.display ++ "): " ++ text)

/-- A response with an error ends its request. -/
def refuse (client : Client σ) (id : RequestId) (error : Members) : Client σ :=
  let text := errorText error
  let client :=
    match client.pending.methodOf? id with
    | some method => client.log (answeredWithError method id text)
    | none => client
  client.reject id (.protocol text ((Members.get? error "code").getD .null))

/-! ## Notifications -/

/-- The method of the notification that publishes diagnostics. -/
def publishMethod : String := "textDocument/publishDiagnostics"

/-- The URI and the items of published diagnostics; none if they have no URI. -/
def published? (params : Json) : Option (String × Json) :=
  match params with
  | .object members =>
    match Members.get? members "uri" with
    | some (.string uri) =>
      let items := (Members.get? members "diagnostics").getD .null
      some (uri, if items.isTruthy then items else .array [])
    | _ => none
  | _ => none

/-- A notification of a session's server is passed on. -/
def hearNotification (client : Client σ) (session method : String) (params : Json) : Client σ :=
  let client := client.tell .notifications (.string method) params
  if method != publishMethod then client
  else
    match published? params with
    | some (uri, items) => client.tell .diagnostics (.string uri) items
    | none => client.log (.error ("Malformed diagnostics notification from " ++ session))

/-! ## Messages -/

/-- Takes in a message; none if it holds an integer that is too long to be read. -/
def hear? (client : Client σ) (session text : String) : Option (Client σ) :=
  match Message.decode text with
  | .error .longInteger => none
  | .error e =>
    some (client.log (.error ("Failed to parse message from " ++ session ++ ": " ++ (e.fault text).message)))
  | .ok (.notification method params _) => some (client.hearNotification session method params)
  | .ok (.response id result none) => some (client.resolve id result)
  | .ok (.response id _ (some error)) => some (client.refuse id error)

/-- Takes in a message that the process layer delivers, if the client listens. -/
def hear (client : Client σ) (delivery : Delivery) : Client σ :=
  if client.isListening then (client.hear? delivery.session delivery.text).getD client else client

end LanguageSessions.Client
