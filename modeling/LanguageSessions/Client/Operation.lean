import LanguageSessions.Client.Binding
import LanguageSessions.Client.Inbound

/-!
# Operations

The calls of the client that may have to wait, and the phases in which they do. An operation begins in one turn; while
it waits it is kept as an activity, which goes on in another turn.
-/

namespace LanguageSessions

/-- A call of the client that may have to wait. Bindings are given by number. -/
inductive Operation where
  /-- Begins to listen to servers, and attaches what comes with them if that belongs to the scope. -/
  | enter (scope : Scope)
  | close (scope : Scope)
  /-- Opens a scope, starts a session in it, and closes the scope again whatever became of that. -/
  | visit (scope : Scope) (language root : String)
  | start (language root : String)
  | stop (session : String)
  | stopAll
  | openDocument (session path language text : String)
  | changeDocument (session path text : String)
  | closeDocument (session path : String)
  | request (session method : String) (params : Json) (delay : Option Binary64)
  | notify (session method : String) (params : Json)
  | hover (session path : String) (position : Position)
  | definition (session path : String) (position : Position)
  | references (session path : String) (position : Position) (withDeclaration : Bool)
  | symbols (session path : String)
  | inspect (language : String)
  | download (language : String)
  | lookupDefinition (path : String) (position : Position)
  | lookupReferences (path : String) (position : Position)
  | connect (binding : Nat)
  | disconnect (binding : Nat)
  | openBinding (binding : Nat) (text : String)
  | updateBinding (binding : Nat) (text : String)
  | closeBinding (binding : Nat)
  | bindingHover (binding : Nat) (position : Position)
  | bindingDefinition (binding : Nat) (position : Position)
  | bindingReferences (binding : Nat) (position : Position)

/-- What a notification is sent for. -/
inductive NoticeUse where
  /-- For itself. -/
  | plain
  /-- To close the document at a path. -/
  | closing (path : String)
  /-- To open the document of a binding. -/
  | openingBinding (binding : Nat)
  /-- To close the document of a binding, which may be about to leave. -/
  | closingBinding (binding : Nat) (leaving : Bool)
  deriving DecidableEq, Repr

/-- An operation that waits. -/
inductive Activity where
  | joining (phase : JoinPhase)
  | connecting (binding : Nat) (phase : JoinPhase)
  | stopping (phase : StopPhase)
  | stoppingAll (phase : StopAllPhase)
  | closing (scope : Scope) (phase : ClosePhase)
  /-- A visit that starts its session. -/
  | arriving (scope : Scope) (phase : JoinPhase)
  /-- A visit that closes its scope; what the start came to is kept. -/
  | departing (scope : Scope) (started : Except Fault String) (phase : ClosePhase)
  | noticing (use : NoticeUse) (phase : NoticePhase)
  | requesting (phase : RequestPhase)
  | querying (phase : QueryPhase)
  | inspecting (ticket : Nat) (language : String)
  | downloading (ticket : Nat) (language : String)

/-- What an activity waits for. -/
def Activity.signal : Activity → Signal
  | .joining phase | .connecting _ phase | .arriving _ phase => phase.signal
  | .stopping phase => phase.signal
  | .stoppingAll phase => phase.signal
  | .closing _ phase | .departing _ _ phase => phase.signal
  | .noticing _ phase => phase.signal
  | .requesting phase => phase.signal
  | .querying phase => phase.signal
  | .inspecting ticket _ | .downloading ticket _ => .ticket ticket

/-- The attempts that an activity waits for as one, so that they are given up with it. -/
def Activity.gathered : Activity → Option (List Nat)
  | .closing _ (.gathering _ attempts) | .departing _ _ (.gathering _ attempts) => some attempts
  | _ => none

namespace Client

variable {σ : Type}

/-! ## Opening, closing and visiting -/

/-- Opens a scope. -/
def openScope (client : Client σ) : Scope → Client σ
  | .sessions => client.listen
  | .everything =>
    let client := client.listen
    if client.isAttached then client
    else
      { client with audience := client.audience.modify .diagnostics (·.subscribe .store), isAttached := true }

/-- A visit closed its scope, or not. -/
def afterDeparture (client : Client σ) (scope : Scope) (started : Except Fault String) :
    Progress ClosePhase Unit → Client σ × Progress Activity Answer
  | .waits phase => (client, .waits (.departing scope started phase))
  | .ends (.error fault) => (client, .ends (.error fault))
  | .ends (.ok ()) => (client, .ends (started.map fun session => .session (some session)))

/-- A visit started its session, or not: its scope is closed. -/
def afterArrival (client : Client σ) (setup : Setup σ) (scope : Scope) :
    Progress JoinPhase String → Client σ × Progress Activity Answer
  | .waits phase => (client, .waits (.arriving scope phase))
  | .ends started =>
    let (client, closed) := client.close setup scope
    client.afterDeparture scope started closed

/-- Opens a scope and starts a session in it. -/
def visit (client : Client σ) (setup : Setup σ) (scope : Scope) (language root : String) :
    Client σ × Progress Activity Answer :=
  let (client, started) := (client.openScope scope).start setup language root
  client.afterArrival setup scope started

/-! ## Servers -/

/-- It is known what there is of a server, or not. -/
def afterServerInspection (client : Client σ) (language : String) :
    Progress Nat Availability → Client σ × Progress Activity Answer
  | .waits ticket => (client, .waits (.inspecting ticket language))
  | .ends outcome => (client, .ends (outcome.map .availability))

/-- A server was downloaded, or not. -/
def afterDownload (client : Client σ) (language : String) :
    Progress Nat String → Client σ × Progress Activity Answer
  | .waits ticket => (client, .waits (.downloading ticket language))
  | .ends (.error fault) => (client, .ends (.error fault))
  | .ends (.ok path) =>
    ({ client with status := client.status.removeDownload language }, .ends (.ok (.path path)))

/-- Downloads the server of a language. -/
def download (client : Client σ) (setup : Setup σ) (language : String) : Client σ × Progress Activity Answer :=
  let (client, got) :=
    (client.log (.info ("Downloading server for " ++ language))).ask setup (.download language)
  client.afterDownload language got

/-! ## Beginning -/

/-- Turns the progress of a part into that of an operation which gives back nothing. -/
def silently {φ : Type} (activity : φ → Activity) (part : Client σ × Progress φ Unit) :
    Client σ × Progress Activity Answer :=
  (part.1, (part.2.inPhase activity).map fun _ => .nothing)

/-- Turns the progress of a start into that of an operation. -/
def withSession (activity : JoinPhase → Activity) (part : Client σ × Progress JoinPhase String) :
    Client σ × Progress Activity Answer :=
  (part.1, (part.2.inPhase activity).map fun session => .session (some session))

/-- Turns the progress of a connection into that of an operation. -/
def connected (binding : Nat) (part : Client σ × Progress JoinPhase (Option String)) :
    Client σ × Progress Activity Answer :=
  (part.1, (part.2.inPhase (.connecting binding)).map .session)

/-- Turns the progress of a request into that of an operation. -/
def withValue (part : Client σ × Progress RequestPhase Json) : Client σ × Progress Activity Answer :=
  (part.1, (part.2.inPhase .requesting).map .value)

/-- Turns the progress of a query into that of an operation. -/
def queried (part : Client σ × Progress QueryPhase Answer) : Client σ × Progress Activity Answer :=
  (part.1, part.2.inPhase .querying)

/-- Does something with a binding; nothing is done if there is no such binding. -/
def withBinding (client : Client σ) (number : Nat)
    (f : Binding → Client σ × Progress Activity Answer) : Client σ × Progress Activity Answer :=
  match client.bindings[number]? with
  | some binding => f binding
  | none => (client, .ends (.ok .nothing))

/-- Begins an operation. -/
def beginOperation (client : Client σ) (setup : Setup σ) : Operation → Client σ × Progress Activity Answer
  | .enter scope => (client.openScope scope, .ends (.ok .nothing))
  | .close scope => silently (.closing scope) (client.close setup scope)
  | .visit scope language root => client.visit setup scope language root
  | .start language root => withSession .joining (client.start setup language root)
  | .stop session => silently .stopping (client.stop setup session)
  | .stopAll => silently .stoppingAll (client.stopAll setup)
  | .openDocument session path language text =>
    silently (.noticing .plain) (client.openDocument setup session path language text)
  | .changeDocument session path text =>
    silently (.noticing .plain) (client.changeDocument setup session path text)
  | .closeDocument session path => silently (.noticing (.closing path)) (client.closeDocument setup session path)
  | .request session method params delay => withValue (client.requestIfPrintable setup session method params delay)
  | .notify session method params => silently (.noticing .plain) (client.notifyIfPrintable setup session method params)
  | .hover session path position => queried (client.hover setup session path position)
  | .definition session path position => queried (client.definition setup session path position)
  | .references session path position withDeclaration =>
    queried (client.references setup session path position withDeclaration)
  | .symbols session path => queried (client.symbols setup session path)
  | .inspect language =>
    let (client, known) := client.ask setup (.inspect language)
    client.afterServerInspection language known
  | .download language => client.download setup language
  | .lookupDefinition path position => queried (client.lookupDefinition setup path position)
  | .lookupReferences path position => queried (client.lookupReferences setup path position)
  | .connect number => client.withBinding number fun binding => connected number (client.connect setup number binding)
  | .disconnect number =>
    client.withBinding number fun binding =>
      silently (.noticing (.closingBinding number true)) (client.closeBinding setup number binding true)
  | .openBinding number text =>
    client.withBinding number fun binding =>
      silently (.noticing (.openingBinding number)) (client.openBinding setup number binding text)
  | .updateBinding number text =>
    client.withBinding number fun binding => silently (.noticing .plain) (client.updateBinding setup binding text)
  | .closeBinding number =>
    client.withBinding number fun binding =>
      silently (.noticing (.closingBinding number false)) (client.closeBinding setup number binding false)
  | .bindingHover number position =>
    client.withBinding number fun binding => queried (client.bindingHover setup binding position)
  | .bindingDefinition number position =>
    client.withBinding number fun binding => queried (client.bindingDefinition setup binding position)
  | .bindingReferences number position =>
    client.withBinding number fun binding => queried (client.bindingReferences setup binding position)

/-! ## Going on -/

/-- Goes on with an activity that sends a notification. -/
def resumeUse (client : Client σ) (setup : Setup σ) (cancelled : Bool) (phase : NoticePhase) :
    NoticeUse → Client σ × Progress NoticePhase Unit
  | .plain => client.resumeNotice setup cancelled phase
  | .closing path => client.resumeDocumentClose setup cancelled path phase
  | .openingBinding number =>
    let (client, opened) := client.resumeNotice setup cancelled phase
    client.afterBindingOpen number opened
  | .closingBinding number leaving =>
    match client.bindings[number]? with
    | some binding => client.resumeBindingClose setup cancelled number binding leaving phase
    | none => (client, .ends (.ok ()))

/-- Goes on with an activity. -/
def resumeActivity (client : Client σ) (setup : Setup σ) (cancelled : Bool) :
    Activity → Client σ × Progress Activity Answer
  | .joining phase => withSession .joining (client.resumeJoin cancelled phase)
  | .connecting number phase =>
    client.withBinding number fun binding =>
      connected number (client.resumeConnect cancelled number binding phase)
  | .stopping phase => silently .stopping (client.resumeStop setup cancelled phase)
  | .stoppingAll phase => silently .stoppingAll (client.resumeStopAll setup cancelled phase)
  | .closing scope phase => silently (.closing scope) (client.resumeClose setup cancelled scope phase)
  | .arriving scope phase =>
    let (client, started) := client.resumeJoin cancelled phase
    client.afterArrival setup scope started
  | .departing scope started phase =>
    let (client, closed) := client.resumeClose setup cancelled scope phase
    client.afterDeparture scope started closed
  | .noticing use phase => silently (.noticing use) (client.resumeUse setup cancelled phase use)
  | .requesting phase => withValue (client.resumeRequest setup cancelled phase)
  | .querying phase => queried (client.resumeQuery setup cancelled phase)
  | .inspecting _ language =>
    let (client, known) := client.goOn setup cancelled (.inspect language)
    client.afterServerInspection language known
  | .downloading _ language =>
    let (client, got) := client.goOn setup cancelled (.download language)
    client.afterDownload language got

end Client

end LanguageSessions
