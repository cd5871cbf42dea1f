import LanguageSessions.Client.Query
import LanguageSessions.Client.Stop

/-!
# Bindings

A binding ties a file in an editor to a session: it connects, opens and closes the document, and asks about it. A
binding without a session does nothing, but looks places up by way of the routes.
-/

namespace LanguageSessions

namespace Client

variable {σ : Type}

/-- Binds a file under a root; the number of the binding. -/
def bind (client : Client σ) (setup : Setup σ) (path root : String) : Client σ × Nat :=
  let binding : Binding :=
    ⟨path, normalizeRoot setup.surroundings root, setup.servers.languageOfPath path, none, none, false⟩
  ({ client with bindings := client.bindings ++ [binding] }, client.bindings.length)

/-! ## Connecting -/

/-- The session of a binding was started, or not; a fault of the client's own kinds is kept in the binding. -/
def afterConnect (client : Client σ) (number : Nat) (binding : Binding) (language : String) :
    Progress JoinPhase String → Client σ × Progress JoinPhase (Option String)
  | .waits join => (client, .waits join)
  | .ends (.ok session) =>
    let client := client.changeBinding number fun binding => { binding with session := some session }
    let client := { client with routes := client.routes.register binding.path ⟨session, language, binding.root⟩ }
    (client.log (.info ("Connected " ++ binding.path ++ " to LSP server: " ++ session)), .ends (.ok (some session)))
  | .ends (.error fault) =>
    if fault.isClient then
      let client := client.changeBinding number fun binding => { binding with error := some fault.message }
      (client.log (.error ("Failed to start server for " ++ binding.path ++ ": " ++ fault.message)), .ends (.ok none))
    else (client, .ends (.error fault))

/-- Starts or finds the session of a binding, if servers are used and there is one for its language. -/
def connect (client : Client σ) (setup : Setup σ) (number : Nat) (binding : Binding) :
    Client σ × Progress JoinPhase (Option String) :=
  match binding.language.filter setup.servers.supports with
  | none => (client, .ends (.ok none))
  | some language =>
    if !client.settings.enabled then (client, .ends (.ok none))
    else
      let client := client.changeBinding number fun binding => { binding with error := none }
      let (client, started) := client.start setup language binding.root
      client.afterConnect number binding language started

/-- Goes on with connecting a binding. -/
def resumeConnect (client : Client σ) (cancelled : Bool) (number : Nat) (binding : Binding) (phase : JoinPhase) :
    Client σ × Progress JoinPhase (Option String) :=
  let (client, started) := client.resumeJoin cancelled phase
  client.afterConnect number binding (binding.language.getD "") started

/-! ## The document -/

/-- The document of a binding was opened, or not. -/
def afterBindingOpen (client : Client σ) (number : Nat) :
    Progress NoticePhase Unit → Client σ × Progress NoticePhase Unit
  | .ends (.ok ()) => (client.changeBinding number fun binding => { binding with isOpen := true }, .ends (.ok ()))
  | opened => (client, opened)

/-- Opens the document of a binding. -/
def openBinding (client : Client σ) (setup : Setup σ) (number : Nat) (binding : Binding) (text : String) :
    Client σ × Progress NoticePhase Unit :=
  match binding.session, binding.language with
  | some session, some language =>
    let (client, opened) :=
      client.openDocument setup session binding.path ((Language.ofEditor language).getD language) text
    client.afterBindingOpen number opened
  | _, _ => (client, .ends (.error (.client "LSP server not connected")))

/-- The session of a binding, if its document is open. -/
def openSession? (binding : Binding) : Option String := if binding.isOpen then binding.session else none

/-- Sends a new text of the document of a binding, if it is open. -/
def updateBinding (client : Client σ) (setup : Setup σ) (binding : Binding) (text : String) :
    Client σ × Progress NoticePhase Unit :=
  match openSession? binding with
  | none => (client, .ends (.ok ()))
  | some session => client.changeDocument setup session binding.path text

/-- Drops the route of a binding and its session. -/
def leave (client : Client σ) (number : Nat) (binding : Binding) : Client σ :=
  { client with routes := client.routes.unregister binding.path }.changeBinding number fun binding =>
    { binding with session := none }

/-- The document of a binding was closed, or not; `leaving` tells whether the binding is disconnected then. -/
def afterBindingClose (client : Client σ) (number : Nat) (binding : Binding) (leaving : Bool) :
    Progress NoticePhase Unit → Client σ × Progress NoticePhase Unit
  | .ends (.ok ()) =>
    let client := client.changeBinding number fun binding => { binding with isOpen := false }
    (if leaving then client.leave number binding else client, .ends (.ok ()))
  | closed => (client, closed)

/-- Closes the document of a binding, if it is open, and disconnects the binding if it is leaving. -/
def closeBinding (client : Client σ) (setup : Setup σ) (number : Nat) (binding : Binding) (leaving : Bool) :
    Client σ × Progress NoticePhase Unit :=
  match openSession? binding with
  | none => (if leaving then client.leave number binding else client, .ends (.ok ()))
  | some session =>
    let (client, closed) := client.closeDocument setup session binding.path
    client.afterBindingClose number binding leaving closed

/-- Goes on with closing the document of a binding. -/
def resumeBindingClose (client : Client σ) (setup : Setup σ) (cancelled : Bool) (number : Nat) (binding : Binding)
    (leaving : Bool) (phase : NoticePhase) : Client σ × Progress NoticePhase Unit :=
  let (client, closed) := client.resumeDocumentClose setup cancelled binding.path phase
  client.afterBindingClose number binding leaving closed

/-! ## Asking -/

/-- Asks what there is to say about a place in the file of a binding. -/
def bindingHover (client : Client σ) (setup : Setup σ) (binding : Binding) (position : Position) :
    Client σ × Progress QueryPhase Answer :=
  match binding.session with
  | some session => client.hover setup session binding.path position
  | none => (client, .ends (.ok (.hover none)))

/-- Asks where the thing at a place in the file of a binding is defined. -/
def bindingDefinition (client : Client σ) (setup : Setup σ) (binding : Binding) (position : Position) :
    Client σ × Progress QueryPhase Answer :=
  match binding.session with
  | some session => client.definition setup session binding.path position
  | none => client.lookupDefinition setup binding.path position

/-- Asks where the thing at a place in the file of a binding is used. -/
def bindingReferences (client : Client σ) (setup : Setup σ) (binding : Binding) (position : Position) :
    Client σ × Progress QueryPhase Answer :=
  match binding.session with
  | some session => client.references setup session binding.path position true
  | none => client.lookupReferences setup binding.path position

/-- The diagnostics of the file of a binding, if any are to be shown. -/
def bindingDiagnostics (client : Client σ) (binding : Binding) : List Diagnostic :=
  if client.diagnostics.visibility.showDiagnostics then client.diagnostics.get binding.path else []

end Client

end LanguageSessions
