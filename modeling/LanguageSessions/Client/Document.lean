import LanguageSessions.Client.Request
import LanguageSessions.Uri

/-!
# Documents

Opening, changing and closing the documents of a session that is ready. The version of a document is recorded before its
message is handed over.
-/

namespace LanguageSessions.Client

variable {σ : Type}

/-- The number of the session with an identifier, and the session, if it is ready. -/
def ready? (client : Client σ) (id : String) : Option (Nat × Session) :=
  match client.sessions.number? id, client.sessions.get? id with
  | some number, some session => if session.isReady then some (number, session) else none
  | _, _ => none

/-- A document as messages refer to it. -/
def documentId (uri : String) : Json := .object [("uri", .string uri)]

/-- Opens a document at version one. -/
def openDocument (client : Client σ) (setup : Setup σ) (id path language text : String) :
    Client σ × Progress NoticePhase Unit :=
  match client.ready? id with
  | none => (client, .ends (.error (.notInitialized id)))
  | some (number, _) =>
    let uri := Uri.ofPath path
    let client := client.changeSession number fun session => session.openDocument uri
    client.notify setup id "textDocument/didOpen"
      (.object
        [("textDocument", .object
            [("uri", .string uri), ("languageId", .string language), ("version", .int 1), ("text", .string text)])])

/-- The entry for a change of a document that was not opened. -/
def changedBeforeOpened (path : String) (version : Int) : LogEntry :=
  .warning ("Change for " ++ path ++ " before it was opened, sending version "
    ++ String.ofList (Text.intDigits version))

/-- Sends the text of a document under its next version. -/
def changeDocument (client : Client σ) (setup : Setup σ) (id path text : String) :
    Client σ × Progress NoticePhase Unit :=
  match client.ready? id with
  | none => (client, .ends (.error (.notInitialized id)))
  | some (number, session) =>
    let uri := Uri.ofPath path
    let (version, wasOpen) := session.nextVersion uri
    let client := client.changeSession number fun session => session.bumpVersion uri
    let client := if wasOpen then client else client.log (changedBeforeOpened path version)
    client.notify setup id "textDocument/didChange"
      (.object
        [("textDocument", .object [("uri", .string uri), ("version", .int version)]),
         ("contentChanges", .array [.object [("text", .string text)]])])

/-- The closing of a document was sent, or not; that it could not be sent is only logged. -/
def afterDocumentClose (client : Client σ) (path : String) :
    Progress NoticePhase Unit → Client σ × Progress NoticePhase Unit
  | .waits notice => (client, .waits notice)
  | .ends (.ok ()) => (client, .ends (.ok ()))
  | .ends (.error fault) =>
    if fault.isClient then
      (client.log (.warning ("Failed to close " ++ path ++ ": " ++ fault.message)), .ends (.ok ()))
    else (client, .ends (.error fault))

/-- Closes a document; nothing happens for a session that is not ready. -/
def closeDocument (client : Client σ) (setup : Setup σ) (id path : String) : Client σ × Progress NoticePhase Unit :=
  match client.ready? id with
  | none => (client, .ends (.ok ()))
  | some (number, _) =>
    let uri := Uri.ofPath path
    let client := client.changeSession number fun session => session.closeDocument uri
    let (client, told) :=
      client.notify setup id "textDocument/didClose" (.object [("textDocument", documentId uri)])
    client.afterDocumentClose path told

/-- Goes on with closing a document. -/
def resumeDocumentClose (client : Client σ) (setup : Setup σ) (cancelled : Bool) (path : String)
    (phase : NoticePhase) : Client σ × Progress NoticePhase Unit :=
  let (client, told) := client.resumeNotice setup cancelled phase
  client.afterDocumentClose path told

/-- The version of a document in a session. -/
def version? (client : Client σ) (id path : String) : Option Int :=
  (client.sessions.get? id).bind fun session => session.versions.get? (Uri.ofPath path)

end LanguageSessions.Client
