import LanguageSessions.Entries
import LanguageSessions.Json.Basic

/-!
# Sessions

A session is one running server for a language and the root of a project. It goes from stage to stage and remembers the
version of each document that is open in it.
-/

namespace LanguageSessions

/-- The stages of a session. -/
inductive SessionStage where
  | starting
  | initializing
  | ready
  | shuttingDown
  | stopped
  deriving DecidableEq, Repr

namespace SessionStage

/-- The name of a stage. -/
def name : SessionStage → String
  | .starting => "starting"
  | .initializing => "initializing"
  | .ready => "ready"
  | .shuttingDown => "shutting_down"
  | .stopped => "stopped"

/-- The stage with a name. -/
def ofName? (name : String) : Option SessionStage :=
  [SessionStage.starting, .initializing, .ready, .shuttingDown, .stopped].find? fun stage => stage.name == name

/-- Whether a session at this stage is about to serve or serves already. -/
def isLive : SessionStage → Bool
  | .initializing | .ready => true
  | _ => false

/-- Whether a session at this stage is being ended or has ended. -/
def isEnding : SessionStage → Bool
  | .shuttingDown | .stopped => true
  | _ => false

end SessionStage

/-- One running server. -/
structure Session where
  id : String
  language : String
  root : String
  stage : SessionStage
  /-- What the server says it can do. -/
  capabilities : Json
  /-- The version of each open document, by URI. -/
  versions : Entries String Int

namespace Session

/-- A session that has just begun. -/
def begin (id language root : String) : Session := ⟨id, language, root, .initializing, .object [], []⟩

/-- Whether the session serves. -/
def isReady (session : Session) : Bool := session.stage == .ready

/-- Opens a document at version one. -/
def openDocument (session : Session) (uri : String) : Session :=
  { session with versions := session.versions.set uri 1 }

/-- The version after the one recorded for a document, and whether one was recorded. -/
def nextVersion (session : Session) (uri : String) : Int × Bool :=
  match session.versions.get? uri with
  | some version => (version + 1, true)
  | none => (1, false)

/-- Moves a document to its next version. -/
def bumpVersion (session : Session) (uri : String) : Session :=
  { session with versions := session.versions.set uri (session.nextVersion uri).1 }

/-- Forgets a document. -/
def closeDocument (session : Session) (uri : String) : Session :=
  { session with versions := session.versions.erase uri }

/-- Forgets all documents. -/
def closeAll (session : Session) : Session := { session with versions := [] }

end Session

end LanguageSessions
