import LanguageSessions.Entries
import LanguageSessions.Number.Binary64

/-!
# The status of servers

What is shown about servers: the status of each one, the downloads that wait for the user, and how a download gets on.
-/

namespace LanguageSessions

/-- What a server is doing, as it is shown. -/
inductive RunState where
  | starting
  | running
  | stopped
  | error
  deriving DecidableEq, Repr

namespace RunState

/-- The name of a state. -/
def name : RunState → String
  | .starting => "starting"
  | .running => "running"
  | .stopped => "stopped"
  | .error => "error"

/-- The state with a name. -/
def ofName? (name : String) : Option RunState :=
  [RunState.starting, .running, .stopped, .error].find? fun state => state.name == name

end RunState

/-- The status of the server of a session. -/
structure ServerStatus where
  session : String
  language : String
  root : String
  state : RunState
  error : Option String
  deriving DecidableEq, Repr

/-- A server that the user may choose to download. -/
structure PendingDownload where
  language : String
  displayName : String
  server : String
  url : Option String
  deriving DecidableEq, Repr

/-- How a download gets on. -/
structure DownloadProgress where
  language : String
  status : String
  /-- The part that is done, between nought and one. -/
  progress : Option Binary64
  message : Option String
  deriving DecidableEq

/-- What is shown about servers. -/
structure StatusBoard where
  servers : Entries String ServerStatus
  downloads : List PendingDownload
  progress : Option DownloadProgress
  isDownloading : Bool

namespace StatusBoard

/-- Nothing to show. -/
def empty : StatusBoard := ⟨[], [], none, false⟩

/-- Puts a status in place of the one of the same session. -/
def set (board : StatusBoard) (status : ServerStatus) : StatusBoard :=
  { board with servers := board.servers.set status.session status }

/-- Drops the status of a session. -/
def remove (board : StatusBoard) (session : String) : StatusBoard :=
  { board with servers := board.servers.erase session }

/-- The status of a session. -/
def get? (board : StatusBoard) (session : String) : Option ServerStatus := board.servers.get? session

/-- The first status for a language and root. -/
def find? (board : StatusBoard) (language root : String) : Option ServerStatus :=
  board.servers.values.find? fun status => status.language == language && status.root == root

/-- Whether a download for a language waits for the user. -/
def awaitsDownload (board : StatusBoard) (language : String) : Bool :=
  board.downloads.any fun download => download.language == language

/-- Adds a download unless one for the same language waits already. -/
def addDownload (board : StatusBoard) (download : PendingDownload) : StatusBoard :=
  if board.awaitsDownload download.language then board
  else { board with downloads := board.downloads ++ [download] }

/-- Drops the download for a language. -/
def removeDownload (board : StatusBoard) (language : String) : StatusBoard :=
  { board with downloads := board.downloads.filter fun download => download.language != language }

/-- Drops all downloads. -/
def clearDownloads (board : StatusBoard) : StatusBoard := { board with downloads := [] }

/-- Takes note of how a download gets on; a completed one waits no longer. -/
def setProgress (board : StatusBoard) (progress : Option DownloadProgress) : StatusBoard :=
  match progress with
  | none => { board with progress := none }
  | some report =>
    let board :=
      { board with
        progress := some report, isDownloading := report.status == "downloading" || report.status == "extracting" }
    if report.status == "completed" then board.removeDownload report.language else board

end StatusBoard

end LanguageSessions
