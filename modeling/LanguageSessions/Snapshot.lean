import LanguageSessions.Client.Operation
import LanguageSessions.Diagnostic.Counts

/-!
# Snapshots

The values of the library as JSON, in the form in which they are shown to other programs, and the state of a client part
by part.
-/

namespace LanguageSessions

namespace Json

/-- A value that may be missing; null if it is. -/
def optional {α : Type} (write : α → Json) : Option α → Json
  | some a => write a
  | none => .null

/-- A text that may be missing. -/
def optionalString (text : Option String) : Json := optional .string text

/-- A list of texts. -/
def strings (texts : List String) : Json := .array (texts.map .string)

/-- A list of values. -/
def list {α : Type} (write : α → Json) (values : List α) : Json := .array (values.map write)

end Json

open Json (optional optionalString strings list)

/-! ## What servers say -/

/-- A link as a value. -/
def LocationLink.toJson (link : LocationLink) : Json :=
  .object
    [("target_uri", link.targetUri), ("target_range", link.targetRange.toJson),
     ("target_selection_range", link.targetSelectionRange.toJson),
     ("origin_selection_range", optional Range.toJson link.originSelectionRange)]

/-- A hover as a value. -/
def Hover.toJson (hover : Hover) : Json :=
  .object [("contents", .string hover.contents), ("range", optional Range.toJson hover.range)]

/-- A published diagnostic as a value. -/
def PublishedDiagnostic.toJson (diagnostic : PublishedDiagnostic) : Json :=
  .object
    [("range", diagnostic.range.toJson), ("message", .string diagnostic.message), ("severity", diagnostic.severity),
     ("code", diagnostic.code), ("source", diagnostic.source), ("data", .object [])]

/-- A position in a kept diagnostic as a value. -/
def Diagnostic.place (position : Position) : Json :=
  .object [("line", .int position.line), ("column", .int position.character)]

/-- A kept diagnostic as a value. -/
def Diagnostic.toJson (diagnostic : Diagnostic) : Json :=
  .object
    [("id", .string diagnostic.id), ("severity", .string diagnostic.severity.name),
     ("message", .string diagnostic.message),
     ("range", .object [("start", place diagnostic.range.start), ("end", place diagnostic.range.stop)]),
     ("source", .string "lsp"), ("code", optionalString diagnostic.code)]

/-- Counts as a value. -/
def SeverityCounts.toJson (counts : SeverityCounts) : Json :=
  .object
    [("errors", .int counts.errors), ("warnings", .int counts.warnings), ("info", .int counts.info),
     ("hints", .int counts.hints)]

/-- A message as a value. -/
def Message.toJson : Message → Json
  | .response id result error =>
    .object
      [("type", .string "response"), ("id", id.toJson), ("result", result), ("error", optional .object error),
       ("is_error", .bool error.isSome)]
  | .notification method params id =>
    .object [("type", .string "notification"), ("method", .string method), ("params", params), ("id", id)]

/-! ## Servers and settings -/

/-- A server as a value. -/
def Server.toJson (server : Server) : Json :=
  .object
    [("name", .string server.name), ("language_id", .string server.languageId),
     ("file_extensions", strings server.fileExtensions), ("command", strings server.command),
     ("args", strings server.arguments), ("initialization_options", .object server.initializationOptions),
     ("settings", .object server.settings), ("root_patterns", strings server.rootPatterns),
     ("install_command", optionalString server.installCommand)]

/-- Which severities are kept, as a value. -/
def Visibility.toJson (visibility : Visibility) : Json :=
  .object
    [("show_diagnostics", .bool visibility.showDiagnostics), ("show_errors", .bool visibility.showErrors),
     ("show_warnings", .bool visibility.showWarnings), ("show_info", .bool visibility.showInfo),
     ("show_hints", .bool visibility.showHints)]

/-- Settings as a value. -/
def Settings.toJson (settings : Settings) : Json :=
  .object
    [("enabled", .bool settings.enabled), ("request_timeout", .float settings.requestTimeout.seconds),
     ("shutdown_timeout", .float settings.shutdownTimeout.seconds), ("client_name", .string settings.clientName),
     ("client_version", .string settings.clientVersion), ("diagnostics", settings.diagnostics.toJson)]

/-- What is known about a server, as a value. -/
def Availability.toJson (availability : Availability) : Json :=
  .object
    [("available", .bool availability.available), ("installed", .bool availability.installed),
     ("can_download", .bool availability.canDownload), ("install_path", optionalString availability.installPath),
     ("download_url", optionalString availability.downloadUrl)]

/-- How a start went, as a value. -/
def StartResult.toJson (result : StartResult) : Json :=
  .object
    [("session_id", .string result.session), ("success", .bool result.success), ("error", optionalString result.error)]

/-! ## Sessions, routes and statuses -/

/-- A session as a row. -/
def Session.toJson (session : Session) : Json :=
  .array
    [.string session.id, .string session.language, .string session.root, .string session.stage.name,
     .object (session.versions.map fun entry => (entry.1, .int entry.2))]

/-- A route as a value. -/
def Route.toJson (route : Route) : Json :=
  .object
    [("session_id", .string route.session), ("language", .string route.language), ("root_path", .string route.root)]

/-- The routes of files as rows. -/
def Routes.fileRows (routes : Routes) : Json :=
  list (fun entry => strings [entry.1, entry.2.session, entry.2.language, entry.2.root]) routes.byFile

/-- The languages for which there are roots, in the order of their characters. -/
def Routes.languages (routes : Routes) : List String :=
  (routes.byRoot.keys.map Prod.snd).eraseDups.mergeSort fun a b => decide (a ≤ b)

/-- The sessions of roots as rows, language by language. -/
def Routes.rootRows (routes : Routes) : Json :=
  .array (routes.languages.flatMap fun language =>
    (routes.byRoot.filter fun entry => entry.1.2 == language).map fun entry =>
      strings [entry.1.1, language, entry.2])

/-- A status as a value. -/
def ServerStatus.toJson (status : ServerStatus) : Json :=
  .object
    [("session_id", .string status.session), ("language", .string status.language), ("root_path", .string status.root),
     ("status", .string status.state.name), ("error", optionalString status.error)]

/-- A status as a row. -/
def ServerStatus.row (status : ServerStatus) : Json :=
  .array
    [.string status.session, .string status.language, .string status.root, .string status.state.name,
     optionalString status.error]

/-- A download that waits for the user, as a value. -/
def PendingDownload.toJson (download : PendingDownload) : Json :=
  .object
    [("language", .string download.language), ("language_display_name", .string download.displayName),
     ("server_name", .string download.server), ("download_url", optionalString download.url)]

/-- How a download gets on, as a value. -/
def DownloadProgress.toJson (report : DownloadProgress) : Json :=
  .object
    [("language", .string report.language), ("status", .string report.status),
     ("progress", optional .float report.progress), ("message", optionalString report.message)]

/-! ## The client -/

/-- The pending requests as rows. -/
def Pending.rows (pending : Pending) : Json :=
  list (fun entry => .array [entry.1.toJson, .string entry.2.method, optionalString entry.2.session]) pending.entries

/-- A binding as a row. -/
def Binding.toJson (binding : Binding) : Json :=
  .array
    [optionalString binding.language, .string binding.root, optionalString binding.session,
     optionalString binding.error, .bool binding.isOpen, .bool binding.session.isSome]

/-- What an operation gives back, as a value. -/
def Answer.toJson : Answer → Json
  | .nothing => .null
  | .session id => optionalString id
  | .path installed => .string installed
  | .availability known => known.toJson
  | .value result => result
  | .hover found => optional Hover.toJson found
  | .locations found => optional (list Location.toJson) found

/-- The state of a client part by part; bindings are shown under names. -/
def Client.snapshot {σ : Type} (client : Client σ) (names : Entries String Nat) : Members :=
  [("sessions", list Session.toJson client.sessions.registered), ("pending", client.pending.rows),
   ("routes", client.routes.fileRows), ("roots", client.routes.rootRows),
   ("status", list ServerStatus.row client.status.servers.values),
   ("downloads", list PendingDownload.toJson client.status.downloads),
   ("files", list (fun entry => .array [.string entry.1, strings (entry.2.map fun d => d.severity.name)])
      client.diagnostics.files),
   ("counts", client.diagnostics.counts.toJson), ("inbound_subscribers", .int (if client.isListening then 1 else 0)),
   ("bindings", .object (names.filterMap fun entry =>
      (client.bindings[entry.2]?).map fun binding => (entry.1, binding.toJson)))]

/-- The parts of a snapshot that differ from an earlier one. -/
def Members.changedSince (members earlier : Members) : Members :=
  members.filter fun member => (Members.get? earlier member.1).map Json.print != some member.2.print

end LanguageSessions
