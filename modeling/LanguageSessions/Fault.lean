import LanguageSessions.Json.Basic

/-!
# Faults

What can go wrong with a language server and with what it sends, and the text that tells it.
-/

namespace LanguageSessions

/-- What went wrong. -/
inductive Fault where
  /-- A fault of the client that has no kind of its own. -/
  | client (text : String)
  /-- The server of a language cannot be run, and it cannot be downloaded either. -/
  | serverUnavailable (language : String) (installHint : Option String)
  /-- The server of a language has to be downloaded first. -/
  | serverNotInstalled (language : String) (downloadUrl : Option String)
  /-- The server of a language could not be started. -/
  | sessionStart (language : String) (reason : Option String)
  /-- A session is unknown or not ready. -/
  | notInitialized (session : String)
  /-- No response came within a number of seconds. -/
  | requestTimeout (method : String) (seconds : Json)
  /-- The server answered with an error. -/
  | protocol (text : String) (code : Json)
  /-- A message could not be handed over. -/
  | transport (text : String)
  /-- A message that is neither a response nor a notification. -/
  | malformed (raw reason : String)
  /-- A message that is not JSON. -/
  | notJson (raw : String)
  /-- A message with an integer of too many digits to be read or written. -/
  | longInteger
  /-- A request was given up because its session goes away. -/
  | requestCancelled (reason : String)
  /-- A request uses the identifier of another one that is still open. -/
  | alreadyPending (id : String)
  /-- The process of a server could not be reached. -/
  | connection (text : String)
  /-- A result of a kind that was not asked for. -/
  | conversion (e : ConversionError)
  /-- The task itself was cancelled. -/
  | cancelled

namespace Fault

/-- Whether a fault is one of the client's own kinds. -/
def isClient : Fault → Bool
  | .client _ | .serverUnavailable .. | .serverNotInstalled .. | .sessionStart .. | .notInitialized _
  | .requestTimeout .. | .protocol .. | .transport _ | .malformed .. | .notJson _ | .requestCancelled _ => true
  | .longInteger | .alreadyPending _ | .connection _ | .conversion _ | .cancelled => false

/-- Whether a query answers "nothing" in place of the fault. -/
def isQueryFault : Fault → Bool
  | .conversion .unbounded => false
  | .conversion _ | .longInteger | .alreadyPending _ => true
  | fault => fault.isClient

/-- The greatest number of characters of a malformed message that are shown. -/
def shownRaw : Nat := 100

/-- The text of a fault. -/
def message : Fault → String
  | .client text => text
  | .serverUnavailable language hint =>
    let start := "LSP server for " ++ language ++ " is not installed."
    match hint with
    | none | some "" => start
    | some hint => start ++ " Please install: " ++ hint
  | .serverNotInstalled language _ =>
    "LSP server for " ++ language ++ " is not installed. Call download_server('" ++ language ++ "') to install it."
  | .sessionStart language reason =>
    match reason with
    | none | some "" => "Failed to start LSP server for " ++ language
    | some reason => reason
  | .notInitialized session => "Server not initialized: " ++ session
  | .requestTimeout method _ => "LSP request timeout: " ++ method
  | .protocol text _ => "LSP error: " ++ text
  | .transport text => text
  | .malformed raw reason =>
    "Malformed LSP message (" ++ reason ++ "): " ++ String.ofList (raw.toList.take shownRaw)
  | .notJson _ => "Malformed LSP message (invalid JSON)"
  | .longInteger =>
    -- It is said of integers that cannot be written; of those that cannot be read nothing is shown.
    "Exceeds the limit (4300 digits) for integer string conversion; use sys.set_int_max_str_digits() to increase the limit"
  | .requestCancelled reason => reason
  | .alreadyPending id => "Request id already pending: " ++ id
  | .connection text => text
  | .conversion (.missing field) => field
  | .conversion _ => ""
  | .cancelled => ""

end Fault

end LanguageSessions
