/-!
# Logs

What is reported while something is done, in order.
-/

namespace LanguageSessions

/-- How important an entry of a log is. -/
inductive LogLevel where
  | info
  | warning
  | error
  deriving DecidableEq, Repr

/-- An entry of a log. -/
structure LogEntry where
  level : LogLevel
  text : String
  deriving DecidableEq, Repr

/-- Entries of a log, the oldest first. -/
abbrev Log := List LogEntry

namespace LogEntry

/-- An entry about something that went as planned. -/
def info (text : String) : LogEntry := ⟨.info, text⟩

/-- An entry about something odd. -/
def warning (text : String) : LogEntry := ⟨.warning, text⟩

/-- An entry about something that failed. -/
def error (text : String) : LogEntry := ⟨.error, text⟩

end LogEntry

end LanguageSessions
