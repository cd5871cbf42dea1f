import LanguageSessions.Json.Basic

/-!
# Severities

The four severities of diagnostics, numbered from one on the wire.
-/

namespace LanguageSessions

/-- How grave a diagnostic is. -/
inductive Severity where
  | error
  | warning
  | info
  | hint
  deriving DecidableEq, Repr

namespace Severity

/-- The name of a severity. -/
def name : Severity → String
  | .error => "error"
  | .warning => "warning"
  | .info => "info"
  | .hint => "hint"

/-- The severity with a number, `info` for a number that none has. -/
def ofNumber : Int → Severity
  | 1 => .error
  | 2 => .warning
  | 4 => .hint
  | _ => .info

/-- The severity that a value stands for; `info` if it stands for none. -/
def ofJson : Json → Severity
  | .int n => ofNumber n
  | .bool b => ofNumber (if b then 1 else 0)
  | .float x =>
    match x.toInt? with
    | some n => ofNumber n
    | none => .info
  | _ => .info

/-- The severity that a published diagnostic states, `error` where it states none. -/
def ofPublished (value : Json) : Severity := if value.isTruthy then ofJson value else .error

end Severity

end LanguageSessions
