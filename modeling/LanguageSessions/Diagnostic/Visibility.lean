import LanguageSessions.Severity

/-!
# Visible severities

Which severities are kept when diagnostics arrive, and whether diagnostics are shown at all.
-/

namespace LanguageSessions

/-- Which diagnostics are kept and shown. -/
structure Visibility where
  showDiagnostics : Bool
  showErrors : Bool
  showWarnings : Bool
  showInfo : Bool
  showHints : Bool
  deriving DecidableEq, Repr

namespace Visibility

/-- Everything but hints. -/
def standard : Visibility := ⟨true, true, true, true, false⟩

/-- Whether diagnostics of a severity are kept. -/
def allows (visibility : Visibility) : Severity → Bool
  | .error => visibility.showErrors
  | .warning => visibility.showWarnings
  | .info => visibility.showInfo
  | .hint => visibility.showHints

/-- Whether diagnostics of a severity with a given name are kept; those of an unknown one are. -/
def allowsName (visibility : Visibility) (name : String) : Bool :=
  match [Severity.error, .warning, .info, .hint].find? fun severity => severity.name == name with
  | some severity => visibility.allows severity
  | none => true

end Visibility

end LanguageSessions
