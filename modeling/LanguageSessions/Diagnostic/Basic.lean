import LanguageSessions.Location
import LanguageSessions.Severity

/-!
# Diagnostics

A diagnostic as a server publishes it, and as it is kept for a file.
-/

namespace LanguageSessions

/-- A diagnostic as a server publishes it; severity, code and source are kept as they came. -/
structure PublishedDiagnostic where
  range : Range
  message : String
  severity : Json
  code : Json
  source : Json

/-- A diagnostic as it is kept for a file. -/
structure Diagnostic where
  id : String
  severity : Severity
  message : String
  range : Range
  code : Option String
  deriving DecidableEq, Repr

namespace PublishedDiagnostic

/-- Reads a published diagnostic. -/
def ofJson (data : Json) : Except ConversionError PublishedDiagnostic := do
  let range ← Range.ofJson (← data.field "range")
  let message :=
    match data with
    | .object members => ((Members.get? members "message").getD (.string "")).display
    | _ => ""
  let severity ← data.fieldOrNull "severity"
  let code ← data.fieldOrNull "code"
  let source ← data.fieldOrNull "source"
  return ⟨range, message, severity, code, source⟩

end PublishedDiagnostic

namespace Diagnostic

/-- The identifier of the diagnostic published at an index for a file. -/
def idOf (path : String) (index : Nat) : String :=
  String.ofList ("lsp-".toList ++ path.toList ++ '-' :: Text.natDigits index)

/-- The code of a published diagnostic as text. -/
def codeText : Json → Option String
  | .null => none
  | code => some code.display

/-- The form in which a published diagnostic is kept. -/
def ofPublished (path : String) (index : Nat) (published : PublishedDiagnostic) : Diagnostic where
  id := idOf path index
  severity := Severity.ofPublished published.severity
  message := published.message
  range := published.range
  code := codeText published.code

/-- Reads the diagnostic at an index of a published list. -/
def ofJson (path : String) (index : Nat) (data : Json) : Except ConversionError Diagnostic :=
  (PublishedDiagnostic.ofJson data).map (ofPublished path index)

end Diagnostic

end LanguageSessions
