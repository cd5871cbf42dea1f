import LanguageSessions.Diagnostic.Basic

/-!
# Counts of diagnostics

How many diagnostics there are of each severity. Counts are integers, for they are also subtracted.
-/

namespace LanguageSessions

/-- A number for each severity. -/
structure SeverityCounts where
  errors : Int
  warnings : Int
  info : Int
  hints : Int
  deriving DecidableEq, Repr

namespace SeverityCounts

instance : Zero SeverityCounts := ⟨⟨0, 0, 0, 0⟩⟩

instance : Add SeverityCounts :=
  ⟨fun a b => ⟨a.errors + b.errors, a.warnings + b.warnings, a.info + b.info, a.hints + b.hints⟩⟩

instance : Sub SeverityCounts :=
  ⟨fun a b => ⟨a.errors - b.errors, a.warnings - b.warnings, a.info - b.info, a.hints - b.hints⟩⟩

/-- One diagnostic of a severity. -/
def one : Severity → SeverityCounts
  | .error => ⟨1, 0, 0, 0⟩
  | .warning => ⟨0, 1, 0, 0⟩
  | .info => ⟨0, 0, 1, 0⟩
  | .hint => ⟨0, 0, 0, 1⟩

/-- The counts of a list of diagnostics. -/
def ofList (diagnostics : List Diagnostic) : SeverityCounts :=
  diagnostics.foldl (fun counts diagnostic => counts + one diagnostic.severity) 0

/-- The sum of all counts. -/
def total (counts : SeverityCounts) : Int := counts.errors + counts.warnings + counts.info + counts.hints

end SeverityCounts

end LanguageSessions
