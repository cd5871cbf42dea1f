import LanguageSessions.Diagnostic.Counts
import LanguageSessions.Diagnostic.Visibility
import LanguageSessions.Entries
import LanguageSessions.Log
import LanguageSessions.Uri

/-!
# The store of diagnostics

The diagnostics of each file, filtered as they come in, and their counts. A list that is pushed replaces the one before
it; the counts then change by the difference of the two lists and are never taken anew.
-/

namespace LanguageSessions

/-- The diagnostics of all files. -/
structure DiagnosticStore where
  /-- What is kept of the lists that are pushed from now on. -/
  visibility : Visibility
  files : Entries String (List Diagnostic)
  counts : SeverityCounts

namespace DiagnosticStore

/-- A store without diagnostics. -/
def empty (visibility : Visibility) : DiagnosticStore := ⟨visibility, [], 0⟩

/-- The diagnostics of a file. -/
def get (store : DiagnosticStore) (path : String) : List Diagnostic := (store.files.get? path).getD []

/-- The entry for a diagnostic that is left out. -/
def skipped (path : String) (index : Nat) : LogEntry :=
  .warning ("Skipping malformed diagnostic " ++ String.ofList (Text.natDigits index) ++ " for " ++ path)

/-- Reads the diagnostics of a list from an index on, leaving out those that cannot be read; an infinite position makes
the whole list unreadable. -/
def convert (path : String) (index : Nat) : List Json → Log × Except ConversionError (List Diagnostic)
  | [] => ([], .ok [])
  | item :: items =>
    match Diagnostic.ofJson path index item with
    | .error .unbounded => ([], .error .unbounded)
    | .error _ =>
      let (log, result) := convert path (index + 1) items
      (skipped path index :: log, result)
    | .ok diagnostic =>
      let (log, result) := convert path (index + 1) items
      (log, result.map (diagnostic :: ·))

/-- Puts diagnostics in place of those of a file. -/
def replace (store : DiagnosticStore) (path : String) (diagnostics : List Diagnostic) : DiagnosticStore :=
  { store with
    files := store.files.set path diagnostics
    counts := store.counts - SeverityCounts.ofList (store.get path) + SeverityCounts.ofList diagnostics }

/-- Takes in the diagnostics that are pushed for a document. -/
def push (store : DiagnosticStore) (uri : String) (data : Json) : Log × Except ConversionError DiagnosticStore :=
  match data.items with
  | .error e => ([], .error e)
  | .ok items =>
    let path := Uri.toPath uri
    let (log, result) := convert path 0 items
    (log, result.map fun diagnostics =>
      store.replace path (diagnostics.filter fun diagnostic => store.visibility.allows diagnostic.severity))

/-- Drops the diagnostics of a document. -/
def clear (store : DiagnosticStore) (uri : String) : DiagnosticStore :=
  let path := Uri.toPath uri
  match store.files.get? path with
  | none => store
  | some previous =>
    { store with files := store.files.erase path, counts := store.counts - SeverityCounts.ofList previous }

/-- Drops all diagnostics. -/
def clearAll (store : DiagnosticStore) : DiagnosticStore := { store with files := [], counts := 0 }

end DiagnosticStore

end LanguageSessions
