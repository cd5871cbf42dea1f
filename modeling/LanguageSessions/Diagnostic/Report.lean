import LanguageSessions.Console.Markup
import LanguageSessions.Console.Table
import LanguageSessions.Diagnostic.Store

/-!
# Reports about diagnostics

The counts of all files as a table, and the diagnostics of one file line by line, as they are seen on a console.
-/

namespace LanguageSessions

open Text Console

namespace SeverityCounts

/-- Counts as markup. -/
def markup (counts : SeverityCounts) : List Char :=
  let part := fun (style : String) (n : Int) (name : String) =>
    '[' :: style.toList ++ ']' :: intDigits n ++ ' ' :: name.toList ++ "[/]".toList
  joinWith ", ".toList
    [part "bold red" counts.errors "errors", part "yellow" counts.warnings "warnings", part "blue" counts.info "info",
     part "dim" counts.hints "hints"]

end SeverityCounts

namespace Diagnostic

/-- The style of a severity. -/
def style : Severity → String
  | .error => "bold red"
  | .warning => "yellow"
  | .info => "blue"
  | .hint => "dim"

/-- The code in brackets, behind a blank; nothing without a code. -/
def codeMarkup (diagnostic : Diagnostic) : List Char :=
  match diagnostic.code with
  | none | some "" => []
  | some code => ' ' :: escape ('[' :: code.toList ++ [']'])

/-- The line about a diagnostic of a file as markup; positions count from one. -/
def markup (path : String) (diagnostic : Diagnostic) : List Char :=
  escape path.toList ++ ':' :: intDigits (diagnostic.range.start.line + 1) ++ ':' ::
    intDigits (diagnostic.range.start.character + 1) ++ ' ' :: '[' :: (style diagnostic.severity).toList ++ ']' ::
    diagnostic.severity.name.toList ++ "[/]".toList ++ diagnostic.codeMarkup ++ ' ' :: escape diagnostic.message.toList

end Diagnostic

namespace DiagnosticStore

/-- The paths of all files in the order of their characters. -/
def sortedFiles (store : DiagnosticStore) : List String := store.files.keys.mergeSort fun a b => decide (a ≤ b)

/-- The table with the counts of each file. -/
def summaryTable (store : DiagnosticStore) : Except MarkupError Table := do
  let files := store.sortedFiles
  let names ← files.mapM fun path => visible (escape path.toList)
  let counts := files.map fun path => SeverityCounts.ofList (store.get path)
  let column := fun (head : String) (number : SeverityCounts → Int) =>
    (⟨head.toList, .right, counts.map fun c => intDigits (number c)⟩ : Column)
  return ⟨"Diagnostics".toList,
    [⟨"File".toList, .left, names⟩, column "Errors" SeverityCounts.errors, column "Warnings" SeverityCounts.warnings,
     column "Info" SeverityCounts.info, column "Hints" SeverityCounts.hints]⟩

/-- The counts of each file and of all files, on a console of a given width. -/
def summary (store : DiagnosticStore) (width : Nat) : Except MarkupError (List (List Char)) := do
  let table ← store.summaryTable
  let total ← visible ("Total: ".toList ++ store.counts.markup)
  return table.lines width ++ printed width total

/-- The diagnostics of a file, on a console of a given width. -/
def fileReport (store : DiagnosticStore) (path : String) (width : Nat) : Except MarkupError (List (List Char)) := do
  let lines ← (store.get path).mapM fun diagnostic => visible (diagnostic.markup path)
  return lines.flatMap (printed width)

end DiagnosticStore

end LanguageSessions
