import LanguageSessions.Console.Markup
import LanguageSessions.Console.Table
import LanguageSessions.Status

/-!
# The report about servers

The statuses of all servers as a table. The identifiers of sessions and the names of languages are read as markup.
-/

namespace LanguageSessions

open Console

namespace ServerStatus

/-- The style of a state. -/
def style : RunState → String
  | .starting => "yellow"
  | .running => "green"
  | .stopped => "dim"
  | .error => "red"

/-- The state, and the error behind it, as markup. -/
def stateMarkup (status : ServerStatus) : List Char :=
  let state := '[' :: (style status.state).toList ++ ']' :: status.state.name.toList ++ "[/]".toList
  match status.error with
  | none | some "" => state
  | some error => state ++ ' ' :: '(' :: escape error.toList ++ [')']

end ServerStatus

namespace StatusBoard

/-- The table of all servers. -/
def table (board : StatusBoard) : Except MarkupError Table := do
  let statuses := board.servers.values
  let sessions ← statuses.mapM fun status => visible status.session.toList
  let languages ← statuses.mapM fun status => visible status.language.toList
  let roots ← statuses.mapM fun status => visible (escape status.root.toList)
  let states ← statuses.mapM fun status => visible status.stateMarkup
  return ⟨"Language Servers".toList,
    [⟨"Session".toList, .left, sessions⟩, ⟨"Language".toList, .left, languages⟩, ⟨"Root".toList, .left, roots⟩,
     ⟨"Status".toList, .left, states⟩]⟩

/-- The report on a console of a given width. -/
def report (board : StatusBoard) (width : Nat) : Except MarkupError (List (List Char)) :=
  board.table.map fun table => table.lines width

end StatusBoard

end LanguageSessions
