import LanguageSessions.Console.Wrap
import LanguageSessions.Number.Binary64

/-!
# Tables

A table with a title and a head, drawn with lines around its cells. Columns are as wide as what they hold; where that is
more than there is room for, the widest ones give way first.
-/

namespace LanguageSessions.Console

open Text

-- Sums begin with the number nought itself, whatever else has one.
attribute [local instance (high)] Zero.ofOfNat0

/-- A column: what stands in its head and below it, as it is seen. -/
structure Column where
  head : List Char
  justify : Justify
  cells : List (List Char)

/-- A table. -/
structure Table where
  title : List Char
  columns : List Column

namespace Table

/-! ## Widths -/

/-- The blanks on both sides of what a cell holds. -/
def padding : Nat := 2

/-- The cells that the lines around columns take. -/
def frameWidth (table : Table) : Nat := table.columns.length + 1

/-- Whether a character ends a line of a cell. -/
def endsLine (c : Char) : Bool :=
  c == '\n' || ('\x1c' ≤ c && c ≤ '\x1e') || c == '\x85' || c == '\u2028' || c == '\u2029'

/-- The longest line of a text, in cells. -/
def textWidth (text : List Char) : Nat :=
  let (last, longest) :=
    text.foldl (fun (found : Nat × Nat) c =>
      if endsLine c then (0, max found.1 found.2) else (found.1 + cellsOf c, found.2)) (0, 0)
  max last longest

/-- The width that a column wants, of those it may have. -/
def wantedWidth (room : Nat) (column : Column) : Nat :=
  if room = 0 then 0
  else if room < padding + 1 then room
  else
    let widest := ((column.head :: column.cells).map textWidth).foldl max 0
    min room (widest + padding)

/-- Takes `excess` from the values in proportion to `shares`, from each one at most its limit. -/
def reduceBy (excess : Nat) : List (Nat × Nat × Nat) → List Nat
  | [] => []
  | (share, limit, value) :: rest =>
    let total := ((share, limit, value) :: rest).foldl (fun n entry => n + if entry.2.1 = 0 then 0 else entry.1) 0
    if share = 0 ∨ limit = 0 ∨ total = 0 then value :: reduceBy excess rest
    else
      let taken := min limit (Magnitude.divNearest (share * excess) total)
      (value - taken) :: reduceBy (excess - taken) rest

/-- Takes from the widest columns what is too much, until it fits or all columns are equally wide. -/
def collapse (room : Nat) : Nat → List Nat → List Nat
  | 0, widths => widths
  | fuel + 1, widths =>
    let excess := widths.sum - room
    let widest := widths.foldl max 0
    let second := (widths.map fun width => if width = widest then 0 else width).foldl max 0
    if excess = 0 ∨ widest = second then widths
    else
      let limit := min excess (widest - second)
      collapse room fuel (reduceBy excess (widths.map fun width => (if width = widest then 1 else 0, limit, width)))

/-- The widths of the columns in a room. -/
def widths (room : Nat) (table : Table) : List Nat :=
  let wanted := table.columns.map fun column => max 1 (wantedWidth room column)
  if wanted.sum ≤ room then wanted
  else
    let collapsed := collapse room (wanted.sum + 1) wanted
    let reduced :=
      if collapsed.sum ≤ room then collapsed
      else reduceBy (collapsed.sum - room) (collapsed.map fun width => (1, width, width))
    (reduced.zip table.columns).map fun entry => wantedWidth entry.1 entry.2

/-! ## Lines -/

/-- A horizontal line: its left end, what it is made of, what stands between columns, and its right end. -/
def rule (left dash between right : Char) (widths : List Nat) : List Char :=
  left :: joinWith [between] (widths.map fun width => List.replicate width dash) ++ [right]

/-- The lines of a cell. -/
def cellLines (width : Nat) (justify : Justify) (text : List Char) : List (List Char) :=
  if width ≤ padding then []
  else (wrap (width - padding) justify .ellipsis text).map fun line => ' ' :: line ++ [' ']

/-- The lines of a row: the cells side by side, the shorter ones filled up with blanks. -/
def rowLines (edge : Char) (widths : List Nat) (row : List (Justify × List Char)) : List (List Char) :=
  let cells := (widths.zip row).map fun entry => (entry.1, cellLines entry.1 entry.2.1 entry.2.2)
  let height := (cells.map fun cell => cell.2.length).foldl max 1
  (List.range height).map fun n =>
    let parts := cells.map fun cell => (cell.2[n]?).getD (blanks cell.1)
    edge :: joinWith [edge] parts ++ [edge]

/-- The rows below the head. -/
def rows (table : Table) : List (List (Justify × List Char)) :=
  let height := (table.columns.map fun column => column.cells.length).foldl max 0
  (List.range height).map fun n => table.columns.map fun column => (column.justify, (column.cells[n]?).getD [])

/-- The lines of a table on a console of a given width. -/
def lines (width : Nat) (table : Table) : List (List Char) :=
  let widths := table.widths (width - table.frameWidth)
  let tableWidth := widths.sum + table.frameWidth
  let head := table.columns.map fun column => (column.justify, column.head)
  let drawn :=
    wrap tableWidth .center .fold table.title
      ++ [rule '┏' '━' '┳' '┓' widths]
      ++ rowLines '┃' widths head
      ++ [rule '┡' '━' '╇' '┩' widths]
      ++ table.rows.flatMap (rowLines '│' widths)
      ++ [rule '└' '─' '┴' '┘' widths]
  drawn.map (fitting width)

end Table

/-- The lines that a text takes on a console of a given width. -/
def printed (width : Nat) (text : List Char) : List (List Char) := wrap width .loose .fold text

end LanguageSessions.Console
