import LanguageSessions.Text.Blank

/-!
# Wrapping

Text is laid out in lines of a given number of cells. Lines break behind blanks; a word that is longer than a line is
cut or, where lines are not folded, shortened. Control characters and combining marks take no cell, all others take one.
-/

namespace LanguageSessions.Console

open Text

/-- How lines that are shorter than the width are filled. -/
inductive Justify where
  | loose
  | left
  | center
  | right
  deriving DecidableEq, Repr

/-- What happens to words that are longer than a line. -/
inductive Overflow where
  | fold
  | ellipsis
  deriving DecidableEq, Repr

/-! ## Cells -/

/-- The number of cells that a character takes. -/
def cellsOf (c : Char) : Nat :=
  let n := c.toNat
  if n < 32 ∨ (127 ≤ n ∧ n < 160) ∨ (0x300 ≤ n ∧ n < 0x370) ∨ (0x200B ≤ n ∧ n < 0x2010) then 0 else 1

/-- The number of cells that a text takes. -/
def cells (text : List Char) : Nat := text.foldl (fun n c => n + cellsOf c) 0

/-- As much of the front of a text as fits into a number of cells. -/
def fitting (room : Nat) : List Char → List Char
  | [] => []
  | c :: rest => if cellsOf c ≤ room then c :: fitting (room - cellsOf c) rest else []

/-- Blanks. -/
def blanks (n : Nat) : List Char := List.replicate n ' '

/-- A text in exactly a number of cells, cut or filled with blanks. -/
def resize (width : Nat) (text : List Char) : List Char :=
  let text := fitting width text
  text ++ blanks (width - cells text)

/-! ## Tabs and lines -/

/-- The distance between the columns that tabs lead to. -/
def tabSize : Nat := 8

/-- A line with blanks in place of its tabs, beginning at a column. -/
def expandTabs (column : Nat) : List Char → List Char
  | [] => []
  | c :: rest =>
    if c = '\t' then
      let next := (column / tabSize + 1) * tabSize
      blanks (next - column) ++ expandTabs next rest
    else c :: expandTabs (column + cellsOf c) rest

/-! ## Words -/

/-- The words of a text, each with the blanks behind it, the first one also with those before it. -/
def words (text : List Char) : List (List Char) :=
  let wordAt := fun (c : Char) (found : Bool × List (List Char)) =>
    let (blankNext, words) := found
    match words with
    | [] => (isBlank c, [[c]])
    | word :: others =>
      -- a word ends where a blank is followed by something else
      if isBlank c && !blankNext then (true, [c] :: word :: others) else (isBlank c, (c :: word) :: others)
  let found := (text.foldr wordAt (true, [])).2
  match found with
  | first :: second :: others => if first.all isBlank then (first ++ second) :: others else found
  | [only] => if only.all isBlank then [] else found
  | [] => []

/-- Cuts a text into pieces that fit into a width; `used` cells are taken of the first one. -/
def chop (width used : Nat) : List Char → List (List Char)
  | [] => [[]]
  | c :: rest =>
    if width < used + cellsOf c then
      [] :: prependTo c (chop width (cellsOf c) rest)
    else prependTo c (chop width (used + cellsOf c) rest)
where
  /-- Puts a character in front of the first piece. -/
  prependTo (c : Char) : List (List Char) → List (List Char)
    | [] => [[c]]
    | piece :: pieces => (c :: piece) :: pieces

/-- Distributes words over lines: `line` is the one begun, which takes `used` cells, and `begun` tells whether any text
came before. -/
def distribute (width : Nat) (overflow : Overflow) (line : List Char) (used : Nat) (begun : Bool) :
    List (List Char) → List (List Char)
  | [] => [line]
  | word :: rest =>
    let length := cells (dropEndWhile isBlank word)
    if length ≤ width - used ∧ used ≤ width then
      distribute width overflow (line ++ word) (used + cells word) true rest
    else if width < length then
      match overflow with
      | .fold =>
        let parts := chop width 0 word
        let last := parts.getLastD []
        let full := parts.dropLast
        let after := distribute width overflow last (cells last) true rest
        if begun then line :: full ++ after else full ++ after
      | .ellipsis =>
        let after := distribute width overflow word (cells word) true rest
        if begun then line :: after else after
    else if 0 < used ∧ begun then line :: distribute width overflow word (cells word) true rest
    else distribute width overflow (line ++ word) used true rest

/-- The lines that a line without tabs is broken into. -/
def breakLine (width : Nat) (overflow : Overflow) (line : List Char) : List (List Char) :=
  match words line with
  | [] => [line]
  | words => distribute width overflow [] 0 false words

/-! ## Lines in a width -/

/-- Drops the blanks at the end of a line that do not fit into the width. -/
def dropLooseEnd (width : Nat) (line : List Char) : List Char :=
  let loose := (line.reverse.takeWhile isBlank).length
  line.take (line.length - min loose (line.length - width))

/-- Shortens a line that does not fit into the width. -/
def shorten (width : Nat) (overflow : Overflow) (line : List Char) : List Char :=
  if width < cells line then
    match overflow with
    | .fold => resize width line
    | .ellipsis => resize (width - 1) line ++ ['…']
  else line

/-- Fills a line as it should be justified. -/
def fill (width : Nat) (justify : Justify) (overflow : Overflow) (line : List Char) : List Char :=
  match justify with
  | .loose => shorten width overflow line
  | .left =>
    let line := shorten width overflow line
    line ++ blanks (width - cells line)
  | .center =>
    let line := shorten width overflow (dropEndWhile isBlank line)
    let line := blanks ((width - cells line) / 2) ++ line
    line ++ blanks (width - cells line)
  | .right =>
    let line := shorten width overflow (dropEndWhile isBlank line)
    blanks (width - cells line) ++ line

/-- The lines of a text in a width. -/
def wrap (width : Nat) (justify : Justify) (overflow : Overflow) (text : List Char) : List (List Char) :=
  (splitOn '\n' text).flatMap fun line =>
    (breakLine width overflow (expandTabs 0 line)).map fun line =>
      fill width justify overflow (dropLooseEnd width line)

end LanguageSessions.Console
