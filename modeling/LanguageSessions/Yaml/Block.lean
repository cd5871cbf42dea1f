import LanguageSessions.Yaml.Basic

/-!
# Block scalars

Scalars that keep their lines, behind a bar, or fold them, behind a greater-than sign. Their lines are indented alike.
-/

namespace LanguageSessions.Yaml

open Text

/-- What happens to the line breaks at the end of a block scalar. -/
inductive Chomping where
  | strip
  | clip
  | keep
  deriving DecidableEq, Repr

/-- Takes the sign that says what happens to the last line breaks. -/
def takeChomping : List Char → Option Chomping × List Char
  | '+' :: rest => (some .keep, rest)
  | '-' :: rest => (some .strip, rest)
  | text => (none, text)

/-- Takes the digit that says by how much the lines are indented. -/
def takeIndentation : List Char → Except ReadError (Option Nat × List Char)
  | [] => .ok (none, [])
  | c :: rest =>
    match asciiDigit? c with
    | none => .ok (none, c :: rest)
    | some 0 => .error .syntaxError
    | some digit => .ok (some digit, rest)

/-- Takes the rest of a line that may hold a comment only. -/
def takeComment (text : List Char) : Except ReadError (List Char) :=
  let text := text.dropWhile (· == ' ')
  let text :=
    match text with
    | '#' :: _ => text.dropWhile fun c => !isBreak c
    | text => text
  match text with
  | [] => .ok []
  | c :: rest => if isBreak c then .ok rest else .error .syntaxError

/-- Takes the line behind the bar. -/
def takeHeader (text : List Char) : Except ReadError (Chomping × Option Nat × List Char) := do
  let (before, text) := takeChomping text
  let (indentation, text) ← takeIndentation text
  let (after, text) := if before.isNone && indentation.isSome then takeChomping text else (none, text)
  let atGap :=
    match text with
    | [] => true
    | c :: _ => c == ' ' || isBreak c
  if atGap then return ((before.or after).getD .clip, indentation, ← takeComment text) else .error .syntaxError

/-- Takes empty lines and the blanks in front of the first line that is none: the line breaks, the greatest number of
blanks met on a line, the number on the last one, and the rest. -/
def takeLeading (column greatest : Nat) : List Char → List Char × Nat × Nat × List Char
  | [] => ([], greatest, column, [])
  | c :: rest =>
    if c = ' ' then takeLeading (column + 1) (max greatest (column + 1)) rest
    else if isBreak c then
      let (breaks, greatest, column, rest) := takeLeading 0 greatest rest
      (breakText c :: breaks, greatest, column, rest)
    else ([], greatest, column, c :: rest)

/-- Takes empty lines and the indentation of the next line, `indent` blanks at most. -/
def takeBreaks (indent column : Nat) : List Char → List Char × Nat × List Char
  | [] => ([], column, [])
  | c :: rest =>
    if c = ' ' ∧ column < indent then takeBreaks indent (column + 1) rest
    else if isBreak c then
      let (breaks, column, rest) := takeBreaks indent 0 rest
      (breakText c :: breaks, column, rest)
    else ([], column, c :: rest)

/-- Takes the line break at the front, if one is there. -/
def takeBreak : List Char → List Char × List Char
  | [] => ([], [])
  | c :: rest => if isBreak c then ([breakText c], rest) else ([], c :: rest)

/-- Whether a line starts with a gap. -/
def startsWithGap : List Char → Bool
  | [] => false
  | c :: _ => isGap c

/-- Reads the lines of a block scalar, the first one being at `column`; `breaks` came before it. -/
def blockLines (folded : Bool) (indent : Nat) (chomping : Chomping) :
    Nat → List Char → Nat → List Char → List Char × List Char
  | 0, _, _, text => ([], text)
  | fuel + 1, breaks, column, text =>
    if column ≠ indent ∨ text.isEmpty then ((if chomping == .keep then breaks else []), text)
    else
      let line := text.takeWhile fun c => !isBreak c
      let (ending, rest) := takeBreak (text.dropWhile fun c => !isBreak c)
      let (others, column, rest) := takeBreaks indent 0 rest
      if column = indent ∧ !rest.isEmpty then
        let joint :=
          if folded ∧ ending = ['\n'] ∧ !startsWithGap text ∧ !startsWithGap rest then
            (if others.isEmpty then [' '] else [])
          else ending
        let (more, rest) := blockLines folded indent chomping fuel others column rest
        (breaks ++ line ++ joint ++ more, rest)
      else
        let ending := if chomping == .strip then [] else ending
        (breaks ++ line ++ ending ++ (if chomping == .keep then others else []), rest)

/-- Reads a block scalar from behind its bar; what holds it is indented by `indent`. -/
def block (folded : Bool) (indent : Int) (text : List Char) : Except ReadError (List Char × List Char) := do
  let (chomping, indentation, text) ← takeHeader text
  let least := (max 1 (indent + 1)).toNat
  match indentation with
  | none =>
    let (breaks, greatest, column, text) := takeLeading 0 0 text
    return blockLines folded (max least greatest) chomping (text.length + 1) breaks column text
  | some indentation =>
    let indent := least + indentation - 1
    let (breaks, column, text) := takeBreaks indent 0 text
    return blockLines folded indent chomping (text.length + 1) breaks column text

end LanguageSessions.Yaml
