import LanguageSessions.Entries
import LanguageSessions.Yaml.Block
import LanguageSessions.Yaml.Plain
import LanguageSessions.Yaml.Quoted

/-!
# Tokens of YAML

A text is read as a list of tokens. Indentation becomes tokens of its own, and so does the start of a key, which is
known only when its colon is met. Anchors, tags and directives are refused.
-/

namespace LanguageSessions.Yaml

/-- A token. -/
inductive Token where
  | documentStart
  | documentEnd
  | blockListStart
  | blockMapStart
  | blockEnd
  | flowListStart
  | flowListEnd
  | flowMapStart
  | flowMapEnd
  /-- The dash in front of an item. -/
  | item
  /-- The comma between items. -/
  | comma
  | key
  | value
  | scalar (text : List Char) (isPlain : Bool)
  deriving DecidableEq, Repr

/-- A place in a text. -/
structure Cursor where
  line : Nat
  column : Nat
  index : Nat
  rest : List Char

namespace Cursor

/-- Goes forward by a number of characters. -/
def forward (cursor : Cursor) : Nat → Cursor
  | 0 => cursor
  | n + 1 =>
    match cursor with
    | ⟨line, column, index, c :: rest⟩ =>
      let next : Cursor :=
        if isBreak c then ⟨line + 1, 0, index + 1, rest⟩
        else ⟨line, if c = '\ufeff' then column else column + 1, index + 1, rest⟩
      next.forward n
    | ⟨_, _, _, []⟩ => cursor

/-- Goes forward to where a given text is left. -/
def moveTo (cursor : Cursor) (rest : List Char) : Cursor := cursor.forward (cursor.rest.length - rest.length)

end Cursor

/-- A place where a key may have started. -/
structure KeyStart where
  /-- The number of tokens in front of it. -/
  before : Nat
  /-- Whether nothing but a key may stand there. -/
  required : Bool
  line : Nat
  column : Nat
  index : Nat

/-- The state of reading tokens. -/
structure Scan where
  cursor : Cursor
  /-- The number of brackets that are open. -/
  flow : Nat
  /-- The indentation of the innermost block, and of those around it. -/
  indent : Int
  indents : List Int
  /-- Whether a key may start at the next token. -/
  allowKey : Bool
  /-- Where keys may have started, by the number of brackets open there. -/
  keys : Entries Nat KeyStart
  tokens : List Token

namespace Scan

/-- The state in front of a text. -/
def start (text : List Char) : Scan := ⟨⟨0, 0, 0, text⟩, 0, -1, [], true, [], []⟩

/-- Whether the place is inside brackets. -/
def inFlow (scan : Scan) : Bool := 0 < scan.flow

/-- Adds a token. -/
def emit (scan : Scan) (token : Token) : Scan := { scan with tokens := scan.tokens ++ [token] }

/-- Goes forward by a number of characters. -/
def skip (scan : Scan) (n : Nat) : Scan := { scan with cursor := scan.cursor.forward n }

/-! ## Gaps and indentation -/

/-- Skips blanks, comments and line ends; outside brackets a key may start on a new line. -/
def skipGaps (fuel : Nat) (scan : Scan) : Scan :=
  match fuel with
  | 0 => scan
  | fuel + 1 =>
    let afterBlanks := scan.cursor.rest.dropWhile (· == ' ')
    let afterComment :=
      match afterBlanks with
      | '#' :: _ => afterBlanks.dropWhile fun c => !isBreak c
      | text => text
    let scan := { scan with cursor := scan.cursor.moveTo afterComment }
    match afterComment with
    | c :: _ =>
      if isBreak c then
        let scan := scan.skip 1
        skipGaps fuel { scan with allowKey := scan.allowKey || !scan.inFlow }
      else scan
    | [] => scan

/-- Ends the blocks that are indented more than `column`; the first argument holds the indentations around. -/
def closeBlocks (column : Int) : List Int → Int → List Token → Int × List Int × List Token
  | [], indent, tokens => (indent, [], tokens)
  | outer :: indents, indent, tokens =>
    if column < indent then closeBlocks column indents outer (tokens ++ [.blockEnd])
    else (indent, outer :: indents, tokens)

/-- Ends the blocks that are indented more than `column`, unless the place is inside brackets. -/
def unwind (scan : Scan) (column : Int) : Scan :=
  if scan.inFlow then scan
  else
    let (indent, indents, tokens) := closeBlocks column scan.indents scan.indent scan.tokens
    { scan with indent, indents, tokens }

/-- Puts a token at a place among those read. -/
def insertToken (tokens : List Token) (place : Nat) (token : Token) : List Token :=
  tokens.take place ++ token :: tokens.drop place

/-- Begins a block at a column, if it is indented more than the one around it; its token goes to a given place. -/
def openBlock (scan : Scan) (column : Nat) (place : Nat) (token : Token) : Scan :=
  if scan.indent < (column : Int) then
    { scan with
      indents := scan.indent :: scan.indents, indent := column, tokens := insertToken scan.tokens place token }
  else scan

/-! ## Keys -/

/-- The greatest number of characters of a key. -/
def maxKeyLength : Nat := 1024

/-- Forgets where keys may have started once they went past the end of the line or grew too long. -/
def dropStaleKeys (scan : Scan) : Except ReadError Scan :=
  let isStale := fun (start : KeyStart) =>
    start.line != scan.cursor.line || maxKeyLength < scan.cursor.index - start.index
  if scan.keys.any fun entry => isStale entry.2 && entry.2.required then .error .syntaxError
  else .ok { scan with keys := scan.keys.filter fun entry => !isStale entry.2 }

/-- Forgets where a key may have started between the innermost brackets. -/
def dropKey (scan : Scan) : Except ReadError Scan :=
  match scan.keys.get? scan.flow with
  | some start => if start.required then .error .syntaxError else .ok { scan with keys := scan.keys.erase scan.flow }
  | none => .ok scan

/-- Notes that a key may start here. -/
def noteKey (scan : Scan) : Except ReadError Scan :=
  if scan.allowKey then do
    let required := !scan.inFlow && scan.indent == (scan.cursor.column : Int)
    let scan ← scan.dropKey
    let start : KeyStart := ⟨scan.tokens.length, required, scan.cursor.line, scan.cursor.column, scan.cursor.index⟩
    return { scan with keys := scan.keys.set scan.flow start }
  else .ok scan

/-! ## One token -/

/-- Reads the mark of a document. -/
def documentMark (scan : Scan) (token : Token) : Except ReadError Scan := do
  let scan ← (scan.unwind (-1)).dropKey
  return ({ scan with allowKey := false }.skip 3).emit token

/-- Reads an opening bracket. -/
def openFlow (scan : Scan) (token : Token) : Except ReadError Scan := do
  let scan ← scan.noteKey
  return ({ scan with flow := scan.flow + 1, allowKey := true }.skip 1).emit token

/-- Reads a closing bracket. -/
def closeFlow (scan : Scan) (token : Token) : Except ReadError Scan := do
  let scan ← scan.dropKey
  return ({ scan with flow := scan.flow - 1, allowKey := false }.skip 1).emit token

/-- Reads a comma between brackets. -/
def comma (scan : Scan) : Except ReadError Scan := do
  let scan ← { scan with allowKey := true }.dropKey
  return (scan.skip 1).emit .comma

/-- Reads the dash of an item. -/
def item (scan : Scan) : Except ReadError Scan := do
  let scan ←
    if scan.inFlow then pure scan
    else if scan.allowKey then pure (scan.openBlock scan.cursor.column scan.tokens.length .blockListStart)
    else .error .syntaxError
  let scan ← { scan with allowKey := true }.dropKey
  return (scan.skip 1).emit .item

/-- Reads the question mark of a key. -/
def explicitKey (scan : Scan) : Except ReadError Scan := do
  let scan ←
    if scan.inFlow then pure scan
    else if scan.allowKey then pure (scan.openBlock scan.cursor.column scan.tokens.length .blockMapStart)
    else .error .syntaxError
  let scan ← { scan with allowKey := !scan.inFlow }.dropKey
  return (scan.skip 1).emit .key

/-- Reads the colon in front of a value, which may turn what was read before it into a key. -/
def colon (scan : Scan) : Except ReadError Scan :=
  match scan.keys.get? scan.flow with
  | some start =>
    let scan := { scan with keys := scan.keys.erase scan.flow, tokens := insertToken scan.tokens start.before .key }
    let scan := if scan.inFlow then scan else scan.openBlock start.column start.before .blockMapStart
    .ok (({ scan with allowKey := false }.skip 1).emit .value)
  | none => do
    let scan ←
      if scan.inFlow then pure scan
      else if scan.allowKey then pure (scan.openBlock scan.cursor.column scan.tokens.length .blockMapStart)
      else .error .syntaxError
    let scan ← { scan with allowKey := !scan.inFlow }.dropKey
    return (scan.skip 1).emit .value

/-- Reads a block scalar. -/
def blockScalar (scan : Scan) (folded : Bool) : Except ReadError Scan := do
  let scan ← { scan with allowKey := true }.dropKey
  let (text, rest) ← block folded scan.indent (scan.cursor.rest.drop 1)
  return { scan with cursor := scan.cursor.moveTo rest }.emit (.scalar text false)

/-- Reads a quoted scalar. -/
def quotedScalar (scan : Scan) (read : List Char → Scanned) : Except ReadError Scan := do
  let scan ← scan.noteKey
  let (text, rest) ← read (scan.cursor.rest.drop 1)
  return { scan with allowKey := false, cursor := scan.cursor.moveTo rest }.emit (.scalar text false)

/-- Reads a plain scalar. -/
def plainScalar (scan : Scan) : Except ReadError Scan := do
  let scan ← scan.noteKey
  let found := plain scan.inFlow (scan.indent + 1) Gap.none scan.cursor.column scan.cursor.rest
  let scan := { scan with allowKey := found.crossedLine, cursor := scan.cursor.moveTo found.rest }
  return scan.emit (.scalar found.text true)

/-- Ends the text. -/
def finish (scan : Scan) : Except ReadError (List Token) := do
  let scan ← (scan.unwind (-1)).dropKey
  return scan.tokens

/-- Reads the token that starts with a given character. -/
def token (scan : Scan) (c : Char) (rest : List Char) : Except ReadError Scan :=
  let atMark := scan.cursor.column == 0 && atDocumentMark (c :: rest)
  if scan.cursor.column == 0 && c == '%' then .error .syntaxError
  else if atMark && c == '-' then scan.documentMark .documentStart
  else if atMark then scan.documentMark .documentEnd
  else if c = '[' then scan.openFlow .flowListStart
  else if c = '\x7b' then scan.openFlow .flowMapStart
  else if c = ']' then scan.closeFlow .flowListEnd
  else if c = '\x7d' then scan.closeFlow .flowMapEnd
  else if c = ',' then scan.comma
  else if c = '-' ∧ atWordEnd rest then scan.item
  else if c = '?' ∧ (scan.inFlow ∨ atWordEnd rest) then scan.explicitKey
  else if c = ':' ∧ (scan.inFlow ∨ atWordEnd rest) then scan.colon
  else if c = '|' ∧ !scan.inFlow then scan.blockScalar false
  else if c = '>' ∧ !scan.inFlow then scan.blockScalar true
  else if c = '\'' then scan.quotedScalar (singleQuoted Gap.none)
  else if c = '"' then scan.quotedScalar (doubleQuoted (.plain Gap.none))
  else if startsPlain scan.inFlow (c :: rest) then scan.plainScalar
  else .error .syntaxError

/-- Reads tokens to the end of the text. -/
def run : Nat → Scan → Except ReadError (List Token)
  | 0, _ => .error .syntaxError
  | fuel + 1, scan => do
    let scan ← (scan.skipGaps (scan.cursor.rest.length + 1)).dropStaleKeys
    let scan := scan.unwind scan.cursor.column
    match scan.cursor.rest with
    | [] => scan.finish
    | c :: rest => run fuel (← scan.token c rest)

end Scan

/-- Drops the mark of the byte order at the front of a text. -/
def dropOrderMark : List Char → List Char
  | '\ufeff' :: rest => rest
  | text => text

/-- The tokens of a text. -/
def tokens (text : List Char) : Except ReadError (List Token) :=
  let text := unifyLineEnds text
  if text.all isAllowed then
    let text := dropOrderMark text
    (Scan.start text).run (text.length + 1)
  else .error .syntaxError

end LanguageSessions.Yaml
