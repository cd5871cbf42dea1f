import LanguageSessions.Text.Digit

/-!
# Characters of YAML

The classes of characters that the grammar is built from, and what a text can be refused for.
-/

namespace LanguageSessions.Yaml

open Text

/-- Why a text was refused. -/
inductive ReadError where
  | syntaxError
  /-- A scalar that has the form of a number or a date and is none. -/
  | badValue
  /-- The code of a character beyond all machine integers. -/
  | unbounded
  deriving DecidableEq, Repr

/-- Whether a character may occur at all. -/
def isAllowed (c : Char) : Bool :=
  let n := c.toNat
  n == 9 || n == 10 || n == 13 || (0x20 ≤ n && n ≤ 0x7E) || n == 0x85 || (0xA0 ≤ n && n ≤ 0xFFFD) || 0x10000 ≤ n

/-- Whether a character ends a line. -/
def isBreak (c : Char) : Bool := c == '\n' || c == '\x85' || c == '\u2028' || c == '\u2029'

/-- The line break that a character stands for in a scalar. -/
def breakText (c : Char) : Char := if c = '\x85' then '\n' else c

/-- Whether a character is a blank or a tab. -/
def isGap (c : Char) : Bool := c == ' ' || c == '\t'

/-- Whether a text is at the end of a word: at a gap, at a line break or at its own end. -/
def atWordEnd : List Char → Bool
  | [] => true
  | c :: _ => isGap c || isBreak c

/-- Whether a line begins with the mark of a document. -/
def atDocumentMark : List Char → Bool
  | '-' :: '-' :: '-' :: rest => atWordEnd rest
  | '.' :: '.' :: '.' :: rest => atWordEnd rest
  | _ => false

/-- A text in which every line that ends with a carriage return ends with a line feed alone. -/
def unifyLineEnds : List Char → List Char
  | '\r' :: '\n' :: rest => '\n' :: unifyLineEnds rest
  | '\r' :: rest => '\n' :: unifyLineEnds rest
  | c :: rest => c :: unifyLineEnds rest
  | [] => []

/-! ## Folding -/

/-- What lies between two pieces of a scalar. -/
inductive Gap where
  /-- Blanks, or nothing. -/
  | blanks (held : List Char)
  /-- A line break and those after it. -/
  | lines (first : Char) (others : List Char)
  /-- An escaped line break and those after it. -/
  | joined (others : List Char)
  deriving DecidableEq, Repr

namespace Gap

/-- Nothing between two pieces. -/
def none : Gap := .blanks []

/-- What a gap stands for: a lone line break is a blank, of several ones the first is dropped. -/
def text : Gap → List Char
  | .blanks held => held
  | .lines first others =>
    if first = '\n' then (if others.isEmpty then [' '] else others) else first :: others
  | .joined others => others

/-- A gap with one more blank; at the front of a line it does not count. -/
def blank : Gap → Char → Gap
  | .blanks held, c => .blanks (held ++ [c])
  | gap, _ => gap

/-- A gap with one more line break; blanks before it do not count. -/
def lineBreak : Gap → Char → Gap
  | .blanks _, c => .lines (breakText c) []
  | .lines first others, c => .lines first (others ++ [breakText c])
  | .joined others, c => .joined (others ++ [breakText c])

/-- Whether a gap holds a line break. -/
def crossesLine : Gap → Bool
  | .blanks _ => false
  | _ => true

end Gap

end LanguageSessions.Yaml
