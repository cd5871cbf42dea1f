import LanguageSessions.Number.FloatText
import LanguageSessions.Yaml.Plain
import LanguageSessions.Yaml.Scalar

/-!
# Writing YAML

Texts are written plainly where they read back as themselves, between single quotes where a plain form would read back
as something else, and between double quotes with escapes where a character is not printable ASCII. A line that has gone
past eighty columns is folded at the next lone blank.
-/

namespace LanguageSessions.Yaml

open Text

/-- The column behind which a line is folded. -/
def bestWidth : Nat := 80

/-- The blanks in front of a folded line. -/
def foldIndent : Nat := 2

/-- The end of a line and the blanks in front of the next one. -/
def newLine : List Char := '\n' :: List.replicate foldIndent ' '

/-! ## Styles -/

/-- How a text is written. -/
inductive Style where
  | plain
  | single
  | double
  deriving DecidableEq, Repr

/-- Whether a character may stand between single quotes. -/
def isOrdinary (c : Char) : Bool := c == '\n' || (' ' ≤ c && c ≤ '~')

/-- Whether a blank touches a line break in a text, on the side that folding does not keep. -/
def blankAtBreak : List Char → Bool
  | ' ' :: '\n' :: _ => true
  | '\n' :: ' ' :: _ => true
  | _ :: rest => blankAtBreak rest
  | [] => false

/-- Whether a text has a blank or a line break at one of its ends. -/
def hasLooseEnd (text : List Char) : Bool :=
  let isLoose := fun (c : Option Char) => c == some ' ' || c == some '\n'
  isLoose text.head? || isLoose text.getLast?

/-- Whether the characters from some point on hold an indicator; `afterGap` tells whether a gap comes before. -/
def hasInnerIndicator (afterGap : Bool) : List Char → Bool
  | [] => false
  | c :: rest =>
    (c == ':' && atWordEnd rest) || (c == '#' && afterGap) || hasInnerIndicator (isGap c || isBreak c) rest

/-- Whether a text starts with an indicator. -/
def startsWithIndicator : List Char → Bool
  | [] => false
  | c :: rest =>
    "#,[]\x7b\x7d&*!|>'\"%@\x60".toList.contains c || ((c == '?' || c == ':' || c == '-') && atWordEnd rest)

/-- Whether a text starts like the mark of a document. -/
def startsWithMark (text : List Char) : Bool :=
  startsWith "---".toList text || startsWith "...".toList text

/-- Whether a text would be read for something else if it stood without quotes. -/
def needsQuotes (text : List Char) : Bool :=
  startsWithMark text || startsWithIndicator text || hasInnerIndicator false (text.drop 1) || hasLooseEnd text
    || text.contains '\n' || Meaning.ofText text != .text

/-- How a text is written. -/
def styleOf (text : List Char) : Style :=
  if !text.all isOrdinary || blankAtBreak text then .double
  else if needsQuotes text then .single
  else .plain

/-! ## Folding -/

/-- Whether a line is folded at a blank: behind the best width, and only where the blank stands alone. -/
def foldsAt (column : Nat) (before : Option Char) (rest : List Char) : Bool :=
  bestWidth < column && before.isSome && before != some ' ' && !rest.isEmpty && rest.head? != some ' '

/-- A text without quotes, beginning at a column; `before` is the character in front of it. -/
def writePlain (column : Nat) (before : Option Char) : List Char → List Char
  | [] => []
  | c :: rest =>
    if c = ' ' ∧ foldsAt column before rest then newLine ++ writePlain foldIndent (some c) rest
    else c :: writePlain (column + 1) (some c) rest

/-- The inside of a text between single quotes. A line break is written as two, the first of which is folded away. -/
def writeSingle (column : Nat) (before : Option Char) : List Char → List Char
  | [] => []
  | c :: rest =>
    if c = '\n' then
      let start := if before == some '\n' then ['\n'] else ['\n', '\n']
      if rest.head? == some '\n' then start ++ writeSingle 0 (some c) rest
      else start ++ List.replicate foldIndent ' ' ++ writeSingle foldIndent (some c) rest
    else if c = '\'' then '\'' :: '\'' :: writeSingle (column + 2) (some c) rest
    else if c = ' ' ∧ foldsAt column before rest then newLine ++ writeSingle foldIndent (some c) rest
    else c :: writeSingle (column + 1) (some c) rest

/-- The escape of a character that does not stand for itself between double quotes. -/
def escapeOf (c : Char) : List Char :=
  let named : List (Char × Char) :=
    [('\x00', '0'), ('\x07', 'a'), ('\x08', 'b'), ('\t', 't'), ('\n', 'n'), ('\x0b', 'v'), ('\x0c', 'f'), ('\r', 'r'),
     ('\x1b', 'e'), ('"', '"'), ('\\', '\\'), ('\x85', 'N'), ('\xa0', '_'), ('\u2028', 'L'), ('\u2029', 'P')]
  match named.lookup c with
  | some name => ['\\', name]
  | none =>
    if c.toNat < 0x100 then '\\' :: 'x' :: upperHexDigits 2 c.toNat
    else if c.toNat < 0x10000 then '\\' :: 'u' :: upperHexDigits 4 c.toNat
    else '\\' :: 'U' :: upperHexDigits 8 c.toNat

/-- Whether a character is escaped between double quotes. -/
def isEscaped (c : Char) : Bool := c == '"' || c == '\\' || !(' ' ≤ c && c ≤ '~')

/-- The inside of a text between double quotes. A fold is an escaped line break; `fresh` tells whether the character
before was an escape, behind which a line may be folded too. -/
def writeDouble (isFirst : Bool) (column : Nat) (fresh : Bool) : List Char → List Char
  | [] => []
  | c :: rest =>
    let inner := !isFirst && !rest.isEmpty
    if isEscaped c then
      let escape := escapeOf c
      let column := column + escape.length
      if inner ∧ bestWidth < column - 1 then
        let blank := rest.head? == some ' '
        escape ++ '\\' :: newLine ++ (if blank then ['\\'] else [])
          ++ writeDouble false (if blank then foldIndent + 1 else foldIndent) true rest
      else escape ++ writeDouble false column true rest
    else if inner ∧ (c = ' ' ∨ fresh) ∧ bestWidth < column then
      let start := if c = ' ' then ['\\'] else []
      '\\' :: newLine ++ start ++ c :: writeDouble false (foldIndent + start.length + 1) false rest
    else c :: writeDouble false (column + 1) false rest

/-- A text in its style, beginning at a column. -/
def writeText (column : Nat) (text : List Char) : List Char :=
  match styleOf text with
  | .plain => writePlain column none text
  | .single => '\'' :: writeSingle (column + 1) none text ++ ['\'']
  | .double => '"' :: writeDouble true (column + 1) true text ++ ['"']

/-! ## Other scalars -/

/-- Floating-point numbers in YAML. -/
def floatStyle : FloatStyle := ⟨true, ".inf".toList, ".nan".toList⟩

/-- A floating-point number. -/
def writeFloat (x : Binary64) : List Char := x.text floatStyle

/-- A flag. -/
def writeBool (b : Bool) : List Char := (if b then "true" else "false").toList

end LanguageSessions.Yaml
