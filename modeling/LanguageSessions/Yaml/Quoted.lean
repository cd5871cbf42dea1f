import LanguageSessions.Yaml.Basic

/-!
# Quoted scalars

Scalars between single quotes, in which a quote is written twice, and between double quotes, in which a backslash starts
an escape. Both may go over several lines, which are folded.
-/

namespace LanguageSessions.Yaml

open Text

/-- The text of a scalar and what comes behind it. -/
abbrev Scanned := Except ReadError (List Char × List Char)

/-- Puts characters in front of a scanned text. -/
def prepend (front : List Char) : Scanned → Scanned
  | .ok (text, rest) => .ok (front ++ text, rest)
  | .error e => .error e

/-- Reads on behind a single quote, with a gap read so far. -/
def singleQuoted (gap : Gap) : List Char → Scanned
  | [] => .error .syntaxError
  | '\'' :: '\'' :: rest => prepend (gap.text ++ ['\'']) (singleQuoted Gap.none rest)
  | c :: rest =>
    if c = '\'' then .ok (gap.text, rest)
    else if isGap c then singleQuoted (gap.blank c) rest
    else if isBreak c then
      if atDocumentMark rest then .error .syntaxError else singleQuoted (gap.lineBreak c) rest
    else prepend (gap.text ++ [c]) (singleQuoted Gap.none rest)

/-! ## Escapes -/

/-- What a single character stands for behind a backslash. -/
def escapes : List (Char × Char) :=
  [('0', '\x00'), ('a', '\x07'), ('b', '\x08'), ('t', '\t'), ('\t', '\t'), ('n', '\n'), ('v', '\x0b'), ('f', '\x0c'),
   ('r', '\r'), ('e', '\x1b'), (' ', ' '), ('"', '"'), ('\\', '\\'), ('/', '/'), ('N', '\x85'), ('_', '\xa0'),
   ('L', '\u2028'), ('P', '\u2029')]

/-- The number of hexadecimal digits that a character announces behind a backslash. -/
def codeLength? : Char → Option Nat
  | 'x' => some 2
  | 'u' => some 4
  | 'U' => some 8
  | _ => none

/-- The character with a code. -/
def charOfCode (code : Nat) : Except ReadError Char :=
  if code < 0x110000 then .ok (if 0xD800 ≤ code ∧ code < 0xE000 then Char.ofNat 0xFFFD else Char.ofNat code)
  else if code < 0x80000000 then .error .badValue
  else .error .unbounded

/-- Where the reader of a double-quoted scalar stands. -/
inductive Inside where
  /-- Among plain characters, with a gap read so far. -/
  | plain (gap : Gap)
  /-- Behind a backslash. -/
  | escape
  /-- In a code, with digits to come and the value of those read. -/
  | code (owed value : Nat)
  deriving DecidableEq, Repr

/-- Reads on behind a double quote. -/
def doubleQuoted : Inside → List Char → Scanned
  | _, [] => .error .syntaxError
  | .plain gap, c :: rest =>
    if c = '"' then .ok (gap.text, rest)
    else if c = '\\' then prepend gap.text (doubleQuoted .escape rest)
    else if isGap c then doubleQuoted (.plain (gap.blank c)) rest
    else if isBreak c then
      if atDocumentMark rest then .error .syntaxError else doubleQuoted (.plain (gap.lineBreak c)) rest
    else prepend (gap.text ++ [c]) (doubleQuoted (.plain Gap.none) rest)
  | .escape, c :: rest =>
    match escapes.lookup c, codeLength? c with
    | some meant, _ => prepend [meant] (doubleQuoted (.plain Gap.none) rest)
    | none, some length => doubleQuoted (.code length 0) rest
    | none, none =>
      if isBreak c && !atDocumentMark rest then doubleQuoted (.plain (.joined [])) rest else .error .syntaxError
  | .code owed value, c :: rest =>
    match hexValue? c with
    | none => .error .syntaxError
    | some digit =>
      let value := value * 16 + digit
      if owed ≤ 1 then
        match charOfCode value with
        | .ok meant => prepend [meant] (doubleQuoted (.plain Gap.none) rest)
        | .error e => .error e
      else doubleQuoted (.code (owed - 1) value) rest

end LanguageSessions.Yaml
