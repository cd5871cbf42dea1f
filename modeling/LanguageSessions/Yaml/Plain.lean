import LanguageSessions.Yaml.Basic

/-!
# Plain scalars

Scalars without quotes. They end before whatever the text around them could take for its own: a comment, a colon with a
gap behind it, inside brackets also a comma or a bracket, and a line that is not indented enough.
-/

namespace LanguageSessions.Yaml

/-- What was read of a plain scalar. -/
structure PlainText where
  text : List Char
  /-- Whether a line ended behind the last piece. -/
  crossedLine : Bool
  rest : List Char
  deriving DecidableEq, Repr

/-- Whether a text may start a plain scalar; `flow` tells whether it stands inside brackets. -/
def startsPlain (flow : Bool) : List Char → Bool
  | [] => false
  | c :: rest =>
    let indicator := "-?:,[]\x7b\x7d#&*!|>'\"%@\x60".toList.contains c
    (!isGap c && !isBreak c && !indicator)
      || (!atWordEnd rest && (c == '-' || (!flow && (c == '?' || c == ':'))))

/-- Whether a character ends a plain scalar, given what comes behind it. -/
def endsPlain (flow : Bool) (c : Char) (rest : List Char) : Bool :=
  c == '\t' || (flow && ",?[]\x7b\x7d".toList.contains c)
    || (c == ':' && (atWordEnd rest || (flow &&
      match rest with | d :: _ => ",[]\x7b\x7d".toList.contains d | [] => true)))

/-- Whether a comment may start behind a gap. -/
def allowsComment : Gap → Bool
  | .blanks [] => false
  | _ => true

/-- Reads a plain scalar, with a gap read so far and `column` characters of the line. Behind a line break it has to be
indented by `indent`, unless it stands inside brackets. -/
def plain (flow : Bool) (indent : Int) (gap : Gap) (column : Nat) : List Char → PlainText
  | [] => ⟨[], gap.crossesLine, []⟩
  | c :: rest =>
    if c = ' ' then plain flow indent (gap.blank c) (column + 1) rest
    else if isBreak c then
      if atDocumentMark rest then ⟨[], true, rest⟩ else plain flow indent (gap.lineBreak c) 0 rest
    else if
        (c = '#' ∧ allowsComment gap) ∨ (gap.crossesLine ∧ !flow ∧ (column : Int) < indent) ∨ endsPlain flow c rest then
      ⟨[], gap.crossesLine, c :: rest⟩
    else
      let found := plain flow indent Gap.none (column + 1) rest
      { found with text := gap.text ++ c :: found.text }

end LanguageSessions.Yaml
