import LanguageSessions.Text.Digit
import LanguageSessions.Text.Printable

/-!
# Quoted text

A text between quotes: single quotes, or double ones when the text holds a single quote and no double one. Inside, the
quote in use and the backslash are escaped, and so is every character that is not printable.
-/

namespace LanguageSessions.Text

/-- The quote put around a text. -/
def quoteFor (text : List Char) : Char :=
  if text.contains '\'' && !text.contains '"' then '"' else '\''

/-- A character between `quote`s. -/
def quoteChar (quote c : Char) : List Char :=
  if c = quote || c = '\\' then ['\\', c]
  else if c = '\n' then ['\\', 'n']
  else if c = '\r' then ['\\', 'r']
  else if c = '\t' then ['\\', 't']
  else if isPrintable c then [c]
  else if c.toNat < 0x100 then '\\' :: 'x' :: hexDigits 2 c.toNat
  else if c.toNat < 0x10000 then '\\' :: 'u' :: hexDigits 4 c.toNat
  else '\\' :: 'U' :: hexDigits 8 c.toNat

/-- A text between quotes. -/
def quoted (text : List Char) : List Char :=
  let quote := quoteFor text
  quote :: text.flatMap (quoteChar quote) ++ [quote]

end LanguageSessions.Text
