import AmbiLex.Text.Hex
import AmbiLex.Text.Printable

/-!
# Quoted strings

Messages and diagnostics show a string between quotes, so that its ends and its unprintable
characters can be seen. Single quotes are used, unless the string holds a single quote and no
double one. Inside, the backslash, the quote in use and the three common controls have short
escapes, and any other unprintable character is written as a number of two, four or eight
hexadecimal digits, the shortest of them that holds it.
-/

namespace AmbiLex.Text

/-- **The quote a string is written between**: the double quote only where it spares an escape. -/
def quoteFor (s : List Char) : Char :=
  if s.contains '\'' && !s.contains '"' then '"' else '\''

/-- A character as it is written between two `quote`s. -/
def quotedChar (quote c : Char) : List Char :=
  if c = '\\' ∨ c = quote then ['\\', c]
  else if c = '\n' then ['\\', 'n']
  else if c = '\r' then ['\\', 'r']
  else if c = '\t' then ['\\', 't']
  else if isPrintable c then [c]
  else if c.toNat ≤ 0xff then ['\\', 'x'] ++ hexNumeral 2 c.toNat
  else if c.toNat ≤ 0xffff then ['\\', 'u'] ++ hexNumeral 4 c.toNat
  else ['\\', 'U'] ++ hexNumeral 8 c.toNat

/-- The quoted form of a list of characters. -/
def quotedChars (s : List Char) : List Char :=
  let quote := quoteFor s
  quote :: s.flatMap (quotedChar quote) ++ [quote]

/-- **The quoted form of a string.** -/
def quoted (s : String) : String :=
  String.ofList (quotedChars s.toList)

end AmbiLex.Text
