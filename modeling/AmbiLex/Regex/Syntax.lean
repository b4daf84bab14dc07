import AmbiLex.Regex.CharSet

/-!
# Regular expressions

The syntax tree of a regular expression, as far as token definitions use them: sets of characters,
sequences and alternatives, greedy and lazy repetition, groups that remember what they matched and
references back to them, tests of the place in the text, and looking ahead of it or one character
behind it.
-/

namespace AmbiLex.Regex

/-- **A test of the place between two characters.** -/
inductive Anchor where
  /-- The start of the text. -/
  | textStart
  /-- The start of a line; with a single line, of the text. -/
  | lineStart
  /-- The end of the text. -/
  | textEnd
  /-- The end of a line; with a single line, the end of the text or its final line feed. -/
  | lineEnd
  /-- A word character on exactly one side. -/
  | wordEdge
  /-- Not between a word character and something else. -/
  | notWordEdge
  deriving DecidableEq, Repr

/-- **A regular expression.** -/
inductive Node where
  /-- Matches the empty text. -/
  | empty
  /-- Matches one character of a set. -/
  | set (chars : CharSet)
  /-- Matches one character, normally not a line feed. -/
  | dot
  /-- One after the other. -/
  | seq (first second : Node)
  /-- The first, or failing that the second. -/
  | alt (first second : Node)
  /-- At least `least` times and at most `most` times, if there is a bound. Greedy repetition
  tries more before fewer, lazy repetition the other way round. -/
  | repeated (body : Node) (least : Nat) (most : Option Nat) (greedy : Bool)
  /-- A group that remembers what it matched. -/
  | group (index : Nat) (body : Node)
  /-- What a group matched, once more. -/
  | backref (index : Nat)
  /-- A test of the place. -/
  | anchor (test : Anchor)
  /-- The body matches here, or does not; the place stays. -/
  | lookahead (body : Node) (expected : Bool)
  /-- The body matches the one character before, or does not. -/
  | lookbehind (body : Node) (expected : Bool)
  deriving DecidableEq, Repr

end AmbiLex.Regex
