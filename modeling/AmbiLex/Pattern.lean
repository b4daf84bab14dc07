import AmbiLex.Text.Quoted

/-!
# Patterns

To the lexer a pattern is a black box that answers one question: how many characters at the start
of a text does it match? Nothing is assumed of the answer except that it is not longer than the
text. In particular a pattern may match the empty string, need not match the longest text it
could, and may change its mind when the text grows.
-/

namespace AmbiLex

/-- **The options of a regular expression.** -/
structure PatternFlags where
  /-- Letters match whatever their case. -/
  ignoreCase : Bool := false
  /-- Lines start and end within the text too. -/
  multiline : Bool := false
  /-- The dot matches a line feed too. -/
  dotAll : Bool := false
  deriving DecidableEq, Repr

/-- The options as messages show them. Classes of characters are always those of ASCII. -/
def PatternFlags.shown (flags : PatternFlags) : String :=
  String.intercalate "|" <|
    (if flags.ignoreCase then ["re.IGNORECASE"] else [])
      ++ (if flags.multiline then ["re.MULTILINE"] else [])
      ++ (if flags.dotAll then ["re.DOTALL"] else [])
      ++ ["re.ASCII"]

/-- **A pattern**: how it was written, and what it matches at the start of a text. -/
structure Pattern where
  /-- The regular expression as it was written. -/
  source : String
  /-- Its options. -/
  flags : PatternFlags
  /-- The length of the match at the start of a text, if there is one. -/
  matchLength : List Char → Option Nat
  /-- A match lies within the text. -/
  matchLength_le : ∀ {text n}, matchLength text = some n → n ≤ text.length

namespace Pattern

/-- How many characters of a pattern's quoted source are shown at most. -/
def shownLength : Nat := 200

/-- A pattern as messages show it. Long ones are cut off, wherever that may be. -/
def shown (p : Pattern) : String :=
  "re.compile(" ++ String.ofList ((Text.quotedChars p.source.toList).take shownLength) ++ ", "
    ++ p.flags.shown ++ ")"

/-- **Whether the match takes up the whole of a non-empty text**, so that more text might change
it. -/
def spans (p : Pattern) (text : List Char) : Bool :=
  !text.isEmpty && p.matchLength text == some text.length

@[simp] theorem spans_iff {p : Pattern} {text : List Char} :
    p.spans text = true ↔ text ≠ [] ∧ p.matchLength text = some text.length := by
  simp [spans]

end Pattern

end AmbiLex
