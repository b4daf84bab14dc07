import AmbiLex.Pattern
import AmbiLex.Regex.Syntax

/-!
# Matching by backtracking

A regular expression is tried at a `Place` of the text and hands every place where it can end to a
continuation, in its order of preference; the first place that the continuation accepts wins. This
is why alternatives are ordered and why the match found need not be the longest one.

The search ends because it follows the syntax tree, and a repetition without an upper bound goes
on only while it makes progress, at most once for each character left.
-/

namespace AmbiLex.Regex

/-- **A place in the text**, with what the groups have matched on the way to it. -/
structure Place where
  /-- The number of characters before the place. -/
  index : Nat
  /-- The characters before the place, the nearest first. -/
  past : List Char
  /-- The characters from the place on. -/
  rest : List Char
  /-- What the groups matched, the latest first. -/
  groups : List (Nat × List Char)

namespace Place

/-- The start of a text. -/
def start (text : List Char) : Place :=
  ⟨0, [], text, []⟩

/-- The place behind the next character, if that satisfies a test. -/
def next? (p : Place) (test : Char → Bool) : Option Place :=
  match p.rest with
  | [] => none
  | c :: rest => if test c then some ⟨p.index + 1, c :: p.past, rest, p.groups⟩ else none

/-- The place behind a given text, if that comes next. -/
def skip? (p : Place) (ignoreCase : Bool) : List Char → Option Place
  | [] => some p
  | c :: cs => do
    let q ← p.next? fun d => if ignoreCase then d.toLower = c.toLower else d = c
    q.skip? ignoreCase cs

/-- The place one character earlier. -/
def back? (p : Place) : Option Place :=
  match p.past with
  | [] => none
  | c :: past => some ⟨p.index - 1, past, c :: p.rest, p.groups⟩

/-- The text between an earlier place and this one. -/
def since (p earlier : Place) : List Char :=
  (p.past.take (p.index - earlier.index)).reverse

/-- What a group matched last. -/
def group? (p : Place) (index : Nat) : Option (List Char) :=
  p.groups.lookup index

/-- Note what a group matched. -/
def remember (p : Place) (index : Nat) (text : List Char) : Place :=
  { p with groups := (index, text) :: p.groups }

/-- Whether a word character lies on exactly one side. -/
def atWordEdge (p : Place) : Bool :=
  (p.past.head?.any CharClass.word.contains) != (p.rest.head?.any CharClass.word.contains)

/-- **Whether a place satisfies an anchor.** The edges of words are not found in an empty text,
nor is there a place that is not at an edge. -/
def satisfies (p : Place) (multiline : Bool) : Anchor → Bool
  | .textStart => p.past.isEmpty
  | .lineStart => p.past.isEmpty || multiline && p.past.head? == some '\n'
  | .textEnd => p.rest.isEmpty
  | .lineEnd => p.rest.isEmpty || p.rest == ['\n'] || multiline && p.rest.head? == some '\n'
  | .wordEdge => p.atWordEdge
  | .notWordEdge => !p.atWordEdge && !(p.past.isEmpty && p.rest.isEmpty)

end Place

/-- What is to be matched after the expression at hand. -/
abbrev Continuation := Place → Option Place

/-- An expression as a matcher: every place where it can end is offered to the continuation. -/
abbrev Matcher := Place → Continuation → Option Place

namespace Matcher

/-- Exactly `n` times. -/
def times (once : Matcher) : Nat → Matcher
  | 0, p, k => k p
  | n + 1, p, k => once p fun q => times once n q k

/-- Up to `n` times, preferring more. A repetition that makes no progress is not repeated. -/
def greedily (once : Matcher) : Nat → Matcher
  | 0, p, k => k p
  | n + 1, p, k =>
    (once p fun q => if p.index < q.index then greedily once n q k else none) <|> k p

/-- Up to `n` times, preferring fewer. A repetition that makes no progress is not repeated. -/
def lazily (once : Matcher) : Nat → Matcher
  | 0, p, k => k p
  | n + 1, p, k =>
    k p <|> once p fun q => if p.index < q.index then lazily once n q k else none

end Matcher

/-- **The matcher of an expression.** -/
def Node.run (flags : PatternFlags) : Node → Matcher
  | .empty, p, k => k p
  | .set chars, p, k => (p.next? (chars.contains flags.ignoreCase)).bind k
  | .dot, p, k => (p.next? fun c => flags.dotAll || c != '\n').bind k
  | .seq first second, p, k => first.run flags p fun q => second.run flags q k
  | .alt first second, p, k => first.run flags p k <|> second.run flags p k
  | .repeated body least most greedy, p, k =>
    Matcher.times (body.run flags) least p fun q =>
      let more := match most with
        | some most => most - least
        | none => q.rest.length
      if greedy then Matcher.greedily (body.run flags) more q k
      else Matcher.lazily (body.run flags) more q k
  | .group index body, p, k => body.run flags p fun q => k (q.remember index (q.since p))
  | .backref index, p, k =>
    ((p.group? index).bind fun text => p.skip? flags.ignoreCase text).bind k
  | .anchor test, p, k => if p.satisfies flags.multiline test then k p else none
  | .lookahead body expected, p, k =>
    match body.run flags p some, expected with
    | some q, true => k { p with groups := q.groups }
    | none, false => k p
    | _, _ => none
  | .lookbehind body expected, p, k =>
    match (p.back?.bind fun q => body.run flags q some), expected with
    | some q, true => k { p with groups := q.groups }
    | none, false => k p
    | _, _ => none

/-- **The length of the match at the start of a text.** -/
def Node.matchLength (flags : PatternFlags) (node : Node) (text : List Char) : Option Nat :=
  (node.run flags (Place.start text) some).map fun p => text.length - p.rest.length

/-- A match lies within the text. -/
theorem Node.matchLength_le {flags : PatternFlags} {node : Node} {text : List Char} {n : Nat}
    (h : node.matchLength flags text = some n) : n ≤ text.length := by
  obtain ⟨p, -, rfl⟩ := Option.map_eq_some_iff.mp h
  exact Nat.sub_le _ _

end AmbiLex.Regex
