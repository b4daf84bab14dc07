import AmbiLex.Fault

/-!
# Recognizers

A lexer does not parse: it hands tokens to a `Recognizer`. At every position of the input any
number of terminals, of different lengths, can be offered as alternatives, and the recognizer
decides which of them fit the grammar. When all alternatives of a position have been offered, the
position is completed, and the recognizer answers with an `Advance`.

A recognizer is a record of operations on a state of its own. Each operation may fail, and then
leaves the state as it is at that moment.
-/

namespace AmbiLex

/-! ## Advances -/

/-- **What a recognizer says when a position is completed.** -/
inductive AdvanceKind where
  /-- Nothing is expected at the new position, but tokens offered earlier end further ahead, so
  the next position is to be completed too. -/
  | moreNeeded
  /-- Terminals are expected at the new position. -/
  | nextExpected
  /-- The grammar cannot accept any more tokens. -/
  | exhausted
  /-- No alternative can continue the parse. -/
  | failure
  /-- Something that is none of these. -/
  | unknown (label : Plain)

namespace AdvanceKind

/-- All known kinds, in order. -/
def all : List AdvanceKind :=
  [moreNeeded, nextExpected, exhausted, failure]

/-- The name of a kind, if it is a known one. -/
def label? : AdvanceKind → Option String
  | moreNeeded => some "MORE_NEEDED"
  | nextExpected => some "NEXT_EXPECTED"
  | exhausted => some "EXHAUSTED"
  | failure => some "FAILURE"
  | unknown _ => none

/-- Known kinds are numbered from 1. -/
def number? : AdvanceKind → Option Nat
  | moreNeeded => some 1
  | nextExpected => some 2
  | exhausted => some 3
  | failure => some 4
  | unknown _ => none

/-- A kind as messages show it. -/
def shown : AdvanceKind → String
  | moreNeeded => "<AdvanceKind.MORE_NEEDED: 1>"
  | nextExpected => "<AdvanceKind.NEXT_EXPECTED: 2>"
  | exhausted => "<AdvanceKind.EXHAUSTED: 3>"
  | failure => "<AdvanceKind.FAILURE: 4>"
  | unknown label => label.shown

/-- Whether two kinds are the same. An unknown kind is never a known one. -/
def same : AdvanceKind → AdvanceKind → Bool
  | unknown a, unknown b => a.same b
  | a, b => a.label?.isSome && a.label? == b.label?

end AdvanceKind

/-- **The answer to completing a position.** -/
structure Advance where
  /-- What the recognizer says. -/
  kind : AdvanceKind
  /-- The terminals expected at the new position. -/
  terminals : List String := []
  /-- Why the parse cannot continue. -/
  detail : Option String := none

namespace Advance

/-- The next position is to be completed too. -/
def moreNeeded : Advance :=
  ⟨.moreNeeded, [], none⟩

/-- Terminals are expected at the new position. -/
def nextExpected (terminals : List String) : Advance :=
  ⟨.nextExpected, terminals, none⟩

/-- No more tokens can be accepted. -/
def exhausted : Advance :=
  ⟨.exhausted, [], none⟩

/-- The parse cannot continue. -/
def failure (detail : Option String) : Advance :=
  ⟨.failure, [], detail⟩

/-- A detail as messages show it. -/
def shownDetail (detail : Option String) : String :=
  detail.elim "None" Text.quoted

/-- An answer as messages show it. -/
def shown (a : Advance) : String :=
  "Advance(kind=" ++ a.kind.shown ++ ", terminals="
    ++ Plain.shownTuple (a.terminals.map Text.quoted) ++ ", detail=" ++ shownDetail a.detail ++ ")"

/-- Whether two answers are the same in every field. -/
def same (a b : Advance) : Bool :=
  a.kind.same b.kind && a.terminals == b.terminals && a.detail == b.detail

end Advance

/-! ## The operations -/

/-- **The operations of a recognizer** with states `ρ` that is offered values of type `ν`. -/
structure Recognizer (ν ρ : Type) where
  /-- The terminals expected at the current position. -/
  terminalsExpected : EStateM Fault ρ (List String)
  /-- Offer a token of a terminal with a value and a length, at the current position. -/
  alternative : String → ν → Int → EStateM Fault ρ Unit
  /-- Finish the current position and move to the next one. -/
  completePosition : EStateM Fault ρ Advance
  /-- Whether no more tokens can be accepted. -/
  exhausted : EStateM Fault ρ Bool

/-- **What was done with a recognizer**, for those that keep a record of it. -/
inductive RecognizerEvent (ν : Type) where
  /-- A token was offered. -/
  | alternative (terminal : String) (value : ν) (length : Int)
  /-- A position was completed. The number is the position, or what else the recognizer counts. -/
  | completed (number : Nat)
  deriving DecidableEq, Repr

/-- The token that was offered, if one was. -/
def RecognizerEvent.submission? {ν : Type} : RecognizerEvent ν → Option (String × ν × Int)
  | alternative terminal value length => some (terminal, value, length)
  | completed _ => none

end AmbiLex
