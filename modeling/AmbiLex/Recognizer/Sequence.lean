import AmbiLex.Keyed
import AmbiLex.Recognizer

/-!
# Recognizing sequences of terminals

A `SequenceGrammar` is a nondeterministic automaton over the names of terminals, so it describes a
regular language of token sequences. Its recognizer keeps every path through the automaton that
the offered tokens allow: at each position of the input the states that can be reached there, each
with the tokens that lead to it. Ambiguous tokens therefore give several parses.

The items of all positions are kept in one list, in the order in which they came up; what is at
hand at a position are the items with that position, in that order.
-/

namespace AmbiLex

/-- **An automaton over terminals.** A terminal may be listed for a state without leading
anywhere: then it is expected but never accepted. -/
structure SequenceGrammar where
  /-- For each state the terminals expected there and the state each leads to. -/
  transitions : Keyed (Keyed (Option String))
  /-- The state at the start of the input. -/
  start : String
  /-- The states in which a sequence is complete. -/
  accepting : List String

namespace SequenceGrammar

/-- The terminals that a state lists, with the states they lead to. -/
def transitionsFrom (g : SequenceGrammar) (state : String) : Keyed (Option String) :=
  (g.transitions.get? state).getD []

/-- **The state that a terminal leads to**, if it leads anywhere. -/
def target? (g : SequenceGrammar) (state terminal : String) : Option String :=
  ((g.transitionsFrom state).get? terminal).join

end SequenceGrammar

/-- **A state reached at a position of the input**, and the tokens that lead there. -/
structure SequenceItem (ν : Type) where
  /-- The position. -/
  position : Int
  /-- The state of the automaton. -/
  state : String
  /-- The terminals and values of the tokens that lead there, the latest first. -/
  taken : List (String × ν)

/-- **The tokens that lead to an item**, from the start of the input. -/
def SequenceItem.path {ν : Type} (item : SequenceItem ν) : List (String × ν) :=
  item.taken.reverse

/-- **The state of a recognizer for sequences.** -/
structure SequenceState (ν : Type) where
  /-- The current position. -/
  position : Nat
  /-- The items of all positions, in the order in which they came up. -/
  items : List (SequenceItem ν)
  /-- What was done so far. -/
  log : Array (RecognizerEvent ν)
  /-- Whether no more tokens can be accepted. -/
  exhausted : Bool

namespace SequenceState

variable {ν : Type}

/-- Nothing was offered yet, and the automaton is in its start state. -/
def initial (g : SequenceGrammar) : SequenceState ν :=
  ⟨0, [⟨0, g.start, []⟩], #[], false⟩

/-- **The items at a position.** -/
def itemsAt (s : SequenceState ν) (position : Nat) : List (SequenceItem ν) :=
  s.items.filter fun item => item.position = position

/-- The items at the current position. -/
def current (s : SequenceState ν) : List (SequenceItem ν) :=
  s.itemsAt s.position

/-- Whether there are items behind the current position. -/
def pending (s : SequenceState ν) : Bool :=
  s.items.any fun item => s.position < item.position

/-- **The terminals expected at the current position**: those that its states list, in order and
without repetition. -/
def expected (g : SequenceGrammar) (s : SequenceState ν) : List String :=
  (s.current.flatMap fun item => (g.transitionsFrom item.state).keys).eraseDups

/-- The item that a token leads to from an item, if the automaton accepts it there. -/
def follow (g : SequenceGrammar) (terminal : String) (value : ν) (length : Int)
    (item : SequenceItem ν) : Option (SequenceItem ν) :=
  (g.target? item.state terminal).map fun state =>
    ⟨item.position + length, state, (terminal, value) :: item.taken⟩

/-- The items that a token of length 0 leads to from some items, used once, twice, and so on up to
a number of times. -/
def stay (g : SequenceGrammar) (terminal : String) (value : ν) :
    Nat → List (SequenceItem ν) → List (SequenceItem ν)
  | 0, _ => []
  | times + 1, items =>
    let reached := items.filterMap (follow g terminal value 0)
    reached ++ stay g terminal value times reached

/-- **The items that a token leads to from some items.** A token of length 0 is used as often as the
automaton accepts it. Unless it goes around in circles, that is at most once for each state with
transitions, and no more is tried. -/
def reach (g : SequenceGrammar) (terminal : String) (value : ν) (length : Int)
    (items : List (SequenceItem ν)) : List (SequenceItem ν) :=
  if length = 0 then stay g terminal value g.transitions.length items
  else items.filterMap (follow g terminal value length)

/-- **Offer a token at the current position.** -/
def offer (g : SequenceGrammar) (terminal : String) (value : ν) (length : Int)
    (s : SequenceState ν) : SequenceState ν :=
  { s with
    items := s.items ++ reach g terminal value length s.current
    log := s.log.push (.alternative terminal value length) }

/-- Move to the next position. -/
def moved (s : SequenceState ν) : SequenceState ν :=
  { s with position := s.position + 1, log := s.log.push (.completed s.position) }

/-- **What a recognizer says at the position it has moved to.** -/
def verdict (g : SequenceGrammar) (s : SequenceState ν) : Advance :=
  if s.current.isEmpty then
    if s.pending then .moreNeeded
    else .failure (some ("No token fits at position " ++ toString (s.position - 1)))
  else if (s.expected g).isEmpty then
    if s.pending then .moreNeeded else .exhausted
  else .nextExpected (s.expected g)

/-- Whether a verdict means that no more tokens can be accepted. -/
def isFinal (advance : Advance) : Bool :=
  match advance.kind with
  | .failure | .exhausted => true
  | _ => false

/-- **Complete the current position.** Once no more tokens can be accepted, that stays so. -/
def complete (g : SequenceGrammar) (s : SequenceState ν) : Advance × SequenceState ν :=
  let verdict := s.moved.verdict g
  (verdict, { s.moved with exhausted := s.exhausted || isFinal verdict })

/-- **The parses that are complete at the current position.** -/
def parses (g : SequenceGrammar) (s : SequenceState ν) : List (List (String × ν)) :=
  (s.current.filter fun item => g.accepting.contains item.state).map SequenceItem.path

/-- The tokens that were offered so far. -/
def submitted (s : SequenceState ν) : List (String × ν × Int) :=
  s.log.toList.filterMap RecognizerEvent.submission?

/-- A token with a length is used once. -/
theorem reach_of_ne_zero {length : Int} (h : length ≠ 0) (g : SequenceGrammar) (terminal : String)
    (value : ν) (items : List (SequenceItem ν)) :
    reach g terminal value length items = items.filterMap (follow g terminal value length) :=
  if_neg h

@[simp] theorem position_moved (s : SequenceState ν) : s.moved.position = s.position + 1 := rfl

end SequenceState

/-- **The recognizer of a grammar of sequences.** -/
def SequenceGrammar.recognizer (g : SequenceGrammar) (ν : Type) :
    Recognizer ν (SequenceState ν) where
  terminalsExpected := fun s => .ok (s.expected g) s
  alternative := fun terminal value length s => .ok () (s.offer g terminal value length)
  completePosition := fun s => .ok (s.complete g).1 (s.complete g).2
  exhausted := fun s => .ok s.exhausted s

end AmbiLex
