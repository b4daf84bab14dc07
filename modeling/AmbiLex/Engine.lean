import AmbiLex.Recognizer

/-!
# Engines that fail at a dead end

Some parsing engines have a stepwise interface in which completing a position answers nothing, but
fails when the parse cannot go on. Such an `Engine` is adapted to a recognizer: faults of certain
classes, raised while a position is completed, mean that the parse failed and become an answer. All
other faults go through, and so do faults of these classes that are raised anywhere else.

The answer to a position that was completed is made up afterwards: the engine is asked whether it is
exhausted, and if it is not, what it expects. It may fail to answer either question, and nothing is
guarded by then: whatever the fault is, it goes through.
-/

namespace AmbiLex

/-- **The operations of an engine** with states `ρ` that is offered values of type `ν`. -/
structure Engine (ν ρ : Type) where
  /-- The terminals expected at the current position. -/
  terminalsExpected : EStateM Fault ρ (List String)
  /-- Offer a token of a terminal with a value and a length, at the current position. -/
  alternative : String → ν → Int → EStateM Fault ρ Unit
  /-- Finish the current position and move to the next one, or fail. -/
  complete : EStateM Fault ρ Unit
  /-- Whether no more tokens can be accepted. -/
  exhausted : EStateM Fault ρ Bool

namespace Engine

variable {ν ρ : Type}

/-- The failures that end a parse unless others are named: all ordinary ones. -/
def defaultFailures : List FaultClass :=
  [.ordinary]

/-- **What an engine says at the position it has moved to**, when it is asked. -/
def verdict (engine : Engine ν ρ) : EStateM Fault ρ Advance := do
  if ← engine.exhausted then return .exhausted
  let expected ← engine.terminalsExpected
  if expected.isEmpty then return .moreNeeded else return .nextExpected expected

/-- **Complete a position**, and take a fault of one of the given classes for a failed parse. -/
def completePosition (engine : Engine ν ρ) (failures : List FaultClass) :
    EStateM Fault ρ Advance := fun s =>
  match engine.complete s with
  | .ok _ s' => engine.verdict s'
  | .error fault s' =>
    if fault.underAny failures then .ok (.failure (some fault.message)) s' else .error fault s'

/-- **The recognizer that an engine makes.** -/
def recognizer (engine : Engine ν ρ) (failures : List FaultClass) : Recognizer ν ρ where
  terminalsExpected := engine.terminalsExpected
  alternative := engine.alternative
  completePosition := engine.completePosition failures
  exhausted := engine.exhausted

end Engine

end AmbiLex
