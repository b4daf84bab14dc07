import AmbiLex.Engine
import AmbiLex.Recognizer.Sequence

/-!
# Sequences of terminals as an engine

The recognizer for sequences in the dress of an engine: it says nothing about a position it has
completed, but fails when the parse cannot go on.
-/

namespace AmbiLex

/-- **Turn a failed parse into a fault** of the engine. -/
def Engine.ofAdvance (advance : Advance) : Except Fault Unit :=
  match advance.kind with
  | .failure =>
    .error (.raised ⟨.engine, [advance.detail.elim .null .text]⟩)
  | _ => .ok ()

/-- **The engine that leaves the work to a recognizer.** -/
def Recognizer.engine {ν ρ : Type} (recognizer : Recognizer ν ρ) : Engine ν ρ where
  terminalsExpected := recognizer.terminalsExpected
  alternative := recognizer.alternative
  complete := do MonadExcept.ofExcept (Engine.ofAdvance (← recognizer.completePosition))
  exhausted := recognizer.exhausted

/-- **The engine of a grammar of sequences.** -/
def SequenceGrammar.engine (g : SequenceGrammar) (ν : Type) : Engine ν (SequenceState ν) :=
  (g.recognizer ν).engine

end AmbiLex
