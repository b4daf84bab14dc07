import AmbiLex.Recognizer

/-!
# Recognizers that follow a script

A scripted recognizer ignores the tokens it is offered, apart from noting them, and takes its
answers from a list. The answers need not make sense: a lexer has to cope with any of them.
-/

namespace AmbiLex

/-- **What happens when a position is completed.** -/
inductive RecognizerCue where
  /-- The recognizer answers, and from then on may be exhausted. -/
  | answer (advance : Advance) (exhausts : Bool)
  /-- The recognizer fails. -/
  | raise (fault : Fault)

/-- **The state of a scripted recognizer.** -/
structure ScriptedState (ν : Type) where
  /-- What is left of the script. -/
  script : List RecognizerCue
  /-- What was done so far; completions are noted with the number of cues left before. -/
  log : Array (RecognizerEvent ν)
  /-- Whether no more tokens can be accepted. -/
  exhausted : Bool

namespace ScriptedState

variable {ν : Type}

/-- Nothing was done yet. -/
def initial (script : List RecognizerCue) : ScriptedState ν :=
  ⟨script, #[], false⟩

/-- The state with one more event noted. -/
def noted (s : ScriptedState ν) (event : RecognizerEvent ν) : ScriptedState ν :=
  { s with log := s.log.push event }

/-- **Complete a position as the script says.** A script that has ended is a failed parse. -/
def complete : EStateM Fault (ScriptedState ν) Advance := fun s =>
  let s' := s.noted (.completed s.script.length)
  match s.script with
  | [] => .ok (.failure (some "script ended")) s'
  | .raise fault :: later => .error fault { s' with script := later }
  | .answer advance exhausts :: later =>
    .ok advance { s' with script := later, exhausted := s.exhausted || exhausts }

end ScriptedState

/-- **The scripted recognizer.** It always expects the terminals `first`; offering a token raises
`onAlternative`, if that is given. -/
def Recognizer.scripted (ν : Type) (first : List String) (onAlternative : Option Fault) :
    Recognizer ν (ScriptedState ν) where
  terminalsExpected := fun s => .ok first s
  alternative := fun terminal value length s =>
    let s' := s.noted (.alternative terminal value length)
    match onAlternative with
    | none => .ok () s'
    | some fault => .error fault s'
  completePosition := ScriptedState.complete
  exhausted := fun s => .ok s.exhausted s

end AmbiLex
