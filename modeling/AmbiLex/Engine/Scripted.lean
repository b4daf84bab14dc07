import AmbiLex.Engine

/-!
# Engines that follow a script

A scripted engine ignores the tokens it is offered, apart from noting them, and takes what it
expects after each position from a list. It shows how an adapter and a lexer deal with an engine,
whatever the grammar.
-/

namespace AmbiLex

/-- **What happens when a position is completed.** -/
inductive EngineCue where
  /-- The engine expects other terminals from now on, and may be told whether it is exhausted. -/
  | expect (terminals : List String) (exhausted : Option Bool)
  /-- The engine fails. -/
  | raise (fault : Fault)

/-- **The state of a scripted engine.** -/
structure ScriptedEngineState (ν : Type) where
  /-- The terminals expected now. -/
  expected : List String
  /-- What is left of the script. -/
  script : List EngineCue
  /-- What was done so far; completions are noted with the number of cues left before. -/
  log : Array (RecognizerEvent ν)
  /-- Whether no more tokens can be accepted. -/
  exhausted : Bool

namespace ScriptedEngineState

variable {ν : Type}

/-- Nothing was done yet. -/
def initial (first : List String) (script : List EngineCue) : ScriptedEngineState ν :=
  ⟨first, script, #[], false⟩

/-- The state with one more event noted. -/
def noted (s : ScriptedEngineState ν) (event : RecognizerEvent ν) : ScriptedEngineState ν :=
  { s with log := s.log.push event }

/-- **Complete a position as the script says.** A script that has ended is a failed parse. -/
def complete : EStateM Fault (ScriptedEngineState ν) Unit := fun s =>
  let s' := s.noted (.completed s.script.length)
  match s.script with
  | [] => .error (.raised ⟨.engine, [.text "script ended"]⟩) s'
  | .raise fault :: later => .error fault { s' with script := later }
  | .expect terminals exhausted :: later =>
    .ok () { s' with
      script := later, expected := terminals, exhausted := exhausted.getD s.exhausted }

end ScriptedEngineState

/-- **The scripted engine.** Offering a token raises `onAlternative`, if that is given. -/
def Engine.scripted (ν : Type) (onAlternative : Option Fault) :
    Engine ν (ScriptedEngineState ν) where
  terminalsExpected := fun s => .ok s.expected s
  alternative := fun terminal value length s =>
    let s' := s.noted (.alternative terminal value length)
    match onAlternative with
    | none => .ok () s'
    | some fault => .error fault s'
  complete := ScriptedEngineState.complete
  exhausted := fun s => .ok s.exhausted s

end AmbiLex
