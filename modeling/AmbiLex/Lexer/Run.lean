import AmbiLex.Lexer
import AmbiLex.Recognizer

/-!
# Feeding a recognizer

A run feeds a recognizer with the tokens of a source. It goes in rounds. At the start of a round
every expected terminal is looked for at the start of the buffer, and each one that is found is
offered. Then positions are completed, one by one, until the recognizer expects something again;
as many characters are consumed, the buffer is refilled, and the next round begins. Ambiguity is
left for the recognizer to resolve.

A run ends when the recognizer is exhausted, when it fails, or when the input ends. It is given as
a machine that takes one step after the other, because a recognizer may always ask for one more
position to be completed and so never let the run end. `Lexer.recognize` takes a limit on the number
of steps, and a run that was not over by then has no result.
-/

namespace AmbiLex

/-- **How a run ended.** -/
inductive Outcome where
  /-- The recognizer accepts no more tokens: the grammar is satisfied. -/
  | exhausted
  /-- The recognizer found no way to continue. -/
  | failed
  /-- The input ended while terminals were expected. -/
  | endOfInput
  deriving DecidableEq, Repr

namespace Outcome

/-- All outcomes, in order. -/
def all : List Outcome :=
  [exhausted, failed, endOfInput]

/-- The name of an outcome. -/
def label : Outcome → String
  | exhausted => "EXHAUSTED"
  | failed => "FAILED"
  | endOfInput => "END_OF_INPUT"

/-- Outcomes are numbered from 1. -/
def number : Outcome → Nat
  | exhausted => 1
  | failed => 2
  | endOfInput => 3

end Outcome

/-- **The result of a run**: how it ended, and how many characters were consumed by then. -/
inductive Recognition where
  /-- The recognizer accepts no more tokens. -/
  | exhausted (position : Int)
  /-- The recognizer found no way to continue, and may have said why. -/
  | failed (position : Int) (detail : Option String)
  /-- The input ended while terminals were expected. -/
  | endOfInput (position : Int) (expected : List String)
  deriving DecidableEq, Repr

namespace Recognition

/-- How the run ended. -/
def outcome : Recognition → Outcome
  | exhausted _ => .exhausted
  | failed _ _ => .failed
  | endOfInput _ _ => .endOfInput

/-- The number of characters consumed. -/
def position : Recognition → Int
  | exhausted position | failed position _ | endOfInput position _ => position

/-- What the recognizer said about its failure. -/
def detail? : Recognition → Option String
  | failed _ detail => detail
  | _ => none

/-- The terminals that were expected when the input ended. -/
def expected : Recognition → List String
  | endOfInput _ expected => expected
  | _ => []

end Recognition

/-! ## The machine -/

/-- **Everything a run works on.** -/
structure Run (ρ : Type) where
  /-- The buffer and the records. -/
  scan : Scan
  /-- The state of the recognizer. -/
  recognizer : ρ

/-- Work on a run, which may fail. -/
abbrev RunM (ρ : Type) := EStateM Fault (Run ρ)

namespace Run

variable {ρ α : Type}

/-- Work on the scan of a run. -/
def onScan (work : ScanM α) : RunM ρ α := fun r =>
  match work r.scan with
  | .ok a scan => .ok a { r with scan := scan }
  | .error fault scan => .error fault { r with scan := scan }

/-- Work on the recognizer of a run. -/
def onRecognizer (work : EStateM Fault ρ α) : RunM ρ α := fun r =>
  match work r.recognizer with
  | .ok a recognizer => .ok a { r with recognizer := recognizer }
  | .error fault recognizer => .error fault { r with recognizer := recognizer }

/-- The buffer of a run. -/
def buffer (r : Run ρ) : Buffer :=
  r.scan.buffer

/-- Consume characters. -/
def consume (count : Nat) : RunM ρ Unit :=
  modify fun r => { r with scan := { r.scan with buffer := r.scan.buffer.consume count } }

/-- Refill the buffer. -/
def refill : RunM ρ Unit := do
  let _ ← onScan (Scan.onBuffer Buffer.refill)

end Run

/-- **Where a run stands between two steps.** -/
inductive Phase where
  /-- A round begins, and these terminals are expected. -/
  | matching (expected : List String)
  /-- The tokens of a round were offered, and so many positions have been completed since. -/
  | completing (done : Nat)
  deriving DecidableEq, Repr

/-- **What a step comes to.** -/
inductive Progress where
  /-- The run goes on. -/
  | next (phase : Phase)
  /-- The run is over. -/
  | over (recognition : Recognition)
  deriving DecidableEq, Repr

namespace Lexer

variable {ρ : Type}

/-- The line about the terminals expected at the start of a round. -/
def expectedLine (expected : List String) : String :=
  "Expect token(s): " ++ String.intercalate ", " (expected.map Text.quoted)

/-- The line about the buffer at the start of a round. -/
def bufferLine (b : Buffer) : String :=
  "Buffer start: " ++ String.ofList (b.preview Buffer.previewLength) ++ "..."

/-- The line about a parse that failed. -/
def failureLine (detail : Option String) : String :=
  "Failed to parse: " ++ detail.getD "None"

/-- **Look for a terminal and offer it if it is found.** -/
def offer (lexer : Lexer) (recognizer : Recognizer Value ρ) (name : String) : RunM ρ Unit := do
  match ← Run.onScan (lexer.seek name) with
  | none => return
  | some found =>
    let value ← Run.onScan (lexer.store name found.text)
    Run.onRecognizer (recognizer.alternative name value found.length)

/-- **Begin a round**: if there is input left, offer every expected terminal that is found. -/
def beginRound (lexer : Lexer) (recognizer : Recognizer Value ρ) (expected : List String) :
    RunM ρ Progress := do
  let b := (← get).buffer
  if b.text.isEmpty then return .over (.endOfInput b.consumed expected)
  Run.onScan (lexer.report fun _ => expectedLine expected)
  Run.onScan (lexer.report bufferLine)
  expected.forM (lexer.offer recognizer)
  return .next (.completing 0)

/-- Consume what a round completed, and refill the buffer if it became too short. -/
def finishRound (lexer : Lexer) (completed : Nat) : RunM ρ Unit := do
  Run.consume completed
  if (← get).buffer.text.length < lexer.minBuffer then Run.refill

/-- **Complete one more position**, after `done` others of the round. -/
def completeNext (lexer : Lexer) (recognizer : Recognizer Value ρ) (done : Nat) :
    RunM ρ Progress := do
  let advance ← Run.onRecognizer recognizer.completePosition
  match advance.kind with
  | .exhausted =>
    Run.consume (done + 1)
    return .over (.exhausted (← get).buffer.consumed)
  | .failure =>
    Run.onScan (lexer.report fun _ => failureLine advance.detail)
    return .over (.failed (← get).buffer.consumed advance.detail)
  | .nextExpected =>
    lexer.finishRound (done + 1)
    return .next (.matching advance.terminals)
  | .moreNeeded => return .next (.completing (done + 1))
  | .unknown _ => throw (.unknownAdvance advance.shown)

/-- **One step of a run.** -/
def step (lexer : Lexer) (recognizer : Recognizer Value ρ) : Phase → RunM ρ Progress
  | .matching expected => lexer.beginRound recognizer expected
  | .completing done => lexer.completeNext recognizer done

/-- **Take steps until the run is over**, but no more than the limit. -/
def proceed (lexer : Lexer) (recognizer : Recognizer Value ρ) :
    Nat → Phase → RunM ρ (Option Recognition)
  | 0, _ => return none
  | limit + 1, phase => do
    match ← lexer.step recognizer phase with
    | .over recognition => return some recognition
    | .next phase => lexer.proceed recognizer limit phase

/-- **The beginning of a run.** If the recognizer expects nothing, the run is over before anything
is read. -/
def begin (recognizer : Recognizer Value ρ) : RunM ρ Progress := do
  let expected ← Run.onRecognizer recognizer.terminalsExpected
  if expected.isEmpty then return .over (.exhausted 0)
  Run.refill
  return .next (.matching expected)

/-- **Feed a recognizer with the tokens of the buffer's source**, for at most `limit` steps. -/
def recognize (lexer : Lexer) (recognizer : Recognizer Value ρ) (limit : Nat) :
    RunM ρ (Option Recognition) := do
  match ← begin recognizer with
  | .over recognition => return some recognition
  | .next phase => lexer.proceed recognizer limit phase

/-- **The run of a lexer over a source before its beginning**, given the recognizer's state and
the calls of callbacks made before. -/
def run (lexer : Lexer) (source : Source) (recognizer : ρ) (calls : List Call) : Run ρ :=
  ⟨⟨lexer.bufferOf source, calls, #[]⟩, recognizer⟩

end Lexer

end AmbiLex
