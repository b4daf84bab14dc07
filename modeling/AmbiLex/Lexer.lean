import AmbiLex.Token.Match

/-!
# Lexers

A `Lexer` holds a compiled table of tokens and the settings of a run. This module says how a lexer
is set up, and how it looks for a single token, with the diagnostics that go with it.

Diagnostic lines are only made while debugging is on. They go to a sink if one was given, and to
the log otherwise; either way they are collected here in the order in which they are made, since
nothing a lexer does depends on them.
-/

namespace AmbiLex

/-- **Where diagnostic lines go.** -/
inductive Sink where
  /-- To the log. -/
  | log
  /-- To a collector that was given for them. -/
  | collector
  deriving DecidableEq, Repr

/-- **A lexer**: compiled tokens and the settings of a run. -/
structure Lexer where
  /-- The tokens. -/
  tokens : TokenTable
  /-- The least size of the buffer; 0 reads the whole source before matching. -/
  minBuffer : Nat
  /-- Whether diagnostic lines are made. -/
  debug : Bool
  /-- The filter of the buffer. -/
  filter : Option Filter
  /-- Where diagnostic lines go. -/
  sink : Sink

/-- **The settings that a lexer is made with**, apart from its tokens. -/
structure LexerOptions where
  /-- The store mode of tokens that give none. -/
  store : Setting := .text "struct"
  /-- The least size of the buffer, which should be a natural number. -/
  minBuffer : Plain := .int 4096
  /-- Whether diagnostic lines are made. -/
  debug : Bool := false
  /-- The filter of the buffer. -/
  filter : Option Filter := none
  /-- Where diagnostic lines go. -/
  sink : Sink := .log

/-- **What there is to say about settings that are allowed but unlikely to be meant.** -/
def LexerOptions.warnings (options : LexerOptions) : List String :=
  if options.sink = .collector ∧ options.debug = false then
    ["diagnostics given to Lexer with debug=False will not be called"]
  else []

/-- **The least size of a buffer that a value stands for**: natural numbers only. A truth value is
not a number here. -/
def Lexer.minBufferOf : Plain → Except Fault Nat
  | .int (.ofNat n) => .ok n
  | value => .error (.badMinBuffer value.shown)

namespace Lexer

/-- **Make a lexer**: compile its tokens, then look at the size of its buffer. -/
def make (definitions : List (String × Setting)) (options : LexerOptions) :
    Except Fault Lexer := do
  let tokens ← TokenTable.compile definitions options.store
  let minBuffer ← minBufferOf options.minBuffer
  return ⟨tokens, minBuffer, options.debug, options.filter, options.sink⟩

/-- Change the least size of the buffer. -/
def setMinBuffer (lexer : Lexer) (value : Plain) : Except Fault Lexer := do
  return { lexer with minBuffer := ← minBufferOf value }

/-- A buffer of a source, from which nothing was read yet. -/
def bufferOf (lexer : Lexer) (source : Source) : Buffer :=
  Buffer.start source lexer.minBuffer lexer.filter

end Lexer

/-! ## Looking for a token -/

/-- **What looking for tokens works on**: the buffer, and the records of the callbacks called and
of the diagnostic lines made. -/
structure Scan where
  /-- The input buffer. -/
  buffer : Buffer
  /-- The calls of callbacks so far. -/
  calls : List Call
  /-- The diagnostic lines so far. -/
  lines : Array String

/-- Work on a scan, which may fail. -/
abbrev ScanM := EStateM Fault Scan

namespace Scan

variable {α : Type}

/-- Work on the buffer of a scan. -/
def onBuffer (work : BufferM α) : ScanM α := fun s =>
  match work s.buffer with
  | .ok a buffer => .ok a { s with buffer := buffer }
  | .error fault buffer => .error fault { s with buffer := buffer }

/-- Work on the calls of a scan. -/
def onCalls (work : EStateM Fault (List Call) α) : ScanM α := fun s =>
  match work s.calls with
  | .ok a calls => .ok a { s with calls := calls }
  | .error fault calls => .error fault { s with calls := calls }

end Scan

namespace Lexer

/-- **Make a diagnostic line** about the buffer, if debugging is on. -/
def report (lexer : Lexer) (line : Buffer → String) : ScanM Unit := do
  if lexer.debug then modify fun s => { s with lines := s.lines.push (line s.buffer) }

/-- The line about a name that is in no table. -/
def unknownLine (name : String) : String :=
  "Unknown token: " ++ Text.quoted name

/-- The line about a token that was looked for, given the buffer after looking. -/
def soughtLine (name : String) (found : Option Found) (b : Buffer) : String :=
  match found with
  | none => "No " ++ Text.quoted name ++ " in " ++ String.ofList (b.preview Buffer.previewLength)
  | some found =>
    "Token " ++ Text.quoted name ++ " matched " ++ String.ofList (b.preview found.length)

/-- **Look for the token of a name at the start of the buffer.** A name that is in no table is
not found. -/
def seek (lexer : Lexer) (name : String) : ScanM (Option Found) :=
  match lexer.tokens.find? name with
  | none => do
    lexer.report fun _ => unknownLine name
    return none
  | some spec => do
    let found ← Scan.onBuffer spec.seek
    lexer.report (soughtLine name found)
    return found

/-- **Make the value of a token that was found.** -/
def store (lexer : Lexer) (name : String) (text : List Char) : ScanM Value :=
  Scan.onCalls (lexer.tokens.encode name text)

end Lexer

end AmbiLex
