import AmbiLex.Fault
import AmbiLex.Keyed
import AmbiLex.Value

/-!
# Store modes and encoders

A store mode decides what value a matched token carries when it is handed to the recognizer. It is
given once per token, or once for all tokens, and resolved into an `Encoder`; matching never looks
at the spelling of a mode again.

Four modes make their value from the token's name and the matched text alone. The fifth asks a
`Callback`. A callback may fail, and the only memory it may consult are the calls made before: the
record of these calls is the state that encoding works on.
-/

namespace AmbiLex

/-- **How the value of a token is made.** -/
inductive StoreMode where
  /-- The name of the token with its text. -/
  | struct
  /-- The pair of the token's name and its text. -/
  | tuple
  /-- The text alone. -/
  | scalar
  /-- The mark of a token without meaning. -/
  | discard
  /-- Whatever a callback gives. -/
  | custom
  deriving DecidableEq, Repr

namespace StoreMode

/-- All store modes, in order. -/
def all : List StoreMode :=
  [struct, tuple, scalar, discard, custom]

/-- The name of a mode. -/
def label : StoreMode → String
  | struct => "STRUCT"
  | tuple => "TUPLE"
  | scalar => "SCALAR"
  | discard => "DISCARD"
  | custom => "CUSTOM"

/-- Modes are numbered from 1. -/
def number : StoreMode → Nat
  | struct => 1
  | tuple => 2
  | scalar => 3
  | discard => 4
  | custom => 5

/-- A mode as messages show it. -/
def shown (mode : StoreMode) : String :=
  "<StoreMode." ++ mode.label ++ ": " ++ toString mode.number ++ ">"

/-- **The spellings of the modes that can be asked for by name.** A callback is asked for by
giving it. -/
def spellings : Keyed StoreMode :=
  [("struct", struct), ("tuple", tuple), ("scalar", scalar), ("discard", discard)]

/-- The mode of a spelling, in which the case of letters does not matter. -/
def ofSpelling? (spelling : String) : Option StoreMode :=
  spellings.get? spelling.toLower

end StoreMode

/-- **One call of a callback**: which one was called, for which token and with which text. -/
structure Call where
  /-- The name of the callback. -/
  callback : String
  /-- The name of the token. -/
  token : String
  /-- The matched text. -/
  text : List Char
  deriving DecidableEq, Repr

/-- **A callback that makes values.** -/
structure Callback where
  /-- The name of the callback. -/
  name : String
  /-- Its answer, given the calls made before, a token's name and the matched text. -/
  answer : List Call → String → List Char → Except Fault Value

/-- **A resolved store mode.** -/
inductive Encoder where
  /-- A mode, and the callback that the last mode asks. -/
  | known (mode : StoreMode) (callback : Option Callback)
  /-- An encoder that was made with something that is no mode. It stays unnoticed until it is
  asked for a value. -/
  | unknown (mode : Plain)

namespace Encoder

/-- The mode of an encoder, if it is one. -/
def mode? : Encoder → Option StoreMode
  | known mode _ => some mode
  | unknown _ => none

/-- An encoder as messages show it. -/
def shown : Encoder → String
  | known mode callback =>
    "ValueEncoder(mode=" ++ mode.shown ++ ", callback="
      ++ (callback.elim "None" fun c => "<function " ++ c.name ++ ">") ++ ")"
  | unknown mode => "ValueEncoder(mode=" ++ mode.shown ++ ", callback=None)"

/-- **The value stored for a matched token.** Calls of callbacks are recorded, those that fail
too. -/
def encode (encoder : Encoder) (token : String) (text : List Char) :
    EStateM Fault (List Call) Value := fun calls =>
  match encoder with
  | known .struct _ => .ok (.token token (String.ofList text)) calls
  | known .tuple _ => .ok (.pair token (String.ofList text)) calls
  | known .scalar _ => .ok (.text (String.ofList text)) calls
  | known .discard _ => .ok .discarded calls
  | known .custom none => .error .noCallback calls
  | known .custom (some callback) =>
    let calls' := calls ++ [⟨callback.name, token, text⟩]
    match callback.answer calls token text with
    | .ok value => .ok value calls'
    | .error fault => .error fault calls'
  | unknown mode => .error (.unknownMode mode.spoken) calls

end Encoder

end AmbiLex
