import AmbiLex.Setting

/-!
# Tokens

A `TokenSpec` says how to find one terminal of the grammar at the start of the input, and what to
store for it once it is found. What is looked for is a single character, a longer literal, or a
pattern; a single character is set apart because it never needs more input than is already there.

Specifications are compiled from the user's settings. A definition is a string or a pattern, or a
dictionary with the string or pattern under `match` and optionally a store mode of its own under
`store`. Compiling a table of definitions stops at the first one that cannot be used.
-/

namespace AmbiLex

/-- **The kinds of tokens.** -/
inductive TokenKind where
  /-- One character. -/
  | singleChar
  /-- A fixed text. -/
  | literal
  /-- Whatever a pattern matches. -/
  | pattern
  deriving DecidableEq, Repr

namespace TokenKind

/-- All kinds of tokens, in order. -/
def all : List TokenKind :=
  [singleChar, literal, pattern]

/-- The name of a kind. -/
def label : TokenKind → String
  | singleChar => "SINGLE_CHAR"
  | literal => "LITERAL"
  | pattern => "PATTERN"

/-- Kinds are numbered from 1. -/
def number : TokenKind → Nat
  | singleChar => 1
  | literal => 2
  | pattern => 3

end TokenKind

/-- **What to look for at the start of the input.** -/
inductive Target where
  /-- A text that is compared with the first character of the input. -/
  | singleChar (text : List Char)
  /-- A text that the input should start with. -/
  | literal (text : List Char)
  /-- A pattern that the input should match. -/
  | pattern (p : Pattern)
  /-- Something of no known kind, which stays unnoticed until it is looked for. -/
  | unknown (kind : Plain)

namespace Target

/-- The kind of a target, if it has one. -/
def kind? : Target → Option TokenKind
  | singleChar _ => some .singleChar
  | literal _ => some .literal
  | pattern _ => some .pattern
  | unknown _ => none

/-- The target of a text: a single character if it has exactly one. -/
def ofText (text : List Char) : Target :=
  if text.length = 1 then singleChar text else literal text

/-- **The target that a setting stands for**, if it stands for one: strings do, and patterns. -/
def ofSetting? : Setting → Option Target
  | .plain (.text s) => some (ofText s.toList)
  | .pattern p => some (pattern p)
  | _ => none

end Target

/-- **How to find one terminal, and what to store for it.** -/
structure TokenSpec where
  /-- The name of the terminal. -/
  name : String
  /-- What to look for. -/
  target : Target
  /-- How the stored value is made. -/
  encoder : Encoder

namespace TokenSpec

/-- The value stored for a matched text. -/
def encode (spec : TokenSpec) (text : List Char) : EStateM Fault (List Call) Value :=
  spec.encoder.encode spec.name text

/-- A token whose target and encoder are settled. The empty text cannot be looked for. -/
def ofTarget (name : String) (encoder : Encoder) : Target → Except Fault TokenSpec
  | .literal [] => .error (.emptyLiteral name)
  | target => .ok ⟨name, target, encoder⟩

/-- A token whose definition is `subject`, which is no dictionary. -/
def ofSubject (name : String) (encoder : Encoder) (subject : Setting) : Except Fault TokenSpec :=
  match Target.ofSetting? subject with
  | none => .error (.notMatchable name subject.shown)
  | some target => ofTarget name encoder target

/-- The encoder of a definition in dictionary form: its own, or the default where it gives none. -/
def encoderOf (default : Encoder) (entries : Keyed Setting) : Except Fault Encoder :=
  match entries.get? "store" with
  | none => .ok default
  | some setting => if setting.isNull then .ok default else Encoder.resolve setting

/-- **The token that a definition stands for.** A dictionary is looked into once: what stands
under `match` is not a dictionary again. -/
def compile (default : Encoder) (name : String) (definition : Setting) : Except Fault TokenSpec :=
  match definition.entries? with
  | none => ofSubject name default definition
  | some entries =>
    match entries.get? "match" with
    | none => .error (.noMatchEntry name)
    | some subject => do
      let encoder ← encoderOf default entries
      ofSubject name encoder subject

end TokenSpec

/-- **The tokens of a grammar**, in the order of their names' first appearance. -/
abbrev TokenTable := List TokenSpec

namespace TokenTable

/-- The token of a name. -/
def find? (table : TokenTable) (name : String) : Option TokenSpec :=
  List.find? (fun spec => spec.name == name) table

/-- **Compile the definitions of a grammar**, in which a repeated name counts once, with its last
definition. `store` is the store mode of the tokens that give none. -/
def compile (definitions : List (String × Setting)) (store : Setting) :
    Except Fault TokenTable := do
  let default ← Encoder.resolve store
  (Keyed.ofList definitions).mapM fun (name, definition) =>
    TokenSpec.compile default name definition

/-- The value that the token of a name stores for a text. -/
def encode (table : TokenTable) (name : String) (text : List Char) :
    EStateM Fault (List Call) Value := fun calls =>
  match table.find? name with
  | some spec => spec.encode text calls
  | none => .error (.unknownToken name) calls

end TokenTable

end AmbiLex
