import AmbiLex.Pattern
import AmbiLex.Store

/-!
# Settings

A `Setting` is anything that a user may write where a token definition or a store mode is wanted.
Besides plain data these are the things that configure a lexer – patterns, store modes, callbacks,
encoders – and dictionaries of settings, the long form of a token definition.
-/

namespace AmbiLex

/-- **A value given to configure a lexer.** -/
inductive Setting where
  /-- Plain data. -/
  | plain (value : Plain)
  /-- A pattern. -/
  | pattern (p : Pattern)
  /-- A store mode. -/
  | mode (m : StoreMode)
  /-- A callback. -/
  | callback (c : Callback)
  /-- An encoder that was resolved before. -/
  | encoder (e : Encoder)
  /-- A dictionary of settings, in order. -/
  | entries (settings : List (String × Setting))

namespace Setting

/-- A string as a setting. -/
def text (s : String) : Setting :=
  plain (.text s)

/-- The absent setting. -/
def null : Setting :=
  plain .null

mutual

/-- **A setting as messages show it.** -/
def shown : Setting → String
  | .plain value => value.shown
  | .pattern p => p.shown
  | .mode m => m.shown
  | .callback c => "<function " ++ c.name ++ ">"
  | .encoder e => e.shown
  | .entries settings => Plain.bracketed "\x7b" (shownEntries settings) "\x7d"

/-- The entries of a dictionary of settings, each as its quoted key and its setting. -/
def shownEntries : List (String × Setting) → List String
  | [] => []
  | (key, setting) :: rest => (Text.quoted key ++ ": " ++ setting.shown) :: shownEntries rest

end

/-- **The entries of a setting that is a dictionary**, whether of settings or of plain data. -/
def entries? : Setting → Option (Keyed Setting)
  | entries settings => some settings
  | plain (.dict data) => some (data.map fun (key, value) => (key, plain value))
  | _ => none

/-- Whether a setting is the absent value. -/
def isNull : Setting → Bool
  | plain .null => true
  | _ => false

end Setting

/-- **The encoder that a setting asks for.** An encoder asks for itself and a callback for its
answers; a mode can be given as such or by its name. The mode that calls back cannot be given as
such, since it does not say what to call. -/
def Encoder.resolve : Setting → Except Fault Encoder
  | .encoder e => .ok e
  | .callback c => .ok (.known .custom (some c))
  | .plain (.text spelling) =>
    match StoreMode.ofSpelling? spelling with
    | some mode => .ok (.known mode none)
    | none => .error (.unknownStore (Text.quoted spelling))
  | .mode .custom => .error (.unknownStore StoreMode.custom.shown)
  | .mode mode => .ok (.known mode none)
  | setting => .error (.unknownStore setting.shown)

end AmbiLex
