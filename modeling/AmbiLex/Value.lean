import AmbiLex.Plain

/-!
# Stored values

A matched token reaches the recognizer as a `Value`: what its store mode made of the matched text.
Most modes give a fixed form – the text, the text with the token's name, or the mark that the
token carries no meaning – and a callback may give anything of this type.
-/

namespace AmbiLex

/-- **The value stored for a token.** -/
inductive Value where
  /-- The absent value. -/
  | null
  /-- A truth value. -/
  | bool (value : Bool)
  /-- A whole number. -/
  | int (value : Int)
  /-- A text. -/
  | text (value : String)
  /-- A list of texts. -/
  | list (items : List String)
  /-- A pair of texts. -/
  | pair (first second : String)
  /-- A token's name with a text. -/
  | token (name value : String)
  /-- The mark of a token that carries no meaning, such as punctuation. -/
  | discarded
  deriving DecidableEq, Repr

namespace Value

/-- A value as messages show it. -/
def shown : Value → String
  | null => "None"
  | bool value => Plain.shownBool value
  | int value => toString value
  | text value => Text.quoted value
  | list items => Plain.bracketed "[" (items.map Text.quoted) "]"
  | pair first second => Plain.shownTuple [Text.quoted first, Text.quoted second]
  | token name value =>
    "TokenValue(token=" ++ Text.quoted name ++ ", value=" ++ Text.quoted value ++ ")"
  | discarded => "DISCARD"

/-- **Whether a value counts as present**: neither absent, false, zero, empty nor discarded. -/
def isTruthy : Value → Bool
  | null => false
  | bool value => value
  | int value => value != 0
  | text value => !value.isEmpty
  | list items => !items.isEmpty
  | pair _ _ => true
  | token _ _ => true
  | discarded => false

/-- Whether a value is the mark of a token without meaning. -/
def isDiscarded : Value → Bool
  | discarded => true
  | _ => false

end Value

end AmbiLex
