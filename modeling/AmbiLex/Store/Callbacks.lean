import AmbiLex.Store

/-!
# A stock of callbacks

Ready-made callbacks for the common needs and for trying out what a recognizer does with values of
every form. All but `count` look at the token and its text only; `count` numbers its own calls,
and `fail` never gives a value.
-/

namespace AmbiLex.Callback

/-- A callback that depends on the token and its text only. -/
def ofFunction (name : String) (value : String → List Char → Value) : Callback :=
  ⟨name, fun _ token text => .ok (value token text)⟩

/-- The text from its end to its start. -/
def reverse : Callback :=
  ofFunction "reverse" fun _ text => .text (String.ofList text.reverse)

/-- The token and the text with a colon between them. -/
def join : Callback :=
  ofFunction "join" fun token text => .text (token ++ ":" ++ String.ofList text)

/-- The length of the text. -/
def length : Callback :=
  ofFunction "length" fun _ text => .int text.length

/-- No value. -/
def none : Callback :=
  ofFunction "none" fun _ _ => .null

/-- The list of the token and the text. -/
def list : Callback :=
  ofFunction "list" fun token text => .list [token, String.ofList text]

/-- The pair of the token and the text. -/
def pair : Callback :=
  ofFunction "pair" fun token text => .pair token (String.ofList text)

/-- The token's value with the roles of name and text exchanged. -/
def struct : Callback :=
  ofFunction "struct" fun token text => .token (String.ofList text) token

/-- The mark of a token without meaning. -/
def discard : Callback :=
  ofFunction "discard" fun _ _ => .discarded

/-- The empty text. -/
def empty : Callback :=
  ofFunction "empty" fun _ _ => .text ""

/-- Whether the text has more than two characters. -/
def isLong : Callback :=
  ofFunction "is_long" fun _ text => .bool (2 < text.length)

/-- The number of calls of this callback so far, this one included. -/
def count : Callback :=
  ⟨"count", fun calls _ _ => .ok (.int (calls.countP (·.callback = "count") + 1))⟩

/-- A callback that always fails. -/
def fail : Callback :=
  ⟨"fail", fun _ token text =>
    .error (.raised ⟨.value, [.text ("bad " ++ token ++ ": " ++ String.ofList text)]⟩)⟩

/-- The whole stock. -/
def stock : List Callback :=
  [reverse, join, length, none, list, pair, struct, discard, empty, isLong, count, fail]

/-- The callback of a name. -/
def named? (name : String) : Option Callback :=
  stock.find? (·.name = name)

end AmbiLex.Callback
