import AmbiLex.Text.Quoted

/-!
# Plain data

A lexer is configured by data it did not choose: where a token definition, a store mode or a
buffer size is wanted, anything may turn up. What is no more than data is a `Plain` value. It is
never computed with, only recognized and **shown**: messages quote the offending value.

A fractional number is kept as the text it is shown by, since no operation looks at its value.
-/

namespace AmbiLex

/-- **A plain value.** -/
inductive Plain where
  /-- The absent value. -/
  | null
  /-- A truth value. -/
  | bool (value : Bool)
  /-- A whole number of any size. -/
  | int (value : Int)
  /-- A fractional number, by its text. -/
  | real (numeral : String)
  /-- A string. -/
  | text (value : String)
  /-- A list. -/
  | list (items : List Plain)
  /-- A dictionary with string keys, in order. -/
  | dict (entries : List (String × Plain))

/-- Items between brackets, separated by commas. -/
def Plain.bracketed (left : String) (items : List String) (right : String) : String :=
  left ++ String.intercalate ", " items ++ right

namespace Plain

/-- The truth values as they are shown. -/
def shownBool (value : Bool) : String :=
  if value then "True" else "False"

mutual

/-- **A value as messages show it**, strings quoted. -/
def shown : Plain → String
  | .null => "None"
  | .bool value => shownBool value
  | .int value => toString value
  | .real numeral => numeral
  | .text value => Text.quoted value
  | .list items => bracketed "[" (shownItems items) "]"
  | .dict entries => bracketed "\x7b" (shownEntries entries) "\x7d"

/-- The items of a list, each as it is shown. -/
def shownItems : List Plain → List String
  | [] => []
  | item :: rest => item.shown :: shownItems rest

/-- The entries of a dictionary, each as its quoted key and its value. -/
def shownEntries : List (String × Plain) → List String
  | [] => []
  | (key, value) :: rest => (Text.quoted key ++ ": " ++ value.shown) :: shownEntries rest

end

/-- A value as running text: as it is shown, but a string without its quotes. -/
def spoken : Plain → String
  | .text value => value
  | value => value.shown

/-- **Values as an argument list shows them**, between parentheses; a single one is followed by a
comma, to tell it from a parenthesis. -/
def shownTuple : List String → String
  | [one] => "(" ++ one ++ ",)"
  | items => bracketed "(" items ")"

/-- A truth value counts as the number 0 or 1. -/
def number? : Plain → Option Int
  | .bool value => some (if value then 1 else 0)
  | .int value => some value
  | _ => none

/-- Whether a value is the absent one. -/
def isNull : Plain → Bool
  | .null => true
  | _ => false

mutual

/-- **Whether two values are the same**, a truth value being a number too. Lists are compared item
by item; dictionaries are the same if they have the same keys with the same values, in whatever
order. -/
def same : Plain → Plain → Bool
  | .null, .null => true
  | .real a, .real b => a == b
  | .text a, .text b => a == b
  | .list as, .list bs => sameItems as bs
  | .dict as, .dict bs => as.length == bs.length && sameEntries as bs
  | a, b => match a.number?, b.number? with
    | some m, some n => m == n
    | _, _ => false

/-- Item by item the same. -/
def sameItems : List Plain → List Plain → Bool
  | [], [] => true
  | a :: as, b :: bs => same a b && sameItems as bs
  | _, _ => false

/-- Every entry of the first is in the second. -/
def sameEntries : List (String × Plain) → List (String × Plain) → Bool
  | [], _ => true
  | (key, a) :: as, bs => (bs.lookup key).any (fun b => same a b) && sameEntries as bs

end

end Plain

end AmbiLex
