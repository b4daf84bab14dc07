import AmbiLex.Lexer.Run

/-!
# What others see of the library

Others know the parts of the library by the names that it exports, and the members of its
enumerations by name and number. An exported name need not be that of a definition: the recognizer
that an engine makes, for one, is known as `EarlemeRecognizer`. The numbers are not free either.
Members are numbered from 1 in the order in which they are listed (`Interface.members_numbered`).
-/

namespace AmbiLex.Interface

/-- **The names that the library exports**, in order. -/
def names : List String :=
  ["Advance", "AdvanceKind", "DISCARD", "EarlemeRecognizer", "InvalidStoreMode",
    "InvalidTokenSpec", "Lexer", "LexerConfigurationError", "Outcome", "Recognition", "Recognizer",
    "StoreMode", "TokenValue", "is_discarded"]

/-- **The members of an enumeration**, each with its number, if there is one of that name. -/
def members? : String → Option (List (String × Nat))
  | "TokenKind" => some (TokenKind.all.map fun kind => (kind.label, kind.number))
  | "StoreMode" => some (StoreMode.all.map fun mode => (mode.label, mode.number))
  | "Outcome" => some (Outcome.all.map fun outcome => (outcome.label, outcome.number))
  | "AdvanceKind" => AdvanceKind.all.mapM fun kind => return (← kind.label?, ← kind.number?)
  | _ => none

/-- **Members are numbered in order.** -/
theorem members_numbered {name : String} {members : List (String × Nat)}
    (h : members? name = some members) :
    members.map Prod.snd = List.range' 1 members.length := by
  unfold members? at h
  split at h
  case h_5 => cases h
  all_goals
    obtain rfl := Option.some.inj h
    rfl

end AmbiLex.Interface
