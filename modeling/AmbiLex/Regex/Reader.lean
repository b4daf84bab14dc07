import AmbiLex.Regex.Matcher

/-!
# Reading regular expressions

An expression is read in two steps. `symbols?` cuts the text into symbols: characters and sets,
repetitions, brackets and bars. Then the symbols are folded into a syntax tree with a stack of
open groups. Neither step needs to look back, so an expression is read in one pass.

A brace that does not open a well-formed repetition stands for itself, as does a hyphen in a set
that does not lie between two characters.
-/

namespace AmbiLex.Regex

/-! ## Symbols -/

/-- **What an opened group is for.** -/
inductive GroupRole where
  /-- Only to hold things together. -/
  | plain
  /-- To remember what it matches. -/
  | capture
  /-- To look ahead. -/
  | ahead (expected : Bool)
  /-- To look behind. -/
  | behind (expected : Bool)
  deriving DecidableEq, Repr

/-- **A symbol of a regular expression.** -/
inductive Symbol where
  /-- A complete expression, such as a character or an anchor. -/
  | atom (node : Node)
  /-- A repetition of what precedes. -/
  | repetition (least : Nat) (most : Option Nat) (greedy : Bool)
  /-- The opening of a group. -/
  | opening (role : GroupRole)
  /-- The closing of the innermost open group. -/
  | closing
  /-- The bar between alternatives. -/
  | bar
  deriving DecidableEq, Repr

/-- The control character that a letter stands for behind a backslash. -/
def controlOf? (c : Char) : Option Char :=
  match c with
  | 'n' => some '\n'
  | 't' => some '\t'
  | 'r' => some '\r'
  | 'f' => some '\x0c'
  | 'v' => some '\x0b'
  | _ => none

/-- The named class that a letter stands for behind a backslash; a capital stands for all
characters outside the class. -/
def namedOf? (c : Char) : Option (CharClass × Bool) :=
  match c with
  | 'w' => some (.word, false)
  | 'W' => some (.word, true)
  | 'd' => some (.digit, false)
  | 'D' => some (.digit, true)
  | 's' => some (.space, false)
  | 'S' => some (.space, true)
  | _ => none

/-- What a character means behind a backslash, outside of sets. -/
def escapedNode (c : Char) : Node :=
  match c with
  | 'A' => .anchor .textStart
  | 'Z' => .anchor .textEnd
  | 'b' => .anchor .wordEdge
  | 'B' => .anchor .notWordEdge
  | _ =>
    if c.isDigit then .backref (c.toNat - '0'.toNat)
    else match namedOf? c, controlOf? c with
      | some (cls, negated), _ => .set (.named cls negated)
      | none, some control => .set (.single control)
      | none, none => .set (.single c)

/-! ## Bracketed sets -/

/-- A piece of the text of a set. -/
inductive SetPiece where
  /-- A character. -/
  | char (c : Char)
  /-- A hyphen, which may stand for itself or make a range. -/
  | hyphen
  /-- A named class, or all characters outside it. -/
  | named (cls : CharClass) (negated : Bool)
  deriving DecidableEq, Repr

/-- The character a piece stands for, when it is not seen as making a range. -/
def SetPiece.char? : SetPiece → Option Char
  | .char c => some c
  | .hyphen => some '-'
  | .named _ _ => none

/-- What a character means behind a backslash in a set. -/
def escapedPiece (c : Char) : SetPiece :=
  match namedOf? c, controlOf? c with
  | some (cls, negated), _ => .named cls negated
  | none, some control => .char control
  | none, none => .char c

/-- The pieces of a set up to its closing bracket, and the number of characters they and the
bracket take. A bracket that comes first does not close the set. -/
def setPieces? (first : Bool) : List Char → Option (List SetPiece × Nat)
  | [] => none
  | '\\' :: c :: rest =>
    (setPieces? false rest).map fun (pieces, width) => (escapedPiece c :: pieces, width + 2)
  | c :: rest =>
    if c = ']' ∧ !first then some ([], 1)
    else (setPieces? false rest).map fun (pieces, width) =>
      ((if c = '-' then .hyphen else .char c) :: pieces, width + 1)

/-- The entry that a piece makes on its own. -/
def SetPiece.entry : SetPiece → SetEntry
  | .char c => .range c c
  | .hyphen => .range '-' '-'
  | .named cls negated => .named cls negated

/-- The range that three pieces make, if the second is a hyphen and the others are characters,
which may be hyphens again. -/
def rangeOf? (first second third : SetPiece) : Option SetEntry :=
  match first.char?, second, third.char? with
  | some c, .hyphen, some d => some (.range c d)
  | _, _, _ => none

/-- **The entries that pieces make**, ranges where there can be some. -/
def entriesOf : List SetPiece → List SetEntry
  | first :: second :: third :: rest =>
    match rangeOf? first second third with
    | some range => range :: entriesOf rest
    | none => first.entry :: entriesOf (second :: third :: rest)
  | pieces => pieces.map SetPiece.entry

/-- The set behind an opening bracket, and the number of characters it takes. -/
def bracketed? : List Char → Option (CharSet × Nat)
  | '^' :: rest =>
    (setPieces? true rest).map fun (pieces, width) => (⟨entriesOf pieces, true⟩, width + 1)
  | text => (setPieces? true text).map fun (pieces, width) => (⟨entriesOf pieces, false⟩, width)

/-! ## Repetitions -/

/-- The number that digits write, if there are any. -/
def numeral? (digits : List Char) : Option Nat :=
  (String.ofList digits).toNat?

/-- The bounds behind an opening brace, and the number of characters they and the closing brace
take. Without a comma both bounds are the same; a missing lower bound is 0, and a missing upper
bound is none. -/
def bounds? (text : List Char) : Option (Nat × Option Nat × Nat) :=
  let low := text.takeWhile Char.isDigit
  match text.drop low.length with
  | '\x7d' :: _ => (numeral? low).map fun n => (n, some n, low.length + 1)
  | ',' :: rest =>
    let high := rest.takeWhile Char.isDigit
    if (rest.drop high.length).head? = some '\x7d' then
      some ((numeral? low).getD 0, numeral? high, low.length + high.length + 2)
    else none
  | _ => none

/-- A repetition, which a question mark behind it makes lazy, and the number of characters it
takes behind its first: `width`, and one more for the question mark. -/
def repetition (least : Nat) (most : Option Nat) (width : Nat) (rest : List Char) :
    Symbol × Nat :=
  if (rest.drop width).head? = some '?' then (.repetition least most false, width + 1)
  else (.repetition least most true, width)

/-! ## From text to symbols -/

/-- **The symbol at the start of a text** whose first character is `c`, and the number of
characters it takes behind that. -/
def symbolAt? (c : Char) (rest : List Char) : Option (Symbol × Nat) :=
  match c with
  | '(' => match rest with
    | '?' :: ':' :: _ => some (.opening .plain, 2)
    | '?' :: '=' :: _ => some (.opening (.ahead true), 2)
    | '?' :: '!' :: _ => some (.opening (.ahead false), 2)
    | '?' :: '<' :: '=' :: _ => some (.opening (.behind true), 3)
    | '?' :: '<' :: '!' :: _ => some (.opening (.behind false), 3)
    | '?' :: _ => none
    | _ => some (.opening .capture, 0)
  | ')' => some (.closing, 0)
  | '|' => some (.bar, 0)
  | '.' => some (.atom .dot, 0)
  | '^' => some (.atom (.anchor .lineStart), 0)
  | '$' => some (.atom (.anchor .lineEnd), 0)
  | '*' => some (repetition 0 none 0 rest)
  | '+' => some (repetition 1 none 0 rest)
  | '?' => some (repetition 0 (some 1) 0 rest)
  | '\x7b' => match bounds? rest with
    | some (least, most, width) => some (repetition least most width rest)
    | none => some (.atom (.set (.single c)), 0)
  | '[' => (bracketed? rest).map fun (set, width) => (.atom (.set set), width)
  | '\\' => rest.head?.map fun d => (.atom (escapedNode d), 1)
  | _ => some (.atom (.set (.single c)), 0)

/-- The symbols of a text, of which the next `skip` characters belong to a symbol already read. -/
def symbolsFrom? : Nat → List Char → Option (List Symbol)
  | _, [] => some []
  | skip + 1, _ :: rest => symbolsFrom? skip rest
  | 0, c :: rest =>
    match symbolAt? c rest with
    | none => none
    | some (symbol, width) => (symbolsFrom? width rest).map (symbol :: ·)

/-- **The symbols of a text.** -/
def symbols? (text : List Char) : Option (List Symbol) :=
  symbolsFrom? 0 text

/-! ## From symbols to the tree -/

/-- **An open group**: its finished alternatives and the items of the current one, each with the
latest first. -/
structure Frame where
  /-- What the group is for. -/
  role : GroupRole
  /-- The number of the group, if it remembers what it matches. -/
  index : Nat
  /-- The finished alternatives. -/
  alternatives : List Node
  /-- The items of the current alternative. -/
  items : List Node

namespace Frame

/-- A group that was just opened. -/
def opened (role : GroupRole) (index : Nat) : Frame :=
  ⟨role, index, [], []⟩

/-- Add an item to the current alternative. -/
def push (f : Frame) (node : Node) : Frame :=
  { f with items := node :: f.items }

/-- The current alternative as one expression. -/
def sequence (f : Frame) : Node :=
  match f.items with
  | [] => .empty
  | last :: before => before.foldl (fun done item => .seq item done) last

/-- Everything in the group as one expression. -/
def content (f : Frame) : Node :=
  f.alternatives.foldl (fun done alternative => .alt alternative done) f.sequence

/-- The expression that the group is. -/
def close (f : Frame) : Node :=
  match f.role with
  | .plain => f.content
  | .capture => .group f.index f.content
  | .ahead expected => .lookahead f.content expected
  | .behind expected => .lookbehind f.content expected

end Frame

/-- **The groups that are open**: the innermost, those around it, and the number of the last group
that remembers what it matches. -/
structure OpenGroups where
  /-- The innermost group. -/
  top : Frame
  /-- The groups around it, from the inside. -/
  outer : List Frame
  /-- How many groups remember what they match. -/
  captures : Nat

namespace OpenGroups

/-- Nothing was read yet. -/
def start : OpenGroups :=
  ⟨Frame.opened .plain 0, [], 0⟩

/-- Take in one symbol. -/
def read? (s : OpenGroups) : Symbol → Option OpenGroups
  | .atom node => some { s with top := s.top.push node }
  | .repetition least most greedy =>
    match s.top.items with
    | [] => none
    | item :: before =>
      some { s with top := { s.top with items := .repeated item least most greedy :: before } }
  | .bar =>
    some { s with top :=
      { s.top with alternatives := s.top.sequence :: s.top.alternatives, items := [] } }
  | .opening role =>
    let captures := if role = .capture then s.captures + 1 else s.captures
    some ⟨Frame.opened role captures, s.top :: s.outer, captures⟩
  | .closing =>
    match s.outer with
    | [] => none
    | frame :: outer => some { s with top := frame.push s.top.close, outer := outer }

/-- The expression that was read, if all groups are closed. -/
def result? (s : OpenGroups) : Option Node :=
  if s.outer.isEmpty then some s.top.close else none

end OpenGroups

/-- **The expression that a text writes**, if it is well formed. -/
def Node.ofText? (text : List Char) : Option Node := do
  let symbols ← symbols? text
  let groups ← symbols.foldlM OpenGroups.read? OpenGroups.start
  groups.result?

end AmbiLex.Regex

/-- **The pattern of a regular expression**, if it is well formed. -/
def AmbiLex.Pattern.ofRegex? (source : String) (flags : PatternFlags) : Option Pattern :=
  (Regex.Node.ofText? source.toList).map fun node =>
    ⟨source, flags, node.matchLength flags, Regex.Node.matchLength_le⟩
