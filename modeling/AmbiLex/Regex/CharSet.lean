/-!
# Sets of characters

A regular expression tests one character at a time against a set: a single character, a range, a
named class, or a bracketed list of these which may be negated. The named classes and the
comparison without regard to case know the ASCII letters only.
-/

namespace AmbiLex.Regex

/-- The named classes of characters. -/
inductive CharClass where
  /-- Letters, digits and the underscore. -/
  | word
  /-- Digits. -/
  | digit
  /-- Space, tab, line feed, carriage return, form feed and vertical tab. -/
  | space
  deriving DecidableEq, Repr

/-- Membership in a named class. -/
def CharClass.contains (cls : CharClass) (c : Char) : Bool :=
  match cls with
  | .word => c.isAlphanum || c = '_'
  | .digit => c.isDigit
  | .space => c = ' ' || (0x09 ≤ c.toNat && c.toNat ≤ 0x0d)

/-- **An entry of a bracketed set.** -/
inductive SetEntry where
  /-- The characters from one to another, both included. -/
  | range (first last : Char)
  /-- The characters of a named class, or all others. -/
  | named (cls : CharClass) (negated : Bool)
  deriving DecidableEq, Repr

/-- Whether a range holds a character. -/
def inRange (first last c : Char) : Bool :=
  first ≤ c && c ≤ last

/-- **Membership in an entry.** Without regard to case, a range holds a character if it holds its
lower-case or its upper-case form. -/
def SetEntry.contains (entry : SetEntry) (ignoreCase : Bool) (c : Char) : Bool :=
  match entry with
  | .range first last =>
    if ignoreCase then inRange first last c.toLower || inRange first last c.toUpper
    else inRange first last c
  | .named cls negated => cls.contains c != negated

/-- **A set of characters**: a list of entries, or everything that is in none of them. -/
structure CharSet where
  /-- The entries. -/
  entries : List SetEntry
  /-- Whether the set holds what the entries do not hold. -/
  negated : Bool := false
  deriving DecidableEq, Repr

namespace CharSet

/-- The set of one character. -/
def single (c : Char) : CharSet :=
  ⟨[.range c c], false⟩

/-- The set of a named class, or of all others. -/
def named (cls : CharClass) (negated : Bool) : CharSet :=
  ⟨[.named cls negated], false⟩

/-- **Membership in a set.** The negation applies last, after letters were compared without regard
to case. -/
def contains (set : CharSet) (ignoreCase : Bool) (c : Char) : Bool :=
  (set.entries.any fun entry => entry.contains ignoreCase c) != set.negated

end CharSet

end AmbiLex.Regex
