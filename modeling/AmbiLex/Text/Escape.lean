import AmbiLex.Text.Hex

/-!
# Escaped previews

Diagnostics show the start of the input in one line of plain text. Every character outside the
printable ASCII range is written as its code point between braces, `\x{000a}` for a line feed;
every other character, the backslash included, stands for itself.

`unescape` reads such a line back. A backslash of the text is not doubled, so it inverts `escape`
only on texts without one. What is read are code points (`unescapeCodes`), since an escape can name
one that is no character.
-/

namespace AmbiLex.Text

/-- Whether a character stands for itself in a preview: U+0020 to U+007E. -/
def isPlain (c : Char) : Bool :=
  0x20 ≤ c.toNat && c.toNat ≤ 0x7e

/-- A character as previews show it. -/
def escapeChar (c : Char) : List Char :=
  if isPlain c then [c]
  else ['\\', 'x', '\x7b'] ++ hexNumeral 4 c.toNat ++ ['\x7d']

/-- **A text as previews show it**, character by character. -/
def escape (text : List Char) : List Char :=
  text.flatMap escapeChar

/-- A plain character stands for itself. -/
theorem escapeChar_of_isPlain {c : Char} (h : isPlain c = true) : escapeChar c = [c] := by
  simp [escapeChar, h]

@[simp] theorem escape_cons (c : Char) (text : List Char) :
    escape (c :: text) = escapeChar c ++ escape text := by
  simp [escape]

@[simp] theorem escape_append (s t : List Char) : escape (s ++ t) = escape s ++ escape t := by
  simp [escape]

/-! ## Code points

A text holds characters, and not every code point is one: there is no character behind a surrogate.
But an escape only needs a number, so sequences of code points are shown in the same way. -/

/-- A code point as previews show it. -/
def escapeCode (code : Nat) : List Char :=
  if 0x20 ≤ code ∧ code ≤ 0x7e then [Char.ofNat code]
  else ['\\', 'x', '\x7b'] ++ hexNumeral 4 code ++ ['\x7d']

/-- **Code points as previews show them**, whether there are characters behind them or not. -/
def escapeCodes (codes : List Nat) : List Char :=
  codes.flatMap escapeCode

/-! ## Reading an escaped text back -/

/-- The code point that is written behind a backslash between braces, and the number of characters
that takes. -/
def escapedAt? : List Char → Option (Nat × Nat)
  | 'x' :: '\x7b' :: rest =>
    let digits := rest.takeWhile fun c => (hexDigitValue? c).isSome
    match hexValue? digits, rest.drop digits.length with
    | some code, '\x7d' :: _ => some (code, digits.length + 3)
    | _, _ => none
  | _ => none

/-- Read a text back, of which the next `skip` characters belong to an escape already read. -/
def unescapeFrom : Nat → List Char → List Nat
  | _, [] => []
  | skip + 1, _ :: rest => unescapeFrom skip rest
  | 0, c :: rest =>
    match if c = '\\' then escapedAt? rest else none with
    | some (code, width) => code :: unescapeFrom width rest
    | none => c.toNat :: unescapeFrom 0 rest

/-- **The code points that an escaped text shows**: every escape stands for the code point that it
names, and every other character for its own. -/
def unescapeCodes (text : List Char) : List Nat :=
  unescapeFrom 0 text

/-- **The text that an escaped text shows.** -/
def unescape (text : List Char) : List Char :=
  (unescapeCodes text).map Char.ofNat

end AmbiLex.Text
