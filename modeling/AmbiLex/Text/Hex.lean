/-!
# Hexadecimal numerals

Escapes name a character by its code point in lower-case hexadecimal, padded with zeros to a
least width that depends on the escape: `\x0a`, `\u2028`, `\x{1f600}`. Both the escaping of
previews and the quoting of strings write their numerals here.
-/

namespace AmbiLex.Text

/-- **The lower-case hexadecimal numeral of `n`**, filled with zeros on the left up to `width`
digits. A longer numeral is not cut. -/
def hexNumeral (width n : Nat) : List Char :=
  (Nat.toDigits 16 n).leftpad width '0'

/-- The value of one lower-case hexadecimal digit. -/
def hexDigitValue? (c : Char) : Option Nat :=
  if '0' ≤ c ∧ c ≤ '9' then some (c.toNat - '0'.toNat)
  else if 'a' ≤ c ∧ c ≤ 'f' then some (c.toNat - 'a'.toNat + 10)
  else none

/-- A number with one more digit behind it. -/
def withHexDigit? (value : Nat) (c : Char) : Option Nat :=
  (hexDigitValue? c).map (16 * value + ·)

/-- **The number that hexadecimal digits write**, if there are any and all of them are digits. -/
def hexValue? (digits : List Char) : Option Nat :=
  if digits.isEmpty then none else digits.foldlM withHexDigit? 0

end AmbiLex.Text
