/-!
# Text in bytes

A file is text if its bytes are UTF-8, strictly: no overlong forms, no surrogates. Where they are
not, it matters whether the fault shows at once or only when the end is reached: bytes that end in
the middle of a character are a text up to there, and nobody can tell that the character will never
be completed before the end. Two bytes that could only begin a surrogate count as such a beginning
too.
-/

namespace AmbiLex.Text

/-- **What bytes say**: a text, a text and the beginning of one more character, or nothing. -/
inductive Decoded where
  /-- The bytes are a text. -/
  | whole (text : List Char)
  /-- The bytes are a text followed by the beginning of a character. -/
  | cut (text : List Char)
  /-- The bytes are neither. -/
  | invalid
  deriving DecidableEq, Repr

/-- The ways to complete a character of which some bytes are missing. The bytes that may follow the
first one of a character form a range which always holds one of its two ends. -/
def completions : List (List UInt8) :=
  [1, 2, 3].flatMap fun missing => [List.replicate missing 0x80, List.replicate missing 0xbf]

/-- The text before a last character that can be completed in one of the possible ways. -/
def beforeCut? (content : ByteArray) : Option (List Char) :=
  completions.findSome? fun missing =>
    (String.fromUTF8? (content ++ ⟨missing.toArray⟩)).map fun text => text.toList.dropLast

/-- The text before the first two bytes of a surrogate, if the bytes end in these. -/
def beforeSurrogate? (content : ByteArray) : Option (List Char) :=
  match content.toList.reverse with
  | second :: 0xed :: before =>
    if 0xa0 ≤ second ∧ second ≤ 0xbf then
      (String.fromUTF8? ⟨before.reverse.toArray⟩).map String.toList
    else none
  | _ => none

/-- **Decode bytes.** If some bytes complete them to a text, they end in the middle of its last
character. -/
def decode (content : ByteArray) : Decoded :=
  match String.fromUTF8? content with
  | some text => .whole text.toList
  | none =>
    match beforeCut? content <|> beforeSurrogate? content with
    | some text => .cut text
    | none => .invalid

end AmbiLex.Text
