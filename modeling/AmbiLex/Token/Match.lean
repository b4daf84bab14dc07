import AmbiLex.Buffer
import AmbiLex.Token.Spec

/-!
# Matching a token at the start of the buffer

A literal may go on behind a chunk's end, so the buffer is grown until it is long enough to
decide. A pattern gives no such bound. When its match takes up the whole buffer and the source has
not ended, the token might go on in the text not read yet, so the buffer is grown and the match
tried again; once the source has ended the match is accepted as it is. A match that ends before the
end of the buffer is accepted at once.
-/

namespace AmbiLex

/-- **A token found at the start of the buffer.** -/
structure Found where
  /-- The name of the terminal. -/
  name : String
  /-- The matched text. -/
  text : List Char
  deriving DecidableEq, Repr

/-- The number of characters matched. -/
def Found.length (found : Found) : Nat :=
  found.text.length

namespace TokenSpec

/-- What the text says about a single character: the text starts with exactly that. -/
def singleCharIn (name : String) (word text : List Char) : Option Found :=
  if text.take 1 = word then some ⟨name, word⟩ else none

/-- What a text that is long enough, or cannot grow, says about a literal. -/
def literalIn (name : String) (word text : List Char) : Option Found :=
  if word.isPrefixOf text then some ⟨name, word⟩ else none

/-- What a text that is long enough, or cannot grow, says about a pattern. A match of the empty
text is a fault of the definition. -/
def patternIn (name : String) (p : Pattern) (text : List Char) : Except Fault (Option Found) :=
  match p.matchLength text with
  | none => .ok none
  | some 0 => .error (.emptyMatch name)
  | some n => .ok (some ⟨name, text.take n⟩)

/-- **Look for a token at the start of the buffer**, which grows as far as that is needed. -/
def seek (spec : TokenSpec) : BufferM (Option Found) :=
  match spec.target with
  | .singleChar word => do
    return singleCharIn spec.name word (← get).text
  | .literal word => do
    Buffer.growWhile fun text => text.length < word.length
    return literalIn spec.name word (← get).text
  | .pattern p => do
    Buffer.growWhile p.spans
    MonadExcept.ofExcept (patternIn spec.name p (← get).text)
  | .unknown kind => throw (.unknownKind kind.spoken)

end TokenSpec

end AmbiLex
