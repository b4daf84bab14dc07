import AmbiLex.Proofs.Sequence.Forced
import AmbiLex.Proofs.Token.Stretches
import AmbiLex.Regex.Reader

/-!
# Words survive any buffering

A text of words with separators between them is the plainest thing that there is to recognize, and
it is where a buffer can go wrong in every way: a word or a separator may be cut anywhere by the end
of a chunk, may end right there, or may be longer than many chunks.

With patterns that take as many word characters, or blanks, as there are, such a text leaves no
choice (`Words.forced_word`). So the words and the separators come out as they went in, whatever the
size of the buffer is and however slowly the text arrives (`recognize_words`).
-/

namespace AmbiLex

/-- **Words with separators between them.** -/
def SequenceGrammar.words : SequenceGrammar where
  transitions := [("0", [("word", some "1")]), ("1", [("OP", some "0")])]
  start := "0"
  accepting := ["1"]

/-- **A text of words**: one word, and any number of others, each behind a separator. -/
structure Words where
  /-- The first word. -/
  first : List Char
  /-- The other words, each with the separator before it. -/
  others : List (List Char × List Char)

namespace Words

/-- The words. -/
def words (w : Words) : List (List Char) :=
  w.first :: w.others.map Prod.snd

/-- The separators between them. -/
def separators (w : Words) : List (List Char) :=
  w.others.map Prod.fst

/-- **The text** that words and separators are joined to. -/
def text (w : Words) : List Char :=
  w.first ++ w.others.flatMap fun (separator, word) => separator ++ word

/-- The value of a token that stores its text. -/
def value (text : List Char) : Value :=
  .text (String.ofList text)

/-- **The parse of the text**: words and separators in turn. -/
def parse (w : Words) : List (String × Value) :=
  ("word", value w.first) :: w.others.flatMap fun (separator, word) =>
    [("OP", value separator), ("word", value word)]

/-- Behind a word and a separator there is a text of words again. -/
theorem text_cons (first : List Char) (other : List Char × List Char)
    (others : List (List Char × List Char)) :
    text ⟨first, other :: others⟩ = first ++ (other.1 ++ text ⟨other.2, others⟩) := by
  simp [text]

theorem parse_cons (first : List Char) (other : List Char × List Char)
    (others : List (List Char × List Char)) :
    parse ⟨first, other :: others⟩
      = ("word", value first) :: ("OP", value other.1) :: parse ⟨other.2, others⟩ := by
  simp [parse]

/-- The values of a terminal in a parse. -/
def valuesOf (terminal : String) (parse : List (String × Value)) : List Value :=
  (parse.filter fun token => token.1 = terminal).map Prod.snd

/-- The words of the parse are those of the text. -/
theorem valuesOf_word (w : Words) : valuesOf "word" w.parse = w.words.map value := by
  obtain ⟨first, others⟩ := w
  induction others with
  | nil => rfl
  | cons other others ih =>
    simp [valuesOf, parse, words] at ih ⊢
    exact ih

/-- The separators of the parse are those of the text. -/
theorem valuesOf_separator (w : Words) : valuesOf "OP" w.parse = w.separators.map value := by
  obtain ⟨first, others⟩ := w
  induction others with
  | nil => rfl
  | cons other others ih =>
    simp [valuesOf, parse, separators] at ih ⊢
    exact ih

/-! ## The lexer -/

/-- The lexer of words and separators. -/
def lexer (word separator : Pattern) (minBuffer : Nat) : Lexer :=
  ⟨[⟨"word", .pattern word, .known .scalar none⟩, ⟨"OP", .pattern separator, .known .scalar none⟩],
    minBuffer, false, none, .log⟩

/-- The spelling of a store mode is looked up once. -/
theorem resolve_scalar : Encoder.resolve (.text "scalar") = .ok (.known .scalar none) := by
  have hspelling : StoreMode.ofSpelling? "scalar" = some .scalar := by decide +kernel
  simp [Encoder.resolve, Setting.text, hspelling]

theorem compile_tokens (word separator : Pattern) (minBuffer : Nat) :
    TokenTable.compile [("word", .pattern word), ("OP", .pattern separator)] (.text "scalar")
      = .ok (lexer word separator minBuffer).tokens := by
  unfold TokenTable.compile
  rw [resolve_scalar]
  rfl

theorem make_lexer (word separator : Pattern) (minBuffer : Nat) :
    Lexer.make [("word", .pattern word), ("OP", .pattern separator)]
      { store := .text "scalar", minBuffer := .int minBuffer }
      = .ok (lexer word separator minBuffer) := by
  unfold Lexer.make
  rw [compile_tokens word separator minBuffer]
  rfl

/-! ## Words are forced -/

section

variable {word separator : Pattern} {isWord isBlank : Char → Bool}

/-- **A stretch of characters of one of two classes**: it is not empty, and none of its characters
is in the other class. -/
def IsStretch (test other : Char → Bool) (text : List Char) : Prop :=
  text ≠ [] ∧ ∀ c ∈ text, test c = true ∧ other c = false

/-- The other class stops at a stretch. -/
theorem IsStretch.stopsAt {test other : Char → Bool} {text : List Char}
    (h : IsStretch test other text) (rest : List Char) : StopsAt other (text ++ rest) := by
  obtain ⟨hne, hall⟩ := h
  cases text with
  | nil => exact absurd rfl hne
  | cons c text =>
    intro d hd
    obtain rfl : c = d := by simpa using hd
    exact (hall c List.mem_cons_self).2

/-- A stretch with something else behind it is found by its pattern. -/
theorem IsStretch.verdict {test other : Char → Bool} {p : Pattern} {text rest : List Char}
    (h : IsStretch test other text) (hp : p.TakesWhile test) {spec : TokenSpec}
    (hspec : spec.target = .pattern p) (hstop : StopsAt test rest) :
    spec.verdict (text ++ rest) = .ok (some ⟨spec.name, text⟩) :=
  hp.verdict hspec h.1 (fun c hc => (h.2 c hc).1) hstop

/-- **Words and separators leave no choice**, from one word to the next. -/
theorem forced_word (hword : word.TakesWhile isWord) (hseparator : separator.TakesWhile isBlank)
    (minBuffer : Nat) (others : List (List Char × List Char))
    (hothers : ∀ other ∈ others,
      IsStretch isBlank isWord other.1 ∧ IsStretch isWord isBlank other.2)
    {first : List Char} (hfirst : IsStretch isWord isBlank first) :
    (lexer word separator minBuffer).Forced .words "1" "0" (text ⟨first, others⟩)
      (parse ⟨first, others⟩) := by
  induction others generalizing first with
  | nil =>
    exact .token rfl rfl rfl (hfirst.verdict hword rfl fun c hc => nomatch hc) hfirst.1
      (fun _ => rfl) .done
  | cons other others ih =>
    obtain ⟨hblank, hnext⟩ := hothers other List.mem_cons_self
    have hrest := ih (fun other hmem => hothers other (List.mem_cons_of_mem _ hmem)) hnext
    have hstop : StopsAt isBlank (text ⟨other.2, others⟩) := hnext.stopsAt _
    rw [text_cons, parse_cons]
    exact .token rfl rfl rfl (hfirst.verdict hword rfl (hblank.stopsAt _)) hfirst.1 (fun _ => rfl)
      (.token rfl rfl rfl (hblank.verdict hseparator rfl hstop) hblank.1 (fun _ => rfl) hrest)

end

end Words

namespace Lexer

/-- **Words survive any buffering.** Take any words of small letters and digits, and any separators
of spaces and tabs between them, none of them empty. With tokens for words and for separators that
take the longest beginnings of word characters and of blanks, which are different from each other, a
run over the text comes to its end, whatever the least size of the buffer, and whether the text is
delivered as asked for or only so many characters at a time. Behind the text a separator is
expected, and there is exactly one parse: the words and the separators, in order. -/
theorem recognize_words {word separator : Pattern} {isWord isBlank : Char → Bool}
    (hword : word.TakesWhile isWord) (hseparator : separator.TakesWhile isBlank)
    (hletters : ∀ c : Char, c.isLower ∨ c.isDigit → isWord c = true ∧ isBlank c = false)
    (hblanks : ∀ c, c = ' ' ∨ c = '\t' → isBlank c = true ∧ isWord c = false)
    {w : Words} (hwords : ∀ text ∈ w.words, text ≠ [] ∧ ∀ c ∈ text, c.isLower ∨ c.isDigit)
    (hseparators : ∀ text ∈ w.separators, text ≠ [] ∧ ∀ c ∈ text, c = ' ' ∨ c = '\t')
    (minBuffer : Nat) {pace : Option Nat} (hpace : pace ≠ some 0) (calls : List Call) :
    ∃ lexer, Lexer.make [("word", .pattern word), ("OP", .pattern separator)]
        { store := .text "scalar", minBuffer := .int minBuffer } = .ok lexer
      ∧ ∃ bound r, (∀ limit, bound ≤ limit →
          lexer.recognize (SequenceGrammar.words.recognizer Value) limit
            (lexer.run (.text w.text pace) (.initial .words) calls)
            = .ok (some (.endOfInput w.text.length ["OP"])) r)
        ∧ ∃ parse, r.recognizer.parses .words = [parse]
          ∧ Words.valuesOf "word" parse = w.words.map Words.value
          ∧ Words.valuesOf "OP" parse = w.separators.map Words.value
          ∧ parse = w.parse := by
  refine ⟨Words.lexer word separator minBuffer, Words.make_lexer word separator minBuffer, ?_⟩
  have husable := TokenTable.usable_of_compile (Words.compile_tokens word separator minBuffer)
  have hstable : ∀ spec ∈ (Words.lexer word separator minBuffer).tokens, ∀ p,
      spec.target = .pattern p → 0 < minBuffer → p.StableFrom minBuffer := by
    intro spec hspec p hp hpos
    rcases List.mem_pair.mp hspec with rfl | rfl
    · cases hp
      exact hword.stableFrom hpos
    · cases hp
      exact hseparator.stableFrom hpos
  have hstretches : ∀ text ∈ w.words, Words.IsStretch isWord isBlank text := fun text hmem =>
    ⟨(hwords text hmem).1, fun c hc => hletters c ((hwords text hmem).2 c hc)⟩
  have hblank : ∀ text ∈ w.separators, Words.IsStretch isBlank isWord text := fun text hmem =>
    ⟨(hseparators text hmem).1, fun c hc => hblanks c ((hseparators text hmem).2 c hc)⟩
  have hforced := Words.forced_word hword hseparator minBuffer w.others
    (fun other hmem => ⟨hblank _ (List.mem_map_of_mem hmem),
      hstretches _ (List.mem_cons_of_mem _ (List.mem_map_of_mem hmem))⟩)
    (hstretches _ List.mem_cons_self)
  have hlast : SequenceGrammar.words.ExpectsOnly "1" "OP" := rfl
  obtain ⟨bound, r, hok, hparses⟩ := recognize_forced husable rfl hstable hlast
    (List.mem_singleton_self _) hpace hforced calls
  exact ⟨bound, r, hok, w.parse, hparses, w.valuesOf_word, w.valuesOf_separator, rfl⟩

/-- Three words, read three characters at a time at most and from a source that delivers one, come
out as they went in, with the regular expressions that words and blanks are usually described
with. -/
theorem recognize_words_trickling :
    Pattern.ofRegex? "\\w+" {} = some (Regex.stretchOf "\\w+" (.named .word false))
      ∧ Pattern.ofRegex? "\\s+" {} = some (Regex.stretchOf "\\s+" (.named .space false))
      ∧ (Regex.stretchOf "\\w+" (.named .word false)).TakesWhile Regex.CharClass.word.contains
      ∧ (Regex.stretchOf "\\s+" (.named .space false)).TakesWhile Regex.CharClass.space.contains
      ∧ ∃ lexer, Lexer.make
          [("word", .pattern (Regex.stretchOf "\\w+" (.named .word false))),
            ("OP", .pattern (Regex.stretchOf "\\s+" (.named .space false)))]
          { store := .text "scalar", minBuffer := .int 3 } = .ok lexer
        ∧ ∃ bound r, (∀ limit, bound ≤ limit →
            lexer.recognize (SequenceGrammar.words.recognizer Value) limit
              (lexer.run (.text "some \twords2  x".toList (some 1)) (.initial .words) [])
              = .ok (some (.endOfInput 15 ["OP"])) r)
          ∧ r.recognizer.parses .words
            = [[("word", .text "some"), ("OP", .text " \t"), ("word", .text "words2"),
              ("OP", .text "  "), ("word", .text "x")]] := by
  have hword := Regex.takesWhile_stretchOf "\\w+" (.named .word false)
  have hblank := Regex.takesWhile_stretchOf "\\s+" (.named .space false)
  rw [Regex.contains_named] at hword hblank
  obtain ⟨lexer, hmake, bound, r, hok, parse, hparses, -, -, hparse⟩ := recognize_words hword hblank
    (fun _ h => Regex.contains_of_letter h) (fun _ h => Regex.contains_of_blank h)
    (show ∀ text ∈ Words.words ⟨"some".toList, [(" \t".toList, "words2".toList),
      ("  ".toList, "x".toList)]⟩, text ≠ [] ∧ ∀ c ∈ text, c.isLower ∨ c.isDigit by
      simp [Words.words])
    (by simp [Words.separators]) 3 (show some 1 ≠ some 0 by decide) []
  rw [hparse] at hparses
  exact ⟨rfl, rfl, hword, hblank, lexer, hmake, bound, r, hok, hparses⟩

end Lexer

end AmbiLex
