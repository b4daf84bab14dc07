import AmbiLex.Lexer.Run
import AmbiLex.Proofs.Token.Seeking
import AmbiLex.Recognizer.Sequence
import AmbiLex.Regex.Matcher

/-!
# When a chunk's end cuts a pattern's token short

A pattern is asked again only if its match took up the whole buffer. Every other answer is final,
although more text may be about to come: an answer that a longer text would have revised is not
noticed. So a token can be cut short by the end of a chunk, or missed, and whether it is depends on
the pattern and on where the chunks end.

The theorem of this module says on what exactly. The texts that a buffer can come to hold are its
*stages*: what it holds now, and that with one more chunk, two more chunks, and so on. The answer
that counts is the one on the first stage that the pattern does not take up. What is found is what
the whole text has if and only if the pattern answers alike there and on the whole text.

The counterexample is a separator that prefers to be read together with the word behind it. The
chunk ends within that word, so the pattern settles for the blank alone, and nothing asks it again.
-/

namespace AmbiLex

namespace Buffer

/-- The number of characters that a read is asked to deliver, as the source passes it on. -/
def stride (b : Buffer) : Nat :=
  (b.source.portion b.readSize).toNat

/-- **The stages of a buffer**: the text it holds after so many more chunks of the text it faces. -/
def stage (b : Buffer) (ahead : List Char) (chunks : Nat) : List Char :=
  ahead.take (b.text.length + chunks * b.stride)

/-- The first stage is the text that is held. -/
theorem stage_zero {b : Buffer} {ahead : List Char} (hb : b.Faces ahead) :
    b.stage ahead 0 = b.text := by
  rw [stage, Nat.zero_mul, Nat.add_zero]
  exact (List.prefix_iff_eq_take.mp hb.isPrefix).symm

/-- **A chunk takes a buffer from one stage to the next.** -/
theorem grow_stage {b : Buffer} {ahead : List Char} (hb : b.Faces ahead) (hpos : 0 < b.minBuffer)
    (hm : b.mayGrow = true) :
    (grow b).Meets (fun _ b' => b'.text = b.stage ahead 1 ∧ b'.stride = b.stride)
      (fun _ _ => False) := by
  obtain ⟨rest, pace, hsource, hpace, htext, -⟩ := hb.supply
  have hsize : b.readSize = 2 * b.minBuffer := by
    rw [readSize, if_neg (by omega)]
  have hportion : 0 ≤ (Source.text rest pace).portion b.readSize := by
    unfold Source.portion
    cases pace with
    | none =>
      dsimp only
      omega
    | some n =>
      dsimp only
      split <;> omega
  have hread : b.source.read b.readSize
      = (.ok (rest.take b.stride), .text (rest.drop b.stride) pace) := by
    rw [stride, hsource]
    unfold Source.read
    dsimp only
    rw [if_neg (by omega)]
  rw [grow_unfiltered hb.unfiltered hm, hread]
  refine ⟨?_, ?_⟩
  · show b.text ++ rest.take b.stride = ahead.take (b.text.length + 1 * b.stride)
    rw [← htext, Nat.one_mul, List.take_length_add_append]
  · show ((b.source.read b.readSize).2.portion b.readSize).toNat = _
    rw [hread, stride, hsource]
    cases pace <;> rfl

/-- A loop of growths is done when the text is not found wanting, or is all there is. -/
theorem Faces.settled {b : Buffer} {ahead : List Char} (hb : b.Faces ahead)
    {wanting : List Char → Bool} (hdone : b.mayGrow = true → wanting b.text = false) :
    wanting b.text = false ∨ b.text = ahead := by
  cases hm : b.mayGrow with
  | false => exact .inr (hb.text_eq hm)
  | true => exact .inl (hdone hm)

/-- **A loop of growths goes through the stages**, and passes those that are found wanting. -/
theorem growWhile_passes {b : Buffer} {ahead : List Char} (hb : b.Faces ahead)
    (hpos : 0 < b.minBuffer) (wanting : List Char → Bool) :
    (growWhile wanting b).Meets
      (fun _ b' => ((Grown b b' ∧ b'.Faces ahead ∧ b'.stride = b.stride)
          ∧ ∃ chunks, b'.text = b.stage ahead chunks
            ∧ ∀ fewer < chunks, wanting (b.stage ahead fewer) = true)
        ∧ (b'.mayGrow = true → wanting b'.text = false)) (fun _ _ => False) := by
  refine growWhile_meets (P := fun b' => (Grown b b' ∧ b'.Faces ahead ∧ b'.stride = b.stride)
    ∧ ∃ chunks, b'.text = b.stage ahead chunks
      ∧ ∀ fewer < chunks, wanting (b.stage ahead fewer) = true) ?_
    ⟨⟨Grown.refl b, hb, rfl⟩, 0, (stage_zero hb).symm, fun _ h => absurd h (Nat.not_lt_zero _)⟩
  rintro b₁ ⟨⟨hg₁, hb₁, hs₁⟩, chunks, htext, hpassed⟩ hm₁ hw₁
  have hstage := grow_stage hb₁ (hg₁.minBuffer_eq.symm ▸ hpos) hm₁
  refine ((grow_grown_faces hb₁).and hstage).mono ?_ (fun _ _ h => h.1)
  rintro more b₂ ⟨⟨hg₂, hb₂, -⟩, htext₂, hs₂⟩
  refine ⟨⟨hg₁.trans hg₂, hb₂, hs₂.trans hs₁⟩, chunks + 1, ?_, ?_⟩
  · -- the stage of a stage: the text held is already cut off the text that is faced
    have hlen := congrArg List.length htext
    rw [htext₂]
    unfold stage at htext hlen ⊢
    rw [List.length_take] at hlen
    rw [hs₁, List.take_eq_take_iff, Nat.one_mul, Nat.succ_mul]
    omega
  · intro fewer hfewer
    rcases Nat.lt_succ_iff_lt_or_eq.mp hfewer with h | h
    · exact hpassed fewer h
    · rw [h, ← htext]
      exact hw₁

/-- **A loop of growths stops at a stage, and has passed the earlier ones because they were found
wanting.** -/
theorem growWhile_stage {b : Buffer} {ahead : List Char} (hb : b.Faces ahead)
    (hpos : 0 < b.minBuffer) (wanting : List Char → Bool) :
    (growWhile wanting b).Meets
      (fun _ b' => ∃ chunks, b'.text = b.stage ahead chunks
        ∧ (∀ fewer < chunks, wanting (b.stage ahead fewer) = true)
        ∧ (wanting b'.text = false ∨ b'.text = ahead))
      (fun _ _ => False) := by
  refine (growWhile_passes hb hpos wanting).mono ?_ (fun _ _ h => h)
  rintro u b' ⟨⟨⟨-, hf, -⟩, chunks, htext, hpassed⟩, hdone⟩
  exact ⟨chunks, htext, hpassed, hf.settled hdone⟩

end Buffer

namespace TokenSpec

/-- **A pattern's token is cut short or missed exactly if the pattern revises its answer** on the
first stage of the buffer that it does not take up: what is found in a buffer is what the whole text
has if and only if the pattern answers alike on that stage and on the whole text. -/
theorem seek_pattern_eq_verdict_iff {spec : TokenSpec} {p : Pattern}
    (hp : spec.target = .pattern p) {b : Buffer} {ahead : List Char} (hb : b.Faces ahead)
    (hpos : 0 < b.minBuffer) :
    (spec.seek b).answer = spec.verdict ahead
      ↔ ∀ chunks, (∀ fewer < chunks, p.spans (b.stage ahead fewer) = true) →
          p.spans (b.stage ahead chunks) = false →
          p.matchLength (b.stage ahead chunks) = p.matchLength ahead := by
  have hw : spec.wanting = p.spans := by
    unfold wanting
    rw [hp]
  have hloop := Buffer.growWhile_stage hb hpos p.spans
  rw [answer_seek, hw]
  cases hg : Buffer.growWhile p.spans b with
  | error fault b' =>
    rw [hg] at hloop
    exact hloop.elim
  | ok u b' =>
    rw [hg] at hloop
    obtain ⟨last, htext, hpassed, hdone⟩ := hloop
    obtain ⟨more, hmore⟩ : b'.text <+: ahead := by
      rw [htext]
      exact List.take_prefix _ _
    dsimp only
    rw [verdict_of_pattern hp, verdict_of_pattern hp]
    constructor
    · intro hsame chunks hfewer hnot
      have hlength := matchLength_eq_of_patternIn hsame
      rcases Nat.lt_trichotomy chunks last with hlt | rfl | hgt
      · rw [hpassed chunks hlt] at hnot
        cases hnot
      · rw [← htext]
        exact hlength
      · -- the loop stopped before that stage, so it had the whole text
        rcases hdone with hd | hd
        · rw [htext, hfewer last hgt] at hd
          cases hd
        · have hall : b.stage ahead chunks = ahead := by
            have hlen := congrArg List.length (htext.symm.trans hd)
            unfold Buffer.stage at hlen ⊢
            rw [List.length_take] at hlen
            refine List.take_of_length_le ?_
            have := Nat.mul_le_mul_right b.stride (Nat.le_of_lt hgt)
            omega
          rw [hall]
    · intro hrevised
      rcases hdone with hd | hd
      · -- the loop stopped at the first stage that the pattern does not take up
        rw [htext] at hd
        have hlength := hrevised last hpassed hd
        rw [← htext, ← hmore] at hlength
        rw [← hmore]
        exact patternIn_congr hlength
      · rw [hd]

end TokenSpec

/-! ## A separator that is cut short -/

/-- Whether a source is about to deliver a text, as much of it as it is asked for. -/
def Source.delivers (text : List Char) : Source → Bool
  | .text rest none => rest == text
  | _ => false

theorem Source.eq_of_delivers {text : List Char} {source : Source}
    (h : source.delivers text = true) : source = .text text none := by
  unfold delivers at h
  split at h
  · rw [eq_of_beq h]
  · cases h

namespace Separator

/-- A blank, and as many as follow. -/
def blanks : Regex.Node :=
  .repeated (.set (.named .space false)) 1 none true

/-- The word `OR` between blanks if there is one, and else blanks. -/
def pattern : Pattern where
  source := "\\s+OR\\s+|\\s+"
  flags := {}
  matchLength := Regex.Node.matchLength {} <|
    .alt (.seq blanks (.seq (.set (.single 'O')) (.seq (.set (.single 'R')) blanks))) blanks
  matchLength_le := Regex.Node.matchLength_le

/-- A letter, and as many as follow. -/
def letters : Pattern where
  source := "\\w+"
  flags := {}
  matchLength := Regex.Node.matchLength {} (.repeated (.set (.named .word false)) 1 none true)
  matchLength_le := Regex.Node.matchLength_le

/-- The separator. -/
def spec : TokenSpec :=
  ⟨"OP", .pattern pattern, .known .scalar none⟩

/-- Words and separators, read in chunks of two characters. -/
def lexer : Lexer :=
  ⟨[⟨"word", .pattern letters, .known .scalar none⟩, spec], 1, false, none, .log⟩

/-- Words with a separator between each two. -/
def grammar : SequenceGrammar :=
  ⟨[("0", [("word", some "1")]), ("1", [("OP", some "0")])], "0", ["1"]⟩

/-- **A run up to the first separator**: the first word was offered and its position completed. -/
def untilSeparator : EStateM.Result Fault (Run (SequenceState Value)) Progress :=
  (do
    let _ ← Lexer.begin (grammar.recognizer Value)
    let _ ← lexer.step (grammar.recognizer Value) (.matching ["word"])
    lexer.step (grammar.recognizer Value) (.completing 0) : RunM (SequenceState Value) Progress)
  (lexer.run (.ofText "x OR y".toList) (.initial grammar) [])

/-- The buffer of that run faces the rest of the text. -/
theorem faces_untilSeparator : untilSeparator.left.buffer.Faces " OR y".toList := by
  have hsource : untilSeparator.left.buffer.source = .text "OR y".toList none :=
    Source.eq_of_delivers (by decide +kernel)
  have hfilter : untilSeparator.left.buffer.filter = none :=
    Option.isNone_iff_eq_none.mp (by decide +kernel)
  refine ⟨hfilter, "OR y".toList, none, hsource, by decide, by decide +kernel, fun h => ?_⟩
  have hm : untilSeparator.left.buffer.mayGrow = true := by decide +kernel
  rw [hm] at h
  cases h

/-- **A token can be cut short**: a run over `x OR y` comes to look for the separator with a blank
in its buffer, which is as much as the least size asks for, and with `OR y` still to be read. It
finds the blank alone, where the whole text has the word between its blanks. -/
theorem separator_cut_short :
    TokenTable.compile [("word", .pattern letters), ("OP", .pattern pattern)] (.mode .scalar)
        = .ok lexer.tokens
      ∧ untilSeparator.answer.toOption = some (.next (.matching ["OP"]))
      ∧ untilSeparator.left.buffer.Faces " OR y".toList
      ∧ untilSeparator.left.buffer.text = [' ']
      ∧ (spec.seek untilSeparator.left.buffer).answer.toOption = some (some ⟨"OP", [' ']⟩)
      ∧ (spec.verdict " OR y".toList).toOption = some (some ⟨"OP", " OR ".toList⟩)
      ∧ (spec.seek untilSeparator.left.buffer).answer ≠ spec.verdict " OR y".toList := by
  have hsought : (spec.seek untilSeparator.left.buffer).answer.toOption
      = some (some ⟨"OP", [' ']⟩) := by decide +kernel
  have hwhole : (spec.verdict " OR y".toList).toOption = some (some ⟨"OP", " OR ".toList⟩) := by
    decide +kernel
  refine ⟨rfl, by decide +kernel, faces_untilSeparator, by decide +kernel, hsought, hwhole, ?_⟩
  intro h
  rw [h, hwhole] at hsought
  exact absurd hsought (by decide)

end Separator

/-- The exact condition where the separator is cut short: the first stage is the blank, which the
pattern takes up, and the second ends within the word. -/
theorem seek_pattern_eq_verdict_iff_separator :
    Separator.spec.target = .pattern Separator.pattern
      ∧ Separator.untilSeparator.left.buffer.Faces " OR y".toList
      ∧ 0 < Separator.untilSeparator.left.buffer.minBuffer
      ∧ ((Separator.spec.seek Separator.untilSeparator.left.buffer).answer
            = Separator.spec.verdict " OR y".toList
          ↔ ∀ chunks,
            (∀ fewer < chunks, Separator.pattern.spans
              (Separator.untilSeparator.left.buffer.stage " OR y".toList fewer) = true) →
            Separator.pattern.spans
              (Separator.untilSeparator.left.buffer.stage " OR y".toList chunks) = false →
            Separator.pattern.matchLength
                (Separator.untilSeparator.left.buffer.stage " OR y".toList chunks)
              = Separator.pattern.matchLength " OR y".toList) :=
  ⟨rfl, Separator.faces_untilSeparator, by decide +kernel,
    TokenSpec.seek_pattern_eq_verdict_iff rfl Separator.faces_untilSeparator (by decide +kernel)⟩

end AmbiLex
