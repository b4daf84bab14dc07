import AmbiLex.Proofs.Buffer.Counted
import AmbiLex.Proofs.Token.LineEndings

/-!
# Looking for a text

A text that is looked for may be cut by the ends of chunks in any number of places. The buffer grows
until it holds as many characters as the text has, or until the source has ended, and is then asked
whether it begins with the text. How the source hands out its text makes no difference to the
answer, because what a buffer holds and what it has still *upcoming* make up the same text all the
time. So the answer is that of the whole text (`seek_word_begins`).

A single character is looked for without growing at all. In a buffer that is not empty, or cannot
grow, that is no difference either: looking for it as a literal finds the same and leaves the buffer
as it is.
-/

namespace AmbiLex

namespace Buffer

/-! ## What is upcoming -/

/-- **A buffer that has grown as far as it can.** -/
def drained (b : Buffer) : Buffer :=
  (growWhile (fun _ => true) b).left

/-- **What the source is still about to deliver**, if the buffer grows on and on. -/
def upcoming (b : Buffer) : List Char :=
  b.drained.delivered.drop b.delivered.length

variable {b b' : Buffer}

theorem grown_drained (hf : b.filter = none) : Grown b b.drained := by
  have hgrown := growWhile_grown hf fun _ => true
  unfold drained
  cases hloop : growWhile (fun _ => true) b with
  | ok u b' => exact (hgrown.of_ok hloop).1
  | error fault b' => exact hgrown.of_error hloop

/-- **What a buffer holds and what it has upcoming** is what it holds in the end. -/
theorem text_append_upcoming (hf : b.filter = none) :
    b.text ++ b.upcoming = b.drained.text := by
  obtain ⟨more, htext, hdelivered⟩ := (grown_drained hf).added
  rw [upcoming, hdelivered, List.drop_left, htext]

/-- A buffer that cannot grow has nothing upcoming. -/
theorem drained_of_ended (hm : b.mayGrow = false) : b.drained = b := by
  unfold drained
  rw [growWhile_of_settled fun h => absurd (hm.symm.trans h) Bool.false_ne_true]
  rfl

theorem upcoming_of_ended (hm : b.mayGrow = false) : b.upcoming = [] := by
  rw [upcoming, drained_of_ended hm, List.drop_length]

/-- Growing does not change what a buffer can grow to. -/
theorem drained_of_grow {more : Bool} (hm : b.mayGrow = true) (hg : grow b = .ok more b') :
    b'.drained = b.drained := by
  unfold drained
  rw [growWhile_of_ok ⟨hm, rfl⟩ hg]

/-- **A loop of growths does not change what a buffer can grow to.** -/
theorem drained_of_growWhile {wanting : List Char → Bool} {u : Unit}
    (h : growWhile wanting b = .ok u b') : b'.drained = b.drained := by
  have hgrow : ∀ b₁ : Buffer, b₁.drained = b.drained → b₁.mayGrow = true →
      wanting b₁.text = true →
      (grow b₁).Meets (fun _ b₂ => b₂.drained = b.drained) (fun _ _ => True) := by
    intro b₁ h₁ hm _
    cases hg : grow b₁ with
    | ok more b₂ => exact (drained_of_grow hm hg).trans h₁
    | error fault b₂ => trivial
  exact ((growWhile_meets hgrow rfl).of_ok h).1

/-- **A loop of growths does not change the whole text**, held and upcoming. -/
theorem append_upcoming_of_growWhile {wanting : List Char → Bool} {u : Unit} (hf : b.filter = none)
    (h : growWhile wanting b = .ok u b') : b'.text ++ b'.upcoming = b.text ++ b.upcoming := by
  have hgrown := ((growWhile_grown hf wanting).of_ok h).1
  rw [text_append_upcoming hf, text_append_upcoming (hgrown.filter_eq.trans hf),
    drained_of_growWhile h]

end Buffer

namespace TokenSpec

variable {spec : TokenSpec} {word : List Char} {b : Buffer}

/-! ## Words -/

/-- Two tokens that both find a text not wanting, and of which it says the same, are looked for
alike. -/
theorem seek_congr_of_settled {spec' : TokenSpec} (h : b.Settled spec.wanting)
    (h' : b.Settled spec'.wanting) (hverdict : spec.verdict b.text = spec'.verdict b.text) :
    spec.seek b = spec'.seek b := by
  rw [seek_apply, seek_apply, Buffer.growWhile_of_settled h, Buffer.growWhile_of_settled h']
  dsimp only
  rw [hverdict]

/-- **A single character may be looked for as a literal**, where the buffer is not empty or cannot
grow. -/
theorem seek_singleChar_eq_seek_literal (name : String) (encoder : Encoder)
    (hone : word.length = 1) (hb : b.text ≠ [] ∨ b.mayGrow = false) :
    (⟨name, .singleChar word, encoder⟩ : TokenSpec).seek b
      = (⟨name, .literal word, encoder⟩ : TokenSpec).seek b := by
  have hsettled : b.Settled (⟨name, .literal word, encoder⟩ : TokenSpec).wanting := by
    intro hm
    have hne : b.text ≠ [] := hb.resolve_right (by simp [hm])
    simpa [wanting, hone] using hne
  exact seek_congr_of_settled (fun _ => rfl) hsettled
    (congrArg Except.ok (singleCharIn_eq_literalIn hone))

/-- Every text that is looked for may be looked for as a literal. -/
theorem seek_word_eq_seek_literal (hu : spec.Usable) (hword : spec.word? = some word)
    (hb : b.text ≠ [] ∨ b.mayGrow = false) :
    spec.seek b = (⟨spec.name, .literal word, spec.encoder⟩ : TokenSpec).seek b := by
  obtain ⟨name, target, encoder⟩ := spec
  cases target with
  | singleChar word' =>
    cases hword
    exact seek_singleChar_eq_seek_literal name encoder hu hb
  | literal word' =>
    cases hword
    rfl
  | pattern p => cases hword
  | unknown kind => cases hword

/-- **Looking for a literal** gives the answer of the whole text, after as many growths as it takes
until the buffer is as long as the literal or the source has ended. -/
theorem seek_literal_whole (name : String) (word : List Char) (encoder : Encoder)
    (hf : b.filter = none) (hsource : b.source.Reliable) :
    ∃ growths b', Buffer.GrownUntil
        (fun b' => word.length ≤ b'.text.length ∨ b'.mayGrow = false) b growths b'
      ∧ Buffer.Grown b b'
      ∧ (⟨name, .literal word, encoder⟩ : TokenSpec).seek b
        = .ok (literalIn name word (b.text ++ b.upcoming)) b' := by
  have huntroubled : b.Untroubled := ⟨hsource, by simp [hf]⟩
  obtain ⟨growths, b', hgrown, hloop⟩ :=
    huntroubled.growWhile (⟨name, .literal word, encoder⟩ : TokenSpec).wanting
  have hiff : ∀ b₁ : Buffer, b₁.Settled (⟨name, .literal word, encoder⟩ : TokenSpec).wanting
      ↔ word.length ≤ b₁.text.length ∨ b₁.mayGrow = false := by
    intro b₁
    cases hm : b₁.mayGrow <;> simp [Buffer.Settled, wanting, hm]
  refine ⟨growths, b', hgrown.congr hiff, ((Buffer.growWhile_grown hf _).of_ok hloop).1, ?_⟩
  have hwhole : literalIn name word (b.text ++ b.upcoming) = literalIn name word b'.text := by
    rw [← Buffer.append_upcoming_of_growWhile hf hloop]
    rcases (hiff b').mp hgrown.reached with hle | hended
    · exact literalIn_append name hle b'.upcoming
    · rw [Buffer.upcoming_of_ended hended, List.append_nil]
  rw [seek_apply, hloop, hwhole]
  rfl

/-- **A text is found exactly if the whole text begins with it**, held and upcoming, however that is
handed out. The buffer grows until it is as long as the text that is looked for or the source has
ended, and no further: for a single character it does not grow at all. Nothing is consumed, and the
buffer takes in what was read and nothing else. Looking for a single character and looking for it as
a literal are the same. -/
theorem seek_word_begins {default : Encoder} {name : String} {definition : Setting}
    (hcompile : compile default name definition = .ok spec) (hword : spec.word? = some word)
    (hf : b.filter = none) (hsource : b.source.Reliable) (hb : b.text ≠ [] ∨ b.mayGrow = false) :
    (∃ growths b', Buffer.GrownUntil
        (fun b' => word.length ≤ b'.text.length ∨ b'.mayGrow = false) b growths b'
      ∧ b'.reads.length = b.reads.length + growths
      ∧ (word.length = 1 → growths = 0)
      ∧ Buffer.Grown b b'
      ∧ spec.seek b = .ok
        (if word <+: b.text ++ b.upcoming then some ⟨spec.name, word⟩ else none) b')
    ∧ ∀ c, word = [c] →
      (⟨spec.name, .singleChar [c], spec.encoder⟩ : TokenSpec).seek b
        = (⟨spec.name, .literal [c], spec.encoder⟩ : TokenSpec).seek b := by
  constructor
  · obtain ⟨growths, b', hgrown, hg, hseek⟩ :=
      seek_literal_whole spec.name word spec.encoder hf hsource
    refine ⟨growths, b', hgrown, hgrown.reads fun _ => .inr, fun hone => ?_, hg, ?_⟩
    · -- a buffer that is not empty is long enough for a single character
      refine Nat.eq_zero_of_not_pos fun hpos => ?_
      obtain ⟨b₁, hsame, hnot⟩ := hgrown.needed 0 hpos
      cases hsame
      refine hnot (hb.imp_left fun hne => ?_)
      rw [hone]
      exact List.length_pos_iff.mpr hne
    · rw [seek_word_eq_seek_literal (usable_of_compile hcompile) hword hb, hseek, literalIn]
      simp only [List.isPrefixOf_iff_prefix]
  · rintro c rfl
    exact seek_singleChar_eq_seek_literal spec.name spec.encoder rfl hb

/-! ## A keyword in pieces -/

namespace Order

/-- A keyword. -/
def keyword : TokenSpec :=
  ⟨"ORDER", .literal "ORDER".toList, .known .struct none⟩

/-- A buffer with the beginning of the keyword, the rest of which comes in pieces. -/
def buffer : Buffer :=
  ⟨1, none, .script ([['D'], ['E', 'R', 'S'], ['!']].map .ok), "OR".toList, 0, true, [], []⟩

end Order

/-- A keyword in three pieces is found after two growths, with the text behind it left to come. -/
theorem seek_word_begins_order :
    compile (.known .struct none) "ORDER" (.text "ORDER") = .ok Order.keyword
      ∧ Order.buffer.source.Reliable
      ∧ ∃ b', Buffer.GrownUntil (fun b' => 5 ≤ b'.text.length ∨ b'.mayGrow = false)
          Order.buffer 2 b'
        ∧ b'.text = "ORDERS".toList
        ∧ Order.keyword.seek Order.buffer = .ok (some ⟨"ORDER", "ORDER".toList⟩) b' := by
  have hcompile : compile (.known .struct none) "ORDER" (.text "ORDER") = .ok Order.keyword := rfl
  have hword : Order.keyword.word? = some "ORDER".toList := rfl
  have hsource : Order.buffer.source.Reliable := Source.reliable_script _
  obtain ⟨⟨growths, b', hgrown, hreads, -, -, hseek⟩, -⟩ :=
    seek_word_begins hcompile hword rfl hsource (.inl (by decide +kernel))
  have hb' : b' = (Order.keyword.seek Order.buffer).left := by rw [hseek]; rfl
  have htwo : growths = 2 := by
    have hlength : b'.reads.length = 2 := by
      rw [hb']
      decide +kernel
    rw [hlength] at hreads
    exact (hreads.trans (Nat.zero_add growths)).symm
  have hbegins : "ORDER".toList <+: Order.buffer.text ++ Order.buffer.upcoming := by
    decide +kernel
  rw [if_pos hbegins] at hseek
  refine ⟨hcompile, hsource, b', htwo ▸ hgrown, ?_, hseek⟩
  rw [hb']
  decide +kernel

end TokenSpec

end AmbiLex
