import AmbiLex.Proofs.Buffer.Counted
import AmbiLex.Proofs.Token.Seeking

/-!
# Trying a pattern again

A pattern whose match takes up the whole buffer is tried again on a longer one, and that text need
not go on from the one before. The filter may have put any other text in its place, and the pattern
may take any view of it: a match that had filled the buffer can get shorter, vanish, or turn into a
match of nothing. The end of the source alone can also be all that has changed.

So no answer is kept from one text to the next. What counts is the last text, and the answer is
always that of the pattern on it (`Answers`). What is known of the earlier texts is only why they
were left: the pattern had filled each of them, and there might have been more to come. The buffer
never grows for another reason.
-/

namespace AmbiLex

namespace TokenSpec

/-- **An answer about a pattern that a buffer's text gives**: nothing is found if the pattern does
not match there, a match of nothing is a fault, and any other match is found. One that takes up all
of the text is accepted only if the source has ended. -/
structure Answers (name : String) (p : Pattern) (b : Buffer)
    (result : EStateM.Result Fault Buffer (Option Found)) : Prop where
  /-- Nothing is found exactly if nothing matches. -/
  missed_iff : result = .ok none b ↔ p.matchLength b.text = none
  /-- The definition is at fault exactly if the match is empty. -/
  empty_iff : result = .error (.emptyMatch name) b ↔ p.matchLength b.text = some 0
  /-- Any other match is found: a beginning of the text, which is not empty. -/
  found_iff : ∀ found, result = .ok (some found) b ↔ found.name = name ∧ found.text ≠ []
    ∧ found.text <+: b.text ∧ p.matchLength b.text = some found.length
  /-- What is found ends before the text, unless nothing can follow. -/
  shorter : ∀ found, result = .ok (some found) b → b.mayGrow = true →
    found.length < b.text.length

/-- **A pattern fills a buffer** that may still grow. -/
def Fills (p : Pattern) (b : Buffer) : Prop :=
  b.mayGrow = true ∧ b.text ≠ [] ∧ p.matchLength b.text = some b.text.length

theorem not_settled_spans_iff {p : Pattern} {b : Buffer} : ¬ b.Settled p.spans ↔ Fills p b := by
  rw [Buffer.not_settled_iff, Pattern.spans_iff, Fills]

/-- What is found by a match is told by its length. -/
theorem found_eq_take_iff (name : String) {p : Pattern} {text : List Char} {n : Nat}
    (hm : p.matchLength text = some n) (hn : n ≠ 0) (found : Found) :
    ⟨name, text.take n⟩ = found ↔ found.name = name ∧ found.text ≠ [] ∧ found.text <+: text
      ∧ p.matchLength text = some found.length := by
  have hle := p.matchLength_le hm
  constructor
  · rintro rfl
    have hlength : (text.take n).length = n := List.length_take_of_le hle
    refine ⟨rfl, List.ne_nil_of_length_pos ?_, List.take_prefix n text, ?_⟩
    · exact hlength.symm ▸ Nat.pos_of_ne_zero hn
    · rw [hm, Found.length, hlength]
  · rintro ⟨rfl, -, hprefix, hlength⟩
    obtain rfl : n = found.text.length := Option.some.inj (hm.symm.trans hlength)
    rw [← List.prefix_iff_eq_take.mp hprefix]

/-- **Where a pattern leaves a buffer alone, it answers for the text there.** -/
theorem answers_of_settled {name : String} {p : Pattern} {b : Buffer} (h : b.Settled p.spans) :
    Answers name p b (match patternIn name p b.text with
      | .ok found => .ok found b
      | .error fault => .error fault b) := by
  unfold patternIn
  cases hm : p.matchLength b.text with
  | none => constructor <;> simp [hm]
  | some n =>
    cases n with
    | zero =>
      refine ⟨by simp [hm], by simp [hm], fun found => ?_, by simp⟩
      -- a text that is not empty has no length 0
      simp only [reduceCtorEq, false_iff, not_and, hm, Option.some.injEq]
      exact fun _ hne _ hlength => hne (List.eq_nil_of_length_eq_zero hlength.symm)
    | succ n =>
      have hfound := found_eq_take_iff name hm (Nat.succ_ne_zero n)
      refine ⟨by simp [hm], by simp [hm], fun found => ?_, fun found hresult hmore => ?_⟩
      · rw [← hfound found]
        simp
      · -- a match as long as the text would have made the buffer grow
        have heq : some ⟨name, b.text.take (n + 1)⟩ = some found := by simpa using hresult
        obtain ⟨-, hne, hprefix, hlength⟩ := (hfound found).mp (Option.some.inj heq)
        refine Nat.lt_of_le_of_ne hprefix.length_le fun hall => ?_
        have hspans : p.spans b.text = true := by
          refine Pattern.spans_iff.mpr ⟨fun hnil => hne ?_, ?_⟩
          · exact List.prefix_nil.mp (hnil ▸ hprefix)
          · rw [hlength, ← hall, Found.length]
        rw [h hmore] at hspans
        cases hspans

/-- Looking for a pattern is growing the buffer while the pattern fills it, and then asking the
pattern. -/
theorem seek_pattern_apply (name : String) (p : Pattern) (encoder : Encoder) (b : Buffer) :
    (⟨name, .pattern p, encoder⟩ : TokenSpec).seek b = match Buffer.growWhile p.spans b with
      | .ok _ b' => match patternIn name p b'.text with
        | .ok found => .ok found b'
        | .error fault => .error fault b'
      | .error fault b' => .error fault b' :=
  seek_apply _ b

/-- **Looking for a pattern ends with the answer of the last text.** The buffer grows some number of
times, each of them a read that was made because the pattern filled the buffer and there might have
been more to come. Nothing is consumed. Then the pattern answers for the text that is there, or it
fills that too and one more growth fails. This is so whatever the pattern, the filter and the source
do, and whatever the buffer held at first. -/
theorem seek_pattern_tries_again (name : String) (p : Pattern) (encoder : Encoder) (b : Buffer) :
    ∃ growths b', Buffer.growTimes growths b = .ok () b'
      ∧ b'.consumed = b.consumed
      ∧ b'.reads.length = b.reads.length + growths
      ∧ (∀ earlier < growths, ∃ b₁, Buffer.growTimes earlier b = .ok () b₁ ∧ Fills p b₁)
      ∧ (Answers name p b' ((⟨name, .pattern p, encoder⟩ : TokenSpec).seek b)
        ∨ Fills p b' ∧ ∃ fault b'', Buffer.grow b' = .error fault b''
          ∧ (⟨name, .pattern p, encoder⟩ : TokenSpec).seek b = .error fault b'') := by
  obtain ⟨growths, b', hgrown, hneeded, hend⟩ := Buffer.growWhile_counted p.spans b
  simp only [not_settled_spans_iff] at hneeded hend
  have hconsumed : b'.consumed = b.consumed := by
    have hgrow : ∀ b₁ : Buffer, b₁.consumed = b.consumed →
        (Buffer.grow b₁).Meets (fun _ b' => b'.consumed = b.consumed) (fun _ _ => True) :=
      fun b₁ h => (Buffer.grow_leaves (P := fun b' => b'.consumed = b.consumed) h h
        fun _ _ _ => h).mono (fun _ _ h => h) fun _ _ _ => trivial
    exact (Buffer.growTimes_keeps hgrow growths rfl).of_ok hgrown
  have hreads : b'.reads.length = b.reads.length + growths :=
    Buffer.reads_growTimes hgrown fun fewer h => (hneeded fewer h).imp fun _ hb => ⟨hb.1, hb.2.1⟩
  refine ⟨growths, b', hgrown, hconsumed, hreads, hneeded, ?_⟩
  rw [seek_pattern_apply]
  rcases hend with ⟨hsettled, hloop⟩ | ⟨hfills, fault, b'', hgrow, hloop⟩
  · rw [hloop]
    exact .inl (answers_of_settled hsettled)
  · rw [hloop]
    exact .inr ⟨hfills, fault, b'', hgrow, rfl⟩

end TokenSpec

end AmbiLex
