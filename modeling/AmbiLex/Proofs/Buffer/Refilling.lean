import AmbiLex.Buffer.TextFilter
import AmbiLex.Proofs.Buffer.Conservation
import AmbiLex.Proofs.Buffer.Counted
import AmbiLex.Proofs.Token.Truncation

/-!
# Refilling a buffer

Refilling is a loop of growths that is after a length. It cannot be told from the length how far it
has come. A read can deliver less than was asked for, and a filter can drop all of it, or a part of
what had been there before. So what is counted is the growths, and `refill_takes_least_growths` says
that there are no more of them than needed, for any source that does not fail and any filter.

Without a filter a buffer of a text can be followed exactly, whatever was done with it before
(`Reaches`). It takes in the next piece of the text, up to its least size or up to the end. It does
not take in much more either. The last growth began below the least size and asked for twice as
much, so the buffer ends below three times its least size, unless it was longer from the start.
-/

namespace AmbiLex

/-- A filter that refuses nothing does not fail. -/
theorem TextFilter.total_filter {f : TextFilter} (h : f.failOn = none) : f.filter.Total := by
  intro text
  simp [TextFilter.filter, h]

namespace Buffer

/-- **What a buffer can become** by being used, whether its operations fail or not. Here the count
of what is consumed can be any number: a negative one leaves the last characters, and one that is
too large leaves none. -/
inductive Reaches (b₀ : Buffer) : Buffer → Prop
  /-- Nothing was done. -/
  | start : Reaches b₀ b₀
  /-- An operation was performed. -/
  | work {b : Buffer} (before : Reaches b₀ b) (operation : Operation) :
    Reaches b₀ (operation.work b).left
  /-- Characters were removed. -/
  | consume {b : Buffer} (before : Reaches b₀ b) (count : Int) : Reaches b₀ (b.consume count)

/-- What is left of a buffer faces what is left of the text, whichever characters were removed. -/
theorem Faces.exists_consume {b : Buffer} {ahead : List Char} (h : b.Faces ahead) (count : Int) :
    ∃ ahead', (b.consume count).Faces ahead' := by
  obtain ⟨rest, pace, hsource, hpace, -, hended⟩ := h.supply
  exact ⟨(b.consume count).text ++ rest, h.unfiltered, rest, pace, hsource, hpace, rfl, hended⟩

/-- **A buffer of a text faces a text whatever was done with it.** -/
theorem Reaches.faces {b₀ b : Buffer} {ahead : List Char} (h : b₀.Reaches b)
    (h₀ : b₀.Faces ahead) : (∃ ahead', b.Faces ahead') ∧ b.minBuffer = b₀.minBuffer := by
  induction h with
  | start => exact ⟨⟨ahead, h₀⟩, rfl⟩
  | consume before count ih =>
    obtain ⟨⟨ahead', h'⟩, hmin⟩ := ih
    exact ⟨h'.exists_consume count, hmin⟩
  | @work b before operation ih =>
    by_cases hkind : ∃ count, operation = .consume count
    · obtain ⟨count, rfl⟩ := hkind
      obtain ⟨⟨ahead', h'⟩, hmin⟩ := ih
      exact ⟨h'.exists_consume count, hmin⟩
    · refine Operation.left_work
        (P := fun b => (∃ ahead', b.Faces ahead') ∧ b.minBuffer = b₀.minBuffer) ?_
        (fun count heq => hkind ⟨count, heq⟩) ih
      rintro b₁ ⟨⟨ahead', h'⟩, hmin⟩
      exact (grow_grown_faces h').mono
        (fun _ _ hg => ⟨⟨ahead', hg.2.1⟩, hg.1.minBuffer_eq.trans hmin⟩) fun _ _ h => h.elim

/-- A buffer of a text is without trouble. -/
theorem Faces.untroubled {b : Buffer} {ahead : List Char} (h : b.Faces ahead) : b.Untroubled := by
  obtain ⟨rest, pace, hsource, -⟩ := h.supply
  refine ⟨hsource ▸ Source.reliable_text rest pace, fun filter hmem => ?_⟩
  rw [h.unfiltered] at hmem
  cases hmem

/-! ## How long a buffer gets -/

/-- A read delivers no more than was asked for. -/
theorem Faces.stride_le {b : Buffer} {ahead : List Char} (h : b.Faces ahead)
    (hpos : 0 < b.minBuffer) : (b.stride : Int) ≤ 2 * b.minBuffer := by
  obtain ⟨rest, pace, hsource, -⟩ := h.supply
  have hsize : b.readSize = 2 * b.minBuffer := if_neg (Int.ne_of_gt hpos)
  unfold stride Source.portion
  rw [hsource, hsize]
  cases pace with
  | none =>
    dsimp only
    omega
  | some n =>
    dsimp only
    split <;> omega

/-- **A growth makes a buffer longer by at most twice its least size.** -/
theorem grow_length_le {b : Buffer} {ahead : List Char} (h : b.Faces ahead)
    (hpos : 0 < b.minBuffer) (hm : b.mayGrow = true) :
    (grow b).Meets (fun _ b' => (b'.text.length : Int) ≤ b.text.length + 2 * b.minBuffer)
      (fun _ _ => False) := by
  refine (grow_stage h hpos hm).mono ?_ (fun _ _ h => h)
  rintro more b' ⟨htext, -⟩
  have hstride := h.stride_le hpos
  rw [htext, stage, List.length_take]
  omega

/-- **A loop that stops at the least size stops below three times the least size**, unless the
buffer was longer than that before. -/
theorem growWhile_length_le {b : Buffer} {ahead : List Char} (h : b.Faces ahead)
    (hpos : 0 < b.minBuffer) {wanting : List Char → Bool}
    (hshort : ∀ text, wanting text = true → (text.length : Int) < b.minBuffer) :
    (growWhile wanting b).Meets
      (fun _ b' => (b'.text.length : Int) ≤ max (b.text.length : Int) (3 * b.minBuffer - 1))
      (fun _ _ => False) := by
  refine (growWhile_meets (P := fun b' => (b'.Faces ahead ∧ b'.minBuffer = b.minBuffer)
    ∧ (b'.text.length : Int) ≤ max (b.text.length : Int) (3 * b.minBuffer - 1)) ?_
    ⟨⟨h, rfl⟩, Int.le_max_left _ _⟩).mono (fun _ _ h => h.1.2) (fun _ _ h => h)
  rintro b₁ ⟨⟨h₁, hmin⟩, -⟩ hm hw
  -- the growth begins below the least size
  have hlt := hshort b₁.text hw
  refine ((grow_grown_faces h₁).and (grow_length_le h₁ (hmin ▸ hpos) hm)).mono ?_
    (fun _ _ h => h.1)
  rintro more b₂ ⟨⟨hgrown, hfaces, -⟩, hlength⟩
  refine ⟨⟨hfaces, hgrown.minBuffer_eq.trans hmin⟩, ?_⟩
  rw [hmin] at hlength
  omega

/-! ## Refilling -/

/-- A text is too short for a buffer if it is shorter than its least size, or empty. -/
theorem settled_threshold_iff {b b' : Buffer} :
    b'.Settled (fun text => text.length < b.threshold)
      ↔ b'.mayGrow = false ∨ max b.minBuffer 1 ≤ (b'.text.length : Int) := by
  have hlength : b.threshold ≤ b'.text.length ↔ _ := threshold_le_iff
  cases hm : b'.mayGrow with
  | false => simp [Settled, hm]
  | true =>
    simp only [Settled, hm, forall_const, decide_eq_false_iff_not, Nat.not_lt, hlength,
      Bool.true_eq_false, false_or]
    omega

/-- **Refilling without trouble** grows the buffer until it is long enough or its source has
ended. -/
theorem Untroubled.refill {b : Buffer} (h : b.Untroubled) :
    ∃ count b', GrownUntil (Settled fun text => text.length < b.threshold) b count b'
      ∧ Buffer.refill b = .ok b'.mayGrow b' := by
  obtain ⟨count, b', hgrown, hloop⟩ := h.growWhile fun text => text.length < b.threshold
  refine ⟨count, b', hgrown, ?_⟩
  rw [refill_apply, EStateM.bind_apply_of_ok hloop]
  rfl

/-- **Refilling does not make a buffer longer than three times its least size**, if it was not. -/
theorem refill_length_le {b : Buffer} {ahead : List Char} (h : b.Faces ahead)
    (hpos : 0 < b.minBuffer) :
    (Buffer.refill b).Meets
      (fun _ b' => (b'.text.length : Int) ≤ max (b.text.length : Int) (3 * b.minBuffer - 1))
      (fun _ _ => False) := by
  have hshort : ∀ text : List Char, decide (text.length < b.threshold) = true →
      (text.length : Int) < b.minBuffer := by
    intro text hw
    have hlt := of_decide_eq_true hw
    unfold threshold at hlt
    omega
  rw [refill_apply]
  exact EStateM.meets_bind (growWhile_length_le h hpos hshort) fun _ _ h => h

/-- **Refilling takes the least number of growths** after which the buffer is as long as its least
size, and not empty, or the source has ended. Each of them is a read, and the answer tells whether
there may be more to come. This is so for every source that does not fail and every filter that does
not fail. Without a filter, a buffer of a text that was used in any way takes in the next piece of
the text, which makes it long enough or is all there is, and which does not make it longer than
three times its least size. -/
theorem refill_takes_least_growths :
    (∀ b : Buffer, b.Untroubled → ∃ count b',
      GrownUntil (fun b' => b'.mayGrow = false ∨ max b.minBuffer 1 ≤ (b'.text.length : Int))
          b count b'
        ∧ b'.reads.length = b.reads.length + count
        ∧ refill b = .ok b'.mayGrow b')
      ∧ ∀ text pace minBuffer b, pace ≠ some 0 →
        (start (.text text pace) minBuffer none).Reaches b →
        ∃ rest pace' more b', b.source = .text rest pace'
          ∧ refill b = .ok b'.mayGrow b'
          ∧ b'.text = b.text ++ more ∧ more <+: rest
          ∧ (max minBuffer 1 ≤ (b'.text.length : Int) ∨ more = rest)
          ∧ (1 ≤ minBuffer →
            (b'.text.length : Int) ≤ max (b.text.length : Int) (3 * minBuffer - 1)) := by
  constructor
  · intro b hb
    obtain ⟨count, b', hgrown, hrefill⟩ := hb.refill
    have hgrown' := hgrown.congr fun _ => settled_threshold_iff
    exact ⟨count, b', hgrown', hgrown'.reads fun _ => .inl, hrefill⟩
  · intro text pace minBuffer b hpace hreaches
    obtain ⟨⟨ahead, hfaces⟩, hmin⟩ := hreaches.faces (.start text hpace minBuffer)
    change b.minBuffer = minBuffer at hmin
    obtain ⟨rest, pace', hsource, -, rfl, -⟩ := hfaces.supply
    obtain ⟨count, b', hgrown, hrefill⟩ := hfaces.untroubled.refill
    obtain ⟨hg, hfaces'⟩ := (refill_grown_faces hfaces).of_ok hrefill
    obtain ⟨more, htext, -⟩ := hg.added
    have hprefix := hfaces'.isPrefix
    rw [htext] at hprefix
    refine ⟨rest, pace', more, b', hsource, hrefill, htext,
      (List.prefix_append_right_inj b.text).mp hprefix, ?_, fun hpos => ?_⟩
    · rw [← hmin]
      refine (settled_threshold_iff.mp hgrown.reached).symm.imp_right fun hended => ?_
      exact List.append_cancel_left (htext.symm.trans (hfaces'.text_eq hended))
    · rw [← hmin] at hpos ⊢
      exact (refill_length_le hfaces hpos).of_ok hrefill

/-! ## A dropped chunk and a slow source -/

namespace Dropped

/-- A buffer whose filter drops line feeds, of a text that begins with a chunk of them. -/
def buffer : Buffer :=
  start (.ofText "\n\n\n\nabcd".toList) 2
    (some (TextFilter.filter { replacements := [(['\n'], [])] }))

/-- A buffer that a text reaches slowly, refilled once and then left with its last character. -/
def trickling : Buffer :=
  (Operation.refill.work (start (.text "abcdefg".toList (some 2)) 3 none)).left.consume (-1)

end Dropped

/-- A chunk that is dropped makes a second growth necessary, and a buffer that a text reaches slowly
stops as soon as it is long enough. -/
theorem refill_takes_least_growths_dropped :
    Dropped.buffer.Untroubled
      ∧ (∃ b', GrownUntil
          (fun b' => b'.mayGrow = false ∨ max Dropped.buffer.minBuffer 1 ≤ (b'.text.length : Int))
          Dropped.buffer 2 b' ∧ refill Dropped.buffer = .ok b'.mayGrow b' ∧ b'.text = "abcd".toList)
      ∧ (start (.text "abcdefg".toList (some 2)) 3 none).Reaches Dropped.trickling
      ∧ ∃ rest pace more b', Dropped.trickling.source = .text rest pace
          ∧ refill Dropped.trickling = .ok b'.mayGrow b'
          ∧ b'.text = ['d'] ++ more ∧ more <+: rest ∧ b'.text = "def".toList := by
  have huntroubled : Dropped.buffer.Untroubled :=
    ⟨Source.reliable_text _ _, fun _ hmem => Option.some.inj hmem ▸ TextFilter.total_filter rfl⟩
  have hreaches : (start (.text "abcdefg".toList (some 2)) 3 none).Reaches Dropped.trickling :=
    (Reaches.start.work .refill).consume (-1)
  obtain ⟨count, b', hgrown, hreads, hrefill⟩ := refill_takes_least_growths.1 _ huntroubled
  obtain ⟨rest, pace, more, b'', hsource, hrefill', htext, hmore, -⟩ :=
    refill_takes_least_growths.2 _ _ _ _ (by decide) hreaches
  have hb' : b' = (refill Dropped.buffer).left := by rw [hrefill]; rfl
  have hb'' : b'' = (refill Dropped.trickling).left := by rw [hrefill']; rfl
  have hcount : count = 2 := by
    have htwo : b'.reads.length = 2 := by
      rw [hb']
      decide +kernel
    rw [htwo] at hreads
    exact (hreads.trans (Nat.zero_add count)).symm
  refine ⟨huntroubled, ⟨b', hcount ▸ hgrown, hrefill, ?_⟩, hreaches, rest, pace, more, b'', hsource,
    hrefill', ?_, hmore, ?_⟩
  · rw [hb']
    decide +kernel
  · rw [htext]
    exact congrArg (· ++ more) (by decide +kernel : Dropped.trickling.text = ['d'])
  · rw [hb'']
    decide +kernel

end Buffer

end AmbiLex
