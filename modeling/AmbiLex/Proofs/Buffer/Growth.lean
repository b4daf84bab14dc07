import AmbiLex.Buffer
import AmbiLex.Proofs.Work

/-!
# What growing does to a buffer

All reading goes through one loop, so one rule for that loop (`growWhile_meets`) is all that is
needed to deal with refilling, with literals and with patterns: what a single growth keeps, the loop
keeps, and where the loop ends the text is no longer found wanting or the source has ended.

Without a filter a growth adds to the buffer what a read delivered, and nothing else. `Grown` says
so about any number of growths: the same text was added to the buffer and to everything that was
delivered so far. A buffer is *in step* with its source if it holds what was delivered and not yet
consumed, and a buffer that has grown still is.
-/

namespace AmbiLex

/-- **What a read delivered**: nothing if it failed. -/
def Read.gain (read : Read) : List Char :=
  match read.outcome with
  | .ok chunk => chunk
  | .error _ => []

namespace Buffer

/-- **All the text that was delivered so far**, consumed or not. -/
def delivered (b : Buffer) : List Char :=
  b.reads.flatMap Read.gain

/-! ## A growth -/

/-- **What a growth can do**, whatever the filter is: nothing if the source has ended, or else make
a read and, if something was delivered, take it in and perhaps put another text in place. The read
can fail, and so can the filter. -/
theorem grow_meets {good : Buffer → Prop} {bad : Fault → Buffer → Prop} {b : Buffer}
    (hsame : b.mayGrow = false → good b)
    (htaken : b.mayGrow = true → ∀ chunk, (b.source.read b.readSize).1 = .ok chunk →
      ∀ text filtered, good { b.asked.receive chunk with text := text, filtered := filtered })
    (hunread : b.mayGrow = true → ∀ fault, (b.source.read b.readSize).1 = .error fault →
      bad fault b.asked)
    (hunfiltered : b.mayGrow = true → ∀ chunk, (b.source.read b.readSize).1 = .ok chunk →
      ∀ fault filtered, bad fault { b.asked.receive chunk with filtered := filtered }) :
    (grow b).Meets (fun _ b' => good b') bad := by
  cases hm : b.mayGrow with
  | false =>
    rw [grow_of_not_mayGrow hm]
    exact hsame hm
  | true =>
    rw [grow_of_mayGrow hm]
    unfold read
    cases hr : (b.source.read b.readSize).1 with
    | error fault => exact hunread hm fault hr
    | ok chunk =>
      have htake : (takeIn chunk b.asked).Meets (fun _ b' => good b') bad := by
        unfold takeIn
        split
        · exact htaken hm chunk hr _ _
        · unfold applyFilter
          split
          · exact htaken hm chunk hr _ _
          · split
            · exact htaken hm chunk hr _ _
            · exact hunfiltered hm chunk hr _ _
      dsimp only
      generalize takeIn chunk b.asked = result at htake
      cases result with
      | ok u b' => exact htake
      | error fault b' => exact htake

/-- **What a growth can leave**, failed or not, and whatever the filter is: the buffer as it was, or
after a read, or with the chunk taken in and perhaps another text in place. -/
theorem grow_leaves {P : Buffer → Prop} {b : Buffer} (hsame : P b) (hasked : P b.asked)
    (htaken : ∀ chunk text filtered,
      P { b.asked.receive chunk with text := text, filtered := filtered }) :
    (grow b).Meets (fun _ b' => P b') (fun _ b' => P b') :=
  grow_meets (fun _ => hsame) (fun _ chunk _ => htaken chunk) (fun _ _ _ => hasked)
    fun _ chunk _ _ filtered => htaken chunk _ filtered

/-! ## The loop -/

/-- After a growth with an answer the loop goes on. -/
theorem growWhile_of_ok {wanting : List Char → Bool} {b b' : Buffer} {more : Bool}
    (hm : b.mayGrow = true ∧ wanting b.text = true) (hg : grow b = .ok more b') :
    growWhile wanting b = growWhile wanting b' := by
  rw [growWhile, dif_pos hm]
  split <;> simp_all

/-- After a growth that fails the loop fails. -/
theorem growWhile_of_error {wanting : List Char → Bool} {b b' : Buffer} {fault : Fault}
    (hm : b.mayGrow = true ∧ wanting b.text = true) (hg : grow b = .error fault b') :
    growWhile wanting b = .error fault b' := by
  rw [growWhile, dif_pos hm]
  split <;> simp_all

/-- **What a growth keeps, the loop keeps**, and the loop goes on until the text is no longer found
wanting or the source has ended. -/
theorem growWhile_meets {wanting : List Char → Bool} {P : Buffer → Prop}
    {bad : Fault → Buffer → Prop}
    (hstep : ∀ b, P b → b.mayGrow = true → wanting b.text = true →
      (grow b).Meets (fun _ b' => P b') bad) {b : Buffer} (hb : P b) :
    (growWhile wanting b).Meets
      (fun _ b' => P b' ∧ (b'.mayGrow = true → wanting b'.text = false)) bad := by
  -- the cases are those of the loop: a growth with an answer, one that fails, and none
  induction b using growWhile.induct wanting with
  | case1 b hm more b' hg hlt ih =>
    rw [growWhile_of_ok hm hg]
    exact ih ((hstep b hb hm.1 hm.2).of_ok hg)
  | case2 b hm fault b' hg =>
    rw [growWhile_of_error hm hg]
    exact (hstep b hb hm.1 hm.2).of_error hg
  | case3 b hm =>
    rw [growWhile, dif_neg hm]
    exact ⟨hb, fun hgrow => eq_false_of_ne_true fun hw => hm ⟨hgrow, hw⟩⟩

/-- A text that is not found wanting is left alone. -/
theorem growWhile_of_settled {wanting : List Char → Bool} {b : Buffer}
    (h : b.mayGrow = true → wanting b.text = false) : growWhile wanting b = .ok () b := by
  rw [growWhile, dif_neg]
  rintro ⟨hm, hw⟩
  rw [h hm] at hw
  cases hw

/-! ## Growing without a filter -/

/-- **A growth without a filter**: what a read delivers is taken in as it is. -/
theorem grow_unfiltered {b : Buffer} (hf : b.filter = none) (hm : b.mayGrow = true) :
    grow b = match (b.source.read b.readSize).1 with
      | .ok chunk => .ok (b.asked.receive chunk).mayGrow (b.asked.receive chunk)
      | .error fault => .error fault b.asked := by
  rw [grow_of_mayGrow hm]
  unfold read
  cases hr : (b.source.read b.readSize).1 with
  | error fault => rfl
  | ok chunk =>
    dsimp only
    unfold takeIn
    cases hc : chunk.isEmpty with
    | true => rfl
    | false =>
      have hf' : (b.asked.receive chunk).filter = none := hf
      rw [if_neg Bool.false_ne_true]
      unfold applyFilter
      rw [hf']

/-- **A buffer that has grown**: the same text was added to what it holds and to what was
delivered, and nothing was consumed. -/
structure Grown (b b' : Buffer) : Prop where
  /-- Growing does not change the filter. -/
  filter_eq : b'.filter = b.filter
  /-- Growing does not change the least size. -/
  minBuffer_eq : b'.minBuffer = b.minBuffer
  /-- Nothing was consumed. -/
  consumed_eq : b'.consumed = b.consumed
  /-- A source that has ended stays so. -/
  ended : b.mayGrow = false → b'.mayGrow = false
  /-- What was added. -/
  added : ∃ more, b'.text = b.text ++ more ∧ b'.delivered = b.delivered ++ more

namespace Grown

theorem refl (b : Buffer) : Grown b b :=
  ⟨rfl, rfl, rfl, id, [], (List.append_nil _).symm, (List.append_nil _).symm⟩

theorem trans {b b' b'' : Buffer} (h : Grown b b') (h' : Grown b' b'') : Grown b b'' := by
  obtain ⟨more, htext, hdelivered⟩ := h.added
  obtain ⟨more', htext', hdelivered'⟩ := h'.added
  refine ⟨h'.filter_eq.trans h.filter_eq, h'.minBuffer_eq.trans h.minBuffer_eq,
    h'.consumed_eq.trans h.consumed_eq, fun hm => h'.ended (h.ended hm), more ++ more', ?_, ?_⟩
  · rw [htext', htext, List.append_assoc]
  · rw [hdelivered', hdelivered, List.append_assoc]

/-- The text held is still the beginning of what is held now. -/
theorem isPrefix {b b' : Buffer} (h : Grown b b') : b.text <+: b'.text := by
  obtain ⟨more, htext, -⟩ := h.added
  exact ⟨more, htext.symm⟩

theorem length_delivered_le {b b' : Buffer} (h : Grown b b') :
    b.delivered.length ≤ b'.delivered.length := by
  obtain ⟨more, -, hdelivered⟩ := h.added
  rw [hdelivered, List.length_append]
  exact Nat.le_add_right _ _

end Grown

@[simp] theorem delivered_asked (b : Buffer) :
    b.asked.delivered
      = b.delivered ++ Read.gain ⟨b.readSize, (b.source.read b.readSize).1⟩ := by
  show (b.reads ++ [_]).flatMap Read.gain = _
  rw [List.flatMap_append, List.flatMap_singleton]
  rfl

/-- **A growth without a filter leaves a grown buffer**, even if the read fails. -/
theorem grow_grown {b : Buffer} (hf : b.filter = none) :
    (grow b).Meets (fun _ b' => Grown b b') (fun _ b' => Grown b b') := by
  cases hm : b.mayGrow with
  | false =>
    rw [grow_of_not_mayGrow hm]
    exact Grown.refl b
  | true =>
    have hd := delivered_asked b
    rw [grow_unfiltered hf hm]
    cases hr : (b.source.read b.readSize).1 with
    | error fault =>
      rw [hr] at hd
      exact ⟨rfl, rfl, rfl, id, [], (List.append_nil _).symm, hd⟩
    | ok chunk =>
      rw [hr] at hd
      refine ⟨rfl, rfl, rfl, fun hended => ?_, chunk, rfl, hd⟩
      rw [hm] at hended
      cases hended

/-- **Any number of growths without a filter leave a grown buffer.** -/
theorem growWhile_grown {b : Buffer} (hf : b.filter = none) (wanting : List Char → Bool) :
    (growWhile wanting b).Meets
      (fun _ b' => Grown b b' ∧ (b'.mayGrow = true → wanting b'.text = false))
      (fun _ b' => Grown b b') := by
  refine growWhile_meets (P := Grown b) (fun b₁ h₁ _ _ => ?_) (Grown.refl b)
  have hgrown := grow_grown (h₁.filter_eq.trans hf)
  exact hgrown.mono (fun _ _ h => h₁.trans h) (fun _ _ h => h₁.trans h)

/-- Refilling is growing until the buffer is long enough. -/
theorem refill_apply (b : Buffer) :
    refill b = (do
      growWhile fun text => text.length < b.threshold
      return (← get).mayGrow : BufferM Bool) b := rfl

/-- A buffer whose source has ended is not refilled. -/
theorem refill_of_ended {b : Buffer} (hended : b.mayGrow = false) : refill b = .ok false b := by
  rw [refill_apply, EStateM.bind_apply_of_ok
    (growWhile_of_settled fun hm => by rw [hended] at hm; cases hm), EStateM.get_bind, hended]
  rfl

/-- **What every growth keeps, the loop keeps**, failed or not. -/
theorem growWhile_keeps {P : Buffer → Prop}
    (hgrow : ∀ b, P b → (grow b).Meets (fun _ b' => P b') (fun _ b' => P b'))
    (wanting : List Char → Bool) {b : Buffer} (hb : P b) :
    (growWhile wanting b).Meets (fun _ b' => P b') (fun _ b' => P b') :=
  (growWhile_meets (fun b' h _ _ => hgrow b' h) hb).mono (fun _ _ h => h.1) (fun _ _ h => h)

/-- **What every growth keeps, refilling keeps**, failed or not. -/
theorem refill_keeps {P : Buffer → Prop}
    (hgrow : ∀ b, P b → (grow b).Meets (fun _ b' => P b') (fun _ b' => P b')) {b : Buffer}
    (hb : P b) : (refill b).Meets (fun _ b' => P b') (fun _ b' => P b') := by
  rw [refill_apply]
  exact EStateM.meets_bind (growWhile_keeps hgrow _ hb) fun _ _ h => h

/-- A buffer is long enough if it is as long as its least size, and not empty. -/
theorem threshold_le_iff {b : Buffer} {length : Nat} :
    b.threshold ≤ length ↔ b.minBuffer ≤ length ∧ 0 < length := by
  unfold threshold
  omega

/-- **Refilling without a filter leaves a grown buffer.** -/
theorem refill_grown {b : Buffer} (hf : b.filter = none) :
    (refill b).Meets (fun _ b' => Grown b b') (fun _ b' => Grown b b') := by
  rw [refill_apply]
  exact EStateM.meets_bind (growWhile_grown hf _) fun _ _ h => h.1

/-- **Consuming removes the first characters**, or all of them if there are not as many. -/
theorem text_consume (b : Buffer) (count : Nat) :
    (b.consume count).text = b.text.drop count := by
  show b.text.drop (place b.text.length count) = _
  rw [place, if_pos (Int.natCast_nonneg count), Int.toNat_natCast]
  rcases Nat.le_total count b.text.length with h | h
  · rw [Nat.min_eq_left h]
  · rw [Nat.min_eq_right h, List.drop_length, List.drop_of_length_le h]

/-! ## Buffers in step with their source -/

/-- **A buffer in step with its source**: without a filter, it holds what was delivered and not yet
consumed. -/
structure InStep (b : Buffer) : Prop where
  /-- There is no filter. -/
  unfiltered : b.filter = none
  /-- The number of characters consumed is not negative. -/
  consumed_nonneg : 0 ≤ b.consumed
  /-- No more was consumed than was delivered. -/
  consumed_le : b.consumed ≤ b.delivered.length
  /-- What is held is what was not consumed. -/
  text_eq : b.text = b.delivered.drop b.consumed.toNat

namespace InStep

/-- A buffer from which nothing was read is in step. -/
theorem start (source : Source) (minBuffer : Int) :
    InStep (Buffer.start source minBuffer none) :=
  ⟨rfl, Int.le_refl 0, Int.le_refl 0, rfl⟩

/-- **A buffer that has grown is still in step.** -/
theorem grown {b b' : Buffer} (hb : b.InStep) (h : Grown b b') : b'.InStep := by
  obtain ⟨more, htext, hdelivered⟩ := h.added
  have hle := hb.consumed_le
  have hnonneg := hb.consumed_nonneg
  refine ⟨h.filter_eq.trans hb.unfiltered, ?_, ?_, ?_⟩
  · rw [h.consumed_eq]
    exact hnonneg
  · have := h.length_delivered_le
    rw [h.consumed_eq]
    omega
  · rw [htext, hdelivered, h.consumed_eq, hb.text_eq,
      List.drop_append_of_le_length (by omega)]

/-- What is held and what was consumed make up what was delivered. -/
theorem length_text {b : Buffer} (hb : b.InStep) :
    b.consumed + b.text.length = b.delivered.length := by
  have hle := hb.consumed_le
  have hnonneg := hb.consumed_nonneg
  rw [hb.text_eq, List.length_drop]
  omega

/-- **Consuming no more than is held keeps a buffer in step.** -/
theorem consume {b : Buffer} (hb : b.InStep) {count : Nat} (h : count ≤ b.text.length) :
    (b.consume count).InStep := by
  have hlen := hb.length_text
  have hnonneg := hb.consumed_nonneg
  refine ⟨hb.unfiltered, ?_, ?_, ?_⟩
  · show 0 ≤ b.consumed + (count : Int)
    omega
  · show b.consumed + (count : Int) ≤ b.delivered.length
    omega
  · show (b.consume count).text = b.delivered.drop (b.consumed + count).toNat
    rw [text_consume, hb.text_eq, List.drop_drop]
    exact congrArg (List.drop · b.delivered) (by omega)

end InStep

end Buffer

end AmbiLex
