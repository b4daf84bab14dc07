import AmbiLex.Buffer.TextFilter
import AmbiLex.Proofs.Buffer.Facing
import AmbiLex.Proofs.Text.LineEndings

/-!
# Buffers that unify line endings

A buffer whose filter unifies line endings faces the unified text, but it need not hold a beginning
of it. If a read ends between the two halves of an ending, the buffer ends with a carriage return
where the text has a line feed, and this is put right only by the next read. Whether that makes a
difference depends on what is done with the buffer in the meantime.

`Buffer.Unifies` is what holds of such a buffer at all times, and `Buffer.Shares` says how much of
what it holds can be relied on. Growing keeps both, although it may change the last character
(`grow_unifies`). Consuming keeps them too, as long as nothing is consumed that cannot be relied on.
-/

namespace AmbiLex

open Text (unified IsUnified Tears)

/-- **The filter that unifies line endings.** -/
def TextFilter.lineEndings : TextFilter :=
  ⟨none, [(['\r', '\n'], ['\n'])], false, []⟩

theorem TextFilter.filter_lineEndings (text : List Char) :
    lineEndings.filter text = .ok (unified text) := by
  show Except.ok (unified text ++ []) = _
  rw [List.append_nil]

namespace Buffer

/-- **A buffer that unifies the line endings of a text**: what it holds and what is still to come
make up the text that is faced, when they are unified. In what it holds they are unified already. -/
structure Unifies (b : Buffer) (ahead : List Char) : Prop where
  /-- The filter unifies line endings. -/
  filtered : b.filter = some TextFilter.lineEndings.filter
  /-- What is held and what is still to come make up the text, and nothing is to come once the
  source has ended. -/
  supply : ∃ rest pace, b.source = .text rest pace ∧ pace ≠ some 0
    ∧ unified (b.text ++ rest) = ahead ∧ (b.mayGrow = false → rest = [])
  /-- The line endings are unified in what is held. -/
  text_unified : IsUnified b.text
  /-- There are none to unify in the text that is faced. -/
  ahead_unified : IsUnified ahead

/-- **So much of what is held can be relied on**: at least so many characters at its start are those
of the text that is faced. -/
def Shares (b : Buffer) (ahead : List Char) (count : Int) : Prop :=
  ∃ shared, shared <+: b.text ∧ shared <+: ahead ∧ count ≤ shared.length

/-- **A buffer that has grown towards a text**: it holds no less, and what it shared with the text
it still shares. -/
structure GrownTowards (ahead : List Char) (b b' : Buffer) : Prop where
  /-- Growing does not change the least size. -/
  minBuffer_eq : b'.minBuffer = b.minBuffer
  /-- Nothing was consumed. -/
  consumed_eq : b'.consumed = b.consumed
  /-- A source that has ended stays so. -/
  ended : b.mayGrow = false → b'.mayGrow = false
  /-- The buffer holds no less. -/
  length_le : b.text.length ≤ b'.text.length
  /-- What was shared with the text still is. -/
  keeps : ∀ count, b.Shares ahead count → b'.Shares ahead count

namespace GrownTowards

variable {b b' b'' : Buffer} {ahead : List Char}

theorem refl (ahead : List Char) (b : Buffer) : GrownTowards ahead b b :=
  ⟨rfl, rfl, id, Nat.le_refl _, fun _ => id⟩

theorem trans (h : GrownTowards ahead b b') (h' : GrownTowards ahead b' b'') :
    GrownTowards ahead b b'' :=
  ⟨h'.minBuffer_eq.trans h.minBuffer_eq, h'.consumed_eq.trans h.consumed_eq,
    fun hm => h'.ended (h.ended hm), Nat.le_trans h.length_le h'.length_le,
    fun count hshares => h'.keeps count (h.keeps count hshares)⟩

/-- A ready buffer that has grown is still ready. -/
theorem ready (h : GrownTowards ahead b b') (hr : b.Ready) : b'.Ready := by
  rcases hr with hm | ⟨hpos, hle⟩
  · exact .inl (h.ended hm)
  · have hlength := h.length_le
    refine .inr ⟨?_, ?_⟩ <;> rw [h.minBuffer_eq] <;> omega

end GrownTowards

namespace Unifies

variable {b : Buffer} {ahead : List Char}

/-- A buffer of a text faces the unified text before anything is read, if there is nothing left to
unify in that. -/
theorem start {text : List Char} (htext : IsUnified (unified text)) {pace : Option Nat}
    (hpace : pace ≠ some 0) (minBuffer : Int) :
    Unifies (Buffer.start (.text text pace) minBuffer (some TextFilter.lineEndings.filter))
      (unified text) :=
  ⟨rfl, ⟨text, pace, rfl, hpace, rfl, fun h => by cases h⟩, rfl, htext⟩

/-- Once the source has ended, everything is there. -/
theorem text_eq (hb : b.Unifies ahead) (hm : b.mayGrow = false) : b.text = ahead := by
  obtain ⟨rest, pace, -, -, htext, hended⟩ := hb.supply
  rw [hended hm, List.append_nil] at htext
  exact hb.text_unified.symm.trans htext

/-- **A ready buffer is empty only if there is no text left.** -/
theorem isEmpty_text (hb : b.Unifies ahead) (hr : b.Ready) :
    b.text.isEmpty = ahead.isEmpty := by
  rcases hr with hm | ⟨hpos, hle⟩
  · rw [hb.text_eq hm]
  · obtain ⟨rest, pace, -, -, htext, -⟩ := hb.supply
    have hlength := Text.length_le_unified_append hb.text_unified rest
    rw [htext] at hlength
    rw [Bool.eq_iff_iff, List.isEmpty_iff_length_eq_zero, List.isEmpty_iff_length_eq_zero]
    omega

/-- **Consuming what can be relied on** removes the same characters from the text that is faced. -/
theorem consume (hb : b.Unifies ahead) {count : Nat} (hshares : b.Shares ahead count) :
    (b.consume count).Unifies (ahead.drop count)
      ∧ ∀ length, b.Shares ahead length →
        (b.consume count).Shares (ahead.drop count) (length - count) := by
  have hle : count ≤ b.text.length := by
    obtain ⟨shared, hshared, -, hcount⟩ := hshares
    have hlength := hshared.length_le
    omega
  constructor
  · obtain ⟨rest, pace, hsource, hpace, htext, hended⟩ := hb.supply
    obtain ⟨shared, hshared, hahead, hcount⟩ := hshares
    -- what is consumed is the same in both texts
    have hsame : b.text.take count = ahead.take count := by
      obtain ⟨more, hmore⟩ := hshared
      obtain ⟨more', hmore'⟩ := hahead
      rw [← hmore, ← hmore', List.take_append_of_le_length (by omega),
        List.take_append_of_le_length (by omega)]
    have hunified := hb.text_unified
    have hahead_unified := hb.ahead_unified
    rw [← List.take_append_drop count b.text] at hunified htext
    rw [← List.take_append_drop count ahead] at hahead_unified
    rw [List.append_assoc, ← List.take_append_drop count ahead, ← hsame] at htext
    refine ⟨hb.filtered, ⟨rest, pace, hsource, hpace, ?_, hended⟩, ?_, hahead_unified.of_append.2⟩
    · rw [text_consume]
      exact (Text.unified_of_beginning hunified.of_append.1 htext).2
    · rw [text_consume]
      exact hunified.of_append.2
  · rintro length ⟨shared, ⟨more, hmore⟩, ⟨more', hmore'⟩, hlength⟩
    refine ⟨shared.drop count, ⟨more.drop (count - shared.length), ?_⟩,
      ⟨more'.drop (count - shared.length), ?_⟩, ?_⟩
    · rw [text_consume, ← hmore, List.drop_append]
    · rw [← hmore', List.drop_append]
    · rw [List.length_drop]
      omega

end Unifies

/-! ## Growing -/

/-- Taking in a chunk unifies it with what is held, also if it is empty. -/
theorem takeIn_lineEndings {b : Buffer} (hfilter : b.filter = some TextFilter.lineEndings.filter)
    (htext : IsUnified b.text) (chunk : List Char) :
    ∃ filtered, takeIn chunk b
      = .ok ()
        { b.receive chunk with text := unified (b.text ++ chunk), filtered := filtered } := by
  unfold takeIn
  cases chunk with
  | nil =>
    refine ⟨b.filtered, ?_⟩
    show EStateM.Result.ok () (b.receive []) = _
    rw [List.append_nil, htext]
    show EStateM.Result.ok () { b with text := b.text ++ [], mayGrow := _ } = _
    rw [List.append_nil]
    rfl
  | cons c chunk =>
    refine ⟨b.filtered ++ [b.text ++ c :: chunk], ?_⟩
    have hfilter' : (b.receive (c :: chunk)).filter = some TextFilter.lineEndings.filter := hfilter
    show applyFilter (b.receive (c :: chunk)) = _
    unfold applyFilter
    rw [hfilter']
    dsimp only
    rw [TextFilter.filter_lineEndings, ← hfilter']
    rfl

/-- **A growth that unifies line endings**: what a read delivers is unified together with what is
held, and nothing else is changed by it. -/
theorem grow_lineEndings {b : Buffer} (hfilter : b.filter = some TextFilter.lineEndings.filter)
    (htext : IsUnified b.text) (hm : b.mayGrow = true) {chunk : List Char} {source : Source}
    (hread : b.source.read b.readSize = (.ok chunk, source)) :
    ∃ b', grow b = .ok b'.mayGrow b' ∧ b'.text = unified (b.text ++ chunk) ∧ b'.source = source
      ∧ b'.mayGrow = (b.minBuffer != 0 && !chunk.isEmpty) ∧ b'.filter = b.filter
      ∧ b'.minBuffer = b.minBuffer ∧ b'.consumed = b.consumed := by
  have hasked : read b = .ok chunk b.asked := by
    unfold read
    rw [hread]
  obtain ⟨filtered, htaken⟩ := takeIn_lineEndings (b := b.asked) hfilter htext chunk
  rw [grow_of_mayGrow hm, hasked]
  dsimp only
  rw [htaken]
  refine ⟨_, rfl, rfl, congrArg Prod.snd hread, ?_, rfl, rfl, rfl⟩
  show (b.mayGrow && b.minBuffer != 0 && !chunk.isEmpty) = _
  rw [hm, Bool.true_and]

/-- **A buffer that unifies the line endings of a text goes on doing so when it grows**, and growing
does not fail. -/
theorem grow_unifies {b : Buffer} {ahead : List Char} (hb : b.Unifies ahead) :
    (grow b).Meets (fun _ b' => GrownTowards ahead b b' ∧ b'.Unifies ahead) (fun _ _ => False) := by
  cases hm : b.mayGrow with
  | false =>
    rw [grow_of_not_mayGrow hm]
    exact ⟨.refl ahead b, hb⟩
  | true =>
    obtain ⟨rest, pace, hsource, hpace, hwhole, -⟩ := hb.supply
    obtain ⟨chunk, rest', hread, hrest, hnil, hall⟩ :=
      Source.read_text rest hpace b.readSize_ne_zero
    rw [← hsource] at hread
    obtain ⟨b', hgrow, htext, hsource', hmore, hfilter, hleast, hconsumed⟩ :=
      grow_lineEndings hb.filtered hb.text_unified hm hread
    rw [hgrow]
    -- what is held now is a piece of what there was to unify
    rw [← hrest] at hwhole
    have hpieces : IsUnified (unified ((b.text ++ chunk) ++ rest')) := by
      rw [List.append_assoc, hwhole]
      exact hb.ahead_unified
    refine ⟨⟨hleast, hconsumed, fun hended => ?_, ?_, ?_⟩, hfilter.trans hb.filtered,
      ⟨rest', pace, hsource', hpace, ?_, fun hended => ?_⟩, ?_, hb.ahead_unified⟩
    · rw [hm] at hended
      cases hended
    · rw [htext]
      exact Text.length_le_unified_append hb.text_unified chunk
    · rintro count ⟨shared, hshared, hahead, hcount⟩
      refine ⟨shared, ?_, hahead, hcount⟩
      rw [htext]
      exact Text.prefix_unified_append hb.text_unified hshared (hwhole ▸ hahead)
    · rw [htext, Text.unified_unified_append hpieces, List.append_assoc, hwhole]
    · -- the source has ended with everything asked for, or with nothing delivered
      rw [hmore, Bool.and_eq_false_iff] at hended
      rcases hended with hzero | hempty
      · refine hall ?_
        rw [readSize, if_pos (by simpa using hzero)]
        decide
      · exact hnil (by simpa using hempty)
    · rw [htext]
      exact Text.isUnified_unified_left hpieces

/-- **A loop of growths** leaves a buffer that unifies the same text, and does not fail. -/
theorem growWhile_unifies {b : Buffer} {ahead : List Char} (hb : b.Unifies ahead)
    (wanting : List Char → Bool) :
    (growWhile wanting b).Meets
      (fun _ b' => (GrownTowards ahead b b' ∧ b'.Unifies ahead)
        ∧ (b'.mayGrow = true → wanting b'.text = false))
      (fun _ _ => False) := by
  refine growWhile_meets (P := fun b' => GrownTowards ahead b b' ∧ b'.Unifies ahead) ?_
    ⟨.refl ahead b, hb⟩
  rintro b₁ ⟨hg₁, hb₁⟩ - -
  refine (grow_unifies hb₁).mono ?_ (fun _ _ h => h)
  rintro more b₂ ⟨hg₂, hb₂⟩
  exact ⟨hg₁.trans hg₂, hb₂⟩

/-- **Refilling makes a buffer ready**, if its least size is not 0. -/
theorem refill_unifies {b : Buffer} {ahead : List Char} (hb : b.Unifies ahead)
    (hpos : 0 < b.minBuffer) :
    (refill b).Meets (fun _ b' => GrownTowards ahead b b' ∧ b'.Unifies ahead ∧ b'.Ready)
      (fun _ _ => False) := by
  rw [refill_apply]
  refine EStateM.meets_bind (growWhile_unifies hb fun text => text.length < b.threshold) ?_
  rintro u b' ⟨⟨hg, hu⟩, hdone⟩
  refine ⟨hg, hu, ?_⟩
  cases hmore : b'.mayGrow with
  | false => exact .inl hmore
  | true =>
    obtain ⟨hle, -⟩ := threshold_le_iff.mp (Nat.not_lt.mp (of_decide_eq_false (hdone hmore)))
    refine .inr ⟨?_, ?_⟩ <;> rw [hg.minBuffer_eq] <;> omega

end Buffer

end AmbiLex
