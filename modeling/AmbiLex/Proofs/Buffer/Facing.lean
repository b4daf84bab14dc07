import AmbiLex.Proofs.Buffer.Growth
import AmbiLex.Proofs.Token.Usable

/-!
# Buffers that face a text

How much of a text a buffer holds depends on the size of its chunks, on the pace of its source and
on what was looked for before. What it *faces* does not: the text it holds followed by the text that
its source has not yet delivered. Growing changes the first and not the second, and consuming
removes the same characters from both.

A buffer that faces a text is *ready* if it holds enough of it for a round: as much as its least
size asks for, unless the source has ended. With the least size 0 only the whole text is enough.
What is looked for in a ready buffer is found as if the whole text had been there (`seek_of_ready`),
for single characters and literals in any case and for a pattern if its answers are stable.
-/

namespace AmbiLex

/-- **A pattern with stable answers**: on texts of at least that length, neither a failure to match
nor a match that ends before the end of the text is revised when the text goes on. -/
def Pattern.StableFrom (p : Pattern) (least : Nat) : Prop :=
  ∀ text more : List Char, least ≤ text.length →
    (p.matchLength text = none → p.matchLength (text ++ more) = none)
      ∧ ∀ n, p.matchLength text = some n → n < text.length →
        p.matchLength (text ++ more) = some n

/-- **A read from a text delivers a beginning of it**, and all of it if nothing is delivered. -/
theorem Source.read_text (rest : List Char) {pace : Option Nat} (hpace : pace ≠ some 0) {size : Int}
    (hsize : size ≠ 0) :
    ∃ chunk rest', (Source.text rest pace).read size = (.ok chunk, .text rest' pace)
      ∧ chunk ++ rest' = rest ∧ (chunk = [] → rest' = []) ∧ (size < 0 → rest' = []) := by
  have hportion : (Source.text rest pace).portion size ≠ 0
      ∧ (size < 0 → (Source.text rest pace).portion size < 0) := by
    cases pace with
    | none => exact ⟨hsize, id⟩
    | some n =>
      have hn : n ≠ 0 := fun h => hpace (congrArg some h)
      unfold Source.portion
      dsimp only
      split <;> omega
  unfold Source.read
  dsimp only
  split
  · exact ⟨rest, [], rfl, List.append_nil rest, fun _ => rfl, fun _ => rfl⟩
  · refine ⟨_, _, rfl, List.take_append_drop _ rest, fun hnil => ?_, fun hneg => ?_⟩
    · rcases List.take_eq_nil_iff.mp hnil with h | h
      · omega
      · rw [h, List.drop_nil]
    · exact absurd (hportion.2 hneg) ‹_›

namespace Buffer

/-- **A buffer that faces a text**: without a filter, it holds a beginning of the text, and its
source is about to deliver the rest. -/
structure Faces (b : Buffer) (ahead : List Char) : Prop where
  /-- There is no filter. -/
  unfiltered : b.filter = none
  /-- What is held and what is still to come make up the text, and nothing is to come once the
  source has ended. -/
  supply : ∃ rest pace, b.source = .text rest pace ∧ pace ≠ some 0 ∧ b.text ++ rest = ahead
    ∧ (b.mayGrow = false → rest = [])

namespace Faces

variable {b b' : Buffer} {ahead : List Char}

/-- A buffer of a text faces that text before anything is read. -/
theorem start (text : List Char) {pace : Option Nat} (hpace : pace ≠ some 0) (minBuffer : Int) :
    Faces (Buffer.start (.text text pace) minBuffer none) text :=
  ⟨rfl, text, pace, rfl, hpace, rfl, fun h => by cases h⟩

theorem isPrefix (hb : b.Faces ahead) : b.text <+: ahead := by
  obtain ⟨rest, pace, -, -, htext, -⟩ := hb.supply
  exact ⟨rest, htext⟩

/-- Once the source has ended, everything is there. -/
theorem text_eq (hb : b.Faces ahead) (hm : b.mayGrow = false) : b.text = ahead := by
  obtain ⟨rest, pace, -, -, htext, hended⟩ := hb.supply
  rw [← htext, hended hm, List.append_nil]

/-- **Consuming removes the same characters from the text that is faced.** -/
theorem consume (hb : b.Faces ahead) {count : Nat} (h : count ≤ b.text.length) :
    (b.consume count).Faces (ahead.drop count) := by
  obtain ⟨rest, pace, hsource, hpace, htext, hended⟩ := hb.supply
  refine ⟨hb.unfiltered, rest, pace, hsource, hpace, ?_, hended⟩
  rw [text_consume, ← htext, List.drop_append_of_le_length h]

end Faces

/-- A read never asks for nothing. -/
theorem readSize_ne_zero (b : Buffer) : b.readSize ≠ 0 := by
  unfold readSize
  split <;> omega

/-- **A buffer that faces a text goes on facing it when it grows**, and growing does not fail. -/
theorem grow_faces {b : Buffer} {ahead : List Char} (hb : b.Faces ahead) :
    (grow b).Meets (fun _ b' => b'.Faces ahead ∧ (b.minBuffer = 0 → b'.mayGrow = false))
      (fun _ _ => False) := by
  cases hm : b.mayGrow with
  | false =>
    rw [grow_of_not_mayGrow hm]
    exact ⟨hb, fun _ => hm⟩
  | true =>
    obtain ⟨rest, pace, hsource, hpace, htext, -⟩ := hb.supply
    obtain ⟨chunk, rest', hread, hrest, hnil, hall⟩ :=
      Source.read_text rest hpace b.readSize_ne_zero
    have hzero : b.minBuffer = 0 → rest' = [] := by
      intro h0
      refine hall ?_
      rw [readSize, if_pos h0]
      decide
    rw [grow_unfiltered hb.unfiltered hm, hsource, hread]
    refine ⟨⟨hb.unfiltered, rest', pace, ?_, hpace, ?_, fun hended => ?_⟩, fun h0 => ?_⟩
    · show (b.source.read b.readSize).2 = _
      rw [hsource, hread]
    · show (b.text ++ chunk) ++ rest' = ahead
      rw [List.append_assoc, hrest, htext]
    · -- the source has ended with everything asked for, or with nothing delivered
      change (b.mayGrow && b.minBuffer != 0 && !chunk.isEmpty) = false at hended
      rw [hm, Bool.true_and, Bool.and_eq_false_iff] at hended
      rcases hended with h | h
      · exact hzero (by simpa using h)
      · exact hnil (by simpa using h)
    · show (b.mayGrow && b.minBuffer != 0 && !chunk.isEmpty) = false
      rw [h0]
      simp

/-- A growth does to a buffer that faces a text what it does to any, and leaves it facing the
text. -/
theorem grow_grown_faces {b : Buffer} {ahead : List Char} (hb : b.Faces ahead) :
    (grow b).Meets
      (fun _ b' => Grown b b' ∧ b'.Faces ahead ∧ (b.minBuffer = 0 → b'.mayGrow = false))
      (fun _ _ => False) :=
  ((grow_grown hb.unfiltered).and (grow_faces hb)).mono (fun _ _ h => h) (fun _ _ h => h.2)

/-- **A loop of growths leaves the buffer facing the same text**, and does not fail. -/
theorem growWhile_faces {b : Buffer} {ahead : List Char} (hb : b.Faces ahead)
    (wanting : List Char → Bool) :
    (growWhile wanting b).Meets
      (fun _ b' => (Grown b b' ∧ b'.Faces ahead) ∧ (b'.mayGrow = true → wanting b'.text = false))
      (fun _ _ => False) := by
  refine growWhile_meets (P := fun b' => Grown b b' ∧ b'.Faces ahead) ?_ ⟨Grown.refl b, hb⟩
  rintro b₁ ⟨hg₁, hb₁⟩ - -
  refine (grow_grown_faces hb₁).mono ?_ (fun _ _ h => h)
  rintro more b₂ ⟨hg₂, hb₂, -⟩
  exact ⟨hg₁.trans hg₂, hb₂⟩

/-- **Refilling leaves the buffer facing the same text**, and does not fail. -/
theorem refill_grown_faces {b : Buffer} {ahead : List Char} (hb : b.Faces ahead) :
    (refill b).Meets (fun _ b' => Grown b b' ∧ b'.Faces ahead) (fun _ _ => False) := by
  rw [refill_apply]
  exact EStateM.meets_bind (growWhile_faces hb _) fun _ _ h => h.1

/-! ## Being ready -/

/-- **A buffer that is ready for a round**: its source has ended, or it holds at least as much as
its least size asks for. With the least size 0 the source has to have ended. -/
def Ready (b : Buffer) : Prop :=
  b.mayGrow = false ∨ (0 < b.minBuffer ∧ b.minBuffer ≤ b.text.length)

/-- **With the least size 0 only the whole text is enough.** -/
theorem Ready.ended {b : Buffer} (hr : b.Ready) (h0 : b.minBuffer = 0) : b.mayGrow = false := by
  rcases hr with hm | ⟨hpos, -⟩
  · exact hm
  · rw [h0] at hpos
    exact absurd hpos (Int.lt_irrefl 0)

/-- A ready buffer that grows is still ready. -/
theorem Ready.grown {b b' : Buffer} (hr : b.Ready) (h : Grown b b') : b'.Ready := by
  rcases hr with hm | ⟨hpos, hle⟩
  · exact .inl (h.ended hm)
  · refine .inr ⟨by rw [h.minBuffer_eq]; exact hpos, ?_⟩
    have := h.isPrefix.length_le
    rw [h.minBuffer_eq]
    omega

/-- **A ready buffer is empty only if there is no text left.** -/
theorem Ready.text_isEmpty {b : Buffer} {ahead : List Char} (hr : b.Ready) (hb : b.Faces ahead) :
    b.text.isEmpty = ahead.isEmpty := by
  rcases hr with hm | ⟨hpos, hle⟩
  · rw [hb.text_eq hm]
  · have hlen := hb.isPrefix.length_le
    rw [Bool.eq_iff_iff, List.isEmpty_iff_length_eq_zero, List.isEmpty_iff_length_eq_zero]
    omega

/-- **Refilling makes a buffer ready.** With the least size 0 that takes reading everything, so the
buffer has to be empty before. -/
theorem refill_faces {b : Buffer} {ahead : List Char} (hb : b.Faces ahead)
    (hm : 0 ≤ b.minBuffer) (h0 : b.minBuffer = 0 → b.text = []) :
    (refill b).Meets (fun _ b' => Grown b b' ∧ b'.Faces ahead ∧ b'.Ready) (fun _ _ => False) := by
  have hloop : (growWhile (fun text => text.length < b.threshold) b).Meets
      (fun _ b' => (Grown b b' ∧ b'.Faces ahead
          ∧ (b.minBuffer = 0 → b'.mayGrow = false ∨ b'.text = []))
        ∧ (b'.mayGrow = true → decide (b'.text.length < b.threshold) = false))
      (fun _ _ => False) := by
    refine growWhile_meets (P := fun b' => Grown b b' ∧ b'.Faces ahead
      ∧ (b.minBuffer = 0 → b'.mayGrow = false ∨ b'.text = [])) ?_
      ⟨Grown.refl b, hb, fun h => .inr (h0 h)⟩
    rintro b₁ ⟨hg₁, hb₁, -⟩ - -
    refine (grow_grown_faces hb₁).mono ?_ (fun _ _ h => h)
    rintro more b₂ ⟨hg₂, hb₂, hzero⟩
    exact ⟨hg₁.trans hg₂, hb₂, fun h => .inl (hzero (hg₁.minBuffer_eq.trans h))⟩
  rw [refill_apply]
  refine EStateM.meets_bind hloop ?_
  rintro u b' ⟨⟨hg, hf, hzero⟩, hdone⟩
  refine ⟨hg, hf, ?_⟩
  cases hmore : b'.mayGrow with
  | false => exact .inl hmore
  | true =>
    obtain ⟨hle, hlen⟩ := threshold_le_iff.mp (Nat.not_lt.mp (of_decide_eq_false (hdone hmore)))
    -- the buffer is not empty, so with the least size 0 something was read, and all of it
    have hne : b.minBuffer ≠ 0 := by
      intro h
      rcases hzero h with hz | hz
      · rw [hmore] at hz
        cases hz
      · rw [hz] at hlen
        cases hlen
    refine .inr ⟨?_, ?_⟩ <;> rw [hg.minBuffer_eq] <;> omega

/-! ## Reading a text from its start -/

/-- **A buffer that reads a text** from its start: what was delivered of the text ends with what the
buffer holds, and what the buffer faces is the rest of the text from there on. -/
def ReadsFrom (b : Buffer) (text : List Char) : Prop :=
  ∃ before ahead, text = before ++ ahead ∧ b.delivered = before ++ b.text ∧ b.Faces ahead

namespace ReadsFrom

variable {b b' : Buffer} {text : List Char}

/-- A buffer of a text reads it before anything is read. -/
theorem start (text : List Char) {pace : Option Nat} (hpace : pace ≠ some 0) (minBuffer : Int) :
    ReadsFrom (Buffer.start (.text text pace) minBuffer none) text :=
  ⟨[], text, rfl, rfl, .start text hpace minBuffer⟩

/-- What was delivered is a beginning of the text. -/
theorem delivered_isPrefix (h : b.ReadsFrom text) : b.delivered <+: text := by
  obtain ⟨before, ahead, rfl, hdelivered, hfaces⟩ := h
  rw [hdelivered]
  exact (List.prefix_append_right_inj before).mpr hfaces.isPrefix

/-- Once the source has ended, everything was delivered. -/
theorem delivered_eq (h : b.ReadsFrom text) (hm : b.mayGrow = false) : b.delivered = text := by
  obtain ⟨before, ahead, rfl, hdelivered, hfaces⟩ := h
  rw [hdelivered, hfaces.text_eq hm]

/-- **A buffer that reads a text goes on reading it when it grows**, if it still faces what it
faced. -/
theorem grown (h : b.ReadsFrom text) (hgrown : Grown b b')
    (hfaces : ∀ ahead, b.Faces ahead → b'.Faces ahead) : b'.ReadsFrom text := by
  obtain ⟨before, ahead, htext, hdelivered, hahead⟩ := h
  obtain ⟨more, htext', hdelivered'⟩ := hgrown.added
  refine ⟨before, ahead, htext, ?_, hfaces ahead hahead⟩
  rw [hdelivered', hdelivered, htext', List.append_assoc]

/-- **Consuming what is held** leaves a buffer that reads the text. -/
theorem consume (h : b.ReadsFrom text) {count : Nat} (hle : count ≤ b.text.length) :
    (b.consume count).ReadsFrom text := by
  obtain ⟨before, ahead, htext, hdelivered, hahead⟩ := h
  have hsame : ahead.take count = b.text.take count := by
    obtain ⟨rest, rfl⟩ := hahead.isPrefix
    exact List.take_append_of_le_length hle
  refine ⟨before ++ b.text.take count, ahead.drop count, ?_, ?_, hahead.consume hle⟩
  · rw [List.append_assoc, ← hsame, List.take_append_drop, htext]
  · rw [text_consume, List.append_assoc, List.take_append_drop]
    exact hdelivered

end ReadsFrom

end Buffer

end AmbiLex
