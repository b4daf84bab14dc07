import AmbiLex.Proofs.Buffer.Growth

/-!
# How often a buffer grows

A loop of growths stops when the text is no longer found wanting, or when the source has ended.
This module counts its growths. `growTimes` grows a buffer a given number of times, whatever its
text, and so is the measure that the loops are held against: a buffer has *grown until* something
holds if that many growths were enough for it and fewer were not.

`growWhile_counted` says of every loop how far it got, and there are only two ways. Either the last
growth left a text that settles the matter, or one more growth was needed and failed. No loop grows
a buffer for nothing, since each of its growths found the text wanting and the source not yet ended,
and so made a read (`GrownUntil.reads`).

A buffer is *untroubled* if no growth of it can fail. Then only the first way is left.
-/

namespace AmbiLex

/-! ## Reads and filters that do not fail -/

namespace Source

/-- A source after reads that asked for so much. -/
def after (source : Source) (sizes : List Int) : Source :=
  sizes.foldl (fun source size => (source.read size).2) source

/-- **A source whose reads do not fail**, however many there are and whatever they ask for. -/
def Reliable (source : Source) : Prop :=
  ∀ sizes size, ∃ chunk, ((source.after sizes).read size).1 = .ok chunk

theorem Reliable.read {source : Source} (h : source.Reliable) (size : Int) :
    ∃ chunk, (source.read size).1 = .ok chunk :=
  h [] size

/-- What is left of a reliable source is reliable. -/
theorem Reliable.rest {source : Source} (h : source.Reliable) (size : Int) :
    (source.read size).2.Reliable := fun sizes => h (size :: sizes)

/-- What every read keeps, any number of reads keeps. -/
theorem after_keeps {P : Source → Prop} (hread : ∀ source size, P source → P (source.read size).2)
    {source : Source} (h : P source) (sizes : List Int) : P (source.after sizes) := by
  induction sizes generalizing source with
  | nil => exact h
  | cons size sizes ih => exact ih (hread source size h)

/-- **A text is reliable**, at any pace. -/
theorem reliable_text (rest : List Char) (pace : Option Nat) : (text rest pace).Reliable := by
  intro sizes size
  have hkept : ∃ rest', (text rest pace).after sizes = text rest' pace := by
    refine after_keeps (P := fun source => ∃ rest', source = text rest' pace) ?_ ⟨rest, rfl⟩ sizes
    rintro _ size ⟨rest', rfl⟩
    unfold read
    dsimp only
    split <;> exact ⟨_, rfl⟩
  obtain ⟨rest', h⟩ := hkept
  rw [h]
  unfold read
  dsimp only
  split <;> exact ⟨_, rfl⟩

/-- **Deliveries that are all there are reliable.** -/
theorem reliable_script (chunks : List (List Char)) : (script (chunks.map .ok)).Reliable := by
  intro sizes size
  have hkept : ∃ later : List (List Char),
      (script (chunks.map .ok)).after sizes = script (later.map .ok) := by
    refine after_keeps
      (P := fun source => ∃ later : List (List Char), source = script (later.map .ok)) ?_
      ⟨chunks, rfl⟩ sizes
    rintro _ size ⟨_ | ⟨chunk, later⟩, rfl⟩
    · exact ⟨[], rfl⟩
    · exact ⟨later, rfl⟩
  obtain ⟨_ | ⟨chunk, later⟩, h⟩ := hkept
  · exact ⟨[], by rw [h]; rfl⟩
  · exact ⟨chunk, by rw [h]; rfl⟩

end Source

/-- **A filter that does not fail**, whatever text it is given. -/
def Filter.Total (filter : Filter) : Prop :=
  ∀ text, ∃ text', filter text = .ok text'

namespace Buffer

/-- **A buffer that can grow without trouble**: neither its source nor its filter fails. -/
structure Untroubled (b : Buffer) : Prop where
  /-- No read fails. -/
  reliable : b.source.Reliable
  /-- The filter does not fail, if there is one. -/
  total : ∀ filter ∈ b.filter, filter.Total

/-- **A growth without trouble gives an answer**, and leaves a buffer without trouble. -/
theorem Untroubled.grow {b : Buffer} (h : b.Untroubled) :
    (Buffer.grow b).Meets (fun _ b' => b'.Untroubled) (fun _ _ => False) := by
  cases hm : b.mayGrow with
  | false =>
    rw [grow_of_not_mayGrow hm]
    exact h
  | true =>
    obtain ⟨chunk, hread⟩ := h.reliable.read b.readSize
    have hrest := h.reliable.rest b.readSize
    have htake : (takeIn chunk b.asked).Meets (fun _ b' => b'.Untroubled) (fun _ _ => False) := by
      unfold takeIn
      split
      · exact ⟨hrest, h.total⟩
      · unfold applyFilter
        cases hf : (b.asked.receive chunk).filter with
        | none => exact ⟨hrest, h.total⟩
        | some filter =>
          obtain ⟨text, htext⟩ := h.total filter hf (b.asked.receive chunk).text
          simp only [htext]
          exact ⟨hrest, fun filter' hmem => h.total filter' (hf.trans hmem)⟩
    rw [grow_of_mayGrow hm]
    simp only [read, hread]
    obtain ⟨u, b', hb', hkept⟩ := htake.exists_ok
    rw [hb']
    exact hkept

/-! ## Growing a number of times -/

/-- **Grow so many times**, whatever the text. -/
def growTimes : Nat → BufferM Unit
  | 0 => return
  | count + 1 => do
    let _ ← grow
    growTimes count

/-- After a growth with an answer there is one less to go. -/
theorem growTimes_succ {b b' : Buffer} {more : Bool} (h : grow b = .ok more b') (count : Nat) :
    growTimes (count + 1) b = growTimes count b' := by
  rw [growTimes, EStateM.bind_apply_of_ok h]

/-- **What every growth keeps, any number of them keeps**, failed or not. -/
theorem growTimes_keeps {P : Buffer → Prop} {bad : Fault → Buffer → Prop}
    (hgrow : ∀ b, P b → (grow b).Meets (fun _ b' => P b') bad) (count : Nat) {b : Buffer}
    (hb : P b) : (growTimes count b).Meets (fun _ b' => P b') bad := by
  induction count generalizing b with
  | zero => exact hb
  | succ count ih => exact EStateM.meets_bind (hgrow b hb) fun _ _ h => ih h

/-- **A buffer that grew until something held**: it held after so many growths, and not after
fewer. -/
structure GrownUntil (enough : Buffer → Prop) (b : Buffer) (count : Nat) (b' : Buffer) :
    Prop where
  /-- What so many growths left. -/
  grown : growTimes count b = .ok () b'
  /-- They were enough. -/
  reached : enough b'
  /-- Fewer were not. -/
  needed : ∀ fewer < count, ∃ b₁, growTimes fewer b = .ok () b₁ ∧ ¬ enough b₁

/-- **A buffer that a loop leaves alone**: its text is not found wanting, or its source has
ended. -/
def Settled (wanting : List Char → Bool) (b : Buffer) : Prop :=
  b.mayGrow = true → wanting b.text = false

theorem not_settled_iff {wanting : List Char → Bool} {b : Buffer} :
    ¬ b.Settled wanting ↔ b.mayGrow = true ∧ wanting b.text = true := by
  simp [Settled]

/-- One more growth that was needed comes before those that were. -/
theorem needed_succ {enough : Buffer → Prop} {b b' : Buffer} {more : Bool} {count : Nat}
    (hwanting : ¬ enough b) (h : grow b = .ok more b')
    (hneeded : ∀ fewer < count, ∃ b₁, growTimes fewer b' = .ok () b₁ ∧ ¬ enough b₁) :
    ∀ fewer < count + 1, ∃ b₁, growTimes fewer b = .ok () b₁ ∧ ¬ enough b₁ := by
  intro fewer hfewer
  cases fewer with
  | zero => exact ⟨b, rfl, hwanting⟩
  | succ fewer =>
    rw [growTimes_succ h]
    exact hneeded fewer (Nat.lt_of_succ_lt_succ hfewer)

/-- **How far a loop of growths gets.** After some growths, each of which was needed, either the
buffer is settled, or it needs one more and that fails. -/
theorem growWhile_counted (wanting : List Char → Bool) (b : Buffer) :
    ∃ count b', growTimes count b = .ok () b'
      ∧ (∀ fewer < count, ∃ b₁, growTimes fewer b = .ok () b₁ ∧ ¬ b₁.Settled wanting)
      ∧ ((b'.Settled wanting ∧ growWhile wanting b = .ok () b')
        ∨ ¬ b'.Settled wanting ∧ ∃ fault b'', grow b' = .error fault b''
          ∧ growWhile wanting b = .error fault b'') := by
  -- the cases are those of the loop: a growth with an answer, one that fails, and none
  induction b using growWhile.induct wanting with
  | case1 b hm more b₁ hg hlt ih =>
    obtain ⟨count, b', hgrown, hneeded, hend⟩ := ih
    rw [growWhile_of_ok hm hg]
    refine ⟨count + 1, b', ?_, needed_succ (not_settled_iff.mpr hm) hg hneeded, hend⟩
    rw [growTimes_succ hg, hgrown]
  | case2 b hm fault b'' hg =>
    exact ⟨0, b, rfl, fun _ h => absurd h (Nat.not_lt_zero _),
      .inr ⟨not_settled_iff.mpr hm, fault, b'', hg, growWhile_of_error hm hg⟩⟩
  | case3 b hm =>
    have hsettled : b.Settled wanting := fun hgrow => eq_false_of_ne_true fun hw => hm ⟨hgrow, hw⟩
    exact ⟨0, b, rfl, fun _ h => absurd h (Nat.not_lt_zero _),
      .inl ⟨hsettled, growWhile_of_settled hsettled⟩⟩

/-- **Every growth that a loop needs is a read.** -/
theorem reads_growTimes {b b' : Buffer} {count : Nat} (hgrown : growTimes count b = .ok () b')
    (hneeded : ∀ fewer < count, ∃ b₁, growTimes fewer b = .ok () b₁ ∧ b₁.mayGrow = true) :
    b'.reads.length = b.reads.length + count := by
  induction count generalizing b with
  | zero =>
    cases hgrown
    rfl
  | succ count ih =>
    obtain ⟨_, hsame, hm⟩ := hneeded 0 (Nat.succ_pos count)
    cases hsame
    obtain ⟨more, b₁, hg, hrest⟩ := EStateM.bind_eq_ok hgrown
    have hread : b₁.reads.length = b.reads.length + 1 := by
      have hone : (grow b).Meets (fun _ b' => b'.reads.length = b.reads.length + 1)
          (fun _ _ => True) := by
        refine grow_meets (fun h => ?_) (fun _ _ _ _ _ => ?_) (fun _ _ _ => trivial)
          fun _ _ _ _ _ => trivial
        · rw [hm] at h
          cases h
        · exact List.length_append
      exact hone.of_ok hg
    rw [ih hrest fun fewer h => ?_, hread, Nat.add_right_comm, Nat.add_assoc]
    obtain ⟨b₂, hb₂, hm₂⟩ := hneeded (fewer + 1) (Nat.succ_lt_succ h)
    rw [growTimes_succ hg] at hb₂
    exact ⟨b₂, hb₂, hm₂⟩

namespace GrownUntil

variable {enough enough' : Buffer → Prop} {b b' : Buffer} {count : Nat}

/-- What is enough may be said in other words. -/
theorem congr (h : GrownUntil enough b count b') (hiff : ∀ b, enough b ↔ enough' b) :
    GrownUntil enough' b count b' := by
  obtain rfl : enough = enough' := funext fun b => propext (hiff b)
  exact h

/-- **There are as many reads as growths**, if it is enough that the source has ended. -/
theorem reads (h : GrownUntil enough b count b') (hended : ∀ b, b.mayGrow = false → enough b) :
    b'.reads.length = b.reads.length + count := by
  refine reads_growTimes h.grown fun fewer hfewer => ?_
  obtain ⟨b₁, hgrown, hnot⟩ := h.needed fewer hfewer
  exact ⟨b₁, hgrown, eq_true_of_ne_false fun hm => hnot (hended b₁ hm)⟩

end GrownUntil

/-- **A loop of growths without trouble grows the buffer until it is settled.** -/
theorem Untroubled.growWhile {b : Buffer} (h : b.Untroubled) (wanting : List Char → Bool) :
    ∃ count b', GrownUntil (Settled wanting) b count b'
      ∧ Buffer.growWhile wanting b = .ok () b' := by
  obtain ⟨count, b', hgrown, hneeded, ⟨hsettled, hloop⟩ | ⟨-, fault, b'', hg, -⟩⟩ :=
    growWhile_counted wanting b
  · exact ⟨count, b', ⟨hgrown, hsettled, hneeded⟩, hloop⟩
  · have hkept := (growTimes_keeps (fun _ h => h.grow) count h).of_ok hgrown
    exact (hkept.grow.of_error hg).elim

end Buffer

end AmbiLex
