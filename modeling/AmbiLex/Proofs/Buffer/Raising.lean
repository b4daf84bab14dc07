import AmbiLex.Proofs.Faults
import AmbiLex.Proofs.Token.Seeking

/-!
# What the source and the filter of a buffer raise

Two things can fail while a buffer grows. A read can, and the filter can. The records of the buffer
tell both: how every read went is written down, and the texts that were given to the filter are, so
one can ask the filter about them again. `Buffer.raised` lists the faults that have come up in this
way.

Nothing goes on behind a fault. A buffer that is left by a growth that failed has raised one fault,
the one that the growth failed with, and every other buffer has raised none. So it is for the loops
that grow a buffer, and for looking for a token, where the text may turn out to be at fault instead
(`TokenSpec.seek_raises`).
-/

namespace AmbiLex

namespace Buffer

/-- The faults that reads have failed with. -/
def unread (b : Buffer) : List Fault :=
  b.reads.filterMap fun read => Fault.ofAnswer? read.outcome

/-- The faults that a filter has failed with. -/
def unfiltered (filter : Option Filter) (b : Buffer) : List Fault :=
  match filter with
  | none => []
  | some filter => b.filtered.filterMap fun text => Fault.ofAnswer? (filter text)

/-- **The faults that the source of a buffer and a filter have raised.** -/
def raised (filter : Option Filter) (b : Buffer) : List Fault :=
  b.unread ++ b.unfiltered filter

/-- **A buffer with a filter that has come to no harm**: neither its source nor its filter has
raised a fault. -/
structure Unharmed (filter : Option Filter) (b : Buffer) : Prop where
  /-- The filter of the buffer. -/
  filter_eq : b.filter = filter
  /-- No read has failed. -/
  unread_eq : b.unread = []
  /-- The filter has not failed. -/
  unfiltered_eq : b.unfiltered filter = []

namespace Unharmed

variable {filter : Option Filter} {b : Buffer}

theorem raised_eq (h : b.Unharmed filter) : b.raised filter = [] := by
  rw [raised, h.unread_eq, h.unfiltered_eq]
  rfl

/-- Nothing has happened to a buffer from which nothing was read. -/
theorem start (source : Source) (minBuffer : Int) (filter : Option Filter) :
    (Buffer.start source minBuffer filter).Unharmed filter := by
  refine ⟨rfl, rfl, ?_⟩
  cases filter <;> rfl

/-- Consuming does no harm. -/
theorem consume (h : b.Unharmed filter) (count : Int) : (b.consume count).Unharmed filter :=
  ⟨h.filter_eq, h.unread_eq, h.unfiltered_eq⟩

end Unharmed

/-- What a read came to is written down behind the others. -/
theorem unread_asked (b : Buffer) :
    b.asked.unread = b.unread ++ (Fault.ofAnswer? (b.source.read b.readSize).1).toList := by
  show (b.reads ++ [_]).filterMap _ = _
  rw [List.filterMap_append]
  cases h : Fault.ofAnswer? (b.source.read b.readSize).1 <;> simp [unread, h]

/-- The filter fails with what it raises. -/
theorem applyFilter_raises {filter : Option Filter} {b : Buffer} (h : b.Unharmed filter) :
    (applyFilter b).Meets (fun _ b' => b'.Unharmed filter)
      (fun fault b' => b'.raised filter = [fault]) := by
  obtain ⟨rfl, hread, hfiltered⟩ := h
  unfold applyFilter
  cases hfilter : b.filter with
  | none => exact ⟨hfilter, hread, rfl⟩
  | some filter =>
    rw [hfilter] at hfiltered
    -- one more text was given to the filter, which has not failed before
    have hmore : ∀ b' : Buffer, b'.filtered = b.filtered ++ [b.text] →
        b'.unfiltered (some filter) = (Fault.ofAnswer? (filter b.text)).toList := by
      intro b' hb'
      show b'.filtered.filterMap _ = _
      rw [hb', List.filterMap_append, show b.filtered.filterMap _ = [] from hfiltered]
      cases h : Fault.ofAnswer? (filter b.text) <;> simp [h]
    dsimp only
    cases hanswer : filter b.text with
    | ok text =>
      refine ⟨rfl, hread, ?_⟩
      rw [hmore _ rfl, hanswer]
      rfl
    | error fault =>
      refine congrArg₂ (· ++ ·) hread ?_
      rw [hmore _ rfl, hanswer]
      rfl

/-- **A growth fails with what it raises**, and raises nothing else. -/
theorem grow_raises {filter : Option Filter} {b : Buffer} (h : b.Unharmed filter) :
    (grow b).Meets (fun _ b' => b'.Unharmed filter)
      (fun fault b' => b'.raised filter = [fault]) := by
  cases hm : b.mayGrow with
  | false =>
    rw [grow_of_not_mayGrow hm]
    exact h
  | true =>
    have hasked := unread_asked b
    rw [h.unread_eq, List.nil_append] at hasked
    rw [grow_of_mayGrow hm]
    unfold read
    cases hr : (b.source.read b.readSize).1 with
    | error fault =>
      rw [hr] at hasked
      show b.asked.unread ++ b.unfiltered filter = [fault]
      rw [hasked, h.unfiltered_eq]
      rfl
    | ok chunk =>
      rw [hr] at hasked
      have hreceived : (b.asked.receive chunk).Unharmed filter :=
        ⟨h.filter_eq, hasked, h.unfiltered_eq⟩
      have htaken : (takeIn chunk b.asked).Meets (fun _ b' => b'.Unharmed filter)
          (fun fault b' => b'.raised filter = [fault]) := by
        unfold takeIn
        split
        · exact hreceived
        · exact applyFilter_raises hreceived
      dsimp only
      cases htake : takeIn chunk b.asked with
      | ok u b' => exact htaken.of_ok htake
      | error fault b' => exact htaken.of_error htake

/-- **The loop fails with what it raises**, and raises nothing else. -/
theorem growWhile_raises {filter : Option Filter} {b : Buffer} (h : b.Unharmed filter)
    (wanting : List Char → Bool) :
    (growWhile wanting b).Meets (fun _ b' => b'.Unharmed filter)
      (fun fault b' => b'.raised filter = [fault]) :=
  (growWhile_meets (fun _ h' _ _ => grow_raises h') h).mono (fun _ _ h' => h'.1) (fun _ _ h' => h')

/-- **Refilling fails with what it raises**, and raises nothing else. -/
theorem refill_raises {filter : Option Filter} {b : Buffer} (h : b.Unharmed filter) :
    (refill b).Meets (fun _ b' => b'.Unharmed filter)
      (fun fault b' => b'.raised filter = [fault]) := by
  rw [refill_apply]
  exact EStateM.meets_bind (growWhile_raises h _) fun _ _ h' => h'

end Buffer

/-- **Looking for a token fails with what the source or the filter raises**, or else with what its
text says. -/
theorem TokenSpec.seek_raises (spec : TokenSpec) {filter : Option Filter} {b : Buffer}
    (h : b.Unharmed filter) :
    (spec.seek b).Meets (fun _ b' => b'.Unharmed filter)
      (fun fault b' => b'.raised filter = [fault]
        ∨ b'.Unharmed filter ∧ spec.verdict b'.text = .error fault) :=
  (seek_meets ((Buffer.growWhile_raises h _).mono (fun _ _ h' => h') fun _ _ h' => .inl h')
    fun _ _ h' hverdict => .inr ⟨h', hverdict⟩).mono (fun _ _ h' => h'.1) (fun _ _ h' => h')

end AmbiLex
