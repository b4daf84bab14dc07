import AmbiLex.Proofs.Run.Moved
import AmbiLex.Proofs.Sequence.Verdict

/-!
# Faithful recognizers

A recognizer that answers that the next position is to be completed too promises that something is
to come: a token it was offered ends further ahead. It is *faithful* in a run if it kept the promise
at every moment of the run. A lexer relies on that, and nothing checks it.

Recognizers of sequences are faithful in every run (`SequenceGrammar.faithful`). They ask for one
more position only while an item is pending, and an item ahead of the position is there because a
token was offered that ends where the item is.
-/

namespace AmbiLex

/-- **A recognizer that is faithful in a run**: whenever it answered that the next position is to be
completed too, a token it had been offered ends strictly behind the position it had reached. -/
def Lexer.Faithful {ρ : Type} (lexer : Lexer) (recognizer : Recognizer Value ρ)
    (start : Run (Recorded Value ρ)) : Prop :=
  ∀ count point r, lexer.after recognizer.recorded count start = .ok point r →
    r.recognizer.history.Grounded

namespace SequenceState

variable {ν : Type} {g : SequenceGrammar}

/-- Using a token of no length stays at a position. -/
theorem position_of_mem_stay {terminal : String} {value : ν} {position : Int} {times : Nat}
    {items : List (SequenceItem ν)} (hitems : ∀ item ∈ items, item.position = position) :
    ∀ item ∈ stay g terminal value times items, item.position = position := by
  induction times generalizing items with
  | zero =>
    intro item hitem
    cases hitem
  | succ times ih =>
    have hreached : ∀ item ∈ items.filterMap (follow g terminal value 0),
        item.position = position := by
      intro item hitem
      obtain ⟨from_, hfrom, hfollow⟩ := List.mem_filterMap.mp hitem
      obtain ⟨state, -, rfl⟩ := Option.map_eq_some_iff.mp hfollow
      rw [← hitems from_ hfrom]
      exact Int.add_zero from_.position
    intro item hitem
    rcases List.mem_append.mp hitem with h | h
    · exact hreached item h
    · exact ih hreached item h

/-- **A token leads to items where it ends.** -/
theorem position_of_mem_reach {terminal : String} {value : ν} {length position : Int}
    {items : List (SequenceItem ν)} (hitems : ∀ item ∈ items, item.position = position) :
    ∀ item ∈ reach g terminal value length items, item.position = position + length := by
  intro item hitem
  by_cases hzero : length = 0
  · rw [reach, if_pos hzero] at hitem
    rw [hzero, Int.add_zero]
    exact position_of_mem_stay hitems item hitem
  · rw [reach_of_ne_zero hzero] at hitem
    obtain ⟨from_, hfrom, hfollow⟩ := List.mem_filterMap.mp hitem
    obtain ⟨state, -, rfl⟩ := Option.map_eq_some_iff.mp hfollow
    rw [← hitems from_ hfrom]

/-- An item at the current position is there. -/
theorem position_of_mem_current {s : SequenceState ν} {item : SequenceItem ν}
    (h : item ∈ s.current) : item.position = s.position := by
  unfold current itemsAt at h
  simpa using (List.mem_filter.mp h).2

end SequenceState

/-- **A recognizer of sequences whose items are backed by its history**: each item ahead of a
position has a token that was offered and ends behind that position. -/
structure Backed {ν : Type} (r : Recorded ν (SequenceState ν)) : Prop where
  /-- The history is grounded. -/
  grounded : r.history.Grounded
  /-- The position is the number of positions completed. -/
  position_eq : r.state.position = r.history.completions
  /-- The items are backed. -/
  items : ∀ item ∈ r.state.items, ∀ position : Nat, (position : Int) < item.position →
    r.history.ReachesBeyond position

namespace Backed

variable {ν : Type} {g : SequenceGrammar}

/-- At the start there is only the item of the start, with nothing ahead of it. -/
theorem fresh (g : SequenceGrammar) :
    Backed (.fresh (.initial g) : Recorded ν (SequenceState ν)) := by
  refine ⟨History.grounded_nil, rfl, ?_⟩
  intro item hitem position hlt
  rw [show item = ⟨0, g.start, []⟩ from List.mem_singleton.mp hitem] at hlt
  change (position : Int) < 0 at hlt
  omega

theorem expect {r r' : Recorded ν (SequenceState ν)} {expected : List String} (h : Backed r)
    (hexpect : (g.recognizer ν).recorded.terminalsExpected r = .ok expected r') : Backed r' := by
  cases hexpect
  refine ⟨h.grounded.snoc ?_, ?_, ?_⟩
  · rintro advance ⟨⟩
  · show r.state.position = _
    rw [h.position_eq, History.completions_append]
    rfl
  · intro item hitem position hlt
    exact History.reachesBeyond_snoc.mpr (.inl (h.items item hitem position hlt))

/-- **An item that a token leads to is backed by that token.** -/
theorem take {r r' : Recorded ν (SequenceState ν)} {name : String} {value : ν} {length : Int}
    (h : Backed r)
    (htake : (g.recognizer ν).recorded.alternative name value length r = .ok () r') :
    Backed r' := by
  cases htake
  refine ⟨h.grounded.snoc ?_, ?_, ?_⟩
  · rintro advance ⟨⟩
  · show r.state.position = _
    rw [h.position_eq, History.completions_append]
    rfl
  · intro item hitem position hlt
    rcases List.mem_append.mp hitem with hold | hnew
    · exact History.reachesBeyond_snoc.mpr (.inl (h.items item hold position hlt))
    · have hend := SequenceState.position_of_mem_reach
        (fun _ => SequenceState.position_of_mem_current) item hnew
      rw [hend, h.position_eq] at hlt
      exact History.reachesBeyond_snoc.mpr (.inr hlt)

/-- **Asking for one more position is backed** by the item that is pending. -/
theorem complete {r r' : Recorded ν (SequenceState ν)} {advance : Advance} (h : Backed r)
    (hcomplete : (g.recognizer ν).recorded.completePosition r = .ok advance r') : Backed r' := by
  cases hcomplete
  refine ⟨h.grounded.snoc ?_, ?_, ?_⟩
  · rintro advance ⟨⟩ hkind
    have hpending := ((SequenceState.said_verdict g _).of_moreNeeded hkind).2
    obtain ⟨item, hitem, hlt⟩ := List.any_eq_true.mp hpending
    refine h.items item hitem _ ?_
    rw [← h.position_eq]
    exact of_decide_eq_true hlt
  · show r.state.position + 1 = _
    rw [h.position_eq, History.completions_append]
    rfl
  · intro item hitem position hlt
    exact History.reachesBeyond_snoc.mpr (.inl (h.items item hitem position hlt))

end Backed

/-- **Recognizers of sequences are faithful** in every run that starts with nothing offered. -/
theorem SequenceGrammar.faithful (g : SequenceGrammar) (lexer : Lexer) (source : Source)
    (calls : List Call) :
    lexer.Faithful (g.recognizer Value) (lexer.run source (.fresh (.initial g)) calls) := by
  intro count point r hafter
  have hbacked : Backed r.recognizer :=
    Lexer.recognizer_after (K := Backed) (fun _ _ _ h => h.expect) (fun _ _ _ _ _ h => h.take)
      (fun _ _ _ h => h.complete) (Backed.fresh g) count point r hafter
  exact hbacked.grounded

end AmbiLex
