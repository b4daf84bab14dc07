import AmbiLex.Recognizer.Sequence

/-!
# What a recognizer of sequences says

What a recognizer of sequences expects is what the items at its position have somewhere to go with.
`Says` lists the four things that it can say at a position, each with what it means for its items.
Every verdict is one of them (`said_verdict`), so whoever needs to know something about verdicts
goes through the list.

Two of the four are final. A recognizer that has come to one of them is exhausted and never takes
that back, so it had better have nothing to wait for: no terminal is expected and no item is
pending (`Closed`). That is so when it finds out, and it stays so whatever is done with it
afterwards.
-/

namespace AmbiLex

/-- A key that stands for something is one of the keys. -/
theorem Keyed.mem_keys_of_get? {α : Type} {entries : Keyed α} {key : String} {value : α}
    (h : entries.get? key = some value) : key ∈ entries.keys := by
  induction entries with
  | nil => cases h
  | cons entry entries ih =>
    rw [get?_cons] at h
    split at h
    · rename_i heq
      rw [← heq]
      exact List.mem_cons_self
    · exact List.mem_cons_of_mem _ (ih h)

namespace SequenceState

variable {ν : Type} {g : SequenceGrammar} {s : SequenceState ν}

/-! ## What is expected -/

/-- **A terminal with somewhere to go is expected.** -/
theorem mem_expected {item : SequenceItem ν} (hitem : item ∈ s.current)
    {name state : String} (htarget : g.target? item.state name = some state) :
    name ∈ s.expected g := by
  unfold expected
  rw [List.mem_eraseDups]
  refine List.mem_flatMap.mpr ⟨item, hitem, ?_⟩
  unfold SequenceGrammar.target? at htarget
  exact Keyed.mem_keys_of_get? (Option.join_eq_some_iff.mp htarget)

/-- Removing repetitions leaves none. -/
theorem nodup_eraseDups (names : List String) : names.eraseDups.Nodup := by
  -- the rest is filtered before it is gone through, so the induction is on the length
  induction hlength : names.length using Nat.strongRecOn generalizing names with
  | _ length ih =>
    cases names with
    | nil => exact List.nodup_nil
    | cons name names =>
      rw [List.eraseDups_cons, List.nodup_cons, List.mem_eraseDups]
      refine ⟨fun hmem => ?_, ih _ ?_ _ rfl⟩
      · have hne := (List.mem_filter.mp hmem).2
        rw [beq_self_eq_true] at hne
        cases hne
      · rw [← hlength]
        exact Nat.lt_succ_of_le (List.length_filter_le _ names)

/-- No terminal is expected twice. -/
theorem nodup_expected (g : SequenceGrammar) (s : SequenceState ν) : (s.expected g).Nodup :=
  nodup_eraseDups _

/-- Where there is no item nothing is expected. -/
theorem expected_of_current_eq_nil (h : s.current = []) : s.expected g = [] := by
  unfold expected
  rw [h]
  rfl

/-- Something is expected only where there is an item. -/
theorem exists_current_of_expected (h : s.expected g ≠ []) : ∃ item, item ∈ s.current :=
  List.exists_mem_of_ne_nil _ fun hcurrent => h (expected_of_current_eq_nil hcurrent)

/-! ## Verdicts -/

/-- **What can be said at a position**, and when. -/
inductive Says (g : SequenceGrammar) (s : SequenceState ν) : Advance → Prop
  /-- Nothing is expected, and something is pending. -/
  | more (expected : s.expected g = []) (pending : s.pending = true) : Says g s .moreNeeded
  /-- Something is expected. -/
  | next (expected : s.expected g ≠ []) : Says g s (.nextExpected (s.expected g))
  /-- There are items, but nothing is expected or pending. -/
  | exhausted (current : s.current ≠ []) (expected : s.expected g = [])
    (pending : s.pending = false) : Says g s .exhausted
  /-- There are no items, and nothing is pending. -/
  | failure (current : s.current = []) (pending : s.pending = false) :
    Says g s (.failure (some ("No token fits at position " ++ toString (s.position - 1))))

/-- One more position is asked for only where nothing is expected, and something is pending. -/
theorem Says.of_moreNeeded {advance : Advance} (h : s.Says g advance)
    (hkind : advance.kind = .moreNeeded) : s.expected g = [] ∧ s.pending = true := by
  cases h with
  | more expected pending => exact ⟨expected, pending⟩
  | next expected => cases hkind
  | exhausted current expected pending => cases hkind
  | failure current pending => cases hkind

/-- What is expected is said if something is. -/
theorem Says.of_nextExpected {advance : Advance} (h : s.Says g advance)
    (hkind : advance.kind = .nextExpected) :
    advance.terminals = s.expected g ∧ s.expected g ≠ [] := by
  cases h with
  | more expected pending => cases hkind
  | next expected => exact ⟨rfl, expected⟩
  | exhausted current expected pending => cases hkind
  | failure current pending => cases hkind

/-- **Every verdict is one of the list.** -/
theorem said_verdict (g : SequenceGrammar) (s : SequenceState ν) : s.Says g (s.verdict g) := by
  unfold verdict
  split
  · rename_i hcurrent
    have hcurrent := List.isEmpty_iff.mp hcurrent
    split
    · rename_i hpending
      exact .more (expected_of_current_eq_nil hcurrent) hpending
    · rename_i hpending
      exact .failure hcurrent (eq_false_of_ne_true hpending)
  · rename_i hcurrent
    split
    · rename_i hexpected
      have hexpected := List.isEmpty_iff.mp hexpected
      split
      · rename_i hpending
        exact .more hexpected hpending
      · rename_i hpending
        exact .exhausted (fun hnil => hcurrent (List.isEmpty_iff.mpr hnil)) hexpected
          (eq_false_of_ne_true hpending)
    · rename_i hexpected
      exact .next fun hnil => hexpected (List.isEmpty_iff.mpr hnil)

/-- **A verdict is final exactly where nothing is expected and nothing is pending.** -/
theorem isFinal_verdict_iff :
    isFinal (s.verdict g) = true ↔ s.expected g = [] ∧ s.pending = false := by
  have hsaid := said_verdict g s
  generalize s.verdict g = advance at hsaid
  cases hsaid with
  | more expected pending => simp [isFinal, Advance.moreNeeded, pending]
  | next expected => simp [isFinal, Advance.nextExpected, expected]
  | exhausted current expected pending => simp [isFinal, Advance.exhausted, expected, pending]
  | failure current pending =>
    simp [isFinal, Advance.failure, expected_of_current_eq_nil current, pending]

/-- Where nothing is pending no item is ahead of the position. -/
theorem pending_eq_false_iff :
    s.pending = false ↔ ∀ item ∈ s.items, item.position ≤ (s.position : Int) := by
  unfold pending
  rw [List.any_eq_false]
  refine forall₂_congr fun item _ => ?_
  rw [decide_eq_true_eq, Int.not_lt]

/-- **Where there is no item and nothing is pending, all items are behind the position.** -/
theorem lt_position_of_failure (hcurrent : s.current = []) (hpending : s.pending = false) :
    ∀ item ∈ s.items, item.position < (s.position : Int) := by
  intro item hitem
  refine Int.lt_iff_le_and_ne.mpr ⟨pending_eq_false_iff.mp hpending item hitem, fun heq => ?_⟩
  have hmem : item ∈ s.current := List.mem_filter.mpr ⟨hitem, decide_eq_true heq⟩
  rw [hcurrent] at hmem
  cases hmem

/-- Asking what is expected changes nothing. -/
theorem expect_eq_ok {s' : SequenceState ν} {names : List String}
    (h : (g.recognizer ν).terminalsExpected s = .ok names s') : names = s.expected g ∧ s' = s := by
  cases h
  exact ⟨rfl, rfl⟩

/-- **Completing a position** is moving to the next one and saying something there. -/
theorem said_of_complete {s' : SequenceState ν} {advance : Advance}
    (h : (g.recognizer ν).completePosition s = .ok advance s') :
    s'.Says g advance ∧ s'.items = s.items ∧ s'.position = s.position + 1
      ∧ s'.exhausted = (s.exhausted || isFinal advance) := by
  cases h
  exact ⟨said_verdict g (s.complete g).2, rfl, rfl, rfl⟩

/-! ## Being exhausted -/

/-- **A recognizer that is exhausted has nothing to wait for**: it expects nothing, and nothing is
pending. -/
def Closed (g : SequenceGrammar) (s : SequenceState ν) : Prop :=
  s.exhausted = true → s.expected g = [] ∧ s.pending = false

/-- At the start nothing is exhausted. -/
theorem Closed.initial (g : SequenceGrammar) : Closed g (initial g : SequenceState ν) := by
  intro h
  cases h

/-- **Where nothing is expected no token leads anywhere.** -/
theorem reach_current_eq_nil (h : s.expected g = []) (terminal : String) (value : ν)
    (length : Int) : reach g terminal value length s.current = [] := by
  have hstep : ∀ length : Int, s.current.filterMap (follow g terminal value length) = [] := by
    intro length
    refine List.filterMap_eq_nil_iff.mpr fun item hitem => Option.map_eq_none_iff.mpr ?_
    cases htarget : g.target? item.state terminal with
    | none => rfl
    | some state =>
      have hmem := mem_expected hitem htarget
      rw [h] at hmem
      cases hmem
  unfold reach
  split
  · -- a token of no length is tried again where it led to, which is nowhere
    have hnowhere : ∀ times, stay g terminal value times ([] : List (SequenceItem ν)) = [] := by
      intro times
      induction times with
      | zero => rfl
      | succ times ih => exact ih
    cases g.transitions.length with
    | zero => rfl
    | succ times =>
      rw [stay, hstep 0]
      exact hnowhere times
  · exact hstep length

/-- **Nothing that is offered to an exhausted recognizer opens it again.** -/
theorem Closed.offer (h : s.Closed g) (terminal : String) (value : ν) (length : Int) :
    (s.offer g terminal value length).Closed g := by
  intro hexhausted
  obtain ⟨hexpected, hpending⟩ := h hexhausted
  have hitems : (s.offer g terminal value length).items = s.items := by
    show s.items ++ reach g terminal value length s.current = s.items
    rw [reach_current_eq_nil hexpected, List.append_nil]
  -- what is expected and what is pending is read off the items and the position
  unfold expected pending current itemsAt at *
  rw [hitems]
  exact ⟨hexpected, hpending⟩

/-- Where nothing is pending, there is nothing at the next position, and nothing pending there. -/
theorem moved_of_not_pending (h : s.pending = false) :
    s.moved.expected g = [] ∧ s.moved.pending = false := by
  rw [pending_eq_false_iff] at h
  refine ⟨expected_of_current_eq_nil (List.filter_eq_nil_iff.mpr fun item hitem => ?_),
    pending_eq_false_iff.mpr fun item hitem => ?_⟩
  · have hle := h item hitem
    rw [position_moved, decide_eq_true_eq, Int.natCast_succ]
    omega
  · have hle := h item hitem
    rw [position_moved, Int.natCast_succ]
    omega

/-- **A closed recognizer is exhausted behind a position exactly if it says so there.** Having been
exhausted before makes no difference. -/
theorem Closed.exhausted_complete (h : s.Closed g) :
    (s.complete g).2.exhausted = isFinal (s.complete g).1 := by
  show (s.exhausted || isFinal (s.moved.verdict g)) = isFinal (s.moved.verdict g)
  cases hexhausted : s.exhausted with
  | false => rfl
  | true =>
    rw [isFinal_verdict_iff.mpr (moved_of_not_pending (h hexhausted).2)]
    rfl

/-- **Completing a position keeps a recognizer closed.** -/
theorem Closed.complete (h : s.Closed g) : (s.complete g).2.Closed g := by
  intro hexhausted
  rw [h.exhausted_complete] at hexhausted
  exact isFinal_verdict_iff.mp hexhausted

end SequenceState

end AmbiLex
