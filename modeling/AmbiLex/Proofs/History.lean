import AmbiLex.Proofs.Work
import AmbiLex.Recognizer.Sequence

/-!
# The history of a run

What a lexer does to a recognizer is a sequence of exchanges: it asks what is expected, offers
tokens and completes positions, and each time something comes of it. A recognizer can be made to
keep this history beside its own state (`Recognizer.recorded`), whatever recognizer it is, so that a
run over it can be told afterwards. There is one kind of exchange for each operation of a
recognizer, so the history of a run also says what was not asked in it.

A recognizer that answers that more positions have to be completed promises that a token offered
earlier ends further ahead. A history that bears this out is *grounded*. The promise is all that
keeps the recognizer's positions and the lexer's characters together, since a lexer consumes
what the recognizer has completed without looking whether it is there.
-/

namespace AmbiLex

/-- **One exchange with a recognizer**: what it was asked or given, and what came of it. -/
inductive Exchange (ν : Type) where
  /-- It was asked for the terminals it expects. -/
  | asked (answer : Except Fault (List String))
  /-- It was offered a token of a terminal, with a value and a length. -/
  | offered (terminal : String) (value : ν) (length : Int) (answer : Except Fault Unit)
  /-- It was made to complete a position. -/
  | completed (answer : Except Fault Advance)
  /-- It was asked whether no more tokens can be accepted. -/
  | exhausted (answer : Except Fault Bool)

/-- The exchanges with a recognizer, from the first to the last. -/
abbrev History (ν : Type) := List (Exchange ν)

namespace Exchange

variable {ν : Type}

/-- Whether a position was completed. -/
def completes : Exchange ν → Bool
  | completed _ => true
  | _ => false

/-- Whether a token was offered that ends behind a position, if it was offered at another. -/
def EndsBeyond (start position : Nat) : Exchange ν → Prop
  | offered _ _ length _ => (position : Int) < start + length
  | _ => False

end Exchange

namespace History

variable {ν : Type}

/-- **The number of positions completed**, which is the position of the recognizer. -/
def completions (history : History ν) : Nat :=
  history.countP Exchange.completes

/-- **Some token was offered that ends behind a position.** -/
def ReachesBeyond (history : History ν) (position : Nat) : Prop :=
  ∃ (before : History ν) (exchange : Exchange ν) (after : History ν),
    history = before ++ exchange :: after ∧ exchange.EndsBeyond before.completions position

/-- **A grounded history**: whenever the recognizer answered that the next position has to be
completed too, some token offered before ends strictly behind the position it had reached. -/
def Grounded (history : History ν) : Prop :=
  ∀ (before : History ν) (advance : Advance) (after : History ν),
    history = before ++ .completed (.ok advance) :: after → advance.kind = .moreNeeded →
      before.ReachesBeyond (before.completions + 1)

@[simp] theorem completions_append (history more : History ν) :
    completions (history ++ more) = history.completions + more.completions :=
  List.countP_append

@[simp] theorem completions_singleton (exchange : Exchange ν) :
    completions [exchange] = if exchange.completes then 1 else 0 := by
  rw [completions, List.countP_singleton]

/-- A split of a history that has become longer by one exchange: at the new exchange, or before. -/
theorem snoc_eq_append_cons {history before after : History ν} {last exchange : Exchange ν}
    (h : history ++ [last] = before ++ exchange :: after) :
    (before = history ∧ exchange = last)
      ∨ ∃ after', history = before ++ exchange :: after' := by
  rcases List.eq_nil_or_concat after with rfl | ⟨after', x, rfl⟩
  · obtain ⟨h₁, h₂⟩ := List.append_inj' h rfl
    cases h₂
    exact .inl ⟨h₁.symm, rfl⟩
  · rw [List.concat_eq_append, ← List.cons_append, ← List.append_assoc] at h
    exact .inr ⟨after', (List.append_inj' h rfl).1⟩

/-- **What reaches beyond a position was offered last, or before.** -/
theorem reachesBeyond_snoc {history : History ν} {last : Exchange ν} {position : Nat} :
    ReachesBeyond (history ++ [last]) position
      ↔ history.ReachesBeyond position ∨ last.EndsBeyond history.completions position := by
  constructor
  · rintro ⟨before, exchange, after, hsplit, hends⟩
    rcases snoc_eq_append_cons hsplit with ⟨rfl, rfl⟩ | ⟨after', h⟩
    · exact .inr hends
    · exact .inl ⟨before, exchange, after', h, hends⟩
  · rintro (⟨before, exchange, after, hsplit, hends⟩ | hends)
    · refine ⟨before, exchange, after ++ [last], ?_, hends⟩
      rw [hsplit, List.append_assoc, List.cons_append]
    · exact ⟨history, last, [], rfl, hends⟩

theorem not_reachesBeyond_nil (position : Nat) : ¬ ReachesBeyond ([] : History ν) position := by
  rintro ⟨before, exchange, after, hsplit, -⟩
  cases before <;> cases hsplit

/-- What does not reach beyond a position does not reach beyond a later one. -/
theorem ReachesBeyond.mono {history : History ν} {position earlier : Nat}
    (h : history.ReachesBeyond position) (hle : earlier ≤ position) :
    history.ReachesBeyond earlier := by
  obtain ⟨before, exchange, after, hsplit, hends⟩ := h
  refine ⟨before, exchange, after, hsplit, ?_⟩
  cases exchange with
  | asked answer | completed answer | exhausted answer => exact hends
  | offered terminal value length answer =>
    change (position : Int) < before.completions + length at hends
    show (earlier : Int) < before.completions + length
    omega

theorem grounded_nil : Grounded ([] : History ν) := by
  intro before advance after hsplit
  cases before <;> cases hsplit

/-- **A grounded history stays grounded** if the next exchange keeps the promise. -/
theorem Grounded.snoc {history : History ν} {last : Exchange ν} (h : history.Grounded)
    (hlast : ∀ advance, last = .completed (.ok advance) → advance.kind = .moreNeeded →
      history.ReachesBeyond (history.completions + 1)) :
    Grounded (history ++ [last]) := by
  intro before advance after hsplit hkind
  rcases snoc_eq_append_cons hsplit with ⟨rfl, hcompleted⟩ | ⟨after', h'⟩
  · exact hlast advance hcompleted.symm hkind
  · exact h before advance after' h' hkind

/-- What a grounded history says about its last exchange. -/
theorem Grounded.last {history : History ν} {advance : Advance}
    (h : Grounded (history ++ [.completed (.ok advance)])) (hkind : advance.kind = .moreNeeded) :
    history.ReachesBeyond (history.completions + 1) :=
  h history advance [] rfl hkind

end History

/-! ## Keeping the history -/

/-- **The state of a recognizer with the history of what was done to it.** -/
structure Recorded (ν ρ : Type) where
  /-- The state of the recognizer. -/
  state : ρ
  /-- The exchanges so far. -/
  history : History ν

namespace Recorded

variable {ν ρ α : Type}

/-- A recognizer with which nothing was exchanged yet. -/
def fresh (state : ρ) : Recorded ν ρ :=
  ⟨state, []⟩

/-- Do work on the state and note what came of it. -/
def note (exchange : Except Fault α → Exchange ν) (work : EStateM Fault ρ α) :
    EStateM Fault (Recorded ν ρ) α := fun r =>
  match work r.state with
  | .ok a state => .ok a ⟨state, r.history ++ [exchange (.ok a)]⟩
  | .error fault state => .error fault ⟨state, r.history ++ [exchange (.error fault)]⟩

/-- **Work that is noted adds one exchange to the history.** -/
theorem note_meets (exchange : Except Fault α → Exchange ν) (work : EStateM Fault ρ α)
    (r : Recorded ν ρ) :
    (note exchange work r).Meets
      (fun a r' => r'.history = r.history ++ [exchange (.ok a)]
        ∧ work r.state = .ok a r'.state)
      (fun fault r' => r'.history = r.history ++ [exchange (.error fault)]
        ∧ work r.state = .error fault r'.state) := by
  unfold note
  cases work r.state with
  | ok a state => exact ⟨rfl, rfl⟩
  | error fault state => exact ⟨rfl, rfl⟩

/-- **Work that is noted comes to the same** as it would otherwise. -/
theorem note_agrees (exchange : Except Fault α → Exchange ν) (work : EStateM Fault ρ α)
    (r : Recorded ν ρ) :
    (note exchange work r).Agrees (fun _ r' state => r'.state = state)
      (fun r' state => r'.state = state) (work r.state) := by
  unfold note
  cases work r.state with
  | ok a state => exact ⟨rfl, rfl⟩
  | error fault state => exact ⟨rfl, rfl⟩

end Recorded

/-- **A recognizer that keeps its history.** -/
def Recognizer.recorded {ν ρ : Type} (recognizer : Recognizer ν ρ) :
    Recognizer ν (Recorded ν ρ) where
  terminalsExpected := Recorded.note .asked recognizer.terminalsExpected
  alternative := fun terminal value length =>
    Recorded.note (.offered terminal value length) (recognizer.alternative terminal value length)
  completePosition := Recorded.note .completed recognizer.completePosition
  exhausted := Recorded.note .exhausted recognizer.exhausted

namespace Recorded

variable {ν ρ : Type} {recognizer : Recognizer ν ρ} {r r' : Recorded ν ρ}

/-- What is noted when a recognizer was asked. -/
theorem history_of_expect {expected : List String}
    (h : recognizer.recorded.terminalsExpected r = .ok expected r') :
    r'.history = r.history ++ [.asked (.ok expected)] :=
  ((note_meets .asked recognizer.terminalsExpected r).of_ok h).1

/-- What is noted when a token was offered. -/
theorem history_of_take {name : String} {value : ν} {length : Int}
    (h : recognizer.recorded.alternative name value length r = .ok () r') :
    r'.history = r.history ++ [.offered name value length (.ok ())] :=
  ((note_meets (.offered name value length) (recognizer.alternative name value length) r).of_ok h).1

/-- What is noted when a position was completed. -/
theorem history_of_complete {advance : Advance}
    (h : recognizer.recorded.completePosition r = .ok advance r') :
    r'.history = r.history ++ [.completed (.ok advance)] :=
  ((note_meets .completed recognizer.completePosition r).of_ok h).1

/-- What is noted when asking a recognizer failed. -/
theorem history_of_expect_error {fault : Fault}
    (h : recognizer.recorded.terminalsExpected r = .error fault r') :
    r'.history = r.history ++ [.asked (.error fault)] :=
  ((note_meets .asked recognizer.terminalsExpected r).of_error h).1

/-- What is noted when offering a token failed. -/
theorem history_of_take_error {name : String} {value : ν} {length : Int} {fault : Fault}
    (h : recognizer.recorded.alternative name value length r = .error fault r') :
    r'.history = r.history ++ [.offered name value length (.error fault)] :=
  ((note_meets (.offered name value length)
    (recognizer.alternative name value length) r).of_error h).1

/-- What is noted when completing a position failed. -/
theorem history_of_complete_error {fault : Fault}
    (h : recognizer.recorded.completePosition r = .error fault r') :
    r'.history = r.history ++ [.completed (.error fault)] :=
  ((note_meets .completed recognizer.completePosition r).of_error h).1

end Recorded

end AmbiLex
