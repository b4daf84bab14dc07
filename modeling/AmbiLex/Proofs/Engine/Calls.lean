import Mathlib.Data.List.DropRight
import AmbiLex.Engine
import AmbiLex.Proofs.Faults
import AmbiLex.Proofs.Run.Akin

/-!
# The calls on an engine

A lexer sees an engine through its adapter only, and the adapter says less than it knows: an answer
does not tell which calls were made for it, and a failed parse looks like an answer although the
engine has raised a fault. So an engine is made to keep a record of the calls that reach it
(`Engine.watched`), whatever engine it is. A lexer cannot tell the difference
(`Engine.watched_akin`).

Completing a position comes to one of seven things, each with calls of its own, and `Completion`
lists them. Nothing else about the adapter has to be known (`Engine.completePosition_watched`).

The calls also tell the rounds of a run. A round begins where the engine was asked and expected
something; until the next one it is asked only where it expects nothing. And they tell the faults
that the engine has raised, in two lists: those that mean that the parse failed, because they came
up while a position was completed and fall under certain classes, and all others.
-/

namespace AmbiLex

/-! ## Calls -/

/-- **A call of an operation of an engine**, and what came of it. There is one kind of call for each
operation, so no call goes unnoticed. -/
inductive EngineCall (ν : Type) where
  /-- It was asked for the terminals it expects. -/
  | asked (answer : Except Fault (List String))
  /-- It was offered a token of a terminal, with a value and a length. -/
  | offered (terminal : String) (value : ν) (length : Int) (answer : Except Fault Unit)
  /-- It was made to complete a position. -/
  | completed (answer : Except Fault Unit)
  /-- It was asked whether no more tokens can be accepted. -/
  | exhausted (answer : Except Fault Bool)

namespace EngineCall

variable {ν : Type}

/-- Whether a position was completed, or was to be. -/
def completes : EngineCall ν → Bool
  | completed _ => true
  | _ => false

/-- Whether something was found to be expected, so that a round begins behind the call. -/
def opens : EngineCall ν → Bool
  | asked (.ok terminals) => !terminals.isEmpty
  | _ => false

/-- The number of positions that were completed. -/
def completions (calls : List (EngineCall ν)) : Nat :=
  calls.countP completes

/-- **The calls before the last round**, up to the last one behind which a round begins. -/
def beforeLastRound (calls : List (EngineCall ν)) : List (EngineCall ν) :=
  calls.rdropWhile fun call => !call.opens

@[simp] theorem completions_append (calls more : List (EngineCall ν)) :
    completions (calls ++ more) = completions calls + completions more :=
  List.countP_append

/-- **A round goes on** with calls behind which none begins. -/
theorem beforeLastRound_append (calls : List (EngineCall ν)) {more : List (EngineCall ν)}
    (h : ∀ call ∈ more, call.opens = false) :
    beforeLastRound (calls ++ more) = beforeLastRound calls := by
  induction more using List.reverseRecOn with
  | nil => rw [List.append_nil]
  | append_singleton more call ih =>
    have hcall := h call (List.mem_append_right _ (List.mem_singleton_self call))
    rw [← List.append_assoc, beforeLastRound, List.rdropWhile_concat_pos _ _ _ (by simp [hcall])]
    exact ih fun call' hmem => h call' (List.mem_append_left _ hmem)

/-- **A round begins** behind a call that finds something expected. -/
theorem beforeLastRound_of_opens (calls : List (EngineCall ν)) {call : EngineCall ν}
    (h : call.opens = true) : beforeLastRound (calls ++ [call]) = calls ++ [call] :=
  List.rdropWhile_concat_neg _ _ _ (by simp [h])

/-! ## What calls raise -/

/-- The fault of a call that means that the parse failed: it was raised while a position was
completed, and falls under certain classes. -/
def caught? (failures : List FaultClass) : EngineCall ν → Option Fault
  | completed answer => (Fault.ofAnswer? answer).filter fun fault => fault.FallsUnder failures
  | _ => none

/-- The fault of a call that means that something is broken, which is any other. -/
def escaped? (failures : List FaultClass) : EngineCall ν → Option Fault
  | asked answer => Fault.ofAnswer? answer
  | offered _ _ _ answer => Fault.ofAnswer? answer
  | completed answer => (Fault.ofAnswer? answer).filter fun fault => ¬ fault.FallsUnder failures
  | exhausted answer => Fault.ofAnswer? answer

/-- **The faults that mean that the parse failed.** -/
def caught (failures : List FaultClass) (calls : List (EngineCall ν)) : List Fault :=
  calls.filterMap (caught? failures)

/-- **The faults that mean that something is broken.** -/
def escaped (failures : List FaultClass) (calls : List (EngineCall ν)) : List Fault :=
  calls.filterMap (escaped? failures)

variable {failures : List FaultClass}

@[simp] theorem caught_append (calls more : List (EngineCall ν)) :
    caught failures (calls ++ more) = caught failures calls ++ caught failures more :=
  List.filterMap_append

@[simp] theorem escaped_append (calls more : List (EngineCall ν)) :
    escaped failures (calls ++ more) = escaped failures calls ++ escaped failures more :=
  List.filterMap_append

/-- **A fault that falls under the classes** means that the parse failed, if it was raised while a
position was completed. -/
theorem raised_of_fallsUnder {fault : Fault} (h : fault.FallsUnder failures) :
    caught failures [(completed (.error fault) : EngineCall ν)] = [fault]
      ∧ escaped failures [(completed (.error fault) : EngineCall ν)] = [] := by
  have hcaught : caught? failures (completed (.error fault) : EngineCall ν) = some fault := by
    simp [caught?, Fault.ofAnswer?, h]
  have hescaped : escaped? failures (completed (.error fault) : EngineCall ν) = none := by
    simp [escaped?, Fault.ofAnswer?, h]
  exact ⟨List.filterMap_cons_some hcaught, List.filterMap_cons_none hescaped⟩

/-- **One that does not** means that something is broken. -/
theorem raised_of_not_fallsUnder {fault : Fault} (h : ¬ fault.FallsUnder failures) :
    caught failures [(completed (.error fault) : EngineCall ν)] = []
      ∧ escaped failures [(completed (.error fault) : EngineCall ν)] = [fault] := by
  have hcaught : caught? failures (completed (.error fault) : EngineCall ν) = none := by
    simp [caught?, Fault.ofAnswer?, h]
  have hescaped : escaped? failures (completed (.error fault) : EngineCall ν) = some fault := by
    simp [escaped?, Fault.ofAnswer?, h]
  exact ⟨List.filterMap_cons_none hcaught, List.filterMap_cons_some hescaped⟩

/-- **Calls that have raised nothing.** -/
structure Quiet (failures : List FaultClass) (calls : List (EngineCall ν)) : Prop where
  /-- No fault means that the parse failed. -/
  caught_eq : caught failures calls = []
  /-- No fault means that something is broken. -/
  escaped_eq : escaped failures calls = []

/-- Calls that raise nothing, and then more of them. -/
theorem Quiet.append {calls more : List (EngineCall ν)} (h : Quiet failures calls)
    (h' : Quiet failures more) : Quiet failures (calls ++ more) := by
  refine ⟨?_, ?_⟩
  · rw [caught_append, h.caught_eq, h'.caught_eq, List.append_nil]
  · rw [escaped_append, h.escaped_eq, h'.escaped_eq, List.append_nil]

end EngineCall

/-! ## Keeping a record -/

/-- **The state of an engine with the calls that have reached it.** -/
structure Watched (ν ρ : Type) where
  /-- The state of the engine. -/
  state : ρ
  /-- The calls so far. -/
  calls : List (EngineCall ν)

namespace Watched

variable {ν ρ α : Type}

/-- An engine that was not called yet. -/
def fresh (state : ρ) : Watched ν ρ :=
  ⟨state, []⟩

/-- Make a call and note what came of it. -/
def note (call : Except Fault α → EngineCall ν) (work : EStateM Fault ρ α) :
    EStateM Fault (Watched ν ρ) α := fun w =>
  match work w.state with
  | .ok a state => .ok a ⟨state, w.calls ++ [call (.ok a)]⟩
  | .error fault state => .error fault ⟨state, w.calls ++ [call (.error fault)]⟩

/-- **Each call is noted once.** -/
theorem note_meets (call : Except Fault α → EngineCall ν) (work : EStateM Fault ρ α)
    (w : Watched ν ρ) :
    (note call work w).Meets (fun a w' => w'.calls = w.calls ++ [call (.ok a)])
      (fun fault w' => w'.calls = w.calls ++ [call (.error fault)]) := by
  unfold note
  cases work w.state <;> rfl

/-- **A call that is noted comes to the same** as it would otherwise. -/
theorem note_agrees (call : Except Fault α → EngineCall ν) (work : EStateM Fault ρ α)
    (w : Watched ν ρ) :
    (note call work w).Agrees (fun _ w' state => w'.state = state)
      (fun w' state => w'.state = state) (work w.state) := by
  unfold note
  cases work w.state <;> exact ⟨rfl, rfl⟩

end Watched

namespace Engine

variable {ν ρ : Type}

/-- **An engine that keeps a record of its calls.** -/
def watched (engine : Engine ν ρ) : Engine ν (Watched ν ρ) where
  terminalsExpected := Watched.note .asked engine.terminalsExpected
  alternative := fun terminal value length =>
    Watched.note (.offered terminal value length) (engine.alternative terminal value length)
  complete := Watched.note .completed engine.complete
  exhausted := Watched.note .exhausted engine.exhausted

/-- What an engine says at a position does not depend on whether its calls are noted. -/
theorem verdict_watched (engine : Engine ν ρ) (w : Watched ν ρ) :
    (engine.watched.verdict w).Agrees (fun _ w' state => w'.state = state)
      (fun w' state => w'.state = state) (engine.verdict w.state) := by
  refine EStateM.agrees_bind (Watched.note_agrees .exhausted engine.exhausted w) ?_
  rintro exhausted w' _ rfl
  cases exhausted with
  | true => exact ⟨rfl, rfl⟩
  | false =>
    refine EStateM.agrees_bind (Watched.note_agrees .asked engine.terminalsExpected w') ?_
    rintro expected w'' _ rfl
    split
    · exact ⟨rfl, rfl⟩
    · exact ⟨rfl, rfl⟩

/-- **An engine that keeps a record cannot be told apart from itself without.** -/
theorem watched_akin (engine : Engine ν ρ) (failures : List FaultClass) :
    Recognizer.Akin (fun (w : Watched ν ρ) state => w.state = state)
      (engine.watched.recognizer failures) (engine.recognizer failures) := by
  refine ⟨?_, ?_, ?_, ?_⟩
  · rintro w _ rfl
    exact Watched.note_agrees .asked engine.terminalsExpected w
  · rintro terminal value length w _ rfl
    exact Watched.note_agrees (.offered terminal value length)
      (engine.alternative terminal value length) w
  · rintro w _ rfl
    show (engine.watched.completePosition failures w).Agrees _ _
      (engine.completePosition failures w.state)
    unfold completePosition
    obtain ⟨u, w', _, hw, hs, rfl⟩ | ⟨fault, w', _, hw, hs, rfl⟩ :=
      EStateM.Result.agrees_iff.mp (Watched.note_agrees .completed engine.complete w)
    · rw [show engine.watched.complete w = .ok u w' from hw, hs]
      exact verdict_watched engine w'
    · rw [show engine.watched.complete w = .error fault w' from hw, hs]
      dsimp only
      split
      · exact ⟨rfl, rfl⟩
      · exact ⟨rfl, rfl⟩
  · rintro w _ rfl
    exact Watched.note_agrees .exhausted engine.exhausted w

/-! ## Completing a position -/

/-- **What completing a position can come to**, with the calls that are made for it. -/
inductive Completion (failures : List FaultClass) :
    Except Fault Advance → List (EngineCall ν) → Prop
  /-- The engine has raised a fault of a class that means that the parse failed. -/
  | caught {fault : Fault} (covered : fault.FallsUnder failures) :
    Completion failures (.ok (.failure (some fault.message))) [.completed (.error fault)]
  /-- The engine has raised another fault. -/
  | uncaught {fault : Fault} (covered : ¬ fault.FallsUnder failures) :
    Completion failures (.error fault) [.completed (.error fault)]
  /-- The engine has raised a fault when it was asked whether it is exhausted. -/
  | undecided {fault : Fault} :
    Completion failures (.error fault) [.completed (.ok ()), .exhausted (.error fault)]
  /-- The engine is exhausted, and is not asked what it expects. -/
  | exhausted : Completion failures (.ok .exhausted) [.completed (.ok ()), .exhausted (.ok true)]
  /-- The engine is not exhausted, but expects nothing at the position it has moved to. -/
  | more : Completion failures (.ok .moreNeeded)
    [.completed (.ok ()), .exhausted (.ok false), .asked (.ok [])]
  /-- The engine expects something there. -/
  | next {terminals : List String} (nonempty : terminals ≠ []) :
    Completion failures (.ok (.nextExpected terminals))
      [.completed (.ok ()), .exhausted (.ok false), .asked (.ok terminals)]
  /-- The engine has raised a fault when it was asked what it expects. -/
  | unasked {fault : Fault} : Completion failures (.error fault)
    [.completed (.ok ()), .exhausted (.ok false), .asked (.error fault)]

/-- **A position that was completed has raised nothing**, unless the answer is that the parse
failed. -/
theorem Completion.quiet {failures : List FaultClass} {advance : Advance}
    {made : List (EngineCall ν)} (h : Completion failures (.ok advance) made)
    (hkind : advance.kind ≠ .failure) : EngineCall.Quiet failures made := by
  cases h with
  | caught covered => exact absurd rfl hkind
  | exhausted => exact ⟨rfl, rfl⟩
  | more => exact ⟨rfl, rfl⟩
  | next nonempty => exact ⟨rfl, rfl⟩

/-- **A position that could not be completed** has raised the fault, which means that something is
broken. -/
theorem Completion.escapes {failures : List FaultClass} {fault : Fault}
    {made : List (EngineCall ν)} (h : Completion failures (.error fault) made) :
    EngineCall.caught failures made = [] ∧ EngineCall.escaped failures made = [fault] := by
  cases h with
  | uncaught covered => exact EngineCall.raised_of_not_fallsUnder covered
  | undecided => exact ⟨rfl, rfl⟩
  | unasked => exact ⟨rfl, rfl⟩

/-- **What an engine says behind a position that it has completed** ends one of these things. -/
theorem verdict_completion (engine : Engine ν ρ) (failures : List FaultClass) (w : Watched ν ρ) :
    (engine.watched.verdict w).Meets
      (fun advance w' => ∃ asked,
        Completion failures (.ok advance) (.completed (.ok ()) :: asked)
          ∧ w'.calls = w.calls ++ asked)
      (fun fault w' => ∃ asked,
        Completion (ν := ν) failures (.error fault) (.completed (.ok ()) :: asked)
          ∧ w'.calls = w.calls ++ asked) := by
  have hdecide := Watched.note_meets .exhausted engine.exhausted w
  refine EStateM.meets_bind (hdecide.mono (fun _ _ h => h) fun _ _ h => ⟨_, .undecided, h⟩)
    fun exhausted w₁ h₁ => ?_
  cases exhausted with
  | true => exact ⟨_, .exhausted, h₁⟩
  | false =>
    have hlonger : ∀ call, w₁.calls ++ [call] = w.calls ++ [.exhausted (.ok false), call] := by
      intro call
      rw [h₁, List.append_assoc]
      rfl
    have hask := Watched.note_meets .asked engine.terminalsExpected w₁
    refine EStateM.meets_bind (hask.mono (fun _ _ h => h) fun fault w₂ h₂ => ?_)
      fun expected w₂ h₂ => ?_
    · exact ⟨_, .unasked, h₂.trans (hlonger _)⟩
    · split
      · rename_i hempty
        rw [List.isEmpty_iff.mp hempty] at h₂
        exact ⟨_, .more, h₂.trans (hlonger _)⟩
      · rename_i hnonempty
        exact ⟨_, .next fun hnil => hnonempty (List.isEmpty_iff.mpr hnil), h₂.trans (hlonger _)⟩

/-- **The adapter does one of these things**, whatever the engine does. -/
theorem completePosition_watched (engine : Engine ν ρ) (failures : List FaultClass)
    (w : Watched ν ρ) :
    ((engine.watched.recognizer failures).completePosition w).Meets
      (fun advance w' => ∃ made, Completion failures (.ok advance) made
        ∧ w'.calls = w.calls ++ made)
      (fun fault w' => ∃ made, Completion (ν := ν) failures (.error fault) made
        ∧ w'.calls = w.calls ++ made) := by
  show (engine.watched.completePosition failures w).Meets _ _
  have hcomplete := Watched.note_meets .completed engine.complete w
  unfold completePosition
  cases hw : engine.watched.complete w with
  | error fault w' =>
    have hcalls := hcomplete.of_error hw
    dsimp only
    cases hcovered : fault.underAny failures with
    | true => exact ⟨_, .caught (Fault.underAny_iff.mp hcovered), hcalls⟩
    | false =>
      refine ⟨_, .uncaught fun hfalls => ?_, hcalls⟩
      rw [Fault.underAny_iff.mpr hfalls] at hcovered
      cases hcovered
  | ok u w' =>
    have hcalls := hcomplete.of_ok hw
    have hlonger : ∀ asked, w'.calls ++ asked = w.calls ++ (.completed (.ok ()) :: asked) := by
      intro asked
      rw [hcalls, List.append_assoc]
      rfl
    refine (engine.verdict_completion failures w').mono ?_ ?_
    · rintro advance w'' ⟨asked, hcompletion, hasked⟩
      exact ⟨_, hcompletion, hasked.trans (hlonger asked)⟩
    · rintro fault w'' ⟨asked, hcompletion, hasked⟩
      exact ⟨_, hcompletion, hasked.trans (hlonger asked)⟩

end Engine

end AmbiLex
