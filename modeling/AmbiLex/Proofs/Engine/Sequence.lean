import AmbiLex.Engine.Sequence
import AmbiLex.Proofs.Run.Akin
import AmbiLex.Proofs.Sequence.Verdict

/-!
# A recognizer of sequences survives being an engine

An engine answers nothing when a position is completed. Its adapter makes up the answer afterwards,
from whether the engine is exhausted and from what it expects. The engine of a grammar of sequences
leaves its work to the recognizer of the grammar, so there is an answer to compare with: what the
recognizer said before it was asked to keep quiet.

The two agree because of what it means for a recognizer of sequences to be exhausted. Once it says
so it never takes that back, and the adapter believes it at once, so it must not say so while a
terminal is expected or an item is pending: neither when it finds that out, nor any time later,
whatever it is offered then. This is `SequenceState.Closed`.

With that the engine and the recognizer cannot be told apart (`SequenceGrammar.engine_akin`),
neither by a sequence of requests nor by a lexer.
-/

namespace AmbiLex

/-! ## Requests and replies -/

/-- **A request to a recognizer.** -/
inductive Request (ν : Type) where
  /-- Which terminals are expected? -/
  | expect
  /-- Take this token. -/
  | offer (terminal : String) (value : ν) (length : Int)
  /-- Complete the position. -/
  | complete
  /-- Can no more tokens be accepted? -/
  | exhausted

/-- **A reply to a request.** -/
inductive Reply where
  /-- These terminals are expected. -/
  | expected (terminals : List String)
  /-- The token was taken. -/
  | taken
  /-- The position was completed. -/
  | advanced (advance : Advance)
  /-- Whether no more tokens can be accepted. -/
  | exhausted (answer : Bool)

namespace Recognizer

variable {ν ρ σ : Type}

/-- **Deal with a request.** -/
def reply (recognizer : Recognizer ν ρ) : Request ν → EStateM Fault ρ Reply
  | .expect => do return .expected (← recognizer.terminalsExpected)
  | .offer terminal value length => do
    recognizer.alternative terminal value length
    return .taken
  | .complete => do return .advanced (← recognizer.completePosition)
  | .exhausted => do return .exhausted (← recognizer.exhausted)

/-- **Deal with one request after the other**, also after one that failed: the replies and faults,
and the state in the end. -/
def replies (recognizer : Recognizer ν ρ) : List (Request ν) → ρ → List (Except Fault Reply) × ρ
  | [], s => ([], s)
  | request :: requests, s =>
    let result := recognizer.reply request s
    let later := recognizer.replies requests result.left
    (result.answer :: later.1, later.2)

variable {states : ρ → σ → Prop} {recognizer : Recognizer ν ρ} {rival : Recognizer ν σ}

/-- Recognizers that cannot be told apart reply alike. -/
theorem Akin.reply (h : Akin states recognizer rival)
    (request : Request ν) {s : ρ} {t : σ} (hst : states s t) :
    (recognizer.reply request s).Agrees (fun _ => states) states (rival.reply request t) := by
  cases request with
  | expect => exact EStateM.agrees_bind (h.expect s t hst) fun _ _ _ h' => ⟨rfl, h'⟩
  | offer terminal value length =>
    exact EStateM.agrees_bind (h.take terminal value length s t hst) fun _ _ _ h' => ⟨rfl, h'⟩
  | complete => exact EStateM.agrees_bind (h.complete s t hst) fun _ _ _ h' => ⟨rfl, h'⟩
  | exhausted => exact EStateM.agrees_bind (h.exhaust s t hst) fun _ _ _ h' => ⟨rfl, h'⟩

/-- **Recognizers that cannot be told apart reply alike to any sequence of requests**, and are left
in related states. -/
theorem Akin.replies (h : Akin states recognizer rival)
    (requests : List (Request ν)) {s : ρ} {t : σ} (hst : states s t) :
    (recognizer.replies requests s).1 = (rival.replies requests t).1
      ∧ states (recognizer.replies requests s).2 (rival.replies requests t).2 := by
  induction requests generalizing s t with
  | nil => exact ⟨rfl, hst⟩
  | cons request requests ih =>
    have hreply := h.reply request hst
    obtain ⟨hlater, hstates⟩ := ih (hreply.left fun _ _ _ h' => h')
    refine ⟨?_, hstates⟩
    show (recognizer.reply request s).answer :: _ = (rival.reply request t).answer :: _
    rw [hreply.answer_eq, hlater]

end Recognizer

/-! ## The engine and the recognizer -/

namespace SequenceGrammar

variable {ν : Type} {failures : List FaultClass}

/-- Completing a position of the engine, which keeps the answer to itself unless it is a failure. -/
theorem engine_complete (g : SequenceGrammar) (s : SequenceState ν) :
    (g.engine ν).complete s = match Engine.ofAdvance (s.complete g).1 with
      | .ok u => .ok u (s.complete g).2
      | .error fault => .error fault (s.complete g).2 := by
  have hask : (g.recognizer ν).completePosition s = .ok (s.complete g).1 (s.complete g).2 := rfl
  show (do MonadExcept.ofExcept (Engine.ofAdvance (← (g.recognizer ν).completePosition)) :
    EStateM Fault (SequenceState ν) Unit) s = _
  rw [EStateM.bind_apply_of_ok hask]
  cases Engine.ofAdvance (s.complete g).1 <;> rfl

/-- **The adapter makes up the answer that the engine kept to itself**: a failure comes back as the
fault with its detail, and the other answers are read off the recognizer. -/
theorem completePosition_engine (hfailures : failures.any FaultClass.engine.under = true)
    {g : SequenceGrammar} {s : SequenceState ν} (h : s.Closed g) :
    (g.engine ν).completePosition failures s = (g.recognizer ν).completePosition s := by
  have hexhausted := h.exhausted_complete
  have hsaid : (s.complete g).2.Says g (s.complete g).1 :=
    SequenceState.said_verdict g (s.complete g).2
  show _ = EStateM.Result.ok (s.complete g).1 (s.complete g).2
  unfold Engine.completePosition
  rw [engine_complete]
  generalize (s.complete g).1 = advance at hexhausted hsaid ⊢
  generalize (s.complete g).2 = next at hexhausted hsaid ⊢
  have hverdict : ∀ answer, (if next.exhausted then Advance.exhausted else
      if (next.expected g).isEmpty then .moreNeeded else .nextExpected (next.expected g)) = answer →
      (g.engine ν).verdict next = .ok answer next := by
    rintro answer rfl
    show (if next.exhausted then pure Advance.exhausted else _ :
      EStateM Fault (SequenceState ν) Advance) next = _
    cases next.exhausted with
    | true => rfl
    | false =>
      show (if (next.expected g).isEmpty then pure Advance.moreNeeded else
        pure (.nextExpected (next.expected g)) : EStateM Fault (SequenceState ν) Advance) next = _
      cases (next.expected g).isEmpty <;> rfl
  cases hsaid with
  | more expected pending =>
    refine hverdict _ ?_
    rw [hexhausted, expected]
    rfl
  | next expected =>
    refine hverdict _ ?_
    rw [hexhausted, List.isEmpty_eq_false_iff.mpr expected]
    rfl
  | exhausted current expected pending =>
    refine hverdict _ ?_
    rw [hexhausted]
    rfl
  | failure current pending =>
    show (if failures.any FaultClass.engine.under then _ else _) = _
    rw [hfailures]
    rfl

/-- **The engine of a grammar cannot be told apart from its recognizer**, as long as that has
nothing to wait for when it is exhausted. -/
theorem engine_akin (hfailures : failures.any FaultClass.engine.under = true)
    (g : SequenceGrammar) :
    Recognizer.Akin (fun s t : SequenceState ν => s = t ∧ s.Closed g)
      ((g.engine ν).recognizer failures) (g.recognizer ν) := by
  refine ⟨?_, ?_, ?_, ?_⟩
  · rintro s _ ⟨rfl, hclosed⟩
    exact ⟨rfl, rfl, hclosed⟩
  · rintro name value length s _ ⟨rfl, hclosed⟩
    exact ⟨rfl, rfl, hclosed.offer name value length⟩
  · rintro s _ ⟨rfl, hclosed⟩
    show ((g.engine ν).completePosition failures s).Agrees _ _ _
    rw [completePosition_engine hfailures hclosed]
    exact ⟨rfl, rfl, hclosed.complete⟩
  · rintro s _ ⟨rfl, hclosed⟩
    exact ⟨rfl, rfl, hclosed⟩

/-- **A recognizer of sequences can be made an engine and back.** If the failures that the adapter
takes for failed parses cover those of engines, it replies to any sequence of requests what the
recognizer replies, also after the end, and leaves it in the same state. So a run over the one is a
run over the other: whatever the tokens, the source, the buffer and the filter are, it has the same
result or the same fault, and it leaves everything as the other does. -/
theorem engine_eq_recognizer (hfailures : failures.any FaultClass.engine.under = true)
    (g : SequenceGrammar) :
    (∀ (ν : Type) (requests : List (Request ν)),
        ((g.engine ν).recognizer failures).replies requests (.initial g)
          = (g.recognizer ν).replies requests (.initial g))
      ∧ ∀ (lexer : Lexer) (source : Source) (calls : List Call) (limit : Nat),
        lexer.recognize ((g.engine Value).recognizer failures) limit
            (lexer.run source (.initial g) calls)
          = lexer.recognize (g.recognizer Value) limit (lexer.run source (.initial g) calls) := by
  refine ⟨fun ν requests => ?_, fun lexer source calls limit => ?_⟩
  · obtain ⟨hreplies, hstate, -⟩ :=
      (engine_akin hfailures g).replies requests ⟨rfl, SequenceState.Closed.initial g⟩
    exact Prod.ext hreplies hstate
  · have hsame : ∀ r r' : Run (SequenceState Value),
        Run.Alike Eq (fun s t : SequenceState Value => s = t ∧ s.Closed g) r r' → r = r' := by
      rintro ⟨scan, state⟩ ⟨_, _⟩ ⟨rfl, rfl, -⟩
      rfl
    have hstart : Run.Alike Eq (fun s t : SequenceState Value => s = t ∧ s.Closed g)
        (lexer.run source (SequenceState.initial g) calls)
        (lexer.run source (SequenceState.initial g) calls) :=
      ⟨rfl, rfl, SequenceState.Closed.initial g⟩
    exact (Lexer.recognize_akin (engine_akin hfailures g) hstart limit).eq
      (fun _ => hsame) hsame

/-! ## Beyond the end -/

namespace Beyond

/-- The letters `a` and `b`, one by one or together. A `c` is expected first too, but leads
nowhere. -/
def grammar : SequenceGrammar :=
  ⟨[("start", [("a", some "half"), ("ab", some "end"), ("c", none)]),
      ("half", [("b", some "end")])],
    "start", ["end"]⟩

/-- Both letters together, and the first one of them, up to the end and beyond it. -/
def requests : List (Request String) :=
  [.expect, .offer "c" "ab" 1, .offer "a" "a" 1, .offer "ab" "ab" 2, .complete, .exhausted,
    .complete, .exhausted, .offer "b" "b" 1, .complete, .complete, .expect, .exhausted]

/-- What the recognizer has to say to that. -/
def replies : List (Except Fault Reply) :=
  [.ok (.expected ["a", "ab", "c"]), .ok .taken, .ok .taken, .ok .taken,
    .ok (.advanced (.nextExpected ["b"])), .ok (.exhausted false), .ok (.advanced .exhausted),
    .ok (.exhausted true), .ok .taken,
    .ok (.advanced (.failure (some "No token fits at position 2"))),
    .ok (.advanced (.failure (some "No token fits at position 3"))), .ok (.expected []),
    .ok (.exhausted true)]

end Beyond

/-- The engine replies what the recognizer replies, also when it is exhausted and has failed. -/
theorem engine_eq_recognizer_beyond :
    [FaultClass.engine].any FaultClass.engine.under = true
      ∧ ((Beyond.grammar.engine String).recognizer [.engine]).replies Beyond.requests
          (.initial Beyond.grammar)
        = (Beyond.grammar.recognizer String).replies Beyond.requests (.initial Beyond.grammar)
      ∧ (((Beyond.grammar.engine String).recognizer [.engine]).replies Beyond.requests
          (.initial Beyond.grammar)).1 = Beyond.replies :=
  ⟨rfl, (engine_eq_recognizer rfl Beyond.grammar).1 String Beyond.requests, rfl⟩

end SequenceGrammar

end AmbiLex
