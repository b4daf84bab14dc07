import AmbiLex.Lexer.Run
import AmbiLex.Proofs.History

/-!
# The moves of a run

A step of a run is a whole round, or the completion of a position. What there is to say about a run
is often about a moment within a round: between two terminals, or when a token has been found and
is about to be offered. So the steps are taken apart here. A run stands at a `Point`, a `move` takes
it to the next one, and `Lexer.after` is the run after so many moves.

Nothing is lost and nothing is added by that: a step is as many moves as its phase has
(`step_eq_moves`), and a run is over when its point says so. This gives two rules, and everything
about whole runs goes through one of them.

* What holds where a run begins, and is kept by every move it makes, holds at every moment of the
  run (`after_induction`) and of its result (`recognize_finished`).
* If two runs begin alike, and moves keep them alike, then they come to the same
  (`recognize_agrees`).

A run is a scan and a recognizer side by side, and most moves work on one of the two only. Two runs
are `Run.Alike` if they are so in both parts.
-/

namespace AmbiLex

/-- **A token that is about to be offered.** -/
structure Offer where
  /-- The name of the terminal. -/
  name : String
  /-- The value made of the matched text. -/
  value : Value
  /-- The number of characters matched. -/
  length : Nat

/-- **Where a run stands between two moves.** -/
inductive Point where
  /-- A round is about to begin, and these terminals are expected. -/
  | head (expected : List String)
  /-- Within a round these terminals are still to be looked for. -/
  | seeking (left : List String)
  /-- A terminal was looked for, and if it was found its token is about to be offered. The others
  are still to be looked for. -/
  | sought (offer : Option Offer) (left : List String)
  /-- The tokens of a round were offered, and so many positions have been completed since. -/
  | completing (done : Nat)
  /-- The run is finished. -/
  | finished (recognition : Recognition)

namespace Point

/-- The point at which a phase begins. -/
def ofPhase : Phase → Point
  | .matching expected => head expected
  | .completing done => completing done

/-- The point that a step leads to. -/
def ofProgress : Progress → Point
  | .next phase => ofPhase phase
  | .over recognition => finished recognition

/-- The result of a run, if it is over. -/
def recognition? : Point → Option Recognition
  | finished recognition => some recognition
  | _ => none

end Point

/-- The number of moves that a step takes: two for each terminal looked for, and two more. -/
def Phase.moves : Phase → Nat
  | matching expected => 2 * expected.length + 2
  | completing _ => 1

namespace Run

variable {ρ σ α : Type}

/-- **Two runs are alike** if their scans and the states of their recognizers are related. -/
def Alike (scans : Scan → Scan → Prop) (states : ρ → σ → Prop) (r : Run ρ) (r' : Run σ) : Prop :=
  scans r.scan r'.scan ∧ states r.recognizer r'.recognizer

/-- Work on the scan of a run is work on a part of it. -/
theorem onScan_apply (work : ScanM α) (r : Run ρ) :
    onScan work r = (work r.scan).within fun scan => { r with scan := scan } := by
  unfold onScan
  cases work r.scan <;> rfl

/-- Work on the recognizer of a run is work on a part of it. -/
theorem onRecognizer_apply (work : EStateM Fault ρ α) (r : Run ρ) :
    onRecognizer work r
      = (work r.recognizer).within fun recognizer => { r with recognizer := recognizer } := by
  unfold onRecognizer
  cases work r.recognizer <;> rfl

/-- Work on the scans leaves the recognizers as they are. -/
theorem onScan_agrees {work work' : ScanM α} {mid : α → Scan → Scan → Prop}
    {fail : Scan → Scan → Prop} {states : ρ → σ → Prop} {r : Run ρ} {r' : Run σ}
    (hstates : states r.recognizer r'.recognizer)
    (hwork : (work r.scan).Agrees mid fail (work' r'.scan)) :
    (onScan work r).Agrees (fun a => Alike (mid a) states) (Alike fail states)
      (onScan work' r') := by
  rw [onScan_apply, onScan_apply]
  exact hwork.within (fun _ _ _ h => ⟨h, hstates⟩) (fun _ _ h => ⟨h, hstates⟩)

/-- Work on the recognizers leaves the scans as they are. -/
theorem onRecognizer_agrees {work : EStateM Fault ρ α} {work' : EStateM Fault σ α}
    {scans : Scan → Scan → Prop} {mid : α → ρ → σ → Prop} {fail : ρ → σ → Prop} {r : Run ρ}
    {r' : Run σ} (hscans : scans r.scan r'.scan)
    (hwork : (work r.recognizer).Agrees mid fail (work' r'.recognizer)) :
    (onRecognizer work r).Agrees (fun a => Alike scans (mid a)) (Alike scans fail)
      (onRecognizer work' r') := by
  rw [onRecognizer_apply, onRecognizer_apply]
  exact hwork.within (fun _ _ _ h => ⟨hscans, h⟩) (fun _ _ h => ⟨hscans, h⟩)

/-- Work on the scan that gave an answer did so there. -/
theorem onScan_eq_ok {work : ScanM α} {r r' : Run ρ} {a : α} (h : onScan work r = .ok a r') :
    ∃ scan, work r.scan = .ok a scan ∧ r' = { r with scan := scan } := by
  rw [onScan_apply] at h
  exact EStateM.Result.within_eq_ok h

/-- Work on the recognizer that gave an answer did so there. -/
theorem onRecognizer_eq_ok {work : EStateM Fault ρ α} {r r' : Run ρ} {a : α}
    (h : onRecognizer work r = .ok a r') :
    ∃ state, work r.recognizer = .ok a state ∧ r' = { r with recognizer := state } := by
  rw [onRecognizer_apply] at h
  exact EStateM.Result.within_eq_ok h

/-- Work on the scan that stopped with a fault did so there. -/
theorem onScan_eq_error {work : ScanM α} {r r' : Run ρ} {fault : Fault}
    (h : onScan work r = .error fault r') :
    ∃ scan, work r.scan = .error fault scan ∧ r' = { r with scan := scan } := by
  rw [onScan_apply] at h
  exact EStateM.Result.within_eq_error h

/-- Work on the recognizer that stopped with a fault did so there. -/
theorem onRecognizer_eq_error {work : EStateM Fault ρ α} {r r' : Run ρ} {fault : Fault}
    (h : onRecognizer work r = .error fault r') :
    ∃ state, work r.recognizer = .error fault state ∧ r' = { r with recognizer := state } := by
  rw [onRecognizer_apply] at h
  exact EStateM.Result.within_eq_error h

end Run

namespace Lexer

variable {ρ σ : Type}

/-- **One move of a run.** A run that is finished stays where it is. -/
def move (lexer : Lexer) (recognizer : Recognizer Value ρ) : Point → RunM ρ Point
  | .head expected => do
    let b := (← get).buffer
    if b.text.isEmpty then return .finished (.endOfInput b.consumed expected)
    Run.onScan (lexer.report fun _ => expectedLine expected)
    Run.onScan (lexer.report bufferLine)
    return .seeking expected
  | .seeking [] => return .completing 0
  | .seeking (name :: left) => do
    match ← Run.onScan (lexer.seek name) with
    | none => return .sought none left
    | some found =>
      let value ← Run.onScan (lexer.store name found.text)
      return .sought (some ⟨name, value, found.length⟩) left
  | .sought none left => return .seeking left
  | .sought (some offer) left => do
    Run.onRecognizer (recognizer.alternative offer.name offer.value offer.length)
    return .seeking left
  | .completing done => return .ofProgress (← lexer.completeNext recognizer done)
  | .finished recognition => return .finished recognition

/-- So many moves, one after the other. -/
def moves (lexer : Lexer) (recognizer : Recognizer Value ρ) : Nat → Point → RunM ρ Point
  | 0, point => return point
  | count + 1, point => do lexer.moves recognizer count (← lexer.move recognizer point)

/-- **A run after so many moves.** -/
def after (lexer : Lexer) (recognizer : Recognizer Value ρ) (count : Nat) : RunM ρ Point := do
  lexer.moves recognizer count (.ofProgress (← begin recognizer))

variable {lexer other : Lexer} {recognizer : Recognizer Value ρ} {rival : Recognizer Value σ}

/-! ## Steps are moves -/

theorem moves_add (first second : Nat) (point : Point) :
    lexer.moves recognizer (first + second) point
      = lexer.moves recognizer first point >>= lexer.moves recognizer second := by
  induction first generalizing point with
  | zero =>
    rw [Nat.zero_add, moves, pure_bind]
  | succ first ih =>
    rw [Nat.succ_add, moves, moves, bind_assoc]
    exact bind_congr fun next => ih next

/-- A run that is finished makes no more moves. -/
theorem moves_finished (count : Nat) (recognition : Recognition) :
    lexer.moves recognizer count (.finished recognition) = pure (.finished recognition) := by
  induction count with
  | zero => rfl
  | succ count ih =>
    rw [moves, move, pure_bind]
    exact ih

/-- **Offering a terminal is two moves**: looking for it, and handing it over if it was found. -/
theorem offer_eq_moves (name : String) (left : List String) :
    (do lexer.offer recognizer name; return .seeking left)
      = lexer.moves recognizer 2 (.seeking (name :: left)) := by
  rw [moves, move, offer, bind_assoc, bind_assoc]
  refine bind_congr fun found => ?_
  cases found with
  | none =>
    -- without a token the second move hands over nothing
    rfl
  | some found =>
    show ((do
        let value ← Run.onScan (lexer.store name found.text)
        Run.onRecognizer (recognizer.alternative name value found.length)) >>= fun _ => pure _)
      = ((do
        let value ← Run.onScan (lexer.store name found.text)
        return Point.sought (some ⟨name, value, found.length⟩) left) >>= lexer.moves recognizer 1)
    rw [bind_assoc, bind_assoc]
    refine bind_congr fun value => ?_
    rw [pure_bind, moves, move, bind_assoc]
    rfl

/-- **Offering the terminals of a round is two moves for each**, and one more ends the round. -/
theorem forM_offer_eq_moves (left : List String) :
    (do left.forM (lexer.offer recognizer); return .completing 0)
      = lexer.moves recognizer (2 * left.length + 1) (.seeking left) := by
  induction left with
  | nil => rfl
  | cons name left ih =>
    rw [show 2 * (name :: left).length + 1 = 2 + (2 * left.length + 1) from by
      rw [List.length_cons]
      omega]
    rw [moves_add, ← offer_eq_moves, bind_assoc]
    show ((lexer.offer recognizer name >>= fun _ => left.forM (lexer.offer recognizer))
      >>= fun _ => pure (Point.completing 0)) = _
    rw [bind_assoc]
    refine bind_congr fun _ => ?_
    rw [pure_bind]
    exact ih

/-- **A step is as many moves as its phase has.** -/
theorem step_eq_moves (phase : Phase) :
    (do return .ofProgress (← lexer.step recognizer phase))
      = lexer.moves recognizer phase.moves (.ofPhase phase) := by
  cases phase with
  | completing done =>
    show _ = (lexer.move recognizer (.completing done) >>= fun point => pure point)
    rw [bind_pure]
    rfl
  | matching expected =>
    show (lexer.beginRound recognizer expected >>= fun progress => pure (Point.ofProgress progress))
      = lexer.moves recognizer (2 * expected.length + 1 + 1) (.head expected)
    rw [moves, move, beginRound, bind_assoc, bind_assoc]
    refine bind_congr fun r => ?_
    dsimp only
    -- a round that finds no input left is over, and the other moves stay there
    split
    · rw [pure_bind, pure_bind, moves_finished]
      rfl
    · simp only [bind_assoc, pure_bind, ← forM_offer_eq_moves]
      rfl

/-! ## Results -/

/-- **Go on with a run from a point between two steps**, for at most so many steps. -/
def resume (lexer : Lexer) (recognizer : Recognizer Value ρ) (limit : Nat) :
    Point → RunM ρ (Option Recognition)
  | .head expected => lexer.proceed recognizer limit (.matching expected)
  | .completing done => lexer.proceed recognizer limit (.completing done)
  | .finished recognition => return some recognition
  | .seeking _ | .sought _ _ => return none

theorem resume_ofPhase (limit : Nat) (phase : Phase) :
    lexer.resume recognizer limit (.ofPhase phase) = lexer.proceed recognizer limit phase := by
  cases phase <;> rfl

/-- A run that is over has its result at once. -/
theorem resume_ofProgress (limit : Nat) (progress : Progress) :
    lexer.resume recognizer limit (.ofProgress progress) = match progress with
      | .over recognition => return some recognition
      | .next phase => lexer.proceed recognizer limit phase := by
  match progress with
  | .over recognition => rfl
  | .next phase => exact resume_ofPhase limit phase

/-- **Taking steps is making moves**, those of the next step first. -/
theorem proceed_succ (limit : Nat) (phase : Phase) :
    lexer.proceed recognizer (limit + 1) phase
      = lexer.moves recognizer phase.moves (.ofPhase phase) >>= lexer.resume recognizer limit := by
  rw [← step_eq_moves, bind_assoc, proceed]
  refine bind_congr fun progress => ?_
  rw [pure_bind]
  exact (resume_ofProgress limit progress).symm

theorem recognize_eq_resume (limit : Nat) :
    lexer.recognize recognizer limit
      = begin recognizer >>= fun progress =>
        lexer.resume recognizer limit (.ofProgress progress) := by
  exact bind_congr fun progress => (resume_ofProgress limit progress).symm

/-- **Going on with a run is making some number of moves**, and looking whether it is over. -/
theorem resume_eq_moves (limit : Nat) (point : Point) (r : Run ρ) :
    ∃ count, lexer.resume recognizer limit point r
      = (do return (← lexer.moves recognizer count point).recognition?) r := by
  induction limit generalizing point r with
  | zero =>
    refine ⟨0, ?_⟩
    cases point <;> rfl
  | succ limit ih =>
    have hproceed : ∀ phase, ∃ count, lexer.proceed recognizer (limit + 1) phase r
        = (do return (← lexer.moves recognizer count (.ofPhase phase)).recognition?) r := by
      intro phase
      rw [proceed_succ]
      cases hm : lexer.moves recognizer phase.moves (.ofPhase phase) r with
      | error fault s =>
        refine ⟨phase.moves, ?_⟩
        rw [EStateM.bind_apply_of_error hm, EStateM.bind_apply_of_error hm]
      | ok next s =>
        -- the moves of the next step, and then those that the rest of the run takes
        obtain ⟨count, hcount⟩ := ih next s
        refine ⟨phase.moves + count, ?_⟩
        rw [moves_add, bind_assoc, EStateM.bind_apply_of_ok hm, EStateM.bind_apply_of_ok hm]
        exact hcount
    cases point with
    | head expected => exact hproceed (.matching expected)
    | completing done => exact hproceed (.completing done)
    | finished recognition => exact ⟨0, rfl⟩
    | seeking left => exact ⟨0, rfl⟩
    | sought offer left => exact ⟨0, rfl⟩

/-- **A run with a result is finished after some number of moves.** -/
theorem recognize_finished {limit : Nat} {start r : Run ρ} {recognition : Recognition}
    (h : lexer.recognize recognizer limit start = .ok (some recognition) r) :
    ∃ count, lexer.after recognizer count start = .ok (.finished recognition) r := by
  rw [recognize_eq_resume] at h
  obtain ⟨progress, s, hbegin, hresume⟩ := EStateM.bind_eq_ok h
  obtain ⟨count, hcount⟩ := lexer.resume_eq_moves limit (.ofProgress progress) s
  rw [hcount] at hresume
  obtain ⟨point, s', hmoves, hfinished⟩ := EStateM.bind_eq_ok hresume
  refine ⟨count, ?_⟩
  rw [after, EStateM.bind_apply_of_ok hbegin, hmoves]
  cases point with
  | finished recognition' =>
    cases hfinished
    rfl
  | head expected => cases hfinished
  | completing done => cases hfinished
  | seeking left => cases hfinished
  | sought offer left => cases hfinished

/-! ## Rules -/

theorem after_succ (count : Nat) :
    lexer.after recognizer (count + 1)
      = lexer.after recognizer count >>= lexer.move recognizer := by
  rw [after, after, bind_assoc]
  refine bind_congr fun progress => ?_
  rw [moves_add]
  refine bind_congr fun point => ?_
  exact bind_pure (lexer.move recognizer point)

/-- **What holds where a run begins, and is kept by each of its moves, holds at every moment.** -/
theorem after_induction {P : Point → Run ρ → Prop} {start : Run ρ}
    (hbegin : ∀ progress r, begin recognizer start = .ok progress r → P (.ofProgress progress) r)
    (hmove : ∀ count point r point' r', lexer.after recognizer count start = .ok point r →
      lexer.after recognizer (count + 1) start = .ok point' r' →
      lexer.move recognizer point r = .ok point' r' → P point r → P point' r') :
    ∀ count point r, lexer.after recognizer count start = .ok point r → P point r := by
  intro count
  induction count with
  | zero =>
    intro point r h
    obtain ⟨progress, s, hb, hpure⟩ := EStateM.bind_eq_ok h
    cases hpure
    exact hbegin progress r hb
  | succ count ih =>
    intro point' r' h
    have hsucc := h
    rw [after_succ] at h
    obtain ⟨point, r, hafter, hstep⟩ := EStateM.bind_eq_ok h
    exact hmove count point r point' r' hafter hsucc hstep (ih point r hafter)

/-- **What moves keep, any number of them keeps**, and what is known where a move stops with a fault
is known where they do. -/
theorem moves_meets {good : Point → Run ρ → Prop} {bad : Fault → Run ρ → Prop}
    (hmove : ∀ point r, good point r → (lexer.move recognizer point r).Meets good bad)
    (count : Nat) :
    ∀ point r, good point r → (lexer.moves recognizer count point r).Meets good bad := by
  induction count with
  | zero =>
    intro point r h
    exact h
  | succ count ih =>
    intro point r h
    exact EStateM.meets_bind (hmove point r h) ih

/-- **What holds where a run begins, and is kept by moves, holds at every moment**, and what is
known where the beginning or a move stops with a fault is known of a run that has stopped
by then. -/
theorem after_meets {good : Point → Run ρ → Prop} {bad : Fault → Run ρ → Prop} {start : Run ρ}
    (hbegin : (begin recognizer start).Meets (fun progress => good (.ofProgress progress)) bad)
    (hmove : ∀ point r, good point r → (lexer.move recognizer point r).Meets good bad)
    (count : Nat) : (lexer.after recognizer count start).Meets good bad :=
  EStateM.meets_bind hbegin fun progress r h => moves_meets hmove count (.ofProgress progress) r h

/-- **What holds where a run begins, and is kept by moves, holds of its result**, and what is known
where the beginning or a move stops with a fault is known of a run that does, whatever the limit. -/
theorem recognize_meets {good : Point → Run ρ → Prop} {bad : Fault → Run ρ → Prop} {start : Run ρ}
    (hbegin : (begin recognizer start).Meets (fun progress => good (.ofProgress progress)) bad)
    (hmove : ∀ point r, good point r → (lexer.move recognizer point r).Meets good bad)
    (limit : Nat) :
    (lexer.recognize recognizer limit start).Meets
      (fun answer r => ∃ point, point.recognition? = answer ∧ good point r) bad := by
  rw [recognize_eq_resume]
  refine EStateM.meets_bind hbegin fun progress r h => ?_
  obtain ⟨count, hcount⟩ := lexer.resume_eq_moves limit (.ofProgress progress) r
  rw [hcount]
  refine EStateM.meets_bind (moves_meets hmove count _ r h) fun point r' h' => ?_
  exact ⟨point, rfl, h'⟩

section Lockstep

variable {rel : Point → Run ρ → Run σ → Prop} {fail : Run ρ → Run σ → Prop}

/-- Moves that keep two runs alike do so any number of times. -/
theorem moves_agrees
    (hmove : ∀ point r r', rel point r r' →
      (lexer.move recognizer point r).Agrees rel fail (other.move rival point r')) (count : Nat) :
    ∀ point r r', rel point r r' →
      (lexer.moves recognizer count point r).Agrees rel fail
        (other.moves rival count point r') := by
  induction count with
  | zero =>
    intro point r r' h
    exact ⟨rfl, h⟩
  | succ count ih =>
    intro point r r' h
    exact EStateM.agrees_bind (hmove point r r' h) ih

theorem resume_agrees
    (hmove : ∀ point r r', rel point r r' →
      (lexer.move recognizer point r).Agrees rel fail (other.move rival point r')) (limit : Nat) :
    ∀ point r r', rel point r r' →
      (lexer.resume recognizer limit point r).Agrees
        (fun answer s s' => ∃ point, point.recognition? = answer ∧ rel point s s') fail
        (other.resume rival limit point r') := by
  induction limit with
  | zero =>
    intro point r r' h
    cases point with
    | head expected => exact ⟨rfl, .head expected, rfl, h⟩
    | completing done => exact ⟨rfl, .completing done, rfl, h⟩
    | finished recognition => exact ⟨rfl, .finished recognition, rfl, h⟩
    | seeking left => exact ⟨rfl, .seeking left, rfl, h⟩
    | sought offer left => exact ⟨rfl, .sought offer left, rfl, h⟩
  | succ limit ih =>
    intro point r r' h
    cases point with
    | head expected =>
      show (lexer.proceed recognizer (limit + 1) (.matching expected) r).Agrees _ fail
        (other.proceed rival (limit + 1) (.matching expected) r')
      rw [proceed_succ, proceed_succ]
      exact EStateM.agrees_bind (moves_agrees hmove _ (.head expected) r r' h) ih
    | completing done =>
      show (lexer.proceed recognizer (limit + 1) (.completing done) r).Agrees _ fail
        (other.proceed rival (limit + 1) (.completing done) r')
      rw [proceed_succ, proceed_succ]
      exact EStateM.agrees_bind (moves_agrees hmove _ (.completing done) r r' h) ih
    | finished recognition => exact ⟨rfl, .finished recognition, rfl, h⟩
    | seeking left => exact ⟨rfl, .seeking left, rfl, h⟩
    | sought offer left => exact ⟨rfl, .sought offer left, rfl, h⟩

/-- **If two runs begin alike, and moves keep them alike, then they come to the same**, whatever
the limit. -/
theorem recognize_agrees {start : Run ρ} {start' : Run σ}
    (hbegin : (begin recognizer start).Agrees (fun progress => rel (.ofProgress progress)) fail
      (begin rival start'))
    (hmove : ∀ point r r', rel point r r' →
      (lexer.move recognizer point r).Agrees rel fail (other.move rival point r')) (limit : Nat) :
    (lexer.recognize recognizer limit start).Agrees
      (fun answer s s' => ∃ point, point.recognition? = answer ∧ rel point s s') fail
      (other.recognize rival limit start') := by
  rw [recognize_eq_resume, recognize_eq_resume]
  exact EStateM.agrees_bind hbegin fun progress r r' h =>
    resume_agrees hmove limit (.ofProgress progress) r r' h

end Lockstep

end Lexer

end AmbiLex
