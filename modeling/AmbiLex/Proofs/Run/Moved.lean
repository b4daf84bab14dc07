import AmbiLex.Proofs.Run.Moves

/-!
# What a move can do

`Moved` lists the things that a move of a run can do, each with all that is to know about it: what
was asked of the buffer and of the recognizer, and what came of it. Every move that is made is one
of them (`moved_of_move`). Invariants of runs are proved by going through the list, without looking
at the definition of a move again.

Diagnostic lines are left out of the account. Making them changes nothing else.
-/

namespace AmbiLex

/-- **A run after characters were consumed.** -/
def Run.consumed {ρ : Type} (r : Run ρ) (count : Nat) : Run ρ :=
  { r with scan := { r.scan with buffer := r.buffer.consume count } }

namespace Lexer

variable {ρ : Type}

/-! ## Work on the scan -/

/-- **Making a diagnostic line** does not fail, and leaves the buffer and the calls alone. -/
theorem report_apply (lexer : Lexer) (line : Buffer → String) (s : Scan) :
    ∃ s', lexer.report line s = .ok () s' ∧ s'.buffer = s.buffer ∧ s'.calls = s.calls := by
  unfold report
  split
  · exact ⟨_, rfl, rfl, rfl⟩
  · exact ⟨s, rfl, rfl, rfl⟩

/-- Making a diagnostic line in a run. -/
theorem onScan_report_eq_ok {lexer : Lexer} {line : Buffer → String} {r r' : Run ρ} {u : Unit}
    (h : Run.onScan (lexer.report line) r = .ok u r') :
    r'.buffer = r.buffer ∧ r'.scan.calls = r.scan.calls ∧ r'.recognizer = r.recognizer := by
  obtain ⟨s, hs, rfl⟩ := Run.onScan_eq_ok h
  obtain ⟨s', hs', hbuffer, hcalls⟩ := report_apply lexer line r.scan
  rw [hs] at hs'
  cases hs'
  exact ⟨hbuffer, hcalls, rfl⟩

/-- Work on the buffer of a scan is work on a part of it. -/
theorem onBuffer_apply {α : Type} (work : BufferM α) (s : Scan) :
    Scan.onBuffer work s = (work s.buffer).within fun buffer => { s with buffer := buffer } := by
  unfold Scan.onBuffer
  cases work s.buffer <;> rfl

/-- Work on the calls of a scan is work on a part of it. -/
theorem onCalls_apply {α : Type} (work : EStateM Fault (List Call) α) (s : Scan) :
    Scan.onCalls work s = (work s.calls).within fun calls => { s with calls := calls } := by
  unfold Scan.onCalls
  cases work s.calls <;> rfl

/-- Work on the buffer of a scan that gave an answer did so there. -/
theorem onBuffer_eq_ok {α : Type} {work : BufferM α} {s s' : Scan} {a : α}
    (h : Scan.onBuffer work s = .ok a s') :
    work s.buffer = .ok a s'.buffer ∧ s'.calls = s.calls := by
  rw [onBuffer_apply] at h
  obtain ⟨buffer, hbuffer, rfl⟩ := EStateM.Result.within_eq_ok h
  exact ⟨hbuffer, rfl⟩

/-- **Looking for a terminal**: it is in no table, or the buffer was asked. -/
theorem seek_eq_ok {lexer : Lexer} {name : String} {s s' : Scan} {found : Option Found}
    (h : lexer.seek name s = .ok found s') :
    s'.calls = s.calls
      ∧ ((lexer.tokens.find? name = none ∧ found = none ∧ s'.buffer = s.buffer)
        ∨ ∃ spec, lexer.tokens.find? name = some spec
          ∧ spec.seek s.buffer = .ok found s'.buffer) := by
  unfold seek at h
  cases hfind : lexer.tokens.find? name with
  | none =>
    rw [hfind] at h
    obtain ⟨u, s₁, hreport, hpure⟩ := EStateM.bind_eq_ok h
    obtain ⟨s₂, hs₂, hbuffer, hcalls⟩ := report_apply lexer (fun _ => unknownLine name) s
    rw [hreport] at hs₂
    cases hs₂
    cases hpure
    exact ⟨hcalls, .inl ⟨rfl, rfl, hbuffer⟩⟩
  | some spec =>
    rw [hfind] at h
    obtain ⟨found₁, s₁, hseek, hrest⟩ := EStateM.bind_eq_ok h
    obtain ⟨u, s₂, hreport, hpure⟩ := EStateM.bind_eq_ok hrest
    obtain ⟨s₃, hs₃, hbuffer, hcalls⟩ := report_apply lexer (soughtLine name found₁) s₁
    rw [hreport] at hs₃
    cases hs₃
    cases hpure
    obtain ⟨hasked, hcalls₁⟩ := onBuffer_eq_ok hseek
    refine ⟨hcalls.trans hcalls₁, .inr ⟨spec, rfl, ?_⟩⟩
    rw [hbuffer]
    exact hasked

/-- **Storing a token** asks the table for a value, and leaves the buffer alone. -/
theorem store_eq_ok {lexer : Lexer} {name : String} {text : List Char} {s s' : Scan} {value : Value}
    (h : lexer.store name text s = .ok value s') :
    s'.buffer = s.buffer ∧ lexer.tokens.encode name text s.calls = .ok value s'.calls := by
  rw [store, onCalls_apply] at h
  obtain ⟨calls, hcalls, rfl⟩ := EStateM.Result.within_eq_ok h
  exact ⟨rfl, hcalls⟩

/-- Refilling the buffer of a run. -/
theorem refill_eq_ok {r r' : Run ρ} {u : Unit} (h : Run.refill r = .ok u r') :
    (∃ more, Buffer.refill r.buffer = .ok more r'.buffer) ∧ r'.scan.calls = r.scan.calls
      ∧ r'.recognizer = r.recognizer := by
  obtain ⟨more, r₁, hrefill, hpure⟩ := EStateM.bind_eq_ok h
  cases hpure
  obtain ⟨s, hs, rfl⟩ := Run.onScan_eq_ok hrefill
  obtain ⟨hasked, hcalls⟩ := onBuffer_eq_ok hs
  exact ⟨⟨more, hasked⟩, hcalls, rfl⟩

/-- **A buffer after a round**: what was completed is consumed, and the buffer is refilled if it is
shorter than the least size. -/
def RoundFinished (lexer : Lexer) (completed : Nat) (b b' : Buffer) : Prop :=
  (lexer.minBuffer ≤ (b.consume completed).text.length ∧ b' = b.consume completed)
    ∨ ((b.consume completed).text.length < lexer.minBuffer
      ∧ ∃ more, Buffer.refill (b.consume completed) = .ok more b')

/-- **Finishing a round**, spelled out. -/
theorem finishRound_apply (lexer : Lexer) (completed : Nat) (r : Run ρ) :
    lexer.finishRound completed r
      = if (r.buffer.consume completed).text.length < lexer.minBuffer then
          Run.refill (r.consumed completed)
        else .ok () (r.consumed completed) := by
  have hconsume : Run.consume completed r = .ok () (r.consumed completed) := rfl
  unfold finishRound
  rw [EStateM.bind_apply_of_ok hconsume, EStateM.get_bind,
    show (r.consumed completed).buffer = r.buffer.consume completed from rfl]
  split <;> rfl

theorem finishRound_eq_ok {lexer : Lexer} {completed : Nat} {r r' : Run ρ} {u : Unit}
    (h : lexer.finishRound completed r = .ok u r') :
    lexer.RoundFinished completed r.buffer r'.buffer ∧ r'.scan.calls = r.scan.calls
      ∧ r'.recognizer = r.recognizer := by
  rw [finishRound_apply] at h
  split at h
  · rename_i hshort
    obtain ⟨hrefill, hcalls, hstate⟩ := refill_eq_ok h
    exact ⟨.inr ⟨hshort, hrefill⟩, hcalls, hstate⟩
  · rename_i hlong
    cases h
    exact ⟨.inl ⟨Nat.le_of_not_lt hlong, rfl⟩, rfl, rfl⟩

/-! ## The moves -/

/-- **What a move can do**, from a point and a run to the next. -/
inductive Moved (lexer : Lexer) (recognizer : Recognizer Value ρ) :
    Point → Run ρ → Point → Run ρ → Prop
  /-- There was no input left. -/
  | ended {expected : List String} {r : Run ρ} (text : r.buffer.text = []) :
    Moved lexer recognizer (.head expected) r (.finished (.endOfInput r.buffer.consumed expected)) r
  /-- A round has begun. -/
  | opened {expected : List String} {r r' : Run ρ} (text : r.buffer.text ≠ [])
    (buffer : r'.buffer = r.buffer) (calls : r'.scan.calls = r.scan.calls)
    (state : r'.recognizer = r.recognizer) :
    Moved lexer recognizer (.head expected) r (.seeking expected) r'
  /-- No terminal was left to look for. -/
  | closed {r : Run ρ} : Moved lexer recognizer (.seeking []) r (.completing 0) r
  /-- A terminal is in no table. -/
  | unlisted {name : String} {left : List String} {r r' : Run ρ}
    (find : lexer.tokens.find? name = none) (buffer : r'.buffer = r.buffer)
    (calls : r'.scan.calls = r.scan.calls) (state : r'.recognizer = r.recognizer) :
    Moved lexer recognizer (.seeking (name :: left)) r (.sought none left) r'
  /-- A terminal was not found. -/
  | missed {name : String} {left : List String} {r r' : Run ρ} {spec : TokenSpec}
    (find : lexer.tokens.find? name = some spec) (seek : spec.seek r.buffer = .ok none r'.buffer)
    (calls : r'.scan.calls = r.scan.calls) (state : r'.recognizer = r.recognizer) :
    Moved lexer recognizer (.seeking (name :: left)) r (.sought none left) r'
  /-- A terminal was found, and a value was made for it. -/
  | found {name : String} {left : List String} {r r' : Run ρ} {spec : TokenSpec} {found : Found}
    {value : Value} (find : lexer.tokens.find? name = some spec)
    (seek : spec.seek r.buffer = .ok (some found) r'.buffer)
    (store : lexer.tokens.encode name found.text r.scan.calls = .ok value r'.scan.calls)
    (state : r'.recognizer = r.recognizer) :
    Moved lexer recognizer (.seeking (name :: left)) r
      (.sought (some ⟨name, value, found.length⟩) left) r'
  /-- There was nothing to offer. -/
  | passed {left : List String} {r : Run ρ} :
    Moved lexer recognizer (.sought none left) r (.seeking left) r
  /-- A token was offered. -/
  | offered {offer : Offer} {left : List String} {r : Run ρ} {state : ρ}
    (take : recognizer.alternative offer.name offer.value offer.length r.recognizer
      = .ok () state) :
    Moved lexer recognizer (.sought (some offer) left) r (.seeking left)
      { r with recognizer := state }
  /-- A position was completed, and the next one is to be completed too. -/
  | more {done : Nat} {r : Run ρ} {advance : Advance} {state : ρ}
    (complete : recognizer.completePosition r.recognizer = .ok advance state)
    (kind : advance.kind = .moreNeeded) :
    Moved lexer recognizer (.completing done) r (.completing (done + 1))
      { r with recognizer := state }
  /-- A position was completed, and something is expected at the next one. -/
  | next {done : Nat} {r r' : Run ρ} {advance : Advance}
    (complete : recognizer.completePosition r.recognizer = .ok advance r'.recognizer)
    (kind : advance.kind = .nextExpected)
    (buffer : lexer.RoundFinished (done + 1) r.buffer r'.buffer)
    (calls : r'.scan.calls = r.scan.calls) :
    Moved lexer recognizer (.completing done) r (.head advance.terminals) r'
  /-- A position was completed, and no more tokens can be accepted. -/
  | exhausted {done : Nat} {r r' : Run ρ} {advance : Advance}
    (complete : recognizer.completePosition r.recognizer = .ok advance r'.recognizer)
    (kind : advance.kind = .exhausted) (buffer : r'.buffer = r.buffer.consume (done + 1 : Nat))
    (calls : r'.scan.calls = r.scan.calls) :
    Moved lexer recognizer (.completing done) r (.finished (.exhausted r'.buffer.consumed)) r'
  /-- A position was completed, and there is no way to continue. -/
  | failed {done : Nat} {r r' : Run ρ} {advance : Advance}
    (complete : recognizer.completePosition r.recognizer = .ok advance r'.recognizer)
    (kind : advance.kind = .failure) (buffer : r'.buffer = r.buffer)
    (calls : r'.scan.calls = r.scan.calls) :
    Moved lexer recognizer (.completing done) r
      (.finished (.failed r'.buffer.consumed advance.detail)) r'
  /-- The run was finished. -/
  | stayed {recognition : Recognition} {r : Run ρ} :
    Moved lexer recognizer (.finished recognition) r (.finished recognition) r

/-- Completing a position. -/
theorem moved_of_completeNext {lexer : Lexer} {recognizer : Recognizer Value ρ} {done : Nat}
    {progress : Progress} {r r' : Run ρ}
    (h : lexer.completeNext recognizer done r = .ok progress r') :
    Moved lexer recognizer (.completing done) r (.ofProgress progress) r' := by
  obtain ⟨advance, r₁, hcomplete, hrest⟩ := EStateM.bind_eq_ok h
  obtain ⟨state, hstate, rfl⟩ := Run.onRecognizer_eq_ok hcomplete
  cases hkind : advance.kind with
  | moreNeeded =>
    rw [hkind] at hrest
    cases hrest
    exact .more hstate hkind
  | nextExpected =>
    rw [hkind] at hrest
    obtain ⟨u, r₂, hfinish, hpure⟩ := EStateM.bind_eq_ok hrest
    cases hpure
    obtain ⟨hbuffer, hcalls, hsame⟩ := finishRound_eq_ok hfinish
    refine .next ?_ hkind hbuffer hcalls
    rw [hsame]
    exact hstate
  | exhausted =>
    rw [hkind] at hrest
    cases hrest
    exact .exhausted hstate hkind rfl rfl
  | failure =>
    rw [hkind] at hrest
    obtain ⟨u, r₂, hreport, hpure⟩ := EStateM.bind_eq_ok hrest
    cases hpure
    obtain ⟨hbuffer, hcalls, hsame⟩ := onScan_report_eq_ok hreport
    refine .failed ?_ hkind hbuffer hcalls
    rw [hsame]
    exact hstate
  | unknown label =>
    rw [hkind] at hrest
    cases hrest

/-- **Every move that is made is one of the list.** -/
theorem moved_of_move {lexer : Lexer} {recognizer : Recognizer Value ρ} {point point' : Point}
    {r r' : Run ρ} (h : lexer.move recognizer point r = .ok point' r') :
    Moved lexer recognizer point r point' r' := by
  cases point with
  | head expected =>
    rw [move, EStateM.get_bind] at h
    split at h
    · rename_i hempty
      cases h
      exact .ended (List.isEmpty_iff.mp hempty)
    · rename_i hnonempty
      obtain ⟨u₁, r₁, hfirst, hrest⟩ := EStateM.bind_eq_ok h
      obtain ⟨u₂, r₂, hsecond, hpure⟩ := EStateM.bind_eq_ok hrest
      cases hpure
      obtain ⟨hbuffer₁, hcalls₁, hstate₁⟩ := onScan_report_eq_ok hfirst
      obtain ⟨hbuffer₂, hcalls₂, hstate₂⟩ := onScan_report_eq_ok hsecond
      exact .opened (fun hnil => hnonempty (List.isEmpty_iff.mpr hnil)) (hbuffer₂.trans hbuffer₁)
        (hcalls₂.trans hcalls₁) (hstate₂.trans hstate₁)
  | seeking left =>
    cases left with
    | nil =>
      cases h
      exact .closed
    | cons name left =>
      obtain ⟨found, r₁, hsought, hrest⟩ := EStateM.bind_eq_ok h
      obtain ⟨s, hs, rfl⟩ := Run.onScan_eq_ok hsought
      obtain ⟨hcalls, hseek⟩ := seek_eq_ok hs
      cases found with
      | none =>
        cases hrest
        -- nothing is found of a name that is in no table
        rcases hseek with ⟨hfind, -, hbuffer⟩ | ⟨spec, hfind, hasked⟩
        · exact .unlisted hfind hbuffer hcalls rfl
        · exact .missed hfind hasked hcalls rfl
      | some found =>
        obtain ⟨value, r₂, hstored, hpure⟩ := EStateM.bind_eq_ok hrest
        cases hpure
        obtain ⟨s', hs', rfl⟩ := Run.onScan_eq_ok hstored
        obtain ⟨hbuffer, hencode⟩ := store_eq_ok hs'
        rcases hseek with ⟨-, hnone, -⟩ | ⟨spec, hfind, hasked⟩
        · cases hnone
        · rw [show (Scan.calls _) = r.scan.calls from hcalls] at hencode
          refine .found hfind ?_ hencode rfl
          show spec.seek r.buffer = .ok (some found) s'.buffer
          rw [hbuffer]
          exact hasked
  | sought offer left =>
    cases offer with
    | none =>
      cases h
      exact .passed
    | some offer =>
      obtain ⟨u, r₁, htake, hpure⟩ := EStateM.bind_eq_ok h
      cases hpure
      obtain ⟨state, hstate, rfl⟩ := Run.onRecognizer_eq_ok htake
      exact .offered hstate
  | completing done =>
    obtain ⟨progress, r₁, hcomplete, hpure⟩ := EStateM.bind_eq_ok h
    cases hpure
    exact moved_of_completeNext hcomplete
  | finished recognition =>
    cases h
    exact .stayed

/-- **How a run begins**: it is over if nothing is expected, and else the buffer was refilled. -/
theorem begin_eq_ok {recognizer : Recognizer Value ρ} {progress : Progress} {r r' : Run ρ}
    (h : begin recognizer r = .ok progress r') :
    ∃ expected, recognizer.terminalsExpected r.recognizer = .ok expected r'.recognizer
      ∧ r'.scan.calls = r.scan.calls
      ∧ ((expected = [] ∧ progress = .over (.exhausted 0) ∧ r'.buffer = r.buffer)
        ∨ (expected ≠ [] ∧ progress = .next (.matching expected)
          ∧ ∃ more, Buffer.refill r.buffer = .ok more r'.buffer)) := by
  obtain ⟨expected, r₁, hexpect, hrest⟩ := EStateM.bind_eq_ok h
  obtain ⟨state, hstate, rfl⟩ := Run.onRecognizer_eq_ok hexpect
  split at hrest
  · rename_i hempty
    cases hrest
    exact ⟨expected, hstate, rfl, .inl ⟨List.isEmpty_iff.mp hempty, rfl, rfl⟩⟩
  · rename_i hnonempty
    obtain ⟨u, r₂, hrefill, hpure⟩ := EStateM.bind_eq_ok hrest
    cases hpure
    obtain ⟨hmore, hcalls, hsame⟩ := refill_eq_ok hrefill
    refine ⟨expected, ?_, hcalls,
      .inr ⟨fun hnil => hnonempty (List.isEmpty_iff.mpr hnil), rfl, hmore⟩⟩
    rw [hsame]
    exact hstate

/-- **What the operations of a recognizer keep, a run keeps**, whatever the lexer makes of it. -/
theorem recognizer_after {lexer : Lexer} {recognizer : Recognizer Value ρ} {K : ρ → Prop}
    (hexpect : ∀ s expected s', K s → recognizer.terminalsExpected s = .ok expected s' → K s')
    (htake : ∀ name value length s s', K s →
      recognizer.alternative name value length s = .ok () s' → K s')
    (hcomplete : ∀ s advance s', K s → recognizer.completePosition s = .ok advance s' → K s')
    {start : Run ρ} (hstart : K start.recognizer) :
    ∀ count point r, lexer.after recognizer count start = .ok point r → K r.recognizer := by
  refine after_induction ?_ ?_
  · intro progress r hbegin
    obtain ⟨expected, hexpected, -⟩ := begin_eq_ok hbegin
    exact hexpect _ expected _ hstart hexpected
  · intro count point r point' r' _ _ hmove h
    cases moved_of_move hmove with
    | ended text => exact h
    | opened text buffer calls state =>
      rw [state]
      exact h
    | closed => exact h
    | unlisted find buffer calls state =>
      rw [state]
      exact h
    | missed find seek calls state =>
      rw [state]
      exact h
    | found find seek store state =>
      rw [state]
      exact h
    | passed => exact h
    | offered take => exact htake _ _ _ _ _ h take
    | more complete kind => exact hcomplete _ _ _ h complete
    | next complete kind buffer calls => exact hcomplete _ _ _ h complete
    | exhausted complete kind buffer calls => exact hcomplete _ _ _ h complete
    | failed complete kind buffer calls => exact hcomplete _ _ _ h complete
    | stayed => exact h

end Lexer

end AmbiLex
