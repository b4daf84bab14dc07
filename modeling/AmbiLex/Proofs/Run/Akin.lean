import AmbiLex.Proofs.Run.Moved

/-!
# Recognizers and lexers that cannot be told apart

All that a lexer sees of a recognizer are the answers to what it does with it. So two recognizers
whose operations agree make for the same run: the same tokens are looked for and offered, the same
text is read, and the same comes of it (`recognize_akin`). A recognizer that keeps its history is
one that cannot be told apart from itself without. What is proved of runs with a history therefore
holds of runs without one.

In the same way, all that matters of a lexer are its tokens and the least size of its buffer, as
long as the diagnostic lines that it makes do no harm (`Lexer.Akin`). Both kinds of kinship are
carried through a run together (`recognize_alike`).
-/

namespace AmbiLex

/-- **Recognizers that cannot be told apart** as long as their states are related: each operation
gives the same answer and leaves related states. -/
structure Recognizer.Akin {ν ρ σ : Type} (states : ρ → σ → Prop) (recognizer : Recognizer ν ρ)
    (rival : Recognizer ν σ) : Prop where
  /-- They expect the same. -/
  expect : ∀ s t, states s t →
    (recognizer.terminalsExpected s).Agrees (fun _ => states) states (rival.terminalsExpected t)
  /-- They take the same tokens. -/
  take : ∀ name value length s t, states s t →
    (recognizer.alternative name value length s).Agrees (fun _ => states) states
      (rival.alternative name value length t)
  /-- They complete positions alike. -/
  complete : ∀ s t, states s t →
    (recognizer.completePosition s).Agrees (fun _ => states) states (rival.completePosition t)
  /-- They are exhausted alike. No lexer asks this, but others may. -/
  exhaust : ∀ s t, states s t →
    (recognizer.exhausted s).Agrees (fun _ => states) states (rival.exhausted t)

/-- A recognizer cannot be told apart from itself. -/
theorem Recognizer.Akin.refl {ν ρ : Type} (recognizer : Recognizer ν ρ) :
    recognizer.Akin Eq recognizer := by
  refine ⟨?_, ?_, ?_, ?_⟩
  · rintro s _ rfl
    exact EStateM.Result.Agrees.refl _
  · rintro name value length s _ rfl
    exact EStateM.Result.Agrees.refl _
  · rintro s _ rfl
    exact EStateM.Result.Agrees.refl _
  · rintro s _ rfl
    exact EStateM.Result.Agrees.refl _

/-- **A recognizer that keeps its history is akin to itself without.** -/
theorem Recognizer.recorded_akin {ν ρ : Type} (recognizer : Recognizer ν ρ) :
    Akin (fun (s : Recorded ν ρ) t => s.state = t) recognizer.recorded recognizer := by
  refine ⟨?_, ?_, ?_, ?_⟩
  · rintro s _ rfl
    exact Recorded.note_agrees _ recognizer.terminalsExpected s
  · rintro name value length s _ rfl
    exact Recorded.note_agrees _ (recognizer.alternative name value length) s
  · rintro s _ rfl
    exact Recorded.note_agrees _ recognizer.completePosition s
  · rintro s _ rfl
    exact Recorded.note_agrees _ recognizer.exhausted s

/-- **Lexers that cannot be told apart** as long as their scans are related: they look for the same
tokens in the same buffer, store them with the same calls, and diagnostic lines keep the scans
related. -/
structure Lexer.Akin (scans : Scan → Scan → Prop) (lexer other : Lexer) : Prop where
  /-- The tokens are the same. -/
  tokens_eq : lexer.tokens = other.tokens
  /-- The least size of the buffer is the same. -/
  minBuffer_eq : lexer.minBuffer = other.minBuffer
  /-- Related scans have the same buffer. -/
  buffer_eq : ∀ s s', scans s s' → s.buffer = s'.buffer
  /-- Related scans have made the same calls. -/
  calls_eq : ∀ s s', scans s s' → s.calls = s'.calls
  /-- Scans stay related with another buffer. -/
  onBuffer : ∀ s s' buffer, scans s s' →
    scans { s with buffer := buffer } { s' with buffer := buffer }
  /-- Scans stay related with other calls. -/
  onCalls : ∀ s s' calls, scans s s' → scans { s with calls := calls } { s' with calls := calls }
  /-- Diagnostic lines do no harm. -/
  report : ∀ line s s', scans s s' →
    (lexer.report line s).Agrees (fun _ => scans) scans (other.report line s')

namespace Lexer

variable {ρ σ : Type} {lexer other : Lexer} {recognizer : Recognizer Value ρ}
  {rival : Recognizer Value σ} {scans : Scan → Scan → Prop} {states : ρ → σ → Prop}

/-- A lexer cannot be told apart from itself. -/
theorem Akin.refl (lexer : Lexer) : lexer.Akin Eq lexer := by
  refine ⟨rfl, rfl, fun _ _ => congrArg Scan.buffer, fun _ _ => congrArg Scan.calls, ?_, ?_, ?_⟩
  · rintro s _ buffer rfl
    rfl
  · rintro s _ calls rfl
    rfl
  · rintro line s _ rfl
    exact EStateM.Result.Agrees.refl _

section Scans

variable (h : lexer.Akin scans other) {s s' : Scan} (hs : scans s s')
include h hs

/-- The same work on the buffers of scans that are related. -/
theorem Akin.onBuffer_work {α : Type} (work : BufferM α) :
    (Scan.onBuffer work s).Agrees (fun _ => scans) scans (Scan.onBuffer work s') := by
  rw [onBuffer_apply, onBuffer_apply, h.buffer_eq s s' hs]
  refine (EStateM.Result.Agrees.refl _).within ?_ ?_
  · rintro a buffer _ rfl
    exact h.onBuffer s s' buffer hs
  · rintro buffer _ rfl
    exact h.onBuffer s s' buffer hs

/-- **Looking for a terminal with akin lexers.** -/
theorem Akin.seek (name : String) :
    (lexer.seek name s).Agrees (fun _ => scans) scans (other.seek name s') := by
  unfold Lexer.seek
  rw [h.tokens_eq]
  cases other.tokens.find? name with
  | none => exact EStateM.agrees_bind (h.report _ _ _ hs) fun _ _ _ hs' => ⟨rfl, hs'⟩
  | some spec =>
    exact EStateM.agrees_bind (h.onBuffer_work hs spec.seek) fun _ _ _ hs' =>
      EStateM.agrees_bind (h.report _ _ _ hs') fun _ _ _ hs'' => ⟨rfl, hs''⟩

/-- **Storing a token with akin lexers.** -/
theorem Akin.store (name : String) (text : List Char) :
    (lexer.store name text s).Agrees (fun _ => scans) scans (other.store name text s') := by
  rw [Lexer.store, Lexer.store, h.tokens_eq, onCalls_apply, onCalls_apply, h.calls_eq s s' hs]
  refine (EStateM.Result.Agrees.refl _).within ?_ ?_
  · rintro value calls _ rfl
    exact h.onCalls s s' calls hs
  · rintro calls _ rfl
    exact h.onCalls s s' calls hs

end Scans

section Runs

variable (hlexer : lexer.Akin scans other) {r : Run ρ} {r' : Run σ}
  (h : Run.Alike scans states r r')
include hlexer h

/-- The same characters are consumed. -/
theorem consume_alike (count : Nat) :
    (Run.consume count r).Agrees (fun _ => Run.Alike scans states) (Run.Alike scans states)
      (Run.consume count r') := by
  refine ⟨rfl, ?_, h.2⟩
  show scans { r.scan with buffer := r.scan.buffer.consume count }
    { r'.scan with buffer := r'.scan.buffer.consume count }
  rw [hlexer.buffer_eq _ _ h.1]
  exact hlexer.onBuffer _ _ _ h.1

/-- The same is read where the buffer is refilled. -/
theorem refill_alike :
    (Run.refill r).Agrees (fun _ => Run.Alike scans states) (Run.Alike scans states)
      (Run.refill r') :=
  EStateM.agrees_bind (Run.onScan_agrees h.2 (hlexer.onBuffer_work h.1 Buffer.refill))
    fun _ _ _ h' => ⟨rfl, h'⟩

/-- Finishing a round with akin lexers. -/
theorem finishRound_alike (completed : Nat) :
    (lexer.finishRound completed r).Agrees (fun _ => Run.Alike scans states)
      (Run.Alike scans states) (other.finishRound completed r') := by
  refine EStateM.agrees_bind (consume_alike hlexer h completed) fun _ s s' h' => ?_
  rw [EStateM.get_bind, EStateM.get_bind,
    show s.buffer = s'.buffer from hlexer.buffer_eq _ _ h'.1, hlexer.minBuffer_eq]
  split
  · exact refill_alike hlexer h'
  · exact ⟨rfl, h'⟩

/-- Diagnostic lines in runs that are alike. -/
theorem onScan_report_alike (line : Buffer → String) :
    (Run.onScan (lexer.report line) r).Agrees (fun _ => Run.Alike scans states)
      (Run.Alike scans states) (Run.onScan (other.report line) r') :=
  Run.onScan_agrees h.2 (hlexer.report line _ _ h.1)

/-- **Completing a position with akin lexers and recognizers.** -/
theorem completeNext_alike (hakin : recognizer.Akin states rival) (done : Nat) :
    (lexer.completeNext recognizer done r).Agrees (fun _ => Run.Alike scans states)
      (Run.Alike scans states) (other.completeNext rival done r') := by
  refine EStateM.agrees_bind (Run.onRecognizer_agrees h.1 (hakin.complete _ _ h.2))
    fun advance s s' h' => ?_
  cases hkind : advance.kind with
  | moreNeeded => exact ⟨rfl, h'⟩
  | nextExpected =>
    exact EStateM.agrees_bind (finishRound_alike hlexer h' (done + 1)) fun _ _ _ h'' => ⟨rfl, h''⟩
  | exhausted =>
    refine EStateM.agrees_bind (consume_alike hlexer h' (done + 1)) fun _ t t' h'' => ⟨?_, h''⟩
    show Progress.over (.exhausted t.scan.buffer.consumed) = .over (.exhausted _)
    rw [hlexer.buffer_eq _ _ h''.1]
    rfl
  | failure =>
    refine EStateM.agrees_bind (onScan_report_alike hlexer h' _) fun _ t t' h'' => ⟨?_, h''⟩
    show Progress.over (.failed t.scan.buffer.consumed advance.detail) = .over (.failed _ _)
    rw [hlexer.buffer_eq _ _ h''.1]
    rfl
  | unknown label => exact ⟨rfl, h'⟩

/-- **A move with akin lexers and recognizers.** -/
theorem move_alike (hakin : recognizer.Akin states rival) (point : Point) :
    (lexer.move recognizer point r).Agrees (fun _ => Run.Alike scans states)
      (Run.Alike scans states) (other.move rival point r') := by
  cases point with
  | head expected =>
    rw [move, move, EStateM.get_bind, EStateM.get_bind,
      show r.buffer = r'.buffer from hlexer.buffer_eq _ _ h.1]
    split
    · exact ⟨rfl, h⟩
    · exact EStateM.agrees_bind (onScan_report_alike hlexer h _) fun _ _ _ h' =>
        EStateM.agrees_bind (onScan_report_alike hlexer h' _) fun _ _ _ h'' => ⟨rfl, h''⟩
  | seeking left =>
    cases left with
    | nil => exact ⟨rfl, h⟩
    | cons name left =>
      refine EStateM.agrees_bind (Run.onScan_agrees h.2 (hlexer.seek h.1 name))
        fun found s s' h' => ?_
      cases found with
      | none => exact ⟨rfl, h'⟩
      | some found =>
        exact EStateM.agrees_bind (Run.onScan_agrees h'.2 (hlexer.store h'.1 name found.text))
          fun _ _ _ h'' => ⟨rfl, h''⟩
  | sought offer left =>
    cases offer with
    | none => exact ⟨rfl, h⟩
    | some offer =>
      exact EStateM.agrees_bind (Run.onRecognizer_agrees h.1 (hakin.take _ _ _ _ _ h.2))
        fun _ _ _ h' => ⟨rfl, h'⟩
  | completing done =>
    exact EStateM.agrees_bind (completeNext_alike hlexer h hakin done) fun _ _ _ h' => ⟨rfl, h'⟩
  | finished recognition => exact ⟨rfl, h⟩

/-- **The beginning of a run with akin recognizers.** -/
theorem begin_alike (hakin : recognizer.Akin states rival) :
    (begin recognizer r).Agrees (fun _ => Run.Alike scans states) (Run.Alike scans states)
      (begin rival r') := by
  refine EStateM.agrees_bind (Run.onRecognizer_agrees h.1 (hakin.expect _ _ h.2))
    fun expected s s' h' => ?_
  split
  · exact ⟨rfl, h'⟩
  · exact EStateM.agrees_bind (refill_alike hlexer h') fun _ _ _ h'' => ⟨rfl, h''⟩

/-- **Runs of akin lexers over akin recognizers come to the same**, and read and store the same. -/
theorem recognize_alike (hakin : recognizer.Akin states rival) (limit : Nat) :
    (lexer.recognize recognizer limit r).Agrees (fun _ => Run.Alike scans states)
      (Run.Alike scans states) (other.recognize rival limit r') := by
  have hagrees : (lexer.recognize recognizer limit r).Agrees
      (fun answer s s' => ∃ point : Point, point.recognition? = answer
        ∧ Run.Alike scans states s s')
      (Run.Alike scans states) (other.recognize rival limit r') :=
    recognize_agrees (begin_alike hlexer h hakin)
      (fun point _ _ h' => move_alike hlexer h' hakin point) limit
  refine hagrees.mono ?_ (fun _ _ h' => h')
  rintro answer s s' ⟨-, -, h'⟩
  exact h'

end Runs

/-- **Runs over akin recognizers are alike at every moment.** -/
theorem after_akin (hakin : recognizer.Akin states rival) {r : Run ρ} {r' : Run σ}
    (h : Run.Alike Eq states r r') (count : Nat) :
    (lexer.after recognizer count r).Agrees (fun _ => Run.Alike Eq states) (Run.Alike Eq states)
      (lexer.after rival count r') := by
  refine EStateM.agrees_bind (begin_alike (Akin.refl lexer) h hakin) fun progress s s' h' => ?_
  have hmoves : (lexer.moves recognizer count (.ofProgress progress) s).Agrees
      (fun _ : Point => Run.Alike Eq states) (Run.Alike Eq states)
      (lexer.moves rival count (.ofProgress progress) s') :=
    moves_agrees (fun point _ _ h'' => move_alike (Akin.refl lexer) h'' hakin point) count _ s s' h'
  exact hmoves

/-- **Runs over akin recognizers come to the same**, and read, store and report the same. -/
theorem recognize_akin (hakin : recognizer.Akin states rival) {r : Run ρ} {r' : Run σ}
    (h : Run.Alike Eq states r r') (limit : Nat) :
    (lexer.recognize recognizer limit r).Agrees (fun _ => Run.Alike Eq states)
      (Run.Alike Eq states) (lexer.recognize rival limit r') :=
  recognize_alike (Akin.refl lexer) h hakin limit

/-- **Keeping the history of a run changes nothing about it.** -/
theorem recognize_recorded (lexer : Lexer) (recognizer : Recognizer Value ρ) (limit : Nat)
    (source : Source) (state : ρ) (calls : List Call) :
    (lexer.recognize recognizer.recorded limit (lexer.run source (.fresh state) calls)).Agrees
      (fun _ => Run.Alike Eq fun s t => s.state = t) (Run.Alike Eq fun s t => s.state = t)
      (lexer.recognize recognizer limit (lexer.run source state calls)) :=
  recognize_akin recognizer.recorded_akin ⟨rfl, rfl⟩ limit

/-- **Every moment of a run is one of a run that keeps its history.** -/
theorem after_recorded {lexer : Lexer} {recognizer : Recognizer Value ρ} {source : Source}
    {state : ρ} {calls : List Call} {count : Nat} {point : Point} {r : Run ρ}
    (h : lexer.after recognizer count (lexer.run source state calls) = .ok point r) :
    ∃ history, lexer.after recognizer.recorded count (lexer.run source (.fresh state) calls)
      = .ok point ⟨r.scan, r.recognizer, history⟩ := by
  have hagrees : (lexer.after recognizer.recorded count
      (lexer.run source (.fresh state) calls)).Agrees
      (fun _ => Run.Alike Eq fun s t => s.state = t) (Run.Alike Eq fun s t => s.state = t)
      (lexer.after recognizer count (lexer.run source state calls)) :=
    after_akin recognizer.recorded_akin ⟨rfl, rfl⟩ count
  rw [h] at hagrees
  obtain ⟨_, ⟨scan, ⟨state', history⟩⟩, _, hrun, hok, hscan, hstate⟩ | ⟨_, _, _, -, herror, -⟩ :=
    EStateM.Result.agrees_iff.mp hagrees
  · cases hok
    cases hscan
    cases hstate
    exact ⟨history, hrun⟩
  · cases herror

end Lexer

end AmbiLex
