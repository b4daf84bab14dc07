import AmbiLex.Engine.Scripted
import AmbiLex.Proofs.Buffer.Raising
import AmbiLex.Proofs.Engine.Calls
import AmbiLex.Proofs.Run.Protocol

/-!
# Which failures are results, and which go through

A run over an engine can be disturbed at many places. The engine can raise a fault when it is asked
what it expects or whether it is exhausted, when a token is offered to it and when it is made to
complete a position; the source can, the filter can, and so can a callback. Only one of these places
is guarded. A fault that the engine raises instead of completing a position is looked at, and if it
falls under one of certain classes it means that the parse failed, which is a result. Faults of the
same classes that come up elsewhere are nothing of the kind, not even in the questions that the
adapter asks once the position is completed.

So the faults of a run are put into two lists, and all of them are read off records: of the calls on
the engine, of the reads and the filtered texts, and of the calls of callbacks. Those that were
*caught* are the ones at the guarded place, and all others have *escaped* (`Lexer.escaped`). The
result of a run says that it failed exactly if a fault was caught, and a fault that has escaped is
what the run stops with (`Lexer.recognize_sorts_faults`).

One invariant carries this. Nothing was raised so far (`Undisturbed`), and as many characters were
consumed as positions were completed before the round that the run is in (`InRound`).
-/

namespace AmbiLex

/-! ## What callbacks raise -/

namespace TokenTable

/-- The callback that the token of a name asks for its values, if it asks one. -/
def callback? (table : TokenTable) (name : String) : Option Callback :=
  match (table.find? name).map TokenSpec.encoder with
  | some (.known .custom callback) => callback
  | _ => none

/-- The fault that was raised in a call of a callback, if one was. The answer of a callback may
depend on the calls before. -/
def callFault? (table : TokenTable) (before : List Call) (call : Call) : Option Fault :=
  (table.callback? call.token).bind fun callback =>
    Fault.ofAnswer? (callback.answer before call.token call.text)

/-- The faults that were raised in calls of callbacks, given the calls before. -/
def callFaults (table : TokenTable) : List Call → List Call → List Fault
  | _, [] => []
  | before, call :: calls =>
    (table.callFault? before call).toList ++ callFaults table (before ++ [call]) calls

/-- **The faults that callbacks have raised** since certain calls. -/
def raised (table : TokenTable) (past calls : List Call) : List Fault :=
  table.callFaults past (calls.drop past.length)

variable {table : TokenTable} {past calls : List Call}

theorem callFaults_append (table : TokenTable) (before calls more : List Call) :
    table.callFaults before (calls ++ more)
      = table.callFaults before calls ++ table.callFaults (before ++ calls) more := by
  induction calls generalizing before with
  | nil => rw [List.append_nil, List.nil_append, callFaults, List.nil_append]
  | cons call calls ih =>
    rw [List.cons_append, callFaults, callFaults, ih, List.append_assoc, List.append_assoc,
      List.singleton_append]

/-- What one more call raises. -/
theorem raised_snoc (h : past <+: calls) (call : Call) :
    table.raised past (calls ++ [call])
      = table.raised past calls ++ (table.callFault? calls call).toList := by
  obtain ⟨made, rfl⟩ := h
  rw [raised, raised, List.append_assoc, List.drop_left, List.drop_left, callFaults_append,
    callFaults, callFaults, List.append_nil]

/-- **No callback has failed** since certain calls. -/
structure Answered (table : TokenTable) (past calls : List Call) : Prop where
  /-- The calls go on from those. -/
  begins : past <+: calls
  /-- None of them has raised a fault. -/
  raised_eq : table.raised past calls = []

theorem Answered.refl (table : TokenTable) (past : List Call) : table.Answered past past := by
  refine ⟨List.prefix_rfl, ?_⟩
  rw [raised, List.drop_length, callFaults]

/-- **Making a value fails with what a callback raises**, or else without a call. -/
theorem Answered.encode (h : table.Answered past calls) {name : String} {spec : TokenSpec}
    (hfind : table.find? name = some spec) (text : List Char) :
    (table.encode name text calls).Meets (fun _ calls' => table.Answered past calls')
      (fun fault calls' => table.raised past calls' = [fault]
        ∨ table.Answered past calls' ∧ spec.encode text calls' = .error fault calls') := by
  obtain ⟨hencode, -⟩ := encode_calls hfind text calls
  rw [hencode]
  unfold TokenSpec.encode
  match hencoder : spec.encoder with
  | .known .struct _ | .known .tuple _ | .known .scalar _ | .known .discard _ => exact h
  | .known .custom none | .unknown mode => exact .inr ⟨h, rfl⟩
  | .known .custom (some callback) =>
    rw [(of_find?_eq_some hfind).2]
    have hasked : table.callback? name = some callback := by
      rw [callback?, hfind, Option.map_some, hencoder]
    have hraised : table.raised past (calls ++ [⟨callback.name, name, text⟩])
        = (Fault.ofAnswer? (callback.answer calls name text)).toList := by
      rw [raised_snoc h.begins, h.raised_eq, callFault?, hasked]
      rfl
    unfold Encoder.encode
    dsimp only
    cases hanswer : callback.answer calls name text with
    | ok value =>
      rw [hanswer] at hraised
      exact ⟨h.begins.trans (List.prefix_append _ _), hraised⟩
    | error fault =>
      rw [hanswer] at hraised
      exact .inl hraised

end TokenTable

namespace Lexer

/-! ## What comes up in a run -/

section

variable {ρ : Type} (lexer : Lexer) (failures : List FaultClass) (past : List Call)

/-- **The faults of a run that mean that something is broken**, wherever they were raised: by the
engine, by the source or the filter, or by callbacks. -/
def escaped (r : Run (Watched Value ρ)) : List Fault :=
  EngineCall.escaped failures r.recognizer.calls
    ++ (r.buffer.raised lexer.filter ++ lexer.tokens.raised past r.scan.calls)

/-- **A token of the lexer is itself at fault**: with the text in the buffer, or because it cannot
make a value although no callback was called. -/
def Complains (s : Scan) (fault : Fault) : Prop :=
  ∃ spec ∈ lexer.tokens, spec.verdict s.buffer.text = .error fault
    ∨ ∃ text, spec.encode text s.calls = .error fault s.calls

/-- **A parse has failed, and for a reason**: the last call on the engine has raised a fault that
was caught. Its message is the detail, and the position counts what was completed before the last
round. -/
def FailedWith (position : Int) (detail : Option String) (calls : List (EngineCall Value)) : Prop :=
  ∃ earlier fault, calls = earlier ++ [.completed (.error fault)] ∧ fault.FallsUnder failures
    ∧ EngineCall.caught failures calls = [fault] ∧ detail = some fault.message
    ∧ position = EngineCall.completions (EngineCall.beforeLastRound earlier)

/-- **Nothing was raised so far.** -/
structure Undisturbed (r : Run (Watched Value ρ)) : Prop where
  /-- Not by the engine. -/
  quiet : EngineCall.Quiet failures r.recognizer.calls
  /-- Not by the source or the filter. -/
  unharmed : r.buffer.Unharmed lexer.filter
  /-- Not by a callback. -/
  answered : lexer.tokens.Answered past r.scan.calls

/-- **A run within a round** in which so many positions were completed: what was consumed is what
was completed before. -/
structure InRound (r : Run (Watched Value ρ)) (done : Nat) : Prop where
  /-- What was consumed. -/
  consumed_eq : r.buffer.consumed
    = EngineCall.completions (EngineCall.beforeLastRound r.recognizer.calls)
  /-- What was completed. -/
  completions_eq : EngineCall.completions r.recognizer.calls
    = EngineCall.completions (EngineCall.beforeLastRound r.recognizer.calls) + done

/-- **What is known of a run that goes on, or is over.** -/
def SortedAt : Point → Run (Watched Value ρ) → Prop
  | .head _, r | .seeking _, r | .sought _ _, r =>
    lexer.Undisturbed failures past r ∧ InRound r 0
  | .completing done, r => lexer.Undisturbed failures past r ∧ InRound r done
  | .finished (.failed position detail), r =>
    lexer.escaped failures past r = [] ∧ FailedWith failures position detail r.recognizer.calls
  | .finished _, r => lexer.Undisturbed failures past r

/-- **What is known of a run that has stopped with a fault**: nothing was caught, and either the
fault has escaped, and no other, or nothing has and a token is at fault. -/
def SortedStop (fault : Fault) (r : Run (Watched Value ρ)) : Prop :=
  EngineCall.caught failures r.recognizer.calls = []
    ∧ (lexer.escaped failures past r = [fault]
      ∨ lexer.escaped failures past r = [] ∧ lexer.Complains r.scan fault)

end

variable {ρ : Type} {lexer : Lexer} {engine : Engine Value ρ} {failures : List FaultClass}
  {past : List Call} {r r' : Run (Watched Value ρ)}

/-- Something was caught in a parse that has failed. -/
theorem FailedWith.caught_ne_nil {position : Int} {detail : Option String}
    {calls : List (EngineCall Value)} (h : FailedWith failures position detail calls) :
    EngineCall.caught failures calls ≠ [] := by
  obtain ⟨earlier, fault, -, -, hcaught, -⟩ := h
  rw [hcaught]
  exact List.cons_ne_nil fault []

namespace Undisturbed

theorem escaped_eq (h : lexer.Undisturbed failures past r) :
    lexer.escaped failures past r = [] := by
  rw [escaped, h.quiet.escaped_eq, h.unharmed.raised_eq, h.answered.raised_eq]
  rfl

/-- A run that has done nothing but looked for something. -/
theorem held (h : lexer.Undisturbed failures past r) (hbuffer : r'.buffer.Unharmed lexer.filter)
    (hcalls : r'.scan.calls = r.scan.calls) (hstate : r'.recognizer = r.recognizer) :
    lexer.Undisturbed failures past r' := by
  refine ⟨?_, hbuffer, ?_⟩
  · rw [hstate]
    exact h.quiet
  · rw [hcalls]
    exact h.answered

/-- A run that has done nothing. -/
theorem congr (h : lexer.Undisturbed failures past r) (hbuffer : r'.buffer = r.buffer)
    (hcalls : r'.scan.calls = r.scan.calls) (hstate : r'.recognizer = r.recognizer) :
    lexer.Undisturbed failures past r' := by
  refine h.held ?_ hcalls hstate
  rw [hbuffer]
  exact h.unharmed

/-- A run that has called the engine. -/
theorem called (h : lexer.Undisturbed failures past r) {made : List (EngineCall Value)}
    (hmade : EngineCall.Quiet failures made)
    (hengine : r'.recognizer.calls = r.recognizer.calls ++ made)
    (hbuffer : r'.buffer.Unharmed lexer.filter) (hcalls : r'.scan.calls = r.scan.calls) :
    lexer.Undisturbed failures past r' := by
  refine ⟨?_, hbuffer, ?_⟩
  · rw [hengine]
    exact h.quiet.append hmade
  · rw [hcalls]
    exact h.answered

end Undisturbed

/-! ## Stops -/

namespace SortedStop

variable {fault : Fault}

/-- The engine has raised a fault that goes through. -/
theorem of_engine (h : lexer.Undisturbed failures past r) {made : List (EngineCall Value)}
    (hmade : EngineCall.caught failures made = [] ∧ EngineCall.escaped failures made = [fault])
    (hengine : r'.recognizer.calls = r.recognizer.calls ++ made) (hscan : r'.scan = r.scan) :
    lexer.SortedStop failures past fault r' := by
  refine ⟨?_, .inl ?_⟩
  · rw [hengine, EngineCall.caught_append, h.quiet.caught_eq, hmade.1, List.append_nil]
  · rw [escaped, hengine, EngineCall.escaped_append, h.quiet.escaped_eq, hmade.2, Run.buffer, hscan,
      h.answered.raised_eq]
    show [fault] ++ (r.buffer.raised lexer.filter ++ []) = [fault]
    rw [h.unharmed.raised_eq]
    rfl

/-- The source or the filter has raised a fault. -/
theorem of_buffer (hquiet : EngineCall.Quiet failures r.recognizer.calls)
    (hraised : r.buffer.raised lexer.filter = [fault])
    (hanswered : lexer.tokens.Answered past r.scan.calls) :
    lexer.SortedStop failures past fault r := by
  refine ⟨hquiet.caught_eq, .inl ?_⟩
  rw [escaped, hquiet.escaped_eq, hraised, hanswered.raised_eq]
  rfl

/-- A callback has raised a fault. -/
theorem of_callback (hquiet : EngineCall.Quiet failures r.recognizer.calls)
    (hunharmed : r.buffer.Unharmed lexer.filter)
    (hraised : lexer.tokens.raised past r.scan.calls = [fault]) :
    lexer.SortedStop failures past fault r := by
  refine ⟨hquiet.caught_eq, .inl ?_⟩
  rw [escaped, hquiet.escaped_eq, hunharmed.raised_eq, hraised]
  rfl

/-- A token is at fault. -/
theorem of_token (h : lexer.Undisturbed failures past r) (hfault : lexer.Complains r.scan fault) :
    lexer.SortedStop failures past fault r :=
  ⟨h.quiet.caught_eq, .inr ⟨h.escaped_eq, hfault⟩⟩

end SortedStop

/-! ## Rounds -/

namespace InRound

variable {done : Nat}

/-- A run that has neither consumed anything nor called the engine. -/
theorem congr (h : InRound r done) (hconsumed : r'.buffer.consumed = r.buffer.consumed)
    (hstate : r'.recognizer = r.recognizer) : InRound r' done := by
  refine ⟨?_, ?_⟩
  · rw [hconsumed, hstate]
    exact h.consumed_eq
  · rw [hstate]
    exact h.completions_eq

/-- **The round goes on** with calls behind which none begins. -/
theorem called (h : InRound r done) {made : List (EngineCall Value)} {done' : Nat}
    (hmade : ∀ call ∈ made, call.opens = false) (hdone : done + EngineCall.completions made = done')
    (hengine : r'.recognizer.calls = r.recognizer.calls ++ made)
    (hconsumed : r'.buffer.consumed = r.buffer.consumed) : InRound r' done' := by
  refine ⟨?_, ?_⟩
  · rw [hconsumed, hengine, EngineCall.beforeLastRound_append _ hmade]
    exact h.consumed_eq
  · rw [hengine, EngineCall.beforeLastRound_append _ hmade, EngineCall.completions_append,
      h.completions_eq, Nat.add_assoc, hdone]

/-- **The next round begins** when what was completed is consumed. -/
theorem opened (h : InRound r done) (made : List (EngineCall Value)) (call : EngineCall Value)
    {done' : Nat} (hopens : call.opens = true)
    (hdone : done + EngineCall.completions (made ++ [call]) = done')
    (hengine : r'.recognizer.calls = r.recognizer.calls ++ (made ++ [call]))
    (hconsumed : r'.buffer.consumed = r.buffer.consumed + done') : InRound r' 0 := by
  have hlast : EngineCall.beforeLastRound r'.recognizer.calls = r'.recognizer.calls := by
    rw [hengine, ← List.append_assoc, EngineCall.beforeLastRound_of_opens _ hopens]
  have hcompletions : EngineCall.completions r'.recognizer.calls
      = EngineCall.completions (EngineCall.beforeLastRound r.recognizer.calls) + done' := by
    rw [hengine, EngineCall.completions_append, h.completions_eq, Nat.add_assoc, hdone]
  refine ⟨?_, ?_⟩
  · rw [hlast, hconsumed, h.consumed_eq, hcompletions]
    rfl
  · rw [hlast, Nat.add_zero]

end InRound

/-! ## Moves -/

/-- Finishing a round does the buffer no harm. -/
theorem RoundFinished.unharmed {completed : Nat} {b b' : Buffer}
    (h : lexer.RoundFinished completed b b') {filter : Option Filter} (hb : b.Unharmed filter) :
    b'.Unharmed filter := by
  rcases h with ⟨-, rfl⟩ | ⟨-, more, hrefill⟩
  · exact hb.consume _
  · exact (Buffer.refill_raises (hb.consume _)).of_ok hrefill

/-- **A parse fails** when the last call on the engine has raised a fault that is caught. -/
theorem failedWith_of_caught {done : Nat} {fault : Fault} (h : lexer.Undisturbed failures past r)
    (hround : InRound r done) (hfalls : fault.FallsUnder failures)
    (hengine : r'.recognizer.calls = r.recognizer.calls ++ [.completed (.error fault)])
    (hbuffer : r'.buffer = r.buffer) (hcalls : r'.scan.calls = r.scan.calls) :
    lexer.escaped failures past r' = []
      ∧ FailedWith failures r'.buffer.consumed (some fault.message) r'.recognizer.calls := by
  obtain ⟨hcaught, hescaped⟩ := EngineCall.raised_of_fallsUnder (ν := Value) hfalls
  refine ⟨?_, r.recognizer.calls, fault, hengine, hfalls, ?_, rfl, ?_⟩
  · rw [escaped, hengine, EngineCall.escaped_append, h.quiet.escaped_eq, hescaped, hcalls, hbuffer,
      h.unharmed.raised_eq, h.answered.raised_eq]
    rfl
  · rw [hengine, EngineCall.caught_append, h.quiet.caught_eq, hcaught]
    rfl
  · -- nothing was consumed in this round, so the position is still that of its beginning
    rw [hbuffer]
    exact hround.consumed_eq

/-- **A move sorts the faults of a run** if they were sorted before. -/
theorem sortedAt_of_moved {point point' : Point} (h : lexer.SortedAt failures past point r)
    (hmove : Moved lexer (engine.watched.recognizer failures) point r point' r') :
    lexer.SortedAt failures past point' r' := by
  cases hmove with
  | ended text => exact h.1
  | opened text buffer calls state =>
    exact ⟨h.1.congr buffer calls state, h.2.congr (congrArg Buffer.consumed buffer) state⟩
  | closed => exact h
  | unlisted find buffer calls state =>
    exact ⟨h.1.congr buffer calls state, h.2.congr (congrArg Buffer.consumed buffer) state⟩
  | @missed name left _ _ spec find seek calls state =>
    exact ⟨h.1.held ((spec.seek_raises h.1.unharmed).of_ok seek) calls state,
      h.2.congr ((seek_consumed spec r.buffer).of_ok seek) state⟩
  | @found name left _ _ spec found value find seek store state =>
    refine ⟨⟨?_, (spec.seek_raises h.1.unharmed).of_ok seek,
      (h.1.answered.encode find found.text).of_ok store⟩,
      h.2.congr ((seek_consumed spec r.buffer).of_ok seek) state⟩
    rw [state]
    exact h.1.quiet
  | passed => exact h
  | @offered offer left _ state take =>
    have hcalls := (Watched.note_meets (.offered offer.name offer.value offer.length)
      (engine.alternative offer.name offer.value offer.length) r.recognizer).of_ok take
    refine ⟨h.1.called ⟨rfl, rfl⟩ hcalls h.1.unharmed rfl, h.2.called ?_ rfl hcalls rfl⟩
    simp [EngineCall.opens]
  | more complete kind =>
    obtain ⟨made, hcompletion, hcalls⟩ :=
      (engine.completePosition_watched failures r.recognizer).of_ok complete
    have hquiet := hcompletion.quiet (by rw [kind]; nofun)
    cases hcompletion with
    | more =>
      refine ⟨h.1.called hquiet hcalls h.1.unharmed rfl, h.2.called ?_ rfl hcalls rfl⟩
      simp [EngineCall.opens]
    | caught | exhausted | next => cases kind
  | next complete kind buffer calls =>
    obtain ⟨made, hcompletion, hcalls⟩ :=
      (engine.completePosition_watched failures r.recognizer).of_ok complete
    have hquiet := hcompletion.quiet (by rw [kind]; nofun)
    cases hcompletion with
    | @next terminals nonempty =>
      -- the engine was asked last, and what it expects begins the next round
      refine ⟨h.1.called hquiet hcalls (buffer.unharmed h.1.unharmed) calls, ?_⟩
      refine h.2.opened [.completed (.ok ()), .exhausted (.ok false)] (.asked (.ok terminals)) ?_
        rfl hcalls buffer.consumed
      simp [EngineCall.opens, nonempty]
    | caught | exhausted | more => cases kind
  | exhausted complete kind buffer calls =>
    obtain ⟨made, hcompletion, hcalls⟩ :=
      (engine.completePosition_watched failures r.recognizer).of_ok complete
    have hquiet := hcompletion.quiet (by rw [kind]; nofun)
    refine h.1.called hquiet hcalls ?_ calls
    rw [buffer]
    exact h.1.unharmed.consume _
  | failed complete kind buffer calls =>
    obtain ⟨made, hcompletion, hcalls⟩ :=
      (engine.completePosition_watched failures r.recognizer).of_ok complete
    cases hcompletion with
    | caught covered => exact failedWith_of_caught h.1 h.2 covered hcalls buffer calls
    | exhausted | more | next => cases kind
  | stayed => exact h

/-- **A fault that stops a move is sorted** if the faults before it were. -/
theorem sortedStop_of_stopped {point : Point} {fault : Fault}
    (h : lexer.SortedAt failures past point r)
    (hstop : Stopped lexer (engine.watched.recognizer failures) point r fault r') :
    lexer.SortedStop failures past fault r' := by
  cases hstop with
  | @unsought name left _ _ spec _ find seek calls state =>
    have hquiet : EngineCall.Quiet failures r'.recognizer.calls := by
      rw [state]
      exact h.1.quiet
    have hanswered : lexer.tokens.Answered past r'.scan.calls := by
      rw [calls]
      exact h.1.answered
    rcases (spec.seek_raises h.1.unharmed).of_error seek with hraised | ⟨hunharmed, hverdict⟩
    · exact .of_buffer hquiet hraised hanswered
    · exact .of_token ⟨hquiet, hunharmed, hanswered⟩
        ⟨spec, (TokenTable.of_find?_eq_some find).1, .inl hverdict⟩
  | @unstored name left _ _ spec found _ find seek store state =>
    have hquiet : EngineCall.Quiet failures r'.recognizer.calls := by
      rw [state]
      exact h.1.quiet
    have hunharmed := (spec.seek_raises h.1.unharmed).of_ok seek
    rcases (h.1.answered.encode find found.text).of_error store with hraised | ⟨hanswered, hencode⟩
    · exact .of_callback hquiet hunharmed hraised
    · exact .of_token ⟨hquiet, hunharmed, hanswered⟩
        ⟨spec, (TokenTable.of_find?_eq_some find).1, .inr ⟨found.text, hencode⟩⟩
  | @refused offer left _ state fault take =>
    have hcalls := (Watched.note_meets (.offered offer.name offer.value offer.length)
      (engine.alternative offer.name offer.value offer.length) r.recognizer).of_error take
    exact .of_engine h.1 ⟨rfl, rfl⟩ hcalls rfl
  | uncompleted complete =>
    obtain ⟨made, hcompletion, hcalls⟩ :=
      (engine.completePosition_watched failures r.recognizer).of_error complete
    exact .of_engine h.1 hcompletion.escapes hcalls rfl
  | misunderstood complete kind =>
    obtain ⟨made, hcompletion, -⟩ :=
      (engine.completePosition_watched failures r.recognizer).of_ok complete
    -- the adapter gives none but known answers
    cases hcompletion <;> cases kind
  | unfilled complete kind refill calls =>
    obtain ⟨made, hcompletion, hcalls⟩ :=
      (engine.completePosition_watched failures r.recognizer).of_ok complete
    have hquiet := h.1.quiet.append (hcompletion.quiet (by rw [kind]; nofun))
    rw [← hcalls] at hquiet
    refine .of_buffer hquiet ((Buffer.refill_raises (h.1.unharmed.consume _)).of_error refill) ?_
    rw [calls]
    exact h.1.answered

/-- **The faults of a run are sorted where it begins.** -/
theorem sortedAt_of_begin (lexer : Lexer) (engine : Engine Value ρ) (failures : List FaultClass)
    (source : Source) (state : ρ) (past : List Call) :
    (begin (engine.watched.recognizer failures) (lexer.run source (.fresh state) past)).Meets
      (fun progress r => lexer.SortedAt failures past (.ofProgress progress) r)
      (fun fault r => lexer.SortedStop failures past fault r) := by
  have hstart : lexer.Undisturbed failures past (lexer.run source (.fresh state) past) :=
    ⟨⟨rfl, rfl⟩, .start source lexer.minBuffer lexer.filter, .refl lexer.tokens past⟩
  have hask := Watched.note_meets (ν := Value) .asked engine.terminalsExpected (.fresh state)
  refine begin_meets (fun r hexpect hbuffer hcalls => ?_)
    (fun expected more r hne hexpect hrefill hcalls => ?_) (fun fault r hexpect hscan => ?_)
    fun expected fault r hne hexpect hrefill hcalls => ?_
  · refine hstart.called ⟨rfl, rfl⟩ (hask.of_ok hexpect) ?_ hcalls
    rw [hbuffer]
    exact hstart.unharmed
  · have hengine := hask.of_ok hexpect
    refine ⟨hstart.called ⟨rfl, rfl⟩ hengine ((Buffer.refill_raises hstart.unharmed).of_ok hrefill)
      hcalls, ?_⟩
    have hround : InRound (lexer.run source (Watched.fresh state) past) 0 := ⟨rfl, rfl⟩
    refine hround.opened [] (.asked (.ok expected)) ?_ rfl hengine
      ((refill_consumed _).of_ok hrefill)
    simp [EngineCall.opens, hne]
  · exact .of_engine hstart ⟨rfl, rfl⟩ (hask.of_error hexpect) hscan
  · have hquiet : EngineCall.Quiet failures r.recognizer.calls := by
      rw [hask.of_ok hexpect]
      exact ⟨rfl, rfl⟩
    refine .of_buffer hquiet ((Buffer.refill_raises hstart.unharmed).of_error hrefill) ?_
    rw [hcalls]
    exact hstart.answered

/-- **Every fault of a run over an engine is either a result or what the run stops with**, and where
it was raised decides which. Whatever the engine, the classes of failures, the tokens, the source,
the filter and the callbacks are:

* a run whose calls on the engine are recorded comes to the same as one whose calls are not;
* a run that does not stop with a fault has let none escape. Its result says that the parse failed
  exactly if the engine has raised a fault of these classes, or of one derived from them, while it
  was made to complete a position. Then that was the last call on the engine, the detail is the
  message of the fault, and the position is the number of positions completed before the last round;
* a run that stops with a fault has caught none. It stops with the one fault that has escaped:
  raised by the engine at another place or falling under none of the classes, or raised by the
  source, the filter or a callback. If none of them has raised a fault, then a token is at fault. -/
theorem recognize_sorts_faults (lexer : Lexer) (engine : Engine Value ρ)
    (failures : List FaultClass) (source : Source) (state : ρ) (past : List Call) (limit : Nat) :
    (lexer.recognize (engine.watched.recognizer failures) limit
        (lexer.run source (.fresh state) past)).Agrees
        (fun _ => Run.Alike Eq fun watched bare => watched.state = bare)
        (Run.Alike Eq fun watched bare => watched.state = bare)
        (lexer.recognize (engine.recognizer failures) limit (lexer.run source state past))
      ∧ (lexer.recognize (engine.watched.recognizer failures) limit
          (lexer.run source (.fresh state) past)).Meets
        (fun answer r => lexer.escaped failures past r = []
          ∧ ((∃ position detail, answer = some (.failed position detail))
            ↔ EngineCall.caught failures r.recognizer.calls ≠ [])
          ∧ ∀ position detail, answer = some (.failed position detail) →
            FailedWith failures position detail r.recognizer.calls)
        (fun fault r => EngineCall.caught failures r.recognizer.calls = []
          ∧ (lexer.escaped failures past r = [fault]
            ∨ lexer.escaped failures past r = [] ∧ lexer.Complains r.scan fault)) := by
  refine ⟨recognize_akin (engine.watched_akin failures) ⟨rfl, rfl⟩ limit, ?_⟩
  refine (recognize_meets (sortedAt_of_begin lexer engine failures source state past)
    (fun _ _ h => move_meets (fun _ _ hmoved => sortedAt_of_moved h hmoved)
      fun _ _ hstopped => sortedStop_of_stopped h hstopped) limit).mono ?_ fun _ _ h => h
  rintro answer r ⟨point, rfl, h⟩
  -- only a run that is finished with a failure has caught something
  have hundisturbed : lexer.Undisturbed failures past r →
      (∀ position detail, point.recognition? ≠ some (.failed position detail)) →
      lexer.escaped failures past r = []
        ∧ ((∃ position detail, point.recognition? = some (.failed position detail))
          ↔ EngineCall.caught failures r.recognizer.calls ≠ [])
        ∧ ∀ position detail, point.recognition? = some (.failed position detail) →
          FailedWith failures position detail r.recognizer.calls := by
    intro hnone hother
    refine ⟨hnone.escaped_eq, ⟨?_, fun hcaught => absurd hnone.quiet.caught_eq hcaught⟩,
      fun position detail hanswer => absurd hanswer (hother position detail)⟩
    rintro ⟨position, detail, hanswer⟩
    exact absurd hanswer (hother position detail)
  cases point with
  | head expected => exact hundisturbed h.1 nofun
  | seeking left => exact hundisturbed h.1 nofun
  | sought offer left => exact hundisturbed h.1 nofun
  | completing done => exact hundisturbed h.1 nofun
  | finished recognition =>
    cases recognition with
    | exhausted position => exact hundisturbed h nofun
    | endOfInput position expected => exact hundisturbed h nofun
    | failed position detail =>
      refine ⟨h.1, ⟨fun _ => h.2.caught_ne_nil, fun _ => ⟨position, detail, rfl⟩⟩, ?_⟩
      rintro _ _ ⟨⟩
      exact h.2

end Lexer

/-! ## One fault at two places -/

namespace Letters

/-- A lexer for two letters. -/
def lexer : Lexer :=
  ⟨[⟨"a", .singleChar ['a'], .known .scalar none⟩, ⟨"b", .singleChar ['b'], .known .scalar none⟩],
    1, false, none, .log⟩

/-- A special case of an engine that cannot go on. -/
def stuck : Fault :=
  .raised ⟨.engineDetail, [.text "stuck"]⟩

/-- An engine that expects the one letter and then the other, and is stuck when it has completed one
more position. -/
def state : ScriptedEngineState Value :=
  .initial ["a"] [.expect ["b"] none, .expect [] none, .raise stuck]

/-- An engine that is stuck as soon as it is asked whether it is exhausted. -/
def unsure : Engine Value (ScriptedEngineState Value) :=
  { Engine.scripted Value none with exhausted := fun s => .error stuck s }

/-- A run over an engine, whose calls are recorded. -/
def run (engine : Engine Value (ScriptedEngineState Value)) :
    EStateM.Result Fault (Run (Watched Value (ScriptedEngineState Value))) (Option Recognition) :=
  lexer.recognize (engine.watched.recognizer [.engine]) 20
    (lexer.run (.ofText ['a', 'b']) (.fresh state) [])

end Letters

/-- The fault is of a class derived from the one that means that a parse failed. Raised in the
second round while a position is completed it is a result, and two positions were completed by then,
of which the first counts. Raised when a token is offered, or when the engine is asked whether it is
exhausted, it stops the run. -/
theorem Lexer.recognize_sorts_faults_letters :
    (∃ r, Letters.run (.scripted Value none) = .ok (some (.failed 1 (some "stuck"))) r
        ∧ FailedWith [.engine] 1 (some "stuck") r.recognizer.calls
        ∧ EngineCall.completions r.recognizer.calls = 3)
      ∧ ∀ engine ∈ [.scripted Value (some Letters.stuck), Letters.unsure],
        ∃ fault r, Letters.run engine = .error fault r
          ∧ fault.FallsUnder [.engine] ∧ Letters.lexer.escaped [.engine] [] r = [fault] := by
  have hsorted := fun engine =>
    (recognize_sorts_faults Letters.lexer engine [.engine]
      (.ofText ['a', 'b']) Letters.state [] 20).2
  -- what escapes in a run that has stopped is the fault that it has stopped with
  have hstops : ∀ engine, (Letters.run engine).answer.toOption = none →
      (Letters.lexer.escaped [.engine] [] (Letters.run engine).left).length = 1 →
      (∀ fault ∈ Letters.lexer.escaped [.engine] [] (Letters.run engine).left,
        fault.FallsUnder [.engine]) →
      ∃ fault r, Letters.run engine = .error fault r
        ∧ fault.FallsUnder [.engine] ∧ Letters.lexer.escaped [.engine] [] r = [fault] := by
    intro engine hrun hlength hcovered
    obtain ⟨fault, hresult⟩ := EStateM.Result.exists_error_of_toOption hrun
    have hescaped := ((hsorted engine).of_error hresult).2.resolve_right fun h => by
      rw [h.1] at hlength
      cases hlength
    refine ⟨fault, _, hresult, hcovered fault ?_, hescaped⟩
    rw [hescaped]
    exact List.mem_singleton_self fault
  constructor
  · have hrun : (Letters.run (.scripted Value none)).answer.toOption
        = some (some (.failed 1 (some "stuck"))) := by
      decide +kernel
    have hresult := EStateM.Result.eq_ok_of_toOption hrun
    exact ⟨_, hresult, ((hsorted _).of_ok hresult).2.2 _ _ rfl, by decide +kernel⟩
  · rintro engine hengine
    obtain rfl | rfl := List.mem_pair.mp hengine
    · exact hstops _ (by decide +kernel) (by decide +kernel) (by decide +kernel)
    · exact hstops _ (by decide +kernel) (by decide +kernel) (by decide +kernel)

end AmbiLex
