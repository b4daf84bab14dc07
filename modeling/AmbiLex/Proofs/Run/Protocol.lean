import AmbiLex.Proofs.Run.Akin
import AmbiLex.Proofs.Run.Stopped
import AmbiLex.Proofs.Token.Seeking
import AmbiLex.Proofs.Token.Usable

/-!
# The protocol of a run

What a lexer does to a recognizer follows a protocol. The recognizer is asked once what it expects.
Then come rounds. In a round every terminal that is expected is looked for, in the order in which it
is, and each one that is found is offered at once, with the value made of it. After that positions
are completed for as long as the recognizer answers that more are needed, and one more; and if
something is expected there, that is what the next round goes through.

This module states the protocol for its own sake, as a grammar of traces: `Tried` for the first part
of a round, `Waited` for the second, `Rounds` for any number of rounds. A trace holds the history of
the exchanges, and along with it the buffer and the calls of callbacks, since what is found depends
on the buffer at that moment, and a callback is called once for each token that it makes a value
for. `Returned` says which traces a result can have, with the position that is reported, and
`Raised` which traces a fault can have: those that end in the middle of the protocol.

Nothing is assumed of the recognizer. It may expect terminals that do not exist, or the same one
twice, answer anything or fail; and the source, the filter and the callbacks may fail as well
(`recognize_follows_protocol`).
-/

namespace AmbiLex

/-! ## Calls of callbacks -/

namespace Encoder

/-- **The calls made for a value**: one if a callback makes it, and none otherwise. -/
def callsFor (encoder : Encoder) (token : String) (text : List Char) : List Call :=
  match encoder with
  | known .custom (some callback) => [⟨callback.name, token, text⟩]
  | _ => []

/-- **Making a value makes its calls**, and no others, failed or not. -/
theorem encode_calls (encoder : Encoder) (token : String) (text : List Char) (calls : List Call) :
    (encoder.encode token text calls).Meets
      (fun _ calls' => calls' = calls ++ encoder.callsFor token text)
      (fun _ calls' => calls' = calls ++ encoder.callsFor token text) := by
  match encoder with
  | unknown mode => exact (List.append_nil calls).symm
  | known .struct _ | known .tuple _ | known .scalar _ | known .discard _ | known .custom none =>
    exact (List.append_nil calls).symm
  | known .custom (some callback) =>
    unfold encode
    dsimp only
    cases callback.answer calls token text with
    | ok value => exact rfl
    | error fault => exact rfl

end Encoder

/-- The value of a terminal is made by its token, with the calls that takes. -/
theorem TokenTable.encode_calls {table : TokenTable} {name : String} {spec : TokenSpec}
    (hfind : table.find? name = some spec) (text : List Char) (calls : List Call) :
    table.encode name text calls = spec.encode text calls
      ∧ (spec.encode text calls).Meets
        (fun _ calls' => calls' = calls ++ spec.encoder.callsFor name text)
        (fun _ calls' => calls' = calls ++ spec.encoder.callsFor name text) := by
  have hencode : table.encode name text calls = spec.encode text calls := by
    unfold encode
    rw [hfind]
  refine ⟨hencode, ?_⟩
  rw [← (of_find?_eq_some hfind).2]
  exact spec.encoder.encode_calls spec.name text calls

/-! ## Traces -/

/-- **What can be told of a run**: the exchanges with the recognizer, the buffer that they have led
to, and the calls of callbacks. -/
@[ext] structure Trace where
  /-- The exchanges with the recognizer, from the first to the last. -/
  history : History Value
  /-- The buffer. -/
  buffer : Buffer
  /-- The calls of callbacks. -/
  calls : List Call

namespace Trace

/-- The trace of a run that keeps its history. -/
def ofRun {ρ : Type} (r : Run (Recorded Value ρ)) : Trace :=
  ⟨r.recognizer.history, r.buffer, r.scan.calls⟩

/-- A trace with one more exchange. -/
def noted (t : Trace) (exchange : Exchange Value) : Trace :=
  { t with history := t.history ++ [exchange] }

/-- A trace with another buffer. -/
def holding (t : Trace) (b : Buffer) : Trace :=
  { t with buffer := b }

end Trace

namespace Lexer

/-! ## The protocol -/

/-- **A terminal is found**, and a value is made of it. What is looked for is looked for in the
buffer at that moment, and a callback is called for the value if the token has one. -/
structure Finds (lexer : Lexer) (name : String) (found : Found) (value : Value) (spec : TokenSpec)
    (t t' : Trace) : Prop where
  /-- The terminal is in the table. -/
  find : lexer.tokens.find? name = some spec
  /-- Its token is at the start of the buffer. -/
  seek : spec.seek t.buffer = .ok (some found) t'.buffer
  /-- The value is the one that the token stores. -/
  store : spec.encode found.text t.calls = .ok value t'.calls
  /-- The calls made for it. -/
  calls : t'.calls = t.calls ++ spec.encoder.callsFor name found.text
  /-- Nothing was exchanged with the recognizer. -/
  history : t'.history = t.history

/-- **Terminals have been gone through, one after the other**, and those that were found have been
offered. -/
inductive Tried (lexer : Lexer) (t : Trace) : List String → Trace → Prop
  /-- None of them yet. -/
  | nothing : Tried lexer t [] t
  /-- One more, which is in no table. -/
  | unlisted {names : List String} {t' : Trace} {name : String} (tried : Tried lexer t names t')
    (find : lexer.tokens.find? name = none) : Tried lexer t (names ++ [name]) t'
  /-- One more, which was not found. -/
  | missed {names : List String} {t' : Trace} {name : String} {spec : TokenSpec} {b : Buffer}
    (tried : Tried lexer t names t') (find : lexer.tokens.find? name = some spec)
    (seek : spec.seek t'.buffer = .ok none b) : Tried lexer t (names ++ [name]) (t'.holding b)
  /-- One more, which was found and offered. -/
  | offered {names : List String} {t' t'' : Trace} {name : String} {found : Found} {value : Value}
    {spec : TokenSpec} (tried : Tried lexer t names t')
    (finds : lexer.Finds name found value spec t' t'') :
    Tried lexer t (names ++ [name]) (t''.noted (.offered name value found.length (.ok ())))

/-- **A round has gone through all that was expected, and positions have been completed**, so many
of them, and the recognizer has answered each time that more are needed. -/
inductive Waited (lexer : Lexer) (expected : List String) (t : Trace) : Nat → Trace → Prop
  /-- No position was completed yet. -/
  | offered {t' : Trace} (text : t.buffer.text ≠ []) (tried : Tried lexer t expected t') :
    Waited lexer expected t 0 t'
  /-- One more position was completed. -/
  | more {done : Nat} {t' : Trace} {advance : Advance} (waited : Waited lexer expected t done t')
    (kind : advance.kind = .moreNeeded) :
    Waited lexer expected t (done + 1) (t'.noted (.completed (.ok advance)))

section

variable (lexer : Lexer) (source : Source) (calls : List Call)

/-- **Any number of rounds**, and what is expected after them. -/
inductive Rounds : List String → Trace → Prop
  /-- The recognizer was asked, and the buffer was filled. -/
  | begun {expected : List String} {more : Bool} {b : Buffer} (nonempty : expected ≠ [])
    (refill : (lexer.bufferOf source).refill = .ok more b) :
    Rounds expected ⟨[.asked (.ok expected)], b, calls⟩
  /-- One more round, which came to something that is expected. -/
  | next {expected : List String} {t t' : Trace} {done : Nat} {advance : Advance} {b : Buffer}
    (rounds : Rounds expected t) (waited : lexer.Waited expected t done t')
    (kind : advance.kind = .nextExpected) (finished : lexer.RoundFinished (done + 1) t'.buffer b) :
    Rounds advance.terminals ((t'.noted (.completed (.ok advance))).holding b)

/-- **The traces of runs with a result**, and the position that is reported. -/
inductive Returned : Recognition → Trace → Prop
  /-- Nothing was expected. -/
  | idle : Returned (.exhausted 0) ⟨[.asked (.ok [])], lexer.bufferOf source, calls⟩
  /-- There was no input left behind some rounds. All positions that were completed count. -/
  | ended {expected : List String} {t : Trace} (rounds : lexer.Rounds source calls expected t)
    (text : t.buffer.text = []) : Returned (.endOfInput t.history.completions expected) t
  /-- The last round came to the end of what the recognizer accepts. All positions count. -/
  | exhausted {expected : List String} {t t' : Trace} {done : Nat} {advance : Advance}
    (rounds : lexer.Rounds source calls expected t) (waited : lexer.Waited expected t done t')
    (kind : advance.kind = .exhausted) :
    Returned (.exhausted (t'.noted (.completed (.ok advance))).history.completions)
      ((t'.noted (.completed (.ok advance))).holding (t'.buffer.consume (done + 1 : Nat)))
  /-- The last round failed. The positions that were completed in it do not count. -/
  | failed {expected : List String} {t t' : Trace} {done : Nat} {advance : Advance}
    (rounds : lexer.Rounds source calls expected t) (waited : lexer.Waited expected t done t')
    (kind : advance.kind = .failure) :
    Returned (.failed t.history.completions advance.detail) (t'.noted (.completed (.ok advance)))

/-- **The traces of runs that stop with a fault**: each of them breaks off at a point of the
protocol. -/
inductive Raised : Fault → Trace → Prop
  /-- Asking the recognizer failed. -/
  | unasked {fault : Fault} : Raised fault ⟨[.asked (.error fault)], lexer.bufferOf source, calls⟩
  /-- Filling the buffer for the first round failed. -/
  | unopened {fault : Fault} {expected : List String} {b : Buffer} (nonempty : expected ≠ [])
    (refill : (lexer.bufferOf source).refill = .error fault b) :
    Raised fault ⟨[.asked (.ok expected)], b, calls⟩
  /-- Looking for a terminal failed. -/
  | unsought {fault : Fault} {names left : List String} {t t' : Trace} {name : String}
    {spec : TokenSpec} {b : Buffer} (rounds : lexer.Rounds source calls (names ++ name :: left) t)
    (text : t.buffer.text ≠ []) (tried : lexer.Tried t names t')
    (find : lexer.tokens.find? name = some spec) (seek : spec.seek t'.buffer = .error fault b) :
    Raised fault (t'.holding b)
  /-- Making a value for a token that was found failed. If a callback failed, it was called. -/
  | unstored {fault : Fault} {names left : List String} {t t' : Trace} {name : String}
    {spec : TokenSpec} {found : Found} {b : Buffer}
    (rounds : lexer.Rounds source calls (names ++ name :: left) t) (text : t.buffer.text ≠ [])
    (tried : lexer.Tried t names t') (find : lexer.tokens.find? name = some spec)
    (seek : spec.seek t'.buffer = .ok (some found) b)
    (store : spec.encode found.text t'.calls
      = .error fault (t'.calls ++ spec.encoder.callsFor name found.text)) :
    Raised fault ⟨t'.history, b, t'.calls ++ spec.encoder.callsFor name found.text⟩
  /-- Offering a token failed. -/
  | refused {fault : Fault} {names left : List String} {t t' t'' : Trace} {name : String}
    {found : Found} {value : Value} {spec : TokenSpec}
    (rounds : lexer.Rounds source calls (names ++ name :: left) t) (text : t.buffer.text ≠ [])
    (tried : lexer.Tried t names t') (finds : lexer.Finds name found value spec t' t'') :
    Raised fault (t''.noted (.offered name value found.length (.error fault)))
  /-- Completing a position failed. -/
  | uncompleted {fault : Fault} {expected : List String} {t t' : Trace} {done : Nat}
    (rounds : lexer.Rounds source calls expected t) (waited : lexer.Waited expected t done t') :
    Raised fault (t'.noted (.completed (.error fault)))
  /-- The answer to completing a position was none of those that are known. -/
  | misunderstood {expected : List String} {t t' : Trace} {done : Nat} {advance : Advance}
    {label : Plain} (rounds : lexer.Rounds source calls expected t)
    (waited : lexer.Waited expected t done t') (kind : advance.kind = .unknown label) :
    Raised (.unknownAdvance advance.shown) (t'.noted (.completed (.ok advance)))
  /-- Refilling the buffer behind a round failed. -/
  | unfilled {fault : Fault} {expected : List String} {t t' : Trace} {done : Nat}
    {advance : Advance} {b : Buffer} (rounds : lexer.Rounds source calls expected t)
    (waited : lexer.Waited expected t done t') (kind : advance.kind = .nextExpected)
    (refill : (t'.buffer.consume (done + 1 : Nat)).refill = .error fault b) :
    Raised fault ((t'.noted (.completed (.ok advance))).holding b)

/-- **The traces of runs that are under way**, at a point. -/
inductive Told : Point → Trace → Prop
  /-- Before a round. -/
  | head {expected : List String} {t : Trace} (rounds : lexer.Rounds source calls expected t) :
    Told (.head expected) t
  /-- Between two terminals of a round. -/
  | seeking {names left : List String} {t t' : Trace}
    (rounds : lexer.Rounds source calls (names ++ left) t) (text : t.buffer.text ≠ [])
    (tried : lexer.Tried t names t') : Told (.seeking left) t'
  /-- After a terminal that was not found. -/
  | passed {names left : List String} {t t' : Trace}
    (rounds : lexer.Rounds source calls (names ++ left) t) (text : t.buffer.text ≠ [])
    (tried : lexer.Tried t names t') : Told (.sought none left) t'
  /-- Before a token is offered. -/
  | found {names left : List String} {t t' t'' : Trace} {name : String} {found : Found}
    {value : Value} {spec : TokenSpec}
    (rounds : lexer.Rounds source calls (names ++ name :: left) t) (text : t.buffer.text ≠ [])
    (tried : lexer.Tried t names t') (finds : lexer.Finds name found value spec t' t'') :
    Told (.sought (some ⟨name, value, found.length⟩) left) t''
  /-- Before a position is completed. -/
  | completing {expected : List String} {t t' : Trace} {done : Nat}
    (rounds : lexer.Rounds source calls expected t) (waited : lexer.Waited expected t done t') :
    Told (.completing done) t'
  /-- At the end. -/
  | finished {recognition : Recognition} {t : Trace}
    (returned : lexer.Returned source calls recognition t) : Told (.finished recognition) t

end

/-! ## Positions -/

/-- Neither reading nor filtering consumes anything. -/
theorem seek_consumed (spec : TokenSpec) (b : Buffer) :
    (spec.seek b).Meets (fun _ b' => b'.consumed = b.consumed)
      (fun _ b' => b'.consumed = b.consumed) :=
  TokenSpec.seek_keeps (fun _ h => Buffer.grow_leaves h h fun _ _ _ => h) spec rfl

theorem refill_consumed (b : Buffer) :
    (Buffer.refill b).Meets (fun _ b' => b'.consumed = b.consumed)
      (fun _ b' => b'.consumed = b.consumed) :=
  Buffer.refill_keeps (fun _ h => Buffer.grow_leaves h h fun _ _ _ => h) rfl

/-- **What a trace is within a round**: nothing was consumed since its beginning, and so many
positions were completed. -/
structure Within (t : Trace) (done : Nat) (t' : Trace) : Prop where
  /-- Nothing was consumed. -/
  consumed_eq : t'.buffer.consumed = t.buffer.consumed
  /-- So many positions were completed. -/
  completions_eq : t'.history.completions = t.history.completions + done

/-- Going through terminals completes no position. -/
theorem Tried.within {lexer : Lexer} {t t' : Trace} {names : List String}
    (h : lexer.Tried t names t') : Within t 0 t' := by
  induction h with
  | nothing => exact ⟨rfl, rfl⟩
  | unlisted tried find ih => exact ih
  | @missed names t' name spec b tried find seek ih =>
    exact ⟨((seek_consumed spec t'.buffer).of_ok seek).trans ih.consumed_eq, ih.completions_eq⟩
  | @offered names t' t'' name found value spec tried finds ih =>
    refine ⟨((seek_consumed spec t'.buffer).of_ok finds.seek).trans ih.consumed_eq, ?_⟩
    simp [Trace.noted, Exchange.completes, finds.history, ih.completions_eq]

/-- **Positions that are completed one after the other** count one each. -/
theorem Waited.within {lexer : Lexer} {expected : List String} {t t' : Trace} {done : Nat}
    (h : lexer.Waited expected t done t') : Within t done t' := by
  induction h with
  | offered text tried => exact tried.within
  | more waited kind ih =>
    refine ⟨ih.consumed_eq, ?_⟩
    simp [Trace.noted, Exchange.completes, ih.completions_eq, Nat.add_assoc]

/-- **When a round is over as many positions were completed as are to be consumed**, if that was so
where it began. -/
theorem Waited.consumed {lexer : Lexer} {expected : List String} {t t' : Trace} {done : Nat}
    (h : lexer.Waited expected t done t') (hbefore : t.buffer.consumed = t.history.completions)
    (answer : Except Fault Advance) :
    t'.buffer.consumed + (done + 1 : Nat) = (t'.noted (.completed answer)).history.completions := by
  rw [h.within.consumed_eq, hbefore]
  simp [Trace.noted, Exchange.completes, h.within.completions_eq, Int.add_assoc]

/-- What a round that is finished has consumed. -/
theorem RoundFinished.consumed {lexer : Lexer} {completed : Nat} {b b' : Buffer}
    (h : lexer.RoundFinished completed b b') : b'.consumed = b.consumed + completed := by
  rcases h with ⟨-, rfl⟩ | ⟨-, more, hrefill⟩
  · rfl
  · exact (refill_consumed (b.consume completed)).of_ok hrefill

/-- **Between rounds as many characters were consumed as positions were completed.** -/
theorem Rounds.consumed {lexer : Lexer} {source : Source} {calls : List Call}
    {expected : List String} {t : Trace} (h : lexer.Rounds source calls expected t) :
    t.buffer.consumed = t.history.completions := by
  induction h with
  | begun nonempty refill => exact (refill_consumed (lexer.bufferOf source)).of_ok refill
  | next rounds waited kind finished ih => exact finished.consumed.trans (waited.consumed ih _)

/-! ## Runs follow the protocol -/

section

variable {ρ : Type} {lexer : Lexer} {recognizer : Recognizer Value ρ} {source : Source}
  {calls : List Call} {r r' : Run (Recorded Value ρ)}

/-- A run that has done nothing that can be told of. -/
theorem ofRun_eq (hbuffer : r'.buffer = r.buffer) (hcalls : r'.scan.calls = r.scan.calls)
    (hstate : r'.recognizer = r.recognizer) : Trace.ofRun r' = .ofRun r := by
  unfold Trace.ofRun
  rw [hbuffer, hcalls, hstate]

/-- A run that has done nothing but looked for something. -/
theorem ofRun_holding (hcalls : r'.scan.calls = r.scan.calls)
    (hstate : r'.recognizer = r.recognizer) :
    Trace.ofRun r' = (Trace.ofRun r).holding r'.buffer := by
  unfold Trace.ofRun Trace.holding
  rw [hcalls, hstate]

/-- A run that has exchanged something with the recognizer. -/
theorem ofRun_noted {state : Recorded Value ρ} {exchange : Exchange Value}
    (hhistory : state.history = r.recognizer.history ++ [exchange]) :
    Trace.ofRun { r with recognizer := state } = (Trace.ofRun r).noted exchange := by
  unfold Trace.ofRun Trace.noted
  rw [hhistory]
  rfl

/-- A run that has completed a position. -/
theorem ofRun_completed {advance : Advance}
    (hcomplete : recognizer.recorded.completePosition r.recognizer = .ok advance r'.recognizer)
    (hcalls : r'.scan.calls = r.scan.calls) :
    Trace.ofRun r' = ((Trace.ofRun r).noted (.completed (.ok advance))).holding r'.buffer := by
  unfold Trace.ofRun Trace.noted Trace.holding
  rw [Recorded.history_of_complete hcomplete, hcalls]

/-- **Every move goes on with the protocol.** -/
theorem told_of_moved {point point' : Point} (h : lexer.Told source calls point (.ofRun r))
    (hmove : Moved lexer recognizer.recorded point r point' r') :
    lexer.Told source calls point' (.ofRun r') := by
  cases hmove with
  | ended text =>
    cases h with
    | head rounds =>
      have hended := Returned.ended rounds text
      rw [← rounds.consumed] at hended
      exact .finished hended
  | opened text buffer calls state =>
    cases h with
    | head rounds =>
      rw [ofRun_eq buffer calls state]
      refine .seeking ?_ text .nothing
      exact rounds
  | closed =>
    cases h with
    | seeking rounds text tried =>
      rw [List.append_nil] at rounds
      exact .completing rounds (.offered text tried)
  | unlisted find buffer calls state =>
    cases h with
    | seeking rounds text tried =>
      rw [ofRun_eq buffer calls state]
      rw [List.append_cons] at rounds
      exact .passed rounds text (.unlisted tried find)
  | missed find seek calls state =>
    cases h with
    | seeking rounds text tried =>
      rw [ofRun_holding calls state]
      rw [List.append_cons] at rounds
      exact .passed rounds text (.missed tried find seek)
  | @found name left _ _ spec found value find seek store state =>
    cases h with
    | seeking rounds text tried =>
      obtain ⟨hencode, hcalls⟩ := TokenTable.encode_calls find found.text r.scan.calls
      rw [hencode] at store
      exact .found rounds text tried
        ⟨find, seek, store, hcalls.of_ok store, congrArg Recorded.history state⟩
  | passed =>
    cases h with
    | passed rounds text tried => exact .seeking rounds text tried
  | offered take =>
    cases h with
    | found rounds text tried finds =>
      rw [ofRun_noted (Recorded.history_of_take take)]
      rw [List.append_cons] at rounds
      exact .seeking rounds text (.offered tried finds)
  | more complete kind =>
    cases h with
    | completing rounds waited =>
      rw [ofRun_noted (Recorded.history_of_complete complete)]
      exact .completing rounds (.more waited kind)
  | next complete kind buffer calls =>
    cases h with
    | completing rounds waited =>
      rw [ofRun_completed complete calls]
      exact .head (.next rounds waited kind buffer)
  | exhausted complete kind buffer calls =>
    cases h with
    | completing rounds waited =>
      have hreturned := Returned.exhausted rounds waited kind
      rw [← waited.consumed rounds.consumed] at hreturned
      rw [ofRun_completed complete calls, buffer]
      exact .finished hreturned
  | failed complete kind buffer calls =>
    cases h with
    | completing rounds waited =>
      have hreturned := Returned.failed rounds waited kind
      rw [← rounds.consumed, ← waited.within.consumed_eq] at hreturned
      rw [ofRun_completed complete calls, buffer]
      exact .finished hreturned
  | stayed =>
    cases h with
    | finished returned => exact .finished returned

/-- **Every fault breaks off at a point of the protocol.** -/
theorem raised_of_stopped {point : Point} {fault : Fault}
    (h : lexer.Told source calls point (.ofRun r))
    (hstop : Stopped lexer recognizer.recorded point r fault r') :
    lexer.Raised source calls fault (.ofRun r') := by
  cases hstop with
  | unsought find seek calls state =>
    cases h with
    | seeking rounds text tried =>
      rw [ofRun_holding calls state]
      exact .unsought rounds text tried find seek
  | @unstored name left _ _ spec found _ find seek store state =>
    cases h with
    | seeking rounds text tried =>
      obtain ⟨hencode, hcalls⟩ := TokenTable.encode_calls find found.text r.scan.calls
      rw [hencode] at store
      have hcalls := hcalls.of_error store
      rw [hcalls] at store
      have hheld : Trace.ofRun r' = ⟨(Trace.ofRun r).history, r'.buffer,
          (Trace.ofRun r).calls ++ spec.encoder.callsFor name found.text⟩ := by
        unfold Trace.ofRun
        rw [hcalls, state]
      rw [hheld]
      exact .unstored rounds text tried find seek store
  | refused take =>
    cases h with
    | found rounds text tried finds =>
      rw [ofRun_noted (Recorded.history_of_take_error take)]
      exact .refused rounds text tried finds
  | uncompleted complete =>
    cases h with
    | completing rounds waited =>
      rw [ofRun_noted (Recorded.history_of_complete_error complete)]
      exact .uncompleted rounds waited
  | misunderstood complete kind =>
    cases h with
    | completing rounds waited =>
      rw [ofRun_noted (Recorded.history_of_complete complete)]
      exact .misunderstood rounds waited kind
  | unfilled complete kind refill calls =>
    cases h with
    | completing rounds waited =>
      rw [ofRun_completed complete calls]
      exact .unfilled rounds waited kind refill

/-- **A run begins with the protocol.** -/
theorem told_of_begin (state : ρ) :
    (begin recognizer.recorded (lexer.run source (.fresh state) calls)).Meets
      (fun progress r => lexer.Told source calls (.ofProgress progress) (.ofRun r))
      (fun fault r => lexer.Raised source calls fault (.ofRun r)) := by
  refine begin_meets (fun r hexpect hbuffer hcalls => ?_)
    (fun expected more r hne hexpect hrefill hcalls => ?_) (fun fault r hexpect hscan => ?_)
    fun expected fault r hne hexpect hrefill hcalls => ?_
  · have htrace : Trace.ofRun r = ⟨[.asked (.ok [])], lexer.bufferOf source, calls⟩ :=
      Trace.ext (Recorded.history_of_expect hexpect) hbuffer hcalls
    rw [htrace]
    exact .finished .idle
  · have htrace : Trace.ofRun r = ⟨[.asked (.ok expected)], r.buffer, calls⟩ :=
      Trace.ext (Recorded.history_of_expect hexpect) rfl hcalls
    rw [htrace]
    exact .head (.begun hne hrefill)
  · have htrace : Trace.ofRun r = ⟨[.asked (.error fault)], lexer.bufferOf source, calls⟩ :=
      Trace.ext (Recorded.history_of_expect_error hexpect) (congrArg Scan.buffer hscan)
        (congrArg Scan.calls hscan)
    rw [htrace]
    exact .unasked
  · have htrace : Trace.ofRun r = ⟨[.asked (.ok expected)], r.buffer, calls⟩ :=
      Trace.ext (Recorded.history_of_expect hexpect) rfl hcalls
    rw [htrace]
    exact .unopened hne hrefill

/-- **Runs follow the protocol**, whatever the recognizer, the tokens, the source, the filter and
the callbacks do:

* a run that keeps its history comes to the same as one that does not, with the same state of the
  recognizer, the same buffer and the same calls of callbacks;
* at every moment it has done a part of the protocol, and so has a run that never ends;
* a run with a result has done all of it, and reports the position that follows from it: the number
  of positions completed, or of those completed before the last round if that failed;
* a run that stops with a fault has broken off at a point of the protocol. -/
theorem recognize_follows_protocol (lexer : Lexer) (recognizer : Recognizer Value ρ)
    (source : Source) (state : ρ) (calls : List Call) :
    (∀ limit, (lexer.recognize recognizer.recorded limit
        (lexer.run source (.fresh state) calls)).Agrees
        (fun _ => Run.Alike Eq fun recorded bare => recorded.state = bare)
        (Run.Alike Eq fun recorded bare => recorded.state = bare)
        (lexer.recognize recognizer limit (lexer.run source state calls)))
      ∧ (∀ count, (lexer.after recognizer.recorded count
          (lexer.run source (.fresh state) calls)).Meets
        (fun point r => lexer.Told source calls point (.ofRun r))
        (fun fault r => lexer.Raised source calls fault (.ofRun r)))
      ∧ ∀ limit, (lexer.recognize recognizer.recorded limit
          (lexer.run source (.fresh state) calls)).Meets
        (fun answer r => match answer with
          | some recognition => lexer.Returned source calls recognition (.ofRun r)
          | none => ∃ point, lexer.Told source calls point (.ofRun r))
        (fun fault r => lexer.Raised source calls fault (.ofRun r)) := by
  have hmove : ∀ point r, lexer.Told source calls point (.ofRun r) →
      (lexer.move recognizer.recorded point r).Meets
        (fun point' r' => lexer.Told source calls point' (.ofRun r'))
        (fun fault r' => lexer.Raised source calls fault (.ofRun r')) :=
    fun point r h => move_meets (fun _ _ hmoved => told_of_moved h hmoved)
      fun _ _ hstopped => raised_of_stopped h hstopped
  refine ⟨fun limit => recognize_recorded lexer recognizer limit source state calls,
    fun count => after_meets (told_of_begin state) hmove count, fun limit => ?_⟩
  refine (recognize_meets (told_of_begin state) hmove limit).mono ?_ fun _ _ h => h
  rintro answer r ⟨point, rfl, h⟩
  cases h with
  | finished returned => exact returned
  | head rounds => exact ⟨_, .head rounds⟩
  | seeking rounds text tried => exact ⟨_, .seeking rounds text tried⟩
  | passed rounds text tried => exact ⟨_, .passed rounds text tried⟩
  | found rounds text tried finds => exact ⟨_, .found rounds text tried finds⟩
  | completing rounds waited => exact ⟨_, .completing rounds waited⟩

end

end Lexer

end AmbiLex
