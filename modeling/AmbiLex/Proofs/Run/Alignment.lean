import AmbiLex.Proofs.Run.Akin
import AmbiLex.Proofs.Run.Faithful
import AmbiLex.Proofs.Token.Seeking

/-!
# Positions and characters stay together

A lexer counts characters, and a recognizer counts positions. Nothing compares the two: consuming
what a round has completed neither looks whether the buffer holds as much nor whether the
recognizer is where the lexer takes it to be. They stay together nevertheless, as long as the
recognizer is a *faithful* one, which asks for one more position only if a token it was offered
ends further ahead.

The reason is a bound. No token that was ever offered ends behind the text that was delivered so
far, because it was a beginning of the buffer when it was found. So a position that a faithful
recognizer asks for lies within that text, however the text was cut into chunks, and so does
everything that is consumed. `Aligned` is this invariant, `AlignedAt` says what it comes to at each
point of a run, and `alignedAt_after` proves it for all moments of all runs.
-/

namespace AmbiLex

variable {ρ : Type}

/-- **An aligned run**: the buffer is in step with its source, and so many positions ahead of what
was consumed stands the recognizer, within the text that was delivered. Nothing that was offered
ends behind that text. -/
structure Aligned (r : Run (Recorded Value ρ)) (done : Nat) : Prop where
  /-- The buffer holds what was delivered and not consumed. -/
  inStep : r.buffer.InStep
  /-- The characters consumed and the positions completed since are the positions completed. -/
  position_eq : r.buffer.consumed + done = r.recognizer.history.completions
  /-- The recognizer stands within the text that was delivered, or at its end. -/
  position_le : r.recognizer.history.completions ≤ r.buffer.delivered.length
  /-- No token that was offered ends behind that text. -/
  within : ¬ r.recognizer.history.ReachesBeyond r.buffer.delivered.length

namespace Aligned

variable {r r' : Run (Recorded Value ρ)} {done : Nat}

/-- **An aligned run stays aligned when its buffer grows.** -/
theorem grown (h : Aligned r done) (hgrown : Buffer.Grown r.buffer r'.buffer)
    (hsame : r'.recognizer = r.recognizer) : Aligned r' done := by
  have hle := hgrown.length_delivered_le
  refine ⟨h.inStep.grown hgrown, ?_, ?_, ?_⟩
  · rw [hgrown.consumed_eq, hsame]
    exact h.position_eq
  · rw [hsame]
    exact Nat.le_trans h.position_le hle
  · rw [hsame]
    exact fun hreach => h.within (hreach.mono hle)

/-- An aligned run whose buffer and recognizer are the same is aligned. -/
theorem congr (h : Aligned r done) (hbuffer : r'.buffer = r.buffer)
    (hsame : r'.recognizer = r.recognizer) : Aligned r' done :=
  h.grown (by rw [hbuffer]; exact Buffer.Grown.refl r.buffer) hsame

/-- What is held is behind the recognizer's position if nothing was completed. -/
theorem length_text (h : Aligned r 0) :
    r.recognizer.history.completions + r.buffer.text.length = r.buffer.delivered.length := by
  have hlen := h.inStep.length_text
  have hpos := h.position_eq
  omega

theorem position_lt (h : Aligned r 0) (hne : r.buffer.text ≠ []) :
    r.recognizer.history.completions < r.buffer.delivered.length := by
  have hlen := h.length_text
  have := List.length_pos_iff.mpr hne
  omega

end Aligned

/-- **An offer that fits the input**: its token has a length, it ends within the text that was
delivered, and its value was made of the characters at the recognizer's position. -/
structure Offer.Fits (lexer : Lexer) (r : Run (Recorded Value ρ)) (offer : Offer) : Prop where
  /-- The token has a length. -/
  pos : 1 ≤ offer.length
  /-- The token ends within the text that was delivered. -/
  le : r.recognizer.history.completions + offer.length ≤ r.buffer.delivered.length
  /-- The value was made by the token of that name of the characters delivered there. -/
  value_eq : ∃ calls, lexer.tokens.encode offer.name
    ((r.buffer.delivered.drop r.recognizer.history.completions).take offer.length) calls
      = .ok offer.value r.scan.calls

/-- **An exchange that fits the input** where so many positions were completed: if a token was
offered, it has a length, it ends within the text that was delivered, and its value was made of the
characters at that position. -/
def Exchange.Fits (table : TokenTable) (delivered : List Char) (position : Nat) :
    Exchange Value → Prop
  | offered name value length _ => ∃ count : Nat, length = count ∧ 1 ≤ count
      ∧ position + count ≤ delivered.length
      ∧ ∃ calls calls', table.encode name ((delivered.drop position).take count) calls
        = .ok value calls'
  | _ => True

/-- **A history that fits the input**: each exchange fits where it took place. -/
def History.Fits (table : TokenTable) (delivered : List Char) (history : History Value) : Prop :=
  ∀ (before : History Value) (exchange : Exchange Value) (after : History Value),
    history = before ++ exchange :: after → exchange.Fits table delivered before.completions

namespace History.Fits

variable {table : TokenTable} {delivered : List Char} {history : History Value}

theorem nil : History.Fits table delivered [] := by
  intro before exchange after hsplit
  cases before <;> cases hsplit

/-- **What fits the input fits it still when more is delivered.** -/
theorem grown (h : history.Fits table delivered) (more : List Char) :
    history.Fits table (delivered ++ more) := by
  intro before exchange after hsplit
  have hfits := h before exchange after hsplit
  cases exchange with
  | asked answer | completed answer | exhausted answer => trivial
  | offered name value length answer =>
    obtain ⟨count, hlength, hpos, hle, hencode⟩ := hfits
    refine ⟨count, hlength, hpos, ?_, ?_⟩
    · rw [List.length_append]
      omega
    · -- the characters of the token were there before
      rw [List.drop_append_of_le_length (by omega),
        List.take_append_of_le_length (by rw [List.length_drop]; omega)]
      exact hencode

/-- A history that fits the input goes on with an exchange that fits it. -/
theorem snoc (h : history.Fits table delivered) {last : Exchange Value}
    (hlast : last.Fits table delivered history.completions) :
    History.Fits table delivered (history ++ [last]) := by
  intro before exchange after hsplit
  rcases History.snoc_eq_append_cons hsplit with ⟨rfl, rfl⟩ | ⟨after', h'⟩
  · exact hlast
  · exact h before exchange after' h'

end History.Fits

/-- **What alignment comes to at a point of a run.** -/
def AlignedAt (lexer : Lexer) (r : Run (Recorded Value ρ)) : Point → Prop
  | .head _ => Aligned r 0
  | .seeking _ => Aligned r 0 ∧ r.buffer.text ≠ []
  | .sought offer _ => Aligned r 0 ∧ r.buffer.text ≠ [] ∧ ∀ o, offer = some o → o.Fits lexer r
  | .completing done =>
    Aligned r done ∧ r.recognizer.history.completions < r.buffer.delivered.length
  | .finished recognition => r.buffer.InStep ∧ recognition.position = r.buffer.consumed

/-- The buffer of an aligned run has no filter. -/
theorem AlignedAt.unfiltered {lexer : Lexer} {point : Point} {r : Run (Recorded Value ρ)}
    (h : AlignedAt lexer r point) : r.buffer.filter = none := by
  cases point with
  | head expected => exact h.inStep.unfiltered
  | seeking left => exact h.1.inStep.unfiltered
  | sought offer left => exact h.1.inStep.unfiltered
  | completing done => exact h.1.inStep.unfiltered
  | finished recognition => exact h.1.unfiltered

namespace Aligned

variable {r : Run (Recorded Value ρ)} {done : Nat} {recognizer : Recognizer Value ρ}

/-- **A run is aligned before it begins.** -/
theorem start (lexer : Lexer) (hfilter : lexer.filter = none) (source : Source) (state : ρ)
    (calls : List Call) :
    Aligned (lexer.run source (Recorded.fresh (ν := Value) state) calls) 0 := by
  refine ⟨?_, rfl, Nat.zero_le _, History.not_reachesBeyond_nil _⟩
  show (Buffer.start source lexer.minBuffer lexer.filter).InStep
  rw [hfilter]
  exact Buffer.InStep.start source lexer.minBuffer

/-- **One more exchange keeps a run aligned** if what it offers ends within the text that was
delivered, and the position is still there. -/
theorem noted (h : Aligned r done) {exchange : Exchange Value} {state : Recorded Value ρ}
    (hhistory : state.history = r.recognizer.history ++ [exchange])
    (hends : ¬ exchange.EndsBeyond r.recognizer.history.completions r.buffer.delivered.length)
    (hle : r.recognizer.history.completions + (if exchange.completes then 1 else 0)
      ≤ r.buffer.delivered.length) :
    Aligned { r with recognizer := state } (done + if exchange.completes then 1 else 0) := by
  have hcount : state.history.completions
      = r.recognizer.history.completions + if exchange.completes then 1 else 0 := by
    rw [hhistory, History.completions_append, History.completions_singleton]
  refine ⟨h.inStep, ?_, ?_, ?_⟩
  · show r.buffer.consumed + _ = (state.history.completions : Int)
    rw [hcount, Int.natCast_add, Int.natCast_add, ← Int.add_assoc, h.position_eq]
  · show state.history.completions ≤ r.buffer.delivered.length
    rw [hcount]
    exact hle
  · show ¬ state.history.ReachesBeyond r.buffer.delivered.length
    rw [hhistory, History.reachesBeyond_snoc]
    rintro (hreach | hbeyond)
    · exact h.within hreach
    · exact hends hbeyond

/-- **Completing a position** moves the recognizer ahead by one, and reaches no further. -/
theorem completed (h : Aligned r done)
    (hlt : r.recognizer.history.completions < r.buffer.delivered.length) {advance : Advance}
    {state : Recorded Value ρ}
    (hcomplete : recognizer.recorded.completePosition r.recognizer = .ok advance state) :
    Aligned { r with recognizer := state } (done + 1) :=
  h.noted (Recorded.history_of_complete hcomplete) id hlt

/-- **A faithful recognizer that asks for one more position** has it within the text that was
delivered. -/
theorem position_lt_of_more (h : Aligned r done) {advance : Advance} {state : Recorded Value ρ}
    (hcomplete : recognizer.recorded.completePosition r.recognizer = .ok advance state)
    (hkind : advance.kind = .moreNeeded) (hgrounded : state.history.Grounded) :
    state.history.completions < r.buffer.delivered.length := by
  have hhistory := Recorded.history_of_complete hcomplete
  rw [hhistory] at hgrounded ⊢
  have hreach := hgrounded.last hkind
  rw [History.completions_append, History.completions_singleton]
  refine Nat.lt_of_not_le fun hle => h.within (hreach.mono ?_)
  exact hle

/-- **Consuming what was completed** leaves nothing completed and not consumed. -/
theorem consumed (h : Aligned r done) : (r.buffer.consume done).InStep
    ∧ (r.buffer.consume done).delivered = r.buffer.delivered
    ∧ (r.buffer.consume done).consumed = r.recognizer.history.completions := by
  have hlen := h.inStep.length_text
  have hpos := h.position_eq
  have hle := h.position_le
  refine ⟨h.inStep.consume (by omega), rfl, ?_⟩
  exact hpos

/-- **A token that was found fits the input.** -/
theorem fits (h : Aligned r 0) {lexer : Lexer} {found : Found} {name : String} {value : Value}
    {calls : List Call} (hne : found.text ≠ []) (hbeginning : found.text <+: r.buffer.text)
    (hencode : lexer.tokens.encode name found.text calls = .ok value r.scan.calls) :
    Offer.Fits lexer r ⟨name, value, found.length⟩ := by
  have hlen := h.length_text
  have hpos := h.position_eq
  have htext : r.buffer.delivered.drop r.recognizer.history.completions = r.buffer.text := by
    rw [h.inStep.text_eq]
    exact congrArg (List.drop · r.buffer.delivered) (by omega)
  refine ⟨List.length_pos_iff.mpr hne, ?_, calls, ?_⟩
  · have := hbeginning.length_le
    show _ + found.text.length ≤ _
    omega
  · show lexer.tokens.encode name (List.take found.text.length _) calls = _
    rw [htext, ← List.prefix_iff_eq_take.mp hbeginning]
    exact hencode

/-- **Offering a token that fits** keeps a run aligned. -/
theorem offered (h : Aligned r 0) {lexer : Lexer} {offer : Offer} (hfits : offer.Fits lexer r)
    {state : Recorded Value ρ}
    (htake : recognizer.recorded.alternative offer.name offer.value offer.length r.recognizer
      = .ok () state) :
    Aligned { r with recognizer := state } 0 := by
  have hle := hfits.le
  refine h.noted (Recorded.history_of_take htake) (fun hends => ?_) h.position_le
  change (r.buffer.delivered.length : Int) < _ + (offer.length : Int) at hends
  omega

end Aligned

namespace Lexer

variable {lexer : Lexer} {recognizer : Recognizer Value ρ}

/-- A round that is finished leaves a buffer that has grown after consuming. -/
theorem RoundFinished.grown {completed : Nat} {b b' : Buffer} (hf : b.filter = none)
    (h : lexer.RoundFinished completed b b') : Buffer.Grown (b.consume completed) b' := by
  rcases h with ⟨-, rfl⟩ | ⟨-, more, hrefill⟩
  · exact Buffer.Grown.refl _
  · exact (Buffer.refill_grown (b := b.consume completed) hf).of_ok hrefill

/-- What was found by looking in a buffer without a filter. -/
theorem grown_of_seek {spec : TokenSpec} (hu : spec.Usable) {b b' : Buffer} (hf : b.filter = none)
    {found : Option Found} (hseek : spec.seek b = .ok found b') :
    Buffer.Grown b b' ∧ ∀ token, found = some token → token.text ≠ [] ∧ token.text <+: b'.text := by
  obtain ⟨hgrown, hfound⟩ := (TokenSpec.seek_grown hu hf).of_ok hseek
  exact ⟨hgrown, fun token htoken => (hfound token htoken).2⟩

/-- **A move takes nothing back of what was delivered.** -/
theorem delivered_move (husable : ∀ spec ∈ lexer.tokens, spec.Usable) {point point' : Point}
    {r r' : Run ρ} {recognizer : Recognizer Value ρ}
    (hmove : Moved lexer recognizer point r point' r') (hf : r.buffer.filter = none) :
    ∃ more, r'.buffer.delivered = r.buffer.delivered ++ more := by
  have hsame : r'.buffer = r.buffer → ∃ more, r'.buffer.delivered = r.buffer.delivered ++ more := by
    intro hbuffer
    refine ⟨[], ?_⟩
    rw [hbuffer, List.append_nil]
  have hgrown : ∀ {b : Buffer}, Buffer.Grown b r'.buffer → b.delivered = r.buffer.delivered →
      ∃ more, r'.buffer.delivered = r.buffer.delivered ++ more := by
    intro b hgrown hb
    obtain ⟨more, -, hdelivered⟩ := hgrown.added
    rw [hb] at hdelivered
    exact ⟨more, hdelivered⟩
  cases hmove with
  | ended text => exact hsame rfl
  | opened text buffer calls state => exact hsame buffer
  | closed => exact hsame rfl
  | unlisted find buffer calls state => exact hsame buffer
  | missed find seek calls state =>
    exact hgrown (grown_of_seek (husable _ (TokenTable.of_find?_eq_some find).1) hf seek).1 rfl
  | found find seek store state =>
    exact hgrown (grown_of_seek (husable _ (TokenTable.of_find?_eq_some find).1) hf seek).1 rfl
  | passed => exact hsame rfl
  | offered take => exact hsame rfl
  | more complete kind => exact hsame rfl
  | next complete kind buffer calls => exact hgrown (RoundFinished.grown hf buffer) rfl
  | exhausted complete kind buffer calls =>
    refine ⟨[], ?_⟩
    rw [buffer, List.append_nil]
    rfl
  | failed complete kind buffer calls => exact hsame buffer
  | stayed => exact hsame rfl

/-- **A move keeps a run aligned**, if the recognizer was faithful so far. -/
theorem alignedAt_move (husable : ∀ spec ∈ lexer.tokens, spec.Usable) {point point' : Point}
    {r r' : Run (Recorded Value ρ)} (hmove : Moved lexer recognizer.recorded point r point' r')
    (hgrounded : r'.recognizer.history.Grounded) (h : AlignedAt lexer r point) :
    AlignedAt lexer r' point' := by
  cases hmove with
  | ended text => exact ⟨h.inStep, rfl⟩
  | opened text buffer calls state =>
    exact ⟨h.congr buffer state, by rw [buffer]; exact text⟩
  | closed => exact ⟨h.1, h.1.position_lt h.2⟩
  | unlisted find buffer calls state =>
    refine ⟨h.1.congr buffer state, by rw [buffer]; exact h.2, ?_⟩
    rintro o ⟨⟩
  | missed find seek calls state =>
    obtain ⟨hgrown, -⟩ := grown_of_seek (husable _ (TokenTable.of_find?_eq_some find).1)
      h.1.inStep.unfiltered seek
    refine ⟨h.1.grown hgrown state, fun hnil => ?_, ?_⟩
    · exact h.2 (List.eq_nil_of_prefix_nil (hnil ▸ hgrown.isPrefix))
    · rintro o ⟨⟩
  | found find seek store state =>
    obtain ⟨hgrown, hfound⟩ := grown_of_seek (husable _ (TokenTable.of_find?_eq_some find).1)
      h.1.inStep.unfiltered seek
    have haligned := h.1.grown hgrown state
    obtain ⟨hne, hbeginning⟩ := hfound _ rfl
    refine ⟨haligned, fun hnil => ?_, ?_⟩
    · exact h.2 (List.eq_nil_of_prefix_nil (hnil ▸ hgrown.isPrefix))
    · rintro o ⟨⟩
      exact haligned.fits hne hbeginning store
  | passed => exact ⟨h.1, h.2.1⟩
  | offered take => exact ⟨h.1.offered (h.2.2 _ rfl) take, h.2.1⟩
  | more complete kind =>
    -- this is where the recognizer is relied on
    exact ⟨h.1.completed h.2 complete, h.1.position_lt_of_more complete kind hgrounded⟩
  | next complete kind buffer calls =>
    have hcompleted := h.1.completed h.2 complete
    -- first the completed characters are consumed, and then the buffer may grow
    obtain ⟨hstep, hdelivered, hconsumed⟩ := hcompleted.consumed
    have hbase : Aligned ⟨{ r.scan with buffer := r.buffer.consume _ }, r'.recognizer⟩ 0 :=
      ⟨hstep, by rw [Int.natCast_zero, Int.add_zero]; exact hconsumed, hcompleted.position_le,
        hcompleted.within⟩
    exact hbase.grown (RoundFinished.grown h.1.inStep.unfiltered buffer) rfl
  | exhausted complete kind buffer calls =>
    have hcompleted := h.1.completed h.2 complete
    refine ⟨?_, rfl⟩
    rw [buffer]
    exact hcompleted.consumed.1
  | failed complete kind buffer calls =>
    refine ⟨?_, rfl⟩
    rw [buffer]
    exact h.1.inStep
  | stayed => exact h

/-- **A run is aligned at every moment** if the recognizer is faithful in it. -/
theorem alignedAt_after (husable : ∀ spec ∈ lexer.tokens, spec.Usable)
    (hfilter : lexer.filter = none) {source : Source} {state : ρ} {calls : List Call}
    (hfaithful : lexer.Faithful recognizer (lexer.run source (.fresh state) calls)) :
    ∀ count point r, lexer.after recognizer.recorded count
      (lexer.run source (.fresh state) calls) = .ok point r → AlignedAt lexer r point := by
  refine after_induction ?_ ?_
  · intro progress r hbegin
    obtain ⟨expected, hexpect, -, hcases⟩ := begin_eq_ok hbegin
    have hstart := Aligned.start lexer hfilter source state calls
    rcases hcases with ⟨-, rfl, hbuffer⟩ | ⟨-, rfl, more, hrefill⟩
    · refine ⟨?_, ?_⟩ <;> rw [hbuffer]
      · exact hstart.inStep
      · rfl
    · have hgrown := (Buffer.refill_grown hstart.inStep.unfiltered).of_ok hrefill
      exact (hstart.noted (Recorded.history_of_expect hexpect) id (Nat.zero_le _)).grown hgrown rfl
  · intro count point r point' r' hafter hnext hmove h
    exact alignedAt_move husable (moved_of_move hmove) (hfaithful (count + 1) point' r' hnext) h

/-- **A move that is made from an aligned run keeps the history fitting the input.** -/
theorem fits_move (husable : ∀ spec ∈ lexer.tokens, spec.Usable) {point point' : Point}
    {r r' : Run (Recorded Value ρ)} (hmove : Moved lexer recognizer.recorded point r point' r')
    (haligned : AlignedAt lexer r point)
    (h : r.recognizer.history.Fits lexer.tokens r.buffer.delivered) :
    r'.recognizer.history.Fits lexer.tokens r'.buffer.delivered := by
  obtain ⟨more, hdelivered⟩ := delivered_move husable hmove haligned.unfiltered
  rw [hdelivered]
  refine History.Fits.grown ?_ more
  -- a completed position is noted, whatever is said about the next one
  have hcompleted : ∀ {advance : Advance} {state : Recorded Value ρ},
      recognizer.recorded.completePosition r.recognizer = .ok advance state →
      state.history.Fits lexer.tokens r.buffer.delivered := by
    intro advance state hcomplete
    rw [Recorded.history_of_complete hcomplete]
    exact h.snoc trivial
  cases hmove with
  | ended text => exact h
  | opened text buffer calls state =>
    rw [state]
    exact h
  | closed => exact h
  | unlisted find buffer calls state =>
    rw [state]
    exact h
  | missed find seek calls state =>
    rw [state]
    exact h
  | found find seek store state =>
    rw [state]
    exact h
  | passed => exact h
  | @offered offer _ _ state take =>
    obtain ⟨calls, hencode⟩ := (haligned.2.2 _ rfl).value_eq
    show state.history.Fits lexer.tokens r.buffer.delivered
    rw [Recorded.history_of_take take]
    exact h.snoc ⟨offer.length, rfl, (haligned.2.2 _ rfl).pos, (haligned.2.2 _ rfl).le, calls, _,
      hencode⟩
  | more complete kind => exact hcompleted complete
  | next complete kind buffer calls => exact hcompleted complete
  | exhausted complete kind buffer calls => exact hcompleted complete
  | failed complete kind buffer calls => exact hcompleted complete
  | stayed => exact h

/-- **The history fits the input at every moment of a run** if the recognizer is faithful in it. -/
theorem fits_after (husable : ∀ spec ∈ lexer.tokens, spec.Usable) (hfilter : lexer.filter = none)
    {source : Source} {state : ρ} {calls : List Call}
    (hfaithful : lexer.Faithful recognizer (lexer.run source (.fresh state) calls)) :
    ∀ count point r, lexer.after recognizer.recorded count
      (lexer.run source (.fresh state) calls) = .ok point r →
        r.recognizer.history.Fits lexer.tokens r.buffer.delivered := by
  have haligned := alignedAt_after husable hfilter hfaithful
  refine after_induction ?_ ?_
  · intro progress r hbegin
    obtain ⟨expected, hexpect, -⟩ := begin_eq_ok hbegin
    rw [Recorded.history_of_expect hexpect]
    exact History.Fits.nil.snoc trivial
  · intro count point r point' r' hafter _ hmove h
    exact fits_move husable (moved_of_move hmove) (haligned count point r hafter) h

/-- **What is offered and what is reported agree with the input**, however it was delivered. With
compiled tokens, without a filter and with a faithful recognizer:

* every token that was offered has a length, ends within the text that was delivered, and its value
  was made of the characters at the position that had been reached by completing positions;
* the same holds of a token that is about to be offered, with the text delivered by then;
* where a round begins, and where the run is over, the buffer holds what was delivered and not
  consumed;
* the position of a result is the number of characters consumed, and no more than were delivered. -/
theorem offers_and_positions_agree {definitions : List (String × Setting)} {store : Setting}
    (hcompile : TokenTable.compile definitions store = .ok lexer.tokens)
    (hfilter : lexer.filter = none) {source : Source} {state : ρ} {calls : List Call}
    (hfaithful : lexer.Faithful recognizer (lexer.run source (.fresh state) calls)) :
    (∀ count point r, lexer.after recognizer.recorded count
        (lexer.run source (.fresh state) calls) = .ok point r →
      r.recognizer.history.Fits lexer.tokens r.buffer.delivered
        ∧ (∀ offer left, point = .sought (some offer) left → offer.Fits lexer r)
        ∧ (∀ expected, point = .head expected → r.buffer.InStep)
        ∧ ∀ recognition, point = .finished recognition →
          r.buffer.InStep ∧ recognition.position = r.buffer.consumed)
      ∧ ∀ limit recognition r, lexer.recognize recognizer limit (lexer.run source state calls)
          = .ok (some recognition) r →
        r.buffer.InStep ∧ recognition.position = r.buffer.consumed
          ∧ recognition.position ≤ r.buffer.delivered.length := by
  have haligned := alignedAt_after (TokenTable.usable_of_compile hcompile) hfilter hfaithful
  have hfits := fits_after (TokenTable.usable_of_compile hcompile) hfilter hfaithful
  refine ⟨fun count point r hafter => ?_, fun limit recognition r hresult => ?_⟩
  · have h := haligned count point r hafter
    refine ⟨hfits count point r hafter, ?_, ?_, ?_⟩
    · rintro offer left rfl
      exact h.2.2 offer rfl
    · rintro expected rfl
      exact h.inStep
    · rintro recognition rfl
      exact h
  · -- the run that keeps its history comes to the same, and is over after some moves
    have hrecorded := recognize_recorded lexer recognizer limit source state calls
    rw [hresult] at hrecorded
    cases hrun : lexer.recognize recognizer.recorded limit
        (lexer.run source (.fresh state) calls) with
    | error fault r' =>
      rw [hrun] at hrecorded
      exact hrecorded.elim
    | ok answer r' =>
      rw [hrun] at hrecorded
      obtain ⟨rfl, hscan, -⟩ := hrecorded
      obtain ⟨count, hfinished⟩ := recognize_finished hrun
      obtain ⟨hstep, hposition⟩ := haligned count _ r' hfinished
      rw [show r.buffer = r'.buffer from (congrArg Scan.buffer hscan).symm]
      refine ⟨hstep, hposition, ?_⟩
      rw [hposition]
      exact hstep.consumed_le

end Lexer

/-! ## Words and a keyword -/

namespace Keyword

/-- A small letter, and as many as follow. -/
def letters : Pattern where
  source := "[a-z]+"
  flags := {}
  matchLength := fun text =>
    if (text.takeWhile Char.isLower).isEmpty then none else (text.takeWhile Char.isLower).length
  matchLength_le := by
    intro text n h
    split at h
    · cases h
    · cases h
      exact (List.takeWhile_prefix Char.isLower).length_le

/-- The tokens of words, blanks and a keyword, which is a word too. -/
def definitions : List (String × Setting) :=
  [("if", .plain (.text "if")), ("word", .pattern letters), ("blank", .plain (.text " "))]

/-- A lexer for them that reads two characters at a time. -/
def lexer : Lexer :=
  ⟨[⟨"if", .literal ['i', 'f'], .known .scalar none⟩,
    ⟨"word", .pattern letters, .known .scalar none⟩,
    ⟨"blank", .singleChar [' '], .known .scalar none⟩], 1, false, none, .log⟩

/-- Words, the first of which may be the keyword, with blanks between them. -/
def grammar : SequenceGrammar :=
  ⟨[("start", [("if", some "word"), ("word", some "word")]), ("word", [("blank", some "blank")]),
    ("blank", [("word", some "word")])], "start", ["word"]⟩

/-- A text that comes a little at a time, and not in the portions that are asked for. -/
def source : Source :=
  .script [.ok ['i'], .ok ['f', ' ', 'x'], .ok ['y'], .ok []]

end Keyword

namespace Lexer

/-- What is offered and reported agrees with `if xy`, delivered in three pieces. The keyword and the
word are both offered for the first of them. -/
theorem offers_and_positions_agree_keyword :
    TokenTable.compile Keyword.definitions (.mode .scalar) = .ok Keyword.lexer.tokens
      ∧ Keyword.lexer.filter = none
      ∧ Keyword.lexer.Faithful (Keyword.grammar.recognizer Value)
        (Keyword.lexer.run Keyword.source (.fresh (.initial Keyword.grammar)) [])
      ∧ (Keyword.lexer.recognize (Keyword.grammar.recognizer Value) 20
          (Keyword.lexer.run Keyword.source (.initial Keyword.grammar) [])).answer.toOption
        = some (some (.endOfInput 5 ["blank"]))
      ∧ ∀ r, Keyword.lexer.recognize (Keyword.grammar.recognizer Value) 20
          (Keyword.lexer.run Keyword.source (.initial Keyword.grammar) [])
            = .ok (some (.endOfInput 5 ["blank"])) r →
        r.buffer.InStep ∧ 5 = r.buffer.consumed ∧ (5 : Int) ≤ r.buffer.delivered.length :=
  ⟨rfl, rfl, Keyword.grammar.faithful _ _ _, by decide +kernel, fun r =>
    (offers_and_positions_agree
      (show TokenTable.compile Keyword.definitions (.mode .scalar) = .ok Keyword.lexer.tokens
        from rfl)
      rfl (Keyword.grammar.faithful _ _ _)).2 20 _ r⟩

end Lexer

end AmbiLex
