import AmbiLex.Proofs.Run.ChunkIndependence
import AmbiLex.Proofs.Sequence.Completeness
import AmbiLex.Proofs.Token.LineEndings

/-!
# Runs that unify line endings

A lexer may unify the line endings of its input as it reads it, by the filter of its buffer. That
should come to the same as unifying the text first, and reading it without a filter.

The two runs are compared move by move, the one that reads a little at a time against the one that
has the whole unified text. They stay in unison although the buffer of the first may end with half
of a torn ending (`Scan.InUnison`). Tokens are not misled by that half if their texts are short
enough for the buffer. And it is never consumed: a round consumes characters up to an item of the
recognizer, and items stand only where a token was found that ends there. So what is kept along with
the two runs is that the buffer can be relied on up to each item.
-/

namespace AmbiLex

open Text (unified IsUnified)

/-- The lexer without its filter. -/
def Lexer.unfiltered (lexer : Lexer) : Lexer :=
  { lexer with filter := none }

/-- **A position that some item stands at.** -/
def SequenceState.Occupies {ν : Type} (s : SequenceState ν) (position : Int) : Prop :=
  ∃ item ∈ s.items, item.position = position

/-- **Two scans in unison**: the buffer of the first unifies the line endings of a text, and that of
the second holds all of the unified text that is left. Up to the positions that are held the first
buffer can be relied on. -/
structure Scan.InUnison (least : Nat) (consumed : Int) (held : Int → Prop) (s s' : Scan) :
    Prop where
  /-- The first buffer faces what the second one holds. -/
  unifies : s.buffer.Unifies s'.buffer.text
  /-- Up to the positions that are held it holds the same. -/
  shares : ∀ position, held position → s.buffer.Shares s'.buffer.text (position - consumed)
  /-- The source of the second buffer has ended. -/
  ended : s'.buffer.mayGrow = false
  /-- The first buffer is ready. -/
  ready : s.buffer.Ready
  /-- The least size of the first buffer. -/
  minBuffer_eq : s.buffer.minBuffer = least
  /-- So many characters were consumed. -/
  consumed_eq : s.buffer.consumed = consumed
  /-- As many as of the other buffer. -/
  consumed_eq' : s'.buffer.consumed = consumed
  /-- The same callbacks were called. -/
  calls_eq : s.calls = s'.calls

namespace Scan.InUnison

variable {least : Nat} {consumed : Int} {held held' : Int → Prop} {s s' t t' : Scan}

/-- Fewer positions may be held. -/
theorem mono (h : InUnison least consumed held s s')
    (hheld : ∀ position, held' position → held position) : InUnison least consumed held' s s' :=
  { h with shares := fun position hposition => h.shares position (hheld position hposition) }

/-- Scans with the same buffers and calls are in unison too. -/
theorem congr (h : InUnison least consumed held s s') (hbuffer : t.buffer = s.buffer)
    (hbuffer' : t'.buffer = s'.buffer) (hcalls : t.calls = s.calls)
    (hcalls' : t'.calls = s'.calls) :
    InUnison least consumed held t t' := by
  refine ⟨?_, ?_, ?_, ?_, ?_, ?_, ?_, ?_⟩
  · rw [hbuffer, hbuffer']
    exact h.unifies
  · rw [hbuffer, hbuffer']
    exact h.shares
  · rw [hbuffer']
    exact h.ended
  · rw [hbuffer]
    exact h.ready
  · rw [hbuffer]
    exact h.minBuffer_eq
  · rw [hbuffer]
    exact h.consumed_eq
  · rw [hbuffer']
    exact h.consumed_eq'
  · rw [hcalls, hcalls']
    exact h.calls_eq

/-- **Scans stay in unison when the first buffer grows**, and more positions may be held if it can
be relied on up to them. -/
theorem grown (h : InUnison least consumed held s s') {b : Buffer}
    (hgrown : Buffer.GrownTowards s'.buffer.text s.buffer b) (hb : b.Unifies s'.buffer.text)
    (hmore : ∀ position, held' position →
      held position ∨ b.Shares s'.buffer.text (position - consumed)) :
    InUnison least consumed held' { s with buffer := b } s' := by
  refine ⟨hb, fun position hposition => ?_, h.ended, hgrown.ready h.ready,
    hgrown.minBuffer_eq.trans h.minBuffer_eq, hgrown.consumed_eq.trans h.consumed_eq,
    h.consumed_eq', h.calls_eq⟩
  rcases hmore position hposition with hheld | hshares
  · exact hgrown.keeps _ (h.shares position hheld)
  · exact hshares

end Scan.InUnison

namespace Lexer

open Scan (InUnison SameCalls)

variable {lexer : Lexer} {g : SequenceGrammar} {least : Nat} {consumed : Int} {held : Int → Prop}

/-- **A lexer that no torn ending can mislead**: none of the tokens that it can look for. -/
def Steady (lexer : Lexer) : Prop :=
  ∀ name spec, lexer.tokens.find? name = some spec → ¬ spec.Misled lexer.minBuffer

/-- **A lexer that unifies line endings**, with a buffer of some least size: its tokens are usable,
and none of them looks for a pattern. -/
structure UnifiesLines (lexer : Lexer) : Prop where
  /-- The tokens are usable. -/
  usable : ∀ spec ∈ lexer.tokens, spec.Usable
  /-- None of them looks for a pattern. -/
  plain : ∀ spec ∈ lexer.tokens, ∀ p, spec.target ≠ .pattern p
  /-- The filter unifies line endings. -/
  filter_eq : lexer.filter = some TextFilter.lineEndings.filter
  /-- The whole input is not read at once. -/
  minBuffer_pos : 0 < lexer.minBuffer

/-! ## Scans in unison -/

/-- Diagnostic lines leave scans in unison, whatever they say. -/
theorem report_unison (line line' : Buffer → String) {s s' : Scan}
    (h : InUnison least consumed held s s') :
    (lexer.report line s).Agrees (fun _ => InUnison least consumed held) SameCalls
      (lexer.unfiltered.whole.report line' s') := by
  obtain ⟨t, ht, hbuffer, hcalls⟩ := report_apply lexer line s
  obtain ⟨t', ht', hbuffer', hcalls'⟩ := report_apply lexer.unfiltered.whole line' s'
  rw [ht, ht']
  exact ⟨rfl, h.congr hbuffer hbuffer' hcalls hcalls'⟩

/-- **The same is found in buffers that are in unison**, and the first one can be relied on up to
where the token ends. -/
theorem onBuffer_seek_unison {spec : TokenSpec} (hu : spec.Usable)
    (hplain : ∀ p, spec.target ≠ .pattern p) (hsafe : ¬ spec.Misled least) {s s' : Scan}
    (h : InUnison least consumed held s s') :
    (Scan.onBuffer spec.seek s).Agrees
      (fun found => InUnison least consumed fun position =>
        held position ∨ ∃ token, found = some token ∧ position = consumed + token.length)
      SameCalls (Scan.onBuffer spec.seek s') := by
  have hmeets := TokenSpec.seek_unifies hu hplain h.unifies h.ready (by
    rw [h.minBuffer_eq]
    exact hsafe)
  have hmeets' := spec.seek_meets_of_ended h.ended
  rw [onBuffer_apply, onBuffer_apply]
  refine (EStateM.Result.Meets.agrees hmeets hmeets').within ?_ (fun _ _ _ => h.calls_eq)
  rintro found b b' ⟨⟨hgrown, hb, hfound⟩, rfl⟩
  refine h.grown hgrown hb fun position hposition => ?_
  rcases hposition with hheld | ⟨token, htoken, rfl⟩
  · exact .inl hheld
  · refine .inr ?_
    rw [show consumed + (token.length : Int) - consumed = token.length by omega]
    exact hfound token htoken

/-- **Looking for a terminal in unison.** -/
theorem seek_unison (hlexer : lexer.UnifiesLines) (hsteady : lexer.Steady) (name : String)
    {s s' : Scan} (h : InUnison lexer.minBuffer consumed held s s') :
    (lexer.seek name s).Agrees
      (fun found => InUnison lexer.minBuffer consumed fun position =>
        held position ∨ ∃ token, found = some token ∧ position = consumed + token.length)
      SameCalls (lexer.unfiltered.whole.seek name s') := by
  unfold seek
  rw [show lexer.unfiltered.whole.tokens = lexer.tokens from rfl]
  cases hfind : lexer.tokens.find? name with
  | none =>
    refine EStateM.agrees_bind (report_unison _ _ h) fun _ _ _ h' => ⟨rfl, h'.mono ?_⟩
    rintro position (hheld | ⟨token, htoken, -⟩)
    · exact hheld
    · cases htoken
  | some spec =>
    have hmem := (TokenTable.of_find?_eq_some hfind).1
    exact EStateM.agrees_bind
      (onBuffer_seek_unison (hlexer.usable spec hmem) (hlexer.plain spec hmem)
        (hsteady name spec hfind) h)
      fun _ _ _ h' => EStateM.agrees_bind (report_unison _ _ h') fun _ _ _ h'' => ⟨rfl, h''⟩

/-- **Storing a token in unison.** -/
theorem store_unison (name : String) (text : List Char) {s s' : Scan}
    (h : InUnison least consumed held s s') :
    (lexer.store name text s).Agrees (fun _ => InUnison least consumed held) SameCalls
      (lexer.unfiltered.whole.store name text s') := by
  rw [store, store, onCalls_apply, onCalls_apply,
    show lexer.unfiltered.whole.tokens = lexer.tokens from rfl, ← h.calls_eq]
  refine (EStateM.Result.Agrees.refl _).within ?_ (fun _ _ hcalls => hcalls)
  rintro value calls calls' hcalls
  exact ⟨h.unifies, h.shares, h.ended, h.ready, h.minBuffer_eq, h.consumed_eq, h.consumed_eq',
    hcalls⟩

/-! ## Runs in unison -/

variable {ρ : Type} {state : ρ} {r r' : Run ρ}

/-- Work on the scans of runs whose recognizers are both in a certain state. -/
theorem onScan_unison {α : Type} {work work' : ScanM α} {scans : Scan → Scan → Prop}
    {mid : α → Scan → Scan → Prop} (h : Run.Alike scans (fun s s' => s = state ∧ s' = state) r r')
    (hwork : (work r.scan).Agrees mid SameCalls (work' r'.scan)) :
    (Run.onScan work r).Agrees
      (fun a => Run.Alike (mid a) fun s s' => s = state ∧ s' = state) (Run.Alike SameCalls Eq)
      (Run.onScan work' r') :=
  (Run.onScan_agrees h.2 hwork).mono (fun _ _ _ h' => h')
    (fun _ _ h' => ⟨h'.1, h'.2.1.trans h'.2.2.symm⟩)

/-- Runs whose scans are in unison have called the same callbacks. -/
theorem alike_of_inUnison (h : Run.Alike (InUnison least consumed held)
    (fun s s' => s = state ∧ s' = state) r r') : Run.Alike SameCalls Eq r r' :=
  ⟨h.1.calls_eq, h.2.1.trans h.2.2.symm⟩

/-- **Finishing a round in unison**, if what is consumed ends at a position that is held. -/
theorem finishRound_unison (hlexer : lexer.UnifiesLines) {completed : Nat}
    (h : Run.Alike (InUnison lexer.minBuffer consumed held)
      (fun s s' => s = state ∧ s' = state) r r') (hheld : held (consumed + completed)) :
    (lexer.finishRound completed r).Agrees
      (fun _ => Run.Alike (InUnison lexer.minBuffer (consumed + completed) held)
        fun s s' => s = state ∧ s' = state)
      (Run.Alike SameCalls Eq) (lexer.unfiltered.whole.finishRound completed r') := by
  have hshares := h.1.shares _ hheld
  rw [show consumed + (completed : Int) - consumed = completed by omega] at hshares
  obtain ⟨hunifies, hkept⟩ :
      (r.buffer.consume completed).Unifies (r'.buffer.text.drop completed)
        ∧ ∀ length, r.buffer.Shares r'.buffer.text length →
          (r.buffer.consume completed).Shares (r'.buffer.text.drop completed)
            (length - completed) :=
    h.1.unifies.consume hshares
  have hpos := hlexer.minBuffer_pos
  have hmin : (r.buffer.consume completed).minBuffer = lexer.minBuffer := h.1.minBuffer_eq
  -- consuming first: what was held is still there, and nearer
  have hconsumed : ∀ b : Buffer, Buffer.GrownTowards (r'.buffer.text.drop completed)
      (r.buffer.consume completed) b → b.Unifies (r'.buffer.text.drop completed) → b.Ready →
      InUnison lexer.minBuffer (consumed + completed) held { r.scan with buffer := b }
        (r'.consumed completed).scan := by
    intro b hgrown hb hready
    have htext : (r'.consumed completed).scan.buffer.text = r'.buffer.text.drop completed :=
      Buffer.text_consume r'.buffer completed
    refine ⟨?_, fun position hposition => ?_, h.1.ended, hready, hgrown.minBuffer_eq.trans hmin, ?_,
      ?_, h.1.calls_eq⟩
    · rw [htext]
      exact hb
    · rw [htext, ← Int.sub_sub]
      exact hgrown.keeps _ (hkept _ (h.1.shares position hposition))
    · rw [hgrown.consumed_eq]
      show r.buffer.consumed + (completed : Int) = _
      rw [show r.buffer.consumed = consumed from h.1.consumed_eq]
    · show r'.buffer.consumed + (completed : Int) = _
      rw [show r'.buffer.consumed = consumed from h.1.consumed_eq']
  rw [show lexer.unfiltered.whole.finishRound completed r' = .ok () (r'.consumed completed) from
    finishRound_whole lexer.unfiltered completed r', finishRound_apply]
  by_cases hshort : (r.buffer.consume completed).text.length < lexer.minBuffer
  · obtain ⟨more, b, hrefill, hgrown, hb, hready⟩ :=
      (Buffer.refill_unifies hunifies (by omega)).exists_ok
    rw [if_pos hshort, refill_of_ok (r := r.consumed completed) hrefill]
    exact ⟨rfl, hconsumed b hgrown hb hready, h.2⟩
  · rw [if_neg hshort]
    exact ⟨rfl, hconsumed _ (.refl _ _) hunifies (.inr ⟨by omega, by omega⟩), h.2⟩

/-- **Two runs in unison at a point.** Once they are over it does not matter any more what their
buffers hold. -/
def InUnisonAt (lexer : Lexer) (point : Point) (r r' : Run (SequenceState Value)) : Prop :=
  match point with
  | .head _ | .seeking _ | .sought none _ =>
    ∃ state : SequenceState Value,
      Run.Alike (InUnison lexer.minBuffer state.position state.Occupies)
        (fun s s' => s = state ∧ s' = state) r r'
  | .sought (some offer) _ =>
    ∃ state : SequenceState Value,
      Run.Alike (InUnison lexer.minBuffer state.position
          fun position => state.Occupies position ∨ position = state.position + offer.length)
        (fun s s' => s = state ∧ s' = state) r r'
  | .completing done =>
    ∃ state : SequenceState Value,
      Run.Alike (InUnison lexer.minBuffer (state.position - done) state.Occupies)
        (fun s s' => s = state ∧ s' = state) r r'
  | .finished _ => Run.Alike SameCalls Eq r r'

/-- Runs in unison have called the same callbacks, and their recognizers are in the same state. -/
theorem InUnisonAt.alike {point : Point} {r r' : Run (SequenceState Value)}
    (h : lexer.InUnisonAt point r r') : Run.Alike SameCalls Eq r r' := by
  cases point with
  | head expected =>
    obtain ⟨state, h⟩ := h
    exact alike_of_inUnison h
  | seeking left =>
    obtain ⟨state, h⟩ := h
    exact alike_of_inUnison h
  | sought offer left =>
    cases offer with
    | none =>
      obtain ⟨state, h⟩ := h
      exact alike_of_inUnison h
    | some offer =>
      obtain ⟨state, h⟩ := h
      exact alike_of_inUnison h
  | completing done =>
    obtain ⟨state, h⟩ := h
    exact alike_of_inUnison h
  | finished recognition => exact h

/-- The items of an offer stand where items stood before, or where its token ends. -/
theorem occupies_of_offer {s : SequenceState Value} {name : String} {value : Value} {length : Int}
    {position : Int} (h : (s.offer g name value length).Occupies position) :
    s.Occupies position ∨ position = s.position + length := by
  obtain ⟨item, hitem, rfl⟩ := h
  rcases List.mem_append.mp hitem with hold | hnew
  · exact .inl ⟨item, hold, rfl⟩
  · exact .inr (SequenceState.position_of_mem_reach
      (fun _ => SequenceState.position_of_mem_current) item hnew)

/-- Where something is expected an item stands at the position. -/
theorem occupies_of_expected {s : SequenceState Value} (h : s.expected g ≠ []) :
    s.Occupies s.position := by
  obtain ⟨item, hitem⟩ := SequenceState.exists_current_of_expected h
  exact ⟨item, (List.mem_filter.mp hitem).1, SequenceState.position_of_mem_current hitem⟩

/-- **Completing a position in unison.** What a round consumes ends at an item, since something is
expected there. -/
theorem completeNext_unison (hlexer : lexer.UnifiesLines) {done : Nat}
    {r r' : Run (SequenceState Value)} (h : lexer.InUnisonAt (.completing done) r r') :
    (lexer.completeNext (g.recognizer Value) done r).Agrees
      (fun progress => lexer.InUnisonAt (.ofProgress progress)) (Run.Alike SameCalls Eq)
      (lexer.unfiltered.whole.completeNext (g.recognizer Value) done r') := by
  obtain ⟨state, hscans, hstate, hstate'⟩ := h
  have hasked : ∀ t : Run (SequenceState Value), t.recognizer = state →
      Run.onRecognizer (g.recognizer Value).completePosition t
        = .ok (state.complete g).1 { t with recognizer := (state.complete g).2 } := by
    rintro t rfl
    rfl
  obtain ⟨hsaid, hitems, hposition, -⟩ := SequenceState.said_of_complete
    (show (g.recognizer Value).completePosition state
      = .ok (state.complete g).1 (state.complete g).2 from rfl)
  unfold completeNext
  rw [EStateM.bind_apply_of_ok (hasked r hstate), EStateM.bind_apply_of_ok (hasked r' hstate')]
  generalize (state.complete g).1 = advance at hsaid ⊢
  generalize (state.complete g).2 = next at hsaid hitems hposition ⊢
  -- the items are the same, and one more position was completed
  have hnext : InUnison lexer.minBuffer (next.position - (done + 1 : Nat)) next.Occupies r.scan
      r'.scan := by
    rw [hposition, show ((state.position + 1 : Nat) : Int) - (done + 1 : Nat)
      = state.position - done by omega]
    refine hscans.mono fun position => ?_
    rintro ⟨item, hitem, rfl⟩
    exact ⟨item, hitems ▸ hitem, rfl⟩
  have hcompleted : Run.Alike
      (InUnison lexer.minBuffer (next.position - (done + 1 : Nat)) next.Occupies)
      (fun s s' => s = next ∧ s' = next) ⟨r.scan, next⟩ ⟨r'.scan, next⟩ :=
    ⟨hnext, rfl, rfl⟩
  cases hsaid with
  | more expected pending => exact ⟨rfl, next, hnext, rfl, rfl⟩
  | next expected =>
    have hround : (next.position : Int) - (done + 1 : Nat) + (done + 1 : Nat) = next.position := by
      omega
    have hheld : next.Occupies ((next.position : Int) - (done + 1 : Nat) + (done + 1 : Nat)) := by
      rw [hround]
      exact occupies_of_expected expected
    refine EStateM.agrees_bind (finishRound_unison hlexer hcompleted hheld)
      fun _ t t' h' => ⟨rfl, next, ?_⟩
    rw [hround] at h'
    exact h'
  | exhausted current expected pending =>
    refine ⟨?_, hscans.calls_eq, rfl⟩
    show Progress.over (.exhausted (r.scan.buffer.consumed + _))
      = .over (.exhausted (r'.scan.buffer.consumed + _))
    rw [hscans.consumed_eq, hscans.consumed_eq']
  | failure current pending =>
    refine EStateM.agrees_bind (onScan_unison hcompleted (report_unison _ _ hnext))
      fun _ t t' h' => ⟨?_, h'.1.calls_eq, h'.2.1.trans h'.2.2.symm⟩
    show Progress.over (.failed t.scan.buffer.consumed _)
      = .over (.failed t'.scan.buffer.consumed _)
    rw [h'.1.consumed_eq, h'.1.consumed_eq']

/-- **A move leaves two runs in unison.** -/
theorem move_unison (hlexer : lexer.UnifiesLines) (hsteady : lexer.Steady) (point : Point)
    {r r' : Run (SequenceState Value)} (h : lexer.InUnisonAt point r r') :
    (lexer.move (g.recognizer Value) point r).Agrees lexer.InUnisonAt (Run.Alike SameCalls Eq)
      (lexer.unfiltered.whole.move (g.recognizer Value) point r') := by
  cases point with
  | head expected =>
    obtain ⟨state, hscans, hstates⟩ := h
    rw [move, move, EStateM.get_bind, EStateM.get_bind,
      show r.buffer.text.isEmpty = r'.buffer.text.isEmpty from
        hscans.unifies.isEmpty_text hscans.ready,
      show r.buffer.consumed = r'.buffer.consumed from
        hscans.consumed_eq.trans hscans.consumed_eq'.symm]
    split
    · exact ⟨rfl, hscans.calls_eq, hstates.1.trans hstates.2.symm⟩
    · exact EStateM.agrees_bind (onScan_unison ⟨hscans, hstates⟩ (report_unison _ _ hscans))
        fun _ _ _ h' => EStateM.agrees_bind (onScan_unison h' (report_unison _ _ h'.1))
          fun _ _ _ h'' => ⟨rfl, state, h''⟩
  | seeking left =>
    obtain ⟨state, h⟩ := h
    cases left with
    | nil =>
      refine ⟨rfl, state, ?_⟩
      rw [Int.natCast_zero, Int.sub_zero]
      exact h
    | cons name left =>
      refine EStateM.agrees_bind (onScan_unison h (seek_unison hlexer hsteady name h.1))
        fun found s s' h' => ?_
      cases found with
      | none =>
        exact ⟨rfl, state, h'.1.mono fun _ => .inl, h'.2⟩
      | some found =>
        refine EStateM.agrees_bind (onScan_unison h' (store_unison name found.text h'.1))
          fun _ t t' h'' => ⟨rfl, state, h''.1.mono ?_, h''.2⟩
        rintro position (hold | hends)
        · exact .inl hold
        · exact .inr ⟨found, rfl, hends⟩
  | sought offer left =>
    cases offer with
    | none => exact ⟨rfl, h⟩
    | some offer =>
      obtain ⟨state, hscans, hstate, hstate'⟩ := h
      have htaken : ∀ t : Run (SequenceState Value), t.recognizer = state →
          Run.onRecognizer ((g.recognizer Value).alternative offer.name offer.value offer.length) t
            = .ok () { t with
              recognizer := state.offer g offer.name offer.value offer.length } := by
        rintro t rfl
        rfl
      rw [move, move, EStateM.bind_apply_of_ok (htaken r hstate),
        EStateM.bind_apply_of_ok (htaken r' hstate')]
      exact ⟨rfl, state.offer g offer.name offer.value offer.length,
        hscans.mono fun _ => occupies_of_offer, rfl, rfl⟩
  | completing done =>
    exact EStateM.agrees_bind (completeNext_unison hlexer h) fun _ _ _ h' => ⟨rfl, h'⟩
  | finished recognition => exact ⟨rfl, h⟩

/-- **Two runs begin in unison**, the one over a text and the other over the unified text. -/
theorem begin_unison (hlexer : lexer.UnifiesLines) {text : List Char}
    (htext : IsUnified (unified text)) {pace : Option Nat} (hpace : pace ≠ some 0)
    (calls : List Call) :
    (begin (g.recognizer Value) (lexer.run (.text text pace) (.initial g) calls)).Agrees
      (fun progress => lexer.InUnisonAt (.ofProgress progress)) (Run.Alike SameCalls Eq)
      (begin (g.recognizer Value)
        (lexer.unfiltered.whole.run (.ofText (unified text)) (.initial g) calls)) := by
  have hasked : ∀ t : Run (SequenceState Value),
      Run.onRecognizer (g.recognizer Value).terminalsExpected t
        = .ok (t.recognizer.expected g) t := fun _ => rfl
  unfold begin
  rw [EStateM.bind_apply_of_ok (hasked _), EStateM.bind_apply_of_ok (hasked _)]
  show EStateM.Result.Agrees _ _
    ((if ((SequenceState.initial g : SequenceState Value).expected g).isEmpty then _ else _ :
      RunM _ Progress) _)
    ((if ((SequenceState.initial g : SequenceState Value).expected g).isEmpty then _ else _ :
      RunM _ Progress) _)
  split
  · exact ⟨rfl, rfl, rfl⟩
  · have hunifies : (lexer.run (.text text pace) (.initial g : SequenceState Value)
        calls).buffer.Unifies (unified text) := by
      show (Buffer.start _ _ lexer.filter).Unifies _
      rw [hlexer.filter_eq]
      exact .start htext hpace lexer.minBuffer
    have hfaces : (lexer.unfiltered.whole.run (.ofText (unified text))
        (.initial g : SequenceState Value) calls).buffer.Faces (unified text) :=
      .start (unified text) (by decide) 0
    obtain ⟨more, b, hrefill, hgrown, hb, hready⟩ :=
      (Buffer.refill_unifies hunifies (Int.natCast_pos.mpr hlexer.minBuffer_pos)).exists_ok
    obtain ⟨t, ht, hgrown', htfaces, htready, htcalls, htstate⟩ :=
      refill_ready hfaces (Int.le_refl 0) fun _ => rfl
    have hended : t.buffer.mayGrow = false := htready.ended hgrown'.minBuffer_eq
    have htext' : t.buffer.text = unified text := htfaces.text_eq hended
    rw [EStateM.bind_apply_of_ok (refill_of_ok hrefill), EStateM.bind_apply_of_ok ht]
    refine ⟨rfl, .initial g, ⟨?_, ?_, hended, hready, hgrown.minBuffer_eq, hgrown.consumed_eq,
      hgrown'.consumed_eq, htcalls.symm⟩, rfl, htstate⟩
    · show b.Unifies t.buffer.text
      rw [htext']
      exact hb
    · -- the only item stands at the start
      rintro position ⟨item, hitem, rfl⟩
      obtain rfl := List.mem_singleton.mp hitem
      exact ⟨[], List.nil_prefix, List.nil_prefix, Int.le_refl 0⟩

/-- **A run that unifies line endings and the run over the whole unified text come to the same.** -/
theorem recognize_unison (hlexer : lexer.UnifiesLines) (hsteady : lexer.Steady) {text : List Char}
    (htext : IsUnified (unified text)) {pace : Option Nat} (hpace : pace ≠ some 0)
    (calls : List Call) (limit : Nat) :
    (lexer.recognize (g.recognizer Value) limit
        (lexer.run (.text text pace) (.initial g) calls)).Agrees
      (fun _ => Run.Alike SameCalls Eq) (Run.Alike SameCalls Eq)
      (lexer.unfiltered.whole.recognize (g.recognizer Value) limit
        (lexer.unfiltered.whole.run (.ofText (unified text)) (.initial g) calls)) := by
  refine (recognize_agrees (begin_unison hlexer htext hpace calls)
    (fun point _ _ h => move_unison hlexer hsteady point h) limit).mono ?_ (fun _ _ h => h)
  rintro answer s s' ⟨point, -, h⟩
  exact h.alike

end Lexer

end AmbiLex
