import AmbiLex.Proofs.Run.Alignment

/-!
# Where a recognizer of sequences stands in the text

Alignment is about any recognizer, and says what it says in terms of the history of a run. A
recognizer of sequences keeps its own account of its history, which are its items. Here alignment
is put in these terms, and the history is left out: at each point of a run, the recognizer stands
as far ahead of what was consumed as positions were completed since, and neither its position nor
any of its items lies behind the text that was delivered (`placedAt_after`).
-/

namespace AmbiLex

variable {r : Run (SequenceState Value)} {done : Nat}

/-- **A placed run**: the buffer is in step with its source, and the recognizer and its items are
where they should be. -/
structure Placed (r : Run (SequenceState Value)) (done : Nat) : Prop where
  /-- The buffer holds what was delivered and not consumed. -/
  inStep : r.buffer.InStep
  /-- The recognizer is ahead of what was consumed by the positions completed since. -/
  position_eq : r.buffer.consumed + done = r.recognizer.position
  /-- The recognizer stands within the text that was delivered, or at its end. -/
  position_le : r.recognizer.position ≤ r.buffer.delivered.length
  /-- So do its items. -/
  items_le : ∀ item ∈ r.recognizer.items, item.position ≤ r.buffer.delivered.length

/-- **An offer that lies in the text**: its token has a length, ends within the text that was
delivered, and its value was made of the characters at the recognizer's position. -/
structure Offer.Lies (table : TokenTable) (r : Run (SequenceState Value)) (offer : Offer) :
    Prop where
  /-- The token has a length. -/
  pos : 1 ≤ offer.length
  /-- The token ends within the text that was delivered. -/
  le : r.recognizer.position + offer.length ≤ r.buffer.delivered.length
  /-- The value was made of the characters delivered there. -/
  value_eq : ∃ calls calls', table.encode offer.name
    ((r.buffer.delivered.drop r.recognizer.position).take offer.length) calls
      = .ok offer.value calls'

/-- **What placement comes to at a point of a run.** -/
def PlacedAt (table : TokenTable) (r : Run (SequenceState Value)) : Point → Prop
  | .head _ | .seeking _ => Placed r 0
  | .sought offer _ => Placed r 0 ∧ ∀ o, offer = some o → o.Lies table r
  | .completing done => Placed r done ∧ r.recognizer.position < r.buffer.delivered.length
  | .finished recognition => r.buffer.InStep ∧ recognition.position = r.buffer.consumed

/-- The buffer of a run that is placed has no filter. -/
theorem PlacedAt.unfiltered {table : TokenTable} {point : Point} (h : PlacedAt table r point) :
    r.buffer.filter = none := by
  cases point with
  | head expected => exact h.inStep.unfiltered
  | seeking left => exact h.inStep.unfiltered
  | sought offer left => exact h.1.inStep.unfiltered
  | completing done => exact h.1.inStep.unfiltered
  | finished recognition => exact h.1.unfiltered

namespace Placed

/-- Where a round begins the buffer holds what lies ahead of the recognizer. -/
theorem position_add_length (h : Placed r 0) :
    r.recognizer.position + r.buffer.text.length = r.buffer.delivered.length := by
  have hlen := h.inStep.length_text
  have hpos := h.position_eq
  omega

/-- **An aligned run is placed** if the items of its recognizer are backed by its history. -/
theorem of_aligned {history : History Value}
    (h : Aligned ⟨r.scan, (⟨r.recognizer, history⟩ : Recorded _ _)⟩ done)
    (hbacked : Backed ⟨r.recognizer, history⟩) : Placed r done := by
  have hposition : r.recognizer.position = history.completions := hbacked.position_eq
  refine ⟨h.inStep, ?_, ?_, fun item hitem => ?_⟩
  · rw [hposition]
    exact h.position_eq
  · rw [hposition]
    exact h.position_le
  · -- an item behind the text would be backed by a token that ends behind it
    refine Int.not_lt.mp fun hbehind => ?_
    exact h.within (hbacked.items item hitem _ hbehind)

end Placed

/-- An offer that fits the input lies in the text. -/
theorem Offer.Fits.lies {lexer : Lexer} {history : History Value} {offer : Offer}
    (h : offer.Fits lexer ⟨r.scan, (⟨r.recognizer, history⟩ : Recorded _ _)⟩)
    (hbacked : Backed ⟨r.recognizer, history⟩) : offer.Lies lexer.tokens r := by
  have hposition : r.recognizer.position = history.completions := hbacked.position_eq
  obtain ⟨calls, hvalue⟩ := h.value_eq
  refine ⟨h.pos, ?_, calls, r.scan.calls, ?_⟩
  · rw [hposition]
    exact h.le
  · rw [hposition]
    exact hvalue

namespace Lexer

variable {lexer : Lexer} {g : SequenceGrammar}

/-- **A run over a recognizer of sequences is placed at every moment.** -/
theorem placedAt_after (husable : ∀ spec ∈ lexer.tokens, spec.Usable)
    (hfilter : lexer.filter = none) {source : Source} {calls : List Call} :
    ∀ count point r, lexer.after (g.recognizer Value) count
      (lexer.run source (.initial g) calls) = .ok point r → PlacedAt lexer.tokens r point := by
  intro count point r hafter
  obtain ⟨history, hrecorded⟩ := after_recorded hafter
  have haligned := alignedAt_after husable hfilter (g.faithful lexer source calls) count point _
    hrecorded
  have hbacked : Backed (⟨r.recognizer, history⟩ : Recorded Value _) :=
    recognizer_after (K := Backed) (fun _ _ _ h => h.expect) (fun _ _ _ _ _ h => h.take)
      (fun _ _ _ h => h.complete) (Backed.fresh g) count point _ hrecorded
  cases point with
  | head expected => exact .of_aligned haligned hbacked
  | seeking left => exact .of_aligned haligned.1 hbacked
  | sought offer left =>
    exact ⟨.of_aligned haligned.1 hbacked, fun o ho => (haligned.2.2 o ho).lies hbacked⟩
  | completing done =>
    refine ⟨.of_aligned haligned.1 hbacked, ?_⟩
    rw [show r.recognizer.position = history.completions from hbacked.position_eq]
    exact haligned.2
  | finished recognition => exact haligned

end Lexer

end AmbiLex
