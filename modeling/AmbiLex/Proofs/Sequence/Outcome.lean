import AmbiLex.Proofs.Sequence.Placement
import AmbiLex.Proofs.Sequence.Verdict

/-!
# The outcome of a run and the recognizer it leaves

A lexer and a recognizer of sequences each keep an account of a run. The lexer counts the characters
it consumes, which it does late, or not at all if the parse fails. The recognizer counts positions,
names one of them when it fails, and remembers that it is exhausted. When the run is over the two
accounts have to fit: what the lexer reports as the outcome is what the recognizer has come to
(`Recognition.Leaves`).

Two facts about a whole run are behind this. A failure never follows the demand for one more
position, because that is made only while an item is pending, and an item does not go away. And the
input does not end while an item is pending, because items do not lie behind the text that was
delivered. `SettledAt` is the invariant, next to the placement of the run.
-/

namespace AmbiLex

/-- **What a recognizer of sequences looks like after a run** with a given result, when a certain
text was delivered.

* Exhausted: it stands where the lexer says, within the text. It has items there, but nothing is
  expected there, and there are no items ahead.
* Failed: it stands one position ahead of the lexer, whose position is the one that it names. All of
  its items lie behind it, so there are no parses.
* End of input: both stand at the end of the text, where what the lexer says is expected. There are
  no items ahead, and the recognizer is not exhausted. -/
def Recognition.Leaves (g : SequenceGrammar) (delivered : List Char) (s : SequenceState Value) :
    Recognition → Prop
  | .exhausted position =>
    position = s.position ∧ s.position ≤ delivered.length ∧ s.exhausted = true
      ∧ s.current ≠ [] ∧ s.expected g = [] ∧ ∀ item ∈ s.items, item.position ≤ (s.position : Int)
  | .failed position detail =>
    (s.position : Int) = position + 1
      ∧ detail = some ("No token fits at position " ++ toString position) ∧ s.exhausted = true
      ∧ (∀ item ∈ s.items, item.position < (s.position : Int)) ∧ s.parses g = []
  | .endOfInput position expected =>
    position = s.position ∧ s.position = delivered.length ∧ expected = s.expected g
      ∧ expected ≠ [] ∧ s.exhausted = false
      ∧ ∀ item ∈ s.items, item.position ≤ (s.position : Int)

namespace Lexer

variable {lexer : Lexer} {g : SequenceGrammar} {start : Run (SequenceState Value)}

/-- **A run whose last move completed the first position of a round**, and came to a certain
result. -/
def EndsWithRound (lexer : Lexer) (g : SequenceGrammar) (start : Run (SequenceState Value))
    (recognition : Recognition) (r : Run (SequenceState Value)) : Prop :=
  ∃ count before, lexer.after (g.recognizer Value) count start = .ok (.completing 0) before
    ∧ lexer.move (g.recognizer Value) (.completing 0) before = .ok (.finished recognition) r

/-- **What the recognizer of a run has come to at a point.** Until the run is over it is not
exhausted, and between the positions of a round something is pending. -/
def SettledAt (lexer : Lexer) (g : SequenceGrammar) (start : Run (SequenceState Value))
    (r : Run (SequenceState Value)) : Point → Prop
  | .head expected =>
    r.recognizer.exhausted = false ∧ expected = r.recognizer.expected g ∧ expected ≠ []
  | .seeking _ | .sought _ _ => r.recognizer.exhausted = false
  | .completing done =>
    r.recognizer.exhausted = false ∧ (done ≠ 0 → r.recognizer.pending = true)
  | .finished recognition =>
    recognition.Leaves g r.buffer.delivered r.recognizer
      ∧ (recognition.outcome = .failed → EndsWithRound lexer g start recognition r)

/-- **The input ends where nothing is pending**, since no item lies behind the text. -/
theorem leaves_of_ended {r : Run (SequenceState Value)} (hplaced : Placed r 0)
    (hempty : r.buffer.text = []) (hexpected : r.recognizer.expected g ≠ [])
    (hexhausted : r.recognizer.exhausted = false) :
    (Recognition.endOfInput r.buffer.consumed (r.recognizer.expected g)).Leaves g
      r.buffer.delivered r.recognizer := by
  have hposition := hplaced.position_eq
  have hlength := hplaced.position_add_length
  rw [hempty] at hlength
  simp only [List.length_nil, Nat.add_zero] at hlength
  refine ⟨?_, hlength, rfl, hexpected, hexhausted, fun item hitem => ?_⟩
  · rw [← hposition, Int.natCast_zero, Int.add_zero]
  · rw [hlength]
    exact hplaced.items_le item hitem

/-- **A failure is the first thing said in a round**: an item that was pending before is still
there, at the position or ahead of it. -/
theorem eq_zero_of_failure {s s' : SequenceState Value} {done : Nat}
    (hpending : done ≠ 0 → s.pending = true) (hitems : s'.items = s.items)
    (hposition : s'.position = s.position + 1) (hcurrent : s'.current = [])
    (hnone : s'.pending = false) : done = 0 := by
  refine Classical.byContradiction fun hdone => ?_
  obtain ⟨item, hitem, hahead⟩ := List.any_eq_true.mp (hpending hdone)
  have hahead := of_decide_eq_true hahead
  have hbehind := SequenceState.lt_position_of_failure hcurrent hnone item (hitems ▸ hitem)
  rw [hposition, Int.natCast_succ] at hbehind
  omega

/-- A recognizer with no items at its position has no parses. -/
theorem parses_of_current_eq_nil {s : SequenceState Value} (h : s.current = []) :
    s.parses g = [] := by
  unfold SequenceState.parses
  rw [h]
  rfl

/-- **A move keeps what the recognizer has come to** in step with the lexer. -/
theorem settledAt_move {count : Nat} {point point' : Point} {r r' : Run (SequenceState Value)}
    (hafter : lexer.after (g.recognizer Value) count start = .ok point r)
    (hmove : lexer.move (g.recognizer Value) point r = .ok point' r')
    (hplaced : PlacedAt lexer.tokens r point) (h : SettledAt lexer g start r point) :
    SettledAt lexer g start r' point' := by
  cases moved_of_move hmove with
  | ended text =>
    obtain ⟨hexhausted, rfl, hexpected⟩ := h
    exact ⟨leaves_of_ended hplaced text hexpected hexhausted, fun houtcome => by cases houtcome⟩
  | opened text buffer calls state =>
    show r'.recognizer.exhausted = false
    rw [state]
    exact h.1
  | closed => exact ⟨h, fun hzero => absurd rfl hzero⟩
  | unlisted find buffer calls state =>
    show r'.recognizer.exhausted = false
    rw [state]
    exact h
  | missed find seek calls state =>
    show r'.recognizer.exhausted = false
    rw [state]
    exact h
  | found find seek store state =>
    show r'.recognizer.exhausted = false
    rw [state]
    exact h
  | passed => exact h
  | offered take =>
    cases take
    exact h
  | more complete kind =>
    obtain ⟨hsaid, -, -, hexhausted⟩ := SequenceState.said_of_complete complete
    refine ⟨?_, fun _ => (hsaid.of_moreNeeded kind).2⟩
    rw [hexhausted, h.1, SequenceState.isFinal, kind]
    rfl
  | next complete kind buffer calls =>
    obtain ⟨hsaid, -, -, hexhausted⟩ := SequenceState.said_of_complete complete
    obtain ⟨hterminals, hexpected⟩ := hsaid.of_nextExpected kind
    rw [hterminals]
    refine ⟨?_, rfl, hexpected⟩
    rw [hexhausted, h.1, SequenceState.isFinal, kind]
    rfl
  | @exhausted done _ _ _ complete kind buffer calls =>
    obtain ⟨hsaid, -, hposition, hexhausted⟩ := SequenceState.said_of_complete complete
    cases hsaid with
    | more expected pending => cases kind
    | next expected => cases kind
    | exhausted current expected pending =>
      -- the lexer consumes what the recognizer has completed, this position included
      have hstands := hplaced.1.position_eq
      have hahead := hplaced.2
      refine ⟨⟨?_, ?_, ?_, current, expected, SequenceState.pending_eq_false_iff.mp pending⟩,
        fun houtcome => by cases houtcome⟩
      · rw [buffer, hposition]
        show r.buffer.consumed + ((done + 1 : Nat) : Int) = _
        omega
      · rw [buffer, hposition]
        exact hahead
      · rw [hexhausted]
        exact Bool.or_true _
    | failure current pending => cases kind
  | failed complete kind buffer calls =>
    obtain ⟨hsaid, hitems, hposition, hexhausted⟩ := SequenceState.said_of_complete complete
    cases hsaid with
    | more expected pending => cases kind
    | next expected => cases kind
    | exhausted current expected pending => cases kind
    | failure current pending =>
      obtain rfl := eq_zero_of_failure h.2 hitems hposition current pending
      -- nothing was completed in the round before, and nothing is consumed now
      have hstands : r'.buffer.consumed = r.recognizer.position := by
        rw [buffer, ← hplaced.1.position_eq, Int.natCast_zero, Int.add_zero]
      refine ⟨⟨?_, ?_, ?_, SequenceState.lt_position_of_failure current pending,
        parses_of_current_eq_nil current⟩, fun _ => ⟨count, r, hafter, hmove⟩⟩
      · rw [hposition, hstands, Int.natCast_succ]
      · rw [hposition, hstands, Nat.add_sub_cancel]
        rfl
      · rw [hexhausted]
        exact Bool.or_true _
  | stayed => exact h

/-- **The lexer and the recognizer are in step at every moment of a run** in which the recognizer
expects something to begin with. -/
theorem settledAt_after (husable : ∀ spec ∈ lexer.tokens, spec.Usable)
    (hfilter : lexer.filter = none) {source : Source} {calls : List Call}
    (hexpects : (SequenceState.initial g : SequenceState Value).expected g ≠ []) :
    ∀ count point r, lexer.after (g.recognizer Value) count
      (lexer.run source (.initial g) calls) = .ok point r →
        SettledAt lexer g (lexer.run source (.initial g) calls) r point := by
  refine after_induction ?_ ?_
  · intro progress r hbegin
    obtain ⟨expected, hexpect, -, hcases⟩ := begin_eq_ok hbegin
    obtain ⟨rfl, hstate⟩ := SequenceState.expect_eq_ok hexpect
    rcases hcases with ⟨hnone, -, -⟩ | ⟨hsome, rfl, -⟩
    · exact absurd hnone hexpects
    · show r.recognizer.exhausted = false ∧ _
      rw [hstate]
      exact ⟨rfl, rfl, hsome⟩
  · intro count point r point' r' hafter _ hmove h
    exact settledAt_move hafter hmove (placedAt_after husable hfilter count point r hafter) h

/-- **The outcome of a run and the state of its recognizer agree.** When a run is over in which a
recognizer of sequences expected something to begin with, with compiled tokens and without a filter,
then the recognizer has come to what the result says, whatever the source and the buffer are: see
`Recognition.Leaves`. If the parse failed it did so at the first position that was completed in its
round. -/
theorem outcome_agrees_with_state {definitions : List (String × Setting)} {store : Setting}
    (hcompile : TokenTable.compile definitions store = .ok lexer.tokens)
    (hfilter : lexer.filter = none)
    (hexpects : (SequenceState.initial g : SequenceState Value).expected g ≠ [])
    {source : Source} {calls : List Call} {limit : Nat} {recognition : Recognition}
    {r : Run (SequenceState Value)}
    (hresult : lexer.recognize (g.recognizer Value) limit
      (lexer.run source (.initial g) calls) = .ok (some recognition) r) :
    recognition.Leaves g r.buffer.delivered r.recognizer
      ∧ (recognition.outcome = .failed →
        EndsWithRound lexer g (lexer.run source (.initial g) calls) recognition r) := by
  obtain ⟨count, hfinished⟩ := recognize_finished hresult
  exact settledAt_after (TokenTable.usable_of_compile hcompile) hfilter hexpects count _ r hfinished

/-- The run over `if 9`, delivered in three pieces, fails where the digit is, and leaves the
recognizer one position ahead. -/
theorem outcome_agrees_with_state_keyword :
    TokenTable.compile Keyword.definitions (.mode .scalar) = .ok Keyword.lexer.tokens
      ∧ Keyword.lexer.filter = none
      ∧ (SequenceState.initial Keyword.grammar : SequenceState Value).expected Keyword.grammar ≠ []
      ∧ ∃ r, Keyword.lexer.recognize (Keyword.grammar.recognizer Value) 20
            (Keyword.lexer.run (.script [.ok ['i'], .ok ['f', ' '], .ok ['9']])
              (.initial Keyword.grammar) [])
          = .ok (some (.failed 3 (some "No token fits at position 3"))) r
        ∧ (Recognition.failed 3 (some "No token fits at position 3")).Leaves Keyword.grammar
          r.buffer.delivered r.recognizer
        ∧ EndsWithRound Keyword.lexer Keyword.grammar
          (Keyword.lexer.run (.script [.ok ['i'], .ok ['f', ' '], .ok ['9']])
            (.initial Keyword.grammar) [])
          (.failed 3 (some "No token fits at position 3")) r := by
  have hrun : (Keyword.lexer.recognize (Keyword.grammar.recognizer Value) 20
      (Keyword.lexer.run (.script [.ok ['i'], .ok ['f', ' '], .ok ['9']])
        (.initial Keyword.grammar) [])).answer.toOption
      = some (some (.failed 3 (some "No token fits at position 3"))) := by
    decide +kernel
  have hexpects : (SequenceState.initial Keyword.grammar : SequenceState Value).expected
      Keyword.grammar ≠ [] := by
    decide
  have hresult := EStateM.Result.eq_ok_of_toOption hrun
  obtain ⟨hleaves, hends⟩ := outcome_agrees_with_state
    (show TokenTable.compile Keyword.definitions (.mode .scalar) = .ok Keyword.lexer.tokens
      from rfl)
    rfl hexpects hresult
  exact ⟨rfl, rfl, hexpects, _, hresult, hleaves, hends rfl⟩

end Lexer

end AmbiLex
