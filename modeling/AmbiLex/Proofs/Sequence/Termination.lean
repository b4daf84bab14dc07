import Mathlib.Algebra.Order.BigOperators.Group.List
import Mathlib.Algebra.Order.Ring.Nat
import AmbiLex.Buffer.TextFilter
import AmbiLex.Proofs.Run.Alignment
import AmbiLex.Proofs.Run.Termination
import AmbiLex.Proofs.Sequence.Verdict

/-!
# Runs over sequences end

A recognizer of sequences is patient: it asks for one more position only while an item is ahead, and
no position brings new items up. So all that its items have still to go becomes less with every
position completed (`SequenceGrammar.patient`).

Taking a token in is a loop as well, and one that goes through a list while it may be adding to it:
the items at the position. What a token of some length leads to is further ahead, so the list stays
as it is, and the loop has come to its end after one step for each item (`walk_eq_offer`). A token
of no length would lead to items at the position itself, and where the automaton goes round in
circles there would be no end to them (`walk_eq_none`). But no such token is ever offered.

`recognize_over_sequence_ends` puts this together with the termination of the loops that read: runs
end, whatever the tokens, the source, the filter and the callbacks do.
-/

namespace AmbiLex

namespace SequenceState

variable {ν : Type} {g : SequenceGrammar} {s : SequenceState ν}

/-! ## Positions -/

/-- **How far all items together are ahead** of the position. -/
def ahead (s : SequenceState ν) : Nat :=
  (s.items.map fun item => (item.position - (s.position : Int)).toNat).sum

/-- **Moving to the next position comes nearer to the items ahead**, if there are any behind it. -/
theorem ahead_lt {s' : SequenceState ν} (hitems : s'.items = s.items)
    (hposition : s'.position = s.position + 1) (hpending : s'.pending = true) :
    s'.ahead < s.ahead := by
  obtain ⟨item, hmem, hahead⟩ := List.any_eq_true.mp hpending
  rw [decide_eq_true_eq] at hahead
  unfold ahead
  rw [hitems] at hmem ⊢
  rw [hposition] at hahead ⊢
  refine List.sum_lt_sum _ _ (fun item _ => ?_) ⟨item, hmem, ?_⟩ <;> omega

end SequenceState

/-- **A recognizer of sequences is patient.** -/
theorem SequenceGrammar.patient (g : SequenceGrammar) :
    Lexer.Patient (g.recognizer Value) SequenceState.ahead := by
  intro s advance s' hcomplete hkind
  obtain ⟨hsaid, hitems, hposition, -⟩ := SequenceState.said_of_complete hcomplete
  exact SequenceState.ahead_lt hitems hposition (hsaid.of_moreNeeded hkind).2

namespace SequenceState

variable {ν : Type} {g : SequenceGrammar} {s : SequenceState ν} {terminal : String} {value : ν}
  {length : Int}

/-! ## Taking a token in -/

/-- Add an item, if there is one. -/
def add (s : SequenceState ν) (item : Option (SequenceItem ν)) : SequenceState ν :=
  { s with items := s.items ++ item.toList }

/-- **Go through the items at the position from an index on, and add what a token leads to from
each**, for at most so many steps. An item that is added at the position has its turn as well. -/
def walk (g : SequenceGrammar) (terminal : String) (value : ν) (length : Int) :
    Nat → Nat → SequenceState ν → Option (SequenceState ν)
  | 0, _, _ => none
  | steps + 1, index, s =>
    match s.current[index]? with
    | none => some s
    | some item =>
      walk g terminal value length steps (index + 1) (s.add (follow g terminal value length item))

/-- Of an item that is added, the position has something if it is there. -/
theorem current_add (s : SequenceState ν) (item : Option (SequenceItem ν)) :
    (s.add item).current
      = s.current ++ item.toList.filter fun item => item.position = (s.position : Int) :=
  List.filter_append s.items item.toList

/-- What a token leads to from an item at the position is at the position exactly if the token has
no length. -/
theorem current_add_follow {item : SequenceItem ν} (hitem : item ∈ s.current) :
    (s.add (follow g terminal value length item)).current
      = s.current ++ if length = 0 then (follow g terminal value length item).toList else [] := by
  have hposition : item.position = (s.position : Int) :=
    of_decide_eq_true (List.mem_filter.mp hitem).2
  rw [current_add]
  unfold follow
  cases g.target? item.state terminal with
  | none => simp
  | some state =>
    by_cases hlength : length = 0
    · simp [hlength, hposition]
    · simp [hlength, hposition]

/-- **A walk is over after one step for each item left**, and has added what the token leads to from
them. -/
theorem walk_eq_some (hlength : length ≠ 0) (steps index : Nat)
    (hsteps : s.current.length - index < steps) :
    walk g terminal value length steps index s
      = some { s with items := s.items
          ++ (s.current.drop index).filterMap (follow g terminal value length) } := by
  induction steps generalizing index s with
  | zero => exact absurd hsteps (Nat.not_lt_zero _)
  | succ steps ih =>
    unfold walk
    cases hitem : s.current[index]? with
    | none =>
      rw [List.drop_eq_nil_of_le (List.getElem?_eq_none_iff.mp hitem)]
      simp
    | some item =>
      obtain ⟨hindex, hget⟩ := List.getElem?_eq_some_iff.mp hitem
      have hcurrent : (s.add (follow g terminal value length item)).current = s.current := by
        rw [current_add_follow (List.mem_of_getElem? hitem), if_neg hlength, List.append_nil]
      dsimp only
      rw [ih (index + 1) (by rw [hcurrent]; omega), hcurrent, List.drop_eq_getElem_cons hindex,
        hget, List.filterMap_cons]
      unfold add
      cases follow g terminal value length item <;> simp

/-- **Taking in a token of some length comes to its end**, after as many steps as there are items at
the position and one more, with all that the token leads to. -/
theorem walk_eq_offer (hlength : length ≠ 0) :
    (walk g terminal value length (s.current.length + 1) 0
      { s with log := s.log.push (.alternative terminal value length) })
      = some (s.offer g terminal value length) := by
  unfold offer
  rw [reach_of_ne_zero hlength]
  exact walk_eq_some hlength (s.current.length + 1) 0 (Nat.lt_succ_self _)

/-- **Where the automaton goes round in circles, taking in a token of no length never ends**: there
is always an item left to go through. -/
theorem walk_eq_none {round : String → Prop}
    (hround : ∀ state, round state → ∃ next, g.target? state terminal = some next ∧ round next)
    (steps index : Nat) (hitem : ∃ item ∈ s.current.drop index, round item.state) :
    walk g terminal value 0 steps index s = none := by
  induction steps generalizing index s with
  | zero => rfl
  | succ steps ih =>
    obtain ⟨item, hmem, hgoes⟩ := hitem
    have hindex : index < s.current.length :=
      Nat.lt_of_sub_pos (List.length_drop ▸ List.length_pos_of_mem hmem)
    unfold walk
    rw [List.getElem?_eq_getElem hindex]
    dsimp only
    refine ih (index + 1) ?_
    rw [current_add_follow (List.getElem_mem hindex), if_pos rfl,
      List.drop_append_of_le_length hindex]
    rw [List.drop_eq_getElem_cons hindex] at hmem
    rcases List.mem_cons.mp hmem with rfl | hlater
    · -- the item has its turn, and what it leads to goes round as well
      obtain ⟨next, htarget, hnext⟩ := hround _ hgoes
      have hfollow := congrArg (Option.map fun state => (⟨s.current[index].position + 0, state,
        (terminal, value) :: s.current[index].taken⟩ : SequenceItem ν)) htarget
      exact ⟨_, List.mem_append_right _ (Option.mem_toList.mpr hfollow), hnext⟩
    · exact ⟨item, List.mem_append_left _ hlater, hgoes⟩

end SequenceState

namespace Lexer

variable {lexer : Lexer} {ρ : Type} {recognizer : Recognizer Value ρ}

/-- **Every token that is offered has a length.** -/
theorem length_pos_of_offer (husable : ∀ spec ∈ lexer.tokens, spec.Usable) {start : Run ρ} :
    ∀ count point r, lexer.after recognizer count start = .ok point r →
      ∀ offer left, point = .sought (some offer) left → 0 < offer.length := by
  refine after_induction (fun progress r hbegin offer left hpoint => ?_)
    fun count point r point' r' _ _ hmove _ offer left hpoint => ?_
  · match progress with
    | .over recognition => cases hpoint
    | .next phase => cases phase <;> cases hpoint
  · -- only what was found is offered
    cases moved_of_move hmove with
    | found find seek store state =>
      cases hpoint
      obtain ⟨-, hne, -⟩ := TokenSpec.found_of_verdict
        (husable _ (TokenTable.of_find?_eq_some find).1) (TokenSpec.verdict_of_seek seek)
      exact List.length_pos_of_ne_nil hne
    | _ => cases hpoint

/-- **Runs over sequences end.** With compiled tokens, whatever the source delivers and wherever it
fails, whatever the filter does to the text, and whichever callbacks fail:

* a run comes to a result or stops with a fault after finitely many steps, and from then on it makes
  no difference how many more it could take;
* the loops that read make no more passes, all together, than the source has reads left, and one
  more;
* each token that is offered is taken in by a loop that comes to its end, after as many steps as
  there are items at the position and one more. -/
theorem recognize_over_sequence_ends {definitions : List (String × Setting)} {store : Setting}
    (hcompile : TokenTable.compile definitions store = .ok lexer.tokens) (g : SequenceGrammar)
    (source : Source) (calls : List Call) :
    (∃ bound, (∃ recognition r, ∀ limit, bound ≤ limit →
          lexer.recognize (g.recognizer Value) limit (lexer.run source (.initial g) calls)
            = .ok (some recognition) r)
        ∨ ∃ fault r, ∀ limit, bound ≤ limit →
          lexer.recognize (g.recognizer Value) limit (lexer.run source (.initial g) calls)
            = .error fault r)
      ∧ (∀ limit, (lexer.recognize (g.recognizer Value) limit
          (lexer.run source (.initial g) calls)).left.buffer.reads.length ≤ source.readsLeft + 1)
      ∧ ∀ count offer left r, lexer.after (g.recognizer Value) count
            (lexer.run source (.initial g) calls) = .ok (.sought (some offer) left) r →
          (SequenceState.walk g offer.name offer.value offer.length
            (r.recognizer.current.length + 1) 0 { r.recognizer with
              log := r.recognizer.log.push (.alternative offer.name offer.value offer.length) })
            = some (r.recognizer.offer g offer.name offer.value offer.length) := by
  refine ⟨recognize_ends g.patient _, fun limit => recognize_reads source _ calls limit,
    fun count offer left r hafter => SequenceState.walk_eq_offer ?_⟩
  have hpos := length_pos_of_offer (TokenTable.usable_of_compile hcompile) count _ r hafter offer
    left rfl
  omega

end Lexer

/-- Words and a keyword, with a filter that makes the buffer longer: it is applied to all of the
text whenever something was read, and each time it doubles every `a`. -/
def Keyword.doubling : Lexer :=
  { Keyword.lexer with
    filter := some (TextFilter.filter { replacements := [(['a'], ['a', 'a'])] }) }

namespace Lexer

/-- The run over `if abaa`, delivered in four pieces of which the filter makes 18 characters, ends,
and reads five times. -/
theorem recognize_over_sequence_ends_doubling :
    TokenTable.compile Keyword.definitions (.mode .scalar) = .ok Keyword.doubling.tokens
      ∧ (Keyword.doubling.recognize (Keyword.grammar.recognizer Value) 40
          (Keyword.doubling.run
            (.script [.ok ['i', 'f', ' '], .ok ['a'], .ok ['b', 'a'], .ok ['a']])
            (.initial Keyword.grammar) [])).answer.toOption
        = some (some (.endOfInput 18 ["blank"]))
      ∧ (∃ bound, (∃ recognition r, ∀ limit, bound ≤ limit →
            Keyword.doubling.recognize (Keyword.grammar.recognizer Value) limit
              (Keyword.doubling.run
                (.script [.ok ['i', 'f', ' '], .ok ['a'], .ok ['b', 'a'], .ok ['a']])
                (.initial Keyword.grammar) []) = .ok (some recognition) r)
          ∨ ∃ fault r, ∀ limit, bound ≤ limit →
            Keyword.doubling.recognize (Keyword.grammar.recognizer Value) limit
              (Keyword.doubling.run
                (.script [.ok ['i', 'f', ' '], .ok ['a'], .ok ['b', 'a'], .ok ['a']])
                (.initial Keyword.grammar) []) = .error fault r)
      ∧ ∀ limit, (Keyword.doubling.recognize (Keyword.grammar.recognizer Value) limit
          (Keyword.doubling.run
            (.script [.ok ['i', 'f', ' '], .ok ['a'], .ok ['b', 'a'], .ok ['a']])
            (.initial Keyword.grammar) [])).left.buffer.reads.length ≤ 5 := by
  have hcompile : TokenTable.compile Keyword.definitions (.mode .scalar)
      = .ok Keyword.doubling.tokens := rfl
  obtain ⟨hends, hreads, -⟩ := recognize_over_sequence_ends hcompile Keyword.grammar
    (.script [.ok ['i', 'f', ' '], .ok ['a'], .ok ['b', 'a'], .ok ['a']]) []
  exact ⟨hcompile, by decide +kernel, hends, hreads⟩

end Lexer

end AmbiLex
