import AmbiLex.Proofs.Buffer.Facing
import AmbiLex.Proofs.Run.Stopped
import AmbiLex.Proofs.Sequence.Listing
import AmbiLex.Proofs.Token.Seeking
import AmbiLex.Store.Callbacks

/-!
# A run finds all chains, and nothing else

When a run over a text is over, the parses of a recognizer of sequences are the chains that end at
its position in an accepting state: each of them, each once, and no others. This is for runs that
have the whole text from the start; what runs over chunks come to is another matter.

The invariant is that the recognizer's items list the chains that were come upon, at each point of a
run those whose steps are admitted by then (`ListedAt`). A position is skipped only if no chain that
ends there goes on, so no chain is lost by skipping, however many positions are completed at once.
-/

namespace AmbiLex

/-! ## Buffers that hold the rest of a text -/

/-- **A buffer that holds the rest of a text** from a position on. There is nothing left to read. -/
structure Buffer.HoldsRest (b : Buffer) (text : List Char) (position : Nat) : Prop where
  /-- The source has ended. -/
  ended : b.mayGrow = false
  /-- The characters before the position were consumed. -/
  consumed_eq : b.consumed = position
  /-- The others are there. -/
  text_eq : b.text = text.drop position

/-- **Consuming leaves a shorter rest.** -/
theorem Buffer.HoldsRest.consume {b : Buffer} {text : List Char} {position : Nat}
    (h : b.HoldsRest text position) (count : Nat) :
    (b.consume count).HoldsRest text (position + count) := by
  refine ⟨h.ended, ?_, ?_⟩
  · show b.consumed + (count : Int) = _
    rw [h.consumed_eq]
    rfl
  · rw [Buffer.text_consume, h.text_eq, List.drop_drop]

/-- **A buffer of a text holds all of it after the first refill**, if everything is read at once,
whatever the pace is. -/
theorem Buffer.holdsRest_of_refill {text : List Char} {pace : Option Nat} (hpace : pace ≠ some 0) :
    (Buffer.refill (Buffer.start (.text text pace) 0 none)).Meets (fun _ b => b.HoldsRest text 0)
      (fun _ _ => False) := by
  refine (refill_faces (Faces.start text hpace 0) (Int.le_refl 0) fun _ => rfl).mono ?_
    fun _ _ h => h
  rintro more b ⟨hgrown, hfaces, hready⟩
  have hended : b.mayGrow = false := hready.ended hgrown.minBuffer_eq
  exact ⟨hended, hgrown.consumed_eq, hfaces.text_eq hended⟩

/-! ## The invariant -/

/-- The items of a recognizer list the chains whose steps are admitted. -/
def Listed (lexer : Lexer) (g : SequenceGrammar) (text : List Char) (may : Nat → String → Prop)
    (s : SequenceState Value) : Prop :=
  ∃ chains, Lists lexer.tokens g text may chains s.items

/-- **An offer of what a text has at a position.** -/
structure Offer.Matches (lexer : Lexer) (text : List Char) (position : Nat) (offer : Offer) :
    Prop where
  /-- The terminal matches, and the length is that of the match. -/
  length_eq : lexer.tokens.matchLength? offer.name (text.drop position) = some offer.length
  /-- The value is that of the token. -/
  value_eq : offer.value
    = lexer.tokens.valueOf ⟨offer.name, (text.drop position).take offer.length⟩
  /-- The token has a value. -/
  gives : lexer.tokens.Gives ⟨offer.name, (text.drop position).take offer.length⟩
    (lexer.tokens.valueOf ⟨offer.name, (text.drop position).take offer.length⟩)

/-- **What a recognizer has come upon at a point of a run.** -/
def ListedAt (lexer : Lexer) (g : SequenceGrammar) (text : List Char)
    (r : Run (SequenceState Value)) : Point → Prop
  | .head expected =>
    r.buffer.HoldsRest text r.recognizer.position ∧ expected = r.recognizer.expected g
      ∧ expected ≠ [] ∧ Listed lexer g text (Before r.recognizer.position) r.recognizer
  | .seeking left | .sought none left =>
    r.buffer.HoldsRest text r.recognizer.position ∧ left.Nodup
      ∧ Listed lexer g text (Until r.recognizer.position left) r.recognizer
  | .sought (some offer) left =>
    r.buffer.HoldsRest text r.recognizer.position ∧ (offer.name :: left).Nodup
      ∧ Listed lexer g text (Until r.recognizer.position (offer.name :: left)) r.recognizer
      ∧ offer.Matches lexer text r.recognizer.position
  | .completing done =>
    ∃ consumed, r.buffer.HoldsRest text consumed ∧ consumed + done = r.recognizer.position
      ∧ Listed lexer g text (Until r.recognizer.position []) r.recognizer
  | .finished recognition =>
    Listed lexer g text (Before r.recognizer.position) r.recognizer
      ∧ (recognition.outcome = .endOfInput →
        recognition.position = text.length ∧ r.recognizer.position = text.length)

namespace Lexer

variable {lexer : Lexer} {g : SequenceGrammar} {text : List Char}

/-- **Where something is expected the text has not been left.** -/
theorem position_le_of_expected (hu : ∀ spec ∈ lexer.tokens, spec.Usable)
    {may : Nat → String → Prop} {s : SequenceState Value} (h : Listed lexer g text may s)
    (hexpected : s.expected g ≠ []) : s.position ≤ text.length := by
  obtain ⟨chains, hlists⟩ := h
  obtain ⟨item, hitem⟩ := SequenceState.exists_current_of_expected hexpected
  rw [hlists.current_eq] at hitem
  obtain ⟨c, hc, -⟩ := List.mem_map.mp hitem
  have hposition : c.position = s.position := of_decide_eq_true (List.mem_filter.mp hc).2
  rw [← hposition]
  exact ((hlists.mem_iff c).mp (List.mem_filter.mp hc).1).position_le hu

/-- **A token that was found is what the text has there.** -/
theorem matches_of_found (hu : ∀ spec ∈ lexer.tokens, spec.Usable)
    (hpure : ∀ spec ∈ lexer.tokens, ∀ callback,
      spec.encoder = .known .custom (some callback) → callback.Pure)
    {position : Nat} {name : String} {spec : TokenSpec} {found : Found} {value : Value}
    {calls calls' : List Call} (hfind : lexer.tokens.find? name = some spec)
    (hverdict : spec.verdict (text.drop position) = .ok (some found))
    (hencode : lexer.tokens.encode name found.text calls = .ok value calls') :
    Offer.Matches lexer text position ⟨name, value, found.length⟩ := by
  obtain ⟨hmem, hname⟩ := TokenTable.of_find?_eq_some hfind
  obtain ⟨length, hlength, hfound⟩ :=
    Option.map_eq_some_iff.mp (TokenSpec.eq_map_of_verdict (hu spec hmem) hverdict).symm
  have hle := (TokenSpec.matchLength?_bounds (hu spec hmem) hlength).2
  have hmatch : lexer.tokens.matchLength? name (text.drop position) = some length :=
    Option.bind_eq_some_iff.mpr ⟨spec, hfind, hlength⟩
  -- the value was made of what was found, which is as long as the match
  subst hfound
  have hsame : ((text.drop position).take length).length = length := by
    rw [List.length_take, Nat.min_eq_left hle]
  obtain ⟨hgives, hvalue⟩ := TokenTable.gives_of_encode hpure
    ⟨name, (text.drop position).take length⟩ hencode
  refine ⟨?_, ?_, ?_⟩
  · show _ = some ((text.drop position).take length).length
    rw [hsame]
    exact hmatch
  · show value = lexer.tokens.valueOf ⟨name, List.take (List.take length _).length _⟩
    rw [hsame]
    exact hvalue.symm
  · show lexer.tokens.Gives ⟨name, List.take (List.take length _).length _⟩
      (lexer.tokens.valueOf ⟨name, List.take (List.take length _).length _⟩)
    rw [hsame, hvalue]
    exact hgives

/-- A terminal that was not found does not match. -/
theorem matchLength?_of_missed (hu : ∀ spec ∈ lexer.tokens, spec.Usable) {rest : List Char}
    {name : String} {spec : TokenSpec} (hfind : lexer.tokens.find? name = some spec)
    (hverdict : spec.verdict rest = .ok none) : lexer.tokens.matchLength? name rest = none := by
  have hnone := TokenSpec.eq_map_of_verdict (hu spec (TokenTable.of_find?_eq_some hfind).1) hverdict
  unfold TokenTable.matchLength?
  rw [hfind]
  exact Option.map_eq_none_iff.mp hnone.symm

/-- A buffer that holds everything is not refilled. -/
theorem RoundFinished.eq_consume {completed : Nat} {b b' : Buffer} (hmin : lexer.minBuffer = 0)
    (h : lexer.RoundFinished completed b b') : b' = b.consume completed := by
  rcases h with ⟨-, heq⟩ | ⟨hshort, -⟩
  · exact heq
  · rw [hmin] at hshort
    exact absurd hshort (Nat.not_lt_zero _)

/-- Completing a position leaves the chains that were come upon, with nothing left to try there. -/
theorem listed_complete {s s' : SequenceState Value} {advance : Advance}
    (hcomplete : (g.recognizer Value).completePosition s = .ok advance s')
    (h : Listed lexer g text (Until s.position []) s) :
    Listed lexer g text (Before s'.position) s' := by
  obtain ⟨chains, hlists⟩ := h
  obtain ⟨-, hitems, hposition, -⟩ := SequenceState.said_of_complete hcomplete
  refine ⟨chains, ?_⟩
  rw [hitems, hposition]
  exact hlists.completed

/-- The terminals that are expected are the ones left to try. -/
theorem listed_expected {s : SequenceState Value}
    (h : Listed lexer g text (Before s.position) s) :
    Listed lexer g text (Until s.position (s.expected g)) s := by
  obtain ⟨chains, hlists⟩ := h
  exact ⟨chains, hlists.expected⟩

/-- **A terminal that does not match is done with**, and leaves the chains as they are. -/
theorem listed_missed (hu : ∀ spec ∈ lexer.tokens, spec.Usable) {s : SequenceState Value}
    {name : String} {left : List String} (hnodup : (name :: left).Nodup)
    (h : Listed lexer g text (Until s.position (name :: left)) s)
    (hmatch : lexer.tokens.matchLength? name (text.drop s.position) = none) :
    left.Nodup ∧ Listed lexer g text (Until s.position left) s := by
  obtain ⟨hfresh, hnodup⟩ := List.nodup_cons.mp hnodup
  obtain ⟨chains, hlists⟩ := h
  exact ⟨hnodup, chains, hlists.missed hu hfresh hmatch⟩

/-- **A token that the text has is offered**, and then its terminal is done with. -/
theorem listed_offered (hu : ∀ spec ∈ lexer.tokens, spec.Usable) {s : SequenceState Value}
    {offer : Offer} {left : List String} (hnodup : (offer.name :: left).Nodup)
    (h : Listed lexer g text (Until s.position (offer.name :: left)) s)
    (hmatches : offer.Matches lexer text s.position) :
    left.Nodup ∧ Listed lexer g text (Until s.position left)
      (s.offer g offer.name offer.value offer.length) := by
  obtain ⟨hfresh, hnodup⟩ := List.nodup_cons.mp hnodup
  obtain ⟨chains, hlists⟩ := h
  rw [hmatches.value_eq]
  exact ⟨hnodup, hlists.offered hu hfresh hmatches.length_eq hmatches.gives⟩

/-- **Where something is expected and no text is left, the text has ended.** -/
theorem position_eq_of_expected (hu : ∀ spec ∈ lexer.tokens, spec.Usable)
    {may : Nat → String → Prop} {s : SequenceState Value} {b : Buffer}
    (hrest : b.HoldsRest text s.position) (hempty : b.text = []) (h : Listed lexer g text may s)
    (hexpected : s.expected g ≠ []) : s.position = text.length := by
  refine Nat.le_antisymm (position_le_of_expected hu h hexpected) ?_
  rw [hrest.text_eq] at hempty
  exact List.drop_eq_nil_iff.mp hempty

/-- **A move keeps the chains listed.** -/
theorem listedAt_move (hu : ∀ spec ∈ lexer.tokens, spec.Usable)
    (hpure : ∀ spec ∈ lexer.tokens, ∀ callback,
      spec.encoder = .known .custom (some callback) → callback.Pure)
    (hmin : lexer.minBuffer = 0) {point point' : Point} {r r' : Run (SequenceState Value)}
    (hmove : Moved lexer (g.recognizer Value) point r point' r')
    (h : ListedAt lexer g text r point) : ListedAt lexer g text r' point' := by
  cases hmove with
  | ended hempty =>
    obtain ⟨hrest, rfl, hexpected, hlisted⟩ := h
    have hposition := position_eq_of_expected hu hrest hempty hlisted hexpected
    refine ⟨hlisted, fun _ => ⟨?_, hposition⟩⟩
    rw [← hposition]
    exact hrest.consumed_eq
  | opened hempty buffer calls state =>
    obtain ⟨hrest, rfl, -, hlisted⟩ := h
    show r'.buffer.HoldsRest text r'.recognizer.position ∧ _
    rw [buffer, state]
    exact ⟨hrest, SequenceState.nodup_expected g r.recognizer, listed_expected hlisted⟩
  | closed =>
    obtain ⟨hrest, -, hlisted⟩ := h
    exact ⟨r.recognizer.position, hrest, rfl, hlisted⟩
  | @unlisted name left _ _ find buffer calls state =>
    obtain ⟨hrest, hnodup, hlisted⟩ := h
    have hnone : lexer.tokens.matchLength? name (text.drop r.recognizer.position) = none := by
      rw [TokenTable.matchLength?, find, Option.bind_none]
    show r'.buffer.HoldsRest text r'.recognizer.position ∧ _
    rw [buffer, state]
    exact ⟨hrest, listed_missed hu hnodup hlisted hnone⟩
  | @missed name left _ _ spec find seek calls state =>
    obtain ⟨hrest, hnodup, hlisted⟩ := h
    obtain ⟨hverdict, hbuffer⟩ := (spec.seek_meets_of_ended hrest.ended).of_ok seek
    rw [hrest.text_eq] at hverdict
    show r'.buffer.HoldsRest text r'.recognizer.position ∧ _
    rw [hbuffer, state]
    exact ⟨hrest, listed_missed hu hnodup hlisted (matchLength?_of_missed hu find hverdict)⟩
  | @found name left _ _ spec found value find seek store state =>
    obtain ⟨hrest, hnodup, hlisted⟩ := h
    obtain ⟨hverdict, hbuffer⟩ := (spec.seek_meets_of_ended hrest.ended).of_ok seek
    rw [hrest.text_eq] at hverdict
    show r'.buffer.HoldsRest text r'.recognizer.position ∧ _
    rw [hbuffer, state]
    exact ⟨hrest, hnodup, hlisted, matches_of_found hu hpure find hverdict store⟩
  | passed => exact h
  | offered take =>
    obtain ⟨hrest, hnodup, hlisted, hmatches⟩ := h
    cases take
    exact ⟨hrest, listed_offered hu hnodup hlisted hmatches⟩
  | more complete kind =>
    obtain ⟨consumed, hrest, hposition, hlisted⟩ := h
    -- nothing is expected at a position that is skipped, so no chain goes on there
    obtain ⟨hsaid, -, hposition', -⟩ := SequenceState.said_of_complete complete
    have hnext := listed_expected (listed_complete complete hlisted)
    rw [(hsaid.of_moreNeeded kind).1] at hnext
    refine ⟨consumed, hrest, ?_, hnext⟩
    dsimp only
    omega
  | @next done _ _ advance complete kind buffer calls =>
    obtain ⟨consumed, hrest, hposition, hlisted⟩ := h
    obtain ⟨hsaid, -, hposition', -⟩ := SequenceState.said_of_complete complete
    obtain ⟨hterminals, hexpected⟩ := hsaid.of_nextExpected kind
    show r'.buffer.HoldsRest text r'.recognizer.position ∧ _
    rw [RoundFinished.eq_consume hmin buffer, hterminals]
    refine ⟨?_, rfl, hexpected, listed_complete complete hlisted⟩
    rw [show r'.recognizer.position = consumed + (done + 1) by omega]
    exact hrest.consume (done + 1)
  | exhausted complete kind buffer calls =>
    obtain ⟨consumed, hrest, hposition, hlisted⟩ := h
    exact ⟨listed_complete complete hlisted, fun houtcome => by cases houtcome⟩
  | failed complete kind buffer calls =>
    obtain ⟨consumed, hrest, hposition, hlisted⟩ := h
    exact ⟨listed_complete complete hlisted, fun houtcome => by cases houtcome⟩
  | stayed => exact h

/-- **The chains are listed where a run begins** that has the whole text from the start, and it does
begin. -/
theorem listedAt_begin (hmin : lexer.minBuffer = 0) (hfilter : lexer.filter = none)
    {pace : Option Nat} (hpace : pace ≠ some 0) (calls : List Call) :
    (begin (g.recognizer Value) (lexer.run (.text text pace) (.initial g) calls)).Meets
      (fun progress r => ListedAt lexer g text r (.ofProgress progress)) (fun _ _ => False) := by
  have hlisted : Listed lexer g text (Before 0) (.initial g) := ⟨_, Lists.start⟩
  have hfilled : (Buffer.refill (lexer.bufferOf (.text text pace))).Meets
      (fun _ b => b.HoldsRest text 0) (fun _ _ => False) := by
    unfold bufferOf
    rw [hmin, hfilter]
    exact Buffer.holdsRest_of_refill hpace
  refine begin_meets (fun r hexpect _ _ => ?_) (fun expected more r hne hexpect hrefill _ => ?_)
    (fun fault r hexpect _ => nomatch hexpect)
    fun _ fault r _ _ hrefill _ => hfilled.of_error hrefill
  · obtain ⟨-, hstate⟩ := SequenceState.expect_eq_ok hexpect
    refine ⟨?_, fun houtcome => by cases houtcome⟩
    rw [hstate]
    exact hlisted
  · obtain ⟨hexpected, hstate⟩ := SequenceState.expect_eq_ok hexpect
    show r.buffer.HoldsRest text r.recognizer.position ∧ _
    rw [hstate]
    exact ⟨hfilled.of_ok hrefill, hexpected, hne, hlisted⟩

/-- **The chains are listed at every moment of a run** that has the whole text from the start. -/
theorem listedAt_after (hu : ∀ spec ∈ lexer.tokens, spec.Usable)
    (hpure : ∀ spec ∈ lexer.tokens, ∀ callback,
      spec.encoder = .known .custom (some callback) → callback.Pure)
    (hmin : lexer.minBuffer = 0) (hfilter : lexer.filter = none) {pace : Option Nat}
    (hpace : pace ≠ some 0) (calls : List Call) :
    ∀ count point r, lexer.after (g.recognizer Value) count
      (lexer.run (.text text pace) (.initial g) calls) = .ok point r →
        ListedAt lexer g text r point :=
  after_induction (fun _ _ hbegin => (listedAt_begin hmin hfilter hpace calls).of_ok hbegin)
    fun _ _ _ _ _ _ _ hmove h => listedAt_move hu hpure hmin (moved_of_move hmove) h

/-- **The parses of a run are its chains.** When a run over a text is over that has read all of it,
with compiled tokens whose callbacks are pure and without a filter, then the parses of a recognizer
of sequences are the chains that end at its position in an accepting state, as the terminals and
values of their tokens. Each chain is there once, and no sequence of terminals makes two chains. If
the input has ended the position is the end of the text. -/
theorem parses_eq_chains {definitions : List (String × Setting)} {store : Setting}
    (hcompile : TokenTable.compile definitions store = .ok lexer.tokens)
    (hpure : ∀ spec ∈ lexer.tokens, ∀ callback,
      spec.encoder = .known .custom (some callback) → callback.Pure)
    (hmin : lexer.minBuffer = 0) (hfilter : lexer.filter = none) {calls : List Call} {limit : Nat}
    {recognition : Recognition} {r : Run (SequenceState Value)}
    (hresult : lexer.recognize (g.recognizer Value) limit
      (lexer.run (.ofText text) (.initial g) calls) = .ok (some recognition) r) :
    (∃ chains : List Chain,
      (chains.map Chain.names).Nodup
        ∧ (∀ c, c ∈ chains ↔ c.Leads lexer.tokens g text ∧ c.position = r.recognizer.position
          ∧ c.state ∈ g.accepting)
        ∧ r.recognizer.parses g = chains.map (fun c => c.tokens.map fun found =>
          (found.name, lexer.tokens.valueOf found))
        ∧ ∀ c ∈ chains, ∀ found ∈ c.tokens,
          lexer.tokens.Gives found (lexer.tokens.valueOf found))
      ∧ (recognition.outcome = .endOfInput →
        recognition.position = text.length ∧ r.recognizer.position = text.length) := by
  have hu := TokenTable.usable_of_compile hcompile
  obtain ⟨count, hfinished⟩ := recognize_finished hresult
  obtain ⟨⟨chains, hlists⟩, hend⟩ := listedAt_after hu hpure hmin hfilter
    (show none ≠ some 0 by decide) calls count _ r hfinished
  refine ⟨⟨chains.filter fun c => c.position = r.recognizer.position ∧ c.state ∈ g.accepting,
    ?_, ?_, hlists.parses_eq, ?_⟩, hend⟩
  · exact hlists.nodup_names.sublist (List.filter_sublist.map Chain.names)
  · intro c
    rw [List.mem_filter, decide_eq_true_iff, hlists.mem_iff]
    constructor
    · rintro ⟨hleads, hposition, hstate⟩
      exact ⟨hleads.leads, hposition, hstate⟩
    · rintro ⟨hleads, hposition, hstate⟩
      -- a chain that ends at the position took all its steps before it
      refine ⟨?_, hposition, hstate⟩
      rw [← hposition]
      exact hleads.leadsBy hu
  · intro c hc found hfound
    exact hlists.gives c (List.mem_filter.mp hc).1 found hfound

end Lexer

/-! ## Tokens that overlap -/

namespace Overlap

/-- Two letters, and both of them together. -/
def definitions : List (String × Setting) :=
  [("a", .plain (.text "a")), ("ab", .plain (.text "ab")), ("b", .plain (.text "b"))]

/-- A lexer for them that reads everything at once, and asks a callback for values. -/
def lexer : Lexer :=
  ⟨[⟨"a", .singleChar ['a'], .known .custom (some .join)⟩,
    ⟨"ab", .literal ['a', 'b'], .known .custom (some .join)⟩,
    ⟨"b", .singleChar ['b'], .known .custom (some .join)⟩], 0, false, none, .log⟩

/-- Both letters, one by one or together, and nothing behind them, where one more is expected but
not accepted. -/
def grammar : SequenceGrammar :=
  ⟨[("start", [("a", some "half"), ("ab", some "end")]), ("half", [("b", some "end")]),
    ("end", [("a", none)])], "start", ["end"]⟩

/-- The callback is pure. -/
theorem pure_of_mem : ∀ spec ∈ lexer.tokens, ∀ callback,
    spec.encoder = .known .custom (some callback) → callback.Pure := by
  intro spec hspec callback hcallback
  have hjoin : spec.encoder = .known .custom (some .join) := by
    simp only [lexer, List.mem_cons, List.not_mem_nil, or_false] at hspec
    rcases hspec with rfl | rfl | rfl <;> rfl
  rw [hjoin] at hcallback
  cases hcallback
  exact fun _ _ _ _ => rfl

end Overlap

namespace Lexer

/-- The run over `ab` ends with the input, and its parses are the chains of `ab`. While the shorter
token is taken the longer one is pending. -/
theorem parses_eq_chains_overlap :
    TokenTable.compile Overlap.definitions (.callback .join) = .ok Overlap.lexer.tokens
      ∧ (∀ spec ∈ Overlap.lexer.tokens, ∀ callback,
        spec.encoder = .known .custom (some callback) → callback.Pure)
      ∧ Overlap.lexer.minBuffer = 0
      ∧ Overlap.lexer.filter = none
      ∧ ∃ r, Overlap.lexer.recognize (Overlap.grammar.recognizer Value) 20
            (Overlap.lexer.run (.ofText "ab".toList) (.initial Overlap.grammar) [])
          = .ok (some (.endOfInput 2 ["a"])) r
        ∧ (r.recognizer.parses Overlap.grammar).map (fun path => path.map Prod.fst)
          = [["ab"], ["a", "b"]]
        ∧ (∃ chains : List Chain,
          (chains.map Chain.names).Nodup
            ∧ (∀ c, c ∈ chains ↔ c.Leads Overlap.lexer.tokens Overlap.grammar "ab".toList
              ∧ c.position = r.recognizer.position ∧ c.state ∈ Overlap.grammar.accepting)
            ∧ r.recognizer.parses Overlap.grammar
              = chains.map (fun c => c.tokens.map fun found =>
                (found.name, Overlap.lexer.tokens.valueOf found))
            ∧ ∀ c ∈ chains, ∀ found ∈ c.tokens,
              Overlap.lexer.tokens.Gives found (Overlap.lexer.tokens.valueOf found))
        ∧ (2 : Int) = "ab".toList.length ∧ r.recognizer.position = "ab".toList.length := by
  have hrun : (Overlap.lexer.recognize (Overlap.grammar.recognizer Value) 20
      (Overlap.lexer.run (.ofText "ab".toList) (.initial Overlap.grammar) [])).answer.toOption
      = some (some (.endOfInput 2 ["a"])) := by
    decide +kernel
  have hresult := EStateM.Result.eq_ok_of_toOption hrun
  obtain ⟨hchains, hend⟩ := parses_eq_chains
    (show TokenTable.compile Overlap.definitions (.callback .join) = .ok Overlap.lexer.tokens
      from rfl)
    Overlap.pure_of_mem rfl rfl hresult
  exact ⟨rfl, Overlap.pure_of_mem, rfl, rfl, _, hresult, by decide +kernel, hchains, hend rfl⟩

end Lexer

end AmbiLex
