import AmbiLex.Proofs.Sequence.Completeness

/-!
# Where a run halts

A run over a text goes from position to position, and at some of them it cannot go on: nothing is
expected there and nothing is pending, or something is expected and the text has ended, or the
definition of an expected terminal is at fault on the text that is left. All of that can be said of
the chains of the text, without a lexer and without a recognizer (`SequenceGrammar.HaltsAt`), and so
can what a run reports that halts at a position (`Recognition.Reports`).

A run that has the whole text from the start halts at the first such position (`recognize_halts`).
There is only one first position, so nothing else about the run has to be known: in which order
terminals are tried, for example, makes no difference to where it halts.

Next to the chains that are listed by then, the invariant is that no position was passed where the
run should have halted (`PassedAt`). Within a round the terminals that have been looked for are
known to be without fault, and the others are still left.
-/

namespace AmbiLex

namespace SequenceGrammar

variable (g : SequenceGrammar) (table : TokenTable) (text : List Char) (position : Nat)

/-- **A terminal is expected at a position** if a chain ends there in a state that lists it. -/
def ExpectsAt (name : String) : Prop :=
  ∃ c : Chain, c.Leads table g text ∧ c.position = position
    ∧ name ∈ (g.transitionsFrom c.state).keys

/-- **Something is pending at a position** if a chain that took all its steps before the position
ends behind it. -/
def PendsAt : Prop :=
  ∃ c : Chain, c.LeadsBy table g text (Before position) ∧ position < c.position

/-- **Nothing is left to do at a position**: nothing is expected and nothing is pending. -/
def SpentAt : Prop :=
  (∀ name, ¬ g.ExpectsAt table text position name) ∧ ¬ g.PendsAt table text position

/-- **The text has ended at a position** where something is expected. -/
def EndedAt : Prop :=
  (∃ name, g.ExpectsAt table text position name) ∧ text.length ≤ position

/-- **A definition is at fault at a position**: that of an expected terminal, on the text that is
left there. -/
def FaultyAt : Prop :=
  position < text.length ∧ ∃ name spec fault, g.ExpectsAt table text position name
    ∧ table.find? name = some spec ∧ spec.verdict (text.drop position) = .error fault

/-- **A run cannot go on from a position.** -/
def HaltsAt : Prop :=
  g.SpentAt table text position ∨ g.EndedAt table text position ∨ g.FaultyAt table text position

/-- **The first position from which a run cannot go on.** -/
def HaltsFirstAt : Prop :=
  g.HaltsAt table text position ∧ ∀ before < position, ¬ g.HaltsAt table text before

variable {g table text position}

/-- There is only one first position. -/
theorem HaltsFirstAt.unique {other : Nat} (h : g.HaltsFirstAt table text position)
    (h' : g.HaltsFirstAt table text other) : position = other := by
  have hle : position ≤ other := Nat.le_of_not_lt fun hlt => h.2 other hlt h'.1
  have hge : other ≤ position := Nat.le_of_not_lt fun hlt => h'.2 position hlt h.1
  exact Nat.le_antisymm hle hge

/-- A run that goes on from all positions before one and from that one goes on from all up to it. -/
theorem not_haltsAt_upTo (hpassed : ∀ before < position, ¬ g.HaltsAt table text before)
    (hhere : ¬ g.HaltsAt table text position) :
    ∀ before ≤ position, ¬ g.HaltsAt table text before := by
  intro before hle
  rcases Nat.lt_or_eq_of_le hle with hlt | rfl
  · exact hpassed before hlt
  · exact hhere

/-- Where a definition is at fault something is expected. -/
theorem FaultyAt.not_spentAt (h : g.FaultyAt table text position) :
    ¬ g.SpentAt table text position := by
  obtain ⟨-, name, -, -, hexpects, -⟩ := h
  exact fun hspent => hspent.1 name hexpects

/-- Where a definition is at fault there is text. -/
theorem FaultyAt.not_endedAt (h : g.FaultyAt table text position) :
    ¬ g.EndedAt table text position :=
  fun hended => Nat.not_lt_of_le hended.2 h.1

/-- **Where something is pending and nothing is expected, a run goes on.** -/
theorem not_haltsAt_of_pendsAt (hexpects : ∀ name, ¬ g.ExpectsAt table text position name)
    (hpends : g.PendsAt table text position) : ¬ g.HaltsAt table text position := by
  rintro (⟨-, hnone⟩ | ⟨⟨name, hname⟩, -⟩ | ⟨-, name, -, -, hname, -⟩)
  · exact hnone hpends
  · exact hexpects name hname
  · exact hexpects name hname

/-- **Where something is expected and there is text, a run goes on** if no definition is at fault.
-/
theorem not_haltsAt_of_expectsAt (htext : position < text.length)
    (hexpects : ∃ name, g.ExpectsAt table text position name)
    (hsound : ∀ name, g.ExpectsAt table text position name → ∀ spec fault,
      table.find? name = some spec → spec.verdict (text.drop position) ≠ .error fault) :
    ¬ g.HaltsAt table text position := by
  rintro (⟨hnone, -⟩ | ⟨-, hle⟩ | ⟨-, name, spec, fault, hname, hfind, hverdict⟩)
  · obtain ⟨name, hname⟩ := hexpects
    exact hnone name hname
  · exact Nat.not_lt_of_le hle htext
  · exact hsound name hname spec fault hfind hverdict

end SequenceGrammar

open SequenceGrammar

/-- **What a run reports that halts at a position.**

* Exhausted, if there is nothing left to do and a chain ends there.
* Failed, if there is nothing left to do and no chain ends there. It is the position before that is
  reported then.
* End of input, with the terminals that are expected there, each once. -/
inductive Recognition.Reports (g : SequenceGrammar) (table : TokenTable) (text : List Char) :
    Nat → Recognition → Prop
  /-- A chain ends at the position. -/
  | exhausted {position : Nat} (spent : g.SpentAt table text position)
    (chain : ∃ c : Chain, c.Leads table g text ∧ c.position = position) :
    Reports g table text position (.exhausted position)
  /-- No chain ends at the position. -/
  | failed {position : Nat} (spent : g.SpentAt table text (position + 1))
    (chain : ∀ c : Chain, c.Leads table g text → c.position ≠ position + 1) :
    Reports g table text (position + 1)
      (.failed position (some ("No token fits at position " ++ toString position)))
  /-- Something is expected, but the text has ended. -/
  | endOfInput {position : Nat} {expected : List String} (ended : g.EndedAt table text position)
    (nodup : expected.Nodup)
    (mem_iff : ∀ name, name ∈ expected ↔ g.ExpectsAt table text position name) :
    Reports g table text position (.endOfInput position expected)

/-- **Only a run that cannot go on reports something**, and it does so where nothing is at fault. -/
theorem Recognition.Reports.haltsAt {g : SequenceGrammar} {table : TokenTable} {text : List Char}
    {position : Nat} {recognition : Recognition} (h : recognition.Reports g table text position) :
    g.HaltsAt table text position ∧ ¬ g.FaultyAt table text position := by
  cases h with
  | exhausted spent chain => exact ⟨.inl spent, fun hfaulty => hfaulty.not_spentAt spent⟩
  | failed spent chain => exact ⟨.inl spent, fun hfaulty => hfaulty.not_spentAt spent⟩
  | endOfInput ended nodup mem_iff =>
    exact ⟨.inr (.inl ended), fun hfaulty => hfaulty.not_endedAt ended⟩

/-- **An encoder that makes values without a callback.** -/
def Encoder.Plain (encoder : Encoder) : Prop :=
  ∃ mode callback, encoder = .known mode callback ∧ mode ≠ .custom

/-- Taking the text for the value is such an encoder. -/
theorem Encoder.plain_scalar : (Encoder.known .scalar none).Plain :=
  ⟨.scalar, none, rfl, by decide⟩

/-- Such an encoder makes its value at once. -/
theorem Encoder.Plain.encode_ne_error {encoder : Encoder} (h : encoder.Plain) {token : String}
    {text : List Char} {calls calls' : List Call} {fault : Fault} :
    encoder.encode token text calls ≠ .error fault calls' := by
  obtain ⟨mode, callback, rfl, hmode⟩ := h
  cases mode with
  | custom => exact absurd rfl hmode
  | _ => exact fun h => nomatch h

/-- It has no callback to ask. -/
theorem Encoder.Plain.pure {encoder : Encoder} (h : encoder.Plain) (callback : Callback)
    (hcallback : encoder = .known .custom (some callback)) : callback.Pure := by
  obtain ⟨mode, _, rfl, hmode⟩ := h
  cases hcallback
  exact absurd rfl hmode

namespace Lexer

variable {lexer : Lexer} {g : SequenceGrammar} {text : List Char}

/-! ## What the listed chains say of a position -/

section

variable {s : SequenceState Value}

/-- **What a recognizer expects is what is expected at its position.** -/
theorem mem_expected_iff (hu : ∀ spec ∈ lexer.tokens, spec.Usable)
    (h : Listed lexer g text (Before s.position) s) (name : String) :
    name ∈ s.expected g ↔ g.ExpectsAt lexer.tokens text s.position name := by
  obtain ⟨chains, hlists⟩ := h
  rw [SequenceState.expected, List.mem_eraseDups, List.mem_flatMap]
  constructor
  · rintro ⟨item, hitem, hname⟩
    rw [hlists.current_eq] at hitem
    obtain ⟨c, hc, rfl⟩ := List.mem_map.mp hitem
    obtain ⟨hmem, hposition⟩ := List.mem_filter.mp hc
    exact ⟨c, ((hlists.mem_iff c).mp hmem).leads, of_decide_eq_true hposition, hname⟩
  · rintro ⟨c, hleads, hposition, hname⟩
    have hleadsBy := hleads.leadsBy hu
    rw [hposition] at hleadsBy
    exact ⟨c.item lexer.tokens, hlists.item_mem_current hleadsBy hposition, hname⟩

/-- Nothing is expected by a recognizer exactly if nothing is expected at its position. -/
theorem expected_eq_nil_iff (hu : ∀ spec ∈ lexer.tokens, spec.Usable)
    (h : Listed lexer g text (Before s.position) s) :
    s.expected g = [] ↔ ∀ name, ¬ g.ExpectsAt lexer.tokens text s.position name := by
  rw [List.eq_nil_iff_forall_not_mem]
  exact forall_congr' fun name => not_congr (mem_expected_iff hu h name)

/-- **What is pending for a recognizer is pending at its position.** -/
theorem pending_iff (h : Listed lexer g text (Before s.position) s) :
    s.pending = true ↔ g.PendsAt lexer.tokens text s.position := by
  obtain ⟨chains, hlists⟩ := h
  rw [SequenceState.pending, hlists.items_eq, List.any_eq_true]
  constructor
  · rintro ⟨item, hitem, hahead⟩
    obtain ⟨c, hc, rfl⟩ := List.mem_map.mp hitem
    exact ⟨c, (hlists.mem_iff c).mp hc, Int.ofNat_lt.mp (of_decide_eq_true hahead)⟩
  · rintro ⟨c, hleads, hahead⟩
    exact ⟨c.item lexer.tokens, List.mem_map_of_mem ((hlists.mem_iff c).mpr hleads),
      decide_eq_true (Int.ofNat_lt.mpr hahead)⟩

/-- **There are items at a recognizer's position exactly if a chain ends there.** -/
theorem current_ne_nil_iff (hu : ∀ spec ∈ lexer.tokens, spec.Usable)
    (h : Listed lexer g text (Before s.position) s) :
    s.current ≠ [] ↔ ∃ c : Chain, c.Leads lexer.tokens g text ∧ c.position = s.position := by
  obtain ⟨chains, hlists⟩ := h
  constructor
  · intro hne
    obtain ⟨item, hitem⟩ := List.exists_mem_of_ne_nil _ hne
    rw [hlists.current_eq] at hitem
    obtain ⟨c, hc, rfl⟩ := List.mem_map.mp hitem
    obtain ⟨hmem, hposition⟩ := List.mem_filter.mp hc
    exact ⟨c, ((hlists.mem_iff c).mp hmem).leads, of_decide_eq_true hposition⟩
  · rintro ⟨c, hleads, hposition⟩
    have hleadsBy := hleads.leadsBy hu
    rw [hposition] at hleadsBy
    exact List.ne_nil_of_mem (hlists.item_mem_current hleadsBy hposition)

/-- Where nothing is expected by a recognizer and nothing is pending, nothing is left to do. -/
theorem spentAt_of_listed (hu : ∀ spec ∈ lexer.tokens, spec.Usable)
    (h : Listed lexer g text (Before s.position) s) (hexpected : s.expected g = [])
    (hpending : s.pending = false) : g.SpentAt lexer.tokens text s.position := by
  refine ⟨(expected_eq_nil_iff hu h).mp hexpected, fun hpends => ?_⟩
  rw [(pending_iff h).mpr hpends] at hpending
  cases hpending

/-- **Where nothing follows the position that is completed, nothing was pending before it.** -/
theorem eq_zero_of_spent (hu : ∀ spec ∈ lexer.tokens, spec.Usable) {position done : Nat}
    (h : Listed lexer g text (Before s.position) s) (hposition : s.position = position + 1)
    (hcurrent : s.current = []) (hpending : s.pending = false)
    (hpends : done ≠ 0 → g.PendsAt lexer.tokens text position) : done = 0 := by
  refine Classical.byContradiction fun hdone => ?_
  obtain ⟨c, hleads, hahead⟩ := hpends hdone
  -- the chain that was pending has its end at the next position, or is still pending
  rcases Nat.lt_or_eq_of_le (Nat.succ_le_of_lt hahead) with hlt | heq
  · have hstill : g.PendsAt lexer.tokens text s.position :=
      ⟨c, hleads.mono fun _ _ hbefore => Nat.lt_trans hbefore (by omega), by omega⟩
    rw [(pending_iff h).mpr hstill] at hpending
    cases hpending
  · exact (current_ne_nil_iff hu h).mpr ⟨c, hleads.leads, by omega⟩ hcurrent

end

/-! ## What there is to report -/

section

variable {s s' : SequenceState Value} {b b' : Buffer} {advance : Advance}

/-- **An end of input is reported rightly** where the buffer holds the rest of the text. -/
theorem reports_endOfInput (hu : ∀ spec ∈ lexer.tokens, spec.Usable)
    (hrest : b.HoldsRest text s.position) (hempty : b.text = [])
    (h : Listed lexer g text (Before s.position) s) (hexpected : s.expected g ≠ []) :
    (Recognition.endOfInput b.consumed (s.expected g)).Reports g lexer.tokens text s.position := by
  have hmem := mem_expected_iff hu h
  obtain ⟨name, hname⟩ := List.exists_mem_of_ne_nil _ hexpected
  have hended : text.length ≤ s.position := by
    rw [hrest.text_eq] at hempty
    exact List.drop_eq_nil_iff.mp hempty
  rw [hrest.consumed_eq]
  exact .endOfInput ⟨⟨name, (hmem name).mp hname⟩, hended⟩ (SequenceState.nodup_expected g s) hmem

/-- **A definition that was looked for is not at fault** on the rest of the text. -/
theorem verdict_ne_error_of_seek {name : String} {spec spec' : TokenSpec} {found : Option Found}
    {position : Nat} (hrest : b.HoldsRest text position)
    (hfind : lexer.tokens.find? name = some spec) (hseek : spec.seek b = .ok found b')
    (hfind' : lexer.tokens.find? name = some spec') (fault : Fault) :
    spec'.verdict (text.drop position) ≠ .error fault := by
  obtain rfl := Option.some.inj (hfind.symm.trans hfind')
  have hverdict := ((spec.seek_meets_of_ended hrest.ended).of_ok hseek).1
  rw [hrest.text_eq] at hverdict
  intro hfault
  rw [hfault] at hverdict
  cases hverdict

/-- **More is needed only where a run goes on**: something is pending there. -/
theorem pendsAt_of_moreNeeded (hu : ∀ spec ∈ lexer.tokens, spec.Usable)
    (hcomplete : (g.recognizer Value).completePosition s = .ok advance s')
    (hkind : advance.kind = .moreNeeded) (h : Listed lexer g text (Until s.position []) s) :
    g.PendsAt lexer.tokens text s'.position ∧ ¬ g.HaltsAt lexer.tokens text s'.position := by
  have hnext := listed_complete hcomplete h
  obtain ⟨hsaid, -⟩ := SequenceState.said_of_complete hcomplete
  obtain ⟨hexpected, hpending⟩ := hsaid.of_moreNeeded hkind
  have hpends := (pending_iff hnext).mp hpending
  exact ⟨hpends, not_haltsAt_of_pendsAt ((expected_eq_nil_iff hu hnext).mp hexpected) hpends⟩

/-- **Exhaustion is reported rightly**, at the position that follows the completed one. -/
theorem reports_exhausted (hu : ∀ spec ∈ lexer.tokens, spec.Usable)
    (hcomplete : (g.recognizer Value).completePosition s = .ok advance s')
    (hkind : advance.kind = .exhausted) (h : Listed lexer g text (Until s.position []) s) :
    (Recognition.exhausted s'.position).Reports g lexer.tokens text s'.position := by
  have hnext := listed_complete hcomplete h
  obtain ⟨hsaid, -⟩ := SequenceState.said_of_complete hcomplete
  cases hsaid with
  | exhausted current expected pending =>
    exact .exhausted (spentAt_of_listed hu hnext expected pending)
      ((current_ne_nil_iff hu hnext).mp current)
  | more expected pending => cases hkind
  | next expected => cases hkind
  | failure current pending => cases hkind

/-- **A failure is reported rightly**, with the completed position, and no other position was
completed in the same round. -/
theorem reports_failed (hu : ∀ spec ∈ lexer.tokens, spec.Usable) {done : Nat}
    (hcomplete : (g.recognizer Value).completePosition s = .ok advance s')
    (hkind : advance.kind = .failure) (h : Listed lexer g text (Until s.position []) s)
    (hpends : done ≠ 0 → g.PendsAt lexer.tokens text s.position) :
    done = 0
      ∧ (Recognition.failed s.position advance.detail).Reports g lexer.tokens text s'.position := by
  have hnext := listed_complete hcomplete h
  obtain ⟨hsaid, -, hposition, -⟩ := SequenceState.said_of_complete hcomplete
  cases hsaid with
  | failure current pending =>
    refine ⟨eq_zero_of_spent hu hnext hposition current pending hpends, ?_⟩
    have hspent := spentAt_of_listed hu hnext
      (SequenceState.expected_of_current_eq_nil current) pending
    have hnone : ∀ c : Chain, c.Leads lexer.tokens g text → c.position ≠ s'.position :=
      fun c hleads heq => (current_ne_nil_iff hu hnext).mpr ⟨c, hleads, heq⟩ current
    rw [hposition] at hspent hnone ⊢
    exact .failed hspent hnone
  | more expected pending => cases hkind
  | next expected => cases hkind
  | exhausted current expected pending => cases hkind

end

/-! ## No halt is passed -/

/-- **What is known at a point of a run of the positions where it should halt**: none was passed.
Where the run is over it is reported what there is to report. -/
def PassedAt (lexer : Lexer) (g : SequenceGrammar) (text : List Char)
    (r : Run (SequenceState Value)) : Point → Prop
  | .head _ => ∀ before < r.recognizer.position, ¬ g.HaltsAt lexer.tokens text before
  | .seeking left | .sought _ left =>
    (∀ before < r.recognizer.position, ¬ g.HaltsAt lexer.tokens text before)
      ∧ r.recognizer.position < text.length
      ∧ (∃ name, g.ExpectsAt lexer.tokens text r.recognizer.position name)
      ∧ (∀ name ∈ left, g.ExpectsAt lexer.tokens text r.recognizer.position name)
      ∧ ∀ name, g.ExpectsAt lexer.tokens text r.recognizer.position name → name ∉ left →
        ∀ spec fault, lexer.tokens.find? name = some spec →
          spec.verdict (text.drop r.recognizer.position) ≠ .error fault
  | .completing done =>
    (∀ before ≤ r.recognizer.position, ¬ g.HaltsAt lexer.tokens text before)
      ∧ (done ≠ 0 → g.PendsAt lexer.tokens text r.recognizer.position)
  | .finished recognition =>
    (∀ before < r.recognizer.position, ¬ g.HaltsAt lexer.tokens text before)
      ∧ recognition.Reports g lexer.tokens text r.recognizer.position

/-- A round goes on with one terminal less, if the definition of that one is not at fault. -/
theorem passedAt_sought {name : String} {left : List String} {offer : Option Offer}
    {r r' : Run (SequenceState Value)} (hstate : r'.recognizer = r.recognizer)
    (h : PassedAt lexer g text r (.seeking (name :: left)))
    (hsound : ∀ spec fault, lexer.tokens.find? name = some spec →
      spec.verdict (text.drop r.recognizer.position) ≠ .error fault) :
    PassedAt lexer g text r' (.sought offer left) := by
  obtain ⟨hpassed, htext, hexpects, hleft, hdone⟩ := h
  unfold PassedAt
  rw [hstate]
  refine ⟨hpassed, htext, hexpects, fun other hmem => hleft other (List.mem_cons_of_mem name hmem),
    fun other hother hnot => ?_⟩
  by_cases heq : other = name
  · rw [heq]
    exact hsound
  · exact hdone other hother fun hmem => (List.mem_cons.mp hmem).elim heq hnot

/-- A round begins where something is expected and there is text, with all terminals left. -/
theorem passedAt_opened (hu : ∀ spec ∈ lexer.tokens, spec.Usable)
    {r r' : Run (SequenceState Value)} (hstate : r'.recognizer = r.recognizer)
    (hnonempty : r.buffer.text ≠ [])
    (hlisted : ListedAt lexer g text r (.head (r.recognizer.expected g)))
    (h : PassedAt lexer g text r (.head (r.recognizer.expected g))) :
    PassedAt lexer g text r' (.seeking (r.recognizer.expected g)) := by
  obtain ⟨hrest, -, hexpected, hchains⟩ := hlisted
  have hmem := mem_expected_iff hu hchains
  obtain ⟨name, hname⟩ := List.exists_mem_of_ne_nil _ hexpected
  have htext : r.recognizer.position < text.length := by
    rw [hrest.text_eq] at hnonempty
    exact Nat.lt_of_not_le fun hle => hnonempty (List.drop_eq_nil_of_le hle)
  unfold PassedAt
  rw [hstate]
  exact ⟨h, htext, ⟨name, (hmem name).mp hname⟩, fun name hname => (hmem name).mp hname,
    fun name hname hnot => absurd ((hmem name).mpr hname) hnot⟩

/-- **No move passes a position where the run should halt.** -/
theorem passedAt_move (hu : ∀ spec ∈ lexer.tokens, spec.Usable) {point point' : Point}
    {r r' : Run (SequenceState Value)}
    (hmove : Moved lexer (g.recognizer Value) point r point' r')
    (hlisted : ListedAt lexer g text r point) (h : PassedAt lexer g text r point) :
    PassedAt lexer g text r' point' := by
  cases hmove with
  | ended hempty =>
    obtain ⟨hrest, rfl, hexpected, hchains⟩ := hlisted
    exact ⟨h, reports_endOfInput hu hrest hempty hchains hexpected⟩
  | opened hnonempty buffer calls state =>
    obtain rfl := hlisted.2.1
    exact passedAt_opened hu state hnonempty hlisted h
  | closed =>
    obtain ⟨hpassed, htext, hexpects, -, hdone⟩ := h
    have hhere := not_haltsAt_of_expectsAt htext hexpects fun name hname =>
      hdone name hname List.not_mem_nil
    exact ⟨not_haltsAt_upTo hpassed hhere, fun hzero => absurd rfl hzero⟩
  | unlisted find buffer calls state =>
    refine passedAt_sought state h fun spec fault hfind => ?_
    rw [find] at hfind
    cases hfind
  | missed find seek calls state =>
    exact passedAt_sought state h fun _ fault hfind =>
      verdict_ne_error_of_seek hlisted.1 find seek hfind fault
  | found find seek store state =>
    exact passedAt_sought state h fun _ fault hfind =>
      verdict_ne_error_of_seek hlisted.1 find seek hfind fault
  | passed => exact h
  | offered take =>
    cases take
    exact h
  | @more done _ advance state complete kind =>
    obtain ⟨-, -, -, hchains⟩ := hlisted
    obtain ⟨-, -, hposition, -⟩ := SequenceState.said_of_complete complete
    obtain ⟨hpends, hhere⟩ := pendsAt_of_moreNeeded hu complete kind hchains
    have hpassed : ∀ before < state.position, ¬ g.HaltsAt lexer.tokens text before :=
      fun before hlt => h.1 before (by omega)
    exact ⟨not_haltsAt_upTo hpassed hhere, fun _ => hpends⟩
  | next complete kind buffer calls =>
    obtain ⟨-, -, hposition, -⟩ := SequenceState.said_of_complete complete
    exact fun before hlt => h.1 before (by omega)
  | @exhausted done _ _ advance complete kind buffer calls =>
    obtain ⟨consumed, hrest, hconsumed, hchains⟩ := hlisted
    obtain ⟨-, -, hposition, -⟩ := SequenceState.said_of_complete complete
    -- what the recognizer has completed is consumed, this position included
    have hstands : r'.buffer.consumed = r'.recognizer.position := by
      rw [buffer, (hrest.consume (done + 1)).consumed_eq, hposition]
      omega
    rw [hstands]
    exact ⟨fun before hlt => h.1 before (by omega), reports_exhausted hu complete kind hchains⟩
  | failed complete kind buffer calls =>
    obtain ⟨consumed, hrest, hconsumed, hchains⟩ := hlisted
    obtain ⟨-, -, hposition, -⟩ := SequenceState.said_of_complete complete
    obtain ⟨rfl, hreports⟩ := reports_failed hu complete kind hchains h.2
    have hstands : r'.buffer.consumed = r.recognizer.position := by
      rw [buffer, hrest.consumed_eq]
      omega
    rw [hstands]
    exact ⟨fun before hlt => h.1 before (by omega), hreports⟩
  | stayed => exact h

/-- **A fault on the way is one of a definition**, at the first position where the run has to halt.
-/
theorem faultyAt_of_stopped (hu : ∀ spec ∈ lexer.tokens, spec.Usable)
    (hplain : ∀ spec ∈ lexer.tokens, spec.encoder.Plain) {point : Point}
    {r r' : Run (SequenceState Value)} {fault : Fault}
    (hstop : Stopped lexer (g.recognizer Value) point r fault r')
    (hlisted : ListedAt lexer g text r point) (h : PassedAt lexer g text r point) :
    fault.cls = .tokenSpec ∧ ∃ position, g.HaltsFirstAt lexer.tokens text position
      ∧ g.FaultyAt lexer.tokens text position := by
  cases hstop with
  | @unsought name left _ _ spec _ find seek calls state =>
    obtain ⟨hpassed, htext, -, hleft, -⟩ := h
    have hverdict := (spec.seek_meets_of_ended hlisted.1.ended).of_error seek
    have hfault := TokenSpec.cls_of_verdict (hu spec (TokenTable.of_find?_eq_some find).1) hverdict
    rw [hlisted.1.text_eq] at hverdict
    have hfaulty : g.FaultyAt lexer.tokens text r.recognizer.position :=
      ⟨htext, name, spec, fault, hleft name List.mem_cons_self, find, hverdict⟩
    exact ⟨hfault, _, ⟨.inr (.inr hfaulty), hpassed⟩, hfaulty⟩
  | @unstored name left _ _ spec found _ find seek store state =>
    unfold TokenTable.encode at store
    rw [find] at store
    exact absurd store (hplain spec (TokenTable.of_find?_eq_some find).1).encode_ne_error
  | refused take => cases take
  | uncompleted complete => cases complete
  | misunderstood complete kind =>
    obtain ⟨hsaid, -⟩ := SequenceState.said_of_complete complete
    cases hsaid <;> cases kind
  | @unfilled done _ _ advance _ complete kind refill calls =>
    -- the source has ended, so that nothing is read any more
    obtain ⟨consumed, hrest, -⟩ := hlisted
    rw [Buffer.refill_of_ended (hrest.consume (done + 1)).ended] at refill
    cases refill

/-- **What a run has come to that halts as it should.** If it is over, its recognizer is at the
first position from which it cannot go on and has listed the chains up to there, and it is reported
what there is to report of the position. If it stopped with a fault, a definition is at fault at
that position. -/
def Halted (lexer : Lexer) (g : SequenceGrammar) (text : List Char)
    (result : EStateM.Result Fault (Run (SequenceState Value)) (Option Recognition)) : Prop :=
  result.Meets
    (fun answer r => ∀ recognition, answer = some recognition →
      g.HaltsFirstAt lexer.tokens text r.recognizer.position
        ∧ recognition.Reports g lexer.tokens text r.recognizer.position
        ∧ Listed lexer g text (Before r.recognizer.position) r.recognizer)
    (fun fault _ => fault.cls = .tokenSpec ∧ ∃ position,
      g.HaltsFirstAt lexer.tokens text position ∧ g.FaultyAt lexer.tokens text position)

/-- **A run halts at the first position from which it cannot go on**, if it has the whole text from
the start, and tokens that are usable and need no callback. -/
theorem recognize_halts (hu : ∀ spec ∈ lexer.tokens, spec.Usable)
    (hplain : ∀ spec ∈ lexer.tokens, spec.encoder.Plain) (hmin : lexer.minBuffer = 0)
    (hfilter : lexer.filter = none) {pace : Option Nat} (hpace : pace ≠ some 0)
    (calls : List Call) (limit : Nat) :
    Halted lexer g text (lexer.recognize (g.recognizer Value) limit
      (lexer.run (.text text pace) (.initial g) calls)) := by
  have hbegin : (begin (g.recognizer Value)
      (lexer.run (.text text pace) (.initial g) calls)).Meets
      (fun progress r => PassedAt lexer g text r (.ofProgress progress)) (fun _ _ => True) := by
    refine begin_meets (fun r hexpect _ _ => ?_) (fun expected more r _ hexpect _ _ => ?_)
      (fun _ _ _ _ => trivial) fun _ _ _ _ _ _ _ => trivial
    · obtain ⟨hexpected, hstate⟩ := SequenceState.expect_eq_ok hexpect
      have hlisted : Listed lexer g text (Before 0) (.initial g) := ⟨_, Lists.start⟩
      show (∀ before < r.recognizer.position, _) ∧ Recognition.Reports _ _ _ _ _
      rw [hstate]
      exact ⟨fun _ hlt => absurd hlt (Nat.not_lt_zero _),
        .exhausted (spentAt_of_listed hu hlisted hexpected.symm rfl) ⟨_, .start, rfl⟩⟩
    · obtain ⟨-, hstate⟩ := SequenceState.expect_eq_ok hexpect
      show ∀ before < r.recognizer.position, _
      rw [hstate]
      exact fun _ hlt => absurd hlt (Nat.not_lt_zero _)
  have hmove : ∀ point r, ListedAt lexer g text r point ∧ PassedAt lexer g text r point →
      (lexer.move (g.recognizer Value) point r).Meets
        (fun point' r' => ListedAt lexer g text r' point' ∧ PassedAt lexer g text r' point')
        (fun fault _ => fault.cls = .tokenSpec ∧ ∃ position,
          g.HaltsFirstAt lexer.tokens text position ∧ g.FaultyAt lexer.tokens text position) :=
    fun point r h => move_meets
      (fun _ _ hmoved => ⟨listedAt_move hu (fun spec hspec => (hplain spec hspec).pure) hmin hmoved
        h.1, passedAt_move hu hmoved h.1 h.2⟩)
      fun _ _ hstopped => faultyAt_of_stopped hu hplain hstopped h.1 h.2
  refine (recognize_meets (((listedAt_begin hmin hfilter hpace calls).and hbegin).mono
    (fun _ _ h => h) fun _ _ h => h.1.elim) hmove limit).mono ?_ fun _ _ h => h
  rintro answer r ⟨point, hpoint, hlisted, hpassed⟩ recognition rfl
  cases point with
  | finished recognition' =>
    cases hpoint
    exact ⟨⟨hpassed.2.haltsAt.1, hpassed.1⟩, hpassed.2, hlisted.1⟩
  | _ => cases hpoint

end Lexer

end AmbiLex
