import AmbiLex.Proofs.Run.ChunkIndependence
import AmbiLex.Proofs.Sequence.Halting
import AmbiLex.Proofs.Sequence.Termination

/-!
# The order in which terminals are tried

A state of an automaton lists its terminals in some order, and that is the order in which a run
tries them. Listing them in another order (`SequenceGrammar.Reorders`) should make no difference to
what a run comes to: the same outcome at the same position with the same detail, the same terminals
expected and the same parses, though perhaps in another order, or the same kind of fault
(`Lexer.SameUpToOrder`). Which definition is at fault does depend on the order, if several are.

A text has the same chains for both automata, so it makes runs halt at the same position. With the
whole text from the start that is all there is to see, because a run halts at the first position
from which it cannot go on, and what it reports there and the items it has listed by then are the
chains' own. With patterns that are stable a run over chunks takes the course of the run over the
whole text, and does not depend on the order either (`orderIndependent_of_stable`).
-/

namespace AmbiLex

namespace Keyed

variable {α : Type} {entries entries' : Keyed α}

/-- An entry is found under its key, if no key is given twice. -/
theorem get?_eq_some_iff (hnodup : entries.keys.Nodup) (key : String) (value : α) :
    entries.get? key = some value ↔ (key, value) ∈ entries := by
  induction entries with
  | nil => simp
  | cons entry entries ih =>
    obtain ⟨k, v⟩ := entry
    obtain ⟨hfresh, hnodup⟩ := List.nodup_cons.mp hnodup
    rw [get?_cons, List.mem_cons, Prod.mk.injEq]
    split
    · rename_i heq
      subst heq
      have hnot : (k, value) ∉ entries := fun hmem =>
        hfresh (List.mem_map.mpr ⟨_, hmem, rfl⟩)
      simp [hnot, eq_comm]
    · rename_i hne
      rw [ih hnodup]
      exact ⟨.inr, fun h => h.resolve_left fun heq => hne heq.1.symm⟩

/-- **What stands under a key does not depend on the order of the entries.** -/
theorem get?_eq_of_perm (hnodup : entries.keys.Nodup) (hperm : entries.Perm entries')
    (key : String) : entries.get? key = entries'.get? key := by
  have hnodup' : entries'.keys.Nodup := (hperm.map Prod.fst).nodup_iff.mp hnodup
  ext value
  rw [get?_eq_some_iff hnodup, get?_eq_some_iff hnodup', hperm.mem_iff]

end Keyed

/-- **Two automata that differ only in the order in which their states list terminals.** No state
lists a terminal twice. -/
structure SequenceGrammar.Reorders (g g' : SequenceGrammar) : Prop where
  /-- They start in the same state. -/
  start_eq : g.start = g'.start
  /-- They accept in the same states. -/
  accepting_eq : g.accepting = g'.accepting
  /-- Each state lists the same terminals and leads to the same states with them. -/
  perm : ∀ state, (g.transitionsFrom state).Perm (g'.transitionsFrom state)
  /-- No terminal is listed twice. -/
  nodup : ∀ state, (g.transitionsFrom state).keys.Nodup

namespace SequenceGrammar.Reorders

variable {g g' : SequenceGrammar} {table : TokenTable} {text : List Char} {position : Nat}

theorem symm (h : g.Reorders g') : g'.Reorders g :=
  ⟨h.start_eq.symm, h.accepting_eq.symm, fun state => (h.perm state).symm,
    fun state => ((h.perm state).map Prod.fst).nodup_iff.mp (h.nodup state)⟩

/-- A terminal leads to the same state. -/
theorem target?_eq (h : g.Reorders g') (state terminal : String) :
    g.target? state terminal = g'.target? state terminal := by
  unfold target?
  rw [Keyed.get?_eq_of_perm (h.nodup state) (h.perm state)]

/-- A state lists the same terminals. -/
theorem mem_keys_iff (h : g.Reorders g') (state name : String) :
    name ∈ (g.transitionsFrom state).keys ↔ name ∈ (g'.transitionsFrom state).keys :=
  ((h.perm state).map Prod.fst).mem_iff

/-! ## The same chains -/

/-- The empty chains are the same. -/
theorem start_chain_eq (h : g.Reorders g') : Chain.start g = Chain.start g' := by
  unfold Chain.start
  rw [h.start_eq]

/-- A chain goes on alike. -/
theorem then?_eq (h : g.Reorders g') (name : String) (c : Chain) :
    c.then? table g text name = c.then? table g' text name := by
  unfold Chain.then?
  rw [h.target?_eq]

/-- **A text has the same chains.** -/
theorem leads (h : g.Reorders g') {c : Chain} (hc : c.Leads table g text) :
    c.Leads table g' text := by
  induction hc with
  | start => exact h.start_chain_eq ▸ .start
  | step _ hthen ih => exact .step ih ((h.then?_eq _ _).symm.trans hthen)

/-- The same chains are come upon before a position. -/
theorem leadsBy (h : g.Reorders g') {may : Nat → String → Prop} {c : Chain}
    (hc : c.LeadsBy table g text may) : c.LeadsBy table g' text may := by
  induction hc with
  | start => exact h.start_chain_eq ▸ .start
  | step _ hmay hthen ih => exact .step ih hmay ((h.then?_eq _ _).symm.trans hthen)

/-- The same terminals are expected at a position. -/
theorem expectsAt_iff (h : g.Reorders g') (name : String) :
    g.ExpectsAt table text position name ↔ g'.ExpectsAt table text position name :=
  ⟨fun ⟨c, hc, hposition, hname⟩ => ⟨c, h.leads hc, hposition, (h.mem_keys_iff _ _).mp hname⟩,
    fun ⟨c, hc, hposition, hname⟩ =>
      ⟨c, h.symm.leads hc, hposition, (h.mem_keys_iff _ _).mpr hname⟩⟩

/-- Something is pending at the same positions. -/
theorem pendsAt_iff (h : g.Reorders g') :
    g.PendsAt table text position ↔ g'.PendsAt table text position :=
  ⟨fun ⟨c, hc, hahead⟩ => ⟨c, h.leadsBy hc, hahead⟩,
    fun ⟨c, hc, hahead⟩ => ⟨c, h.symm.leadsBy hc, hahead⟩⟩

/-- **Runs cannot go on from the same positions.** -/
theorem haltsAt_iff (h : g.Reorders g') :
    g.HaltsAt table text position ↔ g'.HaltsAt table text position := by
  unfold HaltsAt SpentAt EndedAt FaultyAt
  simp only [h.expectsAt_iff, h.pendsAt_iff]

/-- The first of these positions is the same. -/
theorem haltsFirstAt (h : g.Reorders g') (hfirst : g.HaltsFirstAt table text position) :
    g'.HaltsFirstAt table text position :=
  ⟨h.haltsAt_iff.mp hfirst.1, fun before hlt => mt h.haltsAt_iff.mpr (hfirst.2 before hlt)⟩

/-- A definition is at fault at the same positions. -/
theorem faultyAt (h : g.Reorders g') (hfaulty : g.FaultyAt table text position) :
    g'.FaultyAt table text position := by
  obtain ⟨htext, name, spec, fault, hexpects, hspec⟩ := hfaulty
  exact ⟨htext, name, spec, fault, (h.expectsAt_iff name).mp hexpects, hspec⟩

/-- **The same is reported of a position**, though what is expected may be in another order. -/
theorem reports (h : g.Reorders g') {recognition recognition' : Recognition}
    (hreports : recognition.Reports g table text position)
    (hreports' : recognition'.Reports g' table text position) :
    recognition.outcome = recognition'.outcome ∧ recognition.position = recognition'.position
      ∧ recognition.detail? = recognition'.detail?
      ∧ recognition.expected.Perm recognition'.expected := by
  cases hreports with
  | exhausted spent chain =>
    cases hreports' with
    | exhausted => exact ⟨rfl, rfl, rfl, .refl _⟩
    | failed spent' chain' =>
      obtain ⟨c, hc, hposition⟩ := chain
      exact absurd hposition (chain' c (h.leads hc))
    | endOfInput ended =>
      obtain ⟨name, hname⟩ := ended.1
      exact absurd ((h.expectsAt_iff name).mpr hname) (spent.1 name)
  | failed spent chain =>
    cases hreports' with
    | exhausted spent' chain' =>
      obtain ⟨c, hc, hposition⟩ := chain'
      exact absurd hposition (chain c (h.symm.leads hc))
    | failed => exact ⟨rfl, rfl, rfl, .refl _⟩
    | endOfInput ended =>
      obtain ⟨name, hname⟩ := ended.1
      exact absurd ((h.expectsAt_iff name).mpr hname) (spent.1 name)
  | endOfInput ended nodup mem_iff =>
    cases hreports' with
    | exhausted spent =>
      obtain ⟨name, hname⟩ := ended.1
      exact absurd ((h.expectsAt_iff name).mp hname) (spent.1 name)
    | failed spent =>
      obtain ⟨name, hname⟩ := ended.1
      exact absurd ((h.expectsAt_iff name).mp hname) (spent.1 name)
    | endOfInput _ nodup' mem_iff' =>
      refine ⟨rfl, rfl, rfl, (List.perm_ext_iff_of_nodup nodup nodup').mpr fun name => ?_⟩
      rw [mem_iff, mem_iff', h.expectsAt_iff]

/-- **Recognizers that have listed the same chains have the same items**, in some order. -/
theorem items_perm (h : g.Reorders g') {lexer : Lexer} {may : Nat → String → Prop}
    {s s' : SequenceState Value} (hlisted : Listed lexer g text may s)
    (hlisted' : Listed lexer g' text may s') : s.items.Perm s'.items := by
  obtain ⟨chains, hlists⟩ := hlisted
  obtain ⟨chains', hlists'⟩ := hlisted'
  rw [hlists.items_eq, hlists'.items_eq]
  refine ((List.perm_ext_iff_of_nodup hlists.nodup hlists'.nodup).mpr fun c => ?_).map _
  rw [hlists.mem_iff, hlists'.mem_iff]
  exact ⟨h.leadsBy, h.symm.leadsBy⟩

/-- **Recognizers with the same items at the same position have the same parses**, in some order. -/
theorem parses_perm (h : g.Reorders g') {s s' : SequenceState Value}
    (hposition : s.position = s'.position) (hitems : s.items.Perm s'.items) :
    (s.parses g).Perm (s'.parses g') := by
  unfold SequenceState.parses SequenceState.current SequenceState.itemsAt
  rw [hposition, h.accepting_eq]
  exact ((hitems.filter _).filter _).map _

end SequenceGrammar.Reorders

namespace Lexer

/-- **Runs come to the same but for order**: both stop because of a definition that cannot be used,
or both are over with the same outcome, position and detail, with the same terminals expected in
some order, and with the same parses in some order. -/
inductive SameUpToOrder (g g' : SequenceGrammar) :
    EStateM.Result Fault (Run (SequenceState Value)) (Option Recognition) →
    EStateM.Result Fault (Run (SequenceState Value)) (Option Recognition) → Prop
  /-- Both stop with a fault. -/
  | stopped {fault fault' : Fault} {r r' : Run (SequenceState Value)}
    (cls : fault.cls = .tokenSpec) (cls' : fault'.cls = .tokenSpec) :
    SameUpToOrder g g' (.error fault r) (.error fault' r')
  /-- Both are over. -/
  | finished {recognition recognition' : Recognition} {r r' : Run (SequenceState Value)}
    (outcome : recognition.outcome = recognition'.outcome)
    (position : recognition.position = recognition'.position)
    (detail : recognition.detail? = recognition'.detail?)
    (expected : recognition.expected.Perm recognition'.expected)
    (parses : (r.recognizer.parses g).Perm (r'.recognizer.parses g')) :
    SameUpToOrder g g' (.ok (some recognition) r) (.ok (some recognition') r')

/-- **A lexer for which the order does not matter in which terminals are tried**: its runs over a
text that comes at any pace come to the same but for order, for any two automata that list their
terminals in different orders. From some limit on on the number of steps they do come to something.
-/
def OrderIndependent (lexer : Lexer) : Prop :=
  ∀ (text : List Char) (pace : Option Nat) (g g' : SequenceGrammar) (calls : List Call),
    pace ≠ some 0 → g.Reorders g' → ∃ bound, ∀ limit, bound ≤ limit →
      SameUpToOrder g g'
        (lexer.recognize (g.recognizer Value) limit
          (lexer.run (.text text pace) (.initial g) calls))
        (lexer.recognize (g'.recognizer Value) limit
          (lexer.run (.text text pace) (.initial g') calls))

variable {lexer : Lexer} {g g' : SequenceGrammar}

/-- What runs come to depends on the courses they take only. -/
theorem SameUpToOrder.of_sameCourse
    {x y x' y' : EStateM.Result Fault (Run (SequenceState Value)) (Option Recognition)}
    (h : SameUpToOrder g g' x y) (hx : SameCourse x' x) (hy : SameCourse y' y) :
    SameUpToOrder g g' x' y' := by
  obtain ⟨hanswer, hrecognizer, -⟩ := hx
  obtain ⟨hanswer', hrecognizer', -⟩ := hy
  cases h with
  | stopped cls cls' =>
    cases x' with
    | ok answer r => cases hanswer
    | error fault r =>
      cases y' with
      | ok answer r' => cases hanswer'
      | error fault' r' =>
        cases hanswer
        cases hanswer'
        exact .stopped cls cls'
  | finished outcome position detail expected parses =>
    cases x' with
    | error fault r => cases hanswer
    | ok answer r =>
      cases y' with
      | error fault' r' => cases hanswer'
      | ok answer' r' =>
        cases hanswer
        cases hanswer'
        change r.recognizer = _ at hrecognizer
        change r'.recognizer = _ at hrecognizer'
        exact .finished outcome position detail expected (by rwa [hrecognizer, hrecognizer'])

/-- **Runs that halt as they should come to the same but for order**, once they have come to
something. -/
theorem SameUpToOrder.of_halted (h : g.Reorders g') {text : List Char}
    {x y : EStateM.Result Fault (Run (SequenceState Value)) (Option Recognition)}
    (hx : Halted lexer g text x) (hy : Halted lexer g' text y) (hended : x.answer ≠ .ok none)
    (hended' : y.answer ≠ .ok none) : SameUpToOrder g g' x y := by
  cases x with
  | ok answer r =>
    cases answer with
    | none => exact absurd rfl hended
    | some recognition =>
      obtain ⟨hfirst, hreports, hlisted⟩ := hx recognition rfl
      cases y with
      | ok answer' r' =>
        cases answer' with
        | none => exact absurd rfl hended'
        | some recognition' =>
          obtain ⟨hfirst', hreports', hlisted'⟩ := hy recognition' rfl
          have hposition := (h.haltsFirstAt hfirst).unique hfirst'
          rw [← hposition] at hreports' hlisted'
          obtain ⟨houtcome, hsame, hdetail, hexpected⟩ := h.reports hreports hreports'
          exact .finished houtcome hsame hdetail hexpected
            (h.parses_perm hposition (h.items_perm hlisted hlisted'))
      | error fault' r' =>
        obtain ⟨-, position, hfirst', hfaulty⟩ := hy
        rw [← (h.haltsFirstAt hfirst).unique hfirst'] at hfaulty
        exact absurd (h.symm.faultyAt hfaulty) hreports.haltsAt.2
  | error fault r =>
    obtain ⟨hcls, position, hfirst, hfaulty⟩ := hx
    cases y with
    | ok answer' r' =>
      cases answer' with
      | none => exact absurd rfl hended'
      | some recognition' =>
        obtain ⟨hfirst', hreports', -⟩ := hy recognition' rfl
        rw [(h.haltsFirstAt hfirst).unique hfirst'] at hfaulty
        exact absurd (h.faultyAt hfaulty) hreports'.haltsAt.2
    | error fault' r' => exact .stopped hcls hy.1

/-- **With the whole text from the start the order does not matter.** -/
theorem orderIndependent_of_whole (lexer : Lexer) (hu : ∀ spec ∈ lexer.tokens, spec.Usable)
    (hplain : ∀ spec ∈ lexer.tokens, spec.encoder.Plain) (hmin : lexer.minBuffer = 0)
    (hfilter : lexer.filter = none) : lexer.OrderIndependent := by
  intro text pace g g' calls hpace h
  obtain ⟨bound, hended⟩ :=
    (lexer.recognize_ends g.patient (lexer.run (.text text pace) (.initial g) calls)).settled
  obtain ⟨bound', hended'⟩ :=
    (lexer.recognize_ends g'.patient (lexer.run (.text text pace) (.initial g') calls)).settled
  refine ⟨max bound bound', fun limit hlimit => ?_⟩
  exact .of_halted h (recognize_halts hu hplain hmin hfilter hpace calls limit)
    (recognize_halts hu hplain hmin hfilter hpace calls limit) (hended limit (by omega))
    (hended' limit (by omega))

/-- **With patterns that are stable from the least size of the buffer on the order does not
matter**, and with the least size 0 in no case. -/
theorem orderIndependent_of_stable {definitions : List (String × Setting)} {store : Setting}
    (hcompile : TokenTable.compile definitions store = .ok lexer.tokens)
    (hplain : ∀ spec ∈ lexer.tokens, spec.encoder.Plain) (hfilter : lexer.filter = none)
    (hstable : lexer.minBuffer = 0 ∨ ∀ spec ∈ lexer.tokens, ∀ p, spec.target = .pattern p →
      p.StableFrom lexer.minBuffer) : lexer.OrderIndependent := by
  have hu := TokenTable.usable_of_compile hcompile
  by_cases hmin : lexer.minBuffer = 0
  · exact orderIndependent_of_whole lexer hu hplain hmin hfilter
  · have hstable := hstable.resolve_left hmin
    rw [← Nat.max_eq_right (Nat.pos_of_ne_zero hmin)] at hstable
    intro text pace g g' calls hpace h
    obtain ⟨bound, hsame⟩ := orderIndependent_of_whole lexer.whole hu hplain rfl hfilter text
      none g g' calls (by decide) h
    exact ⟨bound, fun limit hlimit => (hsame limit hlimit).of_sameCourse
      (sameCourse_whole lexer hcompile hfilter hstable g text hpace calls limit)
      (sameCourse_whole lexer hcompile hfilter hstable g' text hpace calls limit)⟩

end Lexer

end AmbiLex
