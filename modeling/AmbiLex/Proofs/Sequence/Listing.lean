import AmbiLex.Proofs.Run.Faithful
import AmbiLex.Proofs.Sequence.Chains

/-!
# The items of a recognizer list chains

A recognizer of sequences keeps an item for each way it knows through the automaton. If it is fed
with the tokens of a text, then its items are the chains that a lexer has come upon so far, each of
them once: `Lists` says so. This module follows that through what happens to the items.

* Where a round begins, the steps before the position have been taken. The terminals that are not
  expected make no chain go on there, so they count as done (`Lists.expected`).
* Each terminal that is looked for adds the chains that go on with it at the position, or none
  (`Lists.offered`, `Lists.missed`).
* When no terminal is left the position is done with.

Values are made once for each match and not once for each chain. So the value of a token must not
depend on what was called before, and callbacks have to be *pure*.
-/

namespace AmbiLex

/-! ## Values of tokens -/

/-- **A pure callback**: its answer does not depend on the calls made before. -/
def Callback.Pure (callback : Callback) : Prop :=
  ∀ token text calls calls', callback.answer calls token text = callback.answer calls' token text

/-- **A token has a value** if it is stored with that value, whatever was called before. -/
def TokenTable.Gives (table : TokenTable) (found : Found) (value : Value) : Prop :=
  ∀ calls, (table.encode found.name found.text calls).answer = .ok value

/-- The value of a token that has one. -/
def TokenTable.valueOf (table : TokenTable) (found : Found) : Value :=
  match (table.encode found.name found.text []).answer with
  | .ok value => value
  | .error _ => .null

/-- The value of a token is made alike at all times if the callback is pure. -/
theorem Encoder.answer_encode_eq {encoder : Encoder}
    (hpure : ∀ callback, encoder = .known .custom (some callback) → callback.Pure)
    (token : String) (text : List Char) (calls calls' : List Call) :
    (encoder.encode token text calls).answer = (encoder.encode token text calls').answer := by
  unfold encode
  cases encoder with
  | unknown mode => rfl
  | known mode callback =>
    cases mode with
    | struct => rfl
    | tuple => rfl
    | scalar => rfl
    | discard => rfl
    | custom =>
      cases callback with
      | none => rfl
      | some callback =>
        dsimp only
        rw [hpure callback rfl token text calls calls']
        cases callback.answer calls' token text <;> rfl

/-- **A value that was made once is the value of the token.** -/
theorem TokenTable.gives_of_encode {table : TokenTable}
    (hpure : ∀ spec ∈ table, ∀ callback,
      spec.encoder = .known .custom (some callback) → callback.Pure)
    (found : Found) {calls calls' : List Call} {value : Value}
    (h : table.encode found.name found.text calls = .ok value calls') :
    table.Gives found value ∧ table.valueOf found = value := by
  have hgives : table.Gives found value := by
    intro calls₁
    rw [← show (table.encode found.name found.text calls).answer = .ok value from by rw [h]; rfl]
    unfold encode
    cases hfind : table.find? found.name with
    | none => rfl
    | some spec =>
      exact Encoder.answer_encode_eq (hpure spec (of_find?_eq_some hfind).1) spec.name found.text
        calls₁ calls
  refine ⟨hgives, ?_⟩
  rw [valueOf, hgives []]

/-! ## Items and chains -/

/-- **The item of a chain**, with the values of its tokens. -/
def Chain.item (table : TokenTable) (c : Chain) : SequenceItem Value :=
  ⟨c.position, c.state, (c.tokens.map fun found => (found.name, table.valueOf found)).reverse⟩

/-- The path of a chain's item are the chain's tokens with their values. -/
theorem Chain.path_item (table : TokenTable) (c : Chain) :
    (c.item table).path = c.tokens.map fun found => (found.name, table.valueOf found) :=
  List.reverse_reverse _

/-- Everything before a position is admitted. -/
def Before (position : Nat) : Nat → String → Prop :=
  fun start _ => start < position

/-- Everything before a position is admitted, and at the position all but some terminals. -/
def Until (position : Nat) (left : List String) : Nat → String → Prop :=
  fun start name => start < position ∨ (start = position ∧ name ∉ left)

/-- What is admitted while a terminal is left to try is admitted afterwards. -/
theorem Until.of_cons {position start : Nat} {name other : String} {left : List String}
    (h : Until position (name :: left) start other) : Until position left start other := by
  rcases h with hlt | ⟨hposition, hnot⟩
  · exact .inl hlt
  · exact .inr ⟨hposition, fun hmem => hnot (List.mem_cons_of_mem name hmem)⟩

namespace Chain

variable {table : TokenTable} {g : SequenceGrammar} {text : List Char} {chains : List Chain}
  {position : Nat} {name : String} {c' : Chain}

/-- **Trying a terminal at a position** admits the chains that go on with it there, and no
others. -/
theorem leadsBy_until_iff (hu : ∀ spec ∈ table, spec.Usable) {left : List String}
    (hfresh : name ∉ left) :
    c'.LeadsBy table g text (Until position left)
      ↔ c'.LeadsBy table g text (Until position (name :: left))
        ∨ ∃ c : Chain, c.LeadsBy table g text (Until position (name :: left))
          ∧ c.position = position ∧ c.then? table g text name = some c' := by
  constructor
  · intro hc'
    induction hc' with
    | start => exact .inl .start
    | @step c c' other _ hmay hthen ih =>
      rcases ih with hc | ⟨c₀, -, hposition₀, hthen₀⟩
      · by_cases hlast : c.position = position ∧ other = name
        · exact .inr ⟨c, hc, hlast.1, hlast.2 ▸ hthen⟩
        · refine .inl (.step hc ?_ hthen)
          rcases hmay with hlt | ⟨hposition, hnot⟩
          · exact .inl hlt
          · refine .inr ⟨hposition, fun hmem => ?_⟩
            rcases List.mem_cons.mp hmem with heq | hmem
            · exact hlast ⟨hposition, heq⟩
            · exact hnot hmem
      · -- behind the position nothing is admitted
        have hahead := (position_of_then? hu hthen₀).1
        rw [hposition₀] at hahead
        rcases hmay with hlt | ⟨heq, -⟩
        · exact absurd hlt (Nat.lt_asymm hahead)
        · exact absurd heq (Nat.ne_of_gt hahead)
  · rintro (hc' | ⟨c, hc, hposition, hthen⟩)
    · exact hc'.mono fun _ _ => Until.of_cons
    · exact .step (hc.mono fun _ _ => Until.of_cons) (.inr ⟨hposition, hfresh⟩) hthen

/-- **The chains that go on with a terminal** at a position, of a list of chains. -/
def goOn (table : TokenTable) (g : SequenceGrammar) (text : List Char) (position : Nat)
    (name : String) (chains : List Chain) : List Chain :=
  (chains.filter fun c => c.position = position).filterMap (then? table g text name)

theorem mem_goOn : c' ∈ goOn table g text position name chains
    ↔ ∃ c ∈ chains, c.position = position ∧ c.then? table g text name = some c' := by
  rw [goOn, List.mem_filterMap]
  constructor
  · rintro ⟨c, hc, hthen⟩
    obtain ⟨hmem, hposition⟩ := List.mem_filter.mp hc
    exact ⟨c, hmem, of_decide_eq_true hposition, hthen⟩
  · rintro ⟨c, hmem, hposition, hthen⟩
    exact ⟨c, List.mem_filter.mpr ⟨hmem, decide_eq_true hposition⟩, hthen⟩

/-- **Different chains go on to different chains.** -/
theorem nodup_goOn (hleads : ∀ c ∈ chains, c.Leads table g text) (hnodup : chains.Nodup) :
    (goOn table g text position name chains).Nodup := by
  refine List.pairwise_filterMap.mpr ?_
  refine (hnodup.sublist List.filter_sublist).imp_of_mem ?_
  intro c₁ c₂ hc₁ hc₂ hne c₁' hthen₁ c₂' hthen₂ heq
  -- the terminals before the last one are the same, and they determine the chains
  have hnames : c₁.names ++ [name] = c₂.names ++ [name] := by
    rw [← names_of_then? hthen₁, ← names_of_then? hthen₂, heq]
  exact hne ((hleads c₁ (List.mem_filter.mp hc₁).1).eq_of_names
    (hleads c₂ (List.mem_filter.mp hc₂).1) (List.append_inj' hnames rfl).1)

end Chain

/-- **Items list chains**: they are the items of the chains whose steps are admitted, each chain
once, and the tokens of these chains have values. -/
structure Lists (table : TokenTable) (g : SequenceGrammar) (text : List Char)
    (may : Nat → String → Prop) (chains : List Chain) (items : List (SequenceItem Value)) :
    Prop where
  /-- The items are those of the chains. -/
  items_eq : items = chains.map (Chain.item table)
  /-- No chain is listed twice. -/
  nodup : chains.Nodup
  /-- The chains are those whose steps are admitted. -/
  mem_iff : ∀ c, c ∈ chains ↔ c.LeadsBy table g text may
  /-- The tokens have values. -/
  gives : ∀ c ∈ chains, ∀ found ∈ c.tokens, table.Gives found (table.valueOf found)

namespace Lists

variable {table : TokenTable} {g : SequenceGrammar} {text : List Char}
  {may may' : Nat → String → Prop} {chains : List Chain} {items : List (SequenceItem Value)}

/-- The start item lists the empty chain. -/
theorem start : Lists table g text (Before 0) [Chain.start g] [⟨0, g.start, []⟩] := by
  refine ⟨rfl, List.pairwise_singleton _ _, fun c => ?_, fun c hc found hfound => ?_⟩
  · rw [List.mem_singleton]
    constructor
    · rintro rfl
      exact .start
    · intro h
      cases h with
      | start => rfl
      | step _ hmay _ => exact absurd hmay (Nat.not_lt_zero _)
  · rw [List.mem_singleton.mp hc] at hfound
    cases hfound

/-- What is admitted can be said in another way. -/
theorem congr (h : Lists table g text may chains items)
    (hmay : ∀ c : Chain, c.LeadsBy table g text may ↔ c.LeadsBy table g text may') :
    Lists table g text may' chains items :=
  ⟨h.items_eq, h.nodup, fun c => (h.mem_iff c).trans (hmay c), h.gives⟩

/-- **When no terminal is left the position is done with.** -/
theorem completed {position : Nat} (h : Lists table g text (Until position []) chains items) :
    Lists table g text (Before (position + 1)) chains items := by
  refine h.congr fun c => ⟨fun hc => hc.mono fun start name hmay => ?_,
    fun hc => hc.mono fun start name hmay => ?_⟩
  · rcases hmay with hlt | ⟨rfl, -⟩
    · exact Nat.lt_succ_of_lt hlt
    · exact Nat.lt_succ_self _
  · rcases Nat.lt_succ_iff_lt_or_eq.mp hmay with hlt | heq
    · exact .inl hlt
    · exact .inr ⟨heq, List.not_mem_nil⟩

/-- The chains that end at the position of a recognizer are those of its current items. -/
theorem current_eq {s : SequenceState Value} (h : Lists table g text may chains s.items) :
    s.current
      = (chains.filter fun c => c.position = s.position).map (Chain.item table) := by
  unfold SequenceState.current SequenceState.itemsAt
  rw [h.items_eq, List.filter_map]
  refine congrArg _ (List.filter_congr fun c _ => ?_)
  exact decide_eq_decide.mpr Int.ofNat_inj

/-- **A chain that ends at the position is a current item.** -/
theorem item_mem_current {s : SequenceState Value} (h : Lists table g text may chains s.items)
    {c : Chain} (hc : c.LeadsBy table g text may) (hposition : c.position = s.position) :
    c.item table ∈ s.current := by
  rw [h.current_eq]
  refine List.mem_map_of_mem (List.mem_filter.mpr ⟨(h.mem_iff c).mpr hc, ?_⟩)
  exact decide_eq_true hposition

/-- **No two chains have the same terminals.** -/
theorem nodup_names (h : Lists table g text may chains items) : (chains.map Chain.names).Nodup := by
  refine List.pairwise_map.mpr (h.nodup.imp_of_mem fun {c c'} hc hc' hne hnames => hne ?_)
  exact ((h.mem_iff c).mp hc).leads.eq_of_names ((h.mem_iff c').mp hc').leads hnames

/-- **The parses of a recognizer** are the chains that end at its position in an accepting state. -/
theorem parses_eq {s : SequenceState Value} (h : Lists table g text may chains s.items) :
    s.parses g = (chains.filter fun c => c.position = s.position ∧ c.state ∈ g.accepting).map
      fun c => c.tokens.map fun found => (found.name, table.valueOf found) := by
  have hfilter : (chains.filter fun c => c.position = s.position).filter
        ((fun item : SequenceItem Value => g.accepting.contains item.state) ∘ Chain.item table)
      = chains.filter fun c => c.position = s.position ∧ c.state ∈ g.accepting := by
    rw [List.filter_filter]
    refine List.filter_congr fun c _ => ?_
    show (g.accepting.contains c.state && decide (c.position = _)) = decide (_ ∧ _)
    rw [Bool.and_comm, List.contains_eq_mem, Bool.decide_and]
  unfold SequenceState.parses
  rw [h.current_eq, List.filter_map, hfilter, List.map_map]
  exact List.map_congr_left fun c _ => c.path_item table

/-- **The terminals that are not expected count as done**, since no chain goes on with them. -/
theorem expected {s : SequenceState Value}
    (h : Lists table g text (Before s.position) chains s.items) :
    Lists table g text (Until s.position (s.expected g)) chains s.items := by
  refine h.congr fun c => ⟨fun hc => hc.mono fun _ _ hmay => .inl hmay, fun hc => ?_⟩
  induction hc with
  | start => exact .start
  | step _ hmay hthen ih =>
    rcases hmay with hlt | ⟨hposition, hname⟩
    · exact .step ih hlt hthen
    · -- a chain that goes on at the position has its terminal expected there
      obtain ⟨_, _, -, htarget, -⟩ := Chain.then?_eq_some hthen
      exact absurd (SequenceState.mem_expected (h.item_mem_current ih hposition) htarget) hname

/-- **A terminal that does not match adds no chain.** -/
theorem missed (hu : ∀ spec ∈ table, spec.Usable) {position : Nat} {name : String}
    {left : List String} (hfresh : name ∉ left)
    (h : Lists table g text (Until position (name :: left)) chains items)
    (hmatch : table.matchLength? name (text.drop position) = none) :
    Lists table g text (Until position left) chains items := by
  refine h.congr fun c => ?_
  rw [Chain.leadsBy_until_iff hu hfresh]
  refine ⟨.inl, fun hc => hc.resolve_right ?_⟩
  rintro ⟨c₀, -, hposition, hthen⟩
  obtain ⟨length, _, hlength, -, -⟩ := Chain.then?_eq_some hthen
  rw [hposition, hmatch] at hlength
  cases hlength

/-- A token leads from the item of a chain to the item of the chain that goes on with it. -/
theorem follow_item {name : String} {length : Nat} {c : Chain}
    (hmatch : table.matchLength? name (text.drop c.position) = some length) :
    SequenceState.follow g name (table.valueOf ⟨name, (text.drop c.position).take length⟩) length
        (c.item table)
      = (c.then? table g text name).map (Chain.item table) := by
  unfold SequenceState.follow Chain.then?
  rw [hmatch, show (c.item table).state = c.state from rfl]
  cases g.target? c.state name with
  | none => rfl
  | some state =>
    show some (SequenceItem.mk _ _ _) = some (SequenceItem.mk _ _ _)
    rw [List.map_append, List.reverse_append]
    rfl

/-- The items that a token leads to are those of the chains that go on with it. -/
theorem filterMap_follow {position length : Nat} {name : String}
    (hmatch : table.matchLength? name (text.drop position) = some length) (l : List Chain)
    (hl : ∀ c ∈ l, c.position = position) :
    (l.map (Chain.item table)).filterMap (SequenceState.follow g name
        (table.valueOf ⟨name, (text.drop position).take length⟩) length)
      = (l.filterMap (Chain.then? table g text name)).map (Chain.item table) := by
  induction l with
  | nil => rfl
  | cons c l ih =>
    have hposition : c.position = position := hl c List.mem_cons_self
    have hrest := ih fun c' hc' => hl c' (List.mem_cons_of_mem c hc')
    rw [← hposition] at hmatch hrest ⊢
    rw [List.map_cons, List.filterMap_cons, List.filterMap_cons, hrest, follow_item hmatch]
    cases c.then? table g text name <;> rfl

/-- **A terminal that matches adds the chains that go on with it**, and no chain twice. -/
theorem offered (hu : ∀ spec ∈ table, spec.Usable) {s : SequenceState Value} {name : String}
    {left : List String} {length : Nat} (hfresh : name ∉ left)
    (h : Lists table g text (Until s.position (name :: left)) chains s.items)
    (hmatch : table.matchLength? name (text.drop s.position) = some length)
    (hgives : table.Gives ⟨name, (text.drop s.position).take length⟩
      (table.valueOf ⟨name, (text.drop s.position).take length⟩)) :
    ∃ chains', Lists table g text (Until s.position left) chains'
      (s.offer g name (table.valueOf ⟨name, (text.drop s.position).take length⟩) length).items := by
  have hleads : ∀ c ∈ chains, c.LeadsBy table g text (Until s.position (name :: left)) :=
    fun c hc => (h.mem_iff c).mp hc
  refine ⟨chains ++ Chain.goOn table g text s.position name chains, ?_, ?_, fun c' => ?_, ?_⟩
  · have hlength : ((length : Nat) : Int) ≠ 0 := by
      have := (TokenTable.matchLength?_bounds hu hmatch).1
      omega
    show s.items ++ SequenceState.reach g name _ length s.current = _
    rw [SequenceState.reach_of_ne_zero hlength, h.current_eq, h.items_eq, List.map_append,
      filterMap_follow hmatch _ fun c hc => of_decide_eq_true (List.mem_filter.mp hc).2]
    rfl
  · refine List.nodup_append.mpr
      ⟨h.nodup, Chain.nodup_goOn (fun c hc => (hleads c hc).leads) h.nodup, ?_⟩
    -- a chain listed before has no last step that was not admitted before
    rintro c₁ hc₁ c₂ hc₂ rfl
    obtain ⟨c, hc, hposition, hthen⟩ := Chain.mem_goOn.mp hc₂
    rcases (hleads c₁ hc₁).may_of_then? (hleads c hc).leads hthen with hlt | ⟨-, hnot⟩
    · rw [hposition] at hlt
      exact Nat.lt_irrefl _ hlt
    · exact hnot List.mem_cons_self
  · rw [List.mem_append, Chain.mem_goOn, Chain.leadsBy_until_iff hu hfresh]
    simp only [h.mem_iff]
  · intro c' hc' found hfound
    rcases List.mem_append.mp hc' with hold | hnew
    · exact h.gives c' hold found hfound
    · obtain ⟨c, hc, hposition, hthen⟩ := Chain.mem_goOn.mp hnew
      obtain ⟨length', state, hlength', -, rfl⟩ := Chain.then?_eq_some hthen
      rw [hposition, hmatch] at hlength'
      cases hlength'
      rcases List.mem_append.mp hfound with hbefore | hlast
      · exact h.gives c hc found hbefore
      · rw [List.mem_singleton.mp hlast, hposition]
        exact hgives

end Lists

end AmbiLex
