import AmbiLex.Proofs.Token.Usable
import AmbiLex.Recognizer.Sequence

/-!
# Chains of tokens

What a lexer and a recognizer of sequences ought to find in a text can be said without either of
them. A *chain* starts at the beginning of the text, in the start state of the automaton. It goes on
with a terminal if the terminal matches the text where the chain ends and the automaton has
somewhere to go with it. The chains that can be had in this way (`Chain.Leads`) are all there is to
find.

A lexer comes upon them a position and a terminal at a time, so the chains it has come upon at some
moment are those whose steps are admitted by then (`Chain.LeadsBy`). A step always has a length.
That is why a step at a position can only be a chain's last one while nothing is admitted behind
that position, and it is why a chain is determined by its terminals.
-/

namespace AmbiLex

/-- **A chain of tokens**, from the beginning of a text, with the position where it ends and the
state of the automaton there. -/
structure Chain where
  /-- The tokens, from the first to the last. -/
  tokens : List Found
  /-- The position where the chain ends. -/
  position : Nat
  /-- The state of the automaton. -/
  state : String
  deriving DecidableEq

namespace Chain

/-- The empty chain. -/
def start (g : SequenceGrammar) : Chain :=
  ⟨[], 0, g.start⟩

/-- The terminals of a chain. -/
def names (c : Chain) : List String :=
  c.tokens.map Found.name

/-- **The chain that goes on with a terminal**, if that matches where the chain ends and the
automaton has somewhere to go with it. -/
def then? (table : TokenTable) (g : SequenceGrammar) (text : List Char) (name : String)
    (c : Chain) : Option Chain :=
  match table.matchLength? name (text.drop c.position), g.target? c.state name with
  | some length, some state =>
    some ⟨c.tokens ++ [⟨name, (text.drop c.position).take length⟩], c.position + length, state⟩
  | _, _ => none

/-- **The chains of a text**: the empty one, and each that goes on from one with a terminal. -/
inductive Leads (table : TokenTable) (g : SequenceGrammar) (text : List Char) : Chain → Prop
  /-- The empty chain. -/
  | start : Leads table g text (start g)
  /-- One more token. -/
  | step {c c' : Chain} {name : String} : Leads table g text c →
    c.then? table g text name = some c' → Leads table g text c'

/-- **The chains whose steps are admitted**: `may position name` says whether a step with a terminal
at a position is. -/
inductive LeadsBy (table : TokenTable) (g : SequenceGrammar) (text : List Char)
    (may : Nat → String → Prop) : Chain → Prop
  /-- The empty chain. -/
  | start : LeadsBy table g text may (start g)
  /-- One more token. -/
  | step {c c' : Chain} {name : String} : LeadsBy table g text may c → may c.position name →
    c.then? table g text name = some c' → LeadsBy table g text may c'

variable {table : TokenTable} {g : SequenceGrammar} {text : List Char}
  {may may' : Nat → String → Prop} {c c' : Chain} {name : String}

/-- What a chain looks like that goes on from another. -/
theorem then?_eq_some (h : c.then? table g text name = some c') :
    ∃ length state, table.matchLength? name (text.drop c.position) = some length
      ∧ g.target? c.state name = some state
      ∧ c' = ⟨c.tokens ++ [⟨name, (text.drop c.position).take length⟩], c.position + length,
        state⟩ := by
  unfold then? at h
  split at h
  · rename_i length state hlength hstate
    cases h
    exact ⟨length, state, hlength, hstate, rfl⟩
  · cases h

/-- **A step takes a chain ahead**, but not out of the text. -/
theorem position_of_then? (hu : ∀ spec ∈ table, spec.Usable)
    (h : c.then? table g text name = some c') :
    c.position < c'.position ∧ c'.position ≤ text.length := by
  obtain ⟨length, state, hlength, -, rfl⟩ := then?_eq_some h
  obtain ⟨hpos, hle⟩ := TokenTable.matchLength?_bounds hu hlength
  rw [List.length_drop] at hle
  refine ⟨Nat.lt_add_of_pos_right hpos, ?_⟩
  show c.position + length ≤ text.length
  omega

/-- A chain that goes on from another has that chain's terminals and one more. -/
theorem names_of_then? (h : c.then? table g text name = some c') :
    c'.names = c.names ++ [name] := by
  obtain ⟨length, state, -, -, rfl⟩ := then?_eq_some h
  show (c.tokens ++ [_]).map Found.name = _
  rw [List.map_append]
  rfl

namespace LeadsBy

/-- Chains stay within the text. -/
theorem position_le (hu : ∀ spec ∈ table, spec.Usable) (h : LeadsBy table g text may c) :
    c.position ≤ text.length := by
  cases h with
  | start => exact Nat.zero_le _
  | step _ _ hthen => exact (position_of_then? hu hthen).2

/-- If more is admitted there are more chains. -/
theorem mono (h : LeadsBy table g text may c) (hmay : ∀ position name, may position name →
    may' position name) : LeadsBy table g text may' c := by
  induction h with
  | start => exact .start
  | step _ hstep hthen ih => exact .step ih (hmay _ _ hstep) hthen

theorem leads (h : LeadsBy table g text may c) : Leads table g text c := by
  induction h with
  | start => exact .start
  | step _ _ hthen ih => exact .step ih hthen

end LeadsBy

/-- **A chain takes steps only before the position where it ends.** -/
theorem Leads.leadsBy (hu : ∀ spec ∈ table, spec.Usable) (h : Leads table g text c) :
    LeadsBy table g text (fun position _ => position < c.position) c := by
  induction h with
  | start => exact .start
  | step _ hthen ih =>
    have hlt := (position_of_then? hu hthen).1
    exact .step (ih.mono fun _ _ h => Nat.lt_trans h hlt) hlt hthen

/-- **A chain is determined by its terminals.** -/
theorem Leads.eq_of_names (h : Leads table g text c) (h' : Leads table g text c')
    (hnames : c.names = c'.names) : c = c' := by
  induction h generalizing c' with
  | start =>
    cases h' with
    | start => rfl
    | step _ hthen =>
      rw [names_of_then? hthen] at hnames
      exact absurd hnames.symm (List.append_ne_nil_of_right_ne_nil _ (List.cons_ne_nil _ _))
  | step _ hthen ih =>
    cases h' with
    | start =>
      rw [names_of_then? hthen] at hnames
      exact absurd hnames (List.append_ne_nil_of_right_ne_nil _ (List.cons_ne_nil _ _))
    | step hc' hthen' =>
      -- both end with the same terminal, and go on with it from the same chain
      rw [names_of_then? hthen, names_of_then? hthen'] at hnames
      obtain ⟨hinit, hlast⟩ := List.append_inj' hnames rfl
      rw [ih hc' hinit, List.singleton_inj.mp hlast, hthen'] at hthen
      exact (Option.some.inj hthen).symm

/-- **A chain's last step was admitted**, if the chain was come upon. -/
theorem LeadsBy.may_of_then? (hc : Leads table g text c) (h : LeadsBy table g text may c')
    (hthen : c.then? table g text name = some c') : may c.position name := by
  have hnames := names_of_then? hthen
  cases h with
  | start => exact absurd hnames.symm (List.append_ne_nil_of_right_ne_nil _ (List.cons_ne_nil _ _))
  | step hbefore hmay hthen' =>
    rw [names_of_then? hthen'] at hnames
    obtain ⟨hinit, hlast⟩ := List.append_inj' hnames rfl
    rw [← hbefore.leads.eq_of_names hc hinit, ← List.singleton_inj.mp hlast]
    exact hmay

end Chain

end AmbiLex
