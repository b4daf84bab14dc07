import AmbiLex.Proofs.Sequence.Termination

/-!
# Texts that leave no choice

In some states of an automaton only one terminal is expected. A text is *forced* if the automaton
comes only to such states on it, and at each of them the terminal is there and leads somewhere
(`Forced`). Then the recognizer follows a single item through the text (`SequenceState.Only`), so
there is only one parse, and all that is left to see is that the run gets through the text to its
end, whatever the size of its buffer and the pace of its source.

A buffer may hold less than the next token, or the beginning of the one behind it, so what is known
between two moves is not what the buffer holds but what it faces (`Holds`). With that, every move
leads along the text (`along_of_moved`), none of them stops (`not_stopped_of_along`), and since the
run ends it ends behind the text (`recognize_forced`).
-/

namespace AmbiLex

/-- **A state in which only one terminal is expected.** -/
def SequenceGrammar.ExpectsOnly (g : SequenceGrammar) (state name : String) : Prop :=
  (g.transitionsFrom state).keys = [name]

namespace SequenceState

variable {ν : Type} {g : SequenceGrammar} {s s' : SequenceState ν} {low : Nat}
  {item : SequenceItem ν}

/-- **Only one item is left**: it came up last, and all others are behind a position. -/
def Only (s : SequenceState ν) (low : Nat) (item : SequenceItem ν) : Prop :=
  ∃ behind, s.items = behind ++ [item] ∧ ∀ other ∈ behind, other.position < (low : Int)

namespace Only

/-- The item is at the current position, or nothing is. -/
theorem current (h : s.Only low item) (hlow : low ≤ s.position) :
    s.current = if item.position = (s.position : Int) then [item] else [] := by
  obtain ⟨behind, hitems, hbehind⟩ := h
  have hnone : (behind.filter fun other => decide (other.position = (s.position : Int))) = [] := by
    refine List.filter_eq_nil_iff.mpr fun other hother => ?_
    have hlt := hbehind other hother
    simp
    omega
  unfold SequenceState.current itemsAt
  rw [hitems, List.filter_append, hnone, List.nil_append, List.filter_singleton]
  simp

/-- Something is pending as long as the item is ahead. -/
theorem pending (h : s.Only low item) (hlt : (s.position : Int) < item.position) :
    s.pending = true := by
  obtain ⟨behind, hitems, -⟩ := h
  exact List.any_eq_true.mpr ⟨item, by simp [hitems], decide_eq_true hlt⟩

/-- **What is expected where the item is.** -/
theorem expected (h : s.Only low item) (hlow : low ≤ s.position)
    (hat : item.position = (s.position : Int)) {name : String}
    (hexpects : g.ExpectsOnly item.state name) : s.expected g = [name] := by
  unfold SequenceState.expected
  rw [h.current hlow, if_pos hat, List.flatMap_singleton, hexpects]
  rfl

/-- **The parse that is complete where the item is**, if its state is accepting. -/
theorem parses (h : s.Only low item) (hlow : low ≤ s.position)
    (hat : item.position = (s.position : Int)) (haccepting : item.state ∈ g.accepting) :
    s.parses g = [item.path] := by
  unfold SequenceState.parses
  rw [h.current hlow, if_pos hat]
  simp [haccepting]

/-- **Nothing is said but that more is needed** as long as the item is ahead. -/
theorem more (h : s.Only low item) (hlow : low ≤ s.position)
    (hlt : (s.position : Int) < item.position) {advance : Advance} (hsaid : s.Says g advance) :
    advance = .moreNeeded := by
  have hpending := h.pending hlt
  have hexpected : s.expected g = [] :=
    expected_of_current_eq_nil ((h.current hlow).trans (if_neg (by omega)))
  cases hsaid with
  | more _ _ => rfl
  | next hnonempty => exact absurd hexpected hnonempty
  | exhausted _ _ hnone => simp [hpending] at hnone
  | failure _ hnone => simp [hpending] at hnone

/-- **Where the item is, what its state expects is said.** -/
theorem next (h : s.Only low item) (hlow : low ≤ s.position)
    (hat : item.position = (s.position : Int)) {name : String}
    (hexpects : g.ExpectsOnly item.state name) {advance : Advance} (hsaid : s.Says g advance) :
    advance = .nextExpected [name] := by
  have hexpected := h.expected hlow hat hexpects
  cases hsaid with
  | more hnone _ => simp [hexpected] at hnone
  | next _ => rw [hexpected]
  | exhausted _ hnone _ => simp [hexpected] at hnone
  | failure hnone _ => simp [h.current hlow, hat] at hnone

/-- Nothing is pending where the item is, or behind it. -/
theorem pending_eq_false (h : s.Only low item) (hlow : low ≤ s.position)
    (hle : item.position ≤ (s.position : Int)) : s.pending = false := by
  obtain ⟨behind, hitems, hbehind⟩ := h
  refine pending_eq_false_iff.mpr fun other hother => ?_
  rw [hitems] at hother
  rcases List.mem_append.mp hother with hmem | hmem
  · have hlt := hbehind other hmem
    omega
  · rw [List.mem_singleton.mp hmem]
    exact hle

/-- **Where the item is, and its state expects nothing, no more tokens can be accepted.** -/
theorem exhausted (h : s.Only low item) (hlow : low ≤ s.position)
    (hat : item.position = (s.position : Int))
    (hexpects : (g.transitionsFrom item.state).keys = []) {advance : Advance}
    (hsaid : s.Says g advance) : advance = .exhausted := by
  have hcurrent := h.current hlow
  rw [if_pos hat] at hcurrent
  have hpending := h.pending_eq_false hlow (Int.le_of_eq hat)
  have hexpected : s.expected g = [] := by
    unfold SequenceState.expected
    rw [hcurrent, List.flatMap_singleton, hexpects]
    rfl
  cases hsaid with
  | more _ hsome => simp [hpending] at hsome
  | next hnonempty => exact absurd hexpected hnonempty
  | exhausted _ _ _ => rfl
  | failure hnone _ => simp [hcurrent] at hnone

/-- **Behind the item nothing fits.** -/
theorem failure (h : s.Only low item) (hlow : low ≤ s.position)
    (hlt : item.position < (s.position : Int)) {advance : Advance} (hsaid : s.Says g advance) :
    advance = .failure (some ("No token fits at position " ++ toString (s.position - 1))) := by
  have hcurrent := h.current hlow
  rw [if_neg (Int.ne_of_lt hlt)] at hcurrent
  have hpending := h.pending_eq_false hlow (Int.le_of_lt hlt)
  cases hsaid with
  | more _ hsome => simp [hpending] at hsome
  | next hnonempty => exact absurd (expected_of_current_eq_nil hcurrent) hnonempty
  | exhausted hsome _ _ => exact absurd hcurrent hsome
  | failure _ _ => rfl

/-- **A token leads from the item to another one**, which is the only one from then on. -/
theorem offer {position length : Nat} {state next terminal : String}
    {taken : List (String × ν)} (h : s.Only position ⟨position, state, taken⟩)
    (hposition : s.position = position) (htarget : g.target? state terminal = some next)
    (value : ν) (hlength : 0 < length) :
    (s.offer g terminal value length).Only (position + 1)
      ⟨(position + length : Nat), next, (terminal, value) :: taken⟩ := by
  have hcurrent := h.current (Nat.le_of_eq hposition.symm)
  rw [hposition, if_pos rfl] at hcurrent
  obtain ⟨behind, hitems, hbehind⟩ := h
  refine ⟨behind ++ [⟨position, state, taken⟩], ?_, fun other hother => ?_⟩
  · show s.items ++ reach g terminal value length s.current = _
    rw [reach_of_ne_zero (by omega), hcurrent, hitems]
    simp [follow, htarget]
  · rcases List.mem_append.mp hother with hmem | hmem
    · have hlt := hbehind other hmem
      omega
    · rw [List.mem_singleton.mp hmem]
      dsimp only
      omega

/-- What is known of the items does not depend on the rest. -/
theorem congr (h : s.Only low item) (hitems : s'.items = s.items) : s'.Only low item := by
  obtain ⟨behind, hsplit, hbehind⟩ := h
  exact ⟨behind, hitems.trans hsplit, hbehind⟩

/-- All others are behind a later position as well. -/
theorem mono (h : s.Only low item) {later : Nat} (hle : low ≤ later) : s.Only later item := by
  obtain ⟨behind, hsplit, hbehind⟩ := h
  refine ⟨behind, hsplit, fun other hother => ?_⟩
  have hlt := hbehind other hother
  omega

end Only

end SequenceState

namespace Lexer

/-! ## Buffers on a text -/

/-- **What a buffer holds at a position of a text** is not said, but what it faces: the rest of the
text. It is ready for a round. -/
structure Holds (lexer : Lexer) (b : Buffer) (position : Nat) (ahead : List Char) : Prop where
  /-- What it faces. -/
  faces : b.Faces ahead
  /-- It holds enough. -/
  ready : b.Ready
  /-- Its least size is that of the lexer. -/
  minBuffer_eq : b.minBuffer = lexer.minBuffer
  /-- The position is the number of characters consumed. -/
  consumed_eq : b.consumed = position

namespace Holds

variable {lexer : Lexer} {b b' : Buffer} {position : Nat} {ahead token rest : List Char}

/-- Growing changes nothing about that. -/
theorem grown (h : lexer.Holds b position ahead) (hgrown : Buffer.Grown b b')
    (hfaces : b'.Faces ahead) : lexer.Holds b' position ahead :=
  ⟨hfaces, h.ready.grown hgrown, hgrown.minBuffer_eq.trans h.minBuffer_eq,
    hgrown.consumed_eq.trans h.consumed_eq⟩

/-- **A buffer that is filled at the start of a text.** -/
theorem start {text : List Char} {pace : Option Nat} (hpace : pace ≠ some 0)
    (hfilter : lexer.filter = none) :
    (lexer.bufferOf (.text text pace)).refill.Meets (fun _ b => lexer.Holds b 0 text)
      (fun _ _ => False) := by
  have hfaces : (lexer.bufferOf (.text text pace)).Faces text := by
    unfold bufferOf
    rw [hfilter]
    exact .start text hpace _
  refine (Buffer.refill_faces hfaces (Int.natCast_nonneg _) fun _ => rfl).mono ?_ fun _ _ h => h
  rintro more b ⟨hgrown, hb, hready⟩
  exact ⟨hb, hready, hgrown.minBuffer_eq, hgrown.consumed_eq⟩

/-- What is faced behind a token that is held. -/
theorem consume (h : lexer.Holds b position (token ++ rest))
    (hheld : token.length ≤ b.text.length) : (b.consume token.length).Faces rest := by
  have hdrop := h.faces.consume hheld
  rwa [List.drop_left] at hdrop

/-- **What a round leaves that has taken a token off the text.** -/
theorem finished (h : lexer.Holds b position (token ++ rest)) (hheld : token.length ≤ b.text.length)
    (hfinished : lexer.RoundFinished token.length b b') :
    lexer.Holds b' (position + token.length) rest := by
  have hmin : (b.consume token.length).minBuffer = lexer.minBuffer := h.minBuffer_eq
  have hconsumed : (b.consume token.length).consumed = (position + token.length : Nat) := by
    show b.consumed + (token.length : Int) = _
    rw [h.consumed_eq, Int.natCast_add]
  rcases hfinished with ⟨hlong, rfl⟩ | ⟨hshort, more, hrefill⟩
  · refine ⟨h.consume hheld, ?_, hmin, hconsumed⟩
    rcases h.ready with hended | ⟨hpos, -⟩
    · exact .inl hended
    · exact .inr ⟨hpos, hmin ▸ Int.ofNat_le.mpr hlong⟩
  · -- with the least size 0 no buffer is too short
    have hpos : (b.consume token.length).minBuffer ≠ 0 := by omega
    obtain ⟨hgrown, hfaces, hready⟩ := (Buffer.refill_faces (h.consume hheld) (by omega)
      fun hzero => absurd hzero hpos).of_ok hrefill
    exact ⟨hfaces, hready, hgrown.minBuffer_eq.trans hmin, hgrown.consumed_eq.trans hconsumed⟩

/-- **What is at the start of the text is found**, however much of it the buffer holds, and then the
buffer holds it. -/
theorem seek (h : lexer.Holds b position ahead) (htext : b.text ≠ []) {spec : TokenSpec}
    (husable : spec.Usable)
    (hstable : ∀ p, spec.target = .pattern p → 0 < lexer.minBuffer → p.StableFrom lexer.minBuffer)
    {name : String} (hverdict : spec.verdict ahead = .ok (some ⟨name, token⟩)) :
    (spec.seek b).Meets
      (fun found b' => found = some ⟨name, token⟩ ∧ lexer.Holds b' position ahead
        ∧ token.length ≤ b'.text.length)
      (fun _ _ => False) := by
  have hseek := TokenSpec.seek_of_ready h.faces h.ready htext fun p hp hpos => by
    rw [h.minBuffer_eq] at hpos ⊢
    exact hstable p hp (Int.natCast_pos.mp hpos)
  cases hresult : spec.seek b with
  | ok found b' =>
    obtain ⟨hsame, hgrown, hfaces⟩ := hseek.of_ok hresult
    obtain rfl := Except.ok.inj (hsame.symm.trans hverdict)
    -- what was found is what the buffer says then, so the buffer holds it
    obtain ⟨-, -, hprefix⟩ := TokenSpec.found_of_verdict husable (TokenSpec.verdict_of_seek hresult)
    exact ⟨rfl, h.grown hgrown hfaces, hprefix.length_le⟩
  | error fault b' =>
    have hsame := hseek.of_error hresult
    rw [hverdict] at hsame
    cases hsame

end Holds

/-! ## The way along a text -/

/-- **A text that leaves no choice**, from a state on, and the tokens that it is made of: the only
terminal that is expected is found at its start and leads to a state from which the rest is forced.
Behind the text the automaton is in the last state, and still expects something. -/
inductive Forced (lexer : Lexer) (g : SequenceGrammar) (last : String) :
    String → List Char → List (String × Value) → Prop
  /-- Nothing is left. -/
  | done : Forced lexer g last last [] []
  /-- One more token. -/
  | token {state name next : String} {spec : TokenSpec} {token rest : List Char} {value : Value}
    {path : List (String × Value)} (expects : g.ExpectsOnly state name)
    (target : g.target? state name = some next) (find : lexer.tokens.find? name = some spec)
    (verdict : spec.verdict (token ++ rest) = .ok (some ⟨name, token⟩)) (nonempty : token ≠ [])
    (store : ∀ calls, spec.encode token calls = .ok value calls)
    (forced : Forced lexer g last next rest path) :
    Forced lexer g last state (token ++ rest) ((name, value) :: path)

section

variable {lexer : Lexer} {g : SequenceGrammar} {last state name : String} {ahead : List Char}
  {path : List (String × Value)}

/-- Something is expected all along a forced text. -/
theorem Forced.exists_expects (h : lexer.Forced g last state ahead path)
    (hlast : ∃ name, g.ExpectsOnly last name) : ∃ name, g.ExpectsOnly state name := by
  cases h with
  | done => exact hlast
  | @token _ name _ _ _ _ _ _ expects _ _ _ _ _ _ => exact ⟨name, expects⟩

/-- Behind a forced text the automaton is in the last state. -/
theorem Forced.of_nil (h : lexer.Forced g last state [] path) : state = last ∧ path = [] := by
  generalize htext : ([] : List Char) = text at h
  cases h with
  | done => exact ⟨rfl, rfl⟩
  | token _ _ _ _ nonempty _ _ => exact absurd (List.append_eq_nil_iff.mp htext.symm).1 nonempty

end

section

variable (lexer : Lexer) (g : SequenceGrammar) (last : String) (total : Nat)
  (parse : List (String × Value))

/-- **A run between two tokens** of a forced text. -/
structure Standing (r : Run (SequenceState Value)) (position : Nat) (state : String)
    (taken : List (String × Value)) (ahead : List Char) (path : List (String × Value)) : Prop where
  /-- The rest of the text is forced. -/
  forced : lexer.Forced g last state ahead path
  /-- The position and the rest make up the text. -/
  length_eq : position + ahead.length = total
  /-- The tokens taken and those of the rest make up the parse. -/
  parse_eq : taken.reverse ++ path = parse
  /-- The buffer faces the rest of the text. -/
  holds : lexer.Holds r.buffer position ahead
  /-- The recognizer is at the position. -/
  position_eq : r.recognizer.position = position
  /-- It has come there in one way. -/
  only : r.recognizer.Only position ⟨position, state, taken⟩

/-- **A run that has offered a token** of a forced text, and has completed so many of its positions,
though not yet all. -/
structure Taking (r : Run (SequenceState Value)) (position : Nat) (next : String)
    (taken : List (String × Value)) (token rest : List Char) (path : List (String × Value))
    (done : Nat) : Prop where
  /-- What comes behind the token is forced. -/
  forced : lexer.Forced g last next rest path
  /-- The position, the token and the rest make up the text. -/
  length_eq : position + (token ++ rest).length = total
  /-- The tokens taken and those of the rest make up the parse. -/
  parse_eq : taken.reverse ++ path = parse
  /-- The buffer still faces the token. -/
  holds : lexer.Holds r.buffer position (token ++ rest)
  /-- It holds all of it. -/
  held : token.length ≤ r.buffer.text.length
  /-- So many positions were completed. -/
  position_eq : r.recognizer.position = position + done
  /-- There are more to complete. -/
  lt : done < token.length
  /-- The token leads to its end in one way. -/
  only : r.recognizer.Only (position + 1) ⟨(position + token.length : Nat), next, taken⟩

/-- **What is at the start of the rest of a forced text**: the token of the terminal that is
expected, which is found there. -/
structure Sought (b : Buffer) (position : Nat) (state name : String) (ahead : List Char)
    (path : List (String × Value)) (spec : TokenSpec) (next : String) (token rest : List Char)
    (value : Value) (path' : List (String × Value)) : Prop where
  /-- The terminal is in the table. -/
  find : lexer.tokens.find? name = some spec
  /-- It leads to another state. -/
  target : g.target? state name = some next
  /-- The token comes first. -/
  ahead_eq : ahead = token ++ rest
  /-- So does its value. -/
  path_eq : path = (name, value) :: path'
  /-- The token is not empty. -/
  nonempty : token ≠ []
  /-- The value is the one that it stores. -/
  store : ∀ calls, spec.encode token calls = .ok value calls
  /-- What comes behind the token is forced. -/
  forced : lexer.Forced g last next rest path'
  /-- It is found, and the buffer holds it then. -/
  seek : (spec.seek b).Meets
    (fun found b' => found = some ⟨name, token⟩ ∧ lexer.Holds b' position ahead
      ∧ token.length ≤ b'.text.length)
    (fun _ _ => False)

/-- **A run on its way along a forced text**, at a point. -/
inductive Along : Point → Run (SequenceState Value) → Prop
  /-- Before a round. -/
  | head {r : Run (SequenceState Value)} {position : Nat} {state name : String}
    {taken path : List (String × Value)} {ahead : List Char}
    (standing : Standing lexer g last total parse r position state taken ahead path)
    (expects : g.ExpectsOnly state name) : Along (.head [name]) r
  /-- Before the terminal is looked for. -/
  | seeking {r : Run (SequenceState Value)} {position : Nat} {state name : String}
    {taken path : List (String × Value)} {ahead : List Char}
    (standing : Standing lexer g last total parse r position state taken ahead path)
    (expects : g.ExpectsOnly state name) (text : r.buffer.text ≠ []) : Along (.seeking [name]) r
  /-- Before its token is offered. -/
  | sought {r : Run (SequenceState Value)} {position : Nat} {state name next : String}
    {taken path : List (String × Value)} {token rest : List Char} {value : Value}
    (standing : Standing lexer g last total parse r position state taken (token ++ rest)
      ((name, value) :: path))
    (target : g.target? state name = some next) (forced : lexer.Forced g last next rest path)
    (nonempty : token ≠ []) (held : token.length ≤ r.buffer.text.length) :
    Along (.sought (some ⟨name, value, token.length⟩) []) r
  /-- After it was offered. -/
  | offered {r : Run (SequenceState Value)} {position : Nat} {next : String}
    {taken path : List (String × Value)} {token rest : List Char}
    (taking : Taking lexer g last total parse r position next taken token rest path 0) :
    Along (.seeking []) r
  /-- Before a position is completed. -/
  | completing {r : Run (SequenceState Value)} {position : Nat} {next : String}
    {taken path : List (String × Value)} {token rest : List Char} {done : Nat}
    (taking : Taking lexer g last total parse r position next taken token rest path done) :
    Along (.completing done) r
  /-- Behind the text. -/
  | finished {r : Run (SequenceState Value)} {name : String} (expects : g.ExpectsOnly last name)
    (position : r.recognizer.position = total)
    (only : r.recognizer.Only total ⟨total, last, parse.reverse⟩) :
    Along (.finished (.endOfInput total [name])) r

end

section

variable {lexer : Lexer} {g : SequenceGrammar} {last : String} {total : Nat}
  {parse : List (String × Value)}

/-- **The next token of a forced text is found.** -/
theorem Standing.seek (husable : ∀ spec ∈ lexer.tokens, spec.Usable)
    (hstable : ∀ spec ∈ lexer.tokens, ∀ p, spec.target = .pattern p → 0 < lexer.minBuffer →
      p.StableFrom lexer.minBuffer)
    {r : Run (SequenceState Value)} {position : Nat} {state name : String}
    {taken path : List (String × Value)} {ahead : List Char}
    (h : Standing lexer g last total parse r position state taken ahead path)
    (hexpects : g.ExpectsOnly state name) (htext : r.buffer.text ≠ []) :
    ∃ spec next token rest value path',
      Sought lexer g last r.buffer position state name ahead path
        spec next token rest value path' := by
  cases h.forced with
  | done =>
    have hempty : r.buffer.text.isEmpty = true := h.holds.ready.text_isEmpty h.holds.faces
    exact absurd (List.isEmpty_iff.mp hempty) htext
  | @token _ name' next spec token rest value path' expects target find verdict nonempty store
      forced =>
    obtain rfl : name = name' := List.singleton_inj.mp (hexpects.symm.trans expects)
    have hmem := (TokenTable.of_find?_eq_some find).1
    exact ⟨spec, next, token, rest, value, path', find, target, rfl, rfl, nonempty, store, forced,
      h.holds.seek htext (husable spec hmem) (hstable spec hmem) verdict⟩

/-- **A position of a token is completed**, and more are needed, or it was the last one and the
recognizer says what is expected behind the token. -/
theorem Taking.complete (hlast : ∃ name, g.ExpectsOnly last name)
    {r : Run (SequenceState Value)} {position : Nat} {next : String}
    {taken path : List (String × Value)} {token rest : List Char} {done : Nat}
    (h : Taking lexer g last total parse r position next taken token rest path done)
    {advance : Advance} {s : SequenceState Value}
    (hcomplete : (g.recognizer Value).completePosition r.recognizer = .ok advance s) :
    s.position = position + (done + 1) ∧ s.Only (position + 1)
        ⟨(position + token.length : Nat), next, taken⟩
      ∧ ((done + 1 < token.length ∧ advance = .moreNeeded)
        ∨ (done + 1 = token.length
          ∧ ∃ name, g.ExpectsOnly next name ∧ advance = .nextExpected [name])) := by
  obtain ⟨hsaid, hitems, hposition, -⟩ := SequenceState.said_of_complete hcomplete
  have hposition' : s.position = position + (done + 1) := by
    rw [hposition, h.position_eq, Nat.add_assoc]
  have honly := h.only.congr hitems
  have hlow : position + 1 ≤ s.position := by omega
  refine ⟨hposition', honly, ?_⟩
  rcases Nat.lt_or_eq_of_le (Nat.succ_le_of_lt h.lt) with hlt | heq
  · refine .inl ⟨hlt, honly.more hlow ?_ hsaid⟩
    dsimp only
    omega
  · obtain ⟨name, hname⟩ := h.forced.exists_expects hlast
    refine .inr ⟨heq, name, hname, honly.next hlow ?_ hname hsaid⟩
    dsimp only
    omega

/-- What is known between two tokens depends on the buffer and the recognizer only. -/
theorem Standing.congr {r r' : Run (SequenceState Value)} {position : Nat} {state : String}
    {taken path : List (String × Value)} {ahead : List Char}
    (h : Standing lexer g last total parse r position state taken ahead path)
    (hholds : lexer.Holds r'.buffer position ahead) (hstate : r'.recognizer = r.recognizer) :
    Standing lexer g last total parse r' position state taken ahead path :=
  ⟨h.forced, h.length_eq, h.parse_eq, hholds, hstate ▸ h.position_eq, hstate ▸ h.only⟩

/-- **A token that is offered is taken.** -/
theorem Standing.offer {r : Run (SequenceState Value)} {position : Nat} {state name next : String}
    {taken path : List (String × Value)} {token rest : List Char} {value : Value}
    (h : Standing lexer g last total parse r position state taken (token ++ rest)
      ((name, value) :: path))
    (htarget : g.target? state name = some next) (hforced : lexer.Forced g last next rest path)
    (hne : token ≠ []) (hheld : token.length ≤ r.buffer.text.length) :
    Taking lexer g last total parse
      { r with recognizer := r.recognizer.offer g name value token.length } position next
      ((name, value) :: taken) token rest path 0 := by
  have hlength := List.length_pos_iff.mpr hne
  refine ⟨hforced, h.length_eq, ?_, h.holds, hheld, h.position_eq, hlength,
    h.only.offer h.position_eq htarget value hlength⟩
  rw [← h.parse_eq]
  simp

/-- **When all positions of a token are completed, the run stands behind it.** -/
theorem Taking.standing {r r' : Run (SequenceState Value)} {position : Nat} {next : String}
    {taken path : List (String × Value)} {token rest : List Char} {done : Nat}
    (h : Taking lexer g last total parse r position next taken token rest path done)
    (hdone : done + 1 = token.length) (hposition : r'.recognizer.position = position + (done + 1))
    (honly : r'.recognizer.Only (position + 1) ⟨(position + token.length : Nat), next, taken⟩)
    (hfinished : lexer.RoundFinished (done + 1) r.buffer r'.buffer) :
    Standing lexer g last total parse r' (position + token.length) next taken rest path := by
  rw [hdone] at hposition hfinished
  refine ⟨h.forced, ?_, h.parse_eq, h.holds.finished h.held hfinished, hposition,
    honly.mono (by omega)⟩
  rw [← h.length_eq, List.length_append, Nat.add_assoc]

/-- **Every move leads along the text.** -/
theorem along_of_moved (husable : ∀ spec ∈ lexer.tokens, spec.Usable)
    (hstable : ∀ spec ∈ lexer.tokens, ∀ p, spec.target = .pattern p → 0 < lexer.minBuffer →
      p.StableFrom lexer.minBuffer)
    (hlast : ∃ name, g.ExpectsOnly last name) {point point' : Point}
    {r r' : Run (SequenceState Value)} (h : Along lexer g last total parse point r)
    (hmove : Moved lexer (g.recognizer Value) point r point' r') :
    Along lexer g last total parse point' r' := by
  cases hmove with
  | ended text =>
    cases h with
    | @head _ position state name taken path ahead standing expects =>
      have hempty := standing.holds.ready.text_isEmpty standing.holds.faces
      rw [text] at hempty
      obtain rfl := List.isEmpty_iff.mp hempty.symm
      obtain ⟨rfl, rfl⟩ := standing.forced.of_nil
      have hlength : position = total := standing.length_eq
      have hparse : parse.reverse = taken := by
        rw [← standing.parse_eq]
        simp
      have hconsumed := standing.holds.consumed_eq
      subst hlength
      rw [hconsumed]
      exact .finished expects standing.position_eq (hparse ▸ standing.only)
  | opened text buffer calls state =>
    cases h with
    | head standing expects =>
      have hholds := standing.holds
      rw [← buffer] at hholds text
      exact .seeking (standing.congr hholds state) expects text
  | closed =>
    cases h with
    | offered taking => exact .completing taking
  | unlisted find buffer calls state =>
    cases h with
    | seeking standing expects text =>
      obtain ⟨spec, _, _, _, _, _, hsought⟩ := standing.seek husable hstable expects text
      cases find.symm.trans hsought.find
  | missed find seek calls state =>
    cases h with
    | seeking standing expects text =>
      obtain ⟨spec, _, _, _, _, _, hsought⟩ := standing.seek husable hstable expects text
      obtain rfl := Option.some.inj (find.symm.trans hsought.find)
      cases (hsought.seek.of_ok seek).1
  | found find seek store state =>
    cases h with
    | seeking standing expects text =>
      obtain ⟨spec, next, token, rest, value', path', hsought⟩ :=
        standing.seek husable hstable expects text
      obtain rfl := Option.some.inj (find.symm.trans hsought.find)
      obtain ⟨hfound, hholds, hheld⟩ := hsought.seek.of_ok seek
      obtain rfl := Option.some.inj hfound
      obtain rfl := hsought.ahead_eq
      obtain rfl := hsought.path_eq
      unfold TokenTable.encode at store
      rw [find] at store
      obtain ⟨rfl, -⟩ := EStateM.Result.ok.inj ((hsought.store r.scan.calls).symm.trans store)
      exact .sought (standing.congr hholds state) hsought.target hsought.forced hsought.nonempty
        hheld
  | passed => cases h
  | offered take =>
    cases h with
    | sought standing target forced nonempty held =>
      cases take
      exact .offered (standing.offer target forced nonempty held)
  | more complete kind =>
    cases h with
    | completing taking =>
      obtain ⟨hposition, honly, ⟨hlt, -⟩ | ⟨-, name, -, rfl⟩⟩ := taking.complete hlast complete
      · exact .completing ⟨taking.forced, taking.length_eq, taking.parse_eq, taking.holds,
          taking.held, hposition, hlt, honly⟩
      · cases kind
  | next complete kind buffer calls =>
    cases h with
    | completing taking =>
      obtain ⟨hposition, honly, ⟨-, rfl⟩ | ⟨hdone, name, hname, rfl⟩⟩ :=
        taking.complete hlast complete
      · cases kind
      · exact .head (taking.standing hdone hposition honly buffer) hname
  | exhausted complete kind buffer calls =>
    cases h with
    | completing taking =>
      obtain ⟨-, -, ⟨-, rfl⟩ | ⟨-, name, -, rfl⟩⟩ := taking.complete hlast complete <;> cases kind
  | failed complete kind buffer calls =>
    cases h with
    | completing taking =>
      obtain ⟨-, -, ⟨-, rfl⟩ | ⟨-, name, -, rfl⟩⟩ := taking.complete hlast complete <;> cases kind
  | stayed => exact h

/-- **Nothing stops a run on its way.** -/
theorem not_stopped_of_along (husable : ∀ spec ∈ lexer.tokens, spec.Usable)
    (hstable : ∀ spec ∈ lexer.tokens, ∀ p, spec.target = .pattern p → 0 < lexer.minBuffer →
      p.StableFrom lexer.minBuffer)
    (hlast : ∃ name, g.ExpectsOnly last name) {point : Point} {r r' : Run (SequenceState Value)}
    {fault : Fault} (h : Along lexer g last total parse point r) :
    ¬ Stopped lexer (g.recognizer Value) point r fault r' := by
  intro hstop
  cases hstop with
  | unsought find seek calls state =>
    cases h with
    | seeking standing expects text =>
      obtain ⟨spec, _, _, _, _, _, hsought⟩ := standing.seek husable hstable expects text
      obtain rfl := Option.some.inj (find.symm.trans hsought.find)
      exact hsought.seek.of_error seek
  | unstored find seek store state =>
    cases h with
    | seeking standing expects text =>
      obtain ⟨spec, _, _, _, _, _, hsought⟩ := standing.seek husable hstable expects text
      obtain rfl := Option.some.inj (find.symm.trans hsought.find)
      obtain rfl := Option.some.inj (hsought.seek.of_ok seek).1
      unfold TokenTable.encode at store
      rw [find] at store
      cases (hsought.store r.scan.calls).symm.trans store
  | refused take => cases take
  | uncompleted complete => cases complete
  | misunderstood complete kind =>
    cases h with
    | completing taking =>
      obtain ⟨-, -, ⟨-, rfl⟩ | ⟨-, name, -, rfl⟩⟩ := taking.complete hlast complete <;> cases kind
  | unfilled complete kind refill calls =>
    cases h with
    | completing taking =>
      obtain ⟨-, -, ⟨-, rfl⟩ | ⟨hdone, -⟩⟩ := taking.complete hlast complete
      · cases kind
      · rw [hdone] at refill
        exact (Buffer.refill_grown_faces (taking.holds.consume taking.held)).of_error refill

/-- **A run begins at the start of a forced text.** -/
theorem along_of_begin (hlast : ∃ name, g.ExpectsOnly last name) (hfilter : lexer.filter = none)
    {text : List Char} {pace : Option Nat} (hpace : pace ≠ some 0)
    (hforced : lexer.Forced g last g.start text parse) (calls : List Call) :
    (begin (g.recognizer Value) (lexer.run (.text text pace) (.initial g) calls)).Meets
      (fun progress r => Along lexer g last text.length parse (.ofProgress progress) r)
      (fun _ _ => False) := by
  have honly : (SequenceState.initial g : SequenceState Value).Only 0 ⟨(0 : Nat), g.start, []⟩ :=
    ⟨[], rfl, fun other hother => nomatch hother⟩
  obtain ⟨name, hname⟩ := hforced.exists_expects hlast
  have hexpected : (SequenceState.initial g : SequenceState Value).expected g = [name] :=
    honly.expected (Nat.zero_le _) rfl hname
  have hfilled : (lexer.bufferOf (.text text pace)).refill.Meets (fun _ b => lexer.Holds b 0 text)
      (fun _ _ => False) := Holds.start hpace hfilter
  refine begin_meets (fun r hexpect _ _ => ?_) (fun expected more r _ hexpect hrefill _ => ?_)
    (fun fault r hexpect _ => ?_) fun expected fault r _ _ hrefill _ => ?_
  · have hnil := (SequenceState.expect_eq_ok hexpect).1
    have hnil : [] = [name] := hnil.trans hexpected
    cases hnil
  · obtain ⟨rfl, hstate⟩ := SequenceState.expect_eq_ok hexpect
    show Along lexer g last text.length parse
      (.head ((SequenceState.initial g : SequenceState Value).expected g)) r
    rw [hexpected]
    have hstate : r.recognizer = .initial g := hstate
    exact .head ⟨hforced, Nat.zero_add _, rfl, hfilled.of_ok hrefill, by rw [hstate]; rfl,
      by rw [hstate]; exact honly⟩ hname
  · cases hexpect
  · exact hfilled.of_error hrefill

/-- **A run over a forced text comes to the end of it**, with the only parse there is, whatever the
size of the buffer and the pace of the source. -/
theorem recognize_forced (husable : ∀ spec ∈ lexer.tokens, spec.Usable)
    (hfilter : lexer.filter = none)
    (hstable : ∀ spec ∈ lexer.tokens, ∀ p, spec.target = .pattern p → 0 < lexer.minBuffer →
      p.StableFrom lexer.minBuffer)
    {name : String} (hlast : g.ExpectsOnly last name) (haccepting : last ∈ g.accepting)
    {text : List Char} {pace : Option Nat} (hpace : pace ≠ some 0)
    (hforced : lexer.Forced g last g.start text parse) (calls : List Call) :
    ∃ bound r, (∀ limit, bound ≤ limit →
        lexer.recognize (g.recognizer Value) limit (lexer.run (.text text pace) (.initial g) calls)
          = .ok (some (.endOfInput text.length [name])) r)
      ∧ r.recognizer.parses g = [parse] := by
  have hexists : ∃ name, g.ExpectsOnly last name := ⟨name, hlast⟩
  have hmeets := lexer.recognize_meets (along_of_begin hexists hfilter hpace hforced calls)
    fun point r h => move_meets (fun _ _ hmoved => along_of_moved husable hstable hexists h hmoved)
      fun _ _ hstopped => not_stopped_of_along husable hstable hexists h hstopped
  obtain ⟨bound, ⟨recognition, r, hok⟩ | ⟨fault, r, herror⟩⟩ :=
    lexer.recognize_ends g.patient (lexer.run (.text text pace) (.initial g) calls)
  · obtain ⟨point, hpoint, halong⟩ := (hmeets bound).of_ok (hok bound (Nat.le_refl _))
    cases halong with
    | @finished r name' expects position only =>
      cases hpoint
      obtain rfl : name = name' := List.singleton_inj.mp (hlast.symm.trans expects)
      refine ⟨bound, r, hok, ?_⟩
      rw [only.parses (Nat.le_of_eq position.symm) (congrArg Nat.cast position.symm) haccepting]
      simp [SequenceItem.path]
    | _ => cases hpoint
  · exact ((hmeets bound).of_error (herror bound (Nat.le_refl _))).elim

end

end Lexer

end AmbiLex
