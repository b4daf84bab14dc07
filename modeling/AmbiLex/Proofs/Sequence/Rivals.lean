import AmbiLex.Proofs.Sequence.Forced
import AmbiLex.Proofs.Sequence.Reordering
import AmbiLex.Proofs.Token.Trickling
import AmbiLex.Regex.Reader

/-!
# Terminals that interfere with each other

All the terminals of a round are looked for in the same buffer, and looking for one can make the
buffer grow. A pattern that comes later sees more text then, and where its answers are not stable it
may answer otherwise. So terminals can interfere with each other, and the order matters in which
they are tried.

It does so for every pattern that is not stable from the least size of the buffer on. Such a pattern
revises its answer on a text when the text goes on. Two words are made its *rivals*: the text, and
the text with what it goes on with. A source that delivers one character at a time lets the buffer
grow just as far as the word that is looked for, so the pattern is asked about the text if the
shorter word is tried before it, and about all of it if the longer one is (`recognize_rivals`).
Where it answers differently the runs end at different positions.

Together with the other direction, that runs of lexers with stable patterns come to the same
whatever the order is, this says for which patterns the order does not matter
(`orderIndependent_iff_stable`).
-/

namespace AmbiLex

/-! ## A pattern and its rivals -/

namespace Rivals

/-- The specification of a word. -/
def word (name : String) (text : List Char) : TokenSpec :=
  ⟨name, .ofText text, .known .scalar none⟩

/-- **A pattern and two words.** -/
def definitions (p : Pattern) (short long : List Char) : List (String × Setting) :=
  [("pattern", .pattern p), ("short", .plain (.text (String.ofList short))),
    ("long", .plain (.text (String.ofList long)))]

/-- A lexer for them. -/
def lexer (p : Pattern) (short long : List Char) (least : Nat) : Lexer :=
  ⟨[⟨"pattern", .pattern p, .known .scalar none⟩, word "short" short, word "long" long], least,
    false, none, .log⟩

/-- **An automaton that expects all three and accepts what the pattern matches.** One of the words
is tried before the pattern and the other one behind it. -/
def grammar (first last : String) : SequenceGrammar :=
  ⟨[("start", [(first, none), ("pattern", some "end"), (last, none)])], "start", ["end"]⟩

/-- A word is looked for. -/
theorem word?_word (name : String) (text : List Char) : (word name text).word? = some text := by
  unfold TokenSpec.word? word Target.ofText
  by_cases hone : text.length = 1
  · rw [if_pos hone]
  · rw [if_neg hone]

/-- A word is no pattern. -/
theorem target_word_ne (name : String) (text : List Char) (p : Pattern) :
    (word name text).target ≠ .pattern p := by
  unfold word Target.ofText
  by_cases hone : text.length = 1
  · rw [if_pos hone]
    exact nofun
  · rw [if_neg hone]
    exact nofun

/-- A word that is not empty is compiled. -/
theorem compile_word (name : String) {text : List Char} (hne : text ≠ []) :
    TokenSpec.compile (.known .scalar none) name (.plain (.text (String.ofList text)))
      = .ok (word name text) := by
  have htarget : Target.ofText text ≠ .literal [] := by
    unfold Target.ofText
    split
    · exact nofun
    · exact fun h => hne (Target.literal.inj h)
  simp only [TokenSpec.compile, Setting.entries?, TokenSpec.ofSubject, Target.ofSetting?,
    String.toList_ofList]
  unfold TokenSpec.ofTarget
  split
  · rename_i h
    exact absurd h htarget
  · rfl

/-- **The pattern and its rivals are compiled.** -/
theorem compile_definitions (p : Pattern) {short long : List Char} (hshort : short ≠ [])
    (hlong : long ≠ []) (least : Nat) :
    TokenTable.compile (definitions p short long) (.mode .scalar)
      = .ok (lexer p short long least).tokens := by
  have hpattern : TokenSpec.compile (.known .scalar none) "pattern" (.pattern p)
      = .ok ⟨"pattern", .pattern p, .known .scalar none⟩ := rfl
  have hdistinct : Keyed.ofList (definitions p short long) = definitions p short long := rfl
  have hresolve : Encoder.resolve (.mode .scalar) = .ok (.known .scalar none) := rfl
  unfold TokenTable.compile
  rw [hdistinct, hresolve]
  show ((definitions p short long).mapM fun entry =>
    TokenSpec.compile (.known .scalar none) entry.1 entry.2) = _
  simp only [definitions, List.mapM_cons, List.mapM_nil, hpattern, compile_word "short" hshort,
    compile_word "long" hlong]
  rfl

/-! ### What the automaton does -/

section

variable {first last : String}

/-- The words lead nowhere. -/
theorem target?_word (first last : String) {name : String} (h : name ≠ "pattern")
    (state : String) : (grammar first last).target? state name = none := by
  unfold SequenceGrammar.target? SequenceGrammar.transitionsFrom grammar
  rw [Keyed.get?_cons]
  split
  · rw [Option.getD_some, Keyed.get?_cons, Keyed.get?_cons, if_neg h.symm, Keyed.get?_cons]
    split
    · rfl
    · split <;> rfl
  · rfl

/-- The pattern leads to the end. -/
theorem target?_pattern (hfirst : first ≠ "pattern") (last : String) :
    (grammar first last).target? "start" "pattern" = some "end" := by
  unfold SequenceGrammar.target? SequenceGrammar.transitionsFrom grammar
  rw [Keyed.get?_cons, if_pos rfl, Option.getD_some, Keyed.get?_cons, if_neg hfirst]
  rfl

/-- **Exchanging the words reorders the automaton.** -/
theorem reorders (hfirst : first ≠ "pattern") (hlast : last ≠ "pattern") (hne : first ≠ last) :
    (grammar first last).Reorders (grammar last first) := by
  refine ⟨rfl, rfl, fun state => ?_, fun state => ?_⟩
  · unfold SequenceGrammar.transitionsFrom grammar
    rw [Keyed.get?_cons, Keyed.get?_cons]
    split
    · exact (List.reverse_perm _).symm
    · exact .refl _
  · unfold SequenceGrammar.transitionsFrom grammar
    rw [Keyed.get?_cons]
    split
    · simp [Keyed.keys, hfirst, hlast.symm, hne]
    · exact .nil

/-- All three are expected at the start. -/
theorem expected_initial (hfirst : first ≠ "pattern") (hlast : last ≠ "pattern")
    (hne : first ≠ last) :
    (SequenceState.initial (grammar first last) : SequenceState Value).expected
      (grammar first last) = [first, "pattern", last] := by
  show [first, "pattern", last].eraseDups = _
  simp [List.eraseDups_cons, hfirst.symm, hlast, hne.symm]

end

/-! ### What the recognizer is told -/

section

variable {first last : String} {s s' : SequenceState Value} {length? : Option Nat}

/-- **What a recognizer was told of the pattern**: nothing, or the length of a token. -/
def Told (s : SequenceState Value) : Option Nat → Prop
  | none => s.Only 0 ⟨(0 : Nat), "start", []⟩
  | some length => 0 < length ∧ ∃ taken, s.Only 1 ⟨length, "end", taken⟩

/-- What is known of the items does not depend on the rest. -/
theorem Told.congr (h : Told s length?) (hitems : s'.items = s.items) : Told s' length? := by
  cases length? with
  | none => exact SequenceState.Only.congr h hitems
  | some length =>
    obtain ⟨hpos, taken, honly⟩ := h
    exact ⟨hpos, taken, honly.congr hitems⟩

/-- A token has a length. -/
theorem Told.pos (h : Told s length?) : 0 < length?.getD 1 := by
  cases length? with
  | none => exact Nat.zero_lt_one
  | some length => exact h.1

/-- An item that leads nowhere is of no use. -/
theorem follow_word {name : String} (h : name ≠ "pattern") (value : Value) (length : Int)
    (item : SequenceItem Value) :
    SequenceState.follow (grammar first last) name value length item = none := by
  unfold SequenceState.follow
  rw [target?_word first last h]
  rfl

/-- **A word that is offered changes nothing.** -/
theorem items_offer_word (first last : String) (s : SequenceState Value) {name : String}
    (h : name ≠ "pattern") (value : Value) (length : Int) :
    (s.offer (grammar first last) name value length).items = s.items := by
  show s.items ++ SequenceState.reach _ name value length s.current = s.items
  have hnone : s.current.filterMap (SequenceState.follow (grammar first last) name value length)
      = [] := List.filterMap_eq_nil_iff.mpr fun item _ => follow_word h value length item
  unfold SequenceState.reach
  split
  · show s.items ++ SequenceState.stay _ name value 1 s.current = s.items
    simp [SequenceState.stay, follow_word h]
  · rw [hnone, List.append_nil]

/-- **A token of the pattern that is offered is what the recognizer is told.** -/
theorem Told.offer (h : Told s none) (hfirst : first ≠ "pattern") (hposition : s.position = 0)
    (value : Value) {length : Nat} (hpos : 0 < length) :
    Told (s.offer (grammar first last) "pattern" value length) (some length) := by
  have honly := SequenceState.Only.offer h hposition (target?_pattern hfirst last) value hpos
  rw [Nat.zero_add, Nat.zero_add] at honly
  exact ⟨hpos, _, honly⟩

/-- **What is said at a position of the token**, or at the first one if there is no token. -/
theorem Told.said (h : Told s length?) {done : Nat} (hdone : done < length?.getD 1)
    (hposition : s.position = done + 1) {advance : Advance}
    (hsaid : s.Says (grammar first last) advance) :
    (advance = .moreNeeded ∧ done + 1 < length?.getD 1)
      ∨ (advance = .exhausted ∧ length? = some (done + 1))
      ∨ (advance = .failure (some "No token fits at position 0")
        ∧ length? = none ∧ done = 0) := by
  cases length? with
  | none =>
    obtain rfl : done = 0 := Nat.lt_one_iff.mp hdone
    have hfailure := SequenceState.Only.failure h (Nat.zero_le _)
      (Int.ofNat_lt.mpr (by rw [hposition]; exact Nat.zero_lt_one)) hsaid
    rw [hposition] at hfailure
    exact .inr (.inr ⟨hfailure, rfl, rfl⟩)
  | some length =>
    obtain ⟨-, taken, honly⟩ := h
    have hlow : 1 ≤ s.position := by omega
    rcases Nat.lt_or_eq_of_le (Nat.succ_le_of_lt hdone) with hlt | rfl
    · exact .inl ⟨honly.more hlow (Int.ofNat_lt.mpr (hposition ▸ hlt)) hsaid, hlt⟩
    · exact .inr (.inl ⟨honly.exhausted hlow (congrArg Nat.cast hposition.symm) rfl hsaid, rfl⟩)

end

/-! ### The run -/

/-- **What a run comes to** whose recognizer was told of the pattern. -/
def conclusion : Option Nat → Recognition
  | none => .failed 0 (some "No token fits at position 0")
  | some length => .exhausted length

/-- **A result that is concluded** from the length of the pattern's match: the run is over with the
conclusion, or is not over yet, or it has stopped because the pattern matched the empty text. -/
def Concluded (length? : Option Nat)
    (x : EStateM.Result Fault (Run (SequenceState Value)) (Option Recognition)) : Prop :=
  x.Meets
    (fun answer _ => ∀ recognition, answer = some recognition →
      length? ≠ some 0 ∧ recognition = conclusion length?)
    (fun _ _ => length? = some 0)

/-- Different lengths lead to different conclusions. -/
theorem conclusion_inj {length? length?' : Option Nat}
    (houtcome : (conclusion length?).outcome = (conclusion length?').outcome)
    (hposition : (conclusion length?).position = (conclusion length?').position) :
    length? = length?' := by
  cases length? with
  | none =>
    cases length?' with
    | none => rfl
    | some length' => cases houtcome
  | some length =>
    cases length?' with
    | none => cases houtcome
    | some length' => exact congrArg some (Int.ofNat.inj hposition)

/-- **Runs that come to the same but for order have concluded it from the same length.** -/
theorem Concluded.eq_of_sameUpToOrder {g g' : SequenceGrammar} {length? length?' : Option Nat}
    {x y : EStateM.Result Fault (Run (SequenceState Value)) (Option Recognition)}
    (hx : Concluded length? x) (hy : Concluded length?' y) (h : Lexer.SameUpToOrder g g' x y) :
    length? = length?' := by
  cases h with
  | stopped => exact hx.trans hy.symm
  | finished outcome position =>
    obtain ⟨-, rfl⟩ := hx _ rfl
    obtain ⟨-, rfl⟩ := hy _ rfl
    exact conclusion_inj outcome position

/-- **A run in its first round**: the text trickles to its buffer, and the recognizer was told of
the pattern. -/
structure Opened (text : List Char) (length? : Option Nat) (r : Run (SequenceState Value)) :
    Prop where
  /-- The text trickles to the buffer. -/
  trickles : r.buffer.Trickles text
  /-- No position was completed. -/
  position_eq : r.recognizer.position = 0
  /-- What the recognizer was told. -/
  told : Told r.recognizer length?

/-- What is known of a run in its first round depends on its buffer and its recognizer. -/
theorem Opened.congr {text : List Char} {length? : Option Nat} {r r' : Run (SequenceState Value)}
    (h : Opened text length? r) (htrickles : r'.buffer.Trickles text)
    (hstate : r'.recognizer = r.recognizer) : Opened text length? r' :=
  ⟨htrickles, hstate ▸ h.position_eq, hstate ▸ h.told⟩

section

variable (p : Pattern) (first last : String) (held text : List Char)

/-- **Where a run stands** in which one word is looked for before the pattern, so that the pattern
is asked about that word, and the other word behind it. -/
inductive StandsAt : Point → Run (SequenceState Value) → Prop
  /-- The round begins. -/
  | head {r : Run (SequenceState Value)} (opened : Opened text none r)
    (nonempty : r.buffer.text ≠ []) (length_le : r.buffer.text.length ≤ held.length) :
    StandsAt (.head [first, "pattern", last]) r
  /-- The first word is looked for. -/
  | seeking {r : Run (SequenceState Value)} (opened : Opened text none r)
    (nonempty : r.buffer.text ≠ []) (length_le : r.buffer.text.length ≤ held.length) :
    StandsAt (.seeking [first, "pattern", last]) r
  /-- The buffer holds the first word. -/
  | grown {offer : Option Offer} {r : Run (SequenceState Value)} (opened : Opened text none r)
    (text_eq : r.buffer.text = held) (word : ∀ o, offer = some o → o.name ≠ "pattern") :
    StandsAt (.sought offer ["pattern", last]) r
  /-- The pattern is asked about it. -/
  | asked {r : Run (SequenceState Value)} (opened : Opened text none r)
    (text_eq : r.buffer.text = held) : StandsAt (.seeking ["pattern", last]) r
  /-- The pattern has answered. -/
  | answered {offer : Option Offer} {r : Run (SequenceState Value)} (opened : Opened text none r)
    (length_eq : p.matchLength held = offer.map Offer.length)
    (nonempty : p.matchLength held ≠ some 0) (token : ∀ o, offer = some o → o.name = "pattern") :
    StandsAt (.sought offer [last]) r
  /-- Only words are left to look for. -/
  | rest {left : List String} {r : Run (SequenceState Value)}
    (opened : Opened text (p.matchLength held) r) (words : ∀ name ∈ left, name = last) :
    StandsAt (.seeking left) r
  /-- One of them was looked for. -/
  | sought {offer : Option Offer} {left : List String} {r : Run (SequenceState Value)}
    (opened : Opened text (p.matchLength held) r) (words : ∀ name ∈ left, name = last)
    (word : ∀ o, offer = some o → o.name ≠ "pattern") : StandsAt (.sought offer left) r
  /-- So many positions were completed, though not yet all of the token. -/
  | completing {done : Nat} {r : Run (SequenceState Value)} (consumed : r.buffer.consumed = 0)
    (position_eq : r.recognizer.position = done) (lt : done < (p.matchLength held).getD 1)
    (told : Told r.recognizer (p.matchLength held)) : StandsAt (.completing done) r
  /-- The run is over. -/
  | finished {recognition : Recognition} {r : Run (SequenceState Value)}
    (nonempty : p.matchLength held ≠ some 0)
    (concluded : recognition = conclusion (p.matchLength held)) :
    StandsAt (.finished recognition) r

end

/-- **A lexer that has a pattern and its rivals**: the word that is looked for before the pattern,
and the other one. -/
structure Has (lexer : Lexer) (p : Pattern) (first last : String) (held : List Char) : Prop where
  /-- The pattern is in the table. -/
  find_pattern : ∃ spec, lexer.tokens.find? "pattern" = some spec ∧ spec.target = .pattern p
  /-- So is the word that is looked for before it. -/
  find_first : ∃ spec, lexer.tokens.find? first = some spec ∧ spec.word? = some held
  /-- So is the other one. -/
  find_last : ∃ spec word, lexer.tokens.find? last = some spec ∧ spec.word? = some word
  /-- The first word is not called like the pattern. -/
  first_ne : first ≠ "pattern"
  /-- Nor is the other one. -/
  last_ne : last ≠ "pattern"
  /-- The specifications can be used. -/
  usable : ∀ spec ∈ lexer.tokens, spec.Usable
  /-- They make their values without a callback. -/
  plain : ∀ spec ∈ lexer.tokens, spec.encoder.Plain

section

variable {lexer : Lexer} {p : Pattern} {first last : String} {held text : List Char}
  {point point' : Point} {r r' : Run (SequenceState Value)} {fault : Fault}

/-- **Looking for a terminal of the round** leads on, unless the pattern has matched the empty
text. -/
theorem StandsAt.seek (hlexer : Has lexer p first last held) (hheld : held <+: text)
    (hsettled : p.spans held = false ∨ held = text) {name : String} {left : List String}
    (h : StandsAt p first last held text (.seeking (name :: left)) r) :
    ∃ spec, lexer.tokens.find? name = some spec ∧ (spec.seek r.buffer).Meets
      (fun found b => ∀ offer r', r'.buffer = b → r'.recognizer = r.recognizer →
        offer.map Offer.length = found.map Found.length →
        (∀ o, offer = some o → o.name = name) →
        StandsAt p first last held text (.sought offer left) r')
      (fun _ _ => p.matchLength held = some 0) := by
  cases h with
  | seeking opened nonempty length_le =>
    obtain ⟨spec, hfind, hword⟩ := hlexer.find_first
    have hu := hlexer.usable spec (TokenTable.of_find?_eq_some hfind).1
    refine ⟨spec, hfind, (TokenSpec.seek_word_trickling hu hword nonempty opened.trickles length_le
      hheld).mono ?_ fun _ _ h => h.elim⟩
    rintro found b ⟨htrickles, htext⟩ offer r' rfl hstate - hname
    exact .grown (opened.congr htrickles hstate) htext fun o ho => hname o ho ▸ hlexer.first_ne
  | asked opened text_eq =>
    obtain ⟨spec, hfind, hp⟩ := hlexer.find_pattern
    subst text_eq
    refine ⟨spec, hfind, (TokenSpec.seek_pattern_trickling hp opened.trickles hsettled).mono ?_
      fun _ _ h => ?_⟩
    · rintro found b ⟨htrickles, hanswer⟩ offer r' rfl hstate hlength hname
      obtain ⟨hmatch, hnonempty⟩ := TokenSpec.matchLength_of_patternIn_eq_ok hanswer
      exact .answered (opened.congr htrickles hstate) (hmatch.trans hlength.symm) hnonempty hname
    · exact TokenSpec.matchLength_of_patternIn_eq_error h
  | rest opened words =>
    obtain ⟨spec, word, hfind, hword⟩ := hlexer.find_last
    obtain rfl := words name List.mem_cons_self
    have hu := hlexer.usable spec (TokenTable.of_find?_eq_some hfind).1
    refine ⟨spec, hfind, (TokenSpec.seek_word_keeps_trickling hu hword opened.trickles).mono ?_
      fun _ _ h => h.elim⟩
    rintro found b htrickles offer r' rfl hstate - hname
    exact .sought (opened.congr htrickles hstate) (fun other hother =>
      words other (List.mem_cons_of_mem name hother)) fun o ho => hname o ho ▸ hlexer.last_ne

/-- **Completing a position** leads on along the token, or to the conclusion. -/
theorem StandsAt.complete {done : Nat}
    (h : StandsAt p first last held text (.completing done) r) {advance : Advance}
    {s : SequenceState Value}
    (hcomplete : ((grammar first last).recognizer Value).completePosition r.recognizer
      = .ok advance s) :
    r.buffer.consumed = 0
      ∧ ((advance = .moreNeeded
          ∧ StandsAt p first last held text (.completing (done + 1)) { r with recognizer := s })
        ∨ (advance = .exhausted ∧ p.matchLength held = some (done + 1))
        ∨ (advance = .failure (some "No token fits at position 0")
          ∧ p.matchLength held = none)) := by
  cases h with
  | completing consumed position_eq lt told =>
    obtain ⟨hsaid, hitems, hposition, -⟩ := SequenceState.said_of_complete hcomplete
    rw [position_eq] at hposition
    have htold := Told.congr told hitems
    refine ⟨consumed, ?_⟩
    obtain ⟨hmore, hlt⟩ | ⟨hexhausted, hlength⟩ | ⟨hfailure, hnone, -⟩ :=
      Told.said htold lt hposition hsaid
    · exact .inl ⟨hmore, .completing consumed hposition hlt htold⟩
    · exact .inr (.inl ⟨hexhausted, hlength⟩)
    · exact .inr (.inr ⟨hfailure, hnone⟩)

/-- **Every move is one of the round in which the pattern is asked about the first word.** -/
theorem standsAt_of_moved (hlexer : Has lexer p first last held) (hheld : held <+: text)
    (hsettled : p.spans held = false ∨ held = text) (h : StandsAt p first last held text point r)
    (hmove : Lexer.Moved lexer ((grammar first last).recognizer Value) point r point' r') :
    StandsAt p first last held text point' r' := by
  cases hmove with
  | ended text_eq =>
    cases h with
    | head opened nonempty length_le => exact absurd text_eq nonempty
  | opened text_ne buffer calls state =>
    cases h with
    | head opened nonempty length_le =>
      rw [← buffer] at nonempty length_le
      exact .seeking (opened.congr (buffer ▸ opened.trickles) state) nonempty length_le
  | closed =>
    cases h with
    | rest opened words =>
      exact .completing opened.trickles.consumed_eq opened.position_eq
        (Told.pos opened.told) opened.told
  | unlisted find buffer calls state =>
    obtain ⟨spec, hfind, -⟩ := h.seek hlexer hheld hsettled
    cases hfind.symm.trans find
  | missed find seek calls state =>
    obtain ⟨spec, hfind, hseek⟩ := h.seek hlexer hheld hsettled
    obtain rfl := Option.some.inj (find.symm.trans hfind)
    exact hseek.of_ok seek none r' rfl state rfl nofun
  | found find seek store state =>
    obtain ⟨spec, hfind, hseek⟩ := h.seek hlexer hheld hsettled
    obtain rfl := Option.some.inj (find.symm.trans hfind)
    refine hseek.of_ok seek (some _) r' rfl state rfl ?_
    rintro o ⟨⟩
    rfl
  | passed =>
    cases h with
    | grown opened text_eq word => exact .asked opened text_eq
    | answered opened length_eq nonempty token =>
      refine .rest ?_ fun name hname => List.mem_singleton.mp hname
      rw [length_eq]
      exact opened
    | sought opened words word => exact .rest opened words
  | offered take =>
    cases take
    cases h with
    | grown opened text_eq word =>
      have hitems := items_offer_word first last r.recognizer (word _ rfl)
      exact .asked ⟨opened.trickles, opened.position_eq, opened.told.congr (hitems _ _)⟩ text_eq
    | answered opened length_eq nonempty token =>
      refine .rest ⟨opened.trickles, opened.position_eq, ?_⟩ fun name hname =>
        List.mem_singleton.mp hname
      rw [length_eq] at nonempty ⊢
      rw [token _ rfl]
      exact Told.offer opened.told hlexer.first_ne opened.position_eq _
        (Nat.pos_of_ne_zero fun hzero => nonempty (congrArg some hzero))
    | sought opened words word =>
      have hitems := items_offer_word first last r.recognizer (word _ rfl)
      exact .rest ⟨opened.trickles, opened.position_eq, opened.told.congr (hitems _ _)⟩ words
  | more complete kind =>
    obtain ⟨-, ⟨-, hstands⟩ | ⟨rfl, -⟩ | ⟨rfl, -⟩⟩ := h.complete complete
    · exact hstands
    · cases kind
    · cases kind
  | next complete kind buffer calls =>
    obtain ⟨-, ⟨rfl, -⟩ | ⟨rfl, -⟩ | ⟨rfl, -⟩⟩ := h.complete complete <;> cases kind
  | @exhausted done _ _ _ complete kind buffer calls =>
    obtain ⟨hconsumed, ⟨rfl, -⟩ | ⟨rfl, hlength⟩ | ⟨rfl, -⟩⟩ := h.complete complete
    · cases kind
    · refine .finished (by rw [hlength]; exact nofun) ?_
      have hposition : r'.buffer.consumed = ((done + 1 : Nat) : Int) := by
        rw [buffer]
        show r.buffer.consumed + _ = _
        rw [hconsumed, Int.zero_add]
      rw [hlength, hposition]
      rfl
    · cases kind
  | failed complete kind buffer calls =>
    obtain ⟨hconsumed, ⟨rfl, -⟩ | ⟨rfl, -⟩ | ⟨rfl, hnone⟩⟩ := h.complete complete
    · cases kind
    · cases kind
    · refine .finished (by rw [hnone]; exact nofun) ?_
      rw [hnone, buffer, hconsumed]
      rfl
  | stayed => exact h

/-- **A run of the rivals stops only if the pattern has matched the empty text.** -/
theorem matchLength_of_stopped (hlexer : Has lexer p first last held) (hheld : held <+: text)
    (hsettled : p.spans held = false ∨ held = text) (h : StandsAt p first last held text point r)
    (hstop : Lexer.Stopped lexer ((grammar first last).recognizer Value) point r fault r') :
    p.matchLength held = some 0 := by
  cases hstop with
  | unsought find seek calls state =>
    obtain ⟨spec, hfind, hseek⟩ := h.seek hlexer hheld hsettled
    obtain rfl := Option.some.inj (find.symm.trans hfind)
    exact hseek.of_error seek
  | unstored find seek store state =>
    unfold TokenTable.encode at store
    rw [find] at store
    exact absurd store (hlexer.plain _ (TokenTable.of_find?_eq_some find).1).encode_ne_error
  | refused take => cases take
  | uncompleted complete => cases complete
  | misunderstood complete kind =>
    obtain ⟨hsaid, -⟩ := SequenceState.said_of_complete complete
    cases hsaid <;> cases kind
  | unfilled complete kind refill calls =>
    obtain ⟨-, ⟨rfl, -⟩ | ⟨rfl, -⟩ | ⟨rfl, -⟩⟩ := h.complete complete <;> cases kind

/-- **The round begins with as much of the text as the least size asks for.** -/
theorem standsAt_of_begin (hlexer : Has lexer p first last held) (hne : first ≠ last)
    (hfilter : lexer.filter = none) (hpos : 0 < lexer.minBuffer)
    (hleast : lexer.minBuffer ≤ held.length) (hheld : held <+: text) (calls : List Call) :
    (Lexer.begin ((grammar first last).recognizer Value)
        (lexer.run (.text text (some 1)) (.initial (grammar first last)) calls)).Meets
      (fun progress r => StandsAt p first last held text (.ofProgress progress) r)
      (fun _ _ => False) := by
  have hexpected := expected_initial hlexer.first_ne hlexer.last_ne hne
  have hbuffer : (lexer.run (.text text (some 1)) (.initial (grammar first last) :
      SequenceState Value) calls).buffer = .start (.text text (some 1)) lexer.minBuffer none :=
    congrArg (Buffer.start _ _) hfilter
  have hfilled := Buffer.refill_trickles hpos (Nat.le_trans hleast hheld.length_le)
  rw [← hbuffer] at hfilled
  refine Lexer.begin_meets (fun r hexpect _ _ => ?_)
    (fun expected more r _ hexpect hrefill _ => ?_) (fun fault r hexpect _ => ?_)
    fun expected fault r _ _ hrefill _ => ?_
  · have hnil := (SequenceState.expect_eq_ok hexpect).1
    cases hnil.trans hexpected
  · obtain ⟨rfl, hstate⟩ := SequenceState.expect_eq_ok hexpect
    obtain ⟨htrickles, hlength⟩ := hfilled.of_ok hrefill
    show StandsAt p first last held text (.head (SequenceState.expected _ (.initial _))) r
    rw [hexpected]
    refine .head ⟨htrickles, by rw [hstate]; rfl, ?_⟩ (List.ne_nil_of_length_pos ?_) ?_
    · rw [hstate]
      exact ⟨[], rfl, nofun⟩
    · rw [hlength]
      exact hpos
    · rw [hlength]
      exact hleast
  · cases hexpect
  · exact hfilled.of_error hrefill

/-- **A run concludes what the pattern says about the word that is looked for before it**, if the
text comes one character at a time and either the pattern does not take up the word or the word is
all of the text. If the pattern matches the empty text there, the run stops. -/
theorem recognize_rivals (hlexer : Has lexer p first last held) (hne : first ≠ last)
    (hfilter : lexer.filter = none) (hpos : 0 < lexer.minBuffer)
    (hleast : lexer.minBuffer ≤ held.length) (hheld : held <+: text)
    (hsettled : p.spans held = false ∨ held = text) (calls : List Call) (limit : Nat) :
    Concluded (p.matchLength held)
      (lexer.recognize ((grammar first last).recognizer Value) limit
        (lexer.run (.text text (some 1)) (.initial (grammar first last)) calls)) := by
  have hbegin := (standsAt_of_begin hlexer hne hfilter hpos hleast hheld calls).mono
    (fun _ _ h => h) (fun _ _ h => (h.elim : p.matchLength held = some 0))
  refine (Lexer.recognize_meets hbegin (fun point r h => Lexer.move_meets
    (fun _ _ hmoved => standsAt_of_moved hlexer hheld hsettled h hmoved)
    fun _ _ hstopped => matchLength_of_stopped hlexer hheld hsettled h hstopped) limit).mono ?_
    fun _ _ h => h
  rintro answer r ⟨point, rfl, hstands⟩ recognition hanswer
  cases hstands with
  | finished nonempty concluded =>
    cases hanswer
    exact ⟨nonempty, concluded⟩
  | _ => cases hanswer

end

/-! ### Patterns that are not stable -/

section

variable (p : Pattern) {short long : List Char} {least : Nat}

/-- The lexer has the pattern, with either word looked for first. -/
theorem has (hshort : short ≠ []) (hlong : long ≠ []) (least : Nat) :
    Has (lexer p short long least) p "short" "long" short
      ∧ Has (lexer p short long least) p "long" "short" long := by
  have husable := TokenTable.usable_of_compile (compile_definitions p hshort hlong least)
  have hplain : ∀ spec ∈ (lexer p short long least).tokens, spec.encoder.Plain := by
    intro spec hspec
    simp only [lexer, List.mem_cons, List.not_mem_nil, or_false] at hspec
    rcases hspec with rfl | rfl | rfl <;> exact Encoder.plain_scalar
  exact ⟨⟨⟨_, rfl, rfl⟩, ⟨_, rfl, word?_word _ short⟩, ⟨_, _, rfl, word?_word _ long⟩, by decide,
      by decide, husable, hplain⟩,
    ⟨_, rfl, rfl⟩, ⟨_, rfl, word?_word _ long⟩, ⟨_, _, rfl, word?_word _ short⟩, by decide,
      by decide, husable, hplain⟩

/-- It has no other pattern. -/
theorem eq_of_target_eq {p q : Pattern} {spec : TokenSpec}
    (hspec : spec ∈ (lexer p short long least).tokens) (hq : spec.target = .pattern q) : q = p := by
  simp only [lexer, List.mem_cons, List.not_mem_nil, or_false] at hspec
  rcases hspec with rfl | rfl | rfl
  · exact (Target.pattern.inj hq).symm
  · exact absurd hq (target_word_ne "short" short q)
  · exact absurd hq (target_word_ne "long" long q)

/-- **Where the order does not matter, a pattern that does not take up a text answers alike when the
text goes on.** -/
theorem matchLength_eq_of_orderIndependent (text more : List Char) (hpos : 0 < least)
    (hleast : least ≤ text.length) (hnot : p.spans text = false)
    (h : (lexer p text (text ++ more) least).OrderIndependent) :
    p.matchLength text = p.matchLength (text ++ more) := by
  have hne : text ≠ [] := List.ne_nil_of_length_pos (by omega)
  obtain ⟨hshort, hlong⟩ := has p hne (List.append_ne_nil_of_left_ne_nil hne more) least
  obtain ⟨bound, hsame⟩ := h (text ++ more) (some 1) (grammar "short" "long")
    (grammar "long" "short") [] (by decide) (reorders (by decide) (by decide) (by decide))
  have hbegins := List.prefix_append text more
  -- with the short word first the pattern is asked about the text, with the long one about it all
  have hasked := recognize_rivals hshort (by decide) rfl hpos hleast hbegins (.inl hnot) [] bound
  have hasked' := recognize_rivals hlong (by decide) rfl hpos
    (Nat.le_trans hleast hbegins.length_le) (List.prefix_refl _) (.inr rfl) [] bound
  exact hasked.eq_of_sameUpToOrder hasked' (hsame bound (Nat.le_refl bound))

/-- **A pattern is stable if its rivals never make a difference.** -/
theorem stableFrom_of_orderIndependent (hpos : 0 < least)
    (h : ∀ short long, short ≠ [] → long ≠ [] → (lexer p short long least).OrderIndependent) :
    p.StableFrom least := by
  intro text more hleast
  have hne : text ≠ [] := List.ne_nil_of_length_pos (by omega)
  have hindependent := h text (text ++ more) hne (List.append_ne_nil_of_left_ne_nil hne more)
  have hsame : p.spans text = false → p.matchLength text = p.matchLength (text ++ more) :=
    fun hnot => matchLength_eq_of_orderIndependent p text more hpos hleast hnot hindependent
  refine ⟨fun hnone => ?_, fun length hlength hlt => ?_⟩
  · rw [← hsame (by simp [Pattern.spans, hnone]), hnone]
  · rw [← hsame (by simp [Pattern.spans, hlength, Nat.ne_of_lt hlt]), hlength]

end

end Rivals

namespace Lexer

/-- **A lexer that uses only certain patterns**, besides single characters and literals: its tokens
are compiled, make their values without a callback, and there is no filter. -/
structure UsesOnly (lexer : Lexer) (patterns : Pattern → Prop) : Prop where
  /-- The tokens are compiled. -/
  compiled : ∃ definitions store, TokenTable.compile definitions store = .ok lexer.tokens
  /-- They make their values without a callback. -/
  plain : ∀ spec ∈ lexer.tokens, spec.encoder.Plain
  /-- There is no filter. -/
  unfiltered : lexer.filter = none
  /-- The patterns are those. -/
  patterns : ∀ spec ∈ lexer.tokens, ∀ p, spec.target = .pattern p → patterns p

/-- **The order in which terminals are tried does not matter if and only if the patterns are
stable** from the least size of the buffer on, or everything is read at once. This is said of all
the lexers with a certain least size that use certain patterns, besides any single characters and
literals. -/
theorem orderIndependent_iff_stable (patterns : Pattern → Prop) (least : Nat) :
    (∀ lexer : Lexer, lexer.UsesOnly patterns → lexer.minBuffer = least →
        lexer.OrderIndependent)
      ↔ least = 0 ∨ ∀ p, patterns p → p.StableFrom least := by
  constructor
  · intro h
    refine (Nat.eq_zero_or_pos least).imp id fun hpos p hp => ?_
    refine Rivals.stableFrom_of_orderIndependent p hpos fun short long hshort hlong => ?_
    have hcompile := Rivals.compile_definitions p hshort hlong least
    refine h _ ⟨⟨_, _, hcompile⟩, (Rivals.has p hshort hlong least).1.plain, rfl, ?_⟩ rfl
    intro spec hspec q hq
    rwa [Rivals.eq_of_target_eq hspec hq]
  · rintro hstable lexer hlexer rfl
    obtain ⟨definitions, store, hcompile⟩ := hlexer.compiled
    exact orderIndependent_of_stable hcompile hlexer.plain hlexer.unfiltered
      (hstable.imp id fun hall spec hspec p hp => hall p (hlexer.patterns spec hspec p hp))

/-- A keyword and words, which take as many letters as there are, may be tried in any order. -/
theorem orderIndependent_iff_stable_keyword :
    Keyword.lexer.UsesOnly (· = Keyword.letters) ∧ Keyword.lexer.minBuffer = 1
      ∧ Keyword.letters.StableFrom 1 ∧ Keyword.lexer.OrderIndependent := by
  have huses : Keyword.lexer.UsesOnly (· = Keyword.letters) := by
    refine ⟨⟨Keyword.definitions, .mode .scalar, rfl⟩, fun spec hspec => ?_, rfl,
      fun spec hspec p hp => ?_⟩
    all_goals
      simp only [Keyword.lexer, List.mem_cons, List.not_mem_nil, or_false] at hspec
    · rcases hspec with rfl | rfl | rfl <;> exact Encoder.plain_scalar
    · rcases hspec with rfl | rfl | rfl
      · cases hp
      · exact (Target.pattern.inj hp).symm
      · cases hp
  have hstable := Keyword.takesWhile_letters.stableFrom Nat.one_pos
  refine ⟨huses, rfl, hstable, ?_⟩
  refine (orderIndependent_iff_stable (· = Keyword.letters) 1).mpr (.inr ?_) Keyword.lexer huses rfl
  rintro p rfl
  exact hstable

end Lexer

/-! ## A number that is cut short -/

namespace Rivals

open Regex.Node in
/-- Digits, and an exponent if there is one. -/
def number : Pattern where
  source := "\\d+(?:e\\d+)?"
  flags := {}
  matchLength := matchLength {} <|
    .seq (.repeated (.set (.named .digit false)) 1 none true)
      (.repeated (.seq (.set (.single 'e')) (.repeated (.set (.named .digit false)) 1 none true))
        0 (some 1) true)
  matchLength_le := Regex.Node.matchLength_le

/-- A lexer that looks for numbers next to two of their beginnings, in chunks of two characters. -/
def numbers : Lexer :=
  lexer number "1e".toList "1e5".toList 1

/-- **The order of terminals can matter**: over the text `1e5` the number ends behind its first
digit if the shorter rival is tried before it, since the buffer holds `1e` then, and at the end of
the text if the longer rival is. -/
theorem number_cut_short :
    Pattern.ofRegex? "\\d+(?:e\\d+)?" {} = some number
      ∧ TokenTable.compile (definitions number "1e".toList "1e5".toList) (.mode .scalar)
        = .ok numbers.tokens
      ∧ (grammar "short" "long").Reorders (grammar "long" "short")
      ∧ (numbers.recognize ((grammar "short" "long").recognizer Value) 20
          (numbers.run (.text "1e5".toList none) (.initial (grammar "short" "long"))
            [])).answer.toOption = some (some (.exhausted 1))
      ∧ (numbers.recognize ((grammar "long" "short").recognizer Value) 20
          (numbers.run (.text "1e5".toList none) (.initial (grammar "long" "short"))
            [])).answer.toOption = some (some (.exhausted 3))
      ∧ ¬ numbers.OrderIndependent := by
  refine ⟨rfl, compile_definitions number (by decide) (by decide) 1,
    reorders (by decide) (by decide) (by decide), by decide +kernel, by decide +kernel, fun h => ?_⟩
  have hsame : number.matchLength "1e".toList = number.matchLength "1e5".toList :=
    matchLength_eq_of_orderIndependent number "1e".toList "5".toList Nat.one_pos (by decide)
      (by decide +kernel) h
  exact absurd hsame (by decide +kernel)

end Rivals

end AmbiLex
