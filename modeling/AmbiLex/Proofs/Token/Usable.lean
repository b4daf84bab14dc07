import AmbiLex.Token.Match

/-!
# Tokens that can be used

A specification can be made by hand, with any target. The ones that are compiled from definitions
are of a better kind: what they look for is one character, or a text that is not empty, or a
pattern, and nothing else. Such a specification is *usable*, and what it finds is a non-empty
beginning of the text it looks at. Everything that is said of runs later on rests on that, since a
token of no length would leave the recognizer where it is.

`TokenSpec.verdict` is what a text says about a specification if nothing follows the text. It is
the measure for everything a lexer finds in a text that it has read only in part. A verdict that is
not a fault comes to a length, `TokenSpec.matchLength?`: that many characters match, and a name and
a beginning of the text are all there is to a token that is found.
-/

namespace AmbiLex

namespace TokenSpec

/-- **A specification that can be used**: its target is one character, a text that is not empty, or
a pattern. -/
def Usable (spec : TokenSpec) : Prop :=
  match spec.target with
  | .singleChar word => word.length = 1
  | .literal word => word ≠ []
  | .pattern _ => True
  | .unknown _ => False

/-- **What a whole text says about a specification.** -/
def verdict (spec : TokenSpec) (text : List Char) : Except Fault (Option Found) :=
  match spec.target with
  | .singleChar word => .ok (singleCharIn spec.name word text)
  | .literal word => .ok (literalIn spec.name word text)
  | .pattern p => patternIn spec.name p text
  | .unknown kind => .error (.unknownKind kind.spoken)

theorem verdict_of_pattern {spec : TokenSpec} {p : Pattern} (h : spec.target = .pattern p)
    (text : List Char) : spec.verdict text = patternIn spec.name p text := by
  rw [verdict, h]

/-! ## What is found -/

/-- **What a pattern says about a text depends on the length of its match only**, as long as the
texts begin alike. -/
theorem patternIn_congr {name : String} {p : Pattern} {text more : List Char}
    (h : p.matchLength text = p.matchLength (text ++ more)) :
    patternIn name p text = patternIn name p (text ++ more) := by
  unfold patternIn
  rw [← h]
  cases hm : p.matchLength text with
  | none => rfl
  | some n =>
    cases n with
    | zero => rfl
    | succ n =>
      have hle : n + 1 ≤ text.length := p.matchLength_le hm
      show Except.ok (some (Found.mk name (text.take (n + 1)))) = .ok (some _)
      rw [List.take_append_of_le_length hle]

/-- The length of a pattern's match can be read off what the pattern says about a text. -/
theorem matchLength_eq_of_patternIn {name : String} {p : Pattern} {text text' : List Char}
    (h : patternIn name p text = patternIn name p text') :
    p.matchLength text = p.matchLength text' := by
  -- the three answers are told apart, and a found text shows its length
  unfold patternIn at h
  cases hm : p.matchLength text with
  | none =>
    cases hm' : p.matchLength text' with
    | none => rfl
    | some n' => cases n' <;> simp [hm, hm'] at h
  | some n =>
    have hle : n ≤ text.length := p.matchLength_le hm
    cases hm' : p.matchLength text' with
    | none => cases n <;> simp [hm, hm'] at h
    | some n' =>
      have hle' : n' ≤ text'.length := p.matchLength_le hm'
      cases n with
      | zero => cases n' <;> simp [hm, hm'] at h ⊢
      | succ n =>
        cases n' with
        | zero => simp [hm, hm'] at h
        | succ n' =>
          simp only [hm, hm', Except.ok.injEq, Option.some.injEq, Found.mk.injEq] at h
          have hlen := congrArg List.length h.2
          rw [List.length_take, List.length_take] at hlen
          rw [Option.some.injEq]
          omega

/-! ## The length of a match -/

/-- **The length of a token's match at the start of a text**: of its text if the other starts with
that, or of its pattern's match. A match of the empty text is none. -/
def matchLength? (spec : TokenSpec) (text : List Char) : Option Nat :=
  match spec.target with
  | .singleChar word | .literal word => if word.isPrefixOf text then some word.length else none
  | .pattern p => (p.matchLength text).filter fun length => 0 < length
  | .unknown _ => none

/-- A single character is a short literal. -/
theorem singleCharIn_eq_literalIn {name : String} {word text : List Char} (hone : word.length = 1) :
    singleCharIn name word text = literalIn name word text := by
  have hiff : text.take 1 = word ↔ word.isPrefixOf text = true := by
    rw [List.isPrefixOf_iff_prefix, List.prefix_iff_eq_take, hone]
    exact eq_comm
  unfold singleCharIn literalIn
  simp only [hiff]

/-- What a text says about a literal is told by the literal's length. -/
theorem literalIn_eq_map (name : String) (word text : List Char) :
    literalIn name word text
      = (if word.isPrefixOf text then some word.length else none).map fun length =>
        ⟨name, text.take length⟩ := by
  unfold literalIn
  by_cases hw : word.isPrefixOf text = true
  · rw [if_pos hw, if_pos hw, Option.map_some,
      ← List.prefix_iff_eq_take.mp (List.isPrefixOf_iff_prefix.mp hw)]
  · rw [if_neg hw, if_neg hw]
    rfl

/-- What a text says about a pattern is told by the length of the pattern's match. -/
theorem eq_map_of_patternIn {name : String} {p : Pattern} {text : List Char}
    {found : Option Found} (h : patternIn name p text = .ok found) :
    found = ((p.matchLength text).filter fun length => 0 < length).map fun length =>
      ⟨name, text.take length⟩ := by
  unfold patternIn at h
  cases hm : p.matchLength text with
  | none =>
    rw [hm] at h
    cases h
    rfl
  | some length =>
    rw [hm] at h
    cases length with
    | zero => cases h
    | succ length =>
      cases h
      rfl

/-- **A pattern that gives an answer has matched what it answers**, and that is not empty. -/
theorem matchLength_of_patternIn_eq_ok {name : String} {p : Pattern} {text : List Char}
    {found : Option Found} (h : patternIn name p text = .ok found) :
    p.matchLength text = found.map Found.length ∧ p.matchLength text ≠ some 0 := by
  unfold patternIn at h
  cases hm : p.matchLength text with
  | none =>
    rw [hm] at h
    cases h
    exact ⟨rfl, nofun⟩
  | some length =>
    rw [hm] at h
    cases length with
    | zero => cases h
    | succ length =>
      cases h
      exact ⟨congrArg some (List.length_take_of_le (p.matchLength_le hm)).symm, nofun⟩

/-- A pattern with a fault has matched the empty text. -/
theorem matchLength_of_patternIn_eq_error {name : String} {p : Pattern} {text : List Char}
    {fault : Fault} (h : patternIn name p text = .error fault) : p.matchLength text = some 0 := by
  unfold patternIn at h
  cases hm : p.matchLength text with
  | none =>
    rw [hm] at h
    cases h
  | some length =>
    rw [hm] at h
    cases length with
    | zero => rfl
    | succ length => cases h

/-- **What a text says about a specification is its match**, under its name. -/
theorem eq_map_of_verdict {spec : TokenSpec} (hu : spec.Usable) {text : List Char}
    {found : Option Found} (h : spec.verdict text = .ok found) :
    found = (spec.matchLength? text).map fun length => ⟨spec.name, text.take length⟩ := by
  unfold verdict at h
  unfold matchLength?
  unfold Usable at hu
  cases ht : spec.target with
  | singleChar word =>
    rw [ht] at h hu
    cases h
    exact (singleCharIn_eq_literalIn hu).trans (literalIn_eq_map spec.name word text)
  | literal word =>
    rw [ht] at h
    cases h
    exact literalIn_eq_map spec.name word text
  | pattern p =>
    rw [ht] at h
    exact eq_map_of_patternIn h
  | unknown kind =>
    rw [ht] at hu
    exact hu.elim

/-- The length of a literal lies between 1 and the length of a text that starts with it. -/
theorem bounds_of_literal {word text : List Char} {length : Nat} (hne : word ≠ [])
    (h : (if word.isPrefixOf text then some word.length else none) = some length) :
    0 < length ∧ length ≤ text.length := by
  split at h
  · rename_i hw
    cases h
    exact ⟨List.length_pos_iff.mpr hne, (List.isPrefixOf_iff_prefix.mp hw).length_le⟩
  · cases h

/-- **A match has a length and lies within the text.** -/
theorem matchLength?_bounds {spec : TokenSpec} (hu : spec.Usable) {text : List Char}
    {length : Nat} (h : spec.matchLength? text = some length) :
    0 < length ∧ length ≤ text.length := by
  unfold matchLength? at h
  unfold Usable at hu
  cases ht : spec.target with
  | singleChar word =>
    rw [ht] at h hu
    exact bounds_of_literal (List.ne_nil_of_length_eq_add_one hu) h
  | literal word =>
    rw [ht] at h hu
    exact bounds_of_literal hu h
  | pattern p =>
    rw [ht] at h
    obtain ⟨hm, hpos⟩ := Option.filter_eq_some_iff.mp h
    exact ⟨of_decide_eq_true hpos, p.matchLength_le hm⟩
  | unknown kind =>
    rw [ht] at h
    cases h

/-- **What is found is a non-empty beginning of the text**, under the name of the
specification. -/
theorem found_of_verdict {spec : TokenSpec} (hu : spec.Usable) {text : List Char} {found : Found}
    (h : spec.verdict text = .ok (some found)) :
    found.name = spec.name ∧ found.text ≠ [] ∧ found.text <+: text := by
  obtain ⟨length, hlength, rfl⟩ := Option.map_eq_some_iff.mp (eq_map_of_verdict hu h).symm
  obtain ⟨hpos, hle⟩ := matchLength?_bounds hu hlength
  refine ⟨rfl, List.ne_nil_of_length_pos ?_, List.take_prefix length text⟩
  rw [List.length_take, Nat.min_eq_left hle]
  exact hpos

/-- **A specification that can be used fails on a text only by a match of the empty text.** -/
theorem emptyMatch_of_verdict {spec : TokenSpec} (hu : spec.Usable) {text : List Char}
    {fault : Fault} (h : spec.verdict text = .error fault) : fault = .emptyMatch spec.name := by
  unfold verdict at h
  unfold Usable at hu
  cases ht : spec.target with
  | singleChar word =>
    rw [ht] at h
    cases h
  | literal word =>
    rw [ht] at h
    cases h
  | pattern p =>
    rw [ht] at h
    change patternIn spec.name p text = .error fault at h
    unfold patternIn at h
    split at h
    · cases h
    · cases h
      rfl
    · cases h
  | unknown kind =>
    rw [ht] at hu
    exact hu.elim

/-- Such a fault is one of the definition. -/
theorem cls_of_verdict {spec : TokenSpec} (hu : spec.Usable) {text : List Char} {fault : Fault}
    (h : spec.verdict text = .error fault) : fault.cls = .tokenSpec := by
  rw [emptyMatch_of_verdict hu h]
  rfl

/-! ## Compiled tables -/

/-- A token whose target is settled is usable if the target came from a setting. -/
theorem usable_of_ofTarget {name : String} {encoder : Encoder} {subject : Setting}
    {target : Target} {spec : TokenSpec} (ht : Target.ofSetting? subject = some target)
    (h : ofTarget name encoder target = .ok spec) : spec.Usable := by
  unfold Target.ofSetting? at ht
  split at ht
  · rename_i s
    cases ht
    unfold Target.ofText at h
    split at h
    · rename_i hlen
      cases h
      exact hlen
    · cases hs : s.toList with
      | nil =>
        rw [hs] at h
        cases h
      | cons c cs =>
        rw [hs] at h
        cases h
        exact List.cons_ne_nil c cs
  · cases ht
    cases h
    trivial
  · cases ht

theorem usable_of_ofSubject {name : String} {encoder : Encoder} {subject : Setting}
    {spec : TokenSpec} (h : ofSubject name encoder subject = .ok spec) : spec.Usable := by
  unfold ofSubject at h
  split at h
  · cases h
  · rename_i target ht
    exact usable_of_ofTarget ht h

/-- **A compiled token is usable.** -/
theorem usable_of_compile {default : Encoder} {name : String} {definition : Setting}
    {spec : TokenSpec} (h : compile default name definition = .ok spec) : spec.Usable := by
  unfold compile at h
  split at h
  · exact usable_of_ofSubject h
  · rename_i entries _
    split at h
    · cases h
    · cases he : encoderOf default entries with
      | error fault =>
        rw [he] at h
        cases h
      | ok encoder =>
        rw [he] at h
        exact usable_of_ofSubject h

end TokenSpec

namespace TokenTable

/-- What is listed by a sequence of answers was answered to something listed. -/
theorem exists_of_mem_mapM {α β ε : Type} {f : α → Except ε β} {as : List α} {bs : List β}
    (h : as.mapM f = .ok bs) {b : β} (hb : b ∈ bs) : ∃ a ∈ as, f a = .ok b := by
  induction as generalizing bs with
  | nil =>
    cases h
    cases hb
  | cons a as ih =>
    rw [List.mapM_cons] at h
    cases ha : f a with
    | error e =>
      rw [ha] at h
      cases h
    | ok b₀ =>
      cases has : as.mapM f with
      | error e =>
        rw [ha, has] at h
        cases h
      | ok bs₀ =>
        rw [ha, has] at h
        cases h
        cases hb with
        | head => exact ⟨a, List.mem_cons_self, ha⟩
        | tail _ hb =>
          obtain ⟨a', ha', hf⟩ := ih has hb
          exact ⟨a', List.mem_cons_of_mem a ha', hf⟩

/-- **Every token of a compiled table is usable.** -/
theorem usable_of_compile {definitions : List (String × Setting)} {store : Setting}
    {table : TokenTable} (h : compile definitions store = .ok table) :
    ∀ spec ∈ table, spec.Usable := by
  intro spec hspec
  unfold compile at h
  cases hd : Encoder.resolve store with
  | error fault =>
    rw [hd] at h
    cases h
  | ok default =>
    rw [hd] at h
    obtain ⟨⟨name, definition⟩, -, hc⟩ := exists_of_mem_mapM h hspec
    exact TokenSpec.usable_of_compile hc

/-- The token of a name is in the table and has that name. -/
theorem of_find?_eq_some {table : TokenTable} {name : String} {spec : TokenSpec}
    (h : table.find? name = some spec) : spec ∈ table ∧ spec.name = name :=
  ⟨List.mem_of_find?_eq_some h, by simpa using List.find?_some h⟩

/-- The length of the match of a terminal. One that is in no table matches nothing. -/
def matchLength? (table : TokenTable) (name : String) (text : List Char) : Option Nat :=
  (table.find? name).bind fun spec => spec.matchLength? text

theorem matchLength?_bounds {table : TokenTable} (hu : ∀ spec ∈ table, spec.Usable)
    {name : String} {text : List Char} {length : Nat}
    (h : table.matchLength? name text = some length) : 0 < length ∧ length ≤ text.length := by
  obtain ⟨spec, hfind, hmatch⟩ := Option.bind_eq_some_iff.mp h
  exact TokenSpec.matchLength?_bounds (hu spec (of_find?_eq_some hfind).1) hmatch

end TokenTable

end AmbiLex
