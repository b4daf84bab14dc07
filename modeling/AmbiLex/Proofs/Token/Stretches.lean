import AmbiLex.Proofs.Buffer.Facing
import AmbiLex.Proofs.Token.Usable
import AmbiLex.Regex.Matcher

/-!
# Patterns that take a stretch of characters

The patterns that words and blanks are usually described with take as many characters as satisfy a
test, and at least one (`Pattern.TakesWhile`). What such a pattern matches ends where the first
other character stands, so it does not matter what comes behind that: its answers are stable
(`TakesWhile.stableFrom`), and of a stretch with another character behind it all is found and
nothing else (`TakesWhile.verdict`).

A set that is repeated greedily, and at least once, is such a pattern (`takesWhile_stretchOf`), and
so are the usual ones for words and for blanks.
-/

namespace AmbiLex

/-- **What comes next fails a test**, or nothing comes. -/
def StopsAt (test : Char → Bool) (rest : List Char) : Prop :=
  ∀ c ∈ rest.head?, test c = false

/-- Up to where a test fails for the first time, everything satisfies it. -/
theorem StopsAt.takeWhile {test : Char → Bool} {stretch rest : List Char}
    (hstop : StopsAt test rest) (hall : ∀ c ∈ stretch, test c = true) :
    (stretch ++ rest).takeWhile test = stretch := by
  rw [List.takeWhile_append_of_pos hall]
  cases rest with
  | nil => simp
  | cons c rest => simp [hstop c rfl]

namespace Pattern

/-- **A pattern that takes as many characters as satisfy a test**, and at least one. -/
def TakesWhile (p : Pattern) (test : Char → Bool) : Prop :=
  ∀ text, p.matchLength text
    = if text.takeWhile test = [] then none else some (text.takeWhile test).length

namespace TakesWhile

variable {p : Pattern} {test : Char → Bool}

/-- **Its answers are stable** on texts that are not empty. -/
theorem stableFrom (h : p.TakesWhile test) {least : Nat} (hleast : 0 < least) :
    p.StableFrom least := by
  intro text more hlength
  -- a stretch that ends before the text does not depend on what follows the text
  have hsame : (text.takeWhile test).length < text.length →
      p.matchLength (text ++ more) = p.matchLength text := by
    intro hlt
    rw [h, h, List.takeWhile_append, if_neg (Nat.ne_of_lt hlt)]
  rw [h text] at hsame ⊢
  by_cases hnil : text.takeWhile test = []
  · have hlt : (text.takeWhile test).length < text.length := by
      rw [hnil]
      exact Nat.lt_of_lt_of_le hleast hlength
    simp [hsame hlt, hnil]
  · refine ⟨by simp [hnil], fun n hn hlt => ?_⟩
    rw [if_neg hnil, Option.some.injEq] at hn
    rw [hsame (hn ▸ hlt), if_neg hnil, hn]

/-- **Of a stretch with something else behind it, all is found and nothing else.** -/
theorem verdict (h : p.TakesWhile test) {spec : TokenSpec} (hspec : spec.target = .pattern p)
    {stretch rest : List Char} (hne : stretch ≠ []) (hall : ∀ c ∈ stretch, test c = true)
    (hstop : StopsAt test rest) :
    spec.verdict (stretch ++ rest) = .ok (some ⟨spec.name, stretch⟩) := by
  have hmatch : p.matchLength (stretch ++ rest) = some stretch.length := by
    rw [h, hstop.takeWhile hall, if_neg hne]
  rw [TokenSpec.verdict_of_pattern hspec, TokenSpec.patternIn, hmatch]
  cases stretch with
  | nil => exact absurd rfl hne
  | cons c stretch => simp

end TakesWhile

end Pattern

namespace Regex

/-- A set matches the next character if that is in it. -/
theorem run_set (flags : PatternFlags) (chars : CharSet) (p : Place) (k : Continuation) :
    Node.run flags (.set chars) p k = match p.rest with
      | [] => none
      | c :: rest =>
        if chars.contains flags.ignoreCase c then k ⟨p.index + 1, c :: p.past, rest, p.groups⟩
        else none := by
  obtain ⟨index, past, rest, groups⟩ := p
  cases rest with
  | nil => rfl
  | cons c rest => cases hc : chars.contains flags.ignoreCase c <;> simp [Node.run, Place.next?, hc]

/-- **Repeating a set greedily** goes behind all characters that are in it. -/
theorem rest_greedily_set (flags : PatternFlags) (chars : CharSet) (times : Nat) (p : Place)
    (htimes : p.rest.length ≤ times) :
    (Matcher.greedily (Node.run flags (.set chars)) times p some).map Place.rest
      = some (p.rest.dropWhile (chars.contains flags.ignoreCase)) := by
  -- the recursion is on the number of times, which is at least the number of characters left
  induction times generalizing p with
  | zero =>
    have hnil : p.rest = [] := List.eq_nil_of_length_eq_zero (Nat.le_zero.mp htimes)
    simp [Matcher.greedily, hnil]
  | succ times ih =>
    obtain ⟨index, past, rest, groups⟩ := p
    rw [Matcher.greedily, run_set]
    cases rest with
    | nil => rfl
    | cons c rest =>
      cases hc : chars.contains flags.ignoreCase c with
      | false => simp [hc]
      | true =>
        obtain ⟨q, hq, hrest⟩ := Option.map_eq_some_iff.mp
          (ih ⟨index + 1, c :: past, rest, groups⟩ (Nat.le_of_succ_le_succ htimes))
        simp [hc, hq, hrest]

/-- **A set that is repeated greedily, at least once, takes as many characters as are in it.** -/
theorem matchLength_repeated_set (flags : PatternFlags) (chars : CharSet) (text : List Char) :
    Node.matchLength flags (.repeated (.set chars) 1 none true) text
      = if text.takeWhile (chars.contains flags.ignoreCase) = [] then none
        else some (text.takeWhile (chars.contains flags.ignoreCase)).length := by
  rw [Node.matchLength, Node.run, Matcher.times, run_set]
  cases text with
  | nil => rfl
  | cons c text =>
    cases hc : chars.contains flags.ignoreCase c with
    | false => simp [Place.start, hc]
    | true =>
      obtain ⟨q, hq, hrest⟩ := Option.map_eq_some_iff.mp
        (rest_greedily_set flags chars text.length ⟨1, [c], text, []⟩ (Nat.le_refl _))
      have hsplit : (text.takeWhile (chars.contains flags.ignoreCase)).length
          + (text.dropWhile (chars.contains flags.ignoreCase)).length = text.length := by
        rw [← List.length_append, List.takeWhile_append_dropWhile]
      simp [Place.start, Matcher.times, hc, hq, hrest]
      omega

/-- **The pattern of a set that is repeated greedily**, at least once. -/
def stretchOf (source : String) (chars : CharSet) : Pattern :=
  ⟨source, {}, Node.matchLength {} (.repeated (.set chars) 1 none true), Node.matchLength_le⟩

theorem takesWhile_stretchOf (source : String) (chars : CharSet) :
    (stretchOf source chars).TakesWhile (chars.contains false) :=
  matchLength_repeated_set {} chars

/-- A named class holds what it holds. -/
theorem contains_named (cls : CharClass) (ignoreCase : Bool) :
    (CharSet.named cls false).contains ignoreCase = cls.contains := by
  ext c
  simp [CharSet.contains, CharSet.named, SetEntry.contains]

/-- Small letters and digits are word characters, and not blanks. -/
theorem contains_of_letter {c : Char} (h : c.isLower ∨ c.isDigit) :
    CharClass.word.contains c = true ∧ CharClass.space.contains c = false := by
  have hcode : 0x30 ≤ c.toNat := by
    rcases h with h | h
    · have hfirst : 'a'.toNat ≤ c.toNat := of_decide_eq_true (Bool.and_eq_true_iff.mp h).1
      exact Nat.le_trans (by decide) hfirst
    · exact of_decide_eq_true (Bool.and_eq_true_iff.mp h).1
  have hspace : c ≠ ' ' := by
    rintro rfl
    exact absurd hcode (by decide)
  have hword : c.isAlphanum := by
    rcases h with h | h
    · exact Bool.or_eq_true_iff.mpr (.inl (Bool.or_eq_true_iff.mpr (.inr h)))
    · exact Bool.or_eq_true_iff.mpr (.inr h)
  constructor
  · simp [CharClass.contains, hword]
  · simp [CharClass.contains, hspace]
    omega

/-- Spaces and tabs are blanks, and not word characters. -/
theorem contains_of_blank {c : Char} (h : c = ' ' ∨ c = '\t') :
    CharClass.space.contains c = true ∧ CharClass.word.contains c = false := by
  rcases h with rfl | rfl <;> decide

end Regex

end AmbiLex
