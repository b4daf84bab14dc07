import AmbiLex.Proofs.Buffer.LineEndings
import AmbiLex.Proofs.Token.Seeking

/-!
# Tokens where line endings are unified

In a buffer that unifies line endings a token is looked for before it is known what follows the last
character that is held. If that is the first half of a torn ending, the text has a line feed there.
A token can be *misled* by this only if its own text ends just there, with the one character or with
the other. A buffer that always holds more than that keeps its last character out of the token's
sight, and then everything is found as if the whole text had been there and unified
(`seek_unifies`).
-/

namespace AmbiLex

open Text (unified IsUnified Tears)

namespace TokenSpec

/-- **The text that a specification looks for**, if it is not a pattern that it looks for. -/
def word? (spec : TokenSpec) : Option (List Char) :=
  match spec.target with
  | .singleChar word | .literal word => some word
  | _ => none

/-- **A token that a torn ending can mislead**, with a certain least size of the buffer: its text
ends with one half of an ending, where a unified text may have a line feed, and the buffer need not
hold more than that. -/
def Misled (spec : TokenSpec) (least : Nat) : Prop :=
  ∃ body last, spec.word? = some (body ++ [last]) ∧ (last = '\r' ∨ last = '\n')
    ∧ IsUnified (body ++ ['\n']) ∧ least ≤ body.length + 1

variable {spec : TokenSpec}

/-- A usable specification that looks for no pattern looks for a text. -/
theorem exists_word (hu : spec.Usable) (hplain : ∀ p, spec.target ≠ .pattern p) :
    ∃ word, spec.word? = some word := by
  unfold Usable at hu
  unfold word?
  cases ht : spec.target with
  | singleChar word => exact ⟨word, rfl⟩
  | literal word => exact ⟨word, rfl⟩
  | pattern p => exact absurd ht (hplain p)
  | unknown kind =>
    rw [ht] at hu
    exact hu.elim

/-- **What is looked for is the text**, also if it is a single character. -/
theorem verdict_of_word (hu : spec.Usable) {word : List Char} (hword : spec.word? = some word)
    (text : List Char) : spec.verdict text = .ok (literalIn spec.name word text) := by
  unfold Usable at hu
  unfold word? at hword
  unfold verdict
  cases ht : spec.target with
  | singleChar word' =>
    rw [ht] at hu hword
    cases hword
    exact congrArg Except.ok (singleCharIn_eq_literalIn hu)
  | literal word' =>
    rw [ht] at hword
    cases hword
    rfl
  | pattern p =>
    rw [ht] at hword
    cases hword
  | unknown kind =>
    rw [ht] at hword
    cases hword

/-- Where a text is found wanting it is shorter than what is looked for. -/
theorem length_lt_of_wanting {word text : List Char} (hword : spec.word? = some word)
    (hw : spec.wanting text = true) : text.length < word.length := by
  unfold word? at hword
  unfold wanting at hw
  cases ht : spec.target with
  | singleChar word' =>
    rw [ht] at hw
    cases hw
  | literal word' =>
    rw [ht] at hword hw
    cases hword
    exact of_decide_eq_true hw
  | pattern p =>
    rw [ht] at hword
    cases hword
  | unknown kind =>
    rw [ht] at hword
    cases hword

/-- A text that is not found wanting is no shorter than what is looked for. -/
theorem length_word_le (hu : spec.Usable) {word text : List Char} (hword : spec.word? = some word)
    (hne : text ≠ []) (hw : spec.wanting text = false) : word.length ≤ text.length := by
  unfold Usable at hu
  unfold word? at hword
  unfold wanting at hw
  cases ht : spec.target with
  | singleChar word' =>
    rw [ht] at hu hword
    cases hword
    have hpos := List.length_pos_iff.mpr hne
    omega
  | literal word' =>
    rw [ht] at hword hw
    cases hword
    simpa using hw
  | pattern p =>
    rw [ht] at hword
    cases hword
  | unknown kind =>
    rw [ht] at hword
    cases hword

/-- What a text with a certain character behind it begins with ends before the character, or just
there. -/
theorem prefix_or_eq_of_prefix {word text more : List Char} {c : Char}
    (h : word <+: text ++ c :: more) (hlength : word.length ≤ text.length + 1) :
    word <+: text ∨ word = text ++ [c] := by
  by_cases hle : word.length ≤ text.length
  · exact .inl (List.prefix_of_prefix_length_le h (List.prefix_append text _) hle)
  · have hsame : (text ++ [c]).length = text.length + 1 := List.length_append
    have hwith : text ++ [c] <+: text ++ c :: more := ⟨more, by rw [List.append_assoc]; rfl⟩
    refine .inr ((List.prefix_of_prefix_length_le h hwith ?_).eq_of_length ?_) <;> omega

/-- **A token that is not misled by a torn ending** is there on both sides of it or on none: whether
the text goes on with the first half of the ending or with a line feed makes no difference. -/
theorem isPrefixOf_torn {least : Nat} {word text more : List Char}
    (hword : spec.word? = some word) (hsafe : ¬ spec.Misled least)
    (hunified : IsUnified (text ++ ['\n'])) (hleast : least ≤ text.length + 1)
    (hlength : word.length ≤ text.length + 1) :
    word.isPrefixOf (text ++ '\n' :: more) = word.isPrefixOf (text ++ ['\r']) := by
  have hends : ∀ {last : Char} {rest : List Char}, last = '\r' ∨ last = '\n' →
      word <+: text ++ last :: rest → word <+: text := by
    intro last rest hlast hbegins
    rcases prefix_or_eq_of_prefix hbegins hlength with hinside | rfl
    · exact hinside
    · exact absurd ⟨text, last, hword, hlast, hunified, hleast⟩ hsafe
  rw [Bool.eq_iff_iff, List.isPrefixOf_iff_prefix, List.isPrefixOf_iff_prefix]
  exact ⟨fun h => (hends (.inr rfl) h).trans (List.prefix_append text _),
    fun h => (hends (.inl rfl) h).trans (List.prefix_append text _)⟩

/-- **A buffer that is ready and not found wanting has the verdict of the unified text.** -/
theorem verdict_of_unifies (hu : spec.Usable) (hplain : ∀ p, spec.target ≠ .pattern p) {b : Buffer}
    {ahead : List Char} (hb : b.Unifies ahead) (hr : b.Ready)
    (hw : b.mayGrow = true → spec.wanting b.text = false)
    (hsafe : ¬ spec.Misled b.minBuffer.toNat) : spec.verdict ahead = spec.verdict b.text := by
  cases hm : b.mayGrow with
  | false => rw [hb.text_eq hm]
  | true =>
    have hheld : 0 < b.minBuffer ∧ b.minBuffer ≤ b.text.length := by
      rcases hr with hended | hheld
      · rw [hm] at hended
        cases hended
      · exact hheld
    have hne : b.text ≠ [] := List.ne_nil_of_length_pos (by omega)
    obtain ⟨rest, pace, -, -, htext, -⟩ := hb.supply
    by_cases htears : Tears b.text rest
    · -- the last character that is held stands for a line feed
      obtain ⟨text, more, heq, rfl⟩ := htears.exists_halves
      obtain ⟨word, hword⟩ := exists_word hu hplain
      have hlength := length_word_le hu hword hne (hw hm)
      have hunified := hb.text_unified
      have hahead := hb.ahead_unified
      rw [heq] at htext hlength hheld hunified ⊢
      rw [List.length_append, List.length_singleton] at hlength hheld
      rw [List.append_assoc, List.singleton_append, Text.unified_append_ending,
        hunified.of_append.1] at htext
      rw [← htext, ← List.singleton_append, ← List.append_assoc] at hahead
      rw [← htext, verdict_of_word hu hword, verdict_of_word hu hword]
      unfold literalIn
      rw [isPrefixOf_torn hword hsafe hahead.of_append.1 (by omega) hlength]
    · rw [← htext, Text.unified_append htears, hb.text_unified]
      exact verdict_append hne (fun p hp => absurd hp (hplain p)) (hw hm) _

/-- **In a ready buffer that unifies line endings a token is found as if the whole text were there
and unified**, if no torn ending can mislead it. What is found can be relied on. -/
theorem seek_unifies (hu : spec.Usable) (hplain : ∀ p, spec.target ≠ .pattern p) {b : Buffer}
    {ahead : List Char} (hb : b.Unifies ahead) (hr : b.Ready)
    (hsafe : ¬ spec.Misled b.minBuffer.toNat) :
    (spec.seek b).Meets
      (fun found b' => spec.verdict ahead = .ok found ∧ Buffer.GrownTowards ahead b b'
        ∧ b'.Unifies ahead ∧ ∀ token, found = some token → b'.Shares ahead token.length)
      (fun fault _ => spec.verdict ahead = .error fault) := by
  have hloop := (Buffer.growWhile_unifies hb spec.wanting).mono
    (fun _ b' h => (show (Buffer.GrownTowards ahead b b' ∧ b'.Unifies ahead)
      ∧ spec.verdict ahead = spec.verdict b'.text from ⟨h.1, by
        refine verdict_of_unifies hu hplain h.1.2 (h.1.1.ready hr) h.2 ?_
        rw [h.1.1.minBuffer_eq]
        exact hsafe⟩))
    (fun fault b' (h : False) => (h.elim : spec.verdict ahead = .error fault))
  refine (seek_meets hloop fun fault b' h hv => h.2.trans hv).mono ?_ (fun _ _ h => h)
  rintro found b' ⟨⟨⟨hg, hf⟩, hv⟩, hfound⟩
  refine ⟨hv.trans hfound, hg, hf, ?_⟩
  rintro token rfl
  exact ⟨token.text, (found_of_verdict hu hfound).2.2, (found_of_verdict hu (hv.trans hfound)).2.2,
    Int.le_refl _⟩

end TokenSpec

end AmbiLex
