import AmbiLex.Proofs.Buffer.Facing

/-!
# Looking for a token in a buffer

Whatever is looked for, a buffer is treated alike: it grows as long as its text is found wanting,
and then the text that is there by then has the last word (`TokenSpec.seek_apply`). Nothing else has
to be known about looking for a token.

So what is found is always a non-empty beginning of the buffer (`seek_grown`). Whether it is what
the whole text has there is another matter, and depends on the pattern. For a buffer that faces a
text and is ready, `seek_of_ready` says that it is, provided that the answers of the pattern are
stable from the least size of the buffer on.
-/

namespace AmbiLex

namespace TokenSpec

/-- **What a specification finds wanting in a text**: that the text is shorter than its literal, or
that its pattern takes up all of the text. A single character never needs more than is there. -/
def wanting (spec : TokenSpec) : List Char → Bool :=
  match spec.target with
  | .literal word => fun text => text.length < word.length
  | .pattern p => p.spans
  | _ => fun _ => false

/-- **Looking for a token is growing the buffer as far as its text is found wanting**, and then
asking that text. -/
theorem seek_apply (spec : TokenSpec) (b : Buffer) :
    spec.seek b = match Buffer.growWhile spec.wanting b with
      | .ok _ b' => match spec.verdict b'.text with
        | .ok found => .ok found b'
        | .error fault => .error fault b'
      | .error fault b' => .error fault b' := by
  unfold seek verdict wanting
  cases spec.target with
  | singleChar word =>
    rw [Buffer.growWhile_of_settled (fun _ => rfl)]
    rfl
  | literal word =>
    show EStateM.bind (Buffer.growWhile fun text => text.length < word.length)
      (fun _ => do return literalIn spec.name word (← get).text) b = _
    unfold EStateM.bind
    dsimp only
    cases Buffer.growWhile (fun text => decide (text.length < word.length)) b <;> rfl
  | pattern p =>
    show EStateM.bind (Buffer.growWhile p.spans)
      (fun _ => do MonadExcept.ofExcept (patternIn spec.name p (← get).text)) b = _
    unfold EStateM.bind
    dsimp only
    cases Buffer.growWhile p.spans b with
    | error fault b' => rfl
    | ok u b' =>
      dsimp only
      rw [EStateM.get_bind]
      cases patternIn spec.name p b'.text <;> rfl
  | unknown kind =>
    rw [Buffer.growWhile_of_settled (fun _ => rfl)]
    rfl

/-- What is found is what the text says in the end, unless growing the buffer fails. -/
theorem answer_seek (spec : TokenSpec) (b : Buffer) :
    (spec.seek b).answer = match Buffer.growWhile spec.wanting b with
      | .ok _ b' => spec.verdict b'.text
      | .error fault _ => .error fault := by
  rw [seek_apply]
  cases Buffer.growWhile spec.wanting b with
  | error fault b' => rfl
  | ok u b' =>
    dsimp only
    cases spec.verdict b'.text <;> rfl

/-- **What was found is what the text says** that is in the buffer then. -/
theorem verdict_of_seek {spec : TokenSpec} {b b' : Buffer} {found : Option Found}
    (h : spec.seek b = .ok found b') : spec.verdict b'.text = .ok found := by
  rw [seek_apply] at h
  cases hg : Buffer.growWhile spec.wanting b with
  | error fault b₁ =>
    rw [hg] at h
    cases h
  | ok u b₁ =>
    rw [hg] at h
    dsimp only at h
    cases hv : spec.verdict b₁.text with
    | error fault =>
      rw [hv] at h
      cases h
    | ok found' =>
      rw [hv] at h
      cases h
      exact hv

/-- What is known of the growing is known of the looking. -/
theorem seek_meets {spec : TokenSpec} {b : Buffer} {P : Buffer → Prop} {bad : Fault → Buffer → Prop}
    (hloop : (Buffer.growWhile spec.wanting b).Meets (fun _ b' => P b') bad)
    (hbad : ∀ fault b', P b' → spec.verdict b'.text = .error fault → bad fault b') :
    (spec.seek b).Meets (fun found b' => P b' ∧ spec.verdict b'.text = .ok found) bad := by
  rw [seek_apply]
  cases hg : Buffer.growWhile spec.wanting b with
  | error fault b' =>
    rw [hg] at hloop
    exact hloop
  | ok u b' =>
    rw [hg] at hloop
    dsimp only
    cases hv : spec.verdict b'.text with
    | error fault => exact hbad fault b' hloop hv
    | ok found => exact ⟨hloop, hv⟩

/-- **What every growth keeps, looking for a token keeps**, failed or not. -/
theorem seek_keeps {P : Buffer → Prop}
    (hgrow : ∀ b, P b → (Buffer.grow b).Meets (fun _ b' => P b') (fun _ b' => P b'))
    (spec : TokenSpec) {b : Buffer} (hb : P b) :
    (spec.seek b).Meets (fun _ b' => P b') (fun _ b' => P b') :=
  (seek_meets (Buffer.growWhile_keeps hgrow _ hb) fun _ _ h _ => h).mono (fun _ _ h => h.1)
    (fun _ _ h => h)

/-- **What is looked for in a buffer that cannot grow** is what its text says, and the buffer stays
as it is. -/
theorem seek_meets_of_ended (spec : TokenSpec) {b : Buffer} (hended : b.mayGrow = false) :
    (spec.seek b).Meets (fun found b' => spec.verdict b.text = .ok found ∧ b' = b)
      (fun fault _ => spec.verdict b.text = .error fault) := by
  rw [seek_apply, Buffer.growWhile_of_settled (fun hm => by rw [hended] at hm; cases hm)]
  dsimp only
  cases hv : spec.verdict b.text with
  | error fault => rfl
  | ok found => exact ⟨rfl, rfl⟩

/-- **What is found is a non-empty beginning of the buffer**, which has grown. -/
theorem seek_grown {spec : TokenSpec} (hu : spec.Usable) {b : Buffer} (hf : b.filter = none) :
    (spec.seek b).Meets
      (fun found b' => Buffer.Grown b b' ∧ ∀ token, found = some token →
        token.name = spec.name ∧ token.text ≠ [] ∧ token.text <+: b'.text)
      (fun _ b' => Buffer.Grown b b') := by
  have hloop := (Buffer.growWhile_grown hf spec.wanting).mono (fun _ _ h => h.1) (fun _ _ h => h)
  refine (seek_meets hloop fun _ _ h _ => h).mono ?_ (fun _ _ h => h)
  rintro found b' ⟨hg, hv⟩
  refine ⟨hg, fun token htoken => ?_⟩
  rw [htoken] at hv
  exact found_of_verdict hu hv

/-- **A text that is as long as a literal says of it what any text says that goes on from it.** -/
theorem literalIn_append (name : String) {word text : List Char} (hle : word.length ≤ text.length)
    (more : List Char) : literalIn name word (text ++ more) = literalIn name word text := by
  have hbeginning : word.isPrefixOf (text ++ more) = word.isPrefixOf text := by
    rw [Bool.eq_iff_iff, List.isPrefixOf_iff_prefix, List.isPrefixOf_iff_prefix]
    exact ⟨fun h => List.prefix_of_prefix_length_le h (List.prefix_append text more) hle,
      fun h => h.trans (List.prefix_append text more)⟩
  unfold literalIn
  rw [hbeginning]

/-- **A text that is not found wanting says what any text says that goes on from it**, if the
pattern looked for is stable from that length on. -/
theorem verdict_append {spec : TokenSpec} {text : List Char} (hne : text ≠ [])
    (hstable : ∀ p, spec.target = .pattern p → ∃ least ≤ text.length, p.StableFrom least)
    (hw : spec.wanting text = false) (more : List Char) :
    spec.verdict (text ++ more) = spec.verdict text := by
  unfold verdict
  unfold wanting at hw
  cases ht : spec.target with
  | singleChar word =>
    show Except.ok (singleCharIn _ _ _) = .ok (singleCharIn _ _ _)
    unfold singleCharIn
    rw [List.take_append_of_le_length (List.length_pos_iff.mpr hne)]
  | literal word =>
    rw [ht] at hw
    have hle : word.length ≤ text.length := by simpa using hw
    exact congrArg Except.ok (literalIn_append spec.name hle more)
  | pattern p =>
    rw [ht] at hw
    obtain ⟨least, hle, hp⟩ := hstable p ht
    obtain ⟨hnone, hsome⟩ := hp text more hle
    refine (patternIn_congr ?_).symm
    cases hm : p.matchLength text with
    | none => exact (hnone hm).symm
    | some n =>
      -- the match does not take up the text, so it ends before the end
      have hlt : n < text.length := by
        refine Nat.lt_of_le_of_ne (p.matchLength_le hm) fun h => ?_
        have hspans : p.spans text = true := Pattern.spans_iff.mpr ⟨hne, h ▸ hm⟩
        rw [show p.spans text = false from hw] at hspans
        cases hspans
      exact (hsome n hm hlt).symm
  | unknown kind => rfl

/-- **In a ready buffer a token is found as if the whole text were there**, if the answers of its
pattern are stable from the least size of the buffer on. -/
theorem seek_of_ready {spec : TokenSpec} {b : Buffer} {ahead : List Char}
    (hb : b.Faces ahead) (hr : b.Ready) (hne : b.text ≠ [])
    (hstable : ∀ p, spec.target = .pattern p → 0 < b.minBuffer →
      p.StableFrom b.minBuffer.toNat) :
    (spec.seek b).Meets
      (fun found b' => spec.verdict ahead = .ok found ∧ Buffer.Grown b b' ∧ b'.Faces ahead)
      (fun fault _ => spec.verdict ahead = .error fault) := by
  -- the text that is asked in the end has the verdict of the whole text
  have hverdict : ∀ b', Buffer.Grown b b' → b'.Faces ahead →
      (b'.mayGrow = true → spec.wanting b'.text = false) →
      spec.verdict ahead = spec.verdict b'.text := by
    intro b' hg hf hdone
    obtain ⟨more, hmore⟩ := hf.isPrefix
    have hne' : b'.text ≠ [] := fun h =>
      hne (List.eq_nil_of_prefix_nil (h ▸ hg.isPrefix))
    cases hm : b'.mayGrow with
    | false => rw [hf.text_eq hm]
    | true =>
      rw [← hmore]
      refine verdict_append hne' (fun p hp => ?_) (hdone hm) more
      rcases hr.grown hg with hm' | ⟨hpos, hle⟩
      · rw [hm] at hm'
        cases hm'
      · rw [hg.minBuffer_eq] at hpos hle
        exact ⟨_, by omega, hstable p hp hpos⟩
  have hloop := (Buffer.growWhile_faces hb spec.wanting).mono
    (fun _ b' h => (show (Buffer.Grown b b' ∧ b'.Faces ahead)
      ∧ spec.verdict ahead = spec.verdict b'.text from ⟨h.1, hverdict b' h.1.1 h.1.2 h.2⟩))
    (fun fault b' (h : False) => (h.elim : spec.verdict ahead = .error fault))
  refine (seek_meets hloop fun fault b' h hv => h.2.trans hv).mono ?_ (fun _ _ h => h)
  rintro found b' ⟨⟨hg, hv⟩, hfound⟩
  exact ⟨hv.trans hfound, hg⟩

end TokenSpec

end AmbiLex
