import AmbiLex.Proofs.Token.LineEndings
import AmbiLex.Proofs.Token.Truncation

/-!
# Tokens in a text that trickles

A source may deliver one character at a time. Then a buffer grows no further than it has to: when a
literal was looked for it holds as much of the text as the literal is long (`seek_word_trickling`),
whatever the literal is. So it can be arranged what a pattern is asked about that is looked for
next, and the pattern has the last word on that if it does not take it up
(`seek_pattern_trickling`).
-/

namespace AmbiLex

namespace Buffer

/-- **A buffer to which a text trickles**: nothing was consumed yet, and a read delivers one
character. -/
structure Trickles (b : Buffer) (text : List Char) : Prop where
  /-- The buffer faces the text. -/
  faces : b.Faces text
  /-- One character is delivered at a time. -/
  stride_eq : b.stride = 1
  /-- The buffer does not read everything at once. -/
  minBuffer_pos : 0 < b.minBuffer
  /-- Nothing was consumed. -/
  consumed_eq : b.consumed = 0

variable {b : Buffer} {text : List Char}

/-- A buffer from which nothing was read yet. -/
theorem Trickles.start (text : List Char) {least : Nat} (hpos : 0 < least) :
    (Buffer.start (.text text (some 1)) least none).Trickles text := by
  have hsize : (Buffer.start (.text text (some 1)) least none).readSize = 2 * (least : Int) := by
    unfold readSize
    rw [if_neg (show (Buffer.start (.text text (some 1)) least none).minBuffer ≠ 0 from
      Int.natCast_ne_zero.mpr (Nat.ne_of_gt hpos))]
    rfl
  refine ⟨.start text (by decide) least, ?_, Int.natCast_pos.mpr hpos, rfl⟩
  unfold stride
  rw [hsize]
  show ((if 0 ≤ 2 * (least : Int) then min (2 * (least : Int)) 1 else 1) : Int).toNat = 1
  rw [if_pos (by omega)]
  omega

/-- **A loop of growths lets the text trickle on**, one character after the other that is found
wanting. -/
theorem growWhile_trickles (hb : b.Trickles text) (wanting : List Char → Bool) :
    (growWhile wanting b).Meets
      (fun _ b' => (b'.Trickles text ∧ Grown b b')
        ∧ ∃ more, b'.text = text.take (b.text.length + more)
          ∧ (∀ fewer < more, wanting (text.take (b.text.length + fewer)) = true)
          ∧ (wanting b'.text = false ∨ b'.text = text))
      (fun _ _ => False) := by
  refine (growWhile_passes hb.faces hb.minBuffer_pos wanting).mono ?_ (fun _ _ h => h)
  rintro u b' ⟨⟨⟨hgrown, hfaces, hstride⟩, more, htext, hpassed⟩, hdone⟩
  simp only [stage, hb.stride_eq, Nat.mul_one] at htext hpassed
  exact ⟨⟨⟨hfaces, hstride.trans hb.stride_eq, hgrown.minBuffer_eq ▸ hb.minBuffer_pos,
    hgrown.consumed_eq.trans hb.consumed_eq⟩, hgrown⟩, more, htext, hpassed, hfaces.settled hdone⟩

/-- **A loop that is after a certain length stops at it**, if the text is as long. -/
theorem growWhile_trickles_to (hb : b.Trickles text) {wanting : List Char → Bool} {length : Nat}
    (hle : b.text.length ≤ length) (hlength : length ≤ text.length)
    (hshort : ∀ held, wanting held = true → held.length < length)
    (hlong : ∀ held, b.text.length ≤ held.length → wanting held = false → length ≤ held.length) :
    (growWhile wanting b).Meets (fun _ b' => b'.Trickles text ∧ b'.text = text.take length)
      (fun _ _ => False) := by
  refine (growWhile_trickles hb wanting).mono ?_ (fun _ _ h => h)
  rintro u b' ⟨⟨hb', hgrown⟩, more, htext, hpassed, hdone⟩
  refine ⟨hb', ?_⟩
  have hmore : b.text.length + more ≤ length := by
    cases more with
    | zero => exact hle
    | succ fewer =>
      have hlt := hshort _ (hpassed fewer (Nat.lt_succ_self fewer))
      rw [List.length_take] at hlt
      omega
  have hheld := congrArg List.length htext
  rw [List.length_take] at hheld
  have hreached : length ≤ b'.text.length := by
    rcases hdone with hd | hd
    · exact hlong _ hgrown.isPrefix.length_le hd
    · rw [hd]
      exact hlength
  rw [htext, show b.text.length + more = length by omega]

/-- Refilling lets the text trickle as far as the least size. -/
theorem refill_trickles {least : Nat} (hpos : 0 < least) (hle : least ≤ text.length) :
    (start (.text text (some 1)) least none).refill.Meets
      (fun _ b => b.Trickles text ∧ b.text.length = least) (fun _ _ => False) := by
  have hthreshold : (start (.text text (some 1)) least none).threshold = least := by
    show max (least : Int).toNat 1 = least
    omega
  rw [refill_apply, hthreshold]
  refine EStateM.meets_bind (growWhile_trickles_to (Trickles.start text hpos)
    (Nat.zero_le _) hle (fun _ h => of_decide_eq_true h)
    fun _ _ h => Nat.le_of_not_lt (of_decide_eq_false h)) ?_
  rintro u b ⟨hb, htext⟩
  refine ⟨hb, ?_⟩
  rw [htext, List.length_take, Nat.min_eq_left hle]

end Buffer

namespace TokenSpec

variable {spec : TokenSpec} {b : Buffer} {text : List Char}

/-- **What is known of the growing is known of looking for a word**, which does not fail. -/
theorem seek_word_meets (hu : spec.Usable) {word : List Char} (hword : spec.word? = some word)
    {P : Buffer → Prop}
    (hloop : (Buffer.growWhile spec.wanting b).Meets (fun _ b' => P b') (fun _ _ => False)) :
    (spec.seek b).Meets (fun _ b' => P b') (fun _ _ => False) := by
  refine (seek_meets hloop fun fault b' _ hv => ?_).mono (fun _ _ h => h.1) (fun _ _ h => h)
  rw [verdict_of_word hu hword] at hv
  cases hv

/-- Looking for a word, the text trickles on. -/
theorem seek_word_keeps_trickling (hu : spec.Usable) {word : List Char}
    (hword : spec.word? = some word) (hb : b.Trickles text) :
    (spec.seek b).Meets (fun _ b' => b'.Trickles text) (fun _ _ => False) :=
  seek_word_meets hu hword <|
    (Buffer.growWhile_trickles hb spec.wanting).mono (fun _ _ h => h.1.1) (fun _ _ h => h)

/-- **Looking for a word, the text trickles on as far as the word is long**, if the text begins with
it. -/
theorem seek_word_trickling (hu : spec.Usable) {word : List Char} (hword : spec.word? = some word)
    (hne : b.text ≠ []) (hb : b.Trickles text) (hle : b.text.length ≤ word.length)
    (hbegins : word <+: text) :
    (spec.seek b).Meets (fun _ b' => b'.Trickles text ∧ b'.text = word) (fun _ _ => False) := by
  have hpos := List.length_pos_iff.mpr hne
  have hloop := Buffer.growWhile_trickles_to hb hle hbegins.length_le
    (fun _ hw => length_lt_of_wanting hword hw)
    (fun _ hmore hw => length_word_le hu hword
      (List.ne_nil_of_length_pos (Nat.lt_of_lt_of_le hpos hmore)) hw)
  rw [← List.prefix_iff_eq_take.mp hbegins] at hloop
  exact seek_word_meets hu hword hloop

/-- **Looking for the pattern comes to what the text says that is held**, if that is not taken up,
or is all there is. -/
theorem seek_pattern_trickling {spec : TokenSpec} {p : Pattern} (hp : spec.target = .pattern p)
    (hb : b.Trickles text) (hsettled : p.spans b.text = false ∨ b.text = text) :
    (spec.seek b).Meets
      (fun found b' => b'.Trickles text ∧ patternIn spec.name p b.text = .ok found)
      (fun fault _ => patternIn spec.name p b.text = .error fault) := by
  have hw : spec.wanting = p.spans := by
    unfold wanting
    rw [hp]
  have hloop : (Buffer.growWhile spec.wanting b).Meets
      (fun _ b' => b'.Trickles text ∧ b'.text = b.text)
      (fun fault _ => patternIn spec.name p b.text = .error fault) := by
    rcases hsettled with hnot | hall
    · rw [hw, Buffer.growWhile_of_settled fun _ => hnot]
      exact ⟨hb, rfl⟩
    · refine (Buffer.growWhile_trickles hb _).mono ?_ (fun _ _ h => h.elim)
      rintro u b' ⟨⟨hb', hgrown⟩, -⟩
      -- it holds all of the text, and holds no more than that afterwards
      refine ⟨hb', (hgrown.isPrefix.eq_of_length_le ?_).symm⟩
      rw [hall]
      exact hb'.faces.isPrefix.length_le
  refine (seek_meets hloop ?_).mono ?_ (fun _ _ h => h)
  · rintro fault b' ⟨-, htext⟩ hv
    rw [htext, verdict_of_pattern hp] at hv
    exact hv
  · rintro found b' ⟨⟨hb', htext⟩, hv⟩
    rw [htext, verdict_of_pattern hp] at hv
    exact ⟨hb', hv⟩

end TokenSpec

end AmbiLex
