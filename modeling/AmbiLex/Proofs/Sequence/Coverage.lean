import AmbiLex.Proofs.Sequence.Placement
import AmbiLex.Proofs.Sequence.Verdict

/-!
# Parses cover the text

Whatever the patterns of a lexer match, and wherever its buffer happens to end when they are asked,
a parse is made of tokens that lie one behind the other, from the start of the text to the
position of the recognizer: nothing is left out, and nothing is read twice.

What makes this so is said of each item of the recognizer, also of those that lie ahead of its
position and outlive several rounds: the tokens that lead to an item spell the text up to the item
(`SequenceItem.Covers`). An item of this kind is there at the start, and a token that lies in the
text leads from one such item to another. What the text is depends on the source; for the source of
a text, what was delivered is a beginning of that text, and all of it if the run ends for want of
input (`SuppliedAt`).
-/

namespace AmbiLex

/-! ## Tokens that spell a text -/

/-- **Tokens that spell a text**, the latest first: each has a value that was made of a word, and
the words make up the text. None of the words is empty. -/
inductive Spells (table : TokenTable) : List (String × Value) → List Char → Prop
  /-- No tokens spell the empty text. -/
  | nil : Spells table [] []
  /-- One more token spells one more word. -/
  | token {taken : List (String × Value)} {text word : List Char} {name : String} {value : Value}
    {calls calls' : List Call} (before : Spells table taken text) (nonempty : word ≠ [])
    (encode : table.encode name word calls = .ok value calls') :
    Spells table ((name, value) :: taken) (text ++ word)

/-- The value of a token that stores its text is that text. -/
theorem TokenTable.value_of_encode_scalar {table : TokenTable}
    (hscalar : ∀ spec ∈ table, spec.encoder.mode? = some .scalar) {name : String}
    {word : List Char} {value : Value} {calls calls' : List Call}
    (h : table.encode name word calls = .ok value calls') : value = .text (String.ofList word) := by
  unfold encode at h
  cases hfind : table.find? name with
  | none =>
    rw [hfind] at h
    cases h
  | some spec =>
    rw [hfind] at h
    have hmode := hscalar spec (of_find?_eq_some hfind).1
    change spec.encoder.encode spec.name word calls = _ at h
    cases hencoder : spec.encoder with
    | known mode callback =>
      rw [hencoder] at h hmode
      cases hmode
      cases h
      rfl
    | unknown mode =>
      rw [hencoder] at hmode
      cases hmode

/-- **Where tokens store their text, what they spell are their values**, one behind the other. -/
theorem Spells.exists_words {table : TokenTable}
    (hscalar : ∀ spec ∈ table, spec.encoder.mode? = some .scalar) {taken : List (String × Value)}
    {text : List Char} (h : Spells table taken text) :
    ∃ words : List (List Char),
      taken.reverse.map Prod.snd = words.map (fun word => .text (String.ofList word))
        ∧ (∀ word ∈ words, word ≠ []) ∧ words.flatten = text := by
  induction h with
  | nil => exact ⟨[], rfl, fun _ hword => (nomatch hword), rfl⟩
  | @token taken text word name value calls calls' _ nonempty encode ih =>
    obtain ⟨words, hvalues, hnonempty, hflatten⟩ := ih
    refine ⟨words ++ [word], ?_, ?_, ?_⟩
    · rw [List.reverse_cons, List.map_append, List.map_append, hvalues,
        TokenTable.value_of_encode_scalar hscalar encode]
      rfl
    · intro other hother
      rcases List.mem_append.mp hother with hmem | hmem
      · exact hnonempty other hmem
      · rw [List.mem_singleton.mp hmem]
        exact nonempty
    · rw [List.flatten_append, hflatten, List.flatten_singleton]

/-! ## Items that cover the text up to them -/

/-- **An item that covers the text**: it lies within the text, and the tokens that lead to it spell
the text up to it. -/
structure SequenceItem.Covers (table : TokenTable) (delivered : List Char)
    (item : SequenceItem Value) : Prop where
  /-- The item does not lie before the text. -/
  nonneg : 0 ≤ item.position
  /-- The item does not lie behind the text. -/
  le : item.position ≤ delivered.length
  /-- The tokens that lead to it spell the text up to it. -/
  spells : Spells table item.taken (delivered.take item.position.toNat)

namespace SequenceItem.Covers

variable {table : TokenTable} {delivered : List Char} {item : SequenceItem Value}

/-- **What covers a text covers it still when more is delivered.** -/
theorem grown (h : item.Covers table delivered) (more : List Char) :
    item.Covers table (delivered ++ more) := by
  have hle := h.le
  refine ⟨h.nonneg, ?_, ?_⟩
  · rw [List.length_append]
    omega
  · rw [List.take_append_of_le_length (by omega)]
    exact h.spells

/-- **A token that lies in the text leads to an item that covers it.** -/
theorem follow (h : item.Covers table delivered) {name : String} {value : Value}
    {position length : Nat} (hposition : item.position = position) (hpos : 1 ≤ length)
    (hle : position + length ≤ delivered.length) {calls calls' : List Call}
    (hencode : table.encode name ((delivered.drop position).take length) calls
      = .ok value calls') (state : String) :
    Covers table delivered
      ⟨item.position + (length : Int), state, (name, value) :: item.taken⟩ := by
  have hspells := h.spells
  rw [hposition] at hspells
  rw [hposition]
  refine ⟨?_, ?_, ?_⟩
  · show (0 : Int) ≤ (position : Int) + (length : Int)
    omega
  · show (position : Int) + (length : Int) ≤ delivered.length
    omega
  · -- the text up to the new item is the text up to the old one, and the token's
    have hsplit : delivered.take ((position : Int) + (length : Int)).toNat
        = delivered.take position ++ (delivered.drop position).take length := by
      rw [show ((position : Int) + (length : Int)).toNat = position + length by omega,
        List.take_add]
    have hnonempty : (delivered.drop position).take length ≠ [] := by
      refine List.ne_nil_of_length_pos ?_
      rw [List.length_take, List.length_drop]
      omega
    show Spells table _ (delivered.take ((position : Int) + (length : Int)).toNat)
    rw [hsplit]
    exact .token hspells hnonempty hencode

end SequenceItem.Covers

/-- **Offering a token that lies in the text** leaves items that cover it. -/
theorem Offer.Lies.covers {table : TokenTable} {r : Run (SequenceState Value)} {offer : Offer}
    (h : offer.Lies table r)
    (hitems : ∀ item ∈ r.recognizer.items, item.Covers table r.buffer.delivered)
    (g : SequenceGrammar) :
    ∀ item ∈ (r.recognizer.offer g offer.name offer.value offer.length).items,
      item.Covers table r.buffer.delivered := by
  intro item hitem
  have hpos := h.pos
  obtain ⟨calls, calls', hencode⟩ := h.value_eq
  rcases List.mem_append.mp hitem with hold | hnew
  · exact hitems item hold
  · rw [SequenceState.reach_of_ne_zero (by omega)] at hnew
    obtain ⟨source, hsource, hfollow⟩ := List.mem_filterMap.mp hnew
    obtain ⟨hmem, hcurrent⟩ := List.mem_filter.mp hsource
    obtain ⟨state, -, rfl⟩ := Option.map_eq_some_iff.mp hfollow
    exact (hitems source hmem).follow (of_decide_eq_true hcurrent) hpos h.le hencode state

namespace Lexer

variable {lexer : Lexer} {g : SequenceGrammar}

/-- **A move leaves items that cover the text.** -/
theorem covers_move (husable : ∀ spec ∈ lexer.tokens, spec.Usable) {point point' : Point}
    {r r' : Run (SequenceState Value)} (hmove : Moved lexer (g.recognizer Value) point r point' r')
    (hplaced : PlacedAt lexer.tokens r point)
    (h : ∀ item ∈ r.recognizer.items, item.Covers lexer.tokens r.buffer.delivered) :
    ∀ item ∈ r'.recognizer.items, item.Covers lexer.tokens r'.buffer.delivered := by
  obtain ⟨more, hdelivered⟩ := delivered_move husable hmove hplaced.unfiltered
  rw [hdelivered]
  suffices hitems : ∀ item ∈ r'.recognizer.items, item.Covers lexer.tokens r.buffer.delivered from
    fun item hitem => (hitems item hitem).grown more
  -- only an offer makes new items
  cases hmove with
  | ended text => exact h
  | opened text buffer calls state =>
    rw [state]
    exact h
  | closed => exact h
  | unlisted find buffer calls state =>
    rw [state]
    exact h
  | missed find seek calls state =>
    rw [state]
    exact h
  | found find seek store state =>
    rw [state]
    exact h
  | passed => exact h
  | offered take =>
    cases take
    exact (hplaced.2 _ rfl).covers h g
  | more complete kind =>
    rw [(SequenceState.said_of_complete complete).2.1]
    exact h
  | next complete kind buffer calls =>
    rw [(SequenceState.said_of_complete complete).2.1]
    exact h
  | exhausted complete kind buffer calls =>
    rw [(SequenceState.said_of_complete complete).2.1]
    exact h
  | failed complete kind buffer calls =>
    rw [(SequenceState.said_of_complete complete).2.1]
    exact h
  | stayed => exact h

/-- **The items cover the text at every moment of a run.** -/
theorem covers_after (husable : ∀ spec ∈ lexer.tokens, spec.Usable) (hfilter : lexer.filter = none)
    {source : Source} {calls : List Call} :
    ∀ count point r, lexer.after (g.recognizer Value) count
      (lexer.run source (.initial g) calls) = .ok point r →
        ∀ item ∈ r.recognizer.items, item.Covers lexer.tokens r.buffer.delivered := by
  refine after_induction ?_ ?_
  · intro progress r hbegin item hitem
    obtain ⟨expected, hexpect, -⟩ := begin_eq_ok hbegin
    obtain ⟨-, hstate⟩ := SequenceState.expect_eq_ok hexpect
    rw [hstate] at hitem
    obtain rfl := List.mem_singleton.mp hitem
    exact ⟨Int.le_refl 0, Int.natCast_nonneg _, .nil⟩
  · intro count point r point' r' hafter _ hmove h
    exact covers_move husable (moved_of_move hmove)
      (placedAt_after husable hfilter count point r hafter) h

/-! ## Runs over a text -/

/-- **A buffer that is supplied by a text**: it reads the text, with the least size of its lexer,
and is ready for a round. -/
structure Supplied (lexer : Lexer) (text : List Char) (b : Buffer) : Prop where
  /-- The buffer reads the text. -/
  reads : b.ReadsFrom text
  /-- Its least size is that of the lexer. -/
  minBuffer_eq : b.minBuffer = lexer.minBuffer
  /-- It is ready for a round. -/
  ready : b.Ready

namespace Supplied

variable {text : List Char} {b b' : Buffer}

/-- A buffer that grows, facing what it faced, is still supplied by the text. -/
theorem grown (h : lexer.Supplied text b) (hgrown : Buffer.Grown b b')
    (hfaces : ∀ ahead, b.Faces ahead → b'.Faces ahead) : lexer.Supplied text b' :=
  ⟨h.reads.grown hgrown hfaces, hgrown.minBuffer_eq.trans h.minBuffer_eq, h.ready.grown hgrown⟩

/-- **Looking for a token** leaves a buffer that is supplied by the text. -/
theorem seek (h : lexer.Supplied text b) {spec : TokenSpec} {found : Option Found}
    (hseek : spec.seek b = .ok found b') : lexer.Supplied text b' := by
  have hkept : ∀ ahead, b.Faces ahead → Buffer.Grown b b' ∧ b'.Faces ahead := by
    intro ahead hahead
    have hloop := (Buffer.growWhile_faces hahead spec.wanting).mono
      (fun _ b₁ h₁ => (show Buffer.Grown b b₁ ∧ b₁.Faces ahead from h₁.1))
      (fun _ _ h₁ => (h₁.elim : True))
    exact ((TokenSpec.seek_meets hloop fun _ _ _ _ => trivial).of_ok hseek).1
  obtain ⟨before, ahead, -, -, hahead⟩ := h.reads
  exact h.grown (hkept ahead hahead).1 fun other hother => (hkept other hother).2

/-- **Finishing a round** leaves a buffer that is supplied by the text, if the buffer holds what was
completed. -/
theorem finished (h : lexer.Supplied text b) {completed : Nat} (hle : completed ≤ b.text.length)
    (hround : lexer.RoundFinished completed b b') : lexer.Supplied text b' := by
  have hreads := h.reads.consume hle
  have hmin : (b.consume completed).minBuffer = lexer.minBuffer := h.minBuffer_eq
  rcases hround with ⟨hlong, rfl⟩ | ⟨hshort, more, hrefill⟩
  · refine ⟨hreads, hmin, ?_⟩
    rcases h.ready with hended | ⟨hpos, -⟩
    · exact .inl hended
    · refine .inr ⟨hpos, ?_⟩
      rw [hmin]
      exact_mod_cast hlong
  · have hpos : 0 < (b.consume completed).minBuffer := by omega
    have hkept : ∀ ahead, (b.consume completed).Faces ahead →
        Buffer.Grown (b.consume completed) b' ∧ b'.Faces ahead ∧ b'.Ready := fun ahead hahead =>
      (Buffer.refill_faces hahead (Int.le_of_lt hpos)
        fun hzero => absurd hzero (Int.ne_of_gt hpos)).of_ok hrefill
    obtain ⟨before, ahead, -, -, hahead⟩ := hreads
    obtain ⟨hgrown, -, hready⟩ := hkept ahead hahead
    exact ⟨(h.reads.consume hle).grown hgrown fun other hother => (hkept other hother).2.1,
      hgrown.minBuffer_eq.trans hmin, hready⟩

end Supplied

/-- **What a run over a text has of it at a point.** Until the run is over its buffer is supplied by
the text. What was delivered then is a beginning of the text, and if the run ended for want of input
it is all of it, and the recognizer is at its end. -/
def SuppliedAt (lexer : Lexer) (text : List Char) (r : Run (SequenceState Value)) : Point → Prop
  | .finished recognition =>
    r.buffer.delivered <+: text ∧ (recognition.outcome = .endOfInput →
      r.buffer.delivered = text ∧ r.recognizer.position = text.length)
  | _ => lexer.Supplied text r.buffer

/-- **A move leaves a run over a text supplied by it.** -/
theorem suppliedAt_move {text : List Char} {point point' : Point}
    {r r' : Run (SequenceState Value)} (hmove : Moved lexer (g.recognizer Value) point r point' r')
    (hplaced : PlacedAt lexer.tokens r point) (h : lexer.SuppliedAt text r point) :
    lexer.SuppliedAt text r' point' := by
  cases hmove with
  | ended hempty =>
    -- a buffer that is ready for a round is empty only if its source has ended
    have hended : r.buffer.mayGrow = false := by
      rcases h.ready with hended | ⟨hpos, hle⟩
      · exact hended
      · rw [hempty] at hle
        exact absurd hpos (Int.not_lt.mpr hle)
    have hall := h.reads.delivered_eq hended
    have hlength := hplaced.position_add_length
    rw [hempty, hall] at hlength
    exact ⟨h.reads.delivered_isPrefix, fun _ => ⟨hall, hlength⟩⟩
  | opened hempty buffer calls state =>
    show lexer.Supplied text r'.buffer
    rw [buffer]
    exact h
  | closed => exact h
  | unlisted find buffer calls state =>
    show lexer.Supplied text r'.buffer
    rw [buffer]
    exact h
  | missed find seek calls state => exact Supplied.seek h seek
  | found find seek store state => exact Supplied.seek h seek
  | passed => exact h
  | offered take => exact h
  | more complete kind => exact h
  | @next done _ _ _ complete kind buffer calls =>
    -- the position that was completed lies within the text, so its character is held
    have hheld : done + 1 ≤ r.buffer.text.length := by
      have hposition := hplaced.1.position_eq
      have hlength := hplaced.1.inStep.length_text
      have hlt := hplaced.2
      omega
    exact Supplied.finished h hheld buffer
  | exhausted complete kind buffer calls =>
    refine ⟨?_, fun houtcome => by cases houtcome⟩
    rw [buffer]
    exact (show lexer.Supplied text r.buffer from h).reads.delivered_isPrefix
  | failed complete kind buffer calls =>
    refine ⟨?_, fun houtcome => by cases houtcome⟩
    rw [buffer]
    exact (show lexer.Supplied text r.buffer from h).reads.delivered_isPrefix
  | stayed => exact h

/-- **A run over a text is supplied by it at every moment.** -/
theorem suppliedAt_after (husable : ∀ spec ∈ lexer.tokens, spec.Usable)
    (hfilter : lexer.filter = none) {text : List Char} {pace : Option Nat} (hpace : pace ≠ some 0)
    {calls : List Call} :
    ∀ count point r, lexer.after (g.recognizer Value) count
      (lexer.run (.text text pace) (.initial g) calls) = .ok point r →
        lexer.SuppliedAt text r point := by
  refine after_induction ?_ ?_
  · intro progress r hbegin
    obtain ⟨expected, -, -, hcases⟩ := begin_eq_ok hbegin
    have hbuffer : (lexer.run (.text text pace) (SequenceState.initial (ν := Value) g) calls).buffer
        = Buffer.start (.text text pace) lexer.minBuffer none :=
      congrArg (Buffer.start (.text text pace) lexer.minBuffer) hfilter
    have hreads := Buffer.ReadsFrom.start text hpace lexer.minBuffer
    rcases hcases with ⟨-, rfl, hsame⟩ | ⟨-, rfl, more, hrefill⟩
    · refine ⟨?_, fun houtcome => by cases houtcome⟩
      rw [hsame, hbuffer]
      exact hreads.delivered_isPrefix
    · rw [hbuffer] at hrefill
      have hkept : ∀ ahead, (Buffer.start (.text text pace) lexer.minBuffer none).Faces ahead →
          Buffer.Grown (Buffer.start (.text text pace) lexer.minBuffer none) r.buffer
            ∧ r.buffer.Faces ahead ∧ r.buffer.Ready := fun ahead hahead =>
        (Buffer.refill_faces hahead (Int.natCast_nonneg _) fun _ => rfl).of_ok hrefill
      obtain ⟨hgrown, -, hready⟩ := hkept text (.start text hpace lexer.minBuffer)
      exact ⟨hreads.grown hgrown fun other hother => (hkept other hother).2.1,
        hgrown.minBuffer_eq, hready⟩
  · intro count point r point' r' hafter _ hmove h
    exact suppliedAt_move (moved_of_move hmove)
      (placedAt_after husable hfilter count point r hafter) h

/-- **Every parse covers the text up to the position of the recognizer.** When a run over a text is
over, with compiled tokens that store their text, without a filter, and however the text was cut
into chunks and whatever its patterns match: the values of a parse are texts, none of which is
empty, and one behind the other they are the text up to the recognizer's position. If the run ended
for want of input, that is all of the text. -/
theorem parses_cover_text {definitions : List (String × Setting)} {store : Setting}
    (hcompile : TokenTable.compile definitions store = .ok lexer.tokens)
    (hscalar : ∀ spec ∈ lexer.tokens, spec.encoder.mode? = some .scalar)
    (hfilter : lexer.filter = none) {text : List Char} {pace : Option Nat} (hpace : pace ≠ some 0)
    {calls : List Call} {limit : Nat} {recognition : Recognition} {r : Run (SequenceState Value)}
    (hresult : lexer.recognize (g.recognizer Value) limit
      (lexer.run (.text text pace) (.initial g) calls) = .ok (some recognition) r) :
    ∀ path ∈ r.recognizer.parses g, ∃ words : List (List Char),
      path.map Prod.snd = words.map (fun word => .text (String.ofList word))
        ∧ (∀ word ∈ words, word ≠ [])
        ∧ words.flatten = text.take r.recognizer.position
        ∧ (recognition.outcome = .endOfInput → words.flatten = text) := by
  intro path hpath
  have husable := TokenTable.usable_of_compile hcompile
  obtain ⟨count, hfinished⟩ := recognize_finished hresult
  obtain ⟨item, hitem, rfl⟩ := List.mem_map.mp hpath
  obtain ⟨hmem, hcurrent⟩ := List.mem_filter.mp (List.mem_filter.mp hitem).1
  have hposition : item.position = r.recognizer.position := of_decide_eq_true hcurrent
  have hcovers := covers_after husable hfilter count _ r hfinished item hmem
  obtain ⟨⟨rest, hrest⟩, hall⟩ := suppliedAt_after husable hfilter hpace count _ r hfinished
  obtain ⟨words, hvalues, hnonempty, hflatten⟩ := hcovers.spells.exists_words hscalar
  have htake : words.flatten = text.take r.recognizer.position := by
    have hle := hcovers.le
    rw [hposition] at hle hflatten
    rw [hflatten, ← hrest, Int.toNat_natCast, List.take_append_of_le_length (by omega)]
  refine ⟨words, hvalues, hnonempty, htake, fun houtcome => ?_⟩
  rw [htake, (hall houtcome).2, List.take_length]

/-- The parse of `if xy`, read at most two characters at a time from a source that delivers one,
consists of the text's words with the blank between them. The word and the keyword both match the
first of them, and so there are two parses. -/
theorem parses_cover_text_keyword :
    TokenTable.compile Keyword.definitions (.mode .scalar) = .ok Keyword.lexer.tokens
      ∧ (∀ spec ∈ Keyword.lexer.tokens, spec.encoder.mode? = some .scalar)
      ∧ Keyword.lexer.filter = none
      ∧ some 1 ≠ some 0
      ∧ ∃ r, Keyword.lexer.recognize (Keyword.grammar.recognizer Value) 20
            (Keyword.lexer.run (.text "if xy".toList (some 1)) (.initial Keyword.grammar) [])
          = .ok (some (.endOfInput 5 ["blank"])) r
        ∧ (r.recognizer.parses Keyword.grammar).length = 2
        ∧ ∀ path ∈ r.recognizer.parses Keyword.grammar, ∃ words : List (List Char),
          path.map Prod.snd = words.map (fun word => .text (String.ofList word))
            ∧ words.flatten = "if xy".toList := by
  have hscalar : ∀ spec ∈ Keyword.lexer.tokens, spec.encoder.mode? = some .scalar := by
    decide
  have hrun : (Keyword.lexer.recognize (Keyword.grammar.recognizer Value) 20
      (Keyword.lexer.run (.text "if xy".toList (some 1)) (.initial Keyword.grammar)
        [])).answer.toOption = some (some (.endOfInput 5 ["blank"])) := by
    decide +kernel
  have hparses : ((Keyword.lexer.recognize (Keyword.grammar.recognizer Value) 20
      (Keyword.lexer.run (.text "if xy".toList (some 1)) (.initial Keyword.grammar)
        [])).left.recognizer.parses Keyword.grammar).length = 2 := by
    decide +kernel
  have hresult := EStateM.Result.eq_ok_of_toOption hrun
  refine ⟨rfl, hscalar, rfl, by decide, _, hresult, hparses, fun path hpath => ?_⟩
  obtain ⟨words, hvalues, -, -, hall⟩ := parses_cover_text
    (show TokenTable.compile Keyword.definitions (.mode .scalar) = .ok Keyword.lexer.tokens
      from rfl)
    hscalar rfl (show some 1 ≠ some 0 by decide) hresult path hpath
  exact ⟨words, hvalues, hall rfl⟩

end Lexer

end AmbiLex
