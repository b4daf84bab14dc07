import AmbiLex.Proofs.Sequence.LineEndings

/-!
# When unifying line endings depends on chunks

Unifying the line endings of a text as it is read comes to the same as unifying them first, if no
token of the lexer can be misled by a torn ending, and only then. For a token that can be misled
there is a text that shows it: the token's own text up to its last character, and behind it an
ending, delivered one character at a time. When the token is looked for the buffer has grown just as
far as the carriage return.

Line feeds, and all tokens that end with one, are among the tokens that can be misled, if the buffer
may get as short as they are. So a lexer that looks for single line feeds should not have the least
size 1.
-/

namespace AmbiLex

open Text (unified IsUnified)

namespace Lexer

variable {lexer : Lexer} {g : SequenceGrammar}

/-! ## A token that is misled -/

/-- **A grammar of one terminal.** -/
def single (name : String) : SequenceGrammar :=
  ⟨[("start", [(name, some "end")])], "start", ["end"]⟩

/-- A recognizer of one terminal that is in its initial state. -/
abbrev initialSingle (name : String) : SequenceState Value :=
  .initial (single name)

/-- **A run of one step over a grammar of one terminal** refills its buffer and looks for the
terminal. -/
theorem recognize_single (lexer : Lexer) {name : String} {start : Run (SequenceState Value)}
    (hstart : start.recognizer = initialSingle name) {more : Bool} {b : Buffer}
    (hrefill : Buffer.refill start.buffer = .ok more b) (hne : b.text ≠ []) :
    ∃ s : Scan, s.buffer = b ∧
      lexer.recognize ((single name).recognizer Value) 1 start
        = (lexer.moves ((single name).recognizer Value) 3 (.seeking [name])
          >>= lexer.resume ((single name).recognizer Value) 0) ⟨s, initialSingle name⟩ := by
  obtain ⟨scan, state⟩ := start
  obtain rfl : state = initialSingle name := hstart
  have hbegin : begin ((single name).recognizer Value) ⟨scan, initialSingle name⟩
      = .ok (.next (.matching [name])) ⟨{ scan with buffer := b }, initialSingle name⟩ := by
    have hasked : Run.onRecognizer ((single name).recognizer Value).terminalsExpected
        ⟨scan, initialSingle name⟩ = .ok [name] ⟨scan, initialSingle name⟩ := rfl
    unfold begin
    rw [EStateM.bind_apply_of_ok hasked]
    exact EStateM.bind_apply_of_ok (refill_of_ok hrefill)
  have hreport : ∀ {line : Buffer → String} {s s' : Scan}, lexer.report line s = .ok () s' →
      Run.onScan (lexer.report line) ⟨s, initialSingle name⟩
        = .ok () ⟨s', initialSingle name⟩ := by
    intro line s s' h
    rw [Run.onScan_apply, h]
    rfl
  obtain ⟨s₁, hs₁, hbuffer₁, -⟩ := report_apply lexer (fun _ => expectedLine [name])
    { scan with buffer := b }
  obtain ⟨s₂, hs₂, hbuffer₂, -⟩ := report_apply lexer bufferLine s₁
  have hhead : lexer.move ((single name).recognizer Value) (.head [name])
      ⟨{ scan with buffer := b }, initialSingle name⟩
      = .ok (.seeking [name]) ⟨s₂, initialSingle name⟩ := by
    rw [move, EStateM.get_bind]
    show (if b.text.isEmpty then _ else _ : RunM _ Point) _ = _
    rw [if_neg (fun hempty => hne (List.isEmpty_iff.mp hempty)),
      EStateM.bind_apply_of_ok (hreport hs₁), EStateM.bind_apply_of_ok (hreport hs₂)]
    rfl
  refine ⟨s₂, hbuffer₂.trans hbuffer₁, ?_⟩
  rw [recognize_eq_resume, EStateM.bind_apply_of_ok hbegin]
  show lexer.proceed ((single name).recognizer Value) (0 + 1) (.matching [name]) _ = _
  rw [proceed_succ]
  show ((lexer.move ((single name).recognizer Value) (.head [name])
    >>= lexer.moves ((single name).recognizer Value) 3) >>= _) _ = _
  rw [bind_assoc, EStateM.bind_apply_of_ok hhead]

/-- What is found of a terminal by looking in the buffer of a scan. -/
theorem onScan_seek_of_ok {name : String} {spec : TokenSpec}
    (hfind : lexer.tokens.find? name = some spec) {s : Scan} {found : Option Found} {b : Buffer}
    (hseek : spec.seek s.buffer = .ok found b) {ρ : Type} (state : ρ) :
    ∃ s', Run.onScan (lexer.seek name) ⟨s, state⟩ = .ok found ⟨s', state⟩ := by
  have hasked : Scan.onBuffer spec.seek s = .ok found { s with buffer := b } := by
    rw [onBuffer_apply, hseek]
    rfl
  obtain ⟨s', hs', -⟩ := report_apply lexer (soughtLine name found) { s with buffer := b }
  refine ⟨s', ?_⟩
  have hsought : lexer.seek name s = .ok found s' := by
    unfold seek
    rw [hfind]
    dsimp only
    rw [EStateM.bind_apply_of_ok hasked, EStateM.bind_apply_of_ok hs']
    rfl
  rw [Run.onScan_apply, hsought]
  rfl

/-- If the terminal is not found, the recognizer is left as it was. -/
theorem moves_of_missed {name : String} {spec : TokenSpec}
    (hfind : lexer.tokens.find? name = some spec) {s : Scan} {b : Buffer}
    (hseek : spec.seek s.buffer = .ok none b) :
    ∃ s', (lexer.moves ((single name).recognizer Value) 3 (.seeking [name])
        >>= lexer.resume ((single name).recognizer Value) 0) ⟨s, initialSingle name⟩
      = .ok none ⟨s', initialSingle name⟩ := by
  obtain ⟨s', hs'⟩ := onScan_seek_of_ok hfind hseek (initialSingle name)
  refine ⟨s', ?_⟩
  rw [moves, bind_assoc, move, bind_assoc, EStateM.bind_apply_of_ok hs']
  rfl

/-- **If the terminal is found, the recognizer is offered it**, unless no value can be made. -/
theorem moves_of_found {name : String} {spec : TokenSpec}
    (hfind : lexer.tokens.find? name = some spec) {s : Scan} {b : Buffer} {found : Found}
    (hseek : spec.seek s.buffer = .ok (some found) b) :
    ((lexer.moves ((single name).recognizer Value) 3 (.seeking [name])
        >>= lexer.resume ((single name).recognizer Value) 0) ⟨s, initialSingle name⟩).Meets
      (fun _ r => ∃ value, r.recognizer
        = (initialSingle name).offer (single name) name value found.length)
      (fun _ _ => True) := by
  obtain ⟨s', hs'⟩ := onScan_seek_of_ok hfind hseek (initialSingle name)
  rw [moves, bind_assoc, move, bind_assoc, EStateM.bind_apply_of_ok hs']
  dsimp only
  rw [bind_assoc]
  have hstored : (Run.onScan (lexer.store name found.text) ⟨s', initialSingle name⟩).Meets
      (fun _ r => r.recognizer = initialSingle name) (fun _ _ => True) := by
    rw [Run.onScan_apply]
    cases lexer.store name found.text s' with
    | ok value s'' => rfl
    | error fault s'' => trivial
  refine EStateM.meets_bind hstored ?_
  rintro value ⟨s'', state⟩ (rfl : state = initialSingle name)
  exact ⟨value, rfl⟩

/-- **A terminal that is found in one run and not in another** sets them apart. -/
theorem not_sameCourse_of_seek {other : Lexer} {name : String} {spec : TokenSpec}
    (hfind : lexer.tokens.find? name = some spec) (hfind' : other.tokens.find? name = some spec)
    {start start' : Run (SequenceState Value)} (hstart : start.recognizer = initialSingle name)
    (hstart' : start'.recognizer = initialSingle name) {more more' : Bool} {b b' c c' : Buffer}
    (hrefill : Buffer.refill start.buffer = .ok more b)
    (hrefill' : Buffer.refill start'.buffer = .ok more' b') (hne : b.text ≠ [])
    (hne' : b'.text ≠ []) {found : Found} (hseek : spec.seek b = .ok none c)
    (hseek' : spec.seek b' = .ok (some found) c') :
    ¬ SameCourse (lexer.recognize ((single name).recognizer Value) 1 start)
      (other.recognize ((single name).recognizer Value) 1 start') := by
  intro hsame
  obtain ⟨s, rfl, hrun⟩ := recognize_single lexer hstart hrefill hne
  obtain ⟨s', rfl, hrun'⟩ := recognize_single other hstart' hrefill' hne'
  obtain ⟨t, hmissed⟩ := moves_of_missed hfind hseek
  have hfound := moves_of_found hfind' hseek'
  rw [hrun, hmissed, hrun'] at hsame
  generalize (other.moves ((single name).recognizer Value) 3 (.seeking [name])
    >>= other.resume ((single name).recognizer Value) 0) ⟨s', initialSingle name⟩ = result
    at hsame hfound
  cases result with
  | error fault r => exact nomatch hsame.answer_eq
  | ok answer r =>
    -- the offer is in the log of the one recognizer, and the other has an empty log
    obtain ⟨value, hstate⟩ := hfound
    have hlog : initialSingle name
        = (initialSingle name).offer (single name) name value found.length :=
      (hsame.recognizer_eq.trans hstate : _)
    have hsize := congrArg (fun state => state.log.size) hlog
    exact nomatch (hsize : (0 : Nat) = 1)

end Lexer

/-! ## A buffer that ends with half of an ending -/

/-- A source with the pace 1 delivers one character. -/
theorem Source.read_one (rest : List Char) {size : Int} (hpos : 0 < size) :
    (Source.text rest (some 1)).read size = (.ok (rest.take 1), .text (rest.drop 1) (some 1)) := by
  have hportion : (Source.text rest (some 1)).portion size = 1 := by
    unfold Source.portion
    dsimp only
    rw [if_pos (by omega)]
    omega
  unfold Source.read
  dsimp only
  rw [hportion, if_neg (by decide)]
  rfl

namespace Buffer

/-- **A buffer that approaches a text** behind which there is a line feed: it holds a beginning of
the text, and the rest is still to come, one character at a time. -/
structure Approaches (b : Buffer) (held : List Char) : Prop where
  /-- The filter unifies line endings. -/
  filtered : b.filter = some TextFilter.lineEndings.filter
  /-- The source has not ended. -/
  growing : b.mayGrow = true
  /-- Not everything is read at once. -/
  minBuffer_pos : 0 < b.minBuffer
  /-- How much of the text is there. -/
  supply : ∃ count ≤ held.length, b.text = held.take count
    ∧ b.source = .text ((held ++ ['\n']).drop count) (some 1)

variable {b : Buffer} {held : List Char}

/-- A buffer that holds as much as the text has holds the text. -/
theorem Approaches.text_eq (hb : b.Approaches held) (hlong : held.length ≤ b.text.length) :
    b.text = held := by
  obtain ⟨count, hcount, htext, -⟩ := hb.supply
  rw [htext, List.length_take] at hlong
  rw [htext, List.take_of_length_le (by omega)]

/-- **One more character is read**, and the filter leaves it alone. -/
theorem grow_approaches (hheld : IsUnified held) (hb : b.Approaches held)
    (hshort : b.text.length < held.length) :
    (grow b).Meets (fun _ b' => b'.Approaches held ∧ b.text.length ≤ b'.text.length)
      (fun _ _ => False) := by
  obtain ⟨count, hcount, htext, hsource⟩ := hb.supply
  have hpos := hb.minBuffer_pos
  have hlt : count < held.length := by
    rw [htext, List.length_take] at hshort
    omega
  have hsize : 0 < b.readSize := by
    rw [readSize, if_neg (by omega)]
    omega
  -- the next character is one of the text
  have hchunk : ((held ++ ['\n']).drop count).take 1 = (held.drop count).take 1 := by
    rw [List.drop_append_of_le_length hcount,
      List.take_append_of_le_length (by rw [List.length_drop]; omega)]
  have hnext : b.text ++ (held.drop count).take 1 = held.take (count + 1) := by
    rw [htext, List.take_add]
  have hunified : IsUnified (held.take (count + 1)) := by
    rw [← List.take_append_drop (count + 1) held] at hheld
    exact hheld.of_append.1
  have hbefore : IsUnified b.text := by
    rw [← hnext] at hunified
    exact hunified.of_append.1
  have hread := Source.read_one ((held ++ ['\n']).drop count) hsize
  rw [hchunk, List.drop_drop, ← hsource] at hread
  obtain ⟨b', hgrow, htext', hsource', hmore, hfilter, hleast, -⟩ :=
    grow_lineEndings hb.filtered hbefore hb.growing hread
  rw [hgrow]
  have hheld' : b'.text = held.take (count + 1) := by
    rw [htext', hnext]
    exact hunified
  refine ⟨⟨hfilter.trans hb.filtered, ?_, hleast ▸ hpos, count + 1, hlt, hheld', hsource'⟩, ?_⟩
  · have hnonempty : (held.drop count).take 1 ≠ [] := by
      refine List.ne_nil_of_length_pos ?_
      rw [List.length_take, List.length_drop]
      omega
    rw [hmore, bne_iff_ne.mpr (Int.ne_of_gt hpos), List.isEmpty_eq_false_iff.mpr hnonempty]
    rfl
  · rw [htext']
    exact Text.length_le_unified_append hbefore _

/-- **A loop of growths stays on the way**, if it is satisfied with as much as the text has. -/
theorem growWhile_approaches (hheld : IsUnified held) (hb : b.Approaches held)
    {wanting : List Char → Bool}
    (hshort : ∀ text, wanting text = true → text.length < held.length) :
    (growWhile wanting b).Meets
      (fun _ b' => (b'.Approaches held ∧ b.text.length ≤ b'.text.length)
        ∧ wanting b'.text = false)
      (fun _ _ => False) := by
  refine (growWhile_meets (P := fun b' => b'.Approaches held ∧ b.text.length ≤ b'.text.length) ?_
    ⟨hb, Nat.le_refl _⟩).mono (fun _ b' h => ⟨h.1, h.2 h.1.1.growing⟩) (fun _ _ h => h)
  rintro b₁ ⟨hb₁, hle⟩ - hwanting
  refine (grow_approaches hheld hb₁ (hshort _ hwanting)).mono ?_ (fun _ _ h => h)
  rintro more b₂ ⟨hb₂, hle₂⟩
  exact ⟨hb₂, Nat.le_trans hle hle₂⟩

/-- Refilling stays on the way if the least size is no more than the text has. -/
theorem refill_approaches (hheld : IsUnified held) (hb : b.Approaches held)
    (hleast : b.minBuffer ≤ held.length) :
    (refill b).Meets (fun _ b' => b'.Approaches held ∧ b'.text ≠ []) (fun _ _ => False) := by
  have hpos := hb.minBuffer_pos
  have hthreshold : b.threshold ≤ held.length := threshold_le_iff.mpr ⟨hleast, by omega⟩
  rw [refill_apply]
  refine EStateM.meets_bind (growWhile_approaches hheld hb fun text htext =>
    Nat.lt_of_lt_of_le (of_decide_eq_true htext) hthreshold) ?_
  rintro u b' ⟨⟨hb', -⟩, hdone⟩
  obtain ⟨-, hlen⟩ := threshold_le_iff.mp (Nat.not_lt.mp (of_decide_eq_false hdone))
  exact ⟨hb', List.ne_nil_of_length_pos hlen⟩

end Buffer

/-- **Looking for a token as long as the text** comes to what the text says, whatever follows. -/
theorem TokenSpec.seek_of_approaches {spec : TokenSpec} (hu : spec.Usable) {word held : List Char}
    (hword : spec.word? = some word) (hheld : IsUnified held) (hlength : word.length = held.length)
    {b : Buffer} (hb : b.Approaches held) (hne : b.text ≠ []) :
    ∃ c, spec.seek b = .ok (literalIn spec.name word held) c := by
  have hloop : (Buffer.growWhile spec.wanting b).Meets (fun _ b' => b'.text = held)
      (fun fault _ => spec.verdict held = .error fault) := by
    refine (Buffer.growWhile_approaches hheld hb fun text hw =>
      hlength ▸ length_lt_of_wanting hword hw).mono ?_ (fun _ _ h => h.elim)
    rintro u b' ⟨⟨hb', hle⟩, hw⟩
    have hne' : b'.text ≠ [] :=
      List.ne_nil_of_length_pos (Nat.lt_of_lt_of_le (List.length_pos_iff.mpr hne) hle)
    exact hb'.text_eq (hlength ▸ length_word_le hu hword hne' hw)
  have hmeets : (spec.seek b).Meets (fun found b' => spec.verdict held = .ok found ∧ b'.text = held)
      (fun fault _ => spec.verdict held = .error fault) := by
    refine (seek_meets hloop ?_).mono ?_ (fun _ _ h => h)
    · rintro fault b' rfl hv
      exact hv
    · rintro found b' ⟨rfl, hv⟩
      exact ⟨hv, rfl⟩
  obtain ⟨c, hc, -⟩ := hmeets.exists_ok_of (verdict_of_word hu hword held)
  exact ⟨c, hc⟩

/-- A text is found in itself. -/
theorem TokenSpec.literalIn_self (name : String) (word : List Char) :
    literalIn name word word = some ⟨name, word⟩ :=
  if_pos (List.isPrefixOf_iff_prefix.mpr List.prefix_rfl)

/-- A text is not found in one that ends with another character. -/
theorem TokenSpec.literalIn_of_last_ne (name : String) (body : List Char) {last other : Char}
    (h : last ≠ other) : literalIn name (body ++ [last]) (body ++ [other]) = none := by
  refine if_neg fun hprefix => h ?_
  have hbegins := List.isPrefixOf_iff_prefix.mp hprefix
  have heq := hbegins.eq_of_length (by rw [List.length_append, List.length_append]; rfl)
  exact (List.cons.inj (List.append_cancel_left heq)).1

namespace Lexer

variable {lexer : Lexer}

/-- **Looking for a token at the start of a run that unifies line endings**, where a text of its
length and a line feed come one character at a time. -/
theorem seek_approaching (hlexer : lexer.UnifiesLines) {spec : TokenSpec} (hu : spec.Usable)
    {word held : List Char} (hword : spec.word? = some word) (hheld : IsUnified held)
    (hlength : word.length = held.length) (hleast : lexer.minBuffer ≤ held.length) {ρ : Type}
    (state : ρ) :
    ∃ more b c, Buffer.refill (lexer.run (.text (held ++ ['\n']) (some 1)) state []).buffer
        = .ok more b
      ∧ b.text ≠ [] ∧ spec.seek b = .ok (TokenSpec.literalIn spec.name word held) c := by
  have hpos := hlexer.minBuffer_pos
  have hstart : (lexer.run (.text (held ++ ['\n']) (some 1)) state []).buffer.Approaches held :=
    ⟨hlexer.filter_eq, rfl, Int.natCast_pos.mpr hpos, 0, Nat.zero_le _, rfl, rfl⟩
  obtain ⟨more, b, hrefill, hb, hne⟩ :=
    (Buffer.refill_approaches hheld hstart (Int.ofNat_le.mpr hleast)).exists_ok
  obtain ⟨c, hseek⟩ := TokenSpec.seek_of_approaches hu hword hheld hlength hb hne
  exact ⟨more, b, c, hrefill, hne, hseek⟩

/-- **Looking for a token at the start of a run without a filter.** -/
theorem seek_facing (lexer : Lexer) (hfilter : lexer.filter = none) {spec : TokenSpec}
    (hu : spec.Usable) {word text : List Char} (hword : spec.word? = some word)
    (hplain : ∀ p, spec.target ≠ .pattern p) (hne : text ≠ []) {pace : Option Nat}
    (hpace : pace ≠ some 0) {ρ : Type} (state : ρ) :
    ∃ more b c, Buffer.refill (lexer.run (.text text pace) state []).buffer = .ok more b
      ∧ b.text ≠ [] ∧ spec.seek b = .ok (TokenSpec.literalIn spec.name word text) c := by
  have hstart : (lexer.run (.text text pace) state []).buffer.Faces text := by
    show (Buffer.start _ _ lexer.filter).Faces text
    rw [hfilter]
    exact .start text hpace lexer.minBuffer
  obtain ⟨more, b, hrefill, -, hfaces, hready⟩ :=
    (Buffer.refill_faces hstart (Int.natCast_nonneg _) fun _ => rfl).exists_ok
  have hne' : b.text ≠ [] := by
    intro hnil
    have hempty := hready.text_isEmpty hfaces
    rw [hnil] at hempty
    exact hne (List.isEmpty_iff.mp hempty.symm)
  obtain ⟨c, hc, -⟩ := (TokenSpec.seek_of_ready hfaces hready hne'
    fun p hp _ => absurd hp (hplain p)).exists_ok_of (TokenSpec.verdict_of_word hu hword text)
  exact ⟨more, b, c, hrefill, hne', hc⟩

/-- **Unifying does not depend on chunks**: the runs of a lexer over texts take the course of its
runs over the unified texts without a filter. This is asked for all texts of which unifying leaves
nothing to unify, for sources of any pace and for all recognizers of sequences. -/
def UnifiesAsWhole (lexer : Lexer) : Prop :=
  ∀ (text : List Char) (pace pace' : Option Nat) (g : SequenceGrammar) (calls : List Call)
    (limit : Nat), IsUnified (unified text) → pace ≠ some 0 → pace' ≠ some 0 →
    SameCourse
      (lexer.recognize (g.recognizer Value) limit (lexer.run (.text text pace) (.initial g) calls))
      (lexer.unfiltered.recognize (g.recognizer Value) limit
        (lexer.unfiltered.run (.text (unified text) pace') (.initial g) calls))

/-- **Where unifying does not depend on chunks the lexer is steady**: a token that can be misled is
found in only one of two runs. -/
theorem UnifiesAsWhole.steady (h : lexer.UnifiesAsWhole) (hlexer : lexer.UnifiesLines) :
    lexer.Steady := by
  rintro name spec hfind ⟨body, last, hword, hlast, hunified, hleast⟩
  obtain ⟨hmem, rfl⟩ := TokenTable.of_find?_eq_some hfind
  have hu := hlexer.usable spec hmem
  have hbody := hunified.of_append.1
  have htext : unified ((body ++ ['\r']) ++ ['\n']) = body ++ ['\n'] := by
    rw [List.append_assoc, List.singleton_append, Text.unified_append_ending, hbody]
    rfl
  have hsame := h ((body ++ ['\r']) ++ ['\n']) (some 1) none (single spec.name) [] 1
    (by rw [htext]; exact hunified) (by decide) (by decide)
  rw [htext] at hsame
  have hlength : (body ++ [last]).length = (body ++ ['\r']).length := by
    rw [List.length_append, List.length_append]
    rfl
  obtain ⟨more, b, c, hrefill, hne, hseek⟩ := seek_approaching hlexer hu hword hbody.append_cr
    hlength (by rw [List.length_append]; exact hleast) (initialSingle spec.name)
  obtain ⟨more', b', c', hrefill', hne', hseek'⟩ := seek_facing lexer.unfiltered rfl hu hword
    (hlexer.plain spec hmem) (show body ++ ['\n'] ≠ [] by simp)
    (show (none : Option Nat) ≠ some 0 by decide) (initialSingle spec.name)
  rcases hlast with rfl | rfl
  · rw [TokenSpec.literalIn_self] at hseek
    rw [TokenSpec.literalIn_of_last_ne _ _ (by decide)] at hseek'
    exact not_sameCourse_of_seek hfind hfind rfl rfl hrefill' hrefill hne' hne hseek' hseek
      hsame.symm
  · rw [TokenSpec.literalIn_of_last_ne _ _ (by decide)] at hseek
    rw [TokenSpec.literalIn_self] at hseek'
    exact not_sameCourse_of_seek hfind hfind rfl rfl hrefill hrefill' hne hne' hseek hseek' hsame

/-- **Unifying line endings does not depend on chunks if and only if no token can be misled.** This
is said of lexers that unify the line endings of their input, with compiled tokens that are single
characters and literals, and with a least size of the buffer other than 0. No token may end with one
half of an ending, behind a text that leaves nothing to unify with a line feed at its end, unless
the least size is greater than the length of the token. -/
theorem unifiesAsWhole_iff_steady {definitions : List (String × Setting)} {store : Setting}
    (hcompile : TokenTable.compile definitions store = .ok lexer.tokens)
    (hplain : ∀ spec ∈ lexer.tokens, ∀ p, spec.target ≠ .pattern p)
    (hfilter : lexer.filter = some TextFilter.lineEndings.filter) (hpos : 0 < lexer.minBuffer) :
    lexer.UnifiesAsWhole ↔ lexer.Steady := by
  have hlexer : lexer.UnifiesLines :=
    ⟨TokenTable.usable_of_compile hcompile, hplain, hfilter, hpos⟩
  refine ⟨fun h => h.steady hlexer, ?_⟩
  intro hsteady text pace pace' g calls limit htext hpace hpace'
  -- both take the course of the run that has the whole unified text
  have hwhole := SameCourse.of_agrees
    (recognize_unison (g := g) hlexer hsteady htext hpace calls limit)
  have hwhole' := sameCourse_whole lexer.unfiltered hcompile rfl
    (fun spec hspec p hp => absurd hp (hplain spec hspec p)) g (unified text) hpace' calls limit
  exact hwhole.trans hwhole'.symm

end Lexer

/-! ## Two lines -/

namespace Lines

/-- The tokens of two lines with an ending between them. -/
def definitions : List (String × Setting) :=
  [("a", .plain (.text "a")), ("ending", .plain (.text "\n")), ("b", .plain (.text "b"))]

/-- A lexer for them that unifies line endings, with a buffer of some least size. -/
def lexer (minBuffer : Nat) : Lexer :=
  ⟨[⟨"a", .singleChar ['a'], .known .scalar none⟩,
    ⟨"ending", .singleChar ['\n'], .known .scalar none⟩,
    ⟨"b", .singleChar ['b'], .known .scalar none⟩], minBuffer, false,
    some TextFilter.lineEndings.filter, .log⟩

/-- A line of any length, its ending, and the other line. -/
def grammar : SequenceGrammar :=
  ⟨[("0", [("a", some "0"), ("ending", some "1")]), ("1", [("b", some "2")])], "0", ["2"]⟩

/-- **An ending that is torn.** With the least size 1 two characters are read at once, so the first
read delivers `a` and the carriage return. Once `a` is consumed the buffer still holds one
character, which is as much as it has to hold, and no line feed is found in it. Over the unified
text the same lexer without its filter comes to the end. -/
theorem ending_torn :
    TokenTable.compile definitions (.mode .scalar) = .ok (lexer 1).tokens
      ∧ ((lexer 1).recognize (grammar.recognizer Value) 20
          ((lexer 1).run (.text "a\r\nb".toList none) (.initial grammar) [])).answer.toOption
        = some (some (.failed 1 (some "No token fits at position 1")))
      ∧ ((lexer 1).unfiltered.recognize (grammar.recognizer Value) 20
          ((lexer 1).unfiltered.run (.text (unified "a\r\nb".toList) none) (.initial grammar)
            [])).answer.toOption
        = some (some (.exhausted 3)) :=
  ⟨rfl, by decide +kernel, by decide +kernel⟩

/-- No token of these is misled if the buffer holds two characters. -/
theorem lexer_steady {minBuffer : Nat} (h : 2 ≤ minBuffer) : (lexer minBuffer).Steady := by
  rintro name spec hfind ⟨body, last, hword, -, -, hleast⟩
  have hlength : (body ++ [last]).length = 1 := by
    obtain ⟨hmem, -⟩ := TokenTable.of_find?_eq_some hfind
    simp only [lexer, List.mem_cons, List.not_mem_nil, or_false] at hmem
    rcases hmem with rfl | rfl | rfl <;> exact congrArg List.length (Option.some.inj hword).symm
  rw [List.length_append, List.length_singleton] at hlength
  change minBuffer ≤ body.length + 1 at hleast
  omega

/-- What is unified twice. With the least size 3 no token is misled, but the first of the two
carriage returns is left out too, if the ending is filtered once more before it is looked for. -/
example :
    ((lexer 3).recognize (grammar.recognizer Value) 20
        ((lexer 3).run (.text "aaa\r\r\nb".toList none) (.initial grammar) [])).answer.toOption
      = some (some (.exhausted 5))
    ∧ ((lexer 3).unfiltered.recognize (grammar.recognizer Value) 20
        ((lexer 3).unfiltered.run (.text (unified "aaa\r\r\nb".toList) none) (.initial grammar)
          [])).answer.toOption
      = some (some (.failed 3 (some "No token fits at position 3"))) :=
  ⟨by decide +kernel, by decide +kernel⟩

end Lines

namespace Lexer

/-- With the least size 2 the ending is found, although the same characters are read at once: the
run over `a\r\nb` takes the course of the run over the unified text. With the least size 1 that is
not so for all texts. -/
theorem unifiesAsWhole_iff_steady_lines :
    TokenTable.compile Lines.definitions (.mode .scalar) = .ok (Lines.lexer 2).tokens
      ∧ (∀ spec ∈ (Lines.lexer 2).tokens, ∀ p, spec.target ≠ .pattern p)
      ∧ (Lines.lexer 2).filter = some TextFilter.lineEndings.filter
      ∧ 0 < (Lines.lexer 2).minBuffer
      ∧ (Lines.lexer 2).Steady
      ∧ (Lines.lexer 2).UnifiesAsWhole
      ∧ ¬ (Lines.lexer 1).UnifiesAsWhole := by
  have hplain : ∀ minBuffer, ∀ spec ∈ (Lines.lexer minBuffer).tokens, ∀ p,
      spec.target ≠ .pattern p := by
    intro minBuffer spec hspec p
    simp only [Lines.lexer, List.mem_cons, List.not_mem_nil, or_false] at hspec
    rcases hspec with rfl | rfl | rfl <;> exact nofun
  have hsteady := Lines.lexer_steady (Nat.le_refl 2)
  refine ⟨rfl, hplain 2, rfl, by decide, hsteady, ?_, fun h => ?_⟩
  · exact (unifiesAsWhole_iff_steady
      (show TokenTable.compile Lines.definitions (.mode .scalar) = .ok (Lines.lexer 2).tokens
        from rfl) (hplain 2) rfl (by decide)).mpr hsteady
  · refine (unifiesAsWhole_iff_steady
      (show TokenTable.compile Lines.definitions (.mode .scalar) = .ok (Lines.lexer 1).tokens
        from rfl) (hplain 1) rfl (by decide)).mp h "ending" _ rfl ?_
    exact ⟨[], '\n', rfl, .inr rfl, rfl, by decide⟩

end Lexer

end AmbiLex
