import AmbiLex.Proofs.Buffer.Conservation
import AmbiLex.Proofs.Run.Moved

/-!
# A run looks far enough ahead

A run ends with the input when a round finds the buffer empty. An empty buffer by itself means
little: a source can deliver less than it was asked for, a filter can drop all that was delivered,
and a recognizer can complete more positions than there are characters. So it matters that a round
only begins with a buffer that *looks ahead*, which is as long as its least size and not empty
unless the source has ended.

Two places see to that. The buffer is refilled where the run begins, and behind every round in which
it became shorter than its least size. With a least size of 0 the second place does nothing, as no
buffer is shorter than that. Then everything was read by the first one, and there is nothing to look
ahead to.

None of this depends on what the filter or the recognizer do.
-/

namespace AmbiLex

/-- **The reads of a source that was read to its end**: a single one for everything, or any number
of them that delivered something and then one that delivered nothing. -/
inductive ReadToEnd : Nat → List Read → Prop
  /-- All of the text at once. -/
  | whole (chunk : List Char) : ReadToEnd 0 [⟨-1, .ok chunk⟩]
  /-- Chunk after chunk, until there are no more. -/
  | piecewise {minBuffer : Nat} (pos : 0 < minBuffer) (chunks : List (List Char))
    (nonempty : ∀ chunk ∈ chunks, chunk ≠ []) :
    ReadToEnd minBuffer
      (chunks.map (fun chunk => ⟨2 * minBuffer, .ok chunk⟩) ++ [⟨2 * minBuffer, .ok []⟩])

/-- A read that succeeded delivered its gain. -/
theorem Read.outcome_eq_gain {read : Read} (h : read.succeeded = true) :
    read.outcome = .ok read.gain := by
  unfold succeeded at h
  unfold gain
  cases hread : read.outcome with
  | ok chunk => rfl
  | error fault => simp [hread] at h

namespace Buffer

/-- **A buffer that looks ahead**: unless its source has ended it is as long as its least size, and
not empty. -/
def LooksAhead (b : Buffer) : Prop :=
  b.mayGrow = true → b.threshold ≤ b.text.length

/-- **A buffer whose reads all succeeded**, in order. If everything is to be read at once, there is
no text before that was done. -/
structure Sound (minBuffer : Nat) (b : Buffer) : Prop where
  /-- The least size. -/
  minBuffer_eq : b.minBuffer = minBuffer
  /-- The reads are in order. -/
  orderly : b.Orderly
  /-- No read failed. -/
  succeeded : ∀ read ∈ b.reads, read.succeeded = true
  /-- Before everything is read there is nothing. -/
  unread : minBuffer = 0 → b.mayGrow = true → b.text = []

namespace Sound

variable {minBuffer : Nat} {b : Buffer}

/-- Nothing was read yet. -/
theorem start (source : Source) (minBuffer : Nat) (filter : Option Filter) :
    Sound minBuffer (Buffer.start source minBuffer filter) := by
  refine ⟨rfl, ⟨?_, ?_, ?_⟩, ?_, fun _ _ => rfl⟩ <;> simp [Buffer.start]

/-- **A growth that succeeds** is a read that did, whatever the filter makes of it. -/
theorem grow (h : Sound minBuffer b) :
    (Buffer.grow b).Meets (fun _ b' => Sound minBuffer b') (fun _ _ => True) := by
  refine grow_meets (fun _ => h) (fun hm chunk hr text filtered => ?_) (fun _ _ _ => trivial)
    fun _ _ _ _ _ => trivial
  refine ⟨h.minBuffer_eq, h.orderly.received hm hr text filtered, fun read hread => ?_,
    fun h0 hmore => ?_⟩
  · rcases List.mem_append.mp hread with hbefore | hlast
    · exact h.succeeded read hbefore
    · rw [List.mem_singleton.mp hlast, hr]
      rfl
  · change (b.mayGrow && b.minBuffer != 0 && !chunk.isEmpty) = true at hmore
    simp [h.minBuffer_eq, h0] at hmore

/-- **Where a loop of growths ends** all reads succeeded, and the text is not found wanting or the
source has ended. -/
theorem growWhile (h : Sound minBuffer b) (wanting : List Char → Bool) :
    (Buffer.growWhile wanting b).Meets
      (fun _ b' => Sound minBuffer b' ∧ (b'.mayGrow = true → wanting b'.text = false))
      (fun _ _ => True) :=
  growWhile_meets (fun _ h' _ _ => h'.grow) h

/-- **A refilled buffer looks ahead.** -/
theorem refill (h : Sound minBuffer b) :
    (Buffer.refill b).Meets (fun _ b' => Sound minBuffer b' ∧ b'.LooksAhead)
      (fun _ _ => True) := by
  rw [refill_apply]
  refine EStateM.meets_bind (h.growWhile _) fun _ b' ⟨h', hdone⟩ => ⟨h', fun hmore => ?_⟩
  have hthreshold : b'.threshold = b.threshold := by
    rw [Buffer.threshold, h'.minBuffer_eq, Buffer.threshold, h.minBuffer_eq]
  simpa [hthreshold] using hdone hmore

/-- **Looking for a token** reads on at most. -/
theorem seek (h : Sound minBuffer b) (spec : TokenSpec) :
    (spec.seek b).Meets (fun _ b' => Sound minBuffer b') (fun _ _ => True) :=
  (TokenSpec.seek_meets (h.growWhile spec.wanting) fun _ _ _ _ => trivial).mono
    (fun _ _ h' => h'.1.1) fun _ _ h' => h'

/-- Consuming text reads nothing. -/
theorem consume (h : Sound minBuffer b) (count : Nat) : Sound minBuffer (b.consume count) := by
  refine ⟨h.minBuffer_eq, ⟨h.orderly.size_eq, h.orderly.mayGrow_iff, h.orderly.last⟩, h.succeeded,
    fun h0 hmore => ?_⟩
  rw [text_consume, h.unread h0 hmore, List.drop_nil]

/-- **With a least size of 0 the source of a buffer that looks ahead has ended.** -/
theorem mayGrow_eq_false (h : Sound minBuffer b) (hahead : b.LooksAhead) (h0 : minBuffer = 0) :
    b.mayGrow = false := by
  refine eq_false_of_ne_true fun hmore => ?_
  have hpos := (threshold_le_iff.mp (hahead hmore)).2
  rw [h.unread h0 hmore] at hpos
  exact absurd hpos (Nat.lt_irrefl 0)

/-- **Where the source has ended it was read to its end.** -/
theorem readToEnd (h : Sound minBuffer b) (hended : b.mayGrow = false) :
    ReadToEnd minBuffer b.reads := by
  obtain ⟨last, hlast, hends⟩ := h.orderly.mayGrow_iff.mp hended
  obtain ⟨before, after, hsplit⟩ := List.append_of_mem hlast
  have hsize := h.orderly.size_eq
  have hsucceeded := h.succeeded
  rw [h.orderly.last before last after hsplit hends] at hsplit
  rw [hsplit] at hsize hsucceeded ⊢
  -- no read before the last one ended the source
  have hgoes : ∀ read ∈ before, ¬ read.Ends minBuffer := by
    intro read hread hends'
    obtain ⟨first, rest, rfl⟩ := List.append_of_mem hread
    rw [← h.minBuffer_eq] at hends'
    have hnil := h.orderly.last first read (rest ++ [last]) (by simp [hsplit]) hends'
    simp at hnil
  have hread : ∀ read ∈ before ++ [last], read = ⟨b.readSize, .ok read.gain⟩ := by
    intro read hmem
    rw [← hsize read hmem, ← Read.outcome_eq_gain (hsucceeded read hmem)]
  by_cases h0 : minBuffer = 0
  · subst h0
    have hnone : before = [] := by
      refine List.eq_nil_iff_forall_not_mem.mpr fun read hmem => hgoes read hmem ?_
      exact Read.ends_of_succeeded rfl (hsucceeded read (List.mem_append_left _ hmem))
    have hwhole := ReadToEnd.whole last.gain
    rw [hnone, List.nil_append, hread last (by simp), readSize, h.minBuffer_eq]
    exact hwhole
  · have hsize' : b.readSize = 2 * minBuffer := by
      simp [readSize, h.minBuffer_eq, h0]
    have hempty : last = ⟨2 * minBuffer, .ok []⟩ := by
      have houtcome : last.outcome = .ok [] := by
        rw [h.minBuffer_eq] at hends
        exact hends.resolve_right fun hwhole => h0 (Int.ofNat_eq_zero.mp hwhole.1)
      rw [← hsize', ← hsize last (by simp), ← houtcome]
    have hpieces := ReadToEnd.piecewise (Nat.pos_of_ne_zero h0) (before.map Read.gain)
      (by
        intro chunk hchunk
        obtain ⟨read, hmem, rfl⟩ := List.mem_map.mp hchunk
        refine fun hnil => hgoes read hmem (.inl ?_)
        rw [Read.outcome_eq_gain (hsucceeded read (List.mem_append_left _ hmem)), hnil])
    rw [List.map_map, ← hempty] at hpieces
    refine Eq.subst (motive := fun reads => ReadToEnd minBuffer (reads ++ [last])) ?_ hpieces
    refine (List.map_congr_left fun read hmem => ?_).trans (List.map_id before)
    have := hread read (List.mem_append_left _ hmem)
    rw [hsize'] at this
    exact this.symm

end Sound

end Buffer

namespace Lexer

variable {ρ : Type} {lexer : Lexer} {recognizer : Recognizer Value ρ}

/-- **What is known of the buffer at a point of a run.** -/
def LooksAheadAt (lexer : Lexer) : Point → Run ρ → Prop
  | .head _, r => r.buffer.Sound lexer.minBuffer ∧ r.buffer.LooksAhead
  | .finished (.endOfInput _ _), r =>
    r.buffer.Sound lexer.minBuffer ∧ r.buffer.text = [] ∧ r.buffer.mayGrow = false
  | .finished _, _ => True
  | _, r => r.buffer.Sound lexer.minBuffer ∧ (lexer.minBuffer = 0 → r.buffer.mayGrow = false)

/-- **A buffer looks ahead behind a round.** -/
theorem RoundFinished.looksAhead {completed : Nat} {b b' : Buffer}
    (h : lexer.RoundFinished completed b b') (hb : b.Sound lexer.minBuffer)
    (hended : lexer.minBuffer = 0 → b.mayGrow = false) :
    b'.Sound lexer.minBuffer ∧ b'.LooksAhead := by
  rcases h with ⟨hlong, rfl⟩ | ⟨-, more, hrefill⟩
  · refine ⟨hb.consume completed, fun hmore => ?_⟩
    -- with a least size of 0 there is nothing more to come
    have hpos : lexer.minBuffer ≠ 0 := fun h0 =>
      Bool.false_ne_true ((hended h0).symm.trans hmore)
    rw [Buffer.threshold_le_iff, (hb.consume completed).minBuffer_eq]
    omega
  · exact (hb.consume completed).refill.of_ok hrefill

/-- **Looking for a token** keeps what is known of the buffer. -/
theorem sound_of_seek {spec : TokenSpec} {b b' : Buffer} {found : Option Found}
    (hseek : spec.seek b = .ok found b')
    (h : b.Sound lexer.minBuffer ∧ (lexer.minBuffer = 0 → b.mayGrow = false)) :
    b'.Sound lexer.minBuffer ∧ (lexer.minBuffer = 0 → b'.mayGrow = false) := by
  refine ⟨(h.1.seek spec).of_ok hseek, fun h0 => ?_⟩
  have hsame := (TokenSpec.seek_meets_of_ended spec (h.2 h0)).of_ok hseek
  rw [hsame.2]
  exact h.2 h0

/-- **Every move keeps what is known of the buffer.** -/
theorem looksAheadAt_move {point point' : Point} {r r' : Run ρ}
    (hmove : lexer.move recognizer point r = .ok point' r') (h : lexer.LooksAheadAt point r) :
    lexer.LooksAheadAt point' r' := by
  cases moved_of_move hmove with
  | ended text =>
    refine ⟨h.1, text, eq_false_of_ne_true fun hmore => ?_⟩
    have hpos := (Buffer.threshold_le_iff.mp (h.2 hmore)).2
    rw [text] at hpos
    exact Nat.lt_irrefl 0 hpos
  | opened text buffer calls state =>
    show r'.buffer.Sound _ ∧ (_ → r'.buffer.mayGrow = false)
    rw [buffer]
    exact ⟨h.1, h.1.mayGrow_eq_false h.2⟩
  | unlisted find buffer calls state =>
    show r'.buffer.Sound _ ∧ (_ → r'.buffer.mayGrow = false)
    rw [buffer]
    exact h
  | missed find seek calls state => exact sound_of_seek seek h
  | found find seek store state => exact sound_of_seek seek h
  | next complete kind buffer calls => exact buffer.looksAhead h.1 h.2
  | closed => exact h
  | passed => exact h
  | offered take => exact h
  | more complete kind => exact h
  | exhausted complete kind buffer calls => trivial
  | failed complete kind buffer calls => trivial
  | stayed => exact h

/-- **What is known of the buffer at every moment of a run.** -/
theorem looksAheadAt_after (recognizer : Recognizer Value ρ) (source : Source) (state : ρ)
    (calls : List Call) :
    ∀ count point r, lexer.after recognizer count (lexer.run source state calls) = .ok point r →
      lexer.LooksAheadAt point r := by
  refine after_induction (fun progress r hbegin => ?_)
    fun _ _ _ _ _ _ _ hmove h => looksAheadAt_move hmove h
  obtain ⟨expected, -, -, ⟨-, rfl, -⟩ | ⟨-, rfl, more, hrefill⟩⟩ := begin_eq_ok hbegin
  · trivial
  · exact (Buffer.Sound.start source lexer.minBuffer lexer.filter).refill.of_ok hrefill

/-- **A run looks far enough ahead.** Whatever the recognizer answers and the filter does, at the
beginning of every round the buffer holds at least its least number of characters, and at least one,
unless the source has ended. So a run ends with the input only when the source was read to its end
and nothing is left in the buffer. -/
theorem recognize_looks_ahead (lexer : Lexer) (recognizer : Recognizer Value ρ) (source : Source)
    (state : ρ) (calls : List Call) :
    (∀ count expected r,
        lexer.after recognizer count (lexer.run source state calls) = .ok (.head expected) r →
          max 1 lexer.minBuffer ≤ r.buffer.text.length ∨ r.buffer.mayGrow = false)
      ∧ ∀ limit position expected r,
        lexer.recognize recognizer limit (lexer.run source state calls)
            = .ok (some (.endOfInput position expected)) r →
          r.buffer.text = [] ∧ r.buffer.mayGrow = false
            ∧ ReadToEnd lexer.minBuffer r.buffer.reads := by
  constructor
  · intro count expected r hafter
    obtain ⟨hsound, hahead⟩ := looksAheadAt_after recognizer source state calls count _ r hafter
    cases hmore : r.buffer.mayGrow with
    | false => exact .inr rfl
    | true =>
      have hle := Buffer.threshold_le_iff.mp (hahead hmore)
      rw [hsound.minBuffer_eq] at hle
      exact .inl (by omega)
  · intro limit position expected r hrecognize
    obtain ⟨count, hafter⟩ := recognize_finished hrecognize
    obtain ⟨hsound, htext, hended⟩ :=
      looksAheadAt_after recognizer source state calls count _ r hafter
    exact ⟨htext, hended, hsound.readToEnd hended⟩

end Lexer

/-! ## A filter that drops what was delivered -/

namespace Dashes

/-- A lexer for two letters that drops dashes. -/
def lexer : Lexer :=
  ⟨[⟨"a", .singleChar ['a'], .known .scalar none⟩, ⟨"b", .singleChar ['b'], .known .scalar none⟩],
    1, false, some fun text => .ok (text.filter (· ≠ '-')), .log⟩

/-- The two letters in turn. -/
def grammar : SequenceGrammar :=
  ⟨[("start", [("a", some "half")]), ("half", [("b", some "start")])], "start", ["start"]⟩

/-- Short deliveries, two of them of dashes only. -/
def source : Source :=
  .script [.ok ['-'], .ok ['a'], .ok ['-', '-'], .ok ['b', '-'], .ok []]

end Dashes

/-- Dashes leave the buffer empty before the first letter and between the two, and the run goes on
until the source has ended. -/
theorem Lexer.recognize_looks_ahead_dashes :
    ∃ r, Dashes.lexer.recognize (Dashes.grammar.recognizer Value) 20
          (Dashes.lexer.run Dashes.source (.initial Dashes.grammar) [])
        = .ok (some (.endOfInput 2 ["a"])) r
      ∧ r.buffer.filtered.length = 4
      ∧ r.buffer.text = [] ∧ r.buffer.mayGrow = false
      ∧ ReadToEnd 1 r.buffer.reads := by
  have hrun : (Dashes.lexer.recognize (Dashes.grammar.recognizer Value) 20
      (Dashes.lexer.run Dashes.source (.initial Dashes.grammar) [])).answer.toOption
      = some (some (.endOfInput 2 ["a"])) := by
    decide +kernel
  have hresult := EStateM.Result.eq_ok_of_toOption hrun
  exact ⟨_, hresult, by decide +kernel, (recognize_looks_ahead Dashes.lexer
    (Dashes.grammar.recognizer Value) Dashes.source (.initial Dashes.grammar) []).2 20 2 ["a"] _
    hresult⟩

end AmbiLex
