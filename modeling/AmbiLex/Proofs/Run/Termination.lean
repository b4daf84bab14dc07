import Mathlib.Data.Prod.Lex
import AmbiLex.Proofs.Run.Stopped
import AmbiLex.Proofs.Token.Seeking

/-!
# Runs end

A run is made of loops within loops: rounds, the growing of the buffer in three places of a round,
and the positions that are completed until something is expected again. No single quantity
decreases along all of them. A filter can make the buffer longer or shorter whenever something was
read, a growth may leave the text as it is, and a recognizer may ask for one position after the
other.

But they have an order. What a source can still deliver is used up by reading and by nothing else.
While nothing is read the buffer is left alone within a round, and becomes shorter between two. And
while a round goes on there are fewer and fewer terminals left to look for, and then the recognizer
is *patient*: some distance that it has still to go becomes shorter with every position that it asks
for. So every move makes `remaining` smaller, in lexicographic order (`remaining_lt`), and a run of
a patient recognizer ends, whatever the source, the filter, the tokens and the callbacks do
(`recognize_ends`).

The loops that read are counted as well: all together they make no more passes than the source has
reads left, and one more (`recognize_reads`).
-/

namespace AmbiLex

namespace Buffer

/-! ## Growing uses up the source -/

/-- **A growth reads at most once.** -/
theorem grow_reads (b : Buffer) :
    (grow b).Meets (fun _ b' => b'.reads.length ≤ b.reads.length + 1)
      (fun _ b' => b'.reads.length ≤ b.reads.length + 1) := by
  have hasked : b.asked.reads.length ≤ b.reads.length + 1 := Nat.le_of_eq List.length_append
  exact grow_leaves (Nat.le_succ _) hasked fun _ _ _ => hasked

/-- **A buffer that was read from, or left alone.** Either nothing has changed, or growths of the
source were used up; and no more reads were made than growths used up. -/
structure Spent (b b' : Buffer) : Prop where
  /-- What does not use up a growth changes nothing. -/
  eq_or_lt : b' = b ∨ b'.growthsLeft < b.growthsLeft
  /-- Each read uses up a growth. -/
  reads_le : b'.reads.length + b'.growthsLeft ≤ b.reads.length + b.growthsLeft

namespace Spent

theorem refl (b : Buffer) : Spent b b :=
  ⟨.inl rfl, Nat.le_refl _⟩

theorem trans {b b' b'' : Buffer} (h : Spent b b') (h' : Spent b' b'') : Spent b b'' := by
  refine ⟨?_, Nat.le_trans h'.reads_le h.reads_le⟩
  rcases h.eq_or_lt with rfl | hlt
  · exact h'.eq_or_lt
  · rcases h'.eq_or_lt with rfl | hlt'
    · exact .inr hlt
    · exact .inr (Nat.lt_trans hlt' hlt)

end Spent

/-- A bound on the reads of a buffer, once it stops with a fault. -/
def Overdrawn (b b' : Buffer) : Prop :=
  b'.reads.length ≤ b.reads.length + b.growthsLeft

/-- **A growth uses up a growth**, whatever the filter makes of the text. -/
theorem grow_spent {b : Buffer} (hm : b.mayGrow = true) :
    (grow b).Meets (fun _ b' => Spent b b') (fun _ b' => Overdrawn b b') := by
  have hpos : 0 < b.growthsLeft := by
    rw [growthsLeft, if_pos hm]
    exact Nat.succ_pos _
  have hreads := grow_reads b
  cases hg : grow b with
  | ok more b' =>
    rw [hg] at hreads
    have hlt := growthsLeft_grow_lt hm hg
    have hle : b'.reads.length ≤ b.reads.length + 1 := hreads
    exact ⟨.inr hlt, by omega⟩
  | error fault b' =>
    rw [hg] at hreads
    have hle : b'.reads.length ≤ b.reads.length + 1 := hreads
    show b'.reads.length ≤ b.reads.length + b.growthsLeft
    omega

/-- **A loop of growths uses up a growth in each pass.** -/
theorem growWhile_spent (wanting : List Char → Bool) (b : Buffer) :
    (growWhile wanting b).Meets (fun _ b' => Spent b b') (fun _ b' => Overdrawn b b') := by
  have hstep : ∀ b₁, Spent b b₁ → b₁.mayGrow = true → wanting b₁.text = true →
      (grow b₁).Meets (fun _ b' => Spent b b') (fun _ b' => Overdrawn b b') := fun b₁ h₁ hm _ =>
    (grow_spent hm).mono (fun _ _ h => h₁.trans h) (fun _ _ h => Nat.le_trans h h₁.reads_le)
  exact (growWhile_meets hstep (Spent.refl b)).mono (fun _ _ h => h.1) (fun _ _ h => h)

theorem refill_spent (b : Buffer) :
    (refill b).Meets (fun _ b' => Spent b b') (fun _ b' => Overdrawn b b') := by
  rw [refill_apply]
  exact EStateM.meets_bind (growWhile_spent _ b) fun _ _ h => h

theorem seek_spent (spec : TokenSpec) (b : Buffer) :
    (spec.seek b).Meets (fun _ b' => Spent b b') (fun _ b' => Overdrawn b b') := by
  refine (TokenSpec.seek_meets (growWhile_spent _ b) fun _ b' h _ => ?_).mono
    (fun _ _ h => h.1) (fun _ _ h => h)
  exact Nat.le_trans (Nat.le_add_right _ _) h.reads_le

end Buffer

namespace Lexer

variable {ρ : Type} {lexer : Lexer} {recognizer : Recognizer Value ρ} {distance : ρ → Nat}

/-- **A round that is finished** has consumed, and may have read. -/
theorem RoundFinished.spent {completed : Nat} {b b' : Buffer}
    (h : lexer.RoundFinished completed b b') : Buffer.Spent (b.consume completed) b' := by
  rcases h with ⟨-, rfl⟩ | ⟨-, more, hrefill⟩
  · exact Buffer.Spent.refl _
  · exact (Buffer.refill_spent (b.consume completed)).of_ok hrefill

/-! ## The measure -/

/-- How far a round has gone, and how far a point of it is from the next stage. A round that is
about to begin without any text left is over. -/
def stage (distance : ρ → Nat) (r : Run ρ) : Point → Nat × Nat
  | .head _ => if r.buffer.text = [] then (1, 0) else (4, 0)
  | .seeking left => (3, 2 * left.length)
  | .sought _ left => (3, 2 * left.length + 1)
  | .completing _ => (2, distance r.recognizer)
  | .finished _ => (0, 0)

/-- **What remains of a run at a point**: growths, text, and the stages of the round. -/
def remaining (distance : ρ → Nat) (point : Point) (r : Run ρ) : Nat ×ₗ Nat ×ₗ Nat ×ₗ Nat :=
  toLex (r.buffer.growthsLeft, toLex (r.buffer.text.length, toLex (stage distance r point)))

/-- **A patient recognizer**: whenever it asks for one more position, it has come nearer to
something. -/
def Patient (recognizer : Recognizer Value ρ) (distance : ρ → Nat) : Prop :=
  ∀ s advance s', recognizer.completePosition s = .ok advance s' → advance.kind = .moreNeeded →
    distance s' < distance s

section Decrease

variable {point point' : Point} {r r' : Run ρ}

/-- Using up a growth makes less remain. -/
theorem remaining_lt_of_growths (h : r'.buffer.growthsLeft < r.buffer.growthsLeft) :
    remaining distance point' r' < remaining distance point r :=
  Prod.Lex.toLex_lt_toLex.mpr (.inl h)

/-- With the same growths left, less remains if there is less text, or if there is as much and the
round has gone further. -/
theorem remaining_lt_of_text (hgrowths : r'.buffer.growthsLeft = r.buffer.growthsLeft)
    (h : r'.buffer.text.length < r.buffer.text.length
      ∨ r'.buffer.text.length = r.buffer.text.length
        ∧ toLex (stage distance r' point') < toLex (stage distance r point)) :
    remaining distance point' r' < remaining distance point r := by
  refine Prod.Lex.toLex_lt_toLex.mpr (.inr ⟨hgrowths, ?_⟩)
  exact Prod.Lex.toLex_lt_toLex.mpr h

/-- With the same buffer, less remains if the round has gone further. -/
theorem remaining_lt_of_stage (hbuffer : r'.buffer = r.buffer)
    (h : (stage distance r' point').1 < (stage distance r point).1
      ∨ (stage distance r' point').1 = (stage distance r point).1
        ∧ (stage distance r' point').2 < (stage distance r point).2) :
    remaining distance point' r' < remaining distance point r := by
  refine remaining_lt_of_text (by rw [hbuffer]) (.inr ⟨by rw [hbuffer], ?_⟩)
  exact Prod.Lex.toLex_lt_toLex.mpr h

/-- **A terminal that was looked for is done with**, unless something was read. -/
theorem remaining_lt_of_seek {name : String} {left : List String} {offer : Option Offer}
    {spec : TokenSpec} {found : Option Found}
    (hseek : spec.seek r.buffer = .ok found r'.buffer) :
    remaining distance (.sought offer left) r'
      < remaining distance (.seeking (name :: left)) r := by
  rcases ((Buffer.seek_spent spec r.buffer).of_ok hseek).eq_or_lt with hsame | hlt
  · refine remaining_lt_of_stage hsame (.inr ⟨rfl, ?_⟩)
    show 2 * left.length + 1 < 2 * (left.length + 1)
    omega
  · exact remaining_lt_of_growths hlt

/-- **A round that is finished leaves less text**, unless something was read. If there is none left
the round was the last one. -/
theorem remaining_lt_of_next {done : Nat} {expected : List String}
    (h : lexer.RoundFinished (done + 1) r.buffer r'.buffer) :
    remaining distance (.head expected) r' < remaining distance (.completing done) r := by
  rcases h.spent.eq_or_lt with hsame | hlt
  · refine remaining_lt_of_text (by rw [hsame]; rfl) ?_
    have htext : r'.buffer.text = r.buffer.text.drop (done + 1) := by
      rw [hsame, Buffer.text_consume]
    cases hnil : r.buffer.text with
    | nil =>
      rw [hnil, List.drop_nil] at htext
      refine .inr ⟨by rw [htext], Prod.Lex.toLex_lt_toLex.mpr (.inl ?_)⟩
      rw [stage, if_pos htext]
      exact Nat.lt_succ_self 1
    | cons c text =>
      rw [htext, hnil, List.length_drop, List.length_cons]
      exact .inl (by omega)
  · exact remaining_lt_of_growths hlt

/-- **Every move makes less remain**, until the run is finished. -/
theorem remaining_lt (hpatient : Patient recognizer distance)
    (hmove : Moved lexer recognizer point r point' r') (hon : point.recognition? = none) :
    remaining distance point' r' < remaining distance point r := by
  cases hmove with
  | ended text =>
    refine remaining_lt_of_stage rfl (.inl ?_)
    rw [stage, stage, if_pos text]
    exact Nat.zero_lt_one
  | opened text buffer calls state =>
    refine remaining_lt_of_stage buffer (.inl ?_)
    rw [stage, stage, if_neg text]
    exact Nat.lt_succ_self 3
  | closed => exact remaining_lt_of_stage rfl (.inl (Nat.lt_succ_self 2))
  | @unlisted name left _ _ find buffer calls state =>
    refine remaining_lt_of_stage buffer (.inr ⟨rfl, ?_⟩)
    show 2 * left.length + 1 < 2 * (left.length + 1)
    omega
  | missed find seek calls state => exact remaining_lt_of_seek seek
  | found find seek store state => exact remaining_lt_of_seek seek
  | passed => exact remaining_lt_of_stage rfl (.inr ⟨rfl, Nat.lt_succ_self _⟩)
  | offered take => exact remaining_lt_of_stage rfl (.inr ⟨rfl, Nat.lt_succ_self _⟩)
  | more complete kind =>
    -- this is where the recognizer is relied on
    exact remaining_lt_of_stage rfl (.inr ⟨rfl, hpatient _ _ _ complete kind⟩)
  | next complete kind buffer calls => exact remaining_lt_of_next buffer
  | @exhausted done _ _ advance complete kind buffer calls =>
    refine remaining_lt_of_text (by rw [buffer]; rfl) ?_
    have hle : r'.buffer.text.length ≤ r.buffer.text.length := by
      rw [buffer, Buffer.text_consume, List.length_drop]
      exact Nat.sub_le _ _
    rcases Nat.lt_or_eq_of_le hle with hlt | heq
    · exact .inl hlt
    · exact .inr ⟨heq, Prod.Lex.toLex_lt_toLex.mpr (.inl Nat.zero_lt_two)⟩
  | failed complete kind buffer calls =>
    exact remaining_lt_of_stage buffer (.inl Nat.zero_lt_two)
  | stayed => cases hon

/-- Any number of moves, and at least one, make less remain. -/
theorem remaining_moves_lt (hpatient : Patient recognizer distance) {count : Nat}
    (hmoves : lexer.moves recognizer (count + 1) point r = .ok point' r')
    (hon : point'.recognition? = none) :
    remaining distance point' r' < remaining distance point r := by
  induction count generalizing point r with
  | zero =>
    obtain ⟨point₁, r₁, hmove, hrest⟩ := EStateM.bind_eq_ok hmoves
    cases hrest
    refine remaining_lt hpatient (moved_of_move hmove) ?_
    cases point with
    | finished recognition =>
      cases hmove
      cases hon
    | _ => rfl
  | succ count ih =>
    obtain ⟨point₁, r₁, hmove, hrest⟩ := EStateM.bind_eq_ok hmoves
    refine lt_trans (ih hrest) (remaining_lt hpatient (moved_of_move hmove) ?_)
    -- a run that is finished would stay so
    cases point with
    | finished recognition =>
      rw [moves_finished] at hmoves
      cases hmoves
      cases hon
    | _ => rfl

/-- **A step that does not end a run makes less remain.** -/
theorem remaining_step_lt (hpatient : Patient recognizer distance) {phase phase' : Phase}
    (hstep : lexer.step recognizer phase r = .ok (.next phase') r') :
    remaining distance (.ofPhase phase') r' < remaining distance (.ofPhase phase) r := by
  have hmoves : lexer.moves recognizer phase.moves (.ofPhase phase) r
      = .ok (.ofPhase phase') r' := by
    rw [← step_eq_moves, EStateM.bind_apply_of_ok hstep]
    rfl
  have hon : (Point.ofPhase phase').recognition? = none := by
    cases phase' <;> rfl
  cases phase with
  | matching expected => exact remaining_moves_lt hpatient hmoves hon
  | completing done => exact remaining_moves_lt hpatient hmoves hon

end Decrease

/-! ## Runs end -/

/-- **A run ends**: from some limit on there is a result or a fault, and it is always the same. -/
def Ends {α : Type} (run : Nat → EStateM.Result Fault (Run ρ) (Option α)) : Prop :=
  ∃ bound, (∃ a r, ∀ limit, bound ≤ limit → run limit = .ok (some a) r)
    ∨ ∃ fault r, ∀ limit, bound ≤ limit → run limit = .error fault r

namespace Ends

variable {α β : Type}

/-- **What ends after some work that does not depend on the limit ends**, as a fault there is the
end. -/
theorem bind {x : RunM ρ β} {f : Nat → β → RunM ρ (Option α)} {r : Run ρ}
    (h : ∀ b s, x r = .ok b s → Ends fun limit => f limit b s) :
    Ends fun limit => (x >>= f limit) r := by
  cases hx : x r with
  | error fault s => exact ⟨0, .inr ⟨fault, s, fun limit _ => EStateM.bind_apply_of_error hx⟩⟩
  | ok b s =>
    have hrun : (fun limit => (x >>= f limit) r) = fun limit => f limit b s :=
      funext fun limit => EStateM.bind_apply_of_ok hx
    rw [hrun]
    exact h b s hx

/-- **What ends with one step more ends.** -/
theorem of_succ {run : Nat → EStateM.Result Fault (Run ρ) (Option α)}
    (h : Ends fun limit => run (limit + 1)) : Ends run := by
  have hlater : ∀ {bound : Nat} {P : Nat → Prop}, (∀ limit, bound ≤ limit → P (limit + 1)) →
      ∀ limit, bound + 1 ≤ limit → P limit := by
    intro bound P hP limit hlimit
    obtain ⟨before, rfl⟩ := Nat.exists_eq_add_of_le' (Nat.le_of_add_left_le hlimit)
    exact hP before (Nat.le_of_succ_le_succ hlimit)
  obtain ⟨bound, ⟨a, r, hok⟩ | ⟨fault, r, herror⟩⟩ := h
  · exact ⟨bound + 1, .inl ⟨a, r, hlater hok⟩⟩
  · exact ⟨bound + 1, .inr ⟨fault, r, hlater herror⟩⟩

/-- From some limit on a run that ends has come to something. -/
theorem settled {run : Nat → EStateM.Result Fault (Run ρ) (Option α)} (h : Ends run) :
    ∃ bound, ∀ limit, bound ≤ limit → (run limit).answer ≠ .ok none := by
  obtain ⟨bound, ⟨a, r, hok⟩ | ⟨fault, r, herror⟩⟩ := h
  · exact ⟨bound, fun limit hlimit => by rw [hok limit hlimit]; exact nofun⟩
  · exact ⟨bound, fun limit hlimit => by rw [herror limit hlimit]; exact nofun⟩

end Ends

/-- **Taking steps comes to an end** with a patient recognizer. -/
theorem proceed_ends (hpatient : Patient recognizer distance) (phase : Phase) (r : Run ρ) :
    Ends fun limit => lexer.proceed recognizer limit phase r := by
  -- the induction is on what remains of the run where the next step begins
  induction hbudget : remaining distance (.ofPhase phase) r
    using WellFoundedLT.induction generalizing phase r with
  | ind budget ih =>
    refine Ends.of_succ (Ends.bind fun progress s hstep => ?_)
    match progress with
    | .over recognition => exact ⟨0, .inl ⟨recognition, s, fun limit _ => rfl⟩⟩
    | .next phase' => exact ih _ (hbudget ▸ remaining_step_lt hpatient hstep) phase' s rfl

/-- **Every run of a patient recognizer ends**, whatever the lexer, the source and the filter
are. -/
theorem recognize_ends (hpatient : Patient recognizer distance) (start : Run ρ) :
    Ends fun limit => lexer.recognize recognizer limit start := by
  refine Ends.bind fun progress r hbegin => ?_
  match progress with
  | .over recognition => exact ⟨0, .inl ⟨recognition, r, fun limit _ => rfl⟩⟩
  | .next phase => exact proceed_ends hpatient phase r

/-! ## How often a run reads -/

/-- **No move reads more often than it uses up growths**, whether it comes to something or stops
with a fault. -/
theorem move_reads {n : Nat} {point : Point} {r : Run ρ}
    (h : r.buffer.reads.length + r.buffer.growthsLeft ≤ n) :
    (lexer.move recognizer point r).Meets
      (fun _ r' => r'.buffer.reads.length + r'.buffer.growthsLeft ≤ n)
      (fun _ r' => r'.buffer.reads.length ≤ n) := by
  have hspent : ∀ {b : Buffer}, Buffer.Spent r.buffer b → b.reads.length + b.growthsLeft ≤ n :=
    fun hb => Nat.le_trans hb.reads_le h
  have hreads : r.buffer.reads.length ≤ n := Nat.le_of_add_right_le h
  refine move_meets (fun point' r' hmoved => ?_) fun fault r' hstopped => ?_
  · cases hmoved with
    | opened text buffer calls state => rwa [buffer]
    | unlisted find buffer calls state => rwa [buffer]
    | @missed _ _ _ _ spec find seek calls state =>
      exact hspent ((Buffer.seek_spent spec r.buffer).of_ok seek)
    | @found _ _ _ _ spec _ _ find seek store state =>
      exact hspent ((Buffer.seek_spent spec r.buffer).of_ok seek)
    | next complete kind buffer calls => exact Nat.le_trans buffer.spent.reads_le h
    | exhausted complete kind buffer calls =>
      rw [buffer]
      exact h
    | failed complete kind buffer calls => rwa [buffer]
    | ended => exact h
    | closed => exact h
    | passed => exact h
    | offered take => exact h
    | more complete kind => exact h
    | stayed => exact h
  · cases hstopped with
    | @unsought _ _ _ _ spec _ find seek calls state =>
      exact Nat.le_trans ((Buffer.seek_spent spec r.buffer).of_error seek) h
    | @unstored _ _ _ _ spec _ _ find seek store state =>
      exact Nat.le_of_add_right_le (hspent ((Buffer.seek_spent spec r.buffer).of_ok seek))
    | refused take => exact hreads
    | uncompleted complete => exact hreads
    | misunderstood complete kind => exact hreads
    | unfilled complete kind refill calls =>
      exact Nat.le_trans ((Buffer.refill_spent _).of_error refill) h

/-- **A run reads no more often than its source has reads left, and once more**, whatever the limit
and however it ends. -/
theorem recognize_reads (source : Source) (state : ρ) (calls : List Call) (limit : Nat) :
    (lexer.recognize recognizer limit (lexer.run source state calls)).left.buffer.reads.length
      ≤ source.readsLeft + 1 := by
  have hstart : (lexer.bufferOf source).reads.length + (lexer.bufferOf source).growthsLeft
      ≤ source.readsLeft + 1 := Nat.le_of_eq (Nat.zero_add _)
  have hbegin : (begin recognizer (lexer.run source state calls)).Meets
      (fun _ r => r.buffer.reads.length + r.buffer.growthsLeft ≤ source.readsLeft + 1)
      (fun _ r => r.buffer.reads.length ≤ source.readsLeft + 1) := by
    have hrefill := Buffer.refill_spent (lexer.bufferOf source)
    refine begin_meets (fun r _ hbuffer _ => ?_) (fun _ _ r _ _ hfilled _ => ?_)
      (fun _ r _ hscan => ?_) fun _ _ r _ _ hunfilled _ => ?_
    · rw [hbuffer]
      exact hstart
    · exact Nat.le_trans (hrefill.of_ok hfilled).reads_le hstart
    · rw [Run.buffer, hscan]
      exact Nat.le_of_add_right_le hstart
    · exact Nat.le_trans (hrefill.of_error hunfilled) hstart
  have hrun := lexer.recognize_meets hbegin (fun _ _ h => move_reads h) limit
  cases hresult : lexer.recognize recognizer limit (lexer.run source state calls) with
  | ok answer r =>
    obtain ⟨point, -, h⟩ := hrun.of_ok hresult
    exact Nat.le_of_add_right_le h
  | error fault r => exact hrun.of_error hresult

end Lexer

end AmbiLex
