import AmbiLex.Proofs.Run.Alignment
import AmbiLex.Proofs.Token.Stretches

/-!
# Runs do not depend on chunks

What a run over a text comes to should not depend on how the text is cut into chunks: not on the
least size of the buffer, and not on the pace of the source. It does depend on them if a pattern
revises its answers. If no pattern does, from the least size of the buffer on, then every run comes
to what the run comes to that has the whole text in its buffer from the start.

The two runs are compared move by move. Between two moves their buffers are *abreast*: they face the
same text, of which the one holds a beginning and the other everything, and both are ready, so that
looking for a token finds the same in both. The one buffer grows where the other does not. What
keeps them abreast where characters are consumed is that the shorter buffer holds all of them, and
that is the alignment of runs.
-/

namespace AmbiLex

/-- The lexer that reads the whole source before matching. -/
def Lexer.whole (lexer : Lexer) : Lexer :=
  { lexer with minBuffer := 0 }

/-- **Two scans on a level**: their buffers face the same text, one in chunks of some least size and
the other as a whole, as many characters were consumed, and the same callbacks were called. -/
structure Scan.Level (least : Nat) (s s' : Scan) : Prop where
  /-- Both face the same text. -/
  faces : ∃ ahead, s.buffer.Faces ahead ∧ s'.buffer.Faces ahead
  /-- The least size of the first buffer. -/
  minBuffer_eq : s.buffer.minBuffer = least
  /-- The second buffer takes in everything at once. -/
  minBuffer_zero : s'.buffer.minBuffer = 0
  /-- As many characters were consumed. -/
  consumed_eq : s.buffer.consumed = s'.buffer.consumed
  /-- The same callbacks were called. -/
  calls_eq : s.calls = s'.calls

/-- **Two scans abreast**: they are on a level, and both buffers are ready. -/
structure Scan.Abreast (least : Nat) (s s' : Scan) : Prop extends Scan.Level least s s' where
  /-- The first buffer is ready. -/
  ready : s.buffer.Ready
  /-- The second buffer is ready. -/
  ready' : s'.buffer.Ready

/-- The same callbacks were called. -/
def Scan.SameCalls (s s' : Scan) : Prop :=
  s.calls = s'.calls

namespace Scan

variable {least : Nat} {s s' t t' : Scan}

/-- The buffers of scans that are abreast are empty together. -/
theorem Abreast.text_isEmpty (h : Abreast least s s') :
    s.buffer.text.isEmpty = s'.buffer.text.isEmpty := by
  obtain ⟨ahead, hfaces, hfaces'⟩ := h.faces
  rw [h.ready.text_isEmpty hfaces, h.ready'.text_isEmpty hfaces']

/-- The first buffer holds no more than the second. -/
theorem Abreast.length_le (h : Abreast least s s') :
    s.buffer.text.length ≤ s'.buffer.text.length := by
  obtain ⟨ahead, hfaces, hfaces'⟩ := h.faces
  rw [hfaces'.text_eq (h.ready'.ended h.minBuffer_zero)]
  exact hfaces.isPrefix.length_le

/-- **Consuming what the first buffer holds** keeps scans on a level. -/
theorem Abreast.consume (h : Abreast least s s') {count : Nat}
    (hle : count ≤ s.buffer.text.length) :
    Level least { s with buffer := s.buffer.consume count }
      { s' with buffer := s'.buffer.consume count } := by
  obtain ⟨ahead, hfaces, hfaces'⟩ := h.faces
  refine ⟨⟨ahead.drop count, hfaces.consume hle, hfaces'.consume (Nat.le_trans hle h.length_le)⟩,
    h.minBuffer_eq, h.minBuffer_zero, ?_, h.calls_eq⟩
  show s.buffer.consumed + (count : Int) = s'.buffer.consumed + (count : Int)
  rw [h.consumed_eq]

/-- **Scans on a level are abreast once their buffers are ready**, however they have grown while
they face the same text. -/
theorem Level.grown (h : Level least s s') (hgrown : Buffer.Grown s.buffer t.buffer)
    (hgrown' : Buffer.Grown s'.buffer t'.buffer)
    (hfaces : ∃ ahead, t.buffer.Faces ahead ∧ t'.buffer.Faces ahead) (hcalls : t.calls = t'.calls)
    (hready : t.buffer.Ready) (hready' : t'.buffer.Ready) : Abreast least t t' := by
  refine ⟨⟨hfaces, ?_, ?_, ?_, hcalls⟩, hready, hready'⟩
  · rw [hgrown.minBuffer_eq]
    exact h.minBuffer_eq
  · rw [hgrown'.minBuffer_eq]
    exact h.minBuffer_zero
  · rw [hgrown.consumed_eq, hgrown'.consumed_eq]
    exact h.consumed_eq

/-- **Scans abreast stay so when their buffers grow** and face the same text. -/
theorem Abreast.grown (h : Abreast least s s') (hgrown : Buffer.Grown s.buffer t.buffer)
    (hgrown' : Buffer.Grown s'.buffer t'.buffer)
    (hfaces : ∃ ahead, t.buffer.Faces ahead ∧ t'.buffer.Faces ahead) (hcalls : t.calls = t'.calls) :
    Abreast least t t' :=
  h.toLevel.grown hgrown hgrown' hfaces hcalls (h.ready.grown hgrown) (h.ready'.grown hgrown')

/-- Scans with the same buffers and calls are abreast too. -/
theorem Abreast.congr (h : Abreast least s s') (hbuffer : t.buffer = s.buffer)
    (hbuffer' : t'.buffer = s'.buffer) (hcalls : t.calls = s.calls)
    (hcalls' : t'.calls = s'.calls) : Abreast least t t' := by
  refine h.grown ?_ ?_ ?_ ?_
  · rw [hbuffer]
    exact Buffer.Grown.refl _
  · rw [hbuffer']
    exact Buffer.Grown.refl _
  · rw [hbuffer, hbuffer']
    exact h.faces
  · rw [hcalls, hcalls']
    exact h.calls_eq

end Scan

namespace Lexer

open Scan (Level Abreast SameCalls)

variable {lexer : Lexer}

/-! ## Looking and storing abreast -/

/-- Diagnostic lines keep scans abreast, whatever they say. -/
theorem report_abreast {least : Nat} (line line' : Buffer → String) {s s' : Scan}
    (h : Abreast least s s') :
    (lexer.report line s).Agrees (fun _ => Abreast least) SameCalls
      (lexer.whole.report line' s') := by
  obtain ⟨t, ht, hbuffer, hcalls⟩ := report_apply lexer line s
  obtain ⟨t', ht', hbuffer', hcalls'⟩ := report_apply lexer.whole line' s'
  rw [ht, ht']
  exact ⟨rfl, h.congr hbuffer hbuffer' hcalls hcalls'⟩

/-- **The same is found in buffers that are abreast**, if patterns are stable from the least size
on. -/
theorem onBuffer_seek_abreast {least : Nat} {spec : TokenSpec} {s s' : Scan}
    (hstable : ∀ p, spec.target = .pattern p → p.StableFrom (max 1 least))
    (h : Abreast least s s') (hne : s.buffer.text ≠ []) :
    (Scan.onBuffer spec.seek s).Agrees (fun _ => Abreast least) SameCalls
      (Scan.onBuffer spec.seek s') := by
  obtain ⟨ahead, hfaces, hfaces'⟩ := h.faces
  have hne' : s'.buffer.text ≠ [] := by
    intro hnil
    have hempty := h.text_isEmpty
    rw [hnil] at hempty
    exact hne (List.isEmpty_iff.mp hempty)
  have hmeets := @TokenSpec.seek_of_ready spec _ _ hfaces h.ready hne fun p hp hpos => by
    rw [h.minBuffer_eq] at hpos ⊢
    rw [show ((least : Int)).toNat = max 1 least from by omega]
    exact hstable p hp
  have hmeets' := @TokenSpec.seek_of_ready spec _ _ hfaces' h.ready' hne' fun p hp hpos => by
    rw [h.minBuffer_zero] at hpos
    exact absurd hpos (Int.lt_irrefl 0)
  rw [onBuffer_apply, onBuffer_apply]
  -- both buffers give the verdict of the text they face
  refine (EStateM.Result.Meets.agrees hmeets hmeets').within ?_ (fun _ _ _ => h.calls_eq)
  rintro found b b' ⟨⟨hgrown, hb⟩, hgrown', hb'⟩
  exact h.grown hgrown hgrown' ⟨ahead, hb, hb'⟩ h.calls_eq

/-- **Looking for a terminal abreast.** -/
theorem seek_abreast {least : Nat}
    (hstable : ∀ spec ∈ lexer.tokens, ∀ p, spec.target = .pattern p → p.StableFrom (max 1 least))
    (name : String) {s s' : Scan} (h : Abreast least s s') (hne : s.buffer.text ≠ []) :
    (lexer.seek name s).Agrees (fun _ => Abreast least) SameCalls (lexer.whole.seek name s') := by
  unfold seek
  rw [show lexer.whole.tokens = lexer.tokens from rfl]
  cases hfind : lexer.tokens.find? name with
  | none => exact EStateM.agrees_bind (report_abreast _ _ h) fun _ _ _ h' => ⟨rfl, h'⟩
  | some spec =>
    have hspec := hstable spec (TokenTable.of_find?_eq_some hfind).1
    exact EStateM.agrees_bind (onBuffer_seek_abreast hspec h hne) fun _ _ _ h' =>
      EStateM.agrees_bind (report_abreast _ _ h') fun _ _ _ h'' => ⟨rfl, h''⟩

/-- **Storing a token abreast.** -/
theorem store_abreast {least : Nat} (name : String) (text : List Char) {s s' : Scan}
    (h : Abreast least s s') :
    (lexer.store name text s).Agrees (fun _ => Abreast least) SameCalls
      (lexer.whole.store name text s') := by
  rw [store, store, onCalls_apply, onCalls_apply, show lexer.whole.tokens = lexer.tokens from rfl,
    ← h.calls_eq]
  refine (EStateM.Result.Agrees.refl _).within ?_ (fun _ _ hcalls => hcalls)
  rintro value calls calls' hcalls
  exact ⟨⟨h.faces, h.minBuffer_eq, h.minBuffer_zero, h.consumed_eq, hcalls⟩, h.ready, h.ready'⟩

/-! ## Moving abreast -/

variable {ρ : Type} {r r' : Run ρ}

/-- Refilling a run is refilling its buffer. -/
theorem refill_of_ok {more : Bool} {b : Buffer} (h : Buffer.refill r.buffer = .ok more b) :
    Run.refill r = .ok () { r with scan := { r.scan with buffer := b } } := by
  have hrun : Run.onScan (Scan.onBuffer Buffer.refill) r
      = .ok more { r with scan := { r.scan with buffer := b } } := by
    rw [Run.onScan_apply, onBuffer_apply, show r.scan.buffer = r.buffer from rfl, h]
    rfl
  exact EStateM.bind_apply_of_ok hrun

/-- **Refilling a buffer that faces a text** makes it ready, and does not fail. -/
theorem refill_ready {ahead : List Char} (hfaces : r.buffer.Faces ahead)
    (hnonneg : 0 ≤ r.buffer.minBuffer) (hzero : r.buffer.minBuffer = 0 → r.buffer.text = []) :
    ∃ t, Run.refill r = .ok () t ∧ Buffer.Grown r.buffer t.buffer ∧ t.buffer.Faces ahead
      ∧ t.buffer.Ready ∧ t.scan.calls = r.scan.calls ∧ t.recognizer = r.recognizer := by
  obtain ⟨more, b, hrefill, hgrown, hb, hready⟩ :=
    (Buffer.refill_faces hfaces hnonneg hzero).exists_ok
  exact ⟨_, refill_of_ok hrefill, hgrown, hb, hready, rfl, rfl⟩

/-- A buffer that holds the whole text is never refilled. -/
theorem finishRound_whole (lexer : Lexer) (completed : Nat) (r : Run ρ) :
    lexer.whole.finishRound completed r = .ok () (r.consumed completed) :=
  (finishRound_apply lexer.whole completed r).trans (if_neg (Nat.not_lt_zero _))

/-- **Finishing a round abreast.** -/
theorem finishRound_abreast {completed : Nat}
    (h : Run.Alike (Abreast lexer.minBuffer) Eq r r') (hle : completed ≤ r.buffer.text.length) :
    (lexer.finishRound completed r).Agrees
      (fun _ => Run.Alike (Abreast lexer.minBuffer) Eq) (Run.Alike SameCalls Eq)
      (lexer.whole.finishRound completed r') := by
  have hlevel := h.1.consume hle
  have hready' : (r'.buffer.consume completed).Ready := .inl (h.1.ready'.ended h.1.minBuffer_zero)
  -- the buffer with the whole text is never short, so only the first one may be refilled
  rw [finishRound_whole, finishRound_apply]
  by_cases hshort : (r.buffer.consume completed).text.length < lexer.minBuffer
  · obtain ⟨ahead, hfaces, hfaces'⟩ := hlevel.faces
    have hmin : (r.buffer.consume completed).minBuffer = lexer.minBuffer := hlevel.minBuffer_eq
    have hpos : 0 < (r.consumed completed).buffer.minBuffer := by
      show 0 < (r.buffer.consume completed).minBuffer
      omega
    obtain ⟨t, ht, hgrown, htfaces, htready, htcalls, htstate⟩ :=
      refill_ready (r := r.consumed completed) hfaces (Int.le_of_lt hpos)
        fun hzero => absurd hzero (Int.ne_of_gt hpos)
    rw [if_pos hshort, ht]
    exact ⟨rfl, hlevel.grown hgrown (Buffer.Grown.refl _) ⟨ahead, htfaces, hfaces'⟩
      (htcalls.trans hlevel.calls_eq) htready hready', htstate.trans h.2⟩
  · rw [if_neg hshort]
    refine ⟨rfl, ⟨hlevel, ?_, hready'⟩, h.2⟩
    rcases h.1.ready with hm | ⟨hpos, -⟩
    · exact .inl hm
    · have hmin : r.buffer.minBuffer = lexer.minBuffer := h.1.minBuffer_eq
      refine .inr ⟨hpos, ?_⟩
      show r.buffer.minBuffer ≤ ((r.buffer.consume completed).text.length : Int)
      omega

/-- **Two runs together at a point**: abreast, and with recognizers in the same state. Once they are
over it does not matter any more how much text their buffers hold. -/
def Together (lexer : Lexer) (point : Point) (r r' : Run ρ) : Prop :=
  match point with
  | .finished _ => Run.Alike SameCalls Eq r r'
  | _ => Run.Alike (Abreast lexer.minBuffer) Eq r r'

/-- Runs that are together have called the same callbacks, and their recognizers are in the same
state. -/
theorem Together.alike {point : Point} (h : lexer.Together point r r') :
    Run.Alike SameCalls Eq r r' := by
  cases point with
  | finished recognition => exact h
  | head expected => exact ⟨h.1.calls_eq, h.2⟩
  | seeking left => exact ⟨h.1.calls_eq, h.2⟩
  | sought offer left => exact ⟨h.1.calls_eq, h.2⟩
  | completing done => exact ⟨h.1.calls_eq, h.2⟩

variable {recognizer : Recognizer Value ρ}

/-- Asking recognizers in the same state, while something holds of the scans. -/
theorem onRecognizer_together {α : Type} (work : EStateM Fault ρ α) {scans : Scan → Scan → Prop}
    (hcalls : ∀ s s', scans s s' → SameCalls s s') (h : Run.Alike scans Eq r r') :
    (Run.onRecognizer work r).Agrees (fun _ => Run.Alike scans Eq) (Run.Alike SameCalls Eq)
      (Run.onRecognizer work r') := by
  have hsame : (work r.recognizer).Agrees (fun _ => Eq) Eq (work r'.recognizer) := by
    rw [h.2]
    exact EStateM.Result.Agrees.refl _
  exact (Run.onRecognizer_agrees h.1 hsame).mono (fun _ _ _ h' => h')
    (fun s s' h' => ⟨hcalls _ _ h'.1, h'.2⟩)

/-- **Completing a position together**, if the shorter buffer holds what is completed by then. -/
theorem completeNext_together {done : Nat} (h : Run.Alike (Abreast lexer.minBuffer) Eq r r')
    (hle : done + 1 ≤ r.buffer.text.length) :
    (lexer.completeNext recognizer done r).Agrees
      (fun progress => lexer.Together (.ofProgress progress)) (Run.Alike SameCalls Eq)
      (lexer.whole.completeNext recognizer done r') := by
  have hask : (Run.onRecognizer recognizer.completePosition r).Agrees
      (fun _ => Run.Alike
        (fun s s' => Abreast lexer.minBuffer s s' ∧ done + 1 ≤ s.buffer.text.length) Eq)
      (Run.Alike SameCalls Eq) (Run.onRecognizer recognizer.completePosition r') :=
    onRecognizer_together _ (fun _ _ h' => h'.1.calls_eq) ⟨⟨h.1, hle⟩, h.2⟩
  refine EStateM.agrees_bind hask fun advance s s' h' => ?_
  obtain ⟨⟨habreast, hheld⟩, hstate⟩ := h'
  cases hkind : advance.kind with
  | moreNeeded => exact ⟨rfl, habreast, hstate⟩
  | nextExpected =>
    exact EStateM.agrees_bind (finishRound_abreast ⟨habreast, hstate⟩ hheld)
      fun _ _ _ h'' => ⟨rfl, h''⟩
  | exhausted =>
    refine ⟨?_, habreast.calls_eq, hstate⟩
    show Progress.over (.exhausted (s.scan.buffer.consumed + _))
      = .over (.exhausted (s'.scan.buffer.consumed + _))
    rw [habreast.consumed_eq]
  | failure =>
    refine EStateM.agrees_bind (Run.onScan_agrees hstate (report_abreast _ _ habreast))
      fun _ t t' h'' => ⟨?_, h''.1.calls_eq, h''.2⟩
    show Progress.over (.failed t.scan.buffer.consumed advance.detail)
      = .over (.failed t'.scan.buffer.consumed advance.detail)
    rw [h''.1.consumed_eq]
  | unknown label => exact ⟨rfl, habreast.calls_eq, hstate⟩

/-- **A move keeps two runs together**, if patterns are stable and the first run is aligned. -/
theorem move_together
    (hstable : ∀ spec ∈ lexer.tokens, ∀ p, spec.target = .pattern p →
      p.StableFrom (max 1 lexer.minBuffer))
    {recognizer : Recognizer Value ρ} {r r' : Run (Recorded Value ρ)} (point : Point)
    (h : lexer.Together point r r') (haligned : AlignedAt lexer r point) :
    (lexer.move recognizer.recorded point r).Agrees lexer.Together (Run.Alike SameCalls Eq)
      (lexer.whole.move recognizer.recorded point r') := by
  cases point with
  | head expected =>
    rw [move, move, EStateM.get_bind, EStateM.get_bind,
      show r.buffer.text.isEmpty = r'.buffer.text.isEmpty from h.1.text_isEmpty,
      show r.buffer.consumed = r'.buffer.consumed from h.1.consumed_eq]
    split
    · exact ⟨rfl, h.1.calls_eq, h.2⟩
    · exact EStateM.agrees_bind (Run.onScan_agrees h.2 (report_abreast _ _ h.1)) fun _ _ _ h' =>
        EStateM.agrees_bind (Run.onScan_agrees h'.2 (report_abreast _ _ h'.1))
          fun _ _ _ h'' => ⟨rfl, h''⟩
  | seeking left =>
    cases left with
    | nil => exact ⟨rfl, h⟩
    | cons name left =>
      refine EStateM.agrees_bind
        (Run.onScan_agrees h.2 (seek_abreast hstable name h.1 haligned.2)) fun found s s' h' => ?_
      cases found with
      | none => exact ⟨rfl, h'⟩
      | some found =>
        exact EStateM.agrees_bind (Run.onScan_agrees h'.2 (store_abreast name found.text h'.1))
          fun _ _ _ h'' => ⟨rfl, h''⟩
  | sought offer left =>
    cases offer with
    | none => exact ⟨rfl, h⟩
    | some offer =>
      have habreast : Run.Alike (Abreast lexer.minBuffer) Eq r r' := h
      exact EStateM.agrees_bind (onRecognizer_together _ (fun _ _ h' => h'.calls_eq) habreast)
        fun _ _ _ h' => ⟨rfl, h'⟩
  | completing done =>
    -- the position lies within what was delivered, so the shorter buffer holds its character
    have hheld : done + 1 ≤ r.buffer.text.length := by
      have hpos := haligned.1.position_eq
      have hlen := haligned.1.inStep.length_text
      have hlt := haligned.2
      omega
    exact EStateM.agrees_bind (completeNext_together h hheld) fun _ _ _ h' => ⟨rfl, h'⟩
  | finished recognition => exact ⟨rfl, h⟩

/-- **A run over a text begins on a level** with the run that reads everything. -/
theorem run_level (hfilter : lexer.filter = none) (text : List Char) {pace : Option Nat}
    (hpace : pace ≠ some 0) (state : ρ) (calls : List Call) :
    Level lexer.minBuffer (lexer.run (.text text pace) state calls).scan
      (lexer.whole.run (.ofText text) state calls).scan := by
  refine ⟨⟨text, ?_, ?_⟩, rfl, rfl, rfl, rfl⟩
  · show (Buffer.start _ _ lexer.filter).Faces text
    rw [hfilter]
    exact .start text hpace lexer.minBuffer
  · show (Buffer.start _ _ lexer.filter).Faces text
    rw [hfilter]
    exact .start text (by decide) 0

/-- **Two runs over a text begin together**, the one with chunks and the other with everything. -/
theorem begin_together (hfilter : lexer.filter = none) {text : List Char} {pace : Option Nat}
    (hpace : pace ≠ some 0) (state : ρ) (calls : List Call) :
    (begin recognizer (lexer.run (.text text pace) state calls)).Agrees
      (fun progress => lexer.Together (.ofProgress progress)) (Run.Alike SameCalls Eq)
      (begin recognizer (lexer.whole.run (.ofText text) state calls)) := by
  -- nothing was read yet, so that both buffers can be made ready
  have hask : (Run.onRecognizer recognizer.terminalsExpected
        (lexer.run (.text text pace) state calls)).Agrees
      (fun _ => Run.Alike (fun s s' => Level lexer.minBuffer s s'
        ∧ s.buffer.text = [] ∧ s'.buffer.text = []) Eq)
      (Run.Alike SameCalls Eq)
      (Run.onRecognizer recognizer.terminalsExpected
        (lexer.whole.run (.ofText text) state calls)) :=
    onRecognizer_together _ (fun _ _ h => h.1.calls_eq)
      ⟨⟨run_level hfilter text hpace state calls, rfl, rfl⟩, rfl⟩
  refine EStateM.agrees_bind hask fun expected s s' h => ?_
  obtain ⟨⟨hlevel, hempty, hempty'⟩, hstate⟩ := h
  split
  · exact ⟨rfl, hlevel.calls_eq, hstate⟩
  · obtain ⟨ahead, hfaces, hfaces'⟩ := hlevel.faces
    have hnonneg : 0 ≤ s.scan.buffer.minBuffer := by
      rw [hlevel.minBuffer_eq]
      exact Int.natCast_nonneg _
    have hnonneg' : 0 ≤ s'.scan.buffer.minBuffer := Int.le_of_eq hlevel.minBuffer_zero.symm
    obtain ⟨t, ht, hgrown, htfaces, htready, htcalls, htstate⟩ :=
      refill_ready hfaces hnonneg fun _ => hempty
    obtain ⟨t', ht', hgrown', htfaces', htready', htcalls', htstate'⟩ :=
      refill_ready hfaces' hnonneg' fun _ => hempty'
    rw [EStateM.bind_apply_of_ok ht, EStateM.bind_apply_of_ok ht']
    refine ⟨rfl, hlevel.grown hgrown hgrown' ⟨ahead, htfaces, htfaces'⟩ ?_ htready htready', ?_⟩
    · rw [htcalls, htcalls']
      exact hlevel.calls_eq
    · rw [htstate, htstate']
      exact hstate

/-- **A run and the same run over the whole text come to the same**, with the same history and the
same calls of callbacks. -/
theorem recognize_together {definitions : List (String × Setting)} {store : Setting}
    (hcompile : TokenTable.compile definitions store = .ok lexer.tokens)
    (hfilter : lexer.filter = none)
    (hstable : ∀ spec ∈ lexer.tokens, ∀ p, spec.target = .pattern p →
      p.StableFrom (max 1 lexer.minBuffer))
    {text : List Char} {pace : Option Nat} (hpace : pace ≠ some 0) {state : ρ} {calls : List Call}
    (hfaithful : lexer.Faithful recognizer (lexer.run (.text text pace) (.fresh state) calls))
    (limit : Nat) :
    (lexer.recognize recognizer.recorded limit
        (lexer.run (.text text pace) (.fresh state) calls)).Agrees
      (fun _ => Run.Alike SameCalls Eq) (Run.Alike SameCalls Eq)
      (lexer.whole.recognize recognizer.recorded limit
        (lexer.whole.run (.ofText text) (.fresh state) calls)) := by
  have haligned := alignedAt_after (TokenTable.usable_of_compile hcompile) hfilter hfaithful
  -- the moments of the first run are kept track of, since they are the aligned ones
  have hagrees : (lexer.recognize recognizer.recorded limit
        (lexer.run (.text text pace) (.fresh state) calls)).Agrees
      (fun answer s s' => ∃ point : Point, point.recognition? = answer
        ∧ (∃ count, lexer.after recognizer.recorded count
            (lexer.run (.text text pace) (.fresh state) calls) = .ok point s)
          ∧ lexer.Together point s s')
      (Run.Alike SameCalls Eq)
      (lexer.whole.recognize recognizer.recorded limit
        (lexer.whole.run (.ofText text) (.fresh state) calls)) := by
    refine recognize_agrees ?_ ?_ limit
    · refine (begin_together hfilter hpace (Recorded.fresh state) calls).and_left
        fun progress s hs => ?_
      exact ⟨0, EStateM.bind_apply_of_ok hs⟩
    · rintro point s s' ⟨⟨count, hafter⟩, htogether⟩
      refine (move_together hstable point htogether (haligned count point s hafter)).and_left
        fun point' t ht => ?_
      refine ⟨count + 1, ?_⟩
      rw [after_succ, EStateM.bind_apply_of_ok hafter]
      exact ht
  refine hagrees.mono ?_ (fun _ _ h => h)
  rintro answer s s' ⟨point, -, -, htogether⟩
  exact htogether.alike

/-- **Runs that take the same course**: they come to the same result or to the same fault, they
leave the recognizer in the same state, which includes its log of all that was done with it, and
they have called the same callbacks. -/
structure SameCourse {ρ : Type} (x y : EStateM.Result Fault (Run ρ) (Option Recognition)) :
    Prop where
  /-- They come to the same. -/
  answer_eq : x.answer = y.answer
  /-- They leave the recognizer in the same state. -/
  recognizer_eq : x.left.recognizer = y.left.recognizer
  /-- They have called the same callbacks. -/
  calls_eq : x.left.scan.calls = y.left.scan.calls

namespace SameCourse

variable {ρ : Type} {x y z : EStateM.Result Fault (Run ρ) (Option Recognition)}

theorem symm (h : SameCourse x y) : SameCourse y x :=
  ⟨h.answer_eq.symm, h.recognizer_eq.symm, h.calls_eq.symm⟩

theorem trans (h : SameCourse x y) (h' : SameCourse y z) : SameCourse x z :=
  ⟨h.answer_eq.trans h'.answer_eq, h.recognizer_eq.trans h'.recognizer_eq,
    h.calls_eq.trans h'.calls_eq⟩

/-- Runs that agree take the same course. -/
theorem of_agrees
    (h : x.Agrees (fun _ => Run.Alike Scan.SameCalls Eq) (Run.Alike Scan.SameCalls Eq) y) :
    SameCourse x y := by
  have hleft := h.left fun _ _ _ h' => h'
  exact ⟨h.answer_eq, hleft.2, hleft.1⟩

end SameCourse

/-- **A run over a text takes the course of the run over the whole text**, without a filter and with
patterns that are stable. -/
theorem sameCourse_whole (lexer : Lexer) {definitions : List (String × Setting)} {store : Setting}
    (hcompile : TokenTable.compile definitions store = .ok lexer.tokens)
    (hfilter : lexer.filter = none)
    (hstable : ∀ spec ∈ lexer.tokens, ∀ p, spec.target = .pattern p →
      p.StableFrom (max 1 lexer.minBuffer)) (g : SequenceGrammar) (text : List Char)
    {pace : Option Nat} (hpace : pace ≠ some 0) (calls : List Call) (limit : Nat) :
    SameCourse
      (lexer.recognize (g.recognizer Value) limit
        (lexer.run (.text text pace) (.initial g) calls))
      (lexer.whole.recognize (g.recognizer Value) limit
        (lexer.whole.run (.ofText text) (.initial g) calls)) := by
  have htogether := SameCourse.of_agrees (recognize_together hcompile hfilter hstable hpace
    (g.faithful lexer (.text text pace) calls) limit)
  -- both keep their histories, and that changes nothing
  have hchunked := recognize_recorded lexer (g.recognizer Value) limit (.text text pace)
    (.initial g) calls
  have hwhole := recognize_recorded lexer.whole (g.recognizer Value) limit (.ofText text)
    (.initial g) calls
  have hleft := hchunked.left fun _ _ _ h => h
  have hleft' := hwhole.left fun _ _ _ h => h
  refine ⟨hchunked.answer_eq.symm.trans (htogether.answer_eq.trans hwhole.answer_eq),
    hleft.2.symm.trans ((congrArg Recorded.state htogether.recognizer_eq).trans hleft'.2), ?_⟩
  rw [← hleft.1, ← hleft'.1]
  exact htogether.calls_eq

/-- **What a run over a text comes to does not depend on chunks.** With compiled tokens, without a
filter, and with patterns that are stable from the least size of the buffer on, a run over a text
that comes in chunks, at any pace, comes to what the run comes to that has the whole text from the
start: the same result or the same fault, after the same exchanges with the recognizer and the same
calls of callbacks. This holds for every faithful recognizer, and recognizers of sequences are. -/
theorem recognize_eq_recognize_whole {definitions : List (String × Setting)} {store : Setting}
    (hcompile : TokenTable.compile definitions store = .ok lexer.tokens)
    (hfilter : lexer.filter = none)
    (hstable : ∀ spec ∈ lexer.tokens, ∀ p, spec.target = .pattern p →
      p.StableFrom (max 1 lexer.minBuffer))
    {pace : Option Nat} (hpace : pace ≠ some 0) (text : List Char) (calls : List Call) :
    (∀ (ρ : Type) (recognizer : Recognizer Value ρ) (state : ρ),
      lexer.Faithful recognizer (lexer.run (.text text pace) (.fresh state) calls) →
      ∀ limit,
        (lexer.recognize recognizer limit (lexer.run (.text text pace) state calls)).answer
            = (lexer.whole.recognize recognizer limit
                (lexer.whole.run (.ofText text) state calls)).answer
          ∧ (lexer.recognize recognizer.recorded limit
              (lexer.run (.text text pace) (.fresh state) calls)).left.recognizer
            = (lexer.whole.recognize recognizer.recorded limit
                (lexer.whole.run (.ofText text) (.fresh state) calls)).left.recognizer
          ∧ (lexer.recognize recognizer.recorded limit
              (lexer.run (.text text pace) (.fresh state) calls)).left.scan.calls
            = (lexer.whole.recognize recognizer.recorded limit
                (lexer.whole.run (.ofText text) (.fresh state) calls)).left.scan.calls)
      ∧ ∀ g : SequenceGrammar, lexer.Faithful (g.recognizer Value)
          (lexer.run (.text text pace) (.fresh (.initial g)) calls) := by
  refine ⟨fun ρ recognizer state hfaithful limit => ?_, fun g => g.faithful lexer _ calls⟩
  have htogether := recognize_together hcompile hfilter hstable hpace hfaithful limit
  have hleft := htogether.left fun _ _ _ h => h
  refine ⟨?_, hleft.2, hleft.1⟩
  -- keeping the history changes neither of the two results
  have hchunked := recognize_recorded lexer recognizer limit (.text text pace) state calls
  have hwhole := recognize_recorded lexer.whole recognizer limit (.ofText text) state calls
  rw [← hchunked.answer_eq, ← hwhole.answer_eq]
  exact htogether.answer_eq

end Lexer

/-! ## Words and a keyword in chunks -/

/-- A word takes as many small letters as there are. -/
theorem Keyword.takesWhile_letters : Keyword.letters.TakesWhile Char.isLower := by
  intro text
  simp [Keyword.letters]

theorem Keyword.letters_stable (least : Nat) : Keyword.letters.StableFrom (max 1 least) :=
  Keyword.takesWhile_letters.stableFrom (by omega)

namespace Lexer

/-- A run over `if xy`, two characters at a time at most and from a source that delivers one, comes
to what the run over the whole text comes to. -/
theorem recognize_eq_recognize_whole_keyword :
    TokenTable.compile Keyword.definitions (.mode .scalar) = .ok Keyword.lexer.tokens
      ∧ Keyword.lexer.filter = none
      ∧ (∀ spec ∈ Keyword.lexer.tokens, ∀ p, spec.target = .pattern p →
        p.StableFrom (max 1 Keyword.lexer.minBuffer))
      ∧ some 1 ≠ some 0
      ∧ (Keyword.lexer.recognize (Keyword.grammar.recognizer Value) 20
          (Keyword.lexer.run (.text "if xy".toList (some 1)) (.initial Keyword.grammar)
            [])).answer.toOption = some (some (.endOfInput 5 ["blank"]))
      ∧ (Keyword.lexer.recognize (Keyword.grammar.recognizer Value) 20
          (Keyword.lexer.run (.text "if xy".toList (some 1)) (.initial Keyword.grammar) [])).answer
        = (Keyword.lexer.whole.recognize (Keyword.grammar.recognizer Value) 20
            (Keyword.lexer.whole.run (.ofText "if xy".toList) (.initial Keyword.grammar)
              [])).answer := by
  have hstable : ∀ spec ∈ Keyword.lexer.tokens, ∀ p, spec.target = .pattern p →
      p.StableFrom (max 1 Keyword.lexer.minBuffer) := by
    intro spec hspec p hp
    simp only [Keyword.lexer, List.mem_cons, List.not_mem_nil, or_false] at hspec
    rcases hspec with rfl | rfl | rfl
    · cases hp
    · cases hp
      exact Keyword.letters_stable _
    · cases hp
  obtain ⟨hindependent, hfaithful⟩ := recognize_eq_recognize_whole
    (show TokenTable.compile Keyword.definitions (.mode .scalar) = .ok Keyword.lexer.tokens
      from rfl)
    rfl hstable (show some 1 ≠ some 0 by decide) "if xy".toList []
  exact ⟨rfl, rfl, hstable, by decide, by decide +kernel,
    (hindependent _ _ _ (hfaithful Keyword.grammar) 20).1⟩

end Lexer

end AmbiLex
