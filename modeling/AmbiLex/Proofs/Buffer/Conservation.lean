import AmbiLex.Proofs.Token.Seeking

/-!
# What a buffer does with its source

A buffer can be used in any order: grown, refilled, searched for tokens, shown and consumed from.
Some of this fails, because a read fails or because a pattern matches the empty text, and then the
buffer is used further as it was left. Whatever its history is, a buffer without a filter keeps two
accounts.

One is of the text. What was removed, followed by what is held, is what was delivered, and as many
characters are counted as consumed as were removed. The other is of the reads. All of them ask for
the same, and the source is asked until a read *ends* it and never again. `Accounted` puts the two
together, and `accounted_performed` proves them for all histories.

Four loops change a buffer, and a failure can cut each of them short after any pass. But all of them
do nothing except growing, so what a growth keeps, failed or not, every operation keeps that does
not consume anything (`Operation.meets_work`).
-/

namespace AmbiLex

namespace Read

/-- Whether something was delivered, be it the empty text. -/
def succeeded (read : Read) : Bool :=
  match read.outcome with
  | .ok _ => true
  | .error _ => false

/-- **Whether a read ended its source** for a buffer of a least size: it delivered the empty text,
or it delivered anything when everything was asked for. -/
def Ends (minBuffer : Int) (read : Read) : Prop :=
  read.outcome = .ok [] ∨ minBuffer = 0 ∧ ∃ chunk, read.outcome = .ok chunk

theorem ends_of_ok {minBuffer : Int} {read : Read} {chunk : List Char}
    (h : read.outcome = .ok chunk) : read.Ends minBuffer ↔ chunk = [] ∨ minBuffer = 0 := by
  simp [Ends, h]

theorem not_ends_of_error {minBuffer : Int} {read : Read} {fault : Fault}
    (h : read.outcome = .error fault) : ¬ read.Ends minBuffer := by
  simp [Ends, h]

theorem ends_of_succeeded {minBuffer : Int} {read : Read} (h0 : minBuffer = 0)
    (h : read.succeeded = true) : read.Ends minBuffer := by
  unfold succeeded at h
  split at h
  · rename_i chunk hchunk
    exact .inr ⟨h0, chunk, hchunk⟩
  · cases h

end Read

namespace Buffer

/-! ## Histories -/

/-- **What can be done with a buffer.** -/
inductive Operation where
  /-- Take in the next chunk. -/
  | grow
  /-- Grow until the buffer is long enough. -/
  | refill
  /-- Look for a token. -/
  | seek (spec : TokenSpec)
  /-- Show the start of the buffer. -/
  | preview (count : Int)
  /-- Remove characters. -/
  | consume (count : Nat)

namespace Operation

/-- The work of an operation, without its answer. -/
def work : Operation → BufferM Unit
  | grow => do let _ ← Buffer.grow
  | refill => do let _ ← Buffer.refill
  | seek spec => do let _ ← spec.seek
  | preview count => do let _ := (← get).preview count
  | consume count => modify fun b => b.consume count

/-- The characters that an operation removes. -/
def removes (b : Buffer) : Operation → List Char
  | consume count => b.text.take count
  | _ => []

/-- An operation stays within a buffer if it removes no more than is there. -/
def Within (b : Buffer) : Operation → Prop
  | consume count => count ≤ b.text.length
  | _ => True

end Operation

instance (b : Buffer) (operation : Operation) : Decidable (operation.Within b) :=
  match operation with
  | .consume count => inferInstanceAs (Decidable (count ≤ b.text.length))
  | .grow | .refill | .seek _ | .preview _ => .isTrue trivial

/-- **A buffer after some operations.** One that fails leaves the buffer as it was at the moment of
the failure, and the next one goes on from there. -/
def performed : List Operation → Buffer → Buffer
  | [], b => b
  | operation :: operations, b => performed operations (operation.work b).left

/-- **What some operations remove**, one after the other. -/
def removed : List Operation → Buffer → List Char
  | [], _ => []
  | operation :: operations, b =>
    operation.removes b ++ removed operations (operation.work b).left

/-- Operations that stay within a buffer, each where its turn comes. -/
def AllWithin : List Operation → Buffer → Prop
  | [], _ => True
  | operation :: operations, b => operation.Within b ∧ AllWithin operations (operation.work b).left

instance decidableAllWithin : ∀ (operations : List Operation) (b : Buffer),
    Decidable (AllWithin operations b)
  | [], _ => .isTrue trivial
  | operation :: operations, b =>
    have := decidableAllWithin operations (operation.work b).left
    inferInstanceAs (Decidable (operation.Within b ∧ AllWithin operations (operation.work b).left))

/-- **What a growth keeps, failed or not, every operation keeps that consumes nothing**, failed or
not. -/
theorem Operation.meets_work {P : Buffer → Prop}
    (hgrow : ∀ b, P b → (Buffer.grow b).Meets (fun _ b' => P b') (fun _ b' => P b'))
    {operation : Operation} (hkind : ∀ count, operation ≠ .consume count) {b : Buffer} (hb : P b) :
    (operation.work b).Meets (fun _ b' => P b') (fun _ b' => P b') := by
  cases operation with
  | grow => exact EStateM.meets_bind (hgrow b hb) fun _ _ h => h
  | refill => exact EStateM.meets_bind (refill_keeps hgrow hb) fun _ _ h => h
  | seek spec => exact EStateM.meets_bind (TokenSpec.seek_keeps hgrow spec hb) fun _ _ h => h
  | preview count => exact hb
  | consume count => exact absurd rfl (hkind count)

/-- The state that an operation leaves, if it consumes nothing. -/
theorem Operation.left_work {P : Buffer → Prop}
    (hgrow : ∀ b, P b → (Buffer.grow b).Meets (fun _ b' => P b') (fun _ b' => P b'))
    {operation : Operation} (hkind : ∀ count, operation ≠ .consume count) {b : Buffer} (hb : P b) :
    P (operation.work b).left := by
  have hmeets := meets_work hgrow hkind hb
  generalize operation.work b = result at hmeets
  cases result with
  | ok u b' => exact hmeets
  | error fault b' => exact hmeets

/-! ## The account of the reads -/

/-- **A buffer with its reads in order**: all of them ask for the same, the source has ended exactly
if one of them ended it, and that one is the last. -/
structure Orderly (b : Buffer) : Prop where
  /-- All reads ask for the same. -/
  size_eq : ∀ read ∈ b.reads, read.size = b.readSize
  /-- The source has ended if a read ended it, and not otherwise. -/
  mayGrow_iff : b.mayGrow = false ↔ ∃ read ∈ b.reads, read.Ends b.minBuffer
  /-- Nothing is read behind the end. -/
  last : ∀ before read after, b.reads = before ++ read :: after → read.Ends b.minBuffer →
    after = []

/-- **One more read keeps the reads in order**, if the source has not ended before and the buffer
takes notice of the end. -/
theorem Orderly.asked {b b' : Buffer} (h : b.Orderly) (hm : b.mayGrow = true) (read : Read)
    (hsize : read.size = b.readSize) (hmin : b'.minBuffer = b.minBuffer)
    (hreads : b'.reads = b.reads ++ [read])
    (hended : b'.mayGrow = false ↔ read.Ends b.minBuffer) : b'.Orderly := by
  have hnone : ∀ read' ∈ b.reads, ¬ read'.Ends b.minBuffer := by
    intro read' hmem hends
    have hended := h.mayGrow_iff.mpr ⟨read', hmem, hends⟩
    rw [hm] at hended
    cases hended
  have hsame : b'.readSize = b.readSize := by
    unfold readSize
    rw [hmin]
  refine ⟨fun read' hmem => ?_, ?_, fun before read' after hsplit hends => ?_⟩
  · rw [hreads, List.mem_append, List.mem_singleton] at hmem
    rw [hsame]
    rcases hmem with hmem | rfl
    · exact h.size_eq read' hmem
    · exact hsize
  · rw [hended, hmin, hreads]
    constructor
    · intro hends
      exact ⟨read, List.mem_append_right _ (List.mem_singleton_self read), hends⟩
    · rintro ⟨read', hmem, hends⟩
      rw [List.mem_append, List.mem_singleton] at hmem
      rcases hmem with hmem | rfl
      · exact absurd hends (hnone read' hmem)
      · exact hends
  · -- what comes before the last read did not end the source
    rw [hmin] at hends
    rw [hreads] at hsplit
    rcases List.eq_nil_or_concat after with rfl | ⟨after', last, rfl⟩
    · rfl
    · rw [List.concat_eq_append, ← List.cons_append, ← List.append_assoc] at hsplit
      have hmem : read' ∈ b.reads := by
        rw [(List.append_inj' hsplit rfl).1]
        exact List.mem_append_right _ List.mem_cons_self
      exact absurd hends (hnone read' hmem)

/-- **A read that failed** keeps the reads in order. -/
theorem Orderly.failed {b : Buffer} (h : b.Orderly) (hm : b.mayGrow = true) {fault : Fault}
    (hr : (b.source.read b.readSize).1 = .error fault) : b.asked.Orderly := by
  refine h.asked hm ⟨b.readSize, .error fault⟩ rfl rfl ?_ ?_
  · show b.reads ++ [⟨b.readSize, (b.source.read b.readSize).1⟩] = _
    rw [hr]
  · show b.mayGrow = false ↔ _
    simp [hm, Read.not_ends_of_error]

/-- **A chunk that was received** keeps the reads in order, whatever text takes its place. -/
theorem Orderly.received {b : Buffer} (h : b.Orderly) (hm : b.mayGrow = true) {chunk : List Char}
    (hr : (b.source.read b.readSize).1 = .ok chunk) (text : List Char)
    (filtered : List (List Char)) :
    Orderly { b.asked.receive chunk with text := text, filtered := filtered } := by
  refine h.asked hm ⟨b.readSize, .ok chunk⟩ rfl rfl ?_ ?_
  · show b.reads ++ [⟨b.readSize, (b.source.read b.readSize).1⟩] = _
    rw [hr]
  · show (b.mayGrow && b.minBuffer != 0 && !chunk.isEmpty) = false ↔ _
    rw [Read.ends_of_ok rfl, hm]
    cases chunk <;> simp

/-- **A growth keeps the reads in order**, failed or not. -/
theorem grow_orderly {b : Buffer} (h : b.Orderly) :
    (grow b).Meets (fun _ b' => b'.Orderly) (fun _ b' => b'.Orderly) :=
  grow_meets (fun _ => h) (fun hm _ hr => h.received hm hr) (fun hm _ hr => h.failed hm hr)
    fun hm _ hr _ => h.received hm hr _

/-- **A growth that fails changes nothing but the record of the reads.** -/
theorem same_of_grow_error {b b' : Buffer} {fault : Fault} (hf : b.filter = none)
    (h : grow b = .error fault b') :
    b'.text = b.text ∧ b'.consumed = b.consumed ∧ b'.mayGrow = b.mayGrow := by
  cases hm : b.mayGrow with
  | false =>
    rw [grow_of_not_mayGrow hm] at h
    cases h
  | true =>
    rw [grow_unfiltered hf hm] at h
    cases hr : (b.source.read b.readSize).1 with
    | ok chunk =>
      rw [hr] at h
      cases h
    | error fault' =>
      rw [hr] at h
      cases h
      exact ⟨rfl, rfl, hm⟩

/-- **Once the source has ended nothing more is read**, whatever is done. -/
theorem reads_performed {b : Buffer} (hm : b.mayGrow = false) (operations : List Operation) :
    (performed operations b).reads = b.reads := by
  induction operations generalizing b with
  | nil => rfl
  | cons operation operations ih =>
    have hstep : (operation.work b).left.mayGrow = false
        ∧ (operation.work b).left.reads = b.reads := by
      by_cases hkind : ∃ count, operation = .consume count
      · obtain ⟨count, rfl⟩ := hkind
        exact ⟨hm, rfl⟩
      · refine Operation.left_work (P := fun b' => b'.mayGrow = false ∧ b'.reads = b.reads) ?_
          (fun count h => hkind ⟨count, h⟩) ⟨hm, rfl⟩
        rintro b' ⟨hm', hreads⟩
        rw [grow_of_not_mayGrow hm']
        exact ⟨hm', hreads⟩
    rw [performed, ih hstep.1, hstep.2]

/-! ## Both accounts -/

/-- **A buffer without a filter that is accounted for**, when certain characters were removed from
it. -/
structure Kept (minBuffer : Int) (removed : List Char) (b : Buffer) : Prop where
  /-- There is no filter. -/
  unfiltered : b.filter = none
  /-- The least size of the buffer. -/
  minBuffer_eq : b.minBuffer = minBuffer
  /-- What was removed and what is held is what was delivered. -/
  text_eq : removed ++ b.text = b.delivered
  /-- What was removed counts as consumed. -/
  consumed_eq : b.consumed = removed.length
  /-- The reads are in order. -/
  orderly : b.Orderly

namespace Kept

variable {minBuffer : Int} {gone : List Char} {b b' : Buffer}

theorem start (source : Source) (minBuffer : Int) :
    Kept minBuffer [] (start source minBuffer none) := by
  refine ⟨rfl, rfl, rfl, rfl, ?_, ?_, ?_⟩ <;> simp [Buffer.start]

/-- **A buffer that has grown is still accounted for** if its reads are in order. -/
theorem grown (h : Kept minBuffer gone b) (hgrown : Grown b b') (horderly : b'.Orderly) :
    Kept minBuffer gone b' := by
  obtain ⟨more, htext, hdelivered⟩ := hgrown.added
  refine ⟨hgrown.filter_eq.trans h.unfiltered, hgrown.minBuffer_eq.trans h.minBuffer_eq, ?_,
    hgrown.consumed_eq.trans h.consumed_eq, horderly⟩
  rw [htext, hdelivered, ← List.append_assoc, h.text_eq]

/-- **Consuming what is there** moves it from what is held to what was removed. -/
theorem consume (h : Kept minBuffer gone b) {count : Nat} (hle : count ≤ b.text.length) :
    Kept minBuffer (gone ++ b.text.take count) (b.consume count) := by
  refine ⟨h.unfiltered, h.minBuffer_eq, ?_, ?_, h.orderly.size_eq, h.orderly.mayGrow_iff,
    h.orderly.last⟩
  · rw [text_consume, List.append_assoc, List.take_append_drop]
    exact h.text_eq
  · show b.consumed + (count : Int) = _
    rw [h.consumed_eq, List.length_append, List.length_take, Nat.min_eq_left hle]
    rfl

/-- **An operation keeps a buffer accounted for**, failed or not. -/
theorem work (h : Kept minBuffer gone b) {operation : Operation} (hwithin : operation.Within b) :
    Kept minBuffer (gone ++ operation.removes b) (operation.work b).left := by
  by_cases hkind : ∃ count, operation = .consume count
  · obtain ⟨count, rfl⟩ := hkind
    exact h.consume hwithin
  · have hremoves : operation.removes b = [] := by
      cases operation with
      | consume count => exact absurd ⟨count, rfl⟩ hkind
      | grow | refill | seek | preview => rfl
    rw [hremoves, List.append_nil]
    refine Operation.left_work (P := Kept minBuffer gone) (fun b₁ h₁ => ?_)
      (fun count heq => hkind ⟨count, heq⟩) h
    have hgrow := (grow_grown h₁.unfiltered).and (grow_orderly h₁.orderly)
    exact hgrow.mono (fun _ _ hb => h₁.grown hb.1 hb.2) (fun _ _ hb => h₁.grown hb.1 hb.2)

/-- **Any number of operations keep a buffer accounted for**, failed or not. -/
theorem performed {operations : List Operation} (h : Kept minBuffer gone b)
    (hwithin : AllWithin operations b) :
    Kept minBuffer (gone ++ removed operations b) (performed operations b) := by
  induction operations generalizing gone b with
  | nil =>
    rw [removed, List.append_nil]
    exact h
  | cons operation operations ih =>
    rw [removed, ← List.append_assoc]
    exact ih (h.work hwithin.1) hwithin.2

end Kept

/-- Where everything is asked for, at most one read succeeds, since it is the last. -/
theorem Orderly.countP_succeeded_le {b : Buffer} (h : b.Orderly) (h0 : b.minBuffer = 0) :
    b.reads.countP Read.succeeded ≤ 1 := by
  rcases List.eq_nil_or_concat b.reads with hnil | ⟨before, last, hlast⟩
  · simp [hnil]
  · rw [List.concat_eq_append] at hlast
    have hnone : before.countP Read.succeeded = 0 := by
      refine List.countP_eq_zero.mpr fun read hmem hsucceeded => ?_
      obtain ⟨first, rest, rfl⟩ := List.append_of_mem hmem
      have hnil := h.last first read (rest ++ [last]) (by simp [hlast])
        (Read.ends_of_succeeded h0 hsucceeded)
      simp at hnil
    rw [hlast, List.countP_append, hnone, Nat.zero_add]
    exact List.countP_le_length

/-- **A buffer that is accounted for**, when certain characters were removed from it since nothing
was read. -/
structure Accounted (minBuffer : Int) (removed : List Char) (b : Buffer) : Prop where
  /-- What was removed, followed by what is held, is what was delivered. -/
  text_eq : removed ++ b.text = b.delivered
  /-- As many characters count as consumed as were removed. -/
  consumed_eq : b.consumed = removed.length
  /-- Every read asks for twice the least size, or for everything if that is 0. -/
  size_eq : ∀ read ∈ b.reads, read.size = if minBuffer = 0 then -1 else 2 * minBuffer
  /-- If everything is asked for, no two reads succeed. -/
  once : minBuffer = 0 → b.reads.countP Read.succeeded ≤ 1
  /-- The source has ended exactly if a read ended it. -/
  mayGrow_iff : b.mayGrow = false ↔ ∃ read ∈ b.reads, read.Ends minBuffer
  /-- A read that ended the source is the last one. -/
  last : ∀ before read after, b.reads = before ++ read :: after → read.Ends minBuffer → after = []
  /-- Once the source has ended nothing is read, whatever is done. -/
  quiet : b.mayGrow = false → ∀ operations, (performed operations b).reads = b.reads
  /-- A growth that fails leaves the text, the count and the end of the source as they are. -/
  failure : ∀ fault b', grow b = .error fault b' →
    b'.text = b.text ∧ b'.consumed = b.consumed ∧ b'.mayGrow = b.mayGrow

/-- **A buffer without a filter is accounted for after any history.** The operations may fail, each
is followed by the next one on the buffer that it left, and only consuming has to stay within what
is there. -/
theorem accounted_performed (source : Source) (minBuffer : Int) (operations : List Operation)
    (hwithin : AllWithin operations (start source minBuffer none)) :
    Accounted minBuffer (removed operations (start source minBuffer none))
      (performed operations (start source minBuffer none)) := by
  have h := (Kept.start source minBuffer).performed hwithin
  rw [List.nil_append] at h
  have hmin := h.minBuffer_eq
  refine ⟨h.text_eq, h.consumed_eq, fun read hmem => ?_, fun h0 => ?_, ?_,
    fun before read after hsplit hends => ?_, fun hm => reads_performed hm,
    fun fault b' => same_of_grow_error h.unfiltered⟩
  · rw [h.orderly.size_eq read hmem, readSize, hmin]
  · exact h.orderly.countP_succeeded_le (hmin.trans h0)
  · rw [h.orderly.mayGrow_iff, hmin]
  · rw [← hmin] at hends
    exact h.orderly.last before read after hsplit hends

/-! ## A history with failures -/

namespace Troubled

/-- A source whose second read fails. -/
def source : Source :=
  .script [.ok ['a', 'b'], .error .undecodable, .ok ['c'], .ok [], .ok ['d']]

/-- A pattern that matches the empty text only. -/
def nothing : TokenSpec where
  name := "nothing"
  target := .pattern ⟨"", {}, fun _ => some 0, fun h => by cases h; exact Nat.zero_le _⟩
  encoder := .known .scalar none

/-- A read fails, and a pattern matches the empty text. After that the buffer is used further, and
asked to grow once more when the source has ended. -/
def operations : List Operation :=
  [.grow, .consume 1, .grow, .seek nothing, .preview 0, .grow, .consume 1, .refill, .grow, .grow]

end Troubled

/-- A buffer is accounted for after a history with two failures: two characters were removed, one is
held, and the last delivery was never asked for. -/
theorem accounted_performed_troubled :
    AllWithin Troubled.operations (start Troubled.source 1 none)
      ∧ removed Troubled.operations (start Troubled.source 1 none) = ['a', 'b']
      ∧ (performed Troubled.operations (start Troubled.source 1 none)).text = ['c']
      ∧ (performed Troubled.operations (start Troubled.source 1 none)).reads.length = 4
      ∧ Accounted 1 ['a', 'b'] (performed Troubled.operations (start Troubled.source 1 none)) := by
  have hwithin : AllWithin Troubled.operations (start Troubled.source 1 none) := by
    decide +kernel
  have hremoved : removed Troubled.operations (start Troubled.source 1 none) = ['a', 'b'] := by
    decide +kernel
  refine ⟨hwithin, hremoved, by decide +kernel, by decide +kernel, ?_⟩
  rw [← hremoved]
  exact accounted_performed Troubled.source 1 Troubled.operations hwithin

end Buffer

end AmbiLex
