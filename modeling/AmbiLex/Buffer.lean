import AmbiLex.Source
import AmbiLex.Text.Escape

/-!
# The input buffer

A `Buffer` holds the part of the input that was read and not yet consumed. Tokens are matched at
its start, and consuming a token removes it there.

It is read from its source in chunks of twice its least size. With a least size of 0 the first
read takes the whole source, so no token can ever be cut short by the end of the buffer. A filter,
if there is one, is given the whole buffer after every read that delivered something, and what it
returns takes the place of the buffer.

All reading goes through one loop, `growWhile`: it grows the buffer as long as its text is found
wanting and the source has not ended. Refilling, looking for a literal and retrying a pattern
differ only in what they find wanting.

An operation that fails leaves the buffer as it was at the moment of the failure. The buffer keeps
a record of its reads and of the texts that were given to its filter.
-/

namespace AmbiLex

/-- A filter gives the text to go on with in place of the buffer's, or fails. -/
abbrev Filter := List Char → Except Fault (List Char)

/-- **The part of the input that was read and not yet consumed.** -/
structure Buffer where
  /-- The least size: the buffer is refilled when it gets shorter. 0 means to read everything at
  once. -/
  minBuffer : Int
  /-- The filter. -/
  filter : Option Filter
  /-- Where the text comes from. -/
  source : Source
  /-- The text in the buffer. -/
  text : List Char
  /-- The number of characters consumed so far. -/
  consumed : Int
  /-- Whether the source has not yet ended. -/
  mayGrow : Bool
  /-- The reads so far. -/
  reads : List Read
  /-- The texts that were given to the filter so far. -/
  filtered : List (List Char)

/-- Work on a buffer, which may fail. -/
abbrev BufferM := EStateM Fault Buffer

namespace Buffer

/-- A buffer from which nothing was read yet. -/
def start (source : Source) (minBuffer : Int) (filter : Option Filter) : Buffer :=
  ⟨minBuffer, filter, source, [], 0, true, [], []⟩

/-- The size a read asks for: everything when the least size is 0. -/
def readSize (b : Buffer) : Int :=
  if b.minBuffer = 0 then -1 else 2 * b.minBuffer

/-- The length below which the buffer is refilled; an empty buffer always is. -/
def threshold (b : Buffer) : Nat :=
  max b.minBuffer.toNat 1

/-- The sizes of the reads so far, as the source passed them on. -/
def readSizes (b : Buffer) : List Int :=
  b.reads.map fun read => b.source.portion read.size

/-! ## Growing -/

/-- The buffer after a read was made, whatever came of it. -/
def asked (b : Buffer) : Buffer :=
  { b with
    source := (b.source.read b.readSize).2
    reads := b.reads ++ [⟨b.readSize, (b.source.read b.readSize).1⟩] }

/-- Ask the source for a chunk. -/
def read : BufferM (List Char) := fun b =>
  match (b.source.read b.readSize).1 with
  | .ok chunk => .ok chunk b.asked
  | .error fault => .error fault b.asked

/-- Append a chunk. The source has ended with an empty chunk, and with any chunk if everything was
asked for. -/
def receive (b : Buffer) (chunk : List Char) : Buffer :=
  { b with
    text := b.text ++ chunk
    mayGrow := b.mayGrow && b.minBuffer != 0 && !chunk.isEmpty }

/-- Let the filter replace the text. -/
def applyFilter : BufferM Unit := fun b =>
  match b.filter with
  | none => .ok () b
  | some filter =>
    match filter b.text with
    | .ok text => .ok () { b with text := text, filtered := b.filtered ++ [b.text] }
    | .error fault => .error fault { b with filtered := b.filtered ++ [b.text] }

/-- Take in a delivered chunk. The filter is asked only if something was delivered. -/
def takeIn (chunk : List Char) : BufferM Unit := fun b =>
  if chunk.isEmpty then .ok () (b.receive chunk) else applyFilter (b.receive chunk)

/-- **Append the next chunk of the source**, unless that has ended. Answers whether there may be
more to come. -/
def grow : BufferM Bool := do
  if (← get).mayGrow then
    takeIn (← read)
  return (← get).mayGrow

/-- A bound on how often the buffer can still grow. -/
def growthsLeft (b : Buffer) : Nat :=
  if b.mayGrow then b.source.readsLeft + 1 else 0

/-- Filtering touches nothing but the text and the record of it. -/
theorem applyFilter_ok {b b' : Buffer} {u : Unit} (h : applyFilter b = .ok u b') :
    b'.source = b.source ∧ b'.mayGrow = b.mayGrow := by
  unfold applyFilter at h
  split at h
  · cases h
    exact ⟨rfl, rfl⟩
  · split at h <;> cases h
    exact ⟨rfl, rfl⟩

/-- **A growth step**, spelled out: a read, and taking in what it delivered. -/
theorem grow_of_mayGrow {b : Buffer} (hm : b.mayGrow = true) :
    grow b = match read b with
      | .ok chunk b₁ => match takeIn chunk b₁ with
        | .ok _ b₂ => .ok b₂.mayGrow b₂
        | .error fault b₂ => .error fault b₂
      | .error fault b₁ => .error fault b₁ := by
  show grow.run b = _
  simp only [grow, EStateM.run_bind, EStateM.run_get, EStateM.run_pure, hm, if_true]
  rw [show EStateM.run read b = read b from rfl]
  cases read b with
  | error fault b₁ => rfl
  | ok chunk b₁ =>
    dsimp only
    rw [show EStateM.run (takeIn chunk) b₁ = takeIn chunk b₁ from rfl]
    cases takeIn chunk b₁ <;> rfl

/-- A source that has ended is not asked again. -/
theorem grow_of_not_mayGrow {b : Buffer} (hm : b.mayGrow = false) : grow b = .ok false b := by
  show grow.run b = _
  simp only [grow, EStateM.run_bind, EStateM.run_get, hm, Bool.false_eq_true, if_false,
    EStateM.run_pure]

/-- What a successful growth step leaves of the source, and when it finds the source ended. -/
theorem grow_ok {b b' : Buffer} {more : Bool} (hm : b.mayGrow = true) (h : grow b = .ok more b') :
    ∃ chunk, (b.source.read b.readSize).1 = .ok chunk
      ∧ b'.source = (b.source.read b.readSize).2
      ∧ b'.mayGrow = (b.minBuffer != 0 && !chunk.isEmpty) := by
  rw [grow_of_mayGrow hm] at h
  unfold read at h
  cases hr : (b.source.read b.readSize).1 with
  | error fault => simp [hr] at h
  | ok chunk =>
    refine ⟨chunk, rfl, ?_⟩
    simp only [hr, takeIn] at h
    -- an empty chunk is not filtered, and a filter touches neither the source nor its end
    cases hc : chunk.isEmpty with
    | true =>
      simp only [hc, if_true, EStateM.Result.ok.injEq] at h
      simp [← h.2, receive, asked, hm, hc]
    | false =>
      simp only [hc, Bool.false_eq_true, if_false] at h
      cases hf : applyFilter (b.asked.receive chunk) with
      | error fault b₂ => simp [hf] at h
      | ok u b₂ =>
        simp only [hf, EStateM.Result.ok.injEq] at h
        obtain ⟨hs, hg⟩ := applyFilter_ok hf
        simp [← h.2, hs, hg, receive, asked, hm, hc]

/-- **Growing uses up one of the growths left**, if the source has not ended. -/
theorem growthsLeft_grow_lt {b b' : Buffer} {more : Bool} (hm : b.mayGrow = true)
    (h : grow b = .ok more b') : b'.growthsLeft < b.growthsLeft := by
  obtain ⟨chunk, hr, hs, hg⟩ := grow_ok hm h
  unfold growthsLeft
  rw [hs, hm]
  cases hb : b'.mayGrow with
  | false => simp
  | true =>
    have hne : chunk ≠ [] := by
      intro hc
      simp [hg, hc] at hb
    have := Source.readsLeft_read_lt hr hne
    simp only [if_true]
    omega

/-- **Grow while the text is found wanting** and the source has not ended. -/
def growWhile (wanting : List Char → Bool) (b : Buffer) : EStateM.Result Fault Buffer Unit :=
  if hm : b.mayGrow = true ∧ wanting b.text = true then
    match h : grow b with
    | .ok _ b' =>
      have := growthsLeft_grow_lt hm.1 h
      growWhile wanting b'
    | .error fault b' => .error fault b'
  else .ok () b
termination_by b.growthsLeft

/-- **Grow until the buffer is long enough** or the source has ended. Answers whether there may be
more to come. -/
def refill : BufferM Bool := do
  let threshold := (← get).threshold
  growWhile fun text => text.length < threshold
  return (← get).mayGrow

/-! ## Consuming and showing -/

/-- **The place that an index names in a text of a given length**: from the end if it is negative,
and never outside of the text. -/
def place (length : Nat) (index : Int) : Nat :=
  if 0 ≤ index then min index.toNat length else length - (-index).toNat

/-- **Remove the first characters.** All of them count as consumed, even if the buffer holds
fewer. -/
def consume (b : Buffer) (count : Int) : Buffer :=
  { b with
    text := b.text.drop (place b.text.length count)
    consumed := b.consumed + count }

/-- **The start of the buffer as diagnostics show it**, or all of it if 0 characters are asked
for. -/
def preview (b : Buffer) (count : Int) : List Char :=
  Text.escape (if count = 0 then b.text else b.text.take (place b.text.length count))

/-- How many characters a preview shows if nothing else is asked for. -/
def previewLength : Int := 20

end Buffer

end AmbiLex
