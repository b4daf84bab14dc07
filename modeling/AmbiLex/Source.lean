import AmbiLex.Fault
import AmbiLex.Text.Replace
import AmbiLex.Text.Utf8

/-!
# Sources of text

A buffer reads its text from a `Source`, a piece at a time. A source says when it has ended by
delivering the empty text. It need not deliver as much as was asked for: a slow source gives no
more than its pace at once, and a source may also be a plain list of deliveries, some of which
fail, that are handed out one per read whatever was asked for.

Every source ends. `readsLeft` bounds the reads that can still deliver something, and it is what
makes the loops that read until they are satisfied terminate.
-/

namespace AmbiLex

/-- **A source of text**, as it stands. -/
inductive Source where
  /-- The rest of a text, delivered on request, at most `pace` characters at a time if there is a
  pace. -/
  | text (rest : List Char) (pace : Option Nat)
  /-- The rest of a text behind which there is something unreadable. -/
  | broken (rest : List Char) (fault : Fault)
  /-- Deliveries and failures that are handed out one by one. -/
  | script (deliveries : List (Except Fault (List Char)))

/-- **One read**: how much was asked for, and what came of it. -/
structure Read where
  /-- The number of characters asked for; a negative number asks for everything. -/
  size : Int
  /-- What was delivered, or how the read failed. -/
  outcome : Except Fault (List Char)

namespace Source

/-- **The part of a request that is passed on**: a source with a pace passes on no more than that,
but does not limit a request for everything. -/
def portion (source : Source) (size : Int) : Int :=
  match source with
  | text _ (some pace) => if 0 ≤ size then min size pace else size
  | _ => size

/-- **Read from a source.** A negative size asks for everything. -/
def read (source : Source) (size : Int) : Except Fault (List Char) × Source :=
  match source with
  | text rest pace =>
    let portion := (text rest pace).portion size
    if portion < 0 then (.ok rest, text [] pace)
    else (.ok (rest.take portion.toNat), text (rest.drop portion.toNat) pace)
  | broken rest fault =>
    if size < 0 ∨ rest.length < size then (.error fault, broken [] fault)
    else (.ok (rest.take size.toNat), broken (rest.drop size.toNat) fault)
  | script [] => (.ok [], script [])
  | script (delivery :: later) => (delivery, script later)

/-- A bound on the reads that can still deliver something or fail. -/
def readsLeft : Source → Nat
  | text rest _ | broken rest _ => rest.length
  | script deliveries => deliveries.length

/-- **A read that delivers something uses up one of the reads left.** -/
theorem readsLeft_read_lt {source : Source} {size : Int} {chunk : List Char}
    (h : (source.read size).1 = .ok chunk) (hne : chunk ≠ []) :
    (source.read size).2.readsLeft < source.readsLeft := by
  match source with
  | text rest pace =>
    simp only [read] at h ⊢
    split at h <;> rename_i hs
    · simp only [Except.ok.injEq] at h
      subst h
      simp [hs, readsLeft, List.length_pos_iff.mpr hne]
    · simp only [Except.ok.injEq] at h
      -- a non-empty delivery was cut off a non-empty rest
      have hlen : 0 < chunk.length := List.length_pos_iff.mpr hne
      rw [← h, List.length_take] at hlen
      simp only [hs, if_false, readsLeft, List.length_drop]
      omega
  | broken rest fault =>
    simp only [read] at h ⊢
    split at h <;> rename_i hs
    · cases h
    · simp only [Except.ok.injEq] at h
      have hlen : 0 < chunk.length := List.length_pos_iff.mpr hne
      rw [← h, List.length_take] at hlen
      simp only [hs, if_false, readsLeft, List.length_drop]
      omega
  | script [] =>
    simp only [read, Except.ok.injEq] at h
    exact absurd h.symm hne
  | script (_ :: later) => simp [read, readsLeft]

/-- The source of a text that is delivered as asked for. -/
def ofText (text : List Char) : Source :=
  .text text none

end Source

/-- **What stands under a file name.** -/
inductive FileContent where
  /-- A file of bytes. -/
  | bytes (content : ByteArray)
  /-- Nothing. -/
  | missing
  /-- A directory. -/
  | directory

/-- **Open a file for reading.** That there is a file shows at once; that it is not text shows when
it is read. All line endings are read as line feeds. A carriage return is not given out before it
is known what follows it, and behind an unreadable end it never is. -/
def Source.ofFile : FileContent → Except Fault Source
  | .missing => .error .fileMissing
  | .directory => .error .fileIsDirectory
  | .bytes content =>
    match Text.decode content with
    | .whole decoded => .ok (ofText (Text.normalizeNewlines decoded))
    | .cut decoded =>
      let settled := if decoded.getLast? = some '\r' then decoded.dropLast else decoded
      .ok (broken (Text.normalizeNewlines settled) .undecodable)
    | .invalid => .ok (broken [] .undecodable)

end AmbiLex
