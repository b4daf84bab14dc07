import Mathlib.Data.Set.Function
import AmbiLex.Buffer

/-!
# What previews show

Diagnostics show a piece of the input on one line of printable ASCII. Every character that does not
fit in is named by its code point in braces, as in `\x{000a}`, and the others stand for themselves.
The output is made of the same characters that a text may hold, so two questions arise. Is what was
shown once shown as it is? And can the text be read back from what is shown of it?

The first is true because an escape consists of plain characters only (`isPlain_escapeCodes`). The
second is true unless a backslash in the text looks like the beginning of an escape. A reader who
meets a backslash then knows that an escape begins here. Its digits go on until the closing brace,
which is no digit, so it does not matter that numerals have different lengths, or that what follows
may be digits and braces as well (`escapedAt?_escape`). And a numeral has the value that it was
written for, whatever zeros it was filled up with (`hexValue?_hexNumeral`).

All of this is shown for sequences of code points. A text is one of them (`escape_eq_escapeCodes`),
but an escape can also name a code point that is no character.
-/

namespace AmbiLex

namespace Text

/-! ## Numerals have values -/

theorem hexDigitValue?_digitChar : ∀ digit < 16, hexDigitValue? digit.digitChar = some digit := by
  decide

/-- **A numeral without padding has the value that it was written for.** -/
theorem foldlM_toDigits (n : Nat) : (Nat.toDigits 16 n).foldlM withHexDigit? 0 = some n := by
  -- the last digit is the remainder, and the digits before it write the quotient
  induction n using Nat.strong_induction_on with
  | h n ih =>
    rw [Nat.toDigits_eq_if (by decide)]
    split
    · rename_i hlt
      simp [withHexDigit?, hexDigitValue?_digitChar n hlt]
    · rename_i hge
      have hdigit := hexDigitValue?_digitChar (n % 16) (Nat.mod_lt n (by decide))
      have hvalue : 16 * (n / 16) + n % 16 = n := Nat.div_add_mod n 16
      simp [List.foldlM_append, ih (n / 16) (by omega), withHexDigit?, hdigit, hvalue]

/-- Zeros in front do not count. -/
theorem foldlM_replicate_zero (count : Nat) (digits : List Char) :
    (List.replicate count '0' ++ digits).foldlM withHexDigit? 0
      = digits.foldlM withHexDigit? 0 := by
  induction count with
  | zero => rfl
  | succ count ih => exact ih

/-- **A numeral has the value that it was written for**, however it was filled up. -/
theorem hexValue?_hexNumeral (width n : Nat) : hexValue? (hexNumeral width n) = some n := by
  have hne : hexNumeral width n ≠ [] := by
    simp [hexNumeral, List.leftpad, Nat.toDigits_ne_nil]
  rw [hexValue?, if_neg (by simpa using hne), hexNumeral, List.leftpad, foldlM_replicate_zero,
    foldlM_toDigits]

/-- What has a value consists of digits. -/
theorem isSome_hexDigitValue? {digits : List Char} {start value : Nat}
    (h : digits.foldlM withHexDigit? start = some value) :
    ∀ c ∈ digits, (hexDigitValue? c).isSome := by
  induction digits generalizing start with
  | nil => simp
  | cons digit digits ih =>
    rw [List.foldlM_cons] at h
    obtain ⟨next, hnext, hrest⟩ := Option.bind_eq_some_iff.mp h
    rw [List.forall_mem_cons]
    refine ⟨?_, ih hrest⟩
    cases hdigit : hexDigitValue? digit with
    | none => simp [withHexDigit?, hdigit] at hnext
    | some digitValue => rfl

/-- **A numeral consists of digits.** -/
theorem isSome_of_mem_hexNumeral {width n : Nat} :
    ∀ c ∈ hexNumeral width n, (hexDigitValue? c).isSome := by
  have h := hexValue?_hexNumeral width n
  unfold hexValue? at h
  split at h
  · cases h
  · exact isSome_hexDigitValue? h

/-- A digit is a plain character. -/
theorem isPlain_of_hexDigitValue? {c : Char} (h : (hexDigitValue? c).isSome) :
    isPlain c = true := by
  unfold hexDigitValue? at h
  simp only [Char.le_def, UInt32.le_iff_toNat_le] at h
  simp only [isPlain, Bool.and_eq_true, decide_eq_true_eq]
  split at h
  · rename_i hdigit
    exact ⟨Nat.le_trans (by decide) hdigit.1, Nat.le_trans hdigit.2 (by decide)⟩
  · split at h
    · rename_i hletter
      exact ⟨Nat.le_trans (by decide) hletter.1, Nat.le_trans hletter.2 (by decide)⟩
    · cases h

/-! ## What is shown -/

theorem isPlain_iff {c : Char} : isPlain c = true ↔ 0x20 ≤ c.toNat ∧ c.toNat ≤ 0x7e := by
  simp [isPlain]

/-- **Characters are shown by their code points.** -/
theorem escapeChar_eq_escapeCode (c : Char) : escapeChar c = escapeCode c.toNat := by
  unfold escapeChar escapeCode
  rw [Char.ofNat_toNat]
  exact if_congr isPlain_iff rfl rfl

theorem escape_eq_escapeCodes (text : List Char) :
    escape text = escapeCodes (text.map Char.toNat) := by
  rw [escape, escapeCodes, List.flatMap_map, funext escapeChar_eq_escapeCode]

@[simp] theorem escapeCodes_append (codes more : List Nat) :
    escapeCodes (codes ++ more) = escapeCodes codes ++ escapeCodes more :=
  List.flatMap_append

/-- A code point in the range of plain characters is that of a character. -/
theorem toNat_ofNat_of_le {code : Nat} (h : code ≤ 0x7e) : (Char.ofNat code).toNat = code := by
  have hvalid : code.isValidChar := .inl (by omega)
  rw [Char.ofNat, dif_pos hvalid]
  rfl

/-- **Only plain characters are shown.** -/
theorem isPlain_escapeCodes (codes : List Nat) : ∀ c ∈ escapeCodes codes, isPlain c = true := by
  intro c hc
  obtain ⟨code, -, hshown⟩ := List.mem_flatMap.mp hc
  unfold escapeCode at hshown
  split at hshown
  · rename_i hplain
    rw [List.mem_singleton.mp hshown, isPlain_iff, toNat_ofNat_of_le hplain.2]
    exact hplain
  · simp only [List.mem_append, List.mem_cons, List.not_mem_nil, or_false] at hshown
    rcases hshown with ((rfl | rfl | rfl) | hdigit) | rfl
    · rfl
    · rfl
    · rfl
    · exact isPlain_of_hexDigitValue? (isSome_of_mem_hexNumeral c hdigit)
    · rfl

/-- Plain characters are shown as they are. -/
theorem escape_of_isPlain {text : List Char} (h : ∀ c ∈ text, isPlain c = true) :
    escape text = text := by
  induction text with
  | nil => rfl
  | cons c text ih =>
    rw [List.forall_mem_cons] at h
    rw [escape_cons, escapeChar_of_isPlain h.1, ih h.2]
    rfl

/-- **Exactly the plain code points are shown as they are.** -/
theorem map_toNat_escapeCodes_iff {codes : List Nat} :
    (escapeCodes codes).map Char.toNat = codes ↔ ∀ code ∈ codes, 0x20 ≤ code ∧ code ≤ 0x7e := by
  constructor
  · intro h code hcode
    rw [← h] at hcode
    obtain ⟨c, hc, rfl⟩ := List.mem_map.mp hcode
    exact isPlain_iff.mp (isPlain_escapeCodes codes c hc)
  · intro h
    induction codes with
    | nil => rfl
    | cons code codes ih =>
      rw [List.forall_mem_cons] at h
      show (escapeCode code ++ escapeCodes codes).map Char.toNat = _
      rw [escapeCode, if_pos h.1, List.map_append, ih h.2, List.map_singleton,
        toNat_ofNat_of_le h.1.2]
      rfl

/-! ## What is read back -/

/-- **An escape is read as the code point that it was written for**, whatever follows. -/
theorem escapedAt?_escape (width code : Nat) (rest : List Char) :
    escapedAt? (['x', '\x7b'] ++ hexNumeral width code ++ ['\x7d'] ++ rest)
      = some (code, (hexNumeral width code).length + 3) := by
  -- the brace ends the digits, since it is none
  have hdigits : (hexNumeral width code ++ '\x7d' :: rest).takeWhile
      (fun c => (hexDigitValue? c).isSome) = hexNumeral width code := by
    rw [List.takeWhile_append_of_pos isSome_of_mem_hexNumeral]
    simp [hexDigitValue?]
  simp [escapedAt?, hdigits, hexValue?_hexNumeral]

/-- The rest of an escape is passed over. -/
theorem unescapeFrom_length (passed rest : List Char) :
    unescapeFrom passed.length (passed ++ rest) = unescapeFrom 0 rest := by
  induction passed with
  | nil => rfl
  | cons c passed ih => exact ih

/-- **What is shown of a code point is read back**, unless it is the backslash. -/
theorem unescapeFrom_escapeCode {code : Nat} (h : code ≠ '\\'.toNat) (rest : List Char) :
    unescapeFrom 0 (escapeCode code ++ rest) = code :: unescapeFrom 0 rest := by
  unfold escapeCode
  split
  · rename_i hplain
    have hcode := toNat_ofNat_of_le hplain.2
    have hne : Char.ofNat code ≠ '\\' := by
      rintro heq
      exact h (hcode.symm.trans (congrArg Char.toNat heq))
    simp [unescapeFrom, hne, hcode]
  · have hread := escapedAt?_escape 4 code rest
    have hpass := unescapeFrom_length (['x', '\x7b'] ++ hexNumeral 4 code ++ ['\x7d']) rest
    have hlength : (['x', '\x7b'] ++ hexNumeral 4 code ++ ['\x7d']).length
        = (hexNumeral 4 code).length + 3 := by
      simp
    rw [hlength] at hpass
    show unescapeFrom 0 ('\\' :: (['x', '\x7b'] ++ hexNumeral 4 code ++ ['\x7d'] ++ rest)) = _
    rw [unescapeFrom, if_pos rfl, hread]
    exact congrArg (code :: ·) hpass

/-- **Code points are read back from what is shown of them**, if none of them is the backslash. -/
theorem unescapeCodes_escapeCodes {codes : List Nat} (h : '\\'.toNat ∉ codes) :
    unescapeCodes (escapeCodes codes) = codes := by
  induction codes with
  | nil => rfl
  | cons code codes ih =>
    rw [List.mem_cons, not_or] at h
    show unescapeFrom 0 (escapeCode code ++ escapeCodes codes) = _
    rw [unescapeFrom_escapeCode (Ne.symm h.1)]
    exact congrArg (code :: ·) (ih h.2)

/-- **A text is read back from what is shown of it**, if it holds no backslash. -/
theorem unescape_escape {text : List Char} (h : '\\' ∉ text) : unescape (escape text) = text := by
  have hcodes : '\\'.toNat ∉ text.map Char.toNat := by
    intro hmem
    obtain ⟨c, hc, heq⟩ := List.mem_map.mp hmem
    rw [Char.toNat_inj.mp heq] at hc
    exact h hc
  rw [unescape, escape_eq_escapeCodes, unescapeCodes_escapeCodes hcodes, List.map_map]
  exact List.map_id'' Char.ofNat_toNat text

/-- A text that spells an escape is read as the character that this names, so no text with a
backslash can be trusted. -/
example : unescape (escape ['\\', 'x', '\x7b', '4', '1', '\x7d']) = ['A'] := by decide

end Text

/-! ## Previews -/

namespace Buffer

/-- The characters that a preview is about: the first ones of the buffer, or all of them if it is
asked for none. -/
def shown (b : Buffer) (count : Nat) : List Char :=
  if count = 0 then b.text else b.text.take count

/-- **A preview shows the first characters of the buffer.** -/
theorem preview_eq (b : Buffer) (count : Nat) : b.preview count = Text.escape (b.shown count) := by
  unfold preview shown
  simp only [Int.natCast_eq_zero]
  split
  · rfl
  · rw [place, if_pos (Int.natCast_nonneg count), Int.toNat_natCast]
    rcases Nat.le_total count b.text.length with hle | hle
    · rw [Nat.min_eq_left hle]
    · rw [Nat.min_eq_right hle, List.take_length, List.take_of_length_le hle]

theorem shown_isPrefix (b : Buffer) (count : Nat) : b.shown count <+: b.text := by
  unfold shown
  split
  · exact List.prefix_rfl
  · exact List.take_prefix count b.text

end Buffer

namespace Text

/-- **Previews are faithful.**

* Whatever a text holds, what is shown of it are characters from U+0020 to U+007E. It is shown
  character by character, what was shown once is shown as it is, and a text is shown as it is
  exactly if all its characters are in that range.
* A text without a backslash is read back from what is shown of it, so no two of them look alike.
* A preview of some characters shows these characters and is not cut within an escape: it goes on as
  the rest of the buffer is shown, and they are read back from it.
* Nothing of this depends on the code points being those of characters. -/
theorem escape_is_faithful :
    (∀ text, ∀ c ∈ escape text, 0x20 ≤ c.toNat ∧ c.toNat ≤ 0x7e)
      ∧ (∀ s t, escape (s ++ t) = escape s ++ escape t)
      ∧ (∀ text, escape (escape text) = escape text)
      ∧ (∀ text, escape text = text ↔ ∀ c ∈ text, 0x20 ≤ c.toNat ∧ c.toNat ≤ 0x7e)
      ∧ (∀ text, '\\' ∉ text → unescape (escape text) = text)
      ∧ Set.InjOn escape {text | '\\' ∉ text}
      ∧ (∀ (b : Buffer) (count : Nat), b.preview count = escape (b.shown count)
        ∧ escape b.text = b.preview count ++ escape (b.text.drop (b.shown count).length)
        ∧ ('\\' ∉ b.text → unescape (b.preview count) = b.shown count))
      ∧ (∀ text, escape text = escapeCodes (text.map Char.toNat))
      ∧ (∀ codes, (∀ c ∈ escapeCodes codes, 0x20 ≤ c.toNat ∧ c.toNat ≤ 0x7e)
        ∧ (∀ more, escapeCodes (codes ++ more) = escapeCodes codes ++ escapeCodes more)
        ∧ escape (escapeCodes codes) = escapeCodes codes
        ∧ ((escapeCodes codes).map Char.toNat = codes ↔ ∀ code ∈ codes, 0x20 ≤ code ∧ code ≤ 0x7e)
        ∧ ('\\'.toNat ∉ codes → unescapeCodes (escapeCodes codes) = codes))
      ∧ Set.InjOn escapeCodes {codes | '\\'.toNat ∉ codes} := by
  have hplain : ∀ text, ∀ c ∈ escape text, isPlain c = true := by
    intro text
    rw [escape_eq_escapeCodes]
    exact isPlain_escapeCodes _
  refine ⟨fun text c hc => isPlain_iff.mp (hplain text c hc), escape_append,
    fun text => escape_of_isPlain (hplain text), fun text => ⟨fun h c hc => ?_, fun h => ?_⟩,
    fun text => unescape_escape, fun s hs t ht h => ?_, fun b count => ⟨b.preview_eq count, ?_, ?_⟩,
    escape_eq_escapeCodes, fun codes => ⟨fun c hc => ?_, escapeCodes_append codes,
      escape_of_isPlain (isPlain_escapeCodes codes), map_toNat_escapeCodes_iff,
      unescapeCodes_escapeCodes⟩, fun s hs t ht h => ?_⟩
  · rw [← h] at hc
    exact isPlain_iff.mp (hplain text c hc)
  · exact escape_of_isPlain fun c hc => isPlain_iff.mpr (h c hc)
  · rw [← unescape_escape hs, h, unescape_escape ht]
  · obtain ⟨rest, hrest⟩ := b.shown_isPrefix count
    rw [b.preview_eq, ← hrest, List.drop_left, escape_append]
  · intro hbackslash
    rw [b.preview_eq]
    exact unescape_escape fun hmem => hbackslash ((b.shown_isPrefix count).subset hmem)
  · exact isPlain_iff.mp (isPlain_escapeCodes codes c hc)
  · rw [← unescapeCodes_escapeCodes hs, h, unescapeCodes_escapeCodes ht]

/-- Escapes of four and of five digits are told apart from the digit and the brace behind them. -/
theorem escape_is_faithful_digits :
    '\\' ∉ ['\n', '0', '😀', '\x7d']
      ∧ escape ['\n', '0', '😀', '\x7d'] = "\\x\x7b000a\x7d0\\x\x7b1f600\x7d\x7d".toList
      ∧ unescape (escape ['\n', '0', '😀', '\x7d']) = ['\n', '0', '😀', '\x7d'] :=
  ⟨by decide, by decide +kernel, escape_is_faithful.2.2.2.2.1 _ (by decide)⟩

end Text

end AmbiLex
