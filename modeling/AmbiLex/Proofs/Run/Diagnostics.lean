import Mathlib.Data.List.Forall2
import AmbiLex.Proofs.Run.Alignment
import AmbiLex.Proofs.Run.Akin
import AmbiLex.Proofs.Text.Escape
import AmbiLex.Proofs.Token.Seeking

/-!
# What diagnostics do to a run, and what they say about it

Diagnostic lines are made all over a run: where a round begins, when a terminal was looked for, when
a parse failed. They are made from the buffer, after it may have grown or been filtered. Still they
do nothing to the run. With and without them it comes to the same, the same is done with the
recognizer, and the same is read and filtered.

Of the lines themselves those about tokens that matched matter most. There is one for each token
that is offered, in the same order, and it shows all of the matched text. For this it is not enough
to compare the lines with what was offered, because a value need not tell what it was made of. So a
run is taken apart into the tokens that were found in it (`Lexer.foundIn`), and both what was
offered and what was reported are read off them.
-/

namespace AmbiLex

/-! ## Diagnostics on and off -/

/-- **The lexer with diagnostics turned on or off.** -/
def Lexer.debugging (lexer : Lexer) (debug : Bool) : Lexer :=
  { lexer with debug := debug }

/-- **Two scans of which the second makes no lines.** Otherwise they are the same. -/
structure Scan.Silent (s s' : Scan) : Prop where
  /-- The buffers are the same. -/
  buffer_eq : s.buffer = s'.buffer
  /-- The same callbacks were called. -/
  calls_eq : s.calls = s'.calls
  /-- The second scan has no lines. -/
  lines_eq : s'.lines = #[]

/-- **A lexer cannot be told apart from itself without diagnostics.** -/
theorem Lexer.debugging_akin (lexer : Lexer) :
    (lexer.debugging true).Akin Scan.Silent (lexer.debugging false) := by
  refine ⟨rfl, rfl, fun _ _ h => h.buffer_eq, fun _ _ h => h.calls_eq,
    fun _ _ _ h => ⟨rfl, h.calls_eq, h.lines_eq⟩, fun _ _ _ h => ⟨h.buffer_eq, rfl, h.lines_eq⟩,
    fun line s s' h => ?_⟩
  show EStateM.Result.Agrees _ _ (.ok () { s with lines := s.lines.push (line s.buffer) })
    (.ok () s')
  exact ⟨rfl, h.buffer_eq, h.calls_eq, h.lines_eq⟩

/-! ## Lines about tokens -/

/-- **The line about a token that was found**: its name, and all of its text in plain characters. -/
def Found.line (found : Found) : String :=
  "Token " ++ Text.quoted found.name ++ " matched " ++ String.ofList (Text.escape found.text)

/-- Whether a line is about a token that was found. All of them begin alike, and no other line
begins as they do. -/
def isTokenLine (line : String) : Bool :=
  "Token ".toList.isPrefixOf line.toList

/-- **The lines about tokens** that were found. -/
def Scan.tokenLines (s : Scan) : List String :=
  s.lines.toList.filter isTokenLine

theorem Found.isTokenLine_line (found : Found) : isTokenLine found.line = true := by
  rw [isTokenLine, List.isPrefixOf_iff_prefix, line, String.toList_append, String.toList_append,
    String.toList_append, List.append_assoc, List.append_assoc]
  exact List.prefix_append _ _

/-- A line that begins with another letter is about something else. -/
theorem isTokenLine_eq_false {word rest : String} {c : Char} (hfirst : word.toList.head? = some c)
    (hc : c ≠ 'T') : isTokenLine (word ++ rest) = false := by
  obtain ⟨tail, htail⟩ := List.head?_eq_some_iff.mp hfirst
  rw [isTokenLine, String.toList_append, htail]
  show ('T' == c && _) = false
  rw [beq_false_of_ne hc.symm]
  rfl

/-- **A preview of the length of a beginning** shows all of it. -/
theorem Buffer.preview_length {b : Buffer} {text : List Char} (hne : text ≠ [])
    (hbeginning : text <+: b.text) : b.preview text.length = Text.escape text := by
  have hlength := List.length_pos_iff.mpr hne
  rw [preview_eq, shown, if_neg (by omega), ← List.prefix_iff_eq_take.mp hbeginning]

namespace Lexer

variable {ρ : Type} {lexer : Lexer} {recognizer : Recognizer Value ρ}

/-- Making a line adds it, if it is about a token. -/
theorem tokenLines_report (hdebug : lexer.debug = true) {line : Buffer → String} {s s' : Scan}
    {u : Unit} (h : lexer.report line s = .ok u s') :
    s'.tokenLines = s.tokenLines ++ [line s.buffer].filter isTokenLine := by
  rw [report, if_pos hdebug] at h
  cases h
  show (s.lines.push (line s.buffer)).toList.filter isTokenLine = _
  rw [Array.toList_push, List.filter_append]
  rfl

/-- A line that is about something else is not one about a token. -/
theorem tokenLines_report_of_other (hdebug : lexer.debug = true) {line : Buffer → String}
    {s s' : Scan} {u : Unit} (h : lexer.report line s = .ok u s')
    (hother : isTokenLine (line s.buffer) = false) : s'.tokenLines = s.tokenLines := by
  rw [tokenLines_report hdebug h, List.filter_cons_of_neg (by simp [hother]), List.filter_nil,
    List.append_nil]

/-- Such a line in a run. -/
theorem tokenLines_onScan_report (hdebug : lexer.debug = true) {line : Buffer → String}
    {r r' : Run ρ} {u : Unit} (h : Run.onScan (lexer.report line) r = .ok u r')
    (hother : ∀ b, isTokenLine (line b) = false) :
    r'.scan.tokenLines = r.scan.tokenLines := by
  obtain ⟨s, hs, rfl⟩ := Run.onScan_eq_ok h
  exact tokenLines_report_of_other hdebug hs (hother _)

/-- Work on the buffer makes no lines. -/
theorem lines_onBuffer {α : Type} {work : BufferM α} {s s' : Scan} {a : α}
    (h : Scan.onBuffer work s = .ok a s') : s'.lines = s.lines := by
  rw [onBuffer_apply] at h
  obtain ⟨buffer, -, rfl⟩ := EStateM.Result.within_eq_ok h
  rfl

/-- **The token that is found by the next move of a run**, if that looks for one. -/
def foundAt (lexer : Lexer) : Point → Run ρ → Option Found
  | .seeking (name :: _), r =>
    (lexer.tokens.find? name).bind fun spec => (spec.seek r.buffer).answer.toOption.join
  | _, _ => none

/-- What is found of a terminal by looking in the buffer. -/
theorem foundAt_of_seek {name : String} {left : List String} {r : Run ρ} {spec : TokenSpec}
    {found : Option Found} {b : Buffer} (hfind : lexer.tokens.find? name = some spec)
    (hseek : spec.seek r.buffer = .ok found b) :
    lexer.foundAt (.seeking (name :: left)) r = found := by
  simp [foundAt, hfind, hseek, EStateM.Result.answer, Except.toOption]

/-- Nothing is found of a terminal that is in no table. -/
theorem foundAt_of_unlisted {name : String} {left : List String} {r : Run ρ}
    (hfind : lexer.tokens.find? name = none) :
    lexer.foundAt (.seeking (name :: left)) r = none := by
  simp [foundAt, hfind]

/-- **Looking for a terminal** makes a line about the token that is found. -/
theorem tokenLines_seek (hdebug : lexer.debug = true) (husable : ∀ spec ∈ lexer.tokens, spec.Usable)
    {name : String} {s s' : Scan} {found : Option Found} (h : lexer.seek name s = .ok found s') :
    s'.tokenLines = s.tokenLines ++ found.toList.map Found.line := by
  unfold seek at h
  cases hfind : lexer.tokens.find? name with
  | none =>
    rw [hfind] at h
    obtain ⟨u, s₁, hreport, hpure⟩ := EStateM.bind_eq_ok h
    cases hpure
    rw [tokenLines_report_of_other hdebug hreport (isTokenLine_eq_false (c := 'U') rfl (by decide))]
    exact (List.append_nil _).symm
  | some spec =>
    rw [hfind] at h
    obtain ⟨found₁, s₁, hseek, hrest⟩ := EStateM.bind_eq_ok h
    obtain ⟨u, s₂, hreport, hpure⟩ := EStateM.bind_eq_ok hrest
    cases hpure
    have hlines : s₁.tokenLines = s.tokenLines := by
      rw [Scan.tokenLines, lines_onBuffer hseek, Scan.tokenLines]
    cases found with
    | none =>
      have hother : isTokenLine (soughtLine name none s₁.buffer) = false := by
        rw [soughtLine, String.append_assoc, String.append_assoc]
        exact isTokenLine_eq_false (c := 'N') rfl (by decide)
      rw [tokenLines_report_of_other hdebug hreport hother, hlines]
      exact (List.append_nil _).symm
    | some found =>
      obtain ⟨hmem, hname⟩ := TokenTable.of_find?_eq_some hfind
      obtain ⟨hfound, hne, hbeginning⟩ := TokenSpec.found_of_verdict (husable spec hmem)
        (TokenSpec.verdict_of_seek (onBuffer_eq_ok hseek).1)
      have hline : soughtLine name (some found) s₁.buffer = found.line := by
        show "Token " ++ _ ++ _ ++ String.ofList (s₁.buffer.preview found.text.length) = _
        rw [Buffer.preview_length hne hbeginning, ← hname, ← hfound]
        rfl
      rw [tokenLines_report hdebug hreport, hlines, hline,
        List.filter_cons_of_pos found.isTokenLine_line]
      rfl

/-- Refilling the buffer makes no lines. -/
theorem lines_refill {r r' : Run ρ} {u : Unit} (h : Run.refill r = .ok u r') :
    r'.scan.lines = r.scan.lines := by
  obtain ⟨more, r₁, hrefill, hpure⟩ := EStateM.bind_eq_ok h
  cases hpure
  obtain ⟨s, hs, rfl⟩ := Run.onScan_eq_ok hrefill
  exact lines_onBuffer hs

/-- **Completing a position** makes no line about a token. -/
theorem tokenLines_completeNext (hdebug : lexer.debug = true) {done : Nat} {progress : Progress}
    {r r' : Run ρ} (h : lexer.completeNext recognizer done r = .ok progress r') :
    r'.scan.tokenLines = r.scan.tokenLines := by
  obtain ⟨advance, r₁, hcomplete, hrest⟩ := EStateM.bind_eq_ok h
  obtain ⟨state, -, rfl⟩ := Run.onRecognizer_eq_ok hcomplete
  cases hkind : advance.kind with
  | moreNeeded =>
    rw [hkind] at hrest
    cases hrest
    rfl
  | nextExpected =>
    rw [hkind] at hrest
    obtain ⟨u, r₂, hfinish, hpure⟩ := EStateM.bind_eq_ok hrest
    cases hpure
    rw [finishRound_apply] at hfinish
    split at hfinish
    · rw [Scan.tokenLines, lines_refill hfinish]
      rfl
    · cases hfinish
      rfl
  | exhausted =>
    rw [hkind] at hrest
    cases hrest
    rfl
  | failure =>
    rw [hkind] at hrest
    obtain ⟨u, r₂, hreport, hpure⟩ := EStateM.bind_eq_ok hrest
    cases hpure
    have hfailure : isTokenLine (failureLine advance.detail) = false :=
      isTokenLine_eq_false (c := 'F') rfl (by decide)
    have hlines := tokenLines_onScan_report hdebug hreport fun _ => hfailure
    exact hlines
  | unknown label =>
    rw [hkind] at hrest
    cases hrest

/-- **A move makes a line about the token that it finds**, and no other lines about tokens. -/
theorem tokenLines_move (hdebug : lexer.debug = true)
    (husable : ∀ spec ∈ lexer.tokens, spec.Usable) {point point' : Point} {r r' : Run ρ}
    (h : lexer.move recognizer point r = .ok point' r') :
    r'.scan.tokenLines
      = r.scan.tokenLines ++ (lexer.foundAt point r).toList.map Found.line := by
  cases point with
  | head expected =>
    show _ = _ ++ []
    rw [List.append_nil]
    rw [move, EStateM.get_bind] at h
    split at h
    · cases h
      rfl
    · obtain ⟨u₁, r₁, hfirst, hrest⟩ := EStateM.bind_eq_ok h
      obtain ⟨u₂, r₂, hsecond, hpure⟩ := EStateM.bind_eq_ok hrest
      cases hpure
      have hbuffer : ∀ b, isTokenLine (bufferLine b) = false := by
        intro b
        show isTokenLine
          ("Buffer start: " ++ String.ofList (b.preview Buffer.previewLength) ++ "...") = false
        rw [String.append_assoc]
        exact isTokenLine_eq_false (c := 'B') rfl (by decide)
      have hexpected : isTokenLine (expectedLine expected) = false :=
        isTokenLine_eq_false (c := 'E') rfl (by decide)
      rw [tokenLines_onScan_report hdebug hsecond hbuffer,
        tokenLines_onScan_report hdebug hfirst fun _ => hexpected]
  | seeking left =>
    cases left with
    | nil =>
      cases h
      exact (List.append_nil _).symm
    | cons name left =>
      obtain ⟨found, r₁, hsought, hrest⟩ := EStateM.bind_eq_ok h
      obtain ⟨s, hs, rfl⟩ := Run.onScan_eq_ok hsought
      have hfound : lexer.foundAt (.seeking (name :: left)) r = found := by
        rcases (seek_eq_ok hs).2 with ⟨hfind, rfl, -⟩ | ⟨spec, hfind, hseek⟩
        · exact foundAt_of_unlisted hfind
        · exact foundAt_of_seek hfind hseek
      rw [hfound, ← tokenLines_seek hdebug husable hs]
      cases found with
      | none =>
        cases hrest
        rfl
      | some found =>
        obtain ⟨value, r₂, hstored, hpure⟩ := EStateM.bind_eq_ok hrest
        cases hpure
        obtain ⟨s', hs', rfl⟩ := Run.onScan_eq_ok hstored
        rw [store, onCalls_apply] at hs'
        obtain ⟨calls, -, rfl⟩ := EStateM.Result.within_eq_ok hs'
        rfl
  | sought offer left =>
    show _ = _ ++ []
    rw [List.append_nil]
    cases offer with
    | none =>
      cases h
      rfl
    | some offer =>
      obtain ⟨u, r₁, htake, hpure⟩ := EStateM.bind_eq_ok h
      cases hpure
      obtain ⟨state, -, rfl⟩ := Run.onRecognizer_eq_ok htake
      rfl
  | completing done =>
    obtain ⟨progress, r₁, hcomplete, hpure⟩ := EStateM.bind_eq_ok h
    cases hpure
    exact (tokenLines_completeNext hdebug hcomplete).trans (List.append_nil _).symm
  | finished recognition =>
    cases h
    exact (List.append_nil _).symm

/-- **The tokens that are found in the first moves of a run**, in order. -/
def foundIn (lexer : Lexer) (recognizer : Recognizer Value ρ) (start : Run ρ) : Nat → List Found
  | 0 => []
  | count + 1 => lexer.foundIn recognizer start count ++
    match lexer.after recognizer count start with
    | .ok point r => (lexer.foundAt point r).toList
    | .error _ _ => []

theorem foundIn_succ {start : Run ρ} {count : Nat} {point : Point} {r : Run ρ}
    (h : lexer.after recognizer count start = .ok point r) :
    lexer.foundIn recognizer start (count + 1)
      = lexer.foundIn recognizer start count ++ (lexer.foundAt point r).toList := by
  rw [foundIn, h]

end Lexer

/-! ## Tokens that are offered -/

/-- What a recognizer was offered in an exchange, if it was offered something. -/
def Exchange.submission? {ν : Type} : Exchange ν → Option (String × ν × Int)
  | offered terminal value length _ => some (terminal, value, length)
  | _ => none

/-- **The tokens that a recognizer was offered**, in order. -/
def History.submissions {ν : Type} (history : History ν) : List (String × ν × Int) :=
  history.filterMap Exchange.submission?

theorem History.submissions_append {ν : Type} (history more : History ν) :
    submissions (history ++ more) = history.submissions ++ more.submissions :=
  List.filterMap_append

/-- Offering a token submits it. -/
theorem Recorded.submissions_of_take {ν ρ : Type} {recognizer : Recognizer ν ρ} {name : String}
    {value : ν} {length : Int} {s s' : Recorded ν ρ}
    (h : recognizer.recorded.alternative name value length s = .ok () s') :
    s'.history.submissions = s.history.submissions ++ [(name, value, length)] := by
  rw [history_of_take h, History.submissions_append]
  rfl

/-- Completing a position submits nothing. -/
theorem Recorded.submissions_of_complete {ν ρ : Type} {recognizer : Recognizer ν ρ}
    {advance : Advance} {s s' : Recorded ν ρ}
    (h : recognizer.recorded.completePosition s = .ok advance s') :
    s'.history.submissions = s.history.submissions := by
  rw [history_of_complete h, History.submissions_append]
  exact List.append_nil _

/-- What is about to be offered at a point of a run. -/
def Point.pending : Point → List (String × Value × Int)
  | sought (some offer) _ => [(offer.name, offer.value, offer.length)]
  | _ => []

/-- **A token that was found is submitted**: its name and its length are, and a value that was made
of its text. -/
def TokenTable.Submits (table : TokenTable) (submission : String × Value × Int)
    (found : Found) : Prop :=
  submission.1 = found.name ∧ submission.2.2 = found.length
    ∧ ∃ calls calls', table.encode found.name found.text calls = .ok submission.2.1 calls'

namespace Lexer

variable {ρ : Type} {lexer : Lexer} {recognizer : Recognizer Value ρ}

/-- **A move submits the token that it finds**, once that is offered, and no others. -/
theorem submissions_move (husable : ∀ spec ∈ lexer.tokens, spec.Usable) {point point' : Point}
    {r r' : Run (Recorded Value ρ)} (h : lexer.move recognizer.recorded point r = .ok point' r') :
    ∃ new, r'.recognizer.history.submissions ++ point'.pending
        = r.recognizer.history.submissions ++ point.pending ++ new
      ∧ List.Forall₂ lexer.tokens.Submits new (lexer.foundAt point r).toList := by
  -- most moves neither find a token nor submit one
  have hsame : ∀ {submissions submissions' : List (String × Value × Int)},
      submissions' = submissions → ∃ new, submissions' = submissions ++ new
        ∧ List.Forall₂ lexer.tokens.Submits new [] :=
    fun heq => ⟨[], by rw [heq, List.append_nil], .nil⟩
  cases moved_of_move h with
  | ended text => exact hsame rfl
  | opened text buffer calls state => exact hsame (by rw [state]; rfl)
  | closed => exact hsame rfl
  | unlisted find buffer calls state =>
    rw [foundAt_of_unlisted find]
    exact hsame (by rw [state]; rfl)
  | missed find seek calls state =>
    rw [foundAt_of_seek find seek]
    exact hsame (by rw [state]; rfl)
  | @found name left _ _ spec found value find seek store state =>
    obtain ⟨hmem, hname⟩ := TokenTable.of_find?_eq_some find
    have hfound := (TokenSpec.found_of_verdict (husable spec hmem)
      (TokenSpec.verdict_of_seek seek)).1.trans hname
    rw [foundAt_of_seek find seek, state]
    refine ⟨[(name, value, (found.length : Int))], ?_, .cons ⟨hfound.symm, rfl, ?_⟩ .nil⟩
    · show _ = _ ++ [] ++ _
      rw [List.append_nil]
      rfl
    · rw [hfound]
      exact ⟨_, _, store⟩
  | passed => exact hsame rfl
  | offered take =>
    refine hsame ?_
    rw [Recorded.submissions_of_take take]
    exact List.append_nil _
  | more complete kind => exact hsame (by rw [Recorded.submissions_of_complete complete]; rfl)
  | next complete kind buffer calls =>
    exact hsame (by rw [Recorded.submissions_of_complete complete]; rfl)
  | exhausted complete kind buffer calls =>
    exact hsame (by rw [Recorded.submissions_of_complete complete]; rfl)
  | failed complete kind buffer calls =>
    exact hsame (by rw [Recorded.submissions_of_complete complete]; rfl)
  | stayed => exact hsame rfl

/-- The beginning of a run makes no lines. -/
theorem lines_begin {progress : Progress} {r r' : Run ρ}
    (h : begin recognizer r = .ok progress r') : r'.scan.lines = r.scan.lines := by
  obtain ⟨expected, r₁, hexpect, hrest⟩ := EStateM.bind_eq_ok h
  obtain ⟨state, -, rfl⟩ := Run.onRecognizer_eq_ok hexpect
  split at hrest
  · cases hrest
    rfl
  · obtain ⟨u, r₂, hrefill, hpure⟩ := EStateM.bind_eq_ok hrest
    cases hpure
    have hlines := lines_refill hrefill
    exact hlines

/-- **What was reported and what was submitted by any moment of a run** are the tokens that were
found, of which the last one may still have to be offered. -/
theorem reported_after (hdebug : lexer.debug = true)
    (husable : ∀ spec ∈ lexer.tokens, spec.Usable) {source : Source} {state : ρ}
    {calls : List Call} {start : Run (Recorded Value ρ)}
    (hstart : start = lexer.run source (.fresh state) calls) (count : Nat) :
    ∀ point r, lexer.after recognizer.recorded count start = .ok point r →
      r.scan.tokenLines = (lexer.foundIn recognizer.recorded start count).map Found.line
        ∧ List.Forall₂ lexer.tokens.Submits (r.recognizer.history.submissions ++ point.pending)
          (lexer.foundIn recognizer.recorded start count) := by
  induction count with
  | zero =>
    intro point r h
    obtain ⟨progress, s, hbegin, hpure⟩ := EStateM.bind_eq_ok h
    cases hpure
    subst hstart
    obtain ⟨expected, hexpect, -⟩ := begin_eq_ok hbegin
    refine ⟨?_, ?_⟩
    · rw [Scan.tokenLines, lines_begin hbegin]
      rfl
    · have hpending : (Point.ofProgress progress).pending = [] := by
        rcases progress with ⟨⟨⟩ | ⟨⟩⟩ | ⟨⟩ <;> rfl
      rw [hpending, Recorded.history_of_expect hexpect]
      exact .nil
  | succ count ih =>
    intro point' r' h
    rw [after_succ] at h
    obtain ⟨point, r, hafter, hmove⟩ := EStateM.bind_eq_ok h
    obtain ⟨hlines, hsubmits⟩ := ih point r hafter
    obtain ⟨new, hnew, hfound⟩ := submissions_move husable hmove
    rw [foundIn_succ hafter, tokenLines_move hdebug husable hmove, hlines, hnew, List.map_append]
    exact ⟨rfl, List.rel_append hsubmits hfound⟩

/-- **Diagnostics do nothing to a run, and report what it offers.** Whatever the recognizer, the
source and the filter are, a run with diagnostics comes to the same result or fault as one without,
with the same history of exchanges with the recognizer, the same buffer, reads and filtered texts,
and the same calls of callbacks; without them no line is made. And if a run with diagnostics returns
a result, then the tokens that were found in it are the ones that were offered, one by one, and the
lines about tokens show their names and all of their texts. -/
theorem diagnostics_are_faithful {definitions : List (String × Setting)} {store : Setting}
    (hcompile : TokenTable.compile definitions store = .ok lexer.tokens)
    (recognizer : Recognizer Value ρ) (source : Source) (state : ρ) (calls : List Call)
    (limit : Nat) :
    ((lexer.debugging true).recognize recognizer.recorded limit
        ((lexer.debugging true).run source (.fresh state) calls)).Agrees
        (fun _ => Run.Alike Scan.Silent Eq) (Run.Alike Scan.Silent Eq)
        ((lexer.debugging false).recognize recognizer.recorded limit
          ((lexer.debugging false).run source (.fresh state) calls))
      ∧ ∀ recognition r,
        (lexer.debugging true).recognize recognizer.recorded limit
            ((lexer.debugging true).run source (.fresh state) calls)
          = .ok (some recognition) r →
        ∃ count,
          (lexer.debugging true).after recognizer.recorded count
              ((lexer.debugging true).run source (.fresh state) calls)
            = .ok (.finished recognition) r
          ∧ List.Forall₂ lexer.tokens.Submits r.recognizer.history.submissions
            ((lexer.debugging true).foundIn recognizer.recorded
              ((lexer.debugging true).run source (.fresh state) calls) count)
          ∧ r.scan.tokenLines
            = ((lexer.debugging true).foundIn recognizer.recorded
              ((lexer.debugging true).run source (.fresh state) calls) count).map Found.line := by
  constructor
  · exact recognize_alike lexer.debugging_akin ⟨⟨rfl, rfl, rfl⟩, rfl⟩
      (Recognizer.Akin.refl recognizer.recorded) limit
  · intro recognition r hresult
    obtain ⟨count, hafter⟩ := recognize_finished hresult
    obtain ⟨hlines, hsubmits⟩ := reported_after (show (lexer.debugging true).debug = true from rfl)
      (TokenTable.usable_of_compile hcompile) rfl count _ r hafter
    refine ⟨count, hafter, ?_, hlines⟩
    rw [show r.recognizer.history.submissions = _ ++ (Point.finished recognition).pending from
      (List.append_nil _).symm]
    exact hsubmits

/-- Four tokens are found in `if xy`, delivered in three pieces: the keyword, the word that it is
too, the blank and the second word. -/
theorem diagnostics_are_faithful_keyword :
    TokenTable.compile Keyword.definitions (.mode .scalar) = .ok Keyword.lexer.tokens
      ∧ ∃ r founds, (Keyword.lexer.debugging true).recognize
            (Keyword.grammar.recognizer Value).recorded 20
            ((Keyword.lexer.debugging true).run Keyword.source
              (.fresh (.initial Keyword.grammar)) [])
          = .ok (some (.endOfInput 5 ["blank"])) r
        ∧ List.Forall₂ Keyword.lexer.tokens.Submits r.recognizer.history.submissions founds
        ∧ r.scan.tokenLines = founds.map Found.line
        ∧ r.scan.tokenLines = ["Token 'if' matched if", "Token 'word' matched if",
          "Token 'blank' matched  ", "Token 'word' matched xy"] := by
  have hrun : ((Keyword.lexer.debugging true).recognize
      (Keyword.grammar.recognizer Value).recorded 20
      ((Keyword.lexer.debugging true).run Keyword.source (.fresh (.initial Keyword.grammar))
        [])).answer.toOption = some (some (.endOfInput 5 ["blank"])) := by
    decide +kernel
  have hresult := EStateM.Result.eq_ok_of_toOption hrun
  have hcompile : TokenTable.compile Keyword.definitions (.mode .scalar)
      = .ok Keyword.lexer.tokens := rfl
  obtain ⟨count, -, hsubmits, hlines⟩ :=
    (diagnostics_are_faithful hcompile (Keyword.grammar.recognizer Value) Keyword.source
      (.initial Keyword.grammar) [] 20).2 _ _ hresult
  exact ⟨hcompile, _, _, hresult, hsubmits, hlines, by decide +kernel⟩

end Lexer

end AmbiLex
