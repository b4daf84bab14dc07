import AmbiLex.Proofs.Run.Moved

/-!
# What can stop a run

`Moved` lists what a move can do. `Stopped` is the other half of the account: it lists the places
where a move can stop with a fault, and what was done by then. Looking for a terminal can fail and
storing its token can, each operation of the recognizer can, and the buffer can fail to be refilled
behind a round. An answer that the lexer does not understand is a fault of its own. Nothing else
stops a run, once it has begun (`stopped_of_move`).

With both lists an invariant of a run is proved for its end as well, however the run ends
(`begin_meets`, `move_meets`).
-/

namespace AmbiLex

namespace Lexer

variable {ρ : Type} {lexer : Lexer} {recognizer : Recognizer Value ρ}

/-- Making a diagnostic line does not fail. -/
theorem onScan_report_ne_error {line : Buffer → String} {r r' : Run ρ} {fault : Fault} :
    Run.onScan (lexer.report line) r ≠ .error fault r' := by
  intro h
  obtain ⟨s, hs, -⟩ := Run.onScan_eq_error h
  obtain ⟨s', hs', -⟩ := report_apply lexer line r.scan
  rw [hs] at hs'
  cases hs'

/-- **Looking for a terminal fails** only in the buffer. -/
theorem seek_eq_error {name : String} {s s' : Scan} {fault : Fault}
    (h : lexer.seek name s = .error fault s') :
    s'.calls = s.calls ∧ ∃ spec, lexer.tokens.find? name = some spec
      ∧ spec.seek s.buffer = .error fault s'.buffer := by
  unfold seek at h
  cases hfind : lexer.tokens.find? name with
  | none =>
    rw [hfind] at h
    obtain ⟨s₁, hs₁, -⟩ := report_apply lexer (fun _ => unknownLine name) s
    rcases EStateM.bind_eq_error h with hreport | ⟨u, s₂, -, hpure⟩
    · rw [hreport] at hs₁
      cases hs₁
    · cases hpure
  | some spec =>
    rw [hfind] at h
    rcases EStateM.bind_eq_error h with hseek | ⟨found, s₁, -, hrest⟩
    · rw [onBuffer_apply] at hseek
      obtain ⟨buffer, hbuffer, rfl⟩ := EStateM.Result.within_eq_error hseek
      exact ⟨rfl, spec, rfl, hbuffer⟩
    · obtain ⟨s₂, hs₂, -⟩ := report_apply lexer (soughtLine name found) s₁
      rcases EStateM.bind_eq_error hrest with hreport | ⟨u, s₃, -, hpure⟩
      · rw [hreport] at hs₂
        cases hs₂
      · cases hpure

/-- **Storing a token fails** only in the making of its value. -/
theorem store_eq_error {name : String} {text : List Char} {s s' : Scan} {fault : Fault}
    (h : lexer.store name text s = .error fault s') :
    s'.buffer = s.buffer ∧ lexer.tokens.encode name text s.calls = .error fault s'.calls := by
  rw [store, onCalls_apply] at h
  obtain ⟨calls, hcalls, rfl⟩ := EStateM.Result.within_eq_error h
  exact ⟨rfl, hcalls⟩

/-- Refilling the buffer of a run fails only in the buffer. -/
theorem refill_eq_error {r r' : Run ρ} {fault : Fault} (h : Run.refill r = .error fault r') :
    Buffer.refill r.buffer = .error fault r'.buffer ∧ r'.scan.calls = r.scan.calls
      ∧ r'.recognizer = r.recognizer := by
  rcases EStateM.bind_eq_error h with hrefill | ⟨more, r₁, -, hpure⟩
  · obtain ⟨s, hs, rfl⟩ := Run.onScan_eq_error hrefill
    rw [onBuffer_apply] at hs
    obtain ⟨buffer, hbuffer, rfl⟩ := EStateM.Result.within_eq_error hs
    exact ⟨hbuffer, rfl, rfl⟩
  · cases hpure

/-- **Finishing a round fails** only if the buffer has to be refilled. -/
theorem finishRound_eq_error {completed : Nat} {r r' : Run ρ} {fault : Fault}
    (h : lexer.finishRound completed r = .error fault r') :
    Buffer.refill (r.buffer.consume completed) = .error fault r'.buffer
      ∧ r'.scan.calls = r.scan.calls ∧ r'.recognizer = r.recognizer := by
  rw [finishRound_apply] at h
  split at h
  · exact refill_eq_error h
  · cases h

/-- **What a move can stop at**, from a point and a run with a fault. -/
inductive Stopped (lexer : Lexer) (recognizer : Recognizer Value ρ) :
    Point → Run ρ → Fault → Run ρ → Prop
  /-- Looking for a terminal failed. -/
  | unsought {name : String} {left : List String} {r r' : Run ρ} {spec : TokenSpec} {fault : Fault}
    (find : lexer.tokens.find? name = some spec)
    (seek : spec.seek r.buffer = .error fault r'.buffer) (calls : r'.scan.calls = r.scan.calls)
    (state : r'.recognizer = r.recognizer) :
    Stopped lexer recognizer (.seeking (name :: left)) r fault r'
  /-- A terminal was found, and making a value for it failed. -/
  | unstored {name : String} {left : List String} {r r' : Run ρ} {spec : TokenSpec} {found : Found}
    {fault : Fault} (find : lexer.tokens.find? name = some spec)
    (seek : spec.seek r.buffer = .ok (some found) r'.buffer)
    (store : lexer.tokens.encode name found.text r.scan.calls = .error fault r'.scan.calls)
    (state : r'.recognizer = r.recognizer) :
    Stopped lexer recognizer (.seeking (name :: left)) r fault r'
  /-- A token was offered, and the recognizer failed. -/
  | refused {offer : Offer} {left : List String} {r : Run ρ} {state : ρ} {fault : Fault}
    (take : recognizer.alternative offer.name offer.value offer.length r.recognizer
      = .error fault state) :
    Stopped lexer recognizer (.sought (some offer) left) r fault { r with recognizer := state }
  /-- A position was to be completed, and the recognizer failed. -/
  | uncompleted {done : Nat} {r : Run ρ} {state : ρ} {fault : Fault}
    (complete : recognizer.completePosition r.recognizer = .error fault state) :
    Stopped lexer recognizer (.completing done) r fault { r with recognizer := state }
  /-- A position was completed, and the answer was none of those that are known. -/
  | misunderstood {done : Nat} {r : Run ρ} {advance : Advance} {label : Plain} {state : ρ}
    (complete : recognizer.completePosition r.recognizer = .ok advance state)
    (kind : advance.kind = .unknown label) :
    Stopped lexer recognizer (.completing done) r (.unknownAdvance advance.shown)
      { r with recognizer := state }
  /-- A position was completed, something is expected at the next one, and refilling the buffer
  failed. -/
  | unfilled {done : Nat} {r r' : Run ρ} {advance : Advance} {fault : Fault}
    (complete : recognizer.completePosition r.recognizer = .ok advance r'.recognizer)
    (kind : advance.kind = .nextExpected)
    (refill : Buffer.refill (r.buffer.consume (done + 1 : Nat)) = .error fault r'.buffer)
    (calls : r'.scan.calls = r.scan.calls) :
    Stopped lexer recognizer (.completing done) r fault r'

/-- Completing a position. -/
theorem stopped_of_completeNext {done : Nat} {r r' : Run ρ} {fault : Fault}
    (h : lexer.completeNext recognizer done r = .error fault r') :
    Stopped lexer recognizer (.completing done) r fault r' := by
  rcases EStateM.bind_eq_error h with hcomplete | ⟨advance, r₁, hcomplete, hrest⟩
  · obtain ⟨state, hstate, rfl⟩ := Run.onRecognizer_eq_error hcomplete
    exact .uncompleted hstate
  · obtain ⟨state, hstate, rfl⟩ := Run.onRecognizer_eq_ok hcomplete
    cases hkind : advance.kind with
    | moreNeeded =>
      rw [hkind] at hrest
      cases hrest
    | nextExpected =>
      rw [hkind] at hrest
      rcases EStateM.bind_eq_error hrest with hfinish | ⟨u, r₂, -, hpure⟩
      · obtain ⟨hrefill, hcalls, hsame⟩ := finishRound_eq_error hfinish
        refine .unfilled ?_ hkind hrefill hcalls
        rw [hsame]
        exact hstate
      · cases hpure
    | exhausted =>
      rw [hkind] at hrest
      cases hrest
    | failure =>
      rw [hkind] at hrest
      rcases EStateM.bind_eq_error hrest with hreport | ⟨u, r₂, -, hpure⟩
      · exact absurd hreport onScan_report_ne_error
      · cases hpure
    | unknown label =>
      rw [hkind] at hrest
      cases hrest
      exact .misunderstood hstate hkind

/-- **Every move that stops does so at one of the list.** -/
theorem stopped_of_move {point : Point} {r r' : Run ρ} {fault : Fault}
    (h : lexer.move recognizer point r = .error fault r') :
    Stopped lexer recognizer point r fault r' := by
  cases point with
  | head expected =>
    rw [move, EStateM.get_bind] at h
    split at h
    · cases h
    · rcases EStateM.bind_eq_error h with hfirst | ⟨u₁, r₁, -, hrest⟩
      · exact absurd hfirst onScan_report_ne_error
      · rcases EStateM.bind_eq_error hrest with hsecond | ⟨u₂, r₂, -, hpure⟩
        · exact absurd hsecond onScan_report_ne_error
        · cases hpure
  | seeking left =>
    cases left with
    | nil => cases h
    | cons name left =>
      rcases EStateM.bind_eq_error h with hsought | ⟨found, r₁, hsought, hrest⟩
      · obtain ⟨s, hs, rfl⟩ := Run.onScan_eq_error hsought
        obtain ⟨hcalls, spec, hfind, hseek⟩ := seek_eq_error hs
        exact .unsought hfind hseek hcalls rfl
      · obtain ⟨s, hs, rfl⟩ := Run.onScan_eq_ok hsought
        obtain ⟨hcalls, hseek⟩ := seek_eq_ok hs
        cases found with
        | none => cases hrest
        | some found =>
          rcases EStateM.bind_eq_error hrest with hstored | ⟨value, r₂, -, hpure⟩
          · obtain ⟨s', hs', rfl⟩ := Run.onScan_eq_error hstored
            obtain ⟨hbuffer, hencode⟩ := store_eq_error hs'
            rcases hseek with ⟨-, hnone, -⟩ | ⟨spec, hfind, hasked⟩
            · cases hnone
            · rw [show (Scan.calls _) = r.scan.calls from hcalls] at hencode
              refine .unstored hfind ?_ hencode rfl
              show spec.seek r.buffer = .ok (some found) s'.buffer
              rw [hbuffer]
              exact hasked
          · cases hpure
  | sought offer left =>
    cases offer with
    | none => cases h
    | some offer =>
      rcases EStateM.bind_eq_error h with htake | ⟨u, r₁, -, hpure⟩
      · obtain ⟨state, hstate, rfl⟩ := Run.onRecognizer_eq_error htake
        exact .refused hstate
      · cases hpure
  | completing done =>
    rcases EStateM.bind_eq_error h with hcomplete | ⟨progress, r₁, -, hpure⟩
    · exact stopped_of_completeNext hcomplete
    · cases hpure
  | finished recognition => cases h

/-- **How a run fails to begin**: the recognizer cannot be asked, or the buffer cannot be filled. -/
theorem begin_eq_error {r r' : Run ρ} {fault : Fault} (h : begin recognizer r = .error fault r') :
    (recognizer.terminalsExpected r.recognizer = .error fault r'.recognizer ∧ r'.scan = r.scan)
      ∨ ∃ expected, expected ≠ []
        ∧ recognizer.terminalsExpected r.recognizer = .ok expected r'.recognizer
        ∧ Buffer.refill r.buffer = .error fault r'.buffer ∧ r'.scan.calls = r.scan.calls := by
  rcases EStateM.bind_eq_error h with hexpect | ⟨expected, r₁, hexpect, hrest⟩
  · obtain ⟨state, hstate, rfl⟩ := Run.onRecognizer_eq_error hexpect
    exact .inl ⟨hstate, rfl⟩
  · obtain ⟨state, hstate, rfl⟩ := Run.onRecognizer_eq_ok hexpect
    split at hrest
    · cases hrest
    · rename_i hnonempty
      rcases EStateM.bind_eq_error hrest with hrefill | ⟨u, r₂, -, hpure⟩
      · obtain ⟨hasked, hcalls, hsame⟩ := refill_eq_error hrefill
        refine .inr ⟨expected, fun hnil => hnonempty (List.isEmpty_iff.mpr hnil), ?_, hasked,
          hcalls⟩
        rw [hsame]
        exact hstate
      · cases hpure

/-- What is known of each way in which a run begins, or fails to, is known of its beginning. -/
theorem begin_meets {good : Progress → Run ρ → Prop} {bad : Fault → Run ρ → Prop} {r : Run ρ}
    (hidle : ∀ r', recognizer.terminalsExpected r.recognizer = .ok [] r'.recognizer →
      r'.buffer = r.buffer → r'.scan.calls = r.scan.calls → good (.over (.exhausted 0)) r')
    (hfilled : ∀ expected more r', expected ≠ [] →
      recognizer.terminalsExpected r.recognizer = .ok expected r'.recognizer →
      Buffer.refill r.buffer = .ok more r'.buffer → r'.scan.calls = r.scan.calls →
      good (.next (.matching expected)) r')
    (hunasked : ∀ fault r', recognizer.terminalsExpected r.recognizer = .error fault r'.recognizer →
      r'.scan = r.scan → bad fault r')
    (hunfilled : ∀ expected fault r', expected ≠ [] →
      recognizer.terminalsExpected r.recognizer = .ok expected r'.recognizer →
      Buffer.refill r.buffer = .error fault r'.buffer → r'.scan.calls = r.scan.calls →
      bad fault r') :
    (begin recognizer r).Meets good bad := by
  cases hbegin : begin recognizer r with
  | ok progress r' =>
    obtain ⟨expected, hexpect, hcalls, ⟨rfl, rfl, hbuffer⟩ | ⟨hne, rfl, more, hrefill⟩⟩ :=
      begin_eq_ok hbegin
    · exact hidle r' hexpect hbuffer hcalls
    · exact hfilled expected more r' hne hexpect hrefill hcalls
  | error fault r' =>
    obtain ⟨hexpect, hscan⟩ | ⟨expected, hne, hexpect, hrefill, hcalls⟩ := begin_eq_error hbegin
    · exact hunasked fault r' hexpect hscan
    · exact hunfilled expected fault r' hne hexpect hrefill hcalls

/-- What is known of both lists is known of a move. -/
theorem move_meets {good : Point → Run ρ → Prop} {bad : Fault → Run ρ → Prop} {point : Point}
    {r : Run ρ}
    (hmoved : ∀ point' r', Moved lexer recognizer point r point' r' → good point' r')
    (hstopped : ∀ fault r', Stopped lexer recognizer point r fault r' → bad fault r') :
    (lexer.move recognizer point r).Meets good bad := by
  cases hmove : lexer.move recognizer point r with
  | ok point' r' => exact hmoved point' r' (moved_of_move hmove)
  | error fault r' => exact hstopped fault r' (stopped_of_move hmove)

end Lexer

end AmbiLex
