import AmbiLex.Proofs.Token.Usable
import Mathlib.Tactic.Push
import Mathlib.Tactic.SplitIfs

/-!
# What a definition stands for

The definition of a token can be anything that a user wrote. It says what to match, and it may have
a store mode for itself; a dictionary says both under its keys, and any other setting says only what
to match. With that a definition either stands for a token (`TokenSpec.CompiledFrom`) or has a first
mistake (`Setting.Rejected`), and not both.

It is a mistake first of all to say nothing about what to match. Then the store mode is looked at,
and only then what is to be matched. An encoder that the user brought along ready-made is taken as
it is, even if it cannot store anything. Every other one is complete, and fails only if its callback
does (`Encoder.encode_fails`).
-/

namespace AmbiLex

/-! ## Store modes -/

/-- **A setting that resolves** to an encoder. -/
def Setting.Resolves (store : Setting) : Prop :=
  ∃ encoder, Encoder.resolve store = .ok encoder

/-- **An encoder that is complete**: it stores values in a known way, and has a callback if it is to
ask one. -/
def Encoder.Complete : Encoder → Prop
  | .known .custom none | .unknown _ => False
  | .known _ _ => True

/-- **A setting that brings along no encoder that is incomplete.** -/
def Setting.Complete (store : Setting) : Prop :=
  ∀ encoder, store = .encoder encoder → encoder.Complete

/-- The mode that asks a callback has no spelling. -/
theorem StoreMode.ne_custom_of_spelled {spelling : String} {mode : StoreMode}
    (h : ofSpelling? spelling = some mode) : mode ≠ .custom := by
  rintro rfl
  simp only [ofSpelling?, spellings, Keyed.get?_cons, Keyed.get?_nil] at h
  split_ifs at h <;> cases h

namespace Encoder

/-- **What does not resolve is an unknown store mode**, and is shown as it was given. -/
theorem resolve_of_not_resolves {store : Setting} (h : ¬ store.Resolves) :
    resolve store = .error (.unknownStore store.shown) := by
  unfold Setting.Resolves at h
  fun_cases resolve store <;> simp_all [resolve, Setting.shown, Plain.shown]

/-- A mode that asks no callback needs none. -/
theorem complete_known {mode : StoreMode} (h : mode ≠ .custom) : (known mode none).Complete := by
  cases mode with
  | custom => exact h rfl
  | _ => exact trivial

/-- **What is not brought along ready-made is complete.** -/
theorem complete_of_resolve {store : Setting} {encoder : Encoder} (hstore : store.Complete)
    (h : resolve store = .ok encoder) : encoder.Complete := by
  unfold resolve at h
  split at h
  · cases h
    exact hstore _ rfl
  · cases h
    exact trivial
  · split at h
    · rename_i hspelled
      cases h
      exact complete_known (StoreMode.ne_custom_of_spelled hspelled)
    · cases h
  · cases h
  · rename_i mode hmode
    cases h
    exact complete_known hmode
  · cases h

/-- **An encoder that is complete fails only by its callback.** -/
theorem encode_fails {encoder : Encoder} (hc : encoder.Complete) {token : String}
    {text : List Char} {calls calls' : List Call} {fault : Fault}
    (h : encoder.encode token text calls = .error fault calls') :
    ∃ callback, encoder = known .custom (some callback)
      ∧ callback.answer calls token text = .error fault := by
  unfold encode at h
  split at h
  · cases h
  · cases h
  · cases h
  · cases h
  · exact hc.elim
  · rename_i callback
    refine ⟨callback, rfl, ?_⟩
    dsimp only at h
    cases hanswer : callback.answer calls token text with
    | ok value =>
      rw [hanswer] at h
      cases h
    | error fault' =>
      rw [hanswer] at h
      cases h
      rfl
  · exact hc.elim

end Encoder

/-! ## What a definition says -/

namespace Setting

/-- **What a definition says to match**: what a dictionary has under `match`, and otherwise the
definition itself. -/
def subject? (definition : Setting) : Option Setting :=
  match definition.entries? with
  | none => some definition
  | some data => data.get? "match"

/-- **The store mode that a definition has for itself**, if it gives one that is not the absent
value. -/
def ownStore? (definition : Setting) : Option Setting :=
  (definition.entries?.bind fun data => data.get? "store").filter fun own => !own.isNull

/-- **A setting that can be matched**: a string that is not empty, or a pattern. -/
def Matchable (subject : Setting) : Prop :=
  (∃ s, subject = text s ∧ s ≠ "") ∨ ∃ p, subject = pattern p

/-- **The target that a setting stands for.** -/
inductive Stands : Setting → Target → Prop
  /-- A string of one character is looked for as a single character. -/
  | singleChar {s : String} (hone : s.length = 1) : Stands (text s) (.singleChar s.toList)
  /-- A longer string is looked for as a literal. -/
  | literal {s : String} (hlong : 2 ≤ s.length) : Stands (text s) (.literal s.toList)
  /-- A pattern is looked for as it is. -/
  | pattern (p : Pattern) : Stands (pattern p) (.pattern p)

/-- **A definition that can be used.** -/
structure Valid (definition : Setting) : Prop where
  /-- It says what to match, and that can be matched. -/
  matchable : ∃ subject, definition.subject? = some subject ∧ subject.Matchable
  /-- Its own store mode is known, if it has one. -/
  resolves : ∀ own, definition.ownStore? = some own → own.Resolves

/-- **The first mistake of a definition.** -/
inductive Rejected (name : String) (definition : Setting) : Fault → Prop
  /-- It is a dictionary that does not say what to match. -/
  | noMatchEntry (hnone : definition.subject? = none) :
    Rejected name definition (.noMatchEntry name)
  /-- It says what to match, but its own store mode is unknown. -/
  | unknownStore {subject own : Setting} (hsubject : definition.subject? = some subject)
    (hown : definition.ownStore? = some own) (hbad : ¬ own.Resolves) :
    Rejected name definition (.unknownStore own.shown)
  /-- What it says to match is neither a string nor a pattern. -/
  | notMatchable {subject : Setting} (hsubject : definition.subject? = some subject)
    (hstore : ∀ own, definition.ownStore? = some own → own.Resolves)
    (htext : ∀ s, subject ≠ text s) (hpattern : ∀ p, subject ≠ pattern p) :
    Rejected name definition (.notMatchable name subject.shown)
  /-- What it says to match is the empty string. -/
  | emptyLiteral (hsubject : definition.subject? = some (text ""))
    (hstore : ∀ own, definition.ownStore? = some own → own.Resolves) :
    Rejected name definition (.emptyLiteral name)

/-- What stands for a target can be matched, and the other way round. -/
theorem matchable_iff_stands {subject : Setting} :
    subject.Matchable ↔ ∃ target, subject.Stands target := by
  constructor
  · rintro (⟨s, rfl, hne⟩ | ⟨p, rfl⟩)
    · have hlength : s.length ≠ 0 := fun h => hne (String.length_eq_zero_iff.mp h)
      by_cases hone : s.length = 1
      · exact ⟨_, .singleChar hone⟩
      · exact ⟨_, .literal (by omega)⟩
    · exact ⟨_, .pattern p⟩
  · rintro ⟨_, hone | hlong | p⟩
    · refine .inl ⟨_, rfl, ?_⟩
      rintro rfl
      cases hone
    · refine .inl ⟨_, rfl, ?_⟩
      rintro rfl
      cases hlong
    · exact .inr ⟨p, rfl⟩

end Setting

/-! ## Compiling a definition -/

namespace TokenSpec

variable {default encoder : Encoder} {name : String} {definition subject : Setting}
  {spec : TokenSpec} {fault : Fault}

/-- **A token as its definition has it.** -/
structure CompiledFrom (default : Encoder) (name : String) (definition : Setting)
    (spec : TokenSpec) : Prop where
  /-- It has the name that was defined. -/
  name_eq : spec.name = name
  /-- It looks for what the definition says to match. -/
  stands : ∃ subject, definition.subject? = some subject ∧ subject.Stands spec.target
  /-- It stores values in the definition's own way. -/
  own : ∀ own, definition.ownStore? = some own → Encoder.resolve own = .ok spec.encoder
  /-- It stores them in the default way if the definition has none of its own. -/
  default_eq : definition.ownStore? = none → spec.encoder = default

/-- The encoder of a definition's own store mode, or else the default. -/
def ownEncoder (default : Encoder) (definition : Setting) : Except Fault Encoder :=
  match definition.ownStore? with
  | none => .ok default
  | some own => Encoder.resolve own

/-- **A definition is compiled by what it says to match and its own store mode.** -/
theorem compile_eq (default : Encoder) (name : String) (definition : Setting) :
    compile default name definition = match definition.subject? with
      | none => .error (.noMatchEntry name)
      | some subject =>
        ownEncoder default definition >>= fun encoder => ofSubject name encoder subject := by
  unfold compile ownEncoder Setting.subject? Setting.ownStore?
  cases definition.entries? with
  | none => rfl
  | some data =>
    dsimp only
    cases data.get? "match" with
    | none => rfl
    | some subject =>
      unfold encoderOf
      dsimp only [Option.bind_some]
      cases data.get? "store" with
      | none => rfl
      | some own => cases hnull : own.isNull <;> simp [Option.filter, hnull]

/-- What stands for a target is compiled to it. -/
theorem ofSubject_of_stands {target : Target} (h : subject.Stands target) :
    ofSubject name encoder subject = .ok ⟨name, target, encoder⟩ := by
  cases h with
  | @singleChar s hone =>
    have htarget : Target.ofText s.toList = .singleChar s.toList :=
      if_pos (String.length_toList.trans hone)
    simp only [ofSubject, Target.ofSetting?, Setting.text, htarget]
    rfl
  | @literal s hlong =>
    have htarget : Target.ofText s.toList = .literal s.toList :=
      if_neg fun hone => by
        rw [String.length_toList] at hone
        omega
    have hne : s.toList ≠ [] := by
      rw [ne_eq, String.toList_eq_nil_iff]
      rintro rfl
      cases hlong
    simp only [ofSubject, Target.ofSetting?, Setting.text, htarget]
    unfold ofTarget
    split
    · rename_i hnil
      exact absurd (Target.literal.inj hnil) hne
    · rfl
  | pattern p => rfl

theorem ownEncoder_eq_ok_iff : ownEncoder default definition = .ok encoder
    ↔ (∀ own, definition.ownStore? = some own → Encoder.resolve own = .ok encoder)
      ∧ (definition.ownStore? = none → encoder = default) := by
  unfold ownEncoder
  cases definition.ownStore? with
  | none => simp [eq_comm]
  | some own => simp

theorem ownEncoder_of_resolves (default : Encoder)
    (h : ∀ own, definition.ownStore? = some own → own.Resolves) :
    ∃ encoder, ownEncoder default definition = .ok encoder := by
  unfold ownEncoder
  cases hown : definition.ownStore? with
  | none => exact ⟨default, rfl⟩
  | some own => exact h own hown

/-- **A token as its definition has it is what is compiled.** -/
theorem compile_of_compiledFrom (h : CompiledFrom default name definition spec) :
    compile default name definition = .ok spec := by
  obtain ⟨rfl, ⟨subject, hsubject, hstands⟩, hown, hdefault⟩ := h
  rw [compile_eq, hsubject, ownEncoder_eq_ok_iff.mpr ⟨hown, hdefault⟩]
  exact ofSubject_of_stands hstands

/-- **The first mistake of a definition is the fault with which it is not compiled.** -/
theorem compile_of_rejected (h : definition.Rejected name fault) :
    compile default name definition = .error fault := by
  rw [compile_eq]
  cases h with
  | noMatchEntry hnone => rw [hnone]
  | unknownStore hsubject hown hbad =>
    rw [hsubject, ownEncoder, hown]
    dsimp only
    rw [Encoder.resolve_of_not_resolves hbad]
    rfl
  | @notMatchable subject hsubject hstore htext hpattern =>
    obtain ⟨encoder, hencoder⟩ := ownEncoder_of_resolves default hstore
    rw [hsubject, hencoder]
    have htarget : Target.ofSetting? subject = none := by
      unfold Target.ofSetting?
      split
      · exact absurd rfl (htext _)
      · exact absurd rfl (hpattern _)
      · rfl
    change ofSubject name encoder subject = _
    rw [ofSubject, htarget]
  | emptyLiteral hsubject hstore =>
    obtain ⟨encoder, hencoder⟩ := ownEncoder_of_resolves default hstore
    rw [hsubject, hencoder]
    rfl

/-- A definition that can be used stands for a token. -/
theorem exists_compiledFrom (default : Encoder) (name : String) (h : definition.Valid) :
    ∃ spec, CompiledFrom default name definition spec := by
  obtain ⟨⟨subject, hsubject, hmatchable⟩, hstore⟩ := h
  obtain ⟨target, hstands⟩ := Setting.matchable_iff_stands.mp hmatchable
  obtain ⟨encoder, hencoder⟩ := ownEncoder_of_resolves default hstore
  obtain ⟨hown, hdefault⟩ := ownEncoder_eq_ok_iff.mp hencoder
  exact ⟨⟨name, target, encoder⟩, rfl, ⟨subject, hsubject, hstands⟩, hown, hdefault⟩

/-- Only a definition that can be used stands for a token. -/
theorem valid_of_compiledFrom (h : CompiledFrom default name definition spec) :
    definition.Valid := by
  obtain ⟨-, ⟨subject, hsubject, hstands⟩, hown, -⟩ := h
  exact ⟨⟨subject, hsubject, Setting.matchable_iff_stands.mpr ⟨_, hstands⟩⟩,
    fun own ho => ⟨_, hown own ho⟩⟩

/-- A definition with a mistake cannot be used. -/
theorem not_valid_of_rejected (h : definition.Rejected name fault) : ¬ definition.Valid := by
  intro hvalid
  obtain ⟨spec, hspec⟩ := exists_compiledFrom (.known .struct none) name hvalid
  cases (compile_of_compiledFrom hspec).symm.trans (compile_of_rejected h)

/-- A definition that cannot be used has a first mistake. -/
theorem exists_rejected (name : String) (h : ¬ definition.Valid) :
    ∃ fault, definition.Rejected name fault := by
  cases hsubject : definition.subject? with
  | none => exact ⟨_, .noMatchEntry hsubject⟩
  | some subject =>
    by_cases hstore : ∀ own, definition.ownStore? = some own → own.Resolves
    · have hmatchable : ¬ subject.Matchable := fun hm => h ⟨⟨subject, hsubject, hm⟩, hstore⟩
      by_cases htext : ∃ s, subject = .text s
      · obtain ⟨s, rfl⟩ := htext
        obtain rfl : s = "" := by_contra fun hne => hmatchable (.inl ⟨s, rfl, hne⟩)
        exact ⟨_, .emptyLiteral hsubject hstore⟩
      · exact ⟨_, .notMatchable hsubject hstore (fun s hs => htext ⟨s, hs⟩)
          fun p hp => hmatchable (.inr ⟨p, hp⟩)⟩
    · push Not at hstore
      obtain ⟨own, hown, hbad⟩ := hstore
      exact ⟨_, .unknownStore hsubject hown hbad⟩

/-- **What is compiled from a definition is the token that it stands for.** -/
theorem compile_eq_ok_iff :
    compile default name definition = .ok spec ↔ CompiledFrom default name definition spec := by
  refine ⟨fun h => ?_, compile_of_compiledFrom⟩
  by_cases hvalid : definition.Valid
  · obtain ⟨spec', hspec'⟩ := exists_compiledFrom default name hvalid
    obtain rfl : spec' = spec := Except.ok.inj ((compile_of_compiledFrom hspec').symm.trans h)
    exact hspec'
  · obtain ⟨fault, hfault⟩ := exists_rejected name hvalid
    cases (compile_of_rejected hfault).symm.trans h

/-- **The fault with which a definition is not compiled is its first mistake.** -/
theorem compile_eq_error_iff :
    compile default name definition = .error fault ↔ definition.Rejected name fault := by
  refine ⟨fun h => ?_, compile_of_rejected⟩
  by_cases hvalid : definition.Valid
  · obtain ⟨spec, hspec⟩ := exists_compiledFrom default name hvalid
    cases (compile_of_compiledFrom hspec).symm.trans h
  · obtain ⟨fault', hfault'⟩ := exists_rejected name hvalid
    obtain rfl : fault' = fault := Except.error.inj ((compile_of_rejected hfault').symm.trans h)
    exact hfault'

/-- **A definition is compiled exactly if it can be used.** -/
theorem exists_compile_eq_ok_iff (default : Encoder) (name : String) :
    (∃ spec, compile default name definition = .ok spec) ↔ definition.Valid := by
  simp only [compile_eq_ok_iff]
  exact ⟨fun ⟨_, h⟩ => valid_of_compiledFrom h, exists_compiledFrom default name⟩

end TokenSpec

end AmbiLex
