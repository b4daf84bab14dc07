/-!
# Work that may fail

Looking for a token, storing a value, asking a recognizer: all of this is work on a state. It gives
an answer or stops with a fault, and it leaves a state either way. This module fixes how such work
is spoken about.

There are two ways. `Meets` says of one piece of work what its answer and the state it leaves are
like, and what a state left behind by a fault is like. `Agrees` says of two pieces of work that they
give the same answer or stop with the same fault, and how the states they leave are related. Both
follow the sequence of the work (`meets_bind`, `agrees_bind`), so a long piece of work is dealt with
by dealing with its steps, and nothing of it is unfolded. Where work touches only a part of the
state, its result on that part is seen `within` the whole.
-/

namespace EStateM

variable {ε σ τ α β : Type}

namespace Result

/-- **What work comes to**, apart from the state it leaves: its answer or its fault. -/
def answer : Result ε σ α → Except ε α
  | .ok a _ => .ok a
  | .error e _ => .error e

/-- **The state that work leaves**, whether it gave an answer or not. -/
def left : Result ε σ α → σ
  | .ok _ s => s
  | .error _ s => s

/-- An answer was given with the state that is left. -/
theorem eq_ok_of_toOption {x : Result ε σ α} {a : α} (h : x.answer.toOption = some a) :
    x = .ok a x.left := by
  cases x with
  | ok b s =>
    cases h
    rfl
  | error e s => cases h

/-- No answer was given, so there was a fault. -/
theorem exists_error_of_toOption {x : Result ε σ α} (h : x.answer.toOption = none) :
    ∃ e, x = .error e x.left := by
  cases x with
  | ok a s => cases h
  | error e s => exact ⟨e, rfl⟩

/-- **What is known of a result**: `good` of an answer and its state, `bad` of a fault and its
state. -/
def Meets (good : α → σ → Prop) (bad : ε → σ → Prop) : Result ε σ α → Prop
  | .ok a s => good a s
  | .error e s => bad e s

/-- **Two results agree**: they are the same answer, or the same fault, and the states are
related. -/
def Agrees (rel : α → σ → τ → Prop) (fail : σ → τ → Prop) :
    Result ε σ α → Result ε τ α → Prop
  | .ok a s, .ok b t => a = b ∧ rel a s t
  | .error e s, .error f t => e = f ∧ fail s t
  | _, _ => False

/-- Knowing more of a result is knowing less of it. -/
theorem Meets.mono {good good' : α → σ → Prop} {bad bad' : ε → σ → Prop} {x : Result ε σ α}
    (h : x.Meets good bad) (hgood : ∀ a s, good a s → good' a s)
    (hbad : ∀ e s, bad e s → bad' e s) : x.Meets good' bad' := by
  cases x with
  | ok a s => exact hgood a s h
  | error e s => exact hbad e s h

/-- What is known of a result in two ways is known together. -/
theorem Meets.and {good good' : α → σ → Prop} {bad bad' : ε → σ → Prop} {x : Result ε σ α}
    (h : x.Meets good bad) (h' : x.Meets good' bad') :
    x.Meets (fun a s => good a s ∧ good' a s) (fun e s => bad e s ∧ bad' e s) := by
  cases x with
  | ok a s => exact ⟨h, h'⟩
  | error e s => exact ⟨h, h'⟩

/-- What is known of a result is known of the answer that was given. -/
theorem Meets.of_ok {good : α → σ → Prop} {bad : ε → σ → Prop} {x : Result ε σ α} {a : α} {s : σ}
    (h : x.Meets good bad) (hx : x = .ok a s) : good a s := by
  rw [hx] at h
  exact h

/-- What is known of a result is known of the fault that it stopped with. -/
theorem Meets.of_error {good : α → σ → Prop} {bad : ε → σ → Prop} {x : Result ε σ α} {e : ε} {s : σ}
    (h : x.Meets good bad) (hx : x = .error e s) : bad e s := by
  rw [hx] at h
  exact h

/-- **Work that does not fail gives an answer.** -/
theorem Meets.exists_ok {good : α → σ → Prop} {x : Result ε σ α}
    (h : x.Meets good fun _ _ => False) : ∃ a s, x = .ok a s ∧ good a s := by
  cases x with
  | ok a s => exact ⟨a, s, rfl, h⟩
  | error e s => exact h.elim

/-- **Work that says what something else says gives an answer if that does.** -/
theorem Meets.exists_ok_of {said : Except ε α} {good : α → σ → Prop} {x : Result ε σ α}
    (h : x.Meets (fun a s => said = .ok a ∧ good a s) fun e _ => said = .error e) {a : α}
    (ha : said = .ok a) : ∃ s, x = .ok a s ∧ good a s := by
  cases x with
  | ok b s =>
    obtain rfl := Except.ok.inj (ha.symm.trans h.1)
    exact ⟨s, rfl, h.2⟩
  | error e s => exact nomatch ha.symm.trans h

/-- **The two ways in which results agree.** -/
theorem agrees_iff {rel : α → σ → τ → Prop} {fail : σ → τ → Prop} {x : Result ε σ α}
    {y : Result ε τ α} :
    x.Agrees rel fail y ↔ (∃ a s t, x = .ok a s ∧ y = .ok a t ∧ rel a s t)
      ∨ ∃ e s t, x = .error e s ∧ y = .error e t ∧ fail s t := by
  constructor
  · intro h
    cases x with
    | ok a s =>
      cases y with
      | ok b t =>
        obtain ⟨rfl, hrel⟩ := h
        exact .inl ⟨a, s, t, rfl, rfl, hrel⟩
      | error f t => exact h.elim
    | error e s =>
      cases y with
      | ok b t => exact h.elim
      | error f t =>
        obtain ⟨rfl, hfail⟩ := h
        exact .inr ⟨e, s, t, rfl, rfl, hfail⟩
  · rintro (⟨a, s, t, rfl, rfl, h⟩ | ⟨e, s, t, rfl, rfl, h⟩)
    · exact ⟨rfl, h⟩
    · exact ⟨rfl, h⟩

/-- Related states may be related in a weaker way. -/
theorem Agrees.mono {rel rel' : α → σ → τ → Prop} {fail fail' : σ → τ → Prop}
    {x : Result ε σ α} {y : Result ε τ α} (h : x.Agrees rel fail y)
    (hrel : ∀ a s t, rel a s t → rel' a s t) (hfail : ∀ s t, fail s t → fail' s t) :
    x.Agrees rel' fail' y := by
  obtain ⟨a, s, t, rfl, rfl, hst⟩ | ⟨e, s, t, rfl, rfl, hst⟩ := agrees_iff.mp h
  · exact ⟨rfl, hrel a s t hst⟩
  · exact ⟨rfl, hfail s t hst⟩

/-- What is known of one of two results that agree is known of the state it leaves. -/
theorem Agrees.and_left {rel : α → σ → τ → Prop} {fail : σ → τ → Prop} {P : α → σ → Prop}
    {x : Result ε σ α} {y : Result ε τ α} (h : x.Agrees rel fail y)
    (hx : ∀ a s, x = .ok a s → P a s) : x.Agrees (fun a s t => P a s ∧ rel a s t) fail y := by
  obtain ⟨a, s, t, rfl, rfl, hst⟩ | ⟨e, s, t, rfl, rfl, hst⟩ := agrees_iff.mp h
  · exact ⟨rfl, hx a s rfl, hst⟩
  · exact ⟨rfl, hst⟩

/-- **Two results agree if both say the same of something else.** -/
theorem Meets.agrees {said : Except ε α} {good : α → σ → Prop} {good' : α → τ → Prop}
    {x : Result ε σ α} {y : Result ε τ α}
    (hx : x.Meets (fun a s => said = .ok a ∧ good a s) fun e _ => said = .error e)
    (hy : y.Meets (fun a t => said = .ok a ∧ good' a t) fun e _ => said = .error e) :
    x.Agrees (fun a s t => good a s ∧ good' a t) (fun _ _ => True) y := by
  cases x with
  | ok a s =>
    cases y with
    | ok b t =>
      obtain rfl := Except.ok.inj (hx.1.symm.trans hy.1)
      exact ⟨rfl, hx.2, hy.2⟩
    | error f t => exact nomatch hx.1.symm.trans hy
  | error e s =>
    cases y with
    | ok b t => exact nomatch hx.symm.trans hy.1
    | error f t => exact ⟨Except.error.inj (hx.symm.trans hy), trivial⟩

/-- A result agrees with itself. -/
theorem Agrees.refl (x : Result ε σ α) : x.Agrees (fun _ => Eq) Eq x := by
  cases x with
  | ok a s => exact ⟨rfl, rfl⟩
  | error e s => exact ⟨rfl, rfl⟩

/-- Results that agree come to the same. -/
theorem Agrees.answer_eq {rel : α → σ → τ → Prop} {fail : σ → τ → Prop}
    {x : Result ε σ α} {y : Result ε τ α} (h : x.Agrees rel fail y) : x.answer = y.answer := by
  obtain ⟨a, s, t, rfl, rfl, -⟩ | ⟨e, s, t, rfl, rfl, -⟩ := agrees_iff.mp h
  · rfl
  · rfl

/-- Results that agree are the same if related states are. -/
theorem Agrees.eq {rel : α → σ → σ → Prop} {fail : σ → σ → Prop} {x y : Result ε σ α}
    (h : x.Agrees rel fail y) (hrel : ∀ a s t, rel a s t → s = t)
    (hfail : ∀ s t, fail s t → s = t) :
    x = y := by
  obtain ⟨a, s, t, rfl, rfl, hst⟩ | ⟨e, s, t, rfl, rfl, hst⟩ := agrees_iff.mp h
  · rw [hrel a s t hst]
  · rw [hfail s t hst]

/-- What holds of the related states holds of the states that are left. -/
theorem Agrees.left {rel : α → σ → τ → Prop} {fail : σ → τ → Prop}
    {x : Result ε σ α} {y : Result ε τ α} (h : x.Agrees rel fail y)
    (hrel : ∀ a s t, rel a s t → fail s t) : fail x.left y.left := by
  obtain ⟨a, s, t, rfl, rfl, hst⟩ | ⟨e, s, t, rfl, rfl, hst⟩ := agrees_iff.mp h
  · exact hrel a s t hst
  · exact hst

/-! ## Work on a part -/

/-- **The result of work on a part of a state**, as a result of work on the whole. -/
def within (whole : σ → τ) : Result ε σ α → Result ε τ α
  | .ok a s => .ok a (whole s)
  | .error e s => .error e (whole s)

/-- An answer to work on a part is one to work on the whole. -/
theorem within_eq_ok {whole : σ → τ} {x : Result ε σ α} {a : α} {t : τ}
    (h : x.within whole = .ok a t) : ∃ s, x = .ok a s ∧ t = whole s := by
  cases x with
  | ok b s =>
    cases h
    exact ⟨s, rfl, rfl⟩
  | error e s => cases h

/-- A fault of work on a part is one of work on the whole. -/
theorem within_eq_error {whole : σ → τ} {x : Result ε σ α} {e : ε} {t : τ}
    (h : x.within whole = .error e t) : ∃ s, x = .error e s ∧ t = whole s := by
  cases x with
  | ok b s => cases h
  | error e' s =>
    cases h
    exact ⟨s, rfl, rfl⟩

/-- **Work on parts agrees if it agrees on the parts.** -/
theorem Agrees.within {σ' τ' : Type} {mid : α → σ → τ → Prop} {fail : σ → τ → Prop}
    {rel : α → σ' → τ' → Prop} {fail' : σ' → τ' → Prop} {whole : σ → σ'} {whole' : τ → τ'}
    {x : Result ε σ α} {y : Result ε τ α} (h : x.Agrees mid fail y)
    (hrel : ∀ a s t, mid a s t → rel a (whole s) (whole' t))
    (hfail : ∀ s t, fail s t → fail' (whole s) (whole' t)) :
    (x.within whole).Agrees rel fail' (y.within whole') := by
  obtain ⟨a, s, t, rfl, rfl, hst⟩ | ⟨e, s, t, rfl, rfl, hst⟩ := agrees_iff.mp h
  · exact ⟨rfl, hrel a s t hst⟩
  · exact ⟨rfl, hfail s t hst⟩

end Result

/-! ## One piece of work after the other -/

/-- Looking at the state does not change it. -/
@[simp] theorem get_bind (f : σ → EStateM ε σ β) (s : σ) : (get >>= f) s = f s s := rfl

/-- After an answer the sequence goes on. -/
theorem bind_apply_of_ok {x : EStateM ε σ α} {f : α → EStateM ε σ β} {s s' : σ} {a : α}
    (h : x s = .ok a s') : (x >>= f) s = f a s' := by
  show EStateM.bind x f s = _
  unfold EStateM.bind
  rw [h]

/-- After a fault the sequence stops. -/
theorem bind_apply_of_error {x : EStateM ε σ α} {f : α → EStateM ε σ β} {s s' : σ} {e : ε}
    (h : x s = .error e s') : (x >>= f) s = .error e s' := by
  show EStateM.bind x f s = _
  unfold EStateM.bind
  rw [h]

/-- **A sequence of work follows its steps.** -/
theorem meets_bind {x : EStateM ε σ α} {f : α → EStateM ε σ β} {s : σ}
    {mid : α → σ → Prop} {good : β → σ → Prop} {bad : ε → σ → Prop}
    (hx : (x s).Meets mid bad) (hf : ∀ a s', mid a s' → (f a s').Meets good bad) :
    ((x >>= f) s).Meets good bad := by
  cases hr : x s with
  | ok a s' =>
    rw [bind_apply_of_ok hr]
    exact hf a s' (hx.of_ok hr)
  | error e s' =>
    rw [bind_apply_of_error hr]
    rw [hr] at hx
    exact hx

/-- **Two sequences of work agree if their steps do.** -/
theorem agrees_bind {x : EStateM ε σ α} {f : α → EStateM ε σ β} {y : EStateM ε τ α}
    {g : α → EStateM ε τ β} {s : σ} {t : τ} {mid : α → σ → τ → Prop}
    {rel : β → σ → τ → Prop} {fail : σ → τ → Prop}
    (hx : (x s).Agrees mid fail (y t))
    (hf : ∀ a s' t', mid a s' t' → (f a s').Agrees rel fail (g a t')) :
    ((x >>= f) s).Agrees rel fail ((y >>= g) t) := by
  obtain ⟨a, s', t', hs, ht, hmid⟩ | ⟨e, s', t', hs, ht, hfail⟩ := Result.agrees_iff.mp hx
  · rw [bind_apply_of_ok hs, bind_apply_of_ok ht]
    exact hf a s' t' hmid
  · rw [bind_apply_of_error hs, bind_apply_of_error ht]
    exact ⟨rfl, hfail⟩

/-- Work that gave an answer did so step by step. -/
theorem bind_eq_ok {x : EStateM ε σ α} {f : α → EStateM ε σ β} {s s' : σ} {b : β}
    (h : (x >>= f) s = .ok b s') : ∃ a s₁, x s = .ok a s₁ ∧ f a s₁ = .ok b s' := by
  change EStateM.bind x f s = .ok b s' at h
  unfold EStateM.bind at h
  cases hr : x s with
  | ok a s₁ =>
    rw [hr] at h
    exact ⟨a, s₁, rfl, h⟩
  | error e s₁ =>
    rw [hr] at h
    cases h

/-- **Work that stopped with a fault did so at one of its steps.** -/
theorem bind_eq_error {x : EStateM ε σ α} {f : α → EStateM ε σ β} {s s' : σ} {e : ε}
    (h : (x >>= f) s = .error e s') :
    x s = .error e s' ∨ ∃ a s₁, x s = .ok a s₁ ∧ f a s₁ = .error e s' := by
  cases hr : x s with
  | ok a s₁ =>
    rw [bind_apply_of_ok hr] at h
    exact .inr ⟨a, s₁, rfl, h⟩
  | error e₁ s₁ =>
    rw [bind_apply_of_error hr] at h
    cases h
    exact .inl rfl

end EStateM
