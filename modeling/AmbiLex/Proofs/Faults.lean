import Mathlib.Logic.Relation
import AmbiLex.Fault

/-!
# What it is to fall under a class

The classes of faults form a tree. Each class but the root has a parent, from which it is derived,
and a fault falls under a class if its own class is that one or is derived from it, over any number
of steps (`FaultClass.DerivesFrom`, `Fault.FallsUnder`).

The library decides this by lists. Every class has a lineage, and a class falls under those that are
in it. The lineages are the paths of the tree up to its root, each going on with the one of the
parent (`lineage_eq_cons`), so the decision is right (`under_iff`, `underAny_iff`).
-/

namespace AmbiLex

namespace FaultClass

/-- The class from which a class is derived. The root has none. -/
def parent? (c : FaultClass) : Option FaultClass :=
  c.lineage.tail.head?

/-- **A class is another, or is derived from it**, over any number of steps. -/
def DerivesFrom (c d : FaultClass) : Prop :=
  Relation.ReflTransGen (fun c d => parent? c = some d) c d

/-- **The lineage of a class goes on with that of its parent.** -/
theorem lineage_eq_cons (c : FaultClass) : c.lineage = c :: c.parent?.elim [] lineage := by
  cases c <;> rfl

/-- A class falls under those that its parent falls under, and under itself. -/
theorem under_of_parent? {c p : FaultClass} (h : c.parent? = some p) (d : FaultClass) :
    c.under d = true ↔ d = c ∨ p.under d = true := by
  rw [under, lineage_eq_cons, h, List.contains_cons, Bool.or_eq_true, beq_iff_eq]
  rfl

/-- The root falls under itself only. -/
theorem under_of_root {c d : FaultClass} (h : c.parent? = none) :
    c.under d = true ↔ d = c := by
  rw [under, lineage_eq_cons, h, List.contains_cons, Bool.or_eq_true, beq_iff_eq]
  exact or_iff_left Bool.false_ne_true

/-- **A class falls under those that it is derived from.** -/
theorem under_iff {c d : FaultClass} : c.under d = true ↔ c.DerivesFrom d := by
  constructor
  · intro h
    -- on the length of the lineage, which is that of the path to the root
    induction hlength : c.lineage.length generalizing c with
    | zero =>
      rw [lineage_eq_cons] at hlength
      cases hlength
    | succ length ih =>
      cases hparent : c.parent? with
      | none =>
        rw [(under_of_root hparent).mp h]
        exact .refl
      | some p =>
        rcases (under_of_parent? hparent d).mp h with rfl | hup
        · exact .refl
        · rw [lineage_eq_cons, hparent] at hlength
          exact .head hparent (ih hup (Nat.succ.inj hlength))
  · intro h
    induction h using Relation.ReflTransGen.head_induction_on with
    | refl => exact under_self d
    | head hparent _ ih => exact (under_of_parent? hparent d).mpr (.inr ih)

end FaultClass

namespace Fault

/-- The fault that something came to, if it came to one. -/
def ofAnswer? {α : Type} : Except Fault α → Option Fault
  | .ok _ => none
  | .error fault => some fault

/-- **A fault falls under some classes** if its own is one of them, or is derived from one. -/
def FallsUnder (fault : Fault) (classes : List FaultClass) : Prop :=
  ∃ cls ∈ classes, fault.cls.DerivesFrom cls

/-- **The library decides rightly** whether a fault falls under some classes. -/
theorem underAny_iff {fault : Fault} {classes : List FaultClass} :
    fault.underAny classes = true ↔ fault.FallsUnder classes := by
  rw [underAny, List.any_eq_true]
  exact exists_congr fun cls => and_congr_right fun _ => FaultClass.under_iff

instance (fault : Fault) (classes : List FaultClass) : Decidable (fault.FallsUnder classes) :=
  decidable_of_iff _ underAny_iff

end Fault

end AmbiLex
