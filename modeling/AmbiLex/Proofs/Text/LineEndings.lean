import AmbiLex.Text.Replace

/-!
# Line endings in pieces

Some texts end their lines with a carriage return and a line feed. `Text.unified` puts a line feed
in the place of the two. For a text that comes in pieces it matters where the pieces end: it makes
no difference to unify each piece of its own, unless an ending is *torn*, so that one piece ends
with the carriage return and the next begins with the line feed (`unified_append`). That is the only
way for an ending to escape.

Unifying need not be done after unifying once: of two carriage returns and a line feed it leaves one
carriage return and a line feed. What is said here of texts that are unified more than once is
therefore said of texts of which nothing of the kind is left, `IsUnified`.
-/

namespace AmbiLex.Text

/-- **A text with its line endings unified**: each carriage return that is followed by a line feed
is left out. -/
def unified (text : List Char) : List Char :=
  replaceAll ['\r', '\n'] ['\n'] text

/-- **An ending that is torn** between a text and the one that follows it. -/
def Tears (text more : List Char) : Prop :=
  text.getLast? = some '\r' ∧ more.head? = some '\n'

/-- **A text whose line endings are unified.** -/
def IsUnified (text : List Char) : Prop :=
  unified text = text

/-- Unifying once may leave something to unify. -/
example : unified ['\r', '\r', '\n'] = ['\r', '\n'] ∧ unified ['\r', '\n'] = ['\n'] := ⟨rfl, rfl⟩

/-! ## Torn endings -/

namespace Tears

variable {x y : List Char}

theorem not_nil_left (y : List Char) : ¬ Tears [] y := by
  rintro ⟨hlast, -⟩
  cases hlast

theorem not_nil_right (x : List Char) : ¬ Tears x [] := by
  rintro ⟨-, hhead⟩
  cases hhead

theorem not_cr_right (x y : List Char) : ¬ Tears x ('\r' :: y) := by
  rintro ⟨-, hhead⟩
  cases hhead

/-- Only the last character of the first text counts. -/
theorem cons_cons_iff {c d : Char} : Tears (c :: d :: x) y ↔ Tears (d :: x) y := by
  unfold Tears
  rw [List.getLast?_cons_cons]

/-- **The two halves of a torn ending.** -/
theorem exists_halves (h : Tears x y) : ∃ x₀ y₀, x = x₀ ++ ['\r'] ∧ y = '\n' :: y₀ := by
  obtain ⟨hlast, hhead⟩ := h
  obtain ⟨x₀, rfl⟩ := List.getLast?_eq_some_iff.mp hlast
  obtain ⟨y₀, rfl⟩ := List.head?_eq_some_iff.mp hhead
  exact ⟨x₀, y₀, rfl, rfl⟩

/-- An ending stays torn when more text follows. -/
theorem append_right (h : Tears x y) (z : List Char) : Tears x (y ++ z) := by
  obtain ⟨hlast, hhead⟩ := h
  obtain ⟨y₀, rfl⟩ := List.head?_eq_some_iff.mp hhead
  exact ⟨hlast, rfl⟩

end Tears

/-! ## Unifying character by character -/

/-- An ending becomes a line feed. -/
theorem unified_ending (rest : List Char) :
    unified ('\r' :: '\n' :: rest) = '\n' :: unified rest := rfl

/-- A character that does not begin an ending stays. -/
theorem unified_cons {c : Char} {rest : List Char} (h : ¬ Tears [c] rest) :
    unified (c :: rest) = c :: unified rest := by
  have hother : List.isPrefixOf ['\r', '\n'] (c :: rest) = false := by
    refine eq_false_of_ne_true fun hbegins => h ?_
    obtain ⟨more, hmore⟩ := List.isPrefixOf_iff_prefix.mp hbegins
    cases hmore
    exact ⟨rfl, rfl⟩
  show replaceFrom ['\r', '\n'] ['\n'] 0 (c :: rest) = _
  rw [replaceFrom, hother]
  rfl

/-- **Going through a text, ending by ending.** -/
@[elab_as_elim]
theorem unified_induction {P : List Char → Prop} (nil : P [])
    (ending : ∀ rest, P rest → P ('\r' :: '\n' :: rest))
    (other : ∀ c rest, ¬ Tears [c] rest → P rest → P (c :: rest)) : ∀ text, P text
  | [] => nil
  | [c] => other c [] (Tears.not_nil_right [c]) nil
  | c :: d :: rest => by
    by_cases h : Tears [c] (d :: rest)
    · obtain ⟨hc, hd⟩ := h
      cases hc
      cases hd
      exact ending rest (unified_induction nil ending other rest)
    · exact other c (d :: rest) h (unified_induction nil ending other (d :: rest))

/-- Unifying makes no text longer. -/
theorem length_unified_le (text : List Char) : (unified text).length ≤ text.length := by
  induction text using unified_induction with
  | nil => exact Nat.le_refl 0
  | ending rest ih =>
    rw [unified_ending, List.length_cons, List.length_cons, List.length_cons]
    omega
  | other c rest h ih =>
    rw [unified_cons h, List.length_cons, List.length_cons]
    omega

/-- The last character stays. -/
theorem getLast?_unified (text : List Char) : (unified text).getLast? = text.getLast? := by
  induction text using unified_induction with
  | nil => rfl
  | ending rest ih => rw [unified_ending, List.getLast?_cons, ih, List.getLast?_cons_cons,
      List.getLast?_cons]
  | other c rest h ih => rw [unified_cons h, List.getLast?_cons, ih, List.getLast?_cons]

/-! ## Pieces -/

/-- **The pieces of a text can be unified one by one** if no ending is torn between them. -/
theorem unified_append {x y : List Char} (h : ¬ Tears x y) :
    unified (x ++ y) = unified x ++ unified y := by
  induction x using unified_induction with
  | nil => rfl
  | ending rest ih =>
    have hrest : ¬ Tears rest y := by
      cases rest with
      | nil => exact Tears.not_nil_left y
      | cons d rest =>
        exact fun htears => h (Tears.cons_cons_iff.mpr (Tears.cons_cons_iff.mpr htears))
    show unified ('\r' :: '\n' :: (rest ++ y)) = _
    rw [unified_ending, unified_ending, ih hrest]
    rfl
  | other c rest hc ih =>
    rw [List.cons_append]
    cases rest with
    | nil =>
      rw [unified_cons hc]
      exact unified_cons h
    | cons d rest =>
      have hbegins : ¬ Tears [c] (d :: rest ++ y) := fun htears => hc htears
      rw [unified_cons hbegins, unified_cons hc,
        ih fun htears => h (Tears.cons_cons_iff.mpr htears)]
      rfl

/-- **An ending that is torn** is found again where the pieces are put together. -/
theorem unified_append_ending (x y : List Char) :
    unified (x ++ '\r' :: '\n' :: y) = unified x ++ '\n' :: unified y := by
  rw [unified_append (Tears.not_cr_right x _), unified_ending]

/-- Behind a carriage return the text ends. -/
theorem unified_append_cr (x : List Char) : unified (x ++ ['\r']) = unified x ++ ['\r'] :=
  unified_append (Tears.not_cr_right x [])

namespace IsUnified

variable {x y z : List Char}

/-- **Where line endings are unified none is torn.** -/
theorem not_tears (h : IsUnified (x ++ y)) : ¬ Tears x y := by
  intro htears
  obtain ⟨x₀, y₀, rfl, rfl⟩ := htears.exists_halves
  -- the carriage return would have been left out
  have hlength := congrArg List.length h
  rw [List.append_assoc, List.singleton_append, unified_append_ending] at hlength
  simp only [List.length_append, List.length_cons] at hlength
  have hx := length_unified_le x₀
  have hy := length_unified_le y₀
  omega

/-- **The pieces of a text whose line endings are unified** are such texts. -/
theorem of_append (h : IsUnified (x ++ y)) : IsUnified x ∧ IsUnified y := by
  have hpieces : unified x ++ unified y = x ++ y := (unified_append h.not_tears).symm.trans h
  have hlength := congrArg List.length hpieces
  rw [List.length_append, List.length_append] at hlength
  have hx := length_unified_le x
  have hy := length_unified_le y
  exact List.append_inj hpieces (by omega)

/-- A carriage return at the end does no harm. -/
theorem append_cr (h : IsUnified x) : IsUnified (x ++ ['\r']) := by
  rw [IsUnified, unified_append_cr, h]

end IsUnified

/-- **A beginning that stays as it is** is followed by the rest, unified of its own, and no ending
is torn there. -/
theorem unified_of_beginning {x y z : List Char} (hx : IsUnified x)
    (h : unified (x ++ y) = x ++ z) : ¬ Tears x y ∧ unified y = z := by
  have hwhole : ¬ Tears x y := by
    intro htears
    obtain ⟨x₀, y₀, rfl, rfl⟩ := htears.exists_halves
    -- a line feed would stand in the place of the carriage return
    rw [List.append_assoc, List.append_assoc, List.singleton_append, unified_append_ending,
      hx.of_append.1] at h
    cases List.append_cancel_left h
  refine ⟨hwhole, List.append_cancel_left (?_ : x ++ unified y = x ++ z)⟩
  rw [← h, unified_append hwhole, hx]

/-- **A piece that was unified before** is unified together with what follows it, if nothing is left
to unify then. -/
theorem unified_unified_append {x y : List Char} (h : IsUnified (unified (x ++ y))) :
    unified (unified x ++ y) = unified (x ++ y) := by
  by_cases htears : Tears x y
  · obtain ⟨x₀, y₀, rfl, rfl⟩ := htears.exists_halves
    rw [List.append_assoc, List.singleton_append, unified_append_ending] at h ⊢
    rw [unified_append_cr, List.append_assoc, List.singleton_append, unified_append_ending,
      h.of_append.1]
  · have htears' : ¬ Tears (unified x) y := by
      rintro ⟨hlast, hhead⟩
      exact htears ⟨(getLast?_unified x).symm.trans hlast, hhead⟩
    rw [unified_append htears] at h ⊢
    rw [unified_append htears', h.of_append.1]

/-- A piece that is unified of its own has nothing left to unify, if the whole text has not. -/
theorem isUnified_unified_left {x y : List Char} (h : IsUnified (unified (x ++ y))) :
    IsUnified (unified x) := by
  by_cases htears : Tears x y
  · obtain ⟨x₀, y₀, rfl, rfl⟩ := htears.exists_halves
    rw [List.append_assoc, List.singleton_append, unified_append_ending] at h
    rw [unified_append_cr]
    exact h.of_append.1.append_cr
  · rw [unified_append htears] at h
    exact h.of_append.1

/-- Unifying a text with what follows it makes it no shorter, if it was unified before. -/
theorem length_le_unified_append {x : List Char} (hx : IsUnified x) (y : List Char) :
    x.length ≤ (unified (x ++ y)).length := by
  by_cases htears : Tears x y
  · obtain ⟨x₀, y₀, rfl, rfl⟩ := htears.exists_halves
    rw [List.append_assoc, List.singleton_append, unified_append_ending, hx.of_append.1]
    simp only [List.length_append, List.length_cons, List.length_nil]
    omega
  · rw [unified_append htears, hx, List.length_append]
    exact Nat.le_add_right _ _

/-- **A common beginning is kept**: what a text has in common with the whole, it still has in common
when a piece of the rest is added. -/
theorem prefix_unified_append {x y z shared : List Char} (hx : IsUnified x) (hshared : shared <+: x)
    (hwhole : shared <+: unified (x ++ (y ++ z))) : shared <+: unified (x ++ y) := by
  obtain ⟨rest, rfl⟩ := hshared
  obtain ⟨ahead, hahead⟩ := hwhole
  rw [List.append_assoc, ← List.append_assoc rest] at hahead
  obtain ⟨hnot, -⟩ := unified_of_beginning hx.of_append.1 hahead.symm
  have hnot' : ¬ Tears shared (rest ++ y) := fun htears => hnot (htears.append_right z)
  rw [List.append_assoc, unified_append hnot', hx.of_append.1]
  exact List.prefix_append _ _

end AmbiLex.Text
