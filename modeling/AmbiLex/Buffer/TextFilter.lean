import AmbiLex.Buffer

/-!
# Filters made of simple steps

A `TextFilter` describes a filter by data: it may refuse texts that hold a certain part, replace
parts, turn the text around, and add something at its end, in this order. Filters that add or turn
around do not give the same result when they are applied twice, so what a buffer makes of them
depends on how the text arrives.
-/

namespace AmbiLex

/-- **A filter described by data.** -/
structure TextFilter where
  /-- Refuse texts in which this occurs. -/
  failOn : Option (List Char) := none
  /-- Parts to replace, one after the other, and what to put in their place. -/
  replacements : List (List Char × List Char) := []
  /-- Whether to turn the text around. -/
  reversed : Bool := false
  /-- What to add at the end. -/
  appended : List Char := []

/-- **The filter of a description.** -/
def TextFilter.filter (f : TextFilter) : Filter := fun text =>
  if f.failOn.any fun part => Text.occursIn part text then
    .error (.raised ⟨.value, [.text "filter failed"]⟩)
  else
    let replaced := f.replacements.foldl (fun done (old, new) => Text.replaceAll old new done) text
    .ok ((if f.reversed then replaced.reverse else replaced) ++ f.appended)

end AmbiLex
