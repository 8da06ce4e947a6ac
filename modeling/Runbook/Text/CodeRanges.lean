/-!
# Code point ranges

A Unicode property is a set of code points, and a standard gives it as a list of closed
intervals. `CodeRanges` is that list and `CodeRanges.has` the membership test; every property
table of `Runbook.Text` is a value of this type.

Main statement: `CodeRanges.has_iff` — a character has the property exactly when some interval of
the table holds its code point.
-/

set_option autoImplicit false

namespace Runbook.Text

/-- Closed intervals of code points, in ascending order. -/
structure CodeRanges where
  intervals : List (Nat × Nat)

/-- Does some interval hold the character's code point? -/
def CodeRanges.has (table : CodeRanges) (c : Char) : Bool :=
  table.intervals.any fun i => decide (i.1 ≤ c.toNat) && decide (c.toNat ≤ i.2)

theorem CodeRanges.has_iff (table : CodeRanges) (c : Char) :
    table.has c = true ↔ ∃ i ∈ table.intervals, i.1 ≤ c.toNat ∧ c.toNat ≤ i.2 := by
  simp [CodeRanges.has, List.any_eq_true]

end Runbook.Text
