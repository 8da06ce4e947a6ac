/-!
# A place among lines

A cursor walks over a range of line numbers, one line at a time, and stays at the end once it is
there. Several readers can share one: where the first stops, the next goes on.
-/

set_option autoImplicit false

namespace Runbook.Markdown

/-- The next line to read, and the first one that is out of reach. -/
structure Cursor where
  next : Nat
  stop : Nat
deriving DecidableEq, Repr

namespace Cursor

def peek? (c : Cursor) : Option Nat := if c.next < c.stop then some c.next else none

/-- One line further on. At the end of the range it stays, so nobody has to ask before. -/
def advance (c : Cursor) : Cursor := if c.next < c.stop then { c with next := c.next + 1 } else c

/-- How many lines there are still to read. Every step of a reader takes one off, which is why a pass
over a range comes to an end. -/
def left (c : Cursor) : Nat := c.stop - c.next

theorem peek?_eq_some_iff {c : Cursor} {n : Nat} : c.peek? = some n ↔ n = c.next ∧ n < c.stop := by
  unfold peek?
  split
  · rename_i hopen
    rw [Option.some.injEq]
    exact ⟨fun h => ⟨h.symm, h ▸ hopen⟩, fun h => h.1.symm⟩
  · rename_i hclosed
    exact iff_of_false nofun fun h => hclosed (h.1 ▸ h.2)

theorem left_advance_lt {c : Cursor} {n : Nat} (h : c.peek? = some n) : c.advance.left < c.left := by
  obtain ⟨rfl, hopen⟩ := peek?_eq_some_iff.mp h
  simp only [advance, hopen, if_true, left]
  omega

end Cursor

end Runbook.Markdown
