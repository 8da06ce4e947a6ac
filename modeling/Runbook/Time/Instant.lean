import Runbook.Time.Calendar

/-!
# Instants

An instant is a number of nanoseconds since the beginning of 1970 in universal time. A leap second
has no number of its own: it is counted as the first second of the next minute.
-/

set_option autoImplicit false

namespace Runbook.Time

structure Instant where
  nanos : Int
deriving DecidableEq, Repr, Inhabited

namespace Instant

def second : Int := 1000000000

/-- The instant of a date and a time of day given in seconds and nanoseconds. -/
def ofDate (d : Date) (seconds : Int) (nanos : Nat) : Instant :=
  ⟨(d.dayNumber * 86400 + seconds) * second + nanos⟩

/-- Whole milliseconds, with what is left over dropped towards the past. -/
def millis (i : Instant) : Int := i.nanos / 1000000

def later (i : Instant) (millis : Nat) : Instant := ⟨i.nanos + millis * 1000000⟩

def seconds (i : Instant) : Int := i.nanos / second

def date (i : Instant) : Date := .ofDayNumber (i.seconds / 86400)

/-- The seconds since midnight in universal time. -/
def secondOfDay (i : Instant) : Nat := (i.seconds % 86400).toNat

def fraction (i : Instant) : Nat := (i.nanos % second).toNat

/-- The years that instants are read from and written in. -/
def firstYear : Int := -262143

def lastYear : Int := 262142

/-- Is the year of the instant among those? -/
def inRange (i : Instant) : Bool := firstYear ≤ i.date.year && i.date.year ≤ lastYear

end Instant

end Runbook.Time
