import Runbook.Text.Blank
import Runbook.Text.Digit
import Runbook.Time.Instant

/-!
# Timestamps

Instants are written as RFC 3339 has it, `2025-01-15T10:20:30.5Z`, in universal time and with as
many places as are needed in groups of three. They are read more freely: blanks may stand before
every part, a space may stand for the `T`, years may have a sign and then any number of digits, and
an offset may have blanks and colons between hours and minutes. The offset has to be there.
-/

set_option autoImplicit false

namespace Runbook.Time

open Text

/-! ## Reading -/

/-- At most some digits, at least one, and the rest. -/
def number? (most : Nat) (cs : List Char) : Option (Nat × List Char) :=
  let digits := (cs.take most).takeWhile Char.isDigit
  (natOfDigits? digits).map fun n => (n, cs.drop digits.length)

/-- The year. With a sign it may have any number of digits, without one at most four. -/
def year? (cs : List Char) : Option (Int × List Char) :=
  match trimStart cs with
  | '-' :: rest => (number? rest.length rest).map fun (n, rest) => (-(n : Int), rest)
  | '+' :: rest => (number? rest.length rest).map fun (n, rest) => ((n : Int), rest)
  | cs => (number? 4 cs).map fun (n, rest) => ((n : Int), rest)

/-- At most two digits, blanks before them. -/
def twoDigits? (cs : List Char) : Option (Nat × List Char) := number? 2 (trimStart cs)

/-- The rest behind a separator, blanks before it. -/
def after? (separator : Char) (cs : List Char) : Option (List Char) :=
  match trimStart cs with
  | c :: rest => if c = separator then some rest else none
  | [] => none

/-- The rest behind what sets time of day off from date. -/
def afterDate? : List Char → Option (List Char)
  | 'T' :: rest | 't' :: rest | ' ' :: rest => some rest
  | _ => none

/-- The nanoseconds behind a point, if there is one. Places beyond the ninth are passed over. -/
def fraction? : List Char → Option (Nat × List Char)
  | '.' :: cs =>
    (number? 9 cs).map fun (n, rest) =>
      (n * Nat.pow 10 (9 - (cs.length - rest.length)), rest.dropWhile Char.isDigit)
  | cs => some (0, cs)

def offsetMinutes? : List Char → Option (Nat × List Char)
  | a :: b :: rest =>
    if a.isDigit ∧ b.isDigit ∧ a ≤ '5' then
      some ((a.toNat - 48) * 10 + (b.toNat - 48), rest)
    else none
  | _ => none

/-- The seconds of an offset behind its sign. -/
def offsetSize? : List Char → Option (Nat × List Char)
  | a :: b :: rest =>
    if a.isDigit ∧ b.isDigit then
      (offsetMinutes? (rest.dropWhile fun c => c == ':' || isBlank c)).map fun (minutes, rest) =>
        (((a.toNat - 48) * 10 + (b.toNat - 48)) * 3600 + minutes * 60, rest)
    else none
  | _ => none

/-- The seconds by which local time is ahead. -/
def offset? (cs : List Char) : Option (Int × List Char) :=
  if (cs.take 3).map Char.toUpper = ['U', 'T', 'C'] then some (0, cs.drop 3)
  else
    match cs with
    | 'Z' :: rest | 'z' :: rest => some (0, rest)
    | '+' :: rest => (offsetSize? rest).map fun (n, rest) => ((n : Int), rest)
    | '-' :: rest | '\u2212' :: rest => (offsetSize? rest).map fun (n, rest) => (-(n : Int), rest)
    | _ => none

def Instant.parse? (text : String) : Option Instant := do
  let (year, cs) ← year? text.toList
  let cs ← after? '-' cs
  let (month, cs) ← twoDigits? cs
  let cs ← after? '-' cs
  let (day, cs) ← twoDigits? cs
  let cs ← afterDate? cs
  let (hour, cs) ← twoDigits? cs
  let cs ← after? ':' cs
  let (minute, cs) ← twoDigits? cs
  let cs ← after? ':' cs
  let (second, cs) ← twoDigits? cs
  let (nanos, cs) ← fraction? cs
  let (offset, cs) ← offset? (trimStart cs)
  let date : Date := ⟨year, month, day⟩
  let instant := Instant.ofDate date (hour * 3600 + minute * 60 + second - offset) nanos
  if trimStart cs = [] ∧ date.exists? ∧ hour < 24 ∧ minute < 60 ∧ second ≤ 60
      ∧ offset.natAbs < 86400
      ∧ Instant.firstYear ≤ year ∧ year ≤ Instant.lastYear ∧ instant.inRange then
    some instant
  else none

/-! ## Writing -/

/-- A number with zeros in front up to a width. -/
def padded (width n : Nat) : String :=
  let digits := toString n
  String.ofList (List.replicate (width - digits.length) '0') ++ digits

/-- A year has at least four digits, and a sign where it needs one. -/
def shownYear (y : Int) : String :=
  if 0 ≤ y ∧ y ≤ 9999 then padded 4 y.toNat
  else (if y < 0 then "-" else "+") ++ padded 4 y.natAbs

/-- The places behind the point: none, three, six or nine. -/
def shownFraction (nanos : Nat) : String :=
  if nanos = 0 then ""
  else if nanos % 1000000 = 0 then "." ++ padded 3 (nanos / 1000000)
  else if nanos % 1000 = 0 then "." ++ padded 6 (nanos / 1000)
  else "." ++ padded 9 nanos

def Date.render (d : Date) : String :=
  shownYear d.year ++ "-" ++ padded 2 d.month ++ "-" ++ padded 2 d.day

def Instant.render (i : Instant) : String :=
  let s := i.secondOfDay
  i.date.render ++ "T" ++ padded 2 (s / 3600) ++ ":" ++ padded 2 (s / 60 % 60) ++ ":"
    ++ padded 2 (s % 60) ++ shownFraction i.fraction ++ "Z"

end Runbook.Time
