/-!
# Reading bytes as text

Bytes are read as UTF-8. Where they are none, every longest beginning of a character that is not
gone on with, and every byte that cannot begin one, is shown as U+FFFD.

Where a character could still go on depends on its first byte alone (`followers?`): this is what
keeps overlong forms, surrogates and values above U+10FFFF out.
-/

set_option autoImplicit false

namespace Runbook.Text

/-- The sign for what cannot be read. -/
def replacement : Char := '\uFFFD'

/-- How a character of several bytes goes on behind its first one: the range of the second byte, and
the number of bytes behind that. -/
def followers? (first : UInt8) : Option (UInt8 × UInt8 × Nat) :=
  if first < 0xC2 then none
  else if first < 0xE0 then some (0x80, 0xBF, 0)
  else if first = 0xE0 then some (0xA0, 0xBF, 1)
  else if first = 0xED then some (0x80, 0x9F, 1)
  else if first < 0xF0 then some (0x80, 0xBF, 1)
  else if first = 0xF0 then some (0x90, 0xBF, 2)
  else if first < 0xF4 then some (0x80, 0xBF, 2)
  else if first = 0xF4 then some (0x80, 0x8F, 2)
  else none

/-- The bits that a first byte adds. -/
def firstBits (first : UInt8) : Nat :=
  if first < 0xE0 then first.toNat % 32 else if first < 0xF0 then first.toNat % 16
  else first.toNat % 8

/-- A byte that goes on with a character: its range, how many come after it, and the value before
it. -/
structure Awaited where
  low : UInt8
  high : UInt8
  more : Nat
  value : Nat

/-- The characters that bytes show. -/
def decodeFrom : Option Awaited → List UInt8 → List Char
  | none, [] => []
  | some _, [] => [replacement]
  | awaited, b :: bytes =>
    let begin : List Char :=
      if b < 0x80 then Char.ofNat b.toNat :: decodeFrom none bytes
      else
        match followers? b with
        | some (low, high, more) => decodeFrom (some ⟨low, high, more, firstBits b⟩) bytes
        | none => replacement :: decodeFrom none bytes
    match awaited with
    | none => begin
    | some a =>
      if a.low ≤ b && b ≤ a.high then
        let value := a.value * 64 + b.toNat % 64
        match a.more with
        | 0 => Char.ofNat value :: decodeFrom none bytes
        | more + 1 => decodeFrom (some ⟨0x80, 0xBF, more, value⟩) bytes
      -- the byte that breaks a character off may begin the next one
      else replacement :: begin

/-- The text that bytes show. -/
def ofBytes (bytes : List UInt8) : String := String.ofList (decodeFrom none bytes)

end Runbook.Text
