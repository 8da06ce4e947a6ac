import Runbook.Shell.Printing

/-!
# Sets of bytes

The sets that `tr` works with, in the order in which they are written: single characters, signs
behind a backslash, ranges such as `a-z`, and classes such as `[:upper:]`.
-/

set_option autoImplicit false

namespace Runbook.Shell.ByteSet

/-- The bytes from one to another. -/
def range (first last : UInt8) : List UInt8 :=
  (List.range (last.toNat + 1 - first.toNat)).map fun i => UInt8.ofNat (first.toNat + i)

/-- The bytes of a class. -/
def class? (name : List Char) : Option (List UInt8) :=
  let those (p : Char → Bool) : List UInt8 :=
    (range 0 127).filter fun b => p (Char.ofNat b.toNat)
  match String.ofList name with
  | "upper" => some (those Char.isUpper)
  | "lower" => some (those Char.isLower)
  | "alpha" => some (those Char.isAlpha)
  | "digit" => some (those Char.isDigit)
  | "alnum" => some (those Char.isAlphanum)
  | "space" => some [9, 10, 11, 12, 13, 32]
  | "blank" => some [9, 32]
  | "punct" => some (those fun c => ' ' < c && c < '\x7f' && !c.isAlphanum)
  | _ => none

/-- The bytes that come first in the text of a set, and what follows them. Several of them are a
class or a character of several bytes. -/
def item : List Char → List UInt8 × List Char
  | [] => ([], [])
  | '[' :: ':' :: cs =>
    match class? (cs.takeWhile Char.isAlpha), cs.dropWhile Char.isAlpha with
    | some bytes, ':' :: ']' :: rest => (bytes, rest)
    | _, _ => (Printing.bytesOf ['['], ':' :: cs)
  | '\\' :: c :: cs =>
    if '0' ≤ c && c ≤ '7' then
      let (n, rest) := Printing.octal 3 0 (c :: cs)
      ([UInt8.ofNat n], rest)
    else (Printing.bytesOf [(Printing.letter? c).getD c], cs)
  | c :: cs => (Printing.bytesOf [c], cs)

/-- The members of a set whose text is given, with a unit of fuel for every character. -/
def membersFrom : Nat → List Char → List UInt8
  | 0, _ => []
  | _, [] => []
  | fuel + 1, cs =>
    match item cs with
    | ([first], '-' :: c :: rest) =>
      match item (c :: rest) with
      | ([last], rest) => range first last ++ membersFrom fuel rest
      | _ => first :: membersFrom fuel ('-' :: c :: rest)
    | (bytes, rest) => bytes ++ membersFrom fuel rest

def members (text : String) : List UInt8 := membersFrom (text.length + 1) text.toList

/-- All bytes that are not in a set. -/
def complement (set : List UInt8) : List UInt8 := (range 0 255).filter fun b => !set.contains b

/-- What a byte of one set becomes: the byte at the same place in the other one, or the last one of
that where it is shorter. -/
def translate (set by_ : List UInt8) (b : UInt8) : UInt8 :=
  match set.reverse.idxOf? b with
  | some i => (by_[set.length - 1 - i]?).getD (by_.getLast?.getD b)
  | none => b

/-- The bytes without those of a set that repeat the byte before them. -/
def squeeze (set : List UInt8) : List UInt8 → List UInt8
  | a :: b :: bytes =>
    if a = b && set.contains a then squeeze set (b :: bytes) else a :: squeeze set (b :: bytes)
  | bytes => bytes

end Runbook.Shell.ByteSet
