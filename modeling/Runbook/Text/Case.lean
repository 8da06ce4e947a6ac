import Runbook.Text.CaseTable

/-!
# Lower and upper case

Full Unicode case mapping. A character maps to one or several characters (`lowerChar`,
`upperChar`); a text maps character by character, with one exception: a capital sigma that ends a
word becomes the final sigma `ς` (`lower`). ASCII takes a short way that the tables agree with.
-/

set_option autoImplicit false

namespace Runbook.Text

/-- Lower case of one character, without regard to its neighbours. -/
def lowerChar (c : Char) : List Char :=
  if c.toNat < 0x80 then [c.toLower]
  else if c.toNat = 0x130 then ['i', Char.ofNat 0x307]
  else match CaseRun.image? lowerRuns c.toNat with
    | some n => [Char.ofNat n]
    | none => [c]

/-- Upper case of one character. -/
def upperChar (c : Char) : List Char :=
  if c.toNat < 0x80 then [c.toUpper]
  else match upperSpecial.lookup c.toNat with
    | some ns => ns.map Char.ofNat
    | none => match CaseRun.image? upperRuns c.toNat with
      | some n => [Char.ofNat n]
      | none => [c]

/-- Reading outwards from a sigma: is the first character that is not ignorable a cased one? -/
def meetsCased (cs : List Char) : Bool :=
  match cs.dropWhile caseIgnorableRanges.has with
  | [] => false
  | c :: _ => casedRanges.has c

/-- Lower case of the rest of a text, given the characters before it in reverse order. -/
def lowerAfter : List Char → List Char → List Char
  | _, [] => []
  | before, c :: cs =>
    (if c = 'Σ' then
      (if meetsCased before && !meetsCased cs then ['ς'] else ['σ'])
    else lowerChar c) ++ lowerAfter (c :: before) cs

def lower (cs : List Char) : List Char := lowerAfter [] cs

def upper (cs : List Char) : List Char := cs.flatMap upperChar

/-- Equality up to the case of ASCII letters. -/
def sameIgnoringCase (a b : List Char) : Bool := a.map Char.toLower == b.map Char.toLower

end Runbook.Text
