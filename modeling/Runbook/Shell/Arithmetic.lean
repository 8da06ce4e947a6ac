import Runbook.Shell.Condition

/-!
# Sums

What stands in `$(( ))`, computed with whole numbers of 64 bits that wrap around. Operators of one
rank go together from the left (`ranks`), and a question mark decides between two sums once all of
them are done. What is true is one, what is false is zero, and a name without a value is zero too.
-/

set_option autoImplicit false

namespace Runbook.Shell.Arithmetic

/-- Why a sum has no value. -/
inductive Fault where
  | primaryExpected
  | closingExpected
  | colonExpected
  | endExpected
  | divisionByZero
  /-- The value of a variable that is none. -/
  | illegalNumber (text : String)
deriving DecidableEq, Repr

def Fault.message (sum : String) : Fault → String
  | .primaryExpected => about "expecting primary"
  | .closingExpected => about "expecting ')'"
  | .colonExpected => about "expecting ':'"
  | .endExpected => about "expecting EOF"
  | .divisionByZero => about "division by zero"
  | .illegalNumber text => "Illegal number: " ++ text
where
  about (what : String) : String := "arithmetic expression: " ++ what ++ ": \"" ++ sum ++ "\""

inductive Token where
  | number (n : Int)
  | name (text : String)
  | sign (text : String)
  /-- A character that means nothing here. -/
  | stray (c : Char)
deriving DecidableEq, Repr

def wrapped (n : Int) : Int := (BitVec.ofInt 64 n).toInt

def ofBool (b : Bool) : Int := if b then 1 else 0

/-! ## Tokens -/

/-- Signs of two characters; all others are one character. -/
def longSigns : List (Char × Char) :=
  [('<', '<'), ('>', '>'), ('<', '='), ('>', '='), ('=', '='), ('!', '='), ('&', '&'), ('|', '|')]

def shortSigns : List Char := "+-*/%<>&^|!~?:()".toList

/-- The value of a digit, up to `f`. -/
def digitValue (c : Char) : Nat :=
  if c.isDigit then c.toNat - '0'.toNat else c.toLower.toNat - 'a'.toNat + 10

/-- The number that digits mean. A zero in front makes it octal, a zero and an `x` hexadecimal. -/
def numberOf (digits : List Char) : Int :=
  let value (base : Nat) (ds : List Char) : Nat := ds.foldl (fun n d => n * base + digitValue d) 0
  match digits with
  | '0' :: 'x' :: ds | '0' :: 'X' :: ds => value 16 ds
  | '0' :: ds => value 8 ds
  | ds => value 10 ds

/-- The tokens of a sum, with a unit of fuel for every character. -/
def tokens : Nat → List Char → List Token
  | 0, _ => []
  | _, [] => []
  | fuel + 1, c :: cs =>
    if " \t\n".toList.contains c then tokens fuel cs
    else if c.isDigit then
      .number (numberOf (c :: cs.takeWhile Char.isAlphanum))
        :: tokens fuel (cs.dropWhile Char.isAlphanum)
    else if c.isAlpha || c = '_' then
      let stays (c : Char) : Bool := c.isAlphanum || c = '_'
      .name (String.ofList (c :: cs.takeWhile stays)) :: tokens fuel (cs.dropWhile stays)
    else
      match cs with
      | d :: rest =>
        if longSigns.contains (c, d) then .sign (String.ofList [c, d]) :: tokens fuel rest
        else single fuel c cs
      | [] => single fuel c cs
where
  single (fuel : Nat) (c : Char) (cs : List Char) : List Token :=
    (if shortSigns.contains c then .sign (String.singleton c) else .stray c) :: tokens fuel cs

/-! ## Values -/

/-- The operators between two sums, the loosest first. -/
def ranks : List (List String) :=
  [["||"], ["&&"], ["|"], ["^"], ["&"], ["==", "!="], ["<", "<=", ">", ">="], ["<<", ">>"],
   ["+", "-"], ["*", "/", "%"]]

/-- What an operator makes of two numbers. Division goes towards zero. -/
def apply (operator : String) (a b : Int) : Except Fault Int :=
  let word (n : Int) : BitVec 64 := BitVec.ofInt 64 n
  match operator with
  | "+" => .ok (wrapped (a + b))
  | "-" => .ok (wrapped (a - b))
  | "*" => .ok (wrapped (a * b))
  | "/" => if b = 0 then .error .divisionByZero else .ok (wrapped (a.tdiv b))
  | "%" => if b = 0 then .error .divisionByZero else .ok (a.tmod b)
  | "<<" => .ok (word a <<< (b % 64).toNat).toInt
  | ">>" => .ok (a >>> (b % 64).toNat)
  | "<" => .ok (ofBool (a < b))
  | "<=" => .ok (ofBool (a ≤ b))
  | ">" => .ok (ofBool (a > b))
  | ">=" => .ok (ofBool (a ≥ b))
  | "==" => .ok (ofBool (a = b))
  | "!=" => .ok (ofBool (a ≠ b))
  | "&" => .ok (word a &&& word b).toInt
  | "^" => .ok (word a ^^^ word b).toInt
  | "|" => .ok (word a ||| word b).toInt
  | "&&" => .ok (ofBool (a ≠ 0 ∧ b ≠ 0))
  | _ => .ok (ofBool (a ≠ 0 ∨ b ≠ 0))

def numberIn (valueOf : String → Option String) (name : String) : Except Fault Int :=
  match (valueOf name).filter (· != "") with
  | none => .ok 0
  | some text =>
    match integer? text with
    | some n => .ok (wrapped n)
    | none => .error (.illegalNumber text)

abbrev Reading := Except Fault (Int × List Token)

mutual

/-- A number, a name, a sum in parentheses, or any of them behind a sign. -/
def operand (valueOf : String → Option String) : Nat → List Token → Reading
  | 0, _ => .error .primaryExpected
  | fuel + 1, ts =>
    let through (f : Int → Int) (ts : List Token) : Reading :=
      (operand valueOf fuel ts).map fun (n, ts) => (f n, ts)
    match ts with
    | .number n :: ts => .ok (wrapped n, ts)
    | .name x :: ts => (numberIn valueOf x).map fun n => (n, ts)
    | .sign "(" :: ts =>
      match choice valueOf fuel ts with
      | .ok (n, .sign ")" :: ts) => .ok (n, ts)
      | .ok _ => .error .closingExpected
      | .error e => .error e
    | .sign "+" :: ts => through id ts
    | .sign "-" :: ts => through (fun n => wrapped (-n)) ts
    | .sign "!" :: ts => through (fun n => ofBool (n = 0)) ts
    | .sign "~" :: ts => through (fun n => -n - 1) ts
    | _ => .error .primaryExpected

/-- Operands with operators of the given ranks between them. -/
def ranked (valueOf : String → Option String) : Nat → List (List String) → List Token → Reading
  | 0, _, _ => .error .primaryExpected
  | fuel + 1, [], ts => operand valueOf fuel ts
  | fuel + 1, operators :: tighter, ts => do
    let (n, ts) ← ranked valueOf fuel tighter ts
    onward valueOf fuel operators tighter n ts

/-- More operands of a rank, behind what has been computed of it. -/
def onward (valueOf : String → Option String) :
    Nat → List String → List (List String) → Int → List Token → Reading
  | 0, _, _, _, _ => .error .primaryExpected
  | fuel + 1, operators, tighter, n, ts =>
    match ts with
    | .sign s :: rest =>
      if operators.contains s then do
        let (k, rest) ← ranked valueOf fuel tighter rest
        onward valueOf fuel operators tighter (← apply s n k) rest
      else .ok (n, ts)
    | ts => .ok (n, ts)

/-- A sum, and perhaps two others that it decides between. -/
def choice (valueOf : String → Option String) : Nat → List Token → Reading
  | 0, _ => .error .primaryExpected
  | fuel + 1, ts => do
    let (n, ts) ← ranked valueOf fuel ranks ts
    match ts with
    | .sign "?" :: ts =>
      let (yes, ts) ← choice valueOf fuel ts
      match ts with
      | .sign ":" :: ts =>
        let (no, ts) ← choice valueOf fuel ts
        .ok (if n ≠ 0 then yes else no, ts)
      | _ => .error .colonExpected
    | ts => .ok (n, ts)

end

/-- The value of a sum. Between two tokens there are never more steps than there are ranks. -/
def value (valueOf : String → Option String) (sum : String) : Except Fault Int :=
  let cs := sum.toList
  let ts := tokens (cs.length + 1) cs
  match choice valueOf ((ts.length + 1) * (ranks.length + 4)) ts with
  | .ok (n, []) => .ok n
  | .ok _ => .error .endExpected
  | .error e => .error e

end Runbook.Shell.Arithmetic
