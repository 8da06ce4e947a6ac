import Runbook.Shell.Machine

/-!
# Conditions

What `test` and `[` decide: properties of files and texts, and how numbers compare. How many words
there are decides how they are read, so that a word which looks like an operator may be compared
like any other.
-/

set_option autoImplicit false

namespace Runbook.Shell

/-- A whole number, with a sign and blanks around it if it likes. -/
def integer? (text : String) : Option Int :=
  let cs := Text.trim text.toList
  let (negative, digits) := match cs with
    | '-' :: cs => (true, cs)
    | '+' :: cs => (false, cs)
    | cs => (false, cs)
  if digits.isEmpty || !digits.all Char.isDigit then none
  else
    let n : Nat := digits.foldl (fun n c => n * 10 + (c.toNat - '0'.toNat)) 0
    some (if negative then -(n : Int) else n)

namespace Condition

/-- Why a condition means nothing. -/
inductive Fault where
  | unexpectedOperator (word : String)
  | illegalNumber (word : String)
  | argumentExpected
  | closingExpected
deriving DecidableEq, Repr

def Fault.message : Fault → String
  | .unexpectedOperator word => word ++ ": unexpected operator"
  | .illegalNumber word => "Illegal number: " ++ word
  | .argumentExpected => "argument expected"
  | .closingExpected => "closing paren expected"

def unary? (t : Files.Tree) (operator word : String) : Option Bool :=
  match operator with
  | "-n" => some (word != "")
  | "-z" => some (word == "")
  | "-e" | "-r" | "-w" => some (t.pathExists word)
  | "-f" => some (t.isFile word)
  | "-d" | "-x" => some (t.isDirectory word)
  | "-s" => some (match t.find? word with
    | some (.file c) => !(Files.Tree.bytesOf c).isEmpty
    | some .directory => true
    | none => false)
  | "-b" | "-c" | "-h" | "-L" | "-p" | "-S" | "-t" | "-u" | "-g" | "-k" => some false
  | _ => none

def comparison? : String → Option (Int → Int → Bool)
  | "-eq" => some (· == ·)
  | "-ne" => some (· != ·)
  | "-lt" => some (· < ·)
  | "-le" => some (· ≤ ·)
  | "-gt" => some (· > ·)
  | "-ge" => some (· ≥ ·)
  | _ => none

def binary? (left operator right : String) : Option (Except Fault Bool) :=
  match operator with
  | "=" => some (.ok (left == right))
  | "!=" => some (.ok (left != right))
  | "<" => some (.ok (decide (left < right)))
  | ">" => some (.ok (decide (right < left)))
  | operator =>
    (comparison? operator).map fun compare =>
      match integer? left, integer? right with
      | none, _ => .error (.illegalNumber left)
      | _, none => .error (.illegalNumber right)
      | some a, some b => .ok (compare a b)

/-- What words say, when there are at most four. -/
def few (t : Files.Tree) : List String → Except Fault Bool
  | [] => .ok false
  | [word] => .ok (word != "")
  | ["!", word] => .ok (word == "")
  | [operator, word] =>
    match unary? t operator word with
    | some b => .ok b
    | none => .error (.unexpectedOperator operator)
  | [a, b, c] =>
    match binary? a b c with
    | some r => r
    | none =>
      if b = "-a" then .ok (a != "" && c != "")
      else if b = "-o" then .ok (a != "" || c != "")
      else if a = "!" then (few t [b, c]).map (!·)
      else if a = "(" && c = ")" then few t [b]
      else .error (.unexpectedOperator b)
  | "!" :: rest => (few t rest).map (!·)
  | ["(", a, b, ")"] => few t [a, b]
  | a :: _ => .error (.unexpectedOperator a)
termination_by words => words.length

/-- The parts between the occurrences of a word. -/
def partsAt (word : String) : List String → List (List String)
  | [] => [[]]
  | w :: ws =>
    if w = word then [] :: partsAt word ws
    else match partsAt word ws with
      | [] => [[w]]
      | p :: ps => (w :: p) :: ps

/-- What words say. When there are many, `-o` joins parts that `-a` joins. -/
def holds (t : Files.Tree) (words : List String) : Except Fault Bool :=
  if words.length ≤ 4 then few t words
  else
    (partsAt "-o" words).foldlM (fun found anyOf => do
      let all ← (partsAt "-a" anyOf).foldlM (fun so part => do
        let b ← few t part
        return so && b) true
      return found || all) false

end Condition

end Runbook.Shell
