import Runbook.Shell.Arithmetic
import Runbook.Shell.Machine
import Runbook.Shell.Script

/-!
# From words to arguments

A word of a script becomes any number of arguments. Its pieces are filled in first (`Filled`); then
what came from outside of quotes is cut at blanks; and an argument with a star or question mark
outside of quotes stands for the names of the files that it fits, if there are any.
-/

set_option autoImplicit false

namespace Runbook.Shell

/-! ## Patterns -/

/-- A character, and whether it may be a sign of a pattern. -/
abbrev Mark := Char × Bool

/-- The longest end of a text that a pattern still has to fit is tried last: a star takes as little
as it can. -/
def fits : List Mark → List Char → Bool
  | [], cs => cs.isEmpty
  | ('*', true) :: ps, [] => fits ps []
  | ('*', true) :: ps, c :: cs => fits ps (c :: cs) || fits (('*', true) :: ps) cs
  | _ :: _, [] => false
  | (p, active) :: ps, c :: cs => ((active && p == '?') || p == c) && fits ps cs
termination_by ps cs => ps.length + cs.length

/-- Is there a sign of a pattern? -/
def isPattern (marks : List Mark) : Bool :=
  marks.any fun (c, active) => active && "*?".toList.contains c

def marksText (marks : List Mark) : String := String.ofList (marks.map Prod.fst)

/-- The parts of a pattern between slashes. -/
def patternParts : List Mark → List (List Mark)
  | [] => [[]]
  | m :: ms =>
    if m.1 = '/' then [] :: patternParts ms
    else match patternParts ms with
      | [] => [[m]]
      | p :: ps => (m :: p) :: ps

/-- The path names that a pattern fits, of which some beginnings have been found already. A name
with a dot in front has to be asked for with one. -/
def matchesFrom (t : Files.Tree) (found : List String) : List (List Mark) → List String
  | [] => found
  | part :: parts =>
    let extend (base name : String) : String := if base = "" then name else base ++ name
    let separator := if parts.isEmpty then "" else "/"
    let found :=
      if isPattern part then
        found.flatMap fun base =>
          let names := (t.list (if base = "" then "." else base)).toOption.getD []
          (names.filter fun name =>
            fits part name.toList
              && (name.toList.head? != some '.' || part.head?.map Prod.fst == some '.')).map
            fun name => extend base (name ++ separator)
      else found.map fun base => extend base (marksText part ++ separator)
    matchesFrom t found parts

/-- The names of files that a pattern fits, or the pattern itself if there are none. -/
def namesFitting (t : Files.Tree) (marks : List Mark) : List String :=
  if isPattern marks then
    match (matchesFrom t [""] (patternParts marks)).filter t.pathExists with
    | [] => [marksText marks]
    | names => names
  else [marksText marks]

/-! ## Filling in -/

/-- A piece whose text is known. -/
inductive Filled where
  /-- Nothing more happens to it. -/
  | fixed (text : String)
  /-- It may be a pattern. -/
  | bare (text : String)
  /-- It may be a pattern, and it is cut at blanks. -/
  | loose (text : String)
  /-- Arguments that stay apart. -/
  | several (texts : List String)
deriving DecidableEq, Repr

/-- The text of a piece where no cutting is done. -/
def Filled.whole : Filled → String
  | .fixed text | .bare text | .loose text => text
  | .several texts => " ".intercalate texts

/-- A piece, filled in. Scripts inside of it are run by a function that gives what they write. -/
def fill (outputOf : Machine → String → Machine × String) (m : Machine) (p : Piece) :
    Machine × Filled :=
  let loosely (inQuotes : Bool) (text : String) : Filled :=
    if inQuotes then .fixed text else .loose text
  match p with
  | .bare text => (m, .bare text)
  | .quoted text => (m, .fixed text)
  | .value "@" none true => (m, .several m.own.arguments)
  | .value name standing inQuotes =>
    match m.value? name, standing with
    | some "", some text => (m, loosely inQuotes text)
    | some value, _ => (m, loosely inQuotes value)
    | none, some text => (m, loosely inQuotes text)
    | none, none => (m, loosely inQuotes "")
  | .output script inQuotes =>
    let (m, text) := outputOf m script
    (m, loosely inQuotes text)
  | .sum text inQuotes =>
    let (after, text) := outputOf m ("echo \"" ++ text ++ "\"")
    let m := { after with status := m.status }
    match Arithmetic.value m.value? text with
    | .ok n => (m, loosely inQuotes (toString n))
    | .error e => ({ m with stuck := m.stuck.or (some (e.message text)) }, loosely inQuotes "")

def fillAll (outputOf : Machine → String → Machine × String) (m : Machine) (w : Word) :
    Machine × List Filled :=
  w.foldl (fun (m, filled) p =>
    let (m, f) := fill outputOf m p
    (m, filled ++ [f])) (m, [])

def textOf (outputOf : Machine → String → Machine × String) (m : Machine) (w : Word) :
    Machine × String :=
  let (m, filled) := fillAll outputOf m w
  (m, String.join (filled.map Filled.whole))

/-! ## Cutting -/

/-- Arguments that are done, the last one first, and one that may go on, its last sign first. -/
structure Fields where
  done : List (List Mark) := []
  open? : Option (List Mark) := none

namespace Fields

/-- More at the end of the open argument. -/
def add (f : Fields) (active : Bool) (cs : List Char) : Fields :=
  { f with open? := some ((cs.map (·, active)).reverse ++ f.open?.getD []) }

/-- The open argument is done, if there is one. -/
def close (f : Fields) : Fields :=
  match f.open? with
  | some marks => { done := marks.reverse :: f.done, open? := none }
  | none => f

/-- Text that is cut at blanks. -/
def addLoose (f : Fields) (cs : List Char) : Fields :=
  cs.foldl (fun f c => if " \t\n".toList.contains c then f.close else f.add true [c]) f

/-- Arguments that stay apart: the first goes on with the open one and the last one stays open. -/
def addSeveral (f : Fields) : List String → Fields
  | [] => f
  | [text] => f.add false text.toList
  | text :: texts => addSeveral (f.add false text.toList).close texts

def addFilled (f : Fields) : Filled → Fields
  | .fixed text => f.add false text.toList
  | .bare text => f.add true text.toList
  | .loose text => f.addLoose text.toList
  | .several texts => f.addSeveral texts

end Fields

/-- The arguments that the filled pieces of a word give. -/
def argumentsOf (t : Files.Tree) (filled : List Filled) : List String :=
  (filled.foldl Fields.addFilled {}).close.done.reverse.flatMap (namesFitting t)

/-- The arguments that words give, from the left. -/
def expand (outputOf : Machine → String → Machine × String) (m : Machine) (ws : List Word) :
    Machine × List String :=
  ws.foldl (fun (m, arguments) w =>
    let (m, filled) := fillAll outputOf m w
    (m, arguments ++ argumentsOf m.files filled)) (m, [])

end Runbook.Shell
