import Runbook.Files.Tree
import Runbook.Text.Utf8

/-!
# The machine a shell works on

Everything that a command can see or change: the files, the variables and arguments of the shell,
the time that has passed, what is left of the input, and where output goes. Output is collected
apart from complaints, and what flows through a pipe apart from both.

Only waiting takes time. A machine has a deadline, and whoever waits beyond it has not come back in
time.
-/

set_option autoImplicit false

namespace Runbook

def Files.Content.shown : Files.Content → String
  | .text s => s
  | .bytes b => Text.ofBytes b

namespace Shell

open Files (Content)

inductive Sink where
  | output
  | complaints
  | pipe
  | file (place : Files.Place)
  | nowhere
deriving DecidableEq, Repr

/-- A shell's variables, its arguments, and its number. -/
structure Surroundings where
  bindings : List (String × String) := []
  /-- The names of variables that commands see too. -/
  exported : List String := []
  /-- The name that the shell was called by. -/
  name : String := "sh"
  arguments : List String := []
  number : Nat := 1
  /-- Whether the shell ends with the first command that fails. -/
  strict : Bool := false
deriving DecidableEq, Repr

structure Machine where
  files : Files.Tree
  own : Surroundings := {}
  /-- How the last command came out. -/
  status : Nat := 0
  /-- Why a word could not be filled in. -/
  stuck : Option String := none
  /-- Whether somebody looks at how a command comes out, so that it may fail. -/
  tested : Bool := false
  /-- Milliseconds. -/
  clock : Nat := 0
  deadline : Nat
  input : Content := .text ""
  /-- Where output and complaints go. -/
  outputTo : Sink := .output
  complaintsTo : Sink := .complaints
  output : Content := .text ""
  complaints : Content := .text ""
  piped : Content := .text ""

/-- How it goes on after a command. -/
inductive Flow where
  | onward
  | leave
  /-- Out of loops, as many as given. -/
  | breakOut (loops : Nat)
  /-- To the next round of a loop, as many outside as given. -/
  | nextRound (loops : Nat)
  /-- A shell is ended by a signal. -/
  | killed (number signal : Nat)
  | late
deriving DecidableEq, Repr

namespace Machine

/-! ## Output -/

/-- The machine with more in a sink. -/
def pour (m : Machine) (sink : Sink) (c : Content) : Machine :=
  match sink with
  | .output => { m with output := Files.Tree.joinContent m.output c }
  | .complaints => { m with complaints := Files.Tree.joinContent m.complaints c }
  | .pipe => { m with piped := Files.Tree.joinContent m.piped c }
  | .nowhere => m
  | .file place =>
    let before := match m.files.at? place with
      | some (.file before) => before
      | _ => .text ""
    { m with files := m.files.put place (.file (Files.Tree.joinContent before c)) }

def write (m : Machine) (text : String) : Machine := m.pour m.outputTo (.text text)

/-- Complain, with a line end. -/
def complain (m : Machine) (text : String) : Machine := m.pour m.complaintsTo (.text (text ++ "\n"))

/-- The machine after a command that came out in some way. -/
def ended (m : Machine) (status : Nat) : Machine := { m with status }

/-- Complain, and come out as a failure. -/
def fail (m : Machine) (text : String) (status : Nat := 1) : Machine :=
  (m.complain text).ended status

/-- What the shell itself complains about on a line of a script. -/
def complainAt (m : Machine) (line : Nat) (text : String) (status : Nat := 2) : Machine :=
  m.fail (m.own.name ++ ": " ++ toString line ++ ": " ++ text) status

/-! ## Variables -/

def directory (m : Machine) : String := "/" ++ String.intercalate "/" m.files.here

def value? (m : Machine) (name : String) : Option String :=
  match name with
  | "?" => some (toString m.status)
  | "$" => some (toString m.own.number)
  | "#" => some (toString m.own.arguments.length)
  | "@" | "*" => some (" ".intercalate m.own.arguments)
  | "-" => some ""
  | "!" => none
  | "0" => some m.own.name
  | "PWD" => some m.directory
  | name =>
    match name.toNat? with
    | some n => m.own.arguments[n - 1]?
    | none => m.own.bindings.lookup name

def set (m : Machine) (name value : String) : Machine :=
  let others := m.own.bindings.filter fun (n, _) => n != name
  { m with own := { m.own with bindings := (name, value) :: others } }

/-! ## Time -/

def wait (m : Machine) (millis : Nat) : Machine × Flow :=
  if m.clock + millis < m.deadline then
    ({ m with clock := m.clock + millis, status := 0 }, .onward)
  else ({ m with clock := m.deadline }, .late)

/-! ## Input -/

/-- What a path name holds; the input has the name `-`. -/
def contentOf (m : Machine) (path : String) : Except FileError Content :=
  if path = "-" then .ok m.input
  else if path = "/dev/null" then .ok (.text "")
  else m.files.read path

end Machine

end Shell

end Runbook
