import Runbook.Shell.Condition

/-!
# What a shell does itself

Commands that change the shell they are given to: its directory, its variables, its arguments, and
whether it goes on.
-/

set_option autoImplicit false

namespace Runbook.Shell

/-- A number as it is given to `exit` and its like. -/
def plainNumber? (text : String) : Option Nat :=
  if text != "" && text.toList.all Char.isDigit then text.toNat? else none

/-- The milliseconds of a duration: seconds, with a point if it likes, or another unit behind. -/
def duration? (text : String) : Option Nat :=
  let cs := text.toList
  let whole := cs.takeWhile Char.isDigit
  let (places, rest) := match cs.dropWhile Char.isDigit with
    | '.' :: rest => (rest.takeWhile Char.isDigit, rest.dropWhile Char.isDigit)
    | rest => ([], rest)
  let unit? := match rest with
    | [] | ['s'] => some 1
    | ['m'] => some 60
    | ['h'] => some 3600
    | ['d'] => some 86400
    | _ => none
  if whole.isEmpty && places.isEmpty then none
  else unit?.map fun unit =>
    let thousandths := (places ++ ['0', '0', '0']).take 3
    unit * ((((String.ofList whole).toNat?).getD 0) * 1000
      + ((String.ofList thousandths).toNat?).getD 0)

/-! ## Signals -/

def signalNames : List (String × Nat) :=
  [("HUP", 1), ("INT", 2), ("QUIT", 3), ("ILL", 4), ("TRAP", 5), ("ABRT", 6), ("BUS", 7),
   ("FPE", 8), ("KILL", 9), ("USR1", 10), ("SEGV", 11), ("USR2", 12), ("PIPE", 13), ("ALRM", 14),
   ("TERM", 15), ("CHLD", 17), ("CONT", 18), ("URG", 23), ("WINCH", 28)]

/-- Signals that end nothing. -/
def harmless (signal : Nat) : Bool := [0, 17, 18, 23, 28].contains signal

/-- A name of a signal without the letters that all of them may begin with. -/
def withoutSig (name : String) : String :=
  match name.toList with
  | 'S' :: 'I' :: 'G' :: rest => String.ofList rest
  | _ => name

/-- The signal with a number or name. -/
def signal? (text : String) : Option Nat :=
  (plainNumber? text).or (signalNames.lookup (withoutSig text))

/-- What is said of a command that a signal has ended. -/
def signalText : Nat → String
  | 1 => "Hangup"
  | 3 => "Quit"
  | 4 => "Illegal instruction"
  | 6 => "Aborted"
  | 7 => "Bus error"
  | 8 => "Floating point exception"
  | 9 => "Killed"
  | 10 => "User defined signal 1"
  | 11 => "Segmentation fault"
  | 12 => "User defined signal 2"
  | 14 => "Alarm clock"
  | 15 => "Terminated"
  | n => "Signal " ++ toString n

/-- The signal and the words behind it in the arguments of `kill`. -/
def signalOf : List String → Option Nat × List String
  | "-s" :: name :: rest => (signal? name, rest)
  | word :: rest =>
    match word.toList with
    | '-' :: cs => (signal? (String.ofList cs), rest)
    | _ => (some 15, word :: rest)
  | [] => (some 15, [])

namespace Machine

/-- The command `kill`. Only shells can be found, by their numbers. -/
def kill (m : Machine) (line : Nat) (arguments : List String) : Machine × Flow :=
  match signalOf arguments with
  | (none, _) => (m.complainAt line "kill: bad signal", .onward)
  | (some _, []) => (m.complainAt line "kill: No process specified", .onward)
  | (some signal, target :: _) =>
    match plainNumber? target with
    | none => (m.complainAt line ("kill: Illegal number: " ++ target), .onward)
    | some n =>
      if n = 0 || n > m.own.number then
        (m.complainAt line "kill: No such process" 1, .onward)
      else if harmless signal then (m.ended 0, .onward)
      else (m, .killed n signal)

def cd (m : Machine) (line : Nat) (arguments : List String) : Machine :=
  let target := match arguments with
    | [] => (m.value? "HOME").getD ""
    | "-" :: _ => (m.value? "OLDPWD").getD ""
    | target :: _ => target
  if target = "" then m.ended 0
  else
    match m.files.locate target with
    | .ok place =>
      if m.files.at? place == some .directory then
        let m := m.set "OLDPWD" m.directory
        { m with files := { m.files with here := place }, status := 0 }
      else m.complainAt line ("cd: can't cd to " ++ target)
    | .error _ => m.complainAt line ("cd: can't cd to " ++ target)

def nameAndValue (word : String) : String × Option String :=
  match Text.firstPiece '=' word.toList with
  | (name, some value) => (String.ofList name, some (String.ofList value))
  | (name, none) => (String.ofList name, none)

/-- The machine with a variable shown to commands. -/
def exportName (m : Machine) (name : String) : Machine :=
  if m.own.exported.contains name then m
  else { m with own := { m.own with exported := name :: m.own.exported } }

def exportAll (m : Machine) (arguments : List String) : Machine :=
  (arguments.filter (· != "-p")).foldl (fun m word =>
    match nameAndValue word with
    | (name, some value) => (m.set name value).exportName name
    | (name, none) => m.exportName name) (m.ended 0)

def unset (m : Machine) (arguments : List String) : Machine :=
  let bindings := m.own.bindings.filter fun (n, _) => !arguments.contains n
  { m with own := { m.own with bindings }, status := 0 }

/-- The command `set`: options, or new arguments. -/
def setOptions (m : Machine) : List String → Machine
  | [] => m.ended 0
  | "--" :: rest => { m with own := { m.own with arguments := rest }, status := 0 }
  | word :: rest =>
    match word.toList with
    | '-' :: letters =>
      let strict := m.own.strict || letters.contains 'e'
      setOptions { m with own := { m.own with strict } } rest
    | '+' :: letters =>
      let strict := m.own.strict && !letters.contains 'e'
      setOptions { m with own := { m.own with strict } } rest
    | _ => { m with own := { m.own with arguments := word :: rest }, status := 0 }

def shift (m : Machine) (line : Nat) (arguments : List String) : Machine × Flow :=
  let n := (arguments.head?.bind plainNumber?).getD 1
  if n ≤ m.own.arguments.length then
    ({ m with own := { m.own with arguments := m.own.arguments.drop n }, status := 0 }, .onward)
  else (m.complainAt line "shift: can't shift that many", .leave)

/-- The values of some names: words, the last name getting what is left. -/
def assign (m : Machine) : List String → List Char → Machine
  | [], _ => m
  | [name], cs => m.set name (String.ofList (Text.trim cs))
  | name :: names, cs =>
    let cs := Text.trimStart cs
    let word := cs.takeWhile (!Text.isBlank ·)
    assign (m.set name (String.ofList word)) names (cs.dropWhile (!Text.isBlank ·))

/-- The command `read`: a line of the input. -/
def read (m : Machine) (arguments : List String) : Machine :=
  let names := (optionNames arguments)
  match Text.chunks m.input.shown.toList with
  | [] => (m.assign names []).ended 1
  | chunk :: rest =>
    let m := { m with input := .text (String.ofList rest.flatten) }
    let status := if chunk.getLast? == some '\n' then 0 else 1
    (m.assign names (Text.withoutLineEnd chunk)).ended status
where
  optionNames (arguments : List String) : List String :=
    arguments.filter fun a => a.toList.head? != some '-'

def sleep (m : Machine) (arguments : List String) : Machine × Flow :=
  match arguments.find? fun a => (duration? a).isNone with
  | some bad => (m.fail ("sleep: invalid time interval '" ++ bad ++ "'"), .onward)
  | none =>
    if arguments.isEmpty then (m.fail "sleep: missing operand", .onward)
    else m.wait (arguments.foldl (fun n a => n + (duration? a).getD 0) 0)

def test (m : Machine) (line : Nat) (name : String) (arguments : List String) : Machine :=
  let decided (words : List String) : Machine :=
    match Condition.holds m.files words with
    | .ok true => m.ended 0
    | .ok false => m.ended 1
    | .error e => m.complainAt line (name ++ ": " ++ e.message)
  if name = "[" then
    match arguments.reverse with
    | "]" :: words => decided words.reverse
    | _ => m.complainAt line "[: missing ]"
  else decided arguments

/-- How a shell or a loop is left: with the status that is given, or the last one. -/
def leaveWith (m : Machine) (line : Nat) (name : String) (arguments : List String) :
    Machine × Flow :=
  match arguments with
  | [] => (m, .leave)
  | word :: _ =>
    match plainNumber? word with
    | some n => (m.ended (n % 256), .leave)
    | none => (m.complainAt line (name ++ ": Illegal number: " ++ word), .leave)

end Machine

end Runbook.Shell
