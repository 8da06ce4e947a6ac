import Runbook.Execution.World
import Runbook.Shell.Builtin
import Runbook.Shell.Expansion
import Runbook.Shell.FileUtility
import Runbook.Shell.Printing
import Runbook.Shell.Reader

/-!
# Running scripts

One step of a script is described for any way of running what is inside of it (`step`); running a
script is doing that step with fuel for the next one (`run`). Every script inside of another takes
one unit, and a script inside of a text is never longer than the text; so the fuel that `execute`
gives is only used up by a script that calls itself, and such a script does not come back in time.
-/

set_option autoImplicit false

namespace Runbook.Shell

/-- A way to run a script. It may be the last thing that its shell does. -/
abbrev Runner := (isLast : Bool) → Script → Machine → Machine × Flow

/-- The rounds after which a loop is taken to be endless. -/
def longestLoop : Nat := 100000

/-! ## Texts -/

/-- Run lines one after the other. -/
def runLines (recur : Runner) (isLast : Bool) : List Script → Machine → Machine × Flow
  | [], m => (m, .onward)
  | [s], m => recur isLast s m
  | s :: rest, m =>
    match recur false s m with
    | (m, .onward) => runLines recur isLast rest m
    | stopped => stopped

/-- Run a text. A fault ends the shell, after the lines before it. -/
def runText (recur : Runner) (isLast : Bool) (text : String) (m : Machine) : Machine × Flow :=
  match parse text with
  | ([], none) => (m.ended 0, .onward)
  | (scripts, none) => runLines recur isLast scripts m
  | (scripts, some (line, fault)) =>
    match runLines recur false scripts m with
    | (m, .onward) => (m.complainAt line fault.message, .leave)
    | stopped => stopped

/-- Do something in a shell of its own: the variables and the directory stay as they were. -/
def apart (act : Machine → Machine × Flow) (m : Machine) : Machine × Flow :=
  let (after, flow) := act m
  let files := { after.files with here := m.files.here }
  let m := { after with own := m.own, tested := m.tested, files }
  match flow with
  | .killed number signal => (m, .killed number signal)
  | .late => (m, .late)
  | .onward | .leave | .breakOut _ | .nextRound _ => (m, .onward)

/-- Collect the output of something instead of letting it go on. -/
def collecting (act : Machine → Machine × Flow) (m : Machine) : Machine × Flow × Files.Content :=
  let (after, flow) := act { m with outputTo := .pipe, piped := .text "" }
  ({ after with outputTo := m.outputTo, piped := m.piped }, flow, after.piped)

/-- What a script in a word writes, without the line ends behind it. -/
def outputOf (recur : Runner) (m : Machine) (text : String) : Machine × String :=
  let (m, flow, c) := collecting (apart (runText recur false text)) m
  let cs := (c.shown.toList.filter (· != '\x00')).reverse.dropWhile (· == '\n')
  let m := if flow = .late then { m with clock := m.deadline } else m
  (m, String.ofList cs.reverse)

/-! ## Redirections -/

/-- Where a redirection may lead, apart from files. -/
def device? (m : Machine) (path : String) : Option Sink :=
  match path with
  | "/dev/null" => some .nowhere
  | "/dev/stdout" => some m.outputTo
  | "/dev/stderr" => some m.complaintsTo
  | _ => none

/-- The machine with a redirection, or the complaint. -/
def redirect (m : Machine) (direction : Direction) (number : Nat) (target : String) :
    Except String Machine :=
  let connect (m : Machine) (sink : Sink) : Except String Machine :=
    if number = 1 then .ok { m with outputTo := sink }
    else if number = 2 then .ok { m with complaintsTo := sink }
    else .ok m
  let opened (fresh : Bool) : Except String Machine :=
    match device? m target with
    | some sink => connect m sink
    | none =>
      let refuse (why : String) : Except String Machine :=
        .error ("cannot create " ++ target ++ ": " ++ why)
      match m.files.locate target with
      | .error .notFound | .error .notDirectory => refuse "Directory nonexistent"
      | .error e => refuse e.words
      | .ok place =>
        match m.files.at? place with
        | some .directory => refuse FileError.isDirectory.words
        | some (.file _) =>
          let files := if fresh then m.files.put place (.file (.text "")) else m.files
          connect { m with files } (.file place)
        | none => connect { m with files := m.files.put place (.file (.text "")) } (.file place)
  match direction with
  | .output => opened true
  | .append => opened false
  | .input =>
    match m.contentOf target with
    | .ok c => .ok (if number = 0 then { m with input := c } else m)
    | .error .notFound | .error .notDirectory =>
      .error ("cannot open " ++ target ++ ": No such file")
    | .error e => .error ("cannot open " ++ target ++ ": " ++ e.words)
  | .duplicate =>
    match target with
    | "1" => connect m m.outputTo
    | "2" => connect m m.complaintsTo
    | "-" => connect m .nowhere
    | "0" => .ok m
    | _ => .error (target ++ ": Bad file descriptor")

/-- All redirections from the left. -/
def redirectAll (recur : Runner) (m : Machine) : List Redirect → Machine × Option String
  | [] => (m, none)
  | r :: rest =>
    let (m, target) := textOf (outputOf recur) m r.target
    match redirect m r.direction r.number target with
    | .ok m => redirectAll recur m rest
    | .error text => (m, some text)

/-! ## Commands -/

/-- Run a text in a new shell, which sees what has been exported. The last thing a shell does is not
done by another one: it gives its number away. -/
def runShell (recur : Runner) (isLast : Bool) (strict : Bool) (text name : String)
    (arguments : List String) (m : Machine) : Machine × Flow :=
  let own := m.own
  let bindings := own.bindings.filter fun (n, _) => own.exported.contains n
  let number := if isLast then own.number else own.number + 1
  let inner : Surroundings :=
    { bindings, exported := own.exported, name, arguments, number, strict }
  match apart (runText recur true text) { m with own := inner, tested := false } with
  | (m, .killed n signal) =>
    let m := { m with own }
    if n = number && !isLast then ((m.complain (signalText signal)).ended (128 + signal), .onward)
    else (m, .killed n signal)
  | (m, flow) => ({ m with own }, flow)

def shell (recur : Runner) (isLast : Bool) (line : Nat) (name : String) (arguments : List String)
    (m : Machine) : Machine × Flow :=
  let options := arguments.takeWhile fun a => a.length > 1 && a.toList.head? == some '-'
  let letters := options.flatMap fun a => a.toList.drop 1
  let strict := letters.contains 'e'
  let rest := arguments.drop options.length
  if letters.contains 'c' then
    match rest with
    | [] => ({ m with own := { m.own with name } }.complainAt line "-c requires an argument"
        |> fun after => { after with own := m.own }, .onward)
    | text :: rest => runShell recur isLast strict text (rest.headD name) rest.tail m
  else
    match rest with
    | [] => runShell recur isLast strict m.input.shown name [] { m with input := .text "" }
    | path :: rest =>
      match m.contentOf path with
      | .ok c => runShell recur isLast strict c.shown path rest m
      | .error _ =>
        ((m.complain (name ++ ": 0: cannot open " ++ path ++ ": No such file")).ended 2, .onward)

/-- Commands that only use files, the input and the output. -/
def utility? : String → Option (Machine → List String → Machine)
  | "cat" => some .cat
  | "wc" => some .wc
  | "head" => some .head
  | "tail" => some .tail
  | "sort" => some .sort
  | "uniq" => some .uniq
  | "grep" => some .grep
  | "seq" => some .seq
  | "tr" => some .tr
  | "touch" => some .touch
  | "mkdir" => some .mkdir
  | "rmdir" => some .rmdir
  | "rm" => some .rm
  | "mv" => some .mv
  | "cp" => some .cp
  | "ls" => some .ls
  | "tee" => some .tee
  | "basename" => some .basename
  | "dirname" => some .dirname
  | _ => none

/-- Names of commands that a shell knows by itself. -/
def builtinNames : List String :=
  [":", "true", "false", "exit", "return", "break", "continue", "echo", "printf", "test", "[",
   "cd", "pwd", "export", "readonly", "unset", "set", "shift", "read", "eval", "exec", ".",
   "command", "kill", "wait", "trap", "umask"]

/-- Names of other commands. -/
def isProgram (name : String) : Bool :=
  (utility? name).isSome || ["sleep", "sh", "dash", "bash", "env"].contains name

/-- Commands that a shell knows by itself and that are programs as well. -/
def builtinPrograms : List String := ["true", "false", "printf", "test", "[", "pwd", "kill"]

/-- The command that a name means. A program may be asked for by the path name that leads to it; the
programs are the same in both directories for them. -/
def commandName (name : String) : String :=
  let program (cs : List Char) : String :=
    let short := String.ofList cs
    if isProgram short || builtinPrograms.contains short then short else name
  match name.toList with
  | '/' :: 'b' :: 'i' :: 'n' :: '/' :: cs => program cs
  | '/' :: 'u' :: 's' :: 'r' :: '/' :: 'b' :: 'i' :: 'n' :: '/' :: cs => program cs
  | _ => name

/-- A name that no command has. -/
def unknownCommand (m : Machine) (line : Nat) (name : String) : Machine :=
  if name.toList.contains '/' && m.files.pathExists name then
    m.complainAt line (name ++ ": Permission denied") 126
  else m.complainAt line (name ++ ": not found") 127

/-- Run a command with its arguments. -/
def call (recur : Runner) : Nat → (isLast : Bool) → (line : Nat) → List String → Machine →
    Machine × Flow
  | 0, _, _, _, m => (m, .late)
  | _, _, _, [], m => (m.ended 0, .onward)
  | fuel + 1, isLast, line, name :: arguments, m =>
    let done (m : Machine) : Machine × Flow := (m, .onward)
    match commandName name with
    | ":" | "true" | "wait" | "trap" | "umask" => done (m.ended 0)
    | "false" => done (m.ended 1)
    | "exit" | "return" => m.leaveWith line name arguments
    | "break" => (m.ended 0, .breakOut ((arguments.head?.bind plainNumber?).getD 1))
    | "continue" => (m.ended 0, .nextRound ((arguments.head?.bind plainNumber?).getD 1))
    | "echo" => done ((m.pour m.outputTo (Printing.echo arguments)).ended 0)
    | "printf" => done (m.printf line arguments)
    | "test" | "[" => done (m.test line name arguments)
    | "cd" => done (m.cd line arguments)
    | "pwd" => done ((m.write (m.directory ++ "\n")).ended 0)
    | "export" | "readonly" => done (m.exportAll arguments)
    | "unset" => done (m.unset arguments)
    | "set" => done (m.setOptions arguments)
    | "shift" => m.shift line arguments
    | "read" => done (m.read arguments)
    | "eval" => runText recur isLast (" ".intercalate arguments) m
    | "." =>
      match arguments with
      | [] => done (m.ended 0)
      | path :: _ =>
        match m.contentOf path with
        | .ok c => runText recur isLast c.shown m
        | .error _ => (m.complainAt line (".: cannot open " ++ path ++ ": No such file"), .leave)
    | "exec" =>
      if arguments.isEmpty then done (m.ended 0)
      else
        match call recur fuel true line arguments m with
        | (m, .onward) => (m, .leave)
        | other => other
    | "command" =>
      match arguments with
      | "-v" :: names =>
        let known := names.filter fun n => builtinNames.contains n || isProgram n
        let shown (n : String) : String := if builtinNames.contains n then n else "/usr/bin/" ++ n
        done ((m.write (String.join (known.map fun n => shown n ++ "\n"))).ended
          (if known.isEmpty then 127 else 0))
      | arguments => call recur fuel isLast line arguments m
    | "env" =>
      let settings := arguments.takeWhile fun a => a.toList.contains '='
      let rest := arguments.drop settings.length
      let inner := m.exportAll settings
      if rest.isEmpty then
        let seen := inner.own.bindings.filter fun (n, _) => inner.own.exported.contains n
        done ((m.write (String.join (seen.map fun (n, v) => n ++ "=" ++ v ++ "\n"))).ended 0)
      else
        let (after, flow) := call recur fuel false line rest inner
        -- it runs as a process of its own, whose variables are lost
        ({ after with own := m.own }, flow)
    | "kill" => m.kill line arguments
    | "sleep" => m.sleep arguments
    | "sh" | "dash" | "bash" => shell recur isLast line name arguments m
    | command =>
      match utility? command with
      | some act => done (act m arguments)
      | none => done (unknownCommand m line name)

/-! ## Scripts -/

/-- A loop, as long as its condition says so. The last argument but one is how the last round came
out. -/
def rounds (condition body : Machine → Machine × Flow) (untilSo : Bool) : Nat → Nat → Machine →
    Machine × Flow
  | 0, _, m => ({ m with clock := m.deadline }, .late)
  | left + 1, came, m =>
    match condition { m with tested := true } with
    | (after, .onward) =>
      let decided := after.status = 0
      let after := { after with tested := m.tested }
      if decided = untilSo then (after.ended came, .onward)
      else
        match body after with
        | (m, .onward) => rounds condition body untilSo left m.status m
        | (m, .nextRound n) =>
          if n ≤ 1 then rounds condition body untilSo left m.status m
          else (m, .nextRound (n - 1))
        | (m, .breakOut n) => if n ≤ 1 then (m, .onward) else (m, .breakOut (n - 1))
        | stopped => stopped
    | (after, .breakOut n) =>
      if n ≤ 1 then (after, .onward) else (after, .breakOut (n - 1))
    | stopped => stopped

/-- A loop that goes through words. -/
def through (body : Machine → Machine × Flow) (name : String) : List String → Machine →
    Machine × Flow
  | [], m => (m, .onward)
  | word :: words, m =>
    match body (m.set name word) with
    | (m, .onward) => through body name words m
    | (m, .nextRound n) =>
      if n ≤ 1 then through body name words m else (m, .nextRound (n - 1))
    | (m, .breakOut n) => if n ≤ 1 then (m, .onward) else (m, .breakOut (n - 1))
    | stopped => stopped

/-- Run something whose outcome somebody looks at. -/
def looking (act : Machine → Machine × Flow) (m : Machine) : Machine × Flow :=
  let (after, flow) := act { m with tested := true }
  ({ after with tested := m.tested }, flow)

/-- The end of a strict shell, if a command has failed and nobody looks at it. -/
def unlessStrict : Machine × Flow → Machine × Flow
  | (m, .onward) => (m, if m.own.strict && !m.tested && m.status != 0 then .leave else .onward)
  | other => other

/-- The variables that a command sets, from the left. -/
def setAll (recur : Runner) (m : Machine) (settings : List (String × Word)) : Machine :=
  settings.foldl (fun m (name, w) =>
    let (m, value) := textOf (outputOf recur) m w
    m.set name value) m

/-- Why it does not go on after words of a line have been filled in, if it does not: the time is
over, or one of them could not be filled in. -/
def halted? (line : Nat) (m : Machine) : Option (Machine × Flow) :=
  if m.deadline ≤ m.clock then some (m, .late)
  else m.stuck.map fun text => ({ m with stuck := none }.complainAt line text, .leave)

/-- Does a word ask a script for something? -/
def hasOutput (w : Word) : Bool :=
  w.any fun
    | .output _ _ => true
    | _ => false

/-- One step of a script. -/
def step (recur : Runner) : Runner := fun isLast script m =>
  match script with
  | .nothing => (m.ended 0, .onward)
  | .command line settings words =>
    let (m, arguments) := expand (outputOf recur) m words
    let changed := setAll recur m settings
    match (halted? line m).or (halted? line changed) with
    | some stopped => stopped
    | none =>
      if arguments.isEmpty then
        let asked := words.any hasOutput || settings.any fun (_, w) => hasOutput w
        unlessStrict (if asked then changed else changed.ended 0, .onward)
      else
        let shown := settings.foldl (fun m (name, _) => m.exportName name) changed
        let (after, flow) := call recur (arguments.length + 1) isLast line arguments shown
        -- settings in front of a command hold for that command only
        let after :=
          if settings.isEmpty then after
          else
            let bindings := after.own.bindings.filter fun (n, _) => (settings.lookup n).isNone
            let before := m.own.bindings.filter fun (n, _) => (settings.lookup n).isSome
            { after with own := { after.own with
                bindings := before ++ bindings, exported := m.own.exported } }
        unlessStrict (after, flow)
  | .redirected line redirects body =>
    match redirectAll recur m redirects with
    | (changed, some text) =>
      -- what has been opened on the left stays, as if nothing had been redirected
      let m := { m with files := changed.files, clock := changed.clock }
      unlessStrict (m.complainAt line text, .onward)
    | (changed, none) =>
      let (after, flow) := recur isLast body changed
      let input := if redirects.any (·.direction = .input) then m.input else after.input
      ({ after with outputTo := m.outputTo, complaintsTo := m.complaintsTo, input }, flow)
  | .sequence first second =>
    match recur false first m with
    | (m, .onward) => recur isLast second m
    | stopped => stopped
  | .both first second =>
    match looking (recur false first) m with
    | (m, .onward) => if m.status = 0 then recur isLast second m else (m, .onward)
    | stopped => stopped
  | .either first second =>
    match looking (recur false first) m with
    | (m, .onward) => if m.status = 0 then (m, .onward) else recur isLast second m
    | stopped => stopped
  | .negation body =>
    match looking (recur false body) m with
    | (m, .onward) => (m.ended (if m.status = 0 then 1 else 0), .onward)
    | stopped => stopped
  | .pipe first second =>
    match collecting (apart (recur false first)) m with
    | (after, .onward, c) =>
      let second := apart (recur false second)
      let (last, flow) := second { after with input := c, clock := m.clock }
      -- both begin at once, so the later end counts
      let m := { last with input := after.input, clock := max after.clock last.clock }
      unlessStrict (m, flow)
    | (m, flow, _) => (m, flow)
  | .apart body => unlessStrict (apart (recur false body) m)
  | .aside body =>
    match apart (recur false body) m with
    | (m, .onward) => (m.ended 0, .onward)
    | stopped => stopped
  | .choice condition yes no =>
    match looking (recur false condition) m with
    | (m, .onward) => recur isLast (if m.status = 0 then yes else no) m
    | stopped => stopped
  | .loop untilSo condition body =>
    rounds (recur false condition) (recur false body) untilSo longestLoop 0 m
  | .forEach name words body =>
    let (m, items) := expand (outputOf recur) m words
    through (recur false body) name items (m.ended 0)

def run : Nat → Runner
  | 0 => fun _ _ m => ({ m with clock := m.deadline }, .late)
  | fuel + 1 => step (run fuel)

/-- The exit code of a command that a signal has ended. -/
def killedCode : Int := -1

/-- Have a command carried out by a shell that works on files and is given some milliseconds. A
shell that is not back by then is not waited for; what it has done to the files stays. -/
def execute (files : Files.Tree) (environment : List (String × String)) (command : String)
    (timeout : Nat) : Answer × Files.Tree :=
  let own : Surroundings := { bindings := environment, exported := environment.map Prod.fst }
  let m : Machine := { files, own, deadline := timeout }
  if timeout = 0 then ({ reply := .refused (.timedOut timeout) }, files)
  else
    let (m, flow) := runText (run (command.length + 64)) true command m
    let left := { m.files with here := files.here }
    let ended (exitCode : Int) : Answer × Files.Tree :=
      let outcome := { exitCode, stdout := m.output.shown, stderr := m.complaints.shown }
      ({ delay := m.clock, reply := .exited outcome }, left)
    match flow with
    | .late => ({ delay := timeout, reply := .refused (.timedOut timeout) }, left)
    | .killed _ _ => ended killedCode
    | .onward | .leave | .breakOut _ | .nextRound _ => ended m.status

end Runbook.Shell
