import Runbook.Execution.Settings
import Runbook.Files.Tree
import Runbook.Yaml.Reader

/-!
# Settings

Where plans are kept, where commands run, and how. Settings are read from a YAML file that may leave
out any of them and may say things that are none; it may not say the same thing twice, and a number
or a truth value has to be one.

A file that is named must load. Without a name the first of two usual files that loads is taken
(`Settings.load`), and a file that does not load is as good as none.
-/

set_option autoImplicit false

namespace Runbook

structure Settings where
  /-- Where plans are kept; names of plans are looked up here. -/
  plansDirectory : String := "plans"
  /-- Where commands run. -/
  projectRoot : String := "."
  logLevel : Option String := none
  execution : RunSettings := {}
deriving DecidableEq, Repr, Inhabited

/-! ## Values -/

namespace Settings

open Yaml

/-- Any scalar, as it is written. -/
def text? : Node → Option String
  | .scalar text _ _ => some text
  | _ => none

def isNull (text : String) : Bool := ["null", "Null", "NULL", "~"].contains text

/-- A scalar or nothing. -/
def optionalText? : Node → Option (Option String)
  | .scalar text .plain none => some (if text = "" || isNull text then none else some text)
  | .scalar text .plain (some tag) =>
    if tag = "tag:yaml.org,2002:null" then if isNull text then some none else none
    else some (some text)
  | n => (text? n).map some

/-- The text of a scalar that may be something else than text: a plain one, or one that a tag says
is. -/
def literal? (tag : String) : Node → Option String
  | .scalar text .plain _ => some text
  | .scalar text .literal (some t) => if t = tag then some text else none
  | _ => none

/-- The digits of a number in some base, of which there is at least one. -/
def natInBase? (base : Nat) (cs : List Char) : Option Nat :=
  if cs.isEmpty then none
  else cs.foldlM (fun n c =>
    (hexValue? c).bind fun d => if d < base then some (n * base + d) else none) 0

/-- A whole number that is not negative, with a sign or in another base if it likes. A zero in
front makes it text. -/
def nat? (n : Node) : Option Nat := do
  let text ← literal? "tag:yaml.org,2002:int" n
  let unsigned := match text.toList with
    | '+' :: cs => cs
    | cs => cs
  let value ← match unsigned with
    | '0' :: 'x' :: cs => natInBase? 16 cs
    | '0' :: 'o' :: cs => natInBase? 8 cs
    | '0' :: 'b' :: cs => natInBase? 2 cs
    | '0' :: _ :: _ => none
    | cs => natInBase? 10 cs
  if value < 18446744073709551616 then some value else none

def bool? (n : Node) : Option Bool := do
  let text ← literal? "tag:yaml.org,2002:bool" n
  if ["true", "True", "TRUE"].contains text then some true
  else if ["false", "False", "FALSE"].contains text then some false
  else none

/-- A sequence of scalars. Where nothing is written it is empty. -/
def texts? : Node → Option (List String)
  | .sequence items => items.mapM text?
  | .scalar "" .plain _ => some []
  | _ => none

/-! ## Records -/

/-- The members of a mapping whose keys are among some names, which may not come twice. Where
nothing is written there are none. -/
def members? (names : List String) : Node → Option (List (String × Node))
  | .mapping members =>
    members.foldlM (fun found (key, value) => do
      let name ← text? key
      if !names.contains name then return found
      else if (found.lookup name).isSome then none
      else return (name, value) :: found) []
  | .scalar "" .plain _ => some []
  | _ => none

/-- The value of a member, or what stands for it when it is left out. -/
def member? {α : Type} (members : List (String × Node)) (name : String) (standing : α)
    (read : Node → Option α) : Option α :=
  match members.lookup name with
  | some n => read n
  | none => some standing

def runNames : List String :=
  ["batch-size", "command-timeout-secs", "context-timeout-secs", "command-prefixes", "mark-steps",
   "execution-log-dir"]

def ofRunNode? (n : Node) : Option RunSettings := do
  let given ← members? runNames n
  let d : RunSettings := {}
  let batchSize ← member? given "batch-size" d.batchSize nat?
  let commandTimeout ← member? given "command-timeout-secs" d.commandTimeout nat?
  let contextTimeout ← member? given "context-timeout-secs" d.contextTimeout nat?
  let programs ← member? given "command-prefixes" d.programs texts?
  let markSteps ← member? given "mark-steps" d.markSteps bool?
  let logDirectory ← member? given "execution-log-dir" d.logDirectory optionalText?
  return { batchSize, commandTimeout, contextTimeout, programs, markSteps, logDirectory }

def names : List String := ["plans-dir", "project-root", "log-level", "execution"]

def ofNode? (n : Node) : Option Settings := do
  let given ← members? names n
  let d : Settings := {}
  let plansDirectory ← member? given "plans-dir" d.plansDirectory text?
  let projectRoot ← member? given "project-root" d.projectRoot text?
  let logLevel ← member? given "log-level" d.logLevel optionalText?
  let execution ← member? given "execution" d.execution ofRunNode?
  return { plansDirectory, projectRoot, logLevel, execution }

/-- The settings that a text holds. A text that says nothing leaves everything as it is. -/
def parse? (text : String) : Option Settings :=
  match Yaml.read? text with
  | none => none
  | some none => some {}
  | some (some n) => ofNode? n

/-! ## Files -/

/-- What the program knows of its user. -/
structure Surroundings where
  home : Option String := none
  configHome : Option String := none
  dataHome : Option String := none
deriving DecidableEq, Repr, Inhabited

namespace Surroundings

/-- A directory of the user: the one that is given in full, or one in their home. -/
def directory? (given home : Option String) (below : String) : Option String :=
  (given.filter Files.isAbsolute).or (home.map (Files.join · below))

def configDirectory? (s : Surroundings) : Option String :=
  directory? s.configHome s.home ".config"

def dataDirectory? (s : Surroundings) : Option String :=
  directory? s.dataHome s.home ".local/share"

/-- The settings files that are looked for when none is named, nearest first. -/
def searchPaths (s : Surroundings) : List String :=
  ".planexec.yml" ::
    (s.configDirectory?.map fun d => Files.join (Files.join d "planexec") "planexec.yml").toList

/-- The file that tells what the program has been doing. -/
def logPath (s : Surroundings) : String :=
  ["planexec", "logs", "planexec.log"].foldl Files.join (s.dataDirectory?.getD ".")

/-- What the help ends with. -/
def helpEnd (s : Surroundings) : String := "Logs are written to: " ++ s.logPath ++ "\n"

end Surroundings

def loadFile? (t : Files.Tree) (path : String) : Option Settings :=
  (t.readText path).toOption.bind parse?

/-- Why settings cannot be loaded from a file that is named. -/
def notLoaded (path : String) : String := "Failed to load config from " ++ path

/-- The settings to go by, or what is wrong with the file that was named. -/
def load (t : Files.Tree) (s : Surroundings) (named : Option String) : Except String Settings :=
  match named with
  | some path =>
    match loadFile? t path with
    | some settings => .ok settings
    | none => .error (notLoaded path)
  | none => .ok ((s.searchPaths.findSome? (loadFile? t)).getD {})

/-- The file that the name of a plan means: as it stands if it is absolute or leads to something,
and otherwise in the directory of plans. -/
def planPath (s : Settings) (t : Files.Tree) (plan : String) : String :=
  if Files.isAbsolute plan || t.pathExists plan then plan else Files.join s.plansDirectory plan

end Settings

end Runbook
