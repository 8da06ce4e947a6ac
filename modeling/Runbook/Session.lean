import Runbook.CommandLine.Help
import Runbook.CommandLine.Reading
import Runbook.Execution.Run
import Runbook.Journal.Audit
import Runbook.Plan.Library
import Runbook.Settings
import Runbook.Shell.Host

/-!
# Sessions

A session is one call of the program, from the command line to the exit code. All that it finds goes
into it and all that it leaves comes out of it: files, what is shown, and what is complained about.

The command line is read first. Then the user's own log is begun, at a level that the command line
or the settings name; only after that do faulty settings count. What the session says while it
carries out a plan is its journal.
-/

set_option autoImplicit false

namespace Runbook.Session

/-- What a session finds. -/
structure Start where
  files : Files.Tree
  surroundings : Settings.Surroundings := {}
  environment : List (String × String) := []
  now : Time.Instant
  /-- The day where the user is. -/
  today : String

/-- What a session leaves. -/
structure Finish where
  files : Files.Tree
  shown : String := ""
  complaints : String := ""
  exitCode : Nat := 0

/-! ## The host -/

/-- What commands work on, and where entries of a run are kept. -/
structure Desk where
  files : Files.Tree
  projectRoot : String
  environment : List (String × String)
  now : Time.Instant
  auditFile : Option String := none

/-- The audit file is held open: once it has been taken away nothing more is written to it. -/
def Desk.note (d : Desk) (clock : Nat) (e : Entry) : Desk :=
  let file := d.auditFile.filter d.files.isFile
  { d with files := Audit.note d.files file (d.now.later clock) e, auditFile := file }

/-- Commands run in the project's directory. -/
def host : Host Desk where
  run d command timeout :=
    let (answer, files) := Shell.runIn d.files d.projectRoot d.environment command timeout
    (answer, { d with files })
  write d path text :=
    match d.files.writeText path text with
    | .ok files => (.ok (), { d with files })
    | .error e => (.error e, d)
  note := Desk.note

/-! ## Beginning the log -/

/-- The levels that the log may have. -/
def logLevels : List String := ["TRACE", "DEBUG", "INFO", "WARN", "WARNING", "ERROR"]

def unknownLevel (level : String) : String :=
  "Warning: Unknown log-level '" ++ level ++ "', defaulting to INFO\n"

def isLevel (level : String) : Bool :=
  logLevels.contains (String.ofList (Text.upper level.toList))

/-- The directory that a path name leads to. -/
def parentOf (path : String) : String :=
  String.ofList ((path.toList.reverse.dropWhile (· ≠ '/')).drop 1).reverse

/-- The tree with a fresh log, the complaint about its level, and whether it could be made. -/
def beginLog (t : Files.Tree) (path : String) (level : Option String) :
    Files.Tree × String × Bool :=
  match t.createDirectories (parentOf path) with
  | (t, .error _) => (t, "", false)
  | (t, .ok ()) =>
    let complaint := match level with
      | some level => if isLevel level then "" else unknownLevel level
      | none => ""
    match t.writeText path "" with
    | .ok t => (t, complaint, true)
    | .error _ => (t, complaint, false)

/-! ## Commands -/

/-- Why a session cannot go on, with the cause. -/
def stopped (what cause : String) : String :=
  "Error: " ++ what ++ "\n\nCaused by:\n    " ++ cause ++ "\n"

/-- A session that has failed, and says why. -/
def failed (t : Files.Tree) (message : String) : Finish :=
  { files := t, shown := (Entry.mk .error message).shown, exitCode := 1 }

/-- A session that has done what it was told. -/
def succeeded (t : Files.Tree) (message : String) : Finish :=
  { files := t, shown := (Entry.mk .success message).shown }

def run (start : Start) (t : Files.Tree) (settings : Settings) (plan : String)
    (batchSize : Option Nat) (dryRun quiet markSteps : Bool) : Finish :=
  let given := settings.execution
  let execution : RunSettings :=
    { given with
      batchSize := batchSize.getD given.batchSize
      markSteps := given.markSteps || markSteps }
  match Plan.load t (settings.planPath t plan) with
  | .error e => failed t ("Failed to parse plan: " ++ e.message)
  | .ok p =>
    let desk : Desk :=
      { files := t, projectRoot := settings.projectRoot, environment := start.environment
        now := start.now }
    let opened : Except FileError Desk × Files.Tree :=
      match dryRun, execution.logDirectory with
      | false, some directory =>
        match Audit.prepare t directory p.name with
        | (t, .ok path) => (.ok { desk with files := t, auditFile := some path }, t)
        | (t, .error e) => (.error e, t)
      | _, _ => (.ok desk, t)
    match opened with
    | (.error e, t) =>
      { files := t, complaints := stopped "Failed to open execution log" e.message, exitCode := 1 }
    | (.ok desk, _) =>
      match Run.execute host execution dryRun { host := desk } p with
      | .error message => { files := desk.files, complaints := message ++ "\n", exitCode := 101 }
      | .ok r =>
        { files := r.world.host.files, shown := r.world.journal.shown quiet
          exitCode := r.report.exitCode }

def list (t : Files.Tree) (settings : Settings) : Finish :=
  match Plan.list t settings.plansDirectory with
  | none => { files := t, shown := "No plans directory found.\n" }
  | some [] => { files := t, shown := "No plans found.\n" }
  | some paths =>
    let line (path : String) : String :=
      match Files.fileName? path with
      | some name => "  - " ++ name ++ "\n"
      | none => ""
    { files := t, shown := "\nAvailable plans:\n\n" ++ String.join (paths.map line) ++ "\n" }

def obey (start : Start) (t : Files.Tree) (settings : Settings) : CommandLine.Command → Finish
  | .run plan batchSize dryRun quiet markSteps =>
    run start t settings plan batchSize dryRun quiet markSteps
  | .list => list t settings
  | .new template name goal =>
    match Plan.create t settings.plansDirectory template name goal start.today with
    | (t, .ok path) => succeeded t ("Created plan: " ++ path)
    | (t, .error e) => failed t e.message
  | .addGroup plan name tasks =>
    let path := settings.planPath t plan
    match Plan.addGroup t path name tasks with
    | .ok (t, _) =>
      succeeded t
        ("Added group " ++ name ++ " with " ++ toString tasks.length ++ " tasks to " ++ path)
    | .error e => failed t e.message

/-- A session whose log has been begun. -/
def proceed (start : Start) (t : Files.Tree) (i : CommandLine.Invocation) : Finish :=
  match Settings.load t start.surroundings i.config with
  | .error cause =>
    { files := t, complaints := stopped "Failed to load configuration" cause, exitCode := 1 }
  | .ok settings =>
    match i.command with
    | none =>
      { files := t, shown := CommandLine.help none start.surroundings.helpEnd, exitCode := 1 }
    | some command => obey start t settings command

/-- A session with a command line that has been understood. -/
def serve (start : Start) (i : CommandLine.Invocation) : Finish :=
  let early := (Settings.load start.files start.surroundings i.config).toOption
  match beginLog start.files start.surroundings.logPath
      (i.logLevel.or (early.bind (·.logLevel))) with
  | (t, complaint, false) =>
    { files := t, exitCode := 1
      complaints := complaint ++ stopped "Failed to setup logging" start.surroundings.logPath }
  | (t, complaint, true) =>
    let finish := proceed start t i
    { finish with complaints := complaint ++ finish.complaints }

end Session

/-- One call of the program. -/
def session (start : Session.Start) (arguments : List String) : Session.Finish :=
  match CommandLine.parse arguments with
  | .ok i => Session.serve start i
  | .error (.help scope) =>
    { files := start.files, shown := CommandLine.help scope start.surroundings.helpEnd }
  | .error .version => { files := start.files, shown := CommandLine.programVersion }
  | .error (.wrong e) =>
    { files := start.files, complaints := "error: " ++ e.message ++ "\n", exitCode := 1 }

end Runbook
