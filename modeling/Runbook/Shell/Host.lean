import Runbook.Shell.Run

/-!
# A shell as a host

Commands are carried out by a shell in one directory. Before it can start, the directory has to be
there and the command has to be one that can be handed over.
-/

set_option autoImplicit false

namespace Runbook.Shell

/-- A longer command, counted in bytes, is not handed over. -/
def longestCommand : Nat := 131071

/-- Why a command cannot even be started. -/
def obstacle? (files : Files.Tree) (directory command : String) : Option String :=
  if '\x00' ∈ command.toList then some "nul byte found in provided data"
  else
    match files.locate directory with
    | .error e => some e.message
    | .ok place =>
      match files.at? place with
      | none => some FileError.notFound.message
      | some (.file _) => some FileError.notDirectory.message
      | some .directory =>
        if command.utf8ByteSize > longestCommand then some "Argument list too long (os error 7)"
        else none

/-- Have a command carried out in a directory within some milliseconds. The working directory of the
tree stays what it is. -/
def runIn (files : Files.Tree) (directory : String) (environment : List (String × String))
    (command : String) (timeout : Nat) : Answer × Files.Tree :=
  match obstacle? files directory command with
  | some cause => ({ reply := .refused (.notStarted cause) }, files)
  | none =>
    let here := (files.locate directory).toOption.getD files.here
    let (answer, after) := execute { files with here } environment command timeout
    (answer, { after with here := files.here })

end Runbook.Shell
