import Runbook.Session

/-!
# The program

The outermost layer: it gathers what a session finds, lets the session happen, and leaves behind
what the session leaves. Everything in between is `Runbook.session`.
-/

set_option autoImplicit false

namespace Runbook.Program

def contentOf (bytes : ByteArray) : Files.Content :=
  match String.fromUTF8? bytes with
  | some text => .text text
  | none => .bytes bytes.toList

/-- The tree with one more thing that was not in it before. -/
def add (t : Files.Tree) (path : String) (node : Files.Node) : Files.Tree :=
  { t with nodes := (Files.components path, node) :: t.nodes }

/-- Directories that lie deeper below each other are left out. -/
def greatestDepth : Nat := 64

/-- The tree with everything that directory entries lead to. Links are followed to files only. -/
def gather : Nat → Files.Tree → Array IO.FS.DirEntry → IO Files.Tree
  | 0, t, _ => return t
  | depth + 1, t, entries =>
    entries.foldlM (fun t e => do
      let path := e.path.toString
      if (← e.path.symlinkMetadata).type matches .dir then
        gather depth (add t path .directory) (← e.path.readDir)
      else if ← e.path.isDir then
        return t
      else
        try return add t path (.file (contentOf (← IO.FS.readBinFile path)))
        catch _ => return t) t

/-- The tree with the directories that lead to a path. -/
def withParents (t : Files.Tree) (path : String) : Files.Tree :=
  let place := Files.components path
  (List.range (place.length - 1)).foldl (fun t n =>
    let parent := place.take (n + 1)
    if (t.at? parent).isSome then t
    else { t with nodes := (parent, .directory) :: t.nodes }) t

/-- The tree with a file, if there is one that it does not have yet. -/
def withFile (t : Files.Tree) (path : String) : IO Files.Tree := do
  try
    let real := (← IO.FS.realPath path).toString
    let content := contentOf (← IO.FS.readBinFile real)
    let t := withParents t real
    if (t.at? (Files.components real)).isSome then return t
    return add t real (.file content)
  catch _ => return t

/-- The moment on the system's clock, read off a file that is made for it. -/
def now : IO Time.Instant := do
  let (_, path) ← IO.FS.createTempFile
  let made := (← path.metadata).modified
  IO.FS.removeFile path
  return ⟨made.sec * Time.Instant.second + made.nsec.toNat⟩

/-- Make the files and directories of one tree what they are in another. -/
def leave (before after : Files.Tree) : IO Unit := do
  let pathOf (place : Files.Place) : String := "/" ++ "/".intercalate place
  for (place, node) in after.nodes do
    match node with
    | .directory => if before.at? place != some node then IO.FS.createDirAll (pathOf place)
    | .file c =>
      if before.at? place != some node then
        IO.FS.writeBinFile (pathOf place) ⟨(Files.Tree.bytesOf c).toArray⟩
  for (place, node) in before.nodes do
    if (after.at? place).isNone then
      match node with
      | .file _ => IO.FS.removeFile (pathOf place)
      | .directory => if (after.at? place.dropLast).isSome then IO.FS.removeDirAll (pathOf place)

def environment : IO (List (String × String)) := do
  let names := ["HOME", "PATH", "USER", "LANG", "XDG_CONFIG_HOME", "XDG_DATA_HOME"]
  names.filterMapM fun name => return (← IO.getEnv name).map fun value => (name, value)

end Runbook.Program

def main (arguments : List String) : IO UInt32 := do
  let here ← IO.currentDir
  let surroundings : Runbook.Settings.Surroundings :=
    { home := ← IO.getEnv "HOME", configHome := ← IO.getEnv "XDG_CONFIG_HOME"
      dataHome := ← IO.getEnv "XDG_DATA_HOME" }
  let empty : Runbook.Files.Tree := { here := Runbook.Files.components here.toString }
  let found ← Runbook.Program.gather Runbook.Program.greatestDepth
    (Runbook.Program.withParents empty (here.toString ++ "/x")) (← here.readDir)
  let files ← (surroundings.searchPaths ++ arguments).foldlM Runbook.Program.withFile found
  let now ← Runbook.Program.now
  let start : Runbook.Session.Start :=
    { files, surroundings, environment := ← Runbook.Program.environment, now
      today := now.date.render }
  let finish := Runbook.session start arguments
  Runbook.Program.leave files finish.files
  IO.print finish.shown
  IO.eprint finish.complaints
  return finish.exitCode.toUInt32
