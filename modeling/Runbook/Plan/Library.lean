import Runbook.Files.Tree
import Runbook.Plan.Extend
import Runbook.Plan.Template

/-!
# Plans in files

Plans are kept in Markdown files, most of them side by side in one directory. Here they are loaded,
made from templates, added to and listed.
-/

set_option autoImplicit false

namespace Runbook.Plan

open Files

def readFile (t : Tree) (path : String) : Except PlanError String :=
  match t.readText path with
  | .ok text => .ok text
  | .error .notFound => .error (.planNotFound path)
  | .error e => .error (.file e)

def load (t : Tree) (path : String) : Except PlanError Plan :=
  (readFile t path).bind fun text =>
    match parse text with
    | .ok p => .ok { p with path := some path }
    | .error e => .error (.malformed path e)

/-- Make a plan from a template, in a new file of a directory. The tree is given back with whatever
has been made, and the name of the file if that has been. -/
def create (t : Tree) (directory : String) (template : Template) (name goal day : String) :
    Tree × Except PlanError String :=
  match t.createDirectories directory with
  | (t, .error e) => (t, .error (.file e))
  | (t, .ok ()) =>
    let path := join directory (PlanName.fileName day name)
    let text := (template.plan goal).render (template.title name) (some day)
    match t.create path text with
    | .ok t => (t, .ok path)
    | .error .alreadyExists => (t, .error (.planExists path))
    | .error e => (t, .error (.file e))

/-- Add a group to the plan in a file. Nothing is written unless the new text is a plan. -/
def addGroup (t : Tree) (path name : String) (tasks : List Task) :
    Except PlanError (Tree × Plan) :=
  (readFile t path).bind fun text =>
    match (extend text name tasks).bind parse with
    | .error e => .error (.malformed path e)
    | .ok p =>
      match t.writeText path p.text with
      | .error e => .error (.file e)
      | .ok t => .ok (t, { p with path := some path })

/-- The paths of the plans in a directory, in code point order, if there is such a directory. -/
def list (t : Tree) (directory : String) : Option (List String) :=
  if t.isDirectory directory then
    match t.list directory with
    | .error _ => none
    | .ok names =>
      some ((names.map (join directory)).filter fun path =>
        t.isFile path && extension? path == some "md")
  else none

end Runbook.Plan
