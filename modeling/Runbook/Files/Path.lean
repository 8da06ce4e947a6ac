import Runbook.Text.Split

/-!
# Path names

A path name is text with `/` between its components. Nothing here touches a file: joining and
taking apart are textual, so that a name is shown to the user exactly as it was put together.
-/

set_option autoImplicit false

namespace Runbook.Files

def isAbsolute (path : String) : Bool := path.toList.head? == some '/'

/-- The second name seen from the first. An absolute second name stands by itself, and an empty
first one adds nothing. -/
def join (base path : String) : String :=
  if isAbsolute path || base.isEmpty then path
  else if base.toList.getLast? == some '/' then base ++ path
  else base ++ "/" ++ path

/-- The components of a name, without the empty ones and the dots that stay where they are. -/
def components (path : String) : List String :=
  ((Text.pieces '/' path.toList).filter fun p => p != [] && p != ['.']).map String.ofList

/-- The last component, unless it leads upwards. -/
def fileName? (path : String) : Option String :=
  (components path).getLast?.filter (· ≠ "..")

/-- A file name cut at its last dot; a dot in front hides the file and cuts nothing. -/
def splitExtension (name : List Char) : List Char × Option (List Char) :=
  match (name.reverse.dropWhile (· ≠ '.')) with
  | [] => (name, none)
  | [_] => (name, none)
  | _ :: before => (before.reverse, some (name.drop (before.length + 1)))

def stem? (path : String) : Option String :=
  (fileName? path).map fun n => String.ofList (splitExtension n.toList).1

def extension? (path : String) : Option String :=
  (fileName? path).bind fun n => (splitExtension n.toList).2.map String.ofList

end Runbook.Files
