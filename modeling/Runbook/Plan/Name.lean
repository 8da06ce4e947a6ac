import Runbook.Text.Case
import Runbook.Text.Split
import Runbook.Text.WordChar

/-!
# Names of plans

A plan is named by whoever makes it. From the name come the title of the document (`titleCase`)
and its file name (`fileName`), which begins with the day the plan was made so that a listing is in
order of time.

A file name keeps the letters of every script (`Text.isWordChar`). What separates words becomes
one hyphen; everything else goes. What is left cannot lead out of a directory, because neither a
slash nor a dot is a word character.
-/

set_option autoImplicit false

namespace Runbook.PlanName

open Text

/-- Hyphens and blanks set words apart. -/
def isSeparator (c : Char) : Bool := c == '-' || isBlank c

/-- The characters of a name that its file name may hold, in lower case. -/
def kept (name : List Char) : List Char :=
  (lower (trim name)).filter fun c => isWordChar c || isSeparator c

/-- The words of a name in lower case, with a hyphen between each two. -/
def slug (name : String) : String :=
  String.ofList (['-'].intercalate (stretches (!isSeparator ·) (kept name.toList)))

/-- A word with a capital in front and small letters behind. -/
def capitalized : List Char → List Char
  | [] => []
  | c :: cs => upperChar c ++ cs.flatMap lowerChar

/-- The name as a title: its words capitalised, with hyphens and underscores read as blanks. -/
def titleCase (name : String) : String :=
  let spaced := name.toList.map fun c => if c = '-' ∨ c = '_' then ' ' else c
  String.ofList ([' '].intercalate ((words spaced).map capitalized))

/-- The file name of a plan made on a day. A name of which nothing is left gives way to a word that
says what the file is. -/
def fileName (day name : String) : String :=
  let slug := slug name
  day ++ "-" ++ (if slug = "" then "plan" else slug) ++ ".md"

end Runbook.PlanName
