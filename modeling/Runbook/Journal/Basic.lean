/-!
# The journal of a run

While a plan is carried out the library says what it does, line by line. A line is an *entry* of
some level, which is kept, or a *detail*, which is only shown. A journal is the list of all lines
said; what is kept and what is shown are two readings of it (`Journal.entries`,
`Journal.shown`).
-/

set_option autoImplicit false

namespace Runbook

/-- How an entry is to be taken. -/
inductive Level where
  | info
  | success
  | warn
  | error
deriving DecidableEq, Repr, Inhabited

namespace Level

def all : List Level := [.info, .success, .warn, .error]

/-- The name of a level, as records have it. -/
def word : Level → String
  | .info => "info"
  | .success => "success"
  | .warn => "warn"
  | .error => "error"

/-- The mark in front of an entry that is shown. -/
def tag : Level → String
  | .info => "[INFO]"
  | .success => "[OK]"
  | .warn => "[WARN]"
  | .error => "[ERROR]"

def ofWord? (word : String) : Option Level := all.find? (·.word == word)

/-- A level is found by its name. No two have the same. -/
theorem ofWord?_word (l : Level) : ofWord? l.word = some l := by cases l <;> decide

end Level

/-- Something said that is kept, with how it is to be taken. -/
structure Entry where
  level : Level
  message : String
deriving DecidableEq, Repr, Inhabited

def Entry.shown (e : Entry) : String := e.level.tag ++ " " ++ e.message ++ "\n"

namespace Journal

/-- One line that a run has said. -/
inductive Line where
  | detail (text : String)
  | entry (e : Entry)
deriving DecidableEq, Repr

namespace Line

def info (message : String) : Line := .entry ⟨.info, message⟩
def success (message : String) : Line := .entry ⟨.success, message⟩
def warn (message : String) : Line := .entry ⟨.warn, message⟩
def error (message : String) : Line := .entry ⟨.error, message⟩

def entry? : Line → Option Entry
  | .detail _ => none
  | .entry e => some e

/-- What is seen of a line. With quiet, only errors are. -/
def shown (quiet : Bool) : Line → String
  | .detail text => if quiet then "" else text ++ "\n"
  | .entry e => if quiet && e.level != .error then "" else e.shown

end Line

end Journal

/-- The lines said so far, oldest first. -/
structure Journal where
  lines : List Journal.Line := []
deriving DecidableEq, Repr, Inhabited

namespace Journal

/-- A journal only grows at its end, which is why what is said later never changes what was kept. -/
def say (j : Journal) (lines : List Line) : Journal := ⟨j.lines ++ lines⟩

def entries (j : Journal) : List Entry := j.lines.filterMap Line.entry?

def entriesAt (j : Journal) (level : Level) : List Entry := j.entries.filter (·.level == level)

def shown (quiet : Bool) (j : Journal) : String := String.join (j.lines.map (Line.shown quiet))

@[simp] theorem entries_say (j : Journal) (lines : List Line) :
    (j.say lines).entries = j.entries ++ lines.filterMap Line.entry? := by
  simp [say, entries]

end Journal

end Runbook
