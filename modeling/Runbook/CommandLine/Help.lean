import Runbook.CommandLine.Parameter

/-!
# Help

What is written when help is asked for: how the program or one of its verbs is called, what it does,
and everything that may be said to it.
-/

set_option autoImplicit false

namespace Runbook.CommandLine

def programName : String := "px"

def programVersion : String := programName ++ " 0.1.0\n"

def programSummary : String :=
  "Dependency-ordered parallel executor for markdown implementation plans"

/-- What stands for the value of a parameter. -/
def Parameter.valueName (p : Parameter) : String :=
  "<" ++ String.ofList (p.word.toList.map fun c => if c = '-' then '_' else c.toUpper) ++ ">"

def Parameter.shown (p : Parameter) : String :=
  let letter := match p.letter? with
    | some c => "-" ++ String.singleton c ++ ", "
    | none => "    "
  letter ++ "--" ++ p.word ++ (if p.takesValue then " " ++ p.valueName else "")

/-- Two columns, the first one as wide as its widest entry. -/
def columns (rows : List (String × String)) : String :=
  let width := rows.foldl (fun w (left, _) => max w left.length) 0
  String.join (rows.map fun (left, right) =>
    "  " ++ left ++ String.ofList (List.replicate (width - left.length + 2) ' ') ++ right ++ "\n")

/-- The help on a scope, with an end of its own for the whole program. -/
def help (scope : Scope) (ending : String) : String :=
  let options := "Options:\n" ++ columns (scope.options.map fun p => (p.shown, p.summary))
  match scope with
  | none =>
    programSummary ++ "\n\nUsage: " ++ programName ++ " [OPTIONS] [COMMAND]\n\nCommands:\n"
      ++ columns (Verb.all.map fun v => (v.name, v.summary)) ++ "\n" ++ options ++ "\n" ++ ending
  | some v =>
    let places := scope.places.map fun p => (p.valueName, p.summary)
    let required := (scope.required.filter fun p => !scope.places.contains p).map fun p =>
      " --" ++ p.word ++ " " ++ p.valueName
    v.summary ++ "\n\nUsage: " ++ programName ++ " " ++ v.name ++ " [OPTIONS]"
      ++ String.join required ++ String.join (places.map fun (name, _) => " " ++ name) ++ "\n\n"
      ++ (if places.isEmpty then "" else "Arguments:\n" ++ columns places ++ "\n") ++ options

end Runbook.CommandLine
