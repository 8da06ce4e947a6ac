import Runbook.Markdown.Checkbox
import Runbook.Markdown.CodeSpan
import Runbook.Markdown.Field
import Runbook.Markdown.Outline
import Runbook.Plan.Basic

/-!
# Reading a plan

A plan is a Markdown document with a section of tasks. Its header fields may stand in a section of
their own or anywhere; commands that prepare a run stand in verbatim blocks of a third section.
Whatever the document says otherwise is left to its readers.

## 1. Tasks

The section of tasks is read block by block (`readGroups`). The heading of a block says what it is:
`Task 3: Name` starts a task in the group that is open, any other title opens a group. A task's
rows are read up to its verify command (`readRows`), which closes it.

## 2. What is refused

A fence that nothing closes, a document without tasks, a task number that cannot be stored, and a
name or number that is used twice. Every refusal names its line. Anything else is a plan.
-/

set_option autoImplicit false

namespace Runbook.Plan

open Text Markdown

/-! ## Header fields -/

/-- The first line outside of verbatim text that holds a field, with the field's value. -/
def readField? (label : String) (lines : List Line) : Option (Nat × List Char) :=
  lines.findSome? fun l =>
    if l.isFenced then none else (fieldValue? label l.text).map fun value => (l.number, value)

/-- The items of a checklist, up to the first line that is neither an item nor blank. -/
def readItems : List Line → List String
  | [] => []
  | l :: ls =>
    if trim l.text = [] then readItems ls
    else match itemText? l.text with
      | some item => String.ofList item :: readItems ls
      | none => []

/-- The checklist under the label of the success criteria. -/
def readCriteria (lines : List Line) : List String :=
  match lines.dropWhile fun l => !occursIn (fieldMarker "Success Criteria") l.text with
  | [] => []
  | _ :: below => readItems below

/-- The body of the first section of a title, empty when there is none. -/
def sectionBody (o : Outline) (title : String) : List Line :=
  match o.sectionTitled? title.toList .anyHeading with
  | some s => s.body
  | none => []

/-- A field of the header: the section of header fields goes before the rest of the document. -/
def headerField? (o : Outline) (label : String) : Option (Nat × List Char) :=
  (readField? label (sectionBody o "Specification")).or (readField? label o.lines)

/-- The header of a plan. A field that is missing, or a type that is empty, is what it is by default; a
status that is there counts even when its word is empty. -/
def readSpecification (o : Outline) : Specification :=
  let block := sectionBody o "Specification"
  let default : Specification := {}
  { goal := match readField? "Goal" block with
      | some (_, goal) => String.ofList goal
      | none => default.goal
    criteria := readCriteria block
    kind := match headerField? o "Type" with
      | some (_, c :: kind) => String.ofList (c :: kind)
      | _ => default.kind
    status := match headerField? o "Status" with
      | some (_, word) => PlanStatus.ofWord (String.ofList word)
      | none => default.status }

/-! ## Commands that prepare a run -/

/-- The words behind a fence that mark its text as a command. -/
def commandLanguages : List (List Char) := ["", "bash", "sh", "shell"].map String.toList

/-- Lines with a line feed between each two, as a command of several lines is handed over. -/
def joinLines (texts : List (List Char)) : List Char := ['\n'].intercalate texts

/-- The commands of a section: its verbatim blocks in a shell's language. -/
def readContext (lines : List Line) : List String :=
  (codeBlocks lines).filterMap fun b =>
    let command := trim (joinLines b.body)
    if commandLanguages.contains b.info && command != [] then some (String.ofList command)
    else none

/-! ## Tasks -/

/-- The number, as written, and the name in the title of a task. -/
def taskTitle? (title : List Char) : Option (List Char × List Char) :=
  match "Task".toList.isPrefixOf? title with
  | some (c :: behind) =>
    let word := trimStart (c :: behind)
    let digits := word.takeWhile isDigit
    match word.dropWhile isDigit with
    | ':' :: name =>
      if isBlank c ∧ digits ≠ [] ∧ name ≠ [] then some (digits, trim name) else none
    | _ => none
  | _ => none

/-- What a row says about its task. -/
inductive Row where
  | context (rest : List Char)
  | steps
  | verify (rest : List Char)
  | other
deriving DecidableEq, Repr

/-- The row without the blanks around it, told by the label it starts with. -/
def rowOf (row : List Char) : Row :=
  match (fieldMarker "Context").isPrefixOf? row with
  | some rest => .context rest
  | none =>
    if (fieldMarker "Steps").isPrefixOf row then .steps
    else match (fieldMarker "Verify").isPrefixOf? row with
      | some rest => .verify rest
      | none => .other

/-- The text without code quotes at its ends. -/
def unquoted (cs : List Char) : List Char :=
  ((cs.dropWhile (· == codeQuote)).reverse.dropWhile (· == codeQuote)).reverse

/-- The context that a label introduces: its code spans, or without any the whole text. -/
def contextValue (rest : List Char) : List Char :=
  match (codeSpans rest).map trim |>.filter (· ≠ []) with
  | [] => trim (unquoted (trim rest))
  | spans => [',', ' '].intercalate spans

/-- The command that a label introduces: its first code span, or without one the whole text. -/
def commandValue (rest : List Char) : List Char :=
  match codeSpans rest with
  | [] => trim rest
  | span :: _ => trim span

/-- A task, completed by its rows. Numbered items count once the label of the steps has been seen,
and the verify command ends the task. -/
def readRows (inSteps : Bool) (t : Task) : List Line → Task
  | [] => t
  | l :: ls =>
    if l.isFenced then readRows inSteps t ls
    else
      let row := trim l.text
      match rowOf row with
      | .context rest =>
        readRows inSteps { t with context := String.ofList (contextValue rest) } ls
      | .steps => readRows true t ls
      | .verify rest => { t with verify := String.ofList (commandValue rest) }
      | .other =>
        match if inSteps then stepText? row else none with
        | some step => readRows inSteps (t.addStep (String.ofList step) l.number) ls
        | none => readRows inSteps t ls

/-- The groups of some blocks, given those that are closed and the one that is open.

A heading with the name of the group of tasks without a heading is no second group as long as that
group is open and unused: it only says what is so already. -/
def readGroups (closed : List TaskGroup) (current : TaskGroup) :
    List Block → Except ParseError (List TaskGroup)
  | [] => .ok (closed ++ [current])
  | b :: bs =>
    match taskTitle? b.heading.title with
    | some (digits, name) =>
      match natBelow? Task.numberBound digits with
      | none => .error (.atLine b.heading.line (.numberOutOfRange (String.ofList digits)))
      | some number =>
        let task := readRows false (Task.new number (String.ofList name)) b.rows
        -- a number may come again in another group
        if (current.task? task.id).isSome then
          .error (.atLine b.heading.line (.repeatedTask task.id current.name))
        else readGroups closed (current.addTask task) bs
    | none =>
      let name := String.ofList b.heading.title
      if name = TaskGroup.general ∧ closed = [] ∧ current.tasks = [] then
        readGroups closed current bs
      else if name ∈ (closed ++ [current]).map (·.name) then
        .error (.atLine b.heading.line (.repeatedGroup name))
      else readGroups (closed ++ [current]) (TaskGroup.new name) bs

/-- The groups of the lines of a section. Tasks above the first heading of a group are general. -/
def readTasks (lines : List Line) : Except ParseError (List TaskGroup) :=
  readGroups [] (TaskGroup.new TaskGroup.general) (blocks lines)

/-! ## Plans -/

/-- The section of tasks goes on below headings of a lower rank, which are those of groups and tasks. -/
def taskSection? (o : Outline) : Option Section := o.sectionTitled? "Tasks".toList .sameLevel

/-- The plan that a text says, or the first thing that keeps it from being one. Fences are looked at
first: with one left open it would not be known which lines are headings. -/
def parse (text : String) : Except ParseError Plan :=
  let outline := Outline.ofText text.toList
  match outline.openFence? with
  | some line => .error (.atLine line .unterminatedFence)
  | none =>
    match taskSection? outline with
    | none => .error .missingTasks
    | some tasks =>
      (readTasks tasks.body).map fun groups =>
        { path := none
          text
          spec := readSpecification outline
          context := readContext (sectionBody outline "Context Loading")
          groups
          statusLine := (headerField? outline "Status").map (·.1) }

end Runbook.Plan
