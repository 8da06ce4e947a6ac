import Runbook.Markdown.Cursor
import Runbook.Proofs.OutlineIndex
import Runbook.Proofs.ParsedGroups

/-!
# Reading with a cursor

The parser cuts a section into blocks and reads each of them by itself. The same can be done in one pass
with a cursor that all readers share: the reader of the groups finds a heading, hands the cursor to the
reader of the task, and goes on where that one has stopped. Such a pass keeps no more than a place in the
outline, and it looks up the heading on a line by its number.

This file defines that pass and proves that it reads the same.

* What lies ahead of a cursor is a list of lines (`Cursor.ahead`): the line that it is at is the first of
  them (`line?_eq_head?`), and a step leaves the others (`ahead_advance`). Nothing else is used of it.
* A task's rows end at the verify command or at the next heading. In the first case the pass stops in the
  middle of a block, and what is left of the block says nothing to the reader of the groups
  (`readTaskAt_eq`).
* So the groups of a plan and the commands that prepare it are those that the pass finds
  (`groups_of_pass`, `context_of_pass`).
-/

set_option autoImplicit false

namespace Runbook

open Text Markdown

/-! ## What lies ahead -/

namespace Markdown

namespace Cursor

/-- The line that the cursor is at. -/
def line? (o : Outline) (c : Cursor) : Option Line := c.peek?.bind fun n => o.lines[n]?

/-- The lines that the cursor still has before it. -/
def ahead (o : Outline) (c : Cursor) : List Line := (o.lines.take c.stop).drop c.next

/-- What the cursor is at is the first of the lines that it still has before it. -/
theorem line?_eq_head? (o : Outline) (c : Cursor) : c.line? o = (c.ahead o).head? := by
  rw [line?, peek?, ahead, List.head?_drop]
  split
  · rename_i hopen
    exact (List.getElem?_take_of_lt hopen).symm
  · rename_i hclosed
    exact (List.getElem?_take_eq_none (Nat.not_lt.mp hclosed)).symm

/-- A step leaves the others. -/
theorem ahead_advance (o : Outline) (c : Cursor) : c.advance.ahead o = (c.ahead o).tail := by
  rw [ahead, ahead, List.tail_drop, advance]
  split
  · rfl
  · rename_i hclosed
    -- behind its end a cursor stays, and there is nothing before it that a step could take
    have hnone : ∀ n, c.next ≤ n → (o.lines.take c.stop).drop n = [] := fun n hn =>
      List.drop_eq_nil_of_le (by rw [List.length_take]; omega)
    rw [hnone _ (Nat.le_refl _), hnone _ (Nat.le_succ _)]

theorem ahead_eq_cons {o : Outline} {c : Cursor} {l : Line} (here : c.line? o = some l) :
    c.ahead o = l :: c.advance.ahead o := by
  rw [line?_eq_head?] at here
  rw [ahead_advance]
  exact List.eq_cons_of_mem_head? here

theorem ahead_eq_nil {o : Outline} {c : Cursor} (none : c.line? o = none) : c.ahead o = [] := by
  rwa [line?_eq_head?, List.head?_eq_none_iff] at none

theorem left_lt_of_line? {o : Outline} {c : Cursor} {l : Line} (here : c.line? o = some l) :
    c.advance.left < c.left := by
  obtain ⟨n, hn, -⟩ := Option.bind_eq_some_iff.mp here
  exact left_advance_lt hn

end Cursor

/-- A cursor over the body of a section. -/
def Section.cursor (s : Section) : Cursor := ⟨s.start, s.stop⟩

/-- A cursor over the body of a section has the body before it. -/
theorem ahead_cursor {text title : List Char} {ends : SectionEnd} {s : Section}
    (found : (Outline.ofText text).sectionTitled? title ends = some s) :
    s.cursor.ahead (Outline.ofText text) = s.body :=
  (cutOut_of_found found).body.symm

/-- The heading that is found by the number of a line is the heading of that line. -/
theorem headingAt?_number {text : List Char} {l : Line} (mem : l ∈ (Outline.ofText text).lines) :
    (Outline.ofText text).headingAt? l.number = l.heading? := by
  refine Option.ext fun h => ?_
  rw [headingAt?_eq_some_iff (ascending_headings text), Outline.headings, List.mem_filterMap]
  constructor
  · rintro ⟨⟨l', hl', hheading⟩, hline⟩
    rw [line_of_heading? hheading] at hline
    have hsame := getElem?_number hl'
    rw [hline, getElem?_number mem] at hsame
    rwa [Option.some.inj hsame]
  · intro hheading
    exact ⟨⟨l, mem, hheading⟩, line_of_heading? hheading⟩

theorem Cursor.mem_of_line? {o : Outline} {c : Cursor} {l : Line} (here : c.line? o = some l) :
    l ∈ o.lines := by
  obtain ⟨n, -, hn⟩ := Option.bind_eq_some_iff.mp here
  exact List.mem_of_getElem? hn

theorem Cursor.headingAt?_of_line? {text : List Char} {c : Cursor} {l : Line}
    (here : c.line? (Outline.ofText text) = some l) :
    (Outline.ofText text).headingAt? l.number = l.heading? :=
  headingAt?_number (Cursor.mem_of_line? here)

theorem Cursor.fence_iff_of_line? {text : List Char} {c : Cursor} {l : Line}
    (here : c.line? (Outline.ofText text) = some l) : l.kind = .fence ↔ isFence l.text = true :=
  fence_iff_of_mem (Cursor.mem_of_line? here)

end Markdown

namespace Plan

/-! ## One pass over the commands -/

/-- The lines of a verbatim block that has been opened, and the cursor behind the fence that closes it. -/
def bodyAt (o : Outline) (c : Cursor) : List (List Char) × Cursor :=
  match _ : c.line? o with
  | none => ([], c)
  | some l =>
    if isFence l.text then ([], c.advance)
    else
      let rest := bodyAt o c.advance
      (l.text :: rest.1, rest.2)
termination_by c.left
decreasing_by exact Cursor.left_lt_of_line? ‹_›

/-- Reading a body takes the cursor forward, or leaves it at the end. -/
theorem left_bodyAt (o : Outline) (c : Cursor) : (bodyAt o c).2.left ≤ c.left := by
  fun_induction bodyAt o c with
  | case1 => exact Nat.le_refl _
  | case2 c l here => exact Nat.le_of_lt (Cursor.left_lt_of_line? here)
  | case3 c l here _ _ ih => exact ih.trans (Nat.le_of_lt (Cursor.left_lt_of_line? here))

/-- The commands from the cursor on. The body of a block is read by a reader of its own, which moves the
same cursor. -/
def readContextAt (o : Outline) (c : Cursor) : List String :=
  match _ : c.line? o with
  | none => []
  | some l =>
    if isFence l.text then
      let body := bodyAt o c.advance
      let command := trim (joinLines body.1)
      if commandLanguages.contains (fenceInfo l.text) && command != [] then
        String.ofList command :: readContextAt o body.2
      else readContextAt o body.2
    else readContextAt o c.advance
termination_by c.left
decreasing_by
  all_goals have hstep := Cursor.left_lt_of_line? ‹c.line? o = _›
  case _ => exact Nat.lt_of_le_of_lt (left_bodyAt _ _) hstep
  case _ => exact Nat.lt_of_le_of_lt (left_bodyAt _ _) hstep
  case _ => exact hstep

/-! ## One pass over the tasks -/

/-- A task, completed by the lines from the cursor on, and where that leaves the cursor: at the next
heading, or behind the verify command if there is one before it. -/
def readTaskAt (o : Outline) (inSteps : Bool) (t : Task) (c : Cursor) : Task × Cursor :=
  match _ : c.line? o with
  | none => (t, c)
  | some l =>
    -- the heading is left for whoever reads on
    if (o.headingAt? l.number).isSome then (t, c)
    else if l.isFenced then readTaskAt o inSteps t c.advance
    else
      let row := trim l.text
      match rowOf row with
      | .context rest =>
        readTaskAt o inSteps { t with context := String.ofList (contextValue rest) } c.advance
      | .steps => readTaskAt o true t c.advance
      | .verify rest => ({ t with verify := String.ofList (commandValue rest) }, c.advance)
      | .other =>
        match if inSteps then stepText? row else none with
        | some step => readTaskAt o inSteps (t.addStep (String.ofList step) l.number) c.advance
        | none => readTaskAt o inSteps t c.advance
termination_by c.left
decreasing_by all_goals exact Cursor.left_lt_of_line? ‹_›

theorem left_readTaskAt (o : Outline) (inSteps : Bool) (t : Task) (c : Cursor) :
    (readTaskAt o inSteps t c).2.left ≤ c.left := by
  fun_induction readTaskAt o inSteps t c with
  | case1 | case2 => exact Nat.le_refl _
  | case6 inSteps t c l here => exact Nat.le_of_lt (Cursor.left_lt_of_line? here)
  | case3 inSteps t c l here _ _ ih | case4 inSteps t c l here _ _ _ _ _ ih
  | case5 inSteps t c l here _ _ _ _ ih | case7 inSteps t c l here _ _ _ _ _ _ ih
  | case8 inSteps t c l here _ _ _ _ _ ih =>
    exact ih.trans (Nat.le_of_lt (Cursor.left_lt_of_line? here))

/-- The groups, read from the cursor on, given those that are closed and the one that is open. A task is
read by the reader of tasks, which moves the same cursor. -/
def readGroupsAt (o : Outline) (closed : List TaskGroup) (current : TaskGroup) (c : Cursor) :
    Except ParseError (List TaskGroup) :=
  match _ : c.line? o with
  | none => .ok (closed ++ [current])
  | some l =>
    match o.headingAt? l.number with
    | none => readGroupsAt o closed current c.advance
    | some heading =>
      match taskTitle? heading.title with
      | some (digits, name) =>
        match natBelow? Task.numberBound digits with
        | none => .error (.atLine l.number (.numberOutOfRange (String.ofList digits)))
        | some number =>
          let read := readTaskAt o false (Task.new number (String.ofList name)) c.advance
          if (current.task? read.1.id).isSome then
            .error (.atLine l.number (.repeatedTask read.1.id current.name))
          else readGroupsAt o closed (current.addTask read.1) read.2
      | none =>
        let name := String.ofList heading.title
        if name = TaskGroup.general ∧ closed = [] ∧ current.tasks = [] then
          readGroupsAt o closed current c.advance
        else if name ∈ (closed ++ [current]).map (·.name) then
          .error (.atLine l.number (.repeatedGroup name))
        else readGroupsAt o (closed ++ [current]) (TaskGroup.new name) c.advance
termination_by c.left
decreasing_by
  all_goals have hstep := Cursor.left_lt_of_line? ‹c.line? o = _›
  case _ => exact hstep
  case _ => exact Nat.lt_of_le_of_lt (left_readTaskAt _ _ _ _) hstep
  case _ => exact hstep
  case _ => exact hstep

/-- Between the two cursors no line is a heading. Whatever was read there, a reader of headings has
missed nothing. -/
def Passed (o : Outline) (c c' : Cursor) : Prop :=
  ∃ rows, c.ahead o = rows ++ c'.ahead o ∧ ∀ l ∈ rows, l.heading? = none

theorem Passed.refl (o : Outline) (c : Cursor) : Passed o c c := ⟨[], rfl, nofun⟩

theorem Passed.step {o : Outline} {c c' : Cursor} {l : Line} (here : c.line? o = some l)
    (prose : l.heading? = none) (passed : Passed o c.advance c') : Passed o c c' := by
  obtain ⟨rows, hahead, hrows⟩ := passed
  refine ⟨l :: rows, ?_, List.forall_mem_cons.mpr ⟨prose, hrows⟩⟩
  rw [Cursor.ahead_eq_cons here, hahead, List.cons_append]

/-- Lines that are no headings make no blocks, so the blocks from either cursor on are the same. -/
theorem Passed.blocks_eq {o : Outline} {c c' : Cursor} (passed : Passed o c c') :
    blocks (c.ahead o) = blocks (c'.ahead o) := by
  obtain ⟨rows, hahead, hrows⟩ := passed
  rw [hahead, blocks_append_rows hrows]

/-- The rows that the cursor is at: the lines up to the next heading. -/
def rowsAt (o : Outline) (c : Cursor) : List Line := (c.ahead o).takeWhile (·.heading?.isNone)

theorem rowsAt_of_prose {o : Outline} {c : Cursor} {l : Line} (here : c.line? o = some l)
    (prose : l.heading? = none) : rowsAt o c = l :: rowsAt o c.advance := by
  rw [rowsAt, Cursor.ahead_eq_cons here, List.takeWhile_cons_of_pos (by simp [prose])]
  rfl

theorem rowsAt_of_heading {o : Outline} {c : Cursor} {l : Line} (here : c.line? o = some l)
    (heading : l.heading? ≠ none) : rowsAt o c = [] := by
  rw [rowsAt, Cursor.ahead_eq_cons here,
    List.takeWhile_cons_of_neg (by simpa [Option.isSome_iff_ne_none] using heading)]

theorem blocks_of_heading {o : Outline} {c : Cursor} {l : Line} {h : Heading}
    (here : c.line? o = some l) (heading : l.heading? = some h) :
    blocks (c.ahead o) = ⟨h, rowsAt o c.advance⟩ :: blocks (c.advance.ahead o) := by
  rw [Cursor.ahead_eq_cons here, blocks, heading]
  rfl

section Text

variable (text : List Char)

/-- The pass reads a task from the rows up to the next heading, and comes to a stop before that heading.
The rows below a verify command it leaves to others, who find no heading among them. -/
theorem readTaskAt_eq (inSteps : Bool) (t : Task) (c : Cursor) :
    (readTaskAt (Outline.ofText text) inSteps t c).1 =
        readRows inSteps t (rowsAt (Outline.ofText text) c) ∧
      Passed (Outline.ofText text) c (readTaskAt (Outline.ofText text) inSteps t c).2 := by
  fun_induction readTaskAt (Outline.ofText text) inSteps t c with
  | case1 inSteps t c none =>
    rw [rowsAt, Cursor.ahead_eq_nil none]
    exact ⟨rfl, .refl _ c⟩
  | case2 inSteps t c l here heading =>
    rw [Cursor.headingAt?_of_line? here, Option.isSome_iff_ne_none] at heading
    rw [rowsAt_of_heading here heading]
    exact ⟨rfl, .refl _ c⟩
  | case3 inSteps t c l here heading fenced ih =>
    rw [Cursor.headingAt?_of_line? here, Option.not_isSome_iff_eq_none] at heading
    rw [rowsAt_of_prose here heading, readRows, if_pos fenced]
    exact ⟨ih.1, ih.2.step here heading⟩
  | case4 inSteps t c l here heading free row rest told ih =>
    rw [Cursor.headingAt?_of_line? here, Option.not_isSome_iff_eq_none] at heading
    rw [rowsAt_of_prose here heading, readRows, if_neg free]
    simp only [row] at told
    simp only [told]
    exact ⟨ih.1, ih.2.step here heading⟩
  | case5 inSteps t c l here heading free row told ih =>
    rw [Cursor.headingAt?_of_line? here, Option.not_isSome_iff_eq_none] at heading
    rw [rowsAt_of_prose here heading, readRows, if_neg free]
    simp only [row] at told
    simp only [told]
    exact ⟨ih.1, ih.2.step here heading⟩
  -- the pass stops here, in the middle of a block, while the reader of rows gives up the rest
  | case6 inSteps t c l here heading free row rest told =>
    rw [Cursor.headingAt?_of_line? here, Option.not_isSome_iff_eq_none] at heading
    rw [rowsAt_of_prose here heading, readRows, if_neg free]
    simp only [row] at told
    simp only [told]
    exact ⟨trivial, (Passed.refl _ _).step here heading⟩
  | case7 inSteps t c l here heading free row told step read ih =>
    rw [Cursor.headingAt?_of_line? here, Option.not_isSome_iff_eq_none] at heading
    rw [rowsAt_of_prose here heading, readRows, if_neg free]
    simp only [row, dite_eq_ite] at told read
    simp only [told, read]
    exact ⟨ih.1, ih.2.step here heading⟩
  | case8 inSteps t c l here heading free row told none ih =>
    rw [Cursor.headingAt?_of_line? here, Option.not_isSome_iff_eq_none] at heading
    rw [rowsAt_of_prose here heading, readRows, if_neg free]
    simp only [row, dite_eq_ite] at told none
    simp only [told, none]
    exact ⟨ih.1, ih.2.step here heading⟩

/-- The pass finds the groups of the blocks that lie ahead. Where the reader of a task stops in the
middle of a block, what is left of the block makes no block of its own. -/
theorem readGroupsAt_eq (closed : List TaskGroup) (current : TaskGroup) (c : Cursor) :
    readGroupsAt (Outline.ofText text) closed current c =
      readGroups closed current (blocks (c.ahead (Outline.ofText text))) := by
  fun_induction readGroupsAt (Outline.ofText text) closed current c with
  | case1 closed current c none =>
    rw [Cursor.ahead_eq_nil none]
    rfl
  | case2 closed current c l here heading ih =>
    rw [Cursor.headingAt?_of_line? here] at heading
    rw [ih, ((Passed.refl _ _).step here heading).blocks_eq]
  | case3 closed current c l here h heading digits name title stored =>
    rw [Cursor.headingAt?_of_line? here] at heading
    rw [blocks_of_heading here heading, ← line_of_heading? heading]
    simp only [readGroups, title, stored]
  | case4 closed current c l here h heading digits name title number stored read used =>
    obtain ⟨hread, -⟩ := readTaskAt_eq text false (Task.new number (String.ofList name)) c.advance
    rw [Cursor.headingAt?_of_line? here] at heading
    rw [blocks_of_heading here heading, ← line_of_heading? heading]
    simp only [read, hread] at used
    simp only [readGroups, title, stored, read, hread, used, if_true]
  | case5 closed current c l here h heading digits name title number stored read new ih =>
    obtain ⟨hread, hpassed⟩ := readTaskAt_eq text false (Task.new number (String.ofList name)) c.advance
    have htold : taskOf? ⟨h, rowsAt (Outline.ofText text) c.advance⟩ = some read.1 :=
      (taskOf?_of_title title stored).trans (congrArg some hread.symm)
    rw [Cursor.headingAt?_of_line? here] at heading
    -- what the reader of the task has left of its block holds no heading
    rw [blocks_of_heading here heading, readGroups_of_task htold new, hpassed.blocks_eq, ih]
  | case6 closed current c l here h heading other name silent ih =>
    rw [Cursor.headingAt?_of_line? here] at heading
    rw [blocks_of_heading here heading, readGroups_of_silent other silent, ih]
  | case7 closed current c l here h heading other name loud used =>
    rw [Cursor.headingAt?_of_line? here] at heading
    rw [blocks_of_heading here heading, ← line_of_heading? heading]
    simp only [readGroups, other]
    rw [if_neg loud, if_pos used]
  | case8 closed current c l here h heading other name loud new ih =>
    rw [Cursor.headingAt?_of_line? here] at heading
    rw [blocks_of_heading here heading, readGroups_of_group other loud new, ih]

/-- Behind an opening fence the reader of the body ends at the closing one, like the parser. -/
theorem codeBlocksFrom_some (b : CodeBlock) (c : Cursor) :
    codeBlocksFrom (some b) (c.ahead (Outline.ofText text)) =
      { b with body := b.body ++ (bodyAt (Outline.ofText text) c).1 } ::
        codeBlocksFrom none ((bodyAt (Outline.ofText text) c).2.ahead (Outline.ofText text)) := by
  fun_induction bodyAt (Outline.ofText text) c generalizing b with
  | case1 c none =>
    rw [Cursor.ahead_eq_nil none]
    simp [codeBlocksFrom]
  | case2 c l here fence =>
    rw [Cursor.ahead_eq_cons here, codeBlocksFrom, if_pos ((Cursor.fence_iff_of_line? here).mpr fence),
      List.append_nil]
  | case3 c l here fence rest ih =>
    rw [Cursor.ahead_eq_cons here, codeBlocksFrom, if_neg (mt (Cursor.fence_iff_of_line? here).mp fence),
      ih]
    simp [rest]

/-- The pass finds the commands of the verbatim blocks that lie ahead. -/
theorem readContextAt_eq (c : Cursor) :
    readContextAt (Outline.ofText text) c = readContext (c.ahead (Outline.ofText text)) := by
  fun_induction readContextAt (Outline.ofText text) c with
  | case1 c none =>
    rw [Cursor.ahead_eq_nil none]
    rfl
  | case2 c l here fence body command counts ih =>
    rw [Cursor.ahead_eq_cons here, readContext, codeBlocks, codeBlocksFrom,
      if_pos ((Cursor.fence_iff_of_line? here).mpr fence), codeBlocksFrom_some, List.nil_append, ih]
    exact (List.filterMap_cons_some (by exact if_pos counts)).symm
  | case3 c l here fence body command idle ih =>
    rw [Cursor.ahead_eq_cons here, readContext, codeBlocks, codeBlocksFrom,
      if_pos ((Cursor.fence_iff_of_line? here).mpr fence), codeBlocksFrom_some, List.nil_append, ih]
    exact (List.filterMap_cons_none (by exact if_neg idle)).symm
  | case4 c l here fence ih =>
    rw [Cursor.ahead_eq_cons here, readContext, codeBlocks, codeBlocksFrom,
      if_neg (mt (Cursor.fence_iff_of_line? here).mp fence), ih]
    rfl

end Text

/-! ## The parser -/

/-- The groups of a plan are those that one pass over the section of tasks finds, and when such a pass
refuses a line, the parser refuses the text for it. -/
theorem groups_of_pass {text : String} {s : Section}
    (closed : (Outline.ofText text.toList).openFence? = none)
    (found : taskSection? (Outline.ofText text.toList) = some s) :
    (parse text).map (·.groups) =
      readGroupsAt (Outline.ofText text.toList) [] (TaskGroup.new TaskGroup.general) s.cursor := by
  rw [parse_of_tasks closed found, readGroupsAt_eq, ahead_cursor found, readTasks]
  cases readGroups [] (TaskGroup.new TaskGroup.general) (blocks s.body) <;> rfl

/-- The commands that prepare a run are those that one pass over their section finds. -/
theorem context_of_pass {text : String} {p : Plan} {s : Section} (parsed : parse text = .ok p)
    (found : (Outline.ofText text.toList).sectionTitled? "Context Loading".toList .anyHeading = some s) :
    p.context = readContextAt (Outline.ofText text.toList) s.cursor := by
  obtain ⟨_, _, -, -, -, rfl⟩ := parse_eq_ok_iff.mp parsed
  rw [readContextAt_eq, ahead_cursor found, ofGroups, sectionBody, found]

end Plan

end Runbook
