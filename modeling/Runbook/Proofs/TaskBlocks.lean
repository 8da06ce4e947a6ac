import Mathlib.Data.List.Nodup
import Runbook.Proofs.Account
import Runbook.Proofs.Grammar
import Runbook.Proofs.LineEdits

/-!
# Tasks and the blocks they are read from

The tasks of a plan are those of its blocks, one after the other (`Reads.tasks`), and their groups
follow from the headings alone (`Reads.frame`). So when one line of one block is another, only the
task of that block can be another one, and of that task only what the line says: its name, its context,
its verify command or one of its steps (`Retold`, `readRows_retold`).
-/

set_option autoImplicit false

namespace Runbook

open Text Markdown

/-- What is left of a group when nothing is known of its tasks but which they are. It is all that is
looked at when another task or group is read. -/
def TaskGroup.frame (g : TaskGroup) : TaskGroup × List String := (g.outline, g.tasks.map (·.id))

namespace Plan

/-! ## Groups and headings -/

/-- Two headings stand for the same group, or for tasks of the same number. The names of tasks may
differ. -/
structure SameEntry (h h' : Heading) : Prop where
  number : (taskTitle? h'.title).map (·.1) = (taskTitle? h.title).map (·.1)
  group : taskTitle? h.title = none → h'.title = h.title

/-- The task of a block that stands for the same entry has the same number, whatever its rows are. -/
theorem SameEntry.taskOf? {b b' : Block} (same : SameEntry b.heading b'.heading) {t : Task}
    (told : taskOf? b = some t) : ∃ t', Plan.taskOf? b' = some t' ∧ t'.id = t.id := by
  obtain ⟨digits, name, number, htitle, hstored, rfl⟩ := title_of_taskOf? told
  have hnumber := same.number
  rw [htitle, Option.map_some, Option.map_eq_some_iff] at hnumber
  obtain ⟨⟨_, name'⟩, htitle', rfl⟩ := hnumber
  refine ⟨_, taskOf?_of_title htitle' hstored, ?_⟩
  rw [(readRows_heading _ _ _).1, (readRows_heading _ _ _).1]
  rfl

/-- Whether a number is taken in a group can be told from its frame. -/
theorem isSome_task?_of_frame {g g' : TaskGroup} (same : g'.frame = g.frame) (id : String) :
    (g'.task? id).isSome = (g.task? id).isSome := by
  have hids : g'.tasks.map (·.id) = g.tasks.map (·.id) := congrArg Prod.snd same
  have hfind : ∀ g : TaskGroup, (g.task? id).isSome = (g.tasks.map (·.id)).any (· == id) := by
    intro g
    rw [TaskGroup.task?, List.any_map, Bool.eq_iff_iff, List.find?_isSome, List.any_eq_true]
    rfl
  rw [hfind, hfind, hids]

theorem tasks_eq_nil_iff_of_frame {g g' : TaskGroup} (same : g'.frame = g.frame) :
    g'.tasks = [] ↔ g.tasks = [] := by
  have hids : g'.tasks.map (·.id) = g.tasks.map (·.id) := congrArg Prod.snd same
  rw [← List.map_eq_nil_iff (f := fun t : Task => t.id), hids, List.map_eq_nil_iff]

theorem frames_concat {closed closed' : List TaskGroup} {current current' : TaskGroup}
    (same : closed'.map TaskGroup.frame = closed.map TaskGroup.frame)
    (last : current'.frame = current.frame) :
    (closed' ++ [current']).map TaskGroup.frame = (closed ++ [current]).map TaskGroup.frame := by
  rw [List.map_append, List.map_append, same, List.map_singleton, List.map_singleton, last]

/-- Groups with the same frame have the same frame after tasks of one number have been added. -/
theorem frame_addTask {g g' : TaskGroup} {t t' : Task} (same : g'.frame = g.frame)
    (id : t'.id = t.id) : (g'.addTask t').frame = (g.addTask t).frame := by
  have houtline : g'.outline = g.outline := congrArg Prod.fst same
  have hids : g'.tasks.map (·.id) = g.tasks.map (·.id) := congrArg Prod.snd same
  refine Prod.ext houtline ?_
  show (g'.tasks ++ [t']).map (·.id) = (g.tasks ++ [t]).map (·.id)
  rw [List.map_append, List.map_append, hids, List.map_singleton, List.map_singleton, id]

theorem names_of_frame {gs gs' : List TaskGroup}
    (same : gs'.map TaskGroup.frame = gs.map TaskGroup.frame) :
    gs'.map (·.name) = gs.map (·.name) := by
  have hnames := congrArg (List.map fun frame => frame.1.name) same
  rw [List.map_map, List.map_map] at hnames
  exact hnames

/-- The groups that are read follow from the headings, but for the tasks in them: what is checked on the
way, the ids of a group and the names of all, is part of their frames. -/
theorem Reads.frame {closed groups : List TaskGroup} {current : TaskGroup} {bs : List Block}
    (reads : Reads closed current bs groups) :
    ∀ (bs' : List Block) (closed' : List TaskGroup) (current' : TaskGroup),
      List.Forall₂ (fun b b' => SameEntry b.heading b'.heading) bs bs' →
      closed'.map TaskGroup.frame = closed.map TaskGroup.frame → current'.frame = current.frame →
      ∃ groups', Reads closed' current' bs' groups' ∧
        groups'.map TaskGroup.frame = groups.map TaskGroup.frame := by
  -- each rule applies again: what it asks of the groups before it is said by their frames
  induction reads with
  | done =>
    intro bs' closed' current' headings hclosed hcurrent
    cases headings
    exact ⟨_, .done, frames_concat hclosed hcurrent⟩
  | task told new _ ih =>
    intro bs' closed' current' headings hclosed hcurrent
    cases headings with
    | @cons _ b' _ bs' hb hbs =>
      obtain ⟨t', htold', hid⟩ := hb.taskOf? told
      obtain ⟨groups', hread, hframes⟩ := ih bs' closed' _ hbs hclosed (frame_addTask hcurrent hid)
      refine ⟨groups', .task htold' ?_ hread, hframes⟩
      rwa [hid, isSome_task?_of_frame hcurrent]
  | silent other general _ ih =>
    intro bs' closed' current' headings hclosed hcurrent
    cases headings with
    | @cons _ b' _ bs' hb hbs =>
      obtain ⟨hname, rfl, htasks⟩ := general
      obtain ⟨groups', hread, hframes⟩ := ih bs' closed' current' hbs hclosed hcurrent
      have htitle := hb.group other
      refine ⟨groups', .silent (htitle ▸ other) ⟨htitle ▸ hname, by simpa using hclosed, ?_⟩ hread,
        hframes⟩
      exact (tasks_eq_nil_iff_of_frame hcurrent).mpr htasks
  | group other loud new _ ih =>
    intro bs' closed' current' headings hclosed hcurrent
    cases headings with
    | @cons _ b' _ bs' hb hbs =>
      have hopen := frames_concat hclosed hcurrent
      have htitle := hb.group other
      obtain ⟨groups', hread, hframes⟩ := ih bs' _ _ hbs hopen rfl
      refine ⟨groups', .group (htitle ▸ other) ?_ ?_ (htitle ▸ hread), hframes⟩
      · rw [htitle]
        rintro ⟨hname, rfl, htasks⟩
        exact loud ⟨hname, by simpa using hclosed.symm,
          (tasks_eq_nil_iff_of_frame hcurrent).mp htasks⟩
      · rwa [htitle, names_of_frame hopen]

/-! ## One line of a task -/

/-- The task with what one line says of it changed: its name, if the line is its heading, or the value
of a row, or one of its steps. A line says one thing of a task, so no two of these are changed at once.
-/
inductive Retold (l : Line) (t : Task) : Task → Prop
  | name (heads : l.heading?.isSome = true) (name : String) : Retold l t { t with name }
  | context {rest : List Char} (row : rowOf (trim l.text) = .context rest) (context : String) :
    Retold l t { t with context }
  | verify {rest : List Char} (row : rowOf (trim l.text) = .verify rest) (verify : String) :
    Retold l t { t with verify }
  | step {k : Nat} (own : t.stepLines[k]? = some l.number) (short : k < t.steps.length)
    (step : String) : Retold l t { t with steps := t.steps.set k step }

section Retold

variable {l : Line} {t t' : Task}

theorem Retold.setContext (retold : Retold l t t') (context : String) :
    Retold l { t with context } { t' with context } := by
  cases retold with
  | name heads name => exact .name heads name
  | context row _ => exact .context row context
  | verify row verify => exact .verify row verify
  | step own short step => exact Retold.step (t := { t with context }) own short step

theorem Retold.setVerify (retold : Retold l t t') (verify : String) :
    Retold l { t with verify } { t' with verify } := by
  cases retold with
  | name heads name => exact .name heads name
  | context row context => exact .context row context
  | verify row _ => exact .verify row verify
  | step own short step => exact Retold.step (t := { t with verify }) own short step

/-- A step that is added to both keeps them apart in the one value only. -/
theorem Retold.addStep (retold : Retold l t t') (step : String) (line : Nat) :
    Retold l (t.addStep step line) (t'.addStep step line) := by
  cases retold with
  | name heads name => exact .name heads name
  | context row context => exact .context row context
  | verify row verify => exact .verify row verify
  | @step k own short step' =>
    have hset : (t.steps ++ [step]).set k step' = t.steps.set k step' ++ [step] :=
      List.set_append_left k step' short
    have hown : (t.addStep step line).stepLines[k]? = some l.number := by
      show (t.stepLines ++ [line])[k]? = some l.number
      rw [List.getElem?_append_left (List.getElem?_eq_some_iff.mp own).1, own]
    have hstep := Retold.step (t := t.addStep step line) hown
      (by simp only [Task.addStep, List.length_append]; omega) step'
    have heq : { t.addStep step line with steps := (t.addStep step line).steps.set k step' } =
        Task.addStep { t with steps := t.steps.set k step' } step line := by
      simp only [Task.addStep, hset]
    rwa [heq] at hstep

/-- A step that was added from the line is another one, when the line says another one. -/
theorem Retold.added (lengths : t.steps.length = t.stepLines.length) (step step' : String) :
    Retold l (t.addStep step l.number) (t.addStep step' l.number) := by
  have hown : (t.addStep step l.number).stepLines[t.steps.length]? = some l.number := by
    show (t.stepLines ++ [l.number])[t.steps.length]? = some l.number
    rw [lengths, List.getElem?_concat_length]
  have hset : { t.addStep step l.number with
      steps := (t.addStep step l.number).steps.set t.steps.length step' } =
        t.addStep step' l.number := by
    simp [Task.addStep]
  have hretold := Retold.step hown (by simp [Task.addStep]) step'
  rwa [hset] at hretold

/-- Rows that are read after the line leave one value changed. A later row may set the value itself, and
then none is. -/
theorem Retold.readRows (retold : Retold l t t') (inSteps : Bool) (rows : List Line) :
    Retold l (Plan.readRows inSteps t rows) (Plan.readRows inSteps t' rows) := by
  induction rows generalizing inSteps t t' with
  | nil => exact retold
  | cons row rows ih =>
    rw [Plan.readRows, Plan.readRows]
    cases row.isFenced with
    | true => exact ih retold inSteps
    | false =>
      simp only [Bool.false_eq_true, if_false]
      cases rowOf (trim row.text) with
      | context rest => exact ih (retold.setContext _) inSteps
      | steps => exact ih retold true
      | verify rest => exact retold.setVerify _
      | other =>
        cases if inSteps = true then stepText? (trim row.text) else none with
        | none => exact ih retold inSteps
        | some step => exact ih (retold.addStep _ _) inSteps

end Retold

/-- Two rows are of the same kind, whatever they say. A step and a line that says nothing are told apart
here, although neither has a label. -/
inductive SameKind (row row' : List Char) : Prop
  | context {rest rest' : List Char} (h : rowOf row = .context rest) (h' : rowOf row' = .context rest')
  | steps (h : rowOf row = .steps) (h' : rowOf row' = .steps)
  | verify {rest rest' : List Char} (h : rowOf row = .verify rest) (h' : rowOf row' = .verify rest')
  | other (h : rowOf row = .other) (h' : rowOf row' = .other)
    (step : (stepText? row').isSome = (stepText? row).isSome)

theorem length_steps_addStep {t : Task} (lengths : t.steps.length = t.stepLines.length)
    (step : String) (line : Nat) :
    (t.addStep step line).steps.length = (t.addStep step line).stepLines.length := by
  simp only [Task.addStep, List.length_append, lengths, List.length_singleton]

/-- When a row is another one of the same kind, at most what it says of the task is changed. It is read
in the same place, in steps or not, so the rows below are read alike. -/
theorem readRows_retold {l l' : Line} (number : l'.number = l.number) (free : l.isFenced = false)
    (free' : l'.isFenced = false) (kind : SameKind (trim l.text) (trim l'.text))
    (above below : List Line) (inSteps : Bool) {t : Task}
    (lengths : t.steps.length = t.stepLines.length) :
    readRows inSteps t (above ++ l' :: below) = readRows inSteps t (above ++ l :: below) ∨
      Retold l (readRows inSteps t (above ++ l :: below))
        (readRows inSteps t (above ++ l' :: below)) := by
  induction above generalizing inSteps t with
  | nil =>
    rw [List.nil_append, List.nil_append, readRows, readRows, free, free', number]
    simp only [Bool.false_eq_true, if_false]
    cases kind with
    | context h h' =>
      rw [h, h']
      exact .inr ((Retold.context h _).readRows inSteps below)
    | steps h h' =>
      rw [h, h']
      exact .inl rfl
    | verify h h' =>
      rw [h, h']
      exact .inr (.verify h _)
    | other h h' step =>
      rw [h, h']
      cases inSteps with
      | false => exact .inl rfl
      | true =>
        simp only [if_true]
        cases hstep : stepText? (trim l.text) with
        | none =>
          rw [(Option.isSome_eq_isSome.mp step).mpr hstep]
          exact .inl rfl
        | some text =>
          rw [hstep, Option.isSome_some, Option.isSome_iff_exists] at step
          obtain ⟨text', hstep'⟩ := step
          rw [hstep']
          exact .inr ((Retold.added lengths _ _).readRows true below)
  | cons row above ih =>
    rw [List.cons_append, List.cons_append, readRows, readRows]
    cases row.isFenced with
    | true => exact ih inSteps lengths
    | false =>
      simp only [Bool.false_eq_true, if_false]
      cases rowOf (trim row.text) with
      | context rest => exact ih inSteps (t := { t with context := _ }) lengths
      | steps => exact ih true lengths
      -- a verify row ends the reading, so the line is not read at all
      | verify rest => exact .inl rfl
      | other =>
        cases if inSteps = true then stepText? (trim row.text) else none with
        | none => exact ih inSteps lengths
        | some step => exact ih inSteps (length_steps_addStep lengths _ _)

/-- Every step is read from a line of its own that has a part in the outline. -/
theorem readRows_steps {P : Nat → String → Prop} {rows : List Line}
    (said : ∀ l ∈ rows, l.isFenced = false → ∀ step, stepText? (trim l.text) = some step →
      P l.number (String.ofList step)) (inSteps : Bool) {t : Task}
    (start : List.Forall₂ P t.stepLines t.steps) :
    List.Forall₂ P (readRows inSteps t rows).stepLines (readRows inSteps t rows).steps := by
  fun_induction readRows inSteps t rows with
  | case1 => exact start
  | case2 inSteps t l ls fenced ih => exact ih (List.forall_mem_cons.mp said).2 start
  | case3 inSteps t l ls fenced row rest hrow ih => exact ih (List.forall_mem_cons.mp said).2 start
  | case4 inSteps t l ls fenced row hrow ih => exact ih (List.forall_mem_cons.mp said).2 start
  | case5 => exact start
  | case6 inSteps t l ls fenced row hrow step hstep ih =>
    obtain ⟨hl, hls⟩ := List.forall_mem_cons.mp said
    have hsaid : stepText? (trim l.text) = some step := by
      split at hstep
      · exact hstep
      · cases hstep
    exact ih hls (List.rel_append start
      (.cons (hl (Bool.eq_false_iff.mpr fenced) step hsaid) .nil))
  | case7 inSteps t l ls fenced row hrow hstep ih =>
    exact ih (List.forall_mem_cons.mp said).2 start

/-! ## One line of a section -/

/-- A block in which a line is another one: its heading, or one of its rows. -/
inductive BlockChange (l l' : Line) (b b' : Block) : Prop
  | heading (h : l.heading? = some b.heading) (h' : l'.heading? = some b'.heading)
    (rows : b'.rows = b.rows)
  | row {above below : List Line} (heading : b'.heading = b.heading)
    (rows : b.rows = above ++ l :: below) (rows' : b'.rows = above ++ l' :: below)

section Change

variable {l l' : Line}

/-- The rows of a block go on past a line when they go on up to it and it is no heading. -/
theorem takeWhile_rows_through {l : Line} {above : List Line} (rows : ∀ r ∈ above, r.heading? = none)
    (row : l.heading? = none) (below : List Line) :
    (above ++ l :: below).takeWhile (·.heading?.isNone) =
      above ++ l :: below.takeWhile (·.heading?.isNone) := by
  rw [List.takeWhile_append_of_pos (by simpa using rows), List.takeWhile_cons_of_pos (by simp [row])]

/-- The rows of a block do not come to a line behind another heading, nor to a heading. -/
theorem takeWhile_rows_within {l : Line} {above : List Line}
    (ends : ¬ ((∀ r ∈ above, r.heading? = none) ∧ l.heading? = none)) (below : List Line) :
    (above ++ l :: below).takeWhile (·.heading?.isNone) =
      above.takeWhile (·.heading?.isNone) := by
  by_cases hl : l.heading? = none
  · rw [List.takeWhile_append, if_neg]
    intro hlength
    have hwhole : above.takeWhile (·.heading?.isNone) = above :=
      (List.takeWhile_prefix _).eq_of_length hlength
    exact ends ⟨by simpa using List.takeWhile_eq_self_iff.mp hwhole, hl⟩
  · exact takeWhile_append_mark (by simpa using Option.isSome_iff_ne_none.mpr hl) above below

/-- When a line is another one, and a heading if it was one, at most one block is another one. A line
above the first heading belongs to no block. -/
theorem blocks_retold (same : l'.heading?.isSome = l.heading?.isSome) (above below : List Line) :
    blocks (above ++ l' :: below) = blocks (above ++ l :: below) ∨
      ∃ before b b' after, blocks (above ++ l :: below) = before ++ b :: after ∧
        blocks (above ++ l' :: below) = before ++ b' :: after ∧ BlockChange l l' b b' := by
  induction above with
  | nil =>
    rw [List.nil_append, List.nil_append, blocks, blocks]
    cases hl : l.heading? with
    | none =>
      rw [(Option.isSome_eq_isSome.mp same).mpr hl]
      exact .inl rfl
    | some h =>
      rw [hl, Option.isSome_some, Option.isSome_iff_exists] at same
      obtain ⟨h', hl'⟩ := same
      rw [hl']
      exact .inr ⟨[], _, _, _, rfl, rfl, .heading hl hl' rfl⟩
  | cons x above ih =>
    rw [List.cons_append, List.cons_append, blocks, blocks]
    cases x.heading? with
    | none => exact ih
    | some h =>
      simp only
      by_cases hrows : (∀ r ∈ above, r.heading? = none) ∧ l.heading? = none
      -- the line is a row of this block, and no other block has it
      · obtain ⟨habove, hl⟩ := hrows
        have hl' : l'.heading? = none := (Option.isSome_eq_isSome.mp same).mpr hl
        right
        refine ⟨[], ⟨h, above ++ l :: below.takeWhile (·.heading?.isNone)⟩,
          ⟨h, above ++ l' :: below.takeWhile (·.heading?.isNone)⟩, blocks below, ?_, ?_,
          .row rfl rfl rfl⟩
        · rw [takeWhile_rows_through habove hl, blocks_append_rows habove, blocks, hl]
          rfl
        · rw [takeWhile_rows_through habove hl', blocks_append_rows habove, blocks, hl']
          rfl
      -- the line is in a later block, or the heading of one
      · have hrows' : ¬ ((∀ r ∈ above, r.heading? = none) ∧ l'.heading? = none) :=
          fun hall => hrows ⟨hall.1, (Option.isSome_eq_isSome.mp same).mp hall.2⟩
        rw [takeWhile_rows_within hrows below, takeWhile_rows_within hrows' below]
        rcases ih with hsame | ⟨before, b, b', after, hblocks, hblocks', hchange⟩
        · rw [hsame]
          exact .inl rfl
        · rw [hblocks, hblocks']
          exact .inr ⟨_ :: before, b, b', after, rfl, rfl, hchange⟩

variable (number : l'.number = l.number) (free : l.isFenced = false) (free' : l'.isFenced = false)
  (kind : SameKind (trim l.text) (trim l'.text))
  (entry : ∀ h h', l.heading? = some h → l'.heading? = some h' → SameEntry h h')

include entry in
theorem BlockChange.sameEntry {b b' : Block} (change : BlockChange l l' b b') :
    SameEntry b.heading b'.heading := by
  cases change with
  | heading h h' rows => exact entry _ _ h h'
  | row heading rows rows' => exact heading ▸ ⟨rfl, fun _ => rfl⟩

include number free free' kind entry in
/-- The task of such a block is the same, or it says another thing where the line does. -/
theorem BlockChange.task {b b' : Block} (change : BlockChange l l' b b') :
    taskOf? b' = taskOf? b ∨ ∃ t t', taskOf? b = some t ∧ taskOf? b' = some t' ∧ Retold l t t' := by
  have hentry := change.sameEntry entry
  cases htitle : taskTitle? b.heading.title with
  | none =>
    -- the heading is not of a task, and no row of its block makes it one
    have htitle' : taskTitle? b'.heading.title = none := by rw [hentry.group htitle, htitle]
    exact .inl ((taskOf?_of_other htitle').trans (taskOf?_of_other htitle).symm)
  | some title =>
    obtain ⟨_, name⟩ := title
    have hnumber := hentry.number
    rw [htitle, Option.map_some, Option.map_eq_some_iff] at hnumber
    obtain ⟨⟨digits, name'⟩, htitle', rfl⟩ := hnumber
    cases hstored : natBelow? Task.numberBound digits with
    | none =>
      left
      rw [taskOf?, taskOf?, htitle, htitle', Option.bind_some, Option.bind_some, hstored]
      rfl
    | some n =>
      rw [taskOf?_of_title htitle hstored, taskOf?_of_title htitle' hstored]
      cases change with
      | heading h h' rows =>
        have hnamed : Retold l (Task.new n (String.ofList name)) (Task.new n (String.ofList name')) :=
          .name (by rw [h]; rfl) (String.ofList name')
        rw [rows]
        exact .inr ⟨_, _, rfl, rfl, hnamed.readRows false b.rows⟩
      | @row above below heading rows rows' =>
        rw [heading, htitle] at htitle'
        cases htitle'
        rw [rows, rows']
        rcases readRows_retold number free free' kind above below false
          (t := Task.new n (String.ofList name)) rfl with hsame | hretold
        · exact .inl (congrArg some hsame)
        · exact .inr ⟨_, _, rfl, rfl, hretold⟩

end Change

/-! ## The tasks of a plan -/

/-- Lines with the same number are the same. -/
theorem line_unique {text : List Char} {l l' : Line} (mem : l ∈ (Outline.ofText text).lines)
    (mem' : l' ∈ (Outline.ofText text).lines) (number : l'.number = l.number) : l' = l :=
  List.inj_on_of_nodup_map ((numbers_ofText text).imp fun h => Nat.ne_of_lt h) mem' mem number

/-- A step stands on a line of a text that has a part in the outline. -/
def StepOn (text : String) (n : Nat) (step : String) : Prop :=
  ∃ l ∈ (Outline.ofText text.toList).lines, l.isFenced = false ∧ l.number = n ∧
    stepText? (trim l.text) = some step.toList

/-- The steps of a plan stand on the lines that are noted for them. What is ticked on these lines is
what the steps were read from. -/
theorem steps_of_parse {text : String} {p : Plan} (parsed : parse text = .ok p) {t : Task}
    (mem : t ∈ p.tasks) : List.Forall₂ (StepOn text) t.stepLines t.steps := by
  obtain ⟨s, groups, -, hfound, hread, rfl⟩ := parse_eq_ok_iff.mp parsed
  have htasks : t ∈ (blocks s.body).filterMap taskOf? := tasks_of_readTasks hread ▸ mem
  obtain ⟨b, hb, htask⟩ := List.mem_filterMap.mp htasks
  obtain ⟨number, name, rfl⟩ := taskOf?_eq_some htask
  refine readRows_steps (fun l hl hfree step hstep => ⟨l, ?_, hfree, rfl, ?_⟩) false .nil
  · exact (body_sublist hfound).subset
      ((flatMap_rows_blocks s.body).subset (List.mem_flatMap.mpr ⟨b, hb, hl⟩))
  · rw [hstep, String.toList_ofList]

theorem exists_stepOn {text : String} {ns : List Nat} {steps : List String}
    (h : List.Forall₂ (StepOn text) ns steps) {n : Nat} (mem : n ∈ ns) : ∃ step, StepOn text n step := by
  induction h with
  | nil => cases mem
  | @cons m step ns steps hstep _ ih =>
    rcases List.mem_cons.mp mem with rfl | hmem
    · exact ⟨step, hstep⟩
    · exact ih hmem

/-- No line of a step is fenced. -/
theorem free_of_mem_linesOfSteps {text : String} {p : Plan} (parsed : parse text = .ok p) {l : Line}
    (mem : l ∈ (Outline.ofText text.toList).lines) (step : l.number ∈ linesOfSteps p.groups) :
    l.isFenced = false := by
  obtain ⟨t, ht, hline⟩ := List.mem_flatMap.mp step
  obtain ⟨_, l', hl', hfree, hnumber, -⟩ := exists_stepOn (steps_of_parse parsed ht) hline
  rw [← line_unique mem hl' hnumber]
  exact hfree

/-- When one line of a section is another one of the same kind, the same groups are read, with the same
tasks but for what the line says of one. That headings stand for the same entries is asked for, because
a group with another name is another matter. -/
theorem readTasks_retold {l l' : Line} (number : l'.number = l.number) (free : l.isFenced = false)
    (free' : l'.isFenced = false) (same : l'.heading?.isSome = l.heading?.isSome)
    (kind : SameKind (trim l.text) (trim l'.text))
    (entry : ∀ h h', l.heading? = some h → l'.heading? = some h' → SameEntry h h')
    {above below : List Line} {groups : List TaskGroup}
    (read : readTasks (above ++ l :: below) = .ok groups) :
    ∃ groups', readTasks (above ++ l' :: below) = .ok groups' ∧
      groups'.map TaskGroup.frame = groups.map TaskGroup.frame ∧
      (groups'.flatMap (·.tasks) = groups.flatMap (·.tasks) ∨
        ∃ before t t' after, groups.flatMap (·.tasks) = before ++ t :: after ∧
          groups'.flatMap (·.tasks) = before ++ t' :: after ∧ Retold l t t') := by
  have hrefl : ∀ bs : List Block,
      List.Forall₂ (fun b b' => SameEntry b.heading b'.heading) bs bs :=
    fun bs => List.forall₂_same.mpr fun b _ => ⟨rfl, fun _ => rfl⟩
  rcases blocks_retold same above below with hsame | ⟨before, b, b', after, hbs, hbs', hchange⟩
  · refine ⟨groups, ?_, rfl, .inl rfl⟩
    rwa [readTasks, hsame]
  · have hheadings : List.Forall₂ (fun b b' => SameEntry b.heading b'.heading)
        (blocks (above ++ l :: below)) (blocks (above ++ l' :: below)) := by
      rw [hbs, hbs']
      exact List.rel_append (hrefl before) (.cons (hchange.sameEntry entry) (hrefl after))
    -- the headings decide whether there are groups; their tasks are the blocks read one by one
    obtain ⟨groups', hreads', hframes⟩ :=
      (readGroups_eq_ok_iff.mp read).frame _ _ _ hheadings rfl rfl
    have hread' := hreads'.readGroups_eq
    have htasks := tasks_of_readTasks read
    have hwhole : readTasks (above ++ l' :: below) = .ok groups' := hread'
    have htasks' := tasks_of_readTasks hwhole
    rw [hbs, List.filterMap_append] at htasks
    rw [hbs', List.filterMap_append] at htasks'
    refine ⟨groups', hread', hframes, ?_⟩
    rcases hchange.task number free free' kind entry with hsame | ⟨t, t', ht, ht', hretold⟩
    · left
      rw [htasks, htasks', List.filterMap_cons, List.filterMap_cons, hsame]
    · right
      rw [List.filterMap_cons_some ht] at htasks
      rw [List.filterMap_cons_some ht'] at htasks'
      exact ⟨_, t, t', _, htasks, htasks', hretold⟩

end Plan

end Runbook
