import Runbook.Proofs.Numerals
import Runbook.Proofs.ParsedGroups
import Runbook.Proofs.TaskRows

/-!
# What is read as a plan, and as which

Whether a text is read as a plan depends on its fences and headings alone, and this file says how,
without the order in which the lines are gone through (`Verdict`, `parse_verdict`).

* An odd number of fences leaves the last one open, and without a heading of the tasks there is
  nothing to carry out.
* Of the headings under that one, the first that its predecessors do not allow (`Refuses`) is
  reported.
* When there is none, the groups say what the headings say, heading by heading (`Said`): nothing is
  left out and nothing is read twice. Each task holds what the rows under its heading say of it
  (`Describe`).

## Headings that say nothing

The group of tasks without a heading is called General, and it is open from the start. Headings of
that name say nothing as long as no other heading has been seen. So they are dropped from the front,
and nowhere else.
-/

set_option autoImplicit false

namespace Runbook.Plan

open Text Markdown

/-! ## What headings say -/

/-- What a heading in the section of tasks stands for: its title decides, and its level has no part in
it. -/
inductive Entry where
  | group (name : String)
  | task (number : Nat) (name : String)
deriving DecidableEq, Repr

def IsTask (h : Heading) : Prop := (taskTitle? h.title).isSome = true

def IsGeneral (h : Heading) : Prop := String.ofList h.title = TaskGroup.general

instance (h : Heading) : Decidable (IsTask h) := inferInstanceAs (Decidable (_ = _))

instance (h : Heading) : Decidable (IsGeneral h) := inferInstanceAs (Decidable (_ = _))

/-- The number in the heading of a task, if it can be stored. -/
def numberOf? (h : Heading) : Option Nat :=
  (taskTitle? h.title).bind fun (digits, _) => natBelow? Task.numberBound digits

/-- The entry of a heading. There is none for the heading of a task whose number cannot be stored. -/
def entryOf? (h : Heading) : Option Entry :=
  match taskTitle? h.title with
  | some (digits, name) =>
    (natBelow? Task.numberBound digits).map (.task · (String.ofList name))
  | none => some (.group (String.ofList h.title))

/-- The name of the group that is open behind some headings: the last one that is not of a task has
opened it. -/
def openGroup (earlier : List Heading) : String :=
  match earlier.reverse.find? fun h => ¬ IsTask h with
  | some h => String.ofList h.title
  | none => TaskGroup.general

/-- The numbers of the tasks in the group that is open behind some headings. The heading of another
group ends the list, which is why a number may come again in another group. -/
def openNumbers (earlier : List Heading) : List Nat :=
  (earlier.reverse.takeWhile fun h => IsTask h).filterMap numberOf?

/-- A heading is refused for what it says after the headings before it. These are asked of, and not the
groups that have been read, so whether a text is a plan can be told from its headings. -/
inductive Refuses (earlier : List Heading) (h : Heading) : Fault → Prop
  /-- The number of a task is not written in ASCII digits or is too large to be stored. -/
  | number {digits name : List Char} (task : taskTitle? h.title = some (digits, name))
    (unstorable : (∃ d ∈ digits, d.isDigit = false) ∨
      Task.numberBound ≤ Nat.ofDigitChars 10 digits 0) :
    Refuses earlier h (.numberOutOfRange (String.ofList digits))
  /-- The group that is open has a task of the number already. -/
  | task {number : Nat} (told : numberOf? h = some number) (used : number ∈ openNumbers earlier) :
    Refuses earlier h (.repeatedTask (Task.idOf number) (openGroup earlier))
  /-- There is a group of the name already. -/
  | group (other : ¬ IsTask h)
    (used : IsGeneral h ∨ ∃ h' ∈ earlier, ¬ IsTask h' ∧ h'.title = h.title)
    (loud : ¬ (IsGeneral h ∧ ∀ h' ∈ earlier, IsGeneral h')) :
    Refuses earlier h (.repeatedGroup (String.ofList h.title))

/-- None of the headings is refused, each after the ones before it. -/
def Sound (hs : List Heading) : Prop :=
  ∀ earlier h later, hs = earlier ++ h :: later → ∀ fault, ¬ Refuses earlier h fault

/-! ## What groups say -/

def taskEntries (g : TaskGroup) : List Entry := g.tasks.map fun t => .task t.number t.name

/-- The entries that some groups stand for, the first of which needs no heading. -/
def entries : List TaskGroup → List Entry
  | [] => []
  | g :: gs => taskEntries g ++ gs.flatMap fun g => .group g.name :: taskEntries g

/-- The groups say what the headings say, in the same order, and no more; the tasks, one for each
heading of a task, say what stands under it. The lines of all steps come in their order too, so that
no line is read twice. -/
structure Said (ls : List (List Char)) (hs : List Heading) (groups : List TaskGroup) : Prop where
  first : groups.head?.map (·.name) = some TaskGroup.general
  said : (hs.dropWhile fun h => IsGeneral h).map entryOf? = (entries groups).map some
  ids : ∀ g ∈ groups, ∀ t ∈ g.tasks, t.id = Task.idOf t.number
  rows : List.Forall₂ (fun h t => Describe (rowsUnder ls h) t) (hs.filter fun h => IsTask h)
    (groups.flatMap (·.tasks))
  steps : ((groups.flatMap (·.tasks)).flatMap (·.stepLines)).Pairwise (· < ·)

/-- The headings under the first one of the tasks, up to the next that is not below it. A second section
of tasks is not read. -/
def TaskHeadings (all body : List Heading) : Prop :=
  ∃ above tasks below, all = above ++ tasks :: below ∧
    (∀ h ∈ above, ¬ h.Titled "Tasks".toList) ∧ tasks.Titled "Tasks".toList ∧
    body = below.takeWhile fun h => tasks.level < h.level

/-- What comes of reading lines as a plan. The cases exclude each other, and one of them always holds.
-/
inductive Verdict (ls : List (List Char)) : Except ParseError Plan → Prop
  | unterminated {line : Nat} (odd : (fencesOf ls).length % 2 = 1)
    (last : (fencesOf ls).getLast? = some line) :
    Verdict ls (.error (.atLine line .unterminatedFence))
  | missing (even : (fencesOf ls).length % 2 = 0)
    (none : ∀ h ∈ headingsOf ls, ¬ h.Titled "Tasks".toList) : Verdict ls (.error .missingTasks)
  | refused {body earlier later : List Heading} {h : Heading} {fault : Fault}
    (even : (fencesOf ls).length % 2 = 0) (tasks : TaskHeadings (headingsOf ls) body)
    (split : body = earlier ++ h :: later) (sound : Sound earlier)
    (refused : Refuses earlier h fault) : Verdict ls (.error (.atLine h.line fault))
  | accepted {body : List Heading} {p : Plan} (even : (fencesOf ls).length % 2 = 0)
    (tasks : TaskHeadings (headingsOf ls) body) (sound : Sound body)
    (said : Said ls body p.groups) : Verdict ls (.ok p)

/-! ## Headings, one after the other -/

theorem Sound.nil : Sound [] := by
  intro earlier h later hsplit
  simp at hsplit

/-- A heading that is not refused may follow ones of which none is. -/
theorem Sound.snoc {hs : List Heading} {h : Heading} (sound : Sound hs)
    (fine : ∀ fault, ¬ Refuses hs h fault) : Sound (hs ++ [h]) := by
  intro earlier h' later hsplit fault hrefuses
  rcases List.eq_nil_or_concat later with rfl | ⟨later', last, rfl⟩
  · obtain ⟨rfl, hlast⟩ := List.append_inj' hsplit rfl
    cases hlast
    exact fine fault hrefuses
  · rw [List.concat_eq_append, ← List.cons_append, ← List.append_assoc] at hsplit
    obtain ⟨rfl, -⟩ := List.append_inj' hsplit rfl
    exact sound earlier h' later' rfl fault hrefuses

theorem isTask_iff {h : Heading} :
    IsTask h ↔ ∃ digits name, taskTitle? h.title = some (digits, name) := by
  rw [IsTask, Option.isSome_iff_exists, Prod.exists]

theorem not_isTask_iff {h : Heading} : ¬ IsTask h ↔ taskTitle? h.title = none := by
  rw [IsTask, Bool.not_eq_true, Option.isSome_eq_false_iff, Option.isNone_iff_eq_none]

theorem numberOf?_of_title {h : Heading} {digits name : List Char}
    (task : taskTitle? h.title = some (digits, name)) :
    numberOf? h = natBelow? Task.numberBound digits := by
  rw [numberOf?, task]
  rfl

theorem isTask_of_numberOf? {h : Heading} {number : Nat} (told : numberOf? h = some number) :
    IsTask h := by
  rw [numberOf?, Option.bind_eq_some_iff] at told
  obtain ⟨found, htitle, -⟩ := told
  exact isTask_iff.mpr ⟨found.1, found.2, htitle⟩

theorem IsGeneral.not_isTask {h : Heading} (general : IsGeneral h) : ¬ IsTask h := by
  rw [IsGeneral, ← String.toList_inj, String.toList_ofList] at general
  rw [not_isTask_iff, general]
  decide

/-- One more heading opens a group, unless it is of a task. -/
theorem openGroup_snoc (earlier : List Heading) (h : Heading) :
    openGroup (earlier ++ [h]) =
      if IsTask h then openGroup earlier else String.ofList h.title := by
  rw [openGroup, List.reverse_append, List.reverse_singleton, List.singleton_append,
    List.find?_cons]
  by_cases htask : IsTask h
  · simp [htask, openGroup]
  · simp [htask]

/-- A task adds its number to those in use. -/
theorem openNumbers_snoc_of_task {earlier : List Heading} {h : Heading} {number : Nat}
    (told : numberOf? h = some number) :
    openNumbers (earlier ++ [h]) = number :: openNumbers earlier := by
  have htask := isTask_of_numberOf? told
  rw [openNumbers, List.reverse_append, List.reverse_singleton, List.singleton_append,
    List.takeWhile_cons_of_pos (by simpa using htask), List.filterMap_cons_some told]
  rfl

theorem openNumbers_snoc_of_not_task {earlier : List Heading} {h : Heading} (other : ¬ IsTask h) :
    openNumbers (earlier ++ [h]) = [] := by
  rw [openNumbers, List.reverse_append, List.reverse_singleton, List.singleton_append,
    List.takeWhile_cons_of_neg (by simpa using other)]
  rfl

theorem dropWhile_snoc_of_neg {α : Type} {p : α → Bool} {a : α} (h : p a = false) (as : List α) :
    (as ++ [a]).dropWhile p = as.dropWhile p ++ [a] := by
  rw [List.dropWhile_append]
  split
  · rename_i hempty
    rw [List.isEmpty_iff.mp hempty, List.dropWhile_cons_of_neg (by simp [h])]
    rfl
  · rfl

/-- A task that is added to the group that is open comes last among the entries. -/
theorem entries_addTask (closed : List TaskGroup) (current : TaskGroup) (t : Task) :
    entries (closed ++ [current.addTask t]) =
      entries (closed ++ [current]) ++ [.task t.number t.name] := by
  cases closed <;> simp [entries, taskEntries, TaskGroup.addTask]

theorem entries_snoc {groups : List TaskGroup} (some : groups ≠ []) (name : String) :
    entries (groups ++ [TaskGroup.new name]) = entries groups ++ [.group name] := by
  cases groups with
  | nil => exact absurd rfl some
  | cons g gs => simp [entries, taskEntries, TaskGroup.new]

/-! ## Rows -/

/-- What the heading says of a task stays, whatever its rows say. -/
theorem readRows_heading (inSteps : Bool) (t : Task) (rows : List Line) :
    (readRows inSteps t rows).id = t.id ∧ (readRows inSteps t rows).number = t.number ∧
      (readRows inSteps t rows).name = t.name := by
  fun_induction readRows inSteps t rows with
  | case1 => exact ⟨rfl, rfl, rfl⟩
  | case2 inSteps t l ls fenced ih => exact ih
  | case3 inSteps t l ls fenced row rest hrow ih => exact ih
  | case4 inSteps t l ls fenced row hrow ih => exact ih
  | case5 => exact ⟨rfl, rfl, rfl⟩
  | case6 inSteps t l ls fenced row hrow step hstep ih => exact ih
  | case7 inSteps t l ls fenced row hrow hstep ih => exact ih

/-- The lines of steps are found among the rows, in their order. -/
theorem readRows_stepLines (inSteps : Bool) (t : Task) (rows : List Line) :
    ∃ ns, (readRows inSteps t rows).stepLines = t.stepLines ++ ns ∧
      ns.Sublist (rows.map (·.number)) := by
  fun_induction readRows inSteps t rows with
  | case1 => exact ⟨[], by simp, .slnil⟩
  | case2 inSteps t l ls fenced ih | case3 inSteps t l ls fenced row rest hrow ih
  | case4 inSteps t l ls fenced row hrow ih | case7 inSteps t l ls fenced row hrow hstep ih =>
    obtain ⟨ns, hlines, hsub⟩ := ih
    exact ⟨ns, hlines, hsub.cons _⟩
  | case5 inSteps t l ls fenced row rest hrow => exact ⟨[], by simp, List.nil_sublist _⟩
  | case6 inSteps t l ls fenced row hrow step hstep ih =>
    obtain ⟨ns, hlines, hsub⟩ := ih
    refine ⟨l.number :: ns, ?_, hsub.cons_cons _⟩
    rw [hlines, Task.addStep, List.append_assoc, List.singleton_append]

/-! ## Groups -/

/-- Where the reading of groups stands behind some headings. The first three fields are what is wanted
in the end; the others say that the checks of the reader, which look at groups, come to those of
`Refuses`, which look at headings. -/
structure Stands (earlier : List Heading) (closed : List TaskGroup) (current : TaskGroup) :
    Prop where
  first : (closed ++ [current]).head?.map (·.name) = some TaskGroup.general
  said : (earlier.dropWhile fun h => IsGeneral h).map entryOf? =
    (entries (closed ++ [current])).map some
  ids : ∀ g ∈ closed ++ [current], ∀ t ∈ g.tasks, t.id = Task.idOf t.number
  names : ∀ name, name ∈ (closed ++ [current]).map (·.name) ↔ name = TaskGroup.general ∨
    ∃ h ∈ earlier, ¬ IsTask h ∧ String.ofList h.title = name
  group : current.name = openGroup earlier
  numbers : ∀ number, (∃ t ∈ current.tasks, t.number = number) ↔ number ∈ openNumbers earlier
  unused : closed = [] ∧ current.tasks = [] ↔ ∀ h ∈ earlier, IsGeneral h

/-- Before any heading the general group is open, and there is nothing in it. -/
theorem Stands.start : Stands [] [] (TaskGroup.new TaskGroup.general) := by
  constructor <;> simp [TaskGroup.new, entries, taskEntries, openGroup, openNumbers]

section Steps

variable {earlier : List Heading} {closed : List TaskGroup} {current : TaskGroup} {h : Heading}
  (stands : Stands earlier closed current)
include stands

/-- A task that is added takes its number in the open group. -/
theorem Stands.addTask {digits name : List Char} {t : Task}
    (task : taskTitle? h.title = some (digits, name))
    (stored : natBelow? Task.numberBound digits = some t.number)
    (named : t.name = String.ofList name) (id : t.id = Task.idOf t.number) :
    Stands (earlier ++ [h]) closed (current.addTask t) := by
  have htask : IsTask h := isTask_iff.mpr ⟨digits, name, task⟩
  have hloud : ¬ IsGeneral h := fun general => general.not_isTask htask
  have hnumber : numberOf? h = some t.number := (numberOf?_of_title task).trans stored
  have hentry : entryOf? h = some (.task t.number t.name) := by simp [entryOf?, task, stored, named]
  have hnames := names_addTask closed current t
  refine {
    first := ?first
    said := ?said
    ids := ?ids
    names := ?names
    group := ?group
    numbers := ?numbers
    unused := ?unused }
  case first =>
    rw [← stands.first, ← List.head?_map, hnames, List.head?_map]
  case said =>
    rw [dropWhile_snoc_of_neg (by simpa using hloud), List.map_append, stands.said, entries_addTask,
      List.map_append, List.map_singleton, hentry]
    rfl
  case ids =>
    intro g hg t' ht'
    rcases List.mem_append.mp hg with hg | hg
    · exact stands.ids g (List.mem_append_left _ hg) t' ht'
    · rw [List.mem_singleton.mp hg] at ht'
      rcases List.mem_append.mp ht' with ht' | ht'
      · exact stands.ids current (by simp) t' ht'
      · exact List.mem_singleton.mp ht' ▸ id
  case names =>
    intro name
    rw [hnames, stands.names name]
    simp [or_and_right, exists_or, htask]
  case group =>
    rw [openGroup_snoc, if_pos htask]
    exact stands.group
  case numbers =>
    intro number
    rw [openNumbers_snoc_of_task hnumber, List.mem_cons, ← stands.numbers number]
    simp only [TaskGroup.addTask, List.mem_append, List.mem_singleton, or_and_right, exists_or,
      exists_eq_left]
    rw [or_comm, eq_comm]
  case unused =>
    -- neither side holds: the group has a task now, and the last heading is of one
    refine ⟨fun hnone => ?_, fun hall => absurd (hall h (by simp)) hloud⟩
    have hsome := hnone.2
    simp [TaskGroup.addTask] at hsome

/-- A heading with the general name says nothing before all others. -/
theorem Stands.silent (general : IsGeneral h) (unused : closed = [] ∧ current.tasks = []) :
    Stands (earlier ++ [h]) closed current := by
  have hall := stands.unused.mp unused
  have hgeneral : ∀ h' ∈ earlier ++ [h], IsGeneral h' := by
    intro h' hh'
    rcases List.mem_append.mp hh' with hh' | hh'
    · exact hall h' hh'
    · exact List.mem_singleton.mp hh' ▸ general
  obtain ⟨rfl, htasks⟩ := unused
  have hcurrent : current.name = TaskGroup.general := by
    simpa using stands.first
  -- nothing has been opened so far, so all headings up to this one say the same
  refine { stands with
    said := ?said
    names := ?names
    group := ?group
    numbers := ?numbers
    unused := ⟨fun _ => hgeneral, fun _ => ⟨rfl, htasks⟩⟩ }
  case said =>
    rw [List.dropWhile_eq_nil_iff.mpr (by simpa using hgeneral)]
    simp [entries, taskEntries, htasks]
  case names =>
    intro name
    rw [stands.names name]
    constructor
    · rintro (hname | ⟨h', hh', hrest⟩)
      · exact .inl hname
      · exact .inr ⟨h', List.mem_append_left _ hh', hrest⟩
    · rintro (hname | ⟨h', hh', -, rfl⟩)
      · exact .inl hname
      · exact .inl (hgeneral h' hh')
  case group =>
    rw [openGroup_snoc, if_neg general.not_isTask, hcurrent]
    exact general.symm
  case numbers =>
    intro number
    rw [openNumbers_snoc_of_not_task general.not_isTask, htasks]
    simp

/-- A heading with a new name closes the open group and opens another. -/
theorem Stands.opened (other : ¬ IsTask h)
    (new : String.ofList h.title ∉ (closed ++ [current]).map (·.name)) :
    Stands (earlier ++ [h]) (closed ++ [current]) (TaskGroup.new (String.ofList h.title)) := by
  have hloud : ¬ IsGeneral h := fun general => new ((stands.names _).mpr (.inl general))
  have hentry : entryOf? h = some (.group (String.ofList h.title)) := by
    simp [entryOf?, not_isTask_iff.mp other]
  refine {
    first := ?first
    said := ?said
    ids := ?ids
    names := ?names
    group := ?group
    numbers := ?numbers
    unused := ?unused }
  case first =>
    rw [List.head?_append, ← stands.first]
    cases closed <;> rfl
  case said =>
    -- the heading is loud, so the general ones that are dropped in front stay the same
    rw [dropWhile_snoc_of_neg (by simpa using hloud), List.map_append, stands.said,
      entries_snoc (by simp), List.map_append, List.map_singleton, hentry]
    rfl
  case ids =>
    intro g hg t ht
    rcases List.mem_append.mp hg with hg | hg
    · exact stands.ids g hg t ht
    · rw [List.mem_singleton.mp hg] at ht
      cases ht
  case names =>
    intro name
    rw [List.map_append, List.mem_append, stands.names name, List.map_singleton,
      List.mem_singleton, TaskGroup.new, or_assoc]
    simp [or_and_right, exists_or, other, eq_comm]
  case group => rw [openGroup_snoc, if_neg other, TaskGroup.new]
  case numbers =>
    intro number
    rw [openNumbers_snoc_of_not_task other]
    simp [TaskGroup.new]
  case unused =>
    exact ⟨fun hnone => by simp at hnone, fun hall => absurd (hall h (by simp)) hloud⟩

/-- The reader's check for a number comes to the one by headings. -/
theorem Stands.isSome_task?_iff {number : Nat} :
    (current.task? (Task.idOf number)).isSome = true ↔ number ∈ Plan.openNumbers earlier := by
  rw [← stands.numbers number, TaskGroup.task?, List.find?_isSome]
  refine exists_congr fun t => and_congr_right fun ht => ?_
  rw [beq_iff_eq, stands.ids current (by simp) t ht]
  exact ⟨Task.idOf_inj, congrArg Task.idOf⟩

end Steps

theorem digits_ne_nil {title digits name : List Char} (h : taskTitle? title = some (digits, name)) :
    digits ≠ [] := by
  obtain ⟨behind, htitle, -⟩ := taskTitle?_eq_some_iff.mp h
  exact htitle.some

theorem Refuses.of_unstorable {earlier : List Heading} {h : Heading} {digits name : List Char}
    (task : taskTitle? h.title = some (digits, name))
    (none : natBelow? Task.numberBound digits = none) :
    Refuses earlier h (.numberOutOfRange (String.ofList digits)) := by
  refine .number task ?_
  by_contra hstorable
  rw [not_or, Nat.not_le] at hstorable
  obtain ⟨hascii, hbelow⟩ := hstorable
  have hsome : natBelow? Task.numberBound digits = some (Nat.ofDigitChars 10 digits 0) := by
    rw [natBelow?_eq_some_iff (digits_ne_nil task)]
    exact ⟨by simpa using hascii, rfl, hbelow⟩
  rw [none] at hsome
  cases hsome

theorem not_unstorable {h : Heading} {digits name : List Char} {n : Nat}
    (task : taskTitle? h.title = some (digits, name)) (told : numberOf? h = some n) :
    ¬ ((∃ d ∈ digits, d.isDigit = false) ∨ Task.numberBound ≤ Nat.ofDigitChars 10 digits 0) := by
  rw [numberOf?_of_title task] at told
  obtain ⟨hascii, hvalue, hbelow⟩ := (natBelow?_eq_some_iff (digits_ne_nil task)).mp told
  rintro (⟨d, hd, hother⟩ | hlarge)
  · rw [hascii d hd] at hother
    cases hother
  · omega

/-- A task whose number can be stored is refused only when the number is in use. -/
theorem Refuses.of_task {earlier : List Heading} {h : Heading} {n : Nat} {fault : Fault}
    (told : numberOf? h = some n) (refuses : Refuses earlier h fault) : n ∈ openNumbers earlier := by
  cases refuses with
  | number task unstorable => exact absurd unstorable (not_unstorable task told)
  | task told' used =>
    cases told.symm.trans told'
    exact used
  | group other => exact absurd (isTask_of_numberOf? told) other

/-- A heading that is not of a task is refused only for a name in use. -/
theorem Refuses.of_group {earlier : List Heading} {h : Heading} {fault : Fault} (other : ¬ IsTask h)
    (refuses : Refuses earlier h fault) :
    (IsGeneral h ∨ ∃ h' ∈ earlier, ¬ IsTask h' ∧ h'.title = h.title) ∧
      ¬ (IsGeneral h ∧ ∀ h' ∈ earlier, IsGeneral h') := by
  cases refuses with
  | number task => exact absurd (isTask_iff.mpr ⟨_, _, task⟩) other
  | task told => exact absurd (isTask_of_numberOf? told) other
  | group _ used loud => exact ⟨used, loud⟩

/-- Reading the blocks of some headings, after others that are fine, comes to the first heading that is
refused, or to the end. The induction is on the reader, with `Stands` carried from one block to the
next. -/
theorem readGroups_verdict (closed : List TaskGroup) (current : TaskGroup) (bs : List Block) :
    ∀ earlier, Stands earlier closed current → Sound earlier →
    (∃ before h after fault, earlier ++ bs.map (·.heading) = before ++ h :: after ∧ Sound before ∧
      Refuses before h fault ∧
      readGroups closed current bs = .error (.atLine h.line fault)) ∨
    (Sound (earlier ++ bs.map (·.heading)) ∧ ∃ closed' current',
      readGroups closed current bs = .ok (closed' ++ [current']) ∧
      Stands (earlier ++ bs.map (·.heading)) closed' current') := by
  -- `Stands` tells in the words of the headings what the reading checks in the groups, so each check
  -- that fails is a refusal, and each one that passes carries `Stands` and `Sound` one heading on
  fun_induction readGroups closed current bs with
  | case1 closed current =>
    intro earlier stands sound
    right
    rw [List.map_nil, List.append_nil]
    exact ⟨sound, closed, current, rfl, stands⟩
  | case2 closed current b bs digits name htitle hnumber =>
    intro earlier _ sound
    exact .inl ⟨earlier, b.heading, _, _, rfl, sound, .of_unstorable htitle hnumber, rfl⟩
  | case3 closed current b bs digits name htitle number hnumber task hused =>
    intro earlier stands sound
    left
    have hid : task.id = Task.idOf number := (readRows_heading _ _ _).1
    have hsays : numberOf? b.heading = some number := (numberOf?_of_title htitle).trans hnumber
    rw [hid] at hused
    refine ⟨earlier, b.heading, _, _, rfl, sound,
      .task hsays (stands.isSome_task?_iff.mp hused), ?_⟩
    rw [hid, stands.group]
  | case4 closed current b bs digits name htitle number hnumber task hnew ih =>
    intro earlier stands sound
    obtain ⟨hid, hnum, hname⟩ := readRows_heading false (Task.new number (String.ofList name)) b.rows
    have hid' : task.id = Task.idOf number := hid
    have hsays : numberOf? b.heading = some number := (numberOf?_of_title htitle).trans hnumber
    rw [hid'] at hnew
    rw [List.map_cons, List.append_cons]
    refine ih _ (stands.addTask htitle (hnumber.trans (congrArg some hnum.symm)) hname
      (hid.trans (congrArg Task.idOf hnum.symm))) (sound.snoc fun fault hrefuses => hnew ?_)
    exact stands.isSome_task?_iff.mpr (hrefuses.of_task hsays)
  | case5 closed current b bs htitle name hgeneral ih =>
    intro earlier stands sound
    obtain ⟨hname, hunused⟩ := hgeneral
    rw [List.map_cons, List.append_cons]
    refine ih _ (stands.silent hname hunused) (sound.snoc fun fault hrefuses => ?_)
    exact (hrefuses.of_group (not_isTask_iff.mpr htitle)).2 ⟨hname, stands.unused.mp hunused⟩
  | case6 closed current b bs htitle name hloud hused =>
    intro earlier stands sound
    left
    refine ⟨earlier, b.heading, _, _, rfl, sound, .group (not_isTask_iff.mpr htitle) ?_ ?_, rfl⟩
    · rcases (stands.names name).mp hused with hgeneral | ⟨h', hh', hother, hsame⟩
      · exact .inl hgeneral
      · exact .inr ⟨h', hh', hother, String.ofList_injective hsame⟩
    · exact fun hsilent => hloud ⟨hsilent.1, stands.unused.mpr hsilent.2⟩
  | case7 closed current b bs htitle name hloud hnew ih =>
    intro earlier stands sound
    have hother : ¬ IsTask b.heading := not_isTask_iff.mpr htitle
    rw [List.map_cons, List.append_cons]
    refine ih _ (stands.opened hother hnew) (sound.snoc fun fault hrefuses => hnew ?_)
    refine (stands.names name).mpr ?_
    rcases (hrefuses.of_group hother).1 with hgeneral | ⟨h', hh', hother', hsame⟩
    · exact .inl hgeneral
    · exact .inr ⟨h', hh', hother', congrArg String.ofList hsame⟩

/-! ## The rows under the headings -/

/-- In a plan every heading of a task has its task: a number that cannot be stored would have been
refused. -/
theorem exists_taskOf? {closed groups : List TaskGroup} {current : TaskGroup} {bs : List Block}
    (h : readGroups closed current bs = .ok groups) :
    ∀ b ∈ bs, IsTask b.heading → ∃ t, taskOf? b = some t := by
  have reads := readGroups_eq_ok_iff.mp h
  clear h
  induction reads with
  | done =>
    intro b hb
    cases hb
  | task told _ _ ih =>
    intro b' hb' htask
    rcases List.mem_cons.mp hb' with rfl | hb'
    · exact ⟨_, told⟩
    · exact ih b' hb' htask
  | silent other _ _ ih | group other _ _ _ ih =>
    intro b' hb' htask
    rcases List.mem_cons.mp hb' with rfl | hb'
    · exact absurd htask (not_isTask_iff.mpr other)
    · exact ih b' hb' htask

/-- One after the other the tasks belong to the headings of tasks. -/
theorem forall₂_tasks {P : Heading → Task → Prop} {bs : List Block}
    (told : ∀ b ∈ bs, IsTask b.heading → ∃ t, taskOf? b = some t ∧ P b.heading t) :
    List.Forall₂ P ((bs.map (·.heading)).filter fun h => IsTask h) (bs.filterMap taskOf?) := by
  induction bs with
  | nil => exact .nil
  | cons b bs ih =>
    obtain ⟨hb, hbs⟩ := List.forall_mem_cons.mp told
    rw [List.map_cons]
    by_cases htask : IsTask b.heading
    · obtain ⟨t, ht, hP⟩ := hb htask
      rw [List.filter_cons_of_pos (by simpa using htask), List.filterMap_cons_some ht]
      exact .cons hP (ih hbs)
    · rw [List.filter_cons_of_neg (by simpa using htask),
        List.filterMap_cons_none (taskOf?_of_other (not_isTask_iff.mp htask))]
      exact ih hbs

/-- The tasks of a section say what stands under their headings in the text. -/
theorem rows_of_section {text : List Char} {s : Section} {groups : List TaskGroup}
    (found : taskSection? (Outline.ofText text) = some s) (read : readTasks s.body = .ok groups) :
    List.Forall₂ (fun h t => Describe (rowsUnder (lines text) h) t)
      (((blocks s.body).map (·.heading)).filter fun h => IsTask h) (groups.flatMap (·.tasks)) := by
  rw [tasks_of_readTasks read]
  refine forall₂_tasks fun b hb htask => ?_
  obtain ⟨t, ht⟩ := exists_taskOf? read b hb htask
  obtain ⟨number, name, rfl⟩ := taskOf?_eq_some ht
  refine ⟨_, ht, ?_⟩
  rw [rowsUnder_of_mem_blocks found hb]
  exact describe_readRows number name b.rows

/-! ## The lines of steps -/

/-- The lines of all steps of some groups. -/
def linesOfSteps (groups : List TaskGroup) : List Nat :=
  (groups.flatMap (·.tasks)).flatMap (·.stepLines)

theorem linesOfSteps_append (gs gs' : List TaskGroup) :
    linesOfSteps (gs ++ gs') = linesOfSteps gs ++ linesOfSteps gs' := by
  rw [linesOfSteps, List.flatMap_append, List.flatMap_append]
  rfl

theorem linesOfSteps_addTask (closed : List TaskGroup) (current : TaskGroup) (t : Task) :
    linesOfSteps (closed ++ [current.addTask t]) =
      linesOfSteps (closed ++ [current]) ++ t.stepLines := by
  rw [linesOfSteps_append, linesOfSteps_append, List.append_assoc]
  simp [linesOfSteps, TaskGroup.addTask]

/-- Reading blocks adds lines of steps in the order of the rows, and no line twice. -/
theorem Reads.linesOfSteps {closed groups : List TaskGroup} {current : TaskGroup} {bs : List Block}
    (reads : Reads closed current bs groups) :
    ∃ ns, Plan.linesOfSteps groups = Plan.linesOfSteps (closed ++ [current]) ++ ns ∧
      ns.Sublist ((bs.flatMap (·.rows)).map (·.number)) := by
  induction reads with
  | done => exact ⟨[], by simp, .slnil⟩
  | @task closed groups current b bs t told _ _ ih =>
    obtain ⟨ns, hlines, hsub⟩ := ih
    obtain ⟨_, name, number, -, -, rfl⟩ := title_of_taskOf? told
    -- a task brings the lines of its own rows, and the blocks come in the order of the text
    obtain ⟨own, hown, hsub'⟩ :=
      readRows_stepLines false (Task.new number (String.ofList name)) b.rows
    rw [Task.new, List.nil_append] at hown
    refine ⟨own ++ ns, ?_, ?_⟩
    · rw [hlines, linesOfSteps_addTask, Task.new, hown, List.append_assoc]
    · rw [List.flatMap_cons, List.map_append]
      exact hsub'.append hsub
  | silent _ _ _ ih =>
    obtain ⟨ns, hlines, hsub⟩ := ih
    refine ⟨ns, hlines, ?_⟩
    rw [List.flatMap_cons, List.map_append]
    exact hsub.trans (List.sublist_append_right _ _)
  | group _ _ _ _ ih =>
    obtain ⟨ns, hlines, hsub⟩ := ih
    refine ⟨ns, ?_, ?_⟩
    · rw [hlines, linesOfSteps_append]
      simp [Plan.linesOfSteps, TaskGroup.new]
    · rw [List.flatMap_cons, List.map_append]
      exact hsub.trans (List.sublist_append_right _ _)

/-! ## The verdict -/

theorem even_of_lastIfOdd {ns : List Nat} (h : lastIfOdd ns = none) : ns.length % 2 = 0 := by
  rw [lastIfOdd] at h
  split at h
  · rename_i hodd
    rw [List.getLast?_eq_none_iff] at h
    simp [h] at hodd
  · omega

theorem of_lastIfOdd {ns : List Nat} {n : Nat} (h : lastIfOdd ns = some n) :
    ns.length % 2 = 1 ∧ ns.getLast? = some n := by
  rw [lastIfOdd] at h
  split at h
  · rename_i hodd
    exact ⟨hodd, h⟩
  · cases h

theorem taskHeadings_of_section {text : List Char} {s : Section}
    (found : taskSection? (Outline.ofText text) = some s) :
    TaskHeadings (headingsOf (lines text)) (s.body.filterMap Line.heading?) := by
  obtain ⟨above, l, below, hlines, hnone, htitled, hheading, hbody⟩ := sectionTitled?_eq_some found
  refine ⟨above.filterMap Line.heading?, s.heading, below.filterMap Line.heading?, ?_,
    not_titled_of_lines hnone, titled_of_isTitled htitled hheading, ?_⟩
  · rw [← headings_ofText, Outline.headings, hlines, List.filterMap_append,
      List.filterMap_cons_some hheading]
  · rw [hbody]
    refine filterMap_takeWhile (fun l' hl' => ?_) (fun l' h hl' => ?_) below
    · simp [SectionEnd.endsAt, hl']
    · rw [Bool.eq_iff_iff]
      simp [SectionEnd.endsAt, hl']

/-- The lines of all steps of a plan ascend, as rows are read from the top down and each by one task. -/
theorem pairwise_linesOfSteps {text : List Char} {s : Section} {groups : List TaskGroup}
    (found : taskSection? (Outline.ofText text) = some s) (read : readTasks s.body = .ok groups) :
    (linesOfSteps groups).Pairwise (· < ·) := by
  obtain ⟨ns, hlines, hsub⟩ := (readGroups_eq_ok_iff.mp read).linesOfSteps
  have hrows := (flatMap_rows_blocks s.body).trans (body_sublist found)
  rw [hlines]
  exact (numbers_ofText text).sublist (hsub.trans (hrows.map _))

/-- Whatever the text is, what the parser makes of it is one of the verdicts on its lines. -/
theorem verdict_parse (text : String) : Verdict (lines text.toList) (parse text) := by
  cases hopen : (Outline.ofText text.toList).openFence? with
  | some line =>
    rw [parse_of_open hopen]
    rw [openFence?_ofText] at hopen
    obtain ⟨hodd, hlast⟩ := of_lastIfOdd hopen
    exact .unterminated hodd hlast
  | none =>
    have heven : (fencesOf (lines text.toList)).length % 2 = 0 :=
      even_of_lastIfOdd (openFence?_ofText text.toList ▸ hopen)
    cases hfound : taskSection? (Outline.ofText text.toList) with
    | none =>
      rw [parse_of_no_tasks hopen hfound]
      refine .missing heven ?_
      rw [← headings_ofText]
      exact sectionTitled?_eq_none hfound
    | some s =>
      have htasks := taskHeadings_of_section hfound
      rw [← map_heading_blocks] at htasks
      rw [parse_of_tasks hopen hfound, readTasks]
      rcases readGroups_verdict _ _ (blocks s.body) [] .start .nil with
        ⟨before, h, after, fault, hsplit, hsound, hrefuses, hread⟩ |
        ⟨hsound, closed, current, hread, hstands⟩
      · rw [hread]
        exact .refused heven htasks hsplit hsound hrefuses
      · rw [hread]
        exact .accepted heven htasks hsound
          ⟨hstands.first, hstands.said, hstands.ids, rows_of_section hfound hread,
            pairwise_linesOfSteps hfound hread⟩

/-! ## One verdict only -/

theorem split_unique {α : Type} {P : α → Prop} {as as' bs bs' : List α} {b b' : α}
    (none : ∀ a ∈ as, ¬ P a) (holds : P b) (none' : ∀ a ∈ as', ¬ P a) (holds' : P b')
    (h : as ++ b :: bs = as' ++ b' :: bs') : b = b' ∧ bs = bs' := by
  rcases List.append_eq_append_iff.mp h with ⟨cs, rfl, hcs⟩ | ⟨cs, rfl, hcs⟩
  · cases cs with
    | nil => simpa using hcs
    | cons c cs =>
      have hc : b = c := (List.cons.inj hcs).1
      exact absurd (hc ▸ holds) (none' c (by simp))
  · cases cs with
    | nil => simpa [eq_comm] using hcs
    | cons c cs =>
      have hc : b' = c := (List.cons.inj hcs).1
      exact absurd (hc ▸ holds') (none c (by simp))

/-- There is only one list of such headings, since it stands under the first heading of the tasks. -/
theorem TaskHeadings.unique {all body body' : List Heading} (h : TaskHeadings all body)
    (h' : TaskHeadings all body') : body = body' := by
  obtain ⟨above, tasks, below, rfl, hnone, htitled, rfl⟩ := h
  obtain ⟨above', tasks', below', hsplit, hnone', htitled', rfl⟩ := h'
  obtain ⟨rfl, rfl⟩ := split_unique hnone htitled hnone' htitled' hsplit
  rfl

/-- A heading is refused for one reason only: it is of a task or not, and its number can be stored or
not. -/
theorem Refuses.unique {earlier : List Heading} {h : Heading} {fault fault' : Fault}
    (refuses : Refuses earlier h fault) (refuses' : Refuses earlier h fault') : fault = fault' := by
  cases refuses with
  | number task unstorable =>
    cases refuses' with
    | number task' =>
      cases task.symm.trans task'
      rfl
    | task told => exact absurd unstorable (not_unstorable task told)
    | group other => exact absurd (isTask_iff.mpr ⟨_, _, task⟩) other
  | task told used =>
    cases refuses' with
    | number task unstorable => exact absurd unstorable (not_unstorable task told)
    | task told' =>
      cases told.symm.trans told'
      rfl
    | group other => exact absurd (isTask_of_numberOf? told) other
  | group other used loud =>
    cases refuses' with
    | number task => exact absurd (isTask_iff.mpr ⟨_, _, task⟩) other
    | task told => exact absurd (isTask_of_numberOf? told) other
    | group => rfl

/-- Only one heading is the first that is refused. -/
theorem refused_unique {earlier earlier' later later' : List Heading} {h h' : Heading}
    {fault fault' : Fault} (sound : Sound earlier) (refuses : Refuses earlier h fault)
    (sound' : Sound earlier') (refuses' : Refuses earlier' h' fault')
    (same : earlier ++ h :: later = earlier' ++ h' :: later') : h = h' ∧ fault = fault' := by
  rcases List.append_eq_append_iff.mp same with ⟨cs, rfl, hcs⟩ | ⟨cs, rfl, hcs⟩
  · cases cs with
    | nil =>
      obtain ⟨rfl, -⟩ := List.cons.inj hcs
      rw [List.append_nil] at refuses'
      exact ⟨rfl, refuses.unique refuses'⟩
    | cons c cs =>
      obtain ⟨rfl, -⟩ := List.cons.inj hcs
      exact absurd refuses (sound' earlier h cs rfl fault)
  · cases cs with
    | nil =>
      obtain ⟨rfl, -⟩ := List.cons.inj hcs
      rw [List.append_nil] at refuses
      exact ⟨rfl, refuses.unique refuses'⟩
    | cons c cs =>
      obtain ⟨rfl, -⟩ := List.cons.inj hcs
      exact absurd refuses' (sound earlier' h' cs rfl fault')

/-- What is refused is refused for one reason, and not accepted. So an error that is a verdict on the
lines is the error that is reported. -/
theorem Verdict.unique {ls : List (List Char)} {e : ParseError} {r : Except ParseError Plan}
    (verdict : Verdict ls (.error e)) (verdict' : Verdict ls r) : r = .error e := by
  -- the parities and the section tell the kinds apart; two refusals are at the same heading
  have found : ∀ {body : List Heading}, TaskHeadings (headingsOf ls) body →
      ¬ ∀ h ∈ headingsOf ls, ¬ h.Titled "Tasks".toList := by
    rintro body ⟨above, tasks, below, hall, -, htitled, -⟩ hnone
    exact hnone tasks (by rw [hall]; simp) htitled
  cases verdict with
  | unterminated odd last =>
    cases verdict' with
    | unterminated _ last' =>
      cases last.symm.trans last'
      rfl
    | missing even | refused even | accepted even => omega
  | missing even none =>
    cases verdict' with
    | unterminated odd => omega
    | missing => rfl
    | refused _ tasks | accepted _ tasks => exact absurd none (found tasks)
  | refused even tasks split sound refused =>
    cases verdict' with
    | unterminated odd => omega
    | missing _ none => exact absurd none (found tasks)
    | refused _ tasks' split' sound' refused' =>
      have hsame := (split.symm.trans (tasks.unique tasks')).trans split'
      obtain ⟨rfl, rfl⟩ := refused_unique sound refused sound' refused' hsame
      rfl
    | accepted _ tasks' sound' =>
      rw [← tasks.unique tasks', split] at sound'
      exact absurd refused (sound' _ _ _ rfl _)

/-- A text is read as a plan or refused as its fences and headings say, and they say one thing
only. -/
theorem parse_verdict (text : String) :
    Verdict (lines text.toList) (parse text) ∧
      ∀ e, Verdict (lines text.toList) (.error e) → parse text = .error e :=
  ⟨verdict_parse text, fun _ verdict => verdict.unique (verdict_parse text)⟩

end Runbook.Plan
