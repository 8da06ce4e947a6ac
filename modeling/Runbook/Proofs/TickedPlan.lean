import Runbook.Proofs.PlanMarks

/-!
# Steps that have been ticked

Ticking changes chunks one by one, so a line that is not ticked is the same to the byte, and on a line
that is ticked nothing but the inside of the box is another one (`aside_tick`). A line is left as it is
exactly when there is no empty box behind its number (`tick_eq_self_iff`). A line that has been ticked is
left as it is, and so none is left empty.

Readers take steps from lines without their ends and blanks, the writer from whole chunks. Both see the same
box, and so the plan is the same (`tickSteps_boxes`).
-/

set_option autoImplicit false

namespace Runbook

open Text Markdown

namespace Markdown

/-! ## Empty boxes -/

/-- The line begins with the number of a step and an empty box. An empty box further on is text. -/
def EmptyBox (line : List Char) : Prop := ∃ front ticked, Boxed front ticked ∧ front <+: line

theorem Boxed.ne {front ticked : List Char} (h : Boxed front ticked) : front ≠ ticked := by
  obtain @⟨label, indent, digits, gap, inside, -, empty⟩ := h
  intro heq
  rw [List.append_cancel_left_eq, tickedBox, List.cons.injEq] at heq
  obtain ⟨-, hinside⟩ := heq
  cases empty with
  | empty blank =>
    -- a cross is no blank
    have hx : 'x' ∈ inside := by
      cases inside with
      | nil => cases hinside
      | cons c inside => rw [(List.cons.inj hinside).1]; exact List.mem_cons_self
    exact absurd (blank _ hx) (by decide)

/-- Ticking does something exactly where there is an empty box. -/
theorem tick_eq_self_iff {line : List Char} : tick line = line ↔ ¬ EmptyBox line := by
  constructor
  · rintro hsame ⟨front, ticked, hboxed, behind, rfl⟩
    rw [tick_boxed hboxed, List.append_cancel_right_eq] at hsame
    exact hboxed.ne hsame.symm
  · exact fun hnone => tick_eq_self fun front ticked hboxed hprefix =>
      hnone ⟨front, ticked, hboxed, hprefix⟩

/-- No box is left empty: ticking again would do something, and it does not. -/
theorem not_emptyBox_tick (line : List Char) : ¬ EmptyBox (tick line) :=
  tick_eq_self_iff.mp (tick_tick line)

/-- Lines that differ at most between their first two brackets. That these are the first is part of it,
so that a box is not confused with brackets in what a step says. -/
inductive BoxAside : List Char → List Char → Prop
  | same (line : List Char) : BoxAside line line
  | box {before inside inside' : List Char} (behind : List Char)
    (first : ∀ c ∈ before ++ inside ++ inside', c ≠ '[' ∧ c ≠ ']') :
    BoxAside (before ++ '[' :: (inside ++ ']' :: behind)) (before ++ '[' :: (inside' ++ ']' :: behind))

/-- A line that is ticked is the same but for the inside of its box. -/
theorem aside_tick (line : List Char) : BoxAside line (tick line) := by
  rcases tick_cases line with ⟨front, ticked, behind, hboxed, rfl⟩ | hnone
  · rw [tick_boxed hboxed]
    obtain @⟨label, indent, digits, gap, inside, isLabel, empty⟩ := hboxed
    -- no bracket is in the numeral, so the first one on the line is the box
    have hlabel : ∀ c ∈ label, c ≠ '[' ∧ c ≠ ']' := by
      intro c hc
      refine ⟨?_, ?_⟩
      · rintro rfl
        exact isLabel.not_mem (by decide) (by decide) (by decide) hc
      · rintro rfl
        exact isLabel.not_mem (by decide) (by decide) (by decide) hc
    have hinside : ∀ c ∈ inside, c ≠ '[' ∧ c ≠ ']' := by
      cases empty with
      | empty blank =>
        intro c hc
        refine ⟨?_, ?_⟩
        · rintro rfl
          exact absurd (blank _ hc) (by decide)
        · rintro rfl
          exact absurd (blank _ hc) (by decide)
    have hclear : ∀ c ∈ label ++ inside ++ ['x'], c ≠ '[' ∧ c ≠ ']' := by
      intro c hc
      rcases List.mem_append.mp hc with hc | hc
      · exact (List.mem_append.mp hc).elim (hlabel c) (hinside c)
      · rw [List.mem_singleton.mp hc]
        decide
    have hbox := BoxAside.box behind hclear
    simpa [tickedBox] using hbox
  · rw [tick_eq_self hnone]
    exact .same line

end Markdown

namespace Plan

/-! ## Chunks that are ticked -/

theorem getElem?_edited (edit : Nat → List Char → List Char) (ks : List (List Char)) (first n : Nat) :
    (edited edit ks first)[n]? = ks[n]?.map (edit (first + n)) := by
  rw [edited, List.getElem?_map, List.getElem?_zipIdx, Option.map_map]
  rfl

/-- A text that is changed chunk by chunk is cut where it was, as long as line ends are left alone. -/
theorem chunks_mapChunks {edit : Nat → List Char → List Char} (edits : ∀ n, LineEdit (edit n))
    (text : String) : chunks (mapChunks edit text).toList = edited edit (chunks text.toList) 0 := by
  rw [toList_mapChunks, ((chunked_chunks text.toList).edited edits 0).1.chunks_flatten]

theorem chunks_tickSteps (text : String) (lines : List Nat) :
    chunks (tickSteps text lines).toList = edited (tickEdit lines) (chunks text.toList) 0 :=
  chunks_mapChunks (lineEdit_tickEdit lines) text

/-- The four statuses that a run knows have words that can be written. -/
theorem word_of_known {status : PlanStatus}
    (known : status ∈ [PlanStatus.draft, .inProgress, .completed, .failed]) :
    Word status.marker.toList := by
  have hall : ∀ status ∈ [PlanStatus.draft, .inProgress, .completed, .failed],
      status.marker.toList ≠ [] ∧ trim status.marker.toList = status.marker.toList ∧
        status.marker.toList.any endsValue = false := by decide
  obtain ⟨hsome, htrimmed, hinner⟩ := hall status known
  exact ⟨hsome, htrimmed, plain_of_any hinner⟩

/-- Ticking steps of a plan changes the insides of their boxes and nothing else: the plan that is read is
the same, no box stays empty, and it does not matter in which order, how often, or before or after which
status lines are ticked. -/
theorem tickSteps_boxes {text : String} {p : Plan} (parsed : parse text = .ok p) {lines : List Nat}
    (steps : ∀ n ∈ lines, ∃ t ∈ p.tasks, n ∈ t.stepLines) :
    parse (tickSteps text lines) = .ok { p with text := tickSteps text lines } ∧
      (chunks (tickSteps text lines).toList).length = (chunks text.toList).length ∧
      (∀ (n : Nat) (l l' : List Char), (chunks text.toList)[n]? = some l →
        (chunks (tickSteps text lines).toList)[n]? = some l' →
          (n ∈ lines → ¬ EmptyBox l' ∧ BoxAside l l') ∧ (n ∉ lines → l' = l)) ∧
      (∀ lines', (∀ n, n ∈ lines' ↔ n ∈ lines) → tickSteps text lines' = tickSteps text lines) ∧
      tickSteps (tickSteps text lines) lines = tickSteps text lines ∧
      ∀ line, ∀ status ∈ [PlanStatus.draft, .inProgress, .completed, .failed],
        tickSteps (rewriteStatus text line status) lines =
          rewriteStatus (tickSteps text lines) line status := by
  refine ⟨parse_tickSteps parsed fun n hn => ?_, ?_, fun n l l' hl hl' => ?_, fun lines' same => ?_,
    tickSteps_tickSteps text lines, fun line status known =>
      tickSteps_rewriteStatus (word_of_known known) text line lines⟩
  · obtain ⟨t, ht, hline⟩ := steps n hn
    exact List.mem_flatMap.mpr ⟨t, ht, hline⟩
  · rw [chunks_tickSteps, edited, List.length_map, List.length_zipIdx]
  · rw [chunks_tickSteps, getElem?_edited, hl, Option.map_some, Option.some.injEq, Nat.zero_add] at hl'
    subst hl'
    constructor
    · intro hmem
      rw [tickEdit, if_pos hmem]
      exact ⟨not_emptyBox_tick l, aside_tick l⟩
    · exact fun hmem => if_neg hmem
  · simp only [tickSteps, same]

/-- A plan with boxes of every kind, one of them in front of the marker that its status is read from. -/
def washText : String :=
  "## Tasks\n### Task 1: Wash\n**Steps:**\r\n 1.\t[ \t] fill\r\n2. [X] rinse\n"
    ++ "3. [] **Status:** DRAFT\n"

def washPlan : Plan where
  text := washText
  groups := [{ TaskGroup.new "General" with
    tasks := [{ Task.new 1 "Wash" with
      steps := ["fill", "rinse", "**Status:** DRAFT"], stepLines := [3, 4, 5] }] }]
  statusLine := some 5

theorem parse_washText : parse washText = .ok washPlan := parse_of_toOption (by decide +kernel)

/-- Two of the steps are ticked, one of them twice. -/
theorem tickSteps_boxes_of_wash :
    parse washText = .ok washPlan ∧
      parse (tickSteps washText [3, 5, 3]) = .ok { washPlan with text := tickSteps washText [3, 5, 3] } ∧
        tickSteps washText [5, 3] = tickSteps washText [3, 5, 3] ∧
          tickSteps (tickSteps washText [3, 5, 3]) [3, 5, 3] = tickSteps washText [3, 5, 3] := by
  have hsteps : ∀ n ∈ [3, 5, 3], ∃ t ∈ washPlan.tasks, n ∈ t.stepLines := by decide
  obtain ⟨hparse, -, -, hset, hagain, -⟩ := tickSteps_boxes parse_washText hsteps
  exact ⟨parse_washText, hparse, hset [5, 3] (by simp [or_comm]), hagain⟩

example : tickSteps washText [3, 5, 3] =
    "## Tasks\n### Task 1: Wash\n**Steps:**\r\n 1.\t[x] fill\r\n2. [X] rinse\n3. [x] **Status:** DRAFT\n" := by
  decide +kernel

end Plan

end Runbook
