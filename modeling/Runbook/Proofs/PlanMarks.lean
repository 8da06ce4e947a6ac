import Runbook.Proofs.StepTicks
import Runbook.Proofs.TaskBlocks

/-!
# The marks of a run

A plan's text is changed chunk by chunk, and changes that leave the ends of lines alone can be made
one after the other or at once (`mapChunks_mapChunks`). So status words overwrite each other
(`rewriteStatus_rewriteStatus`), and boxes are ticked before or after (`tickSteps_rewriteStatus`).

An edit after which lines are read alike makes the same plan (`parse_of_alike`). Ticking steps is such
an edit (`parse_tickSteps`).
-/

set_option autoImplicit false

namespace Runbook.Plan

open Text Markdown

/-! ## Changing chunks -/

/-- Edits made one after the other to numbered texts are one edit of each, since an edit moves no text
to another place. -/
theorem edited_edited (f g : Nat → List Char → List Char) (ks : List (List Char)) (first : Nat) :
    edited f (edited g ks first) first = edited (fun n => f n ∘ g n) ks first := by
  induction ks generalizing first with
  | nil => rfl
  | cons k ks ih => exact congrArg (_ :: ·) (ih (first + 1))

theorem edited_id (ks : List (List Char)) (first : Nat) : edited (fun _ l => l) ks first = ks := by
  induction ks generalizing first with
  | nil => rfl
  | cons k ks ih => exact congrArg (k :: ·) (ih (first + 1))

theorem mapChunks_id (text : String) : mapChunks (fun _ l => l) text = text := by
  rw [← String.toList_inj, toList_mapChunks, edited_id, flatten_chunks]

/-- Two changes of lines, one after the other, are one. The first must leave line ends alone, so that
the second finds the same chunks. -/
theorem mapChunks_mapChunks {f g : Nat → List Char → List Char} (edits : ∀ n, LineEdit (g n))
    (text : String) : mapChunks f (mapChunks g text) = mapChunks (fun n => f n ∘ g n) text := by
  rw [← String.toList_inj, toList_mapChunks, toList_mapChunks, toList_mapChunks,
    ((chunked_chunks text.toList).edited edits 0).1.chunks_flatten, edited_edited]

/-! ## Status words and boxes -/

/-- The change of a line that writes a status on some line. On a line without a marker it does nothing.
-/
def statusEdit (line : Option Nat) (status : PlanStatus) (n : Nat) (l : List Char) : List Char :=
  if line = some n then rewriteField "Status" status.marker.toList l else l

def tickEdit (lines : List Nat) (n : Nat) (l : List Char) : List Char :=
  if n ∈ lines then tick l else l

/-- Writing a status is an edit of lines, so what is known of such edits applies to it. -/
theorem rewriteStatus_eq (text : String) (line : Option Nat) (status : PlanStatus) :
    rewriteStatus text line status = mapChunks (statusEdit line status) text := by
  cases line with
  | none => exact (mapChunks_id text).symm
  | some line =>
    have hedit : (fun n l => if n = line then rewriteField "Status" status.marker.toList l else l) =
        statusEdit (some line) status := by
      funext n l
      simp only [statusEdit, Option.some.injEq, eq_comm]
    exact congrArg (mapChunks · text) hedit

theorem lineEdit_statusEdit {status : PlanStatus} (word : Word status.marker.toList)
    (line : Option Nat) (n : Nat) : LineEdit (statusEdit line status n) := by
  unfold statusEdit
  split
  · exact lineEdit_rewriteField _ word
  · exact .id

/-- A tick stands between brackets and leaves the end of the line alone. -/
theorem lineEdit_tickEdit (lines : List Nat) (n : Nat) : LineEdit (tickEdit lines n) := by
  unfold tickEdit
  split
  · exact lineEdit_tick
  · exact .id

/-- Of two statuses that are written the last one counts: the first leaves the room in which the second
is written as it found it. -/
theorem rewriteStatus_rewriteStatus {status : PlanStatus} (word : Word status.marker.toList)
    (text : String) (line : Option Nat) (status' : PlanStatus) :
    rewriteStatus (rewriteStatus text line status) line status' = rewriteStatus text line status' := by
  simp only [rewriteStatus_eq]
  rw [mapChunks_mapChunks (lineEdit_statusEdit word line)]
  refine congrArg (mapChunks · text) (funext fun n => funext fun l => ?_)
  simp only [Function.comp_apply, statusEdit]
  split
  · exact rewriteField_rewriteField _ word _ _
  · rfl

/-- Boxes are ticked before a status is written or after. Both may be on one line, where the box stands
before the first star and the field behind it. -/
theorem tickSteps_rewriteStatus {status : PlanStatus} (word : Word status.marker.toList)
    (text : String) (line : Option Nat) (lines : List Nat) :
    tickSteps (rewriteStatus text line status) lines =
      rewriteStatus (tickSteps text lines) line status := by
  have hticks : ∀ t, tickSteps t lines = mapChunks (tickEdit lines) t := fun _ => rfl
  simp only [rewriteStatus_eq, hticks]
  rw [mapChunks_mapChunks (lineEdit_statusEdit word line), mapChunks_mapChunks (lineEdit_tickEdit lines)]
  refine congrArg (mapChunks · text) (funext fun n => funext fun l => ?_)
  simp only [Function.comp_apply, statusEdit, tickEdit]
  by_cases hline : line = some n <;> by_cases hmem : n ∈ lines
  · simp only [if_pos hline, if_pos hmem, tick_rewriteField]
  · simp only [if_pos hline, if_neg hmem]
  · simp only [if_neg hline, if_pos hmem]
  · simp only [if_neg hline, if_neg hmem]

/-- Ticking the same boxes again changes nothing. -/
theorem tickSteps_tickSteps (text : String) (lines : List Nat) :
    tickSteps (tickSteps text lines) lines = tickSteps text lines := by
  have hticks : ∀ t, tickSteps t lines = mapChunks (tickEdit lines) t := fun _ => rfl
  simp only [hticks]
  rw [mapChunks_mapChunks (lineEdit_tickEdit lines)]
  refine congrArg (mapChunks · text) (funext fun n => funext fun l => ?_)
  simp only [Function.comp_apply, tickEdit]
  split
  · exact tick_tick l
  · rfl

/-! ## Edits that no reader sees -/

section Edits

variable {edit : Nat → List Char → List Char} {text : String}

/-- A line that has a part in the outline is what it is by itself, so an edit of it can be judged by its
text. -/
theorem eq_openLine {l : Line} (mem : l ∈ (Outline.ofText text.toList).lines)
    (free : l.isFenced = false) : l = openLine l.number l.text := by
  have hscan : ∀ (texts : List (List Char)) (inside : Bool) (number : Nat),
      ∀ l ∈ scan inside number texts, l.isFenced = false → l = openLine l.number l.text := by
    intro texts
    induction texts with
    | nil =>
      intro inside number l hl
      cases hl
    | cons t texts ih =>
      intro inside number l hl hfree
      rw [scan] at hl
      split at hl
      · rcases List.mem_cons.mp hl with rfl | hl
        · cases hfree
        · exact ih _ _ l hl hfree
      · split at hl
        · rcases List.mem_cons.mp hl with rfl | hl
          · cases hfree
          · exact ih _ _ l hl hfree
        · rcases List.mem_cons.mp hl with rfl | hl
          · rfl
          · exact ih _ _ l hl hfree
  exact hscan _ _ _ l mem free

theorem heading?_of_fenced {l : Line} (fenced : l.isFenced = true) : l.heading? = none := by
  cases h : l.heading? with
  | none => rfl
  | some heading =>
    rw [not_fenced_of_heading h] at fenced
    cases fenced

/-- A heading stays when the line is read as the same heading before and after the edit, or as none. -/
theorem heading?_redrawn {l : Line} (mem : l ∈ (Outline.ofText text.toList).lines)
    (same : l.isFenced = false → parseHeading? (edit l.number l.text) = parseHeading? l.text) :
    (redrawn edit l).heading? = l.heading? := by
  cases hfenced : l.isFenced with
  | true =>
    have hkeeps := (keeps_redrawn edit l).fenced
    rw [heading?_of_fenced hfenced, heading?_of_fenced (hkeeps.trans hfenced)]
  | false =>
    rw [redrawn_of_free hfenced, heading?_openLine, same hfenced, ← heading?_openLine,
      ← eq_openLine mem hfenced]

variable (edits : ∀ n, LineEdit (edit n))
  (alike : ∀ l ∈ (Outline.ofText text.toList).lines, Alike l.text (edit l.number l.text))
  (verbatim : ∀ l ∈ (Outline.ofText text.toList).lines,
    l.isFenced = true → edit l.number l.text = l.text)

include alike in
theorem heading?_of_alike : ∀ l ∈ (Outline.ofText text.toList).lines,
    (redrawn edit l).heading? = l.heading? := by
  intro l hl
  exact heading?_redrawn hl fun _ => (alike l hl).heading

include edits alike verbatim in
/-- Edits after which lines are read alike leave the frame of a document as it is. -/
theorem framed_of_alike : Framed edit text where
  edits := edits
  fences l hl := (alike l hl).fence
  verbatim := verbatim
  levels l hl := by rw [heading?_of_alike alike l hl]
  titled name _ l hl := by
    have hsame := heading?_of_alike alike l hl
    exact ⟨by rw [Outline.isTitled, Outline.isTitled, hsame], fun _ => hsame⟩

include alike in
theorem readField?_of_alike (label : String) {ls : List Line}
    (among : ∀ l ∈ ls, l ∈ (Outline.ofText text.toList).lines) :
    readField? label (ls.map (redrawn edit)) = readField? label ls := by
  refine readField?_map (fun l _ => keeps_redrawn edit l) fun l hl _ => ?_
  rw [text_redrawn]
  exact (alike l (among l hl)).field label

include edits alike verbatim in
theorem ofGroups_of_alike (groups : List TaskGroup) : ofGroups (mapChunks edit text) groups =
    { ofGroups text groups with text := mapChunks edit text } := by
  have hframed := framed_of_alike edits alike verbatim
  have hbody := hframed.sectionBody (by simp [sectionNames] : "Specification" ∈ sectionNames)
  have hamong : ∀ l ∈ sectionBody (Outline.ofText text.toList) "Specification",
      l ∈ (Outline.ofText text.toList).lines := fun l hl => mem_lines_of_mem_sectionBody hl
  have hfield : ∀ label, readField? label
      (sectionBody (Outline.ofText (mapChunks edit text).toList) "Specification") =
        readField? label (sectionBody (Outline.ofText text.toList) "Specification") := by
    intro label
    rw [hbody, readField?_of_alike alike label hamong]
  have hheader : ∀ label, headerField? (Outline.ofText (mapChunks edit text).toList) label =
      headerField? (Outline.ofText text.toList) label := by
    intro label
    rw [headerField?, headerField?, hfield, hframed.outline,
      readField?_of_alike alike label fun _ hl => hl]
  -- criteria are read line by line, so it is enough that no line changes as an item
  have hcriteria : readCriteria
      (sectionBody (Outline.ofText (mapChunks edit text).toList) "Specification") =
        readCriteria (sectionBody (Outline.ofText text.toList) "Specification") := by
    rw [hbody]
    refine readCriteria_map (fun l hl => ?_) (fun l hl => ?_) fun l hl => ?_
    · rw [text_redrawn]
      exact (alike l (hamong l hl)).field _
    · rw [text_redrawn]
      exact (alike l (hamong l hl)).blank
    · rw [text_redrawn]
      exact (alike l (hamong l hl)).item
  have hspec : readSpecification (Outline.ofText (mapChunks edit text).toList) =
      readSpecification (Outline.ofText text.toList) := by
    simp only [readSpecification, hheader, hfield, hcriteria]
  simp only [ofGroups, hspec, hframed.context, hheader]

include alike in
theorem readTasks_of_alike {s : Section}
    (found : taskSection? (Outline.ofText text.toList) = some s) :
    readTasks (s.body.map (redrawn edit)) = readTasks s.body := by
  have hmem : ∀ l ∈ s.body, l ∈ (Outline.ofText text.toList).lines :=
    fun l hl => (body_sublist found).subset hl
  refine readTasks_map (fun l _ => keeps_redrawn edit l)
    (fun l hl => heading?_of_alike alike l (hmem l hl)) (fun l hl _ => ?_) (fun l hl _ => ?_)
  · rw [text_redrawn]
    exact (alike l (hmem l hl)).row
  · rw [text_redrawn]
    exact (alike l (hmem l hl)).step

include edits alike verbatim in
/-- An edit of lines that are read alike makes the same plan, with another text. -/
theorem parse_of_alike {p : Plan} (parsed : parse text = .ok p) :
    parse (mapChunks edit text) = .ok { p with text := mapChunks edit text } := by
  obtain ⟨s, groups, hclosed, hfound, hread, rfl⟩ := parse_eq_ok_iff.mp parsed
  rw [(framed_of_alike edits alike verbatim).parse hclosed hfound, readTasks_of_alike alike hfound,
    hread, ← ofGroups_of_alike edits alike verbatim]
  rfl

end Edits

/-- Ticking steps of a plan makes no other plan. The lines of its steps are all that may be ticked: a
box in a heading or in verbatim text would be another matter. -/
theorem parse_tickSteps {text : String} {p : Plan} (parsed : parse text = .ok p) {lines : List Nat}
    (steps : ∀ n ∈ lines, n ∈ linesOfSteps p.groups) :
    parse (tickSteps text lines) = .ok { p with text := tickSteps text lines } := by
  refine parse_of_alike (lineEdit_tickEdit lines) (fun l _ => ?_)
    (fun l hl hfenced => ?_) parsed
  · unfold tickEdit
    split
    · exact alike_tick l.text
    · exact .refl l.text
  · refine if_neg fun hstep => ?_
    rw [free_of_mem_linesOfSteps parsed hl (steps _ hstep)] at hfenced
    cases hfenced

end Runbook.Plan
