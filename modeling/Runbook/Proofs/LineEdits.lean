import Runbook.Plan.Marks
import Runbook.Plan.Parser
import Runbook.Proofs.GroupReading
import Runbook.Proofs.Lines
import Runbook.Proofs.Outline
import Runbook.Proofs.ParsedGroups

/-!
# What an edit of lines does to a plan

An edit that leaves fences alone changes the outline of a document line by line (`outline_edited`):
every line keeps its number, and what was verbatim stays so. All readers go through the lines of an
outline, so what they find after the edit is what they would find with each line changed in place. A
reader that sees no difference in any line it looks at finds the same
(`sectionTitled?_map`, `readField?_map`, `readCriteria_map`, `readContext_map`, `readRows_map`).

Verbatim text is only read between two fences of a section, and there all of it is verbatim
(`Paired`), so the commands that prepare a run do not depend on any other line.
-/

set_option autoImplicit false

namespace Runbook

open Text Markdown

namespace Markdown

/-! ## Outlines -/

/-- A line as it is after an edit of texts. Inside of fences its kind is kept, since nothing is looked
for there; outside it is what the new text is taken for. A fence must stay one for this to be the line
that the scan finds. -/
def redrawn (edit : Nat → List Char → List Char) (l : Line) : Line :=
  if l.isFenced then { l with text := edit l.number l.text }
  else openLine l.number (edit l.number l.text)

theorem redrawn_of_fenced {edit : Nat → List Char → List Char} {l : Line} (fenced : l.isFenced = true) :
    redrawn edit l = { l with text := edit l.number l.text } := if_pos fenced

theorem redrawn_of_free {edit : Nat → List Char → List Char} {l : Line} (free : l.isFenced = false) :
    redrawn edit l = openLine l.number (edit l.number l.text) :=
  if_neg (Bool.eq_false_iff.mp free)

theorem text_redrawn (edit : Nat → List Char → List Char) (l : Line) :
    (redrawn edit l).text = edit l.number l.text := by
  unfold redrawn
  split <;> rfl

/-- The scan of lines that have been edited, wherever it begins. Whether a fence is open at a line
depends on the lines before it, so all fences have to stay where they are and no other one may be made.
-/
theorem scan_edited {edit : Nat → List Char → List Char} (inside : Bool) (number : Nat)
    (texts : List (List Char))
    (fences : ∀ l ∈ scan inside number texts, isFence (edit l.number l.text) = isFence l.text) :
    scan inside number (edited edit texts number) = (scan inside number texts).map (redrawn edit) := by
  induction texts generalizing inside number with
  | nil => rfl
  | cons text texts ih =>
    have hcons : edited edit (text :: texts) number = edit number text :: edited edit texts (number + 1) :=
      rfl
    rw [scan] at fences
    rw [hcons, scan, scan]
    by_cases hfence : isFence text = true
    · rw [if_pos hfence, List.forall_mem_cons] at fences
      rw [if_pos (fences.1.trans hfence), if_pos hfence, ih _ _ fences.2]
      rfl
    · rw [if_neg hfence] at fences
      cases inside with
      | true =>
        rw [if_pos rfl, List.forall_mem_cons] at fences
        rw [if_neg (fences.1 ▸ hfence), if_neg hfence, if_pos rfl, if_pos rfl, ih _ _ fences.2]
        rfl
      | false =>
        rw [if_neg Bool.false_ne_true, List.forall_mem_cons] at fences
        have hfree : redrawn edit ⟨number, text, kindOutside text⟩ =
            openLine number (edit number text) := redrawn_of_free (isFenced_openLine number text)
        rw [if_neg (fences.1 ▸ hfence), if_neg hfence, if_neg Bool.false_ne_true,
          if_neg Bool.false_ne_true, ih _ _ fences.2, List.map_cons, hfree]
        rfl

/-- An edit that leaves fences alone changes the outline line by line. Nothing need be scanned again to
know what a document is after it. -/
theorem outline_edited {edit : Nat → List Char → List Char} (edits : ∀ n, LineEdit (edit n))
    (text : List Char) (fences : ∀ l ∈ (Outline.ofText text).lines,
      isFence (edit l.number l.text) = isFence l.text) :
    (Outline.ofText (edited edit (chunks text) 0).flatten).lines =
      (Outline.ofText text).lines.map (redrawn edit) := by
  have hscan := scan_edited false 0 (lines text) fences
  rw [← lines_edited edits text] at hscan
  exact hscan

/-! ## Lines that keep their place -/

/-- A line keeps its place in the document: its number, whether it is a fence, and whether it stands
among verbatim text. What it says may change, and so may its heading. -/
structure Keeps (f : Line → Line) (l : Line) : Prop where
  number : (f l).number = l.number
  fence : (f l).kind = .fence ↔ l.kind = .fence
  fenced : (f l).isFenced = l.isFenced

theorem kind_ne_fence {l : Line} (free : l.isFenced = false) : l.kind ≠ .fence := by
  intro hfence
  rw [Line.isFenced, hfence] at free
  cases free

/-- A line that is redrawn keeps its place, whatever the edit. -/
theorem keeps_redrawn (edit : Nat → List Char → List Char) (l : Line) : Keeps (redrawn edit) l := by
  cases h : l.isFenced with
  | true =>
    constructor
    · rw [redrawn_of_fenced h]
    · rw [redrawn_of_fenced h]
    · rw [redrawn_of_fenced h]
      rfl
  | false =>
    have hfree := isFenced_openLine l.number (edit l.number l.text)
    constructor
    · rw [redrawn_of_free h]
      rfl
    · rw [redrawn_of_free h]
      exact iff_of_false (kind_ne_fence hfree) (kind_ne_fence h)
    · rw [redrawn_of_free h, hfree, h]

variable {f : Line → Line}

/-- The fence that is left open is found by kinds and numbers, and both stay. -/
theorem openAfter_map {ls : List Line} (keeps : ∀ l ∈ ls, Keeps f l) (opened : Option Nat) :
    Outline.openAfter opened (ls.map f) = Outline.openAfter opened ls := by
  induction ls generalizing opened with
  | nil => rfl
  | cons l ls ih =>
    obtain ⟨hl, hls⟩ := List.forall_mem_cons.mp keeps
    rw [List.map_cons, Outline.openAfter, Outline.openAfter, hl.number]
    by_cases hfence : l.kind = .fence
    · rw [if_pos hfence, if_pos (hl.fence.mpr hfence), ih hls]
    · rw [if_neg hfence, if_neg (mt hl.fence.mp hfence), ih hls]

/-- A test that comes out the same for changed things skips the same ones. -/
theorem dropWhile_map_of_same {α : Type} {p : α → Bool} {g : α → α} {as : List α}
    (same : ∀ a ∈ as, p (g a) = p a) : (as.map g).dropWhile p = (as.dropWhile p).map g := by
  induction as with
  | nil => rfl
  | cons a as ih =>
    obtain ⟨ha, has⟩ := List.forall_mem_cons.mp same
    rw [List.map_cons, List.dropWhile_cons, List.dropWhile_cons, ha, ih has]
    split <;> rfl

theorem takeWhile_map_of_same {α : Type} {p : α → Bool} {g : α → α} {as : List α}
    (same : ∀ a ∈ as, p (g a) = p a) : (as.map g).takeWhile p = (as.takeWhile p).map g := by
  induction as with
  | nil => rfl
  | cons a as ih =>
    obtain ⟨ha, has⟩ := List.forall_mem_cons.mp same
    rw [List.map_cons, List.takeWhile_cons, List.takeWhile_cons, ha, ih has]
    split <;> rfl

theorem endsAt_of_level {l l' : Line} (same : l'.heading?.map (·.level) = l.heading?.map (·.level))
    (ends : SectionEnd) (under : Heading) : ends.endsAt under l' = ends.endsAt under l := by
  unfold SectionEnd.endsAt
  cases hl : l.heading? with
  | none =>
    rw [hl, Option.map_none, Option.map_eq_none_iff] at same
    rw [same]
  | some h =>
    rw [hl, Option.map_some, Option.map_eq_some_iff] at same
    obtain ⟨h', hl', hlevel⟩ := same
    rw [hl']
    cases ends with
    | anyHeading => rfl
    | sameLevel => simp only [hlevel]

/-- A section is found where it was when its heading is the same and no heading changes its level. Other
headings may be renamed, as long as none takes on the title or gives it up. -/
theorem sectionTitled?_map {o : Outline} {title : List Char}
    (levels : ∀ l ∈ o.lines, (f l).heading?.map (·.level) = l.heading?.map (·.level))
    (titled : ∀ l ∈ o.lines, Outline.isTitled title (f l) = Outline.isTitled title l)
    (same : ∀ l ∈ o.lines, Outline.isTitled title l = true → (f l).heading? = l.heading?)
    (ends : SectionEnd) :
    Outline.sectionTitled? ⟨o.lines.map f⟩ title ends =
      (o.sectionTitled? title ends).map fun s => { s with body := s.body.map f } := by
  have hdrop : (o.lines.map f).dropWhile (!Outline.isTitled title ·) =
      (o.lines.dropWhile (!Outline.isTitled title ·)).map f :=
    dropWhile_map_of_same fun l hl => by rw [titled l hl]
  have hsuffix : o.lines.dropWhile (!Outline.isTitled title ·) <:+ o.lines :=
    List.dropWhile_suffix _
  rw [Outline.sectionTitled?, Outline.sectionTitled?, hdrop]
  cases hfound : o.lines.dropWhile (!Outline.isTitled title ·) with
  | nil => rfl
  | cons l below =>
    rw [hfound] at hsuffix
    have hl : l ∈ o.lines := hsuffix.subset List.mem_cons_self
    have hbelow : ∀ l' ∈ below, l' ∈ o.lines := fun l' hl' =>
      hsuffix.subset (List.mem_cons_of_mem _ hl')
    have htitled : Outline.isTitled title l = true := by
      have hhead : (o.lines.dropWhile (!Outline.isTitled title ·)).head? = some l := by
        rw [hfound]
        rfl
      simpa using head?_dropWhile_false hhead
    simp only [List.map_cons, same l hl htitled, Option.map_map]
    refine congrArg (l.heading?.map ·) (funext fun h => ?_)
    rw [Function.comp_apply, takeWhile_map_of_same]
    intro l' hl'
    rw [endsAt_of_level (levels l' (hbelow l' hl'))]

/-- The blocks of lines whose headings are changed by a function of the heading. A line without a
heading must not get one, or a block would be cut in two. -/
theorem blocks_map {retitle : Heading → Heading} {ls : List Line}
    (headings : ∀ l ∈ ls, (f l).heading? = l.heading?.map retitle) :
    blocks (ls.map f) = (blocks ls).map fun b => ⟨retitle b.heading, b.rows.map f⟩ := by
  induction ls with
  | nil => rfl
  | cons l ls ih =>
    obtain ⟨hl, hls⟩ := List.forall_mem_cons.mp headings
    rw [List.map_cons, blocks, blocks, hl]
    cases l.heading? with
    | none => exact ih hls
    | some h =>
      have hrows : (ls.map f).takeWhile (·.heading?.isNone) =
          (ls.takeWhile (·.heading?.isNone)).map f :=
        takeWhile_map_of_same fun l' hl' => by rw [hls l' hl', Option.isNone_map]
      simp only [Option.map_some, List.map_cons, hrows, ih hls]

/-! ## Verbatim text -/

/-- Lines that begin inside a pair of fences or outside, each being what it is for the fences before it.
This is what a scan leaves behind, said without the scan, so that it passes to a part of the lines. -/
inductive Paired : Bool → List Line → Prop
  | nil {inside : Bool} : Paired inside []
  | fence {inside : Bool} {l : Line} {ls : List Line} (kind : l.kind = .fence)
    (rest : Paired (!inside) ls) : Paired inside (l :: ls)
  | verbatim {l : Line} {ls : List Line} (kind : l.kind = .verbatim) (rest : Paired true ls) :
    Paired true (l :: ls)
  | outside {l : Line} {ls : List Line} (free : l.isFenced = false) (rest : Paired false ls) :
    Paired false (l :: ls)

theorem Paired.rest_of_free {inside : Bool} {l : Line} {ls : List Line}
    (paired : Paired inside (l :: ls)) (free : l.isFenced = false) : Paired false ls := by
  cases paired with
  | fence kind => simp [Line.isFenced, kind] at free
  | verbatim kind => simp [Line.isFenced, kind] at free
  | outside _ rest => exact rest

/-- Lines that have been scanned are paired: the scan is what gives each of them its kind. -/
theorem paired_scan (inside : Bool) (number : Nat) (texts : List (List Char)) :
    Paired inside (scan inside number texts) := by
  induction texts generalizing inside number with
  | nil => exact .nil
  | cons text texts ih =>
    rw [scan]
    split
    · exact .fence rfl (ih _ _)
    · cases inside with
      | true => exact .verbatim rfl (ih _ _)
      | false => exact .outside (isFenced_openLine number text) (ih _ _)

theorem Paired.of_append {ls ls' : List Line} {inside : Bool} (paired : Paired inside (ls ++ ls')) :
    Paired inside ls := by
  induction ls generalizing inside with
  | nil => exact .nil
  | cons l ls ih =>
    cases paired with
    | fence kind rest => exact .fence kind (ih rest)
    | verbatim kind rest => exact .verbatim kind (ih rest)
    | outside free rest => exact .outside free (ih rest)

/-- A fence opens or closes, so the other side goes on behind it. -/
theorem Paired.after_fence {inside : Bool} {l : Line} {ls : List Line}
    (paired : Paired inside (l :: ls)) (kind : l.kind = .fence) : Paired (!inside) ls := by
  cases paired with
  | fence _ rest => exact rest
  | verbatim kind' =>
    rw [kind'] at kind
    cases kind
  | outside free =>
    rw [Line.isFenced, kind] at free
    cases free

theorem Paired.after_outside {l : Line} {ls : List Line} (paired : Paired false (l :: ls))
    (noFence : l.kind ≠ .fence) : Paired false ls := by
  cases paired with
  | fence kind => exact absurd kind noFence
  | outside _ rest => exact rest

theorem Paired.after_verbatim {l : Line} {ls : List Line} (paired : Paired true (l :: ls))
    (noFence : l.kind ≠ .fence) : l.kind = .verbatim ∧ Paired true ls := by
  cases paired with
  | fence kind => exact absurd kind noFence
  | verbatim kind rest => exact ⟨kind, rest⟩

theorem not_fenced_of_heading {l : Line} {h : Heading} (heading : l.heading? = some h) :
    l.isFenced = false := by
  unfold Line.heading? at heading
  split at heading
  · rename_i hkind
    rw [Line.isFenced, hkind]
    rfl
  · cases heading

/-- Below a heading, lines begin outside, since a heading is never read from verbatim text. -/
theorem Paired.under {above below : List Line} {l : Line} {h : Heading} {inside : Bool}
    (paired : Paired inside (above ++ l :: below)) (heading : l.heading? = some h) :
    Paired false below := by
  have hfree := not_fenced_of_heading heading
  induction above generalizing inside with
  | nil =>
    cases paired with
    | fence kind =>
      rw [Line.isFenced, kind] at hfree
      cases hfree
    | verbatim kind =>
      rw [Line.isFenced, kind] at hfree
      cases hfree
    | outside _ rest => exact rest
  | cons _ above ih =>
    cases paired with
    | fence _ rest => exact ih rest
    | verbatim _ rest => exact ih rest
    | outside _ rest => exact ih rest

/-- The body of a section begins outside of fences, for it stands below a heading. -/
theorem paired_body {text title : List Char} {ends : SectionEnd} {s : Section}
    (found : (Outline.ofText text).sectionTitled? title ends = some s) : Paired false s.body := by
  obtain ⟨above, l, below, hlines, -, -, hheading, hbody⟩ := sectionTitled?_eq_some found
  have hpaired := paired_scan false 0 (lines text)
  have hscan : scan false 0 (lines text) = above ++ l :: below := hlines
  rw [hscan] at hpaired
  have hbelow := hpaired.under hheading
  rw [← List.takeWhile_append_dropWhile (p := (!ends.endsAt s.heading ·)) (l := below)] at hbelow
  rw [hbody]
  exact hbelow.of_append

/-- Verbatim blocks are made of what stands between fences, and of nothing else. So an edit of the other
lines, however rough, leaves the blocks as they are. -/
theorem codeBlocksFrom_map {ls : List Line} {b : Option CodeBlock} (paired : Paired b.isSome ls)
    (keeps : ∀ l ∈ ls, Keeps f l) (same : ∀ l ∈ ls, l.isFenced = true → (f l).text = l.text) :
    codeBlocksFrom b (ls.map f) = codeBlocksFrom b ls := by
  induction ls generalizing b with
  | nil => rfl
  | cons l ls ih =>
    obtain ⟨hl, hls⟩ := List.forall_mem_cons.mp keeps
    obtain ⟨htext, htexts⟩ := List.forall_mem_cons.mp same
    by_cases hfence : l.kind = .fence
    · have hrest := paired.after_fence hfence
      have htext' := htext (by rw [Line.isFenced, hfence]; rfl)
      cases b with
      | none =>
        simp only [List.map_cons, codeBlocksFrom, if_pos hfence, if_pos (hl.fence.mpr hfence), htext',
          ih (b := some ⟨fenceInfo l.text, []⟩) hrest hls htexts]
      | some b =>
        simp only [List.map_cons, codeBlocksFrom, if_pos hfence, if_pos (hl.fence.mpr hfence),
          ih (b := none) hrest hls htexts]
    · have hfence' := mt hl.fence.mp hfence
      cases b with
      | none =>
        have hrest := Paired.after_outside paired hfence
        simp only [List.map_cons, codeBlocksFrom, if_neg hfence, if_neg hfence',
          ih (b := none) hrest hls htexts]
      | some b =>
        obtain ⟨hkind, hrest⟩ := Paired.after_verbatim paired hfence
        have htext' := htext (by rw [Line.isFenced, hkind]; rfl)
        simp only [List.map_cons, codeBlocksFrom, if_neg hfence, if_neg hfence', htext',
          ih (b := some { b with body := b.body ++ [l.text] }) hrest hls htexts]

end Markdown

namespace Plan

variable {f : Line → Line}

/-! ## Readers -/

/-- A field is read the same when every line outside of fences has the same value for its label, or
still has none. -/
theorem readField?_map {label : String} {ls : List Line} (keeps : ∀ l ∈ ls, Keeps f l)
    (same : ∀ l ∈ ls, l.isFenced = false → fieldValue? label (f l).text = fieldValue? label l.text) :
    readField? label (ls.map f) = readField? label ls := by
  induction ls with
  | nil => rfl
  | cons l ls ih =>
    obtain ⟨hl, hls⟩ := List.forall_mem_cons.mp keeps
    obtain ⟨hvalue, hvalues⟩ := List.forall_mem_cons.mp same
    have hrest := ih hls hvalues
    rw [readField?, readField?] at hrest
    rw [readField?, readField?, List.map_cons, List.findSome?_cons, List.findSome?_cons, hrest,
      hl.fenced, hl.number]
    cases h : l.isFenced with
    | true => rfl
    | false => rw [hvalue h]

/-- A checklist ends at the first line that is neither blank nor an item, so blank lines must stay blank
and items must say the same. -/
theorem readItems_map {ls : List Line} (blank : ∀ l ∈ ls, trim (f l).text = [] ↔ trim l.text = [])
    (items : ∀ l ∈ ls, itemText? (f l).text = itemText? l.text) :
    readItems (ls.map f) = readItems ls := by
  induction ls with
  | nil => rfl
  | cons l ls ih =>
    obtain ⟨hl, hls⟩ := List.forall_mem_cons.mp blank
    obtain ⟨hitem, hitems⟩ := List.forall_mem_cons.mp items
    rw [List.map_cons, readItems, readItems, hitem, ih hls hitems]
    by_cases h : trim l.text = []
    · rw [if_pos h, if_pos (hl.mpr h)]
    · rw [if_neg h, if_neg (mt hl.mp h)]

/-- The label occurs in a line when a value is read from it, so lines of the same value agree about
that. -/
theorem occursIn_of_same {label : String} {l l' : List Char}
    (same : fieldValue? label l' = fieldValue? label l) :
    occursIn (fieldMarker label) l' = occursIn (fieldMarker label) l := by
  have hsome := congrArg Option.isSome same
  rwa [fieldValue?, fieldValue?, Option.isSome_map, Option.isSome_map] at hsome

/-- The commands that prepare a run are not changed by an edit that leaves verbatim text alone. -/
theorem readContext_map {ls : List Line} (paired : Paired false ls) (keeps : ∀ l ∈ ls, Keeps f l)
    (same : ∀ l ∈ ls, l.isFenced = true → (f l).text = l.text) :
    readContext (ls.map f) = readContext ls := by
  rw [readContext, readContext, codeBlocks, codeBlocks,
    codeBlocksFrom_map (b := none) paired keeps same]

/-- The body of a section is part of the lines, so what holds of all lines holds of its own. -/
theorem sectionBody_sublist (o : Outline) (title : String) :
    (sectionBody o title).Sublist o.lines := by
  rw [sectionBody]
  split
  · rename_i s hfound
    exact body_sublist hfound
  · exact List.nil_sublist _

theorem mem_lines_of_mem_sectionBody {o : Outline} {title : String} {l : Line}
    (mem : l ∈ sectionBody o title) : l ∈ o.lines :=
  (sectionBody_sublist o title).subset mem

theorem paired_sectionBody (text : List Char) (title : String) :
    Paired false (sectionBody (Outline.ofText text) title) := by
  rw [sectionBody]
  split
  · rename_i s hfound
    exact paired_body hfound
  · exact .nil

/-- The checklist is read the same where its label, its items and its blank lines are. Fences are not
looked at here, so this is asked of lines inside of them as well. -/
theorem readCriteria_map {ls : List Line}
    (label : ∀ l ∈ ls, fieldValue? "Success Criteria" (f l).text =
      fieldValue? "Success Criteria" l.text)
    (blank : ∀ l ∈ ls, trim (f l).text = [] ↔ trim l.text = [])
    (items : ∀ l ∈ ls, itemText? (f l).text = itemText? l.text) :
    readCriteria (ls.map f) = readCriteria ls := by
  have hdrop : (ls.map f).dropWhile (fun l => !occursIn (fieldMarker "Success Criteria") l.text) =
      (ls.dropWhile fun l => !occursIn (fieldMarker "Success Criteria") l.text).map f :=
    dropWhile_map_of_same fun l hl => by rw [occursIn_of_same (label l hl)]
  have hsuffix := List.dropWhile_suffix (l := ls)
    fun l => !occursIn (fieldMarker "Success Criteria") l.text
  rw [readCriteria, readCriteria, hdrop]
  cases hfound : ls.dropWhile fun l => !occursIn (fieldMarker "Success Criteria") l.text with
  | nil => rfl
  | cons l below =>
    rw [hfound] at hsuffix
    have hbelow : ∀ l' ∈ below, l' ∈ ls := fun l' hl' =>
      hsuffix.subset (List.mem_cons_of_mem _ hl')
    exact readItems_map (fun l' hl' => blank l' (hbelow l' hl')) fun l' hl' => items l' (hbelow l' hl')

/-- A task is read the same from rows that say the same. Only rows outside of fences are looked at. -/
theorem readRows_map {rows : List Line} (keeps : ∀ l ∈ rows, Keeps f l)
    (row : ∀ l ∈ rows, l.isFenced = false → rowOf (trim (f l).text) = rowOf (trim l.text))
    (step : ∀ l ∈ rows, l.isFenced = false → stepText? (trim (f l).text) = stepText? (trim l.text))
    (inSteps : Bool) (t : Task) : readRows inSteps t (rows.map f) = readRows inSteps t rows := by
  induction rows generalizing inSteps t with
  | nil => rfl
  | cons l rows ih =>
    obtain ⟨hl, hls⟩ := List.forall_mem_cons.mp keeps
    obtain ⟨hrow, hrows⟩ := List.forall_mem_cons.mp row
    obtain ⟨hstep, hsteps⟩ := List.forall_mem_cons.mp step
    rw [List.map_cons, readRows, readRows, hl.fenced, hl.number]
    cases h : l.isFenced with
    | true => exact ih hls hrows hsteps inSteps t
    | false => simp only [Bool.false_eq_true, if_false, hrow h, hstep h, ih hls hrows hsteps]

/-- The groups of blocks whose headings are the same and whose rows say the same. Each block changes
only the group that is being read, so the blocks are changed one by one. -/
theorem readGroups_map {g : Block → Block} {bs : List Block}
    (headings : ∀ b ∈ bs, (g b).heading = b.heading)
    (rows : ∀ b ∈ bs, ∀ t, readRows false t (g b).rows = readRows false t b.rows)
    (closed : List TaskGroup) (current : TaskGroup) :
    readGroups closed current (bs.map g) = readGroups closed current bs := by
  induction bs generalizing closed current with
  | nil => rfl
  | cons b bs ih =>
    obtain ⟨hb, hbs⟩ := List.forall_mem_cons.mp headings
    obtain ⟨hrow, hrows⟩ := List.forall_mem_cons.mp rows
    rw [List.map_cons, readGroups, readGroups, hb]
    simp only [hrow, ih hbs hrows]

/-- The groups of lines whose headings are the same and whose rows say the same. -/
theorem readTasks_map {ls : List Line} (keeps : ∀ l ∈ ls, Keeps f l)
    (headings : ∀ l ∈ ls, (f l).heading? = l.heading?)
    (row : ∀ l ∈ ls, l.isFenced = false → rowOf (trim (f l).text) = rowOf (trim l.text))
    (step : ∀ l ∈ ls, l.isFenced = false → stepText? (trim (f l).text) = stepText? (trim l.text)) :
    readTasks (ls.map f) = readTasks ls := by
  have hblocks : blocks (ls.map f) = (blocks ls).map fun b => ⟨id b.heading, b.rows.map f⟩ :=
    blocks_map fun l hl => by rw [headings l hl, Option.map_id_fun, id]
  have hrows : ∀ b ∈ blocks ls, ∀ l ∈ b.rows, l ∈ ls := fun b hb l hl =>
    (flatMap_rows_blocks ls).subset (List.mem_flatMap.mpr ⟨b, hb, hl⟩)
  rw [readTasks, readTasks, hblocks]
  refine readGroups_map (g := fun b => ⟨id b.heading, b.rows.map f⟩) (fun _ _ => rfl)
    (fun b hb t => ?_) _ _
  exact readRows_map (fun l hl => keeps l (hrows b hb l hl)) (fun l hl => row l (hrows b hb l hl))
    (fun l hl => step l (hrows b hb l hl)) false t

/-! ## The frame of a document -/

/-- An edit that leaves the frame of a document as it is: its fences and what stands between them, the
levels of its headings, and the headings of the sections that are read. -/
structure Framed (edit : Nat → List Char → List Char) (text : String) : Prop where
  edits : ∀ n, LineEdit (edit n)
  fences : ∀ l ∈ (Outline.ofText text.toList).lines, isFence (edit l.number l.text) = isFence l.text
  verbatim : ∀ l ∈ (Outline.ofText text.toList).lines, l.isFenced = true →
    edit l.number l.text = l.text
  levels : ∀ l ∈ (Outline.ofText text.toList).lines,
    (redrawn edit l).heading?.map (·.level) = l.heading?.map (·.level)
  titled : ∀ name ∈ sectionNames, ∀ l ∈ (Outline.ofText text.toList).lines,
    Outline.isTitled name.toList (redrawn edit l) = Outline.isTitled name.toList l ∧
      (Outline.isTitled name.toList l = true → (redrawn edit l).heading? = l.heading?)

theorem toList_mapChunks (f : Nat → List Char → List Char) (text : String) :
    (mapChunks f text).toList = (edited f (chunks text.toList) 0).flatten := by
  rw [mapChunks, String.toList_ofList, List.flatMap_def]
  rfl

section Framed

variable {edit : Nat → List Char → List Char} {text : String} (framed : Framed edit text)
include framed

/-- Under a framed edit the outline is the old one with its lines redrawn; the other facts of this
section follow from it. -/
theorem Framed.outline : Outline.ofText (mapChunks edit text).toList =
    ⟨(Outline.ofText text.toList).lines.map (redrawn edit)⟩ := by
  rw [toList_mapChunks]
  exact congrArg Outline.mk (outline_edited framed.edits _ framed.fences)

theorem Framed.openFence? : (Outline.ofText (mapChunks edit text).toList).openFence? =
    (Outline.ofText text.toList).openFence? := by
  rw [framed.outline]
  exact openAfter_map (fun l _ => keeps_redrawn edit l) none

/-- A section that is read is found where it was, with its lines redrawn. -/
theorem Framed.sectionTitled? {name : String} (mem : name ∈ sectionNames) (ends : SectionEnd) :
    (Outline.ofText (mapChunks edit text).toList).sectionTitled? name.toList ends =
      ((Outline.ofText text.toList).sectionTitled? name.toList ends).map
        fun s => { s with body := s.body.map (redrawn edit) } := by
  rw [framed.outline]
  exact sectionTitled?_map framed.levels (fun l hl => (framed.titled name mem l hl).1)
    (fun l hl => (framed.titled name mem l hl).2) ends

theorem Framed.sectionBody {name : String} (mem : name ∈ sectionNames) :
    sectionBody (Outline.ofText (mapChunks edit text).toList) name =
      (Plan.sectionBody (Outline.ofText text.toList) name).map (redrawn edit) := by
  rw [Plan.sectionBody, Plan.sectionBody, framed.sectionTitled? mem]
  cases (Outline.ofText text.toList).sectionTitled? name.toList .anyHeading <;> rfl

/-- The commands that prepare a run stand in verbatim text. -/
theorem Framed.context :
    readContext (Plan.sectionBody (Outline.ofText (mapChunks edit text).toList) "Context Loading") =
      readContext (Plan.sectionBody (Outline.ofText text.toList) "Context Loading") := by
  rw [framed.sectionBody (by simp [sectionNames])]
  refine readContext_map (paired_sectionBody _ _) (fun l _ => keeps_redrawn edit l)
    fun l hl hfenced => ?_
  rw [text_redrawn]
  exact framed.verbatim l (mem_lines_of_mem_sectionBody hl) hfenced

/-- After the edit, a plan is read when its groups are, and then it is the plan of those groups. What is
left for an edit to be shown is what it does to the lines of the tasks section. -/
theorem Framed.parse {s : Section} (closed : (Outline.ofText text.toList).openFence? = none)
    (found : taskSection? (Outline.ofText text.toList) = some s) :
    parse (mapChunks edit text) =
      (readTasks (s.body.map (redrawn edit))).map (ofGroups (mapChunks edit text)) := by
  refine parse_of_tasks (framed.openFence?.trans closed) (s := { s with body := s.body.map _ }) ?_
  rw [taskSection?, framed.sectionTitled? (by simp [sectionNames]), ← taskSection?, found]
  rfl

end Framed

end Plan

end Runbook
