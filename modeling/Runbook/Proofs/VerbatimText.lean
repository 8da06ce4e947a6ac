import Runbook.Proofs.LineEdits

/-!
# What verbatim text says to a reader

Nothing, with two exceptions. The commands that prepare a run stand in verbatim text, so in their
section it is read as what it is. And the checklist of the success criteria is looked for by its label
alone, in whatever line that stands: a label in verbatim text starts a checklist there, although no
reader of a field would find one (`criteria_of_veiled_label`).

Two texts are compared whose fences are the same and which otherwise differ in verbatim text outside of
the section of commands (`Veiled`). The outline of one is that of the other with other texts in its
verbatim lines (`Veiled.outline`), and every reader goes through the lines of an outline. So the two are
refused for the same reason, or they are plans that differ in nothing but their criteria
(`parse_of_veiled`); in these neither where the label of both stands outside of verbatim text, because
the fence that comes before a verbatim line ends the checklist (`readCriteria_of_open`).
-/

set_option autoImplicit false

namespace Runbook

open Text Markdown

namespace Markdown

/-- The body of a section takes the lines from its start up to its stop, so a line of it is told by its
number. -/
theorem number_of_mem_body {text title : List Char} {ends : SectionEnd} {s : Section} {l : Line}
    (found : (Outline.ofText text).sectionTitled? title ends = some s) (mem : l ∈ s.body) :
    s.start ≤ l.number ∧ l.number < s.stop := by
  obtain ⟨above, l₀, below, hlines, -, -, hheading, hbody⟩ := sectionTitled?_eq_some found
  obtain ⟨front, behind, hsplit⟩ := List.append_of_mem mem
  obtain ⟨rest, hbelow⟩ : ∃ rest, below = front ++ l :: (behind ++ rest) := by
    have hcut := List.takeWhile_append_dropWhile (p := (!ends.endsAt s.heading ·)) (l := below)
    rw [← hbody, hsplit, List.append_assoc, List.cons_append] at hcut
    exact ⟨_, hcut.symm⟩
  have hcut : (Outline.ofText text).lines = (above ++ l₀ :: front) ++ l :: (behind ++ rest) := by
    rw [hlines, hbelow, List.append_assoc, List.cons_append]
  have hstart : s.start = above.length + 1 := by
    rw [Section.start, line_of_heading? hheading, number_of_split hlines]
  have hnumber : l.number = (above ++ l₀ :: front).length := number_of_split hcut
  rw [Section.stop, hstart, hnumber, hsplit]
  simp only [List.length_append, List.length_cons]
  omega

end Markdown

namespace Plan

/-! ## Two texts -/

/-- Does a line with a number stand in the section of commands that prepare a run? In this section
verbatim text is read. -/
def Prepares (text : List Char) (n : Nat) : Prop :=
  ∃ s ∈ (Outline.ofText text).sectionTitled? "Context Loading".toList .anyHeading,
    s.start ≤ n ∧ n < s.stop

instance (text : List Char) (n : Nat) : Decidable (Prepares text n) :=
  inferInstanceAs (Decidable (∃ s ∈ (_ : Option Section), _))

/-- Two texts with the same fences on the same lines, and with the same other lines but for verbatim
text outside of the section of commands. Lines are compared by their numbers, so neither text may have
more of them. -/
structure Veiled (text text' : List Char) : Prop where
  fences : (lines text').map isFence = (lines text).map isFence
  inside : ∀ p ∈ (lines text).zipIdx, (lines text')[p.2]? ≠ some p.1 →
    Enclosed (lines text) p.2 p.1 ∧ ¬ Prepares text p.2

/-- A line with the text that stands in its place in another document. Its kind is kept, which is right
for veiled texts only. -/
def inPlace (text' : List Char) (l : Line) : Line :=
  { l with text := ((lines text')[l.number]?).getD l.text }

theorem keeps_inPlace (text' : List Char) (l : Line) : Keeps (inPlace text') l := ⟨rfl, .rfl, rfl⟩

section Veiled

variable {text text' : List Char} (veiled : Veiled text text')
include veiled

theorem Veiled.length : (lines text').length = (lines text).length := by
  simpa using congrArg List.length veiled.fences

theorem Veiled.fence {n : Nat} {l l' : List Char} (line : (lines text)[n]? = some l)
    (line' : (lines text')[n]? = some l') : isFence l' = isFence l := by
  have hmap := congrArg (·[n]?) veiled.fences
  simp only [List.getElem?_map, line, line', Option.map_some, Option.some.injEq] at hmap
  exact hmap

/-- There are as many fences above a line in both texts. -/
theorem Veiled.count (n : Nat) :
    ((lines text').take n).countP isFence = ((lines text).take n).countP isFence := by
  have htake : ((lines text').take n).map isFence = ((lines text).take n).map isFence := by
    rw [List.map_take, List.map_take, veiled.fences]
  have hcount := congrArg (List.countP id) htake
  rwa [List.countP_map, List.countP_map] at hcount

/-- A line that is not verbatim stands in both texts. -/
theorem Veiled.line {n : Nat} {l : List Char} (line : (lines text)[n]? = some l)
    (still : (lineAt (lines text) n l).kind ≠ .verbatim ∨ Prepares text n) :
    (lines text')[n]? = some l := by
  by_contra hother
  have hmem : (l, n) ∈ (lines text).zipIdx := List.mem_zipIdx_iff_getElem?.mpr line
  obtain ⟨hinside, houtside⟩ := veiled.inside (l, n) hmem hother
  rcases still with hkind | hprepares
  · exact hkind (kindAt_verbatim_iff.mpr hinside)
  · exact houtside hprepares

/-- Lines have the same kind in both texts. -/
theorem Veiled.kind {n : Nat} {l l' : List Char} (line : (lines text)[n]? = some l)
    (line' : (lines text')[n]? = some l') :
    kindAt (lines text') n l' = kindAt (lines text) n l := by
  have hfence := veiled.fence line line'
  have hcount := veiled.count n
  rcases fence_or_outside_or_enclosed (lines text) n l with hl | hl | hl
  · rw [kindAt, kindAt, if_pos hl, if_pos (hfence.trans hl)]
  · have hsame : (lines text')[n]? = some l := by
      refine veiled.line line (.inl fun hkind => ?_)
      have hodd := (kindAt_verbatim_iff.mp hkind).2
      rw [hl.2] at hodd
      cases hodd
    rw [hsame, Option.some.injEq] at line'
    have hl' : Outside (lines text') n l := ⟨hl.1, by rw [hcount]; exact hl.2⟩
    rw [← line', kindAt_of_outside hl, kindAt_of_outside hl']
  · rw [kindAt_of_enclosed hl, kindAt_of_enclosed ⟨hfence.trans hl.1, hcount ▸ hl.2⟩]

/-- The outline of the other text is this one with the other texts in place. All that follows compares
readers of these two. -/
theorem Veiled.outline : (Outline.ofText text').lines =
    (Outline.ofText text).lines.map (inPlace text') := by
  refine List.ext_getElem? fun n => ?_
  rw [lines_ofText, lines_ofText, List.map_map, List.getElem?_map, List.getElem?_map,
    List.getElem?_zipIdx, List.getElem?_zipIdx]
  cases hl : (lines text)[n]? with
  | none =>
    have hshort := veiled.length ▸ List.getElem?_eq_none_iff.mp hl
    rw [List.getElem?_eq_none_iff.mpr hshort]
    rfl
  | some l =>
    obtain ⟨hn, -⟩ := List.getElem?_eq_some_iff.mp hl
    obtain ⟨l', hl'⟩ : ∃ l', (lines text')[n]? = some l' :=
      ⟨_, List.getElem?_eq_getElem (veiled.length ▸ hn)⟩
    rw [hl']
    simp only [Option.map_some, Nat.zero_add, Function.comp_apply, Option.some.injEq]
    rw [lineAt, veiled.kind hl hl', inPlace, lineAt, hl']
    rfl

/-- A line that is not verbatim, or prepares a run, has the same text in both. -/
theorem Veiled.text_inPlace {l : Line} (mem : l ∈ (Outline.ofText text).lines)
    (still : l.kind ≠ .verbatim ∨ Prepares text l.number) : (inPlace text' l).text = l.text := by
  rw [lines_ofText] at mem
  obtain ⟨⟨t, n⟩, hmem, rfl⟩ := List.mem_map.mp mem
  have hline : (lines text)[n]? = some t := List.mem_zipIdx_iff_getElem?.mp hmem
  show ((lines text')[n]?).getD t = t
  rw [veiled.line hline still]
  rfl

theorem Veiled.openFence? : (Outline.ofText text').openFence? = (Outline.ofText text).openFence? := by
  rw [Outline.openFence?, veiled.outline]
  exact openAfter_map (fun l _ => keeps_inPlace text' l) none

theorem Veiled.sectionTitled? (title : List Char) (ends : SectionEnd) :
    (Outline.ofText text').sectionTitled? title ends =
      ((Outline.ofText text).sectionTitled? title ends).map
        fun s => { s with body := s.body.map (inPlace text') } := by
  have houtline : Outline.ofText text' = ⟨(Outline.ofText text).lines.map (inPlace text')⟩ :=
    congrArg Outline.mk veiled.outline
  rw [houtline]
  exact sectionTitled?_map (f := inPlace text') (fun _ _ => rfl) (fun _ _ => rfl) (fun _ _ _ => rfl) ends

theorem Veiled.sectionBody (title : String) : sectionBody (Outline.ofText text') title =
    (Plan.sectionBody (Outline.ofText text) title).map (inPlace text') := by
  rw [Plan.sectionBody, Plan.sectionBody, veiled.sectionTitled?]
  cases (Outline.ofText text).sectionTitled? title.toList .anyHeading <;> rfl

/-! ## Readers -/

theorem Veiled.free {l : Line} (mem : l ∈ (Outline.ofText text).lines) (free : l.isFenced = false) :
    (inPlace text' l).text = l.text := by
  refine veiled.text_inPlace mem (.inl fun hkind => ?_)
  rw [Line.isFenced, hkind] at free
  cases free

/-- Readers of fields pass over fenced lines, so they find the same. -/
theorem Veiled.readField? (label : String) {ls : List Line}
    (among : ∀ l ∈ ls, l ∈ (Outline.ofText text).lines) :
    readField? label (ls.map (inPlace text')) = Plan.readField? label ls :=
  readField?_map (fun l _ => keeps_inPlace text' l) fun l hl hfree =>
    congrArg (fieldValue? label) (veiled.free (among l hl) hfree)

theorem Veiled.headerField? (label : String) :
    headerField? (Outline.ofText text') label = Plan.headerField? (Outline.ofText text) label := by
  rw [Plan.headerField?, Plan.headerField?, veiled.sectionBody, veiled.outline,
    veiled.readField? label fun l hl => mem_lines_of_mem_sectionBody hl,
    veiled.readField? label fun l hl => hl]

/-- The commands that prepare a run are the same, because their section is excepted. -/
theorem Veiled.readContext :
    readContext (Plan.sectionBody (Outline.ofText text') "Context Loading") =
      Plan.readContext (Plan.sectionBody (Outline.ofText text) "Context Loading") := by
  rw [veiled.sectionBody]
  refine readContext_map (paired_sectionBody _ _) (fun l _ => keeps_inPlace text' l) fun l hl _ => ?_
  refine veiled.text_inPlace (mem_lines_of_mem_sectionBody hl) (.inr ?_)
  rw [Plan.sectionBody] at hl
  split at hl
  · rename_i s hfound
    exact ⟨s, hfound, number_of_mem_body hfound hl⟩
  · cases hl

/-- Readers of tasks pass over fenced lines, too, rows and steps alike. -/
theorem Veiled.readTasks {ls : List Line} (among : ∀ l ∈ ls, l ∈ (Outline.ofText text).lines) :
    readTasks (ls.map (inPlace text')) = Plan.readTasks ls :=
  readTasks_map (fun l _ => keeps_inPlace text' l) (fun _ _ => rfl)
    (fun l hl hfree => congrArg (rowOf ∘ trim) (veiled.free (among l hl) hfree))
    fun l hl hfree => congrArg (stepText? ∘ trim) (veiled.free (among l hl) hfree)

end Veiled

/-! ## The checklist -/

/-- The label that the checklist is read under stands outside of verbatim text, if there is any. It is a
question about the first line that has it, wherever that stands. -/
def LabelOpen (ls : List Line) : Prop :=
  ∀ l ∈ ls.find? fun l => occursIn (fieldMarker "Success Criteria") l.text, l.isFenced = false

instance (ls : List Line) : Decidable (LabelOpen ls) :=
  inferInstanceAs (Decidable (∀ l ∈ (_ : Option Line), _))

theorem trim_of_fence {l : List Char} (fence : isFence l = true) : trim l ≠ [] := by
  intro hnil
  rw [isFence_of_blank (trim_eq_nil_iff.mp hnil)] at fence
  cases fence

theorem itemText?_of_fence {l : List Char} (fence : isFence l = true) : itemText? l = none := by
  obtain ⟨info, hinfo⟩ := List.isPrefixOf_iff_prefix.mp fence
  rw [itemText?, ← hinfo]
  rfl

variable {f : Line → Line} {ls : List Line}

/-- A checklist that begins outside of verbatim text has none in it: the next fence ends it, as a fence
is neither blank nor an item. -/
theorem readItems_of_paired (paired : Paired false ls)
    (fences : ∀ l ∈ ls, l.kind = .fence → isFence l.text = true)
    (same : ∀ l ∈ ls, l.kind ≠ .verbatim → (f l).text = l.text) :
    readItems (ls.map f) = readItems ls := by
  induction ls with
  | nil => rfl
  | cons l ls ih =>
    obtain ⟨hfence, hfences⟩ := List.forall_mem_cons.mp fences
    obtain ⟨hsame, hsames⟩ := List.forall_mem_cons.mp same
    cases paired with
    | fence kind =>
      have htext := hsame (by simp [kind])
      have hl := hfence kind
      rw [List.map_cons, readItems, readItems, htext, if_neg (trim_of_fence hl), if_neg (trim_of_fence hl),
        itemText?_of_fence hl]
    | outside free rest =>
      have htext := hsame fun hkind => by simp [Line.isFenced, hkind] at free
      rw [List.map_cons, readItems, readItems, htext, ih rest hfences hsames]

/-- The first line that is looked for is not the one in front, if that is fenced and the first is not. -/
theorem not_of_fenced {p : List Char → Bool} {l : Line}
    (opened : ∀ l' ∈ (l :: ls).find? (p ·.text), l'.isFenced = false) (fenced : l.isFenced = true) :
    p l.text = false := by
  rw [← Bool.not_eq_true]
  intro hfound
  rw [opened l (List.find?_cons_of_pos hfound)] at fenced
  cases fenced

/-- The first line that is looked for stands in the same place in both documents when it stands outside
of verbatim text in both. -/
theorem dropWhile_of_open {p : List Char → Bool} {inside : Bool} (paired : Paired inside ls)
    (keeps : ∀ l ∈ ls, Keeps f l) (same : ∀ l ∈ ls, l.kind ≠ .verbatim → (f l).text = l.text)
    (opened : ∀ l ∈ ls.find? (p ·.text), l.isFenced = false)
    (opened' : ∀ l ∈ (ls.map f).find? (p ·.text), l.isFenced = false) :
    (ls.map f).dropWhile (!p ·.text) = (ls.dropWhile (!p ·.text)).map f ∧
      ∀ l below, ls.dropWhile (!p ·.text) = l :: below → Paired false below := by
  induction ls generalizing inside with
  | nil => exact ⟨rfl, fun l below h => by cases h⟩
  | cons l ls ih =>
    obtain ⟨hkeeps, hkept⟩ := List.forall_mem_cons.mp keeps
    obtain ⟨hsame, hsames⟩ := List.forall_mem_cons.mp same
    rw [List.map_cons] at opened' ⊢
    cases hfenced : l.isFenced with
    | true =>
      -- the line may be another one in the other document, but neither is the one looked for
      have hl : p l.text = false := not_of_fenced opened hfenced
      have hl' : p (f l).text = false := not_of_fenced opened' (hkeeps.fenced.trans hfenced)
      rw [List.find?_cons_of_neg (by simp [hl])] at opened
      rw [List.find?_cons_of_neg (by simp [hl'])] at opened'
      rw [List.dropWhile_cons_of_pos (by simp [hl']), List.dropWhile_cons_of_pos (by simp [hl])]
      cases paired with
      | fence kind rest => exact ih rest hkept hsames opened opened'
      | verbatim kind rest => exact ih rest hkept hsames opened opened'
      | outside free =>
        rw [free] at hfenced
        cases hfenced
    | false =>
      have htext := hsame fun hkind => by simp [Line.isFenced, hkind] at hfenced
      have hrest := paired.rest_of_free hfenced
      cases hl : p l.text with
      | true =>
        rw [List.dropWhile_cons_of_neg (by simp [htext, hl]), List.dropWhile_cons_of_neg (by simp [hl])]
        refine ⟨rfl, fun l' below h => ?_⟩
        cases h
        exact hrest
      | false =>
        rw [List.find?_cons_of_neg (by simp [hl])] at opened
        rw [List.find?_cons_of_neg (by simp [htext, hl])] at opened'
        rw [List.dropWhile_cons_of_pos (by simp [htext, hl]), List.dropWhile_cons_of_pos (by simp [hl])]
        exact ih hrest hkept hsames opened opened'

/-- Where both labels stand outside of verbatim text, the same criteria are read. -/
theorem readCriteria_of_open {inside : Bool} (paired : Paired inside ls) (keeps : ∀ l ∈ ls, Keeps f l)
    (fences : ∀ l ∈ ls, l.kind = .fence → isFence l.text = true)
    (same : ∀ l ∈ ls, l.kind ≠ .verbatim → (f l).text = l.text)
    (opened : LabelOpen ls) (opened' : LabelOpen (ls.map f)) :
    readCriteria (ls.map f) = readCriteria ls := by
  obtain ⟨hdrop, hpaired⟩ := dropWhile_of_open paired keeps same opened opened'
  have hsuffix := List.dropWhile_suffix (l := ls)
    fun l => !occursIn (fieldMarker "Success Criteria") l.text
  rw [readCriteria, readCriteria, hdrop]
  cases hfound : ls.dropWhile fun l => !occursIn (fieldMarker "Success Criteria") l.text with
  | nil => rfl
  | cons l below =>
    rw [hfound] at hsuffix
    have hbelow : ∀ l' ∈ below, l' ∈ ls := fun l' hl' => hsuffix.subset (List.mem_cons_of_mem _ hl')
    exact readItems_of_paired (hpaired l below hfound) (fun l' hl' => fences l' (hbelow l' hl'))
      fun l' hl' => same l' (hbelow l' hl')

/-! ## Plans -/

theorem Veiled.criteria {text text' : List Char} (veiled : Veiled text text')
    (opened : LabelOpen (Plan.sectionBody (Outline.ofText text) "Specification"))
    (opened' : LabelOpen (Plan.sectionBody (Outline.ofText text') "Specification")) :
    readCriteria (Plan.sectionBody (Outline.ofText text') "Specification") =
      readCriteria (Plan.sectionBody (Outline.ofText text) "Specification") := by
  have hamong : ∀ l ∈ Plan.sectionBody (Outline.ofText text) "Specification",
      l ∈ (Outline.ofText text).lines := fun l hl => mem_lines_of_mem_sectionBody hl
  rw [veiled.sectionBody] at opened' ⊢
  exact readCriteria_of_open (paired_sectionBody _ _) (fun l _ => keeps_inPlace text' l)
    (fun l hl => (fence_iff_of_mem (hamong l hl)).mp)
    (fun l hl hkind => veiled.text_inPlace (hamong l hl) (.inl hkind)) opened opened'

/-- A specification can differ in its criteria only. -/
theorem Veiled.specification {text text' : List Char} (veiled : Veiled text text') :
    readSpecification (Outline.ofText text') = { readSpecification (Outline.ofText text) with
      criteria := readCriteria (Plan.sectionBody (Outline.ofText text') "Specification") } := by
  have hgoal : Plan.readField? "Goal" (Plan.sectionBody (Outline.ofText text') "Specification") =
      Plan.readField? "Goal" (Plan.sectionBody (Outline.ofText text) "Specification") := by
    rw [veiled.sectionBody, veiled.readField? "Goal" fun l hl => mem_lines_of_mem_sectionBody hl]
  simp only [readSpecification, hgoal, veiled.headerField?]

theorem Veiled.taskSection? {text text' : List Char} (veiled : Veiled text text') :
    taskSection? (Outline.ofText text') = (Plan.taskSection? (Outline.ofText text)).map
      fun s => { s with body := s.body.map (inPlace text') } :=
  veiled.sectionTitled? _ _

/-- Verbatim text outside of the section of commands says nothing, but for a label of the criteria. What
is refused is refused with the same error, down to the line. -/
theorem parse_of_veiled {text text' : String} (veiled : Veiled text.toList text'.toList) :
    (∃ e, parse text = .error e ∧ parse text' = .error e) ∨
    ∃ p criteria, parse text = .ok p ∧
      parse text' = .ok { p with text := text', spec := { p.spec with criteria } } ∧
      (LabelOpen (sectionBody (Outline.ofText text.toList) "Specification") →
        LabelOpen (sectionBody (Outline.ofText text'.toList) "Specification") →
        criteria = p.spec.criteria) := by
  have hopen := veiled.openFence?
  -- the parser asks for fences, the section and the groups, and gets the same answers in both texts
  cases hclosed : (Outline.ofText text.toList).openFence? with
  | some line =>
    rw [hclosed] at hopen
    exact .inl ⟨_, parse_of_open hclosed, parse_of_open hopen⟩
  | none =>
    rw [hclosed] at hopen
    have hsection := veiled.taskSection?
    cases hfound : taskSection? (Outline.ofText text.toList) with
    | none =>
      rw [hfound] at hsection
      exact .inl ⟨_, parse_of_no_tasks hclosed hfound, parse_of_no_tasks hopen hsection⟩
    | some s =>
      rw [hfound] at hsection
      have hparse := parse_of_tasks hclosed hfound
      have hparse' := parse_of_tasks hopen hsection
      rw [veiled.readTasks (body_sublist hfound).subset] at hparse'
      cases hread : readTasks s.body with
      | error e =>
        rw [hread] at hparse hparse'
        exact .inl ⟨e, hparse, hparse'⟩
      | ok groups =>
        rw [hread] at hparse hparse'
        refine .inr ⟨_, readCriteria (sectionBody (Outline.ofText text'.toList) "Specification"), hparse, ?_,
          veiled.criteria⟩
        rw [hparse', Except.map, ofGroups, veiled.specification, veiled.readContext, veiled.headerField?]
        rfl

/-- A plan that shows how something is written: the line stands in verbatim text, where it should say
nothing. -/
def shown (line : String) : String := "## Specification\n```\n" ++ line ++ "\n- [ ] one\n```\n## Tasks\n"

/-- The plan without anything to do that is read from a text. -/
def idle (text : String) : Plan := { text, groups := [TaskGroup.new TaskGroup.general] }

theorem parse_shown : parse (shown "Write:") = .ok (idle (shown "Write:")) :=
  parse_of_toOption (by decide +kernel)

/-- A goal in verbatim text is none. -/
theorem parse_of_veiled_goal :
    Veiled (shown "Write:").toList (shown "**Goal:** two").toList ∧
      parse (shown "**Goal:** two") = .ok (idle (shown "**Goal:** two")) := by
  have hveiled : Veiled (shown "Write:").toList (shown "**Goal:** two").toList :=
    ⟨by decide, by decide⟩
  refine ⟨hveiled, ?_⟩
  rcases parse_of_veiled hveiled with ⟨e, herror, -⟩ | ⟨p, criteria, hparse, hparse', hsame⟩
  · rw [parse_shown] at herror
    cases herror
  · rw [parse_shown] at hparse
    cases hparse
    rw [hparse', hsame (by decide) (by decide)]
    rfl

/-- A label of the criteria is heard in verbatim text, and what stands below it is read as a checklist. -/
theorem criteria_of_veiled_label :
    Veiled (shown "Write:").toList (shown "**Success Criteria:**").toList ∧
      ∃ p p', parse (shown "Write:") = .ok p ∧ p.spec.criteria = [] ∧
        parse (shown "**Success Criteria:**") = .ok p' ∧ p'.spec.criteria = ["one"] := by
  have hparse : parse (shown "**Success Criteria:**") =
      .ok { idle (shown "**Success Criteria:**") with spec := { criteria := ["one"] } } :=
    parse_of_toOption (by decide +kernel)
  exact ⟨⟨by decide, by decide⟩, _, _, parse_shown, rfl, hparse, rfl⟩

end Plan

end Runbook
