import Runbook.Proofs.GroupReading
import Runbook.Proofs.ParsedGroups

/-!
# What has been read can be written

Everything that a reader takes out of a text comes from one line of it, and is trimmed: names, steps,
contexts and commands (`readRows_writable`, `sound_blocks`). So the groups that are read are groups
that can be written (`parse_writable`).
-/

set_option autoImplicit false

namespace Runbook

open Text Markdown

/-! ## What is read has no blanks around it -/

/-- A reader trims what it takes out of a line, and a part of a line has no line feed. So everything
that is read is tidy. -/
theorem Tidy.ofList {cs : List Char} (oneLine : '\n' ∉ cs) (trimmed : trim cs = cs) :
    Tidy (String.ofList cs) := by
  constructor <;> rw [String.toList_ofList] <;> assumption

theorem ofList_ne_empty {cs : List Char} (some : cs ≠ []) : String.ofList cs ≠ "" := by
  intro h
  rw [← String.toList_inj, String.toList_ofList] at h
  exact some h

namespace Text

theorem mem_of_mem_piece {sep c : Char} {cs p : List Char} (hp : p ∈ pieces sep cs) (hc : c ∈ p) :
    c ∈ cs := by
  induction cs generalizing p with
  | nil =>
    rw [pieces, List.mem_singleton] at hp
    rw [hp] at hc
    cases hc
  | cons d cs ih =>
    rw [pieces] at hp
    split at hp
    · rcases List.mem_cons.mp hp with rfl | hp
      · cases hc
      · exact List.mem_cons_of_mem _ (ih hp hc)
    · split at hp
      · rw [List.mem_singleton.mp hp] at hc
        exact List.mem_singleton.mp hc ▸ List.mem_cons_self
      · rename_i q qs hqs
        rcases List.mem_cons.mp hp with rfl | hp
        · rcases List.mem_cons.mp hc with rfl | hc
          · exact List.mem_cons_self
          · exact List.mem_cons_of_mem _ (ih (by rw [hqs]; exact List.mem_cons_self) hc)
        · exact List.mem_cons_of_mem _ (ih (by rw [hqs]; exact List.mem_cons_of_mem _ hp) hc)

/-- A text that ends as a trimmed one does is more than blanks. This is how a step is known to be not
empty: it stands at the end of a trimmed row. -/
theorem trim_ne_nil_of_append {front behind : List Char} (h : trim (front ++ behind) = front ++ behind)
    (some : behind ≠ []) : trim behind ≠ [] := by
  intro hnil
  have hlast := List.getLast?_eq_some_getLast some
  have hkept := (trim_eq_self_iff.mp h).2 (behind.getLast some)
    ((List.getLast?_append_of_ne_nil front some).trans hlast)
  rw [trim_eq_nil_iff.mp hnil _ (List.getLast_mem some)] at hkept
  cases hkept

theorem head?_intercalate {sep p : List Char} (some : p ≠ []) (ps : List (List Char)) :
    (sep.intercalate (p :: ps)).head? = p.head? := by
  cases p with
  | nil => exact absurd rfl some
  | cons c p => cases ps <;> simp [List.intercalate]

theorem getLast?_intercalate {sep : List Char} {ps : List (List Char)} (some : ∀ p ∈ ps, p ≠ []) :
    ∀ c, (sep.intercalate ps).getLast? = .some c → ∃ p ∈ ps, p.getLast? = .some c := by
  induction ps with
  | nil => simp
  | cons p ps ih =>
    obtain ⟨hp, hps⟩ := List.forall_mem_cons.mp some
    intro c hc
    cases ps with
    | nil => exact ⟨p, List.mem_cons_self, by simpa using hc⟩
    | cons q qs =>
      have hq : q ≠ [] := hps q List.mem_cons_self
      have hne : sep.intercalate (q :: qs) ≠ [] := by
        cases q with
        | nil => exact absurd rfl hq
        | cons d q => cases qs <;> simp [List.intercalate]
      rw [List.intercalate_cons_cons, List.getLast?_append_of_ne_nil _ hne] at hc
      obtain ⟨p', hp', hlast⟩ := ih hps c hc
      exact ⟨p', List.mem_cons_of_mem _ hp', hlast⟩

/-- Joining trimmed texts that are not empty leaves no blanks at the ends, whatever stands between them.
The spans of a context are joined like this. -/
theorem trim_intercalate {sep : List Char} {ps : List (List Char)} (some : ∀ p ∈ ps, p ≠ [])
    (tidy : ∀ p ∈ ps, trim p = p) : trim (sep.intercalate ps) = sep.intercalate ps := by
  cases ps with
  | nil => simp
  | cons p ps =>
    rw [trim_eq_self_iff]
    refine ⟨fun c hc => ?_, fun c hc => ?_⟩
    · rw [head?_intercalate (some p List.mem_cons_self)] at hc
      exact (trim_eq_self_iff.mp (tidy p List.mem_cons_self)).1 c hc
    · obtain ⟨p', hp', hlast⟩ := getLast?_intercalate some c hc
      exact (trim_eq_self_iff.mp (tidy p' hp')).2 c hlast

end Text

namespace Plan

theorem mem_of_mem_span {c : Char} {span line : List Char} (hspan : span ∈ codeSpans line)
    (hc : c ∈ span) : c ∈ line :=
  mem_of_mem_piece (mem_of_mem_quotedPieces hspan) hc

theorem mem_of_mem_unquoted {c : Char} {cs : List Char} (h : c ∈ unquoted cs) : c ∈ cs := by
  rw [unquoted, List.mem_reverse] at h
  have hback := List.mem_reverse.mp ((List.dropWhile_suffix _).subset h)
  exact (List.dropWhile_suffix _).subset hback

/-- The context of a row is tidy, whether it is made of spans or of the whole text behind the label. -/
theorem tidy_contextValue {rest : List Char} (oneLine : '\n' ∉ rest) :
    Tidy (String.ofList (contextValue rest)) := by
  rw [contextValue]
  split
  · exact .ofList (fun h => oneLine (mem_of_mem_trim (mem_of_mem_unquoted (mem_of_mem_trim h))))
      (trim_trim _)
  · have hspans : ∀ p ∈ ((codeSpans rest).map trim).filter (· ≠ []),
        p ≠ [] ∧ ∃ span ∈ codeSpans rest, trim span = p := by
      intro p hp
      obtain ⟨hp, hsome⟩ := List.mem_filter.mp hp
      exact ⟨by simpa using hsome, List.mem_map.mp hp⟩
    refine .ofList (not_mem_intercalate (by decide) fun p hp hfeed => ?_)
      (trim_intercalate (fun p hp => (hspans p hp).1) fun p hp => ?_)
    · obtain ⟨-, span, hspan, rfl⟩ := hspans p hp
      exact oneLine (mem_of_mem_span hspan (mem_of_mem_trim hfeed))
    · obtain ⟨-, span, -, rfl⟩ := hspans p hp
      exact trim_trim span

/-- The command of a row is tidy, a span as much as the whole text behind the label. -/
theorem tidy_commandValue {rest : List Char} (oneLine : '\n' ∉ rest) :
    Tidy (String.ofList (commandValue rest)) := by
  rw [commandValue]
  split
  · exact .ofList (fun h => oneLine (mem_of_mem_trim h)) (trim_trim _)
  · rename_i span spans hspans
    have hspan : span ∈ codeSpans rest := by rw [hspans]; exact List.mem_cons_self
    exact .ofList (fun h => oneLine (mem_of_mem_span hspan (mem_of_mem_trim h))) (trim_trim _)

/-- A step is tidy and says something: it stands at the end of a trimmed row, behind a box that needs
something behind it. -/
theorem tidy_stepText? {row step : List Char} (oneLine : '\n' ∉ row) (trimmed : trim row = row)
    (h : stepText? row = some step) : Tidy (String.ofList step) ∧ String.ofList step ≠ "" := by
  obtain ⟨label, indent, digits, gap, ticked, inside, behind, hlabel, hinside, rfl⟩ :=
    exists_of_stepText? h
  rw [stepText?_boxed hlabel hinside, labelOf?] at h
  split at h
  · cases h
  · rename_i hsome
    cases h
    have hfront : label ++ '[' :: (inside ++ ']' :: behind) =
        (label ++ '[' :: inside ++ [']']) ++ behind := by simp
    rw [hfront] at oneLine trimmed
    exact ⟨.ofList (fun hmem => oneLine (List.mem_append_right _ (mem_of_mem_trim hmem)))
      (trim_trim _), ofList_ne_empty (trim_ne_nil_of_append trimmed hsome)⟩

end Plan

/-! ## Lines and blocks -/

/-- The line has no line feed, and if it is a heading its title has no blanks around it. Every line of
an outline is so, and it is all that is needed to know of lines to write again what was read from them.
-/
structure Markdown.Line.Sound (l : Line) : Prop where
  oneLine : '\n' ∉ l.text
  heading : ∀ h, l.heading? = some h →
    Tidy (String.ofList h.title) ∧ String.ofList h.title ≠ ""

/-- A heading with a tidy title over rows without line feeds. -/
structure Markdown.Block.Sound (b : Block) : Prop where
  title : Tidy (String.ofList b.heading.title) ∧ String.ofList b.heading.title ≠ ""
  rows : ∀ l ∈ b.rows, '\n' ∉ l.text

namespace Plan

theorem sound_lineAt {ls : List (List Char)} {n : Nat} {l : List Char} (oneLine : '\n' ∉ l) :
    (lineAt ls n l).Sound where
  oneLine := oneLine
  heading h hh := by
    rw [heading?_lineAt] at hh
    split at hh
    · rw [Option.map_eq_some_iff] at hh
      obtain ⟨⟨level, title⟩, hparse, rfl⟩ := hh
      rw [parseHeading?] at hparse
      split at hparse
      · rename_i hsound
        cases hparse
        refine ⟨.ofList (fun hmem => oneLine ?_) (trim_trim _), ofList_ne_empty hsound.2.2.2⟩
        exact (List.dropWhile_suffix _).subset (mem_of_mem_trim hmem)
      · cases hparse
    · cases hh

/-- Lines are cut at line feeds, so none of them holds one; and a heading is read with a trimmed title.
-/
theorem sound_ofText (text : List Char) : ∀ l ∈ (Outline.ofText text).lines, l.Sound := by
  intro l hl
  rw [lines_ofText, List.mem_map] at hl
  obtain ⟨⟨l', n⟩, hl', rfl⟩ := hl
  exact sound_lineAt (no_feed_of_mem_lines (List.fst_mem_of_mem_zipIdx hl'))

theorem sound_blocks {ls : List Line} (h : ∀ l ∈ ls, l.Sound) : ∀ b ∈ blocks ls, b.Sound := by
  induction ls with
  | nil => nofun
  | cons l ls ih =>
    obtain ⟨hl, hls⟩ := List.forall_mem_cons.mp h
    rw [blocks]
    split
    · rename_i heading hheading
      intro b hb
      rcases List.mem_cons.mp hb with rfl | hb
      · exact ⟨hl.heading heading hheading,
          fun l' hl' => (hls l' ((List.takeWhile_sublist _).subset hl')).oneLine⟩
      · exact ih hls b hb
    · exact ih hls

/-! ## Tasks -/

/-- The rows of a task leave it writable. One case for each thing that a row can tell; only the ones
that store a text have something to show. -/
theorem readRows_writable {inSteps : Bool} {t : Task} {rows : List Line} :
    t.Writable → (∀ l ∈ rows, '\n' ∉ l.text) → (readRows inSteps t rows).Writable := by
  have hrest : ∀ {l : Line} {label : String} {rest : List Char}, '\n' ∉ l.text →
      trim l.text = fieldMarker label ++ rest → '\n' ∉ rest := by
    intro l label rest oneLine hrow hmem
    exact oneLine (mem_of_mem_trim (hrow ▸ List.mem_append_right _ hmem))
  fun_induction readRows inSteps t rows with
  | case1 => exact fun h _ => h
  | case2 inSteps t l ls fenced ih | case4 inSteps t l ls fenced row hrow ih
  | case7 inSteps t l ls fenced row hrow hstep ih =>
    intro h oneLine
    exact ih h fun l' hl' => oneLine l' (List.mem_cons_of_mem _ hl')
  | case3 inSteps t l ls fenced row rest hrow ih =>
    intro h oneLine
    obtain ⟨hl, hls⟩ := List.forall_mem_cons.mp oneLine
    exact ih { h with context := tidy_contextValue (hrest hl (rowOf_eq_context hrow)) } hls
  | case5 inSteps t l ls fenced row rest hrow =>
    intro h oneLine
    obtain ⟨hl, hls⟩ := List.forall_mem_cons.mp oneLine
    exact { h with verify := tidy_commandValue (hrest hl (rowOf_eq_verify hrow)) }
  | case6 inSteps t l ls fenced row hrow step hstep ih =>
    intro h oneLine
    obtain ⟨hl, hls⟩ := List.forall_mem_cons.mp oneLine
    refine ih { h with steps := fun s hs => ?_ } hls
    rcases List.mem_append.mp hs with hs | hs
    · exact h.steps s hs
    · rw [List.mem_singleton.mp hs]
      split at hstep
      · exact tidy_stepText? (fun hmem => hl (mem_of_mem_trim hmem)) (trim_trim _) hstep
      · cases hstep

/-! ## Groups -/

theorem tidy_empty : Tidy "" := ⟨by decide, by decide⟩

/-- Groups that can be written: the first one is general, and the others have names that headings can
give. The first needs no such name, since it is written without a heading when it stands first. -/
@[mk_iff]
structure Writable (groups : List TaskGroup) : Prop where
  first : groups.head?.map (·.name) = some TaskGroup.general
  names : (groups.map (·.name)).Nodup
  others : ∀ g ∈ groups.tail, GroupName g.name
  groups : ∀ g ∈ groups, g.Writable

instance (groups : List TaskGroup) : Decidable (Writable groups) :=
  decidable_of_iff' _ (writable_iff groups)

/-- Another group may come behind, as long as its name is new and can be given by a heading. -/
theorem Writable.snoc {groups : List TaskGroup} {name : String} (h : Writable groups)
    (new : name ∉ groups.map (·.name)) (hname : GroupName name) :
    Writable (groups ++ [TaskGroup.new name]) := by
  obtain ⟨g, gs, rfl⟩ : ∃ g gs, groups = g :: gs := by
    cases groups with
    | nil => cases h.first
    | cons g gs => exact ⟨g, gs, rfl⟩
  refine ⟨h.first, ?_, ?_, ?_⟩
  · rw [List.map_append, List.nodup_append]
    refine ⟨h.names, by simp, fun name' hname' name'' hname'' heq => new ?_⟩
    rw [List.map_singleton, List.mem_singleton] at hname''
    have hsame : name' = name := heq.trans hname''
    exact hsame ▸ hname'
  · simpa [or_imp, forall_and, TaskGroup.new] using ⟨h.others, hname⟩
  · intro g' hg'
    rcases List.mem_append.mp hg' with hg' | hg'
    · exact h.groups g' hg'
    · rw [List.mem_singleton.mp hg']
      exact ⟨by simp [TaskGroup.new], by simp [TaskGroup.new]⟩

/-- A task may come to the group that is open, as long as its number is new there. Its number may well
be used in another group. -/
theorem Writable.addTask {closed : List TaskGroup} {current : TaskGroup} {t : Task}
    (h : Writable (closed ++ [current])) (new : t.id ∉ current.tasks.map (·.id))
    (ht : t.Writable) : Writable (closed ++ [current.addTask t]) := by
  have hnames := names_addTask closed current t
  have hcurrent := h.groups current (by simp)
  refine ⟨?_, ?_, ?_, ?_⟩
  · rw [← List.head?_map, hnames, List.head?_map]
    exact h.first
  · rw [hnames]
    exact h.names
  · have hothers := h.others
    cases closed with
    | nil => simp
    | cons g gs =>
      simp only [List.cons_append, List.tail_cons, List.forall_mem_append, List.forall_mem_singleton]
        at hothers ⊢
      exact hothers
  · intro g hg
    rcases List.mem_append.mp hg with hg | hg
    · exact h.groups g (List.mem_append_left _ hg)
    · rw [List.mem_singleton.mp hg]
      refine ⟨fun t' ht' => ?_, ?_⟩
      · rcases List.mem_append.mp ht' with ht' | ht'
        · exact hcurrent.tasks t' ht'
        · exact List.mem_singleton.mp ht' ▸ ht
      · rw [TaskGroup.addTask, List.map_append, List.nodup_append]
        refine ⟨hcurrent.ids, by simp, fun id hid id' hid' heq => new ?_⟩
        rw [List.map_singleton, List.mem_singleton] at hid'
        exact (heq.trans hid') ▸ hid

theorem not_mem_of_isSome_task? {g : TaskGroup} {id : String} (h : ¬ (g.task? id).isSome = true) :
    id ∉ g.tasks.map (·.id) := by
  intro hmem
  obtain ⟨t, ht, rfl⟩ := List.mem_map.mp hmem
  rw [TaskGroup.task?, List.find?_isSome] at h
  exact h ⟨t, ht, by simp⟩

/-- The name of a task is a trimmed part of its heading, and its number is below the bound because a
larger one would have been refused. -/
theorem writable_of_taskOf? {b : Block} {t : Task} (told : taskOf? b = some t) (sound : b.Sound) :
    t.Writable := by
  obtain ⟨digits, name, number, htitle, hstored, rfl⟩ := title_of_taskOf? told
  obtain ⟨behind, hform, rfl⟩ := taskTitle?_eq_some_iff.mp htitle
  obtain ⟨gap, -, -, hsplit⟩ := hform.eq
  have htidy : trim b.heading.title = b.heading.title := by
    simpa using sound.title.1.trimmed
  have hfeed : '\n' ∉ b.heading.title := by simpa using sound.title.1.oneLine
  rw [hsplit, List.append_cons] at htidy hfeed
  exact readRows_writable
    { id := rfl
      bound := lt_of_natBelow? hstored
      name := .ofList (fun hmem => hfeed (List.mem_append_right _ (mem_of_mem_trim hmem)))
        (trim_trim _)
      named := ofList_ne_empty (trim_ne_nil_of_append htidy hform.more)
      steps := by simp [Task.new]
      context := tidy_empty
      verify := tidy_empty } sound.rows

/-- Block by block the groups stay writable. What the reader checks before it adds a task or opens a
group is just what the writer needs. -/
theorem Reads.writable {closed groups : List TaskGroup} {current : TaskGroup} {bs : List Block}
    (reads : Reads closed current bs groups) (h : Writable (closed ++ [current]))
    (sound : ∀ b ∈ bs, b.Sound) : Writable groups := by
  induction reads with
  | done => exact h
  | task told new _ ih =>
    obtain ⟨hb, hbs⟩ := List.forall_mem_cons.mp sound
    exact ih (h.addTask (not_mem_of_isSome_task? new) (writable_of_taskOf? told hb)) hbs
  | silent _ _ _ ih => exact ih h (List.forall_mem_cons.mp sound).2
  | group other _ new _ ih =>
    obtain ⟨hb, hbs⟩ := List.forall_mem_cons.mp sound
    refine ih (h.snoc new ⟨hb.title.1, hb.title.2, ?_⟩) hbs
    rw [String.toList_ofList]
    exact other

/-- What a reader makes of a text can be written. So writing a plan and reading it again never fails,
whatever text the plan was first read from. -/
theorem parse_writable {text : String} {p : Plan} (h : parse text = .ok p) :
    Writable p.groups := by
  obtain ⟨s, groups, -, hfound, hread, rfl⟩ := parse_eq_ok_iff.mp h
  refine (readGroups_eq_ok_iff.mp hread).writable ⟨rfl, by simp, by simp, ?_⟩
    (sound_blocks fun l hl => ?_)
  · intro g hg
    rw [List.mem_singleton.mp hg]
    exact ⟨by simp [TaskGroup.new], by simp [TaskGroup.new]⟩
  · exact sound_ofText _ l ((body_sublist hfound).subset hl)

end Plan

end Runbook
