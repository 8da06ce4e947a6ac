import Mathlib.Data.List.TakeWhile
import Runbook.Markdown.Outline
import Runbook.Proofs.Boxes

/-!
# What the scan of a document finds

The scan goes through the lines once and keeps in mind whether a fence is open. What it finds can be
said of each line by itself (`lines_ofText`): a line is a fence or not, and any other line is outside
of all fences when an even number of them stands before it. So the headings are those of the lines
outside (`headings_ofText`), and a fence is left open when there is an odd number of them
(`openFence?_ofText`).

A section is cut out of the lines; its headings are cut out of the headings in the same way
(`sectionTitled?_eq_some`).
-/

set_option autoImplicit false

namespace Runbook.Markdown

open Text

/-! ## Kinds -/

/-- Is a line with a number among lines outside of all pairs of fences, and no fence itself? Fences come
in pairs from the top, so an even number of them before a line has left none open. -/
def Outside (ls : List (List Char)) (n : Nat) (l : List Char) : Prop :=
  isFence l = false ∧ (ls.take n).countP isFence % 2 = 0

instance (ls : List (List Char)) (n : Nat) (l : List Char) : Decidable (Outside ls n l) :=
  inferInstanceAs (Decidable (_ ∧ _))

/-- The kind of a line with a number among lines. It agrees with the one that the scan gives
(`lines_ofText`), and can be told without going through the lines in between. -/
def kindAt (ls : List (List Char)) (n : Nat) (l : List Char) : LineKind :=
  if isFence l then .fence else if Outside ls n l then kindOutside l else .verbatim

def lineAt (ls : List (List Char)) (n : Nat) (l : List Char) : Line := ⟨n, l, kindAt ls n l⟩

/-- Is a line with a number among lines strictly inside of a pair of fences? A fence that is never
closed counts as reaching to the end. -/
def Enclosed (ls : List (List Char)) (n : Nat) (l : List Char) : Prop :=
  isFence l = false ∧ (ls.take n).countP isFence % 2 = 1

instance (ls : List (List Char)) (n : Nat) (l : List Char) : Decidable (Enclosed ls n l) :=
  inferInstanceAs (Decidable (_ ∧ _))

theorem kindOutside_ne_fence (text : List Char) : kindOutside text ≠ .fence := by
  unfold kindOutside
  split <;> simp

theorem kindOutside_ne_verbatim (text : List Char) : kindOutside text ≠ .verbatim := by
  unfold kindOutside
  split <;> simp

theorem fence_or_outside_or_enclosed (ls : List (List Char)) (n : Nat) (l : List Char) :
    isFence l = true ∨ Outside ls n l ∨ Enclosed ls n l := by
  cases hfence : isFence l with
  | true => exact .inl rfl
  | false =>
    rcases Nat.mod_two_eq_zero_or_one ((ls.take n).countP isFence) with heven | hodd
    · exact .inr (.inl ⟨hfence, heven⟩)
    · exact .inr (.inr ⟨hfence, hodd⟩)

theorem kindAt_of_outside {ls : List (List Char)} {n : Nat} {l : List Char} (outside : Outside ls n l) :
    kindAt ls n l = kindOutside l := by
  rw [kindAt, if_neg (by simp [outside.1]), if_pos outside]

theorem kindAt_of_enclosed {ls : List (List Char)} {n : Nat} {l : List Char}
    (enclosed : Enclosed ls n l) : kindAt ls n l = .verbatim := by
  have hinside : ¬ Outside ls n l := fun outside => by
    have heven := outside.2
    rw [enclosed.2] at heven
    cases heven
  rw [kindAt, if_neg (by simp [enclosed.1]), if_neg hinside]

theorem kindAt_verbatim_iff {ls : List (List Char)} {n : Nat} {l : List Char} :
    kindAt ls n l = .verbatim ↔ Enclosed ls n l := by
  refine ⟨fun hkind => ?_, kindAt_of_enclosed⟩
  rcases fence_or_outside_or_enclosed ls n l with hfence | houtside | henclosed
  · rw [kindAt, if_pos hfence] at hkind
    cases hkind
  · rw [kindAt_of_outside houtside] at hkind
    exact absurd hkind (kindOutside_ne_verbatim l)
  · exact henclosed

/-- The scan below some lines, in terms of the number of fences among these. Only whether that is odd
enters, which is all that the scan keeps in mind. -/
theorem scan_eq (before ls : List (List Char)) :
    scan (before.countP isFence % 2 == 1) before.length ls =
      (ls.zipIdx before.length).map fun (l, n) => lineAt (before ++ ls) n l := by
  induction ls generalizing before with
  | nil => rfl
  | cons l ls ih =>
    have hnext := ih (before ++ [l])
    simp only [List.length_append, List.length_singleton, List.append_assoc,
      List.singleton_append, List.countP_append, List.countP_singleton] at hnext
    have htake : (before ++ l :: ls).take before.length = before := List.take_left
    rw [List.zipIdx_cons, List.map_cons, scan]
    have hparity := Nat.mod_two_eq_zero_or_one (before.countP isFence)
    by_cases hfence : isFence l = true
    · -- a fence turns the parity over, and any other line keeps it
      have hflip : (!(before.countP isFence % 2 == 1)) = ((before.countP isFence + 1) % 2 == 1) := by
        rcases hparity with h | h <;> simp [h, Nat.add_mod]
      rw [if_pos hfence, hflip, ← hnext, if_pos hfence]
      simp [lineAt, kindAt, hfence]
    · rw [if_neg hfence, Nat.add_zero] at hnext
      rw [if_neg hfence, hnext]
      rcases hparity with h | h <;>
        simp [lineAt, kindAt, Outside, hfence, htake, h]

/-- What a line is can be said of it by itself and the number of fences before it. -/
theorem lines_ofText (text : List Char) :
    (Outline.ofText text).lines =
      (lines text).zipIdx.map fun (l, n) => lineAt (lines text) n l :=
  scan_eq [] (lines text)

/-- A line has a heading when it stands outside and can be read as one. -/
theorem heading?_lineAt (ls : List (List Char)) (n : Nat) (l : List Char) :
    (lineAt ls n l).heading? =
      if Outside ls n l then (parseHeading? l).map fun (level, title) => ⟨level, title, n⟩
      else none := by
  unfold lineAt kindAt
  by_cases hfence : isFence l = true
  · have hout : ¬ Outside ls n l := fun h => by simp [h.1] at hfence
    rw [if_pos hfence, if_neg hout]
    rfl
  · rw [if_neg hfence]
    split
    · unfold kindOutside
      cases parseHeading? l with
      | none => rfl
      | some found => rfl
    · rfl

theorem isFenced_lineAt {ls : List (List Char)} {n : Nat} {l : List Char} :
    (lineAt ls n l).isFenced = true ↔ isFence l = true ∨ (ls.take n).countP isFence % 2 = 1 := by
  rcases fence_or_outside_or_enclosed ls n l with hfence | houtside | henclosed
  · simp [lineAt, kindAt, Line.isFenced, hfence]
  · have hkind : (lineAt ls n l).isFenced = false := by
      rw [Line.isFenced, lineAt, kindAt_of_outside houtside, kindOutside]
      split <;> rfl
    simp [hkind, houtside.1, houtside.2]
  · simp [lineAt, kindAt_of_enclosed henclosed, Line.isFenced, henclosed.2]

theorem line_of_heading? {l : Line} {h : Heading} (heading : l.heading? = some h) :
    h.line = l.number := by
  unfold Line.heading? at heading
  split at heading
  · cases heading
    rfl
  · cases heading

/-- The lines are numbered from zero on. -/
theorem map_number_ofText (text : List Char) :
    (Outline.ofText text).lines.map (·.number) = List.range' 0 (lines text).length := by
  rw [lines_ofText, List.map_map, ← List.zipIdx_map_snd]
  rfl

/-- Numbers tell the lines of a document apart and put them in order. -/
theorem numbers_ofText (text : List Char) :
    ((Outline.ofText text).lines.map (·.number)).Pairwise (· < ·) := by
  rw [map_number_ofText]
  exact List.pairwise_lt_range'

theorem number_of_split {text : List Char} {above below : List Line} {l : Line}
    (lines : (Outline.ofText text).lines = above ++ l :: below) : l.number = above.length := by
  have hnumber := congrArg (·[above.length]?) (map_number_ofText text)
  rw [lines] at hnumber
  simp only [List.map_append, List.map_cons, List.getElem?_append_right, List.length_map, Nat.le_refl,
    Nat.sub_self, List.getElem?_cons_zero] at hnumber
  obtain ⟨_, hnumber⟩ := List.getElem?_eq_some_iff.mp hnumber.symm
  rw [List.getElem_range'] at hnumber
  omega

/-- What stands below a line is found by the number of the line. A section keeps only that number of its
heading, and this gets from it to the body. -/
theorem drop_of_split {text : List Char} {above below : List Line} {l : Line}
    (lines : (Outline.ofText text).lines = above ++ l :: below) :
    (Outline.ofText text).lines.drop (l.number + 1) = below := by
  rw [number_of_split lines, lines, ← List.drop_drop, List.drop_left]
  rfl

/-! ## Headings and fences of lines -/

/-- The headings of lines: of those outside of all fences, those that can be read as one. -/
def headingsOf (ls : List (List Char)) : List Heading :=
  ls.zipIdx.filterMap fun (l, n) =>
    if Outside ls n l then (parseHeading? l).map fun (level, title) => ⟨level, title, n⟩ else none

/-- The numbers of the lines that are fences. No fence is hidden by another one: a fence inside of a
pair closes it. -/
def fencesOf (ls : List (List Char)) : List Nat := (ls.zipIdx.filter fun l => isFence l.1).map (·.2)

/-- The headings of a document are those of its lines, told from the text alone. -/
theorem headings_ofText (text : List Char) :
    (Outline.ofText text).headings = headingsOf (lines text) := by
  rw [Outline.headings, lines_ofText, List.filterMap_map, headingsOf]
  refine congrArg (List.filterMap · _) (funext fun (l, n) => ?_)
  exact heading?_lineAt _ n l

theorem kind_fence_iff {ls : List (List Char)} {n : Nat} {l : List Char} :
    (lineAt ls n l).kind = .fence ↔ isFence l = true := by
  rcases fence_or_outside_or_enclosed ls n l with hfence | houtside | henclosed
  · simp [lineAt, kindAt, hfence]
  · simp [lineAt, kindAt_of_outside houtside, kindOutside_ne_fence, houtside.1]
  · simp [lineAt, kindAt_of_enclosed henclosed, henclosed.1]

/-- Fences are told by their own text, wherever they stand. This holds of no other kind. -/
theorem fence_iff_of_mem {text : List Char} {l : Line} (mem : l ∈ (Outline.ofText text).lines) :
    l.kind = .fence ↔ isFence l.text = true := by
  rw [lines_ofText] at mem
  obtain ⟨row, -, rfl⟩ := List.mem_map.mp mem
  exact kind_fence_iff

/-- The last of an odd number of things: what is left over when they are taken away in pairs from the
front. -/
def lastIfOdd (ns : List Nat) : Option Nat := if ns.length % 2 = 1 then ns.getLast? else none

theorem lastIfOdd_cons_cons (m n : Nat) (ns : List Nat) :
    lastIfOdd (m :: n :: ns) = lastIfOdd ns := by
  cases ns with
  | nil => simp [lastIfOdd]
  | cons k ns =>
    have hparity : (m :: n :: k :: ns).length % 2 = (k :: ns).length % 2 := by
      simp only [List.length_cons]
      omega
    rw [lastIfOdd, lastIfOdd, hparity, List.getLast?_cons_cons, List.getLast?_cons_cons]

/-- Going through lines with a fence open or not leaves open what the pairs leave over. -/
theorem openAfter_eq (opened : Option Nat) (ls : List Line) :
    Outline.openAfter opened ls =
      lastIfOdd (opened.toList ++ (ls.filter (·.kind = .fence)).map (·.number)) := by
  induction ls generalizing opened with
  | nil => cases opened <;> rfl
  | cons l ls ih =>
    rw [Outline.openAfter]
    split
    · rename_i hfence
      rw [ih, List.filter_cons_of_pos (by simpa using hfence), List.map_cons]
      cases opened with
      | none => rfl
      | some m => exact (lastIfOdd_cons_cons m l.number _).symm
    · rename_i hfence
      rw [ih, List.filter_cons_of_neg (by simpa using hfence)]

/-- The fence that is left open is the last one of an odd number. -/
theorem openFence?_ofText (text : List Char) :
    (Outline.ofText text).openFence? = lastIfOdd (fencesOf (lines text)) := by
  rw [Outline.openFence?, openAfter_eq, lines_ofText, List.filter_map, List.map_map, fencesOf]
  have hfilter : (fun l : Line => decide (l.kind = .fence)) ∘
      (fun ln : List Char × Nat => lineAt (lines text) ln.2 ln.1) = fun ln => isFence ln.1 := by
    funext ln
    exact Bool.eq_iff_iff.mpr (by simpa using kind_fence_iff)
  exact congrArg (fun f => lastIfOdd ((((lines text).zipIdx).filter f).map (·.2))) hfilter

/-! ## Sections -/

/-- Is a heading of the title? ASCII letters count without their case. -/
def Heading.Titled (title : List Char) (h : Heading) : Prop :=
  sameIgnoringCase h.title title = true

instance (title : List Char) (h : Heading) : Decidable (h.Titled title) :=
  inferInstanceAs (Decidable (_ = _))

/-- A line is titled so when it has a heading of the title, which is what searches ask. -/
theorem isTitled_iff {title : List Char} {l : Line} :
    Outline.isTitled title l = true ↔ ∃ h, l.heading? = some h ∧ h.Titled title := by
  rw [Outline.isTitled, Option.any_eq_true]
  rfl

theorem titled_of_isTitled {title : List Char} {l : Line} {h : Heading}
    (titled : Outline.isTitled title l = true) (heading : l.heading? = some h) : h.Titled title := by
  obtain ⟨h', hheading, htitled⟩ := isTitled_iff.mp titled
  rw [heading] at hheading
  exact Option.some.inj hheading ▸ htitled

theorem not_titled_of_lines {title : List Char} {ls : List Line}
    (none : ∀ l ∈ ls, Outline.isTitled title l = false) :
    ∀ h ∈ ls.filterMap Line.heading?, ¬ h.Titled title := by
  intro h hh htitled
  obtain ⟨l, hl, hheading⟩ := List.mem_filterMap.mp hh
  exact absurd (isTitled_iff.mpr ⟨h, hheading, htitled⟩) (by simp [none l hl])

/-- A first part that is cut off by what is picked out of each thing can be cut off after the picking.
What nothing is picked from must not end it. -/
theorem filterMap_takeWhile {α β : Type} {f : α → Option β} {p : α → Bool} {q : β → Bool}
    (kept : ∀ a, f a = none → p a = true) (same : ∀ a b, f a = some b → p a = q b) (as : List α) :
    (as.takeWhile p).filterMap f = (as.filterMap f).takeWhile q := by
  induction as with
  | nil => rfl
  | cons a as ih =>
    cases hf : f a with
    | none =>
      rw [List.takeWhile_cons_of_pos (kept a hf), List.filterMap_cons_none hf,
        List.filterMap_cons_none hf, ih]
    | some b =>
      rw [List.filterMap_cons_some hf]
      by_cases hp : p a = true
      · rw [List.takeWhile_cons_of_pos hp, List.filterMap_cons_some hf, ih,
          List.takeWhile_cons_of_pos (same a b hf ▸ hp)]
      · rw [List.takeWhile_cons_of_neg hp, List.takeWhile_cons_of_neg (same a b hf ▸ hp)]
        rfl

theorem sectionTitled?_eq_none {o : Outline} {title : List Char} {ends : SectionEnd}
    (h : o.sectionTitled? title ends = none) : ∀ heading ∈ o.headings, ¬ heading.Titled title := by
  rw [Outline.sectionTitled?] at h
  split at h
  · rename_i hdrop
    exact not_titled_of_lines (by simpa using List.dropWhile_eq_nil_iff.mp hdrop)
  · rename_i l' below hdrop
    rw [Option.map_eq_none_iff] at h
    have hhead : (o.lines.dropWhile (!Outline.isTitled title ·)).head? = some l' := by rw [hdrop]; rfl
    have htitled' := head?_dropWhile_false hhead
    rw [Bool.not_eq_false'] at htitled'
    obtain ⟨heading', hheading', -⟩ := isTitled_iff.mp htitled'
    rw [h] at hheading'
    cases hheading'

/-- The section of a title stands under the first heading of the title, up to the first one that ends
it. A second section of the title is never found. -/
theorem sectionTitled?_eq_some {o : Outline} {title : List Char} {ends : SectionEnd} {s : Section}
    (h : o.sectionTitled? title ends = some s) :
    ∃ above l below, o.lines = above ++ l :: below ∧
      (∀ l' ∈ above, Outline.isTitled title l' = false) ∧
      Outline.isTitled title l = true ∧ l.heading? = some s.heading ∧
      s.body = below.takeWhile (!ends.endsAt s.heading ·) := by
  rw [Outline.sectionTitled?] at h
  split at h
  · cases h
  · rename_i l below hdrop
    rw [Option.map_eq_some_iff] at h
    obtain ⟨heading, hheading, rfl⟩ := h
    have hhead : (o.lines.dropWhile (!Outline.isTitled title ·)).head? = some l := by rw [hdrop]; rfl
    have htitled := head?_dropWhile_false hhead
    rw [Bool.not_eq_false'] at htitled
    refine ⟨o.lines.takeWhile (!Outline.isTitled title ·), l, below, ?_, ?_, htitled, hheading, rfl⟩
    · rw [← hdrop, List.takeWhile_append_dropWhile]
    · intro l' hl'
      simpa using List.mem_takeWhile_imp hl'

/-- The lines of a text are those above a section, its heading, its body, and, if any, the heading that
ends it and what follows. Everything that is added to or read from a section goes by this split. -/
structure SplitAt (text title : List Char) (ends : SectionEnd) (s : Section) (above : List Line)
    (l : Line) (behind : List Line) : Prop where
  lines : (Outline.ofText text).lines = (above ++ l :: s.body) ++ behind
  stop : s.stop = (above ++ l :: s.body).length
  first : ∀ l' ∈ above, Outline.isTitled title l' = false
  titled : s.heading.Titled title
  heading : l.heading? = some s.heading
  body : ∀ l' ∈ s.body, ends.endsAt s.heading l' = false
  behind : ∀ l', behind.head? = some l' → ends.endsAt s.heading l' = true

/-- A section that is found splits the lines of the text in this way. -/
theorem exists_splitAt {text title : List Char} {ends : SectionEnd} {s : Section}
    (found : (Outline.ofText text).sectionTitled? title ends = some s) :
    ∃ above l behind, SplitAt text title ends s above l behind := by
  obtain ⟨above, l, below, hlines, habove, htitled, hheading, hbody⟩ := sectionTitled?_eq_some found
  refine ⟨above, l, below.dropWhile (!ends.endsAt s.heading ·), ?_, ?_, habove,
    titled_of_isTitled htitled hheading, hheading, fun l' hl' => ?_, fun l' hl' => ?_⟩
  · rw [hlines, hbody, List.append_assoc, List.cons_append, List.takeWhile_append_dropWhile]
  · rw [Section.stop, Section.start, line_of_heading? hheading, number_of_split hlines, List.length_append,
      List.length_cons]
    omega
  · rw [hbody] at hl'
    simpa using List.mem_takeWhile_imp hl'
  · simpa using head?_dropWhile_false hl'

/-- Lines that are split at the first heading of a title have a section of it, with what stands below up
to its end. -/
theorem sectionTitled?_of_split {o : Outline} {title : List Char} {above below : List Line}
    {l : Line} {h : Heading} (lines : o.lines = above ++ l :: below)
    (none : ∀ l' ∈ above, Outline.isTitled title l' = false) (heading : l.heading? = some h)
    (titled : h.Titled title) (ends : SectionEnd) :
    o.sectionTitled? title ends = some ⟨h, below.takeWhile (!ends.endsAt h ·)⟩ := by
  have hl : Outline.isTitled title l = true := isTitled_iff.mpr ⟨h, heading, titled⟩
  have hdrop : o.lines.dropWhile (!Outline.isTitled title ·) = l :: below := by
    rw [lines, List.dropWhile_append_of_pos (by simpa using none),
      List.dropWhile_cons_of_neg (by simp [hl])]
  rw [Outline.sectionTitled?, hdrop]
  simp only [heading, Option.map_some]

theorem body_sublist {o : Outline} {title : List Char} {ends : SectionEnd} {s : Section}
    (h : o.sectionTitled? title ends = some s) : s.body.Sublist o.lines := by
  obtain ⟨above, l, below, hlines, -, -, -, hbody⟩ := sectionTitled?_eq_some h
  rw [hlines, hbody]
  exact ((List.takeWhile_sublist _).cons l).trans (List.sublist_append_right _ _)

/-! ## Blocks -/

/-- Blocks end where the next heading stands, so lines that begin with one can be cut into blocks by
themselves. -/
theorem blocks_append {ls more : List Line} (hmore : ∀ l, more.head? = some l → l.heading? ≠ none) :
    blocks (ls ++ more) = blocks ls ++ blocks more := by
  cases more with
  | nil => rw [List.append_nil, blocks, List.append_nil]
  | cons l more =>
    induction ls with
    | nil => rfl
    | cons x ls ih =>
      rw [List.cons_append, blocks, blocks, ih]
      cases x.heading? with
      | none => rfl
      | some h =>
        have hrows : (ls ++ l :: more).takeWhile (·.heading?.isNone) =
            ls.takeWhile (·.heading?.isNone) :=
          takeWhile_append_mark (by simpa [Option.isSome_iff_ne_none] using hmore l rfl) ls more
        simp only [hrows, List.cons_append]

/-- Every heading has a block, and there are no other blocks. -/
theorem map_heading_blocks (ls : List Line) :
    (blocks ls).map (·.heading) = ls.filterMap Line.heading? := by
  induction ls with
  | nil => rfl
  | cons l ls ih =>
    rw [blocks]
    split
    · rename_i h hheading
      rw [List.map_cons, List.filterMap_cons_some hheading, ih]
    · rename_i hheading
      rw [List.filterMap_cons_none hheading, ih]

/-- Rows of blocks come in their order, and none comes twice. -/
theorem flatMap_rows_blocks (ls : List Line) : ((blocks ls).flatMap (·.rows)).Sublist ls := by
  suffices h : ((blocks ls).flatMap (·.rows)).Sublist (ls.dropWhile (·.heading?.isNone)) from
    h.trans (List.dropWhile_suffix _).sublist
  induction ls with
  | nil => exact .slnil
  | cons l ls ih =>
    rw [blocks]
    split
    · rename_i h hheading
      have hwhole := (List.Sublist.refl (ls.takeWhile (·.heading?.isNone))).append ih
      rw [List.takeWhile_append_dropWhile] at hwhole
      rw [List.dropWhile_cons_of_neg (by simp [hheading])]
      exact hwhole.cons _
    · rename_i hheading
      rw [List.dropWhile_cons_of_pos (by simp [hheading])]
      exact ih

end Runbook.Markdown
