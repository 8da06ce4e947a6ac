import Runbook.Proofs.FencePairs
import Runbook.Proofs.Insertion

/-!
# Looking things up in an outline

Whoever reads, adds to or marks a plan asks its outline for a line by number, for the heading on a line
and for the section of a title.

* Flags: there is one for each line, and it tells whether the line is a fence or an odd number of fences
  stands before it (`flags_ofText`, `isFenced_lineAt`).
* Headings: the scan finds them from the top down, so they stand in the order of their lines
  (`ascending_headings`). This is what halving relies on: a heading is never in the half that is given up
  (`headingBetween?_of_getElem?`), and so the one on a line is found (`headingAt?_eq_some_iff`).
* Fences: the one left open is the last of an odd number (`openFence?_eq_some_iff`).
* Sections: the body goes from the line below the first heading of the title to the first heading that
  ends it, or to the end (`cutOut_of_found`).

`indexes_ofText` says all of it of every text.
-/

set_option autoImplicit false

namespace Runbook.Markdown

open Text

/-! ## Lines by their numbers -/

theorem getElem?_lines_ofText (text : List Char) (n : Nat) :
    (Outline.ofText text).lines[n]? = (lines text)[n]?.map (lineAt (lines text) n) := by
  rw [lines_ofText, List.getElem?_map, List.getElem?_zipIdx, Option.map_map, Nat.zero_add]
  rfl

/-- There is a flag for each line, and none behind the last. -/
theorem flags_ofText (text : List Char) (n : Nat) : (Outline.ofText text).flags[n]? =
    (lines text)[n]?.map fun l => (lineAt (lines text) n l).isFenced := by
  rw [Outline.flags, List.getElem?_map, getElem?_lines_ofText, Option.map_map]
  rfl

/-- A line is not flagged when it is neither a fence nor enclosed by a pair of them. -/
theorem flag_false_iff {text : List Char} {n : Nat} {l : List Char} (line : (lines text)[n]? = some l) :
    (Outline.ofText text).flags[n]? = some false ↔ Outside (lines text) n l := by
  rw [flags_ofText, line, Option.map_some, Option.some.injEq, ← Bool.not_eq_true, isFenced_lineAt,
    Outside]
  simp

/-! ## Headings by their lines -/

/-- Headings that stand in the order of their lines, no two on one. -/
def Ascending (headings : List Heading) : Prop := headings.Pairwise fun h h' => h.line < h'.line

/-- The scan finds headings from the top down, and a line has at most one. -/
theorem ascending_headings (text : List Char) : Ascending (Outline.ofText text).headings := by
  have hnumbers := List.pairwise_map.mp (numbers_ofText text)
  refine List.pairwise_filterMap.mpr (hnumbers.imp fun {l l'} hlt h hh h' hh' => ?_)
  rw [line_of_heading? hh, line_of_heading? hh']
  exact hlt

/-- Of two such headings the one that comes first stands higher up. -/
theorem Ascending.line_lt_iff {headings : List Heading} (ascending : Ascending headings) {m n : Nat}
    {h h' : Heading} (hm : headings[m]? = some h) (hn : headings[n]? = some h') :
    h.line < h'.line ↔ m < n := by
  obtain ⟨hm', rfl⟩ := List.getElem?_eq_some_iff.mp hm
  obtain ⟨hn', rfl⟩ := List.getElem?_eq_some_iff.mp hn
  have hall := List.pairwise_iff_getElem.mp ascending
  rcases Nat.lt_trichotomy m n with hlt | rfl | hgt
  · exact iff_of_true (hall m n hm' hn' hlt) hlt
  · exact iff_of_false (Nat.lt_irrefl _) (Nat.lt_irrefl _)
  · exact iff_of_false (Nat.lt_asymm (hall n m hn' hm' hgt)) (Nat.lt_asymm hgt)

/-- What is found stands among the headings, and on the line. This needs no order: the search looks at
the line before it answers. -/
theorem mem_of_headingBetween? {headings : Array Heading} {line low high : Nat} {h : Heading}
    (found : headingBetween? headings line low high = some h) : h ∈ headings ∧ h.line = line := by
  fun_induction headingBetween? headings line low high with
  | case1 => cases found
  | case2 low high hopen middle here hhere hbelow ih => exact ih found
  | case3 low high hopen middle here hhere hbelow habove ih => exact ih found
  | case4 low high hopen middle here hhere hbelow habove =>
    cases found
    exact ⟨Array.mem_of_getElem? hhere, by omega⟩
  | case5 => cases found

/-- A heading that stands between the two places is found: it is never in the half that is given up. The
induction is the one of the search, on how many headings are left between the places. -/
theorem headingBetween?_of_getElem? {headings : List Heading} (ascending : Ascending headings)
    {n low high : Nat} {h : Heading} (there : headings[n]? = some h) (lower : low ≤ n) (upper : n < high)
    (bound : high ≤ headings.length) :
    headingBetween? headings.toArray h.line low high = some h := by
  -- each step keeps the place of the heading between the two, which `there` turns into lines
  fun_induction headingBetween? headings.toArray h.line low high with
  | case1 low high hopen middle hnone =>
    rw [List.getElem?_toArray, List.getElem?_eq_none_iff] at hnone
    omega
  | case2 low high hopen middle here hhere hbelow ih =>
    rw [List.getElem?_toArray] at hhere
    exact ih ((ascending.line_lt_iff hhere there).mp hbelow) upper bound
  | case3 low high hopen middle here hhere _ habove ih =>
    rw [List.getElem?_toArray] at hhere
    exact ih lower ((ascending.line_lt_iff there hhere).mp habove) (by omega)
  | case4 low high hopen middle here hhere hbelow habove =>
    rw [List.getElem?_toArray] at hhere
    rw [ascending.line_lt_iff hhere there] at hbelow
    rw [ascending.line_lt_iff there hhere] at habove
    have hmiddle : middle = n := by omega
    rw [← hhere, hmiddle, there]
  | case5 low high hclosed => omega

/-- Because the headings stand in the order of their lines, halving finds the one on a line. -/
theorem headingAt?_eq_some_iff {o : Outline} (ascending : Ascending o.headings) {n : Nat} {h : Heading} :
    o.headingAt? n = some h ↔ h ∈ o.headings ∧ h.line = n := by
  refine ⟨fun found => ?_, ?_⟩
  · obtain ⟨hmem, hline⟩ := mem_of_headingBetween? found
    exact ⟨List.mem_toArray.mp hmem, hline⟩
  · rintro ⟨hmem, rfl⟩
    obtain ⟨k, hk⟩ := List.mem_iff_getElem?.mp hmem
    obtain ⟨hlt, -⟩ := List.getElem?_eq_some_iff.mp hk
    exact headingBetween?_of_getElem? ascending hk (Nat.zero_le k) (by simpa using hlt) (by simp)

/-- The headings of a text are those of its lines that are not flagged. -/
theorem mem_headings_iff {text : List Char} {h : Heading} :
    h ∈ (Outline.ofText text).headings ↔ ∃ l, (lines text)[h.line]? = some l ∧
      Outside (lines text) h.line l ∧ parseHeading? l = some (h.level, h.title) := by
  rw [headings_ofText, headingsOf, List.mem_filterMap]
  constructor
  · rintro ⟨⟨l, n⟩, hl, hheading⟩
    dsimp only at hheading
    split at hheading
    · rename_i hout
      obtain ⟨⟨level, title⟩, hparse, rfl⟩ := Option.map_eq_some_iff.mp hheading
      exact ⟨l, List.mem_zipIdx_iff_getElem?.mp hl, hout, hparse⟩
    · cases hheading
  · rintro ⟨l, hl, hout, hparse⟩
    exact ⟨(l, h.line), List.mem_zipIdx_iff_getElem?.mpr hl, by simp [hout, hparse]⟩

/-! ## Fences -/

/-- A line with a number is a fence. -/
def FenceAt (ls : List (List Char)) (n : Nat) : Prop := ∃ l, ls[n]? = some l ∧ isFence l = true

theorem mem_fencesOf {ls : List (List Char)} {n : Nat} : n ∈ fencesOf ls ↔ FenceAt ls n := by
  refine (mem_fencesFrom (n := 0)).trans ?_
  simp [FenceAt]

/-- The last of numbers in ascending order is the greatest one. -/
theorem getLast?_eq_some_iff_of_ascending {ns : List Nat} (ascending : ns.Pairwise (· < ·)) {n : Nat} :
    ns.getLast? = some n ↔ n ∈ ns ∧ ∀ m ∈ ns, m ≤ n := by
  rcases List.eq_nil_or_concat' ns with rfl | ⟨front, last, rfl⟩
  · simp
  · have hfront : ∀ m ∈ front, m < last := fun m hm =>
      (List.pairwise_append.mp ascending).2.2 m hm last List.mem_cons_self
    rw [List.getLast?_concat, Option.some.injEq]
    constructor
    · rintro rfl
      refine ⟨by simp, fun m hm => ?_⟩
      rcases List.mem_append.mp hm with hm | hm
      · exact Nat.le_of_lt (hfront m hm)
      · exact Nat.le_of_eq (List.mem_singleton.mp hm)
    · rintro ⟨hn, hmax⟩
      have hle := hmax last (by simp)
      rcases List.mem_append.mp hn with hn | hn
      · have := hfront n hn
        omega
      · exact (List.mem_singleton.mp hn).symm

/-- There are as many numbers of fences as lines that are fences. -/
theorem length_fencesOf (ls : List (List Char)) : (fencesOf ls).length = ls.countP isFence :=
  length_fencesFrom 0 ls

/-- The fence that is left open is the last one, and there is one left open when their number is odd. -/
theorem openFence?_eq_some_iff {text : List Char} {n : Nat} :
    (Outline.ofText text).openFence? = some n ↔ (lines text).countP isFence % 2 = 1 ∧
      FenceAt (lines text) n ∧ ∀ m, FenceAt (lines text) m → m ≤ n := by
  have hsorted : (fencesOf (lines text)).Pairwise (· < ·) := fencesFrom_pairwise 0 (lines text)
  have hlast := getLast?_eq_some_iff_of_ascending hsorted (n := n)
  simp only [mem_fencesOf] at hlast
  rw [openFence?_ofText, lastIfOdd, length_fencesOf, ← hlast]
  split
  · rename_i hodd
    exact (and_iff_right hodd).symm
  · rename_i heven
    exact iff_of_false (Option.some_ne_none n).symm fun h => heven h.1

/-- No fence is left open when they come in pairs. -/
theorem openFence?_eq_none_iff {text : List Char} :
    (Outline.ofText text).openFence? = none ↔ (lines text).countP isFence % 2 = 0 := by
  rw [openFence?_ofText, lastIfOdd, length_fencesOf]
  split
  · rename_i hodd
    rw [List.getLast?_eq_none_iff, ← List.length_eq_zero_iff, length_fencesOf]
    omega
  · rename_i heven
    exact iff_of_true rfl (by omega)

/-! ## Sections -/

/-- A heading ends a section of another one below which it stands: any does, or only one that is not
below it in rank. -/
def SectionEnd.Ends (ends : SectionEnd) (under h : Heading) : Prop :=
  match ends with
  | .anyHeading => True
  | .sameLevel => h.level ≤ under.level

/-- A line ends a section when it has a heading that does. -/
theorem endsAt_iff {ends : SectionEnd} {under : Heading} {l : Line} :
    ends.endsAt under l = true ↔ ∃ h, l.heading? = some h ∧ ends.Ends under h := by
  unfold SectionEnd.endsAt
  cases l.heading? with
  | none => simp
  | some h => cases ends <;> simp [SectionEnd.Ends]

/-- A section as it is cut out of the lines: its heading is the first one of the title, and its body
goes from the line below up to the first heading that ends it, or to the end. The places are given as
numbers of lines, the way an insertion or a mark asks for them. -/
structure CutOut (o : Outline) (title : List Char) (ends : SectionEnd) (s : Section) : Prop where
  first : o.headings.find? (fun h => sameIgnoringCase h.title title) = some s.heading
  start_le_stop : s.heading.line + 1 ≤ s.stop
  stop_le : s.stop ≤ o.lines.length
  body : s.body = (o.lines.take s.stop).drop (s.heading.line + 1)
  inside : ∀ h ∈ o.headings, s.heading.line < h.line → h.line < s.stop → ¬ ends.Ends s.heading h
  ended : s.stop = o.lines.length ∨ ∃ h ∈ o.headings, h.line = s.stop ∧ ends.Ends s.heading h

theorem getElem?_number {text : List Char} {l : Line} (mem : l ∈ (Outline.ofText text).lines) :
    (Outline.ofText text).lines[l.number]? = some l := by
  obtain ⟨n, hn⟩ := List.mem_iff_getElem?.mp mem
  have hline := hn
  rw [getElem?_lines_ofText, Option.map_eq_some_iff] at hline
  obtain ⟨text', -, rfl⟩ := hline
  exact hn

/-- A section that is found is cut out so. The scan knows only what it has passed; the numbers come from
the split of the lines at the heading. -/
theorem cutOut_of_found {text title : List Char} {ends : SectionEnd} {s : Section}
    (found : (Outline.ofText text).sectionTitled? title ends = some s) :
    CutOut (Outline.ofText text) title ends s := by
  obtain ⟨above, l, behind, split⟩ := exists_splitAt found
  have hline : s.heading.line = above.length := by
    rw [line_of_heading? split.heading]
    exact number_of_split (split.lines.trans (List.append_assoc above (l :: s.body) behind))
  have hbody : s.body = ((Outline.ofText text).lines.take s.stop).drop (s.heading.line + 1) := by
    rw [split.stop, split.lines, List.take_left, hline]
    simp
  constructor
  case first =>
    rw [List.find?_eq_some_iff_append]
    refine ⟨split.titled, above.filterMap Line.heading?, (s.body ++ behind).filterMap Line.heading?, ?_,
      fun h hh => ?_⟩
    · rw [Outline.headings, split.lines, List.append_assoc, List.filterMap_append, List.cons_append,
        List.filterMap_cons_some split.heading]
    · rw [Bool.not_eq_true', Bool.eq_false_iff]
      exact not_titled_of_lines split.first h hh
  case start_le_stop => exact Nat.le_add_right _ _
  case stop_le => rw [split.stop, split.lines]; simp
  case body => exact hbody
  case inside =>
    intro h hh hlow hhigh hends
    obtain ⟨l', hl', hheading⟩ := List.mem_filterMap.mp hh
    have hnumber := line_of_heading? hheading
    -- by its number the line lies in the body, where no line ends the section
    have hmem : l' ∈ s.body := by
      rw [hbody, List.mem_iff_getElem?]
      refine ⟨l'.number - (s.heading.line + 1), ?_⟩
      rw [List.getElem?_drop, List.getElem?_take_of_lt (by omega), Nat.add_sub_cancel' (by omega)]
      exact getElem?_number hl'
    have hnot := split.body l' hmem
    rw [endsAt_iff.mpr ⟨h, hheading, hends⟩] at hnot
    cases hnot
  case ended =>
    cases hbehind : behind with
    | nil =>
      left
      rw [split.stop, split.lines, hbehind, List.append_nil]
    | cons l' rest =>
      right
      obtain ⟨h, hheading, hends⟩ := endsAt_iff.mp (split.behind l' (by rw [hbehind]; rfl))
      have hlines := split.lines
      rw [hbehind] at hlines
      refine ⟨h, List.mem_filterMap.mpr ⟨l', by rw [hlines]; simp, hheading⟩, ?_, hends⟩
      rw [line_of_heading? hheading, number_of_split hlines, split.stop]

/-- A section is found when there is a heading of its title outside of fences. -/
theorem isSome_sectionTitled?_iff {o : Outline} {title : List Char} {ends : SectionEnd} :
    (o.sectionTitled? title ends).isSome = true ↔ ∃ h ∈ o.headings, h.Titled title := by
  cases hfound : o.sectionTitled? title ends with
  | none => simpa using sectionTitled?_eq_none hfound
  | some s =>
    obtain ⟨above, l, below, hlines, -, htitled, hheading, -⟩ := sectionTitled?_eq_some hfound
    have hmem : s.heading ∈ o.headings :=
      List.mem_filterMap.mpr ⟨l, by rw [hlines]; simp, hheading⟩
    exact iff_of_true rfl ⟨s.heading, hmem, titled_of_isTitled htitled hheading⟩

/-! ## The whole outline -/

/-- What an outline of some lines tells by number and by title. The flag of a line, the heading on it and
the fence that is left open are those that the lines alone give; a section is found when there is a
heading of its title, and is then cut out at headings. -/
structure Outline.Indexes (o : Outline) (ls : List (List Char)) : Prop where
  texts : o.lines.map (·.text) = ls
  length_flags : o.flags.length = ls.length
  flag_iff : ∀ n l, ls[n]? = some l →
    (o.flags[n]? = some true ↔ isFence l = true ∨ (ls.take n).countP isFence % 2 = 1)
  ascending : Ascending o.headings
  headingAt?_iff : ∀ n h, o.headingAt? n = some h ↔ h.line = n ∧ ∃ l, ls[n]? = some l ∧
    o.flags[n]? = some false ∧ parseHeading? l = some (h.level, h.title)
  openFence?_iff : ∀ n, o.openFence? = some n ↔ ls.countP isFence % 2 = 1 ∧ FenceAt ls n ∧
    ∀ m, FenceAt ls m → m ≤ n
  openFence?_none_iff : o.openFence? = none ↔ ls.countP isFence % 2 = 0
  section_iff : ∀ title ends, (o.sectionTitled? title ends).isSome = true ↔
    ∃ h ∈ o.headings, h.Titled title
  cutOut : ∀ title ends s, o.sectionTitled? title ends = some s → CutOut o title ends s

/-- The outline of any text tells of its lines what the lines alone tell, so whoever asks it by number
or title need not know how it was made. -/
theorem indexes_ofText (text : List Char) : (Outline.ofText text).Indexes (lines text) where
  texts := text_scan false 0 (lines text)
  length_flags := by rw [Outline.flags, List.length_map, Outline.ofText, length_scan]
  flag_iff n l hl := by
    rw [flags_ofText, hl, Option.map_some, Option.some.injEq, isFenced_lineAt]
  ascending := ascending_headings text
  headingAt?_iff n h := by
    rw [headingAt?_eq_some_iff (ascending_headings text), mem_headings_iff, and_comm]
    refine and_congr_right fun hline => ?_
    subst hline
    refine exists_congr fun l => and_congr_right fun hl => ?_
    rw [flag_false_iff hl]
  openFence?_iff _ := openFence?_eq_some_iff
  openFence?_none_iff := openFence?_eq_none_iff
  section_iff _ _ := isSome_sectionTitled?_iff
  cutOut _ _ _ := cutOut_of_found

end Runbook.Markdown
