import Mathlib.Data.List.Basic
import Runbook.Proofs.Grammar

/-!
# Pairs of fences

Fences pair off over a whole document, the first with the second, the third with the fourth and so on
(`pairUp`). The reader of the commands that prepare a run knows nothing of this: it begins in the middle
of the document, takes the next fence for the opening one, and goes on to the one behind it. The two
never get out of step, because a section begins and ends at a heading, and every heading has an even
number of fences before it. So the commands are those of the pairs that open in the section
(`context_of_pairs`), and such a pair is closed before the section ends.

The verbatim blocks of a stretch of lines are those of its pairs as soon as its fences are even in
number (`codeBlocksFrom_stretch`). A section is such a stretch (`exists_excerpt`), and of the pairs of the
document those that open in it are its own (`Excerpt.filter_pairUp`).
-/

set_option autoImplicit false

namespace Runbook

open Text

namespace Markdown

/-! ## Pairing off -/

/-- The first with the second, the third with the fourth and so on. A last one without a partner is left
out; a document whose fences are odd in number is refused anyway. -/
def pairUp : List Nat → List (Nat × Nat)
  | a :: b :: ns => (a, b) :: pairUp ns
  | _ => []

/-- Behind an even number of fences pairing off begins anew. This is what keeps a reader that starts in
the middle of a document in step. -/
theorem pairUp_append {as : List Nat} (even : as.length % 2 = 0) (bs : List Nat) :
    pairUp (as ++ bs) = pairUp as ++ pairUp bs := by
  fun_induction pairUp as with
  | case1 a b ns ih =>
    have hrest : ns.length % 2 = 0 := by
      simp only [List.length_cons] at even
      omega
    rw [List.cons_append, List.cons_append, pairUp, ih hrest]
    rfl
  | case2 as short =>
    cases as with
    | nil => rfl
    | cons a as =>
      cases as with
      | nil => simp at even
      | cons b as => exact absurd rfl (short a b as)

/-- A pair stands side by side, behind an even number of others. -/
theorem exists_of_mem_pairUp {ns : List Nat} {a b : Nat} (mem : (a, b) ∈ pairUp ns) :
    ∃ before after, ns = before ++ a :: b :: after ∧ before.length % 2 = 0 := by
  fun_induction pairUp ns with
  | case1 c d ns ih =>
    rcases List.mem_cons.mp mem with heq | mem
    · cases heq
      exact ⟨[], ns, rfl, rfl⟩
    · obtain ⟨before, after, rfl, heven⟩ := ih mem
      refine ⟨c :: d :: before, after, rfl, ?_⟩
      simp only [List.length_cons]
      omega
  | case2 => cases mem

theorem mem_of_mem_pairUp {ns : List Nat} {p : Nat × Nat} (mem : p ∈ pairUp ns) :
    p.1 ∈ ns ∧ p.2 ∈ ns := by
  obtain ⟨before, after, rfl, -⟩ := exists_of_mem_pairUp mem
  simp

/-! ## The numbers of fences -/

/-- The numbers of the lines that are fences, counted from a number on, as they are within a part of a
document. -/
def fencesFrom (n : Nat) (ls : List (List Char)) : List Nat :=
  ((ls.zipIdx n).filter fun l => isFence l.1).map (·.2)

theorem fencesFrom_append (n : Nat) (ls ls' : List (List Char)) :
    fencesFrom n (ls ++ ls') = fencesFrom n ls ++ fencesFrom (n + ls.length) ls' := by
  simp [fencesFrom, List.zipIdx_append]

/-- Lines may be cut anywhere, also behind the last one. -/
theorem fencesFrom_take_drop (n k : Nat) (ls : List (List Char)) :
    fencesFrom n ls = fencesFrom n (ls.take k) ++ fencesFrom (n + k) (ls.drop k) := by
  rcases Nat.le_total k ls.length with hle | hle
  · have hcut := fencesFrom_append n (ls.take k) (ls.drop k)
    rw [List.take_append_drop, List.length_take, Nat.min_eq_left hle] at hcut
    exact hcut
  · rw [List.take_of_length_le hle, List.drop_of_length_le hle]
    exact (List.append_nil _).symm

theorem fencesFrom_cons_of_fence {l : List Char} (fence : isFence l = true) (n : Nat)
    (ls : List (List Char)) : fencesFrom n (l :: ls) = n :: fencesFrom (n + 1) ls := by
  simp [fencesFrom, List.zipIdx_cons, fence]

theorem fencesFrom_cons_of_not_fence {l : List Char} (other : isFence l = false) (n : Nat)
    (ls : List (List Char)) : fencesFrom n (l :: ls) = fencesFrom (n + 1) ls := by
  simp [fencesFrom, List.zipIdx_cons, other]

theorem length_fencesFrom (n : Nat) (ls : List (List Char)) :
    (fencesFrom n ls).length = ls.countP isFence := by
  induction ls generalizing n with
  | nil => rfl
  | cons l ls ih =>
    cases h : isFence l with
    | true => rw [fencesFrom_cons_of_fence h, List.length_cons, ih, List.countP_cons_of_pos h]
    | false => rw [fencesFrom_cons_of_not_fence h, ih, List.countP_cons_of_neg (by simp [h])]

theorem mem_fencesFrom {n m : Nat} {ls : List (List Char)} :
    m ∈ fencesFrom n ls ↔ n ≤ m ∧ ∃ l, ls[m - n]? = some l ∧ isFence l = true := by
  simp only [fencesFrom, List.mem_map, List.mem_filter, Prod.exists,
    exists_eq_right, List.mem_zipIdx_iff_le_and_getElem?_sub]
  constructor
  · rintro ⟨l, ⟨hle, hl⟩, hfence⟩
    exact ⟨hle, l, hl, hfence⟩
  · rintro ⟨hle, l, hl, hfence⟩
    exact ⟨l, ⟨hle, hl⟩, hfence⟩

theorem lt_of_mem_fencesFrom {n m : Nat} {ls : List (List Char)} (mem : m ∈ fencesFrom n ls) :
    n ≤ m ∧ m < n + ls.length := by
  obtain ⟨hle, l, hl, -⟩ := mem_fencesFrom.mp mem
  obtain ⟨hlt, -⟩ := List.getElem?_eq_some_iff.mp hl
  omega

theorem fencesFrom_pairwise (n : Nat) (ls : List (List Char)) :
    (fencesFrom n ls).Pairwise (· < ·) := by
  have hall : ((ls.zipIdx n).map (·.2)).Pairwise (· < ·) := by
    rw [List.zipIdx_map_snd]
    exact List.pairwise_lt_range'
  exact hall.sublist (List.filter_sublist.map _)

theorem countP_lt_of_all {ns : List Nat} {k : Nat} (all : ∀ m ∈ ns, m < k) :
    ns.countP (· < k) = ns.length :=
  List.countP_eq_length.mpr fun m hm => decide_eq_true (all m hm)

theorem countP_lt_of_none {ns : List Nat} {k : Nat} (none : ∀ m ∈ ns, k ≤ m) :
    ns.countP (· < k) = 0 :=
  List.countP_eq_zero.mpr fun m hm => by simpa using none m hm

/-- The fences above a line are those with a smaller number, so whether a line is outside of all pairs
can be said with numbers alone. -/
theorem countP_fencesOf (ls : List (List Char)) (k : Nat) :
    (fencesOf ls).countP (· < k) = (ls.take k).countP isFence := by
  have hcut : fencesOf ls = fencesFrom 0 (ls.take k) ++ fencesFrom (0 + k) (ls.drop k) :=
    fencesFrom_take_drop 0 k ls
  rw [hcut, Nat.zero_add, List.countP_append, countP_lt_of_all, countP_lt_of_none, length_fencesFrom,
    Nat.add_zero]
  · exact fun m hm => (lt_of_mem_fencesFrom hm).1
  · intro m hm
    have hlt := (lt_of_mem_fencesFrom hm).2
    rw [List.length_take] at hlt
    omega

/-- What stands between the two fences of a pair is no fence, and has an odd number of them before it.
So a pair encloses just what the scan takes for verbatim. -/
theorem between_fences {ls : List (List Char)} {a b k : Nat} {l : List Char}
    (pair : (a, b) ∈ pairUp (fencesOf ls)) (above : a < k) (below : k < b) (line : ls[k]? = some l) :
    Enclosed ls k l := by
  have hsorted : (fencesOf ls).Pairwise (· < ·) := fencesFrom_pairwise 0 ls
  obtain ⟨before, after, hsplit, heven⟩ := exists_of_mem_pairUp pair
  -- the fences are in order, so each of them is in front of the pair or behind it
  rw [hsplit, List.pairwise_append] at hsorted
  obtain ⟨-, hpair, hbefore⟩ := hsorted
  have hsmall : ∀ m ∈ before, m < a := fun m hm => hbefore m hm a List.mem_cons_self
  have hlarge : ∀ m ∈ after, b < m := fun m hm =>
    List.rel_of_pairwise_cons (List.Pairwise.of_cons hpair) hm
  constructor
  · rw [← Bool.not_eq_true]
    intro hfence
    have hmem : k ∈ fencesOf ls := mem_fencesFrom.mpr ⟨Nat.zero_le k, l, line, hfence⟩
    rw [hsplit, List.mem_append, List.mem_cons, List.mem_cons] at hmem
    rcases hmem with hmem | rfl | rfl | hmem
    · have := hsmall k hmem
      omega
    · omega
    · omega
    · have := hlarge k hmem
      omega
  · -- above the line are the fences in front of the pair, which come in pairs, and its first one
    have hbefore' : before.countP (· < k) = before.length :=
      countP_lt_of_all fun m hm => Nat.lt_trans (hsmall m hm) above
    have hafter' : (b :: after).countP (· < k) = 0 := by
      refine countP_lt_of_none fun m hm => ?_
      rcases List.mem_cons.mp hm with rfl | hm
      · exact Nat.le_of_lt below
      · have := hlarge m hm
        omega
    rw [← countP_fencesOf, hsplit, List.countP_append, List.countP_cons_of_pos (by simpa using above),
      hbefore', hafter']
    omega

/-! ## Verbatim blocks -/

/-- The lines strictly between two. -/
def linesBetween (ls : List (List Char)) (a b : Nat) : List (List Char) := (ls.take b).drop (a + 1)

theorem linesBetween_self (ls : List (List Char)) (a : Nat) : linesBetween ls a (a + 1) = [] := by
  rw [linesBetween, List.drop_eq_nil_iff, List.length_take]
  exact Nat.min_le_left _ _

theorem linesBetween_succ {ls : List (List Char)} {a n : Nat} {l : List Char} (lt : a < n)
    (line : ls[n]? = some l) : linesBetween ls a (n + 1) = linesBetween ls a n ++ [l] := by
  obtain ⟨hn, -⟩ := List.getElem?_eq_some_iff.mp line
  rw [linesBetween, List.take_add_one, line, Option.toList_some, List.drop_append_of_le_length]
  · rfl
  · rw [List.length_take]
    omega

/-- The verbatim block of a pair of fences: the word behind the first, and the lines between the two. -/
def blockAt (ls : List (List Char)) (p : Nat × Nat) : CodeBlock :=
  ⟨fenceInfo (ls.getD p.1 []), linesBetween ls p.1 p.2⟩

/-- A fence opens a block with nothing in it. -/
theorem blockAt_opened {ls : List (List Char)} {n : Nat} {l : List Char} (line : ls[n]? = some l) :
    blockAt ls (n, n + 1) = ⟨fenceInfo l, []⟩ := by
  rw [blockAt, linesBetween_self, List.getD_eq_getElem?_getD, line]
  rfl

/-- Every line down to the closing fence is added to the block. -/
theorem blockAt_grown {ls : List (List Char)} {a n : Nat} {l : List Char} (lt : a < n)
    (line : ls[n]? = some l) :
    blockAt ls (a, n + 1) = { blockAt ls (a, n) with body := (blockAt ls (a, n)).body ++ [l] } := by
  simp only [blockAt, linesBetween_succ lt line]

/-- The lines of a document from a number on. -/
def stretch (whole : List (List Char)) (n : Nat) (ls : List (List Char)) : List Line :=
  (ls.zipIdx n).map fun (l, k) => lineAt whole k l

/-- The verbatim blocks of a stretch of lines are those of its pairs, given the fence that is open
before it. The induction is on the lines, with the block that has been opened as far as it has been
read. -/
theorem codeBlocksFrom_stretch {whole ls after : List (List Char)} {n : Nat} {o : Option Nat}
    (place : whole.drop n = ls ++ after) (early : ∀ a ∈ o, a < n)
    (even : (o.toList ++ fencesFrom n ls).length % 2 = 0) :
    codeBlocksFrom (o.map fun a => blockAt whole (a, n)) (stretch whole n ls) =
      (pairUp (o.toList ++ fencesFrom n ls)).map (blockAt whole) := by
  -- the block that is open has in it what stands behind its fence so far, which is what `blockAt` would
  -- say if the next line closed it
  induction ls generalizing n o with
  | nil =>
    cases o with
    | none => rfl
    | some a => simp [fencesFrom] at even
  | cons l ls ih =>
    have hline : whole[n]? = some l := by
      rw [← List.head?_drop, place]
      rfl
    have hplace : whole.drop (n + 1) = ls ++ after := by
      rw [← List.tail_drop, place]
      rfl
    have hstretch : stretch whole n (l :: ls) = lineAt whole n l :: stretch whole (n + 1) ls := rfl
    rw [hstretch]
    cases hfence : isFence l with
    | true =>
      have hkind : (lineAt whole n l).kind = .fence := kind_fence_iff.mpr hfence
      rw [fencesFrom_cons_of_fence hfence] at even ⊢
      cases o with
      | none =>
        have hrest := ih hplace (o := some n) (by simp) (by simpa using even)
        rw [Option.map_some, blockAt_opened hline] at hrest
        rw [Option.map_none, codeBlocksFrom, if_pos hkind]
        exact hrest
      | some a =>
        have hrest := ih hplace (o := none) (by simp) (by
          simp only [Option.toList_some, List.length_append, List.length_cons, List.length_nil] at even
          simp only [Option.toList_none, List.nil_append]
          omega)
        simp only [Option.map_some, codeBlocksFrom, if_pos hkind, Option.toList_some, List.cons_append,
          List.nil_append, pairUp, List.map_cons]
        rw [← Option.map_none, hrest]
        rfl
    | false =>
      have hkind : (lineAt whole n l).kind ≠ .fence := fun h => by
        rw [kind_fence_iff.mp h] at hfence
        cases hfence
      rw [fencesFrom_cons_of_not_fence hfence] at even ⊢
      cases o with
      | none =>
        have hrest := ih hplace (o := none) (by simp) even
        rw [Option.map_none, codeBlocksFrom, if_neg hkind]
        exact hrest
      | some a =>
        have hrest := ih hplace (o := some a) (fun a' ha' => Nat.lt_succ_of_lt (early a' ha')) even
        rw [Option.map_some, blockAt_grown (early a rfl) hline] at hrest
        rw [Option.map_some, codeBlocksFrom, if_neg hkind]
        exact hrest

/-! ## Sections -/

/-- The lines from one number up to another are the body of the first section of a title, which ends at
the next heading of any level. It is said with the headings of the document, without the way in which
the section is looked for. -/
def SectionLines (ls : List (List Char)) (title : List Char) (start stop : Nat) : Prop :=
  ∃ above h below, headingsOf ls = above ++ h :: below ∧ (∀ h' ∈ above, ¬ h'.Titled title) ∧
    h.Titled title ∧ start = h.line + 1 ∧ stop = (below.head?.map (·.line)).getD ls.length

/-- Before a heading the fences are even in number, or the line would be verbatim and no heading. -/
theorem even_above_heading {text : List Char} {above below : List Line} {l : Line} {h : Heading}
    (split : (Outline.ofText text).lines = above ++ l :: below) (heading : l.heading? = some h) :
    isFence l.text = false ∧ ((lines text).take above.length).countP isFence % 2 = 0 := by
  have hnumber := number_of_split split
  have hmem : l ∈ (Outline.ofText text).lines := by
    rw [split]
    simp
  rw [lines_ofText] at hmem
  obtain ⟨⟨t, n⟩, -, rfl⟩ := List.mem_map.mp hmem
  have hn : n = above.length := hnumber
  rw [heading?_lineAt] at heading
  split at heading
  · rename_i houtside
    rw [← hn]
    exact houtside
  · cases heading

/-- A stretch of a document with an even number of fences in it and before it. On such a stretch a
reader that knows nothing of the document finds the pairs that the document has there. -/
structure Excerpt (whole : List (List Char)) (start stop : Nat) (ls : List (List Char)) : Prop where
  length : stop = start + ls.length
  cut : whole.drop start = ls ++ whole.drop stop
  evenAbove : (whole.take start).countP isFence % 2 = 0
  evenWithin : ls.countP isFence % 2 = 0

theorem Excerpt.of_split {whole above ls below : List (List Char)} (split : whole = above ++ ls ++ below)
    (evenAbove : (whole.take above.length).countP isFence % 2 = 0)
    (evenBelow : (whole.take (above.length + ls.length)).countP isFence % 2 = 0) :
    Excerpt whole above.length (above.length + ls.length) ls := by
  have hstart : whole.drop above.length = ls ++ below := by
    rw [split, List.append_assoc, List.drop_left]
  have hstop : whole.drop (above.length + ls.length) = below := by
    rw [← List.drop_drop, hstart, List.drop_left]
  refine ⟨rfl, ?_, evenAbove, ?_⟩
  · rw [hstart, hstop]
  · rw [List.take_add, hstart, List.take_left, List.countP_append] at evenBelow
    omega

theorem stretch_append (whole : List (List Char)) (n : Nat) (ls ls' : List (List Char)) :
    stretch whole n (ls ++ ls') = stretch whole n ls ++ stretch whole (n + ls.length) ls' := by
  simp [stretch, List.zipIdx_append]

theorem length_stretch (whole : List (List Char)) (n : Nat) (ls : List (List Char)) :
    (stretch whole n ls).length = ls.length := by
  simp [stretch]

theorem map_text_ofText (text : List Char) :
    (Outline.ofText text).lines.map (·.text) = lines text := text_scan false 0 (lines text)

/-- Lines of an outline are a stretch of the document, with their numbers in it. -/
theorem stretch_of_split {text : List Char} {above body below : List Line}
    (split : (Outline.ofText text).lines = above ++ body ++ below) :
    body = stretch (lines text) above.length (body.map (·.text)) := by
  have hwhole := map_text_ofText text
  rw [split, List.map_append, List.map_append] at hwhole
  have houtline : above ++ body ++ below = stretch (lines text) 0 (lines text) :=
    split.symm.trans (lines_ofText text)
  conv at houtline => rhs; arg 3; rw [← hwhole]
  rw [stretch_append, stretch_append, Nat.zero_add, List.length_map] at houtline
  have hfront := (List.append_inj houtline (by simp [length_stretch])).1
  exact (List.append_inj hfront (by simp [length_stretch])).2

theorem heading?_of_mem_body {under : Heading} {ls : List Line} {l : Line}
    (mem : l ∈ ls.takeWhile (!SectionEnd.anyHeading.endsAt under ·)) : l.heading? = none := by
  have hkept := List.mem_takeWhile_imp mem
  cases hheading : l.heading? with
  | none => rfl
  | some h => simp [SectionEnd.endsAt, hheading] at hkept

/-- The headings behind the one of a section are those behind its body. -/
theorem filterMap_heading?_dropWhile (under : Heading) (ls : List Line) :
    (ls.dropWhile (!SectionEnd.anyHeading.endsAt under ·)).filterMap Line.heading? =
      ls.filterMap Line.heading? := by
  have hbody : (ls.takeWhile (!SectionEnd.anyHeading.endsAt under ·)).filterMap Line.heading? = [] :=
    List.filterMap_eq_nil_iff.mpr fun _ => heading?_of_mem_body
  have hsplit : ls = ls.takeWhile (!SectionEnd.anyHeading.endsAt under ·) ++
      ls.dropWhile (!SectionEnd.anyHeading.endsAt under ·) :=
    List.takeWhile_append_dropWhile.symm
  conv => rhs; rw [hsplit, List.filterMap_append, hbody, List.nil_append]

theorem exists_heading_of_dropWhile {under : Heading} {ls rest : List Line} {r : Line}
    (drop : ls.dropWhile (!SectionEnd.anyHeading.endsAt under ·) = r :: rest) :
    ∃ h, r.heading? = some h := by
  have hends := head?_dropWhile_false (congrArg List.head? drop)
  cases hheading : r.heading? with
  | none => simp [SectionEnd.endsAt, hheading] at hends
  | some h => exact ⟨h, rfl⟩

/-- The cut of the lines at the heading of a section, and the headings behind it. -/
theorem exists_cut {text title : List Char} {above below : List Heading} {h : Heading}
    (all : headingsOf (lines text) = above ++ h :: below)
    (none : ∀ h' ∈ above, ¬ h'.Titled title) (titled : h.Titled title) :
    ∃ front l behind, (Outline.ofText text).lines = front ++ l :: behind ∧ l.heading? = some h ∧
      below = behind.filterMap Line.heading? ∧
      (Outline.ofText text).sectionTitled? title .anyHeading =
        some ⟨h, behind.takeWhile (!SectionEnd.anyHeading.endsAt h ·)⟩ := by
  rw [← headings_ofText] at all
  cases hfound : (Outline.ofText text).sectionTitled? title .anyHeading with
  | none => exact absurd titled (sectionTitled?_eq_none hfound h (by simp [all]))
  | some s =>
    obtain ⟨front, l, behind, hlines, hfront, hl, hheading, hbody⟩ := sectionTitled?_eq_some hfound
    -- the headings are cut at the same place, because both cuts are at the first one of the title
    rw [Outline.headings, hlines, List.filterMap_append, List.filterMap_cons_some hheading] at all
    obtain ⟨rfl, rfl⟩ := Plan.split_unique none titled (not_titled_of_lines hfront)
      (titled_of_isTitled hl hheading) all.symm
    exact ⟨front, l, behind, hlines, hheading, rfl, congrArg some (congrArg (Section.mk _) hbody)⟩

/-- A section ends at an even number of fences: at a heading, or with the document. The second needs
that the document leaves no fence open. -/
theorem stop_of_rest {text : List Char} {before rest : List Line}
    (even : (fencesOf (lines text)).length % 2 = 0)
    (split : (Outline.ofText text).lines = before ++ rest)
    (ends : ∀ r, rest.head? = some r → ∃ h, r.heading? = some h) :
    (((rest.filterMap Line.heading?).head?.map (·.line)).getD (lines text).length = before.length) ∧
      ((lines text).take before.length).countP isFence % 2 = 0 := by
  cases rest with
  | nil =>
    have hlength : (lines text).length = before.length := by
      rw [← map_text_ofText, split, List.append_nil, List.length_map]
    refine ⟨hlength, ?_⟩
    rw [← hlength, List.take_length, ← length_fencesFrom 0]
    exact even
  | cons r rest =>
    obtain ⟨h, hheading⟩ := ends r rfl
    rw [List.filterMap_cons_some hheading, List.head?_cons, Option.map_some, Option.getD_some,
      line_of_heading? hheading, number_of_split split]
    exact ⟨rfl, (even_above_heading split hheading).2⟩

/-- A heading is no fence: up to it and including it the number of fences is even. -/
theorem even_through_heading {text : List Char} {front behind : List Line} {l : Line} {h : Heading}
    (split : (Outline.ofText text).lines = front ++ l :: behind) (heading : l.heading? = some h) :
    ((lines text).take (front.length + 1)).countP isFence % 2 = 0 := by
  obtain ⟨hfence, heven⟩ := even_above_heading split heading
  have hline : (lines text)[front.length]? = some l.text := by
    rw [← map_text_ofText, split]
    simp
  rw [List.take_add_one, hline, Option.toList_some, List.countP_append, List.countP_singleton, hfence]
  simpa using heven

/-- The body of a section that ends at any heading is a stretch with an even number of fences. -/
theorem exists_excerpt {text title : List Char} {start stop : Nat}
    (even : (fencesOf (lines text)).length % 2 = 0)
    (within : SectionLines (lines text) title start stop) :
    ∃ s ls, (Outline.ofText text).sectionTitled? title .anyHeading = some s ∧
      s.body = stretch (lines text) start ls ∧ Excerpt (lines text) start stop ls := by
  obtain ⟨above, h, below, hall, hnone, htitled, rfl, rfl⟩ := within
  obtain ⟨front, l, behind, hlines, hheading, rfl, hfound⟩ := exists_cut hall hnone htitled
  have hstart : h.line + 1 = (front ++ [l]).length := by
    rw [line_of_heading? hheading, number_of_split hlines, List.length_append, List.length_singleton]
  have hcut : (Outline.ofText text).lines = front ++ [l] ++
      behind.takeWhile (!SectionEnd.anyHeading.endsAt h ·) ++
      behind.dropWhile (!SectionEnd.anyHeading.endsAt h ·) := by
    rw [List.append_assoc, List.takeWhile_append_dropWhile, hlines, List.append_assoc,
      List.singleton_append]
  obtain ⟨hstop, hevenBelow⟩ := stop_of_rest even hcut fun r hr => by
    obtain ⟨rest, hrest⟩ := List.head?_eq_some_iff.mp hr
    exact exists_heading_of_dropWhile hrest
  have hevenAbove : ((lines text).take (front ++ [l]).length).countP isFence % 2 = 0 := by
    rw [List.length_append, List.length_singleton]
    exact even_through_heading hlines hheading
  have htexts : lines text = (front ++ [l]).map (·.text) ++
      (behind.takeWhile (!SectionEnd.anyHeading.endsAt h ·)).map (·.text) ++
      (behind.dropWhile (!SectionEnd.anyHeading.endsAt h ·)).map (·.text) := by
    rw [← map_text_ofText, hcut, List.map_append, List.map_append]
  rw [← filterMap_heading?_dropWhile h behind, hstop, hstart]
  refine ⟨_, _, hfound, stretch_of_split hcut, ?_⟩
  have hexcerpt := Excerpt.of_split htexts
  simp only [List.length_map, ← List.length_append] at hexcerpt
  exact hexcerpt hevenAbove hevenBelow

/-! ## Pairs in a section -/

/-- The pairs of the document are those above the stretch, those of the stretch itself, and those below.
None of them reaches over an end. -/
theorem Excerpt.pairUp_fencesOf {whole ls : List (List Char)} {start stop : Nat}
    (excerpt : Excerpt whole start stop ls) : ∃ above below,
      pairUp (fencesOf whole) = above ++ pairUp (fencesFrom start ls) ++ below ∧
      (∀ p ∈ above, p.1 < start) ∧ ∀ p ∈ below, stop ≤ p.1 := by
  have hsplit : fencesOf whole = fencesFrom 0 (whole.take start) ++
      (fencesFrom start ls ++ fencesFrom stop (whole.drop stop)) := by
    have hstart : fencesOf whole = fencesFrom 0 (whole.take start) ++
        fencesFrom (0 + start) (whole.drop start) := fencesFrom_take_drop 0 start whole
    rw [hstart, Nat.zero_add, excerpt.cut, fencesFrom_append, ← excerpt.length]
  refine ⟨pairUp (fencesFrom 0 (whole.take start)), pairUp (fencesFrom stop (whole.drop stop)), ?_, ?_, ?_⟩
  · rw [hsplit, pairUp_append, pairUp_append, ← List.append_assoc]
    · rw [length_fencesFrom]
      exact excerpt.evenWithin
    · rw [length_fencesFrom]
      exact excerpt.evenAbove
  · intro p hp
    have hlt := (lt_of_mem_fencesFrom (mem_of_mem_pairUp hp).1).2
    rw [List.length_take] at hlt
    omega
  · intro p hp
    exact (lt_of_mem_fencesFrom (mem_of_mem_pairUp hp).1).1

/-- The pairs that open in a section are those of its own fences, so they can be told by where they
open. -/
theorem Excerpt.filter_pairUp {whole ls : List (List Char)} {start stop : Nat}
    (excerpt : Excerpt whole start stop ls) :
    (pairUp (fencesOf whole)).filter (fun p => start ≤ p.1 ∧ p.1 < stop) =
      pairUp (fencesFrom start ls) := by
  -- no pair crosses either end of the section, so the filter takes a middle piece whole
  obtain ⟨above, below, hsplit, habove, hbelow⟩ := excerpt.pairUp_fencesOf
  have hfirst : above.filter (fun p => start ≤ p.1 ∧ p.1 < stop) = [] := by
    refine List.filter_eq_nil_iff.mpr fun p hp => ?_
    have := habove p hp
    simp only [decide_eq_true_eq]
    omega
  have hlast : below.filter (fun p => start ≤ p.1 ∧ p.1 < stop) = [] := by
    refine List.filter_eq_nil_iff.mpr fun p hp => ?_
    have := hbelow p hp
    simp only [decide_eq_true_eq]
    omega
  have hwithin : (pairUp (fencesFrom start ls)).filter (fun p => start ≤ p.1 ∧ p.1 < stop) =
      pairUp (fencesFrom start ls) := by
    refine List.filter_eq_self.mpr fun p hp => ?_
    have hbounds := lt_of_mem_fencesFrom (mem_of_mem_pairUp hp).1
    rw [← excerpt.length] at hbounds
    exact decide_eq_true hbounds
  rw [hsplit, List.filter_append, List.filter_append, hfirst, hlast, hwithin, List.nil_append,
    List.append_nil]

theorem Excerpt.codeBlocks {whole ls : List (List Char)} {start stop : Nat}
    (excerpt : Excerpt whole start stop ls) :
    codeBlocks (stretch whole start ls) = (pairUp (fencesFrom start ls)).map (blockAt whole) := by
  refine codeBlocksFrom_stretch (o := none) excerpt.cut (by simp) ?_
  rw [Option.toList_none, List.nil_append, length_fencesFrom]
  exact excerpt.evenWithin

/-! ## The word behind a fence -/

/-- What stands behind the three quotes of a fence. -/
def infoOf (fence : List Char) : List Char := (trimStart fence).drop fenceMarker.length

/-- Blanks at the end of a fence are of no account. -/
theorem fenceInfo_of_fence {l : List Char} (fence : isFence l = true) :
    fenceInfo l = lower (trim (infoOf l)) := by
  obtain ⟨info, hinfo⟩ := List.isPrefixOf_iff_prefix.mp fence
  have hmarked : fenceMarker ++ info = ['\x60', '\x60'] ++ '\x60' :: info := rfl
  have hquote : isBlank '\x60' = false := by decide
  have htrim : trim l = ['\x60', '\x60'] ++ '\x60' :: trimEnd info := by
    rw [trim, ← hinfo, hmarked, trimEnd_append_cons hquote]
  have hdrop : (trim l).drop fenceMarker.length = trimEnd info := by
    rw [htrim]
    rfl
  rw [fenceInfo, infoOf, hdrop, ← hinfo, List.drop_left, trim_trimEnd]

end Markdown

namespace Plan

open Markdown

/-! ## Commands that prepare a run -/

/-- The command between two fences: what they enclose, without blanks around, if there is anything and
the first of them stands for a shell. The word of the closing fence is of no account. -/
def commandAt? (ls : List (List Char)) (p : Nat × Nat) : Option String :=
  let command := trim (joinLines (linesBetween ls p.1 p.2))
  if lower (trim (infoOf (ls.getD p.1 []))) ∈ ["", "bash", "sh", "shell"].map String.toList ∧
      command ≠ [] then some (String.ofList command)
  else none

theorem readContext_of_blocks {whole : List (List Char)} {body : List Line} {ps : List (Nat × Nat)}
    (blocks : codeBlocks body = ps.map (blockAt whole))
    (fences : ∀ p ∈ ps, isFence (whole.getD p.1 []) = true) :
    readContext body = ps.filterMap (commandAt? whole) := by
  rw [readContext, blocks, List.filterMap_map]
  refine List.filterMap_congr fun p hp => ?_
  rw [Function.comp_apply, commandAt?, ← fenceInfo_of_fence (fences p hp)]
  simp only [blockAt, Bool.and_eq_true, List.contains_iff_mem, bne_iff_ne]
  rfl

/-- What a pair of fences encloses is verbatim. -/
theorem verbatim_between {text : List Char} {a b : Nat} (pair : (a, b) ∈ pairUp (fencesOf (lines text)))
    {l : Line} (mem : l ∈ (Outline.ofText text).lines) (above : a < l.number) (below : l.number < b) :
    l.kind = .verbatim := by
  rw [lines_ofText] at mem
  obtain ⟨⟨t, n⟩, hmem, rfl⟩ := List.mem_map.mp mem
  have hline : (lines text)[n]? = some t := List.mem_zipIdx_iff_getElem?.mp hmem
  exact kindAt_of_enclosed (between_fences pair above below hline)

/-- The commands that prepare a run are those of the pairs of fences that open in their section, and no
such pair reaches beyond it or encloses what is not verbatim. Of the document it is only asked that no
fence is left open. -/
theorem context_of_pairs {text : String} {start stop : Nat}
    (even : (fencesOf (lines text.toList)).length % 2 = 0)
    (within : SectionLines (lines text.toList) "Context Loading".toList start stop) :
    readContext (sectionBody (Outline.ofText text.toList) "Context Loading") =
        ((pairUp (fencesOf (lines text.toList))).filter fun p => start ≤ p.1 ∧ p.1 < stop).filterMap
          (commandAt? (lines text.toList)) ∧
      (∀ p, parse text = .ok p →
        p.context = readContext (sectionBody (Outline.ofText text.toList) "Context Loading")) ∧
      ∀ a b, (a, b) ∈ pairUp (fencesOf (lines text.toList)) → start ≤ a → a < stop → b < stop ∧
        ∀ l ∈ (Outline.ofText text.toList).lines, a < l.number → l.number < b →
          l.kind = .verbatim := by
  obtain ⟨s, ls, hfound, hbody, hexcerpt⟩ := exists_excerpt even within
  have hsection : sectionBody (Outline.ofText text.toList) "Context Loading" =
      stretch (lines text.toList) start ls := by
    rw [sectionBody, hfound]
    exact hbody
  have hfilter := hexcerpt.filter_pairUp
  refine ⟨?_, ?_, ?_⟩
  · rw [hsection, hfilter]
    refine readContext_of_blocks hexcerpt.codeBlocks fun p hp => ?_
    rw [← hfilter] at hp
    -- each block is asked by the line its pair opens on, which is a fence of the whole text
    have hmem : p.1 ∈ fencesFrom 0 (lines text.toList) :=
      (mem_of_mem_pairUp (List.mem_filter.mp hp).1).1
    obtain ⟨-, l, hl, hfence⟩ := mem_fencesFrom.mp hmem
    rw [List.getD_eq_getElem?_getD, ← Nat.sub_zero p.1, hl]
    exact hfence
  · intro p hp
    obtain ⟨-, groups, -, -, -, rfl⟩ := parse_eq_ok_iff.mp hp
    rfl
  · intro a b hpair hstart hstop
    have hmem : (a, b) ∈ pairUp (fencesFrom start ls) := by
      rw [← hfilter]
      exact List.mem_filter.mpr ⟨hpair, decide_eq_true ⟨hstart, hstop⟩⟩
    -- the pair is one of the body's own, so its closing fence lies in the body as well
    have hlt := (lt_of_mem_fencesFrom (mem_of_mem_pairUp hmem).2).2
    rw [← hexcerpt.length] at hlt
    exact ⟨hlt, fun l hl => verbatim_between hpair hl⟩

/-- A document with verbatim text of another language, a heading in a command and a fence behind the
section. -/
def preparation : String :=
  "## Context Loading\n```python\nprint(1)\n```\n``` BASH\ncat a.md\n# no heading\n```\n## Tasks\n```sh\nls\n```\n"

theorem context_of_preparation :
    (fencesOf (lines preparation.toList)).length % 2 = 0 ∧
      SectionLines (lines preparation.toList) "Context Loading".toList 1 8 ∧
      readContext (sectionBody (Outline.ofText preparation.toList) "Context Loading") =
        ["cat a.md\n# no heading"] := by
  have heven : (fencesOf (lines preparation.toList)).length % 2 = 0 := by decide
  have hwithin : SectionLines (lines preparation.toList) "Context Loading".toList 1 8 := by
    refine ⟨[], ⟨2, "Context Loading".toList, 0⟩, [⟨2, "Tasks".toList, 8⟩], ?_, ?_, ?_, rfl, rfl⟩
    · decide
    · simp
    · decide
  obtain ⟨hcontext, -, -⟩ := context_of_pairs heven hwithin
  refine ⟨heven, hwithin, ?_⟩
  rw [hcontext]
  decide

end Plan

end Runbook
