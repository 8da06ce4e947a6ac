import Runbook.Plan.Extend
import Runbook.Proofs.PlanMarks
import Runbook.Proofs.RoundTrip

/-!
# Lines put between the lines of a text

A block that is put between two lines of a text stands there as it is, behind a blank line if need
be, and no other line is changed, but that a carriage return at the end of the last one above is lost
when that line had no end of its own (`lines_insertAt`). No reader of tasks misses it
(`EndEdit.fence`, `EndEdit.heading`, `EndEdit.trim`).

The outline goes through the lines once and keeps in mind whether a fence is open (`openBehind`), so
it can be made in parts (`scan_append`). Where no fence is open, the lines above a block are outlined
as they were, and the block as it would be on its own (`outline_insertAt`). No fence is open
where a section stops (`SplitAt.outside`), so a section of tasks goes on with a block that is put there
(`taskSection?_insertAt`).
-/

set_option autoImplicit false

namespace Runbook

open Text Markdown

/-! ## Parts of a text -/

namespace Text

theorem Chunked.take {ks : List (List Char)} (h : Chunked ks) (k : Nat) : Chunked (ks.take k) := by
  induction h generalizing k with
  | nil => simpa using Chunked.nil
  | last noFeed some =>
    cases k with
    | zero => exact .nil
    | succ k => simpa using Chunked.last noFeed some
  | cons noFeed rest ih =>
    cases k with
    | zero => exact .nil
    | succ k => exact .cons noFeed (ih k)

theorem Chunked.drop {ks : List (List Char)} (h : Chunked ks) (k : Nat) : Chunked (ks.drop k) := by
  induction h generalizing k with
  | nil => simpa using Chunked.nil
  | last noFeed some =>
    cases k with
    | zero => exact .last noFeed some
    | succ k => simpa using Chunked.nil
  | cons noFeed rest ih =>
    cases k with
    | zero => exact .cons noFeed rest
    | succ k => exact ih k

theorem lines_take (cs : List Char) (k : Nat) :
    lines ((chunks cs).take k).flatten = (lines cs).take k := by
  rw [lines, ((chunked_chunks cs).take k).chunks_flatten, lines, List.map_take]

theorem lines_drop (cs : List Char) (k : Nat) :
    lines ((chunks cs).drop k).flatten = (lines cs).drop k := by
  rw [lines, ((chunked_chunks cs).drop k).chunks_flatten, lines, List.map_drop]

/-- A text whose last line is ended is cut like the part of a text that it is. -/
theorem chunks_append_of_ended {front : List Char} (ended : ∀ c, front.getLast? = some c → c = '\n')
    (behind : List Char) : chunks (front ++ behind) = chunks front ++ chunks behind := by
  have hcut : ∀ ks, Chunked ks → (∀ c, ks.flatten.getLast? = some c → c = '\n') →
      chunks (ks.flatten ++ behind) = ks ++ chunks behind := by
    intro ks h
    induction h with
    | nil => exact fun _ => rfl
    | @last l noFeed some =>
      intro hended
      rw [List.flatten_singleton] at hended
      -- a chunk without a line feed ends with something else
      have hlast := hended _ (List.getLast?_eq_some_getLast some)
      exact absurd (hlast ▸ List.getLast_mem some) noFeed
    | @cons l ks noFeed rest ih =>
      intro hended
      have hrest : ∀ c, ks.flatten.getLast? = some c → c = '\n' := by
        intro c hc
        refine hended c ?_
        rw [List.flatten_cons, List.getLast?_append, hc]
        rfl
      rw [List.flatten_cons, List.append_assoc, List.append_assoc, List.singleton_append,
        chunks_append_feed noFeed, ih hrest]
      rfl
  have hfront := hcut _ (chunked_chunks front) (by rwa [flatten_chunks])
  rwa [flatten_chunks] at hfront

theorem lines_append_of_ended {front : List Char} (ended : ∀ c, front.getLast? = some c → c = '\n')
    (behind : List Char) : lines (front ++ behind) = lines front ++ lines behind := by
  rw [lines, chunks_append_of_ended ended, List.map_append]
  rfl

theorem lines_endLines_append {ls : List (List Char)} (h : ∀ l ∈ ls, Unbroken l)
    (behind : List Char) : lines (endLines ls ++ behind) = ls ++ lines behind := by
  induction ls with
  | nil => rfl
  | cons l ls ih =>
    obtain ⟨hl, hls⟩ := List.forall_mem_cons.mp h
    rw [endLines_cons, List.append_assoc, List.cons_append, hl.lines_append_feed, ih hls]
    rfl

/-! ## The last line of a part -/

/-- An edit that leaves a line as it is, or makes of it what is read when a line feed is put behind it.
It is what can happen to the last line above new ones: a carriage return at its end becomes part of the
line end. -/
def EndEdit (edit : Nat → List Char → List Char) : Prop :=
  ∀ n l, edit n l = l ∨ edit n l = readBack l

/-- When the last line of a text gets an end, no other line is changed. -/
theorem lines_concat_feed {cs : List Char} (some : cs ≠ []) (unended : cs.getLast? ≠ .some '\n') :
    ∃ edit, EndEdit edit ∧ lines (cs ++ ['\n']) = edited edit (lines cs) 0 := by
  have hcut : ∀ (ks : List (List Char)) (first : Nat), Chunked ks → ks.flatten ≠ [] →
      ks.flatten.getLast? ≠ .some '\n' → lines (ks.flatten ++ ['\n']) =
        edited (fun n l => if n + 1 = first + ks.length then readBack l else l)
          (ks.map withoutLineEnd) first := by
    intro ks first h
    induction h generalizing first with
    | nil => exact fun hsome => absurd rfl hsome
    | @last l noFeed _ =>
      -- the only chunk that is another one with a line feed behind it
      intro _ _
      have hlines : lines (l ++ ['\n']) = [readBack l] := lines_append_feed noFeed []
      rw [List.flatten_singleton, hlines]
      simp [edited, withoutLineEnd_of_no_feed noFeed]
    | @cons l ks noFeed rest ih =>
      intro _ hlast
      have hrest : ks.flatten ≠ [] := by
        intro hnil
        rw [List.flatten_cons, hnil, List.append_nil, List.getLast?_concat] at hlast
        exact hlast rfl
      rw [List.flatten_cons, List.getLast?_append_of_ne_nil _ hrest] at hlast
      have hks : ks ≠ [] := by
        rintro rfl
        exact hrest rfl
      have hsame : first + 1 ≠ first + (ks.length + 1) := by
        have hlength := List.length_pos_of_ne_nil hks
        omega
      rw [List.flatten_cons, List.append_assoc, List.append_assoc, List.singleton_append,
        lines_append_feed noFeed, ih (first + 1) hrest hlast]
      simp [edited, Nat.add_right_comm, Nat.add_assoc, hks]
  refine ⟨fun n l => if n + 1 = 0 + (chunks cs).length then readBack l else l, fun n l => ?_, ?_⟩
  · dsimp only
    split
    · exact .inr rfl
    · exact .inl rfl
  · have hwhole := hcut (chunks cs) 0 (chunked_chunks cs)
    rw [flatten_chunks] at hwhole
    exact hwhole some unended

end Text

namespace Markdown

theorem isFence_append_return (l : List Char) : isFence (l ++ ['\r']) = isFence l := by
  by_cases hblank : Blank l
  · have hwhole : Blank (l ++ ['\r']) := hblank.append (by decide)
    rw [isFence, trimStart_eq_nil_iff.mpr hwhole, isFence, trimStart_eq_nil_iff.mpr hblank]
  · rw [isFence, trimStart_append_of_not_blank hblank, isFence]
    rcases trimStart l with _ | ⟨a, _ | ⟨b, _ | ⟨c, cs⟩⟩⟩ <;> simp [fenceMarker, List.isPrefixOf]

theorem parseHeading?_append_return (l : List Char) :
    parseHeading? (l ++ ['\r']) = parseHeading? l := by
  have htake : (l ++ ['\r']).takeWhile (· == '#') = l.takeWhile (· == '#') :=
    takeWhile_append_mark (by decide) l []
  have hdrop : (l ++ ['\r']).dropWhile (· == '#') = l.dropWhile (· == '#') ++ ['\r'] :=
    dropWhile_append_mark (by decide) l []
  have htrim : trim (l.dropWhile (· == '#') ++ ['\r']) = trim (l.dropWhile (· == '#')) :=
    trim_append_of_blank (by decide) _
  have hhead : (l.dropWhile (· == '#') ++ ['\r']).head?.all isBlank =
      (l.dropWhile (· == '#')).head?.all isBlank := by
    cases l.dropWhile (· == '#') with
    | nil => decide
    | cons => rfl
  rw [parseHeading?, parseHeading?, htake, hdrop, htrim, hhead]

end Markdown

namespace Text

section EndEdit

variable {edit : Nat → List Char → List Char} (ending : EndEdit edit) (n : Nat) {l : List Char}
  (oneLine : '\n' ∉ l)
include ending oneLine

theorem EndEdit.eq_or : edit n l = l ∨ l = edit n l ++ ['\r'] := by
  rcases ending n l with h | h
  · exact .inl h
  · rw [h]
    exact (append_readBack oneLine).imp Eq.symm id

theorem EndEdit.fence : isFence (edit n l) = isFence l := by
  rcases ending.eq_or n oneLine with h | h
  · rw [h]
  · exact ((congrArg isFence h).trans (isFence_append_return _)).symm

theorem EndEdit.heading : parseHeading? (edit n l) = parseHeading? l := by
  rcases ending.eq_or n oneLine with h | h
  · rw [h]
  · exact ((congrArg parseHeading? h).trans (parseHeading?_append_return _)).symm

theorem EndEdit.trim : trim (edit n l) = Text.trim l := by
  rcases ending.eq_or n oneLine with h | h
  · rw [h]
  · exact ((congrArg Text.trim h).trans (trim_append_of_blank (by decide) _)).symm

end EndEdit

end Text

/-! ## The lines with the block -/

namespace Plan

/-- Whatever follows the text, its lines stand there, and a blank one behind them if need be. -/
theorem lines_spaced (front : List Char) : ∃ edit blank, EndEdit edit ∧ (∀ l ∈ blank, l = []) ∧
    ∀ behind, lines (spaced front ++ behind) = edited edit (lines front) 0 ++ (blank ++ lines behind) := by
  by_cases hempty : front = []
  · subst hempty
    exact ⟨fun _ l => l, [], fun _ _ => .inl rfl, nofun, fun _ => rfl⟩
  · -- the last line is ended first, and only then is a blank line put behind it
    obtain ⟨edit, ended, hedit, hended, hlast, hlines⟩ : ∃ edit ended, EndEdit edit ∧
        ended = (if front.getLast? = some '\n' then front else front ++ ['\n']) ∧
        (∀ c, ended.getLast? = some c → c = '\n') ∧ lines ended = edited edit (lines front) 0 := by
      split
      · rename_i hlast
        refine ⟨fun _ l => l, front, fun _ _ => .inl rfl, rfl, fun c hc => ?_, (edited_id _ 0).symm⟩
        exact Option.some.inj (hc.symm.trans hlast)
      · rename_i hlast
        obtain ⟨edit, hedit, hlines⟩ := lines_concat_feed hempty hlast
        refine ⟨edit, _, hedit, rfl, fun c hc => ?_, hlines⟩
        rw [List.getLast?_concat] at hc
        exact (Option.some.inj hc).symm
    rw [spaced, if_neg hempty, ← hended]
    dsimp only
    split
    · refine ⟨edit, [], hedit, nofun, fun behind => ?_⟩
      rw [lines_append_of_ended hlast, hlines]
      rfl
    · refine ⟨edit, [[]], hedit, by simp, fun behind => ?_⟩
      rw [List.append_assoc, lines_append_of_ended hlast, hlines]
      rfl

/-- The lines of a text with a block put into it: those above, a blank one if need be, those of the
block, and those below. Everything that is said of the new text begins with this list. -/
theorem lines_insertAt (text : List Char) (k : Nat) {block : List (List Char)}
    (unbroken : ∀ l ∈ block, Unbroken l) : ∃ edit blank, EndEdit edit ∧ (∀ l ∈ blank, l = []) ∧
      lines (insertAt text k (endLines block)) =
        edited edit ((lines text).take k) 0 ++ (blank ++ block ++ (lines text).drop k) := by
  obtain ⟨edit, blank, hedit, hblank, hlines⟩ := lines_spaced ((chunks text).take k).flatten
  refine ⟨edit, blank, hedit, hblank, ?_⟩
  rw [insertAt, List.append_assoc, hlines, lines_endLines_append unbroken, lines_take, lines_drop,
    List.append_assoc]

end Plan

/-! ## The outline with the block -/

namespace Markdown

/-- Is a fence open behind some lines? It is the state that the scan hands from line to line, said
without the scan. -/
def openBehind : Bool → List (List Char) → Bool
  | inside, [] => inside
  | inside, l :: ls => openBehind (if isFence l then !inside else inside) ls

theorem openBehind_append (inside : Bool) (ls ls' : List (List Char)) :
    openBehind inside (ls ++ ls') = openBehind (openBehind inside ls) ls' := by
  induction ls generalizing inside with
  | nil => rfl
  | cons l ls ih => exact ih _

theorem openBehind_of_no_fence {ls : List (List Char)} (h : ∀ l ∈ ls, isFence l = false)
    (inside : Bool) : openBehind inside ls = inside := by
  induction ls with
  | nil => rfl
  | cons l ls ih =>
    obtain ⟨hl, hls⟩ := List.forall_mem_cons.mp h
    rw [openBehind, if_neg (by simp [hl]), ih hls]

theorem openBehind_edited {edit : Nat → List Char → List Char} {ls : List (List Char)}
    (fences : ∀ n, ∀ l ∈ ls, isFence (edit n l) = isFence l) (inside : Bool) (n : Nat) :
    openBehind inside (edited edit ls n) = openBehind inside ls := by
  induction ls generalizing inside n with
  | nil => rfl
  | cons l ls ih =>
    have hedited : edited edit (l :: ls) n = edit n l :: edited edit ls (n + 1) := rfl
    rw [hedited, openBehind, openBehind, fences n l List.mem_cons_self,
      ih fun m l hl => fences m l (List.mem_cons_of_mem _ hl)]

/-- The outline is made in parts, each begun in the state that the one before has left. -/
theorem scan_append (inside : Bool) (n : Nat) (ls ls' : List (List Char)) :
    scan inside n (ls ++ ls') =
      scan inside n ls ++ scan (openBehind inside ls) (n + ls.length) ls' := by
  induction ls generalizing inside n with
  | nil => rfl
  | cons l ls ih =>
    have hlength : n + (l :: ls).length = n + 1 + ls.length := by
      rw [List.length_cons]
      omega
    rw [List.cons_append, scan, scan, openBehind, hlength]
    cases isFence l with
    | true => simp only [if_true, ih, List.cons_append]
    | false => cases inside <;> simp [ih]

/-- The lines of the first part of an outline make up that part. -/
theorem scan_take {inside : Bool} {n : Nat} {ls : List (List Char)} {front back : List Line}
    (h : scan inside n ls = front ++ back) : scan inside n (ls.take front.length) = front ∧
      scan (openBehind inside (ls.take front.length)) (n + front.length) (ls.drop front.length) =
        back := by
  have hlength : (ls.take front.length).length = front.length := by
    have hls := congrArg List.length h
    rw [length_scan, List.length_append] at hls
    rw [List.length_take]
    omega
  have hparts := scan_append inside n (ls.take front.length) (ls.drop front.length)
  rw [List.take_append_drop, h, hlength] at hparts
  have hboth := List.append_inj hparts (by rw [length_scan, hlength])
  exact ⟨hboth.1.symm, hboth.2.symm⟩

theorem isSome_openAfter_scan (opened : Option Nat) (n : Nat) (ls : List (List Char)) :
    (Outline.openAfter opened (scan opened.isSome n ls)).isSome =
      openBehind opened.isSome ls := by
  induction ls generalizing opened n with
  | nil => rfl
  | cons l ls ih =>
    rw [scan, openBehind]
    by_cases hfence : isFence l = true
    · rw [if_pos hfence, if_pos hfence, Outline.openAfter, if_pos rfl]
      cases opened with
      | none => exact ih (some n) (n + 1)
      | some m => exact ih none (n + 1)
    · rw [if_neg hfence, if_neg hfence]
      cases opened with
      | none =>
        rw [if_neg (by simp), Outline.openAfter, if_neg (kindOutside_ne_fence l)]
        exact ih none (n + 1)
      | some m =>
        rw [if_pos (by simp), Outline.openAfter, if_neg (by simp)]
        exact ih (some m) (n + 1)

theorem closed_iff {text : List Char} :
    (Outline.ofText text).openFence? = none ↔ openBehind false (lines text) = false := by
  have hopen := isSome_openAfter_scan none 0 (lines text)
  rw [Option.isSome_none] at hopen
  rw [← hopen, Option.isSome_eq_false_iff, Option.isNone_iff_eq_none]
  rfl

/-- Where a heading is read, no fence is open. So the scan may be begun anew at a heading. -/
theorem openBehind_of_heading {inside : Bool} {n : Nat} {ls : List (List Char)} {l : Line}
    (head : (scan inside n ls).head? = some l) (heading : l.heading? ≠ none) : inside = false := by
  cases inside with
  | false => rfl
  | true =>
    cases ls with
    | nil => cases head
    | cons text ls =>
      rw [scan, if_pos rfl] at head
      split at head <;>
      · rw [List.head?_cons, Option.some.injEq] at head
        subst head
        exact absurd rfl heading

end Markdown

namespace Plan

variable {text : List Char} {k : Nat} {block : List (List Char)}
  (unbroken : ∀ l ∈ block, Unbroken l) (noFence : ∀ l ∈ block, isFence l = false)
include unbroken noFence

/-- A block without a fence leaves no fence open that was not open before. -/
theorem closed_insertAt :
    (Outline.ofText (insertAt text k (endLines block))).openFence? = none ↔
      (Outline.ofText text).openFence? = none := by
  obtain ⟨edit, blank, hedit, hblank, hlines⟩ := lines_insertAt text k unbroken
  have hfree : ∀ l ∈ blank ++ block, isFence l = false := by
    intro l hl
    rcases List.mem_append.mp hl with hl | hl
    · exact hblank l hl ▸ isFence_nil
    · exact noFence l hl
  have hfences : ∀ n, ∀ l ∈ (lines text).take k, isFence (edit n l) = isFence l := fun n l hl =>
    hedit.fence n (no_feed_of_mem_lines (List.mem_of_mem_take hl))
  rw [closed_iff, closed_iff, hlines, openBehind_append, openBehind_append,
    openBehind_of_no_fence hfree, openBehind_edited hfences, ← openBehind_append,
    List.take_append_drop]

/-- Where no fence is open, a block is outlined as it would be on its own, and what is above it as it
was. The lines below keep their kinds and get other numbers. -/
theorem outline_insertAt (outside : openBehind false ((lines text).take k) = false) :
    ∃ edit blank m n m', EndEdit edit ∧ (∀ l ∈ blank, l = []) ∧
      (Outline.ofText (insertAt text k (endLines block))).lines =
        (scan false 0 ((lines text).take k)).map (redrawn edit) ++
          (openLines m blank ++ (openLines n block ++ scan false m' ((lines text).drop k))) := by
  obtain ⟨edit, blank, hedit, hblank, hlines⟩ := lines_insertAt text k unbroken
  have hempty : ∀ l ∈ blank, isFence l = false := fun l hl => hblank l hl ▸ isFence_nil
  have hfences : ∀ n, ∀ l ∈ (lines text).take k, isFence (edit n l) = isFence l := fun n l hl =>
    hedit.fence n (no_feed_of_mem_lines (List.mem_of_mem_take hl))
  have hscan : scan false 0 (edited edit ((lines text).take k) 0) =
      (scan false 0 ((lines text).take k)).map (redrawn edit) := by
    refine scan_edited false 0 _ fun l hl => hfences l.number l.text ?_
    rw [← text_scan false 0 ((lines text).take k)]
    exact List.mem_map_of_mem hl
  refine ⟨edit, blank, ?m, ?n, ?m', hedit, hblank, ?lines⟩
  case lines =>
    rw [Outline.ofText, hlines, scan_append, hscan, openBehind_edited hfences, outside,
      List.append_assoc, scan_open hempty, scan_open noFence]

/-- A block at the end of a text that leaves no fence open is outlined behind all the rest. -/
theorem outline_insertAt_end (closed : (Outline.ofText text).openFence? = none) :
    ∃ edit blank m n, EndEdit edit ∧ (∀ l ∈ blank, l = []) ∧
      (Outline.ofText (insertAt text (Outline.ofText text).lines.length (endLines block))).lines =
        ((Outline.ofText text).lines.map (redrawn edit) ++ openLines m blank) ++ openLines n block := by
  have hlength : (Outline.ofText text).lines.length = (lines text).length := length_scan false 0 _
  have houtside : openBehind false ((lines text).take (lines text).length) = false := by
    rw [List.take_length]
    exact closed_iff.mp closed
  obtain ⟨edit, blank, m, n, m', hedit, hblank, hlines⟩ := outline_insertAt unbroken noFence houtside
  rw [List.drop_length, List.take_length, scan, List.append_nil, ← List.append_assoc] at hlines
  rw [hlength]
  exact ⟨edit, blank, m, n, hedit, hblank, hlines⟩

end Plan

/-! ## Sections with the block -/

namespace Plan

section EndEdit

variable {edit : Nat → List Char → List Char} (ending : EndEdit edit) {text : String} {l : Line}
  (mem : l ∈ (Outline.ofText text.toList).lines)
include ending mem

theorem heading?_of_ending : (redrawn edit l).heading? = l.heading? :=
  heading?_redrawn mem fun _ => ending.heading l.number (sound_ofText _ l mem).oneLine

theorem trim_of_ending : trim (redrawn edit l).text = trim l.text := by
  rw [text_redrawn, ending.trim l.number (sound_ofText _ l mem).oneLine]

end EndEdit

end Plan

namespace Markdown

/-- What a line ends does not depend on its number, so the heading that ends a section ends it wherever
it is moved to. -/
theorem endsAt_head_scan (ends : SectionEnd) (under : Heading) (inside : Bool) (m n : Nat)
    (ls : List (List Char)) : (scan inside m ls).head?.map (ends.endsAt under) =
      (scan inside n ls).head?.map (ends.endsAt under) := by
  have hnumber : ∀ text kind, ends.endsAt under ⟨m, text, kind⟩ = ends.endsAt under ⟨n, text, kind⟩ := by
    intro text kind
    refine endsAt_of_level ?_ ends under
    cases kind <;> rfl
  cases ls with
  | nil => rfl
  | cons l ls =>
    rw [scan, scan]
    split
    · exact congrArg some (hnumber _ _)
    · split <;> exact congrArg some (hnumber _ _)

namespace SplitAt

variable {text title : List Char} {ends : SectionEnd} {s : Section} {above behind : List Line}
  {l : Line} (split : SplitAt text title ends s above l behind)
include split

theorem scan_above : scan false 0 ((Text.lines text).take s.stop) = above ++ l :: s.body := by
  rw [split.stop]
  exact (scan_take split.lines).1

/-- If the text leaves no fence open, none is open where a section stops: at a heading, or at the end.
-/
theorem outside (closed : (Outline.ofText text).openFence? = none) :
    openBehind false ((Text.lines text).take s.stop) = false := by
  have hback := (scan_take split.lines).2
  rw [← split.stop] at hback
  cases hbehind : behind with
  | nil =>
    -- the section stops where the text does
    rw [hbehind] at hback
    have hlength := congrArg List.length hback
    rw [length_scan, List.length_nil, List.length_eq_zero_iff, List.drop_eq_nil_iff] at hlength
    rw [List.take_of_length_le hlength]
    exact closed_iff.mp closed
  | cons l' behind =>
    -- what ends a section is a heading, and between fences there is none
    refine openBehind_of_heading (l := l') (by rw [hback, hbehind, List.head?_cons]) fun hnone => ?_
    have hends := split.behind l' (by rw [hbehind, List.head?_cons])
    rw [SectionEnd.endsAt, hnone] at hends
    cases hends

theorem endsAt_behind (closed : (Outline.ofText text).openFence? = none) (n : Nat) :
    ∀ l', (scan false n ((Text.lines text).drop s.stop)).head? = some l' →
      ends.endsAt s.heading l' = true := by
  intro l' hl'
  have hback := (scan_take split.lines).2
  rw [← split.stop, split.outside closed] at hback
  have hends := endsAt_head_scan ends s.heading false n (0 + s.stop) ((Text.lines text).drop s.stop)
  rw [hl', hback, Option.map_some] at hends
  obtain ⟨l₀, hl₀, hends⟩ := Option.map_eq_some_iff.mp hends.symm
  rw [← hends, split.behind l₀ hl₀]

end SplitAt

end Markdown

namespace Plan

section SplitAt

variable {text : String} {title : List Char} {s : Section} {above behind : List Line} {l : Line}
  (split : SplitAt text.toList title .sameLevel s above l behind)
  {edit : Nat → List Char → List Char} (ending : EndEdit edit)
include split ending

theorem heading?_of_splitAt : ∀ l' ∈ above ++ l :: s.body, (redrawn edit l').heading? = l'.heading? :=
  fun _ mem => heading?_of_ending ending (split.lines ▸ List.mem_append_left _ mem)

theorem untitled_of_splitAt : ∀ l' ∈ above.map (redrawn edit), Outline.isTitled title l' = false := by
  intro l' hl'
  obtain ⟨l₀, hl₀, rfl⟩ := List.mem_map.mp hl'
  rw [Outline.isTitled, heading?_of_splitAt split ending l₀ (List.mem_append_left _ hl₀)]
  exact split.first l₀ hl₀

/-- Neither the body of a section nor lines below its level end it. -/
theorem endsAt_of_splitAt {blank block : List (List Char)} (empty : ∀ l ∈ blank, l = [])
    (written : ∀ l ∈ block, Written (s.heading.level + 1) l) (m n : Nat) :
    ∀ l' ∈ s.body.map (redrawn edit) ++ (openLines m blank ++ openLines n block),
      (!SectionEnd.sameLevel.endsAt s.heading l') = true := by
  have hopen : ∀ k, ∀ ls : List (List Char), (∀ l ∈ ls, Written (s.heading.level + 1) l) →
      ∀ l' ∈ openLines k ls, SectionEnd.sameLevel.endsAt s.heading l' = false := by
    intro k ls hls l' hl'
    obtain ⟨k, text', htext, rfl⟩ := exists_of_mem_openLines hl'
    exact endsAt_openLine (hls text' htext) (Nat.lt_succ_self _) k
  intro l' hl'
  rw [Bool.not_eq_true']
  rcases List.mem_append.mp hl' with hl' | hl'
  · obtain ⟨l₀, hl₀, rfl⟩ := List.mem_map.mp hl'
    have hsame := heading?_of_splitAt split ending l₀ (by simp [hl₀])
    rw [endsAt_of_level (congrArg (Option.map (·.level)) hsame)]
    exact split.body l₀ hl₀
  · rcases List.mem_append.mp hl' with hl' | hl'
    · exact hopen m blank (fun l hl => empty l hl ▸ RowLine.nil.written _) l' hl'
    · exact hopen n block written l' hl'

end SplitAt

/-- A section of tasks goes on with the lines that are put behind it, if they have no heading to end it.
It is still the first of its title, since nothing above has become a heading. -/
theorem taskSection?_insertAt {text : String} {s : Section} {block : List (List Char)}
    (closed : (Outline.ofText text.toList).openFence? = none)
    (found : taskSection? (Outline.ofText text.toList) = some s)
    (written : ∀ l ∈ block, Written (s.heading.level + 1) l) :
    ∃ edit blank m n, EndEdit edit ∧ (∀ l ∈ blank, l = []) ∧
      taskSection? (Outline.ofText (insertAt text.toList s.stop (endLines block))) =
        some ⟨s.heading, s.body.map (redrawn edit) ++ (openLines m blank ++ openLines n block)⟩ := by
  obtain ⟨above, l, behind, hsplit⟩ := exists_splitAt found
  obtain ⟨edit, blank, m, n, m', hedit, hblank, hlines⟩ :=
    outline_insertAt (fun l hl => (written l hl).toUnbroken) (fun l hl => (written l hl).noFence)
      (hsplit.outside closed)
  have hheading : (redrawn edit l).heading? = some s.heading := by
    rw [heading?_of_splitAt hsplit hedit l (by simp), hsplit.heading]
  have hbehind : ∀ l', (scan false m' ((lines text.toList).drop s.stop)).head? = some l' →
      (!SectionEnd.sameLevel.endsAt s.heading l') = false := by
    intro l' hl'
    rw [hsplit.endsAt_behind closed m' l' hl']
    rfl
  rw [hsplit.scan_above, List.map_append, List.map_cons, List.append_assoc, List.cons_append]
    at hlines
  refine ⟨edit, blank, m, n, hedit, hblank, ?_⟩
  rw [taskSection?, sectionTitled?_of_split hlines (untitled_of_splitAt hsplit hedit) hheading
      hsplit.titled, ← List.append_assoc, ← List.append_assoc, List.append_assoc (List.map _ s.body),
    takeWhile_append_stop (endsAt_of_splitAt hsplit hedit hblank written m n) hbehind]

end Plan

end Runbook
