import Runbook.Proofs.TrimmedText
import Runbook.Text.Split

/-!
# Chunks and the lines in them

Every chunk of a text but the last ends with its only line feed (`Chunked`), and any list of that
form is the list of chunks of the text it makes up (`Chunked.chunks_flatten`). So a writer that
changes chunks one by one, and leaves their ends alone, changes the lines one by one
(`lines_edited`); and lines that are written with a line feed behind each are read back
(`lines_endLines`).
-/

set_option autoImplicit false

namespace Runbook.Text

/-! ## Chunks -/

/-- Texts that end with their only line feed each, but for the last one, which may do without as long as
it is not empty. These are exactly the lists that a text can be cut into. -/
inductive Chunked : List (List Char) → Prop
  | nil : Chunked []
  | last {l : List Char} (noFeed : '\n' ∉ l) (some : l ≠ []) : Chunked [l]
  | cons {l : List Char} {ks : List (List Char)} (noFeed : '\n' ∉ l) (rest : Chunked ks) :
    Chunked ((l ++ ['\n']) :: ks)

theorem chunks_append_feed {l : List Char} (noFeed : '\n' ∉ l) (rest : List Char) :
    chunks (l ++ '\n' :: rest) = (l ++ ['\n']) :: chunks rest := by
  induction l with
  | nil => simp [chunks]
  | cons c l ih =>
    rw [List.mem_cons, not_or] at noFeed
    rw [List.cons_append, chunks, if_neg (Ne.symm noFeed.1), ih noFeed.2]
    rfl

theorem chunks_of_no_feed {l : List Char} (noFeed : '\n' ∉ l) (some : l ≠ []) :
    chunks l = [l] := by
  induction l with
  | nil => exact absurd rfl some
  | cons c l ih =>
    rw [List.mem_cons, not_or] at noFeed
    rw [chunks, if_neg (Ne.symm noFeed.1)]
    cases l with
    | nil => rfl
    | cons d l => rw [ih noFeed.2 (List.cons_ne_nil _ _)]

/-- Cutting a text gives a list of this form, which is what lets statements about chunks go by induction
on it. -/
theorem chunked_chunks (cs : List Char) : Chunked (chunks cs) := by
  induction cs with
  | nil => exact .nil
  | cons c cs ih =>
    rw [chunks]
    split
    · rename_i hfeed
      exact hfeed ▸ @Chunked.cons [] _ (by simp) ih
    · rename_i hfeed
      generalize chunks cs = ks at ih
      cases ih with
      | nil => exact .last (by simpa using Ne.symm hfeed) (List.cons_ne_nil _ _)
      | last noFeed some =>
        exact .last (by simpa using ⟨Ne.symm hfeed, noFeed⟩) (List.cons_ne_nil _ _)
      | @cons l ks noFeed rest =>
        exact @Chunked.cons (c :: l) ks (by simpa using ⟨Ne.symm hfeed, noFeed⟩) rest

/-- A list of this form is the one that its text is cut into again. So whoever changes chunks without
changing the form knows the chunks of the new text. -/
theorem Chunked.chunks_flatten {ks : List (List Char)} (h : Chunked ks) :
    chunks ks.flatten = ks := by
  induction h with
  | nil => rfl
  | last noFeed some =>
    rw [List.flatten_singleton]
    exact chunks_of_no_feed noFeed some
  | cons noFeed rest ih =>
    rw [List.flatten_cons, List.append_assoc, List.singleton_append, chunks_append_feed noFeed, ih]

/-! ## The line in a chunk -/

theorem withoutLineEnd_of_no_feed {l : List Char} (noFeed : '\n' ∉ l) : withoutLineEnd l = l := by
  fun_induction withoutLineEnd l with
  | case1 => rfl
  | case2 => simp at noFeed
  | case3 => simp at noFeed
  | case4 c cs _ _ ih => rw [ih fun h => noFeed (List.mem_cons_of_mem _ h)]

/-- A carriage return before the line feed belongs to the end and not to the line. -/
theorem withoutLineEnd_return_feed {l : List Char} (noFeed : '\n' ∉ l) :
    withoutLineEnd (l ++ ['\r', '\n']) = l := by
  induction l with
  | nil => rfl
  | cons c l ih =>
    rw [List.mem_cons, not_or] at noFeed
    rw [List.cons_append, withoutLineEnd, ih noFeed.2]
    · intro hc _
      exact noFeed.1 hc.symm
    · intro _ h
      cases l <;> simp at h

/-- A line keeps its last character unless that is a carriage return, which would be taken for part of
the end. -/
theorem withoutLineEnd_feed {l : List Char} (noFeed : '\n' ∉ l)
    (noReturn : l.getLast? ≠ some '\r') : withoutLineEnd (l ++ ['\n']) = l := by
  induction l with
  | nil => rfl
  | cons c l ih =>
    rw [List.mem_cons, not_or] at noFeed
    cases l with
    | nil =>
      rw [List.getLast?_singleton, ne_eq, Option.some.injEq] at noReturn
      rw [List.cons_append, List.nil_append, withoutLineEnd]
      · rfl
      · simp
      · intro hc _
        exact noReturn hc
    | cons d l =>
      rw [List.getLast?_cons_cons] at noReturn
      rw [List.cons_append, withoutLineEnd, ih noFeed.2 noReturn]
      · intro hc _
        exact noFeed.1 hc.symm
      · intro _ h
        cases l <;> simp at h

/-- A chunk is its line with an end: a line feed, with or without a carriage return before it, or
nothing. Of a line that ends with a carriage return the plain line feed is no end, which makes the split
unique. -/
inductive LineEnd : List Char → List Char → Prop
  | feed {l : List Char} (noReturn : l.getLast? ≠ some '\r') : LineEnd l ['\n']
  | returnFeed {l : List Char} : LineEnd l ['\r', '\n']
  | none {l : List Char} (some : l ≠ []) : LineEnd l []

/-- Every chunk is a line with an end in one of these ways. -/
theorem exists_lineEnd {l : List Char} (noFeed : '\n' ∉ l) :
    ∃ line e, l ++ ['\n'] = line ++ e ∧ '\n' ∉ line ∧ (e = ['\n'] ∨ e = ['\r', '\n']) ∧
      LineEnd line e := by
  by_cases h : l.getLast? = some '\r'
  · obtain ⟨line, rfl⟩ := List.getLast?_eq_some_iff.mp h
    exact ⟨line, ['\r', '\n'], by simp, fun hm => noFeed (List.mem_append_left _ hm), .inr rfl,
      .returnFeed⟩
  · exact ⟨l, ['\n'], rfl, noFeed, .inl rfl, .feed h⟩

theorem LineEnd.withoutLineEnd {line e : List Char} (h : LineEnd line e) (noFeed : '\n' ∉ line) :
    withoutLineEnd (line ++ e) = line := by
  cases h with
  | feed noReturn => exact withoutLineEnd_feed noFeed noReturn
  | returnFeed => exact withoutLineEnd_return_feed noFeed
  | none => rw [List.append_nil, withoutLineEnd_of_no_feed noFeed]

theorem no_feed_withoutLineEnd {ks : List (List Char)} (h : Chunked ks) :
    ∀ l ∈ ks.map withoutLineEnd, '\n' ∉ l := by
  induction h with
  | nil => simp
  | last noFeed some =>
    rw [List.map_singleton, withoutLineEnd_of_no_feed noFeed]
    simpa using noFeed
  | @cons l ks noFeed rest ih =>
    obtain ⟨line, e, heq, hfeed, -, hend⟩ := exists_lineEnd noFeed
    rw [List.map_cons, heq, hend.withoutLineEnd hfeed]
    exact List.forall_mem_cons.mpr ⟨hfeed, ih⟩

/-- No line holds a line feed, nor could it: lines are what a text is cut into at line feeds. -/
theorem no_feed_of_mem_lines {cs l : List Char} (h : l ∈ lines cs) : '\n' ∉ l :=
  no_feed_withoutLineEnd (chunked_chunks cs) l h

/-! ## Lines that are written -/

/-- Lines with a line feed behind each. -/
def endLines (ls : List (List Char)) : List Char := ls.flatMap (· ++ ['\n'])

@[simp] theorem endLines_nil : endLines [] = [] := rfl

@[simp] theorem endLines_cons (l : List Char) (ls : List (List Char)) :
    endLines (l :: ls) = l ++ '\n' :: endLines ls := by
  simp [endLines]

@[simp] theorem endLines_append (ls ls' : List (List Char)) :
    endLines (ls ++ ls') = endLines ls ++ endLines ls' := List.flatMap_append

/-- A line that is read as it is written. A line feed would end it early, and a carriage return at its
end would be taken for part of the line end. -/
structure Unbroken (l : List Char) : Prop where
  noFeed : '\n' ∉ l
  noReturn : l.getLast? ≠ some '\r'

/-- A line that is written at the front of a text is the first one that is read, but for a carriage
return. -/
theorem lines_append_feed {l : List Char} (noFeed : '\n' ∉ l) (rest : List Char) :
    lines (l ++ '\n' :: rest) = withoutLineEnd (l ++ ['\n']) :: lines rest := by
  rw [lines, chunks_append_feed noFeed]
  rfl

theorem Unbroken.lines_append_feed {l : List Char} (h : Unbroken l) (rest : List Char) :
    lines (l ++ '\n' :: rest) = l :: lines rest := by
  rw [Text.lines_append_feed h.noFeed, withoutLineEnd_feed h.noFeed h.noReturn]

/-- The line that is read where a line is written: a carriage return at its end is lost. Nothing that is
written within one line loses more. -/
def readBack (l : List Char) : List Char := withoutLineEnd (l ++ ['\n'])

theorem Unbroken.readBack {l : List Char} (h : Unbroken l) : readBack l = l :=
  withoutLineEnd_feed h.noFeed h.noReturn

theorem map_readBack {ls : List (List Char)} (h : ∀ l ∈ ls, Unbroken l) : ls.map readBack = ls :=
  (List.map_congr_left fun l hl => (h l hl).readBack).trans (List.map_id ls)

theorem append_readBack {l : List Char} (noFeed : '\n' ∉ l) :
    l = readBack l ∨ l = readBack l ++ ['\r'] := by
  obtain ⟨line, e, heq, hfeed, he, hend⟩ := exists_lineEnd noFeed
  rw [readBack, heq, hend.withoutLineEnd hfeed]
  rcases he with rfl | rfl
  · exact .inl (List.append_cancel_right heq)
  · have hwhole : l ++ ['\n'] = (line ++ ['\r']) ++ ['\n'] := by simpa using heq
    exact .inr (List.append_cancel_right hwhole)

/-- What is lost is blank, so nothing is lost from a line whose ends are trimmed anyway. -/
theorem trim_readBack {l : List Char} (oneLine : '\n' ∉ l) : trim (readBack l) = trim l := by
  rcases append_readBack oneLine with heq | heq
  · rw [← heq]
  · exact ((congrArg trim heq).trans (trim_append_of_blank (by decide) _)).symm

theorem readBack_append {front l : List Char} (hfeed : '\n' ∉ front)
    (hreturn : front.getLast? ≠ some '\r') (noFeed : '\n' ∉ l) :
    readBack (front ++ l) = front ++ readBack l := by
  obtain ⟨line, e, heq, hline, -, hend⟩ := exists_lineEnd noFeed
  have hwhole : '\n' ∉ front ++ line := fun h => (List.mem_append.mp h).elim hfeed hline
  -- an empty rest is the one case where what stands in front decides how the line ends
  have hend' : LineEnd (front ++ line) e := by
    cases hend with
    | feed noReturn =>
      refine .feed ?_
      rw [List.getLast?_append]
      cases hlast : line.getLast? with
      | none => exact hreturn
      | some c => exact fun h => noReturn (hlast.trans h)
    | returnFeed => exact .returnFeed
    | none =>
      have hlast := congrArg List.getLast? heq
      rw [List.append_nil, List.getLast?_concat] at hlast
      exact absurd (List.mem_of_getLast? hlast.symm) hline
  rw [readBack, readBack, List.append_assoc, heq, hend.withoutLineEnd hline, ← List.append_assoc,
    hend'.withoutLineEnd hwhole]

/-- Lines without line feeds in them are read back one by one, and each loses a carriage return at most.
-/
theorem lines_endLines_map {ls : List (List Char)} (h : ∀ l ∈ ls, '\n' ∉ l) :
    lines (endLines ls) = ls.map readBack := by
  induction ls with
  | nil => rfl
  | cons l ls ih =>
    obtain ⟨hl, hls⟩ := List.forall_mem_cons.mp h
    rw [endLines_cons, lines_append_feed hl, ih hls]
    rfl

/-- Lines are read back as they have been written. -/
theorem lines_endLines {ls : List (List Char)} (h : ∀ l ∈ ls, Unbroken l) :
    lines (endLines ls) = ls := by
  rw [lines_endLines_map fun l hl => (h l hl).noFeed, map_readBack h]

/-! ## Lines that are changed -/

/-- A change of a line that leaves its end alone and brings in no other one. It may be applied to a
chunk as well as to the line in it, with the same result; writers do the one and readers see the other.
-/
structure LineEdit (edit : List Char → List Char) : Prop where
  ends : ∀ l e, e = ['\n'] ∨ e = ['\r', '\n'] → edit (l ++ e) = edit l ++ e
  noFeed : ∀ l, '\n' ∉ l → '\n' ∉ edit l
  noReturn : ∀ l, l.getLast? ≠ some '\r' → (edit l).getLast? ≠ some '\r'
  some : ∀ l, l ≠ [] → edit l ≠ []

theorem LineEdit.id : LineEdit id where
  ends _ _ _ := rfl
  noFeed _ h := h
  noReturn _ h := h
  some _ h := h

/-- The chunks with the edit of its place made to each. The number is that of the line in the text, so
an edit can single out lines. -/
def edited (edit : Nat → List Char → List Char) (ks : List (List Char)) (first : Nat) :
    List (List Char) :=
  (ks.zipIdx first).map fun (k, n) => edit n k

/-- Edits of lines keep chunks in form, and editing comes to the same before and after the line ends are
taken off. -/
theorem Chunked.edited {edit : Nat → List Char → List Char} (h : ∀ n, LineEdit (edit n))
    {ks : List (List Char)} (chunked : Chunked ks) (first : Nat) :
    Chunked (edited edit ks first) ∧
      (Text.edited edit ks first).map withoutLineEnd =
        Text.edited edit (ks.map withoutLineEnd) first := by
  induction chunked generalizing first with
  | nil => exact ⟨.nil, rfl⟩
  | last noFeed some =>
    have hfeed := (h first).noFeed _ noFeed
    refine ⟨.last hfeed ((h first).some _ some), ?_⟩
    simp [Text.edited, withoutLineEnd_of_no_feed noFeed, withoutLineEnd_of_no_feed hfeed]
  | @cons l ks noFeed rest ih =>
    obtain ⟨hchunked, hlines⟩ := ih (first + 1)
    obtain ⟨line, e, heq, hline, he, hend⟩ := exists_lineEnd noFeed
    have hedit : edit first (line ++ e) = edit first line ++ e := (h first).ends line e he
    have hend' : LineEnd (edit first line) e := by
      cases hend with
      | feed noReturn => exact .feed ((h first).noReturn _ noReturn)
      | returnFeed => exact .returnFeed
      | none => simp at he
    have hfeed := (h first).noFeed _ hline
    rw [heq]
    refine ⟨?_, ?_⟩
    · have hwhole : edit first (l ++ ['\n']) = edit first l ++ ['\n'] :=
        (h first).ends l _ (.inl rfl)
      simp only [Text.edited, List.zipIdx_cons, List.map_cons]
      rw [← heq, hwhole]
      exact .cons ((h first).noFeed _ noFeed) hchunked
    · simp only [Text.edited, List.zipIdx_cons, List.map_cons] at hlines ⊢
      rw [hedit, hend'.withoutLineEnd hfeed, hend.withoutLineEnd hline, hlines]

/-- Chunks that are changed one by one are lines that are changed one by one. This carries everything a
writer does to the text over to what a reader finds. -/
theorem lines_edited {edit : Nat → List Char → List Char} (h : ∀ n, LineEdit (edit n))
    (cs : List Char) :
    lines (edited edit (chunks cs) 0).flatten = edited edit (lines cs) 0 := by
  obtain ⟨hchunked, hlines⟩ := (chunked_chunks cs).edited h 0
  rw [lines, hchunked.chunks_flatten, hlines]
  rfl

end Runbook.Text
