import Runbook.Proofs.StatusWord
import Runbook.Proofs.TickedPlan

/-!
# The room for the status

A text is cut at the room that the status has on a line: from behind the first marker of the line to the
next star or line end (`StatusRoom`). Writing a status puts other characters into that room and leaves the
rest of the text alone (`StatusRoom.rewriteStatus`); without such room the text stays as it is
(`rewriteStatus_of_no_room`).

A reader takes lines without their ends and a value up to the next star only. On a line without a carriage
return that is the same room (`StatusRoom.trim_eq`), so what is written is what is read
(`rewriteStatus_lens`).
-/

set_option autoImplicit false

namespace Runbook

open Text Markdown

namespace Text

/-! ## Chunks that an edit leaves alone -/

theorem edited_append (edit : Nat → List Char → List Char) (ks ls : List (List Char)) (first : Nat) :
    edited edit (ks ++ ls) first = edited edit ks first ++ edited edit ls (first + ks.length) := by
  rw [edited, List.zipIdx_append, List.map_append]
  rfl

/-- An edit that leaves the chunks of these numbers alone leaves their list alone. -/
theorem edited_of_same {edit : Nat → List Char → List Char} {ks : List (List Char)} {first : Nat}
    (same : ∀ n, first ≤ n → n < first + ks.length → ∀ k, edit n k = k) :
    edited edit ks first = ks := by
  induction ks generalizing first with
  | nil => rfl
  | cons k ks ih =>
    have hbelow : ∀ n, first + 1 ≤ n → n < first + 1 + ks.length → ∀ k, edit n k = k := by
      intro n hn hn'
      exact same n (by omega) (by rw [List.length_cons]; omega)
    have hrest := ih hbelow
    have hcons : edited edit (k :: ks) first = edit first k :: edited edit ks (first + 1) := rfl
    rw [hcons, hrest, same first (Nat.le_refl _) (by rw [List.length_cons]; omega)]

/-- An edit of one place changes one chunk. -/
theorem edited_at {edit : Nat → List Char → List Char} {above : List (List Char)} {n : Nat}
    (place : above.length = n) (others : ∀ m ≠ n, ∀ k, edit m k = k) (k : List Char)
    (below : List (List Char)) :
    edited edit (above ++ k :: below) 0 = above ++ edit n k :: below := by
  have hcons : edited edit (k :: below) n = edit n k :: edited edit below (n + 1) := rfl
  rw [edited_append, Nat.zero_add, place, hcons,
    edited_of_same fun m _ hm => others m (by omega),
    edited_of_same fun m hm _ => others m (by omega)]

/-- A chunk is its line and the end of it, which is empty at most for the last chunk. -/
theorem Chunked.line_of_mem {ks : List (List Char)} (h : Chunked ks) {k : List Char} (mem : k ∈ ks) :
    ∃ e, k = withoutLineEnd k ++ e ∧ (e = [] ∨ e = ['\n'] ∨ e = ['\r', '\n']) := by
  induction h with
  | nil => cases mem
  | last noFeed some =>
    rw [List.mem_singleton.mp mem]
    exact ⟨[], by rw [withoutLineEnd_of_no_feed noFeed, List.append_nil], .inl rfl⟩
  | @cons l ks noFeed rest ih =>
    rcases List.mem_cons.mp mem with rfl | hmem
    · obtain ⟨line, e, heq, hfeed, he, hend⟩ := exists_lineEnd noFeed
      refine ⟨e, ?_, .inr he⟩
      rw [heq, hend.withoutLineEnd hfeed]
    · exact ih hmem

end Text

namespace Markdown

/-! ## Values in their room -/

/-- A value that is there has its blanks around it, and so has any value that takes its place. An empty
room has no value to keep blanks around. -/
theorem exists_refill_of_some {room : List Char} (some : trim room ≠ []) :
    ∃ a b, Blank a ∧ Blank b ∧ room = a ++ trim room ++ b ∧ ∀ v, refill room v = a ++ v ++ b := by
  obtain ⟨a, b, ha, hb, hroom⟩ := exists_trim room
  refine ⟨a, b, ha, hb, hroom, fun v => ?_⟩
  conv_lhs => rw [hroom]
  exact refill_around ha hb some (trim_trim room) v

/-- The value that is there already is written into the room that it has, so writing it changes nothing.
-/
theorem refill_trim {room : List Char} (some : trim room ≠ []) : refill room (trim room) = room := by
  obtain ⟨a, b, -, -, hroom, hrefill⟩ := exists_refill_of_some some
  rw [hrefill, ← hroom]

/-- A line is cut in one way only: at its first marker, and at the first end of a value behind that. -/
theorem FieldAt.unique {label : String} {line before room tail before' room' tail' : List Char}
    (field : FieldAt label line before room tail) (field' : FieldAt label line before' room' tail') :
    room = room' := by
  have hrest : room ++ tail = room' ++ tail' := by
    have hcut := field.cut.symm.trans field'.cut
    rw [Option.some.injEq, Prod.mk.injEq] at hcut
    exact hcut.2
  have hroom : ∀ {b r t : List Char}, FieldAt label line b r t →
      (r ++ t).takeWhile (!endsValue ·) = r := fun h =>
    takeWhile_append_stop (by simpa using h.inner) (by simpa using h.stop)
  rw [← hroom field, hrest, hroom field']

/-- Where there is no line end, a value ends at the next star. Writers look for line ends because they
are given chunks. -/
theorem takeWhile_value {cs : List Char} (noReturn : '\r' ∉ cs) (noFeed : '\n' ∉ cs) :
    cs.takeWhile (· ≠ '*') = cs.takeWhile (!endsValue ·) := by
  induction cs with
  | nil => rfl
  | cons c cs ih =>
    rw [List.mem_cons, not_or] at noReturn noFeed
    have hsame : decide (c ≠ '*') = !endsValue c := by
      have hreturn : (c == '\r') = false := beq_eq_false_iff_ne.mpr (Ne.symm noReturn.1)
      have hfeed : (c == '\n') = false := beq_eq_false_iff_ne.mpr (Ne.symm noFeed.1)
      rw [endsValue, hreturn, hfeed, Bool.or_false, Bool.or_false, decide_not]
      rfl
    rw [List.takeWhile_cons, List.takeWhile_cons, hsame, ih noReturn.2 noFeed.2]

/-- On a line without a carriage return, a reader sees the value that is in the room for it. -/
theorem FieldAt.fieldValue? {label : String} {line before room tail : List Char}
    (field : FieldAt label line before room tail) (noReturn : '\r' ∉ line) (noFeed : '\n' ∉ line) :
    Markdown.fieldValue? label line = some (trim room) := by
  have hbehind : ∀ c, c ∉ line → c ∉ room ++ tail := fun c hc hmem =>
    hc (by rw [field.line_eq]; exact List.mem_append_right _ hmem)
  rw [Markdown.fieldValue?, field.cut, Option.map_some]
  simp only
  rw [takeWhile_value (hbehind _ noReturn) (hbehind _ noFeed),
    takeWhile_append_stop (by simpa using field.inner) (by simpa using field.stop)]

end Markdown

namespace Plan

/-! ## The line of the status -/

/-- Without a carriage return in the line, reader and writer end its value at the same place. -/
theorem oneValue_of_noReturn {line : List Char} (noReturn : '\r' ∉ line) (noFeed : '\n' ∉ line) :
    OneValue line := by
  intro before behind hcut
  have hbehind : ∀ c, c ∉ line → c ∉ behind := fun c hc hmem =>
    hc (by rw [append_of_cutAt? hcut]; exact List.mem_append_right _ hmem)
  have hnone : (behind.takeWhile (!endsValue ·)).dropWhile (!endsValue ·) = [] :=
    List.dropWhile_eq_nil_iff.mpr fun c hc => List.mem_takeWhile_imp (p := (!endsValue ·)) hc
  rw [takeWhile_value (hbehind _ noReturn) (hbehind _ noFeed), hnone]
  exact .nil

theorem getElem?_lines {text : List Char} {l : Line} (mem : l ∈ (Outline.ofText text).lines) :
    (lines text)[l.number]? = some l.text := by
  rw [lines_ofText] at mem
  obtain ⟨⟨line, n⟩, hline, rfl⟩ := List.mem_map.mp mem
  exact List.mem_zipIdx_iff_getElem?.mp hline

/-! ## The room in the text -/

/-- The text is cut at the room for the status on a line: what is in front of it ends with the first
marker of that line, and what is behind it begins with the star or line end that comes next. It is a
statement about the whole text, so that "nothing else changes" can be said without speaking of lines. -/
def StatusRoom (text : List Char) (n : Nat) (front room back : List Char) : Prop :=
  ∃ above line before tail below, chunks text = above ++ line :: below ∧ above.length = n ∧
    FieldAt "Status" line before room tail ∧
      front = above.flatten ++ (before ++ fieldMarker "Status") ∧ back = tail ++ below.flatten

section Room

variable {text : List Char} {n : Nat} {front room back : List Char}

/-- The three parts make up the text. -/
theorem StatusRoom.whole (h : StatusRoom text n front room back) : text = front ++ room ++ back := by
  obtain ⟨above, line, before, tail, below, hchunks, -, field, rfl, rfl⟩ := h
  have htext := (chunked_chunks text).chunks_flatten
  calc text = (above ++ line :: below).flatten := by rw [← hchunks, flatten_chunks]
    _ = _ := by
      rw [List.flatten_append, List.flatten_cons, field.line_eq]
      simp only [List.append_assoc]

/-- A line with a marker has room for the status. -/
theorem exists_statusRoom {line : List Char} (at_line : (chunks text)[n]? = some line)
    (marked : (cutAt? (fieldMarker "Status") line).isSome = true) :
    ∃ front room back, StatusRoom text n front room back := by
  obtain ⟨⟨before, behind⟩, hcut⟩ := Option.isSome_iff_exists.mp marked
  obtain ⟨hn, hline⟩ := List.getElem?_eq_some_iff.mp at_line
  refine ⟨_, _, _, (chunks text).take n, line, before, _, (chunks text).drop (n + 1), ?_,
    List.length_take_of_le (Nat.le_of_lt hn), fieldAt_of_cut hcut, rfl, rfl⟩
  rw [← hline, List.getElem_cons_drop, List.take_append_drop]

/-- What a reader has found on the line is what stands in the room. -/
theorem StatusRoom.trim_eq (h : StatusRoom text n front room back) {line value : List Char}
    (at_line : (lines text)[n]? = some line) (noReturn : '\r' ∉ line)
    (said : fieldValue? "Status" line = some value) : trim room = value := by
  obtain ⟨above, chunk, before, tail, below, hchunks, rfl, field, -, -⟩ := h
  have hline : withoutLineEnd chunk = line := by
    rw [lines, hchunks, List.map_append, List.map_cons,
      List.getElem?_append_right (by rw [List.length_map]), List.length_map, Nat.sub_self] at at_line
    exact Option.some.inj at_line
  obtain ⟨e, hchunk, he⟩ := (chunked_chunks text).line_of_mem (k := chunk) (by rw [hchunks]; simp)
  rw [hline] at hchunk
  have hstop : ∀ c, e.head? = some c → endsValue c = true := by
    rcases he with rfl | he
    · intro c hc
      cases hc
    · exact (endsValue_of_lineEnd he).1
  have hmarked : (cutAt? (fieldMarker "Status") line).isSome = true := by
    rw [fieldValue?, Option.map_eq_some_iff] at said
    obtain ⟨parts, hcut, -⟩ := said
    rw [hcut]
    rfl
  obtain ⟨⟨before', behind⟩, hcut⟩ := Option.isSome_iff_exists.mp hmarked
  have field' := fieldAt_of_cut hcut
  have hsaid := field'.fieldValue? noReturn
    (no_feed_of_mem_lines (List.mem_of_getElem? at_line))
  have hwhole := field'.append hstop
  rw [← hchunk] at hwhole
  rw [field.unique hwhole, ← Option.some.injEq, ← hsaid, said]

end Room

section Written

variable {text : String} {n : Nat} {v : PlanStatus} (word : Word v.marker.toList)
include word

/-- A text in which the status has been written is cut where it was cut before, and one chunk is another
one. -/
theorem chunks_rewriteStatus (text : String) (line : Option Nat) :
    chunks (Plan.rewriteStatus text line v).toList =
      edited (statusEdit line v) (chunks text.toList) 0 := by
  rw [rewriteStatus_eq, chunks_mapChunks (lineEdit_statusEdit word line)]

/-- Other characters come into the room for the status, and nothing else changes. The room is then cut
out at the same place, which is why a second status can be written over the first. -/
theorem StatusRoom.rewriteStatus {front room back : List Char}
    (h : StatusRoom text.toList n front room back) :
    StatusRoom (Plan.rewriteStatus text (some n) v).toList n front (refill room v.marker.toList) back := by
  obtain ⟨above, line, before, tail, below, hchunks, hn, field, rfl, rfl⟩ := h
  refine ⟨above, rewriteField "Status" v.marker.toList line, before, tail, below, ?_, hn,
    field.rewritten word, rfl, rfl⟩
  have hothers : ∀ m ≠ n, ∀ k, statusEdit (some n) v m k = k := fun m hm k =>
    if_neg fun h => hm (Option.some.inj h).symm
  rw [chunks_rewriteStatus word, hchunks, edited_at hn hothers, statusEdit, if_pos rfl]

/-- The status that the line says already is written without a change. So a run that finds its own
status need not write the file. -/
theorem rewriteStatus_of_said {front room back : List Char}
    (h : StatusRoom text.toList n front room back) (said : trim room = v.marker.toList) :
    Plan.rewriteStatus text (some n) v = text := by
  have hsome : trim room ≠ [] := by
    rw [said]
    exact word.some
  have hnew := (h.rewriteStatus word).whole
  rw [← said, refill_trim hsome, ← h.whole] at hnew
  exact String.toList_inj.mp hnew

/-- Without room for the status the text stays as it is. -/
theorem rewriteStatus_of_no_room
    (none : ∀ front room back, ¬ StatusRoom text.toList n front room back) :
    Plan.rewriteStatus text (some n) v = text := by
  have hsame : edited (statusEdit (some n) v) (chunks text.toList) 0 = chunks text.toList := by
    refine List.ext_getElem? fun m => ?_
    rw [getElem?_edited, Nat.zero_add]
    cases hline : (chunks text.toList)[m]? with
    | none => rfl
    | some line =>
      rw [Option.map_some, Option.some.injEq, statusEdit]
      split
      · rename_i hm
        obtain rfl := Option.some.inj hm
        cases hcut : cutAt? (fieldMarker "Status") line with
        | none => exact rewriteField_of_none hcut _
        | some parts =>
          obtain ⟨front, room, back, hroom⟩ := exists_statusRoom hline (by rw [hcut]; rfl)
          exact absurd hroom (none front room back)
      · rfl
  have htext := congrArg List.flatten (chunks_rewriteStatus word text (some n))
  rw [hsame, flatten_chunks, flatten_chunks] at htext
  exact String.toList_inj.mp htext

/-- On a line without a carriage return, the status is read that was written. With one, the reader goes
on where the writer has stopped. -/
theorem headerField?_rewriteStatus {line value : List Char}
    (at_line : (lines text.toList)[n]? = some line) (noReturn : '\r' ∉ line)
    (found : headerField? (Outline.ofText text.toList) "Status" = some (n, value)) :
    headerField? (Outline.ofText (Plan.rewriteStatus text (some n) v).toList) "Status" =
      some (n, v.marker.toList) := by
  obtain ⟨l, hl, hfree, rfl, hsaid⟩ := exists_of_headerField? found
  have hline := getElem?_lines hl
  rw [at_line, Option.some.injEq] at hline
  subst hline
  have hmarked : (fieldValue? "Status" l.text).isSome = true := by
    rw [hsaid]
    rfl
  have hone := oneValue_of_noReturn noReturn (no_feed_of_mem_lines (List.mem_of_getElem? at_line))
  rw [rewriteStatus_eq]
  refine (touches_statusEdit word hl hfree hmarked).headerField?_found found ?_
  rw [statusEdit, if_pos rfl]
  refine hone.fieldValue? word ?_
  rwa [fieldValue?, Option.isSome_map] at hmarked

end Written

/-- Writing a status is lawful. Of two that are written the last one counts, and one that is there already
is written without a change. A text without room for it stays as it is, and otherwise nothing but the room
changes, of which the blanks around a value are kept. Where the status of the plan stands, without a
carriage return in the line, it is found afterwards, with the word that was written. -/
theorem rewriteStatus_lens (text : String) (n : Nat) {u v : PlanStatus}
    (wordU : Word u.marker.toList) (wordV : Word v.marker.toList) :
    rewriteStatus (rewriteStatus text (some n) u) (some n) v = rewriteStatus text (some n) v ∧
      ((∀ front room back, ¬ StatusRoom text.toList n front room back) →
        rewriteStatus text (some n) v = text) ∧
      (∀ front room back, StatusRoom text.toList n front room back →
        text.toList = front ++ room ++ back ∧
          (trim room = v.marker.toList → rewriteStatus text (some n) v = text) ∧
            ∃ room', (rewriteStatus text (some n) v).toList = front ++ room' ++ back ∧
              StatusRoom (rewriteStatus text (some n) v).toList n front room' back ∧
                trim room' = v.marker.toList ∧
                  (trim room ≠ [] → ∃ a b, Blank a ∧ Blank b ∧ room = a ++ trim room ++ b ∧
                    room' = a ++ v.marker.toList ++ b)) ∧
      ∀ line value, (lines text.toList)[n]? = some line → '\r' ∉ line →
        headerField? (Outline.ofText text.toList) "Status" = some (n, value) →
          (∀ front room back, StatusRoom text.toList n front room back → trim room = value) ∧
            headerField? (Outline.ofText (rewriteStatus text (some n) v).toList) "Status" =
              some (n, v.marker.toList) ∧
            (readSpecification (Outline.ofText (rewriteStatus text (some n) v).toList)).status =
              PlanStatus.ofWord v.marker := by
  refine ⟨rewriteStatus_rewriteStatus wordU text (some n) v, rewriteStatus_of_no_room wordV,
    fun front room back hroom => ?_, fun line value hline hreturn hfound => ?_⟩
  · have hnew := hroom.rewriteStatus wordV
    refine ⟨hroom.whole, rewriteStatus_of_said wordV hroom, _, hnew.whole, hnew,
      wordV.trim_refill room, fun hsome => ?_⟩
    obtain ⟨a, b, ha, hb, hroom, hrefill⟩ := exists_refill_of_some hsome
    exact ⟨a, b, ha, hb, hroom, hrefill _⟩
  · have hnew := headerField?_rewriteStatus wordV hline hreturn hfound
    refine ⟨fun front room back hroom => ?_, hnew, ?_⟩
    · obtain ⟨l, hl, -, rfl, hsaid⟩ := exists_of_headerField? hfound
      have htext := getElem?_lines hl
      rw [hline, Option.some.injEq] at htext
      exact hroom.trim_eq hline hreturn (by rw [htext, hsaid])
    · simp only [readSpecification, hnew, String.ofList_toList]

/-- A text with a status between stars, another marker behind it, and carriage returns. -/
def pauseText : String :=
  "# Bake\r\n> *so far* **Status:**\t DRAFT ** **Status:** COMPLETED\r\n## Tasks\r\n"

def onHold : PlanStatus := .other "on hold"

/-- The plan is completed first, and then put on hold. -/
theorem rewriteStatus_lens_of_pause :
    Word PlanStatus.completed.marker.toList ∧ Word onHold.marker.toList ∧
      rewriteStatus (rewriteStatus pauseText (some 1) .completed) (some 1) onHold =
        rewriteStatus pauseText (some 1) onHold ∧
      headerField? (Outline.ofText (rewriteStatus pauseText (some 1) onHold).toList) "Status" =
        some (1, "on hold".toList) ∧
      (readSpecification (Outline.ofText (rewriteStatus pauseText (some 1) onHold).toList)).status =
        onHold := by
  have hcompleted : Word PlanStatus.completed.marker.toList := word_of_known (by decide)
  have honHold : Word onHold.marker.toList :=
    ⟨by decide, by decide, plain_of_any (by decide)⟩
  obtain ⟨hlast, -, -, hread⟩ := rewriteStatus_lens pauseText 1 hcompleted honHold
  obtain ⟨-, hfound, hstatus⟩ := hread
    "> *so far* **Status:**\t DRAFT ** **Status:** COMPLETED".toList "DRAFT".toList
    (by decide +kernel) (by decide) (by decide +kernel)
  exact ⟨hcompleted, honHold, hlast, hfound, hstatus.trans (by decide)⟩

example : rewriteStatus pauseText (some 1) onHold =
    "# Bake\r\n> *so far* **Status:**\t on hold ** **Status:** COMPLETED\r\n## Tasks\r\n" := by
  decide +kernel

end Plan

end Runbook
