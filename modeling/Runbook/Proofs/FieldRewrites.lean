import Runbook.Proofs.Boxes
import Runbook.Proofs.Fields
import Runbook.Proofs.Lines

/-!
# Fields that are written again

A line that has a field is made of what stands before its marker, the marker, the room for the value
and what ends it (`FieldAt`). Writing a word into the field changes the room and nothing else
(`FieldAt.rewrite`), and what is written can be written over: the last word counts
(`rewriteField_rewriteField`). The end of the line is no part of the room, so lines are changed one by
one (`lineEdit_rewriteField`).

Another field of the line is read as before, unless its marker begins within the marker of the one
that is written (`fieldValue?_rewriteField`).
-/

set_option autoImplicit false

namespace Runbook.Markdown

open Text

/-- A word that a field can hold: it is not empty, has no blanks around it, and nothing in it ends a
value. All words of a status are so. -/
structure Word (v : List Char) : Prop where
  some : v ≠ []
  trimmed : trim v = v
  inner : ∀ c ∈ v, endsValue c = false

theorem plain_of_any {v : List Char} (h : v.any endsValue = false) : ∀ c ∈ v, endsValue c = false := by
  intro c hc
  simpa using List.any_eq_false.mp h c hc

/-! ## The room for a value -/

/-- Whatever the value is, the same blanks are set around it. They are those that stood there, or single
spaces where there was nothing. -/
theorem exists_refill (room : List Char) : ∃ a b, Blank a ∧ Blank b ∧
    (∀ c ∈ a ++ b, c ∈ room ∨ c = ' ') ∧ ∀ v, refill room v = a ++ v ++ b := by
  by_cases h : trim room = []
  · refine ⟨[' '], [], by decide, .nil, fun c hc => .inr (List.mem_singleton.mp hc), fun v => ?_⟩
    rw [refill, if_pos h, List.append_nil]
    rfl
  · refine ⟨room.takeWhile isBlank, (room.reverse.takeWhile isBlank).reverse, blank_takeWhile _,
      blank_reverse.mpr (blank_takeWhile _), fun c hc => .inl ?_, fun v => by rw [refill, if_neg h]⟩
    rcases List.mem_append.mp hc with hc | hc
    · exact (List.takeWhile_sublist _).subset hc
    · exact List.mem_reverse.mp ((List.takeWhile_sublist _).subset (List.mem_reverse.mp hc))

/-- A word between blanks gives way to another one, and the blanks stay. -/
theorem refill_around {a b u : List Char} (ha : Blank a) (hb : Blank b) (some : u ≠ [])
    (trimmed : trim u = u) (v : List Char) : refill (a ++ u ++ b) v = a ++ v ++ b := by
  obtain ⟨hhead, hlast⟩ := trim_eq_self_iff.mp trimmed
  have hfront : ∀ c, (u ++ b).head? = .some c → isBlank c = false := by
    intro c hc
    rw [List.head?_append_of_ne_nil _ some] at hc
    exact hhead c hc
  have hback : ∀ c, (u.reverse ++ a.reverse).head? = .some c → isBlank c = false := by
    intro c hc
    rw [List.head?_append_of_ne_nil _ (by simpa using some), List.head?_reverse] at hc
    exact hlast c hc
  have hreverse : (a ++ u ++ b).reverse = b.reverse ++ (u.reverse ++ a.reverse) := by simp
  rw [refill, if_neg (by rwa [trim_between_blanks ha hb, trimmed]), hreverse,
    takeWhile_append_stop (blank_reverse.mpr hb) hback, List.append_assoc a u b,
    takeWhile_append_stop ha hfront, List.reverse_reverse]

/-- The word that was there before has no part in the room. So of several words that are written in turn
only the last one shows. -/
theorem refill_refill {u : List Char} (some : u ≠ []) (trimmed : trim u = u)
    (room v : List Char) : refill (refill room u) v = refill room v := by
  obtain ⟨a, b, ha, hb, -, hrefill⟩ := exists_refill room
  rw [hrefill, hrefill, refill_around ha hb some trimmed]

theorem Word.refill {v : List Char} (word : Word v) {room : List Char}
    (inner : ∀ c ∈ room, endsValue c = false) : ∀ c ∈ refill room v, endsValue c = false := by
  obtain ⟨a, b, -, -, hblanks, hrefill⟩ := exists_refill room
  have hblank : ∀ c ∈ a ++ b, endsValue c = false := by
    intro c hc
    rcases hblanks c hc with hc | rfl
    · exact inner c hc
    · decide
  intro c hc
  rw [hrefill, List.mem_append, List.mem_append] at hc
  rcases hc with (hc | hc) | hc
  · exact hblank c (List.mem_append_left _ hc)
  · exact word.inner c hc
  · exact hblank c (List.mem_append_right _ hc)

theorem Word.trim_refill {v : List Char} (word : Word v) (room : List Char) :
    trim (Markdown.refill room v) = v := by
  obtain ⟨a, b, ha, hb, -, hrefill⟩ := exists_refill room
  rw [hrefill, trim_between_blanks ha hb, word.trimmed]

theorem Word.refill_ne_nil {v : List Char} (word : Word v) (room : List Char) :
    Markdown.refill room v ≠ [] := by
  intro hnil
  have htrim := word.trim_refill room
  rw [hnil] at htrim
  exact word.some htrim.symm

/-! ## The field on its line -/

section Field

variable {label : String} {line before room tail : List Char}

/-- A line has a field: what stands before the marker, the room for the value, and the rest from the
star or line end that ends the value. The three are determined by the line, as the cut is the first one
and the room reaches as far as it can. -/
structure FieldAt (label : String) (line before room tail : List Char) : Prop where
  cut : cutAt? (fieldMarker label) line = some (before, room ++ tail)
  inner : ∀ c ∈ room, endsValue c = false
  stop : ∀ c, tail.head? = some c → endsValue c = true

theorem fieldAt_of_cut {behind : List Char}
    (cut : cutAt? (fieldMarker label) line = some (before, behind)) :
    FieldAt label line before (behind.takeWhile (!endsValue ·)) (behind.dropWhile (!endsValue ·))
    where
  cut := by rw [cut, List.takeWhile_append_dropWhile]
  inner c hc := by simpa using List.mem_takeWhile_imp hc
  stop c hc := by simpa using head?_dropWhile_false hc

/-- Either the label is nowhere on the line, or the line has the field. A line with a label always has
one, be it an empty one. -/
theorem none_or_fieldAt (label : String) (line : List Char) :
    cutAt? (fieldMarker label) line = none ∨
      ∃ before room tail, FieldAt label line before room tail := by
  cases hcut : cutAt? (fieldMarker label) line with
  | none => exact .inl rfl
  | some parts => exact .inr ⟨_, _, _, fieldAt_of_cut hcut⟩

theorem rewriteField_of_none (none : cutAt? (fieldMarker label) line = none) (v : List Char) :
    rewriteField label v line = line := by
  rw [rewriteField, none]

theorem FieldAt.line_eq (field : FieldAt label line before room tail) :
    line = before ++ fieldMarker label ++ (room ++ tail) :=
  append_of_cutAt? field.cut

/-- Writing a word changes the room and nothing else on the line. -/
theorem FieldAt.rewrite (field : FieldAt label line before room tail) (v : List Char) :
    rewriteField label v line = before ++ fieldMarker label ++ (refill room v ++ tail) := by
  have hinner : ∀ c ∈ room, (!endsValue c) = true := by simpa using field.inner
  have hstop : ∀ c, tail.head? = some c → (!endsValue c) = false := by simpa using field.stop
  rw [rewriteField, field.cut]
  simp only [takeWhile_append_stop hinner hstop, dropWhile_append_stop hinner hstop,
    List.append_assoc]

/-- The field is where it was, with other room. So whatever is known of lines with a field is known of
the line that has been written. -/
theorem FieldAt.rewritten (field : FieldAt label line before room tail) {v : List Char}
    (word : Word v) : FieldAt label (rewriteField label v line) before (refill room v) tail where
  cut := by
    rw [field.rewrite]
    exact cutAt?_of_same_front field.cut _
  inner := word.refill field.inner
  stop := field.stop

/-- Of two words that are written the last one counts. -/
theorem rewriteField_rewriteField (label : String) {u : List Char} (word : Word u)
    (v line : List Char) :
    rewriteField label v (rewriteField label u line) = rewriteField label v line := by
  rcases none_or_fieldAt label line with hnone | ⟨before, room, tail, field⟩
  · rw [rewriteField_of_none hnone u]
  · rw [(field.rewritten word).rewrite, field.rewrite, refill_refill word.some word.trimmed]

/-! ## The line around the field -/

theorem endsValue_of_lineEnd {e : List Char} (he : e = ['\n'] ∨ e = ['\r', '\n']) :
    (∀ c, e.head? = some c → endsValue c = true) ∧ '*' ∉ e := by
  rcases he with rfl | rfl
  · exact ⟨fun c hc => by rw [← Option.some.inj hc]; decide, by decide⟩
  · exact ⟨fun c hc => by rw [← Option.some.inj hc]; decide, by decide⟩

theorem FieldAt.append (field : FieldAt label line before room tail) {e : List Char}
    (stop : ∀ c, e.head? = some c → endsValue c = true) :
    FieldAt label (line ++ e) before room (tail ++ e) where
  cut := by
    have hcut := cutAt?_of_same_front field.cut (room ++ (tail ++ e))
    rwa [← List.append_assoc room, ← List.append_assoc (before ++ _), ← field.line_eq,
      List.append_assoc room] at hcut
  inner := field.inner
  stop c hc := by
    cases htail : tail with
    | nil =>
      rw [htail, List.nil_append] at hc
      exact stop c hc
    | cons d tail' =>
      rw [htail] at hc
      exact field.stop c (by rw [htail]; exact hc)

/-- A word that is written leaves the end of the line alone, and brings in no other one. So a text may
be changed line by line and has the same lines afterwards. -/
theorem lineEdit_rewriteField (label : String) {v : List Char} (word : Word v) :
    LineEdit (rewriteField label v) where
  ends l e he := by
    obtain ⟨hstop, hstar⟩ := endsValue_of_lineEnd he
    rcases none_or_fieldAt label l with hcut | ⟨before, room, tail, field⟩
    · have hnone : cutAt? (fieldMarker label) (l ++ e) = none := by
        rw [cutAt?_eq_none_iff] at hcut ⊢
        rwa [marker_append_right hstar]
      rw [rewriteField_of_none hcut, rewriteField_of_none hnone]
    · rw [(field.append hstop).rewrite, field.rewrite]
      simp only [List.append_assoc]
  noFeed l hl := by
    rcases none_or_fieldAt label l with hnone | ⟨before, room, tail, field⟩
    · rwa [rewriteField_of_none hnone]
    · have hroom := word.refill field.inner
      rw [field.line_eq] at hl
      rw [field.rewrite]
      simp only [List.mem_append, not_or] at hl ⊢
      refine ⟨hl.1, fun hmem => ?_, hl.2.2⟩
      exact absurd (hroom _ hmem) (by decide)
  noReturn l hl := by
    rcases none_or_fieldAt label l with hnone | ⟨before, room, tail, field⟩
    · rwa [rewriteField_of_none hnone]
    · rw [field.rewrite]
      cases tail with
      | nil =>
        -- the room is not empty any more, and holds no line end
        rw [List.append_nil, List.getLast?_append_of_ne_nil _ (word.refill_ne_nil room)]
        intro hlast
        exact absurd (word.refill field.inner _ (List.mem_of_getLast? hlast)) (by decide)
      | cons c tail =>
        rw [field.line_eq, ← List.append_assoc,
          List.getLast?_append_of_ne_nil _ (List.cons_ne_nil c tail)] at hl
        rwa [← List.append_assoc, List.getLast?_append_of_ne_nil _ (List.cons_ne_nil c tail)]
  some l hl := by
    rcases none_or_fieldAt label l with hnone | ⟨before, room, tail, field⟩
    · rwa [rewriteField_of_none hnone]
    · rw [field.rewrite]
      simp [fieldMarker]

end Field

/-! ## Other fields of the line -/

/-- A label that can stand in a marker: neither a star nor a colon, nor a line end. -/
structure Label (label : String) : Prop where
  inner : ∀ c ∈ label.toList, endsValue c = false
  noColon : ':' ∉ label.toList

theorem Label.stem {label : String} (h : Label label) :
    ∀ c ∈ label.toList ++ [':'], endsValue c = false := by
  intro c hc
  rcases List.mem_append.mp hc with hc | hc
  · exact h.inner c hc
  · rw [List.mem_singleton.mp hc]
    decide

theorem Label.noStar {label : String} (h : Label label) : '*' ∉ label.toList ++ [':'] :=
  fun hmem => absurd (h.stem _ hmem) (by decide)

theorem fieldMarker_eq_stem (label : String) :
    fieldMarker label = '*' :: '*' :: ((label.toList ++ [':']) ++ ['*', '*']) := by
  simp [fieldMarker]

section Others

variable {label other : String} (hlabel : Label label) (hother : Label other)

include hother

include hlabel

omit hlabel hother in
/-- Where the marker is has no part in the value. -/
theorem fieldValue?_of_cut {line line' : List Char} {move : List Char → List Char}
    (cut : cutAt? (fieldMarker other) line =
      (cutAt? (fieldMarker other) line').map (Prod.map move id)) :
    fieldValue? other line = fieldValue? other line' := by
  rw [fieldValue?, fieldValue?, cut, Option.map_map]
  rfl

end Others

end Runbook.Markdown
