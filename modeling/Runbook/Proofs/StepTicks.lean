import Runbook.Plan.Parser
import Runbook.Proofs.FieldRewrites
import Runbook.Proofs.GroupReading

/-!
# Steps that are ticked

Ticking a line puts a cross into the box of a numbered item, if it has an empty one (`tick_boxed`),
and is nothing otherwise (`tick_eq_self`). No reader sees a difference (`alike_tick`), the end of the
line stays (`lineEdit_tick`), and a field on the same line may be written before or after
(`tick_rewriteField`).
-/

set_option autoImplicit false

namespace Runbook

namespace Text

/-- What a character ends cannot go on behind it, so a front without the character lies before it. -/
theorem prefix_of_not_mem {c : Char} {front a b : List Char} (h : c ∉ front)
    (prefixed : front <+: a ++ c :: b) : front <+: a := by
  rcases List.prefix_or_prefix_of_prefix prefixed (List.prefix_append a _) with h' | ⟨rest, rfl⟩
  · exact h'
  · cases rest with
    | nil => rw [List.append_nil]
    | cons d rest =>
      have hd := (List.cons_prefix_cons.mp ((List.prefix_append_right_inj a).mp prefixed)).1
      exact absurd (by simp [hd]) h

end Text

namespace Markdown

open Text

/-! ## The front of an item -/

/-- The front of a numbered item up to the bracket that closes its empty box, and the same front with
the box ticked. Blanks in an empty box are lost when it is ticked. -/
inductive Boxed : List Char → List Char → Prop
  | mk {label indent digits gap inside : List Char} (isLabel : IsLabel label indent digits gap)
    (empty : Inside false inside) :
    Boxed (label ++ '[' :: (inside ++ [']'])) (label ++ tickedBox)

theorem inside_cross : Inside true ['x'] := @Inside.ticked [] [] 'x' .nil (.inl rfl) .nil

/-- A label has only blanks, digits and a dot in it, so no character of another kind. -/
theorem IsLabel.not_mem {label indent digits gap : List Char} (h : IsLabel label indent digits gap)
    {c : Char} (hblank : isBlank c = false) (hdigit : isDigit c = false) (hdot : c ≠ '.') :
    c ∉ label := by
  intro hc
  rw [h.eq, List.mem_append, List.mem_append, List.mem_cons] at hc
  rcases hc with (hc | hc) | hc | hc
  · exact absurd (h.indent c hc) (by simp [hblank])
  · exact absurd (h.digits c hc) (by simp [hdigit])
  · exact hdot hc
  · exact absurd (h.gap c hc) (by simp [hblank])

section Boxed

variable {front ticked : List Char}

/-- A front with a box has no star, so a marker on the line is behind it. -/
theorem Boxed.noStar (h : Boxed front ticked) : '*' ∉ front ∧ '*' ∉ ticked := by
  obtain ⟨isLabel, empty⟩ := h
  have hlabel := isLabel.not_mem (by decide : isBlank '*' = false) (by decide) (by decide)
  cases empty with
  | empty blank =>
    constructor
    · intro hc
      simp only [List.mem_append, List.mem_cons, List.not_mem_nil, or_false] at hc
      rcases hc with hc | hc | hc | hc
      · exact hlabel hc
      · cases hc
      · exact absurd (blank _ hc) (by decide)
      · cases hc
    · intro hc
      rcases List.mem_append.mp hc with hc | hc
      · exact hlabel hc
      · exact absurd hc (by decide)

/-- A box ends the number in front of it. -/
theorem cutNumber?_box {label indent digits gap : List Char} (h : IsLabel label indent digits gap)
    (box : List Char) : cutNumber? (label ++ '[' :: box) = some (label, '[' :: box) := by
  refine cutNumber?_eq_some_iff.mpr ⟨rfl, fun c hc => ?_, indent, digits, gap, h⟩
  rw [← Option.some.inj hc]
  decide

/-- A line with such a front is ticked in the front, and what is behind stays. -/
theorem tick_boxed (h : Boxed front ticked) (behind : List Char) :
    tick (front ++ behind) = ticked ++ behind := by
  obtain @⟨label, indent, digits, gap, inside, isLabel, hinside⟩ := h
  have hsplit : label ++ '[' :: (inside ++ [']']) ++ behind =
      label ++ '[' :: (inside ++ ']' :: behind) := by simp
  rw [hsplit, tick_of_cut (cutNumber?_box isLabel _) (cutBox?_eq_some_iff.mpr ⟨inside, hinside, rfl⟩)]

/-- A line without one is left as it is. -/
theorem tick_eq_self {line : List Char}
    (none : ∀ front ticked, Boxed front ticked → ¬ front <+: line) : tick line = line := by
  unfold tick
  split
  · rename_i label rest hnumber
    split
    · rename_i behind hbox
      obtain ⟨rfl, -, indent, digits, gap, isLabel⟩ := cutNumber?_eq_some_iff.mp hnumber
      obtain ⟨inside, hinside, rfl⟩ := cutBox?_eq_some_iff.mp hbox
      exact absurd ⟨behind, by simp⟩ (none _ _ (.mk isLabel hinside))
    · rfl
  · rfl

/-- A line has a front with an empty box, or there is nothing to tick. What is shown of ticking is shown
in these two cases. -/
theorem tick_cases (line : List Char) :
    (∃ front ticked behind, Boxed front ticked ∧ line = front ++ behind) ∨
      ∀ front ticked, Boxed front ticked → ¬ front <+: line := by
  by_cases h : ∃ front ticked, Boxed front ticked ∧ front <+: line
  · obtain ⟨front, ticked, hboxed, behind, rfl⟩ := h
    exact .inl ⟨front, ticked, behind, hboxed, rfl⟩
  · exact .inr fun front ticked hboxed hprefix => h ⟨front, ticked, hboxed, hprefix⟩

end Boxed

/-! ## What readers see -/

/-- Two lines are read alike, whatever is looked for. There is a field for every question that a reader
of plans asks of a line. -/
structure Alike (l l' : List Char) : Prop where
  fence : isFence l' = isFence l
  heading : parseHeading? l' = parseHeading? l
  field : ∀ label, fieldValue? label l' = fieldValue? label l
  item : itemText? l' = itemText? l
  blank : trim l' = [] ↔ trim l = []
  row : Plan.rowOf (trim l') = Plan.rowOf (trim l)
  step : stepText? (trim l') = stepText? (trim l)

theorem Alike.refl (l : List Char) : Alike l l :=
  ⟨rfl, rfl, fun _ => rfl, rfl, Iff.rfl, rfl, rfl⟩

section Numbered

variable {label indent digits gap inside : List Char} (isLabel : IsLabel label indent digits gap)
include isLabel

theorem IsLabel.trimmed : IsLabel (digits ++ '.' :: gap) [] digits gap :=
  ⟨rfl, .nil, isLabel.some, isLabel.digits, isLabel.gap⟩

/-- A numbered item begins, behind its blanks, with a digit. This is what keeps it from being anything
else: a fence, a heading, an item of a checklist or a row with a label. -/
theorem IsLabel.exists_digit : ∃ d ds, isDigit d = true ∧
    digits ++ '.' :: gap = d :: ds ∧ label = indent ++ d :: ds := by
  obtain ⟨d, ds, hdigits⟩ := List.exists_cons_of_ne_nil isLabel.some
  refine ⟨d, ds ++ '.' :: gap, isLabel.digits d (by rw [hdigits]; exact List.mem_cons_self), ?_, ?_⟩
  · rw [hdigits]
    rfl
  · rw [isLabel.eq, hdigits]
    simp

theorem trim_boxed (inside behind : List Char) :
    trim (label ++ '[' :: (inside ++ ']' :: behind)) =
      digits ++ '.' :: gap ++ '[' :: (inside ++ ']' :: trimEnd behind) := by
  obtain ⟨d, ds, hdigit, hstem, hlabel⟩ := isLabel.exists_digit
  have htrim := trim_between isLabel.indent (isBlank_of_isDigit hdigit)
    (by decide : isBlank ']' = false) (ds ++ '[' :: inside) (b := behind)
  rw [hstem, hlabel]
  simpa using htrim

/-- A numbered item is no row with a label, whatever it says. -/
theorem rowOf_boxed (inside behind : List Char) :
    Plan.rowOf (trim (label ++ '[' :: (inside ++ ']' :: behind))) = .other := by
  obtain ⟨d, ds, hdigit, hstem, -⟩ := isLabel.exists_digit
  rw [trim_boxed isLabel, hstem]
  refine Plan.rowOf_of_head ?_ _
  rintro rfl
  exact absurd hdigit (by decide)

theorem itemText?_boxed (inside behind : List Char) :
    itemText? (label ++ '[' :: (inside ++ ']' :: behind)) = none := by
  obtain ⟨d, ds, hdigit, -, hlabel⟩ := isLabel.exists_digit
  have htrim : trimStart (label ++ '[' :: (inside ++ ']' :: behind)) =
      d :: (ds ++ '[' :: (inside ++ ']' :: behind)) := by
    rw [hlabel, List.append_assoc, List.cons_append, trimStart_append_of_blank isLabel.indent,
      trimStart_of_head (isBlank_of_isDigit hdigit)]
  rw [itemText?, htrim]
  split
  · rename_i heq
    rw [(List.cons.inj heq).1] at hdigit
    exact absurd hdigit (by decide)
  · rename_i heq
    rw [(List.cons.inj heq).1] at hdigit
    exact absurd hdigit (by decide)
  · rfl

theorem isFence_boxed (inside behind : List Char) :
    isFence (label ++ '[' :: (inside ++ ']' :: behind)) = false := by
  obtain ⟨d, ds, hdigit, -, hlabel⟩ := isLabel.exists_digit
  have hquote : d ≠ codeQuote := by
    rintro rfl
    exact absurd hdigit (by decide)
  have hblank := isBlank_of_isDigit hdigit
  have hfence := isFence_of_head hblank hquote (ds ++ '[' :: (inside ++ ']' :: behind))
  rw [isFence, trimStart_of_head hblank] at hfence
  rw [isFence, hlabel, List.append_assoc, trimStart_append_of_blank isLabel.indent,
    List.cons_append, trimStart_of_head hblank, hfence]

theorem parseHeading?_boxed (inside behind : List Char) :
    parseHeading? (label ++ '[' :: (inside ++ ']' :: behind)) = none := by
  obtain ⟨d, ds, hdigit, -, rfl⟩ := isLabel.exists_digit
  cases hindent : indent with
  | nil =>
    refine parseHeading?_of_head ?_ _
    rintro rfl
    exact absurd hdigit (by decide)
  | cons c cs =>
    refine parseHeading?_of_head ?_ _
    rintro rfl
    exact absurd (isLabel.indent _ (by rw [hindent]; exact List.mem_cons_self)) (by decide)

theorem trim_boxed_ne_nil (inside behind : List Char) :
    trim (label ++ '[' :: (inside ++ ']' :: behind)) ≠ [] := by
  rw [trim_boxed isLabel]
  simp

/-- Whether the box is ticked or not, the item is read alike: what it says begins behind the box. -/
theorem alike_boxed (hinside : Inside false inside) (behind : List Char) :
    Alike (label ++ '[' :: (inside ++ ']' :: behind)) (label ++ '[' :: (['x'] ++ ']' :: behind))
    where
  fence := (isFence_boxed isLabel _ _).trans (isFence_boxed isLabel _ _).symm
  heading := (parseHeading?_boxed isLabel _ _).trans (parseHeading?_boxed isLabel _ _).symm
  field field := by
    have hboxed := Boxed.mk isLabel hinside
    have hopen : label ++ '[' :: (inside ++ ']' :: behind) =
        label ++ '[' :: (inside ++ [']']) ++ behind := by simp
    have hticked : label ++ '[' :: (['x'] ++ ']' :: behind) = label ++ tickedBox ++ behind := by
      simp [tickedBox]
    rw [hopen, hticked, fieldValue?_of_cut (cutAt?_append_of_not_mem hboxed.noStar.1 behind),
      fieldValue?_of_cut (cutAt?_append_of_not_mem hboxed.noStar.2 behind)]
  item := (itemText?_boxed isLabel _ _).trans (itemText?_boxed isLabel _ _).symm
  blank := iff_of_false (trim_boxed_ne_nil isLabel _ _) (trim_boxed_ne_nil isLabel _ _)
  row := (rowOf_boxed isLabel _ _).trans (rowOf_boxed isLabel _ _).symm
  step := by
    rw [trim_boxed isLabel, trim_boxed isLabel, stepText?_boxed isLabel.trimmed hinside,
      stepText?_boxed isLabel.trimmed inside_cross]

end Numbered

/-- A line is read alike when its box is ticked, or when there is none. -/
theorem alike_tick (line : List Char) : Alike line (tick line) := by
  rcases tick_cases line with ⟨front, ticked, behind, hboxed, rfl⟩ | hnone
  · rw [tick_boxed hboxed]
    obtain ⟨isLabel, hinside⟩ := hboxed
    simpa [tickedBox] using alike_boxed isLabel hinside behind
  · rw [tick_eq_self hnone]
    exact .refl line

/-! ## Ticking and writing -/

/-- A front ends with a bracket in either form, so the end of a line that has nothing else is not
changed. -/
theorem Boxed.getLast? {front ticked : List Char} (h : Boxed front ticked) :
    front.getLast? = some ']' ∧ ticked.getLast? = some ']' := by
  obtain ⟨isLabel, hinside⟩ := h
  constructor
  · rw [← List.cons_append, ← List.append_assoc, List.getLast?_concat]
  · rw [tickedBox, List.getLast?_append]
    rfl

/-- Ticking leaves the end of a line alone, and brings in no other one. So it may be done to chunks. -/
theorem lineEdit_tick : LineEdit tick where
  ends l e he := by
    rcases tick_cases l with ⟨front, ticked, behind, hboxed, rfl⟩ | hnone
    · rw [List.append_assoc, tick_boxed hboxed, tick_boxed hboxed, List.append_assoc]
    · rw [tick_eq_self hnone]
      refine tick_eq_self fun front ticked hboxed hprefix => ?_
      -- no bracket closes a box in the end of the line
      rcases List.prefix_or_prefix_of_prefix hprefix (List.prefix_append l e) with h | ⟨rest, rfl⟩
      · exact hnone front ticked hboxed h
      · have hrest : rest <+: e := (List.prefix_append_right_inj l).mp hprefix
        have hlast := hboxed.getLast?.1
        cases rest with
        | nil =>
          rw [List.append_nil] at hboxed
          exact hnone l ticked hboxed (List.prefix_refl l)
        | cons c rest =>
          rw [List.getLast?_append_of_ne_nil _ (List.cons_ne_nil c rest)] at hlast
          have hmem := hrest.subset (List.mem_of_getLast? hlast)
          rcases he with rfl | rfl
          · exact absurd hmem (by decide)
          · exact absurd hmem (by decide)
  noFeed l hl := by
    rcases tick_cases l with ⟨front, ticked, behind, hboxed, rfl⟩ | hnone
    · rw [tick_boxed hboxed]
      obtain ⟨isLabel, hinside⟩ := hboxed
      simp only [List.mem_append, not_or] at hl ⊢
      exact ⟨⟨hl.1.1, by decide⟩, hl.2⟩
    · rwa [tick_eq_self hnone]
  noReturn l hl := by
    rcases tick_cases l with ⟨front, ticked, behind, hboxed, rfl⟩ | hnone
    · rw [tick_boxed hboxed]
      cases behind with
      | nil =>
        rw [List.append_nil, hboxed.getLast?.2]
        decide
      | cons c behind =>
        rw [List.getLast?_append_of_ne_nil _ (List.cons_ne_nil c behind)] at hl ⊢
        exact hl
    · rwa [tick_eq_self hnone]
  some l hl := by
    rcases tick_cases l with ⟨front, ticked, behind, hboxed, rfl⟩ | hnone
    · rw [tick_boxed hboxed]
      obtain ⟨isLabel, hinside⟩ := hboxed
      simp [tickedBox]
    · rwa [tick_eq_self hnone]

/-- There is nothing more to tick on a line that has been ticked, as its box is not empty any more. -/
theorem tick_tick (line : List Char) : tick (tick line) = tick line := by
  rcases tick_cases line with ⟨front, ticked, behind, hboxed, rfl⟩ | hnone
  · rw [tick_boxed hboxed]
    obtain @⟨label, _, _, _, _, isLabel, -⟩ := hboxed
    have hsplit : label ++ tickedBox ++ behind = label ++ '[' :: (['x'] ++ ']' :: behind) := by
      simp [tickedBox]
    rw [hsplit, tick, cutNumber?_box isLabel]
    simp only [cutBox?_eq_some_iff.mpr ⟨['x'], inside_cross, rfl⟩]
  · rw [tick_eq_self hnone, tick_eq_self hnone]

/-- A field is written behind a text that has no star as if that text were not there, for its marker
begins with one. -/
theorem rewriteField_append {label : String} {front : List Char} (noStar : '*' ∉ front)
    (v line : List Char) : rewriteField label v (front ++ line) = front ++ rewriteField label v line := by
  have hcut := @cutAt?_append_of_not_mem '*' (fieldMarker label).tail _ noStar line
  have hcons : '*' :: (fieldMarker label).tail = fieldMarker label := rfl
  rw [hcons] at hcut
  rw [rewriteField, rewriteField, hcut]
  cases cutAt? (fieldMarker label) line with
  | none => rfl
  | some parts => simp

/-- The box of a line and a field on it are written in either order. -/
theorem tick_rewriteField (label : String) (v line : List Char) :
    tick (rewriteField label v line) = rewriteField label v (tick line) := by
  rcases tick_cases line with ⟨front, ticked, behind, hboxed, rfl⟩ | hnone
  · rw [tick_boxed hboxed, rewriteField_append hboxed.noStar.1, tick_boxed hboxed,
      rewriteField_append hboxed.noStar.2]
  · rw [tick_eq_self hnone]
    rcases none_or_fieldAt label line with hcut | ⟨before, room, tail, field⟩
    · rw [rewriteField_of_none hcut, tick_eq_self hnone]
    · refine tick_eq_self fun front ticked hboxed hprefix => hnone front ticked hboxed ?_
      rw [field.rewrite, List.append_assoc] at hprefix
      rw [field.line_eq, List.append_assoc]
      exact (prefix_of_not_mem hboxed.noStar.1 hprefix).trans (List.prefix_append _ _)

end Markdown

end Runbook
