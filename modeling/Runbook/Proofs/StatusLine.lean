import Mathlib.Data.List.Infix
import Runbook.Proofs.LineFronts
import Runbook.Proofs.PlanMarks

/-!
# The line of a marker

An edit behind a marker of the status leaves the front of its line as it is (`SameFront`), and with the
front what kind of line it is. When such a line is touched and no other (`Touches`), the frame of the
document stays (`Touches.framed`), and a reader finds what it found before, but for what the line itself
says: a field of the header stands on the same line (`Touches.headerField?_found`), and at most one item
of the checklist is another one (`Touches.readCriteria`).
-/

set_option autoImplicit false

namespace Runbook.Plan

open Text Markdown

/-! ## Lines with the same front -/

/-- Two texts are the same up to the end of a marker of the status. Behind it they may differ in any
way, so only what is decided in front of the marker is known to agree. -/
def SameFront (l l' : List Char) : Prop :=
  ∃ front behind behind', l = front ++ fieldMarker "Status" ++ behind ∧
    l' = front ++ fieldMarker "Status" ++ behind'

/-- A marker begins and ends with two stars, so a line that has one can be split at its last two. -/
theorem split_marker (label : String) (front behind : List Char) :
    front ++ fieldMarker label ++ behind =
      (front ++ '*' :: '*' :: (label.toList ++ [':'])) ++ '*' :: '*' :: behind := by
  rw [fieldMarker_eq_stem]
  simp

/-- A marker is not blank, so trimming a text with one leaves the marker and what is between. -/
theorem trim_marker (label : String) (front behind : List Char) :
    trim (front ++ fieldMarker label ++ behind) =
      trimStart front ++ fieldMarker label ++ trimEnd behind := by
  have hopen : front ++ fieldMarker label ++ behind =
      front ++ '*' :: ((fieldMarker label).tail ++ behind) := by simp [fieldMarker]
  have hclose : (fieldMarker label).tail ++ behind =
      ('*' :: label.toList ++ [':', '*']) ++ '*' :: behind := by simp [fieldMarker]
  rw [hopen, trim_star, hclose, trimEnd_append_cons isBlank_star]
  simp [fieldMarker]

section SameFront

variable {l l' : List Char} (same : SameFront l l')
include same

/-- A fence begins a line with quotes, and the marker does not; so that it is one is decided before it.
-/
theorem SameFront.fence : isFence l' = isFence l := by
  obtain ⟨front, behind, behind', rfl, rfl⟩ := same
  rw [split_marker, split_marker]
  exact isFence_star _ _ _

/-- Both are headings of one level or none is. A title has a star, and both are titles of tasks with one
number or none is. -/
theorem SameFront.heading : parseHeading? l = none ∧ parseHeading? l' = none ∨
    ∃ level title rest rest', parseHeading? l = some (level, title ++ '*' :: rest) ∧
      parseHeading? l' = some (level, title ++ '*' :: rest') := by
  obtain ⟨front, behind, behind', rfl, rfl⟩ := same
  rw [split_marker, split_marker]
  rcases parseHeading?_star (front ++ '*' :: '*' :: ("Status".toList ++ [':'])) with
    hnone | ⟨level, title, hsome⟩
  · exact .inl ⟨hnone _, hnone _⟩
  · exact .inr ⟨level, title, _, _, hsome _, hsome _⟩

/-- Both are items of a checklist or none is. What the item says may be another thing. -/
theorem SameFront.item : (itemText? l').isSome = (itemText? l).isSome := by
  obtain ⟨front, behind, behind', rfl, rfl⟩ := same
  rw [split_marker, split_marker]
  rcases itemText?_star (front ++ '*' :: '*' :: ("Status".toList ++ [':'])) with hnone | hsome
  · rw [hnone, hnone]
  · rw [hsome, hsome]

theorem SameFront.notBlank : trim l ≠ [] ∧ trim l' ≠ [] := by
  obtain ⟨front, behind, behind', rfl, rfl⟩ := same
  rw [split_marker, split_marker]
  exact ⟨trim_star_ne_nil _ _, trim_star_ne_nil _ _⟩

/-- As rows of a task both are of the same kind. -/
theorem SameFront.kind : SameKind (trim l) (trim l') := by
  obtain ⟨front, behind, behind', rfl, rfl⟩ := same
  rw [trim_marker, trim_marker]
  have hforeign : ∀ label ∈ rowLabels, ¬ fieldMarker "Status" <:+: fieldMarker label := by decide
  rcases rowOf_marker hforeign (trimStart front) with
    ⟨rest, hrow⟩ | hrow | ⟨rest, hrow⟩ | hrow
  · exact .context (hrow _) (hrow _)
  · exact .steps (hrow _) (hrow _)
  · exact .verify (hrow _) (hrow _)
  · refine .other (hrow _) (hrow _) ?_
    rw [split_marker, split_marker]
    rcases stepText?_star (trimStart front ++ '*' :: '*' :: ("Status".toList ++ [':'])) with
      hnone | hsome
    · rw [hnone, hnone]
    · rw [hsome, hsome]

end SameFront

/-- Titles that are the same up to a star are of tasks with one number, or of no tasks. -/
theorem taskNumber_star (title rest rest' : List Char) :
    (taskTitle? (title ++ '*' :: rest')).map (·.1) = (taskTitle? (title ++ '*' :: rest)).map (·.1) := by
  rcases taskTitle?_star title with hnone | ⟨digits, name, hsome⟩
  · rw [hnone, hnone]
  · rw [hsome, hsome]
    rfl

/-- The group of the tasks without a heading has no star in its name, so no heading with a marker is
taken for it. -/
theorem star_ne_general (title rest : List Char) :
    String.ofList (title ++ '*' :: rest) ≠ TaskGroup.general := by
  intro h
  have hmem : '*' ∈ (String.ofList (title ++ '*' :: rest)).toList := by simp
  rw [h] at hmem
  exact absurd hmem (by decide)

/-- When a line of a checklist is another one, at most the item on it is another one: the line neither
ends the list nor lets it go on where it ended. -/
theorem readItems_retold {l l' : Line} (some : trim l.text ≠ []) (some' : trim l'.text ≠ [])
    (same : (itemText? l'.text).isSome = (itemText? l.text).isSome) (above below : List Line) :
    readItems (above ++ l' :: below) = readItems (above ++ l :: below) ∨
      (itemText? l.text).isSome = true ∧ ∃ k item,
        readItems (above ++ l' :: below) = (readItems (above ++ l :: below)).set k item := by
  induction above with
  | nil =>
    rw [List.nil_append, List.nil_append, readItems, readItems, if_neg some, if_neg some']
    cases hitem : itemText? l.text with
    | none =>
      rw [hitem, Option.isSome_none, Option.isSome_eq_false_iff, Option.isNone_iff_eq_none] at same
      rw [same]
      exact .inl rfl
    | some text =>
      rw [hitem, Option.isSome_some, Option.isSome_iff_exists] at same
      obtain ⟨text', hitem'⟩ := same
      rw [hitem']
      exact .inr ⟨rfl, 0, String.ofList text', rfl⟩
  | cons m above ih =>
    rw [List.cons_append, List.cons_append, readItems, readItems]
    by_cases hblank : trim m.text = []
    · rw [if_pos hblank, if_pos hblank]
      exact ih
    · rw [if_neg hblank, if_neg hblank]
      cases itemText? m.text with
      | none => exact .inl rfl
      | some text =>
        rcases ih with hsame | ⟨hitem, k, item, hset⟩
        · exact .inl (congrArg (String.ofList text :: ·) hsame)
        · exact .inr ⟨hitem, k + 1, item, congrArg (String.ofList text :: ·) hset⟩

/-! ## One line of a document -/

theorem nodup_lines (text : List Char) : (Outline.ofText text).lines.Nodup :=
  List.Nodup.of_map Line.number ((numbers_ofText text).imp fun h => Nat.ne_of_lt h)

theorem exists_of_readField? {label : String} {ls : List Line} {n : Nat} {value : List Char}
    (found : readField? label ls = some (n, value)) : ∃ l ∈ ls, l.isFenced = false ∧ l.number = n ∧
      fieldValue? label l.text = some value := by
  obtain ⟨l, hl, hfield⟩ := List.exists_of_findSome?_eq_some found
  split at hfield
  · cases hfield
  · rename_i hfree
    rw [Option.map_eq_some_iff] at hfield
    obtain ⟨value', hvalue, hpair⟩ := hfield
    cases hpair
    exact ⟨l, hl, Bool.eq_false_iff.mpr hfree, rfl, hvalue⟩

/-- A field of the header is read from a line outside of fences, and its number is told with the value.
-/
theorem exists_of_headerField? {o : Outline} {label : String} {n : Nat} {value : List Char}
    (found : headerField? o label = some (n, value)) : ∃ l ∈ o.lines, l.isFenced = false ∧
      l.number = n ∧ fieldValue? label l.text = some value := by
  rw [headerField?, Option.or_eq_some_iff] at found
  rcases found with hblock | ⟨-, hlines⟩
  · obtain ⟨l, hl, hline⟩ := exists_of_readField? hblock
    exact ⟨l, (sectionBody_sublist _ _).subset hl, hline⟩
  · exact exists_of_readField? hlines

/-- An edit of one line of a text, a line that has a part in the outline and the same front after it.
Everything that follows is about such an edit; a status that is written is one. -/
structure Touches (edit : Nat → List Char → List Char) (text : String) (l : Line) : Prop where
  edits : ∀ n, LineEdit (edit n)
  mem : l ∈ (Outline.ofText text.toList).lines
  free : l.isFenced = false
  front : SameFront l.text (edit l.number l.text)
  others : ∀ n ≠ l.number, ∀ t, edit n t = t

section Touches

variable {edit : Nat → List Char → List Char} {text : String} {l : Line}
  (touches : Touches edit text l)
include touches

theorem Touches.redrawn_self : redrawn edit l = openLine l.number (edit l.number l.text) :=
  redrawn_of_free touches.free

/-- All other lines are left alone, fenced or not. -/
theorem Touches.redrawn_other {m : Line} (mem : m ∈ (Outline.ofText text.toList).lines)
    (other : m ≠ l) : redrawn edit m = m := by
  have hnumber : m.number ≠ l.number := fun h => other (line_unique touches.mem mem h)
  cases hfenced : m.isFenced with
  | true => rw [redrawn_of_fenced hfenced, touches.others _ hnumber]
  | false => rw [redrawn_of_free hfenced, touches.others _ hnumber, ← eq_openLine mem hfenced]

/-- Some lines of the document are not changed, or one of them is. No line stands twice among them, so
there is only one place. -/
theorem Touches.map_redrawn {ls : List Line}
    (among : ls.Sublist (Outline.ofText text.toList).lines) :
    ls.map (redrawn edit) = ls ∨ ∃ above below, ls = above ++ l :: below ∧
      ls.map (redrawn edit) = above ++ redrawn edit l :: below := by
  have hsame : ∀ ms : List Line, ms.Sublist (Outline.ofText text.toList).lines → l ∉ ms →
      ms.map (redrawn edit) = ms := by
    intro ms hms hl
    have hmap : ms.map (redrawn edit) = ms.map id := List.map_congr_left fun m hm =>
      touches.redrawn_other (hms.subset hm) fun h => hl (h ▸ hm)
    rwa [List.map_id] at hmap
  -- the lines of an outline are all different, so the one that changes stands once or not at all
  by_cases hl : l ∈ ls
  · obtain ⟨above, below, rfl⟩ := List.append_of_mem hl
    have hnodup : (above ++ l :: below).Nodup := among.nodup (nodup_lines text.toList)
    have habove : l ∉ above := fun h =>
      (List.nodup_append.mp hnodup).2.2 l h l List.mem_cons_self rfl
    have hbelow : l ∉ below := (List.nodup_cons.mp (List.nodup_append.mp hnodup).2.1).1
    refine .inr ⟨above, below, rfl, ?_⟩
    rw [List.map_append, List.map_cons,
      hsame above ((List.sublist_append_left _ _).trans among) habove,
      hsame below (((List.sublist_cons_self _ _).trans (List.sublist_append_right _ _)).trans among)
        hbelow]
  · exact .inl (hsame ls among hl)

/-- The line that is changed is a heading of the same level, with a star in its title before and
after, or it is none before and after. -/
theorem Touches.heading :
    l.heading? = none ∧ (redrawn edit l).heading? = none ∨
      ∃ level title rest rest', l.heading? = some ⟨level, title ++ '*' :: rest, l.number⟩ ∧
        (redrawn edit l).heading? = some ⟨level, title ++ '*' :: rest', l.number⟩ := by
  have hopen := eq_openLine touches.mem touches.free
  have hheading : l.heading? =
      (parseHeading? l.text).map fun found => ⟨found.1, found.2, l.number⟩ := by
    rw [hopen]
    exact heading?_openLine _ _
  have hheading' : (redrawn edit l).heading? =
      (parseHeading? (edit l.number l.text)).map fun found => ⟨found.1, found.2, l.number⟩ := by
    rw [touches.redrawn_self]
    exact heading?_openLine _ _
  rw [hheading, hheading']
  rcases touches.front.heading with ⟨h, h'⟩ | ⟨level, title, rest, rest', h, h'⟩
  · rw [h, h']
    exact .inl ⟨rfl, rfl⟩
  · rw [h, h']
    exact .inr ⟨level, title, rest, rest', rfl, rfl⟩

/-- No section that is read stands under the line, before or after: its title would have a star in it.
-/
theorem Touches.untitled {name : String} (mem : name ∈ sectionNames) :
    Outline.isTitled name.toList l = false ∧
      Outline.isTitled name.toList (redrawn edit l) = false := by
  have hnone : ∀ {m : Line}, m.heading? = none → Outline.isTitled name.toList m = false := by
    intro m hm
    rw [Outline.isTitled, hm]
    rfl
  have hstar : ∀ {m : Line} {level line : Nat} {title rest : List Char},
      m.heading? = some ⟨level, title ++ '*' :: rest, line⟩ →
        Outline.isTitled name.toList m = false := by
    intro m level line title rest hm
    rw [← Bool.not_eq_true]
    exact fun htitled => not_titled_star mem _ _ _ _ (titled_of_isTitled htitled hm)
  rcases touches.heading with ⟨h, h'⟩ | ⟨level, title, rest, rest', h, h'⟩
  · exact ⟨hnone h, hnone h'⟩
  · exact ⟨hstar h, hstar h'⟩

/-- The edit leaves the frame of the document as it is, so what is left to compare is section by
section. -/
theorem Touches.framed : Framed edit text where
  edits := touches.edits
  fences m hm := by
    by_cases h : m = l
    · rw [h]
      exact touches.front.fence
    · have htext := congrArg Line.text (touches.redrawn_other hm h)
      rw [text_redrawn] at htext
      rw [htext]
  verbatim m hm hfenced := by
    -- the line that is touched has a part in the outline, and this one has none
    have hother : m ≠ l := by
      rintro rfl
      rw [touches.free] at hfenced
      cases hfenced
    have htext := congrArg Line.text (touches.redrawn_other hm hother)
    rwa [text_redrawn] at htext
  levels m hm := by
    by_cases h : m = l
    · rw [h]
      rcases touches.heading with ⟨h, h'⟩ | ⟨level, title, rest, rest', h, h'⟩
      · rw [h, h']
      · rw [h, h']
        rfl
    · rw [touches.redrawn_other hm h]
  titled name hname m hm := by
    by_cases h : m = l
    · obtain ⟨hl, hl'⟩ := touches.untitled hname
      rw [h, hl, hl']
      exact ⟨rfl, fun htitled => Bool.noConfusion htitled⟩
    · rw [touches.redrawn_other hm h]
      exact ⟨rfl, fun _ => rfl⟩

/-! ## What is read of the other lines -/

/-- A field that the line says as before is read as before. -/
theorem Touches.readField? {label : String} {ls : List Line}
    (among : ls.Sublist (Outline.ofText text.toList).lines)
    (same : l ∈ ls → fieldValue? label (edit l.number l.text) = fieldValue? label l.text) :
    readField? label (ls.map (redrawn edit)) = Plan.readField? label ls := by
  refine readField?_map (fun m _ => keeps_redrawn edit m) fun m hm _ => ?_
  by_cases h : m = l
  · rw [text_redrawn, h]
    exact same (h ▸ hm)
  · rw [touches.redrawn_other (among.subset hm) h]

/-- A field that the line has is found there with what it says now. The lines in front of it are the
same, so none of them comes first. -/
theorem Touches.readField?_found {label : String} {ls : List Line} {value value' : List Char}
    (among : ls.Sublist (Outline.ofText text.toList).lines)
    (found : Plan.readField? label ls = some (l.number, value))
    (said : fieldValue? label (edit l.number l.text) = some value') :
    Plan.readField? label (ls.map (redrawn edit)) = some (l.number, value') := by
  induction ls with
  | nil => cases found
  | cons m ls ih =>
    have hm : m ∈ (Outline.ofText text.toList).lines := among.subset List.mem_cons_self
    have hrest := ih ((List.sublist_cons_self m ls).trans among)
    rw [Plan.readField?, List.findSome?_cons] at found
    rw [List.map_cons, Plan.readField?, List.findSome?_cons]
    by_cases h : m = l
    · rw [h, (keeps_redrawn edit l).fenced, (keeps_redrawn edit l).number, touches.free,
        text_redrawn, said]
      rfl
    · rw [touches.redrawn_other hm h]
      cases hfield : if m.isFenced = true then none else
          (fieldValue? label m.text).map fun value => (m.number, value) with
      | none =>
        rw [hfield] at found
        exact hrest found
      | some said' =>
        -- the field would be found on another line
        rw [hfield] at found
        obtain rfl := Option.some.inj found
        split at hfield
        · cases hfield
        · rw [Option.map_eq_some_iff] at hfield
          obtain ⟨_, -, hpair⟩ := hfield
          exact absurd (line_unique touches.mem hm (congrArg Prod.fst hpair)) h

/-- The checklist is read up to what the line says, if the line is an item, and if its label is on the
same lines as before. -/
theorem Touches.readCriteria {ls : List Line}
    (among : ls.Sublist (Outline.ofText text.toList).lines)
    (label : l ∈ ls → fieldValue? "Success Criteria" (edit l.number l.text) =
      fieldValue? "Success Criteria" l.text) :
    Plan.readCriteria (ls.map (redrawn edit)) = Plan.readCriteria ls ∨
      l ∈ ls ∧ (itemText? l.text).isSome = true ∧ ∃ k item,
        Plan.readCriteria (ls.map (redrawn edit)) = (Plan.readCriteria ls).set k item := by
  have hdrop : (ls.map (redrawn edit)).dropWhile
      (fun m => !occursIn (fieldMarker "Success Criteria") m.text) =
        (ls.dropWhile fun m => !occursIn (fieldMarker "Success Criteria") m.text).map
          (redrawn edit) := by
    refine dropWhile_map_of_same fun m hm => ?_
    by_cases h : m = l
    · rw [text_redrawn, h, occursIn_of_same (label (h ▸ hm))]
    · rw [touches.redrawn_other (among.subset hm) h]
  have hsuffix := List.dropWhile_suffix (l := ls)
    fun m => !occursIn (fieldMarker "Success Criteria") m.text
  rw [Plan.readCriteria, Plan.readCriteria, hdrop]
  cases hfound : ls.dropWhile fun m => !occursIn (fieldMarker "Success Criteria") m.text with
  | nil => exact .inl rfl
  | cons m below =>
    rw [hfound] at hsuffix
    have hbelow : below.Sublist ls := (List.sublist_cons_self m below).trans hsuffix.sublist
    simp only [List.map_cons]
    -- the line stands below the label, or it has no part in the checklist
    rcases touches.map_redrawn (hbelow.trans among) with hsame | ⟨above, below', rfl, hmap⟩
    · rw [hsame]
      exact .inl rfl
    · have hsome : trim (redrawn edit l).text ≠ [] := by
        rw [text_redrawn]
        exact touches.front.notBlank.2
      have hitem : (itemText? (redrawn edit l).text).isSome = (itemText? l.text).isSome := by
        rw [text_redrawn]
        exact touches.front.item
      rw [hmap]
      rcases readItems_retold touches.front.notBlank.1 hsome hitem above below' with
        hitems | ⟨hitem, k, item, hitems⟩
      · exact .inl hitems
      · exact .inr ⟨hbelow.subset (by simp), hitem, k, item, hitems⟩

/-- A field of the header that the line says as before is read as before, whatever else the line says.
-/
theorem Touches.headerField? {label : String}
    (same : fieldValue? label (edit l.number l.text) = fieldValue? label l.text) :
    headerField? (Outline.ofText (mapChunks edit text).toList) label =
      Plan.headerField? (Outline.ofText text.toList) label := by
  rw [Plan.headerField?, Plan.headerField?, touches.framed.sectionBody (by simp [sectionNames]),
    touches.framed.outline, touches.readField? (sectionBody_sublist _ _) fun _ => same,
    touches.readField? (List.Sublist.refl _) fun _ => same]

/-- The field of the header that the line has is found there with what it says now. -/
theorem Touches.headerField?_found {label : String} {value value' : List Char}
    (found : Plan.headerField? (Outline.ofText text.toList) label = some (l.number, value))
    (said : fieldValue? label (edit l.number l.text) = some value') :
    Plan.headerField? (Outline.ofText (mapChunks edit text).toList) label =
      some (l.number, value') := by
  have hblock : (sectionBody (Outline.ofText text.toList) "Specification").Sublist
      (Outline.ofText text.toList).lines := sectionBody_sublist _ _
  rw [Plan.headerField?] at found
  rw [Plan.headerField?, touches.framed.sectionBody (by simp [sectionNames]), touches.framed.outline]
  cases hfound : Plan.readField? label (sectionBody (Outline.ofText text.toList) "Specification") with
  | some field =>
    rw [hfound, Option.some_or] at found
    obtain rfl := Option.some.inj found
    rw [touches.readField?_found hblock hfound said, Option.some_or]
  | none =>
    rw [hfound, Option.none_or] at found
    rw [touches.readField? hblock, hfound, Option.none_or,
      touches.readField?_found (List.Sublist.refl _) found said]
    intro hl
    -- a line of the section would have been found there
    obtain ⟨m, hm, -, hnumber, hvalue⟩ := exists_of_readField? found
    rw [line_unique touches.mem hm hnumber] at hvalue
    have hnone := List.findSome?_eq_none_iff.mp hfound l hl
    rw [touches.free, if_neg Bool.false_ne_true, hvalue] at hnone
    cases hnone

end Touches

end Runbook.Plan
