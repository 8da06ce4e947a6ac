import Runbook.Text.Blank
import Runbook.Text.Digit

/-!
# Boxes to tick

Lists of things to do have a box in front of each item: `1. [ ] text` for the steps of a task,
`- [ ] text` for a checklist. Blanks may stand around every part. The readers want the text behind
the box; the writer (`tick`) wants to change the box and nothing else, so both start from the same
two cuts, `cutNumber?` and `cutBox?`.

Main statement: `tick_of_cut` — ticking replaces an empty box and keeps what is before and behind.
-/

set_option autoImplicit false

namespace Runbook.Markdown

open Text

/-- A number with its dot, and the rest. Blanks before the number and behind the dot belong to the
first part. -/
def cutNumber? (cs : List Char) : Option (List Char × List Char) :=
  let indent := cs.takeWhile isBlank
  let digits := (cs.dropWhile isBlank).takeWhile isDigit
  match (cs.dropWhile isBlank).dropWhile isDigit with
  | '.' :: rest =>
    if digits = [] then none
    else some (indent ++ digits ++ '.' :: rest.takeWhile isBlank, rest.dropWhile isBlank)
  | _ => none

/-- Is the box ticked, and what stands behind it? -/
def cutBox? : List Char → Option (Bool × List Char)
  | '[' :: inside =>
    match trimStart inside with
    | ']' :: rest => some (false, rest)
    | 'x' :: more | 'X' :: more =>
      match trimStart more with
      | ']' :: rest => some (true, rest)
      | _ => none
    | _ => none
  | _ => none

/-- The text behind a box. A box with nothing behind it labels nothing. -/
def boxLabel? (cs : List Char) : Option (List Char) :=
  match cutBox? cs with
  | some (_, c :: rest) => some (trim (c :: rest))
  | _ => none

def stepText? (line : List Char) : Option (List Char) :=
  (cutNumber? line).bind fun (_, rest) => boxLabel? rest

def itemText? (line : List Char) : Option (List Char) :=
  match trimStart line with
  | '-' :: rest | '*' :: rest => boxLabel? (trimStart rest)
  | _ => none

def tickedBox : List Char := ['[', 'x', ']']

/-- The line with its box ticked, if it is a numbered item with an empty box. The line end is kept
with everything else behind the box. -/
def tick (line : List Char) : List Char :=
  match cutNumber? line with
  | some (label, rest) =>
    match cutBox? rest with
    | some (false, behind) => label ++ tickedBox ++ behind
    | _ => line
  | none => line

theorem cutNumber?_append {cs label rest : List Char} (h : cutNumber? cs = some (label, rest)) :
    label ++ rest = cs := by
  unfold cutNumber? at h
  simp only at h
  split at h
  · rename_i tail htail
    split at h
    · simp at h
    · simp only [Option.some.injEq, Prod.mk.injEq] at h
      obtain ⟨rfl, rfl⟩ := h
      have hd := List.takeWhile_append_dropWhile (p := isDigit) (l := cs.dropWhile isBlank)
      have hb := List.takeWhile_append_dropWhile (p := isBlank) (l := cs)
      have ht := List.takeWhile_append_dropWhile (p := isBlank) (l := tail)
      rw [htail] at hd
      simp [ht, hd, hb]
  · simp at h

theorem tick_of_cut {cs label rest behind : List Char} (hn : cutNumber? cs = some (label, rest))
    (hb : cutBox? rest = some (false, behind)) : tick cs = label ++ tickedBox ++ behind := by
  simp [tick, hn, hb]

end Runbook.Markdown
