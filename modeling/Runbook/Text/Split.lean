import Runbook.Text.Blank

/-!
# Cutting a text into pieces

A text is a sequence of *chunks*, each a line together with the line feed that ends it. Readers
look at *lines*, the chunks without their ends; writers put chunks back together. Both count from
the same list, so a line number found by a reader names the chunk that a writer has to change.

Main statements: `flatten_chunks` — nothing is lost by cutting; `length_lines` — there are as many
lines as chunks.
-/

set_option autoImplicit false

namespace Runbook.Text

/-! ## Lines -/

/-- The text cut after every line feed. The last chunk may lack one; none is empty. -/
def chunks : List Char → List (List Char)
  | [] => []
  | c :: cs =>
    if c = '\n' then [c] :: chunks cs
    else match chunks cs with
      | [] => [[c]]
      | k :: ks => (c :: k) :: ks

/-- A chunk without its line feed and one carriage return before it. A carriage return that no
line feed follows belongs to the line. -/
def withoutLineEnd : List Char → List Char
  | [] => []
  | ['\n'] => []
  | ['\r', '\n'] => []
  | c :: cs => c :: withoutLineEnd cs

def lines (cs : List Char) : List (List Char) := (chunks cs).map withoutLineEnd

theorem flatten_chunks (cs : List Char) : (chunks cs).flatten = cs := by
  induction cs with
  | nil => rfl
  | cons c cs ih =>
    unfold chunks
    split
    · simp [ih]
    · split
      · rename_i h; rw [h] at ih; simp at ih; simp [← ih]
      · rename_i k ks h; rw [h] at ih; simp at ih; simp [ih]

theorem length_lines (cs : List Char) : (lines cs).length = (chunks cs).length := by
  simp [lines]

/-! ## Pieces between separators -/

/-- The pieces between the occurrences of a separator, in order; an empty text is one piece. -/
def pieces (sep : Char) : List Char → List (List Char)
  | [] => [[]]
  | c :: cs =>
    if c = sep then [] :: pieces sep cs
    else match pieces sep cs with
      | [] => [[c]]
      | p :: ps => (c :: p) :: ps

/-- The first piece and what follows the separator, or the whole text when there is none. -/
def firstPiece (sep : Char) (cs : List Char) : List Char × Option (List Char) :=
  (cs.takeWhile (· ≠ sep), match cs.dropWhile (· ≠ sep) with | [] => none | _ :: rest => some rest)

/-- The longest stretches of characters that have a property, in order. -/
def stretches (keep : Char → Bool) : List Char → List (List Char)
  | [] => []
  | c :: cs =>
    if keep c then
      match cs with
      | [] => [[c]]
      | d :: _ =>
        if keep d then
          match stretches keep cs with
          | [] => [[c]]
          | s :: ss => (c :: s) :: ss
        else [c] :: stretches keep cs
    else stretches keep cs

/-- The words of a text: its stretches without a blank. -/
def words (cs : List Char) : List (List Char) := stretches (!isBlank ·) cs

/-! ## Finding a text in another -/

/-- What stands before and after the first occurrence of a needle. -/
def cutAt? (needle : List Char) : List Char → Option (List Char × List Char)
  | [] => if needle.isEmpty then some ([], []) else none
  | c :: cs =>
    match needle.isPrefixOf? (c :: cs) with
    | some rest => some ([], rest)
    | none => (cutAt? needle cs).map fun (before, after) => (c :: before, after)

def occursIn (needle hay : List Char) : Bool := (cutAt? needle hay).isSome

end Runbook.Text
