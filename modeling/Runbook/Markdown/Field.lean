import Runbook.Text.Split

/-!
# Fields

A field is a bold label with a colon, `**Status:** DRAFT`. Its value ends at the next star, so
that several fields fit on a line and a line may be emphasised as a whole. `fieldValue?` reads a
value; `rewriteField` replaces it and keeps the room around it.

A reader works on lines and a writer on chunks, which end in a line feed. The value that is
rewritten therefore stops at the end of the line too.
-/

set_option autoImplicit false

namespace Runbook.Markdown

open Text

def fieldMarker (label : String) : List Char := '*' :: '*' :: label.toList ++ [':', '*', '*']

/-- The value of a field on a line: from its first marker to the next star. -/
def fieldValue? (label : String) (line : List Char) : Option (List Char) :=
  (cutAt? (fieldMarker label) line).map fun (_, behind) => trim (behind.takeWhile (· ≠ '*'))

/-- A star or the end of the line. -/
def endsValue (c : Char) : Bool := c == '*' || c == '\r' || c == '\n'

/-- The room that a value takes, with another value in it. The blanks around a value stay; where
there is nothing but blanks, one space sets the value off. -/
def refill (room value : List Char) : List Char :=
  if trim room = [] then ' ' :: value
  else room.takeWhile isBlank ++ value ++ (room.reverse.takeWhile isBlank).reverse

/-- The line with another value for a field; a line without the field stays as it is. -/
def rewriteField (label : String) (value line : List Char) : List Char :=
  match cutAt? (fieldMarker label) line with
  | none => line
  | some (before, behind) =>
    before ++ fieldMarker label ++ refill (behind.takeWhile (!endsValue ·)) value
      ++ behind.dropWhile (!endsValue ·)

end Runbook.Markdown
