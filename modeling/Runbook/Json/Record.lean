import Runbook.Json.Value
import Runbook.Text.Digit

/-!
# Records in JSON

A record is written as an object with its fields as members, or as an array of its fields in order.
As an object it may have members that are no fields, which are passed over, and each field at most
once; as an array it has exactly its fields.
-/

set_option autoImplicit false

namespace Runbook.Json

namespace Value

def string? : Value → Option String
  | .text pieces => textOf? pieces
  | _ => none

def optionalString? : Value → Option (Option String)
  | .null => some none
  | v => v.string?.map some

/-- A number without sign, point and exponent that is below a bound. -/
def natBelow? (bound : Nat) : Value → Option Nat
  | .number digits => Text.natBelow? bound digits
  | _ => none

def list? {α : Type} (read : Value → Option α) : Value → Option (List α)
  | .array items => items.mapM read
  | _ => none

/-- The word for one of several cases: a text, or an object that has the word as its only member
and no value for it. -/
def word? : Value → Option String
  | .text pieces => textOf? pieces
  | .object [(name, .null)] => textOf? name
  | _ => none

end Value

/-- Fields that have been found, by name. -/
abbrev Fields := List (String × Value)

/-- The members that are among the fields of a record. A field that comes twice, or a name that is
no text, spoils the record. -/
def membersAmong? (names : List String) :
    Fields → List (List Piece × Value) → Option Fields
  | found, [] => some found
  | found, (pieces, v) :: rest =>
    match textOf? pieces with
    | none => none
    | some name =>
      if !names.contains name then membersAmong? names found rest
      else if (found.lookup name).isSome then none
      else membersAmong? names ((name, v) :: found) rest

def Value.fields? (names : List String) : Value → Option Fields
  | .object members => membersAmong? names [] members
  | .array items => if items.length = names.length then some (names.zip items) else none
  | _ => none

/-- A field that has to be there. -/
def Fields.get? {α : Type} (fields : Fields) (name : String) (read : Value → Option α) :
    Option α :=
  (fields.lookup name).bind read

end Runbook.Json
