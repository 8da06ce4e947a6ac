import Runbook.Json.Token

/-!
# JSON values

Tokens are put together by a machine with a stack of the arrays and objects that are still open. So
a text may nest as deeply as it likes, and a text with anything behind its value has none.

Objects keep their members in order and may repeat a name. What a repetition means is up to whoever
reads them.
-/

set_option autoImplicit false

namespace Runbook.Json

/-- A value as it was written. -/
inductive Value where
  | null
  | bool (b : Bool)
  | number (digits : List Char)
  | text (pieces : List Piece)
  | array (items : List Value)
  | object (members : List (List Piece × Value))

/-- An array or object that is still open, its parts in reverse order. -/
inductive Frame where
  | array (items : List Value)
  /-- With the name of the member whose value is being read. -/
  | object (members : List (List Piece × Value)) (name : List Piece)

/-- What has to come next. -/
inductive Reading where
  | value
  /-- A first item, or the end of the array. -/
  | firstItem
  /-- A comma, or the end of the array whose items are given. -/
  | afterItem (items : List Value)
  /-- A first name, or the end of the object. -/
  | firstName
  /-- A name behind the members given. -/
  | name (members : List (List Piece × Value))
  | colon (members : List (List Piece × Value)) (name : List Piece)
  /-- A comma, or the end of the object whose members are given. -/
  | afterMember (members : List (List Piece × Value))
  | finished (v : Value)

structure Machine where
  stack : List Frame := []
  reading : Reading := .value

namespace Machine

/-- The machine with a value complete. -/
def complete (stack : List Frame) (v : Value) : Machine :=
  match stack with
  | [] => ⟨[], .finished v⟩
  | .array items :: stack => ⟨stack, .afterItem (v :: items)⟩
  | .object members name :: stack => ⟨stack, .afterMember ((name, v) :: members)⟩

/-- A token where a value has to come. -/
def value? (stack : List Frame) : Token → Option Machine
  | .null => some (complete stack .null)
  | .bool b => some (complete stack (.bool b))
  | .number digits => some (complete stack (.number digits))
  | .text pieces => some (complete stack (.text pieces))
  | .mark '[' => some ⟨stack, .firstItem⟩
  | .mark '\x7b' => some ⟨stack, .firstName⟩
  | .mark _ => none

def step? (m : Machine) (t : Token) : Option Machine :=
  match m.reading, t with
  | .value, t => value? m.stack t
  | .firstItem, .mark ']' => some (complete m.stack (.array []))
  | .firstItem, t => value? (.array [] :: m.stack) t
  | .afterItem items, .mark ',' => some ⟨.array items :: m.stack, .value⟩
  | .afterItem items, .mark ']' => some (complete m.stack (.array items.reverse))
  | .firstName, .mark '\x7d' => some (complete m.stack (.object []))
  | .firstName, .text name => some ⟨m.stack, .colon [] name⟩
  | .name members, .text name => some ⟨m.stack, .colon members name⟩
  | .colon members name, .mark ':' => some ⟨.object members name :: m.stack, .value⟩
  | .afterMember members, .mark ',' => some ⟨m.stack, .name members⟩
  | .afterMember members, .mark '\x7d' => some (complete m.stack (.object members.reverse))
  | _, _ => none

def result? (m : Machine) : Option Value :=
  match m.reading with
  | .finished v => some v
  | _ => none

def run? (m : Machine) : List Token → Option Value
  | [] => m.result?
  | t :: ts =>
    match m.step? t with
    | none => none
    | some m => run? m ts

end Machine

def parse? (text : String) : Option Value :=
  (tokens? text.toList).bind fun tokens => Machine.run? {} tokens

end Runbook.Json
