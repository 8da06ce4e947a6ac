/-!
# Text in JSON

Between double quotes a text is a sequence of *pieces*: characters that stand for themselves or are
escaped by a letter, and 16-bit units named by four hexadecimal digits. Two units may make one
character, and a unit that lacks its other half makes none, which is why pieces are kept until
somebody asks for the text (`textOf?`).

Written text escapes what has to be escaped and nothing else (`quote`).
-/

set_option autoImplicit false

namespace Runbook.Json

/-! ## Reading -/

/-- A part of a quoted text. -/
inductive Piece where
  | char (c : Char)
  /-- A UTF-16 unit. -/
  | unit (n : Nat)
deriving DecidableEq, Repr

/-- The first half of a character beyond the 16-bit range. -/
def isLeading (n : Nat) : Bool := 0xD800 ≤ n && n < 0xDC00

/-- The second half of such a character. -/
def isTrailing (n : Nat) : Bool := 0xDC00 ≤ n && n < 0xE000

/-- The character that two halves make. -/
def joinHalves (leading trailing : Nat) : Char :=
  Char.ofNat (0x10000 + (leading - 0xD800) * 0x400 + (trailing - 0xDC00))

/-- The characters that pieces make, if every unit has its other half. -/
def charsOf? : List Piece → Option (List Char)
  | [] => some []
  | .char c :: rest => (charsOf? rest).map (c :: ·)
  | .unit n :: rest =>
    if isTrailing n then none
    else if isLeading n then
      match rest with
      | .unit m :: rest =>
        if isTrailing m then (charsOf? rest).map (joinHalves n m :: ·) else none
      | _ => none
    else (charsOf? rest).map (Char.ofNat n :: ·)

def textOf? (pieces : List Piece) : Option String := (charsOf? pieces).map String.ofList

/-- The character that a letter behind a backslash stands for. -/
def simpleEscape? : Char → Option Char
  | '"' => some '"'
  | '\\' => some '\\'
  | '/' => some '/'
  | 'b' => some '\x08'
  | 'f' => some '\x0c'
  | 'n' => some '\n'
  | 'r' => some '\r'
  | 't' => some '\t'
  | _ => none

def hexDigit? (c : Char) : Option Nat :=
  if c.isDigit then some (c.toNat - '0'.toNat)
  else if 'a' ≤ c ∧ c ≤ 'f' then some (c.toNat - 'a'.toNat + 10)
  else if 'A' ≤ c ∧ c ≤ 'F' then some (c.toNat - 'A'.toNat + 10)
  else none

/-! ## Writing -/

/-- A control character by its number. -/
def controlEscape (c : Char) : List Char :=
  ['\\', 'u', '0', '0', Nat.digitChar (c.toNat / 16), Nat.digitChar (c.toNat % 16)]

def escape (c : Char) : List Char :=
  if c = '"' then ['\\', '"']
  else if c = '\\' then ['\\', '\\']
  else if c = '\x08' then ['\\', 'b']
  else if c = '\x0c' then ['\\', 'f']
  else if c = '\n' then ['\\', 'n']
  else if c = '\r' then ['\\', 'r']
  else if c = '\t' then ['\\', 't']
  else if c.toNat < 0x20 then controlEscape c
  else [c]

def quote (s : String) : String := String.ofList ('"' :: s.toList.flatMap escape ++ ['"'])

end Runbook.Json
