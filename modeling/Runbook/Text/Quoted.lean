import Runbook.Text.Unprintable

/-!
# Quoted text

A text between double quotes, with everything escaped that would not show: the quote and the
backslash, the usual control characters by a letter, and all other unprintable characters by their
code point in braces.
-/

set_option autoImplicit false

namespace Runbook.Text

/-- A character inside double quotes. -/
def escaped (c : Char) : List Char :=
  match c with
  | '"' => ['\\', '"']
  | '\\' => ['\\', '\\']
  | '\x00' => ['\\', '0']
  | '\t' => ['\\', 't']
  | '\n' => ['\\', 'n']
  | '\r' => ['\\', 'r']
  | c =>
    if isUnprintable c then ['\\', 'u', '\x7b'] ++ Nat.toDigits 16 c.toNat ++ ['\x7d'] else [c]

/-- The text between double quotes. -/
def quotedText (s : String) : String :=
  String.ofList ('"' :: s.toList.flatMap escaped ++ ['"'])

end Runbook.Text
