/-!
# Scripts

What a shell is told to do, after it has been read. A *word* is kept in the pieces that it was
written in, because what a piece means is only known when the word is reached: a variable may have
changed, a command in `$( )` has to run first, and an unquoted star stands for the names of files.
-/

set_option autoImplicit false

namespace Runbook.Shell

inductive Piece where
  /-- Text as it stands. Stars and question marks in it look for names of files. -/
  | bare (text : String)
  | quoted (text : String)
  /-- The value of a variable, or what stands for it when it has none. Unless it is quoted it is cut
  at blanks. -/
  | value (name : String) (standing : Option String) (inQuotes : Bool)
  /-- What a script writes. -/
  | output (script : String) (inQuotes : Bool)
  /-- The value of a sum, once what is to be filled in has been filled in. -/
  | sum (text : String) (inQuotes : Bool)
deriving DecidableEq, Repr

abbrev Word := List Piece

/-- A word that is nothing but text, as it was written. -/
def Word.bare? : Word → Option String
  | [.bare text] => some text
  | _ => none

inductive Direction where
  | input
  | output
  | append
  /-- To where another output goes. -/
  | duplicate
deriving DecidableEq, Repr

/-- A change of one input or output. -/
structure Redirect where
  direction : Direction
  /-- Which one: 0 is the input, 1 the output, 2 the output for complaints. -/
  number : Nat
  target : Word
deriving DecidableEq, Repr

inductive Script where
  | nothing
  /-- Variables to set, and a command with its arguments. -/
  | command (line : Nat) (settings : List (String × Word)) (words : List Word)
  | redirected (line : Nat) (redirects : List Redirect) (body : Script)
  | sequence (first second : Script)
  /-- The second if the first succeeds. -/
  | both (first second : Script)
  /-- The second if the first fails. -/
  | either (first second : Script)
  | negation (body : Script)
  /-- What the first writes is the input of the second. -/
  | pipe (first second : Script)
  /-- A shell of its own: what happens to variables stays in there. -/
  | apart (body : Script)
  /-- Something whose end need not be waited for. -/
  | aside (body : Script)
  | choice (condition yes no : Script)
  /-- Again and again as long as the condition succeeds, or until it does. -/
  | loop (untilSo : Bool) (condition body : Script)
  | forEach (name : String) (words : List Word) (body : Script)
deriving Repr

end Runbook.Shell
