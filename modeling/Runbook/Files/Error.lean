/-!
# Why a file operation fails

The causes that the rest of the library tells apart, with the wording and the number that a
system reports for each.
-/

set_option autoImplicit false

namespace Runbook

/-- The cause of a failed file operation. -/
inductive FileError where
  | notFound
  | alreadyExists
  | notDirectory
  | isDirectory
  | nameTooLong
  | notEmpty
  | notText
  | nulInName
deriving DecidableEq, Repr

namespace FileError

def words : FileError → String
  | .notFound => "No such file or directory"
  | .alreadyExists => "File exists"
  | .notDirectory => "Not a directory"
  | .isDirectory => "Is a directory"
  | .nameTooLong => "File name too long"
  | .notEmpty => "Directory not empty"
  | .notText => "stream did not contain valid UTF-8"
  | .nulInName => "file name contained an unexpected NUL byte"

/-- The number that the system has for the cause, if it is one of the system's. -/
def number? : FileError → Option Nat
  | .notFound => some 2
  | .alreadyExists => some 17
  | .notDirectory => some 20
  | .isDirectory => some 21
  | .nameTooLong => some 36
  | .notEmpty => some 39
  | .notText | .nulInName => none

def message (e : FileError) : String :=
  match e.number? with
  | some n => e.words ++ " (os error " ++ toString n ++ ")"
  | none => e.words

end FileError

end Runbook
