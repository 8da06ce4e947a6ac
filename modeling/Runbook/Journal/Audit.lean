import Runbook.Files.Tree
import Runbook.Journal.Basic
import Runbook.Json.Record
import Runbook.Time.Rfc3339

/-!
# The audit file

Entries of runs are kept in a file, one JSON record a line, each with the time it was made. The file
only grows: every run appends to it. Whoever reads it takes the lines that are records and passes
over all others, so a line that was cut off or written by somebody else spoils nothing.
-/

set_option autoImplicit false

namespace Runbook.Audit

open Json

/-- An entry and when it was made. -/
structure Record where
  time : Time.Instant
  entry : Entry
deriving DecidableEq, Repr

namespace Record

def fieldNames : List String := ["timestamp", "level", "message"]

/-- The record on a line of its own, without the end of the line. -/
def render (r : Record) : String :=
  "\x7b" ++ quote "timestamp" ++ ":" ++ quote r.time.render ++ ","
    ++ quote "level" ++ ":" ++ quote r.entry.level.word ++ ","
    ++ quote "message" ++ ":" ++ quote r.entry.message ++ "\x7d"

def ofValue? (v : Value) : Option Record := do
  let fields ← v.fields? fieldNames
  let time ← fields.get? "timestamp" fun v => v.string?.bind Time.Instant.parse?
  let level ← fields.get? "level" fun v => v.word?.bind Level.ofWord?
  let message ← fields.get? "message" Value.string?
  return { time, entry := { level, message } }

def parse? (line : String) : Option Record := (Json.parse? line).bind ofValue?

end Record

def readAll (text : String) : List Record :=
  (Text.lines text.toList).filterMap fun line => Record.parse? (String.ofList line)

/-- The records of a file; a file that is not there holds none. -/
def recordsIn (t : Files.Tree) (path : String) : Except FileError (List Record) :=
  if t.pathExists path then (t.readText path).map readAll else .ok []

/-- The tree with a record at the end of a file. -/
def append (t : Files.Tree) (path : String) (r : Record) : Except FileError Files.Tree :=
  t.append path (.text (r.render ++ "\n"))

/-- The tree with an entry noted in the audit file, if one is kept. What cannot be written is
lost. -/
def note (t : Files.Tree) (file : Option String) (time : Time.Instant) (entry : Entry) :
    Files.Tree :=
  match file with
  | none => t
  | some path => (append t path { time, entry }).toOption.getD t

def pathIn (directory plan : String) : String := Files.join directory (plan ++ ".jsonl")

/-- The tree with the directory and the audit file of a plan; what the file holds already is
kept. -/
def prepare (t : Files.Tree) (directory plan : String) : Files.Tree × Except FileError String :=
  match t.createDirectories directory with
  | (t, .error e) => (t, .error e)
  | (t, .ok ()) =>
    match t.append (pathIn directory plan) (.text "") with
    | .ok t => (t, .ok (pathIn directory plan))
    | .error e => (t, .error e)

end Runbook.Audit
