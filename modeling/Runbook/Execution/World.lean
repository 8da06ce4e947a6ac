import Runbook.Error
import Runbook.Execution.Command
import Runbook.Journal.Basic

/-!
# The world a plan is carried out in

Carrying out a plan does three things outside of the plan: it has commands carried out, it writes
the plan's file, and it says what it does. Where commands run and files lie is a *host*, which may
answer as it likes and remember whatever it wants (`Host`). A *world* is a host's memory with the
time that has passed, the calls made so far and the journal.

Time passes only while a command is waited for: an answer says how long it takes.
-/

set_option autoImplicit false

namespace Runbook

/-- What comes of handing over a command. A refusal comes from whoever runs commands, and a command that
is refused need not have run. -/
inductive Reply where
  | exited (output : Output)
  | refused (error : CommandError)
  /-- Whoever carries out the command dies of it, with last words. -/
  | crashed (message : String)
deriving DecidableEq, Repr

/-- The command has run and its exit code is zero. -/
def Reply.succeeded : Reply → Bool
  | .exited output => output.succeeded
  | _ => false

/-- A reply and the milliseconds it takes to come. -/
structure Answer where
  delay : Nat := 0
  reply : Reply
deriving DecidableEq, Repr

/-- Where commands run and files lie, with a memory of type `σ`. -/
structure Host (σ : Type) where
  /-- Run a command with at most the given milliseconds of time. -/
  run : σ → String → Nat → Answer × σ
  /-- Replace the text of a file. -/
  write : σ → String → String → Except FileError Unit × σ
  /-- Take note of an entry made after the given milliseconds. -/
  note : σ → Nat → Entry → σ := fun s _ _ => s

/-- A command that was handed to the host. -/
structure Call where
  /-- The group that it belongs to; a command that prepares the run belongs to none. -/
  group : Option String := none
  command : String
  timeout : Nat
  /-- The milliseconds that had passed when it began. -/
  start : Nat
  answer : Answer
deriving DecidableEq, Repr

namespace Call

/-- The time at which the answer comes. -/
def due (c : Call) : Nat := c.start + c.answer.delay

/-- The time at which the command ended, if it did. -/
def finish? (c : Call) : Option Nat :=
  match c.answer.reply with
  | .crashed _ => none
  | _ => some c.due

end Call

/-- A host's memory, and what has happened so far. -/
structure World (σ : Type) where
  host : σ
  clock : Nat := 0
  /-- In the order in which they began. -/
  calls : List Call := []
  journal : Journal := {}

namespace World

variable {σ : Type}

/-- The host, having taken note of lines. -/
def noted (h : Host σ) (clock : Nat) (s : σ) (lines : List Journal.Line) : σ :=
  (lines.filterMap Journal.Line.entry?).foldl (fun s e => h.note s clock e) s

/-- Lines that are said go into the journal, and the host takes note of the entries among them. -/
def say (h : Host σ) (w : World σ) (lines : List Journal.Line) : World σ :=
  { w with host := noted h w.clock w.host lines, journal := w.journal.say lines }

/-- Hand a command to the host. The answer may still be due. -/
def call (h : Host σ) (w : World σ) (group : Option String) (command : String) (timeout : Nat) :
    Answer × World σ :=
  match h.run w.host command timeout with
  | (answer, host) =>
    (answer, { w with host, calls := w.calls ++ [⟨group, command, timeout, w.clock, answer⟩] })

/-- Time goes on only here. Whoever waits knows the moment, so the world need not be asked when to stop.
-/
def waitUntil (w : World σ) (moment : Nat) : World σ := { w with clock := moment }

def write (h : Host σ) (w : World σ) (path text : String) : Except FileError Unit × World σ :=
  match h.write w.host path text with
  | (result, host) => (result, { w with host })

end World

end Runbook
