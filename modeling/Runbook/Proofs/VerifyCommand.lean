import Runbook.Proofs.TaskBlocks
import Runbook.Proofs.WritableGroups

/-!
# Verify commands

A task is accepted by its verify command, and a task without one is accepted as it is. So a command
that gets lost while a plan is read turns a task that fails into one that is completed, and nobody is
told. Here the way of the command is followed from the row it is written in to the call that is made.

* The row that counts is the first one outside of verbatim text that starts with the label
  (`verify_readRows`).
* What stands behind the label says a command unless it is blank, or begins with a code span that is
  (`blank_commandValue_iff`). The second is a loss: the text of such a row is given up although it is not
  blank. Contexts, which are read in the same way otherwise, pass over blank spans.
* A job that is completed has made all its calls with success, whoever answers them and whenever the
  worker finds that it has been cancelled (`CarriedOut.ends`); the last one is the verify command
  (`CarriedOut.accepted`).
-/

set_option autoImplicit false

namespace Runbook

open Text Markdown

namespace Markdown

/-! ## The first code span -/

/-- What stands between the first two quotes of a text. It may be empty, as it is where two quotes begin
a text. -/
def FirstSpan (text span : List Char) : Prop :=
  ∃ before after, text = before ++ codeQuote :: (span ++ codeQuote :: after) ∧ codeQuote ∉ before ∧
    codeQuote ∉ span

theorem codeSpans_of_firstSpan {text span : List Char} (first : FirstSpan text span) :
    ∃ spans, codeSpans text = span :: spans := by
  obtain ⟨before, after, rfl, hbefore, hspan⟩ := first
  exact codeSpans_eq_cons hbefore hspan after

/-- A text has no code span unless it has a first one, so values can be split by whether there is one.
-/
theorem codeSpans_eq_nil_or (text : List Char) :
    codeSpans text = [] ∨ ∃ span, FirstSpan text span := by
  by_cases hquote : codeQuote ∈ text
  · obtain ⟨before, rest, hbefore, rfl⟩ := exists_quote hquote
    by_cases hsecond : codeQuote ∈ rest
    · obtain ⟨span, after, hspan, rfl⟩ := exists_quote hsecond
      exact .inr ⟨span, before, after, rfl, hbefore, hspan⟩
    · left
      rw [codeSpans, pieces_append hbefore, pieces_of_not_mem hsecond]
      rfl
  · left
    rw [codeSpans, pieces_of_not_mem hquote]
    rfl

theorem FirstSpan.within {text span : List Char} (first : FirstSpan text span) : span <:+: text := by
  obtain ⟨before, after, rfl, -, -⟩ := first
  exact ⟨before ++ [codeQuote], codeQuote :: after, by simp⟩

end Markdown

namespace Plan

/-! ## The command that a row says -/

/-- The first code span is blank. This is a question about the row alone, and not about what becomes of
it. -/
def BlankSpan (rest : List Char) : Prop := ∃ span, FirstSpan rest span ∧ Blank span

theorem commandValue_of_firstSpan {rest span : List Char} (first : FirstSpan rest span) :
    commandValue rest = trim span := by
  obtain ⟨spans, hspans⟩ := codeSpans_of_firstSpan first
  rw [commandValue, hspans]

theorem commandValue_of_no_span {rest : List Char} (none : codeSpans rest = []) :
    commandValue rest = trim rest := by
  rw [commandValue, none]

/-- Of a row that is not blank the command is lost just when the first code span is blank. Nothing else
can empty it: the other spans are not looked at, and without any the whole text is taken. -/
theorem blank_commandValue_iff {rest : List Char} (some : ¬ Blank rest) :
    Blank (commandValue rest) ↔ BlankSpan rest := by
  constructor
  · intro hblank
    rcases codeSpans_eq_nil_or rest with hnone | ⟨span, hfirst⟩
    · rw [commandValue_of_no_span hnone, blank_trim_iff] at hblank
      exact absurd hblank some
    · rw [commandValue_of_firstSpan hfirst, blank_trim_iff] at hblank
      exact ⟨span, hfirst, hblank⟩
  · rintro ⟨span, hfirst, hblank⟩
    rw [commandValue_of_firstSpan hfirst, blank_trim_iff]
    exact hblank

theorem commandValue_within (rest : List Char) : commandValue rest <:+: rest := by
  rcases codeSpans_eq_nil_or rest with hnone | ⟨span, hfirst⟩
  · rw [commandValue_of_no_span hnone]
    exact trim_within rest
  · rw [commandValue_of_firstSpan hfirst]
    exact (trim_within span).trans hfirst.within

/-! ## The row that counts -/

/-- The first of some rows that stands outside of verbatim text and starts with the label of the verify
command, and what stands behind the label. Later rows with the label are not looked at. -/
def VerifyRow (rows : List Line) (l : Line) (rest : List Char) : Prop :=
  ∃ before after, rows = before ++ l :: after ∧ l.isFenced = false ∧
    trim l.text = fieldMarker "Verify" ++ rest ∧
    ∀ l' ∈ before, l'.isFenced = false → ¬ fieldMarker "Verify" <+: trim l'.text

/-- The verify command of a task is what its first row with the label says. -/
theorem verify_readRows {rows : List Line} {l : Line} {rest : List Char} (row : VerifyRow rows l rest)
    (inSteps : Bool) (t : Task) :
    (readRows inSteps t rows).verify = String.ofList (commandValue rest) := by
  obtain ⟨before, after, rfl, hfree, hrow, hbefore⟩ := row
  induction before generalizing inSteps t with
  | nil =>
    rw [List.nil_append, readRows, hfree]
    simp only [Bool.false_eq_true, if_false, hrow, rowOf_verify]
  | cons l' before ih =>
    obtain ⟨hl', hbefore⟩ := List.forall_mem_cons.mp hbefore
    rw [List.cons_append, readRows]
    cases hfenced : l'.isFenced with
    | true => exact ih inSteps t hbefore
    | false =>
      simp only [Bool.false_eq_true, if_false]
      split
      · exact ih _ _ hbefore
      · exact ih _ _ hbefore
      · rename_i rest' hverify
        exact absurd ⟨rest', (rowOf_eq_verify hverify).symm⟩ (hl' hfenced)
      · split
        · exact ih _ _ hbefore
        · exact ih _ _ hbefore

/-- A task has a verify command when that is not blank. -/
theorem hasVerify_iff {t : Task} {command : List Char} (verify : t.verify = String.ofList command) :
    t.hasVerify = true ↔ ¬ Blank command := by
  rw [Task.hasVerify, Bool.not_eq_true', ← Bool.not_eq_true, isBlankText_iff, verify,
    String.toList_ofList]

end Plan

/-! ## Carrying out a task -/

section Carrying

variable {σ : Type}

/-- A job carried out to its end, one move after the other. Whether it has been cancelled is asked anew
at every move, and the answer may always be another one. While a command runs any amount of time may
pass. -/
inductive CarriedOut (h : Host σ) (group : Option String) (timeout : Nat) :
    World σ → Job → World σ → Ending → Prop
  | stop {w : World σ} {job : Job} {ending : Ending} (cancelled : Bool)
    (moved : job.move cancelled = .stop ending) : CarriedOut h group timeout w job w ending
  | go {w w' : World σ} {job next : Job} {ending : Ending} {lines : List Journal.Line}
    (cancelled : Bool) (moved : job.move cancelled = .go lines next)
    (rest : CarriedOut h group timeout (w.say h lines) next w' ending) :
    CarriedOut h group timeout w job w' ending
  | goOn {w w₁ w' : World σ} {job : Job} {asked : Asked} {answer : Answer} {ending : Ending}
    {moment : Nat} (cancelled : Bool) (moved : job.move cancelled = .ask asked)
    (called : w.call h group asked.command timeout = (answer, w₁))
    (settled : asked.settle answer.reply = .goOn)
    (rest : CarriedOut h group timeout (w₁.waitUntil moment) asked.next w' ending) :
    CarriedOut h group timeout w job w' ending
  | giveUp {w w₁ : World σ} {job : Job} {asked : Asked} {answer : Answer} {ending : Ending}
    {moment : Nat} {lines : List Journal.Line} (cancelled : Bool)
    (moved : job.move cancelled = .ask asked)
    (called : w.call h group asked.command timeout = (answer, w₁))
    (settled : asked.settle answer.reply = .stop lines ending) :
    CarriedOut h group timeout w job ((w₁.waitUntil moment).say h lines) ending

/-- A worker that works alone carries out its job. -/
theorem Bench.carriedOut_of_alone {b : Bench σ} {w w' : World σ} {job : Job} {ending : Ending}
    (done : b.alone w job = .ok (ending, w')) :
    CarriedOut b.host b.group b.timeout w job w' ending := by
  fun_induction Bench.alone b w job with
  | case1 w job lines next moved ih => exact .go _ moved (ih done)
  | case2 w job ending' moved =>
    cases done
    exact .stop _ moved
  | case3 w job asked moved answer w₁ called w₂ settled ih =>
    exact .goOn _ moved called settled (ih done)
  | case4 w job asked moved answer w₁ called w₂ lines ending' settled =>
    cases done
    exact .giveUp _ moved called settled
  | case5 => cases done

theorem World.calls_of_call {h : Host σ} {w w' : World σ} {group : Option String} {command : String}
    {timeout : Nat} {answer : Answer} (called : w.call h group command timeout = (answer, w')) :
    w'.calls = w.calls ++ [⟨group, command, timeout, w.clock, answer⟩] := by
  cases called
  rfl

open Interleaving

/-- A job that has made some calls with success goes on to one of its ends. The induction is on the
moves that are left, with the place of the job among its commands carried along. -/
theorem CarriedOut.ends {h : Host σ} {group : Option String} {timeout : Nat} {w w' : World σ} {job : Job}
    {ending : Ending} {programs : List String} {tasks : List Task} {past : List Call}
    (carried : CarriedOut h group timeout w job w' ending) (fine : ∀ c ∈ past, c.succeeded = true)
    (stands : job.At programs tasks (past.map (·.command))) :
    ∃ calls, w'.calls = w.calls ++ calls ∧ Ends programs true tasks (past ++ calls) ending := by
  -- `past` grows by the call that has been made, and the job stands behind it
  induction carried generalizing past with
  | @stop w job ending cancelled moved =>
    have hmove := stands.move cancelled
    rw [moved] at hmove
    refine ⟨[], by simp, ?_⟩
    rw [List.append_nil]
    rcases hmove with ⟨rfl, hall⟩ | ⟨-, hout, hback⟩
    · exact .completed fine hall
    · obtain ⟨left, outcome⟩ := ending
      cases hout
      exact .calledOff rfl fine stands.isPrefix hback
  | @go w w' job next ending lines cancelled moved rest ih =>
    have hmove := stands.move cancelled
    rw [moved] at hmove
    exact ih fine hmove
  | @goOn w w₁ w' job asked answer ending moment cancelled moved called settled rest ih =>
    have hmove := stands.move cancelled
    rw [moved] at hmove
    have hlast : Call.succeeded ⟨group, asked.command, timeout, w.clock, answer⟩ = true :=
      Asked.succeeded_of_goOn settled
    obtain ⟨calls, hcalls, hends⟩ := ih (fine_append fine hlast) (by simpa using hmove.2.next)
    refine ⟨_ :: calls, ?_, by simpa using hends⟩
    show w'.calls = _
    rw [hcalls]
    show w₁.calls ++ calls = _
    rw [World.calls_of_call called, List.append_assoc]
    rfl
  | @giveUp w w₁ job asked answer ending moment lines cancelled moved called settled =>
    have hmove := stands.move cancelled
    rw [moved] at hmove
    refine ⟨[⟨group, asked.command, timeout, w.clock, answer⟩], ?_, ?_⟩
    · show w₁.calls = _
      exact World.calls_of_call called
    · rcases Asked.stop_cases settled with ⟨d, hd, hstop⟩ | ⟨hreply, rfl⟩
      · exact ends_of_failing fine hmove.2 rfl hd hstop
      · exact ends_of_recalled fine hmove.2 rfl hreply

/-- The calls of a task end with its verify command, which has exited with zero. Before it come the
commands of its steps. -/
def Accepted (programs : List String) (t : Task) (calls : List Call) : Prop :=
  ∃ steps call output, calls = steps ++ [call] ∧
    steps.map (·.command) = t.steps.filterMap (executableCommand? programs) ∧
    call.command = trimmed t.verify ∧ call.answer.reply = .exited output ∧ output.exitCode = 0

theorem Call.exited_of_succeeded {call : Call} (succeeded : call.succeeded = true) :
    ∃ output, call.answer.reply = .exited output ∧ output.exitCode = 0 := by
  rw [Call.succeeded] at succeeded
  cases hreply : call.answer.reply with
  | exited output =>
    rw [hreply] at succeeded
    exact ⟨output, rfl, by simpa [Reply.succeeded, Output.succeeded] using succeeded⟩
  | refused error =>
    rw [hreply] at succeeded
    cases succeeded
  | crashed message =>
    rw [hreply] at succeeded
    cases succeeded

/-- A task that is completed and has a verify command has been accepted by it. -/
theorem CarriedOut.accepted {h : Host σ} {group : Option String} {timeout : Nat} {w w' : World σ}
    {programs : List String} {t : Task} {ending : Ending} (pending : t.status = .pending)
    (verify : t.hasVerify = true) (carried : CarriedOut h group timeout w (Job.ofTask programs t) w' ending)
    (completed : ending.outcome = .completed) :
    ∃ calls, w'.calls = w.calls ++ calls ∧ Accepted programs t calls := by
  have hopen : t.isTerminal = false := by
    rw [Task.isTerminal, pending]
    rfl
  have hjob : Job.ofTask programs t = Job.ofTasks programs [t] := by
    simp [Job.ofTask, Job.ofTasks, hopen]
  -- a job of one task is the job of the list that holds it, whose endings are known
  rw [hjob] at carried
  have hstart : (Job.ofTasks programs [t]).At programs [t] (([] : List Call).map (·.command)) :=
    Job.At.ofTasks programs [t]
  obtain ⟨calls, hcalls, hends⟩ := carried.ends (by simp) hstart
  rw [List.nil_append] at hends
  obtain ⟨left, outcome⟩ := ending
  cases completed
  obtain ⟨hfine, hall, -⟩ := hends.fine_of_completed
  have hcommands : calls.map (·.command) =
      t.steps.filterMap (executableCommand? programs) ++ [trimmed t.verify] := by
    rw [hall, openCommands_cons_of_open hopen, openCommands_nil, List.append_nil, Task.commands,
      if_pos verify]
  obtain ⟨steps, last, rfl, hsteps, hlast⟩ := List.map_eq_append_iff.mp hcommands
  obtain ⟨call, rfl, hcall⟩ := List.map_eq_singleton_iff.mp hlast
  obtain ⟨output, hreply, hexit⟩ := Call.exited_of_succeeded (hfine call (by simp))
  exact ⟨_, hcalls, steps, call, output, rfl, hsteps, hcall, hreply, hexit⟩

/-- Nobody completes the task without its verify command, in whatever way it is carried out. -/
structure Guarded (t : Task) : Prop where
  carried : ∀ {σ : Type} {h : Host σ} {group : Option String} {timeout : Nat} {programs : List String}
    {w w' : World σ} {ending : Ending}, CarriedOut h group timeout w (Job.ofTask programs t) w' ending →
    ending.outcome = .completed → ∃ calls, w'.calls = w.calls ++ calls ∧ Accepted programs t calls
  alone : ∀ {σ : Type} {b : Bench σ} {w w' : World σ} {ending : Ending},
    b.alone w (Job.ofTask b.programs t) = .ok (ending, w') → ending.outcome = .completed →
    ∃ calls, w'.calls = w.calls ++ calls ∧ Accepted b.programs t calls

theorem Task.guarded {t : Task} (pending : t.status = .pending) (verify : t.hasVerify = true) :
    Guarded t where
  carried carried completed := carried.accepted pending verify completed
  alone done completed := (Bench.carriedOut_of_alone done).accepted pending verify completed

end Carrying

namespace Plan

/-! ## From the row to the call -/

theorem VerifyRow.trimmed_within {rows : List Line} {l : Line} {rest : List Char}
    (row : VerifyRow rows l rest) : trim (commandValue rest) <:+: l.text := by
  obtain ⟨before, after, -, -, hrow, -⟩ := row
  have hrest : rest <:+: trim l.text := by
    rw [hrow]
    exact (List.suffix_append (fieldMarker "Verify") rest).isInfix
  exact (trim_within _).trans ((commandValue_within rest).trans (hrest.trans (trim_within l.text)))

/-- The verify command of a row that says one is kept, and without a call of it that exits with zero
nobody completes the task. A row whose first code span is blank says none. -/
theorem verification_kept {text : String} {p : Plan} (parsed : parse text = .ok p) :
    ∃ s, taskSection? (Outline.ofText text.toList) = some s ∧
      p.tasks = (blocks s.body).filterMap taskOf? ∧
      ∀ b ∈ blocks s.body, IsTask b.heading → ∃ t, taskOf? b = some t ∧
        ∀ l rest, VerifyRow b.rows l rest → ¬ Blank rest →
          (t.hasVerify = true ↔ ¬ BlankSpan rest) ∧
          (¬ BlankSpan rest → (trimmed t.verify).toList <:+: l.text ∧ Guarded t) := by
  obtain ⟨s, groups, -, hfound, hread, rfl⟩ := parse_eq_ok_iff.mp parsed
  refine ⟨s, hfound, tasks_of_readTasks hread, fun b hb htask => ?_⟩
  obtain ⟨t, ht⟩ := exists_taskOf? hread b hb htask
  obtain ⟨number, name, rfl⟩ := taskOf?_eq_some ht
  refine ⟨_, ht, fun l rest hrow hsome => ?_⟩
  have hverify := verify_readRows hrow false (Task.new number name)
  have hiff : (readRows false (Task.new number name) b.rows).hasVerify = true ↔ ¬ BlankSpan rest := by
    rw [hasVerify_iff hverify, blank_commandValue_iff hsome]
  refine ⟨hiff, fun hspan => ⟨?_, ?_⟩⟩
  · rw [hverify, trimmed, String.toList_ofList, String.toList_ofList]
    exact hrow.trimmed_within
  · have hfresh : (readRows false (Task.new number name) b.rows).Fresh := readRows_fresh ⟨rfl, rfl⟩
    exact Task.guarded hfresh.1 (hiff.mpr hspan)

/-- A plan of one task whose verify command is written in some way, behind an example of another one. -/
def checked (command : String) : String :=
  "## Tasks\n### Task 1: Build\n```\n**Verify:** true\n```\n**Verify:** " ++ command ++ "\n"

def checkedTask (verify : String) : Task := { Task.new 1 "Build" with verify }

def checkedPlan (command verify : String) : Plan where
  text := checked command
  groups := [{ TaskGroup.new "General" with tasks := [checkedTask verify] }]

/-- The rows of the task. -/
def checkedRows (command : String) : List Line :=
  [⟨2, "```".toList, .fence⟩, ⟨3, "**Verify:** true".toList, .verbatim⟩, ⟨4, "```".toList, .fence⟩,
    ⟨5, ("**Verify:** " ++ command).toList, .prose⟩]

def checkedBlock (command : String) : Block := ⟨⟨3, "Task 1: Build".toList, 1⟩, checkedRows command⟩

/-- A command with words around it is kept. -/
theorem verification_kept_of_build :
    parse (checked "run `make test` now") = .ok (checkedPlan "run `make test` now" "make test") ∧
      (checkedTask "make test").hasVerify = true ∧ Guarded (checkedTask "make test") := by
  have hparse : parse (checked "run `make test` now") =
      .ok (checkedPlan "run `make test` now" "make test") := parse_of_toOption (by decide +kernel)
  obtain ⟨s, hfound, htasks, hblocks⟩ := verification_kept hparse
  have hbody : blocks s.body = [checkedBlock "run `make test` now"] := by
    have hcomputed : (taskSection? (Outline.ofText (checked "run `make test` now").toList)).map
        (fun s => blocks s.body) = some [checkedBlock "run `make test` now"] := by
      decide +kernel
    rw [hfound] at hcomputed
    exact Option.some.inj hcomputed
  obtain ⟨t, ht, hrows⟩ := hblocks (checkedBlock "run `make test` now") (by simp [hbody]) (by decide)
  have hrow : VerifyRow (checkedRows "run `make test` now")
      ⟨5, "**Verify:** run `make test` now".toList, .prose⟩ " run `make test` now".toList :=
    ⟨(checkedRows "").take 3, [], rfl, rfl, by decide, by decide⟩
  have hsome : ¬ Blank " run `make test` now".toList := by decide
  have hspan : ¬ BlankSpan " run `make test` now".toList := by
    rw [← blank_commandValue_iff hsome]
    decide
  obtain ⟨hverify, hguarded⟩ := hrows _ _ hrow hsome
  have htask : [checkedTask "make test"] = [t] := by
    rw [hbody, List.filterMap_cons_some ht] at htasks
    exact htasks
  cases htask
  exact ⟨hparse, hverify.mpr hspan, (hguarded hspan).2⟩

/-- A command between two quotes on each side is lost, because the first two enclose nothing, and the
task is completed without a call. -/
theorem verification_lost :
    parse (checked "`` make test ``") = .ok (checkedPlan "`` make test ``" "") ∧
      (taskSection? (Outline.ofText (checked "`` make test ``").toList)).map (fun s => blocks s.body) =
        some [checkedBlock "`` make test ``"] ∧
      VerifyRow (checkedRows "`` make test ``")
        ⟨5, "**Verify:** `` make test ``".toList, .prose⟩ " `` make test ``".toList ∧
      (∃ c ∈ " `` make test ``".toList, isBlank c = false ∧ c ≠ codeQuote) ∧
      (checkedTask "").hasVerify = false ∧
      ∃ w' ending,
        CarriedOut Host.obliging none 60 { host := () } (Job.ofTask [] (checkedTask "")) w' ending ∧
        ending.outcome = .completed ∧ w'.calls = [] := by
  refine ⟨parse_of_toOption (by decide +kernel), by decide +kernel, ?_, ?_, rfl, ?_⟩
  · exact ⟨(checkedRows "").take 3, [], rfl, rfl, by decide, by decide⟩
  · exact ⟨'m', by simp, by decide, by decide⟩
  · exact ⟨_, _, .go false rfl (.go false rfl (.go false rfl (.stop false rfl))), rfl, rfl⟩

end Plan

end Runbook
