import Runbook.Proofs.PlanAfterRun
import Runbook.Proofs.TickedPlan

/-!
# A plan and its file, when not everything can be written

A plan is changed before its file is (`Run.update`), so a request to write down a status or the ticks leaves
the plan as it was asked to be, whatever comes of the file (`Request.plan_make`), and whether there is
anything to write is decided by the text of the plan and not by the file. What a request answers says what
has become of the file (`Request.Answered`): a change that has been written is in it, and nothing else
touches it.

So at every moment the file holds the text that the plan had when a request last wrote it
(`Upkeep.written`). That is the text of the plan unless a request has failed since; after a failure a request
can have nothing to write and answer so, while the file lags behind (`saveStatus_lags_of_header`).
-/

set_option autoImplicit false

namespace Runbook

variable {σ : Type} {h : Host σ}

/-- A host has a file with some content. Its content is the text that has been written last; what cannot
be written leaves it as it was. Nothing is said of when writing fails. -/
structure Host.Stores (h : Host σ) (file : String) (content : σ → Option String) : Prop where
  done : ∀ memory text, (h.write memory file text).1 = .ok () →
    content (h.write memory file text).2 = some text
  failed : ∀ memory text e, (h.write memory file text).1 = .error e →
    content (h.write memory file text).2 = content memory

namespace Run

open Plan

/-! ## Requests -/

/-- What a plan can be asked to write down: a status, or the ticks of the steps that are through. -/
inductive Request where
  | status (wanted : PlanStatus)
  | ticks
deriving DecidableEq, Repr

namespace Request

def make (h : Host σ) (w : World σ) (p : Plan) : Request → Except PlanError Bool × Plan × World σ
  | .status wanted => saveStatus h w p wanted
  | .ticks => saveTicks h w p

/-- The plan as it is asked to be. -/
def asked (p : Plan) : Request → Plan
  | .status wanted => p.withStatus wanted
  | .ticks => p.withTicks

/-- The plan is as it was asked to be, whether its file could be written or not. The plan is changed
first, and nobody takes the change back. -/
theorem plan_make (h : Host σ) (w : World σ) (p : Plan) (request : Request) :
    (request.make h w p).2.1 = request.asked p := by
  cases request with
  | status wanted => exact plan_saveStatus h w p wanted
  | ticks => exact plan_update h w p p.withTicks.text

theorem path_asked (p : Plan) (request : Request) : (request.asked p).path = p.path := by
  cases request <;> rfl

/-- The word of a status can stand in a header. A word with a star in it would be cut, and asking for it
again would change the text again. -/
def Writable : Request → Prop
  | .status wanted => Markdown.Word wanted.marker.toList
  | .ticks => True

theorem asked_asked {request : Request} (writable : request.Writable) (p : Plan) :
    request.asked (request.asked p) = request.asked p := by
  cases request with
  | status wanted =>
    have htext := rewriteStatus_rewriteStatus writable p.text p.statusLine wanted
    exact congrArg (fun text => { p.withStatus wanted with text }) htext
  | ticks =>
    have htext := tickSteps_tickSteps p.text p.doneLines
    exact congrArg (fun text => { p with text }) htext

/-- There is nothing to write when the same is asked for again, and it does not matter what has come of
the file. This is how a request can be answered although the file says something else. -/
theorem make_asked {request : Request} (writable : request.Writable) (h : Host σ) (w : World σ)
    (p : Plan) : request.make h w (request.asked p) = (.ok false, request.asked p, w) := by
  have hagain := asked_asked writable p
  cases request with
  | status wanted =>
    have htext : ((p.withStatus wanted).withStatus wanted).text = (p.withStatus wanted).text :=
      congrArg Plan.text hagain
    show saveStatus h w (p.withStatus wanted) wanted = _
    rw [saveStatus, update, if_pos htext, ← htext]
    exact congrArg (fun plan => (Except.ok false, plan, w)) hagain
  | ticks =>
    have htext : p.withTicks.withTicks.text = p.withTicks.text := congrArg Plan.text hagain
    show saveTicks h w p.withTicks = _
    rw [saveTicks, update, if_pos htext]
    rfl

end Request

/-- What an answer says of the text of a plan, before and after, and of the content of its file. That
nothing was written is not to say that the file holds the text: it only says that the text has not
changed. -/
inductive Answered (before after : String) (content content' : Option String) :
    Except PlanError Bool → Prop
  /-- There was nothing to write. -/
  | same (text : after = before) (file : content' = content) :
    Answered before after content content' (.ok false)
  | written (text : after ≠ before) (file : content' = some after) :
    Answered before after content content' (.ok true)
  | failed {e : PlanError} (text : after ≠ before) (file : content' = content) :
    Answered before after content content' (.error e)

section Stores

variable {file : String} {content : σ → Option String} (stores : h.Stores file content)
include stores

theorem update_answered (w : World σ) {p : Plan} (path : p.path = some file) (text : String) :
    Answered p.text text (content w.host) (content (update h w p text).2.2.host) (update h w p text).1 := by
  unfold update
  split
  · rename_i hsame
    exact .same hsame rfl
  · rename_i hother
    simp only [path]
    have hdone : (w.write h file text).1 = .ok () → content (w.write h file text).2.host = some text :=
      stores.done w.host text
    have hfailed : ∀ e, (w.write h file text).1 = .error e →
        content (w.write h file text).2.host = content w.host := stores.failed w.host text
    cases hwrite : w.write h file text with
    | mk result w' =>
      rw [hwrite] at hdone hfailed
      cases result with
      | ok => exact .written hother (hdone rfl)
      | error e => exact .failed hother (hfailed e rfl)

theorem Request.answered (w : World σ) {p : Plan} (path : p.path = some file) (request : Request) :
    Answered p.text (request.asked p).text (content w.host) (content (request.make h w p).2.2.host)
      (request.make h w p).1 := by
  cases request with
  | status wanted =>
    exact update_answered stores w (p := { p.withStatus wanted with text := p.text }) path
      (p.withStatus wanted).text
  | ticks => exact update_answered stores w path p.withTicks.text

end Stores

/-! ## Many requests -/

/-- Requests are made of a plan one after the other, and in between its groups change. The answers are
written down, each with the text that the plan has then. -/
inductive Upkeep (h : Host σ) (w : World σ) (p : Plan) :
    List (Except PlanError Bool × String) → World σ → Plan → Prop
  | start : Upkeep h w p [] w p
  | groups {answers : List (Except PlanError Bool × String)} {w' : World σ} {p' : Plan}
    (earlier : Upkeep h w p answers w' p') (groups : List TaskGroup) :
    Upkeep h w p answers w' { p' with groups }
  | request {answers : List (Except PlanError Bool × String)} {w' : World σ} {p' : Plan}
    (earlier : Upkeep h w p answers w' p') (request : Request) :
    Upkeep h w p (answers ++ [((request.make h w' p').1, (request.asked p').text)])
      (request.make h w' p').2.2 (request.asked p')

/-- The text that was written last, if any was. Only an answer that something has been written counts.
-/
def lastWritten (start : String) (answers : List (Except PlanError Bool × String)) : String :=
  answers.foldl (fun written answer => match answer.1 with | .ok true => answer.2 | _ => written) start

theorem lastWritten_snoc (start : String) (answers : List (Except PlanError Bool × String))
    (answer : Except PlanError Bool) (text : String) :
    lastWritten start (answers ++ [(answer, text)]) =
      match answer with | .ok true => text | _ => lastWritten start answers := by
  rw [lastWritten, List.foldl_append]
  rfl

/-- Since the last failure, something has been written. A request that finds nothing to write does not
make up for a failure. -/
def Recovered (answers : List (Except PlanError Bool × String)) : Prop :=
  ∀ earlier e text later, answers = earlier ++ (.error e, text) :: later →
    ∃ text', (.ok true, text') ∈ later

theorem Recovered.of_snoc_same {answers : List (Except PlanError Bool × String)} {text : String}
    (recovered : Recovered (answers ++ [(.ok false, text)])) : Recovered answers := by
  intro earlier e failed later hsplit
  obtain ⟨text', hlater⟩ := recovered earlier e failed (later ++ [(.ok false, text)])
    (by rw [hsplit, List.append_assoc, List.cons_append])
  refine ⟨text', ?_⟩
  simpa using hlater

theorem not_recovered_snoc_error {answers : List (Except PlanError Bool × String)} {e : PlanError}
    {text : String} : ¬ Recovered (answers ++ [(.error e, text)]) := by
  intro recovered
  obtain ⟨_, hlater⟩ := recovered answers e text [] rfl
  cases hlater

namespace Upkeep

variable {w w' : World σ} {p p' : Plan} {answers : List (Except PlanError Bool × String)}

theorem path (upkeep : Upkeep h w p answers w' p') : p'.path = p.path := by
  induction upkeep with
  | start => rfl
  | groups earlier groups ih => exact ih
  | request earlier request ih => exact (request.path_asked _).trans ih

variable {file : String} {content : σ → Option String} (stores : h.Stores file content)
  (path : p.path = some file) (holds : content w.host = some p.text)
include stores path holds

/-- The file holds the text that was written last. It is the invariant of the whole file: each kind of
answer keeps it. -/
theorem written (upkeep : Upkeep h w p answers w' p') :
    content w'.host = some (lastWritten p.text answers) := by
  induction upkeep with
  | start => exact holds
  | groups earlier groups ih => exact ih
  | @request answers w' p' earlier request ih =>
    have hanswered := request.answered stores w' (earlier.path.trans path)
    rw [lastWritten_snoc]
    revert hanswered
    generalize (request.make h w' p').1 = answer
    rintro (⟨-, hfile⟩ | ⟨-, hfile⟩ | ⟨-, hfile⟩)
    · exact hfile.trans ih
    · exact hfile
    · exact hfile.trans ih

omit holds in
/-- As long as every failure is followed by something that is written, that is the text of the plan. -/
theorem text_of_recovered (upkeep : Upkeep h w p answers w' p') (recovered : Recovered answers) :
    lastWritten p.text answers = p'.text := by
  induction upkeep with
  | start => rfl
  | groups earlier groups ih => exact ih recovered
  | @request answers w' p' earlier request ih =>
    have hanswered := request.answered stores w' (earlier.path.trans path)
    rw [lastWritten_snoc]
    revert hanswered recovered
    generalize (request.make h w' p').1 = answer
    rintro recovered (⟨htext, -⟩ | ⟨-, -⟩ | ⟨-, -⟩)
    · exact (ih recovered.of_snoc_same).trans htext.symm
    · rfl
    · exact absurd recovered not_recovered_snoc_error

/-- After any requests and whatever has come of them, another one leaves the plan as it is asked to be
and says what becomes of the file, which holds what was written last. When it answers that it has done
so, that is the text of the plan if every failure before it was followed by something that was written.
-/
theorem persisted {answer : Except PlanError Bool} {p'' : Plan} {w'' : World σ}
    (upkeep : Upkeep h w p answers w' p') (request : Request)
    (made : request.make h w' p' = (answer, p'', w'')) :
    p'' = request.asked p' ∧
      Answered p'.text p''.text (content w'.host) (content w''.host) answer ∧
      content w''.host = some (lastWritten p.text (answers ++ [(answer, p''.text)])) ∧
      ∀ changed, answer = .ok changed → Recovered answers → content w''.host = some p''.text := by
  have hplan := request.plan_make h w' p'
  have hanswered := request.answered stores w' (upkeep.path.trans path)
  have hnext := (upkeep.request request).written stores path holds
  rw [made] at hplan hanswered hnext
  obtain rfl : p'' = request.asked p' := hplan
  refine ⟨rfl, hanswered, hnext, ?_⟩
  rintro changed rfl recovered
  have hbefore : content w'.host = some p'.text := by
    rw [upkeep.written stores path holds, upkeep.text_of_recovered stores path recovered]
  cases hanswered with
  | same htext hfile =>
    show content w''.host = _
    rw [hfile, hbefore, htext]
  | written htext hfile => exact hfile

end Upkeep

end Run

/-- A host with a file that cannot be written to the first time, and can from then on. -/
def Host.jammed : Host (Bool × String) where
  run := fun memory _ _ => ({ reply := .exited { exitCode := 0 } }, memory)
  write := fun (jams, content) _ text =>
    if jams then (.error .notFound, (false, content)) else (.ok (), (false, text))

theorem Host.jammed_stores (file : String) : Host.jammed.Stores file (fun memory => some memory.2) where
  done := by
    rintro ⟨_ | _, content⟩ text hdone
    · rfl
    · cases hdone
  failed := by
    rintro ⟨_ | _, content⟩ text e hfailed
    · cases hfailed
    · rfl

namespace Run

open Plan

/-- The text of the plan with its status in the header, after a failure. -/
def failedText : String :=
  "# Plan\n> **Status:** FAILED\n## Tasks\n### Task 1: Build\n**Steps:**\n1. [ ] make\n"

/-- The plan in a file that holds its text. -/
def filedPlan : Plan := { headerPlan with path := some "plan.md" }

theorem text_failed : (filedPlan.withStatus .failed).text = failedText := by decide +kernel

theorem headerText_ne_failedText : headerText ≠ failedText := by decide +kernel

/-- The file cannot be written to, and the plan has failed. -/
theorem saveStatus_jammed :
    saveStatus Host.jammed { host := (true, headerText) } filedPlan .failed =
      (.error (.file .notFound), filedPlan.withStatus .failed, { host := (false, headerText) }) := by
  have hother : failedText ≠ filedPlan.text := headerText_ne_failedText.symm
  rw [saveStatus, update, text_failed, if_neg hother]
  rfl

/-- A failed write leaves the plan changed and its file behind. When the status is to be written again,
nothing is there to be done: the file keeps the other status, although it could be written to now. -/
theorem saveStatus_lags_of_header :
    parse headerText = .ok headerPlan ∧
      Host.jammed.Stores "plan.md" (fun memory => some memory.2) ∧
      ∃ p w p' w',
        saveStatus Host.jammed { host := (true, headerText) } filedPlan .failed =
          (.error (.file .notFound), p, w) ∧
        p.text ≠ filedPlan.text ∧ p.spec.status ≠ filedPlan.spec.status ∧
        saveStatus Host.jammed w p .failed = (.ok false, p', w') ∧ w'.host.2 ≠ p'.text := by
  have hagain : saveStatus Host.jammed { host := (false, headerText) } (filedPlan.withStatus .failed)
      .failed = (.ok false, filedPlan.withStatus .failed, { host := (false, headerText) }) :=
    @Request.make_asked _ (.status .failed) (word_of_known (by decide)) Host.jammed
      { host := (false, headerText) } filedPlan
  have hlags : headerText ≠ (filedPlan.withStatus .failed).text := by
    rw [text_failed]
    exact headerText_ne_failedText
  exact ⟨parse_headerText, Host.jammed_stores _, _, _, _, _, saveStatus_jammed, hlags.symm, by decide,
    hagain, hlags⟩

/-- After the failure the file still holds the first text. When the plan is in progress again, that is
written. -/
theorem persisted_of_header :
    filedPlan.path = some "plan.md" ∧ Host.jammed.Stores "plan.md" (fun memory => some memory.2) ∧
      Upkeep Host.jammed { host := (true, headerText) } filedPlan
        [(.error (.file .notFound), failedText)] { host := (false, headerText) }
        (filedPlan.withStatus .failed) ∧
      ∃ p w, (Request.status .inProgress).make Host.jammed { host := (false, headerText) }
          (filedPlan.withStatus .failed) = (.ok true, p, w) ∧
        some w.host.2 = some (lastWritten headerText
          [(.error (.file .notFound), failedText), (.ok true, p.text)]) := by
  have hstores := Host.jammed_stores "plan.md"
  have hfailed : Upkeep Host.jammed { host := (true, headerText) } filedPlan
      [(.error (.file .notFound), failedText)] { host := (false, headerText) }
      (filedPlan.withStatus .failed) := by
    have hnext := (Upkeep.start (h := Host.jammed) (w := { host := (true, headerText) })
      (p := filedPlan)).request (.status .failed)
    have hmade : (Request.status .failed).make Host.jammed { host := (true, headerText) } filedPlan =
        (.error (.file .notFound), filedPlan.withStatus .failed, { host := (false, headerText) }) :=
      saveStatus_jammed
    rw [hmade, List.nil_append] at hnext
    rw [← text_failed]
    exact hnext
  have hmade : (Request.status .inProgress).make Host.jammed { host := (false, headerText) }
      (filedPlan.withStatus .failed) =
        (.ok true, (filedPlan.withStatus .failed).withStatus .inProgress,
          { host := (false, ((filedPlan.withStatus .failed).withStatus .inProgress).text) }) := by
    have hother : ((filedPlan.withStatus .failed).withStatus .inProgress).text ≠
        (filedPlan.withStatus .failed).text := by decide +kernel
    show saveStatus Host.jammed { host := (false, headerText) } (filedPlan.withStatus .failed)
      .inProgress = _
    rw [saveStatus, update, if_neg hother]
    rfl
  have hpersisted := hfailed.persisted hstores rfl rfl (.status .inProgress) hmade
  exact ⟨rfl, hstores, hfailed, _, _, hmade, hpersisted.2.2.1⟩

end Run

end Runbook
