import Runbook.Proofs.PlanAfterRun

/-!
# What a run writes

In the end the text of a plan is the one that was read with the final status in it and, if that is wanted,
with the steps of the completed tasks ticked (`ticked`). The file of the plan follows the text: a host that
keeps a file (`Host.Keeps`) adds a version to it for every text that is written, and for nothing else, so
when nothing fails to be written the file ends with the text of the plan, and each version in between differs
from the text that was read in the same two ways (`Marked`).

A rehearsal says what the plan is and changes neither.
-/

set_option autoImplicit false

namespace Runbook

variable {σ β : Type} {h : Host σ} {s : RunSettings} {w w' : World σ} {p : Plan}

/-! ## What commands leave alone -/

/-- Something in the memory of a host that neither commands nor notes change. It is told by a function
of the memory, so a host may remember whatever else it likes. -/
structure Host.Spares (h : Host σ) (f : σ → β) : Prop where
  run : ∀ memory command millis, f (h.run memory command millis).2 = f memory
  note : ∀ memory clock e, f (h.note memory clock e) = f memory

/-- A host keeps a file. Its versions, the latest first, are the texts that have been written to it; no
command is one that writes to it. What becomes of the file when it cannot be written is left open. -/
structure Host.Keeps (h : Host σ) (file : String) (versions : σ → List String) : Prop extends
    h.Spares versions where
  write : ∀ memory text, (h.write memory file text).1 = .ok () →
    versions (h.write memory file text).2 = text :: versions memory

section Spares

variable {f : σ → β} (spared : h.Spares f)
include spared

namespace Host.Spares

theorem noted (clock : Nat) (memory : σ) (lines : List Journal.Line) :
    f (World.noted h clock memory lines) = f memory := by
  rw [World.noted]
  generalize lines.filterMap Journal.Line.entry? = entries
  induction entries generalizing memory with
  | nil => rfl
  | cons e entries ih => rw [List.foldl_cons, ih, spared.note]

theorem say (w : World σ) (lines : List Journal.Line) : f (w.say h lines).host = f w.host :=
  spared.noted w.clock w.host lines

theorem call (w : World σ) (group : Option String) (command : String) (timeout : Nat) :
    f (w.call h group command timeout).2.host = f w.host :=
  spared.run w.host command timeout

end Host.Spares

namespace Interleaving

/-- Something in the memory of the host is as it was. A run that has lost its worker shows nothing any
more. -/
def Config.Shows (f : σ → β) (x : β) : Config σ → Prop
  | .fresh w _ | .between _ w _ _ => f w.host = x
  | .within _ crew _ _ _ => f crew.world.host = x
  | .home report => f report.world.host = x
  | .lost _ => True

variable {groups : List TaskGroup} {c c' : Config σ} {es : List Event} {x : β}

/-- A worker changes the memory only by commands and by what it says. -/
theorem WorkStep.spares {cancelled : Bool} {g : TaskGroup} {post post' : Post}
    (step : WorkStep h s cancelled g w post es w' post') : f w'.host = f w.host := by
  cases step with
  | decline | goOn | die => rfl
  | start | go | stop => exact spared.say _ _
  | giveUp => exact (spared.say _ _).trans (spared.say _ _)
  | @ask _ _ asked _ moved called =>
    have hcall := spared.call w (some g.name) asked.command s.commandMillis
    rw [called] at hcall
    exact hcall

theorem Step.spares (step : Step h s c es c') (before : c.Shows f x) : c'.Shows f x := by
  cases step with
  | accept | finish | pass | abort | next => exact before
  | refuse | tire | starve | take => exact (spared.say _ _).trans before
  | lose => trivial
  | work step => exact (step.spares spared).trans before
  | @notice _ _ _ _ _ r =>
    cases r with
    | ok => exact before
    | error => exact (spared.say _ _).trans before

/-- The carrying out of groups leaves alone what commands and notes do, in whatever order things happen.
-/
theorem Leads.spares (leads : Leads h s (.fresh w groups) es c) : c.Shows f (f w.host) := by
  induction leads with
  | refl => exact rfl
  | step leads next ih => exact next.spares spared ih

end Interleaving

namespace Run

open Interleaving

theorem prepare_spares {timeout : Nat} {command : String}
    (prepared : prepare h timeout w command = .ok w') : f w'.host = f w.host := by
  have hcall := (spared.call (w.say h [.detail ("  $ " ++ command)]) none command timeout).trans
    (spared.say _ _)
  unfold prepare at prepared
  simp only at prepared
  split at prepared
  · split at prepared
    · cases prepared
      exact hcall
    · cases prepared
      exact (spared.say _ _).trans hcall
  · cases prepared
    exact (spared.say _ _).trans hcall
  · cases prepared

theorem prepareAll_spares {timeout : Nat} {commands : List String}
    (prepared : prepareAll h timeout w commands = .ok w') : f w'.host = f w.host := by
  have heach : ∀ (commands : List String) (w w' : World σ),
      commands.foldlM (prepare h timeout) w = .ok w' → f w'.host = f w.host := by
    intro commands
    induction commands with
    | nil =>
      intro w w' hprepared
      cases hprepared
      rfl
    | cons command commands ih =>
      intro w w' hprepared
      rw [List.foldlM_cons] at hprepared
      cases hfirst : prepare h timeout w command with
      | error message =>
        rw [hfirst] at hprepared
        cases hprepared
      | ok w₁ =>
        rw [hfirst] at hprepared
        exact (ih w₁ w' hprepared).trans (prepare_spares spared hfirst)
  unfold prepareAll at prepared
  split at prepared
  · cases prepared
    rfl
  · exact (heach _ _ _ prepared).trans (spared.say _ _)

/-- A file is not written to while groups are carried out: only statuses and ticks are written. -/
theorem carryOut_spares {report : Schedule.Report σ} (carried : carryOut h s w p = .ok report) :
    f report.world.host = f w.host := by
  unfold carryOut at carried
  cases hprepare : prepareAll h s.contextMillis w p.context with
  | error message =>
    rw [hprepare] at carried
    cases carried
  | ok w₁ =>
    rw [hprepare] at carried
    obtain ⟨es, leads⟩ := run_leads h s w₁ (Dependency.chained p.groups)
    have hrun : Schedule.run (Bench.ofSettings h s) s.effectiveBatchSize w₁
        (Dependency.chained p.groups) = .ok report := carried
    rw [hrun] at leads
    have hshows : f report.world.host = f w₁.host := leads.spares spared
    exact hshows.trans (prepareAll_spares spared hprepare)

end Run

end Spares

namespace Run

open Plan Interleaving

/-! ## What is written to a file -/

/-- Between two moments only texts of some kind have been written to a file, and at the second one it
holds some text. The versions before the first moment are still there, as a file remembers them all. -/
structure Saves (versions : σ → List String) (Kind : String → Prop) (text : String) (w w' : World σ) :
    Prop where
  newer : ∃ newer, versions w'.host = newer ++ versions w.host ∧ ∀ t ∈ newer, Kind t
  holds : (versions w'.host).head? = some text

section Saves

variable {file text text' : String} {versions : σ → List String} {Kind : String → Prop}
  {w₁ w₂ w₃ : World σ}

/-- Where nothing is written the file holds what it held. -/
theorem Saves.still (holds : (versions w₁.host).head? = some text)
    (same : versions w₂.host = versions w₁.host) : Saves versions Kind text w₁ w₂ :=
  ⟨⟨[], same, by simp⟩, same ▸ holds⟩

/-- What is written in two stretches of time is written in the whole of them, and the file holds what
the second one has left. -/
theorem Saves.trans (first : Saves versions Kind text w₁ w₂)
    (second : Saves versions Kind text' w₂ w₃) : Saves versions Kind text' w₁ w₃ := by
  obtain ⟨newer, hnewer, hkind⟩ := first.newer
  obtain ⟨newer', hnewer', hkind'⟩ := second.newer
  refine ⟨⟨newer' ++ newer, by rw [hnewer', hnewer, List.append_assoc], fun t ht => ?_⟩, second.holds⟩
  rcases List.mem_append.mp ht with ht | ht
  · exact hkind' t ht
  · exact hkind t ht

variable (keeps : h.Keeps file versions) (path : p.path = some file)
include keeps path

/-- A file that holds the text of a plan holds it again when the plan has another text, if nothing has
gone wrong. An update to the same text writes nothing, so it needs the file to hold that text already.
-/
theorem update_saves {changed : Bool} (holds : (versions w.host).head? = some p.text)
    (written : (update h w p text).1 = .ok changed) (kind : Kind text) :
    Saves versions Kind text w (update h w p text).2.2 := by
  unfold update at written ⊢
  split
  · rename_i hsame
    exact .still (hsame ▸ holds) rfl
  · rename_i hother
    rw [if_neg hother] at written
    simp only [path] at written ⊢
    have hversions : (w.write h file text).1 = .ok () →
        versions (w.write h file text).2.host = text :: versions w.host := keeps.write w.host text
    cases hwrite : w.write h file text with
    | mk result w' =>
      rw [hwrite] at written hversions
      cases result with
      | error e => cases written
      | ok =>
        have hnow : versions w'.host = [text] ++ versions w.host := hversions rfl
        refine ⟨⟨[text], hnow, fun t ht => ?_⟩, ?_⟩
        · rw [List.mem_singleton.mp ht]
          exact kind
        · show (versions w'.host).head? = some text
          rw [hnow]
          rfl

theorem saveStatus_saves {changed : Bool} {status : PlanStatus}
    (holds : (versions w.host).head? = some p.text)
    (written : (saveStatus h w p status).1 = .ok changed)
    (kind : Kind (rewriteStatus p.text p.statusLine status)) :
    Saves versions Kind (rewriteStatus p.text p.statusLine status) w
      (saveStatus h w p status).2.2 :=
  update_saves (p := { p.withStatus status with text := p.text }) keeps path holds written kind

/-- The text with the steps of completed tasks ticked, if that is wanted. Without the setting a run
leaves boxes alone. -/
def ticked (s : RunSettings) (p : Plan) (text : String) : String :=
  if s.markSteps then tickSteps text p.doneLines else text

theorem tickIfWanted_saves (holds : (versions w.host).head? = some p.text)
    (written : s.markSteps = true → ∃ changed, (saveTicks h w p).1 = .ok changed)
    (kind : Kind (ticked s p p.text)) :
    Saves versions Kind (ticked s p p.text) w (tickIfWanted h s w p).2 := by
  unfold tickIfWanted ticked at *
  split
  · rename_i hwanted
    rw [if_pos hwanted] at kind
    obtain ⟨changed, hwritten⟩ := written hwanted
    have hsaves := update_saves keeps path holds hwritten kind
    cases hresult : saveTicks h w p with
    | mk result rest =>
      rw [hresult] at hwritten
      obtain rfl : result = .ok changed := hwritten
      have hworld : rest.2 = (update h w p p.withTicks.text).2.2 := by
        rw [← saveTicks, hresult]
      rw [hworld]
      exact hsaves
  · exact .still holds rfl

end Saves

/-! ## The whole execution -/

/-- Everything that is to be written by an execution is written without fail. The ticks are written
after the groups have been carried out, so which ones are meant is told by a report that may come of it.
-/
structure AllWritten (h : Host σ) (s : RunSettings) (w : World σ) (p : Plan) : Prop where
  status : StatusWritten h s w p
  ticks : ∀ changed p' w' report, saveStatus h (opening h w p) p .inProgress = (.ok changed, p', w') →
    carryOut h s w' p' = .ok report → s.markSteps = true →
      ∃ changed, (saveTicks h report.world { p' with groups := report.groups }).1 = .ok changed

/-- A text with a status of a run written in it, and with or without the ticks of the run. These are the
texts that someone who looks at the file during the run can meet, besides the one from before. -/
def Marked (s : RunSettings) (text : String) (line : Option Nat) (r : Result σ) (t : String) : Prop :=
  ∃ status, (status = .inProgress ∨ status = r.report.finalStatus) ∧
    (t = rewriteStatus text line status ∨ t = ticked s r.plan (rewriteStatus text line status))

theorem ticked_eq (s : RunSettings) (p : Plan) (text : String) :
    ticked s p text = tickSteps text (if s.markSteps then p.doneLines else []) := by
  unfold ticked
  split
  · rfl
  · exact (tickSteps_nil text).symm

/-- What is ticked depends on the groups of a plan only. -/
theorem ticked_congr {p p' : Plan} (same : p'.groups = p.groups) (text : String) :
    ticked s p' text = ticked s p text := by
  rw [ticked_eq, ticked_eq, doneLines, doneLines, tasks, tasks, same]

theorem groups_afterwards (s : RunSettings) (p : Plan) (groups : List TaskGroup)
    (error : Option PlanError) : (afterwards s p groups error).groups = groups := by
  unfold afterwards
  split <;> rfl

/-- The text of a plan after an execution. -/
theorem execute_text (alive : h.Alive) (s : RunSettings) (w : World σ) (fresh : Plan.Fresh p.groups) :
    ∃ r, execute h s false w p = .ok r ∧
      r.plan.text = ticked s r.plan (rewriteStatus p.text p.statusLine r.report.finalStatus) := by
  obtain ⟨r, groups, error, hexecute, hplan, hfinal, -⟩ := execute_of_alive alive s w fresh
  refine ⟨r, hexecute, ?_⟩
  have hgroups : r.plan.groups = groups := by rw [hplan, groups_afterwards]
  rw [ticked_congr (p := { p with groups }) hgroups, hplan, hfinal, text_afterwards, ticked_eq]

/-- What is said at the end changes no more in the memory of the host than the last status has. -/
theorem conclude_spares {β : Type} {f : σ → β} (spared : h.Spares f) {error : Option PlanError}
    {changed : Bool} (written : (saveStatus h w p (finalStatus error)).1 = .ok changed) :
    f (conclude h w p error).world.host = f (saveStatus h w p (finalStatus error)).2.2.host := by
  rw [finalStatus] at written ⊢
  unfold conclude
  simp only
  split
  · rename_i hsave
    rw [hsave]
    exact spared.say _ _
  · rename_i hsave
    rw [hsave] at written
    cases written

section Saves

variable {file : String} {versions : σ → List String} {Kind : String → Prop}
  (keeps : h.Keeps file versions) (path : p.path = some file)
  (holds : (versions w.host).head? = some p.text)
include keeps path holds

/-- The first status is written, and then the groups are carried out, which writes nothing more. -/
theorem carryOut_saves {changed : Bool} {p' : Plan} {w' : World σ} {report : Schedule.Report σ}
    (first : saveStatus h (opening h w p) p .inProgress = (.ok changed, p', w'))
    (carried : carryOut h s w' p' = .ok report)
    (kind : Kind (rewriteStatus p.text p.statusLine .inProgress)) :
    Saves versions Kind (rewriteStatus p.text p.statusLine .inProgress) w report.world := by
  have hspares := keeps.toSpares
  have hopening : versions (opening h w p).host = versions w.host := hspares.say _ _
  have hbegun : Saves versions Kind (rewriteStatus p.text p.statusLine .inProgress) (opening h w p)
      (saveStatus h (opening h w p) p .inProgress).2.2 :=
    saveStatus_saves keeps path (hopening ▸ holds) (congrArg Prod.fst first) kind
  rw [first] at hbegun
  exact (Saves.still holds hopening).trans
    (hbegun.trans (.still hbegun.holds (carryOut_spares hspares carried)))

/-- Steps are ticked, if that is wanted, and the final status is written. So up to two texts are added
to the file, and both are asked to be of the kind. -/
theorem closing_saves {error : Option PlanError} {changed : Bool}
    (ticks : s.markSteps = true → ∃ changed, (saveTicks h w p).1 = .ok changed)
    (last : (saveStatus h (tickIfWanted h s w p).2 (tickIfWanted h s w p).1 (finalStatus error)).1 =
      .ok changed)
    (kind : Kind (ticked s p p.text)) (final : Kind (closing h s w p error).plan.text) :
    Saves versions Kind (closing h s w p error).plan.text w (closing h s w p error).world := by
  have hticked := tickIfWanted_saves keeps path holds ticks kind
  have htext : (tickIfWanted h s w p).1.text = ticked s p p.text := by
    rw [plan_tickIfWanted, ticked]
    split <;> rfl
  have hpath := (tickIfWanted_written h s w p).path.trans path
  have hplan : (closing h s w p error).plan = (tickIfWanted h s w p).1.withStatus (finalStatus error) :=
    (plan_conclude _ _ _ _).1
  rw [hplan] at final ⊢
  have hconcluded := saveStatus_saves keeps hpath (htext ▸ hticked.holds) last final
  exact hticked.trans (hconcluded.trans
    (.still hconcluded.holds (conclude_spares keeps.toSpares last)))

/-- When a file holds the text of a plan and everything is written without fail, it holds the text of
the plan after an execution, and what it has held in between differs only in marks of the run. -/
theorem execute_saves (alive : h.Alive) (fresh : Plan.Fresh p.groups)
    (written : AllWritten h s w p) {r : Result σ} (executed : execute h s false w p = .ok r) :
    Saves versions (Marked s p.text p.statusLine r) r.plan.text w r.world := by
  obtain ⟨r', hexecute', htext⟩ := execute_text alive s w fresh
  rw [executed, Except.ok.injEq] at hexecute'
  subst hexecute'
  obtain ⟨changed, p', w', hfirst, hlast⟩ := written.status
  obtain rfl : p.withStatus .inProgress = p' := by
    rw [← plan_saveStatus h (opening h w p) p .inProgress, hfirst]
  obtain ⟨_, report, _, hcarry, -⟩ := carryOut_home alive s w' (p.withStatus .inProgress)
  obtain ⟨changed', hlast⟩ := hlast report hcarry
  rw [execute_of_carried hfirst hcarry, Except.ok.injEq] at executed
  have hgroups : r.plan.groups = report.groups := by
    rw [← executed, (plan_closing _ _ _ _ _).1]
    split <;> rfl
  have hfinal : Marked s p.text p.statusLine r (closing h s report.world
      { p.withStatus .inProgress with groups := report.groups } report.error).plan.text := by
    rw [executed]
    exact ⟨r.report.finalStatus, .inr rfl, .inr htext⟩
  have hcarried : Saves versions (Marked s p.text p.statusLine r)
      (rewriteStatus p.text p.statusLine .inProgress) w report.world :=
    carryOut_saves keeps path holds hfirst hcarry ⟨.inProgress, .inl rfl, .inl rfl⟩
  have hclosed := closing_saves (p := { p.withStatus .inProgress with groups := report.groups })
    keeps path hcarried.holds (written.ticks _ _ _ _ hfirst hcarry) hlast
    ⟨.inProgress, .inl rfl, .inr (ticked_congr hgroups.symm _)⟩ hfinal
  rw [executed] at hclosed
  exact hcarried.trans hclosed

end Saves

/-- What an execution of a plan that has just been read writes, in its text and in a file that holds it, and
that a rehearsal makes no call and writes nothing. -/
theorem execute_saved {text : String} (path : Option String) (parsed : parse text = .ok p)
    (alive : h.Alive) :
    (∃ r, execute h s false w { p with path } = .ok r ∧
      r.plan.text = ticked s r.plan (rewriteStatus text p.statusLine r.report.finalStatus) ∧
      ∀ file versions, path = some file → h.Keeps file versions →
        (versions w.host).head? = some text → AllWritten h s w { p with path } →
          Saves versions (Marked s text p.statusLine r) r.plan.text w r.world) ∧
    ∃ r, execute h s true w { p with path } = .ok r ∧ r.plan = { p with path } ∧
      r.world.calls = w.calls ∧
      ∀ file versions, h.Keeps file versions → versions r.world.host = versions w.host := by
  have hfresh := parse_fresh parsed
  have htext : p.text = text := by
    obtain ⟨_, _, _, _, _, hp⟩ := parse_eq_ok_iff.mp parsed
    rw [hp]
    rfl
  subst htext
  constructor
  · obtain ⟨r, hexecute, htext⟩ := execute_text (p := { p with path }) alive s w hfresh
    refine ⟨r, hexecute, htext, fun file versions hpath keeps holds written => ?_⟩
    exact execute_saves (p := { p with path }) keeps hpath holds alive hfresh written hexecute
  · refine ⟨_, rfl, rfl, rfl, fun file versions keeps => ?_⟩
    exact (keeps.toSpares.say _ _).trans (keeps.toSpares.say _ _)

/-! ## A file that remembers -/

theorem update_of_writes (writes : ∀ memory path text, (h.write memory path text).1 = .ok ())
    (w : World σ) (p : Plan) (text : String) :
    ∃ changed, (update h w p text).1 = .ok changed := by
  have hworld : ∀ path, (w.write h path text).1 = .ok () := fun path => writes w.host path text
  unfold update
  split
  · exact ⟨false, rfl⟩
  · split
    · exact ⟨true, rfl⟩
    · rename_i path _
      have hwrite := hworld path
      split
      · exact ⟨true, rfl⟩
      · rename_i hfailed
        rw [hfailed] at hwrite
        cases hwrite

/-- Nothing fails to be written on a host where no write fails, whatever is to be written. -/
theorem allWritten_of_writes (writes : ∀ memory path text, (h.write memory path text).1 = .ok ())
    (s : RunSettings) (w : World σ) (p : Plan) : AllWritten h s w p where
  status := by
    obtain ⟨changed, hfirst⟩ := update_of_writes writes (opening h w p)
      { p.withStatus .inProgress with text := p.text } (p.withStatus .inProgress).text
    exact ⟨changed, _, _, Prod.ext hfirst rfl, fun _ _ => update_of_writes writes _ _ _⟩
  ticks _ _ _ _ _ _ _ := update_of_writes writes _ _ _

end Run

/-- A host on which every command succeeds and of which one file remembers all its texts. -/
def Host.archive : Host (List String) where
  run := fun texts _ _ => ({ reply := .exited { exitCode := 0 } }, texts)
  write := fun texts _ text => (.ok (), text :: texts)

theorem Host.archive_keeps (file : String) : Host.archive.Keeps file id where
  run _ _ _ := rfl
  note _ _ _ := rfl
  write _ _ _ := rfl

namespace Run

open Plan

/-- The plan with its status in the header is saved as it is carried out. -/
theorem execute_saved_of_header :
    parse headerText = .ok headerPlan ∧ Host.archive.Alive ∧ Host.archive.Keeps "plan.md" id ∧
      AllWritten Host.archive { markSteps := true } { host := [headerText] }
        { headerPlan with path := some "plan.md" } ∧
      ∃ r, execute Host.archive { markSteps := true } false { host := [headerText] }
          { headerPlan with path := some "plan.md" } = .ok r ∧
        Saves id (Marked { markSteps := true } headerText (some 1) r) r.plan.text
          { host := [headerText] } r.world := by
  have halive : Host.archive.Alive := fun _ _ _ _ => by simp [Host.archive]
  have hkeeps := Host.archive_keeps "plan.md"
  have hwritten := allWritten_of_writes (h := Host.archive) (fun _ _ _ => rfl) { markSteps := true }
    { host := [headerText] } { headerPlan with path := some "plan.md" }
  obtain ⟨⟨r, hexecute, -, hsaves⟩, -⟩ := execute_saved (h := Host.archive) (s := { markSteps := true })
    (w := { host := [headerText] }) (some "plan.md") parse_headerText halive
  exact ⟨parse_headerText, halive, hkeeps, hwritten, r, hexecute,
    hsaves "plan.md" id rfl hkeeps rfl hwritten⟩

end Run

end Runbook
