import Runbook.Proofs.CrewOrder
import Runbook.Proofs.Ledger

/-!
# Hosts that neither cancel nor crash

What the host answers decides how workers end, and the answers of a run are all the host's
(`Leads.answered`). When nobody dies of a command, no worker is lost (`Leads.not_lost_of_alive`), and
what is carried out comes home (`run_home_of_alive`). A *steady* host never says that a command was
cancelled, either. Then a worker that is not stopped completes its group, so no group is taken up twice
(`Taken.first`), and every batch that does not fail completes a group, so the rounds are never used up
(`Leads.not_tired`).
-/

set_option autoImplicit false

namespace Runbook

variable {σ : Type}

/-- No command kills its worker. What is asked of a host here is asked of every memory it may have, so
it holds of what a run makes of it, too. -/
def Host.Alive (h : Host σ) : Prop :=
  ∀ memory command millis message, (h.run memory command millis).1.reply ≠ .crashed message

/-- The host never says that a command was cancelled, and no command kills its worker. It may let any
command fail, answer in any order and forget or remember what it likes. -/
structure Host.Steady (h : Host σ) : Prop where
  notCancelled : ∀ memory command millis,
    (h.run memory command millis).1.reply ≠ .refused .cancelled
  notCrashed : ∀ memory command millis message,
    (h.run memory command millis).1.reply ≠ .crashed message

theorem Host.Steady.alive {h : Host σ} (steady : h.Steady) : h.Alive := steady.notCrashed

theorem Host.obliging_steady : Host.obliging.Steady :=
  ⟨fun _ _ _ => by simp [obliging], fun _ _ _ _ => by simp [obliging]⟩

/-- A command that fails is neither cancelled nor does it kill anyone, so a host on which some commands fail
can be steady. -/
theorem Host.linting_steady : Host.linting.Steady := by
  constructor
  · intro _ command _
    show lintReply command ≠ _
    unfold lintReply
    split <;> simp
  · intro _ command _ _
    show lintReply command ≠ _
    unfold lintReply
    split <;> simp

namespace Interleaving

variable {h : Host σ} {s : RunSettings} {w : World σ} {groups now : List TaskGroup}
  {es es' since : List Event} {c c' : Config σ} {place : Nat} {before g : TaskGroup}
  {calls : List Call} {r : Result} {stopped : Bool}

/-! ## Answers -/

/-- A call of the host with the time that it was given. Which memory the host had at that moment is left
open. -/
def Answered (h : Host σ) (millis : Nat) (call : Call) : Prop :=
  call.timeout = millis ∧ ∃ memory, call.answer = (h.run memory call.command millis).1

theorem Step.answered (step : Step h s c es' c') {call : Call} (began : .began call ∈ es') :
    Answered h s.commandMillis call := by
  cases step with
  | work step => exact step.answered began
  | take => simp at began
  | refuse | accept | finish | tire | starve | notice | lose | pass | abort | next => cases began

/-- All answers of a run are the host's, so what is known of the host is known of them. -/
theorem Leads.answered (leads : Leads h s c es c') {call : Call} (began : .began call ∈ es) :
    Answered h s.commandMillis call := by
  induction leads with
  | refl => cases began
  | step leads next ih =>
    rcases List.mem_append.mp began with hb | hb
    · exact ih hb
    · exact next.answered hb

theorem Answered.not_cancelled {millis : Nat} {call : Call} (answered : Answered h millis call)
    (steady : h.Steady) :
    call.answer.reply ≠ .refused .cancelled := by
  obtain ⟨-, memory, hanswer⟩ := answered
  rw [hanswer]
  exact steady.notCancelled _ _ _

theorem Answered.not_crashed {millis : Nat} {call : Call} (answered : Answered h millis call)
    (alive : h.Alive) (message : LastWords) : call.answer.reply ≠ .crashed message := by
  obtain ⟨-, memory, hanswer⟩ := answered
  rw [hanswer]
  exact alive _ _ _ _

/-- The calls of a worker are among those that have begun, and under the name of its group. -/
theorem Carried.began (carried : Carried h s w groups stopped place es before calls r)
    {call : Call} (mem : call ∈ calls) :
    .began call ∈ es ∧ call.group = some before.name := by
  obtain ⟨taken, seen, comes, told⟩ := carried
  have hmem := began_mem_log mem
  rw [← seen, ofGroup, List.mem_filter] at hmem
  exact ⟨taken.subset hmem.1, by simpa [Event.isOf] using hmem.2⟩

/-! ## What a worker comes to when its host is steady -/

/-- Out of a run that goes well, a worker comes back with its group completed. Of the six ways to end,
two need a cancellation from outside, one a failure, and the host rules out two more. -/
theorem Carried.completed (steady : h.Steady) (leads : Leads h s (.fresh w groups) es c)
    (carried : Carried h s w groups false place es before calls r) :
    (∀ call ∈ calls, call.succeeded = true) ∧
      calls.map (·.command) = before.commands s.programs ∧
      broughtBack before r =
        { before with tasks := before.tasks.map Task.settled, status := .completed } := by
  have hanswered : ∀ call ∈ calls, Answered h s.commandMillis call := fun call hc =>
    leads.answered (carried.began hc).1
  obtain ⟨taken, seen, comes, told⟩ := carried
  cases comes with
  | declined off => cases off
  | died fine asked why =>
    have hlast := hanswered _ (List.mem_append_right _ List.mem_cons_self)
    exact absurd why (hlast.not_crashed steady.alive _)
  | ended ends =>
    cases ends with
    | completed fine all => exact ⟨fine, all, rfl⟩
    | failed fine split isOpen chores asked why => exact absurd (told rfl) Bool.false_ne_true
    | calledOff off fine asked back => cases off
    | recalled fine asked why back =>
      have hlast := hanswered _ (List.mem_append_right _ List.mem_cons_self)
      exact absurd why (hlast.not_cancelled steady)

/-- A group that is still to do in a run that goes well has never been taken up. -/
theorem Fate.untouched_of_pending (steady : h.Steady)
    (leads : Leads h s (.fresh w groups) es c)
    (fate : Fate h s w groups false place es g) (pending : g.status = .pending) :
    groups[place]? = some g ∧ Passed place es ∧ ofGroup g.name es = [] := by
  cases fate with
  | untouched found passed quiet => exact ⟨found, passed, quiet⟩
  | carried carried =>
    obtain ⟨-, -, hback⟩ := carried.completed steady leads
    rw [hback] at pending
    cases pending

/-- No group is taken up twice: when it was taken up it stood as at the beginning, and all calls of it
have been made since. -/
theorem Taken.first (names : (groups.map (·.name)).Nodup) (steady : h.Steady)
    (taken : Taken h s w groups place before es since) :
    groups[place]? = some before ∧ ofGroup before.name es = ofGroup before.name since := by
  have hpending := taken.pending
  obtain ⟨leads, first, inBatch, found, last⟩ := taken
  have hsettled : Settled h s w groups false _ _ := leads.account names
  obtain ⟨hfound, -, hquiet⟩ :=
    (hsettled.fate place before found).untouched_of_pending steady leads hpending
  refine ⟨hfound, ?_⟩
  rw [ofGroup_append, hquiet, ofGroup_taken, List.nil_append]

/-! ## Nobody dies -/

/-- A worker at its post has not died, and what it waits for is an answer of the host. The latter is
what keeps it alive at the next step. -/
def Post.Lives (h : Host σ) (s : RunSettings) : Post → Prop
  | .fresh | .busy _ => True
  | .waits _ call => Answered h s.commandMillis call
  | .through r => ∃ x, r = .ok x

/-- Nobody in a run has died. -/
def Config.Lives (h : Host σ) (s : RunSettings) : Config σ → Prop
  | .within _ _ _ _ hands => ∀ hand ∈ hands, hand.2.Lives h s
  | .lost _ => False
  | .fresh _ _ | .between _ _ _ _ | .home _ => True

theorem WorkStep.lives (alive : h.Alive) {cancelled : Bool} {w' : World σ} {p p' : Post}
    (step : WorkStep h s cancelled g w p es w' p') (before : p.Lives h s) : p'.Lives h s := by
  have hbegan : ∀ call, .began call ∈ es → Answered h s.commandMillis call :=
    fun call began => step.answered began
  cases step with
  | start | go | goOn => trivial
  | decline | stop | giveUp => exact ⟨_, rfl⟩
  | ask => exact hbegan _ List.mem_cons_self
  | die due settled =>
    have hanswered : Answered h s.commandMillis _ := before
    exact absurd (Asked.crashed_of_dead settled) (hanswered.not_crashed alive _)

theorem Step.lives (alive : h.Alive) (step : Step h s c es c') (before : c.Lives h s) :
    c'.Lives h s := by
  cases step with
  | refuse | accept | finish | tire | starve | abort | next => trivial
  | take =>
    intro hand hhand
    rw [(mem_freshHands.mp hhand).2.2]
    trivial
  | work step =>
    intro hand hhand
    rcases List.mem_cons.mp hhand with rfl | hhand
    · exact step.lives alive (before _ List.mem_cons_self)
    · exact before hand (List.mem_cons_of_mem _ hhand)
  | notice => exact fun hand hhand => before hand (List.mem_cons_of_mem _ hhand)
  | lose =>
    obtain ⟨_, hdead⟩ := before _ List.mem_cons_self
    cases hdead
  | pass later same => exact fun hand hhand => before hand (same.mem_iff.mpr hhand)

theorem Leads.lives (alive : h.Alive) (leads : Leads h s (.fresh w groups) es c) :
    c.Lives h s := by
  induction leads with
  | refl => trivial
  | step leads next ih => exact next.lives alive ih

/-- A run is never lost when no command kills its worker. -/
theorem Leads.not_lost_of_alive (alive : h.Alive) (leads : Leads h s (.fresh w groups) es c)
    (message : LastWords) : c ≠ .lost message := by
  rintro rfl
  exact leads.lives alive

/-- What is carried out comes home, and is one of the possible runs. So whatever holds of all of these
holds of what is carried out. -/
theorem run_home_of_alive (alive : h.Alive) :
    ∃ report es, Schedule.run (Bench.ofSettings h s) s.effectiveBatchSize w groups = .ok report ∧
      Leads h s (.fresh w groups) es (.home report) := by
  obtain ⟨es, leads⟩ := run_leads h s w groups
  cases hrun : Schedule.run (Bench.ofSettings h s) s.effectiveBatchSize w groups with
  | ok report =>
    rw [hrun] at leads
    exact ⟨report, es, rfl, leads⟩
  | error message =>
    rw [hrun] at leads
    exact absurd rfl (leads.not_lost_of_alive alive message)

theorem run_home_of_steady (steady : h.Steady) :
    ∃ report es, Schedule.run (Bench.ofSettings h s) s.effectiveBatchSize w groups = .ok report ∧
      Leads h s (.fresh w groups) es (.home report) :=
  run_home_of_alive steady.alive

/-! ## Rounds -/

/-- There are rounds enough for the groups that have not been completed, and as many again. Each round
that goes well completes a group, so this is more than is ever needed. -/
def Budget (n : Nat) : Config σ → Prop
  | .between left _ _ completed => 2 * n ≤ left + completed.length
  | .within left _ completed _ _ => 2 * n ≤ left + 1 + completed.length
  | .fresh _ now => now.length = n
  | .home _ | .lost _ => True

/-- When a group of a batch has been completed, more names are known than before. -/
theorem length_addCompleted_lt_of_completed {batch : List Nat} {completed : List String} {i : Nat}
    (sorted : completed.Pairwise (· < ·)) (inBatch : i ∈ batch) (found : now[i]? = some g)
    (unknown : g.name ∉ completed) (done : g.status = .completed) :
    completed.length < (Schedule.addCompleted now batch completed).length := by
  have hnodup : (g.name :: completed).Nodup :=
    List.nodup_cons.mpr ⟨unknown, nodup_of_pairwise_lt sorted⟩
  have hsubset : g.name :: completed ⊆ Schedule.addCompleted now batch completed := by
    intro name hname
    rw [Schedule.mem_addCompleted]
    rcases List.mem_cons.mp hname with rfl | hname
    · exact .inr ⟨i, inBatch, g, found, done, rfl⟩
    · exact .inl hname
  exact hnodup.length_le_of_subset hsubset

/-- A batch that goes well completes a group, since it is not empty and each of its workers completes
its own. -/
theorem length_addCompleted_lt {batch : List Nat} {completed : List String} (steady : h.Steady)
    (leads : Leads h s (.fresh w groups) es c) (settled : Settled h s w groups false es now)
    (underway : Underway s es now completed batch) :
    completed.length < (Schedule.addCompleted now batch completed).length := by
  obtain ⟨i, hi⟩ := List.exists_mem_of_ne_nil batch underway.nonempty
  obtain ⟨g, hg, hunknown, -⟩ := underway.ready i hi
  have hstatus : g.status = .completed := by
    cases settled.fate i g hg with
    | untouched found passed quiet => exact absurd hi (passed batch underway.latest.mem)
    | carried carried =>
      obtain ⟨-, -, hback⟩ := carried.completed steady leads
      rw [hback]
  exact length_addCompleted_lt_of_completed underway.sorted hi hg hunknown hstatus

/-- One step keeps the budget: a round is spent where a batch is taken up, and earned back where it is
over. -/
theorem Step.budget (names : (groups.map (·.name)).Nodup) (steady : h.Steady) {n : Nat}
    (leads : Leads h s (.fresh w groups) es c) (step : Step h s c es' c')
    (before : Budget n c) : Budget n c' := by
  cases step with
  | refuse | finish | tire | starve | lose | abort => trivial
  | @accept _ now acyclic =>
    have hn : now.length = n := before
    show 2 * n ≤ now.length * 2 + _
    omega
  | @take left _ _ completed =>
    have hn : 2 * n ≤ left + 1 + completed.length := before
    exact hn
  | work | notice | pass => exact before
  | @next left crew completed batch well =>
    have hn : 2 * n ≤ left + 1 + completed.length := before
    have handled : Handled h s w groups es crew batch [] := leads.account names
    have hsettled := handled.settled
    rw [well] at hsettled
    have hlt := length_addCompleted_lt steady leads hsettled (leads.ledger names)
    show 2 * n ≤ left + (Schedule.addCompleted crew.groups batch completed).length
    omega

theorem Leads.budget (names : (groups.map (·.name)).Nodup) (steady : h.Steady)
    (leads : Leads h s (.fresh w groups) es c) : Budget groups.length c := by
  induction leads with
  | refl => exact rfl
  | step leads next ih => exact next.budget names steady leads ih

/-- When no round is left all groups have been completed, so nobody is told that the rounds have run
out. -/
theorem Leads.not_tired (names : (groups.map (·.name)).Nodup) (steady : h.Steady) {w' : World σ}
    {completed : List String} (leads : Leads h s (.fresh w groups) es (.between 0 w' now completed)) :
    groups.length ≤ completed.length := by
  have hbudget : 2 * groups.length ≤ 0 + completed.length := leads.budget names steady
  omega

end Interleaving

end Runbook
