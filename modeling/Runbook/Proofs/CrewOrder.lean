import Runbook.Proofs.Interleaving

/-!
# A crew's order is one of the possible orders

What is carried out by `Schedule.run`, with turns taken as answers fall due, is a run in the sense
of `Interleaving.Leads`. So whatever holds of every order of events holds of the one that is
carried out (`run_leads`).

The proof goes the way of the definitions: a worker alone, a worker's turn, the first turns of all
workers, the turns of a moment, all moments, and the rounds.
-/

set_option autoImplicit false

namespace Runbook.Interleaving

variable {σ : Type} {h : Host σ} {s : RunSettings}

/-- The bench of a crew at a time when it is known whether a failure has stopped it. -/
def benchAt (h : Host σ) (s : RunSettings) (cancelled : Bool) : Bench σ :=
  { Bench.ofSettings h s with cancelled := fun _ => cancelled }

/-! ## A worker alone -/

section Works

variable {cancelled : Bool} {g : TaskGroup} {w w' w'' : World σ} {p p' p'' : Post}
  {es es' : List Event}

theorem Works.single (next : WorkStep h s cancelled g w p es w' p') :
    Works h s cancelled g w p es w' p' := by
  simpa using Works.refl.step next

theorem Works.trans (first : Works h s cancelled g w p es w' p')
    (second : Works h s cancelled g w' p' es' w'' p'') :
    Works h s cancelled g w p (es ++ es') w'' p'' := by
  induction second with
  | refl => simpa using first
  | step works next ih => simpa [List.append_assoc] using ih.step next
  | pass works later ih => exact ih.pass later

/-- The call that a bench makes for a group at some moment. -/
def callAt (s : RunSettings) (g : TaskGroup) (clock : Nat) (asked : Asked) (answer : Answer) :
    Call :=
  ⟨some g.name, asked.command, s.commandMillis, clock, answer⟩

theorem asks {job : Job} {asked : Asked} {answer : Answer}
    (moved : job.move cancelled = .ask asked)
    (called : w.call h (some g.name) asked.command s.commandMillis = (answer, w')) :
    Works h s cancelled g w (.busy job) [.began (callAt s g w.clock asked answer)] w'
        (.waits asked (callAt s g w.clock asked answer)) ∧ w'.clock = w.clock := by
  refine ⟨.single (.ask moved called), ?_⟩
  rw [World.call, Prod.mk.injEq] at called
  rw [← called.2]

theorem asks_and_waits {job : Job} {asked : Asked} {answer : Answer}
    (moved : job.move cancelled = .ask asked)
    (called : w.call h (some g.name) asked.command s.commandMillis = (answer, w')) :
    Works h s cancelled g w (.busy job) [.began (callAt s g w.clock asked answer)]
        (w'.waitUntil (w'.clock + answer.delay)) (.waits asked (callAt s g w.clock asked answer)) ∧
      (callAt s g w.clock asked answer).due ≤ (w'.waitUntil (w'.clock + answer.delay)).clock := by
  obtain ⟨asks, same⟩ := asks moved called
  refine ⟨asks.pass (Nat.le_add_right w'.clock answer.delay), ?_⟩
  simp [Call.due, callAt, World.waitUntil, same]

/-- What a worker that works alone comes to, in the terms of its post. When it is lost with its last
words, nothing is said of the world, because nobody gets to see it. -/
def AloneEnds (h : Host σ) (g : TaskGroup) (w : World σ) (p : Post) :
    Except LastWords (Ending × World σ) → Prop
  | .ok (ending, w') => w = w'.say h [(g.conclude ending).2] ∧
      p = .through (.ok ((g.conclude ending).1, ending.outcome))
  | .error message => p = .through (.error message)

/-- A worker that works alone takes the same steps as one among several, waiting for each answer by
itself. The induction is on the job, which every move makes smaller. -/
theorem alone_works (h : Host σ) (s : RunSettings) (g : TaskGroup) (w : World σ) (job : Job) :
    ∃ es w' p', Works h s false g w (.busy job) es w' p' ∧
      AloneEnds h g w' p' (((benchAt h s false).forGroup g).alone w job) := by
  fun_induction Bench.alone ((benchAt h s false).forGroup g) w job with
  | case1 w job lines next moved ih =>
    obtain ⟨es, w', p', works, ends⟩ := ih
    exact ⟨_, w', p', (Works.single (.go moved)).trans works, ends⟩
  | case2 w job ending moved =>
    exact ⟨_, _, _, .single (.stop moved), rfl, rfl⟩
  | case3 w job asked moved answer w₁ called w₂ settled ih =>
    obtain ⟨es, w', p', works, ends⟩ := ih
    obtain ⟨waited, due⟩ := asks_and_waits moved called
    exact ⟨_, w', p', (waited.step (.goOn due settled)).trans works, ends⟩
  | case4 w job asked moved answer w₁ called w₂ lines ending settled =>
    obtain ⟨waited, due⟩ := asks_and_waits moved called
    exact ⟨_, _, _, waited.step (.giveUp due settled), rfl, rfl⟩
  | case5 w job asked moved answer w₁ called message settled =>
    obtain ⟨waited, due⟩ := asks_and_waits moved called
    exact ⟨_, _, _, waited.step (.die due settled), rfl⟩

/-! ## A worker's turn -/

/-- A post as the crew knows it at the end of a turn. -/
def Post.Shows : Post → Waiting ⊕ Result → Prop
  | .waits asked call, .inl x => x = ⟨call.due, asked, call.answer.reply⟩
  | .through r, .inr r' => r' = r
  | _, _ => False

/-- How a turn of a group's worker ends that has begun at some post. No time passes in a turn: a worker
works until it has to wait, and an answer is due at that moment or later. -/
structure TurnWorks (h : Host σ) (s : RunSettings) (cancelled : Bool) (g : TaskGroup)
    (w : World σ) (p : Post) (turn : (Waiting ⊕ Result) × World σ) : Prop where
  works : ∃ es p', Works h s cancelled g w p es turn.2 p' ∧ p'.Shows turn.1
  clock : turn.2.clock = w.clock
  due : ∀ x, turn.1 = .inl x → w.clock ≤ x.due

theorem TurnWorks.after {turn : (Waiting ⊕ Result) × World σ}
    (second : TurnWorks h s cancelled g w' p' turn) (first : Works h s cancelled g w p es w' p')
    (clock : w'.clock = w.clock) : TurnWorks h s cancelled g w p turn := by
  obtain ⟨es', p'', works, shows⟩ := second.works
  refine ⟨⟨_, p'', first.trans works, shows⟩, second.clock.trans clock, fun x hx => ?_⟩
  rw [← clock]
  exact second.due x hx

theorem TurnWorks.ending {turn : (Waiting ⊕ Result) × World σ} {r : Result} (ends : turn.1 = .inr r)
    (works : Works h s cancelled g w p es turn.2 (.through r)) (clock : turn.2.clock = w.clock) :
    TurnWorks h s cancelled g w p turn := by
  refine ⟨⟨es, _, works, ?_⟩, clock, fun x hx => ?_⟩
  · rw [ends]
    rfl
  · rw [ends] at hx
    cases hx

/-- A turn goes on from a job that is in hand, over all moves that need no answer. -/
theorem turn_works (h : Host σ) (s : RunSettings) (cancelled : Bool) (g : TaskGroup)
    (w : World σ) (job : Job) :
    TurnWorks h s cancelled g w (.busy job) ((benchAt h s cancelled).afterTurn g
      (((benchAt h s cancelled).forGroup g).turn w job)) := by
  fun_induction Bench.turn ((benchAt h s cancelled).forGroup g) w job with
  | case1 w job lines next moved ih => exact ih.after (.single (.go moved)) rfl
  | case2 w job ending moved => exact .ending rfl (.single (.stop moved)) rfl
  | case3 w job asked moved answer w₁ called now settled ih =>
    obtain ⟨asks, same⟩ := asks moved called
    refine ih.after (asks.step (.goOn ?_ settled)) same
    simp [Call.due, callAt, now, same]
  | case4 w job asked moved answer w₁ called now lines ending settled =>
    obtain ⟨asks, same⟩ := asks moved called
    refine .ending rfl (asks.step (.giveUp ?_ settled)) same
    simp [Call.due, callAt, now, same]
  | case5 w job asked moved answer w₁ called now message settled =>
    obtain ⟨asks, same⟩ := asks moved called
    refine .ending rfl (asks.step (.die ?_ settled)) same
    simp [Call.due, callAt, now, same]
  | case6 w job asked moved answer w₁ called later =>
    obtain ⟨asks, same⟩ := asks moved called
    refine ⟨⟨_, _, asks, ?_⟩, same, fun x hx => ?_⟩
    · simp [Bench.afterTurn, Post.Shows, Call.due, callAt, same]
    · simp only [Bench.afterTurn, Sum.inl.injEq] at hx
      subst hx
      simp [same]

theorem begin_works (h : Host σ) (s : RunSettings) (g : TaskGroup) (w : World σ) :
    TurnWorks h s false g w .fresh ((benchAt h s false).begin w g) :=
  (turn_works h s false g _ _).after (.single (.start rfl)) rfl

/-- A turn that begins with an answer. The answer must be due, as it is for whoever is given a turn. -/
theorem goOn_works {asked : Asked} {call : Call} (due : call.due ≤ w.clock) :
    TurnWorks h s cancelled g w (.waits asked call)
      ((benchAt h s cancelled).goOn w g ⟨call.due, asked, call.answer.reply⟩) := by
  unfold Bench.goOn Bench.resume
  split
  · rename_i settled
    exact (turn_works h s cancelled g _ _).after (.single (.goOn due settled)) rfl
  · rename_i settled
    exact .ending rfl (.single (.giveUp due settled)) rfl
  · rename_i settled
    exact .ending rfl (.single (.die due settled)) rfl

end Works

/-! ## A crew -/

section Crew

variable {left : Nat} {crew : Crew σ} {completed : List String} {batch : List Nat}
  {hands hands' others : List Hand} {worker : Worker} {p p' : Post} {es : List Event}

theorem Leads.rearrange (same : hands.Perm hands') :
    Leads h s (.within left crew completed batch hands) []
      (.within left crew completed batch hands') :=
  .single (.pass (Nat.le_refl _) same)

theorem Works.leads {w : World σ}
    (works : Works h s crew.error.isSome worker.group crew.world p es w p') :
    Leads h s (.within left crew completed batch ((worker, p) :: hands)) es
      (.within left { crew with world := w } completed batch ((worker, p') :: hands)) := by
  induction works with
  | refl => exact .refl
  | step works next ih => exact ih.step (.work next)
  | pass works later ih => simpa using ih.step (.pass later (.refl _))

/-- A worker whose command is being run. -/
abbrev Holding := Worker × Asked × Call

def Holding.hand : Holding → Hand
  | (worker, asked, call) => (worker, .waits asked call)

/-- The worker as the crew lists it. -/
def Holding.shown : Holding → Worker × Waiting
  | (worker, asked, call) => (worker, ⟨call.due, asked, call.answer.reply⟩)

def endedHand : Worker × Result → Hand
  | (worker, r) => (worker, .through r)

/-- Hands are those that turns tell of. The order is left open: the crew lists those that wait and those
that have ended apart, while hands may stand in any order. -/
def Turns.Tells (turns : Turns) (hands : List Hand) : Prop :=
  ∃ holdings : List Holding, turns.waiting = holdings.map Holding.shown ∧
    hands.Perm (holdings.map Holding.hand ++ turns.ended.map endedHand)

theorem Turns.Tells.add {turns : Turns} {x : Waiting ⊕ Result} (tells : Turns.Tells turns hands)
    (shows : p.Shows x) : Turns.Tells (turns.add worker x) ((worker, p) :: hands) := by
  obtain ⟨holdings, hwaiting, hperm⟩ := tells
  cases p with
  | fresh => exact shows.elim
  | busy job => exact shows.elim
  | waits asked call =>
    cases x with
    | inr r => exact shows.elim
    | inl x =>
      cases shows
      refine ⟨(worker, asked, call) :: holdings, ?_, hperm.cons _⟩
      simp [Turns.add, Turns.addWaiting, hwaiting, Holding.shown]
  | through r =>
    cases x with
    | inl x => exact shows.elim
    | inr r' =>
      cases shows
      refine ⟨holdings, hwaiting, ?_⟩
      exact (hperm.cons _).trans List.perm_middle.symm

/-- Turns of several workers, taken one after the other at one moment. Other hands may be held meanwhile
(`others`), which is what makes it possible to put turns one behind another. -/
structure TurnsLead (h : Host σ) (s : RunSettings) (left : Nat) (crew : Crew σ)
    (completed : List String) (batch : List Nat) (hands others : List Hand)
    (turns : Turns × World σ) : Prop where
  leads : ∃ es hands', Turns.Tells turns.1 hands' ∧
    Leads h s (.within left crew completed batch (hands ++ others)) es
      (.within left { crew with world := turns.2 } completed batch (hands' ++ others))
  clock : turns.2.clock = crew.world.clock
  due : ∀ x ∈ turns.1.waiting, crew.world.clock ≤ x.2.due

/-- A turn before other turns. The world goes from one to the next, and the hands of the others stay as
they are. -/
theorem TurnsLead.cons {turn : (Waiting ⊕ Result) × World σ} {turns : Turns × World σ}
    (first : TurnWorks h s crew.error.isSome worker.group crew.world p turn)
    (rest : ∀ others, TurnsLead h s left { crew with world := turn.2 } completed batch hands others
      turns) :
    TurnsLead h s left crew completed batch ((worker, p) :: hands) others
      (turns.1.add worker turn.1, turns.2) := by
  obtain ⟨es, p', works, shows⟩ := first.works
  obtain ⟨es', hands', tells, leads⟩ := (rest ((worker, p') :: others)).leads
  have hfirst : Leads h s (.within left crew completed batch ((worker, p) :: hands ++ others)) es
      (.within left { crew with world := turn.2 } completed batch
        ((worker, p') :: (hands ++ others))) := works.leads
  -- the turns of the others lead on from the front of the list, so the first hand goes behind them
  have hturned := hfirst.trans (.rearrange List.perm_middle.symm)
  have hall := (hturned.trans leads).trans (.rearrange List.perm_middle)
  refine ⟨⟨_, (worker, p') :: hands', tells.add shows, hall⟩, ?_, fun x hx => ?_⟩
  · exact (rest others).clock.trans first.clock
  · have hrest := (rest others).due
    simp only [first.clock] at hrest
    cases hturn : turn.1 with
    | inl y =>
      rw [hturn] at hx
      rcases List.mem_cons.mp hx with rfl | hx
      · exact first.due y hturn
      · exact hrest x hx
    | inr r =>
      rw [hturn] at hx
      exact hrest x hx

/-- When a batch is taken up its workers begin in the order of their places, each from where the one
before has left the world. -/
theorem beginAll_leads (workers : List Worker) (calm : crew.error = none) :
    TurnsLead h s left crew completed batch (workers.map fun worker => (worker, .fresh)) others
      ((benchAt h s false).beginAll crew.world workers) := by
  induction workers generalizing crew others with
  | nil => exact ⟨⟨[], [], ⟨[], rfl, .refl _⟩, .refl⟩, rfl, fun x hx => by cases hx⟩
  | cons worker workers ih =>
    refine TurnsLead.cons ?_ fun others => ih calm
    rw [calm]
    exact begin_works h s worker.group crew.world

theorem TurnsLead.addWaiting {turns : Turns × World σ} {asked : Asked} {call : Call}
    (due : crew.world.clock ≤ call.due)
    (rest : ∀ others, TurnsLead h s left crew completed batch hands others turns) :
    TurnsLead h s left crew completed batch ((worker, .waits asked call) :: hands) others
      (turns.1.addWaiting worker ⟨call.due, asked, call.answer.reply⟩, turns.2) := by
  obtain ⟨es, hands', tells, leads⟩ := (rest ((worker, .waits asked call) :: others)).leads
  have hfirst : Leads h s
      (.within left crew completed batch ((worker, .waits asked call) :: hands ++ others)) []
      (.within left crew completed batch (hands ++ (worker, .waits asked call) :: others)) :=
    .rearrange List.perm_middle.symm
  have hall := (hfirst.trans leads).trans (.rearrange List.perm_middle)
  have hshows : (Post.waits asked call).Shows (.inl ⟨call.due, asked, call.answer.reply⟩) := rfl
  refine ⟨⟨_, (worker, .waits asked call) :: hands', tells.add hshows, hall⟩,
    (rest others).clock, fun x hx => ?_⟩
  rcases List.mem_cons.mp hx with rfl | hx
  · exact due
  · exact (rest others).due x hx

/-- The turns of a moment. A worker whose answer is not due yet has none. -/
theorem resumeDue_leads {moment : Nat} (holdings : List Holding) (now : crew.world.clock = moment)
    (due : ∀ x ∈ holdings, moment ≤ x.2.2.due) :
    TurnsLead h s left crew completed batch (holdings.map Holding.hand) others
      ((benchAt h s crew.error.isSome).resumeDue moment crew.world
        (holdings.map Holding.shown)) := by
  induction holdings generalizing crew others with
  | nil => exact ⟨⟨[], [], ⟨[], rfl, .refl _⟩, .refl⟩, rfl, fun x hx => by cases hx⟩
  | cons holding holdings ih =>
    obtain ⟨worker, asked, call⟩ := holding
    have hdue : moment ≤ call.due := due _ List.mem_cons_self
    have hrest : ∀ x ∈ holdings, moment ≤ x.2.2.due :=
      fun x hx => due x (List.mem_cons_of_mem _ hx)
    rw [List.map_cons, List.map_cons, Holding.shown, Holding.hand, Bench.resumeDue]
    by_cases hnow : call.due = moment
    · have hfirst : TurnWorks h s crew.error.isSome worker.group crew.world (.waits asked call)
          ((benchAt h s crew.error.isSome).goOn crew.world worker.group
            ⟨call.due, asked, call.answer.reply⟩) :=
        goOn_works (Nat.le_of_eq (hnow.trans now.symm))
      rw [if_pos hnow]
      refine TurnsLead.cons hfirst fun others => ih ?_ hrest
      exact hfirst.clock.trans now
    · rw [if_neg hnow]
      exact .addWaiting (now ▸ hdue) fun others => ih now hrest

/-- The scheduler notices those that have ended, in any order. Noticing is a step of the scheduler
alone, so no event is seen of it. -/
theorem collectAll_leads (ended : List (Worker × Result)) (several : batch.length ≠ 1) :
    Leads h s (.within left crew completed batch (ended.map endedHand ++ others)) []
      (.within left (ended.foldl (Crew.collect h) crew) completed batch others) := by
  induction ended generalizing crew with
  | nil => exact .refl
  | cons p ended ih =>
    obtain ⟨worker, r⟩ := p
    have hnotice : Leads h s
        (.within left crew completed batch ((worker, .through r) :: (ended.map endedHand ++ others)))
        [] (.within left (crew.collect h (worker, r)) completed batch
          (ended.map endedHand ++ others)) :=
      .single (.notice fun one => absurd one several)
    exact hnotice.trans ih

theorem clock_collect (c : Crew σ) (p : Worker × Result) :
    (c.collect h p).world.clock = c.world.clock := by
  obtain ⟨worker, r⟩ := p
  cases r with
  | ok x => rfl
  | error message => rfl

theorem clock_collectAll (c : Crew σ) (w : World σ) (turns : Turns) :
    (c.collectAll h w turns).world.clock = w.clock := by
  have hfold : ∀ (ended : List (Worker × Result)) (c : Crew σ),
      (ended.foldl (Crew.collect h) c).world.clock = c.world.clock := by
    intro ended
    induction ended with
    | nil => exact fun _ => rfl
    | cons p ended ih =>
      intro c
      rw [List.foldl_cons, ih, clock_collect]
  exact hfold _ _

/-- After turns, and after those that have ended have been noticed, the crew holds the others. -/
theorem TurnsLead.collectAll {turns : Turns × World σ}
    (turned : TurnsLead h s left crew completed batch hands [] turns)
    (several : batch.length ≠ 1) :
    ∃ es, ∃ holdings : List Holding, turns.1.waiting = holdings.map Holding.shown ∧
      Leads h s (.within left crew completed batch hands) es
        (.within left (crew.collectAll h turns.2 turns.1) completed batch
          (holdings.map Holding.hand)) := by
  obtain ⟨es, hands', ⟨holdings, hwaiting, hperm⟩, leads⟩ := turned.leads
  rw [List.append_nil, List.append_nil] at leads
  have hsorted := leads.trans (.rearrange (hperm.trans List.perm_append_comm))
  have hcollected := hsorted.trans (collectAll_leads turns.1.ended several)
  exact ⟨_, holdings, hwaiting, hcollected⟩

theorem earliest?_le {waiting : List (Worker × Waiting)} {moment : Nat}
    (first : earliest? waiting = some moment) : ∀ x ∈ waiting, moment ≤ x.2.due := by
  intro x hx
  have hmem : x.2.due ∈ waiting.map fun p => p.2.due := List.mem_map_of_mem hx
  exact (List.min?_eq_some_iff.mp first).2 _ hmem

/-- All further moments of a batch. The clock never goes back, because no answer that is still due was
due before. The induction follows the crew, which always has fewer calls to make. -/
theorem finish_leads (several : batch.length ≠ 1) (crew : Crew σ)
    (waiting : List (Worker × Waiting)) (holdings : List Holding)
    (shown : waiting = holdings.map Holding.shown)
    (due : ∀ x ∈ waiting, crew.world.clock ≤ x.2.due) :
    ∃ es, Leads h s (.within left crew completed batch (holdings.map Holding.hand)) es
      (.within left (Crew.finish (Bench.ofSettings h s) crew waiting) completed batch []) := by
  fun_induction Crew.finish (Bench.ofSettings h s) crew waiting generalizing holdings with
  | case1 crew waiting next =>
    have hnone : holdings = [] := by
      have hmin : (waiting.map fun p => p.2.due) = [] := List.min?_eq_none_iff.mp next
      simpa [shown] using hmin
    subst hnone
    exact ⟨[], .refl⟩
  | case2 crew waiting moment next bench turns ih =>
    obtain ⟨x, hx, hxdue⟩ := exists_due_of_earliest? next
    -- time passes up to the first answer that is due, and no worker is past it
    have hlater : crew.world.clock ≤ moment := hxdue ▸ due x hx
    have hpass : Leads h s (.within left crew completed batch (holdings.map Holding.hand)) []
        (.within left { crew with world := crew.world.waitUntil moment } completed batch
          (holdings.map Holding.hand)) := .single (.pass hlater (.refl _))
    have hdue : ∀ x ∈ holdings, moment ≤ x.2.2.due := by
      intro x hx
      exact earliest?_le next x.shown (shown ▸ List.mem_map_of_mem hx)
    have hturned : TurnsLead h s left { crew with world := crew.world.waitUntil moment } completed
        batch (holdings.map Holding.hand) [] turns := by
      have hresumed : TurnsLead h s left { crew with world := crew.world.waitUntil moment }
          completed batch (holdings.map Holding.hand) [] ((benchAt h s crew.error.isSome).resumeDue
            moment (crew.world.waitUntil moment) (holdings.map Holding.shown)) :=
        resumeDue_leads holdings rfl hdue
      rw [← shown] at hresumed
      exact hresumed
    obtain ⟨es, holdings', hwaiting, hleads⟩ := hturned.collectAll several
    obtain ⟨es', hfinish⟩ := ih holdings' hwaiting fun x hx => by
      rw [clock_collectAll, hturned.clock]
      exact hturned.due x hx
    exact ⟨_, (hpass.trans hleads).trans hfinish⟩

theorem freshHands_eq (groups : List TaskGroup) (batch : List Nat) :
    freshHands groups batch =
      (batch.filterMap fun place => groups[place]?.map (Worker.mk place)).map
        fun worker => (worker, .fresh) := by
  rw [freshHands, List.map_filterMap]
  congr 1
  funext place
  cases groups[place]? <;> rfl

theorem crew_leads (several : batch.length ≠ 1) (w : World σ) (groups : List TaskGroup) :
    ∃ es, Leads h s
      (.within left { world := w.say h (batchLines batch), groups } completed batch
        (freshHands groups batch)) es
      (.within left (Crew.run (Bench.ofSettings h s) w groups batch) completed batch []) := by
  let workers := batch.filterMap fun place => groups[place]?.map (Worker.mk place)
  let crew : Crew σ := { world := w.say h (batchLines batch), groups }
  let turns := (benchAt h s false).beginAll crew.world workers
  have hbegun : TurnsLead h s left crew completed batch (freshHands groups batch) [] turns := by
    rw [freshHands_eq]
    exact beginAll_leads workers rfl
  obtain ⟨es, holdings, hwaiting, hleads⟩ := hbegun.collectAll several
  obtain ⟨es', hfinish⟩ := finish_leads several (crew.collectAll h turns.2 turns.1) turns.1.waiting
    holdings hwaiting fun x hx => by
      rw [clock_collectAll, hbegun.clock]
      exact hbegun.due x hx
  have hrun : Crew.run (Bench.ofSettings h s) w groups batch =
      Crew.finish (Bench.ofSettings h s) (crew.collectAll h turns.2 turns.1) turns.1.waiting := by
    have hsaid : crew.world = w.say h
        [.info ("Executing " ++ toString batch.length ++ " groups in parallel...")] := by
      simp [crew, batchLines, several]
    simp only [turns, hsaid]
    rfl
  rw [hrun]
  exact ⟨_, hleads.trans hfinish⟩

/-- A batch that has been carried out, before the next round. -/
def afterBatch (left : Nat) (completed : List String) (batch : List Nat) :
    Except LastWords (Schedule.Report σ) → Config σ
  | .ok report => .within left ⟨report.world, report.groups, report.error⟩ completed batch []
  | .error message => .lost message

theorem runBatch_singleton {place : Nat} {g : TaskGroup} {groups : List TaskGroup} (w : World σ)
    (found : groups[place]? = some g) :
    Schedule.runBatch (Bench.ofSettings h s) w groups [place] =
      (((benchAt h s false).forGroup g).alone (w.say h [g.entryLine])
        (Job.ofTasks s.programs g.tasks)).map fun (ending, w') =>
          { world := w'.say h [(g.conclude ending).2]
            groups := groups.set place (g.conclude ending).1
            error := Crew.failure? ending.outcome } := by
  simp only [Schedule.runBatch, found, Bench.groupAlone]
  rw [if_neg (by simp [Bench.ofSettings])]
  show Except.map _ (Except.map _ (((benchAt h s false).forGroup g).alone
    (w.say h [g.entryLine]) (Job.ofTasks s.programs g.tasks))) = _
  cases ((benchAt h s false).forGroup g).alone (w.say h [g.entryLine])
    (Job.ofTasks s.programs g.tasks) <;> rfl

/-- A batch of one is worked by the scheduler itself, and when its worker dies the run is lost with it.
-/
theorem single_leads {place : Nat} {g : TaskGroup} {groups : List TaskGroup} (w : World σ)
    (found : groups[place]? = some g) :
    ∃ es, Leads h s
      (.within left { world := w, groups } completed [place] [(⟨place, g⟩, .fresh)]) es
      (afterBatch left completed [place]
        (Schedule.runBatch (Bench.ofSettings h s) w groups [place])) := by
  obtain ⟨es, w', p', works, ends⟩ :=
    alone_works h s g (w.say h [g.entryLine]) (Job.ofTasks s.programs g.tasks)
  have hstart : Works h s false g w .fresh [] (w.say h [g.entryLine]) _ := .single (.start rfl)
  let crew : Crew σ := { world := w, groups }
  let worker : Worker := ⟨place, g⟩
  -- entering the group and the work in it are the worker's, one event after another
  have hall : Works h s crew.error.isSome worker.group crew.world .fresh ([] ++ es) w' p' :=
    hstart.trans works
  have hworked : Leads h s (.within left crew completed [place] [(worker, .fresh)]) ([] ++ es)
    (.within left { crew with world := w' } completed [place] [(worker, p')]) := hall.leads
  rw [runBatch_singleton w found]
  generalize ((benchAt h s false).forGroup g).alone (w.say h [g.entryLine])
    (Job.ofTasks s.programs g.tasks) = alone at ends
  cases alone with
  | ok x =>
    obtain ⟨ending, w''⟩ := x
    obtain ⟨rfl, rfl⟩ := ends
    exact ⟨_, hworked.step (.notice fun _ => ⟨_, rfl⟩)⟩
  | error message =>
    obtain rfl := ends
    exact ⟨_, hworked.step (.lose rfl)⟩

/-- Any batch, from the moment at which it is taken up. One worker works alone and several work as a
crew, and neither way is another kind of run. -/
theorem runBatch_leads (w : World σ) (groups : List TaskGroup) :
    ∃ es, Leads h s
      (.within left { world := w.say h (batchLines batch), groups } completed batch
        (freshHands groups batch)) es
      (afterBatch left completed batch
        (Schedule.runBatch (Bench.ofSettings h s) w groups batch)) := by
  -- one group by itself is carried out without a crew
  by_cases several : batch.length = 1
  · obtain ⟨place, rfl⟩ := List.length_eq_one_iff.mp several
    have hsaid : w.say h (batchLines [place]) = w := by
      simp [batchLines, World.say, World.noted, Journal.say]
    rw [hsaid]
    cases found : groups[place]? with
    | some g =>
      have hhands : freshHands groups [place] = [(⟨place, g⟩, .fresh)] := by
        simp [freshHands, found]
      rw [hhands]
      exact single_leads w found
    | none =>
      have hhands : freshHands groups [place] = [] := by simp [freshHands, found]
      rw [hhands]
      simp only [Schedule.runBatch, found]
      exact ⟨_, .refl⟩
  · have hbatch : Schedule.runBatch (Bench.ofSettings h s) w groups batch =
        .ok { world := (Crew.run (Bench.ofSettings h s) w groups batch).world
              groups := (Crew.run (Bench.ofSettings h s) w groups batch).groups
              error := (Crew.run (Bench.ofSettings h s) w groups batch).error } := by
      unfold Schedule.runBatch
      split
      · simp at several
      · rfl
    rw [hbatch]
    exact crew_leads several w groups

end Crew

/-! ## The rounds -/

/-- Rounds after a batch: a failure or a death ends them. -/
def afterRound (b : Bench σ) (batchSize left : Nat) (completed : List String)
    (batch : List Nat) :
    Except LastWords (Schedule.Report σ) → Except LastWords (Schedule.Report σ)
  | .error message => .error message
  | .ok report =>
    if report.error.isSome then .ok report
    else Schedule.rounds b batchSize left report.world report.groups
      (Schedule.addCompleted report.groups batch completed)

section Rounds

variable {b : Bench σ} {batchSize left : Nat} {w : World σ} {groups : List TaskGroup}
  {completed : List String}

theorem rounds_all (all : groups.length ≤ completed.length) :
    Schedule.rounds b batchSize left w groups completed = .ok { world := w, groups } := by
  cases left <;> rw [Schedule.rounds, if_pos all]

theorem rounds_idle (unfinished : completed.length < groups.length)
    (idle : Dependency.ready groups completed = []) :
    Schedule.rounds b batchSize (left + 1) w groups completed =
      .ok (.refuse b.host w groups (.unmetDependency
        ((groups.filter fun g => !completed.contains g.name).map (·.name)))) := by
  rw [Schedule.rounds, if_neg (Nat.not_le_of_lt unfinished), idle]

theorem rounds_busy (unfinished : completed.length < groups.length)
    (busy : Dependency.ready groups completed ≠ []) :
    Schedule.rounds b batchSize (left + 1) w groups completed =
      afterRound b batchSize left completed ((Dependency.ready groups completed).take batchSize)
        (Schedule.runBatch b w groups ((Dependency.ready groups completed).take batchSize)) := by
  rw [Schedule.rounds, if_neg (Nat.not_le_of_lt unfinished)]
  obtain ⟨place, places, hready⟩ := List.exists_cons_of_ne_nil busy
  rw [hready]
  simp only
  cases Schedule.runBatch b w groups ((place :: places).take batchSize) <;> rfl

end Rounds

theorem afterRound_leads {left : Nat} {completed : List String} {batch : List Nat}
    {result : Except LastWords (Schedule.Report σ)}
    (rest : ∀ (w : World σ) (groups : List TaskGroup) (completed : List String),
      ∃ es, Leads h s (.between left w groups completed) es
        (.ofResult (Schedule.rounds (Bench.ofSettings h s) s.effectiveBatchSize left w groups
          completed))) :
    ∃ es, Leads h s (afterBatch left completed batch result) es
      (.ofResult (afterRound (Bench.ofSettings h s) s.effectiveBatchSize left completed batch
        result)) := by
  cases result with
  | error message => exact ⟨_, .refl⟩
  | ok report =>
    obtain ⟨w, groups, error⟩ := report
    cases error with
    | some e => exact ⟨_, .single (.abort rfl)⟩
    | none =>
      obtain ⟨es, hrest⟩ := rest w groups (Schedule.addCompleted groups batch completed)
      have hnext : Leads h s (.within left ⟨w, groups, none⟩ completed batch []) [] _ :=
        .single (.next rfl)
      exact ⟨_, hnext.trans hrest⟩

theorem rounds_leads (left : Nat) (w : World σ) (groups : List TaskGroup)
    (completed : List String) :
    ∃ es, Leads h s (.between left w groups completed) es
      (.ofResult (Schedule.rounds (Bench.ofSettings h s) s.effectiveBatchSize left w groups
        completed)) := by
  induction left generalizing w groups completed with
  | zero =>
    by_cases all : groups.length ≤ completed.length
    · rw [rounds_all all]
      exact ⟨_, .single (.finish all)⟩
    · rw [Schedule.rounds, if_neg all]
      exact ⟨_, .single (.tire (Nat.lt_of_not_le all))⟩
  | succ left ih =>
    by_cases all : groups.length ≤ completed.length
    · rw [rounds_all all]
      exact ⟨_, .single (.finish all)⟩
    have unfinished := Nat.lt_of_not_le all
    by_cases idle : Dependency.ready groups completed = []
    · rw [rounds_idle unfinished idle]
      exact ⟨_, .single (.starve unfinished idle)⟩
    · rw [rounds_busy unfinished idle]
      -- one round: the batch is taken, worked through, and looked at by what follows
      have htake : Leads h s (.between (left + 1) w groups completed) _ _ :=
        .single (.take unfinished idle rfl)
      obtain ⟨es, hbatch⟩ := runBatch_leads w groups
      obtain ⟨es', hrest⟩ := afterRound_leads ih
      exact ⟨_, (htake.trans hbatch).trans hrest⟩

/-- What is carried out is one of the possible runs. So everything that is proved of all runs holds of
the order in which the scheduler happens to take turns, and nothing has to be proved of that order
itself. -/
theorem run_leads (h : Host σ) (s : RunSettings) (w : World σ) (groups : List TaskGroup) :
    ∃ es, Leads h s (.fresh w groups) es
      (.ofResult (Schedule.run (Bench.ofSettings h s) s.effectiveBatchSize w groups)) := by
  unfold Schedule.run
  split
  · rename_i path cycle
    exact ⟨_, .single (.refuse cycle)⟩
  · rename_i acyclic
    have haccept : Leads h s (.fresh w groups) [] _ := .single (.accept acyclic)
    obtain ⟨es, hrounds⟩ := rounds_leads (groups.length * 2) w groups
      (Schedule.completedNames groups)
    exact ⟨_, haccept.trans hrounds⟩

end Runbook.Interleaving
