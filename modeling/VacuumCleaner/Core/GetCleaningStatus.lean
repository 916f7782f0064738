import VacuumCleaner.Core.CoreLoop

/-! `GetCleaningStatusRequest.perform` beside the core loop. It tests the state
of the manager twice, and the loop may pause or resume in between. -/
namespace VacuumCleaner.Core.GetCleaningStatus

open Lib AlgorithmLoop AlgorithmManager

inductive Status
  | running | paused | idle
  deriving DecidableEq, Repr

/-- What the client is answered. -/
structure CleaningStatus where
  status : Status
  reason : Option PauseReason
  cleaningInfo : Option ExecutionInfo
  deriving DecidableEq, Repr

/-- Where the request stands. `algorithm_execution_info` is written by the
thread that serves the request only, and is read with the last read of the state. -/
inductive Place
  | ready
  | testingRunning
  | testingPaused
  | readingReason
  | answered (answer : CleaningStatus)
  deriving DecidableEq, Repr

def Place.isInside : Place → Bool
  | .testingRunning | .testingPaused | .readingReason => true
  | .ready | .answered _ => false

/-- `had` are the states of the manager during the call, the last one first;
the code keeps no such record. -/
structure World where
  core : CoreLoop.World := {}
  request : Place := .ready
  had : List State := []
  deriving DecidableEq, Repr

def World.manager (world : World) : Manager := world.core.manager.manager

/-- `others` is a step of any thread outside of the request. -/
inductive Event
  | others (event : CoreLoop.Event)
  | call
  | perform
  deriving DecidableEq, Repr

/-- What the thread that serves the requests does for the other ones. -/
def isServiceEvent : CoreLoop.Event → Bool
  | .manager (.service _) | .manager .start | .manager .stop | .manager (.serviceGoesOn _) => true
  | _ => false

def World.stepOthers (world : World) (event : CoreLoop.Event) : Option World :=
  if world.request.isInside = true ∧ isServiceEvent event = true then none
  else (world.core.step event).map fun core =>
    { world with
      core
      had := if world.request.isInside then core.manager.manager.state :: world.had
        else world.had }

def World.call (world : World) : Option World :=
  if world.core.manager.service = .side .ready ∧ world.request.isInside = false then
    some { world with request := .testingRunning, had := [world.manager.state] }
  else none

def World.perform (world : World) : Option World :=
  let executionInfo := world.manager.executionInfo
  match world.request with
  | .testingRunning =>
    some { world with
      request := if world.manager.state = .running then .answered ⟨.running, none, executionInfo⟩
        else .testingPaused }
  | .testingPaused =>
    some { world with
      request := if world.manager.state = .paused then .readingReason
        else .answered ⟨.idle, none, executionInfo⟩ }
  | .readingReason =>
    some { world with request := .answered ⟨.paused, world.manager.pauseReason, executionInfo⟩ }
  | .ready | .answered _ => none

def World.step (world : World) : Event → Option World
  | .others event => world.stepOthers event
  | .call => world.call
  | .perform => world.perform

def machine : Machine World Event := ⟨World.step⟩

/-- The states that a status stands for. -/
def Status.isOf : Status → State → Bool
  | .running, .running | .paused, .paused | .idle, .idle | .idle, .stopped => true
  | _, _ => false

/-- The status of the answer is that of a state the manager had during the call. -/
def Right (world : World) : Prop :=
  ∀ answer, world.request = .answered answer →
    ∃ state ∈ world.had, answer.status.isOf state = true

/-- The second test does not find a cleaning that goes on again after a pause;
behind a cleaning that is over it may. -/
def testsInTime (world : World) : Event → Prop
  | .perform => world.request = .testingPaused → world.manager.state = .running →
    .idle ∈ world.had ∨ .stopped ∈ world.had
  | _ => True

instance (world : World) : (event : Event) → Decidable (testsInTime world event)
  | .perform => inferInstanceAs (Decidable (_ → _))
  | .others _ | .call => .isTrue trivial

/-- The loop does not get to write RUNNING between the two tests. -/
def resumesOutside (world : World) : Event → Prop
  | .others (.core _) => world.request = .testingPaused → world.core.manager.core ≠ .resuming
  | _ => True

/-- The states are recorded as the manager has them. -/
structure Inv (world : World) : Prop where
  records : world.request.isInside = true → world.manager.state ∈ world.had
  paused : world.request = .readingReason → .paused ∈ world.had

/-- How the request and its record go on. -/
inductive Takes (world : World) : Event → World → Prop
  | others {event : CoreLoop.Event} {core : CoreLoop.World} :
    world.request.isInside = false → world.core.step event = some core →
    Takes world (.others event) { world with core }
  | meanwhile {event : CoreLoop.Event} {core : CoreLoop.World} :
    world.request.isInside = true → isServiceEvent event = false →
    world.core.step event = some core →
    Takes world (.others event)
      { world with core, had := core.manager.manager.state :: world.had }
  | call : Takes world .call
      { world with request := .testingRunning, had := [world.manager.state] }
  | findsRunning : world.request = .testingRunning → world.manager.state = .running →
    Takes world .perform
      { world with request := .answered ⟨.running, none, world.manager.executionInfo⟩ }
  | testsAgain : world.request = .testingRunning → world.manager.state ≠ .running →
    Takes world .perform { world with request := .testingPaused }
  | findsPaused : world.request = .testingPaused → world.manager.state = .paused →
    Takes world .perform { world with request := .readingReason }
  | findsNeither : world.request = .testingPaused → world.manager.state ≠ .paused →
    Takes world .perform
      { world with request := .answered ⟨.idle, none, world.manager.executionInfo⟩ }
  | reads : world.request = .readingReason →
    Takes world .perform { world with
      request := .answered ⟨.paused, world.manager.pauseReason, world.manager.executionInfo⟩ }

theorem takes_of_step {world next : World} {event : Event} (h : world.step event = some next) :
    Takes world event next := by
  cases event with
  | others event =>
    obtain ⟨hservice, h⟩ := Option.ite_none_left_eq_some.mp h
    obtain ⟨core, hstep, rfl⟩ := Option.map_eq_some_iff.mp h
    cases hinside : world.request.isInside with
    | false => exact .others hinside hstep
    | true =>
      refine .meanwhile hinside ?_ hstep
      exact Bool.eq_false_iff.mpr fun hevent => hservice ⟨hinside, hevent⟩
  | call =>
    obtain ⟨-, h⟩ := Option.ite_none_right_eq_some.mp h
    cases h
    exact .call
  | perform =>
    change world.perform = some next at h
    cases hrequest : world.request <;> simp only [World.perform, hrequest] at h
    case testingRunning =>
      cases h
      split
      · rename_i hrunning
        exact .findsRunning hrequest hrunning
      · rename_i hrunning
        exact .testsAgain hrequest hrunning
    case testingPaused =>
      cases h
      split
      · rename_i hpaused
        exact .findsPaused hrequest hpaused
      · rename_i hpaused
        exact .findsNeither hrequest hpaused
    case readingReason =>
      cases h
      exact .reads hrequest
    case ready | answered => cases h

theorem Inv.step {world next : World} {event : Event} (inv : Inv world)
    (h : world.step event = some next) : Inv next := by
  cases takes_of_step h with
  | others houtside =>
    constructor
    · intro hinside
      rw [houtside] at hinside
      cases hinside
    · exact inv.paused
  | meanwhile => exact ⟨fun _ => .head _, fun hreading => .tail _ (inv.paused hreading)⟩
  | call => exact ⟨fun _ => .head _, fun hreading => by cases hreading⟩
  | findsRunning | findsNeither | reads => exact ⟨by simp [Place.isInside], by simp⟩
  | testsAgain hrequest =>
    exact ⟨fun _ => inv.records (by rw [hrequest]; rfl), by simp⟩
  | findsPaused hrequest hpaused =>
    have hrecorded := inv.records (by rw [hrequest]; rfl)
    exact ⟨fun _ => hrecorded, fun _ => hpaused ▸ hrecorded⟩

theorem right_of_isInside {world : World} (hinside : world.request.isInside = true) :
    Right world := by
  intro answer hanswer
  rw [hanswer] at hinside
  cases hinside

theorem right_answered_iff {world : World} {answer : CleaningStatus}
    (hanswer : world.request = .answered answer) :
    Right world ↔ ∃ state ∈ world.had, answer.status.isOf state = true := by
  constructor
  · intro hright
    exact hright answer hanswer
  · intro hhad other hother
    rw [hanswer] at hother
    cases hother
    exact hhad

theorem isOf_idle_iff {had : List State} :
    (∃ state ∈ had, Status.idle.isOf state = true) ↔ .idle ∈ had ∨ .stopped ∈ had := by
  constructor
  · rintro ⟨state, hmem, hof⟩
    cases state
    case idle => exact .inl hmem
    case stopped => exact .inr hmem
    all_goals cases hof
  · rintro (hmem | hmem)
    · exact ⟨_, hmem, rfl⟩
    · exact ⟨_, hmem, rfl⟩

theorem right_step_iff {world next : World} {event : Event} (inv : Inv world)
    (hright : Right world) (h : world.step event = some next) :
    Right next ↔ testsInTime world event := by
  cases takes_of_step h with
  | others => exact iff_of_true hright trivial
  | meanwhile hinside => exact iff_of_true (right_of_isInside hinside) trivial
  | call => exact iff_of_true (right_of_isInside rfl) trivial
  | findsRunning hrequest hrunning =>
    apply iff_of_true
    · rw [right_answered_iff rfl]
      exact ⟨_, inv.records (by rw [hrequest]; rfl), by rw [hrunning]; rfl⟩
    · intro htesting
      rw [hrequest] at htesting
      cases htesting
  | testsAgain hrequest =>
    apply iff_of_true (right_of_isInside rfl)
    intro htesting
    rw [hrequest] at htesting
    cases htesting
  | findsPaused _ hpaused =>
    apply iff_of_true (right_of_isInside rfl)
    intro _ hrunning
    rw [hpaused] at hrunning
    cases hrunning
  | findsNeither hrequest hpaused =>
    have hrecorded := inv.records (by rw [hrequest]; rfl)
    rw [right_answered_iff rfl, isOf_idle_iff]
    constructor
    · intro hhad _ _
      exact hhad
    · intro hguard
      cases hstate : world.manager.state with
      | running => exact hguard hrequest hstate
      | paused => exact absurd hstate hpaused
      | idle => exact .inl (hstate ▸ hrecorded)
      | stopped => exact .inr (hstate ▸ hrecorded)
  | reads hrequest =>
    apply iff_of_true
    · rw [right_answered_iff rfl]
      exact ⟨_, inv.paused hrequest, rfl⟩
    · intro htesting
      rw [hrequest] at htesting
      cases htesting

theorem resuming_of_running {core next : CoreLoop.World} {event : CoreLoop.Event}
    (hevent : isServiceEvent event = false) (h : core.step event = some next)
    (hstate : core.manager.manager.state ≠ .running)
    (hrunning : next.manager.manager.state = .running) :
    (∃ outside, event = .core outside) ∧ core.manager.core = .resuming := by
  cases event with
  | manager event =>
    obtain ⟨hcore, h⟩ := Option.ite_none_left_eq_some.mp h
    obtain ⟨manager, hstep, rfl⟩ := Option.map_eq_some_iff.mp h
    cases AlgorithmManager.takes_of_step hstep with
    | core | coreGoesOn => exact absurd rfl hcore
    | service | startRefused | start | stopRefused | stop | serviceGoesOn => cases hevent
    | workerTests hthread | callback hthread =>
      have hkept := CoreLoop.state_stepThread hthread
      exact absurd (hkept.symm.trans hrunning) hstate
  | sensors lidIsClosed dustBoxPresent =>
    cases h
    exact absurd hrunning hstate
  | core outside =>
    refine ⟨⟨outside, rfl⟩, ?_⟩
    change core.stepCore outside = some next at h
    cases hloop : core.loop <;> simp only [CoreLoop.World.stepCore, hloop] at h
    case calling call =>
      split at h <;> cases h <;> exact absurd hrunning hstate
    case inside call =>
      obtain ⟨manager, hstep, rfl⟩ := Option.map_eq_some_iff.mp h
      cases AlgorithmManager.takes_of_step hstep with
      | coreGoesOn hside =>
        have hwritten := CoreLoop.state_goOnSide hside
        cases hplace : core.manager.core with
        | resuming => rfl
        | ready | selecting | pausing =>
          rw [hplace] at hwritten
          exact absurd (hwritten.symm.trans hrunning) hstate
        | settingPaused =>
          rw [hplace] at hwritten
          cases hwritten.symm.trans hrunning
    case finished | failed => cases h
    all_goals
      cases h
      exact absurd hrunning hstate

/-- Between its two tests the request has not seen the manager RUNNING. -/
def NotRunning (world : World) : Prop :=
  world.request = .testingPaused → world.manager.state ≠ .running

theorem NotRunning.step {world next : World} {event : Event} (hstate : NotRunning world)
    (hguard : resumesOutside world event) (h : world.step event = some next) :
    NotRunning next := by
  intro htesting hrunning
  cases takes_of_step h with
  | others houtside =>
    rw [htesting] at houtside
    cases houtside
  | meanwhile _ hevent hstep =>
    obtain ⟨⟨outside, rfl⟩, hresuming⟩ :=
      resuming_of_running hevent hstep (hstate htesting) hrunning
    exact hguard htesting hresuming
  | testsAgain _ hother => exact hother hrunning
  | call | findsRunning | findsPaused | findsNeither | reads => cases htesting

theorem right_of_ready : Right {} := by
  intro answer hanswer
  cases hanswer

theorem inv_of_ready : Inv {} := by
  constructor
  · intro hinside
    cases hinside
  · intro hreading
    cases hreading

theorem status_had_iff (events : List Event) (world : World)
    (hexec : machine.exec {} events = some world) :
    machine.Throughout Right {} events ↔ machine.Guarded testsInTime {} events :=
  Machine.throughout_iff Right Inv (fun _ _ _ inv _ h => inv.step h)
    (fun _ _ _ inv hright h => right_step_iff inv hright h) inv_of_ready right_of_ready hexec

/-- What the answer needs of the loop: no resume between the two tests. -/
theorem right_of_resumesOutside {events : List Event} {world : World}
    (hexec : machine.exec {} events = some world)
    (hguarded : machine.Guarded resumesOutside {} events) : Right world := by
  have hreach := Machine.reach_of_exec_guarded hguarded hexec
  have hall : Inv world ∧ NotRunning world ∧ Right world := by
    refine hreach.invariant (fun world => Inv world ∧ NotRunning world ∧ Right world) ?_ ?_
    · exact ⟨inv_of_ready, fun htesting => (by cases htesting), right_of_ready⟩
    rintro state event next ⟨inv, hstate, hright⟩ hguard hstep
    refine ⟨inv.step hstep, hstate.step hguard hstep, ?_⟩
    rw [right_step_iff inv hright hstep]
    cases event with
    | perform => exact fun htesting hrunning => absurd hrunning (hstate htesting)
    | others | call => trivial
  exact hall.2.2

/-- The lid was opened during a cleaning and is closed again; the loop is about
to resume. -/
def aboutToResume : List CoreLoop.Event :=
  CoreLoop.cleaningStarted ++ List.replicate 11 (.core false) ++ [.sensors true true] ++
    List.replicate 3 (.core false)

/-- The client asks while the cleaning is paused. -/
def askedWhilePaused : List Event :=
  aboutToResume.map .others ++ [.call, .perform, .perform, .others (.core false), .perform]

theorem status_had_when_askedWhilePaused :
    ∃ world, machine.exec {} askedWhilePaused = some world ∧
      world.request = .answered ⟨.paused, some .lidIsOpened, some ⟨.smart⟩⟩ ∧
      machine.Throughout Right {} askedWhilePaused := by
  have hguarded : machine.Guarded testsInTime {} askedWhilePaused := by
    decide +kernel
  obtain ⟨world, hexec, hanswer⟩ : ∃ world, machine.exec {} askedWhilePaused = some world ∧
      world.request = .answered ⟨.paused, some .lidIsOpened, some ⟨.smart⟩⟩ := ⟨_, rfl, rfl⟩
  exact ⟨world, hexec, hanswer, (status_had_iff askedWhilePaused world hexec).mpr hguarded⟩

/-- The loop resumes between the two tests. -/
def resumedBetweenTests : List Event :=
  aboutToResume.map .others ++ [.call, .perform, .others (.core false), .perform]

theorem idle_when_resumedBetweenTests :
    ¬ ∀ events world, machine.exec {} events = some world → Right world := by
  intro hevery
  obtain ⟨world, hexec, hanswer, hhad⟩ : ∃ world,
      machine.exec {} resumedBetweenTests = some world ∧
      world.request = .answered ⟨.idle, none, some ⟨.smart⟩⟩ ∧
      world.had = [.running, .paused] := ⟨_, rfl, rfl, rfl⟩
  obtain ⟨state, hmem, hof⟩ := hevery _ world hexec _ hanswer
  rw [hhad] at hmem
  revert state
  decide

end VacuumCleaner.Core.GetCleaningStatus
