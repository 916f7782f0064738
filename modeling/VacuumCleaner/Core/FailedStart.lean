import VacuumCleaner.Core.Cleaning

/-! What a `start` that raises leaves behind. It publishes RUNNING and stores a
thread before it calls the voice. -/
namespace VacuumCleaner.Core.FailedStart

open Lib AlgorithmLoop AlgorithmManager

/-- The step in which `start` raises. -/
def startRaises (world : World) : Event → Bool
  | .start => world.manager.state.isWorking
  | .serviceGoesOn raises =>
    match world.service with
    | .testingThread => world.manager.workingThread.isSome
    | .testingAlgorithm | .creatingInfo => world.manager.algorithm.isNone
    | .sayingStart => raises
    | .startingThread => world.manager.workingThread.isNone || raises
    | _ => false
  | _ => false

def isStarting : Place → Bool
  | .testingThread | .testingAlgorithm | .settingRunning | .creatingInfo | .creatingThread
  | .sayingStart | .startingThread => true
  | _ => false

/-- The steps of a run while `start` is at work and has not raised. -/
def duringStart (guard : World → Event → Prop) (world : World) (event : Event) : Prop :=
  guard world event ∧ isStarting world.service = true ∧ startRaises world event = false

instance (guard : World → Event → Prop) (world : World) (event : Event)
    [Decidable (guard world event)] : Decidable (duringStart guard world event) :=
  inferInstanceAs (Decidable (_ ∧ _ ∧ _))

/-- A call of `start` that raises, from the state before it to the state after. -/
inductive StartFails (guard : World → Event → Prop) (before : World) : World → Prop
  | refused {after : World} : before.service = .side .ready → startRaises before .start = true →
    machine.step before .start = some after → StartFails guard before after
  | later {called last after : World} {raises : Bool} :
    machine.step before .start = some called →
    machine.Reach (duringStart guard) called last → guard last (.serviceGoesOn raises) →
    startRaises last (.serviceGoesOn raises) = true →
    machine.step last (.serviceGoesOn raises) = some after → StartFails guard before after

/-- Execution state, `_working_thread` and `_algorithm_execution_info`. -/
def observed (manager : Manager) : State × Option Nat × Option ExecutionInfo :=
  (manager.state, manager.workingThread, manager.executionInfo)

def noCall (world : World) : Prop := world.service = .side .ready ∧ world.core = .ready

/-- The manager's thread has been started. -/
def hasStarted (manager : Manager) : Prop :=
  ∃ index thread, manager.workingThread = some index ∧ manager.threads[index]? = some thread ∧
    thread.worker ≠ .unstarted

/-- A step of a call, or of the worker it waits for, in which nothing raises. -/
def isSmooth : Event → Bool
  | .serviceGoesOn raises => !raises
  | .workerTests _ | .callback _ .returned => true
  | _ => false

def StartPossible (world : World) : Prop :=
  ∃ events next, (∀ event ∈ events, isSmooth event = true) ∧
    machine.exec world (.start :: events) = some next ∧ noCall next ∧
    next.manager.state = .running ∧ hasStarted next.manager

def StopPossible (world : World) : Prop :=
  ∃ events next, (∀ event ∈ events, isSmooth event = true) ∧
    machine.exec world (.stop :: events) = some next ∧ noCall next ∧
    next.manager.state = .idle

structure Recovers (guard : World → Event → Prop) (world : World) : Prop where
  unchanged : ∀ after, StartFails guard world after →
    observed after.manager = observed world.manager
  idle : noCall world →
    (world.manager.state = .idle ↔ world.manager.workingThread = none) ∧
      (world.manager.workingThread = none ↔ world.manager.executionInfo = none)
  start : noCall world → world.manager.state = .idle → world.manager.algorithm ≠ none →
    StartPossible world
  stop : noCall world → world.manager.state ≠ .idle → StopPossible world

/-- Behind its tests `start` does not raise, and nobody who has tested the state
before writes it after `stop` has made it idle. -/
def completes (world : World) : Event → Prop
  | .serviceGoesOn raises =>
    world.service = .sayingStart ∨ world.service = .startingThread → raises = false
  | .coreGoesOn _ =>
    world.core = .settingPaused ∨ world.core = .resuming → world.manager.state ≠ .idle
  | _ => True

instance (world : World) : (event : Event) → Decidable (completes world event)
  | .serviceGoesOn _ | .coreGoesOn _ => inferInstanceAs (Decidable (_ → _))
  | .core _ | .service _ | .start | .stop | .workerTests _ | .callback .. => .isTrue trivial

/-- Nothing has been started. -/
structure AtRest (manager : Manager) : Prop where
  state : manager.state = .idle
  thread : manager.workingThread = none
  info : manager.executionInfo = none

def isUnderway (manager : Manager) : Prop := manager.state = .running ∨ manager.state = .paused

theorem ne_idle_of_isUnderway {manager : Manager} (h : isUnderway manager) :
    manager.state ≠ .idle := by
  rcases h with hrunning | hpaused
  · simp [hrunning]
  · simp [hpaused]

/-- A cleaning that nobody stops. -/
structure AtWork (manager : Manager) : Prop where
  state : isUnderway manager
  thread : hasStarted manager
  info : manager.executionInfo ≠ none

/-- What the service thread may rely on at each place. -/
def Shape (manager : Manager) : Place → Prop
  | .side _ => AtRest manager ∨ AtWork manager
  | .testingThread | .testingAlgorithm | .sayingFinished => AtRest manager
  | .settingRunning => AtRest manager ∧ manager.algorithm ≠ none
  | .creatingInfo => isUnderway manager ∧ manager.workingThread = none ∧
      manager.executionInfo = none ∧ manager.algorithm ≠ none
  | .creatingThread => isUnderway manager ∧ manager.workingThread = none ∧
      manager.executionInfo ≠ none
  | .sayingStart | .startingThread => isUnderway manager ∧ manager.executionInfo ≠ none ∧
      ∃ index, manager.workingThread = some index ∧ index < manager.threads.length
  | .testingStopped | .settingStopped => AtWork manager
  | .joining | .droppingThread => manager.state ≠ .idle ∧ hasStarted manager ∧
      manager.executionInfo ≠ none
  | .droppingInfo => manager.state ≠ .idle ∧ manager.workingThread = none ∧
      manager.executionInfo ≠ none
  | .settingIdle => manager.state ≠ .idle ∧ manager.workingThread = none ∧
      manager.executionInfo = none

/-- A side operation of the service thread has tested a state that is not idle. -/
def SideShape (manager : Manager) : Place → Prop
  | .side (.pausing _) | .side .settingPaused | .side .resuming => manager.state ≠ .idle
  | _ => True

structure Inv (world : World) : Prop where
  shape : Shape world.manager world.service
  side : SideShape world.manager world.service

/-- What a step of another thread leaves as it is. -/
structure Kept (before after : Manager) : Prop where
  state : after.state = before.state ∨ before.state ≠ .idle ∧ isUnderway after
  thread : after.workingThread = before.workingThread
  info : after.executionInfo = before.executionInfo
  algorithm : before.algorithm ≠ none → after.algorithm ≠ none
  started : hasStarted before → hasStarted after
  length : after.threads.length = before.threads.length

section Kept

variable {before after : Manager} (hkept : Kept before after)
include hkept

theorem Kept.idle (hidle : before.state = .idle) : after.state = .idle := by
  rcases hkept.state with hsame | ⟨hbusy, -⟩
  · rw [hsame, hidle]
  · exact absurd hidle hbusy

theorem Kept.busy (hbusy : before.state ≠ .idle) : after.state ≠ .idle := by
  rcases hkept.state with hsame | ⟨-, hrunning | hpaused⟩
  · rw [hsame]
    exact hbusy
  · rw [hrunning]
    nofun
  · rw [hpaused]
    nofun

theorem Kept.underway (h : isUnderway before) : isUnderway after := by
  rcases hkept.state with hsame | ⟨-, hunderway⟩
  · rw [isUnderway, hsame]
    exact h
  · exact hunderway

theorem Kept.atRest (h : AtRest before) : AtRest after :=
  ⟨hkept.idle h.state, hkept.thread.trans h.thread, hkept.info.trans h.info⟩

theorem Kept.atWork (h : AtWork before) : AtWork after :=
  ⟨hkept.underway h.state, hkept.started h.thread, by rw [hkept.info]; exact h.info⟩

theorem Kept.shape {place : Place} (h : Shape before place) : Shape after place := by
  have hthread := hkept.thread
  have hinfo := hkept.info
  cases place <;> simp only [Shape, hthread, hinfo, hkept.length] at h ⊢
  case side => exact h.imp hkept.atRest hkept.atWork
  case testingThread | testingAlgorithm | sayingFinished => exact hkept.atRest h
  case settingRunning => exact ⟨hkept.atRest h.1, hkept.algorithm h.2⟩
  case creatingInfo => exact ⟨hkept.underway h.1, h.2.1, h.2.2.1, hkept.algorithm h.2.2.2⟩
  case creatingThread | sayingStart | startingThread => exact ⟨hkept.underway h.1, h.2⟩
  case testingStopped | settingStopped => exact hkept.atWork h
  case joining | droppingThread => exact ⟨hkept.busy h.1, hkept.started h.2.1, h.2.2⟩
  case droppingInfo | settingIdle => exact ⟨hkept.busy h.1, h.2⟩

theorem Kept.sideShape {place : Place} (h : SideShape before place) : SideShape after place := by
  cases place with
  | side place =>
    cases place with
    | pausing | settingPaused | resuming => exact hkept.busy h
    | _ => trivial
  | _ => trivial

end Kept

theorem kept_goOnSide {manager next : Manager} {raises : Bool} {place place' : SidePlace}
    (hbusy : place = .settingPaused ∨ place = .resuming → manager.state ≠ .idle)
    (h : manager.goOnSide raises place = some (next, place')) : Kept manager next := by
  cases place with
  | ready => cases h
  | selecting name =>
    cases h
    cases raises
    · exact ⟨.inl rfl, rfl, rfl, fun _ => nofun, id, rfl⟩
    · exact ⟨.inl rfl, rfl, rfl, id, id, rfl⟩
  | pausing reason =>
    cases h
    exact ⟨.inl rfl, rfl, rfl, id, id, rfl⟩
  | settingPaused =>
    cases h
    exact ⟨.inr ⟨hbusy (.inl rfl), .inr rfl⟩, rfl, rfl, id, id, rfl⟩
  | resuming =>
    cases h
    exact ⟨.inr ⟨hbusy (.inr rfl), .inl rfl⟩, rfl, rfl, id, id, rfl⟩

theorem worker_ne_unstarted_of_test {state : State} {thread next : Thread}
    (h : thread.test state = some next) : next.worker ≠ .unstarted := by
  obtain ⟨worker, calls⟩ := thread
  obtain ⟨after, htest, rfl⟩ := Option.map_eq_some_iff.mp h
  cases worker with
  | checkingPaused | blockedRunning | blockedStopped | checkingStopped =>
    cases htest
    dsimp only
    split <;> nofun
  | _ => cases htest

theorem worker_ne_unstarted_of_leave {outcome : Outcome} {thread next : Thread}
    (h : thread.leave outcome = some next) : next.worker ≠ .unstarted := by
  obtain ⟨worker, calls⟩ := thread
  cases worker with
  | inside callback =>
    cases h
    cases outcome <;> cases callback <;> nofun
  | _ => cases h

theorem kept_stepThread {manager next : Manager} {index : Nat} {step : Thread → Option Thread}
    (hstarted : ∀ before after : Thread, step before = some after → after.worker ≠ .unstarted)
    (h : manager.stepThread index step = some next) : Kept manager next := by
  obtain ⟨before, after, hfound, hstep, rfl⟩ := stepThread_cases h
  refine ⟨.inl rfl, rfl, rfl, id, ?_, by simp⟩
  rintro ⟨working, thread, hworking, hthread, hrunning⟩
  by_cases hindex : index = working
  · subst hindex
    have hlt := (List.getElem?_eq_some_iff.mp hfound).1
    exact ⟨index, after, hworking, by simp [hlt], hstarted before after hstep⟩
  · refine ⟨working, thread, hworking, ?_, hrunning⟩
    rw [← hthread]
    exact List.getElem?_set_ne hindex

theorem hasStarted_startThread {manager : Manager} {index : Nat}
    (hworking : manager.workingThread = some index) (hindex : index < manager.threads.length) :
    hasStarted (manager.startThread index) := by
  obtain ⟨thread, hthread⟩ : ∃ thread, manager.threads[index]? = some thread :=
    ⟨_, List.getElem?_eq_getElem hindex⟩
  refine ⟨index, if thread.worker = .unstarted then { thread with worker := .inside .onPrepare }
    else thread, hworking, ?_, ?_⟩
  · simp [Manager.startThread, hthread]
  · split
    · simp
    · assumption

theorem Inv.kept {world : World} {manager : Manager} (hinv : Inv world)
    (hkept : Kept world.manager manager) : Inv { world with manager } :=
  ⟨hkept.shape hinv.shape, hkept.sideShape hinv.side⟩

theorem sideShape_call (manager : Manager) (call : SideCall) :
    SideShape manager (.side (manager.call call)) := by
  cases call with
  | setAlgorithm name =>
    simp only [Manager.call]
    split <;> trivial
  | pause reason =>
    simp only [Manager.call]
    split
    · rename_i hrunning
      simp [SideShape, hrunning]
    · trivial
  | resume =>
    simp only [Manager.call]
    split
    · rename_i hpaused
      simp [SideShape, hpaused]
    · trivial

theorem sideShape_goOnSide {manager next : Manager} {raises : Bool} {place place' : SidePlace}
    (hside : SideShape manager (.side place))
    (h : manager.goOnSide raises place = some (next, place')) : SideShape next (.side place') := by
  cases place with
  | pausing =>
    cases h
    exact hside
  | _ => cases h <;> trivial

theorem Inv.goOn {world : World} {next : Manager} {raises : Bool} {place : Place}
    (hinv : Inv world) (hcompletes : completes world (.serviceGoesOn raises))
    (h : GoesOn world.manager raises world.service next place) :
    Shape next place ∧ SideShape next place := by
  obtain ⟨hshape, hside⟩ := hinv
  have hreturns : world.service = .sayingStart ∨ world.service = .startingThread →
      raises = false := hcompletes
  generalize world.service = before at h hshape hside hreturns
  cases h with
  | @side _ place after hgoOn =>
    have hbusy : place = .settingPaused ∨ place = .resuming → world.manager.state ≠ .idle := by
      rintro (rfl | rfl) <;> exact hside
    have hafter : Shape next (.side after) := (kept_goOnSide hbusy hgoOn).shape hshape
    exact ⟨hafter, sideShape_goOnSide hside hgoOn⟩
  | threadLeft | notSelected => exact ⟨.inl hshape, trivial⟩
  | noThread => exact ⟨hshape, trivial⟩
  | selected hselected => exact ⟨⟨hshape, hselected⟩, trivial⟩
  | publish => exact ⟨⟨.inl rfl, hshape.1.thread, hshape.1.info, hshape.2⟩, trivial⟩
  | noInfo hnone => exact absurd hnone hshape.2.2.2
  | info => exact ⟨⟨hshape.1, hshape.2.1, Option.some_ne_none _⟩, trivial⟩
  | create => exact ⟨⟨hshape.1, hshape.2.2, _, rfl, by simp⟩, trivial⟩
  | said => exact ⟨hshape, trivial⟩
  | notSaid hraises =>
    rw [hreturns (.inl rfl)] at hraises
    cases hraises
  | nothingToStart hnone =>
    obtain ⟨-, -, index, hworking, -⟩ := hshape
    rw [hnone] at hworking
    cases hworking
  | started hworking =>
    obtain ⟨hunderway, hinfo, index, hindex, hlt⟩ := hshape
    cases hworking.symm.trans hindex
    exact ⟨.inr ⟨hunderway, hasStarted_startThread hworking hlt, hinfo⟩, trivial⟩
  | notStarted hraises =>
    rw [hreturns (.inr rfl)] at hraises
    cases hraises
  | alreadyStopped => exact ⟨.inr hshape, trivial⟩
  | notStopped => exact ⟨hshape, trivial⟩
  | stopped => exact ⟨⟨by simp, hshape.thread, hshape.info⟩, trivial⟩
  | join hjoin =>
    cases hjoin with
    | refused hunstarted =>
      obtain ⟨-, ⟨index, thread, hworking, hthread, hstarted⟩, -⟩ := hshape
      exact absurd (hunstarted index thread hworking hthread) hstarted
    | threadOver => exact ⟨hshape, trivial⟩
  | dropThread => exact ⟨⟨hshape.1, rfl, hshape.2.2⟩, trivial⟩
  | noInfoToDrop hnone => exact absurd hnone hshape.2.2
  | dropInfo => exact ⟨⟨hshape.1, hshape.2.1, rfl⟩, trivial⟩
  | becomeIdle => exact ⟨⟨rfl, hshape.2.1, hshape.2.2⟩, trivial⟩
  | sayFinished => exact ⟨.inl hshape, trivial⟩

theorem Inv.ready {world : World} (hinv : Inv world) (hready : world.service = .side .ready) :
    AtRest world.manager ∨ AtWork world.manager := by
  have hshape := hinv.shape
  rw [hready] at hshape
  exact hshape

theorem Inv.step {world next : World} {event : Event} (hinv : Inv world)
    (hcompletes : completes world event) (h : world.step event = some next) : Inv next := by
  cases takes_of_step h with
  | core => exact ⟨hinv.shape, hinv.side⟩
  | coreGoesOn hside =>
    have hkept := hinv.kept (kept_goOnSide hcompletes hside)
    exact ⟨hkept.shape, hkept.side⟩
  | service call hready => exact ⟨hinv.ready hready, sideShape_call _ call⟩
  | startRefused hready | stopRefused hready => exact ⟨hinv.ready hready, trivial⟩
  | start hready hidle =>
    refine ⟨(hinv.ready hready).resolve_right fun hwork => ?_, trivial⟩
    have hbusy := ne_idle_of_isUnderway hwork.state
    simp [State.isWorking, hbusy] at hidle
  | stop hready hbusy =>
    exact ⟨(hinv.ready hready).resolve_left fun hrest => hbusy hrest.state, trivial⟩
  | serviceGoesOn hgoes =>
    obtain ⟨hshape, hside⟩ := hinv.goOn hcompletes hgoes
    exact ⟨hshape, hside⟩
  | workerTests hthread =>
    exact hinv.kept (kept_stepThread (fun _ _ => worker_ne_unstarted_of_test) hthread)
  | callback hthread =>
    exact hinv.kept (kept_stepThread (fun _ _ => worker_ne_unstarted_of_leave) hthread)

theorem Inv.of_reach {world : World} (run : machine.Reach completes {} world) : Inv world := by
  have hstart : Inv {} := ⟨Or.inl ⟨rfl, rfl, rfl⟩, trivial⟩
  apply run.invariant Inv hstart
  intro state event next hinv hcompletes hstep
  exact hinv.step hcompletes hstep

theorem Kept.observed {before after : Manager} (hkept : Kept before after)
    (hidle : before.state = .idle) : observed after = observed before := by
  have hstate := hkept.idle hidle
  simp only [FailedStart.observed, hstate, hidle, hkept.thread, hkept.info]

/-- In front of its first write. -/
def isTesting : Place → Bool
  | .testingThread | .testingAlgorithm | .settingRunning => true
  | _ => false

theorem Inv.idle_of_testing {world : World} (hinv : Inv world)
    (htesting : isTesting world.service = true) : world.manager.state = .idle := by
  have hshape := hinv.shape
  cases hplace : world.service <;> rw [hplace] at hshape htesting
  case testingThread | testingAlgorithm => exact hshape.state
  case settingRunning => exact hshape.1.state
  all_goals cases htesting

/-- As long as `start` has written nothing, nobody else writes what it looks at. -/
structure Untouched (start : Manager) (world : World) : Prop where
  inv : Inv world
  same : isTesting world.service = true → observed world.manager = observed start

theorem Untouched.kept {start manager : Manager} {world : World} (h : Untouched start world)
    (hkept : Kept world.manager manager) : Untouched start { world with manager } := by
  refine ⟨h.inv.kept hkept, fun htesting => ?_⟩
  rw [← h.same htesting]
  exact hkept.observed (h.inv.idle_of_testing htesting)

theorem isTesting_of_goesOn {manager next : Manager} {raises : Bool} {place place' : Place}
    (h : GoesOn manager raises place next place') (htesting : isTesting place' = true) :
    isTesting place = true ∧ next = manager := by
  cases h with
  | noThread | selected => exact ⟨rfl, rfl⟩
  | join hjoin => cases hjoin <;> cases htesting
  | _ => cases htesting

theorem Untouched.step {start : Manager} {world next : World} {event : Event}
    (h : Untouched start world) (hguard : duringStart completes world event)
    (hstep : world.step event = some next) : Untouched start next := by
  obtain ⟨hcompletes, hstarting, -⟩ := hguard
  have hinv := h.inv.step hcompletes hstep
  cases takes_of_step hstep with
  | core => exact ⟨hinv, h.same⟩
  | coreGoesOn hside => exact ⟨hinv, (h.kept (kept_goOnSide hcompletes hside)).same⟩
  | service _ hready | startRefused hready | start hready | stopRefused hready | stop hready =>
    rw [hready] at hstarting
    cases hstarting
  | serviceGoesOn hgoes =>
    refine ⟨hinv, fun htesting => ?_⟩
    obtain ⟨hwas, rfl⟩ := isTesting_of_goesOn hgoes htesting
    exact h.same hwas
  | workerTests hthread =>
    exact h.kept (kept_stepThread (fun _ _ => worker_ne_unstarted_of_test) hthread)
  | callback hthread =>
    exact h.kept (kept_stepThread (fun _ _ => worker_ne_unstarted_of_leave) hthread)

theorem Untouched.raise {start : Manager} {world next : World} {raises : Bool}
    (h : Untouched start world) (hcompletes : completes world (.serviceGoesOn raises))
    (hraises : startRaises world (.serviceGoesOn raises) = true)
    (hstep : world.step (.serviceGoesOn raises) = some next) :
    observed next.manager = observed start := by
  obtain ⟨⟨manager, service⟩, hgoOn, rfl⟩ := Option.map_eq_some_iff.mp hstep
  have hshape := h.inv.shape
  have hsame := h.same
  cases hplace : world.service <;> rw [hplace] at hgoOn hshape hsame <;>
    simp only [startRaises, hplace, Bool.false_eq_true] at hraises
  case testingThread =>
    cases hgoOn
    exact hsame rfl
  case testingAlgorithm =>
    cases hgoOn
    exact hsame rfl
  case creatingInfo => exact absurd (Option.isNone_iff_eq_none.mp hraises) hshape.2.2.2
  case sayingStart =>
    rw [hcompletes (.inl hplace)] at hraises
    cases hraises
  case startingThread =>
    obtain ⟨-, -, index, hworking, -⟩ := hshape
    rw [hcompletes (.inr hplace), hworking] at hraises
    cases hraises

theorem Inv.unchanged {world after : World} (hinv : Inv world)
    (hfails : StartFails completes world after) :
    observed after.manager = observed world.manager := by
  cases hfails with
  | refused hready hraises hstep =>
    have hstep : world.step .start = some after := hstep
    cases takes_of_step hstep <;> rfl
  | later hcall hrun hcompletes hraises hstep =>
    rename_i called last raises
    have hcalled : Untouched world.manager called := by
      have hcompletes : completes world .start := trivial
      have hcall : world.step .start = some called := hcall
      refine ⟨hinv.step hcompletes hcall, fun _ => ?_⟩
      cases takes_of_step hcall <;> rfl
    have hlast : Untouched world.manager last := by
      apply hrun.invariant (Untouched world.manager) hcalled
      intro state event next h hguard hnext
      exact h.step hguard hnext
    exact hlast.raise hcompletes hraises hstep

/-- A move of a worker. -/
inductive Move
  | test
  | leave
  deriving DecidableEq, Repr

def Move.run (state : State) : Move → Thread → Option Thread
  | .test => Thread.test state
  | .leave => Thread.leave .returned

def Move.event (index : Nat) : Move → Event
  | .test => .workerTests index
  | .leave => .callback index .returned

def runMoves (state : State) : List Move → Thread → Option Thread
  | [], thread => some thread
  | move :: moves, thread => (move.run state thread).bind (runMoves state moves)

/-- The moves by which a worker that finds STOPPED gets to its end. -/
def movesToEnd : Worker → List Move
  | .inside .onPrepare => [.leave, .leave, .test, .test, .leave]
  | .inside .loop => [.leave, .test, .test, .leave]
  | .inside .onPause => [.leave, .test, .test, .test, .leave]
  | .inside .onResume => [.leave, .test, .leave]
  | .inside .onFinish => [.leave]
  | .checkingPaused => [.test, .test, .leave]
  | .blockedRunning => [.test, .test, .test, .leave]
  | .blockedStopped => [.test, .test, .leave]
  | .checkingStopped => [.test, .leave]
  | .unstarted | .ended | .died => []

theorem runMoves_movesToEnd {thread : Thread} (hstarted : thread.worker ≠ .unstarted) :
    ∃ done, runMoves .stopped (movesToEnd thread.worker) thread = some done ∧
      done.worker.isOver = true := by
  obtain ⟨worker, calls⟩ := thread
  cases worker with
  | unstarted => exact absurd rfl hstarted
  | inside callback => cases callback <;> exact ⟨_, rfl, rfl⟩
  | _ => exact ⟨_, rfl, rfl⟩

theorem exec_moves (world : World) {index : Nat} {moves : List Move} {thread done : Thread}
    (hfound : world.manager.threads[index]? = some thread)
    (hrun : runMoves world.manager.state moves thread = some done) (events : List Event) :
    machine.exec world (moves.map (Move.event index) ++ events) =
      machine.exec { world with
        manager := { world.manager with threads := world.manager.threads.set index done } }
        events := by
  induction moves generalizing world thread with
  | nil =>
    cases hrun
    obtain ⟨hlt, hget⟩ := List.getElem?_eq_some_iff.mp hfound
    simp [← hget]
  | cons move moves ih =>
    obtain ⟨next, hmove, hrest⟩ := Option.bind_eq_some_iff.mp hrun
    have hlt := (List.getElem?_eq_some_iff.mp hfound).1
    obtain ⟨after, hafter⟩ : ∃ after : World, after = { world with
        manager := { world.manager with threads := world.manager.threads.set index next } } :=
      ⟨_, rfl⟩
    have hstep : machine.step world (move.event index) = some after := by
      cases move <;> dsimp only [Move.run] at hmove <;>
        simp [machine, World.step, Move.event, Manager.stepThread, hfound, hmove, hafter]
    have hfound' : after.manager.threads[index]? = some next := by
      simp [hafter, hlt]
    have hstate : after.manager.state = world.manager.state := by
      rw [hafter]
    have hnext := ih after hfound' (by rw [hstate]; exact hrest)
    simp only [List.map_cons, List.cons_append, Machine.exec_cons, hstep, Option.bind_some, hnext]
    simp [hafter]

theorem AtRest.startPossible {world : World} (hrest : AtRest world.manager) (hcall : noCall world)
    (halgorithm : world.manager.algorithm ≠ none) : StartPossible world := by
  obtain ⟨⟨state, reason, algorithm, info, working, threads⟩, service, core⟩ := world
  obtain ⟨rfl, rfl⟩ := hcall
  obtain ⟨rfl, rfl, rfl⟩ := hrest
  cases algorithm with
  | none => exact absurd rfl halgorithm
  | some name =>
    refine ⟨List.replicate 7 (.serviceGoesOn false), _, ?_, rfl, ⟨rfl, rfl⟩, rfl, ?_⟩
    · intro event hevent
      rw [List.eq_of_mem_replicate hevent]
      rfl
    · exact hasStarted_startThread rfl (by simp)

theorem exec_stop {manager : Manager} (hunderway : isUnderway manager) (events : List Event) :
    machine.exec ⟨manager, .side .ready, .ready⟩
      (.stop :: .serviceGoesOn false :: .serviceGoesOn false :: events) =
    machine.exec ⟨{ manager with state := .stopped }, .joining, .ready⟩ events := by
  have hbusy : manager.state ≠ .idle ∧ manager.state ≠ .stopped := by
    rcases hunderway with hrunning | hpaused
    · simp [hrunning]
    · simp [hpaused]
  simp [machine, World.step, Manager.goOn, hbusy]

theorem exec_join (manager : Manager) {index : Nat} {done : Thread} {info : ExecutionInfo}
    (hworking : manager.workingThread = some index)
    (hfound : manager.threads[index]? = some done) (hover : done.worker.isOver = true)
    (hinfo : manager.executionInfo = some info) :
    machine.exec ⟨manager, .joining, .ready⟩ (List.replicate 5 (.serviceGoesOn false)) =
      some ⟨{ manager with state := .idle, workingThread := none, executionInfo := none },
        .side .ready, .ready⟩ := by
  have hstarted : done.worker ≠ .unstarted := by
    intro hunstarted
    rw [hunstarted] at hover
    cases hover
  simp [List.replicate, machine, World.step, Manager.goOn, Manager.join, hworking, hfound,
    hstarted, hover, hinfo]

/-- Once STOPPED is set, the worker comes to its end and `stop` comes back. -/
theorem AtWork.stopPossible {world : World} (hwork : AtWork world.manager) (hcall : noCall world) :
    StopPossible world := by
  obtain ⟨manager, service, core⟩ := world
  obtain ⟨rfl, rfl⟩ := hcall
  obtain ⟨index, thread, hworking, hfound, hstarted⟩ := hwork.thread
  obtain ⟨info, hinfo⟩ := Option.ne_none_iff_exists'.mp hwork.info
  obtain ⟨done, hrun, hover⟩ := runMoves_movesToEnd hstarted
  obtain ⟨waiting, hwaiting⟩ : ∃ waiting : World,
      waiting = ⟨{ manager with state := .stopped }, .joining, .ready⟩ := ⟨_, rfl⟩
  have hmoves := exec_moves waiting (by rw [hwaiting]; exact hfound)
    (by rw [hwaiting]; exact hrun) (List.replicate 5 (.serviceGoesOn false))
  have hfound' : (manager.threads.set index done)[index]? = some done := by
    have hlt := (List.getElem?_eq_some_iff.mp hfound).1
    simp [hlt]
  rw [hwaiting] at hmoves
  have hjoin := exec_join { manager with
    state := .stopped, threads := manager.threads.set index done } hworking hfound' hover hinfo
  refine ⟨.serviceGoesOn false :: .serviceGoesOn false ::
    ((movesToEnd thread.worker).map (Move.event index) ++
      List.replicate 5 (.serviceGoesOn false)), _, ?_,
    (exec_stop hwork.state _).trans (hmoves.trans hjoin), ⟨rfl, rfl⟩, rfl⟩
  intro event hevent
  simp only [List.mem_cons, List.mem_append, List.mem_map] at hevent
  rcases hevent with rfl | rfl | ⟨move, -, rfl⟩ | hreturn
  · rfl
  · rfl
  · cases move <;> rfl
  · rw [List.eq_of_mem_replicate hreturn]
    rfl

theorem recovers_of_completes (world : World) (run : machine.Reach completes {} world) :
    Recovers completes world := by
  have hinv := Inv.of_reach run
  have hshape := fun hcall : noCall world => hinv.ready hcall.1
  constructor
  · exact fun after hfails => hinv.unchanged hfails
  · intro hcall
    rcases hshape hcall with hrest | hwork
    · simp [hrest.state, hrest.thread, hrest.info]
    · obtain ⟨index, -, hworking, -⟩ := hwork.thread
      simp [ne_idle_of_isUnderway hwork.state, hworking, hwork.info]
  · intro hcall hidle halgorithm
    rcases hshape hcall with hrest | hwork
    · exact hrest.startPossible hcall halgorithm
    · exact absurd hidle (ne_idle_of_isUnderway hwork.state)
  · intro hcall hbusy
    rcases hshape hcall with hrest | hwork
    · exact absurd hrest.state hbusy
    · exact hwork.stopPossible hcall

/-- A cleaning from its start to the end of `stop`. -/
theorem recovers_after_wholeCleaning :
    ∃ world, machine.exec {} Cleaning.wholeCleaning = some world ∧ noCall world ∧
      world.manager.state = .idle ∧ Recovers completes world := by
  have hguard : machine.Guarded completes {} Cleaning.wholeCleaning := by
    decide +kernel
  have hexec : ∃ world, machine.exec {} Cleaning.wholeCleaning = some world ∧ noCall world ∧
      world.manager.state = .idle := ⟨_, rfl, ⟨rfl, rfl⟩, rfl⟩
  obtain ⟨world, hexec, hcall, hidle⟩ := hexec
  exact ⟨world, hexec, hcall, hidle,
    recovers_of_completes world (Machine.reach_of_exec_guarded hguard hexec)⟩

/-- The player cannot be launched: RUNNING stays, with a thread that never runs. -/
theorem start_without_player_leaves_running :
    ¬ ∀ world, machine.Reach Machine.anyEvent {} world → Recovers Machine.anyEvent world := by
  intro hevery
  have hexec : ∃ world called last after,
      machine.exec {} [.core (.setAlgorithm .simple), .coreGoesOn false] = some world ∧
      machine.step world .start = some called ∧
      machine.exec called (List.replicate 5 (.serviceGoesOn false)) = some last ∧
      machine.step last (.serviceGoesOn true) = some after ∧
      startRaises last (.serviceGoesOn true) = true ∧
      machine.Guarded (duringStart Machine.anyEvent) called
        (List.replicate 5 (.serviceGoesOn false)) ∧
      world.manager.state = .idle ∧ after.manager.state = .running :=
    ⟨_, _, _, _, rfl, rfl, rfl, rfl, rfl, by decide +kernel, rfl, rfl⟩
  obtain ⟨world, called, last, after, hexec, hcall, hlast, hafter, hraises, hguard, hidle,
    hrunning⟩ := hexec
  have hfails : StartFails Machine.anyEvent world after :=
    .later hcall (Machine.reach_of_exec_guarded hguard hlast) trivial hraises hafter
  have hsame := (hevery world (Machine.reach_of_exec hexec)).unchanged after hfails
  have hstate : after.manager.state = world.manager.state := congrArg Prod.fst hsame
  rw [hrunning, hidle] at hstate
  cases hstate

end VacuumCleaner.Core.FailedStart
