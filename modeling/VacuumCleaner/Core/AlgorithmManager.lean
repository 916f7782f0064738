import VacuumCleaner.Core.AlgorithmLoop
import VacuumCleaner.Lib.Machine

/-! `AlgorithmManager` between the service thread, which calls every operation,
the core thread, which selects, pauses and resumes, and the worker threads.
One event is one read or write of what they share. -/
namespace VacuumCleaner.Core.AlgorithmManager

open Lib AlgorithmLoop

inductive PauseReason
  | manualPause | lidIsOpened | dustBoxOut
  deriving DecidableEq, Repr

inductive AlgorithmName
  | simple | smart
  deriving DecidableEq, Repr

/-- `AlgorithmExecutionInfo`; its two times decide nothing. -/
structure ExecutionInfo where
  algorithmName : AlgorithmName
  deriving DecidableEq, Repr

/-- `workingThread` is a place in `threads`, where every thread ever made stays. -/
structure Manager where
  state : State := .idle
  pauseReason : Option PauseReason := none
  algorithm : Option AlgorithmName := none
  executionInfo : Option ExecutionInfo := none
  workingThread : Option Nat := none
  threads : List Thread := []
  deriving DecidableEq, Repr

/-- A thread in `set_algorithm`, `pause` or `resume`, behind the test of the
state that each begins with. -/
inductive SidePlace
  | ready
  | selecting (name : AlgorithmName)
  | pausing (reason : PauseReason)
  | settingPaused
  | resuming
  deriving DecidableEq, Repr

/-- The service thread, which may also be in `start` or `stop`. -/
inductive Place
  | side (place : SidePlace)
  | testingThread
  | testingAlgorithm
  | settingRunning
  | creatingInfo
  | creatingThread
  | sayingStart
  | startingThread
  | testingStopped
  | settingStopped
  | joining
  | droppingThread
  | droppingInfo
  | settingIdle
  | sayingFinished
  deriving DecidableEq, Repr

structure World where
  manager : Manager := {}
  service : Place := .side .ready
  core : SidePlace := .ready
  deriving DecidableEq, Repr

inductive SideCall
  | setAlgorithm (name : AlgorithmName)
  | pause (reason : PauseReason)
  | resume
  deriving DecidableEq, Repr

/-- Going on with `raises` set, what the thread calls there raises: loading the
arguments, the voice, or the start of a thread. -/
inductive Event
  | core (call : SideCall)
  | coreGoesOn (raises : Bool)
  | service (call : SideCall)
  | start
  | stop
  | serviceGoesOn (raises : Bool)
  | workerTests (thread : Nat)
  | callback (thread : Nat) (outcome : Outcome)
  deriving DecidableEq, Repr

namespace Manager

/-- A call that its first test refuses has raised and is over. -/
def call (manager : Manager) : SideCall → SidePlace
  | .setAlgorithm name => if manager.state = .idle then .selecting name else .ready
  | .pause reason => if manager.state = .running then .pausing reason else .ready
  | .resume => if manager.state = .paused then .resuming else .ready

def goOnSide (manager : Manager) (raises : Bool) : SidePlace → Option (Manager × SidePlace)
  | .ready => none
  | .selecting name =>
    some (if raises then manager else { manager with algorithm := some name }, .ready)
  | .pausing reason => some ({ manager with pauseReason := some reason }, .settingPaused)
  | .settingPaused => some ({ manager with state := .paused }, .ready)
  | .resuming => some ({ manager with state := .running }, .ready)

/-- A thread starts once only. -/
def startThread (manager : Manager) (index : Nat) : Manager :=
  { manager with
    threads := manager.threads.modify index fun thread =>
      if thread.worker = .unstarted then { thread with worker := .inside .onPrepare } else thread }

/-- `join` raises without a thread and on one that was never started. -/
def join (manager : Manager) : Option Place :=
  match manager.workingThread.bind (manager.threads[·]?) with
  | none => some (.side .ready)
  | some thread =>
    if thread.worker = .unstarted then some (.side .ready)
    else if thread.worker.isOver then some .droppingThread
    else none

def goOn (manager : Manager) (raises : Bool) : Place → Option (Manager × Place)
  | .side place =>
    (manager.goOnSide raises place).map fun (manager, place) => (manager, .side place)
  | .testingThread =>
    some (manager, if manager.workingThread.isSome then .side .ready else .testingAlgorithm)
  | .testingAlgorithm =>
    some (manager, if manager.algorithm.isNone then .side .ready else .settingRunning)
  | .settingRunning => some ({ manager with state := .running }, .creatingInfo)
  | .creatingInfo =>
    match manager.algorithm with
    | none => some (manager, .side .ready)
    | some algorithmName =>
      some ({ manager with executionInfo := some ⟨algorithmName⟩ }, .creatingThread)
  | .creatingThread =>
    some ({ manager with
      workingThread := some manager.threads.length
      threads := manager.threads ++ [{}] }, .sayingStart)
  | .sayingStart => some (manager, if raises then .side .ready else .startingThread)
  | .startingThread =>
    match manager.workingThread with
    | none => some (manager, .side .ready)
    | some thread =>
      some (if raises then manager else manager.startThread thread, .side .ready)
  | .testingStopped =>
    some (manager, if manager.state = .stopped then .side .ready else .settingStopped)
  | .settingStopped => some ({ manager with state := .stopped }, .joining)
  | .joining => manager.join.map fun place => (manager, place)
  | .droppingThread => some ({ manager with workingThread := none }, .droppingInfo)
  | .droppingInfo =>
    match manager.executionInfo with
    | none => some (manager, .side .ready)
    | some _ => some ({ manager with executionInfo := none }, .settingIdle)
  | .settingIdle => some ({ manager with state := .idle }, .sayingFinished)
  | .sayingFinished => some (manager, .side .ready)

def stepThread (manager : Manager) (index : Nat) (step : Thread → Option Thread) :
    Option Manager := do
  let thread ← manager.threads[index]?
  let next ← step thread
  return { manager with threads := manager.threads.set index next }

end Manager

def World.step (world : World) : Event → Option World
  | .core call =>
    if world.core = .ready then some { world with core := world.manager.call call } else none
  | .coreGoesOn raises =>
    (world.manager.goOnSide raises world.core).map fun (manager, core) =>
      { world with manager, core }
  | .service call =>
    if world.service = .side .ready then
      some { world with service := .side (world.manager.call call) }
    else none
  | .start =>
    if world.service = .side .ready then
      some { world with
        service := if world.manager.state.isWorking then .side .ready else .testingThread }
    else none
  | .stop =>
    if world.service = .side .ready then
      some { world with
        service := if world.manager.state = .idle then .side .ready else .testingStopped }
    else none
  | .serviceGoesOn raises =>
    (world.manager.goOn raises world.service).map fun (manager, service) =>
      { world with manager, service }
  | .workerTests thread =>
    (world.manager.stepThread thread (Thread.test world.manager.state)).map fun manager =>
      { world with manager }
  | .callback thread outcome =>
    (world.manager.stepThread thread (Thread.leave outcome)).map fun manager =>
      { world with manager }

def machine : Machine World Event := ⟨World.step⟩

/-- The service thread is inside an operation and does not wait in `join`. -/
def Place.isOperating : Place → Bool
  | .side .ready | .joining => false
  | _ => true

def Event.isServiceStep : Event → Bool
  | .serviceGoesOn _ => true
  | _ => false

/-! What the steps can do, for the invariants of the manager. -/

theorem stepThread_cases {manager next : Manager} {index : Nat} {step : Thread → Option Thread}
    (h : manager.stepThread index step = some next) :
    ∃ before after, manager.threads[index]? = some before ∧ step before = some after ∧
      next = { manager with threads := manager.threads.set index after } := by
  obtain ⟨before, hfound, h⟩ := Option.bind_eq_some_iff.mp h
  obtain ⟨after, hstep, h⟩ := Option.bind_eq_some_iff.mp h
  cases h
  exact ⟨before, after, hfound, hstep, rfl⟩

theorem getElem?_startThread {manager : Manager} {index other : Nat} {thread : Thread}
    (h : (manager.startThread index).threads[other]? = some thread) :
    ∃ before, manager.threads[other]? = some before ∧
      (thread = before ∨ index = other ∧ before.worker = .unstarted ∧
        thread = { before with worker := .inside .onPrepare }) := by
  rw [Manager.startThread, List.getElem?_modify, Option.map_eq_map, Option.map_eq_some_iff] at h
  obtain ⟨before, hbefore, rfl⟩ := h
  refine ⟨before, hbefore, ?_⟩
  split
  · rename_i hindex
    split
    · rename_i hunstarted
      exact .inr ⟨hindex, hunstarted, rfl⟩
    · exact .inl rfl
  · exact .inl rfl

/-- How `join` comes back. -/
inductive Joined (manager : Manager) : Place → Prop
  | refused : (∀ index thread, manager.workingThread = some index →
      manager.threads[index]? = some thread → thread.worker = .unstarted) →
    Joined manager (.side .ready)
  | threadOver : (∀ index thread, manager.workingThread = some index →
      manager.threads[index]? = some thread → thread.worker.isOver = true) →
    Joined manager .droppingThread

theorem joined_of_join {manager : Manager} {place : Place} (h : manager.join = some place) :
    Joined manager place := by
  have honly : ∀ {joined : Option Thread} {index : Nat} {thread : Thread},
      manager.workingThread.bind (manager.threads[·]?) = joined →
      manager.workingThread = some index → manager.threads[index]? = some thread →
      joined = some thread := by
    intro joined index thread hjoined hworking hthread
    rw [← hjoined, hworking, Option.bind_some, hthread]
  unfold Manager.join at h
  split at h
  · rename_i hnone
    cases h
    exact .refused fun index thread hworking hthread => nomatch honly hnone hworking hthread
  · rename_i joined hjoined
    split at h
    · rename_i hunstarted
      cases h
      refine .refused fun index thread hworking hthread => ?_
      cases honly hjoined hworking hthread
      exact hunstarted
    · split at h
      · rename_i hover
        cases h
        refine .threadOver fun index thread hworking hthread => ?_
        cases honly hjoined hworking hthread
        exact hover
      · cases h

/-- How the service thread goes on from one place to the next. -/
inductive GoesOn (manager : Manager) (raises : Bool) : Place → Manager → Place → Prop
  | side {next : Manager} {place place' : SidePlace} :
    manager.goOnSide raises place = some (next, place') →
    GoesOn manager raises (.side place) next (.side place')
  | threadLeft : manager.workingThread.isSome = true →
    GoesOn manager raises .testingThread manager (.side .ready)
  | noThread : manager.workingThread = none →
    GoesOn manager raises .testingThread manager .testingAlgorithm
  | notSelected : manager.algorithm = none →
    GoesOn manager raises .testingAlgorithm manager (.side .ready)
  | selected : manager.algorithm ≠ none →
    GoesOn manager raises .testingAlgorithm manager .settingRunning
  | publish : GoesOn manager raises .settingRunning { manager with state := .running } .creatingInfo
  | noInfo : manager.algorithm = none → GoesOn manager raises .creatingInfo manager (.side .ready)
  | info {name : AlgorithmName} : manager.algorithm = some name →
    GoesOn manager raises .creatingInfo { manager with executionInfo := some ⟨name⟩ } .creatingThread
  | create : GoesOn manager raises .creatingThread { manager with
      workingThread := some manager.threads.length
      threads := manager.threads ++ [{}] } .sayingStart
  | said : raises = false → GoesOn manager raises .sayingStart manager .startingThread
  | notSaid : raises = true → GoesOn manager raises .sayingStart manager (.side .ready)
  | nothingToStart : manager.workingThread = none →
    GoesOn manager raises .startingThread manager (.side .ready)
  | started {index : Nat} : manager.workingThread = some index → raises = false →
    GoesOn manager raises .startingThread (manager.startThread index) (.side .ready)
  | notStarted : raises = true → GoesOn manager raises .startingThread manager (.side .ready)
  | alreadyStopped : manager.state = .stopped →
    GoesOn manager raises .testingStopped manager (.side .ready)
  | notStopped : manager.state ≠ .stopped →
    GoesOn manager raises .testingStopped manager .settingStopped
  | stopped : GoesOn manager raises .settingStopped { manager with state := .stopped } .joining
  | join {place : Place} : Joined manager place → GoesOn manager raises .joining manager place
  | dropThread : GoesOn manager raises .droppingThread { manager with workingThread := none }
      .droppingInfo
  | noInfoToDrop : manager.executionInfo = none →
    GoesOn manager raises .droppingInfo manager (.side .ready)
  | dropInfo : manager.executionInfo ≠ none →
    GoesOn manager raises .droppingInfo { manager with executionInfo := none } .settingIdle
  | becomeIdle : GoesOn manager raises .settingIdle { manager with state := .idle } .sayingFinished
  | sayFinished : GoesOn manager raises .sayingFinished manager (.side .ready)

theorem goesOn_of_goOn {manager next : Manager} {raises : Bool} {place place' : Place}
    (h : manager.goOn raises place = some (next, place')) :
    GoesOn manager raises place next place' := by
  cases place
  case side place =>
    obtain ⟨⟨after, place⟩, hside, heq⟩ := Option.map_eq_some_iff.mp h
    cases heq
    exact .side hside
  case testingThread =>
    cases h
    cases hworking : manager.workingThread with
    | none => exact .noThread hworking
    | some index => exact .threadLeft (by simp [hworking])
  case testingAlgorithm =>
    cases h
    cases halgorithm : manager.algorithm with
    | none => exact .notSelected halgorithm
    | some name => exact .selected (by simp [halgorithm])
  case settingRunning =>
    cases h
    exact .publish
  case creatingInfo =>
    simp only [Manager.goOn] at h
    split at h <;> rename_i halgorithm <;> cases h
    · exact .noInfo halgorithm
    · exact .info halgorithm
  case creatingThread =>
    cases h
    exact .create
  case sayingStart =>
    cases h
    cases raises
    · exact .said rfl
    · exact .notSaid rfl
  case startingThread =>
    simp only [Manager.goOn] at h
    split at h <;> rename_i hworking <;> cases h
    · exact .nothingToStart hworking
    · cases raises
      · exact .started hworking rfl
      · exact .notStarted rfl
  case testingStopped =>
    cases h
    split
    · rename_i hstopped
      exact .alreadyStopped hstopped
    · rename_i hstopped
      exact .notStopped hstopped
  case settingStopped =>
    cases h
    exact .stopped
  case joining =>
    obtain ⟨after, hjoin, heq⟩ := Option.map_eq_some_iff.mp h
    cases heq
    exact .join (joined_of_join hjoin)
  case droppingThread =>
    cases h
    exact .dropThread
  case droppingInfo =>
    simp only [Manager.goOn] at h
    split at h <;> rename_i hinfo <;> cases h
    · exact .noInfoToDrop hinfo
    · exact .dropInfo (by simp [hinfo])
  case settingIdle =>
    cases h
    exact .becomeIdle
  case sayingFinished =>
    cases h
    exact .sayFinished

/-- What the steps of the threads do. -/
inductive Takes (world : World) : Event → World → Prop
  | core (call : SideCall) : world.core = .ready →
    Takes world (.core call) { world with core := world.manager.call call }
  | coreGoesOn {raises : Bool} {manager : Manager} {core : SidePlace} :
    world.manager.goOnSide raises world.core = some (manager, core) →
    Takes world (.coreGoesOn raises) { world with manager, core }
  | service (call : SideCall) : world.service = .side .ready →
    Takes world (.service call) { world with service := .side (world.manager.call call) }
  | startRefused : world.service = .side .ready → world.manager.state.isWorking = true →
    Takes world .start { world with service := .side .ready }
  | start : world.service = .side .ready → world.manager.state.isWorking = false →
    Takes world .start { world with service := .testingThread }
  | stopRefused : world.service = .side .ready → world.manager.state = .idle →
    Takes world .stop { world with service := .side .ready }
  | stop : world.service = .side .ready → world.manager.state ≠ .idle →
    Takes world .stop { world with service := .testingStopped }
  | serviceGoesOn {raises : Bool} {manager : Manager} {service : Place} :
    GoesOn world.manager raises world.service manager service →
    Takes world (.serviceGoesOn raises) { world with manager, service }
  | workerTests {index : Nat} {manager : Manager} :
    world.manager.stepThread index (Thread.test world.manager.state) = some manager →
    Takes world (.workerTests index) { world with manager }
  | callback {index : Nat} {outcome : Outcome} {manager : Manager} :
    world.manager.stepThread index (Thread.leave outcome) = some manager →
    Takes world (.callback index outcome) { world with manager }

theorem takes_of_step {world next : World} {event : Event} (h : world.step event = some next) :
    Takes world event next := by
  cases event with
  | core call =>
    obtain ⟨hready, h⟩ := Option.ite_none_right_eq_some.mp h
    cases h
    exact .core call hready
  | coreGoesOn raises =>
    obtain ⟨⟨manager, core⟩, hside, rfl⟩ := Option.map_eq_some_iff.mp h
    exact .coreGoesOn hside
  | service call =>
    obtain ⟨hready, h⟩ := Option.ite_none_right_eq_some.mp h
    cases h
    exact .service call hready
  | start =>
    obtain ⟨hready, h⟩ := Option.ite_none_right_eq_some.mp h
    cases h
    split
    · rename_i hworking
      exact .startRefused hready hworking
    · rename_i hworking
      exact .start hready (Bool.eq_false_iff.mpr hworking)
  | stop =>
    obtain ⟨hready, h⟩ := Option.ite_none_right_eq_some.mp h
    cases h
    split
    · rename_i hidle
      exact .stopRefused hready hidle
    · rename_i hidle
      exact .stop hready hidle
  | serviceGoesOn raises =>
    obtain ⟨⟨manager, service⟩, hgoOn, rfl⟩ := Option.map_eq_some_iff.mp h
    exact .serviceGoesOn (goesOn_of_goOn hgoOn)
  | workerTests index =>
    obtain ⟨manager, hthread, rfl⟩ := Option.map_eq_some_iff.mp h
    exact .workerTests hthread
  | callback index outcome =>
    obtain ⟨manager, hthread, rfl⟩ := Option.map_eq_some_iff.mp h
    exact .callback hthread

end VacuumCleaner.Core.AlgorithmManager
