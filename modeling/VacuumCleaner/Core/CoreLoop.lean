import VacuumCleaner.Core.AlgorithmManager

/-! `Core._run_core_loop` beside the client's commands. The loop reads the state
of the manager, then the sensors, and only then calls `pause` or `resume`. -/
namespace VacuumCleaner.Core.CoreLoop

open Lib AlgorithmLoop AlgorithmManager

inductive Raised
  | algorithmManagerException
  | other
  deriving DecidableEq, Repr

/-- Where the core thread stands. The condition of the automatic `resume` reads
the reason twice. -/
inductive LoopPlace
  | introducing
  | testingShutDown
  | handlingEvents
  | testingRunning
  | readingLid
  | readingDustBox
  | testingPaused
  | readingLidReason
  | readingLidClosed
  | readingDustBoxReason
  | readingDustBoxPresent
  | calling (call : SideCall)
  | inside (call : SideCall)
  | saying
  | ticking
  | finished
  | failed (raised : Raised)
  deriving DecidableEq, Repr

/-- `lastWritten` is what the client's commands have made of the state since
the loop last tested it; the code keeps no such record. -/
structure World where
  manager : AlgorithmManager.World := {}
  loop : LoopPlace := .introducing
  lidIsClosed : Bool := false
  dustBoxPresent : Bool := false
  lastWritten : Option State := none
  deriving DecidableEq, Repr

/-- For the core thread, `outside` is the answer of the shut down test, and
elsewhere whether a call that has nothing to do with the manager raises. -/
inductive Event
  | manager (event : AlgorithmManager.Event)
  | sensors (lidIsClosed dustBoxPresent : Bool)
  | core (outside : Bool)
  deriving DecidableEq, Repr

/-- The state that the service thread writes in its next step. -/
def stateWritten : Place → Option State
  | .side .settingPaused => some .paused
  | .side .resuming | .settingRunning => some .running
  | .settingStopped => some .stopped
  | .settingIdle => some .idle
  | _ => none

def isCoreEvent : AlgorithmManager.Event → Bool
  | .core _ | .coreGoesOn _ => true
  | _ => false

/-- A step of the client's or of a worker thread. -/
def World.stepManager (world : World) (event : AlgorithmManager.Event) : Option World :=
  if isCoreEvent event then none
  else (world.manager.step event).map fun manager =>
    { world with
      manager
      lastWritten := match event with
        | .serviceGoesOn _ => (stateWritten world.manager.service).or world.lastWritten
        | _ => world.lastWritten }

/-- What follows a call that has come back. -/
def LoopPlace.after : SideCall → LoopPlace
  | .pause _ => .saying
  | .resume | .setAlgorithm _ => .ticking

def World.callOut (world : World) (raises : Bool) (next : LoopPlace) : World :=
  { world with loop := if raises then .failed .other else next }

def World.stepCore (world : World) (outside : Bool) : Option World :=
  let state := world.manager.manager.state
  let pauseReason := world.manager.manager.pauseReason
  match world.loop with
  | .introducing => some (world.callOut outside .testingShutDown)
  | .testingShutDown =>
    some { world with loop := if outside then .finished else .handlingEvents }
  | .handlingEvents => some (world.callOut outside .testingRunning)
  | .testingRunning =>
    some { world with
      loop := if state = .running then .readingLid else .testingPaused
      lastWritten := none }
  | .readingLid =>
    some { world with
      loop := if world.lidIsClosed then .readingDustBox else .calling (.pause .lidIsOpened) }
  | .readingDustBox =>
    some { world with
      loop := if world.dustBoxPresent then .ticking else .calling (.pause .dustBoxOut) }
  | .testingPaused =>
    some { world with
      loop := if state = .paused then .readingLidReason else .ticking
      lastWritten := none }
  | .readingLidReason =>
    some { world with
      loop := if pauseReason = some .lidIsOpened then .readingLidClosed
        else .readingDustBoxReason }
  | .readingLidClosed =>
    some { world with
      loop := if world.lidIsClosed then .calling .resume else .readingDustBoxReason }
  | .readingDustBoxReason =>
    some { world with
      loop := if pauseReason = some .dustBoxOut then .readingDustBoxPresent else .ticking }
  | .readingDustBoxPresent =>
    some { world with loop := if world.dustBoxPresent then .calling .resume else .ticking }
  | .calling call =>
    let place := world.manager.manager.call call
    if place = .ready then some { world with loop := .failed .algorithmManagerException }
    else some { world with manager := { world.manager with core := place }, loop := .inside call }
  | .inside call =>
    (world.manager.step (.coreGoesOn false)).map fun manager =>
      { world with
        manager
        loop := if manager.core = .ready then .after call else .inside call }
  | .saying => some (world.callOut outside .ticking)
  | .ticking => some (world.callOut outside .testingShutDown)
  | .finished | .failed _ => none

def World.step (world : World) : Event → Option World
  | .manager event => world.stepManager event
  | .sensors lidIsClosed dustBoxPresent => some { world with lidIsClosed, dustBoxPresent }
  | .core outside => world.stepCore outside

def machine : Machine World Event := ⟨World.step⟩

/-- The state in which a call does not raise. -/
def tested : SideCall → State
  | .setAlgorithm _ => .idle
  | .pause _ => .running
  | .resume => .paused

/-- What the loop has tested on its way to the call it is about to make. -/
def LoopPlace.expects : LoopPlace → Option State
  | .readingLid | .readingDustBox => some .running
  | .readingLidReason | .readingLidClosed | .readingDustBoxReason | .readingDustBoxPresent =>
    some .paused
  | .calling call => some (tested call)
  | _ => none

/-- When the loop makes its call, the last state that a command of the client
has written since the loop's test, if any, is the one that was tested. -/
def calledAsTested (world : World) : Event → Prop
  | .core _ => ∀ call, world.loop = .calling call →
      world.lastWritten.getD (tested call) = tested call
  | _ => True

instance (world : World) : (event : Event) → Decidable (calledAsTested world event)
  | .core _ =>
    match hloop : world.loop with
    | .calling call => decidable_of_iff (world.lastWritten.getD (tested call) = tested call)
        ⟨fun h other hother => by rw [hloop] at hother; cases hother; exact h,
          fun h => h call hloop⟩
    | .introducing | .testingShutDown | .handlingEvents | .testingRunning | .readingLid
    | .readingDustBox | .testingPaused | .readingLidReason | .readingLidClosed
    | .readingDustBoxReason | .readingDustBoxPresent | .inside _ | .saying | .ticking
    | .finished | .failed _ =>
      .isTrue fun call hcall => by rw [hloop] at hcall; cases hcall
  | .manager _ | .sensors _ _ => .isTrue trivial

def isCoreStep : Event → Bool
  | .core _ => true
  | _ => false

/-- A method of the manager that has begun goes on before anything else happens. -/
def methodsAtomic (world : World) (event : Event) : Prop :=
  (world.manager.core ≠ .ready → isCoreStep event = true) ∧
    (world.manager.service.isOperating = true → match event with
      | .manager event => event.isServiceStep = true
      | _ => False)

instance (world : World) : (event : Event) → Decidable (methodsAtomic world event)
  | .manager _ | .sensors .. | .core _ => inferInstanceAs (Decidable (_ ∧ _))

def HasFailed (world : World) : Prop := world.loop = .failed .algorithmManagerException

/-- The state is the one the loop has tested, but for what was written since. -/
def Tracks (world : World) : Prop :=
  ∀ expected ∈ world.loop.expects,
    world.manager.manager.state = world.lastWritten.getD expected

theorem call_eq_ready_iff (manager : Manager) (call : SideCall) :
    manager.call call = .ready ↔ manager.state ≠ tested call := by
  cases call <;> simp [Manager.call, tested]

theorem state_goOnSide {manager next : Manager} {raises : Bool} {place place' : SidePlace}
    (h : manager.goOnSide raises place = some (next, place')) :
    next.state = (stateWritten (.side place)).getD manager.state := by
  cases place with
  | ready => cases h
  | selecting =>
    cases h
    cases raises <;> rfl
  | pausing | settingPaused | resuming =>
    cases h
    rfl

theorem state_of_goesOn {manager next : Manager} {raises : Bool} {place place' : Place}
    (h : GoesOn manager raises place next place') :
    next.state = (stateWritten place).getD manager.state := by
  cases h with
  | side hside => exact state_goOnSide hside
  | _ => rfl

theorem state_stepThread {manager next : Manager} {index : Nat} {step : Thread → Option Thread}
    (h : manager.stepThread index step = some next) : next.state = manager.state := by
  obtain ⟨before, after, -, -, rfl⟩ := stepThread_cases h
  rfl

theorem stepManager_spec {world next : World} {event : AlgorithmManager.Event}
    (h : world.stepManager event = some next) :
    next.loop = world.loop ∧ ∀ expected,
      world.manager.manager.state = world.lastWritten.getD expected →
      next.manager.manager.state = next.lastWritten.getD expected := by
  obtain ⟨hevent, h⟩ := Option.ite_none_left_eq_some.mp h
  obtain ⟨manager, hstep, rfl⟩ := Option.map_eq_some_iff.mp h
  refine ⟨rfl, fun expected hstate => ?_⟩
  cases takes_of_step hstep with
  | core | coreGoesOn => exact absurd rfl hevent
  | service | startRefused | start | stopRefused | stop => exact hstate
  | serviceGoesOn hgoes =>
    have hwritten := state_of_goesOn hgoes
    dsimp only
    rw [hwritten, hstate]
    cases stateWritten world.manager.service <;> rfl
  | workerTests hthread | callback hthread =>
    have hkept := state_stepThread hthread
    dsimp only
    rw [hkept, hstate]

theorem Tracks.of_expects_none {world : World} (h : world.loop.expects = none) : Tracks world := by
  intro expected hexpected
  rw [h] at hexpected
  cases hexpected

theorem Tracks.goTo {world : World} {loop : LoopPlace} (htracks : Tracks world)
    (hexpects : loop.expects = none ∨ loop.expects = world.loop.expects) :
    Tracks { world with loop } := by
  rcases hexpects with hnone | hsame
  · exact .of_expects_none hnone
  · intro expected hexpected
    exact htracks expected (hsame ▸ hexpected)

theorem Tracks.stepCore {world next : World} {outside : Bool} (htracks : Tracks world)
    (h : world.stepCore outside = some next) : Tracks next := by
  cases hloop : world.loop <;> simp only [World.stepCore, hloop] at h
  case introducing | testingShutDown | handlingEvents | saying | ticking =>
    cases h
    apply Tracks.of_expects_none
    cases outside <;> rfl
  case testingRunning | testingPaused =>
    cases h
    intro expected hexpected
    dsimp only at hexpected ⊢
    split at hexpected <;> cases hexpected
    assumption
  case readingLid =>
    cases h
    apply htracks.goTo
    rw [hloop]
    split <;> exact .inr rfl
  case readingDustBox =>
    cases h
    apply htracks.goTo
    rw [hloop]
    split
    · exact .inl rfl
    · exact .inr rfl
  case readingLidReason | readingLidClosed =>
    cases h
    apply htracks.goTo
    rw [hloop]
    split <;> exact .inr rfl
  case readingDustBoxReason | readingDustBoxPresent =>
    cases h
    apply htracks.goTo
    rw [hloop]
    split
    · exact .inr rfl
    · exact .inl rfl
  case calling call =>
    split at h <;> cases h <;> exact .of_expects_none rfl
  case inside call =>
    obtain ⟨manager, -, rfl⟩ := Option.map_eq_some_iff.mp h
    apply Tracks.of_expects_none
    dsimp only
    split
    · cases call <;> rfl
    · rfl
  all_goals cases h

theorem hasFailed_stepCore {world next : World} {outside : Bool} (htracks : Tracks world)
    (h : world.stepCore outside = some next) :
    ¬ HasFailed next ↔ calledAsTested world (.core outside) := by
  cases hloop : world.loop with
  | calling call =>
    have hstate := htracks (tested call) (by rw [hloop]; rfl)
    simp only [World.stepCore, hloop] at h
    simp only [calledAsTested, hloop, LoopPlace.calling.injEq, forall_eq', ← hstate]
    split at h <;> rename_i hready <;> cases h
    · simpa [HasFailed] using (call_eq_ready_iff _ _).mp hready
    · simpa [HasFailed] using (call_eq_ready_iff _ _).not_left.mp hready
  | inside call =>
    simp only [World.stepCore, hloop] at h
    obtain ⟨manager, -, rfl⟩ := Option.map_eq_some_iff.mp h
    simp only [calledAsTested, hloop, HasFailed, reduceCtorEq, false_implies, implies_true, iff_true]
    split
    · cases call <;> simp [LoopPlace.after]
    · simp
  | finished | failed => simp [World.stepCore, hloop] at h
  | _ =>
    simp only [World.stepCore, hloop, World.callOut, Option.some.injEq] at h
    subst h
    simp only [calledAsTested, hloop, HasFailed, reduceCtorEq, false_implies, implies_true, iff_true]
    split <;> simp

/-- A loop that has failed stays so. -/
theorem survives_iff (events : List Event) (world : World)
    (hexec : machine.exec {} events = some world) :
    world.loop ≠ .failed .algorithmManagerException ↔
      machine.Guarded calledAsTested {} events := by
  refine Machine.exec_clear_iff HasFailed Tracks Machine.anyEvent ?_ (Tracks.of_expects_none rfl)
    nofun (Machine.guarded_anyEvent _ _) hexec
  intro state event next htracks _ hstep
  cases event with
  | manager event =>
    obtain ⟨hloop, hstate⟩ := stepManager_spec hstep
    refine ⟨?_, ?_, fun hclear => ?_⟩
    · intro expected hexpected
      rw [hloop] at hexpected
      exact hstate expected (htracks expected hexpected)
    · rw [HasFailed, HasFailed, hloop]
      exact id
    · rw [HasFailed, hloop]
      exact iff_of_true hclear trivial
  | sensors lidIsClosed dustBoxPresent =>
    cases hstep
    exact ⟨htracks, id, fun hclear => iff_of_true hclear trivial⟩
  | core outside =>
    refine ⟨htracks.stepCore hstep, fun hfailed => ?_, fun _ => hasFailed_stepCore htracks hstep⟩
    have hstuck : state.stepCore outside = none := by
      simp [World.stepCore, show state.loop = _ from hfailed]
    exact absurd (hstuck.symm.trans hstep) nofun

def byOthers (events : List AlgorithmManager.Event) : List Event := events.map .manager

/-- The client selects an algorithm and starts it, and the worker gets to `loop`. -/
def cleaningStarted : List Event :=
  byOthers ([.service (.setAlgorithm .smart), .serviceGoesOn false, .start] ++
    List.replicate 7 (.serviceGoesOn false) ++ [.callback 0 .returned]) ++
  List.replicate 3 (.core false)

/-- The lid is opened and closed again, and the client pauses and resumes while
the loop is on its way to `pause`. -/
def lidOpenedAndClosed : List Event :=
  cleaningStarted ++ List.replicate 2 (.core false) ++
  byOthers [.service (.pause .manualPause), .serviceGoesOn false, .serviceGoesOn false,
    .service .resume, .serviceGoesOn false] ++
  List.replicate 7 (.core false) ++ [.sensors true true] ++ List.replicate 7 (.core false)

theorem survives_after_lidOpenedAndClosed :
    ∃ world, machine.exec {} lidOpenedAndClosed = some world ∧
      world.manager.manager.state = .running ∧
      world.loop ≠ .failed .algorithmManagerException := by
  have hguard : machine.Guarded calledAsTested {} lidOpenedAndClosed := by
    decide +kernel
  have hexec : ∃ world, machine.exec {} lidOpenedAndClosed = some world ∧
      world.manager.manager.state = .running := ⟨_, rfl, rfl⟩
  obtain ⟨world, hexec, hstate⟩ := hexec
  exact ⟨world, hexec, hstate, (survives_iff lidOpenedAndClosed world hexec).mpr hguard⟩

/-- The client pauses between the test of the loop and its call. -/
def pausedMeanwhile : List Event :=
  cleaningStarted ++ List.replicate 2 (.core false) ++
  byOthers [.service (.pause .manualPause), .serviceGoesOn false, .serviceGoesOn false] ++
  [.core false]

theorem loop_fails_when_pausedMeanwhile :
    ¬ ∀ events world, machine.Guarded methodsAtomic {} events →
      machine.exec {} events = some world → world.loop ≠ .failed .algorithmManagerException := by
  intro hevery
  have hguard : machine.Guarded methodsAtomic {} pausedMeanwhile := by
    decide +kernel
  have hexec : ∃ world, machine.exec {} pausedMeanwhile = some world ∧
      world.loop = .failed .algorithmManagerException := ⟨_, rfl, rfl⟩
  obtain ⟨world, hexec, hfailed⟩ := hexec
  exact hevery pausedMeanwhile world hguard hexec hfailed

end VacuumCleaner.Core.CoreLoop
