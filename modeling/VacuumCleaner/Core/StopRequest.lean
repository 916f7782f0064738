import VacuumCleaner.Core.AlgorithmManager

/-! `pause` and `resume` test the state and write it later. A `stop` that falls
between the two is undone when the core thread goes on. -/
namespace VacuumCleaner.Core.StopRequest

open Lib AlgorithmLoop AlgorithmManager

/-- Behind the test of the state, in front of its write. -/
def isBehindTest : SidePlace → Bool
  | .pausing _ | .settingPaused | .resuming => true
  | .ready | .selecting _ => false

/-- Every step but the one in which `stop` makes the manager idle. -/
def beforeIdle (world : World) : Event → Prop
  | .serviceGoesOn _ => world.service ≠ .settingIdle
  | _ => True

/-- Where the service thread may stand after `stop` has set the state. -/
def isHarmless : Place → Bool
  | .side .ready | .testingStopped | .joining | .droppingThread | .droppingInfo | .settingIdle =>
    true
  | _ => false

/-- The state is STOPPED, and nobody is left who has tested another one. -/
structure Held (world : World) : Prop where
  state : world.manager.state = .stopped
  core : isBehindTest world.core = false
  service : isHarmless world.service = true

theorem call_of_stopped {manager : Manager} (hstate : manager.state = .stopped) (call : SideCall) :
    manager.call call = .ready := by
  cases call <;> simp [Manager.call, hstate]

theorem Held.core_step {world : World} {manager : Manager} {core : SidePlace} {raises : Bool}
    (hheld : Held world) (hside : world.manager.goOnSide raises world.core = some (manager, core)) :
    Held { world with manager, core } := by
  have hcore := hheld.core
  cases hplace : world.core with
  | ready =>
    rw [hplace] at hside
    cases hside
  | selecting name =>
    rw [hplace] at hside
    cases hside
    refine ⟨?_, rfl, hheld.service⟩
    cases raises <;> exact hheld.state
  | pausing | settingPaused | resuming =>
    rw [hplace] at hcore
    cases hcore

theorem Held.service_step {world : World} {manager : Manager} {service : Place} {raises : Bool}
    (hheld : Held world) (hguard : world.service ≠ .settingIdle)
    (hgoes : GoesOn world.manager raises world.service manager service) :
    Held { world with manager, service } := by
  have hservice := hheld.service
  generalize world.service = before at hgoes hservice hguard
  cases hgoes with
  | @side _ place _ hside =>
    cases place with
    | ready => cases hside
    | _ => cases hservice
  | alreadyStopped => exact ⟨hheld.state, hheld.core, rfl⟩
  | notStopped hstate => exact absurd hheld.state hstate
  | join hjoin => cases hjoin <;> exact ⟨hheld.state, hheld.core, rfl⟩
  | dropThread | noInfoToDrop | dropInfo => exact ⟨hheld.state, hheld.core, rfl⟩
  | becomeIdle => exact absurd rfl hguard
  | _ => cases hservice

/-- A worker writes its own place only. -/
theorem Held.worker_step {world : World} {manager : Manager} {index : Nat}
    {step : Thread → Option Thread} (hheld : Held world)
    (hstep : world.manager.stepThread index step = some manager) :
    Held { world with manager } := by
  obtain ⟨before, after, -, -, rfl⟩ := stepThread_cases hstep
  exact ⟨hheld.state, hheld.core, hheld.service⟩

theorem Held.step {world next : World} {event : Event} (hheld : Held world)
    (hguard : beforeIdle world event) (hstep : world.step event = some next) : Held next := by
  cases takes_of_step hstep with
  | core call =>
    refine ⟨hheld.state, ?_, hheld.service⟩
    rw [call_of_stopped hheld.state]
    rfl
  | coreGoesOn hside => exact hheld.core_step hside
  | service call =>
    refine ⟨hheld.state, hheld.core, ?_⟩
    rw [call_of_stopped hheld.state]
    rfl
  | startRefused | stopRefused | stop => exact ⟨hheld.state, hheld.core, rfl⟩
  | start _ hworking =>
    rw [hheld.state] at hworking
    cases hworking
  | serviceGoesOn hgoes => exact hheld.service_step hguard hgoes
  | workerTests hthread | callback hthread => exact hheld.worker_step hthread

theorem undone_of_isBehindTest (world : World) (hcore : isBehindTest world.core = true) :
    ∃ later, machine.Reach beforeIdle world later ∧ later.manager.state ≠ .stopped := by
  obtain ⟨manager, service, core⟩ := world
  cases core with
  | ready | selecting => cases hcore
  | pausing reason =>
    have hfirst : machine.step ⟨manager, service, .pausing reason⟩ (.coreGoesOn false) =
        some ⟨{ manager with pauseReason := some reason }, service, .settingPaused⟩ := rfl
    have hsecond : machine.step
        ⟨{ manager with pauseReason := some reason }, service, .settingPaused⟩ (.coreGoesOn false) =
        some ⟨{ manager with pauseReason := some reason, state := .paused }, service, .ready⟩ := rfl
    exact ⟨_, .head hfirst trivial (.one hsecond trivial), nofun⟩
  | settingPaused =>
    have hwrite : machine.step ⟨manager, service, .settingPaused⟩ (.coreGoesOn false) =
        some ⟨{ manager with state := .paused }, service, .ready⟩ := rfl
    exact ⟨_, .one hwrite trivial, nofun⟩
  | resuming =>
    have hwrite : machine.step ⟨manager, service, .resuming⟩ (.coreGoesOn false) =
        some ⟨{ manager with state := .running }, service, .ready⟩ := rfl
    exact ⟨_, .one hwrite trivial, nofun⟩

/-- Whatever has gone before, a `stop` that has set STOPPED keeps it until it
sets IDLE itself exactly when the core thread was not behind its test then. -/
theorem stopHolds_iff (world stopped : World) (raises : Bool)
    (hplace : world.service = .settingStopped)
    (hstep : machine.step world (.serviceGoesOn raises) = some stopped) :
    (∀ later, machine.Reach beforeIdle stopped later → later.manager.state = .stopped) ↔
      isBehindTest world.core = false := by
  have hstopped : stopped =
      ⟨{ world.manager with state := .stopped }, .joining, world.core⟩ := by
    simp only [machine, World.step, hplace, Manager.goOn, Option.map_some, Option.some.injEq]
      at hstep
    exact hstep.symm
  subst hstopped
  constructor
  · intro hholds
    by_contra hbehind
    obtain ⟨later, hrun, hstate⟩ := undone_of_isBehindTest
      ⟨{ world.manager with state := .stopped }, .joining, world.core⟩ (by simpa using hbehind)
    exact hstate (hholds later hrun)
  · intro hcore later hrun
    have hstart : Held ⟨{ world.manager with state := .stopped }, .joining, world.core⟩ :=
      ⟨rfl, hcore, rfl⟩
    have hheld : Held later := by
      apply hrun.invariant Held hstart
      intro state event next hheld hguard hnext
      exact hheld.step hguard hnext
    exact hheld.state

/-- A cleaning is started and its worker is in `loop` when `stop` is called. -/
def stopCalled : List Event :=
  [.core (.setAlgorithm .smart), .coreGoesOn false, .start] ++
    List.replicate 7 (.serviceGoesOn false) ++
  [.callback 0 .returned, .stop, .serviceGoesOn false]

theorem stopHolds_after_stopCalled :
    ∃ world stopped, machine.exec {} stopCalled = some world ∧
      machine.step world (.serviceGoesOn false) = some stopped ∧
      ∀ later, machine.Reach beforeIdle stopped later → later.manager.state = .stopped := by
  have hexec : ∃ world, machine.exec {} stopCalled = some world ∧
      world.service = .settingStopped ∧ world.core = .ready ∧
      ∃ stopped, machine.step world (.serviceGoesOn false) = some stopped :=
    ⟨_, rfl, rfl, rfl, _, rfl⟩
  obtain ⟨world, hexec, hplace, hcore, stopped, hstep⟩ := hexec
  refine ⟨world, stopped, hexec, hstep, ?_⟩
  exact (stopHolds_iff world stopped false hplace hstep).mpr (by rw [hcore]; rfl)

/-- The lid is found open, and the client calls `stop` before the core thread
gets to write. -/
def lidOpensAtStop : List Event :=
  [.core (.setAlgorithm .smart), .coreGoesOn false, .start] ++
    List.replicate 7 (.serviceGoesOn false) ++
  [.callback 0 .returned, .core (.pause .lidIsOpened), .stop, .serviceGoesOn false]

/-- The cleaning is paused, and `stop` waits for a worker that nobody stops. -/
theorem stop_undone_by_pause :
    ¬ ∀ world stopped raises, machine.Reach Machine.anyEvent {} world →
      world.service = .settingStopped →
      machine.step world (.serviceGoesOn raises) = some stopped →
      ∀ later, machine.Reach beforeIdle stopped later → later.manager.state = .stopped := by
  intro hevery
  have hexec : ∃ world stopped later, machine.exec {} lidOpensAtStop = some world ∧
      world.service = .settingStopped ∧
      machine.step world (.serviceGoesOn false) = some stopped ∧
      machine.exec stopped [.coreGoesOn false, .coreGoesOn false] = some later ∧
      stopped.service = .joining ∧ later.manager.state = .paused :=
    ⟨_, _, _, rfl, rfl, rfl, rfl, rfl, rfl⟩
  obtain ⟨world, stopped, later, hexec, hplace, hstep, hlater, hjoining, hpaused⟩ := hexec
  have hguard : machine.Guarded beforeIdle stopped [.coreGoesOn false, .coreGoesOn false] :=
    ⟨trivial, fun _ _ => ⟨trivial, fun _ _ => trivial⟩⟩
  have hstate := hevery world stopped false (Machine.reach_of_exec hexec) hplace hstep later
    (Machine.reach_of_exec_guarded hguard hlater)
  rw [hpaused] at hstate
  cases hstate

end VacuumCleaner.Core.StopRequest
