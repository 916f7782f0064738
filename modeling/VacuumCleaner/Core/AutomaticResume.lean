import VacuumCleaner.Core.CoreLoop

/-! When the core loop resumes a paused cleaning by itself. One reason is
remembered for two interlocks and for the client's own pause. -/
namespace VacuumCleaner.Core.AutomaticResume

open Lib AlgorithmLoop AlgorithmManager CoreLoop

/-- The robot is closed: nothing holds a cleaning back. -/
def Closed (world : CoreLoop.World) : Prop :=
  world.lidIsClosed = true ∧ world.dustBoxPresent = true

instance (world : CoreLoop.World) : Decidable (Closed world) := inferInstanceAs (Decidable (_ ∧ _))

/-- The loop has read a sensor in this iteration and may still act on it. -/
def actsOnReading : LoopPlace → Bool
  | .readingDustBox | .readingDustBoxReason | .readingDustBoxPresent | .calling _ | .inside _ =>
    true
  | _ => false

/-- Each iteration sees one reading of the sensors. -/
def oneReading (world : CoreLoop.World) : CoreLoop.Event → Prop
  | .sensors .. => actsOnReading world.loop = false
  | _ => True

instance (world : CoreLoop.World) : (event : CoreLoop.Event) → Decidable (oneReading world event)
  | .sensors .. => inferInstanceAs (Decidable (_ = _))
  | .manager _ | .core _ => .isTrue trivial

/-- Where the interlock of the remembered reason is restored, the other one is
not violated. -/
def otherInterlockHolds (world : CoreLoop.World) : CoreLoop.Event → Prop
  | .core _ =>
    (world.loop = .readingLidClosed → world.lidIsClosed = true → world.dustBoxPresent = true) ∧
      (world.loop = .readingDustBoxPresent → world.dustBoxPresent = true → world.lidIsClosed = true)
  | _ => True

instance (world : CoreLoop.World) :
    (event : CoreLoop.Event) → Decidable (otherInterlockHolds world event)
  | .core _ => inferInstanceAs (Decidable (_ ∧ _))
  | .manager _ | .sensors .. => .isTrue trivial

/-- Both conditions on a step. -/
def closedAtResume (world : CoreLoop.World) (event : CoreLoop.Event) : Prop :=
  oneReading world event ∧ otherInterlockHolds world event

instance (world : CoreLoop.World) (event : CoreLoop.Event) :
    Decidable (closedAtResume world event) := inferInstanceAs (Decidable (_ ∧ _))

/-- The loop is about to resume, or in the middle of it, only with the robot closed. -/
structure Inv (world : CoreLoop.World) : Prop where
  calling : world.loop = .calling .resume → Closed world
  resuming : world.manager.core = .resuming → (∃ call, world.loop = .inside call) ∧ Closed world

theorem stepManager_frame {world next : CoreLoop.World} {event : AlgorithmManager.Event}
    (h : world.stepManager event = some next) :
    next.loop = world.loop ∧ next.manager.core = world.manager.core ∧
      next.lidIsClosed = world.lidIsClosed ∧ next.dustBoxPresent = world.dustBoxPresent := by
  obtain ⟨hevent, h⟩ := Option.ite_none_left_eq_some.mp h
  obtain ⟨manager, hstep, rfl⟩ := Option.map_eq_some_iff.mp h
  refine ⟨rfl, ?_, rfl, rfl⟩
  cases takes_of_step hstep with
  | core | coreGoesOn => exact absurd rfl hevent
  | service | startRefused | start | stopRefused | stop | serviceGoesOn => rfl
  | workerTests | callback => rfl

theorem goOnSide_ne_resuming {manager next : Manager} {raises : Bool} {place place' : SidePlace}
    (h : manager.goOnSide raises place = some (next, place')) : place' ≠ .resuming := by
  cases place <;> cases h <;> simp

theorem Inv.manager {world next : CoreLoop.World} {event : AlgorithmManager.Event}
    (inv : Inv world) (h : world.stepManager event = some next) : Inv next := by
  obtain ⟨hloop, hcore, hlid, hbox⟩ := stepManager_frame h
  have hclosed : Closed next ↔ Closed world := by rw [Closed, Closed, hlid, hbox]
  constructor
  · rw [hloop, hclosed]
    exact inv.calling
  · rw [hloop, hcore, hclosed]
    exact inv.resuming

theorem Inv.sensors {world : CoreLoop.World} (inv : Inv world)
    (hreading : actsOnReading world.loop = false) (lidIsClosed dustBoxPresent : Bool) :
    Inv { world with lidIsClosed, dustBoxPresent } := by
  constructor
  · intro hcalling
    rw [show world.loop = .calling .resume from hcalling] at hreading
    cases hreading
  · intro hresuming
    obtain ⟨⟨call, hinside⟩, -⟩ := inv.resuming hresuming
    rw [hinside] at hreading
    cases hreading

theorem Inv.goTo {world : CoreLoop.World} {loop : LoopPlace} {lastWritten : Option State}
    (inv : Inv world) (hinside : ∀ call, world.loop ≠ .inside call)
    (hcalling : loop = .calling .resume → Closed world) :
    Inv { world with loop, lastWritten } := by
  refine ⟨hcalling, fun hresuming => ?_⟩
  obtain ⟨⟨call, hcall⟩, -⟩ := inv.resuming hresuming
  exact absurd hcall (hinside call)

theorem Inv.core {world next : CoreLoop.World} {outside : Bool} (inv : Inv world)
    (hother : otherInterlockHolds world (.core outside))
    (h : world.stepCore outside = some next) : Inv next := by
  obtain ⟨hlid, hbox⟩ := hother
  cases hloop : world.loop <;> simp only [CoreLoop.World.stepCore, hloop] at h
  case introducing | testingShutDown | handlingEvents | saying | ticking =>
    cases h
    apply inv.goTo (by simp [hloop])
    cases outside <;> simp
  case testingRunning | testingPaused | readingLid | readingDustBox | readingLidReason
      | readingDustBoxReason =>
    cases h
    apply inv.goTo (by simp [hloop])
    split <;> simp
  case readingLidClosed =>
    cases h
    apply inv.goTo (by simp [hloop])
    split
    · rename_i hclosed
      exact fun _ => ⟨hclosed, hlid hloop hclosed⟩
    · simp
  case readingDustBoxPresent =>
    cases h
    apply inv.goTo (by simp [hloop])
    split
    · rename_i hpresent
      exact fun _ => ⟨hbox hloop hpresent, hpresent⟩
    · simp
  case calling call =>
    split at h <;> cases h
    · exact inv.goTo (by simp [hloop]) (by simp)
    · refine ⟨by simp, fun hresuming => ⟨⟨call, rfl⟩, ?_⟩⟩
      cases call with
      | resume => exact inv.calling hloop
      | setAlgorithm | pause =>
        simp only [Manager.call] at hresuming
        split at hresuming <;> cases hresuming
  case inside call =>
    obtain ⟨manager, hstep, rfl⟩ := Option.map_eq_some_iff.mp h
    cases takes_of_step hstep with
    | coreGoesOn hside =>
      refine ⟨?_, fun hresuming => absurd hresuming (goOnSide_ne_resuming hside)⟩
      dsimp only
      split
      · cases call <;> simp [LoopPlace.after]
      · simp
  all_goals cases h

theorem Inv.step {world next : CoreLoop.World} {event : CoreLoop.Event} (inv : Inv world)
    (hguard : closedAtResume world event) (hstep : CoreLoop.machine.step world event = some next) :
    Inv next := by
  cases event with
  | manager event => exact inv.manager hstep
  | sensors lidIsClosed dustBoxPresent =>
    cases hstep
    exact inv.sensors hguard.1 lidIsClosed dustBoxPresent
  | core outside => exact inv.core hguard.2 hstep

theorem resuming_of_stepCore {world next : CoreLoop.World} {outside : Bool}
    (h : world.stepCore outside = some next) (hpaused : world.manager.manager.state = .paused)
    (hrunning : next.manager.manager.state = .running) :
    world.manager.core = .resuming ∧ (Closed next ↔ Closed world) := by
  have hkept : ∀ state, next.manager.manager.state = state →
      next.manager.manager.state = world.manager.manager.state → state = .paused := by
    intro state hstate hsame
    rw [← hstate, hsame, hpaused]
  cases hloop : world.loop <;> simp only [CoreLoop.World.stepCore, hloop] at h
  case calling call =>
    split at h <;> cases h <;> cases hkept _ hrunning rfl
  case inside call =>
    obtain ⟨manager, hstep, rfl⟩ := Option.map_eq_some_iff.mp h
    cases takes_of_step hstep with
    | @coreGoesOn _ after core hside =>
      refine ⟨?_, Iff.rfl⟩
      have hstate := state_goOnSide hside
      rw [show after.state = .running from hrunning, hpaused] at hstate
      cases hcore : world.manager.core with
      | resuming => rfl
      | _ => rw [hcore] at hstate; cases hstate
  case finished | failed => cases h
  all_goals
    cases h
    cases hkept _ hrunning rfl

/-- In a run in which the other interlock holds wherever the loop decides to
resume, it never resumes an open robot. -/
theorem resumes_only_closed (world next : CoreLoop.World) (outside : Bool)
    (hrun : CoreLoop.machine.Reach closedAtResume {} world)
    (hstep : CoreLoop.machine.step world (.core outside) = some next)
    (hpaused : world.manager.manager.state = .paused)
    (hrunning : next.manager.manager.state = .running) : Closed next := by
  have hstart : Inv {} := ⟨by simp, by simp⟩
  have inv : Inv world := hrun.invariant Inv hstart fun _ _ _ inv hguard hnext =>
    inv.step hguard hnext
  obtain ⟨hresuming, hclosed⟩ := resuming_of_stepCore hstep hpaused hrunning
  exact hclosed.mpr (inv.resuming hresuming).2

/-- The loop has made up its mind to resume. -/
def decides (world : CoreLoop.World) : Prop :=
  world.loop = .readingLidClosed ∧ world.lidIsClosed = true ∨
    world.loop = .readingDustBoxPresent ∧ world.dustBoxPresent = true ∨
    world.loop = .calling .resume

theorem resumes_of_decides {world : CoreLoop.World} (hdecides : decides world)
    (hpaused : world.manager.manager.state = .paused)
    (guard : CoreLoop.World → CoreLoop.Event → Prop)
    (hguard : ∀ other : CoreLoop.World, other.manager.service = world.manager.service →
      guard other (.core false)) :
    ∃ later, CoreLoop.machine.Reach guard world later ∧ later.manager.manager.state = .running ∧
      later.lidIsClosed = world.lidIsClosed ∧ later.dustBoxPresent = world.dustBoxPresent := by
  have hcalled : ∀ other : CoreLoop.World, other.loop = .calling .resume →
      other.manager = world.manager → ∃ later, CoreLoop.machine.Reach guard other later ∧
        later.manager.manager.state = .running ∧ later.lidIsClosed = other.lidIsClosed ∧
        later.dustBoxPresent = other.dustBoxPresent := by
    intro other hloop hmanager
    have hcall : other.manager.manager.call .resume = .resuming := by
      rw [Manager.call, hmanager, if_pos hpaused]
    let inside : CoreLoop.World :=
      { other with manager := { other.manager with core := .resuming }, loop := .inside .resume }
    have hfirst : CoreLoop.machine.step other (.core false) = some inside := by
      simp [CoreLoop.machine, CoreLoop.World.step, CoreLoop.World.stepCore, hloop, hcall, inside]
    have hsecond : CoreLoop.machine.step inside (.core false) = some { inside with
        manager := { inside.manager with
          manager := { inside.manager.manager with state := .running }, core := .ready }
        loop := .ticking } := rfl
    have hservice : other.manager.service = world.manager.service := by rw [hmanager]
    exact ⟨_, .head hfirst (hguard _ hservice) (.one hsecond (hguard _ hservice)), rfl, rfl, rfl⟩
  rcases hdecides with ⟨hloop, hclosed⟩ | ⟨hloop, hpresent⟩ | hloop
  · obtain ⟨later, hrun, hlater⟩ := hcalled { world with loop := .calling .resume } rfl rfl
    refine ⟨later, .head ?_ (hguard world rfl) hrun, hlater⟩
    simp [CoreLoop.machine, CoreLoop.World.step, CoreLoop.World.stepCore, hloop, hclosed]
  · obtain ⟨later, hrun, hlater⟩ := hcalled { world with loop := .calling .resume } rfl rfl
    refine ⟨later, .head ?_ (hguard world rfl) hrun, hlater⟩
    simp [CoreLoop.machine, CoreLoop.World.step, CoreLoop.World.stepCore, hloop, hpresent]
  · exact hcalled world hloop rfl

/-- A cleaning is started with the robot open, so that the loop pauses it for the
lid; then the sensors change, and the loop goes on to the end of `resume`. -/
def pausedForLid (lidIsClosed dustBoxPresent : Bool) : List CoreLoop.Event :=
  cleaningStarted ++ List.replicate 7 (.core false) ++ [.sensors lidIsClosed dustBoxPresent] ++
    List.replicate 7 (.core false)

theorem resumes_only_closed_after_lidClosed : ∃ world next,
    CoreLoop.machine.exec {} (pausedForLid true true) = some world ∧
      CoreLoop.machine.step world (.core false) = some next ∧
      next.manager.manager.state = .running ∧ Closed next := by
  have hguard : CoreLoop.machine.Guarded closedAtResume {} (pausedForLid true true) := by
    decide +kernel
  obtain ⟨world, next, hexec, hstep, hpaused, hrunning⟩ : ∃ world next,
      CoreLoop.machine.exec {} (pausedForLid true true) = some world ∧
        CoreLoop.machine.step world (.core false) = some next ∧
        world.manager.manager.state = .paused ∧ next.manager.manager.state = .running :=
    ⟨_, _, rfl, rfl, rfl, rfl⟩
  exact ⟨world, next, hexec, hstep, hrunning, resumes_only_closed world next false
    (Machine.reach_of_exec_guarded hguard hexec) hstep hpaused hrunning⟩

/-- The lid is closed while the dust box is out: the loop goes on cleaning. -/
theorem resumes_without_dustBox : ¬ ∀ world next outside,
    CoreLoop.machine.Reach (fun world event => oneReading world event ∧ methodsAtomic world event)
      {} world →
    CoreLoop.machine.step world (.core outside) = some next →
    world.manager.manager.state = .paused → next.manager.manager.state = .running →
    Closed next := by
  intro hevery
  have hguard : CoreLoop.machine.Guarded
      (fun world event => oneReading world event ∧ methodsAtomic world event) {}
      (pausedForLid true false) := by
    decide +kernel
  obtain ⟨world, next, hexec, hstep, hpaused, hrunning, hout⟩ : ∃ world next,
      CoreLoop.machine.exec {} (pausedForLid true false) = some world ∧
        CoreLoop.machine.step world (.core false) = some next ∧
        world.manager.manager.state = .paused ∧ next.manager.manager.state = .running ∧
        next.dustBoxPresent = false := ⟨_, _, rfl, rfl, rfl, rfl, rfl⟩
  have hclosed := hevery world next false (Machine.reach_of_exec_guarded hguard hexec) hstep
    hpaused hrunning
  rw [Closed, hout] at hclosed
  cases hclosed.2

/-! The client's own pause. -/

/-- The client's commands that end a pause where they are accepted. -/
def endsPause (world : CoreLoop.World) : CoreLoop.Event → Prop
  | .manager (.service .resume) => world.manager.manager.state = .paused
  | .manager .stop => world.manager.manager.state ≠ .idle
  | _ => False

/-- The methods of the manager are atomic, and no command of the client ends the pause. -/
def leftAlone (world : CoreLoop.World) (event : CoreLoop.Event) : Prop :=
  methodsAtomic world event ∧ ¬ endsPause world event

/-- The loop is behind its tests of the state and of the reason. -/
def hasTested : LoopPlace → Bool
  | .readingLidClosed | .readingDustBoxPresent | .calling .resume => true
  | _ => false

/-- The cleaning is paused by the client. -/
def PausedByClient (world : CoreLoop.World) : Prop :=
  world.manager.manager.state = .paused ∧
    world.manager.manager.pauseReason = some .manualPause

/-- Nobody is left who has tested another state or another reason. -/
structure Held (world : CoreLoop.World) : Prop where
  paused : PausedByClient world
  service : world.manager.service = .side .ready
  core : world.manager.core = .ready
  loop : hasTested world.loop = false

theorem Held.manager {world next : CoreLoop.World} {event : AlgorithmManager.Event}
    (held : Held world) (hleft : ¬ endsPause world (.manager event))
    (h : world.stepManager event = some next) : Held next := by
  obtain ⟨hevent, h⟩ := Option.ite_none_left_eq_some.mp h
  obtain ⟨manager, hstep, rfl⟩ := Option.map_eq_some_iff.mp h
  obtain ⟨⟨hstate, hreason⟩, hservice, hcore, hloop⟩ := held
  cases takes_of_step hstep with
  | core | coreGoesOn => exact absurd rfl hevent
  | service call =>
    cases call with
    | resume => exact absurd hstate hleft
    | setAlgorithm | pause =>
      refine ⟨⟨hstate, hreason⟩, ?_, hcore, hloop⟩
      simp [Manager.call, hstate]
  | startRefused | stopRefused => exact ⟨⟨hstate, hreason⟩, rfl, hcore, hloop⟩
  | start _ hworking =>
    rw [hstate] at hworking
    cases hworking
  | stop _ hidle => exact absurd hidle hleft
  | serviceGoesOn hgoes =>
    rw [hservice] at hgoes
    cases hgoes with
    | side hside => cases hside
  | workerTests hthread | callback hthread =>
    obtain ⟨before, after, -, -, rfl⟩ := stepThread_cases hthread
    exact ⟨⟨hstate, hreason⟩, hservice, hcore, hloop⟩

theorem Held.core_step {world next : CoreLoop.World} {outside : Bool} (held : Held world)
    (h : world.stepCore outside = some next) : Held next := by
  have hgoTo : ∀ (loop : LoopPlace) (lastWritten : Option State), hasTested loop = false →
      Held { world with loop, lastWritten } := fun loop _ hloop =>
    ⟨held.paused, held.service, held.core, hloop⟩
  obtain ⟨hstate, hreason⟩ := held.paused
  have htested := held.loop
  cases hloop : world.loop <;> simp only [CoreLoop.World.stepCore, hloop] at h
  case introducing | testingShutDown | handlingEvents | saying | ticking =>
    cases h
    apply hgoTo
    cases outside <;> rfl
  case testingRunning | testingPaused | readingLid | readingDustBox =>
    cases h
    apply hgoTo
    split <;> rfl
  case readingLidReason | readingDustBoxReason =>
    rw [hreason] at h
    cases h
    exact hgoTo _ _ rfl
  case calling call =>
    rw [hloop] at htested
    have hready : world.manager.manager.call call = .ready := by
      cases call with
      | resume => cases htested
      | setAlgorithm | pause => simp [Manager.call, hstate]
    rw [hready, if_pos rfl] at h
    cases h
    exact hgoTo _ _ rfl
  case inside call =>
    obtain ⟨manager, hstep, rfl⟩ := Option.map_eq_some_iff.mp h
    cases takes_of_step hstep with
    | coreGoesOn hside =>
      rw [held.core] at hside
      cases hside
  case readingLidClosed | readingDustBoxPresent =>
    rw [hloop] at htested
    cases htested
  all_goals cases h

theorem Held.step {world next : CoreLoop.World} {event : CoreLoop.Event} (held : Held world)
    (hguard : leftAlone world event) (hstep : CoreLoop.machine.step world event = some next) :
    Held next := by
  cases event with
  | manager event => exact held.manager hguard.2 hstep
  | sensors lidIsClosed dustBoxPresent =>
    cases hstep
    exact ⟨held.paused, held.service, held.core, held.loop⟩
  | core outside => exact held.core_step hstep

/-- Once both interlocks are restored, the tested reason is that of an earlier pause. -/
theorem ended_of_hasTested {world : CoreLoop.World} (htested : hasTested world.loop = true)
    (hstate : world.manager.manager.state = .paused) (hservice : world.manager.service = .side .ready)
    (hcore : world.manager.core = .ready) :
    ∃ later, CoreLoop.machine.Reach leftAlone world later ∧ ¬ PausedByClient later := by
  let closed : CoreLoop.World := { world with lidIsClosed := true, dustBoxPresent := true }
  have hsensors : CoreLoop.machine.step world (.sensors true true) = some closed := rfl
  have hsensorsLeft : leftAlone world (.sensors true true) := by
    simp [leftAlone, methodsAtomic, hcore, hservice, Place.isOperating, endsPause]
  have hdecides : decides closed := by
    unfold hasTested at htested
    split at htested
    · rename_i hloop
      exact .inl ⟨hloop, rfl⟩
    · rename_i hloop
      exact .inr (.inl ⟨hloop, rfl⟩)
    · rename_i hloop
      exact .inr (.inr hloop)
    · cases htested
  obtain ⟨later, hrun, hrunning, -⟩ := resumes_of_decides hdecides hstate leftAlone
    fun other hother => by
      have hidle : other.manager.service = .side .ready := hother.trans hservice
      simp [leftAlone, methodsAtomic, isCoreStep, hidle, Place.isOperating, endsPause]
  refine ⟨later, .head hsensors hsensorsLeft hrun, fun hpaused => ?_⟩
  rw [hpaused.1] at hrunning
  cases hrunning

theorem pause_takes_effect {world paused : CoreLoop.World} {raises : Bool}
    (hplace : world.manager.service = .side .settingPaused)
    (hreason : world.manager.manager.pauseReason = some .manualPause)
    (hstep : CoreLoop.machine.step world (.manager (.serviceGoesOn raises)) = some paused) :
    PausedByClient paused ∧ paused.manager.service = .side .ready ∧
      paused.manager.core = world.manager.core ∧ paused.loop = world.loop := by
  have h : world.stepManager (.serviceGoesOn raises) = some paused := hstep
  simp only [CoreLoop.World.stepManager, isCoreEvent, AlgorithmManager.World.step, hplace,
    Manager.goOn, Manager.goOnSide, Option.map_some, Bool.false_eq_true, if_false,
    Option.some.injEq] at h
  subst h
  exact ⟨⟨rfl, hreason⟩, rfl, rfl, rfl⟩

/-- A pause of the client is kept until the client ends it exactly when the loop
is not behind its tests at the moment the pause takes effect. -/
theorem manualPause_kept_iff (world paused : CoreLoop.World) (raises : Bool)
    (hplace : world.manager.service = .side .settingPaused)
    (hreason : world.manager.manager.pauseReason = some .manualPause)
    (hatomic : world.manager.core = .ready)
    (hstep : CoreLoop.machine.step world (.manager (.serviceGoesOn raises)) = some paused) :
    (∀ later, CoreLoop.machine.Reach leftAlone paused later → PausedByClient later) ↔
      hasTested world.loop = false := by
  obtain ⟨hpaused, hservice, hcore, hloop⟩ := pause_takes_effect hplace hreason hstep
  rw [hatomic] at hcore
  rw [← hloop]
  constructor
  · intro hkept
    by_contra htested
    have htrue : hasTested paused.loop = true := by simpa using htested
    obtain ⟨later, hrun, hended⟩ := ended_of_hasTested htrue hpaused.1 hservice hcore
    exact hended (hkept later hrun)
  · intro htested later hrun
    have hstart : Held paused := ⟨hpaused, hservice, hcore, htested⟩
    have held : Held later := by
      apply hrun.invariant Held hstart
      intro state event next held hguard hnext
      exact held.step hguard hnext
    exact held.paused

/-- A cleaning is started and the client calls `pause`, up to its last write. -/
def pauseCalled : List CoreLoop.Event :=
  cleaningStarted ++ byOthers [.service (.pause .manualPause), .serviceGoesOn false]

theorem manualPause_kept_after_pauseCalled : ∃ world paused,
    CoreLoop.machine.exec {} pauseCalled = some world ∧
      CoreLoop.machine.step world (.manager (.serviceGoesOn false)) = some paused ∧
      ∀ later, CoreLoop.machine.Reach leftAlone paused later → PausedByClient later := by
  obtain ⟨world, paused, hexec, hplace, hreason, hatomic, htested, hstep⟩ : ∃ world paused,
      CoreLoop.machine.exec {} pauseCalled = some world ∧
        world.manager.service = .side .settingPaused ∧
        world.manager.manager.pauseReason = some .manualPause ∧ world.manager.core = .ready ∧
        hasTested world.loop = false ∧
        CoreLoop.machine.step world (.manager (.serviceGoesOn false)) = some paused :=
    ⟨_, _, rfl, rfl, rfl, rfl, rfl, rfl⟩
  exact ⟨world, paused, hexec, hstep,
    (manualPause_kept_iff world paused false hplace hreason hatomic hstep).mpr htested⟩

/-- The client resumes a cleaning that the loop has paused, and pauses it itself,
while the loop is between the reason and the sensor. -/
def pausedAnew : List CoreLoop.Event :=
  cleaningStarted ++ List.replicate 12 (.core false) ++
  byOthers [.service .resume, .serviceGoesOn false, .service (.pause .manualPause),
    .serviceGoesOn false]

theorem manualPause_ended_by_loop : ¬ ∀ world paused raises,
    CoreLoop.machine.Reach methodsAtomic {} world → world.manager.service = .side .settingPaused →
    world.manager.manager.pauseReason = some .manualPause → world.manager.core = .ready →
    CoreLoop.machine.step world (.manager (.serviceGoesOn raises)) = some paused →
    ∀ later, CoreLoop.machine.Reach leftAlone paused later → PausedByClient later := by
  intro hevery
  have hguard : CoreLoop.machine.Guarded methodsAtomic {} pausedAnew := by
    decide +kernel
  obtain ⟨world, paused, hexec, hplace, hreason, hatomic, htested, hstep⟩ : ∃ world paused,
      CoreLoop.machine.exec {} pausedAnew = some world ∧
        world.manager.service = .side .settingPaused ∧
        world.manager.manager.pauseReason = some .manualPause ∧ world.manager.core = .ready ∧
        hasTested world.loop = true ∧
        CoreLoop.machine.step world (.manager (.serviceGoesOn false)) = some paused :=
    ⟨_, _, rfl, rfl, rfl, rfl, rfl, rfl⟩
  obtain ⟨hpaused, hservice, hcore, hloop⟩ := pause_takes_effect hplace hreason hstep
  obtain ⟨later, hrun, hended⟩ := ended_of_hasTested (by rw [hloop]; exact htested) hpaused.1
    hservice (hcore.trans hatomic)
  exact hended (hevery world paused false (Machine.reach_of_exec_guarded hguard hexec) hplace hreason
    hatomic hstep later hrun)

end VacuumCleaner.Core.AutomaticResume
