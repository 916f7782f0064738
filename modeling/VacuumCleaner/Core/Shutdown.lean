import VacuumCleaner.Core.Algorithms

/-! `_shut_down_core` beside the worker thread. It zeroes the four motors, but
it sends no stop to the wheels and leaves the worker running. -/
namespace VacuumCleaner.Core.Shutdown

open Lib AlgorithmLoop Robot Models Algorithms Emitter

inductive Motor
  | vacuum | mainBrush | leftBrush | rightBrush
  deriving DecidableEq, Repr

def motorValue : Motor → Command → Option Int
  | .vacuum, .setVacuumMotor value => some value
  | .mainBrush, .setMainBrushMotor value => some value
  | .leftBrush, .setLeftBrushMotor value => some value
  | .rightBrush, .setRightBrushMotor value => some value
  | _, _ => none

def isMovement : Command → Bool
  | .walk .. | .move .. | .turn .. | .rotate .. => true
  | _ => false

def lastMotorValue (motor : Motor) (sent : List Command) : Option Int :=
  (sent.filterMap (motorValue motor)).getLast?

def lastMovement (sent : List Command) : Option Command := (sent.filter isMovement).getLast?

/-- The last movement, if there was one, is a stop. -/
def Stopped (sent : List Command) : Prop :=
  ∀ command, lastMovement sent = some command → ∃ withBreak, command = .stopMovement withBreak

/-- The calls between are `expect`, the voice and a sleep. -/
def beforeTimer : List (Item Command) :=
  [.send (.setVacuumMotor 0), .call, .send (.setMainBrushMotor 0), .call,
    .send (.setLeftBrushMotor 0), .call, .send (.setRightBrushMotor 0), .call, .call,
    .send .setShuttingDownLed, .call, .call]

def timer : Command := .setTimerToCutOffPower 15

/-- `expect`, a sleep and the shutdown of the system. -/
def afterTimer : List (Item Command) := [.call, .call, .call]

def shutDownCore : List (Item Command) := beforeTimer ++ .send timer :: afterTimer

/-- In every interleaving, nothing moves when the timer is sent, and no movement
is sent after it. -/
def LeavesStill (algorithm : Algorithm) (state : State) (history : List Command)
    (cleaner : Cleaner) : Prop :=
  ∀ scene, (emitter algorithm state).machine.Reach Machine.anyEvent
      ⟨history, shutDownCore, cleaner⟩ scene → scene.script = .send timer :: afterTimer →
    (∀ motor, lastMotorValue motor scene.sent = some 0) ∧ Stopped scene.sent ∧
    ∀ later after, (emitter algorithm state).machine.Reach Machine.anyEvent
        ⟨scene.sent ++ [timer], afterTimer, scene.worker⟩ later →
      later.sent = scene.sent ++ [timer] ++ after → ∀ command ∈ after, isMovement command = false

/-- No movement, and no motor set to anything but 0. -/
def isHarmless : Command → Bool
  | .walk .. | .move .. | .turn .. | .rotate .. => false
  | .setVacuumMotor value | .setMainBrushMotor value | .setLeftBrushMotor value
  | .setRightBrushMotor value => value = 0
  | _ => true

def areHarmless (ops : List Op) : Bool :=
  ops.all fun
    | .send command => isHarmless command
    | .awaitAndCheck => false
    | .expect | .setIsLowerSpeed _ => true

/-- In these states a worker leaves `_block_while_is_paused`. -/
def wakes : State → Bool
  | .running | .stopped => true
  | .idle | .paused => false

/-- The worker has nothing harmful left to send as long as the state stays: its
thread is over, it waits in a pause, or it is at the end of `on_finish`. -/
def isSettled (algorithm : Algorithm) (state : State) (cleaner : Cleaner) : Bool :=
  match algorithm, cleaner.worker with
  | _, .unstarted | _, .ended | _, .died => true
  | .smart, .inside _ => areHarmless cleaner.ops
  | .smart, _ => true
  | .simple _, .inside .onFinish => areHarmless cleaner.ops
  | .simple _, .inside .onPause =>
    areHarmless cleaner.ops && !wakes state
  | .simple _, .blockedRunning | .simple _, .blockedStopped => !wakes state
  | .simple _, _ => false

section History

theorem isHarmless_iff {command : Command} : isHarmless command = true ↔
    isMovement command = false ∧
      ∀ motor value, motorValue motor command = some value → value = 0 := by
  cases command with
  | setVacuumMotor value | setMainBrushMotor value | setLeftBrushMotor value
  | setRightBrushMotor value =>
    constructor
    · intro h
      refine ⟨rfl, fun motor other hvalue => ?_⟩
      cases motor <;> cases hvalue
      simpa [isHarmless] using h
    · rintro ⟨-, h⟩
      have hzero : value = 0 := by
        first
        | exact h .vacuum value rfl
        | exact h .mainBrush value rfl
        | exact h .leftBrush value rfl
        | exact h .rightBrush value rfl
      simp [isHarmless, hzero]
  | walk | move | turn | rotate => simp [isHarmless, isMovement]
  | _ =>
    refine ⟨fun _ => ⟨rfl, fun motor value hvalue => ?_⟩, fun _ => rfl⟩
    cases motor <;> cases hvalue

theorem lastMovement_append {sent added : List Command}
    (h : ∀ command ∈ added, isMovement command = false) :
    lastMovement (sent ++ added) = lastMovement sent := by
  have hnone : added.filter isMovement = [] := by
    rw [List.filter_eq_nil_iff]
    intro command hcommand
    simp [h command hcommand]
  rw [lastMovement, List.filter_append, hnone, List.append_nil, lastMovement]

theorem lastMotorValue_append {motor : Motor} {sent added : List Command} {off : Command}
    (hoff : off ∈ added) (hvalue : motorValue motor off = some 0)
    (hall : ∀ command ∈ added, ∀ value, motorValue motor command = some value → value = 0) :
    lastMotorValue motor (sent ++ added) = some 0 := by
  have hmem : (0 : Int) ∈ added.filterMap (motorValue motor) :=
    List.mem_filterMap.mpr ⟨off, hoff, hvalue⟩
  have hne : added.filterMap (motorValue motor) ≠ [] := List.ne_nil_of_mem hmem
  rw [lastMotorValue, List.filterMap_append, List.getLast?_append_of_ne_nil _ hne,
    List.getLast?_eq_getLast_of_ne_nil hne]
  obtain ⟨command, hcommand, hlast⟩ := List.mem_filterMap.mp (List.getLast_mem hne)
  rw [hall command hcommand _ hlast]

theorem lastMotorValue_snoc {motor : Motor} {sent : List Command} {command : Command} {value : Int}
    (h : motorValue motor command = some value) :
    lastMotorValue motor (sent ++ [command]) = some value := by
  simp [lastMotorValue, h]

def commands (ops : List Op) : List Command :=
  ops.filterMap fun
    | .send command => some command
    | _ => none

/-- The end of a cleaning stops the wheels as well, which the shutdown does not. -/
theorem onFinish_releases (args : Arguments) (history : List Command) :
    (∀ motor, lastMotorValue motor
        (history ++ commands ((Algorithm.simple args).opening .onFinish)) = some 0) ∧
      Stopped (history ++ commands ((Algorithm.simple args).opening .onFinish)) := by
  have hmovements : (commands ((Algorithm.simple args).opening .onFinish)).filter isMovement =
      [.stopMovement true] := rfl
  have hvalues : ∀ motor, (commands ((Algorithm.simple args).opening .onFinish)).filterMap
      (motorValue motor) = [0] := by
    intro motor
    cases motor <;> rfl
  constructor
  · intro motor
    rw [lastMotorValue, List.filterMap_append, hvalues, List.getLast?_concat]
  · intro command hlast
    rw [lastMovement, List.filter_append, hmovements, List.getLast?_concat] at hlast
    exact ⟨true, (Option.some.inj hlast).symm⟩

theorem isHarmless_of_mem_shutDownCore :
    ∀ command ∈ sends shutDownCore, isHarmless command = true := by
  decide

theorem motor_off_of_beforeTimer (motor : Motor) :
    ∃ command ∈ sends beforeTimer, motorValue motor command = some 0 := by
  cases motor
  · exact ⟨.setVacuumMotor 0, by decide, rfl⟩
  · exact ⟨.setMainBrushMotor 0, by decide, rfl⟩
  · exact ⟨.setLeftBrushMotor 0, by decide, rfl⟩
  · exact ⟨.setRightBrushMotor 0, by decide, rfl⟩

theorem reach_timer (algorithm : Algorithm) (state : State) (history : List Command)
    (cleaner : Cleaner) : (emitter algorithm state).machine.Reach Machine.anyEvent
      ⟨history, shutDownCore, cleaner⟩
      ⟨history ++ sends beforeTimer, .send timer :: afterTimer, cleaner⟩ :=
  reach_script history beforeTimer (.send timer :: afterTimer) cleaner

variable {algorithm : Algorithm} {state : State} {history : List Command} {cleaner : Cleaner}

theorem LeavesStill.stopped (h : LeavesStill algorithm state history cleaner) :
    Stopped history := by
  have hrun := reach_timer algorithm state history cleaner
  have hstopped := (h _ hrun rfl).2.1
  have hsame : lastMovement (history ++ sends beforeTimer) = lastMovement history :=
    lastMovement_append (by decide)
  intro command hlast
  exact hstopped command (hsame.trans hlast)

/-- Whatever the worker can send, it can send behind the timer, and between the
zeros and the timer. -/
theorem LeavesStill.harmless (h : LeavesStill algorithm state history cleaner) {command : Command}
    (hemit : (emitter algorithm state).MayEmit cleaner command) : isHarmless command = true := by
  have hrun := reach_timer algorithm state history cleaner
  rw [isHarmless_iff]
  constructor
  · obtain ⟨worker, emitted, hlater⟩ :=
      hemit.reach (history ++ sends beforeTimer ++ [timer]) afterTimer
    apply (h _ hrun rfl).2.2 _ (emitted ++ [command]) hlater
    · simp
    · simp
  · intro motor value hvalue
    obtain ⟨worker, emitted, hlater⟩ :=
      hemit.reach (history ++ sends beforeTimer) (.send timer :: afterTimer)
    have hlast := (h _ (hrun.trans hlater) rfl).1 motor
    rw [lastMotorValue_snoc hvalue] at hlast
    exact Option.some.inj hlast

theorem leavesStill_of_harmless (hstopped : Stopped history)
    (hharmless : ∀ command, (emitter algorithm state).MayEmit cleaner command →
      isHarmless command = true) : LeavesStill algorithm state history cleaner := by
  intro scene hrun hscript
  obtain ⟨added, hadded⟩ := added_of_reach hrun
  have hall : ∀ command ∈ added, isHarmless command = true := by
    intro command hcommand
    rcases hadded.source command hcommand with hcore | hworker
    · exact isHarmless_of_mem_shutDownCore command hcore
    · exact hharmless command hworker
  obtain ⟨items, hitems, hsent⟩ := hadded.past.resolve_left (by rw [hscript]; nofun)
  rw [hscript] at hitems
  have hbefore : beforeTimer = items := List.append_cancel_right hitems
  subst hbefore
  rw [hadded.sent]
  refine ⟨fun motor => ?_, ?_, ?_⟩
  · obtain ⟨off, hoff, hvalue⟩ := motor_off_of_beforeTimer motor
    apply lastMotorValue_append (hsent off hoff) hvalue
    exact fun command hcommand => (isHarmless_iff.mp (hall command hcommand)).2 motor
  · intro command hlast
    rw [lastMovement_append fun command hcommand =>
      (isHarmless_iff.mp (hall command hcommand)).1] at hlast
    exact hstopped command hlast
  · intro later after hlater hafter command hcommand
    obtain ⟨rest, hrest⟩ := added_of_reach hlater
    have hsame : after = rest := by
      rw [hrest.sent] at hafter
      exact (List.append_cancel_left hafter).symm
    subst hsame
    rcases hrest.source command hcommand with hcore | hworker
    · cases hcore
    · exact (isHarmless_iff.mp (hharmless command (hadded.rest command hworker))).1

end History

/-- The worker may still send something harmful. -/
def MayHarm (algorithm : Algorithm) (state : State) (cleaner : Cleaner) : Prop :=
  ∃ command, (emitter algorithm state).MayEmit cleaner command ∧ isHarmless command = false

section Settled

variable {algorithm : Algorithm} {state : State} {cleaner next : Cleaner}

theorem MayHarm.later (event : Event) {emitted : Option Command}
    (hstep : cleaner.step algorithm state event = some (next, emitted))
    (h : MayHarm algorithm state next) : MayHarm algorithm state cleaner := by
  obtain ⟨command, hemit, hharm⟩ := h
  exact ⟨command, .later hstep hemit, hharm⟩

theorem MayHarm.now (event : Event) {command : Command}
    (hstep : cleaner.step algorithm state event = some (next, some command))
    (hharm : isHarmless command = false) : MayHarm algorithm state cleaner :=
  ⟨command, .now hstep, hharm⟩

theorem MayHarm.tested (worker : Worker) (htest : cleaner.worker.test state = some worker)
    (h : MayHarm algorithm state (cleaner.enter algorithm worker)) :
    MayHarm algorithm state cleaner := by
  have hstep : cleaner.step algorithm state .tests =
      some (cleaner.enter algorithm worker, none) := by
    simp [Cleaner.step, htest]
  exact .later .tests hstep h

theorem MayHarm.decided {callback : Callback} (data : A1Data) (draw : Draw)
    (hworker : cleaner.worker = .inside callback) (hops : cleaner.ops = [])
    (hdecides : cleaner.decides algorithm state callback data draw = some next)
    (h : MayHarm algorithm state next) : MayHarm algorithm state cleaner := by
  have hstep : cleaner.step algorithm state (.decides data draw) = some (next, none) := by
    simp [Cleaner.step, hworker, hops, hdecides]
  exact .later (.decides data draw) hstep h

theorem MayHarm.drain {callback : Callback} (hworker : cleaner.worker = .inside callback)
    (h : ∀ isLowerSpeed,
      MayHarm algorithm state { cleaner with ops := [], isLowerSpeed }) :
    MayHarm algorithm state cleaner := by
  obtain ⟨worker, ops, label, isLowerSpeed⟩ := cleaner
  subst hworker
  induction ops generalizing isLowerSpeed with
  | nil => exact h isLowerSpeed
  | cons op ops ih =>
    cases op with
    | setIsLowerSpeed value => exact .later (.goesOn false false) rfl (ih value h)
    | send | expect | awaitAndCheck => exact .later (.goesOn false false) rfl (ih isLowerSpeed h)

theorem mayHarm_of_ops {callback : Callback} (hworker : cleaner.worker = .inside callback)
    (hops : areHarmless cleaner.ops = false) : MayHarm algorithm state cleaner := by
  obtain ⟨worker, ops, label, isLowerSpeed⟩ := cleaner
  subst hworker
  induction ops generalizing isLowerSpeed with
  | nil => cases hops
  | cons op ops ih =>
    cases op with
    | send command =>
      cases hcommand : isHarmless command with
      | false => exact .now (.goesOn false false) rfl hcommand
      | true =>
        have hrest : areHarmless ops = false := by simpa [areHarmless, hcommand] using hops
        exact .later (.goesOn false false) rfl (ih isLowerSpeed hrest)
    | expect => exact .later (.goesOn false false) rfl (ih isLowerSpeed hops)
    | setIsLowerSpeed value => exact .later (.goesOn false false) rfl (ih value hops)
    | awaitAndCheck => exact .now (.goesOn false true) rfl rfl

end Settled

/-! Every place of `Simple` but those of `isSettled` leads to a harmful call. -/
section Simple

variable {args : Arguments} {state : State} {cleaner : Cleaner}

theorem mayHarm_of_onPause : MayHarm (.simple args) state
    (cleaner.enter (.simple args) (.inside .onPause)) :=
  mayHarm_of_ops rfl rfl

theorem mayHarm_of_onFinish : MayHarm (.simple args) state
    (cleaner.enter (.simple args) (.inside .onFinish)) :=
  mayHarm_of_ops rfl rfl

theorem mayHarm_of_onResume : MayHarm (.simple args) state
    (cleaner.enter (.simple args) (.inside .onResume)) :=
  mayHarm_of_ops rfl rfl

theorem mayHarm_of_decision {ops : List Op} {label : Label} (data : A1Data) (draw : Draw)
    (hworker : cleaner.worker = .inside .loop) (hops : cleaner.ops = [])
    (hdecide : args.decide state cleaner.isLowerSpeed data draw cleaner.label =
      some (ops, some label))
    (h : MayHarm (.simple args) state { cleaner with ops, label }) :
    MayHarm (.simple args) state cleaner := by
  apply MayHarm.decided data draw hworker hops _ h
  simp [Cleaner.decides, Algorithm.decide, hdecide]

theorem mayHarm_of_decided_ops {ops : List Op} {label : Label} (data : A1Data) (draw : Draw)
    (hworker : cleaner.worker = .inside .loop) (hops : cleaner.ops = [])
    (hdecide : args.decide state cleaner.isLowerSpeed data draw cleaner.label =
      some (ops, some label))
    (hharm : areHarmless ops = false) : MayHarm (.simple args) state cleaner :=
  mayHarm_of_decision data draw hworker hops hdecide (mayHarm_of_ops hworker hharm)

theorem mayHarm_of_walk (hworker : cleaner.worker = .inside .loop) (hops : cleaner.ops = [])
    (hlabel : cleaner.label = .outerTest) (hstate : state.isBreakEvent = false) :
    MayHarm (.simple args) state cleaner := by
  apply mayHarm_of_decided_ops {} ⟨true, 10⟩ hworker hops
  · rw [hlabel, Arguments.decide, hstate]
    rfl
  · rfl

theorem mayHarm_of_checkingStopped_open (hworker : cleaner.worker = .checkingStopped)
    (hstate : state ≠ .paused) : MayHarm (.simple args) state cleaner := by
  by_cases hstopped : state = .stopped
  · apply MayHarm.tested (.inside .onFinish)
    · simp [hworker, Worker.test, hstopped]
    · exact mayHarm_of_onFinish
  · apply MayHarm.tested (.inside .loop)
    · simp [hworker, Worker.test, hstopped]
    · apply mayHarm_of_walk rfl rfl rfl
      cases state <;> first | rfl | contradiction

theorem mayHarm_of_checkingPaused (hworker : cleaner.worker = .checkingPaused) :
    MayHarm (.simple args) state cleaner := by
  by_cases hpaused : state = .paused
  · apply MayHarm.tested (.inside .onPause)
    · simp [hworker, Worker.test, hpaused]
    · exact mayHarm_of_onPause
  · apply MayHarm.tested .checkingStopped
    · simp [hworker, Worker.test, hpaused]
    · exact mayHarm_of_checkingStopped_open rfl hpaused

theorem mayHarm_of_outerTest (hworker : cleaner.worker = .inside .loop) (hops : cleaner.ops = [])
    (hlabel : cleaner.label = .outerTest) : MayHarm (.simple args) state cleaner := by
  cases hstate : state.isBreakEvent with
  | false => exact mayHarm_of_walk hworker hops hlabel hstate
  | true =>
    apply MayHarm.decided {} ⟨true, 10⟩ hworker hops
    · simp only [Cleaner.decides, Algorithm.decide, hlabel, Arguments.decide, hstate]
      rfl
    · exact mayHarm_of_checkingPaused rfl

theorem mayHarm_of_checkingStopped (hworker : cleaner.worker = .checkingStopped) :
    MayHarm (.simple args) state cleaner := by
  by_cases hpaused : state = .paused
  · apply MayHarm.tested (.inside .loop)
    · simp [hworker, Worker.test, hpaused]
    · exact mayHarm_of_outerTest rfl rfl rfl
  · exact mayHarm_of_checkingStopped_open hworker hpaused

theorem mayHarm_of_correctSpeed (hworker : cleaner.worker = .inside .loop)
    (hops : cleaner.ops = []) (hlabel : cleaner.label = .correctSpeed) :
    MayHarm (.simple args) state cleaner := by
  cases hlower : cleaner.isLowerSpeed with
  | false =>
    apply mayHarm_of_decided_ops {} ⟨true, 10⟩ hworker hops
    · rw [hlabel, hlower]
      rfl
    · rfl
  | true =>
    apply mayHarm_of_decided_ops { rangefinderRightValue := 750 } ⟨true, 10⟩ hworker hops
    · rw [hlabel, hlower]
      rfl
    · rfl

theorem mayHarm_of_checkCliffs (hworker : cleaner.worker = .inside .loop)
    (hops : cleaner.ops = []) (hlabel : cleaner.label = .checkCliffs) :
    MayHarm (.simple args) state cleaner := by
  apply mayHarm_of_decided_ops { frontCenterCliffBreakage := true } ⟨true, 10⟩ hworker hops
  · rw [hlabel]
    rfl
  · rfl

theorem mayHarm_of_innerTest (hworker : cleaner.worker = .inside .loop)
    (hops : cleaner.ops = []) (hlabel : cleaner.label = .innerTest) :
    MayHarm (.simple args) state cleaner := by
  cases hstate : state.isBreakEvent with
  | false =>
    apply mayHarm_of_decision {} ⟨true, 10⟩ hworker hops
    · rw [hlabel, Arguments.decide, hstate]
    · exact mayHarm_of_correctSpeed hworker rfl rfl
  | true =>
    apply mayHarm_of_decision {} ⟨true, 10⟩ hworker hops
    · rw [hlabel, Arguments.decide, hstate]
    · exact mayHarm_of_outerTest hworker rfl rfl

theorem mayHarm_of_movedBackward (hworker : cleaner.worker = .inside .loop)
    (hops : cleaner.ops = []) (hlabel : cleaner.label = .movedBackward) :
    MayHarm (.simple args) state cleaner := by
  cases hstate : state.isBreakEvent with
  | false =>
    apply mayHarm_of_decided_ops {} ⟨true, 10⟩ hworker hops
    · rw [hlabel, Arguments.decide, hstate]
      rfl
    · rfl
  | true =>
    apply mayHarm_of_decision {} ⟨true, 10⟩ hworker hops
    · rw [hlabel, Arguments.decide, hstate]
      rfl
    · cases args.cliffEnabled with
      | true => exact mayHarm_of_checkCliffs hworker rfl rfl
      | false => exact mayHarm_of_innerTest hworker rfl rfl

theorem mayHarm_of_label (hworker : cleaner.worker = .inside .loop) (hops : cleaner.ops = []) :
    MayHarm (.simple args) state cleaner := by
  cases hlabel : cleaner.label with
  | outerTest => exact mayHarm_of_outerTest hworker hops hlabel
  | innerTest => exact mayHarm_of_innerTest hworker hops hlabel
  | correctSpeed => exact mayHarm_of_correctSpeed hworker hops hlabel
  | checkBumpers =>
    apply mayHarm_of_decided_ops { endRightTrig := true } ⟨true, 10⟩ hworker hops
    · rw [hlabel]
      rfl
    · rfl
  | movedBackward => exact mayHarm_of_movedBackward hworker hops hlabel
  | checkCliffs => exact mayHarm_of_checkCliffs hworker hops hlabel

theorem mayHarm_of_loop (hworker : cleaner.worker = .inside .loop) :
    MayHarm (.simple args) state cleaner := by
  apply MayHarm.drain hworker
  intro isLowerSpeed
  exact mayHarm_of_label hworker rfl

theorem mayHarm_of_blockedRunning (hworker : cleaner.worker = .blockedRunning)
    (hstate : state = .running ∨ state = .stopped) : MayHarm (.simple args) state cleaner := by
  rcases hstate with rfl | rfl
  · apply MayHarm.tested (.inside .onResume)
    · simp [hworker, Worker.test]
    · exact mayHarm_of_onResume
  · apply MayHarm.tested .blockedStopped
    · simp [hworker, Worker.test]
    · apply MayHarm.tested .checkingStopped rfl
      exact mayHarm_of_checkingStopped rfl

theorem mayHarm_of_blockedStopped (hworker : cleaner.worker = .blockedStopped)
    (hstate : state = .running ∨ state = .stopped) : MayHarm (.simple args) state cleaner := by
  rcases hstate with rfl | rfl
  · apply MayHarm.tested .blockedRunning
    · simp [hworker, Worker.test]
    · exact mayHarm_of_blockedRunning rfl (.inl rfl)
  · apply MayHarm.tested .checkingStopped
    · simp [hworker, Worker.test]
    · exact mayHarm_of_checkingStopped rfl

theorem mayHarm_of_return {callback : Callback} (hworker : cleaner.worker = .inside callback)
    (hloop : callback ≠ .loop)
    (h : ∀ cleaner : Cleaner, MayHarm (.simple args) state
      (cleaner.enter (.simple args) (.after callback .returned))) :
    MayHarm (.simple args) state cleaner := by
  apply MayHarm.drain hworker
  intro isLowerSpeed
  have hreturn : Cleaner.decides (.simple args) state { cleaner with ops := [], isLowerSpeed }
      callback {} ⟨true, 10⟩ = some (Cleaner.enter (.simple args)
        { cleaner with ops := [], isLowerSpeed } (.after callback .returned)) := by
    cases callback <;> first | rfl | contradiction
  exact MayHarm.decided _ _ hworker rfl hreturn (h _)

theorem mayHarm_of_not_isSettled (h : isSettled (.simple args) state cleaner = false) :
    MayHarm (.simple args) state cleaner := by
  have hopen : (!wakes state) = false → state = .running ∨ state = .stopped := by
    cases state <;> simp [wakes]
  cases hworker : cleaner.worker <;> simp only [isSettled, hworker] at h
  case unstarted | ended | died => cases h
  case blockedRunning => exact mayHarm_of_blockedRunning hworker (hopen h)
  case blockedStopped => exact mayHarm_of_blockedStopped hworker (hopen h)
  case checkingPaused => exact mayHarm_of_checkingPaused hworker
  case checkingStopped => exact mayHarm_of_checkingStopped hworker
  case inside callback =>
    cases callback with
    | loop => exact mayHarm_of_loop hworker
    | onPrepare =>
      apply mayHarm_of_return hworker nofun
      exact fun _ => mayHarm_of_loop rfl
    | onResume =>
      apply mayHarm_of_return hworker nofun
      exact fun _ => mayHarm_of_checkingStopped rfl
    | onFinish => exact mayHarm_of_ops hworker h
    | onPause =>
      rcases Bool.and_eq_false_iff.mp h with hops | hstate
      · exact mayHarm_of_ops hworker hops
      · apply mayHarm_of_return hworker nofun
        exact fun _ => mayHarm_of_blockedRunning rfl (hopen hstate)

end Simple

section Settled

variable {algorithm : Algorithm} {state : State} {cleaner next : Cleaner} {emitted : Option Command}

theorem goOn_harmless {raises cliffBehind : Bool} (hops : areHarmless cleaner.ops = true)
    (h : cleaner.goOn raises cliffBehind = some (next, emitted)) :
    (∀ command ∈ emitted, isHarmless command = true) ∧
      (next.worker = .died ∨ next.worker = cleaner.worker ∧ areHarmless next.ops = true) := by
  obtain ⟨worker, ops, label, isLowerSpeed⟩ := cleaner
  cases ops with
  | nil => cases h
  | cons op ops =>
    cases op with
    | send command =>
      simp only [areHarmless, List.all_cons, Bool.and_eq_true] at hops
      cases h
      refine ⟨?_, .inr ⟨rfl, hops.2⟩⟩
      rintro _ ⟨⟩
      exact hops.1
    | expect =>
      cases raises <;> cases h
      · exact ⟨by simp, .inr ⟨rfl, hops⟩⟩
      · exact ⟨by simp, .inl rfl⟩
    | setIsLowerSpeed value =>
      cases h
      exact ⟨by simp, .inr ⟨rfl, hops⟩⟩
    | awaitAndCheck => cases hops

theorem isSettled_test {args : Arguments} {worker : Worker}
    (hsettled : isSettled (.simple args) state cleaner = true)
    (htest : cleaner.worker.test state = some worker) :
    isSettled (.simple args) state (cleaner.enter (.simple args) worker) = true := by
  cases hworker : cleaner.worker <;> rw [hworker] at htest <;>
    simp only [isSettled, hworker] at hsettled <;> cases htest
  case blockedRunning => cases state <;> first | rfl | cases hsettled
  case blockedStopped => cases state <;> first | rfl | cases hsettled
  all_goals cases hsettled

theorem isSettled_return {args : Arguments} {callback : Callback}
    (hsettled : isSettled (.simple args) state cleaner = true)
    (hworker : cleaner.worker = .inside callback) :
    callback ≠ .loop ∧ isSettled (.simple args) state
      (cleaner.enter (.simple args) (.after callback .returned)) = true := by
  cases callback <;> simp only [isSettled, hworker] at hsettled
  case onPause =>
    have hwakes := (Bool.and_eq_true_iff.mp hsettled).2
    exact ⟨nofun, hwakes⟩
  case onFinish => exact ⟨nofun, rfl⟩
  all_goals cases hsettled

theorem isSettled_goOn {raises cliffBehind : Bool} {callback : Callback}
    (hsettled : isSettled algorithm state cleaner = true)
    (hworker : cleaner.worker = .inside callback)
    (h : cleaner.goOn raises cliffBehind = some (next, emitted)) :
    isSettled algorithm state next = true ∧ ∀ command ∈ emitted, isHarmless command = true := by
  have hops : areHarmless cleaner.ops = true := by
    cases algorithm with
    | smart => simpa only [isSettled, hworker] using hsettled
    | simple args =>
      cases callback <;> simp only [isSettled, hworker] at hsettled
      case onPause => exact (Bool.and_eq_true_iff.mp hsettled).1
      case onFinish => exact hsettled
      all_goals cases hsettled
  obtain ⟨hemitted, hnext⟩ := goOn_harmless hops h
  refine ⟨?_, hemitted⟩
  rcases hnext with hdied | ⟨hsame, hrest⟩
  · cases algorithm <;> simp [isSettled, hdied]
  · cases algorithm with
    | smart => simpa only [isSettled, hsame, hworker] using hrest
    | simple args =>
      cases callback <;> simp only [isSettled, hsame, hworker] at hsettled ⊢
      case onPause => exact Bool.and_eq_true_iff.mpr ⟨hrest, (Bool.and_eq_true_iff.mp hsettled).2⟩
      case onFinish => exact hrest
      all_goals cases hsettled

theorem isSettled_enter_smart (worker : Worker) :
    isSettled .smart state (cleaner.enter .smart worker) = true := by
  cases worker <;> rfl

theorem isSettled_step {event : Event} (hsettled : isSettled algorithm state cleaner = true)
    (h : cleaner.step algorithm state event = some (next, emitted)) :
    isSettled algorithm state next = true ∧ ∀ command ∈ emitted, isHarmless command = true := by
  cases moves_of_step h with
  | @tests worker htest =>
    refine ⟨?_, by simp⟩
    cases algorithm with
    | simple args => exact isSettled_test hsettled htest
    | smart => exact isSettled_enter_smart worker
  | goesOn hworker hgoOn => exact isSettled_goOn hsettled hworker hgoOn
  | decides hworker _ hdecide =>
    cases algorithm with
    | simple args => exact absurd rfl (isSettled_return hsettled hworker).1
    | smart => cases hdecide
  | returns hworker =>
    refine ⟨?_, by simp⟩
    cases algorithm with
    | simple args => exact (isSettled_return hsettled hworker).2
    | smart => exact isSettled_enter_smart _

theorem isSettled_iff :
    isSettled algorithm state cleaner = true ↔
      ∀ command, (emitter algorithm state).MayEmit cleaner command → isHarmless command = true := by
  constructor
  · intro hsettled command hemit
    apply hemit.invariant (fun cleaner => isSettled algorithm state cleaner = true)
      (fun command => isHarmless command = true) _ hsettled
    exact fun _ _ _ _ hproperty hstep => isSettled_step hproperty hstep
  · intro hharmless
    by_contra hsettled
    have hmay : MayHarm algorithm state cleaner := by
      cases algorithm with
      | simple args => exact mayHarm_of_not_isSettled (by simpa using hsettled)
      | smart =>
        cases hworker : cleaner.worker <;> simp [isSettled, hworker] at hsettled
        exact mayHarm_of_ops hworker hsettled
    obtain ⟨command, hemit, hharm⟩ := hmay
    rw [hharmless command hemit] at hharm
    cases hharm

end Settled

theorem leavesStill_iff (algorithm : Algorithm) (state : State) (history : List Command)
    (cleaner : Cleaner) : LeavesStill algorithm state history cleaner ↔
      Stopped history ∧ isSettled algorithm state cleaner = true := by
  rw [isSettled_iff]
  constructor
  · intro h
    exact ⟨h.stopped, fun _ => h.harmless⟩
  · rintro ⟨hstopped, hharmless⟩
    exact leavesStill_of_harmless hstopped hharmless

/-- With no cleaning at all, a walk that a client asked for goes on. -/
theorem walk_goes_on :
    ¬ LeavesStill (.simple {}) .idle [.walkForward 1000] { worker := .unstarted } := by
  intro h
  obtain ⟨withBreak, hstop⟩ := h.stopped (.walkForward 1000) rfl
  cases hstop

end VacuumCleaner.Core.Shutdown
