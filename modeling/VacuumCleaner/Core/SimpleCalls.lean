import VacuumCleaner.Core.AlgorithmArguments
import VacuumCleaner.Core.Algorithms

/-! `Simple` with its arguments as they were loaded: a number may be a boolean
or a float, and a call formats its instruction before it sends anything. -/
namespace VacuumCleaner.Core.SimpleCalls

open Lib Lib.Json AlgorithmLoop AlgorithmArguments Models
open Algorithms (Label Draw)
open Robot (Instruction Command fields flag)

inductive PyNumber
  | bool (value : Bool)
  | int (value : Int)
  | float (value : ℚ)
  deriving DecidableEq

/-- `f'{value:x}'` raises it for a float. -/
inductive Raised
  | valueError
  deriving DecidableEq, Repr

namespace PyNumber

def ofValue : Value → Option PyNumber
  | .bool value => some (.bool value)
  | .number (.int value) => some (.int value)
  | .number (.float (.finite x)) => some (.float x.value)
  | _ => none

/-- `f'{value:x}'`: a boolean is formatted as 1 or 0. -/
def hex : PyNumber → Except Raised (List Char)
  | .bool value => .ok (Robot.hex value.toInt)
  | .int value => .ok (Robot.hex value)
  | .float _ => .error .valueError

/-- `value // 2`. -/
def halved : PyNumber → PyNumber
  | .bool value => .int (value.toInt / 2)
  | .int value => .int (value / 2)
  | .float value => .float (value / 2).floor

/-- `int(value)`, which cuts off the fraction. -/
def toInt : PyNumber → Int
  | .bool value => value.toInt
  | .int value => value
  | .float value => if value < 0 then value.ceil else value.floor

def IsFloat : PyNumber → Prop
  | .float _ => True
  | _ => False

end PyNumber

structure Arguments where
  speed : PyNumber
  enableVacuumMotor : Bool
  reverseDis : PyNumber
  reverseDisSpeed : PyNumber
  reverseWithBreak : Bool
  cliffEnabled : Bool
  vacuumMotorValue : PyNumber

/-- The calls of the robot that `Simple` makes. -/
inductive Call
  | setVacuumMotor (value : PyNumber)
  | setLeftBrushMotor (value : PyNumber)
  | setRightBrushMotor (value : PyNumber)
  | setMainBrushMotor (value : PyNumber)
  | walk (forward : Bool) (speed : PyNumber)
  | move (distance speed : PyNumber) (forward withBreak : Bool)
  | turn (left : Bool) (angle speed : PyNumber) (withBreak : Bool)

namespace Call

def walkForward (speed : PyNumber) : Call := walk true speed
def moveForward (distance speed : PyNumber) (withBreak : Bool) : Call :=
  move distance speed true withBreak
def moveBackward (distance speed : PyNumber) (withBreak : Bool) : Call :=
  move distance speed false withBreak
def turnLeft (angle speed : PyNumber) (withBreak : Bool) : Call := turn true angle speed withBreak
def turnRight (angle speed : PyNumber) (withBreak : Bool) : Call := turn false angle speed withBreak
def stopMovement (withBreak : Bool) : Call := moveForward (.int 0) (.int 0) withBreak

/-- The instruction that a call sends, when it can be formatted. -/
def instruction : Call → Except Raised Instruction
  | setVacuumMotor value => return ⟨0x08, ← value.hex, some 5000⟩
  | setLeftBrushMotor value => return ⟨0x09, ← value.hex, some 5000⟩
  | setRightBrushMotor value => return ⟨0x0A, ← value.hex, some 5000⟩
  | setMainBrushMotor value => return ⟨0x12, ← value.hex, some 5000⟩
  | walk forward speed => return ⟨0x13, fields [flag forward, ← speed.hex], some 1000⟩
  | move distance speed forward withBreak =>
    return ⟨0x06, fields [flag forward, ← distance.hex, ← speed.hex, flag withBreak], none⟩
  | turn left angle speed withBreak =>
    return ⟨0x07, fields [flag left, ← angle.hex, ← speed.hex, flag withBreak], none⟩

end Call

inductive Op
  | send (call : Call)
  | expect
  | setIsLowerSpeed (value : Bool)
  | awaitAndCheck

namespace Arguments

def startMotors (args : Arguments) : List Op :=
  [.send (.setMainBrushMotor (.int 50)), .send (.setLeftBrushMotor (.int 70)),
    .send (.setRightBrushMotor (.int 70))] ++
  (if args.enableVacuumMotor
    then [.send (.setVacuumMotor (.int args.vacuumMotorValue.toInt)), .expect] else []) ++
  [.expect, .expect, .expect]

/-- `_turn_left` or `_turn_right` by an angle that `randint` draws. -/
def turn (args : Arguments) (left : Bool) (angle : Int) : Call :=
  if left then .turnLeft (.int angle) args.speed true else .turnRight (.int angle) args.speed true

def moveBackward (args : Arguments) (distance : PyNumber) : Call :=
  .moveBackward distance args.reverseDisSpeed args.reverseWithBreak

def stepAsideAndRotate (args : Arguments) (draw : Draw) : List Op :=
  [.send (args.moveBackward (.int 20)), .awaitAndCheck,
    .send (args.turn (!draw.randomTrue) draw.angle), .awaitAndCheck]

/-- The operations that follow a decision, and the label after them; no label
where `loop` returns, and nothing at all where the angle is out of its range. -/
def decide (args : Arguments) (state : State) (isLowerSpeed : Bool) (data : A1Data) (draw : Draw) :
    Label → Option (List Op × Option Label)
  | .outerTest =>
    if state.isBreakEvent then some ([], none)
    else some ([.send (.walkForward args.speed), .expect], some .innerTest)
  | .innerTest => some ([], some (if state.isBreakEvent then .outerTest else .correctSpeed))
  | .correctSpeed =>
    let ops : List Op :=
      if data.rangefinderRightValue + data.rangefinderLeftValue + data.rangefinderCenterValue < 750
      then if isLowerSpeed then []
        else [.send (.walkForward args.speed.halved), .expect, .setIsLowerSpeed true]
      else if isLowerSpeed then [.send (.walkForward args.speed), .expect, .setIsLowerSpeed false]
      else []
    some (ops, some .checkBumpers)
  | .checkBumpers =>
    if data.endRightTrig || data.endLeftTrig then
      some ([.send (args.moveBackward args.reverseDis), .expect], some .movedBackward)
    else some ([], some (if args.cliffEnabled then .checkCliffs else .innerTest))
  | .movedBackward =>
    if state.isBreakEvent then
      some ([], some (if args.cliffEnabled then .checkCliffs else .innerTest))
    else if 10 ≤ draw.angle ∧ draw.angle ≤ 180 then
      some ([.send (args.turn draw.randomTrue draw.angle), .expect], some .outerTest)
    else none
  | .checkCliffs =>
    if data.frontCenterCliffBreakage then
      if 10 ≤ draw.angle ∧ draw.angle ≤ 180 then
        some (args.stepAsideAndRotate draw, some .innerTest)
      else none
    else if data.frontLeftCliffBreakage || data.frontRightCliffBreakage then
      if 30 ≤ draw.angle ∧ draw.angle ≤ 180 then
        some ([.send (args.moveBackward (.int 20)), .expect,
          .send (args.turn (!data.frontLeftCliffBreakage) draw.angle), .expect], some .innerTest)
      else none
    else some ([], some .innerTest)

/-- The calls a callback begins with, which are all it does unless it is the loop. -/
def opening (args : Arguments) : Callback → List Op
  | .onPrepare | .onResume => args.startMotors
  | .onPause =>
    [.send (.stopMovement true), .expect, .send (.setVacuumMotor (.int 0)),
      .send (.setMainBrushMotor (.int 30)), .send (.setLeftBrushMotor (.int 10)),
      .send (.setRightBrushMotor (.int 10)), .expect, .expect, .expect, .expect]
  | .onFinish =>
    [.send (.stopMovement true), .expect, .send (.setVacuumMotor (.int 0)),
      .send (.setMainBrushMotor (.int 0)), .send (.setLeftBrushMotor (.int 0)),
      .send (.setRightBrushMotor (.int 0)), .expect, .expect, .expect, .expect]
  | .loop => []

end Arguments

/-- What the loop may decide, label by label. -/
inductive Decides (args : Arguments) (state : State) (isLowerSpeed : Bool) (data : A1Data)
    (draw : Draw) : Label → List Op → Option Label → Prop
  | returns : state.isBreakEvent = true →
    Decides args state isLowerSpeed data draw .outerTest [] none
  | walks : state.isBreakEvent = false →
    Decides args state isLowerSpeed data draw .outerTest
      [.send (.walkForward args.speed), .expect] (some .innerTest)
  | leaves : state.isBreakEvent = true →
    Decides args state isLowerSpeed data draw .innerTest [] (some .outerTest)
  | iterates : state.isBreakEvent = false →
    Decides args state isLowerSpeed data draw .innerTest [] (some .correctSpeed)
  | slowsDown : isLowerSpeed = false →
    data.rangefinderRightValue + data.rangefinderLeftValue + data.rangefinderCenterValue < 750 →
    Decides args state isLowerSpeed data draw .correctSpeed
      [.send (.walkForward args.speed.halved), .expect, .setIsLowerSpeed true] (some .checkBumpers)
  | speedsUp : isLowerSpeed = true →
    ¬ data.rangefinderRightValue + data.rangefinderLeftValue + data.rangefinderCenterValue < 750 →
    Decides args state isLowerSpeed data draw .correctSpeed
      [.send (.walkForward args.speed), .expect, .setIsLowerSpeed false] (some .checkBumpers)
  | keepsSpeed : (isLowerSpeed = true ↔
      data.rangefinderRightValue + data.rangefinderLeftValue + data.rangefinderCenterValue < 750) →
    Decides args state isLowerSpeed data draw .correctSpeed [] (some .checkBumpers)
  | bumps : (data.endRightTrig || data.endLeftTrig) = true →
    Decides args state isLowerSpeed data draw .checkBumpers
      [.send (args.moveBackward args.reverseDis), .expect] (some .movedBackward)
  | touchesNothing : (data.endRightTrig || data.endLeftTrig) = false →
    Decides args state isLowerSpeed data draw .checkBumpers []
      (some (if args.cliffEnabled then .checkCliffs else .innerTest))
  | interrupted : state.isBreakEvent = true →
    Decides args state isLowerSpeed data draw .movedBackward []
      (some (if args.cliffEnabled then .checkCliffs else .innerTest))
  | turns : state.isBreakEvent = false → 10 ≤ draw.angle → draw.angle ≤ 180 →
    Decides args state isLowerSpeed data draw .movedBackward
      [.send (args.turn draw.randomTrue draw.angle), .expect] (some .outerTest)
  | stepsAside : data.frontCenterCliffBreakage = true → 10 ≤ draw.angle → draw.angle ≤ 180 →
    Decides args state isLowerSpeed data draw .checkCliffs (args.stepAsideAndRotate draw)
      (some .innerTest)
  | turnsAway : data.frontCenterCliffBreakage = false →
    (data.frontLeftCliffBreakage || data.frontRightCliffBreakage) = true → 30 ≤ draw.angle →
    draw.angle ≤ 180 →
    Decides args state isLowerSpeed data draw .checkCliffs
      [.send (args.moveBackward (.int 20)), .expect,
        .send (args.turn (!data.frontLeftCliffBreakage) draw.angle), .expect] (some .innerTest)
  | seesNoCliff : data.frontCenterCliffBreakage = false →
    (data.frontLeftCliffBreakage || data.frontRightCliffBreakage) = false →
    Decides args state isLowerSpeed data draw .checkCliffs [] (some .innerTest)

theorem decides_of_decide {args : Arguments} {state : State} {isLowerSpeed : Bool} {data : A1Data}
    {draw : Draw} {label : Label} {ops : List Op} {next : Option Label}
    (h : args.decide state isLowerSpeed data draw label = some (ops, next)) :
    Decides args state isLowerSpeed data draw label ops next := by
  cases label with
  | outerTest =>
    simp only [Arguments.decide] at h
    split at h <;> rename_i hbreak <;> cases h
    · exact .returns hbreak
    · exact .walks (Bool.eq_false_iff.mpr hbreak)
  | innerTest =>
    cases h
    split
    · rename_i hbreak
      exact .leaves hbreak
    · rename_i hbreak
      exact .iterates (Bool.eq_false_iff.mpr hbreak)
  | correctSpeed =>
    simp only [Arguments.decide] at h
    cases h
    split
    · rename_i hseen
      cases isLowerSpeed with
      | false => exact .slowsDown rfl hseen
      | true => exact .keepsSpeed (iff_of_true rfl hseen)
    · rename_i hseen
      cases isLowerSpeed with
      | false => exact .keepsSpeed (iff_of_false (by simp) hseen)
      | true => exact .speedsUp rfl hseen
  | checkBumpers =>
    simp only [Arguments.decide] at h
    split at h <;> rename_i hbumper <;> cases h
    · exact .bumps hbumper
    · exact .touchesNothing (Bool.eq_false_iff.mpr hbumper)
  | movedBackward =>
    simp only [Arguments.decide] at h
    split at h
    · rename_i hbreak
      cases h
      exact .interrupted hbreak
    · rename_i hbreak
      split at h <;> rename_i hangle <;> cases h
      exact .turns (Bool.eq_false_iff.mpr hbreak) hangle.1 hangle.2
  | checkCliffs =>
    simp only [Arguments.decide] at h
    split at h
    · rename_i hcenter
      split at h <;> rename_i hangle <;> cases h
      exact .stepsAside hcenter hangle.1 hangle.2
    · rename_i hcenter
      split at h
      · rename_i hside
        split at h <;> rename_i hangle <;> cases h
        exact .turnsAway (Bool.eq_false_iff.mpr hcenter) hside hangle.1 hangle.2
      · rename_i hside
        cases h
        exact .seesNoCliff (Bool.eq_false_iff.mpr hcenter) (Bool.eq_false_iff.mpr hside)

/-- The worker thread inside `Simple`. -/
structure Cleaner where
  worker : Worker
  ops : List Op := []
  label : Label := .outerTest
  isLowerSpeed : Bool := false

inductive Event
  | tests
  | goesOn (raises cliffBehind : Bool)
  | decides (data : A1Data) (draw : Draw)

namespace Cleaner

def enter (args : Arguments) (cleaner : Cleaner) (worker : Worker) : Cleaner :=
  match worker with
  | .inside callback => { cleaner with worker, ops := args.opening callback, label := .outerTest }
  | _ => { cleaner with worker, ops := [] }

def die (cleaner : Cleaner) : Cleaner := { cleaner with worker := .died, ops := [] }

/-- The next operation. Nothing catches what a call or a job raises. -/
def goOn (cleaner : Cleaner) (raises cliffBehind : Bool) : Option (Cleaner × Option Call) :=
  match cleaner.ops with
  | [] => none
  | .send call :: ops =>
    match call.instruction with
    | .ok _ => some ({ cleaner with ops }, some call)
    | .error _ => some (cleaner.die, some call)
  | .expect :: ops => some (if raises then cleaner.die else { cleaner with ops }, none)
  | .setIsLowerSpeed value :: ops => some ({ cleaner with ops, isLowerSpeed := value }, none)
  | .awaitAndCheck :: ops =>
    if raises then some (cleaner.die, none)
    else some ({ cleaner with ops }, if cliffBehind then some (.stopMovement true) else none)

/-- A loop decides what comes next; the other callbacks return. -/
def decides (args : Arguments) (state : State) (cleaner : Cleaner) (callback : Callback)
    (data : A1Data) (draw : Draw) : Option Cleaner :=
  match callback with
  | .loop =>
    (args.decide state cleaner.isLowerSpeed data draw cleaner.label).map fun
      | (ops, some label) => { cleaner with ops, label }
      | (_, none) => cleaner.enter args (.after .loop .returned)
  | _ => some (cleaner.enter args (.after callback .returned))

def step (args : Arguments) (state : State) (cleaner : Cleaner) :
    Event → Option (Cleaner × Option Call)
  | .tests => (cleaner.worker.test state).map fun worker => (cleaner.enter args worker, none)
  | .goesOn raises cliffBehind =>
    match cleaner.worker with
    | .inside _ => cleaner.goOn raises cliffBehind
    | _ => none
  | .decides data draw =>
    match cleaner.worker, cleaner.ops with
    | .inside callback, [] =>
      (cleaner.decides args state callback data draw).map fun next => (next, none)
    | _, _ => none

/-- The algorithm object outlasts a cleaning, and so does its lowered speed. -/
def start (args : Arguments) (isLowerSpeed : Bool) : Cleaner :=
  { worker := .inside .onPrepare, ops := args.opening .onPrepare, isLowerSpeed }

end Cleaner

/-- What the steps of the worker do. -/
inductive Takes (args : Arguments) (state : State) (cleaner : Cleaner) :
    Event → Cleaner → Option Call → Prop
  | enters {worker : Worker} : (∀ callback, cleaner.worker ≠ .inside callback) →
    cleaner.worker.test state = some worker →
    Takes args state cleaner .tests (cleaner.enter args worker) none
  | operates {callback : Callback} {raises cliffBehind : Bool} {next : Cleaner}
    {call : Option Call} : cleaner.worker = .inside callback →
    cleaner.goOn raises cliffBehind = some (next, call) →
    Takes args state cleaner (.goesOn raises cliffBehind) next call
  | decides {data : A1Data} {draw : Draw} {ops : List Op} {label : Label} :
    cleaner.worker = .inside .loop → cleaner.ops = [] →
    Decides args state cleaner.isLowerSpeed data draw cleaner.label ops (some label) →
    Takes args state cleaner (.decides data draw) { cleaner with ops, label } none
  | leavesLoop {data : A1Data} {draw : Draw} {ops : List Op} :
    cleaner.worker = .inside .loop → cleaner.ops = [] →
    Decides args state cleaner.isLowerSpeed data draw cleaner.label ops none →
    Takes args state cleaner (.decides data draw)
      (cleaner.enter args (.after .loop .returned)) none
  | returns {callback : Callback} {data : A1Data} {draw : Draw} :
    cleaner.worker = .inside callback → callback ≠ .loop → cleaner.ops = [] →
    Takes args state cleaner (.decides data draw)
      (cleaner.enter args (.after callback .returned)) none

theorem takes_of_step {args : Arguments} {state : State} {cleaner next : Cleaner} {event : Event}
    {call : Option Call} (h : cleaner.step args state event = some (next, call)) :
    Takes args state cleaner event next call := by
  cases event with
  | tests =>
    obtain ⟨worker, htest, heq⟩ := Option.map_eq_some_iff.mp h
    cases heq
    refine .enters (fun callback hworker => ?_) htest
    rw [hworker] at htest
    cases htest
  | goesOn raises cliffBehind =>
    simp only [Cleaner.step] at h
    split at h
    · rename_i callback hworker
      exact .operates hworker h
    · cases h
  | decides data draw =>
    simp only [Cleaner.step] at h
    split at h
    · rename_i callback hworker hops
      obtain ⟨after, hdecides, heq⟩ := Option.map_eq_some_iff.mp h
      cases heq
      cases callback with
      | loop =>
        obtain ⟨⟨ops, label⟩, hdecide, heq⟩ := Option.map_eq_some_iff.mp hdecides
        cases label with
        | some label =>
          cases heq
          exact .decides hworker hops (decides_of_decide hdecide)
        | none =>
          cases heq
          exact .leavesLoop hworker hops (decides_of_decide hdecide)
      | onPrepare | onPause | onResume | onFinish =>
        cases hdecides
        exact .returns hworker (by decide) hops
    · cases h

/-- The worker, while others write the execution state as they like. -/
def emitter (args : Arguments) : Emitter Cleaner (State × Event) Call :=
  ⟨fun cleaner event => cleaner.step args event.1 event.2⟩

/-- The arguments as integers. -/
def Arguments.integers (args : Arguments) : Algorithms.Arguments where
  speed := args.speed.toInt
  enableVacuumMotor := args.enableVacuumMotor
  reverseDis := args.reverseDis.toInt
  reverseDisSpeed := args.reverseDisSpeed.toInt
  reverseWithBreak := args.reverseWithBreak
  cliffEnabled := args.cliffEnabled
  vacuumMotorValue := args.vacuumMotorValue.toInt

/-- The arguments that go into instructions as they are. -/
structure Arguments.NoFloat (args : Arguments) : Prop where
  speed : ¬ args.speed.IsFloat
  reverseDis : ¬ args.reverseDis.IsFloat
  reverseDisSpeed : ¬ args.reverseDisSpeed.IsFloat

/-- What each instruction of `Simple` tells the robot: saved numbers, numbers of
the code, or an angle that was drawn. -/
def Encodes (saved : Algorithms.Arguments) : Command → Prop
  | .setVacuumMotor value => value = saved.vacuumMotorValue ∨ value = 0
  | .setMainBrushMotor value => value = 50 ∨ value = 30 ∨ value = 0
  | .setLeftBrushMotor value | .setRightBrushMotor value => value = 70 ∨ value = 10 ∨ value = 0
  | .walk forward speed => forward = true ∧ (speed = saved.speed ∨ speed = saved.speed / 2)
  | .move distance speed true withBreak => distance = 0 ∧ speed = 0 ∧ withBreak = true
  | .move distance speed false withBreak => (distance = saved.reverseDis ∨ distance = 20) ∧
    speed = saved.reverseDisSpeed ∧ withBreak = saved.reverseWithBreak
  | .turn _ angle speed withBreak =>
    10 ≤ angle ∧ angle ≤ 180 ∧ speed = saved.speed ∧ withBreak = true
  | _ => False

/-- A call that sends its instruction, with the right numbers. -/
def Faithful (saved : Algorithms.Arguments) (call : Call) : Prop :=
  ∃ command : Command, call.instruction = .ok command.instruction ∧ Encodes saved command

section NoFloat

variable {args : Arguments} {number : PyNumber}

theorem hex_ok (h : ¬ number.IsFloat) : number.hex = .ok (Robot.hex number.toInt) := by
  cases number with
  | bool value => rfl
  | int value => rfl
  | float value => exact absurd trivial h

theorem not_isFloat_of_hex {text : List Char} (h : number.hex = .ok text) : ¬ number.IsFloat := by
  cases number with
  | bool value => exact id
  | int value => exact id
  | float value => cases h

theorem halved_ok (h : ¬ number.IsFloat) :
    ¬ number.halved.IsFloat ∧ number.halved.toInt = number.toInt / 2 := by
  cases number with
  | bool value => exact ⟨id, rfl⟩
  | int value => exact ⟨id, rfl⟩
  | float value => exact absurd trivial h

theorem faithful_walk (hargs : args.NoFloat) : Faithful args.integers (.walkForward args.speed) := by
  refine ⟨.walk true args.speed.toInt, ?_, rfl, .inl rfl⟩
  simp only [Call.walkForward, Call.instruction, hex_ok hargs.speed]
  rfl

theorem faithful_walk_halved (hargs : args.NoFloat) :
    Faithful args.integers (.walkForward args.speed.halved) := by
  obtain ⟨hnumber, hhalf⟩ := halved_ok hargs.speed
  refine ⟨.walk true args.speed.halved.toInt, ?_, rfl, .inr hhalf⟩
  simp only [Call.walkForward, Call.instruction, hex_ok hnumber]
  rfl

theorem faithful_turn (hargs : args.NoFloat) (left : Bool) {angle : Int} (hlow : 10 ≤ angle)
    (hhigh : angle ≤ 180) : Faithful args.integers (args.turn left angle) := by
  refine ⟨.turn left angle args.speed.toInt true, ?_, hlow, hhigh, rfl, rfl⟩
  have hturn : args.turn left angle = .turn left (.int angle) args.speed true := by
    cases left <;> rfl
  rw [hturn]
  simp only [Call.instruction, hex_ok hargs.speed]
  rfl

theorem faithful_moveBackward (hargs : args.NoFloat) {distance : PyNumber}
    (hnumber : ¬ distance.IsFloat)
    (hdistance : distance.toInt = args.integers.reverseDis ∨ distance.toInt = 20) :
    Faithful args.integers (args.moveBackward distance) := by
  refine ⟨.move distance.toInt args.reverseDisSpeed.toInt false args.reverseWithBreak, ?_,
    hdistance, rfl, rfl⟩
  simp only [Arguments.moveBackward, Call.moveBackward, Call.instruction, hex_ok hnumber,
    hex_ok hargs.reverseDisSpeed]
  rfl

theorem faithful_stopMovement (saved : Algorithms.Arguments) :
    Faithful saved (.stopMovement true) :=
  ⟨.stopMovement true, rfl, rfl, rfl, rfl⟩

/-- The calls among some operations are faithful. -/
def AllFaithful (saved : Algorithms.Arguments) (ops : List Op) : Prop :=
  ∀ call, Op.send call ∈ ops → Faithful saved call

namespace AllFaithful

variable {saved : Algorithms.Arguments} {ops : List Op}

theorem nil : AllFaithful saved [] := by
  intro call hcall
  cases hcall

theorem send {call : Call} (hcall : Faithful saved call) (hops : AllFaithful saved ops) :
    AllFaithful saved (.send call :: ops) := by
  intro other hother
  rcases List.mem_cons.mp hother with hsame | hother
  · cases hsame
    exact hcall
  · exact hops other hother

theorem skip {op : Op} (hop : ∀ call, op ≠ .send call) (hops : AllFaithful saved ops) :
    AllFaithful saved (op :: ops) := by
  intro other hother
  rcases List.mem_cons.mp hother with hsame | hother
  · exact absurd hsame.symm (hop other)
  · exact hops other hother

end AllFaithful

theorem allFaithful_startMotors (args : Arguments) : AllFaithful args.integers args.startMotors := by
  intro call hcall
  simp only [Arguments.startMotors, List.mem_append, List.mem_cons, Op.send.injEq,
    List.not_mem_nil, or_false, reduceCtorEq] at hcall
  rcases hcall with (rfl | rfl | rfl) | hcall
  · exact ⟨.setMainBrushMotor 50, rfl, .inl rfl⟩
  · exact ⟨.setLeftBrushMotor 70, rfl, .inl rfl⟩
  · exact ⟨.setRightBrushMotor 70, rfl, .inl rfl⟩
  · split at hcall
    · simp only [List.mem_cons, Op.send.injEq, List.not_mem_nil, or_false, reduceCtorEq] at hcall
      subst hcall
      exact ⟨.setVacuumMotor args.vacuumMotorValue.toInt, rfl, .inl rfl⟩
    · cases hcall

theorem allFaithful_opening (args : Arguments) (callback : Callback) :
    AllFaithful args.integers (args.opening callback) := by
  cases callback with
  | onPrepare | onResume => exact allFaithful_startMotors args
  | loop =>
    intro call hcall
    cases hcall
  | onPause =>
    intro call hcall
    simp only [Arguments.opening, List.mem_cons, Op.send.injEq, List.not_mem_nil, or_false,
      reduceCtorEq, false_or] at hcall
    rcases hcall with rfl | rfl | rfl | rfl | rfl
    · exact faithful_stopMovement _
    · exact ⟨.setVacuumMotor 0, rfl, .inr rfl⟩
    · exact ⟨.setMainBrushMotor 30, rfl, .inr (.inl rfl)⟩
    · exact ⟨.setLeftBrushMotor 10, rfl, .inr (.inl rfl)⟩
    · exact ⟨.setRightBrushMotor 10, rfl, .inr (.inl rfl)⟩
  | onFinish =>
    intro call hcall
    simp only [Arguments.opening, List.mem_cons, Op.send.injEq, List.not_mem_nil, or_false,
      reduceCtorEq, false_or] at hcall
    rcases hcall with rfl | rfl | rfl | rfl | rfl
    · exact faithful_stopMovement _
    · exact ⟨.setVacuumMotor 0, rfl, .inr rfl⟩
    · exact ⟨.setMainBrushMotor 0, rfl, .inr (.inr rfl)⟩
    · exact ⟨.setLeftBrushMotor 0, rfl, .inr (.inr rfl)⟩
    · exact ⟨.setRightBrushMotor 0, rfl, .inr (.inr rfl)⟩

theorem allFaithful_decides (hargs : args.NoFloat) {state : State} {isLowerSpeed : Bool}
    {data : A1Data} {draw : Draw} {label : Label} {ops : List Op} {next : Option Label}
    (h : Decides args state isLowerSpeed data draw label ops next) :
    AllFaithful args.integers ops := by
  have htwenty : Faithful args.integers (args.moveBackward (.int 20)) :=
    faithful_moveBackward hargs id (.inr rfl)
  cases h with
  | returns | leaves | iterates | keepsSpeed | touchesNothing | interrupted | seesNoCliff =>
    exact .nil
  | walks => exact .send (faithful_walk hargs) (.skip (by simp) .nil)
  | slowsDown =>
    exact .send (faithful_walk_halved hargs) (.skip (by simp) (.skip (by simp) .nil))
  | speedsUp => exact .send (faithful_walk hargs) (.skip (by simp) (.skip (by simp) .nil))
  | bumps =>
    exact .send (faithful_moveBackward hargs hargs.reverseDis (.inl rfl)) (.skip (by simp) .nil)
  | turns _ hlow hhigh =>
    exact .send (faithful_turn hargs _ hlow hhigh) (.skip (by simp) .nil)
  | stepsAside _ hlow hhigh =>
    exact .send htwenty (.skip (by simp)
      (.send (faithful_turn hargs _ hlow hhigh) (.skip (by simp) .nil)))
  | turnsAway _ _ hlow hhigh =>
    exact .send htwenty (.skip (by simp)
      (.send (faithful_turn hargs _ (by omega) hhigh) (.skip (by simp) .nil)))

/-- The call over integers. -/
def Call.command : Call → Command
  | .setVacuumMotor value => .setVacuumMotor value.toInt
  | .setLeftBrushMotor value => .setLeftBrushMotor value.toInt
  | .setRightBrushMotor value => .setRightBrushMotor value.toInt
  | .setMainBrushMotor value => .setMainBrushMotor value.toInt
  | .walk forward speed => .walk forward speed.toInt
  | .move distance speed forward withBreak => .move distance.toInt speed.toInt forward withBreak
  | .turn left angle speed withBreak => .turn left angle.toInt speed.toInt withBreak

def Op.overIntegers : Op → Algorithms.Op
  | .send call => .send call.command
  | .expect => .expect
  | .setIsLowerSpeed value => .setIsLowerSpeed value
  | .awaitAndCheck => .awaitAndCheck

theorem command_turn (args : Arguments) (left : Bool) (angle : Int) :
    (args.turn left angle).command = args.integers.turn left angle := by
  cases left <;> rfl

theorem opening_integers (args : Arguments) (callback : Callback) :
    (Algorithms.Algorithm.simple args.integers).opening callback =
      (args.opening callback).map Op.overIntegers := by
  have hstart : args.integers.startMotors = args.startMotors.map Op.overIntegers := by
    unfold Arguments.startMotors Algorithms.Arguments.startMotors Arguments.integers
    cases args.enableVacuumMotor <;> rfl
  cases callback with
  | onPrepare | onResume => exact hstart
  | _ => rfl

theorem decide_integers (hargs : args.NoFloat) (state : State) (isLowerSpeed : Bool) (data : A1Data)
    (draw : Draw) (label : Label) :
    args.integers.decide state isLowerSpeed data draw label =
      (args.decide state isLowerSpeed data draw label).map fun (ops, next) =>
        (ops.map Op.overIntegers, next) := by
  have hhalved : args.integers.speed / 2 = args.speed.halved.toInt := (halved_ok hargs.speed).2.symm
  cases label with
  | outerTest =>
    simp only [Algorithms.Arguments.decide, Arguments.decide]
    split <;> rfl
  | innerTest => rfl
  | correctSpeed =>
    simp only [Algorithms.Arguments.decide, Arguments.decide, hhalved]
    split <;> split <;> rfl
  | checkBumpers =>
    simp only [Algorithms.Arguments.decide, Arguments.decide]
    split <;> rfl
  | movedBackward =>
    simp only [Algorithms.Arguments.decide, Arguments.decide, ← command_turn]
    split
    · rfl
    · split <;> rfl
  | checkCliffs =>
    simp only [Algorithms.Arguments.decide, Arguments.decide, Algorithms.Arguments.stepAsideAndRotate,
      Arguments.stepAsideAndRotate, ← command_turn]
    split
    · split <;> rfl
    · split
      · split <;> rfl
      · rfl

end NoFloat

section Runs

variable {args : Arguments} {cleaner next : Cleaner} {emitted : Option Call}

theorem ops_enter (cleaner : Cleaner) (worker : Worker) :
    AllFaithful args.integers (cleaner.enter args worker).ops := by
  cases worker with
  | inside callback => exact allFaithful_opening args callback
  | _ =>
    intro call hcall
    cases hcall

theorem goOn_faithful {raises cliffBehind : Bool} (hops : AllFaithful args.integers cleaner.ops)
    (h : cleaner.goOn raises cliffBehind = some (next, emitted)) :
    AllFaithful args.integers next.ops ∧ ∀ call ∈ emitted, Faithful args.integers call := by
  have hdead : AllFaithful args.integers cleaner.die.ops := by
    intro call hcall
    cases hcall
  unfold Cleaner.goOn at h
  split at h
  · cases h
  · rename_i call ops heq
    have hrest : AllFaithful args.integers ops := fun other hother =>
      hops other (heq ▸ List.mem_cons_of_mem _ hother)
    have hcall := hops call (heq ▸ List.mem_cons_self)
    split at h
    · cases h
      exact ⟨hrest, fun other hother => Option.some.inj hother ▸ hcall⟩
    · cases h
      exact ⟨hdead, fun other hother => Option.some.inj hother ▸ hcall⟩
  · rename_i ops heq
    have hrest : AllFaithful args.integers ops := fun other hother =>
      hops other (heq ▸ List.mem_cons_of_mem _ hother)
    cases h
    refine ⟨?_, by simp⟩
    split
    · exact hdead
    · exact hrest
  · rename_i value ops heq
    have hrest : AllFaithful args.integers ops := fun other hother =>
      hops other (heq ▸ List.mem_cons_of_mem _ hother)
    cases h
    exact ⟨hrest, by simp⟩
  · rename_i ops heq
    have hrest : AllFaithful args.integers ops := fun other hother =>
      hops other (heq ▸ List.mem_cons_of_mem _ hother)
    split at h
    · cases h
      exact ⟨hdead, by simp⟩
    · cases h
      refine ⟨hrest, fun other hother => ?_⟩
      split at hother
      · exact Option.some.inj hother ▸ faithful_stopMovement _
      · cases hother

theorem step_faithful (hargs : args.NoFloat) {state : State} {event : Event}
    (hops : AllFaithful args.integers cleaner.ops)
    (h : cleaner.step args state event = some (next, emitted)) :
    AllFaithful args.integers next.ops ∧ ∀ call ∈ emitted, Faithful args.integers call := by
  cases takes_of_step h with
  | enters => exact ⟨ops_enter cleaner _, by simp⟩
  | operates _ hgoOn => exact goOn_faithful hops hgoOn
  | decides _ _ hdecides => exact ⟨allFaithful_decides hargs hdecides, by simp⟩
  | leavesLoop | returns => exact ⟨ops_enter cleaner _, by simp⟩

theorem faithful_of_mayEmit (hargs : args.NoFloat) {isLowerSpeed : Bool} {call : Call}
    (h : (emitter args).MayEmit (Cleaner.start args isLowerSpeed) call) :
    Faithful args.integers call := by
  apply h.invariant (fun cleaner => AllFaithful args.integers cleaner.ops)
  · intro cleaner event next emitted hops hstep
    exact step_faithful hargs hops hstep
  · exact allFaithful_opening args .onPrepare

theorem mayEmit_of_ops {saved : Algorithms.Arguments} {callback : Callback} {call : Call}
    (hworker : cleaner.worker = .inside callback) (hops : AllFaithful saved cleaner.ops)
    (hkeep : ∀ value, Op.setIsLowerSpeed value ∉ cleaner.ops)
    (h : (emitter args).MayEmit { cleaner with ops := [] } call) :
    (emitter args).MayEmit cleaner call := by
  obtain ⟨worker, ops, label, isLowerSpeed⟩ := cleaner
  dsimp only at hworker hops hkeep h
  subst hworker
  induction ops with
  | nil => exact h
  | cons op ops ih =>
    have hrest := ih (fun other hother => hops other (List.mem_cons_of_mem _ hother))
      (fun value hvalue => hkeep value (List.mem_cons_of_mem _ hvalue))
    have hstep : ∃ emitted, (emitter args).step ⟨.inside callback, op :: ops, label, isLowerSpeed⟩
        (.running, .goesOn false false) =
          some (⟨.inside callback, ops, label, isLowerSpeed⟩, emitted) := by
      cases op with
      | send first =>
        obtain ⟨command, hcommand, -⟩ := hops first List.mem_cons_self
        refine ⟨some first, ?_⟩
        simp only [emitter, Cleaner.step, Cleaner.goOn, hcommand]
      | expect => exact ⟨none, rfl⟩
      | setIsLowerSpeed value => exact absurd List.mem_cons_self (hkeep value)
      | awaitAndCheck => exact ⟨none, rfl⟩
    obtain ⟨emitted, hstep⟩ := hstep
    exact .later hstep hrest

theorem mayEmit_next {call : Call} {ops : List Op} {label : Label} {isLowerSpeed : Bool} :
    (emitter args).MayEmit ⟨.inside .loop, .send call :: ops, label, isLowerSpeed⟩ call := by
  have hstep : ∃ after, (emitter args).step ⟨.inside .loop, .send call :: ops, label, isLowerSpeed⟩
      (.running, .goesOn false false) = some (after, some call) := by
    simp only [emitter, Cleaner.step, Cleaner.goOn]
    cases call.instruction with
    | ok instruction => exact ⟨_, rfl⟩
    | error raised => exact ⟨_, rfl⟩
  obtain ⟨after, hstep⟩ := hstep
  exact .now hstep

/-- In front of a bumper, with nothing near. -/
def bumperData : A1Data := { endRightTrig := true, rangefinderLeftValue := 750 }

theorem mayEmit_of_walk {call : Call} (h : (emitter args).MayEmit
      ⟨.inside .loop, [.send (.walkForward args.speed), .expect], .innerTest, false⟩ call) :
    (emitter args).MayEmit (Cleaner.start args false) call := by
  have hreturns : (emitter args).step ⟨.inside .onPrepare, [], .outerTest, false⟩
      (.running, .decides bumperData ⟨true, 10⟩) =
        some (⟨.inside .loop, [], .outerTest, false⟩, none) := rfl
  have hbegins : (emitter args).step ⟨.inside .loop, [], .outerTest, false⟩
      (.running, .decides bumperData ⟨true, 10⟩) =
        some (⟨.inside .loop, [.send (.walkForward args.speed), .expect], .innerTest, false⟩,
          none) := rfl
  apply mayEmit_of_ops rfl (allFaithful_startMotors args)
  · intro value hvalue
    simp [Cleaner.start, Arguments.opening, Arguments.startMotors] at hvalue
  · exact .later hreturns (.later hbegins h)

theorem mayEmit_moveBackward {instruction : Instruction}
    (hwalk : (Call.walkForward args.speed).instruction = .ok instruction) :
    (emitter args).MayEmit (Cleaner.start args false) (args.moveBackward args.reverseDis) := by
  have hsent : (emitter args).step
      ⟨.inside .loop, [.send (.walkForward args.speed), .expect], .innerTest, false⟩
      (.running, .goesOn false false) =
        some (⟨.inside .loop, [.expect], .innerTest, false⟩,
          some (.walkForward args.speed)) := by
    simp only [emitter, Cleaner.step, Cleaner.goOn, hwalk]
  have hexpects : (emitter args).step ⟨.inside .loop, [.expect], .innerTest, false⟩
      (.running, .goesOn false false) =
        some (⟨.inside .loop, [], .innerTest, false⟩, none) := rfl
  have htests : (emitter args).step ⟨.inside .loop, [], .innerTest, false⟩
      (.running, .decides bumperData ⟨true, 10⟩) =
        some (⟨.inside .loop, [], .correctSpeed, false⟩, none) := rfl
  have hspeed : (emitter args).step ⟨.inside .loop, [], .correctSpeed, false⟩
      (.running, .decides bumperData ⟨true, 10⟩) =
        some (⟨.inside .loop, [], .checkBumpers, false⟩, none) := rfl
  have hbumper : (emitter args).step ⟨.inside .loop, [], .checkBumpers, false⟩
      (.running, .decides bumperData ⟨true, 10⟩) =
        some (⟨.inside .loop, [.send (args.moveBackward args.reverseDis), .expect],
          .movedBackward, false⟩, none) := rfl
  exact mayEmit_of_walk (.later hsent (.later hexpects (.later htests (.later hspeed
    (.later hbumper mayEmit_next)))))

theorem noFloat_of_formatted (h : ∀ call, (emitter args).MayEmit (Cleaner.start args false) call →
      ∃ instruction, call.instruction = .ok instruction) : args.NoFloat := by
  obtain ⟨instruction, hwalk⟩ := h _ (mayEmit_of_walk mayEmit_next)
  obtain ⟨moved, hmove⟩ := h _ (mayEmit_moveBackward hwalk)
  obtain ⟨speed, hspeed, -⟩ := bind_ok hwalk
  obtain ⟨distance, hdistance, hmove⟩ := bind_ok hmove
  obtain ⟨reverseSpeed, hreverseSpeed, -⟩ := bind_ok hmove
  exact ⟨not_isFloat_of_hex hspeed, not_isFloat_of_hex hdistance, not_isFloat_of_hex hreverseSpeed⟩

theorem faithful_iff (args : Arguments) : (∀ isLowerSpeed call,
      (emitter args).MayEmit (Cleaner.start args isLowerSpeed) call → Faithful args.integers call) ↔
    args.NoFloat := by
  constructor
  · intro h
    apply noFloat_of_formatted
    intro call hcall
    obtain ⟨command, hcommand, -⟩ := h false call hcall
    exact ⟨_, hcommand⟩
  · intro hargs isLowerSpeed call hcall
    exact faithful_of_mayEmit hargs hcall

end Runs

def flagOf : Value → Option Bool
  | .bool value => some value
  | _ => none

/-- The attributes of the holder that `Simple` reads. -/
def Arguments.ofHolder (holder : ArgumentsHolder) : Option Arguments := do
  let speed ← (getItem "speed".toList holder).bind PyNumber.ofValue
  let enableVacuumMotor ← (getItem "enable_vacuum_motor".toList holder).bind flagOf
  let reverseDis ← (getItem "reverse_dis".toList holder).bind PyNumber.ofValue
  let reverseDisSpeed ← (getItem "reverse_dis_speed".toList holder).bind PyNumber.ofValue
  let reverseWithBreak ← (getItem "reverse_with_break".toList holder).bind flagOf
  let cliffEnabled ← (getItem "cliff_enabled".toList holder).bind flagOf
  let vacuumMotorValue ← (getItem "vacuum_motor_value".toList holder).bind PyNumber.ofValue
  return ⟨speed, enableVacuumMotor, reverseDis, reverseDisSpeed, reverseWithBreak, cliffEnabled,
    vacuumMotorValue⟩

/-- The integer that the given argument equals. -/
def savedInteger (parameter : FieldParameter) (arguments : Members) : Int :=
  ((getItem parameter.name arguments).bind asInteger).getD 0

def savedFlag (parameter : FieldParameter) (arguments : Members) : Bool :=
  ((getItem parameter.name arguments).bind flagOf).getD false

/-- The given arguments as integers and flags. -/
def saved (arguments : Members) : Algorithms.Arguments where
  speed := savedInteger Simple.speed arguments
  enableVacuumMotor := savedFlag Simple.enableVacuumMotor arguments
  reverseDis := savedInteger Simple.reverseDis arguments
  reverseDisSpeed := savedInteger Simple.reverseDisSpeed arguments
  reverseWithBreak := savedFlag Simple.reverseWithBreak arguments
  cliffEnabled := savedFlag Simple.cliffEnabled arguments
  vacuumMotorValue := savedInteger Simple.vacuumMotorValue arguments

/-- `Simple` runs with the arguments loaded from the files, and every call it may
make formats its instruction, with the numbers that were given. -/
def Executable (py : Json.Runtime) (arguments : Members) (folder : Folder) : Prop :=
  ∃ holder args, (loadArguments py .simple folder).1 = .ok holder ∧
    Arguments.ofHolder holder = some args ∧
    ∀ isLowerSpeed call, (emitter args).MayEmit (Cleaner.start args isLowerSpeed) call →
      Faithful (saved arguments) call

/-- No float is given for the speed, the reverse distance or its speed. -/
def NoFloatGiven (arguments : Members) : Prop :=
  ∀ parameter ∈ [Simple.speed, Simple.reverseDis, Simple.reverseDisSpeed], ∀ x,
    getItem parameter.name arguments ≠ some (.number (.float x))

section Loading

variable {py : Json.Runtime} {arguments res : Members} {holder : ArgumentsHolder} {folder : Folder}
  {ref : List Char} {parameter : FieldParameter}

theorem loaded_number {start stop : Int} (htype : parameter.type = .range start stop)
    (h : ∃ value, accepted arguments parameter = .ok value ∧ getItem ref holder = some value) :
    ∃ number, (getItem ref holder).bind PyNumber.ofValue = some number ∧
      number.toInt = savedInteger parameter arguments ∧
      (number.IsFloat ↔ ∃ x, getItem parameter.name arguments = some (.number (.float x))) := by
  obtain ⟨value, haccepted, hloaded⟩ := h
  obtain ⟨hgiven, -, hmeets⟩ := accepted_ok haccepted
  rw [htype] at hmeets
  unfold savedInteger
  rw [hgiven, hloaded]
  cases value with
  | bool value =>
    refine ⟨.bool value, rfl, rfl, iff_of_false id ?_⟩
    rintro ⟨x, hx⟩
    cases hx
  | number number =>
    cases number with
    | int value =>
      refine ⟨.int value, rfl, rfl, iff_of_false id ?_⟩
      rintro ⟨x, hx⟩
      cases hx
    | float x =>
      cases x with
      | finite x =>
        refine ⟨.float x.value, rfl, ?_, iff_of_true trivial ⟨_, rfl⟩⟩
        have hinteger : x.value.isInt = true := by
          by_contra hfraction
          simp [doesValueMeetType, asInteger, asNumber, hfraction] at hmeets
        have hvalue : x.value = (x.value.num : ℚ) := by
          have hden : x.value.den = 1 := eq_of_beq hinteger
          exact (Rat.den_eq_one_iff _).mp hden |>.symm
        have hint : PyNumber.toInt (.float x.value) = x.value.num := by
          unfold PyNumber.toInt
          dsimp only
          split
          · rw [hvalue, Rat.ceil_intCast, Rat.num_intCast]
          · rw [hvalue, Rat.floor_intCast, Rat.num_intCast]
        rw [hint]
        simp [asInteger, asNumber, hinteger]
      | infinity negative => cases hmeets
      | nan => cases hmeets
  | _ => cases hmeets

theorem loaded_flag (htype : parameter.type = .bool)
    (h : ∃ value, accepted arguments parameter = .ok value ∧ getItem ref holder = some value) :
    (getItem ref holder).bind flagOf = some (savedFlag parameter arguments) := by
  obtain ⟨value, haccepted, hloaded⟩ := h
  obtain ⟨hgiven, -, hmeets⟩ := accepted_ok haccepted
  rw [htype] at hmeets
  unfold savedFlag
  rw [hgiven, hloaded]
  cases value with
  | bool value => rfl
  | _ => cases hmeets

theorem ofHolder_saved (hvalues : ∀ parameter ∈ getParameters .simple, ∃ value,
      accepted arguments parameter.2 = .ok value ∧ getItem parameter.1 holder = some value) :
    ∃ args, Arguments.ofHolder holder = some args ∧ args.integers = saved arguments ∧
      (args.NoFloat ↔ NoFloatGiven arguments) := by
  simp only [getParameters, Simple.parameters, List.forall_mem_cons, List.not_mem_nil,
    false_imp_iff, implies_true, and_true] at hvalues
  obtain ⟨hspeed, henable, hdis, hdisSpeed, hbreak, hcliff, hvacuum⟩ := hvalues
  obtain ⟨speed, hspeed, hspeedInt, hspeedFloat⟩ := loaded_number rfl hspeed
  obtain ⟨dis, hdis, hdisInt, hdisFloat⟩ := loaded_number rfl hdis
  obtain ⟨disSpeed, hdisSpeed, hdisSpeedInt, hdisSpeedFloat⟩ := loaded_number rfl hdisSpeed
  obtain ⟨vacuum, hvacuum, hvacuumInt, -⟩ := loaded_number rfl hvacuum
  refine ⟨⟨speed, savedFlag Simple.enableVacuumMotor arguments, dis, disSpeed,
    savedFlag Simple.reverseWithBreak arguments, savedFlag Simple.cliffEnabled arguments, vacuum⟩,
    ?_, ?_, ?_⟩
  · unfold Arguments.ofHolder
    rw [hspeed, loaded_flag rfl henable, hdis, hdisSpeed, loaded_flag rfl hbreak,
      loaded_flag rfl hcliff, hvacuum]
    rfl
  · simp only [Arguments.integers, saved, hspeedInt, hdisInt, hdisSpeedInt, hvacuumInt]
  · constructor
    · intro h parameter hparameter x hx
      simp only [List.mem_cons, List.not_mem_nil, or_false] at hparameter
      rcases hparameter with rfl | rfl | rfl
      · exact h.speed (hspeedFloat.mpr ⟨x, hx⟩)
      · exact h.reverseDis (hdisFloat.mpr ⟨x, hx⟩)
      · exact h.reverseDisSpeed (hdisSpeedFloat.mpr ⟨x, hx⟩)
    · intro h
      have hnot : ∀ parameter ∈ [Simple.speed, Simple.reverseDis, Simple.reverseDisSpeed],
          ¬ ∃ x, getItem parameter.name arguments = some (.number (.float x)) := by
        rintro parameter hparameter ⟨x, hx⟩
        exact h parameter hparameter x hx
      exact ⟨fun hfloat => hnot _ (by simp) (hspeedFloat.mp hfloat),
        fun hfloat => hnot _ (by simp) (hdisFloat.mp hfloat),
        fun hfloat => hnot _ (by simp) (hdisSpeedFloat.mp hfloat)⟩

theorem executable_of_collect (hnests : 0 < py.recursionLimit)
    (hreadable : ∀ argument ∈ arguments, ∃ depth, Readable py depth argument.2)
    (hres : collect (·.2.name) (accepted arguments) (getParameters .simple) = .ok res) :
    Executable py arguments (saveConfigFor .simple res folder) ↔ NoFloatGiven arguments := by
  obtain ⟨holder, hholder, hvalues⟩ := loadArgumentsFromFile_saved folder hnests hreadable hres
  obtain ⟨args, hargs, hintegers, hfloats⟩ := ofHolder_saved hvalues
  have hload : (loadArguments py .simple (saveConfigFor .simple res folder)).1 = .ok holder := by
    rw [loadArguments_of_file hholder]
  rw [← hfloats, ← faithful_iff args, hintegers]
  constructor
  · rintro ⟨other, otherArgs, hother, hotherArgs, hfaithful⟩
    rw [hload] at hother
    cases hother
    rw [hargs] at hotherArgs
    cases hotherArgs
    exact hfaithful
  · exact fun hfaithful => ⟨holder, args, hload, hargs, hfaithful⟩

end Loading

/-- Accepted arguments can be executed exactly when no float is given where an
instruction is formatted. -/
theorem accepted_executable_iff (py : Json.Runtime) (hnests : 0 < py.recursionLimit)
    (arguments : Members) (hreadable : ∀ argument ∈ arguments, ∃ depth, Readable py depth argument.2)
    (folder : Folder)
    (haccepted : (saveAlgorithmArguments (getName .simple) arguments folder).1 = .ok ()) :
    Executable py arguments (saveAlgorithmArguments (getName .simple) arguments folder).2 ↔
      NoFloatGiven arguments := by
  obtain ⟨algorithm, res, hname, hres, hafter⟩ := saveAlgorithmArguments_eq_ok haccepted
  cases algorithm with
  | simple =>
    rw [hafter]
    exact executable_of_collect hnests hreadable hres
  | smart => cases hname

def simpleArguments (speed : Value) : Members :=
  [("speed".toList, speed), ("enable_motor".toList, .bool true),
    ("reverse_distance".toList, .number (.int 20)),
    ("reverse_distance_speed".toList, .number (.int 1000)),
    ("reverse_with_break".toList, .bool false), ("cliffs".toList, .bool false),
    ("vacuum_motor".toList, .number (.int 50))]

theorem readable_simpleArguments {speed : Value}
    (hspeed : Readable (readingRuntime Smart.one) 0 speed) :
    ∀ argument ∈ simpleArguments speed, ∃ depth,
      Readable (readingRuntime Smart.one) depth argument.2 := by
  simp only [simpleArguments, List.forall_mem_cons, List.not_mem_nil, false_imp_iff, implies_true,
    and_true]
  exact ⟨⟨0, hspeed⟩, ⟨0, .bool⟩, ⟨0, .int (.inr (by decide))⟩, ⟨0, .int (.inr (by decide))⟩,
    ⟨0, .bool⟩, ⟨0, .bool⟩, ⟨0, .int (.inr (by decide))⟩⟩

theorem executable_with_speed_five : Executable (readingRuntime Smart.one)
    (simpleArguments (.number (.int 5)))
    (saveAlgorithmArguments (getName .simple) (simpleArguments (.number (.int 5)))
      fun _ => none).2 := by
  refine (accepted_executable_iff (readingRuntime Smart.one) (by decide)
    (simpleArguments (.number (.int 5))) (readable_simpleArguments (.int (.inr (by decide))))
    (fun _ => none) rfl).mpr ?_
  intro parameter hparameter x hx
  simp only [List.mem_cons, List.not_mem_nil, or_false] at hparameter
  rcases hparameter with rfl | rfl | rfl <;> cases hx

/-- The speed 1.0 lies in its range, but has no hexadecimal format. -/
theorem float_speed_accepted_not_executable : ¬ ∀ (py : Json.Runtime) (arguments : Members)
    (folder : Folder), 0 < py.recursionLimit →
    (∀ argument ∈ arguments, ∃ depth, Readable py depth argument.2) →
    (saveAlgorithmArguments (getName .simple) arguments folder).1 = .ok () →
    Executable py arguments (saveAlgorithmArguments (getName .simple) arguments folder).2 := by
  intro h
  have hvalue : Smart.one.value = 1 := by
    simp [Numeral.Decimal.value, Smart.one, Config.pointOne, Numeral.digitsText,
      Numeral.digitsNumber]
    rfl
  have hinteger : asInteger (.number (.float (.finite Smart.one))) = some 1 := by
    simp only [asInteger, asNumber, hvalue]
    rfl
  have hmeets :
      doesValueMeetType Simple.speed.type (.number (.float (.finite Smart.one))) = true := by
    simp only [Simple.speed, doesValueMeetType, hinteger]
    rfl
  have hspeed : accepted (simpleArguments (.number (.float (.finite Smart.one)))) Simple.speed =
      .ok (.number (.float (.finite Smart.one))) := if_pos hmeets
  have hres : collect (·.2.name) (accepted (simpleArguments (.number (.float (.finite Smart.one)))))
      (getParameters .simple) = .ok (simpleArguments (.number (.float (.finite Smart.one)))) := by
    simp only [getParameters, Simple.parameters, collect, hspeed]
    rfl
  have hsave : saveAlgorithmArguments (getName .simple)
      (simpleArguments (.number (.float (.finite Smart.one)))) (fun _ => none) =
        (.ok (), saveConfigFor .simple
          (simpleArguments (.number (.float (.finite Smart.one)))) fun _ => none) := by
    unfold saveAlgorithmArguments
    rw [getAlgorithmClass_getName]
    dsimp only
    rw [hres]
  have hreadable := readable_simpleArguments (readable_reading isShortest_one 0)
  have hexecutable := h (readingRuntime Smart.one) _ (fun _ => none) (by decide) hreadable
    (by rw [hsave])
  rw [hsave] at hexecutable
  have hnoFloat := (executable_of_collect (by decide) hreadable hres).mp hexecutable
  exact hnoFloat Simple.speed (by simp) _ rfl

end VacuumCleaner.Core.SimpleCalls
