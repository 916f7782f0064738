import VacuumCleaner.A1.Buzzer
import VacuumCleaner.A1.Fields
import VacuumCleaner.A1.Motor
import VacuumCleaner.Lib.Fallible

/-! The instructions that drive wheels, motors and buzzer. A component that
answers later keeps the id of one request. -/
namespace VacuumCleaner.A1

open InstructionHandler Fields Lib

inductive MotorName
  | vacuum | leftBrush | rightBrush | mainBrush
  deriving DecidableEq, Repr

inductive Component
  | wheels | motor (name : MotorName) | buzzer
  deriving DecidableEq, Repr

structure Actuators where
  wheels : Wheels := {}
  motors : MotorName → Motor := fun _ => {}
  buzzer : Buzzer := {}

/-- Actuators and the replies that a call sends at once, or its error code. -/
abbrev Outcome := Except Nat (Actuators × List Reply)

namespace Actuators

def setMotor (name : MotorName) (motor : Motor) (actuators : Actuators) : Actuators :=
  { actuators with motors := Function.update actuators.motors name motor }

variable (fpu : FloatUnit) (beyond : StackBytes) (id : RequestId) (input : List Char)
  (actuators : Actuators)

def onBeep : Outcome := do
  let beepCount ← validated beyond input 0 (toSigned 8) 0x1
  let period ← validated beyond input 1 (toSigned 16) 0x2
  return ({ actuators with
    buzzer := actuators.buzzer.beep id (toUnsigned 8 beepCount) (toUnsigned 16 period) }, [])

def onMove : Outcome := do
  let direction ← validated beyond input 0 (toSigned 8) 0x1
  let distanceInSm ← validated beyond input 1 (toSigned 32) 0x1
  let speedSmPerMinute ← validated beyond input 2 (toSigned 32) 0x1
  let nWithBreak ← validated beyond input 3 (toSigned 8) 0x1
  let forward ← choice direction 0x2
  let withBreak ← choice nWithBreak 0x3
  return ({ actuators with
    wheels := actuators.wheels.move fpu id (toUnsigned 32 distanceInSm)
      (toUnsigned 32 speedSmPerMinute) forward withBreak }, [])

def onTurn : Outcome := do
  let side ← validated beyond input 0 (toSigned 8) 0x1
  let degree ← validated beyond input 1 (toSigned 16) 0x1
  let speed ← validated beyond input 2 (toSigned 16) 0x1
  let nWithBreak ← validated beyond input 3 (toSigned 8) 0x1
  let withBreak ← choice nWithBreak 0x3
  let left ← choice side 0x5
  return ({ actuators with
    wheels := actuators.wheels.turn fpu id (if left then .left else .right)
      (toUnsigned 16 degree) (toUnsigned 32 speed) withBreak }, [])

def onWalk : Outcome := do
  let direction ← validated beyond input 0 (toSigned 8) 0x1
  let speedSmPerMinute ← validated beyond input 1 (toSigned 32) 0x1
  let forward ← choice direction 0x2
  let (wheels, replies) :=
    actuators.wheels.walk id (toUnsigned 32 speedSmPerMinute) forward
  return ({ actuators with wheels }, replies)

def onRotate : Outcome := do
  let direction ← validated beyond input 0 (toSigned 8) 0x1
  let speed ← validated beyond input 1 (toSigned 16) 0x2
  let left ← choice direction 0x3
  let (wheels, replies) :=
    actuators.wheels.rotate id (if left then .left else .right) (toUnsigned 32 speed)
  return ({ actuators with wheels }, replies)

/-- Without `VALIDATE_PARSING`: a parsing error is above 100 as an `uint8_t`. -/
def setMotorSignal (name : MotorName) : Outcome :=
  let value := toUnsigned 8 (fetchUnsignedHexNumber (beyond 0) input 0)
  if value > 100 then .error 0x1
  else .ok (actuators.setMotor name ((actuators.motors name).set id value), [])

def onVacuumMotor : Outcome := setMotorSignal beyond id input actuators .vacuum
def onLeftBrushMotor : Outcome := setMotorSignal beyond id input actuators .leftBrush
def onRightBrushMotor : Outcome := setMotorSignal beyond id input actuators .rightBrush
def onMainBrushMotor : Outcome := setMotorSignal beyond id input actuators .mainBrush

/-- The component behind an instruction of the actuators, and what the
instruction does with it. -/
def callback : Callback → Option (Component × Outcome)
  | .onBeep => some (.buzzer, actuators.onBeep beyond id input)
  | .onMove => some (.wheels, onMove fpu beyond id input actuators)
  | .onTurn => some (.wheels, onTurn fpu beyond id input actuators)
  | .onWalk => some (.wheels, onWalk beyond id input actuators)
  | .onRotate => some (.wheels, onRotate beyond id input actuators)
  | .onVacuumMotor => some (.motor .vacuum, onVacuumMotor beyond id input actuators)
  | .onLeftBrushMotor => some (.motor .leftBrush, onLeftBrushMotor beyond id input actuators)
  | .onRightBrushMotor => some (.motor .rightBrush, onRightBrushMotor beyond id input actuators)
  | .onMainBrushMotor => some (.motor .mainBrush, onMainBrushMotor beyond id input actuators)
  | _ => none

/-- The id that a component stores while its pending flag is set. -/
def pendingId (actuators : Actuators) : Component → Option RequestId
  | .wheels => if actuators.wheels.isMoving then some actuators.wheels.requestId else none
  | .motor name =>
    if (actuators.motors name).isSet then none else some (actuators.motors name).requestId
  | .buzzer => if actuators.buzzer.isExecuting then some actuators.buzzer.requestId else none

/-- What an instruction that is not rejected does with its component. -/
inductive Drives : Callback → Component → Actuators → List Reply → Prop
  | beep (count period : Nat) : Drives .onBeep .buzzer
      { actuators with buzzer := actuators.buzzer.beep id count period } []
  | move (distance speed : Nat) (forward withBreak : Bool) : Drives .onMove .wheels
      { actuators with wheels := actuators.wheels.move fpu id distance speed forward withBreak } []
  | turn (side : SideDirection) (degree speed : Nat) (withBreak : Bool) : Drives .onTurn .wheels
      { actuators with wheels := actuators.wheels.turn fpu id side degree speed withBreak } []
  | walk (speed : Nat) (forward : Bool) : Drives .onWalk .wheels
      { actuators with wheels := (actuators.wheels.walk id speed forward).1 }
      (actuators.wheels.walk id speed forward).2
  | rotate (side : SideDirection) (speed : Nat) : Drives .onRotate .wheels
      { actuators with wheels := (actuators.wheels.rotate id side speed).1 }
      (actuators.wheels.rotate id side speed).2
  | vacuumMotor (value : Nat) : Drives .onVacuumMotor (.motor .vacuum)
      (actuators.setMotor .vacuum ((actuators.motors .vacuum).set id value)) []
  | leftBrushMotor (value : Nat) : Drives .onLeftBrushMotor (.motor .leftBrush)
      (actuators.setMotor .leftBrush ((actuators.motors .leftBrush).set id value)) []
  | rightBrushMotor (value : Nat) : Drives .onRightBrushMotor (.motor .rightBrush)
      (actuators.setMotor .rightBrush ((actuators.motors .rightBrush).set id value)) []
  | mainBrushMotor (value : Nat) : Drives .onMainBrushMotor (.motor .mainBrush)
      (actuators.setMotor .mainBrush ((actuators.motors .mainBrush).set id value)) []

section Drives

variable {fpu beyond id input actuators} {next : Actuators} {replies : List Reply}

theorem onBeep_ok (h : onBeep beyond id input actuators = .ok (next, replies)) :
    Drives fpu id actuators .onBeep .buzzer next replies := by
  obtain ⟨_, -, h⟩ := bind_ok h
  obtain ⟨_, -, h⟩ := bind_ok h
  cases h
  exact .beep ..

theorem onMove_ok (h : onMove fpu beyond id input actuators = .ok (next, replies)) :
    Drives fpu id actuators .onMove .wheels next replies := by
  obtain ⟨_, -, h⟩ := bind_ok h
  obtain ⟨_, -, h⟩ := bind_ok h
  obtain ⟨_, -, h⟩ := bind_ok h
  obtain ⟨_, -, h⟩ := bind_ok h
  obtain ⟨_, -, h⟩ := bind_ok h
  obtain ⟨_, -, h⟩ := bind_ok h
  cases h
  exact .move ..

theorem onTurn_ok (h : onTurn fpu beyond id input actuators = .ok (next, replies)) :
    Drives fpu id actuators .onTurn .wheels next replies := by
  obtain ⟨_, -, h⟩ := bind_ok h
  obtain ⟨_, -, h⟩ := bind_ok h
  obtain ⟨_, -, h⟩ := bind_ok h
  obtain ⟨_, -, h⟩ := bind_ok h
  obtain ⟨_, -, h⟩ := bind_ok h
  obtain ⟨_, -, h⟩ := bind_ok h
  cases h
  exact .turn ..

theorem onWalk_ok (h : onWalk beyond id input actuators = .ok (next, replies)) :
    Drives fpu id actuators .onWalk .wheels next replies := by
  obtain ⟨_, -, h⟩ := bind_ok h
  obtain ⟨_, -, h⟩ := bind_ok h
  obtain ⟨_, -, h⟩ := bind_ok h
  cases h
  exact .walk ..

theorem onRotate_ok (h : onRotate beyond id input actuators = .ok (next, replies)) :
    Drives fpu id actuators .onRotate .wheels next replies := by
  obtain ⟨_, -, h⟩ := bind_ok h
  obtain ⟨_, -, h⟩ := bind_ok h
  obtain ⟨_, -, h⟩ := bind_ok h
  cases h
  exact .rotate ..

theorem setMotorSignal_ok {name : MotorName}
    (h : setMotorSignal beyond id input actuators name = .ok (next, replies)) :
    ∃ value, next = actuators.setMotor name ((actuators.motors name).set id value) ∧
      replies = [] := by
  unfold setMotorSignal at h
  dsimp only at h
  split at h
  · cases h
  · cases h
    exact ⟨_, rfl, rfl⟩

theorem drives_of_callback {name : Callback} {component : Component}
    (h : callback fpu beyond id input actuators name = some (component, .ok (next, replies))) :
    Drives fpu id actuators name component next replies := by
  cases name <;> simp only [callback, Option.some.injEq, Prod.mk.injEq, reduceCtorEq] at h <;>
    obtain ⟨rfl, h⟩ := h
  case onBeep => exact onBeep_ok h
  case onMove => exact onMove_ok h
  case onTurn => exact onTurn_ok h
  case onWalk => exact onWalk_ok h
  case onRotate => exact onRotate_ok h
  case onVacuumMotor =>
    obtain ⟨value, rfl, rfl⟩ := setMotorSignal_ok h
    exact .vacuumMotor value
  case onLeftBrushMotor =>
    obtain ⟨value, rfl, rfl⟩ := setMotorSignal_ok h
    exact .leftBrushMotor value
  case onRightBrushMotor =>
    obtain ⟨value, rfl, rfl⟩ := setMotorSignal_ok h
    exact .rightBrushMotor value
  case onMainBrushMotor =>
    obtain ⟨value, rfl, rfl⟩ := setMotorSignal_ok h
    exact .mainBrushMotor value

end Drives

end Actuators
end VacuumCleaner.A1
