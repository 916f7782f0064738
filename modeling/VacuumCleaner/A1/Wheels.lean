import VacuumCleaner.A1.InstructionHandler

/-! The two driven wheels. The timer interrupt ticks each wheel; the main loop
ticks the pair and answers the pending move once both wheels are idle. -/
namespace VacuumCleaner.A1

open InstructionHandler

/-- The answers that components send through the instruction handler. -/
inductive Reply
  | finished (requestId : RequestId)
  | failed (requestId : RequestId) (errorCode : Nat)
  | result (requestId : RequestId) (result : List Char)
  deriving DecidableEq, Repr

def Reply.requestId : Reply → RequestId
  | .finished requestId => requestId
  | .failed requestId _ => requestId
  | .result requestId _ => requestId

/-- The conversions that the firmware makes in floating point. -/
structure FloatUnit where
  pulsesToMove : (distanceInMm : Nat) → Nat
  angleDistanceInSm : (angle : Nat) → Nat

inductive WheelState
  | idle | moving | endlessWalking | stopped
  deriving DecidableEq, Repr

inductive SideDirection
  | left | right
  deriving DecidableEq, Repr

def low : UInt8 := 0
def high : UInt8 := 255

/-- One wheel; the pins hold the duty last written to them. -/
structure Wheel where
  wheelState : WheelState := .idle
  forwardPin : UInt8 := low
  backwardPin : UInt8 := low
  wheelPulsesCount : UInt64 := 0
  pulsesToMove : UInt64 := 0
  speedSetpoint : Nat := 0
  withBreak : Bool := false
  forwardDirectionToMove : Bool := false
  deriving DecidableEq, Repr

namespace Wheel

def stopMotor (wheel : Wheel) : Wheel := { wheel with forwardPin := high, backwardPin := high }

def netralMotor (wheel : Wheel) : Wheel := { wheel with forwardPin := low, backwardPin := low }

/-- `_measure_pid_and_set_speed`; `res` is the output of the PID controller. -/
def setSpeed (res : UInt8) (wheel : Wheel) : Wheel :=
  if wheel.forwardDirectionToMove then { wheel with forwardPin := res }
  else { wheel with backwardPin := res }

def tick (res : UInt8) (wheel : Wheel) : Wheel :=
  let wheel :=
    if wheel.wheelState = .moving ∧ wheel.pulsesToMove ≤ wheel.wheelPulsesCount then
      { wheel with wheelState := .stopped }
    else wheel
  if wheel.wheelState = .moving ∨ wheel.wheelState = .endlessWalking then wheel.setSpeed res
  else if wheel.wheelState = .stopped then
    { (if wheel.withBreak then wheel.stopMotor else wheel.netralMotor) with wheelState := .idle }
  else wheel

def pulse (wheel : Wheel) : Wheel :=
  { wheel with wheelPulsesCount := wheel.wheelPulsesCount + 1 }

def move (fpu : FloatUnit) (distanseSm speed : Nat) (withBreak forward : Bool) (wheel : Wheel) :
    Wheel :=
  { wheel.netralMotor with
    forwardDirectionToMove := forward
    speedSetpoint := speed
    withBreak := withBreak
    wheelPulsesCount := 0
    pulsesToMove := UInt64.ofNat (fpu.pulsesToMove (distanseSm * 10 % 2 ^ 32))
    wheelState := .moving }

def walk (speedSmPerMinute : Nat) (forward : Bool) (wheel : Wheel) : Wheel :=
  { wheel.netralMotor with
    forwardDirectionToMove := forward
    speedSetpoint := speedSmPerMinute
    wheelState := .endlessWalking }

@[simp] theorem wheelState_move (fpu : FloatUnit) (distanseSm speed : Nat)
    (withBreak forward : Bool) (wheel : Wheel) :
    (wheel.move fpu distanseSm speed withBreak forward).wheelState = .moving := rfl

@[simp] theorem withBreak_move (fpu : FloatUnit) (distanseSm speed : Nat)
    (withBreak forward : Bool) (wheel : Wheel) :
    (wheel.move fpu distanseSm speed withBreak forward).withBreak = withBreak := rfl

@[simp] theorem wheelState_walk (speedSmPerMinute : Nat) (forward : Bool) (wheel : Wheel) :
    (wheel.walk speedSmPerMinute forward).wheelState = .endlessWalking := rfl

/-- Both pins as the end of a move leaves them. -/
def Released (wheel : Wheel) : Prop :=
  wheel.forwardPin = (if wheel.withBreak then high else low) ∧
    wheel.backwardPin = (if wheel.withBreak then high else low)

def isRunning (wheel : Wheel) : Prop :=
  wheel.wheelState = .moving ∨ wheel.wheelState = .endlessWalking

def isReached (wheel : Wheel) : Prop :=
  wheel.wheelState = .moving ∧ wheel.pulsesToMove ≤ wheel.wheelPulsesCount

instance (wheel : Wheel) : Decidable wheel.isRunning := inferInstanceAs (Decidable (_ ∨ _))

instance (wheel : Wheel) : Decidable wheel.isReached := inferInstanceAs (Decidable (_ ∧ _))

/-- The end of a move, in `tick`. -/
def stop (wheel : Wheel) : Wheel :=
  { (if wheel.withBreak then wheel.stopMotor else wheel.netralMotor) with wheelState := .idle }

theorem tick_of_stopping {wheel : Wheel} (res : UInt8)
    (hstopping : wheel.wheelState = .stopped ∨ wheel.isReached) : wheel.tick res = wheel.stop := by
  cases hstopping with
  | inl hstopped => simp [tick, hstopped, stop]
  | inr hreached =>
    cases hbreak : wheel.withBreak <;>
      simp [tick, hreached.1, hreached.2, stop, hbreak, stopMotor, netralMotor]

theorem tick_of_running {wheel : Wheel} (res : UInt8) (hrunning : wheel.isRunning)
    (hreached : ¬ wheel.isReached) : wheel.tick res = wheel.setSpeed res := by
  rw [tick, if_neg (show ¬ (wheel.wheelState = .moving ∧ _) from hreached)]
  exact if_pos hrunning

theorem tick_cases (res : UInt8) (wheel : Wheel) :
    (wheel.isRunning ∧ ¬ wheel.isReached ∧ wheel.tick res = wheel.setSpeed res) ∨
      ((wheel.wheelState = .stopped ∨ wheel.isReached) ∧ wheel.tick res = wheel.stop) ∨
      (wheel.wheelState = .idle ∧ wheel.tick res = wheel) := by
  by_cases hreached : wheel.isReached
  · exact .inr (.inl ⟨.inr hreached, tick_of_stopping res (.inr hreached)⟩)
  · cases hstate : wheel.wheelState with
    | idle => exact .inr (.inr ⟨rfl, by simp [tick, hstate]⟩)
    | moving =>
      have hrunning : wheel.isRunning := .inl hstate
      exact .inl ⟨hrunning, hreached, tick_of_running res hrunning hreached⟩
    | endlessWalking =>
      have hrunning : wheel.isRunning := .inr hstate
      exact .inl ⟨hrunning, hreached, tick_of_running res hrunning hreached⟩
    | stopped => exact .inr (.inl ⟨.inl rfl, tick_of_stopping res (.inl hstate)⟩)

@[simp] theorem withBreak_setSpeed (res : UInt8) (wheel : Wheel) :
    (wheel.setSpeed res).withBreak = wheel.withBreak := by
  unfold setSpeed
  split <;> rfl

@[simp] theorem wheelState_setSpeed (res : UInt8) (wheel : Wheel) :
    (wheel.setSpeed res).wheelState = wheel.wheelState := by
  unfold setSpeed
  split <;> rfl

@[simp] theorem direction_setSpeed (res : UInt8) (wheel : Wheel) :
    (wheel.setSpeed res).forwardDirectionToMove = wheel.forwardDirectionToMove := by
  unfold setSpeed
  split <;> rfl

@[simp] theorem wheelState_stop (wheel : Wheel) : wheel.stop.wheelState = .idle := rfl

@[simp] theorem withBreak_stop (wheel : Wheel) : wheel.stop.withBreak = wheel.withBreak := by
  cases hbreak : wheel.withBreak <;> simp [stop, hbreak, stopMotor, netralMotor]

@[simp] theorem direction_stop (wheel : Wheel) :
    wheel.stop.forwardDirectionToMove = wheel.forwardDirectionToMove := by
  cases hbreak : wheel.withBreak <;> simp [stop, hbreak, stopMotor, netralMotor]

theorem released_stop (wheel : Wheel) : wheel.stop.Released := by
  cases hbreak : wheel.withBreak <;> simp [Released, stop, hbreak, stopMotor, netralMotor]

theorem tick_spec (res : UInt8) (wheel : Wheel) :
    (wheel.tick res).withBreak = wheel.withBreak ∧
      ((wheel.tick res).wheelState = .endlessWalking ↔ wheel.wheelState = .endlessWalking) ∧
      ((wheel.tick res).wheelState = .idle → wheel.tick res = wheel ∨ (wheel.tick res).Released) := by
  obtain ⟨hrunning, -, htick⟩ | ⟨hstopping, htick⟩ | ⟨-, htick⟩ := tick_cases res wheel
  · rw [htick]
    refine ⟨withBreak_setSpeed res wheel, by rw [wheelState_setSpeed], fun hidle => ?_⟩
    rw [wheelState_setSpeed] at hidle
    simp [isRunning, hidle] at hrunning
  · rw [htick]
    refine ⟨withBreak_stop wheel, ?_, fun _ => .inr (released_stop wheel)⟩
    have hstate : wheel.wheelState = .stopped ∨ wheel.wheelState = .moving :=
      hstopping.imp_right And.left
    cases hstate with
    | inl hstopped => simp [hstopped]
    | inr hmoving => simp [hmoving]
  · exact ⟨by rw [htick], by rw [htick], fun _ => .inl htick⟩

end Wheel

structure Wheels where
  leftWheel : Wheel := {}
  rightWheel : Wheel := {}
  isMoving : Bool := false
  requestId : RequestId := 0
  deriving DecidableEq, Repr

namespace Wheels

/-- The first part of `tick`: a wheel left alone by its pair is stopped. -/
def stopLoneWheel (wheels : Wheels) : Wheels :=
  if wheels.leftWheel.wheelState = .idle ∧ wheels.rightWheel.wheelState = .moving then
    { wheels with rightWheel := { wheels.rightWheel with wheelState := .stopped } }
  else if wheels.rightWheel.wheelState = .idle ∧ wheels.leftWheel.wheelState = .moving then
    { wheels with leftWheel := { wheels.leftWheel with wheelState := .stopped } }
  else wheels

/-- Both wheels idle answers the pending move. -/
def tick (wheels : Wheels) : Wheels × List Reply :=
  let wheels := wheels.stopLoneWheel
  if wheels.isMoving ∧ wheels.leftWheel.wheelState = .idle ∧
      wheels.rightWheel.wheelState = .idle then
    ({ wheels with requestId := 0, isMoving := false }, [.finished wheels.requestId])
  else (wheels, [])

def move (fpu : FloatUnit) (requestId : RequestId) (distanceSm speedSmPerMinute : Nat)
    (forward withBreak : Bool) (wheels : Wheels) : Wheels :=
  { wheels with
    requestId := requestId
    isMoving := true
    leftWheel := wheels.leftWheel.move fpu distanceSm speedSmPerMinute withBreak forward
    rightWheel := wheels.rightWheel.move fpu distanceSm speedSmPerMinute withBreak forward }

def walk (requestId : RequestId) (speedSmPerMinute : Nat) (forward : Bool) (wheels : Wheels) :
    Wheels × List Reply :=
  ({ wheels with
      isMoving := true
      leftWheel := wheels.leftWheel.walk speedSmPerMinute forward
      rightWheel := wheels.rightWheel.walk speedSmPerMinute forward },
    [.finished requestId])

def rotate (requestId : RequestId) (direction : SideDirection) (speedSmPerMinute : Nat)
    (wheels : Wheels) : Wheels × List Reply :=
  ({ wheels with
      isMoving := true
      leftWheel := wheels.leftWheel.walk speedSmPerMinute (direction == .right)
      rightWheel := wheels.rightWheel.walk speedSmPerMinute (direction == .left) },
    [.finished requestId])

def turn (fpu : FloatUnit) (requestId : RequestId) (sideDirection : SideDirection)
    (degree speedSmPerMinute : Nat) (withBreak : Bool) (wheels : Wheels) : Wheels :=
  let distance := fpu.angleDistanceInSm degree
  { wheels with
    requestId := requestId
    isMoving := true
    leftWheel := wheels.leftWheel.move fpu distance speedSmPerMinute withBreak (sideDirection == .right)
    rightWheel := wheels.rightWheel.move fpu distance speedSmPerMinute withBreak (sideDirection == .left) }

@[simp] theorem requestId_stopLoneWheel (wheels : Wheels) :
    wheels.stopLoneWheel.requestId = wheels.requestId := by
  unfold stopLoneWheel
  split
  · rfl
  · split <;> rfl

@[simp] theorem isMoving_stopLoneWheel (wheels : Wheels) :
    wheels.stopLoneWheel.isMoving = wheels.isMoving := by
  unfold stopLoneWheel
  split
  · rfl
  · split <;> rfl

theorem tick_cases (wheels : Wheels) :
    (wheels.tick.2 = [] ∧ wheels.tick.1.requestId = wheels.requestId ∧
      wheels.tick.1.isMoving = wheels.isMoving) ∨
    (wheels.tick.2 = [.finished wheels.requestId] ∧ wheels.isMoving = true ∧
      wheels.tick.1.isMoving = false) := by
  unfold tick
  dsimp only
  split
  · rename_i hidle
    simp only [requestId_stopLoneWheel, isMoving_stopLoneWheel] at hidle ⊢
    exact .inr ⟨trivial, hidle.1, trivial⟩
  · exact .inl ⟨rfl, requestId_stopLoneWheel wheels, isMoving_stopLoneWheel wheels⟩

end Wheels
end VacuumCleaner.A1
