import Mathlib.Tactic.Common

/-! The board that switches the main power. It answers a push button and the
commands that A1 sends over I2C, whose interrupt comes between two loops. -/
namespace VacuumCleaner.PowerController

inductive Status
  | turnedOff | bootingUp | turnedOn | shuttingDown
  deriving DecidableEq, Repr

inductive ChargingState
  | notCharging | charging | charged
  deriving DecidableEq, Repr

inductive ChargingWorkStatus
  | ok | overvoltage | undervoltage | discrepancy
  deriving DecidableEq, Repr

inductive ButtonState
  | nothing | pressed | longPressed
  deriving DecidableEq, Repr

def Status.toByte : Status → UInt8
  | .turnedOff => 0
  | .bootingUp => 1
  | .turnedOn => 2
  | .shuttingDown => 3

def ChargingState.toByte : ChargingState → UInt8
  | .notCharging => 0
  | .charging => 1
  | .charged => 2

def ChargingWorkStatus.toByte : ChargingWorkStatus → UInt8
  | .ok => 0
  | .overvoltage => 1
  | .undervoltage => 2
  | .discrepancy => 3

def setTurnedOnState : UInt8 := 0x01
def setShuttingDownState : UInt8 := 0x02
def setTurnedOffState : UInt8 := 0x03
def setErrorState : UInt8 := 0x04
def resetErrorState : UInt8 := 0x05
def setBootingUpState : UInt8 := 0x06

/-- What the pins give in one loop: the raw reading of the charging voltage,
the two charger lines and the battery voltage, split at its decimal point. -/
structure Pins where
  chargingVoltage : Nat := 0
  isCharging : Bool := false
  isCharged : Bool := false
  batteryVoltageIntPart : UInt8 := 0
  batteryVoltageDecPart : UInt8 := 0
  deriving DecidableEq, Repr

structure Board where
  currentStatus : Status := .turnedOff
  chargingState : ChargingState := .notCharging
  chargingWorkStatus : ChargingWorkStatus := .ok
  isError : Bool := false
  relayIsHigh : Bool := false
  batteryVoltageIntPart : UInt8 := 0
  batteryVoltageDecPart : UInt8 := 0
  deriving DecidableEq, Repr

namespace Board

def requestEvent (board : Board) : List UInt8 :=
  [board.currentStatus.toByte, board.chargingState.toByte, board.chargingWorkStatus.toByte,
    board.batteryVoltageIntPart, board.batteryVoltageDecPart]

/-- A reading of 1023 stands for 20 V. -/
def handleChargering (pins : Pins) (board : Board) : Board :=
  if pins.chargingVoltage * 20 < 12 * 1023 then
    { board with chargingState := .notCharging, chargingWorkStatus := .ok }
  else if pins.isCharging ∧ ¬ pins.isCharged then
    { board with
      chargingState := .charging
      chargingWorkStatus :=
        if pins.chargingVoltage * 20 > 16 * 1023 then .overvoltage
        else if pins.chargingVoltage * 20 < 14 * 1023 then .undervoltage
        else .ok }
  else if pins.isCharged ∧ ¬ pins.isCharging then
    { board with chargingState := .charged, chargingWorkStatus := .ok }
  else { board with chargingWorkStatus := .discrepancy }

def handleButton (buttonState : ButtonState) (status : Status) : Status :=
  match buttonState with
  | .nothing => status
  | .pressed =>
    match status with
    | .turnedOff => .bootingUp
    | .turnedOn => .shuttingDown
    | status => status
  | .longPressed => .turnedOff

def setRelay (board : Board) : Board :=
  match board.currentStatus with
  | .turnedOff => { board with isError := false, relayIsHigh := false }
  | .turnedOn | .bootingUp => { board with relayIsHigh := true }
  | .shuttingDown => board

def loop (buttonState : ButtonState) (pins : Pins) (board : Board) : Board :=
  let board := { board with currentStatus := handleButton buttonState board.currentStatus }
  let board := board.setRelay
  handleChargering pins { board with
    batteryVoltageIntPart := pins.batteryVoltageIntPart
    batteryVoltageDecPart := pins.batteryVoltageDecPart }

/-- The states a command may be received in are checked by the board itself. -/
def onReceiveCommand (command : UInt8) (board : Board) : Board :=
  if command = setBootingUpState then { board with currentStatus := .bootingUp }
  else if command = setTurnedOnState then
    if board.currentStatus = .bootingUp then { board with currentStatus := .turnedOn } else board
  else if command = setShuttingDownState then
    if board.currentStatus = .turnedOn then { board with currentStatus := .shuttingDown } else board
  else if command = setTurnedOffState then
    if board.currentStatus = .shuttingDown then { board with currentStatus := .turnedOff } else board
  else if command = setErrorState then { board with isError := true }
  else if command = resetErrorState then { board with isError := false }
  else board

@[simp] theorem currentStatus_handleChargering (pins : Pins) (board : Board) :
    (board.handleChargering pins).currentStatus = board.currentStatus := by
  unfold handleChargering
  split
  · rfl
  · split
    · rfl
    · split <;> rfl

@[simp] theorem currentStatus_setRelay (board : Board) :
    board.setRelay.currentStatus = board.currentStatus := by
  unfold setRelay
  split
  · rfl
  · rfl
  · rfl
  · rfl

@[simp] theorem currentStatus_loop (buttonState : ButtonState) (pins : Pins) (board : Board) :
    (board.loop buttonState pins).currentStatus = handleButton buttonState board.currentStatus := by
  simp [loop]

theorem currentStatus_onReceiveCommand (command : UInt8) (board : Board) :
    (board.onReceiveCommand command).currentStatus =
      if command = setBootingUpState then .bootingUp
      else if command = setTurnedOnState ∧ board.currentStatus = .bootingUp then .turnedOn
      else if command = setShuttingDownState ∧ board.currentStatus = .turnedOn then .shuttingDown
      else if command = setTurnedOffState ∧ board.currentStatus = .shuttingDown then .turnedOff
      else board.currentStatus := by
  unfold onReceiveCommand
  repeat' split
  all_goals simp_all [setBootingUpState, setTurnedOnState, setShuttingDownState, setTurnedOffState]

theorem turnedOff_of_onReceiveCommand {command : UInt8} {board : Board}
    (hbefore : board.currentStatus ≠ .turnedOff)
    (hafter : (board.onReceiveCommand command).currentStatus = .turnedOff) :
    command = setTurnedOffState ∧ board.currentStatus = .shuttingDown := by
  rw [currentStatus_onReceiveCommand] at hafter
  split at hafter
  · cases hafter
  split at hafter
  · cases hafter
  split at hafter
  · cases hafter
  split at hafter
  · rename_i hcut
    exact hcut
  · exact absurd hafter hbefore

theorem shuttingDown_of_onReceiveCommand {command : UInt8} {board : Board}
    (hbefore : board.currentStatus ≠ .shuttingDown)
    (hafter : (board.onReceiveCommand command).currentStatus = .shuttingDown) :
    command = setShuttingDownState ∧ board.currentStatus = .turnedOn := by
  rw [currentStatus_onReceiveCommand] at hafter
  split at hafter
  · cases hafter
  split at hafter
  · cases hafter
  split at hafter
  · rename_i henter
    exact henter
  split at hafter
  · cases hafter
  · exact absurd hafter hbefore

theorem shuttingDown_of_handleButton {buttonState : ButtonState} {status : Status}
    (hbefore : status ≠ .shuttingDown) (hafter : handleButton buttonState status = .shuttingDown) :
    buttonState = .pressed ∧ status = .turnedOn := by
  cases buttonState <;> cases status <;> simp_all [handleButton]

end Board
end VacuumCleaner.PowerController
