import VacuumCleaner.A1.Fields
import VacuumCleaner.A1.Wheels
import VacuumCleaner.PowerController.Board

/-! A1's side of the main power: the commands it sends to the board, the last
frame it read from it, and the timer that is polled in every main loop. -/
namespace VacuumCleaner.A1

open InstructionHandler Fields PowerController

def requestedBytes : Nat := 5

structure Power where
  timeToTurnOff : UInt32 := 0
  powerState : UInt8 := 0
  chargingState : UInt8 := 0
  chargingWorkStatus : UInt8 := 0
  batteryVoltageIntPart : UInt8 := 0
  batteryVoltageDecPart : UInt8 := 0
  dataIsRequested : Bool := false
  /-- The bytes of the bus that nobody has read yet. -/
  available : List UInt8 := []
  deriving DecidableEq, Repr

namespace Power

/-- `answer` is what the board gives to a request at this moment. -/
def tick (answer : List UInt8) (power : Power) : Power :=
  if power.dataIsRequested ∧ power.available.length = requestedBytes then
    { power with
      powerState := power.available.getD 0 0
      chargingState := power.available.getD 1 0
      chargingWorkStatus := power.available.getD 2 0
      batteryVoltageIntPart := power.available.getD 3 0
      batteryVoltageDecPart := power.available.getD 4 0
      available := []
      dataIsRequested := false }
  else { power with available := answer, dataIsRequested := true }

/-- The timer check at the head of `propagandate_tick_signal`: nothing clears
the timer, so it sends its command again in every loop. -/
def timerCommands (now : UInt32) (power : Power) : List UInt8 :=
  if 0 < power.timeToTurnOff ∧ power.timeToTurnOff ≤ now then [setTurnedOffState] else []

/-- State, commands for the board, and error code of a failed instruction. -/
abbrev Outcome := Power × List UInt8 × Option Nat

variable (input : List Char) (power : Power)

def onHasBeenInitialized : Outcome :=
  match charAt input 0 with
  | 'S' => (power, [setTurnedOnState], none)
  | 'F' => (power, [setErrorState], none)
  | _ => (power, [], some 0x1)

def onSetShuttingDownState : Outcome := (power, [setShuttingDownState], none)

def onCutOffThePower : Outcome := (power, [setTurnedOffState], none)

def onSetErrorStateInPowerController : Outcome :=
  match charAt input 0 with
  | 'T' => (power, [setErrorState], none)
  | 'F' => (power, [resetErrorState], none)
  | _ => (power, [], some 0x1)

def onSetBootingUpState : Outcome := (power, [setBootingUpState], none)

/-- `seconds*1000` is computed in an `int` of 16 bits. -/
def onSetTimerToTurnOff (beyond : StackBytes) (now : UInt32) : Outcome :=
  match validated beyond input 0 (toSigned 8) 0x1 with
  | .error errorCode => (power, [], some errorCode)
  | .ok seconds =>
    if power.powerState ≠ 0x3 then (power, [], some 0x2)
    else ({ power with
      timeToTurnOff := now + UInt32.ofInt (toSigned 16 (seconds * 1000)) }, [], none)

/-- The instructions about the main power. -/
def callback (beyond : StackBytes) (now : UInt32) : Callback → Option Outcome
  | .onHasBeenInitialized => some (onHasBeenInitialized input power)
  | .onSetShuttingDownState => some (onSetShuttingDownState power)
  | .onCutOffThePower => some (onCutOffThePower power)
  | .onSetErrorStateInPowerController => some (onSetErrorStateInPowerController input power)
  | .onSetBootingUpState => some (onSetBootingUpState power)
  | .onSetTimerToTurnOff => some (onSetTimerToTurnOff input power beyond now)
  | _ => none

end Power
end VacuumCleaner.A1
