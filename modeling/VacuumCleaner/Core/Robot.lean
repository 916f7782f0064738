import VacuumCleaner.Core.Socket
import VacuumCleaner.Lib.Json

/-! `RobotUART`: the calls of the robot and the instructions they send. -/
namespace VacuumCleaner.Core.Robot

open Lib.Hex Lib.Json

inductive LedState
  | off | on | blinking
  deriving DecidableEq, Repr

def LedState.value : LedState → List Char
  | .off => ['L']
  | .on => ['H']
  | .blinking => ['B']

/-- The call of `send_instruction` behind a robot call. -/
structure Instruction where
  instructionId : Nat
  parameters : List Char
  timeout : Option Int := some 1000
  deriving DecidableEq, Repr

/-- `f'{value:x}'`. -/
def hex (value : Int) : List Char :=
  if value < 0 then '-' :: hexText value.natAbs else hexText value.natAbs

/-- The texts `1` and `2` that stand for the two values of a flag. -/
def flag (value : Bool) : List Char := if value then ['1'] else ['2']

def fields (parameters : List (List Char)) : List Char := List.intercalate [';'] parameters

inductive Command
  | coreIsInitialized (isSuccessful : Bool)
  | beep (count period : Int)
  | setErrorState (enable : Bool)
  | setBluetoothLedState (green : Bool) (state : LedState)
  | setWifiLed (state : LedState)
  | setErrorLed (state : LedState)
  | setVacuumMotor (value : Int)
  | setLeftBrushMotor (value : Int)
  | setRightBrushMotor (value : Int)
  | setMainBrushMotor (value : Int)
  | walk (forward : Bool) (speed : Int)
  | move (distance speed : Int) (forward withBreak : Bool)
  | turn (left : Bool) (angle speed : Int) (withBreak : Bool)
  | rotate (left : Bool) (speed : Int)
  | getDateTime
  | setDateTime (year month day hour minute second : Int)
  | setPid (p i d : Number)
  | setTimerToCutOffPower (seconds : Int)
  | setBootingUpLed
  | setShuttingDownLed
  deriving DecidableEq

namespace Command

def walkForward (speed : Int) : Command := walk true speed
def walkBackward (speed : Int) : Command := walk false speed
def moveForward (distance speed : Int) (withBreak : Bool) : Command :=
  move distance speed true withBreak
def moveBackward (distance speed : Int) (withBreak : Bool) : Command :=
  move distance speed false withBreak
def turnLeft (angle speed : Int) (withBreak : Bool) : Command := turn true angle speed withBreak
def turnRight (angle speed : Int) (withBreak : Bool) : Command := turn false angle speed withBreak
def rotateLeft (speed : Int) : Command := rotate true speed
def rotateRight (speed : Int) : Command := rotate false speed

/-- A move of no distance at no speed. -/
def stopMovement (withBreak : Bool) : Command := moveForward 0 0 withBreak

def instruction : Command → Instruction
  | coreIsInitialized isSuccessful => ⟨0x01, if isSuccessful then ['S'] else ['F'], some 1000⟩
  | beep count period => ⟨0x05, fields [hex count, hex period], none⟩
  | setErrorState enable => ⟨0x11, if enable then ['T'] else ['F'], some 1000⟩
  | setBluetoothLedState green state =>
    ⟨0x17, fields [state.value, if green then ['G'] else ['R']], some 1000⟩
  | setWifiLed state => ⟨0x02, state.value, some 1000⟩
  | setErrorLed state => ⟨0x03, state.value, some 1000⟩
  | setVacuumMotor value => ⟨0x08, hex value, some 5000⟩
  | setLeftBrushMotor value => ⟨0x09, hex value, some 5000⟩
  | setRightBrushMotor value => ⟨0x0A, hex value, some 5000⟩
  | setMainBrushMotor value => ⟨0x12, hex value, some 5000⟩
  | walk forward speed => ⟨0x13, fields [flag forward, hex speed], some 1000⟩
  | move distance speed forward withBreak =>
    ⟨0x06, fields [flag forward, hex distance, hex speed, flag withBreak], none⟩
  | turn left angle speed withBreak =>
    ⟨0x07, fields [flag left, hex angle, hex speed, flag withBreak], none⟩
  | rotate left speed => ⟨0x14, fields [flag left, hex speed], some 1000⟩
  | getDateTime => ⟨0x0C, ['Y', '-', 'd', '-', 'm', ' ', 'H', ':', 'i', ':', 's'], some 1000⟩
  | setDateTime year month day hour minute second =>
    ⟨0x0D, fields [hex year, hex month, hex day, hex hour, hex minute, hex second], some 1000⟩
  | setPid p i d => ⟨0x15, fields [p.str, i.str, d.str], some 1000⟩
  | setTimerToCutOffPower seconds => ⟨0xFF, hex seconds, some 1000⟩
  | setBootingUpLed => ⟨0x16, [], some 1000⟩
  | setShuttingDownLed => ⟨0x0F, [], some 1000⟩

end Command
end VacuumCleaner.Core.Robot
