import VacuumCleaner.A1.Actuators
import VacuumCleaner.A1.Pid
import VacuumCleaner.A1.Power

/-! The callbacks of all registered instructions over the state of A1, and the
answers that each of them sends at once. -/
namespace VacuumCleaner.A1

open Lib.Numeral InstructionHandler Fields

inductive LedState
  | on | off | blinking
  deriving DecidableEq, Repr

inductive LedName
  | wifi | error | status | bluetoothRed | bluetoothGreen
  deriving DecidableEq, Repr

/-- The arguments of `DS3231::setDateTime`. -/
structure DateTime where
  year : Nat
  month : Nat
  day : Nat
  hour : Nat
  minute : Nat
  second : Nat
  deriving DecidableEq, Repr

structure Firmware (F : Type) where
  actuators : Actuators := {}
  power : Power := {}
  pid : PidSettings F
  leds : LedName → LedState := fun _ => .off
  dateTime : Option DateTime := none

/-- What a callback reads besides its parameters: the memory behind its buffers,
the time, the clock's text for a format, and the sensor's reading (none where a
value is not a number). -/
structure Surroundings where
  beyond : StackBytes
  now : UInt32
  dateFormat : List Char → List Char
  tempAndHumid : Option (List Char)

namespace Firmware

variable {F : Type}

def setLed (name : LedName) (state : LedState) (firmware : Firmware F) : Firmware F :=
  { firmware with leds := Function.update firmware.leds name state }

/-- What a callback leaves, and the answers it sends. -/
abbrev Answered (F : Type) := Firmware F × List Reply

variable (fpu : FloatUnit) (toFloat : Scanned → F) (around : Surroundings) (id : RequestId)
  (input : List Char) (firmware : Firmware F)

def handleLed (led : LedName) : Answered F :=
  match charAt input 0 with
  | 'H' => (firmware.setLed led .on, [.finished id])
  | 'L' => (firmware.setLed led .off, [.finished id])
  | 'B' => (firmware.setLed led .blinking, [.finished id])
  | _ => (firmware, [.failed id 0x1])

def onLedWifi : Answered F := handleLed id input firmware .wifi
def onLedErr : Answered F := handleLed id input firmware .error
def onLedSt : Answered F := handleLed id input firmware .status

/-- `handleLed` has already answered where the last line answers again. -/
def onBluetoothLedState : Answered F :=
  let firmware := (firmware.setLed .bluetoothGreen .off).setLed .bluetoothRed .off
  match charAt input 2 with
  | 'R' =>
    let (firmware, replies) := handleLed id input firmware .bluetoothRed
    (firmware, replies ++ [.finished id])
  | 'G' =>
    let (firmware, replies) := handleLed id input firmware .bluetoothGreen
    (firmware, replies ++ [.finished id])
  | _ => (firmware, [.failed id 0x2])

/-- The line ending is cut off at its LF only. -/
def onGetCurrentTime : Answered F :=
  (firmware, [.result id (around.dateFormat (input.takeWhile fun c => c ≠ '\n' ∧ c ≠ '\x00'))])

def onSetDataTime : Answered F :=
  let field := fun group width =>
    toSigned width (fetchUnsignedHexNumber (around.beyond group) input group)
  let year := field 0 16
  let month := field 1 8
  let day := field 2 8
  let hour := field 3 8
  let minute := field 4 8
  let second := field 5 8
  if year = parsingError ∨ month = parsingError ∨ day = parsingError ∨ hour = parsingError ∨
      minute = parsingError ∨ second = parsingError then (firmware, [.failed id 0x1])
  else
    ({ firmware with
      dateTime := some ⟨toUnsigned 16 year, toUnsigned 8 month, toUnsigned 8 day,
        toUnsigned 8 hour, toUnsigned 8 minute, toUnsigned 8 second⟩ }, [.finished id])

def onGetTempAndHumid : Answered F :=
  match around.tempAndHumid with
  | none => (firmware, [.failed id 0x1])
  | some text => (firmware, [.result id (text.take 24)])

/-- An instruction of the actuators: a failed one changes nothing. -/
def acted : Outcome → Answered F
  | .ok (actuators, replies) => ({ firmware with actuators }, replies)
  | .error errorCode => (firmware, [.failed id errorCode])

/-- An instruction about the main power. -/
def powered : Power.Outcome → Answered F
  | (power, _, none) => ({ firmware with power }, [.finished id])
  | (power, _, some errorCode) => ({ firmware with power }, [.failed id errorCode])

def setPid : Answered F :=
  let (pid, reply) := onSetPidSettings toFloat id input firmware.pid
  ({ firmware with pid }, [reply])

def callback : Callback → Answered F
  | .onHasBeenInitialized => firmware.powered id (firmware.power.onHasBeenInitialized input)
  | .onLedWifi => onLedWifi id input firmware
  | .onLedErr => onLedErr id input firmware
  | .onLedSt => onLedSt id input firmware
  | .onBeep => firmware.acted id (firmware.actuators.onBeep around.beyond id input)
  | .onMove => firmware.acted id (firmware.actuators.onMove fpu around.beyond id input)
  | .onTurn => firmware.acted id (firmware.actuators.onTurn fpu around.beyond id input)
  | .onVacuumMotor => firmware.acted id (firmware.actuators.onVacuumMotor around.beyond id input)
  | .onLeftBrushMotor =>
    firmware.acted id (firmware.actuators.onLeftBrushMotor around.beyond id input)
  | .onRightBrushMotor =>
    firmware.acted id (firmware.actuators.onRightBrushMotor around.beyond id input)
  | .onGetCurrentTime => onGetCurrentTime around id input firmware
  | .onSetDataTime => onSetDataTime around id input firmware
  | .onGetTempAndHumid => onGetTempAndHumid around id firmware
  | .onSetShuttingDownState => firmware.powered id firmware.power.onSetShuttingDownState
  | .onCutOffThePower => firmware.powered id firmware.power.onCutOffThePower
  | .onSetErrorStateInPowerController =>
    firmware.powered id (firmware.power.onSetErrorStateInPowerController input)
  | .onMainBrushMotor =>
    firmware.acted id (firmware.actuators.onMainBrushMotor around.beyond id input)
  | .onWalk => firmware.acted id (firmware.actuators.onWalk around.beyond id input)
  | .onRotate => firmware.acted id (firmware.actuators.onRotate around.beyond id input)
  | .onSetPidSettings => setPid toFloat id input firmware
  | .onSetBootingUpState => firmware.powered id firmware.power.onSetBootingUpState
  | .onBluetoothLedState => onBluetoothLedState id input firmware
  | .onSetTimerToTurnOff =>
    firmware.powered id (firmware.power.onSetTimerToTurnOff input around.beyond around.now)

theorem handleLed_spec (led : LedName) :
    (handleLed id input firmware led).1.actuators = firmware.actuators ∧
      (handleLed id input firmware led).2.map Reply.requestId = [id] := by
  unfold handleLed
  split <;> exact ⟨rfl, rfl⟩

theorem powered_spec (outcome : Power.Outcome) :
    (firmware.powered id outcome).1.actuators = firmware.actuators ∧
      (firmware.powered id outcome).2.map Reply.requestId = [id] := by
  obtain ⟨power, commands, errorCode⟩ := outcome
  cases errorCode <;> exact ⟨rfl, rfl⟩

theorem setPid_spec : (setPid toFloat id input firmware).1.actuators = firmware.actuators ∧
    (setPid toFloat id input firmware).2.map Reply.requestId = [id] := by
  have hreply : (onSetPidSettings toFloat id input firmware.pid).2.requestId = id := by
    unfold onSetPidSettings
    split <;> rfl
  exact ⟨rfl, congrArg (fun other => [other]) hreply⟩

theorem onSetDataTime_spec :
    (onSetDataTime around id input firmware).1.actuators = firmware.actuators ∧
      (onSetDataTime around id input firmware).2.map Reply.requestId = [id] := by
  unfold onSetDataTime
  dsimp only
  split <;> exact ⟨rfl, rfl⟩

theorem onGetTempAndHumid_spec :
    (onGetTempAndHumid around id firmware).1.actuators = firmware.actuators ∧
      (onGetTempAndHumid around id firmware).2.map Reply.requestId = [id] := by
  unfold onGetTempAndHumid
  split <;> exact ⟨rfl, rfl⟩

/-- The parameters for which `on_bluetooth_led_state` hands over to the LED. -/
def namesLed (input : List Char) : Prop := charAt input 2 = 'R' ∨ charAt input 2 = 'G'

instance (input : List Char) : Decidable (namesLed input) := inferInstanceAs (Decidable (_ ∨ _))

theorem onBluetoothLedState_spec :
    (onBluetoothLedState id input firmware).1.actuators = firmware.actuators ∧
      (onBluetoothLedState id input firmware).2.map Reply.requestId =
        if namesLed input then [id, id] else [id] := by
  unfold onBluetoothLedState
  dsimp only
  split
  · rename_i hred
    have hled := handleLed_spec id input
      ((firmware.setLed .bluetoothGreen .off).setLed .bluetoothRed .off) .bluetoothRed
    rw [if_pos (.inl hred), List.map_append, hled.2]
    exact ⟨hled.1, rfl⟩
  · rename_i hgreen
    have hled := handleLed_spec id input
      ((firmware.setLed .bluetoothGreen .off).setLed .bluetoothRed .off) .bluetoothGreen
    rw [if_pos (.inr hgreen), List.map_append, hled.2]
    exact ⟨hled.1, rfl⟩
  · rename_i hred hgreen
    have hother : ¬ namesLed input := not_or.mpr ⟨hred, hgreen⟩
    rw [if_neg hother]
    exact ⟨rfl, rfl⟩

theorem callback_cases (name : Callback) :
    (∃ component outcome, Actuators.callback fpu around.beyond id input firmware.actuators name =
        some (component, outcome) ∧
      callback fpu toFloat around id input firmware name = firmware.acted id outcome) ∨
    ((callback fpu toFloat around id input firmware name).1.actuators = firmware.actuators ∧
      (callback fpu toFloat around id input firmware name).2.map Reply.requestId =
        if name = .onBluetoothLedState ∧ namesLed input then [id, id] else [id]) := by
  cases name with
  | onHasBeenInitialized => exact .inr (firmware.powered_spec id _)
  | onSetShuttingDownState => exact .inr (firmware.powered_spec id _)
  | onCutOffThePower => exact .inr (firmware.powered_spec id _)
  | onSetErrorStateInPowerController => exact .inr (firmware.powered_spec id _)
  | onSetBootingUpState => exact .inr (firmware.powered_spec id _)
  | onSetTimerToTurnOff => exact .inr (firmware.powered_spec id _)
  | onLedWifi => exact .inr (firmware.handleLed_spec id input _)
  | onLedErr => exact .inr (firmware.handleLed_spec id input _)
  | onLedSt => exact .inr (firmware.handleLed_spec id input _)
  | onBluetoothLedState =>
    simp only [true_and]
    exact .inr (firmware.onBluetoothLedState_spec id input)
  | onGetCurrentTime => exact .inr ⟨rfl, rfl⟩
  | onSetDataTime => exact .inr (firmware.onSetDataTime_spec around id input)
  | onGetTempAndHumid => exact .inr (firmware.onGetTempAndHumid_spec around id)
  | onSetPidSettings => exact .inr (firmware.setPid_spec toFloat id input)
  | _ => exact .inl ⟨_, _, rfl, rfl⟩

end Firmware
end VacuumCleaner.A1
