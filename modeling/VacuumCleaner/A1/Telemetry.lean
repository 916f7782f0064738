import VacuumCleaner.Lib.CText

/-! The sensor line that A1 sends in every loop: bit fields packed into
integers, written in decimal behind the number of the sensor. -/
namespace VacuumCleaner.A1.Telemetry

open Lib.CText

/-- What `Button::read_state` returns. -/
inductive State
  | unpressed | click | longClick
  deriving DecidableEq, Repr

/-- The readings of one loop. The ends and the cliffs are pin levels, true for
`HIGH`; the power controller's bytes are those of its last frame. -/
structure Sensors where
  bluetoothButton : State
  upButton : State
  okButton : State
  downButton : State
  rightEnd : Bool
  leftEnd : Bool
  lidEnd : Bool
  dustBoxEnd : Bool
  leftRange : UInt8
  centerRange : UInt8
  rightRange : UInt8
  backRightCliff : Bool
  backCenterCliff : Bool
  backLeftCliff : Bool
  frontRightCliff : Bool
  frontCenterCliff : Bool
  frontLeftCliff : Bool
  powerState : UInt8
  chargingState : UInt8
  chargingWorkStatus : UInt8
  batteryVoltageIntPart : UInt8
  batteryVoltageDecPart : UInt8
  rightSpeed : UInt16
  leftSpeed : UInt16
  deriving DecidableEq, Repr

def digitalRead (level : Bool) : UInt8 := if level then 1 else 0

/-- `IS_PRESSED`: the switches pull their pins low. -/
def isPressed (level : Bool) : UInt8 := if digitalRead level = 0 then 1 else 0

namespace Sensors

variable (sensors : Sensors)

/-- `state |= click` or `state |= longClick`, by the state of one button. -/
def orButton (button : State) (click longClick state : UInt8) : UInt8 :=
  match button with
  | .click => state ||| click
  | .longClick => state ||| longClick
  | .unpressed => state

def getControllButtonsState : UInt8 :=
  let state := orButton sensors.bluetoothButton 0x40 0xC0 0
  let state := orButton sensors.upButton 0x10 0x30 state
  let state := orButton sensors.okButton 0x4 0xC state
  orButton sensors.downButton 0x1 0x3 state

def getEndsState : UInt8 :=
  isPressed sensors.rightEnd <<< 0 ||| isPressed sensors.leftEnd <<< 1 |||
    isPressed sensors.lidEnd <<< 2 ||| isPressed sensors.dustBoxEnd <<< 3

/-- The centre is shifted in 16 bits, the right in 32. -/
def getRangefinderValue : UInt32 :=
  sensors.leftRange.toUInt32 ||| (sensors.centerRange.toUInt16 <<< 8).toUInt32 |||
    sensors.rightRange.toUInt32 <<< 16

def getCliffsStatus : UInt8 :=
  digitalRead sensors.backRightCliff <<< 0 ||| digitalRead sensors.backCenterCliff <<< 1 |||
    digitalRead sensors.backLeftCliff <<< 2 ||| digitalRead sensors.frontRightCliff <<< 3 |||
    digitalRead sensors.frontCenterCliff <<< 4 ||| digitalRead sensors.frontLeftCliff <<< 5

/-- The shifts are made in an `int` of 16 bits and cut to the byte. -/
def getPowerControllerState : UInt8 :=
  sensors.powerState ||| (sensors.chargingState.toUInt16 <<< 3).toUInt8 |||
    (sensors.chargingWorkStatus.toUInt16 <<< 5).toUInt8

def getBatteryVoltageValue : UInt16 :=
  sensors.batteryVoltageDecPart.toUInt16 ||| sensors.batteryVoltageIntPart.toUInt16 <<< 8

def getWheelsSpeedValue : UInt32 :=
  sensors.rightSpeed.toUInt32 ||| sensors.leftSpeed.toUInt32 <<< 16

end Sensors

/-- What `String` appends for an integer. -/
def decimal (value : Nat) : List Char := Nat.toDigits 10 value

def resetSensorsOutputBuffer : List Char := ['@']

def sensorEntry (id : UInt8) (value : UInt32) : List Char :=
  decimal id.toNat ++ ':' :: (decimal value.toNat ++ [';'])

def addSensorOutput (id : UInt8) (value : UInt32) (output : List Char) : List Char :=
  output ++ sensorEntry id value

def bufferSize : Nat := 64

/-- `toCharArray` keeps the last byte of the buffer for the terminator. -/
def sendSensorsOutput (output : List Char) : List Char :=
  cString (output.take (bufferSize - 1))

/-- The calls of `add_sensor_output` in `loop`. -/
def sensorValues (sensors : Sensors) : List (UInt8 × UInt32) :=
  [(0x01, sensors.getControllButtonsState.toUInt32), (0x02, sensors.getEndsState.toUInt32),
    (0x03, sensors.getRangefinderValue), (0x04, sensors.getCliffsStatus.toUInt32),
    (0x05, sensors.getPowerControllerState.toUInt32),
    (0x06, sensors.getBatteryVoltageValue.toUInt32), (0x07, sensors.getWheelsSpeedValue)]

def sensorsOutput (sensors : Sensors) : List Char :=
  (sensorValues sensors).foldl (fun output (id, value) => addSensorOutput id value output)
    resetSensorsOutputBuffer

theorem sensorsOutput_eq (sensors : Sensors) : sensorsOutput sensors =
    '@' :: (sensorValues sensors).flatMap fun (id, value) => sensorEntry id value := by
  simp [sensorsOutput, sensorValues, addSensorOutput, resetSensorsOutputBuffer]

theorem length_sensorEntry_le {id : UInt8} {value : UInt32} {digits : Nat} (hid : id.toNat < 10)
    (hdigits : 0 < digits) (hvalue : value.toNat < 10 ^ digits) :
    (sensorEntry id value).length ≤ digits + 3 := by
  have hidLength : (decimal id.toNat).length ≤ 1 :=
    (Nat.length_toDigits_le_iff (by decide) (by decide)).mpr hid
  have hvalueLength : (decimal value.toNat).length ≤ digits :=
    (Nat.length_toDigits_le_iff (by decide) hdigits).mpr hvalue
  simp only [sensorEntry, List.length_append, List.length_cons, List.length_nil]
  omega

theorem length_sensorsOutput_lt (sensors : Sensors) :
    (sensorsOutput sensors).length < bufferSize := by
  have hbyte : ∀ (id value : UInt8), id.toNat < 10 →
      (sensorEntry id value.toUInt32).length ≤ 3 + 3 := fun id value hid =>
    length_sensorEntry_le hid (by decide) (by
      have hlt := value.toNat_lt
      rw [UInt8.toNat_toUInt32]
      omega)
  have hword : ∀ (id : UInt8) (value : UInt32), id.toNat < 10 →
      (sensorEntry id value).length ≤ 10 + 3 := fun id value hid =>
    length_sensorEntry_le hid (by decide) (by
      have hlt := value.toNat_lt
      omega)
  have hbattery : (sensorEntry 0x06 sensors.getBatteryVoltageValue.toUInt32).length ≤ 5 + 3 :=
    length_sensorEntry_le (by decide) (by decide) (by
      have hlt := sensors.getBatteryVoltageValue.toNat_lt
      rw [UInt16.toNat_toUInt32]
      omega)
  have hbuttons := hbyte 0x01 sensors.getControllButtonsState (by decide)
  have hends := hbyte 0x02 sensors.getEndsState (by decide)
  have hranges := hword 0x03 sensors.getRangefinderValue (by decide)
  have hcliffs := hbyte 0x04 sensors.getCliffsStatus (by decide)
  have hpower := hbyte 0x05 sensors.getPowerControllerState (by decide)
  have hspeed := hword 0x07 sensors.getWheelsSpeedValue (by decide)
  rw [sensorsOutput_eq]
  simp only [sensorValues, List.flatMap_cons, List.flatMap_nil, List.length_cons,
    List.length_append, List.length_nil, bufferSize]
  omega

end VacuumCleaner.A1.Telemetry
