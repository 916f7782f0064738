import VacuumCleaner.A1.Telemetry
import VacuumCleaner.Core.Reception

/-! The sensor line on its way from A1 into the core's snapshot. -/
namespace VacuumCleaner.Link.Telemetry

open Lib.CText A1.Telemetry Core.Models Core.Models.A1Data Core.Reception

/-! The entries of the line, as the core's pattern finds them. -/

theorem decimalDigit_of_isDigit (py : Runtime) {c : Char} (hdigit : c.isDigit = true) :
    ∃ value, py.decimalDigit c = some value ∧ value.val = c.toNat - 48 := by
  simp only [Char.isDigit, Bool.and_eq_true, decide_eq_true_eq] at hdigit
  have hlow : 48 ≤ c.toNat := hdigit.1
  have hhigh : c.toNat ≤ 57 := hdigit.2
  rw [py.ascii_digit c (by omega), dif_pos ⟨hlow, by omega⟩]
  exact ⟨_, rfl, rfl⟩

theorem isDigit_of_mem_decimal (py : Runtime) {value : Nat} {c : Char} (hc : c ∈ decimal value) :
    py.isDigit c = true := by
  obtain ⟨digit, hdigit, -⟩ := decimalDigit_of_isDigit py
    (Nat.isDigit_of_mem_toDigits (by decide) (by decide) hc)
  rw [Runtime.isDigit, hdigit]
  rfl

theorem decimalValue_decimal (py : Runtime) (value : Nat) :
    decimalValue py (decimal value) = value := by
  have hfold : ∀ (digits : List Char) (start : Nat), (∀ c ∈ digits, c.isDigit = true) →
      digits.foldl (fun value c => 10 * value + ((py.decimalDigit c).map Fin.val).getD 0) start =
        Nat.ofDigitChars 10 digits start := by
    intro digits
    induction digits with
    | nil => exact fun _ _ => rfl
    | cons c digits ih =>
      intro start hdigits
      obtain ⟨digit, hdigit, hvalue⟩ := decimalDigit_of_isDigit py (hdigits c (.head _))
      rw [List.foldl_cons, ih _ fun other hother => hdigits other (.tail _ hother),
        Nat.ofDigitChars_cons, hdigit, Option.map_some, Option.getD_some, hvalue]
      rfl
  rw [decimalValue, decimal, hfold _ _ fun c => Nat.isDigit_of_mem_toDigits (by decide) (by decide)]
  exact Nat.ofDigitChars_ten_toDigits

theorem matchEntry_digit (py : Runtime) {id : Nat} (hid : id < 10) (value : Nat)
    (rest : List Char) :
    matchEntry py (id.digitChar :: ':' :: (decimal value ++ ';' :: rest)) =
      some (⟨id, decimal value⟩, (decimal value).length + 3) := by
  have hmem : id.digitChar ∈ Nat.toDigits 10 id := by
    rw [Nat.toDigits_of_lt_base hid]
    exact .head _
  obtain ⟨digit, hdigit, hvalue⟩ := decimalDigit_of_isDigit py
    (Nat.isDigit_of_mem_toDigits (by decide) (by decide) hmem)
  have hsensor : digit.val = id := by
    rw [hvalue, Nat.toNat_digitChar_sub_48_of_lt_ten hid]
  have hne : decimal value ≠ [] := Nat.toDigits_ne_nil
  simp only [matchEntry, hdigit, takeWhile_numeral fun c => isDigit_of_mem_decimal py, hsensor,
    List.drop_left, List.head?_cons]
  rw [if_pos ⟨hne, trivial⟩]

theorem matchEntry_sensorEntry (py : Runtime) {id : UInt8} (hid : id.toNat < 10) (value : UInt32)
    (rest : List Char) : matchEntry py (sensorEntry id value ++ rest) =
      some (⟨id.toNat, decimal value.toNat⟩, (sensorEntry id value).length) := by
  have hdigits : decimal id.toNat = [id.toNat.digitChar] := Nat.toDigits_of_lt_base hid
  have htext : sensorEntry id value ++ rest =
      id.toNat.digitChar :: ':' :: (decimal value.toNat ++ ';' :: rest) := by
    simp [sensorEntry, hdigits]
  have hlength : (sensorEntry id value).length = (decimal value.toNat).length + 3 := by
    simp [sensorEntry, hdigits]
  rw [htext, matchEntry_digit py hid, hlength]

theorem findEntries_sensorEntry (py : Runtime) {id : UInt8} (hid : id.toNat < 10) (value : UInt32)
    (rest : List Char) : findEntries py 0 (sensorEntry id value ++ rest) =
      ⟨id.toNat, decimal value.toNat⟩ :: findEntries py 0 rest := by
  have hmatch := matchEntry_sensorEntry py hid value rest
  cases hentry : sensorEntry id value with
  | nil => simp [sensorEntry] at hentry
  | cons c entry =>
    rw [hentry, List.cons_append] at hmatch
    rw [List.cons_append, findEntries, hmatch]
    exact congrArg _ (findEntries_skip py entry rest)

theorem findEntries_flatMap (py : Runtime) (values : List (UInt8 × UInt32))
    (hids : ∀ id ∈ values.map Prod.fst, id.toNat < 10) :
    findEntries py 0 (values.flatMap fun (id, value) => sensorEntry id value) =
      values.map fun (id, value) => ⟨id.toNat, decimal value.toNat⟩ := by
  induction values with
  | nil => rfl
  | cons entry values ih =>
    rw [List.flatMap_cons, findEntries_sensorEntry py (hids entry.1 (.head _)),
      ih fun other hother => hids other (.tail _ hother)]
    rfl

theorem findEntries_at (py : Runtime) (rest : List Char) :
    findEntries py 0 ('@' :: rest) = findEntries py 0 rest := by
  have hnone : matchEntry py ('@' :: rest) = none := by
    unfold matchEntry
    split
    · rename_i c tail heq
      cases heq
      rw [decimalDigit_none py (by decide) (by decide)]
    · rfl
  rw [findEntries, hnone]

theorem findEntries_sensorsOutput (py : Runtime) (sensors : Sensors) :
    findEntries py 0 (sensorsOutput sensors) =
      (sensorValues sensors).map fun (id, value) => ⟨id.toNat, decimal value.toNat⟩ := by
  rw [sensorsOutput_eq, findEntries_at]
  have hids : (sensorValues sensors).map Prod.fst = [1, 2, 3, 4, 5, 6, 7] := rfl
  refine findEntries_flatMap py _ ?_
  rw [hids]
  simp

/-- CPython converts numerals of up to 640 digits whatever the limit is set to. -/
def LimitsLongNumerals (py : Runtime) : Prop := py.maxStrDigits = 0 ∨ 640 ≤ py.maxStrDigits

theorem entry_value {py : Runtime} (hlimit : LimitsLongNumerals py) (id : Nat) (value : UInt32) :
    Entry.value py ⟨id, decimal value.toNat⟩ = .ok value.toNat := by
  have hlength : (decimal value.toNat).length ≤ 10 := by
    rw [decimal, Nat.length_toDigits_le_iff (by decide) (by decide)]
    have hlt := value.toNat_lt
    omega
  have hshort : ¬ (py.maxStrDigits ≠ 0 ∧ py.maxStrDigits < (decimal value.toNat).length) := by
    rintro ⟨hne, hlong⟩
    cases hlimit with
    | inl hzero => exact hne hzero
    | inr hlarge => omega
  rw [Entry.value, if_neg hshort, decimalValue_decimal]

/-- The parsers, called with the values that A1 has packed. -/
def refreshValues (data : A1Data) : List (UInt8 × UInt32) → Refresh
  | [] => .ok data
  | (id, value) :: values => do
    let data ← parser id.toNat value.toNat data
    refreshValues data values

theorem refreshValues_cons (id : UInt8) (value : UInt32) {data next : A1Data}
    {values : List (UInt8 × UInt32)} (hparse : parser id.toNat value.toNat data = .ok next) :
    refreshValues data ((id, value) :: values) = refreshValues next values := by
  rw [refreshValues, hparse]
  rfl

theorem refreshEntries_values {py : Runtime} (hlimit : LimitsLongNumerals py) (data : A1Data)
    (values : List (UInt8 × UInt32)) :
    refreshEntries py data (values.map fun (id, value) => ⟨id.toNat, decimal value.toNat⟩) =
      refreshValues data values := by
  induction values generalizing data with
  | nil => rfl
  | cons entry values ih =>
    obtain ⟨id, value⟩ := entry
    simp only [List.map_cons, refreshEntries, refreshValues, refreshEntry, entry_value hlimit]
    cases parser id.toNat value.toNat data with
    | error raised => rfl
    | ok next => exact ih next

theorem parseAndRefresh_sensorsOutput {py : Runtime} (hlimit : LimitsLongNumerals py)
    (sensors : Sensors) (data : A1Data) :
    parseAndRefresh py (sensorsOutput sensors) data = refreshValues data (sensorValues sensors) := by
  rw [parseAndRefresh, findEntries_sensorsOutput, refreshEntries_values hlimit]

/-! What each parser makes of the value packed for it. -/

def click : State → ButtonState
  | .unpressed => .nothing
  | .click => .click
  | .longClick => .longPress

def buttonOf (sensors : Sensors) : Button → State
  | .bluetooth => sensors.bluetoothButton
  | .up => sensors.upButton
  | .ok => sensors.okButton
  | .down => sensors.downButton

theorem ofValue_code (sensors : Sensors) (button : Button) :
    ButtonState.ofValue (button.code sensors.getControllButtonsState.toUInt32.toNat) =
      .ok (click (buttonOf sensors button)) := by
  cases button <;> simp only [Sensors.getControllButtonsState, buttonOf] <;>
    cases sensors.bluetoothButton <;> cases sensors.upButton <;> cases sensors.okButton <;>
    cases sensors.downButton <;> rfl

/-- The latches are empty, so that a click is taken over. -/
def LatchesEmpty (data : A1Data) : Prop := ∀ button, data.click button = .nothing

theorem parseAndSetButtonsState_packed (sensors : Sensors) {data : A1Data}
    (hlatches : LatchesEmpty data) :
    parseAndSetButtonsState sensors.getControllButtonsState.toUInt32.toNat data =
      .ok { data with
        bluetoothButtonClick := click sensors.bluetoothButton
        buttonUpClick := click sensors.upButton
        buttonOkClick := click sensors.okButton
        buttonDownClick := click sensors.downButton } := by
  have hlatch : ∀ button, data.click button = .nothing := hlatches
  simp only [parseAndSetButtonsState, refreshButton, ofValue_code, click_setClick, hlatch,
    reduceCtorEq, if_false, if_true, bind, Except.bind]
  rfl

theorem parseAndSetEndsState_packed (sensors : Sensors) (data : A1Data) :
    parseAndSetEndsState sensors.getEndsState.toUInt32.toNat data =
      .ok { data with
        endRightTrig := !sensors.rightEnd
        endLeftTrig := !sensors.leftEnd
        lidIsClosed := !sensors.lidEnd
        dustBoxPresent := !sensors.dustBoxEnd } := by
  simp only [parseAndSetEndsState, Sensors.getEndsState]
  cases sensors.rightEnd <;> cases sensors.leftEnd <;> cases sensors.lidEnd <;>
    cases sensors.dustBoxEnd <;> rfl

theorem parseCliffs_packed (sensors : Sensors) (data : A1Data) :
    parseCliffs sensors.getCliffsStatus.toUInt32.toNat data =
      .ok { data with
        backRightCliffBreakage := sensors.backRightCliff
        backCenterCliffBreakage := sensors.backCenterCliff
        backLeftCliffBreakage := sensors.backLeftCliff
        frontRightCliffBreakage := sensors.frontRightCliff
        frontCenterCliffBreakage := sensors.frontCenterCliff
        frontLeftCliffBreakage := sensors.frontLeftCliff } := by
  simp only [parseCliffs, Sensors.getCliffsStatus]
  cases sensors.backRightCliff <;> cases sensors.backCenterCliff <;>
    cases sensors.backLeftCliff <;> cases sensors.frontRightCliff <;>
    cases sensors.frontCenterCliff <;> cases sensors.frontLeftCliff <;> rfl

theorem or_shiftLeft {low width : Nat} (high : Nat) (hlow : low < 2 ^ width) :
    low ||| high <<< width = low + high * 2 ^ width := by
  rw [Nat.or_comm, ← Nat.shiftLeft_add_eq_or_of_lt hlow, Nat.shiftLeft_eq, Nat.add_comm]

theorem toNat_getRangefinderValue (sensors : Sensors) : sensors.getRangefinderValue.toNat =
    sensors.leftRange.toNat + sensors.centerRange.toNat * 2 ^ 8 +
      sensors.rightRange.toNat * 2 ^ 16 := by
  have hleft := sensors.leftRange.toNat_lt
  have hcenter := sensors.centerRange.toNat_lt
  have hright := sensors.rightRange.toNat_lt
  have hlow := or_shiftLeft sensors.centerRange.toNat hleft
  have hsum : sensors.leftRange.toNat + sensors.centerRange.toNat * 2 ^ 8 < 2 ^ 16 := by omega
  have hcenterFits : sensors.centerRange.toNat <<< 8 % 2 ^ 16 = sensors.centerRange.toNat <<< 8 := by
    rw [Nat.shiftLeft_eq]
    omega
  have hrightFits : sensors.rightRange.toNat <<< 16 % 2 ^ 32 = sensors.rightRange.toNat <<< 16 := by
    rw [Nat.shiftLeft_eq]
    omega
  have hcenterShift : UInt16.toNat 8 % 16 = 8 := rfl
  have hrightShift : UInt32.toNat 16 % 32 = 16 := rfl
  simp only [Sensors.getRangefinderValue, UInt32.toNat_or, UInt32.toNat_shiftLeft,
    UInt8.toNat_toUInt32, UInt16.toNat_toUInt32, UInt16.toNat_shiftLeft, UInt8.toNat_toUInt16,
    hcenterShift, hrightShift, hcenterFits, hrightFits]
  rw [hlow, or_shiftLeft _ hsum]

theorem toNat_getBatteryVoltageValue (sensors : Sensors) :
    sensors.getBatteryVoltageValue.toUInt32.toNat =
      sensors.batteryVoltageDecPart.toNat + sensors.batteryVoltageIntPart.toNat * 2 ^ 8 := by
  have hdec := sensors.batteryVoltageDecPart.toNat_lt
  have hint := sensors.batteryVoltageIntPart.toNat_lt
  have hfits : sensors.batteryVoltageIntPart.toNat <<< 8 % 2 ^ 16 =
      sensors.batteryVoltageIntPart.toNat <<< 8 := by
    rw [Nat.shiftLeft_eq]
    omega
  have hshift : UInt16.toNat 8 % 16 = 8 := rfl
  simp only [Sensors.getBatteryVoltageValue, UInt16.toNat_toUInt32, UInt16.toNat_or,
    UInt16.toNat_shiftLeft, UInt8.toNat_toUInt16, hshift, hfits]
  exact or_shiftLeft _ hdec

theorem toNat_getWheelsSpeedValue (sensors : Sensors) : sensors.getWheelsSpeedValue.toNat =
    sensors.rightSpeed.toNat + sensors.leftSpeed.toNat * 2 ^ 16 := by
  have hright := sensors.rightSpeed.toNat_lt
  have hleft := sensors.leftSpeed.toNat_lt
  have hfits : sensors.leftSpeed.toNat <<< 16 % 2 ^ 32 = sensors.leftSpeed.toNat <<< 16 := by
    rw [Nat.shiftLeft_eq]
    omega
  have hshift : UInt32.toNat 16 % 32 = 16 := rfl
  simp only [Sensors.getWheelsSpeedValue, UInt32.toNat_or, UInt32.toNat_shiftLeft,
    UInt16.toNat_toUInt32, hshift, hfits]
  exact or_shiftLeft _ hright

/-- What the power controller reports: four power states, three charging states
and four work statuses. -/
structure InRange (sensors : Sensors) : Prop where
  powerState : sensors.powerState ≤ 3
  chargingState : sensors.chargingState ≤ 2
  chargingWorkStatus : sensors.chargingWorkStatus ≤ 3

theorem toNat_getPowerControllerState {sensors : Sensors} (hrange : InRange sensors) :
    sensors.getPowerControllerState.toUInt32.toNat = sensors.powerState.toNat +
      sensors.chargingState.toNat * 2 ^ 3 + sensors.chargingWorkStatus.toNat * 2 ^ 5 := by
  have hpower : sensors.powerState.toNat ≤ 3 := hrange.powerState
  have hcharging : sensors.chargingState.toNat ≤ 2 := hrange.chargingState
  have hwork : sensors.chargingWorkStatus.toNat ≤ 3 := hrange.chargingWorkStatus
  have hlow : sensors.powerState.toNat < 2 ^ 3 := by omega
  have hsum : sensors.powerState.toNat + sensors.chargingState.toNat * 2 ^ 3 < 2 ^ 5 := by omega
  have hchargingFits : sensors.chargingState.toNat <<< 3 % 2 ^ 16 % 2 ^ 8 =
      sensors.chargingState.toNat <<< 3 := by
    rw [Nat.shiftLeft_eq]
    omega
  have hworkFits : sensors.chargingWorkStatus.toNat <<< 5 % 2 ^ 16 % 2 ^ 8 =
      sensors.chargingWorkStatus.toNat <<< 5 := by
    rw [Nat.shiftLeft_eq]
    omega
  have hshift : UInt16.toNat 3 % 16 = 3 := rfl
  have hshift' : UInt16.toNat 5 % 16 = 5 := rfl
  simp only [Sensors.getPowerControllerState, UInt8.toNat_toUInt32, UInt8.toNat_or,
    UInt16.toNat_toUInt8, UInt16.toNat_shiftLeft, UInt8.toNat_toUInt16, hshift, hshift',
    hchargingFits, hworkFits]
  rw [or_shiftLeft _ hlow, or_shiftLeft _ hsum]

def charging (state : UInt8) : ChargingState :=
  if state = 0 then .noCharging else if state = 1 then .charging else .charged

theorem ofValue_charging {state : UInt8} (hstate : state ≤ 2) :
    ChargingState.ofValue state.toNat = .ok (charging state) := by
  have hbound : state.toNat ≤ 2 := hstate
  obtain hnat | hnat | hnat : state.toNat = 0 ∨ state.toNat = 1 ∨ state.toNat = 2 := by omega
  · rw [show state = 0 from UInt8.toNat_inj.mp hnat]
    rfl
  · rw [show state = 1 from UInt8.toNat_inj.mp hnat]
    rfl
  · rw [show state = 2 from UInt8.toNat_inj.mp hnat]
    rfl

theorem extract (value shift width : Nat) :
    (value >>> shift) &&& (2 ^ width - 1) = value / 2 ^ shift % 2 ^ width := by
  rw [Nat.and_two_pow_sub_one_eq_mod, Nat.shiftRight_eq_div_pow]

theorem parsePowerControllerStates_packed {sensors : Sensors} (hrange : InRange sensors)
    (data : A1Data) :
    parsePowerControllerStates sensors.getPowerControllerState.toUInt32.toNat data =
      .ok { data with
        isShutDownButtonTriggered := sensors.powerState == 3
        chargingState := charging sensors.chargingState } := by
  have hpower : sensors.powerState.toNat ≤ 3 := hrange.powerState
  have hcharging : sensors.chargingState.toNat ≤ 2 := hrange.chargingState
  have hvalue := toNat_getPowerControllerState hrange
  generalize sensors.getPowerControllerState.toUInt32.toNat = value at hvalue ⊢
  have hstate : value &&& 0x3 = sensors.powerState.toNat :=
    (extract value 0 2).trans (by omega)
  have hcode : (value >>> 3) &&& 0x3 = sensors.chargingState.toNat :=
    (extract value 3 2).trans (by omega)
  have hshutdown : (sensors.powerState.toNat == 3) = (sensors.powerState == 3) := by
    rw [Bool.eq_iff_iff, beq_iff_eq, beq_iff_eq, ← UInt8.toNat_inj]
    rfl
  simp only [parsePowerControllerStates, hstate, hcode, ofValue_charging hrange.chargingState,
    hshutdown]

theorem parseDisValues_packed (sensors : Sensors) (data : A1Data) :
    parseDisValues sensors.getRangefinderValue.toNat data =
      .ok { data with
        rangefinderLeftValue := sensors.leftRange.toNat
        rangefinderCenterValue := sensors.centerRange.toNat
        rangefinderRightValue := sensors.rightRange.toNat } := by
  have hleft := sensors.leftRange.toNat_lt
  have hcenter := sensors.centerRange.toNat_lt
  have hright := sensors.rightRange.toNat_lt
  have hvalue := toNat_getRangefinderValue sensors
  generalize sensors.getRangefinderValue.toNat = value at hvalue ⊢
  have hlow : value &&& 0xFF = sensors.leftRange.toNat :=
    (extract value 0 8).trans (by omega)
  have hmiddle : (value >>> 0x8) &&& 0xFF = sensors.centerRange.toNat :=
    (extract value 0x8 8).trans (by omega)
  have hhigh : (value >>> 0x10) &&& 0xFF = sensors.rightRange.toNat :=
    (extract value 0x10 8).trans (by omega)
  rw [parseDisValues, hlow, hmiddle, hhigh]

/-- Volts and tenths of a volt. -/
def voltage (sensors : Sensors) : ℚ :=
  sensors.batteryVoltageIntPart.toNat + sensors.batteryVoltageDecPart.toNat / 10

def capacity (voltage : ℚ) : Int :=
  constrainNumber (roundHalfEven
    ((voltage - minBatteryVoltage) * 100 / (maxBatteryVoltage - minBatteryVoltage))) 0 100

theorem parseBatteryVoltageValue_packed (sensors : Sensors) (data : A1Data) :
    parseBatteryVoltageValue sensors.getBatteryVoltageValue.toUInt32.toNat data =
      .ok { data with
        batteryVoltage := voltage sensors
        batteryCapacity := capacity (voltage sensors) } := by
  have hdec := sensors.batteryVoltageDecPart.toNat_lt
  have hint := sensors.batteryVoltageIntPart.toNat_lt
  have hvalue := toNat_getBatteryVoltageValue sensors
  generalize sensors.getBatteryVoltageValue.toUInt32.toNat = value at hvalue ⊢
  have hlow : value &&& 0xff = sensors.batteryVoltageDecPart.toNat :=
    (extract value 0 8).trans (by omega)
  have hhigh : (value >>> 0x8) &&& 0xff = sensors.batteryVoltageIntPart.toNat :=
    (extract value 0x8 8).trans (by omega)
  rw [parseBatteryVoltageValue, hlow, hhigh]
  rfl

theorem parseWheelsSpeed_packed (sensors : Sensors) (data : A1Data) :
    parseWheelsSpeed sensors.getWheelsSpeedValue.toNat data =
      .ok { data with
        rightWheelSpeed := sensors.rightSpeed.toNat
        leftWheelSpeed := sensors.leftSpeed.toNat } := by
  have hright := sensors.rightSpeed.toNat_lt
  have hleft := sensors.leftSpeed.toNat_lt
  have hvalue := toNat_getWheelsSpeedValue sensors
  generalize sensors.getWheelsSpeedValue.toNat = value at hvalue ⊢
  have hlow : value &&& 0xFFFF = sensors.rightSpeed.toNat :=
    (extract value 0 16).trans (by omega)
  have hhigh : (value >>> 0x10) &&& 0xFFFF = sensors.leftSpeed.toNat :=
    (extract value 0x10 16).trans (by omega)
  rw [parseWheelsSpeed, hlow, hhigh]

/-- The snapshot that stands for the readings. -/
def received (sensors : Sensors) : A1Data where
  buttonUpClick := click sensors.upButton
  buttonOkClick := click sensors.okButton
  buttonDownClick := click sensors.downButton
  bluetoothButtonClick := click sensors.bluetoothButton
  endRightTrig := !sensors.rightEnd
  endLeftTrig := !sensors.leftEnd
  dustBoxPresent := !sensors.dustBoxEnd
  lidIsClosed := !sensors.lidEnd
  rangefinderLeftValue := sensors.leftRange.toNat
  rangefinderCenterValue := sensors.centerRange.toNat
  rangefinderRightValue := sensors.rightRange.toNat
  backLeftCliffBreakage := sensors.backLeftCliff
  backCenterCliffBreakage := sensors.backCenterCliff
  backRightCliffBreakage := sensors.backRightCliff
  frontLeftCliffBreakage := sensors.frontLeftCliff
  frontCenterCliffBreakage := sensors.frontCenterCliff
  frontRightCliffBreakage := sensors.frontRightCliff
  batteryVoltage := voltage sensors
  batteryCapacity := capacity (voltage sensors)
  isShutDownButtonTriggered := sensors.powerState == 3
  chargingState := charging sensors.chargingState
  rightWheelSpeed := sensors.rightSpeed.toNat
  leftWheelSpeed := sensors.leftSpeed.toNat

theorem refreshValues_sensorValues {sensors : Sensors} {data : A1Data} (hrange : InRange sensors)
    (hlatches : LatchesEmpty data) :
    refreshValues data (sensorValues sensors) = .ok (received sensors) := by
  refine (refreshValues_cons 1 sensors.getControllButtonsState.toUInt32
    (parseAndSetButtonsState_packed sensors hlatches)).trans ?_
  refine (refreshValues_cons 2 sensors.getEndsState.toUInt32
    (parseAndSetEndsState_packed sensors _)).trans ?_
  refine (refreshValues_cons 3 sensors.getRangefinderValue
    (parseDisValues_packed sensors _)).trans ?_
  refine (refreshValues_cons 4 sensors.getCliffsStatus.toUInt32
    (parseCliffs_packed sensors _)).trans ?_
  refine (refreshValues_cons 5 sensors.getPowerControllerState.toUInt32
    (parsePowerControllerStates_packed hrange _)).trans ?_
  refine (refreshValues_cons 6 sensors.getBatteryVoltageValue.toUInt32
    (parseBatteryVoltageValue_packed sensors _)).trans ?_
  exact refreshValues_cons 7 sensors.getWheelsSpeedValue (parseWheelsSpeed_packed sensors _)

theorem sendSensorsOutput_sensorsOutput (sensors : Sensors) :
    sendSensorsOutput (sensorsOutput sensors) = sensorsOutput sensors := by
  have hlength := length_sensorsOutput_lt sensors
  rw [sendSensorsOutput, List.take_of_length_le (Nat.le_sub_one_of_lt hlength), cString,
    List.takeWhile_eq_self_iff]
  intro c hc
  simp only [sensorsOutput_eq, List.mem_cons, List.mem_flatMap] at hc
  obtain rfl | ⟨⟨id, value⟩, -, hc⟩ := hc
  · decide
  · have hdecimal : ∀ {number}, c ∈ decimal number → decide (c ≠ nul) = true := by
      intro number hdigit
      have hisDigit := Nat.isDigit_of_mem_toDigits (by decide) (by decide) hdigit
      rw [decide_eq_true_eq]
      rintro rfl
      exact absurd hisDigit (by decide)
    simp only [sensorEntry, List.mem_append, List.mem_cons, List.not_mem_nil, or_false] at hc
    obtain hid | rfl | hvalue | rfl := hc
    · exact hdecimal hid
    · decide
    · exact hdecimal hvalue
    · decide

/-- The line fits A1's buffer, and fills the core's snapshot with the readings. -/
theorem roundTrip (py : Runtime) (hlimit : LimitsLongNumerals py) (sensors : Sensors)
    (hrange : InRange sensors) (data : A1Data) (hlatches : LatchesEmpty data) :
    (sensorsOutput sensors).length < bufferSize ∧
      sendSensorsOutput (sensorsOutput sensors) = sensorsOutput sensors ∧
      parseAndRefresh py (sensorsOutput sensors) data = .ok (received sensors) :=
  ⟨length_sensorsOutput_lt sensors, sendSensorsOutput_sensorsOutput sensors, by
    rw [parseAndRefresh_sensorsOutput hlimit, refreshValues_sensorValues hrange hlatches]⟩

/-- The readings that make the longest line. -/
def allHigh : Sensors where
  bluetoothButton := .longClick
  upButton := .longClick
  okButton := .click
  downButton := .longClick
  rightEnd := true
  leftEnd := false
  lidEnd := false
  dustBoxEnd := false
  leftRange := 250
  centerRange := 249
  rightRange := 248
  backRightCliff := true
  backCenterCliff := false
  backLeftCliff := true
  frontRightCliff := true
  frontCenterCliff := true
  frontLeftCliff := true
  powerState := 3
  chargingState := 2
  chargingWorkStatus := 3
  batteryVoltageIntPart := 16
  batteryVoltageDecPart := 7
  rightSpeed := 65535
  leftSpeed := 65534

theorem roundTrip_allHigh :
    (sensorsOutput allHigh).length < bufferSize ∧
      sendSensorsOutput (sensorsOutput allHigh) = sensorsOutput allHigh ∧
      parseAndRefresh asciiRuntime (sensorsOutput allHigh) {} = .ok (received allHigh) :=
  roundTrip asciiRuntime (.inr (by decide)) allHigh ⟨by decide, by decide, by decide⟩ {}
    fun button => by cases button <;> rfl

end VacuumCleaner.Link.Telemetry
