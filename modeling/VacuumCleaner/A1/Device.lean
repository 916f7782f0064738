import VacuumCleaner.A1.Answers

/-! A1 with its bus to the power controller, and what a failed instruction
leaves of both. -/
namespace VacuumCleaner.A1

open InstructionHandler Fields Lib Lib.Numeral

/-- The commands are those sent to the power controller, the oldest first. -/
structure Device (F : Type) where
  firmware : Firmware F
  commands : List UInt8 := []

namespace Device

inductive Event
  | instruction (line : List Char) (around : Surroundings)
  | tick (tick : Pending.Tick)
  | power (now : UInt32) (answer : List UInt8)

variable {F : Type} (fpu : FloatUnit) (toFloat : Scanned → F)

/-- What a callback sends to the power controller. -/
def commandsOf (around : Surroundings) (input : List Char) (power : Power) (name : Callback) :
    List UInt8 :=
  match power.callback input around.beyond around.now name with
  | some (_, commands, _) => commands
  | none => []

/-- An accepted instruction: the device after it, and the answers it sends. -/
def perform (around : Surroundings) (id : RequestId) (input : List Char) (name : Callback)
    (device : Device F) : Device F × List Reply :=
  let (firmware, replies) := device.firmware.callback fpu toFloat around id input name
  (⟨firmware, device.commands ++ commandsOf around input device.firmware.power name⟩, replies)

def step (device : Device F) : Event → Option (Device F)
  | .instruction line around =>
    match handle line with
    | .ok name id value => some (device.perform fpu toFloat around id value name).1
    | _ => some device
  | .tick tick =>
    let (actuators, _) := tick.run device.firmware.actuators
    some { device with firmware := { device.firmware with actuators } }
  | .power now answer =>
    let power := device.firmware.power
    some {
      firmware := { device.firmware with power := power.tick answer }
      commands := device.commands ++ power.timerCommands now }

def machine : Machine (Device F) Event := ⟨step fpu toFloat⟩

def start (settings : PidSettings F) : Device F := { firmware := { pid := settings } }

/-- A single answer, and a `$F` line. -/
def isFailure (replies : List Reply) : Prop := ∃ id errorCode, replies = [.failed id errorCode]

theorem not_isFailure_finished (id : RequestId) : ¬ isFailure [.finished id] := by
  rintro ⟨_, _, h⟩
  simp at h

/-- The parameters on which `on_bluetooth_led_state` switches an LED off before
it fails. -/
def losesBluetoothLed (name : Callback) (input : List Char) (firmware : Firmware F) : Prop :=
  name = .onBluetoothLedState ∧ ¬ Firmware.namesLed input ∧
    (firmware.leds .bluetoothRed ≠ .off ∨ firmware.leds .bluetoothGreen ≠ .off)

section failures

variable {fpu toFloat} {around : Surroundings} {id : RequestId} {input : List Char}
  {firmware : Firmware F}

theorem handleLed_failed {led : LedName}
    (hfailed : isFailure (firmware.handleLed id input led).2) :
    (firmware.handleLed id input led).1 = firmware := by
  unfold Firmware.handleLed at hfailed ⊢
  split at hfailed
  · exact absurd hfailed (not_isFailure_finished id)
  · exact absurd hfailed (not_isFailure_finished id)
  · exact absurd hfailed (not_isFailure_finished id)
  · rfl

theorem acted_failed {component : Component} {outcome : Outcome} {name : Callback}
    (hcallback : Actuators.callback fpu around.beyond id input firmware.actuators name =
      some (component, outcome))
    (hfailed : isFailure (firmware.acted id outcome).2) :
    (firmware.acted id outcome).1 = firmware := by
  cases outcome with
  | error errorCode => rfl
  | ok outcome =>
    obtain ⟨next, replies⟩ := outcome
    have hanswer : replies = [] ∨ replies = [.finished id] := by
      cases Actuators.drives_of_callback hcallback with
      | walk | rotate => exact .inr rfl
      | _ => exact .inl rfl
    obtain ⟨_, _, hreplies⟩ := hfailed
    obtain hempty | hfinished := hanswer
    · simp [Firmware.acted, hempty] at hreplies
    · simp [Firmware.acted, hfinished] at hreplies

theorem power_failed {power next : Power} {commands : List UInt8} {errorCode : Nat} {now : UInt32}
    {beyond : StackBytes} {name : Callback}
    (hcallback : power.callback input beyond now name = some (next, commands, some errorCode)) :
    next = power ∧ commands = [] := by
  cases name <;> simp only [Power.callback, Option.some.injEq, reduceCtorEq] at hcallback
  case onHasBeenInitialized =>
    unfold Power.onHasBeenInitialized at hcallback
    split at hcallback <;> simp_all
  case onSetShuttingDownState => simp [Power.onSetShuttingDownState] at hcallback
  case onCutOffThePower => simp [Power.onCutOffThePower] at hcallback
  case onSetErrorStateInPowerController =>
    unfold Power.onSetErrorStateInPowerController at hcallback
    split at hcallback <;> simp_all
  case onSetBootingUpState => simp [Power.onSetBootingUpState] at hcallback
  case onSetTimerToTurnOff =>
    unfold Power.onSetTimerToTurnOff at hcallback
    split at hcallback
    · simp_all
    · split at hcallback <;> simp_all

theorem onSetDataTime_failed (hfailed : isFailure (firmware.onSetDataTime around id input).2) :
    (firmware.onSetDataTime around id input).1 = firmware := by
  unfold Firmware.onSetDataTime at hfailed ⊢
  dsimp only at hfailed ⊢
  split at hfailed
  · rename_i hparsing
    rw [if_pos hparsing]
  · exact absurd hfailed (not_isFailure_finished id)

theorem onGetTempAndHumid_fst : (firmware.onGetTempAndHumid around id).1 = firmware := by
  unfold Firmware.onGetTempAndHumid
  split <;> rfl

theorem setPid_failed (hfailed : isFailure (firmware.setPid toFloat id input).2) :
    (firmware.setPid toFloat id input).1 = firmware := by
  unfold Firmware.setPid at hfailed ⊢
  dsimp only at hfailed ⊢
  unfold onSetPidSettings at hfailed ⊢
  split at hfailed
  · exact absurd hfailed (not_isFailure_finished id)
  · rfl

theorem callback_power {name : Callback} {outcome : Power.Outcome}
    (hpower : firmware.power.callback input around.beyond around.now name = some outcome) :
    firmware.callback fpu toFloat around id input name = firmware.powered id outcome := by
  cases name <;> simp only [Power.callback, Option.some.injEq, reduceCtorEq] at hpower <;>
    subst hpower <;> rfl

theorem callback_acted {name : Callback} {component : Component} {outcome : Outcome}
    (hactuators : Actuators.callback fpu around.beyond id input firmware.actuators name =
      some (component, outcome)) :
    firmware.callback fpu toFloat around id input name = firmware.acted id outcome := by
  cases name <;>
    simp only [Actuators.callback, Option.some.injEq, Prod.mk.injEq, reduceCtorEq] at hactuators <;>
    obtain ⟨-, rfl⟩ := hactuators <;> rfl

theorem callback_failed {name : Callback} (hname : name ≠ .onBluetoothLedState)
    (hpower : firmware.power.callback input around.beyond around.now name = none)
    (hfailed : isFailure (firmware.callback fpu toFloat around id input name).2) :
    (firmware.callback fpu toFloat around id input name).1 = firmware := by
  cases hactuators : Actuators.callback fpu around.beyond id input firmware.actuators name with
  | some driven =>
    rw [callback_acted hactuators] at hfailed ⊢
    exact acted_failed hactuators hfailed
  | none =>
    cases name with
    | onLedWifi => exact handleLed_failed hfailed
    | onLedErr => exact handleLed_failed hfailed
    | onLedSt => exact handleLed_failed hfailed
    | onGetCurrentTime => rfl
    | onSetDataTime => exact onSetDataTime_failed hfailed
    | onGetTempAndHumid => exact onGetTempAndHumid_fst
    | onSetPidSettings => exact setPid_failed hfailed
    | onBluetoothLedState => exact absurd rfl hname
    | onHasBeenInitialized | onSetShuttingDownState | onCutOffThePower
    | onSetErrorStateInPowerController | onSetBootingUpState | onSetTimerToTurnOff =>
      cases hpower
    | _ => cases hactuators

/-- `on_bluetooth_led_state` fails alone only where it names no LED, and then
both LEDs are off after it. -/
theorem onBluetoothLedState_failed
    (hfailed : isFailure (firmware.onBluetoothLedState id input).2) :
    ¬ Firmware.namesLed input := by
  intro hnamed
  obtain ⟨_, _, hreplies⟩ := hfailed
  have hids := (firmware.onBluetoothLedState_spec id input).2
  rw [if_pos hnamed, hreplies] at hids
  simp at hids

theorem onBluetoothLedState_of_not_named (hnamed : ¬ Firmware.namesLed input) :
    firmware.onBluetoothLedState id input =
      ((firmware.setLed .bluetoothGreen .off).setLed .bluetoothRed .off, [.failed id 0x2]) := by
  obtain ⟨hred, hgreen⟩ := not_or.mp hnamed
  unfold Firmware.onBluetoothLedState
  dsimp only
  split
  · rename_i hchar
    exact absurd hchar hred
  · rename_i hchar
    exact absurd hchar hgreen
  · rfl

theorem setLed_both_eq_iff :
    (firmware.setLed .bluetoothGreen .off).setLed .bluetoothRed .off = firmware ↔
      firmware.leds .bluetoothRed = .off ∧ firmware.leds .bluetoothGreen = .off := by
  constructor
  · intro hsame
    have hleds := congrArg Firmware.leds hsame
    exact ⟨(congrFun hleds .bluetoothRed).symm, (congrFun hleds .bluetoothGreen).symm⟩
  · rintro ⟨hred, hgreen⟩
    have hleds : Function.update (Function.update firmware.leds .bluetoothGreen .off)
        .bluetoothRed .off = firmware.leds := by
      funext led
      cases led <;> simp [hred, hgreen]
    unfold Firmware.setLed
    rw [hleds]

theorem perform_fst_eq {device : Device F} {name : Callback}
    (hfirmware : (device.firmware.callback fpu toFloat around id input name).1 = device.firmware)
    (hcommands : commandsOf around input device.firmware.power name = []) :
    (device.perform fpu toFloat around id input name).1 = device := by
  unfold perform
  dsimp only
  rw [hfirmware, hcommands, List.append_nil]

theorem perform_failed {device : Device F} {name : Callback}
    (hname : name ≠ .onBluetoothLedState)
    (hfailed : isFailure (device.perform fpu toFloat around id input name).2) :
    (device.perform fpu toFloat around id input name).1 = device := by
  change isFailure (device.firmware.callback fpu toFloat around id input name).2 at hfailed
  cases hpower : device.firmware.power.callback input around.beyond around.now name with
  | none =>
    apply perform_fst_eq
    · exact callback_failed hname hpower hfailed
    · rw [commandsOf, hpower]
  | some outcome =>
    obtain ⟨power, commands, error⟩ := outcome
    have hcallback : device.firmware.callback fpu toFloat around id input name = _ :=
      callback_power hpower
    cases error with
    | none =>
      rw [hcallback] at hfailed
      exact absurd hfailed (not_isFailure_finished id)
    | some errorCode =>
      obtain ⟨hsame, hcommands⟩ := power_failed hpower
      apply perform_fst_eq
      · rw [hcallback, hsame]
        rfl
      · rw [commandsOf, hpower]
        exact hcommands

theorem bluetooth_failure_iff {device : Device F} :
    (isFailure (device.perform fpu toFloat around id input .onBluetoothLedState).2 →
        (device.perform fpu toFloat around id input .onBluetoothLedState).1 = device) ↔
      ¬ losesBluetoothLed .onBluetoothLedState input device.firmware := by
  by_cases hnamed : Firmware.namesLed input
  · refine iff_of_true (fun hfailed => ?_) fun hloses => hloses.2.1 hnamed
    exact absurd hnamed (onBluetoothLedState_failed hfailed)
  · have hleft : device.perform fpu toFloat around id input .onBluetoothLedState =
        (⟨(device.firmware.setLed .bluetoothGreen .off).setLed .bluetoothRed .off,
          device.commands ++ []⟩, [.failed id 0x2]) := by
      unfold perform
      rw [show device.firmware.callback fpu toFloat around id input .onBluetoothLedState = _ from
        onBluetoothLedState_of_not_named hnamed]
      rfl
    have hsame : (device.perform fpu toFloat around id input .onBluetoothLedState).1 = device ↔
        device.firmware.leds .bluetoothRed = .off ∧ device.firmware.leds .bluetoothGreen = .off := by
      rw [hleft, List.append_nil, ← setLed_both_eq_iff]
      exact ⟨congrArg Device.firmware, fun h => by rw [h]⟩
    have hfailed : isFailure (device.perform fpu toFloat around id input .onBluetoothLedState).2 := by
      rw [hleft]
      exact ⟨id, 0x2, rfl⟩
    constructor
    · rintro hkeeps ⟨-, -, hlit⟩
      obtain ⟨hred, hgreen⟩ := hsame.mp (hkeeps hfailed)
      exact hlit.elim (absurd hred) (absurd hgreen)
    · intro hloses _
      apply hsame.mpr
      by_contra hlit
      exact hloses ⟨rfl, hnamed, by tauto⟩

end failures

/-- A failed instruction leaves the device as it was, except where
`on_bluetooth_led_state` has already switched off an LED. -/
theorem failure_keeps_device_iff (device : Device F) (line : List Char) (around : Surroundings) :
    Answers.ifAccepted (handle line) fun name id value =>
      (isFailure (device.perform fpu toFloat around id value name).2 →
          (device.perform fpu toFloat around id value name).1 = device) ↔
        ¬ losesBluetoothLed name value device.firmware := by
  cases hline : handle line with
  | undefinedCommand => trivial
  | wrongInstruction => trivial
  | ok name id value =>
    change _ ↔ _
    by_cases hname : name = .onBluetoothLedState
    · subst hname
      exact bluetooth_failure_iff
    · exact iff_of_true (perform_failed hname) fun hloses => hname hloses.1

/-- The green bluetooth LED is switched on, and goes out with an instruction
that fails. -/
theorem failure_switches_greenLed_off : ¬ ∀ fpu settings (device : Device Scanned) line around,
    (machine fpu id).Reach Machine.anyEvent (start settings) device →
    Answers.ifAccepted (handle line) fun name requestId value =>
      isFailure (device.perform fpu id around requestId value name).2 →
        (device.perform fpu id around requestId value name).1 = device := by
  intro hevery
  let around : Surroundings := ⟨fun _ => [], 0, id, none⟩
  let switchOn : Event := .instruction "#17:0001:H;G\r\n".toList around
  obtain ⟨device, hexec, hlit⟩ : ∃ device,
      (machine Answers.noFpu id).exec (start Answers.noGains) [switchOn] = some device ∧
        device.firmware.leds .bluetoothGreen = .on := ⟨_, rfl, rfl⟩
  have hkeeps := hevery Answers.noFpu Answers.noGains device "#17:0002:H;X\r\n".toList around
    (Machine.reach_of_exec hexec)
  obtain ⟨value, hhandle, hnamed⟩ : ∃ value,
      handle "#17:0002:H;X\r\n".toList = .ok .onBluetoothLedState 2 value ∧
        ¬ Firmware.namesLed value := ⟨_, rfl, by decide⟩
  rw [hhandle] at hkeeps
  exact bluetooth_failure_iff.mp hkeeps ⟨rfl, hnamed, .inr (by simp [hlit])⟩

end Device
end VacuumCleaner.A1
