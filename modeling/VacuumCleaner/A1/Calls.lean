import VacuumCleaner.A1.Device

/-! The component method behind an instruction of the actuators, and the
numbers that the instruction passes to it. -/
namespace VacuumCleaner.A1

open InstructionHandler Fields Lib

/-- A call of a component's method, without the id. -/
inductive Call
  | beep (count period : Nat)
  | move (distance speed : Nat) (forward withBreak : Bool)
  | turn (side : SideDirection) (degree speed : Nat) (withBreak : Bool)
  | walk (speed : Nat) (forward : Bool)
  | rotate (side : SideDirection) (speed : Nat)
  | set (name : MotorName) (value : Nat)
  deriving DecidableEq, Repr

namespace Call

def run (fpu : FloatUnit) (id : RequestId) (actuators : Actuators) :
    Call → Actuators × List Reply
  | beep count period =>
    ({ actuators with buzzer := actuators.buzzer.beep id count period }, [])
  | move distance speed forward withBreak =>
    ({ actuators with wheels := actuators.wheels.move fpu id distance speed forward withBreak }, [])
  | turn side degree speed withBreak =>
    ({ actuators with wheels := actuators.wheels.turn fpu id side degree speed withBreak }, [])
  | walk speed forward =>
    let (wheels, replies) := actuators.wheels.walk id speed forward
    ({ actuators with wheels }, replies)
  | rotate side speed =>
    let (wheels, replies) := actuators.wheels.rotate id side speed
    ({ actuators with wheels }, replies)
  | set name value => (actuators.setMotor name ((actuators.motors name).set id value), [])

def sideOf (left : Bool) : SideDirection := if left then .left else .right

variable (beyond : StackBytes) (input : List Char)

/-! Each callback up to the call of the method: the call, or the error code of
the answer `$F`. -/

def onBeep : Except Nat Call := do
  let beepCount ← validated beyond input 0 (toSigned 8) 0x1
  let period ← validated beyond input 1 (toSigned 16) 0x2
  return beep (toUnsigned 8 beepCount) (toUnsigned 16 period)

def onMove : Except Nat Call := do
  let direction ← validated beyond input 0 (toSigned 8) 0x1
  let distanceInSm ← validated beyond input 1 (toSigned 32) 0x1
  let speedSmPerMinute ← validated beyond input 2 (toSigned 32) 0x1
  let nWithBreak ← validated beyond input 3 (toSigned 8) 0x1
  let forward ← choice direction 0x2
  let withBreak ← choice nWithBreak 0x3
  return move (toUnsigned 32 distanceInSm) (toUnsigned 32 speedSmPerMinute) forward withBreak

def onTurn : Except Nat Call := do
  let side ← validated beyond input 0 (toSigned 8) 0x1
  let degree ← validated beyond input 1 (toSigned 16) 0x1
  let speed ← validated beyond input 2 (toSigned 16) 0x1
  let nWithBreak ← validated beyond input 3 (toSigned 8) 0x1
  let withBreak ← choice nWithBreak 0x3
  let left ← choice side 0x5
  return turn (sideOf left) (toUnsigned 16 degree) (toUnsigned 32 speed) withBreak

def onWalk : Except Nat Call := do
  let direction ← validated beyond input 0 (toSigned 8) 0x1
  let speedSmPerMinute ← validated beyond input 1 (toSigned 32) 0x1
  let forward ← choice direction 0x2
  return walk (toUnsigned 32 speedSmPerMinute) forward

def onRotate : Except Nat Call := do
  let direction ← validated beyond input 0 (toSigned 8) 0x1
  let speed ← validated beyond input 1 (toSigned 16) 0x2
  let left ← choice direction 0x3
  return rotate (sideOf left) (toUnsigned 32 speed)

def setMotorSignal (name : MotorName) : Except Nat Call :=
  let value := toUnsigned 8 (fetchUnsignedHexNumber (beyond 0) input 0)
  if value > 100 then .error 0x1 else .ok (set name value)

def ofCallback : Callback → Option (Except Nat Call)
  | .onBeep => some (onBeep beyond input)
  | .onMove => some (onMove beyond input)
  | .onTurn => some (onTurn beyond input)
  | .onWalk => some (onWalk beyond input)
  | .onRotate => some (onRotate beyond input)
  | .onVacuumMotor => some (setMotorSignal beyond input .vacuum)
  | .onLeftBrushMotor => some (setMotorSignal beyond input .leftBrush)
  | .onRightBrushMotor => some (setMotorSignal beyond input .rightBrush)
  | .onMainBrushMotor => some (setMotorSignal beyond input .mainBrush)
  | _ => none

section

variable (fpu : FloatUnit) (id : RequestId) (actuators : Actuators)

theorem map_setMotorSignal (name : MotorName) :
    (setMotorSignal beyond input name).map (run fpu id actuators) =
      Actuators.setMotorSignal beyond id input actuators name := by
  unfold setMotorSignal Actuators.setMotorSignal
  dsimp only
  split <;> rfl

theorem callback_eq (name : Callback) :
    (Actuators.callback fpu beyond id input actuators name).map Prod.snd =
      (ofCallback beyond input name).map fun outcome =>
        outcome.map (run fpu id actuators) := by
  have hmap : ∀ {α : Type} (outcome : Except Nat α) (next : α → Except Nat Call),
      (outcome >>= next).map (run fpu id actuators) =
        outcome >>= fun value => (next value).map (run fpu id actuators) := by
    intro α outcome next
    cases outcome <;> rfl
  cases name with
  | onBeep | onMove | onTurn | onWalk | onRotate =>
    simp only [Actuators.callback, ofCallback, Option.map_some, Actuators.onBeep, onBeep,
      Actuators.onMove, onMove, Actuators.onTurn, onTurn, Actuators.onWalk, onWalk,
      Actuators.onRotate, onRotate, hmap]
    rfl
  | onVacuumMotor | onLeftBrushMotor | onRightBrushMotor | onMainBrushMotor =>
    simp only [Actuators.callback, ofCallback, Option.map_some, map_setMotorSignal]
    rfl
  | _ => rfl

end

section

variable {F : Type} (fpu : FloatUnit) (toFloat : Lib.Numeral.Scanned → F) {around : Surroundings}
  {id : RequestId} {input} {firmware : Firmware F} {name : Callback}

theorem acted_of_ofCallback {outcome : Except Nat Call}
    (hcall : ofCallback around.beyond input name = some outcome) :
    firmware.callback fpu toFloat around id input name =
      firmware.acted id (outcome.map (run fpu id firmware.actuators)) := by
  have hcallback := callback_eq around.beyond input fpu id firmware.actuators name
  rw [hcall, Option.map_some, Option.map_eq_some_iff] at hcallback
  obtain ⟨⟨component, acted⟩, hcallback, rfl⟩ := hcallback
  exact Device.callback_acted hcallback

theorem called_of_ofCallback {call : Call}
    (hcall : ofCallback around.beyond input name = some (.ok call)) :
    firmware.callback fpu toFloat around id input name =
      ({ firmware with actuators := (call.run fpu id firmware.actuators).1 },
        (call.run fpu id firmware.actuators).2) :=
  acted_of_ofCallback fpu toFloat hcall

end

end Call

/-- The type and the check of the variable that takes a field: `flag` for a
switch on 0x1 and 0x2, `signal` for the limit of the motors. -/
inductive Variable
  | int8 | int16 | int32 | flag | signal
  deriving DecidableEq, Repr

namespace Variable

/-- The field's value passes the checks that the instruction makes. -/
def Accepts : Variable → Int → Prop
  | int8, value => isParsingFailure (toSigned 8 value) = false
  | int16, value => isParsingFailure (toSigned 16 value) = false
  | int32, value => isParsingFailure (toSigned 32 value) = false
  | flag, value => toSigned 8 value = 1 ∨ toSigned 8 value = 2
  | signal, value => toUnsigned 8 value ≤ 100

theorem parsed_of_flag {value : Int} (hflag : flag.Accepts value) :
    isParsingFailure (toSigned 8 value) = false := by
  obtain hone | htwo := hflag
  · rw [hone]
    rfl
  · rw [htwo]
    rfl

end Variable

namespace Call

variable {beyond : StackBytes} {input : List Char} {call : Call}

theorem validated_bind_eq_ok {group : Nat} {convert : Int → Int} {errorCode : Nat}
    {next : Int → Except Nat Call} :
    (validated beyond input group convert errorCode >>= next) = .ok call ↔
      isParsingFailure (convert (fetchUnsignedHexNumber (beyond group) input group)) = false ∧
        next (convert (fetchUnsignedHexNumber (beyond group) input group)) = .ok call := by
  unfold validated
  dsimp only
  cases isParsingFailure (convert (fetchUnsignedHexNumber (beyond group) input group))
  · exact ⟨fun h => ⟨rfl, h⟩, fun h => h.2⟩
  · constructor
    · intro h
      cases h
    · rintro ⟨hparsed, -⟩
      cases hparsed

theorem choice_bind_eq_ok {value : Int} {errorCode : Nat} {next : Bool → Except Nat Call} :
    (choice value errorCode >>= next) = .ok call ↔
      (value = 1 ∨ value = 2) ∧ next (value = 1) = .ok call := by
  unfold choice
  split
  · rename_i hone
    subst hone
    exact ⟨fun h => ⟨.inl rfl, h⟩, fun h => h.2⟩
  · split
    · rename_i htwo
      subst htwo
      exact ⟨fun h => ⟨.inr rfl, h⟩, fun h => h.2⟩
    · rename_i hone htwo
      constructor
      · intro h
        cases h
      · rintro ⟨hvalue, -⟩
        exact absurd hvalue (not_or.mpr ⟨hone, htwo⟩)

/-- The value read for a field. -/
def fetched (beyond : StackBytes) (input : List Char) (group : Nat) : Int :=
  fetchUnsignedHexNumber (beyond group) input group

theorem onBeep_eq_ok : onBeep beyond input = .ok call ↔
    Variable.int8.Accepts (fetched beyond input 0) ∧
      Variable.int16.Accepts (fetched beyond input 1) ∧
      beep (toUnsigned 8 (toSigned 8 (fetched beyond input 0)))
        (toUnsigned 16 (toSigned 16 (fetched beyond input 1))) = call := by
  unfold onBeep
  rw [validated_bind_eq_ok, validated_bind_eq_ok]
  exact and_congr_right fun _ => and_congr_right fun _ => Iff.of_eq (Except.ok.injEq ..)

theorem onMove_eq_ok : onMove beyond input = .ok call ↔
    Variable.flag.Accepts (fetched beyond input 0) ∧
      Variable.int32.Accepts (fetched beyond input 1) ∧
      Variable.int32.Accepts (fetched beyond input 2) ∧
      Variable.flag.Accepts (fetched beyond input 3) ∧
      move (toUnsigned 32 (toSigned 32 (fetched beyond input 1)))
        (toUnsigned 32 (toSigned 32 (fetched beyond input 2)))
        (toSigned 8 (fetched beyond input 0) = 1) (toSigned 8 (fetched beyond input 3) = 1) =
          call := by
  unfold onMove
  rw [validated_bind_eq_ok, validated_bind_eq_ok, validated_bind_eq_ok, validated_bind_eq_ok,
    choice_bind_eq_ok, choice_bind_eq_ok]
  constructor
  · rintro ⟨-, hdistance, hspeed, -, hdirection, hbreak, hcall⟩
    exact ⟨hdirection, hdistance, hspeed, hbreak, Except.ok.inj hcall⟩
  · rintro ⟨hdirection, hdistance, hspeed, hbreak, rfl⟩
    exact ⟨Variable.parsed_of_flag hdirection, hdistance, hspeed,
      Variable.parsed_of_flag hbreak, hdirection, hbreak, rfl⟩

theorem onTurn_eq_ok : onTurn beyond input = .ok call ↔
    Variable.flag.Accepts (fetched beyond input 0) ∧
      Variable.int16.Accepts (fetched beyond input 1) ∧
      Variable.int16.Accepts (fetched beyond input 2) ∧
      Variable.flag.Accepts (fetched beyond input 3) ∧
      turn (sideOf (toSigned 8 (fetched beyond input 0) = 1))
        (toUnsigned 16 (toSigned 16 (fetched beyond input 1)))
        (toUnsigned 32 (toSigned 16 (fetched beyond input 2)))
        (toSigned 8 (fetched beyond input 3) = 1) = call := by
  unfold onTurn
  rw [validated_bind_eq_ok, validated_bind_eq_ok, validated_bind_eq_ok, validated_bind_eq_ok,
    choice_bind_eq_ok, choice_bind_eq_ok]
  constructor
  · rintro ⟨-, hdegree, hspeed, -, hbreak, hside, hcall⟩
    exact ⟨hside, hdegree, hspeed, hbreak, Except.ok.inj hcall⟩
  · rintro ⟨hside, hdegree, hspeed, hbreak, rfl⟩
    exact ⟨Variable.parsed_of_flag hside, hdegree, hspeed,
      Variable.parsed_of_flag hbreak, hbreak, hside, rfl⟩

theorem onWalk_eq_ok : onWalk beyond input = .ok call ↔
    Variable.flag.Accepts (fetched beyond input 0) ∧
      Variable.int32.Accepts (fetched beyond input 1) ∧
      walk (toUnsigned 32 (toSigned 32 (fetched beyond input 1)))
        (toSigned 8 (fetched beyond input 0) = 1) = call := by
  unfold onWalk
  rw [validated_bind_eq_ok, validated_bind_eq_ok, choice_bind_eq_ok]
  constructor
  · rintro ⟨-, hspeed, hdirection, hcall⟩
    exact ⟨hdirection, hspeed, Except.ok.inj hcall⟩
  · rintro ⟨hdirection, hspeed, rfl⟩
    exact ⟨Variable.parsed_of_flag hdirection, hspeed, hdirection, rfl⟩

theorem onRotate_eq_ok : onRotate beyond input = .ok call ↔
    Variable.flag.Accepts (fetched beyond input 0) ∧
      Variable.int16.Accepts (fetched beyond input 1) ∧
      rotate (sideOf (toSigned 8 (fetched beyond input 0) = 1))
        (toUnsigned 32 (toSigned 16 (fetched beyond input 1))) = call := by
  unfold onRotate
  rw [validated_bind_eq_ok, validated_bind_eq_ok, choice_bind_eq_ok]
  constructor
  · rintro ⟨-, hspeed, hdirection, hcall⟩
    exact ⟨hdirection, hspeed, Except.ok.inj hcall⟩
  · rintro ⟨hdirection, hspeed, rfl⟩
    exact ⟨Variable.parsed_of_flag hdirection, hspeed, hdirection, rfl⟩

theorem setMotorSignal_eq_ok {name : MotorName} : setMotorSignal beyond input name = .ok call ↔
    Variable.signal.Accepts (fetched beyond input 0) ∧
      set name (toUnsigned 8 (fetched beyond input 0)) = call := by
  unfold setMotorSignal
  dsimp only
  split
  · rename_i hlarge
    constructor
    · intro h
      cases h
    · rintro ⟨haccepted, -⟩
      exact absurd haccepted (Nat.not_le.mpr hlarge)
  · rename_i hsmall
    rw [Except.ok.injEq]
    exact (and_iff_right (Nat.not_lt.mp hsmall)).symm

end Call
end VacuumCleaner.A1
