import VacuumCleaner.Link.Delivery
import VacuumCleaner.Link.ParameterFidelity

/-! The drive orders of a client, from the endpoints of the core to the wheels
of A1. An instruction is handled as a whole here: the interrupts of the wheels come
between two of them, not inside `Wheel::move` or `Wheel::walk`. -/
namespace VacuumCleaner.Link.Driving

open Lib Lib.Hex Lib.CText Lib.Numeral A1 A1.InstructionHandler A1.ServedLines Core.Models
  Core.Robot Core.Socket Delivery InstructionCodec EncodedFields ParameterFidelity

/-- A request of `/movement` or `/stop-movement`, with the fields of its model. -/
inductive Order
  | movement (direction : List Char) (speed : Int)
  | stopMovement (withBreak : Bool)
  deriving DecidableEq, Repr

def movements : List (List Char × (Int → Command)) :=
  [("forward".toList, .walkForward), ("backward".toList, .walkBackward),
    ("left".toList, .rotateLeft), ("right".toList, .rotateRight)]

/-- The robot call behind an order, or the text of a `MovementEndpointException`. -/
def Order.perform : Order → Except (List Char) Command
  | .movement direction speed =>
    if speed < 0 ∨ speed > 3000 then
      .error "Wrong speed value. Speed must be in range 0..2000".toList
    else match movements.lookup direction with
      | some movementCall => .ok (movementCall speed)
      | none => .error ("Wrong direction \"".toList ++ direction ++ ['"'])
  | .stopMovement withBreak => .ok (.stopMovement withBreak)

/-- What both wheels are to do. -/
inductive Drive
  | halted (withBreak : Bool)
  | driving (speed : Nat) (leftForward rightForward : Bool)
  deriving DecidableEq, Repr

/-- Where the wheels turn to for a direction of the client. -/
def sides (direction : List Char) : Option (Bool × Bool) :=
  if direction = "forward".toList then some (true, true)
  else if direction = "backward".toList then some (false, false)
  else if direction = "left".toList then some (false, true)
  else if direction = "right".toList then some (true, false)
  else none

/-- An order that means something: a direction at a speed within the limits, or a
stop. -/
def Order.meaning : Order → Option Drive
  | .movement direction speed =>
    if 0 ≤ speed ∧ speed ≤ 3000 then
      (sides direction).map fun (leftForward, rightForward) =>
        .driving speed.toNat leftForward rightForward
    else none
  | .stopMovement withBreak => some (.halted withBreak)

/-- A wheel that turns one way; nothing drives it the other. -/
structure Drives (speed : Nat) (forward : Bool) (wheel : Wheel) : Prop where
  walks : wheel.wheelState = .endlessWalking
  setpoint : wheel.speedSetpoint = speed
  direction : wheel.forwardDirectionToMove = forward
  opposite : (if forward then wheel.backwardPin else wheel.forwardPin) = low

/-- A wheel that nothing turns, and that is released or will be by its next
interrupt. -/
structure Halts (withBreak : Bool) (wheel : Wheel) : Prop where
  pins : wheel.forwardPin = wheel.backwardPin
  mode : wheel.withBreak = withBreak
  ends : wheel.wheelState = .idle ∧ wheel.Released ∨ wheel.wheelState = .stopped ∨
    wheel.wheelState = .moving ∧ wheel.pulsesToMove = 0

def Drive.Obeyed (wheels : Wheels) : Drive → Prop
  | halted withBreak => Halts withBreak wheels.leftWheel ∧ Halts withBreak wheels.rightWheel
  | driving speed leftForward rightForward =>
    Drives speed leftForward wheels.leftWheel ∧ Drives speed rightForward wheels.rightWheel

section wheels

variable {speed : Nat} {forward withBreak : Bool} {wheel : Wheel}

theorem Drives.tick (h : Drives speed forward wheel) (res : UInt8) :
    Drives speed forward (wheel.tick res) := by
  have htick : wheel.tick res = wheel.setSpeed res :=
    Wheel.tick_of_running res (.inr h.walks) fun hreached => nomatch h.walks ▸ hreached.1
  obtain ⟨hwalks, hsetpoint, rfl, hopposite⟩ := h
  rw [htick]
  refine ⟨by rw [Wheel.wheelState_setSpeed, hwalks], ?_, by rw [Wheel.direction_setSpeed], ?_⟩
  · unfold Wheel.setSpeed
    split
    · exact hsetpoint
    · exact hsetpoint
  · unfold Wheel.setSpeed
    cases hdirection : wheel.forwardDirectionToMove with
    | false => simpa [hdirection] using hopposite
    | true => simpa [hdirection] using hopposite

theorem Drives.pulse (h : Drives speed forward wheel) : Drives speed forward wheel.pulse :=
  ⟨h.walks, h.setpoint, h.direction, h.opposite⟩

theorem Halts.pulse (h : Halts withBreak wheel) : Halts withBreak wheel.pulse :=
  ⟨h.pins, h.mode, h.ends⟩

theorem Halts.released_tick (h : Halts withBreak wheel) (res : UInt8) :
    (wheel.tick res).wheelState = .idle ∧ (wheel.tick res).Released ∧
      (wheel.tick res).withBreak = withBreak := by
  obtain ⟨-, rfl, ⟨hidle, hreleased⟩ | hends⟩ := h
  · have htick : wheel.tick res = wheel := by simp [Wheel.tick, hidle]
    rw [htick]
    exact ⟨hidle, hreleased, rfl⟩
  · have hstopping : wheel.wheelState = .stopped ∨ wheel.isReached :=
      hends.imp_right fun hends => ⟨hends.1, by rw [hends.2]; exact UInt64.zero_le⟩
    rw [Wheel.tick_of_stopping res hstopping]
    exact ⟨Wheel.wheelState_stop wheel, Wheel.released_stop wheel, Wheel.withBreak_stop wheel⟩

theorem Halts.tick (h : Halts withBreak wheel) (res : UInt8) : Halts withBreak (wheel.tick res) := by
  obtain ⟨hidle, hreleased, hmode⟩ := h.released_tick res
  exact ⟨hreleased.1.trans hreleased.2.symm, hmode, .inl ⟨hidle, hreleased⟩⟩

theorem drives_walk (speed : Nat) (forward : Bool) (wheel : Wheel) :
    Drives speed forward (wheel.walk speed forward) :=
  ⟨rfl, rfl, rfl, by cases forward <;> rfl⟩

theorem halts_move {fpu : FloatUnit} (hfpu : fpu.pulsesToMove 0 = 0) (withBreak forward : Bool)
    (wheel : Wheel) : Halts withBreak (wheel.move fpu 0 0 withBreak forward) :=
  ⟨rfl, rfl, .inr (.inr ⟨rfl, congrArg UInt64.ofNat hfpu⟩)⟩

end wheels

theorem Drive.Obeyed.onWheel {actuators : Actuators} {drive : Drive}
    (h : drive.Obeyed actuators.wheels) (side : SideDirection) {change : Wheel → Wheel}
    (hdrives : ∀ {speed forward wheel}, Drives speed forward wheel →
      Drives speed forward (change wheel))
    (hhalts : ∀ {withBreak wheel}, Halts withBreak wheel → Halts withBreak (change wheel)) :
    drive.Obeyed (Pending.onWheel side change actuators).wheels := by
  cases drive with
  | halted withBreak =>
    cases side with
    | left => exact ⟨hhalts h.1, h.2⟩
    | right => exact ⟨h.1, hhalts h.2⟩
  | driving speed leftForward rightForward =>
    cases side with
    | left => exact ⟨hdrives h.1, h.2⟩
    | right => exact ⟨h.1, hdrives h.2⟩

theorem Drive.Obeyed.stopLoneWheel {wheels : Wheels} {drive : Drive} (h : drive.Obeyed wheels) :
    drive.Obeyed wheels.stopLoneWheel := by
  have hstop : ∀ {withBreak wheel}, Halts withBreak wheel →
      Halts withBreak { wheel with wheelState := .stopped } :=
    fun hhalts => ⟨hhalts.pins, hhalts.mode, .inr (.inl rfl)⟩
  unfold Wheels.stopLoneWheel
  cases drive with
  | halted withBreak =>
    split
    · exact ⟨h.1, hstop h.2⟩
    · split
      · exact ⟨hstop h.1, h.2⟩
      · exact h
  | driving speed leftForward rightForward =>
    rw [if_neg (by simp [h.1.walks]), if_neg (by simp [h.2.walks])]
    exact h

theorem Drive.Obeyed.tick {wheels : Wheels} {drive : Drive} (h : drive.Obeyed wheels) :
    drive.Obeyed wheels.tick.1 := by
  have hstop := h.stopLoneWheel
  unfold Wheels.tick
  dsimp only
  split
  · cases drive <;> exact hstop
  · exact hstop

theorem Drive.Obeyed.run {actuators : Actuators} {drive : Drive}
    (h : drive.Obeyed actuators.wheels) (tick : Pending.Tick) :
    drive.Obeyed (tick.run actuators).1.wheels := by
  cases tick with
  | wheels => exact h.tick
  | motor name now later => exact h
  | buzzer now later => exact h
  | wheel side res => exact h.onWheel side (·.tick res) (·.tick res)
  | wheelPulse side => exact h.onWheel side (·.pulse) (·.pulse)

/-! The instruction of an order, and what A1 makes of its line. -/

/-- The call of the wheels behind a drive. -/
inductive Means : Drive → A1.Call → Prop
  | halted (withBreak : Bool) : Means (.halted withBreak) (.move 0 0 true withBreak)
  | walk (speed : Nat) (forward : Bool) : Means (.driving speed forward forward) (.walk speed forward)
  | rotate (speed : Nat) (left : Bool) :
    Means (.driving speed (!left) left) (.rotate (A1.Call.sideOf left) speed)

/-- The numbers of an instruction that makes the wheels do as meant. -/
structure Carries (drive : Drive) (parameters : Parameters) : Prop where
  documented : parameters.Documented
  exact : ∀ field ∈ parameters.fields, Exact field
  means : Means drive parameters.intended

theorem exact_flag (value : Bool) : Exact (.flag, if value then 1 else 2) := by
  cases value <;> exact ⟨by decide, by decide⟩

theorem exact_speed {speed : Nat} (hspeed : speed ≤ 3000) :
    Exact (.int16, speed) ∧ Exact (.int32, speed) := by
  refine ⟨⟨by dsimp only; omega, ?_⟩, ⟨by dsimp only; omega, ?_⟩⟩
  · unfold Refused
    omega
  · unfold Refused
    omega

theorem carries_walk {speed : Nat} (hspeed : speed ≤ 3000) (forward : Bool) :
    Carries (.driving speed forward forward) (.walk (if forward then 1 else 2) speed) where
  documented := ⟨by cases forward <;> decide, by omega⟩
  exact := by
    simp only [Parameters.fields, List.forall_mem_cons, List.not_mem_nil, false_implies,
      implies_true, and_true]
    exact ⟨exact_flag forward, (exact_speed hspeed).2⟩
  means := by cases forward <;> exact .walk speed _

theorem carries_rotate {speed : Nat} (hspeed : speed ≤ 3000) (left : Bool) :
    Carries (.driving speed (!left) left) (.rotate (if left then 1 else 2) speed) where
  documented := ⟨by cases left <;> decide, by omega⟩
  exact := by
    simp only [Parameters.fields, List.forall_mem_cons, List.not_mem_nil, false_implies,
      implies_true, and_true]
    exact ⟨exact_flag left, (exact_speed hspeed).1⟩
  means := by cases left <;> exact .rotate speed _

theorem carries_stop (withBreak : Bool) :
    Carries (.halted withBreak) (.move 1 0 0 (if withBreak then 1 else 2)) where
  documented := by cases withBreak <;> decide
  exact := by
    simp only [Parameters.fields, List.forall_mem_cons, List.not_mem_nil, false_implies,
      implies_true, and_true]
    have hzero := exact_speed (Nat.zero_le 3000)
    exact ⟨exact_flag true, hzero.2, hzero.2, exact_flag withBreak⟩
  means := by cases withBreak <;> exact .halted _

theorem perform_movement {direction : List Char} {speed : Nat} (hspeed : speed ≤ 3000) :
    (Order.movement direction speed).perform =
      match movements.lookup direction with
      | some movementCall => .ok (movementCall speed)
      | none => .error ("Wrong direction \"".toList ++ direction ++ ['"']) := by
  rw [Order.perform, if_neg (by omega)]

theorem perform_cases (order : Order) :
    (order.meaning = none ∧ ∃ message, order.perform = .error message) ∨
      ∃ drive parameters, order.meaning = some drive ∧ Carries drive parameters ∧
        order.perform = .ok parameters.robotCommand := by
  cases order with
  | stopMovement withBreak =>
    exact .inr ⟨_, _, rfl, carries_stop withBreak, by cases withBreak <;> rfl⟩
  | movement direction speed =>
    by_cases hspeed : 0 ≤ speed ∧ speed ≤ 3000
    · obtain ⟨number, rfl⟩ := Int.eq_ofNat_of_zero_le hspeed.1
      have hnumber : number ≤ 3000 := by omega
      rw [perform_movement hnumber, Order.meaning, if_pos hspeed, Int.toNat_natCast]
      by_cases hforward : direction = "forward".toList
      · subst hforward
        exact .inr ⟨_, _, rfl, carries_walk hnumber true, rfl⟩
      by_cases hbackward : direction = "backward".toList
      · subst hbackward
        exact .inr ⟨_, _, rfl, carries_walk hnumber false, rfl⟩
      by_cases hleft : direction = "left".toList
      · subst hleft
        exact .inr ⟨_, _, rfl, carries_rotate hnumber true, rfl⟩
      by_cases hright : direction = "right".toList
      · subst hright
        exact .inr ⟨_, _, rfl, carries_rotate hnumber false, rfl⟩
      have hlookup : movements.lookup direction = none := by
        simp only [movements, List.lookup_cons, List.lookup_nil, beq_eq_false_iff_ne.mpr hforward,
          beq_eq_false_iff_ne.mpr hbackward, beq_eq_false_iff_ne.mpr hleft,
          beq_eq_false_iff_ne.mpr hright]
      rw [hlookup, sides, if_neg hforward, if_neg hbackward, if_neg hleft, if_neg hright]
      exact .inl ⟨rfl, _, rfl⟩
    · rw [Order.meaning, Order.perform, if_neg hspeed, if_pos (by omega)]
      exact .inl ⟨rfl, _, rfl⟩

theorem find?_instruction (parameters : Parameters) :
    instructions.find? (·.1 = parameters.instruction.1) = some parameters.instruction := by
  cases parameters with
  | motor name speed => cases name <;> rfl
  | _ => rfl

theorem Carries.sendable {drive : Drive} {parameters : Parameters}
    (hcarries : Carries drive parameters) :
    Sendable (parameters.instruction.1, encoded parameters.values) where
  instruction := by
    cases parameters with
    | motor name => cases name <;> simp [Parameters.instruction]
    | _ => simp [Parameters.instruction]
  printable := printable_encoded _
  fits := by
    have hdigits : ∀ value ∈ parameters.values, (hexText value).length ≤ 3 := by
      intro value hvalue
      obtain ⟨field, hfield, rfl⟩ := List.mem_map.mp hvalue
      exact (length_hexText_le_iff _ (by decide)).mpr (hcarries.exact field hfield).1
    have hcount : parameters.values.length ≤ 4 := by
      cases parameters <;> simp [Parameters.values, Parameters.fields]
    have hlength := length_encoded_le hdigits
    dsimp only
    omega

/-- The callbacks that move the wheels. -/
def wheelCallbacks : List Callback := [.onMove, .onTurn, .onWalk, .onRotate]

/-- The instructions behind them. -/
def wheelInstructions : List Nat := [0x06, 0x07, 0x13, 0x14]

theorem not_mem_wheelCallbacks {instructionId : Nat} {instruction : Nat × Callback}
    (hother : instructionId ∉ wheelInstructions)
    (hfound : instructions.find? (·.1 = instructionId) = some instruction) :
    instruction.2 ∉ wheelCallbacks := by
  have hall : ∀ instruction ∈ instructions, instruction.2 ∈ wheelCallbacks →
      instruction.1 ∈ wheelInstructions := by decide
  have hid : instruction.1 = instructionId := by simpa using List.find?_some hfound
  exact fun hcallback => hother (hid ▸ hall _ (List.mem_of_find?_eq_some hfound) hcallback)

section line

variable {F : Type} (fpu : FloatUnit) (toFloat : Scanned → F) {request : Request}
  (hnumbered : Numbered request) (beyond : List Char) (around : Surroundings) (device : Device F)

include hnumbered

theorem handle_commandBuffer (hid : request.id < 16 ^ 4) : ∃ rest,
    handle (commandBuffer (bodyOf request) ++ beyond) =
      match instructions.find? (·.1 = request.instructionId) with
      | some instruction => .ok instruction.2 (UInt16.ofNat request.id)
          (request.parameters ++ '\r' :: rest)
      | none => .undefinedCommand := by
  obtain ⟨rest, hbuffer⟩ := hnumbered.commandBuffer_append beyond hid
  have hvalue := cString_strncpy_printable hnumbered.sendable.printable hnumbered.sendable.fits rest
  obtain ⟨behind, hcopied⟩ : ∃ behind, strncpy maxInputSize maxInputSize
      (request.parameters ++ '\r' :: '\n' :: nul :: rest) = request.parameters ++ '\r' :: behind := by
    obtain ⟨behind, hbehind⟩ := List.takeWhile_prefix (· ≠ nul) (l := strncpy maxInputSize
      maxInputSize (request.parameters ++ '\r' :: '\n' :: nul :: rest))
    refine ⟨'\n' :: behind, hbehind.symm.trans ?_⟩
    rw [show List.takeWhile _ _ = _ from hvalue, List.append_assoc]
    rfl
  refine ⟨behind, ?_⟩
  have hhandle := handle_bodyOf hnumbered hid ('\n' :: nul :: rest)
  rw [hcopied] at hhandle
  rw [hbuffer]
  exact hhandle

theorem obeyed_of_carries (hfpu : fpu.pulsesToMove 0 = 0) {drive : Drive} {parameters : Parameters}
    (hcarries : Carries drive parameters) (hid : request.id < 16 ^ 4)
    (hinstruction : request.instructionId = parameters.instruction.1)
    (hparameters : request.parameters = encoded parameters.values) :
    ∃ next, device.step fpu toFloat (.instruction (commandBuffer (bodyOf request) ++ beyond) around) =
      some next ∧ drive.Obeyed next.firmware.actuators.wheels := by
  obtain ⟨rest, hhandle⟩ := handle_commandBuffer hnumbered beyond hid
  rw [hinstruction, find?_instruction, hparameters] at hhandle
  have hfits := hcarries.sendable.fits
  have hcall : A1.Call.ofCallback around.beyond (encoded parameters.values ++ '\r' :: rest)
      parameters.instruction.2 = some (.ok parameters.intended) := by
    rw [ofCallback_eq_ok rest (by dsimp only at hfits; omega)]
    exact (Parameters.forall_intended_iff hcarries.documented).mpr hcarries.exact around.beyond
  refine ⟨_, by rw [Device.step, hhandle], ?_⟩
  unfold Device.perform
  rw [A1.Call.called_of_ofCallback fpu toFloat hcall]
  have hmeans := hcarries.means
  generalize parameters.intended = call at hmeans ⊢
  cases hmeans with
  | halted withBreak => exact ⟨halts_move hfpu .., halts_move hfpu ..⟩
  | walk speed forward => exact ⟨drives_walk .., drives_walk ..⟩
  | rotate speed left => cases left <;> exact ⟨drives_walk .., drives_walk ..⟩

omit hnumbered in
theorem wheels_callback {name : Callback} (hname : name ∉ wheelCallbacks) (id : RequestId)
    (input : List Char) (firmware : Firmware F) :
    (firmware.callback fpu toFloat around id input name).1.actuators.wheels =
      firmware.actuators.wheels := by
  obtain ⟨component, outcome, hcallback, hacted⟩ | ⟨hactuators, -⟩ :=
    firmware.callback_cases fpu toFloat around id input name
  · rw [hacted]
    cases outcome with
    | error errorCode => rfl
    | ok outcome =>
      obtain ⟨next, replies⟩ := outcome
      cases Actuators.drives_of_callback hcallback with
      | move | turn | walk | rotate => simp [wheelCallbacks] at hname
      | beep | vacuumMotor | leftBrushMotor | rightBrushMotor | mainBrushMotor => rfl
  · rw [hactuators]

theorem wheels_of_other
    (hother : request.instructionId ∉ wheelInstructions ∨ ¬ request.id < 16 ^ 4) :
    ∃ next, device.step fpu toFloat (.instruction (commandBuffer (bodyOf request) ++ beyond) around) =
      some next ∧ next.firmware.actuators.wheels = device.firmware.actuators.wheels := by
  by_cases hid : request.id < 16 ^ 4
  · obtain ⟨rest, hhandle⟩ := handle_commandBuffer hnumbered beyond hid
    rw [Device.step, hhandle]
    cases hfound : instructions.find? (·.1 = request.instructionId) with
    | none => exact ⟨device, rfl, rfl⟩
    | some instruction =>
      have hname := not_mem_wheelCallbacks (hother.resolve_right (not_not.mpr hid)) hfound
      exact ⟨_, rfl, wheels_callback fpu toFloat around hname ..⟩
  · rw [Device.step, handle_commandBuffer_wrapped beyond hnumbered hid]
    exact ⟨device, rfl, rfl⟩

end line

/-! The core and A1 together. -/

/-- A line of the core, with the order that it was written for, if it was one. -/
structure Sent where
  order : Option Order
  request : Request
  deriving DecidableEq

/-- `wire` are the lines on their way, `handled` those that A1 has taken. -/
structure Scene (F : Type) where
  communicator : SerialA1Communicator := {}
  wire : List Sent := []
  handled : List Sent := []
  device : Device F

/-- `instruction` is any other call of the core, `handle` a whole callback of A1. -/
inductive Event
  | order (order : Order)
  | instruction (call : Delivery.Call)
  | handle (beyond : List Char) (around : Surroundings)
  | tick (tick : Pending.Tick)
  | power (now : UInt32) (answer : List UInt8)

namespace Scene

variable {F : Type}

def send (order : Option Order) (call : Delivery.Call) (scene : Scene F) : Scene F :=
  let (_, request, communicator) := scene.communicator.sendInstruction call.1 call.2
  { scene with communicator, wire := scene.wire ++ [⟨order, request⟩] }

variable (fpu : FloatUnit) (toFloat : Scanned → F)

/-- A1 handles the lines in the order in which they were written. -/
def step (scene : Scene F) : Event → Option (Scene F)
  | .order order =>
    match order.perform with
    | .ok command =>
      some (scene.send (some order)
        (command.instruction.instructionId, command.instruction.parameters))
    | .error _ => some scene
  | .instruction call => some (scene.send none call)
  | .handle beyond around =>
    match scene.wire with
    | [] => none
    | sent :: wire =>
      let line := commandBuffer (bodyOf sent.request) ++ beyond
      (scene.device.step fpu toFloat (.instruction line around)).map fun device =>
        { scene with wire, handled := scene.handled ++ [sent], device }
  | .tick tick =>
    (scene.device.step fpu toFloat (.tick tick)).map fun device => { scene with device }
  | .power now answer =>
    (scene.device.step fpu toFloat (.power now answer)).map fun device => { scene with device }

def machine : Machine (Scene F) Event := ⟨step fpu toFloat⟩

def start (settings : PidSettings F) : Scene F := { device := Device.start settings }

end Scene

/-- What a handled line asks of the wheels. -/
def Sent.drive (sent : Sent) : Option Drive :=
  if sent.request.id < 16 ^ 4 then sent.order.bind Order.meaning else none

/-- The last drive that A1 was asked for; before the first the wheels are free. -/
def lastDrive (handled : List Sent) : Drive :=
  (handled.filterMap Sent.drive).getLast?.getD (.halted false)

/-- The other calls of the core are none of the wheels. -/
def leavesWheels : Event → Prop
  | .instruction call => Sendable call ∧ call.1 ∉ wheelInstructions
  | _ => True

/-- A line as the core writes it. -/
def Sent.Written (sent : Sent) : Prop :=
  Numbered sent.request ∧
    match sent.order with
    | none => sent.request.instructionId ∉ wheelInstructions
    | some order => ∃ drive parameters, order.meaning = some drive ∧ Carries drive parameters ∧
        sent.request.instructionId = parameters.instruction.1 ∧
        sent.request.parameters = encoded parameters.values

theorem lastDrive_concat (handled : List Sent) (sent : Sent) :
    lastDrive (handled ++ [sent]) = sent.drive.getD (lastDrive handled) := by
  unfold lastDrive
  rw [List.filterMap_append]
  cases hdrive : sent.drive with
  | none => simp [hdrive]
  | some drive => simp [hdrive]

section runs

variable {F : Type} (fpu : FloatUnit) (toFloat : Scanned → F)

/-- What holds all along: the lines on their way are those of the core, and the
wheels do what was asked for last. -/
structure Consistent (scene : Scene F) : Prop where
  written : ∀ sent ∈ scene.wire, sent.Written
  obeyed : (lastDrive scene.handled).Obeyed scene.device.firmware.actuators.wheels

theorem Consistent.send {scene : Scene F} {order : Option Order} {call : Delivery.Call}
    (hconsistent : Consistent scene)
    (hwritten : ∀ id ≤ 16 ^ 4, Sent.Written ⟨order, ⟨id, call.1, call.2⟩⟩) :
    Consistent (scene.send order call) := by
  unfold Scene.send
  rw [sendInstruction_eq]
  refine ⟨fun sent hsent => ?_, hconsistent.obeyed⟩
  obtain hsent | hsent := List.mem_append.mp hsent
  · exact hconsistent.written sent hsent
  · obtain rfl := List.mem_singleton.mp hsent
    exact hwritten _ (nextIdK_le _)

theorem Consistent.order {scene : Scene F} (hconsistent : Consistent scene) (order : Order) :
    ∃ next, scene.step fpu toFloat (.order order) = some next ∧ Consistent next := by
  obtain ⟨-, message, hperform⟩ | ⟨drive, parameters, hmeaning, hcarries, hperform⟩ :=
    perform_cases order
  · exact ⟨scene, by rw [Scene.step, hperform], hconsistent⟩
  · obtain ⟨hinstruction, hparameters⟩ := Parameters.parameters_robotCommand hcarries.documented
    refine ⟨_, by rw [Scene.step, hperform], hconsistent.send fun id hid => ?_⟩
    rw [hinstruction, hparameters]
    exact ⟨⟨hcarries.sendable, hid⟩, drive, parameters, hmeaning, hcarries, rfl, rfl⟩

theorem Consistent.handle (hfpu : fpu.pulsesToMove 0 = 0) {scene : Scene F} {sent : Sent}
    {wire : List Sent} (hconsistent : Consistent scene) (hwire : scene.wire = sent :: wire)
    (beyond : List Char) (around : Surroundings) :
    ∃ next, scene.step fpu toFloat (.handle beyond around) = some next ∧ Consistent next := by
  obtain ⟨hwritten, hrest⟩ := List.forall_mem_cons.mp (hwire ▸ hconsistent.written)
  obtain ⟨hnumbered, horder⟩ := hwritten
  suffices hdevice : ∃ device, scene.device.step fpu toFloat
      (.instruction (commandBuffer (bodyOf sent.request) ++ beyond) around) = some device ∧
      (lastDrive (scene.handled ++ [sent])).Obeyed device.firmware.actuators.wheels by
    obtain ⟨device, hstep, hobeyed⟩ := hdevice
    refine ⟨{ scene with wire, handled := scene.handled ++ [sent], device }, ?_, hrest, hobeyed⟩
    rw [Scene.step, hwire]
    dsimp only
    rw [hstep]
    rfl
  rw [lastDrive_concat]
  cases hdrive : sent.drive with
  | some asked =>
    obtain ⟨hid, hasked⟩ := Option.ite_none_right_eq_some.mp hdrive
    cases hsent : sent.order with
    | none => simp [hsent] at hasked
    | some order =>
      rw [hsent] at horder hasked
      obtain ⟨drive, parameters, hmeaning, hcarries, hinstruction, hparameters⟩ := horder
      obtain rfl : drive = asked := Option.some.inj (hmeaning.symm.trans hasked)
      exact obeyed_of_carries fpu toFloat hnumbered beyond around scene.device hfpu hcarries hid
        hinstruction hparameters
  | none =>
    have hother : sent.request.instructionId ∉ wheelInstructions ∨ ¬ sent.request.id < 16 ^ 4 := by
      by_cases hid : sent.request.id < 16 ^ 4
      · rw [Sent.drive, if_pos hid] at hdrive
        cases hsent : sent.order with
        | none => exact .inl (by simpa [hsent] using horder)
        | some order =>
          rw [hsent] at horder hdrive
          obtain ⟨drive, -, hmeaning, -⟩ := horder
          cases hmeaning.symm.trans hdrive
      · exact .inr hid
    obtain ⟨device, hstep, hwheels⟩ :=
      wheels_of_other fpu toFloat hnumbered beyond around scene.device hother
    exact ⟨device, hstep, hwheels ▸ hconsistent.obeyed⟩

theorem Consistent.step (hfpu : fpu.pulsesToMove 0 = 0) {scene next : Scene F} {event : Event}
    (hconsistent : Consistent scene) (hother : leavesWheels event)
    (hstep : scene.step fpu toFloat event = some next) : Consistent next := by
  cases event with
  | order order =>
    obtain ⟨other, hother, hnext⟩ := hconsistent.order fpu toFloat order
    exact Option.some.inj (hother.symm.trans hstep) ▸ hnext
  | instruction call =>
    obtain ⟨hsendable, hwheels⟩ := hother
    obtain rfl := Option.some.inj hstep
    exact hconsistent.send fun id hid => ⟨⟨hsendable, hid⟩, hwheels⟩
  | handle beyond around =>
    cases hwire : scene.wire with
    | nil => simp [Scene.step, hwire] at hstep
    | cons sent wire =>
      obtain ⟨other, hother, hnext⟩ :=
        hconsistent.handle fpu toFloat hfpu hwire beyond around
      exact Option.some.inj (hother.symm.trans hstep) ▸ hnext
  | tick tick =>
    obtain rfl := Option.some.inj hstep
    exact ⟨hconsistent.written, hconsistent.obeyed.run tick⟩
  | power now answer =>
    obtain rfl := Option.some.inj hstep
    exact ⟨hconsistent.written, hconsistent.obeyed⟩

theorem Consistent.run (hfpu : fpu.pulsesToMove 0 = 0) {scene next : Scene F} {events : List Event}
    (hconsistent : Consistent scene) (hother : ∀ event ∈ events, leavesWheels event)
    (hexec : (Scene.machine fpu toFloat).exec scene events = some next) : Consistent next := by
  induction events generalizing scene with
  | nil => exact Option.some.inj hexec ▸ hconsistent
  | cons event events ih =>
    obtain ⟨hevent, hevents⟩ := List.forall_mem_cons.mp hother
    obtain ⟨middle, hstep, hrest⟩ := Option.bind_eq_some_iff.mp hexec
    exact ih (hconsistent.step fpu toFloat hfpu hevent hstep) hevents hrest

/-- In every run of core and A1 in which the interrupts come between instructions,
the wheels do what the order asks that A1 has handled last, whatever else is sent
and ticks in between: each of them turns the way and at the speed that is asked for,
or none is driven, and the next interrupt of each leaves it released or held as the
stop asks. -/
theorem wheels_obey (hfpu : fpu.pulsesToMove 0 = 0) {settings : PidSettings F} {events : List Event}
    {scene : Scene F} (hother : ∀ event ∈ events, leavesWheels event)
    (hexec : (Scene.machine fpu toFloat).exec (.start settings) events = some scene) :
    let wheels := scene.device.firmware.actuators.wheels
    (lastDrive scene.handled).Obeyed wheels ∧
      ∀ withBreak, lastDrive scene.handled = .halted withBreak →
        ∀ wheel ∈ [wheels.leftWheel, wheels.rightWheel], ∀ res,
          (wheel.tick res).wheelState = .idle ∧ (wheel.tick res).Released ∧
            (wheel.tick res).withBreak = withBreak := by
  intro wheels
  have hfree : Halts false {} := ⟨rfl, rfl, .inl ⟨rfl, rfl, rfl⟩⟩
  have hstart : Consistent (Scene.start settings) :=
    ⟨fun _ hsent => absurd hsent List.not_mem_nil, show Drive.Obeyed {} (.halted false) from
      ⟨hfree, hfree⟩⟩
  have hconsistent := hstart.run fpu toFloat hfpu hother hexec
  refine ⟨hconsistent.obeyed, fun withBreak hlast wheel hwheel res => ?_⟩
  have hobeyed := hconsistent.obeyed
  rw [hlast] at hobeyed
  obtain rfl | hwheel := List.mem_cons.mp hwheel
  · exact hobeyed.1.released_tick res
  · obtain rfl := List.mem_singleton.mp hwheel
    exact hobeyed.2.released_tick res

/-- Forward and then a stop, with a motor set in between; the right wheel has not
had its interrupt yet. -/
theorem wheels_obey_stop : ∃ scene : Scene Scanned,
    let wheels := scene.device.firmware.actuators.wheels
    (wheels.leftWheel.wheelState, wheels.rightWheel.wheelState) = (.idle, .stopped) ∧
      (lastDrive scene.handled).Obeyed wheels ∧
      ∀ withBreak, lastDrive scene.handled = .halted withBreak →
        ∀ wheel ∈ [wheels.leftWheel, wheels.rightWheel], ∀ res,
          (wheel.tick res).wheelState = .idle ∧ (wheel.tick res).Released ∧
            (wheel.tick res).withBreak = withBreak := by
  let around : Surroundings := ⟨fun _ => [], 0, id, none⟩
  let events : List Event := [.order (.movement "forward".toList 1500), .handle [] around,
    .tick (.wheel .left 90), .instruction (0x08, "64".toList), .order (.stopMovement true),
    .order (.movement "up".toList 1500), .handle [] around, .handle [] around,
    .tick (.wheel .left 90), .tick .wheels]
  have hother : ∀ event ∈ events, leavesWheels event := by
    simp [events, leavesWheels, wheelInstructions]
    exact ⟨by decide, by decide, by decide⟩
  have hrun : (((Scene.machine Answers.noFpu id).exec (.start Answers.noGains) events).map
      fun scene => (scene.device.firmware.actuators.wheels.leftWheel.wheelState,
        scene.device.firmware.actuators.wheels.rightWheel.wheelState)) =
        some (.idle, .stopped) := by
    decide +kernel
  obtain ⟨scene, hexec, hstates⟩ := Option.map_eq_some_iff.mp hrun
  exact ⟨scene, hstates, wheels_obey Answers.noFpu id rfl hother hexec⟩

end runs

end VacuumCleaner.Link.Driving
