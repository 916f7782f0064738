import VacuumCleaner.A1.Calls
import VacuumCleaner.Link.EncodedFields

/-! Numbers on their way from the core's instructions for the actuators to the
methods of A1's components. -/
namespace VacuumCleaner.Link.ParameterFidelity

open Lib.Hex Lib.CText A1 A1.InstructionHandler A1.Fields Core.Robot Core.Socket
open InstructionCodec EncodedFields

/-- The numbers of an instruction for the actuators, in the order of its fields. -/
inductive Parameters
  | beep (count period : Nat)
  | move (direction distance speed haltMode : Nat)
  | turn (direction angle speed haltMode : Nat)
  | motor (name : MotorName) (speed : Nat)
  | walk (direction speed : Nat)
  | rotate (direction speed : Nat)
  deriving DecidableEq, Repr

namespace Parameters

def instruction : Parameters → Nat × Callback
  | beep .. => (0x05, .onBeep)
  | move .. => (0x06, .onMove)
  | turn .. => (0x07, .onTurn)
  | motor .vacuum _ => (0x08, .onVacuumMotor)
  | motor .leftBrush _ => (0x09, .onLeftBrushMotor)
  | motor .rightBrush _ => (0x0A, .onRightBrushMotor)
  | motor .mainBrush _ => (0x12, .onMainBrushMotor)
  | walk .. => (0x13, .onWalk)
  | rotate .. => (0x14, .onRotate)

/-- Each number with the variable that takes it. -/
def fields : Parameters → List (Variable × Nat)
  | beep count period => [(.int8, count), (.int16, period)]
  | move direction distance speed haltMode =>
    [(.flag, direction), (.int32, distance), (.int32, speed), (.flag, haltMode)]
  | turn direction angle speed haltMode =>
    [(.flag, direction), (.int16, angle), (.int16, speed), (.flag, haltMode)]
  | motor _ speed => [(.signal, speed)]
  | walk direction speed => [(.flag, direction), (.int32, speed)]
  | rotate direction speed => [(.flag, direction), (.int16, speed)]

def values (parameters : Parameters) : List Nat := parameters.fields.map Prod.snd

/-- `<direction>` and `<halt mode>`. -/
def IsFlag (value : Nat) : Prop := value = 1 ∨ value = 2

instance (value : Nat) : Decidable (IsFlag value) := inferInstanceAs (Decidable (_ ∨ _))

/-- The ranges of the instructions table. It has no row for `rotate`, whose
numbers are taken as those of `walk`. -/
def Documented : Parameters → Prop
  | beep count period => count < 16 ^ 2 ∧ period < 16 ^ 4
  | move direction distance speed haltMode =>
    IsFlag direction ∧ distance < 16 ^ 4 ∧ speed < 16 ^ 4 ∧ IsFlag haltMode
  | turn direction angle speed haltMode =>
    IsFlag direction ∧ angle < 16 ^ 4 ∧ speed < 16 ^ 4 ∧ IsFlag haltMode
  | motor _ speed => speed ≤ 0x64
  | walk direction speed => IsFlag direction ∧ speed < 16 ^ 4
  | rotate direction speed => IsFlag direction ∧ speed < 16 ^ 4

instance : DecidablePred Documented
  | beep .. => inferInstanceAs (Decidable (_ ∧ _))
  | move .. => inferInstanceAs (Decidable (_ ∧ _ ∧ _ ∧ _))
  | turn .. => inferInstanceAs (Decidable (_ ∧ _ ∧ _ ∧ _))
  | motor .. => inferInstanceAs (Decidable (_ ≤ _))
  | walk .. => inferInstanceAs (Decidable (_ ∧ _))
  | rotate .. => inferInstanceAs (Decidable (_ ∧ _))

/-- The documented meaning: a call with exactly these numbers. -/
def intended : Parameters → Call
  | beep count period => .beep count period
  | move direction distance speed haltMode =>
    .move distance speed (direction = 1) (haltMode = 1)
  | turn direction angle speed haltMode =>
    .turn (Call.sideOf (direction = 1)) angle speed (haltMode = 1)
  | motor name speed => .set name speed
  | walk direction speed => .walk speed (direction = 1)
  | rotate direction speed => .rotate (Call.sideOf (direction = 1)) speed

/-- The call of `RobotUART` that writes the numbers, if its flags are flags. -/
def robotCommand : Parameters → Command
  | beep count period => .beep count period
  | move direction distance speed haltMode =>
    .move distance speed (direction = 1) (haltMode = 1)
  | turn direction angle speed haltMode =>
    .turn (direction = 1) angle speed (haltMode = 1)
  | motor .vacuum speed => .setVacuumMotor speed
  | motor .leftBrush speed => .setLeftBrushMotor speed
  | motor .rightBrush speed => .setRightBrushMotor speed
  | motor .mainBrush speed => .setMainBrushMotor speed
  | walk direction speed => .walk (direction = 1) speed
  | rotate direction speed => .rotate (direction = 1) speed

end Parameters

/-- The line written for the numbers reaches a callback. Whatever lies behind
its buffers, documented numbers arrive at the component's method, and others are
answered `$F`. -/
def Faithful (communicator : SerialA1Communicator) (parameters : Parameters) : Prop :=
  ∃ buffer name id input,
    readFromStream (communicator.sendInstruction parameters.instruction.1
      (encoded parameters.values)).1 = (.ready, buffer, []) ∧
    handle buffer = .ok name id input ∧
    ∀ beyond, if parameters.Documented
      then Call.ofCallback beyond input name = some (.ok parameters.intended)
      else ∃ errorCode, Call.ofCallback beyond input name = some (.error errorCode)

/-- The id has four digits, and the command buffer takes the line. -/
def Fits (communicator : SerialA1Communicator) (parameters : Parameters) : Prop :=
  SerialA1Communicator.nextIdK communicator.instructionIdK < 16 ^ 4 ∧
    (encoded parameters.values).length ≤ 96

/-- The low bits of a number are an error code of the parser, or fail the check
of their variable. -/
def Refused : Variable × Nat → Prop
  | (.int8, value) => value % 2 ^ 8 = 2 ^ 8 - 1 ∨ value % 2 ^ 8 = 2 ^ 8 - 2
  | (.int16, value) => value % 2 ^ 16 = 2 ^ 16 - 1 ∨ value % 2 ^ 16 = 2 ^ 16 - 2
  | (.int32, value) => value % 2 ^ 32 = 2 ^ 32 - 1 ∨ value % 2 ^ 32 = 2 ^ 32 - 2
  | (.flag, value) => value % 2 ^ 8 ≠ 1 ∧ value % 2 ^ 8 ≠ 2
  | (.signal, value) => 100 < value % 2 ^ 8

/-- At most three digits, and not refused. -/
def Exact (field : Variable × Nat) : Prop := field.2 < 16 ^ 3 ∧ ¬ Refused field

/-- More than four digits, or at most three that are refused. -/
def Rejected (field : Variable × Nat) : Prop :=
  16 ^ 4 ≤ field.2 ∨ field.2 < 16 ^ 3 ∧ Refused field

instance : DecidablePred Refused
  | (.int8, _) | (.int16, _) | (.int32, _) => inferInstanceAs (Decidable (_ ∨ _))
  | (.flag, _) => inferInstanceAs (Decidable (_ ∧ _))
  | (.signal, _) => inferInstanceAs (Decidable (_ < _))

namespace Parameters

theorem instruction_mem (parameters : Parameters) : parameters.instruction ∈ instructions := by
  cases parameters with
  | motor name => cases name <;> simp [instruction, instructions]
  | _ => simp [instruction, instructions]

theorem parameters_robotCommand {parameters : Parameters} (hdocumented : parameters.Documented) :
    parameters.robotCommand.instruction.instructionId = parameters.instruction.1 ∧
      parameters.robotCommand.instruction.parameters = encoded parameters.values := by
  have hflag : ∀ value, IsFlag value → flag (value = 1) = hexText value := by
    rintro value (rfl | rfl) <;> decide
  cases parameters with
  | motor name speed =>
    cases name <;>
      exact ⟨rfl, (hex_natCast speed).trans (encoded_singleton speed).symm⟩
  | beep count period =>
    simp only [robotCommand, Command.instruction, hex_natCast]
    exact ⟨rfl, rfl⟩
  | move direction distance speed haltMode =>
    simp only [robotCommand, Command.instruction, hex_natCast, hflag _ hdocumented.1,
      hflag _ hdocumented.2.2.2]
    exact ⟨rfl, rfl⟩
  | turn direction angle speed haltMode =>
    simp only [robotCommand, Command.instruction, hex_natCast, hflag _ hdocumented.1,
      hflag _ hdocumented.2.2.2]
    exact ⟨rfl, rfl⟩
  | walk direction speed =>
    simp only [robotCommand, Command.instruction, hex_natCast, hflag _ hdocumented.1]
    exact ⟨rfl, rfl⟩
  | rotate direction speed =>
    simp only [robotCommand, Command.instruction, hex_natCast, hflag _ hdocumented.1]
    exact ⟨rfl, rfl⟩

end Parameters

section fields

theorem readField_short (beyond : List Char) {value : Nat} (hvalue : value < 16 ^ 3) :
    readField beyond value = value := if_pos hvalue

theorem readField_long (beyond : List Char) {value : Nat} (hvalue : 16 ^ 4 ≤ value) :
    readField beyond value = parsingError := by
  rw [readField, if_neg (by omega), if_neg (by omega)]

/-- Two digits behind the buffer, which every check lets pass. -/
def spoiling : List Char := ['0', '1']

theorem readField_spoiling {value : Nat} (hlower : 16 ^ 3 ≤ value) (hupper : value < 16 ^ 4) :
    readField spoiling value = (256 * value + 1 : Nat) := by
  have hread : hexValue (hexText value ++ spoiling) = 256 * value + 1 := by
    rw [hexValue_append, hexValue_hexText]
    rfl
  have hdigits : (cString spoiling).takeWhile isHexDigit = spoiling := by decide
  rw [readField, if_neg (by omega), if_pos hupper, hdigits, hread, clampLong_of_lt (by omega)]

theorem isParsingFailure_eq_false {value : Int} :
    isParsingFailure value = false ↔ value ≠ -1 ∧ value ≠ -2 := by
  simp [isParsingFailure, parsingError, cannotParseNumber]

theorem accepts_natCast_iff (kind : Variable) (value : Nat) :
    kind.Accepts value ↔ ¬ Refused (kind, value) := by
  cases kind with
  | int8 =>
    simp only [Variable.Accepts, Refused, isParsingFailure_eq_false, toSigned_eq]
    split <;> omega
  | int16 =>
    simp only [Variable.Accepts, Refused, isParsingFailure_eq_false, toSigned_eq]
    split <;> omega
  | int32 =>
    simp only [Variable.Accepts, Refused, isParsingFailure_eq_false, toSigned_eq]
    split <;> omega
  | flag =>
    simp only [Variable.Accepts, Refused, toSigned_eq]
    split <;> omega
  | signal =>
    simp only [Variable.Accepts, Refused, toUnsigned]
    omega

theorem not_refused_spoiled (kind : Variable) (value : Nat) :
    ¬ Refused (kind, 256 * value + 1) := by
  cases kind <;> simp only [Refused] <;> omega

theorem not_accepts_parsingError (kind : Variable) : ¬ kind.Accepts parsingError := by
  cases kind <;> simp [Variable.Accepts, isParsingFailure_eq_false, toSigned_eq, toUnsigned,
    parsingError]

/-- A rejected number is rejected whatever lies behind the buffer; of the others
each is accepted with the two digits behind it. -/
theorem not_accepts_of_rejected {field : Variable × Nat} (hrejected : Rejected field)
    (beyond : List Char) : ¬ field.1.Accepts (readField beyond field.2) := by
  obtain hlong | ⟨hshort, hrefused⟩ := hrejected
  · rw [readField_long beyond hlong]
    exact not_accepts_parsingError field.1
  · rw [readField_short beyond hshort, accepts_natCast_iff]
    exact not_not_intro hrefused

theorem accepts_of_not_rejected {field : Variable × Nat} (hrejected : ¬ Rejected field) :
    field.1.Accepts (readField spoiling field.2) := by
  obtain ⟨hlong, hshort⟩ := not_or.mp hrejected
  by_cases hlower : field.2 < 16 ^ 3
  · rw [readField_short spoiling hlower, accepts_natCast_iff]
    exact fun hrefused => hshort ⟨hlower, hrefused⟩
  · rw [readField_spoiling (Nat.not_lt.mp hlower) (Nat.not_le.mp hlong), accepts_natCast_iff]
    exact not_refused_spoiled field.1 field.2

/-- All fields from the one with number `group` on pass their checks. -/
def Accepted (beyond : StackBytes) (group : Nat) : List (Variable × Nat) → Prop
  | [] => True
  | (kind, value) :: fields =>
    kind.Accepts (readField (beyond group) value) ∧ Accepted beyond (group + 1) fields

theorem not_accepted_of_mem {fields : List (Variable × Nat)} {field : Variable × Nat}
    (hfield : field ∈ fields) (hrejected : Rejected field) (beyond : StackBytes) (group : Nat) :
    ¬ Accepted beyond group fields := by
  induction fields generalizing group with
  | nil => cases hfield
  | cons first fields ih =>
    rintro ⟨hfirst, hfields⟩
    obtain rfl | hmem := List.mem_cons.mp hfield
    · exact not_accepts_of_rejected hrejected (beyond group) hfirst
    · exact ih hmem (group + 1) hfields

theorem accepted_spoiling {fields : List (Variable × Nat)}
    (hfields : ∀ field ∈ fields, ¬ Rejected field) (group : Nat) :
    Accepted (fun _ => spoiling) group fields := by
  induction fields generalizing group with
  | nil => trivial
  | cons first fields ih =>
    rw [List.forall_mem_cons] at hfields
    exact ⟨accepts_of_not_rejected hfields.1, ih hfields.2 (group + 1)⟩

theorem forall_not_accepted_iff (fields : List (Variable × Nat)) :
    (∀ beyond, ¬ Accepted beyond 0 fields) ↔ ∃ field ∈ fields, Rejected field := by
  constructor
  · intro hfails
    by_contra hnone
    push Not at hnone
    exact hfails _ (accepted_spoiling hnone 0)
  · rintro ⟨field, hfield, hrejected⟩ beyond
    exact not_accepted_of_mem hfield hrejected beyond 0

end fields

/-- The call that accepted numbers make, given what is read for each. -/
def Parameters.passed (read : Nat → Int) : Parameters → Call
  | .beep .. => .beep (toUnsigned 8 (toSigned 8 (read 0))) (toUnsigned 16 (toSigned 16 (read 1)))
  | .move .. =>
    .move (toUnsigned 32 (toSigned 32 (read 1))) (toUnsigned 32 (toSigned 32 (read 2)))
      (toSigned 8 (read 0) = 1) (toSigned 8 (read 3) = 1)
  | .turn .. =>
    .turn (Call.sideOf (toSigned 8 (read 0) = 1)) (toUnsigned 16 (toSigned 16 (read 1)))
      (toUnsigned 32 (toSigned 16 (read 2))) (toSigned 8 (read 3) = 1)
  | .motor name _ => .set name (toUnsigned 8 (read 0))
  | .walk .. => .walk (toUnsigned 32 (toSigned 32 (read 1))) (toSigned 8 (read 0) = 1)
  | .rotate .. =>
    .rotate (Call.sideOf (toSigned 8 (read 0) = 1)) (toUnsigned 32 (toSigned 16 (read 1)))

def Parameters.read (parameters : Parameters) (beyond : StackBytes) (group : Nat) : Int :=
  readField (beyond group) (parameters.values.getD group 0)

theorem Parameters.ofCallback_instruction (parameters : Parameters) (beyond : StackBytes)
    (input : List Char) :
    ∃ outcome, Call.ofCallback beyond input parameters.instruction.2 = some outcome := by
  cases parameters with
  | motor name speed => cases name <;> exact ⟨_, rfl⟩
  | _ => exact ⟨_, rfl⟩

section calls

variable {parameters : Parameters} (rest : List Char)
  (hlength : (encoded parameters.values).length ≤ 96) {beyond : StackBytes} {call : Call}

include hlength

theorem fetched_encoded (beyond : StackBytes) (group : Nat)
    (hgroup : group < parameters.values.length) :
    Call.fetched beyond (encoded parameters.values ++ '\r' :: rest) group =
      parameters.read beyond group := by
  rw [Call.fetched, fetch_encoded hgroup (hlength.trans (by decide)), Parameters.read,
    List.getD_eq_getElem?_getD, List.getElem?_eq_getElem hgroup]
  rfl

theorem ofCallback_eq_ok :
    Call.ofCallback beyond (encoded parameters.values ++ '\r' :: rest) parameters.instruction.2 =
        some (.ok call) ↔
      Accepted beyond 0 parameters.fields ∧ parameters.passed (parameters.read beyond) = call := by
  have hread := fetched_encoded rest hlength beyond
  cases parameters with
  | beep count period =>
    have hcount := hread 0 (by decide : 0 < 2)
    have hperiod := hread 1 (by decide : 1 < 2)
    rw [Parameters.instruction, Call.ofCallback, Option.some.injEq, Call.onBeep_eq_ok, hcount,
      hperiod]
    simp only [Accepted, Parameters.fields, and_true, and_assoc]
    rfl
  | move direction distance speed haltMode =>
    have hdirection := hread 0 (by decide : 0 < 4)
    have hdistance := hread 1 (by decide : 1 < 4)
    have hspeed := hread 2 (by decide : 2 < 4)
    have hbreak := hread 3 (by decide : 3 < 4)
    rw [Parameters.instruction, Call.ofCallback, Option.some.injEq, Call.onMove_eq_ok, hdirection,
      hdistance, hspeed, hbreak]
    simp only [Accepted, Parameters.fields, and_true, and_assoc]
    rfl
  | turn direction angle speed haltMode =>
    have hside := hread 0 (by decide : 0 < 4)
    have hdegree := hread 1 (by decide : 1 < 4)
    have hspeed := hread 2 (by decide : 2 < 4)
    have hbreak := hread 3 (by decide : 3 < 4)
    rw [Parameters.instruction, Call.ofCallback, Option.some.injEq, Call.onTurn_eq_ok, hside,
      hdegree, hspeed, hbreak]
    simp only [Accepted, Parameters.fields, and_true, and_assoc]
    rfl
  | motor name speed =>
    have hspeed := hread 0 (by decide : 0 < 1)
    have hname : Call.ofCallback beyond (encoded (Parameters.motor name speed).values ++
        '\r' :: rest) (Parameters.motor name speed).instruction.2 =
          some (Call.setMotorSignal beyond (encoded (Parameters.motor name speed).values ++
            '\r' :: rest) name) := by
      cases name <;> rfl
    rw [hname, Option.some.injEq, Call.setMotorSignal_eq_ok, hspeed]
    simp only [Accepted, Parameters.fields, and_true]
    rfl
  | walk direction speed =>
    have hdirection := hread 0 (by decide : 0 < 2)
    have hspeed := hread 1 (by decide : 1 < 2)
    rw [Parameters.instruction, Call.ofCallback, Option.some.injEq, Call.onWalk_eq_ok, hdirection,
      hspeed]
    simp only [Accepted, Parameters.fields, and_true, and_assoc]
    rfl
  | rotate direction speed =>
    have hdirection := hread 0 (by decide : 0 < 2)
    have hspeed := hread 1 (by decide : 1 < 2)
    rw [Parameters.instruction, Call.ofCallback, Option.some.injEq, Call.onRotate_eq_ok,
      hdirection, hspeed]
    simp only [Accepted, Parameters.fields, and_true, and_assoc]
    rfl

theorem ofCallback_eq_error :
    (∃ errorCode, Call.ofCallback beyond (encoded parameters.values ++ '\r' :: rest)
        parameters.instruction.2 = some (.error errorCode)) ↔
      ¬ Accepted beyond 0 parameters.fields := by
  constructor
  · rintro ⟨errorCode, herror⟩ haccepted
    have hcall := (ofCallback_eq_ok rest hlength).mpr ⟨haccepted, rfl⟩
    rw [herror] at hcall
    cases hcall
  · intro hrejected
    obtain ⟨outcome, houtcome⟩ := parameters.ofCallback_instruction beyond
      (encoded parameters.values ++ '\r' :: rest)
    cases outcome with
    | error errorCode => exact ⟨errorCode, houtcome⟩
    | ok call => exact absurd ((ofCallback_eq_ok rest hlength).mp houtcome).1 hrejected

end calls

section exactness

theorem toUnsigned_toSigned_natCast {width value : Nat} (hvalue : value < 2 ^ width) :
    toUnsigned width (toSigned width value) = value := by
  rw [toUnsigned_toSigned, toUnsigned_natCast hvalue]

theorem short_of_same {width other value : Nat} (hwidth : 16 ≤ width) (hother : 16 ≤ other)
    (hvalue : value < 16 ^ 4)
    (hsame : toUnsigned other (toSigned width (readField spoiling value)) = value) :
    value < 16 ^ 3 := by
  by_contra hlower
  have hmod := toUnsigned_toSigned_mod hwidth hother (readField spoiling value)
  rw [hsame, readField_spoiling (Nat.not_lt.mp hlower) hvalue] at hmod
  push_cast at hmod
  omega

theorem flag_same {value : Nat} (hflag : Parameters.IsFlag value) (beyond : List Char) :
    decide (toSigned 8 (readField beyond value) = 1) = decide (value = 1) := by
  obtain rfl | rfl := hflag
  · rfl
  · rfl

variable {fields : List (Variable × Nat)} (hshort : ∀ field ∈ fields, field.2 < 16 ^ 3)

include hshort

theorem accepted_iff_of_short (beyond : StackBytes) (group : Nat) :
    Accepted beyond group fields ↔ ∀ field ∈ fields, ¬ Refused field := by
  induction fields generalizing group with
  | nil => simp [Accepted]
  | cons first fields ih =>
    rw [List.forall_mem_cons] at hshort ⊢
    rw [Accepted, readField_short _ hshort.1, accepts_natCast_iff, ih hshort.2]

theorem exact_iff_of_short :
    (∀ field ∈ fields, Exact field) ↔ ∀ field ∈ fields, ¬ Refused field :=
  forall₂_congr fun field hfield => and_iff_right (hshort field hfield)

end exactness

namespace Parameters

variable {parameters : Parameters} (hdocumented : parameters.Documented)

include hdocumented

theorem passed_of_short (hshort : ∀ field ∈ parameters.fields, field.2 < 16 ^ 3)
    (beyond : StackBytes) : parameters.passed (parameters.read beyond) = parameters.intended := by
  -- what is read for each number of `values`, and its conversions
  have hread : ∀ (group : Nat) {value : Nat}, value < 16 ^ 3 →
      readField (beyond group) value = value := fun group _ => readField_short (beyond group)
  cases parameters with
  | beep count period =>
    obtain ⟨hcount, hperiod⟩ : count < 16 ^ 3 ∧ period < 16 ^ 3 := by simpa [fields] using hshort
    simp only [passed, read, values, fields, List.map_cons, List.getD_cons_zero,
      List.getD_cons_succ, hread _ hcount, hread _ hperiod, intended]
    rw [toUnsigned_toSigned_natCast hdocumented.1,
      toUnsigned_toSigned_natCast (show period < 2 ^ 16 by omega)]
  | move direction distance speed haltMode =>
    obtain ⟨-, hdistance, hspeed, -⟩ : direction < 16 ^ 3 ∧ distance < 16 ^ 3 ∧ speed < 16 ^ 3 ∧
        haltMode < 16 ^ 3 := by simpa [fields] using hshort
    simp only [passed, read, values, fields, List.map_cons, List.getD_cons_zero,
      List.getD_cons_succ, hread _ hdistance, hread _ hspeed, flag_same hdocumented.1,
      flag_same hdocumented.2.2.2, intended]
    rw [toUnsigned_toSigned_natCast (show distance < 2 ^ 32 by omega),
      toUnsigned_toSigned_natCast (show speed < 2 ^ 32 by omega)]
  | turn direction angle speed haltMode =>
    obtain ⟨-, hangle, hspeed, -⟩ : direction < 16 ^ 3 ∧ angle < 16 ^ 3 ∧ speed < 16 ^ 3 ∧
        haltMode < 16 ^ 3 := by simpa [fields] using hshort
    simp only [passed, read, values, fields, List.map_cons, List.getD_cons_zero,
      List.getD_cons_succ, hread _ hangle, hread _ hspeed, flag_same hdocumented.1,
      flag_same hdocumented.2.2.2, intended]
    rw [toUnsigned_toSigned_natCast (show angle < 2 ^ 16 by omega),
      toSigned_natCast (show 2 * speed < 2 ^ 16 by omega),
      toUnsigned_natCast (show speed < 2 ^ 32 by omega)]
  | motor name speed =>
    have hspeed : speed < 16 ^ 3 := by simpa [fields] using hshort
    have hlimit : speed ≤ 0x64 := hdocumented
    simp only [passed, read, values, fields, List.map_cons, List.getD_cons_zero, hread _ hspeed,
      intended]
    rw [toUnsigned_natCast (show speed < 2 ^ 8 by omega)]
  | walk direction speed =>
    obtain ⟨-, hspeed⟩ : direction < 16 ^ 3 ∧ speed < 16 ^ 3 := by simpa [fields] using hshort
    simp only [passed, read, values, fields, List.map_cons, List.getD_cons_zero,
      List.getD_cons_succ, hread _ hspeed, flag_same hdocumented.1, intended]
    rw [toUnsigned_toSigned_natCast (show speed < 2 ^ 32 by omega)]
  | rotate direction speed =>
    obtain ⟨-, hspeed⟩ : direction < 16 ^ 3 ∧ speed < 16 ^ 3 := by simpa [fields] using hshort
    simp only [passed, read, values, fields, List.map_cons, List.getD_cons_zero,
      List.getD_cons_succ, hread _ hspeed, flag_same hdocumented.1, intended]
    rw [toSigned_natCast (show 2 * speed < 2 ^ 16 by omega),
      toUnsigned_natCast (show speed < 2 ^ 32 by omega)]

theorem short_of_passed
    (hpassed : parameters.passed (parameters.read fun _ => spoiling) = parameters.intended) :
    ∀ field ∈ parameters.fields, field.2 < 16 ^ 3 := by
  have hflag : ∀ value, IsFlag value → value < 16 ^ 3 := by
    rintro value (rfl | rfl) <;> decide
  cases parameters with
  | beep count period =>
    have hcount : count < 16 ^ 2 := hdocumented.1
    injection hpassed with _ hperiod
    have hperiodShort := short_of_same le_rfl le_rfl hdocumented.2 hperiod
    simpa [fields] using ⟨hcount.trans (by decide), hperiodShort⟩
  | move direction distance speed haltMode =>
    obtain ⟨hdirection, hdistance, hspeed, hbreak⟩ := hdocumented
    injection hpassed with hdistanceSame hspeedSame
    have hdistanceShort := short_of_same (by decide) (by decide) hdistance hdistanceSame
    have hspeedShort := short_of_same (by decide) (by decide) hspeed hspeedSame
    simpa [fields] using ⟨hflag _ hdirection, hdistanceShort, hspeedShort, hflag _ hbreak⟩
  | turn direction angle speed haltMode =>
    obtain ⟨hdirection, hangle, hspeed, hbreak⟩ := hdocumented
    injection hpassed with _ hangleSame hspeedSame
    have hangleShort := short_of_same le_rfl le_rfl hangle hangleSame
    have hspeedShort := short_of_same le_rfl (by decide) hspeed hspeedSame
    simpa [fields] using ⟨hflag _ hdirection, hangleShort, hspeedShort, hflag _ hbreak⟩
  | motor name speed =>
    have hlimit : speed ≤ 0x64 := hdocumented
    simpa [fields] using hlimit.trans_lt (by decide)
  | walk direction speed =>
    injection hpassed with hspeedSame
    have hspeedShort := short_of_same (by decide) (by decide) hdocumented.2 hspeedSame
    simpa [fields] using ⟨hflag _ hdocumented.1, hspeedShort⟩
  | rotate direction speed =>
    injection hpassed with _ hspeedSame
    have hspeedShort := short_of_same le_rfl (by decide) hdocumented.2 hspeedSame
    simpa [fields] using ⟨hflag _ hdocumented.1, hspeedShort⟩

theorem forall_intended_iff :
    (∀ beyond, Accepted beyond 0 parameters.fields ∧
        parameters.passed (parameters.read beyond) = parameters.intended) ↔
      ∀ field ∈ parameters.fields, Exact field := by
  constructor
  · intro hall
    obtain ⟨haccepted, hpassed⟩ := hall fun _ => spoiling
    have hshort := short_of_passed hdocumented hpassed
    exact (exact_iff_of_short hshort).mpr ((accepted_iff_of_short hshort _ 0).mp haccepted)
  · intro hexact beyond
    have hshort : ∀ field ∈ parameters.fields, field.2 < 16 ^ 3 := fun field hfield =>
      (hexact field hfield).1
    exact ⟨(accepted_iff_of_short hshort beyond 0).mpr ((exact_iff_of_short hshort).mp hexact),
      passed_of_short hdocumented hshort beyond⟩

end Parameters

theorem faithful_iff_accepted {communicator : SerialA1Communicator} {parameters : Parameters} :
    Faithful communicator parameters ↔ Fits communicator parameters ∧
      ∀ beyond, if parameters.Documented
        then Accepted beyond 0 parameters.fields ∧
          parameters.passed (parameters.read beyond) = parameters.intended
        else ¬ Accepted beyond 0 parameters.fields := by
  have hmem : (parameters.instruction.1, parameters.instruction.2) ∈ instructions :=
    parameters.instruction_mem
  have hprintable := printable_encoded parameters.values
  constructor
  · rintro ⟨buffer, name, id, input, hread, hhandle, hall⟩
    have hfits : Fits communicator parameters :=
      fits_of_received (List.mem_map.mpr ⟨_, hmem, rfl⟩) hprintable hread hhandle
    obtain ⟨buffer', rest, hread', hhandle'⟩ := received_of_fits hmem hprintable hfits.2 hfits.1
    obtain rfl : buffer = buffer' := by
      rw [hread] at hread'
      exact congrArg (·.2.1) hread'
    rw [hhandle] at hhandle'
    injection hhandle' with hname _ hinput
    subst hname hinput
    refine ⟨hfits, fun beyond => ?_⟩
    have hbeyond := hall beyond
    split at hbeyond
    · rename_i hdocumented
      rw [if_pos hdocumented]
      exact (ofCallback_eq_ok _ hfits.2).mp hbeyond
    · rename_i hdocumented
      rw [if_neg hdocumented]
      exact (ofCallback_eq_error _ hfits.2).mp hbeyond
  · rintro ⟨hfits, hall⟩
    obtain ⟨buffer, rest, hread, hhandle⟩ := received_of_fits hmem hprintable hfits.2 hfits.1
    refine ⟨buffer, _, _, _, hread, hhandle, fun beyond => ?_⟩
    have hbeyond := hall beyond
    split at hbeyond
    · rename_i hdocumented
      rw [if_pos hdocumented]
      exact (ofCallback_eq_ok _ hfits.2).mpr hbeyond
    · rename_i hdocumented
      rw [if_neg hdocumented]
      exact (ofCallback_eq_error _ hfits.2).mpr hbeyond

/-- Documented numbers arrive iff each has at most three digits and is not taken
for an error code; others fail iff a field does, and the line has to fit. -/
theorem parametersArrive_iff (communicator : SerialA1Communicator) (parameters : Parameters) :
    Faithful communicator parameters ↔ Fits communicator parameters ∧
      if parameters.Documented then ∀ field ∈ parameters.fields, Exact field
      else ∃ field ∈ parameters.fields, Rejected field := by
  rw [faithful_iff_accepted]
  split
  · rename_i hdocumented
    rw [Parameters.forall_intended_iff hdocumented]
  · rw [forall_not_accepted_iff]

/-- The count 255 is -1 as an `int8_t`, and the beeps are refused. -/
theorem beep_255_not_faithful :
    ¬ ∀ communicator parameters, Faithful communicator parameters := by
  intro hevery
  have hdocumented : (Parameters.beep 255 1).Documented := by decide
  have hall := (faithful_iff_accepted.mp (hevery {} (.beep 255 1))).2
  simp only [if_pos hdocumented] at hall
  have hexact := (Parameters.forall_intended_iff hdocumented).mp hall
  exact absurd (hexact (.int8, 255) List.mem_cons_self).2 (by decide)

end VacuumCleaner.Link.ParameterFidelity
