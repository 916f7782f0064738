import VacuumCleaner.Lib.Hex
import Mathlib.Data.Rat.Floor

/-! The core's view of A1: requests, replies and the sensor snapshot, with the
parsers that fill them from received lines. -/
namespace VacuumCleaner.Core.Models

open Lib.Hex

/-- What the Python runtime decides for us: the Unicode decimal digits matched
by `\d`, and the longest decimal numeral `int` converts (0 for no limit). -/
structure Runtime where
  decimalDigit : Char → Option (Fin 10)
  maxStrDigits : Nat
  ascii_digit : ∀ c : Char, c.toNat < 128 →
    decimalDigit c = if h : 48 ≤ c.toNat ∧ c.toNat < 58 then some ⟨c.toNat - 48, by omega⟩ else none

def Runtime.isDigit (py : Runtime) (c : Char) : Bool := (py.decimalDigit c).isSome

/-- A runtime that knows the ASCII digits only, with CPython's default limit. -/
def asciiRuntime : Runtime where
  decimalDigit c := if h : 48 ≤ c.toNat ∧ c.toNat < 58 then some ⟨c.toNat - 48, by omega⟩ else none
  maxStrDigits := 4300
  ascii_digit _ _ := rfl

/-- The exceptions that leave the receiving code. -/
inductive Raised
  | indexError
  | cannotParse (line : List Char)
  | invalidEnum (enum : String) (value : Nat)
  | intTooLong (digits : Nat)
  deriving DecidableEq, Repr

structure Request where
  id : Nat
  instructionId : Nat
  parameters : List Char
  deriving DecidableEq, Repr

structure Response where
  id : Nat
  isSuccessful : Bool
  timestamp : Int
  errorCode : Option (List Char) := none
  data : Option (List Char) := none
  deriving DecidableEq, Repr

/-- The property `data`: none where it raises. -/
def Response.dataProperty (response : Response) : Option (List Char) :=
  response.data.filter (· ≠ [])

/-- The property `error_code`: none where it raises. -/
def Response.errorCodeProperty (response : Response) : Option (Option (List Char)) :=
  if response.isSuccessful then none else some response.errorCode

/-- `[\dABCDEF]` of the reply pattern, with the value `int(_, 16)` gives it. -/
def replyDigit (py : Runtime) (c : Char) : Option Nat :=
  match py.decimalDigit c with
  | some value => some value.val
  | none => if 'A' ≤ c ∧ c ≤ 'F' then some (c.toNat - 'A'.toNat + 10) else none

def isReplyDigit (py : Runtime) (c : Char) : Bool := (replyDigit py c).isSome

/-- `(:(.*))?`: the text of group 4. The dot stops at a line feed. -/
def replyTail : List Char → Option (List Char)
  | ':' :: rest => some (rest.takeWhile (· ≠ '\n'))
  | _ => none

/-- `Response.parse`: the greedy id takes up to four digits. -/
def Response.parse (py : Runtime) (now : Int) (line : List Char) : Except Raised Response :=
  match line with
  | '$' :: kind :: ':' :: rest =>
    let digits := (rest.takeWhile (isReplyDigit py)).take 4
    if digits = [] ∨ ¬ (kind = 'S' ∨ kind = 'F' ∨ kind = 'R') then .error (.cannotParse line)
    else
      let tail := replyTail (rest.drop digits.length)
      let id := digits.foldl (fun value c => 16 * value + (replyDigit py c).getD 0) 0
      if kind = 'S' ∨ kind = 'R' then
        .ok { id, isSuccessful := true, timestamp := now, errorCode := none, data := tail }
      else .ok { id, isSuccessful := false, timestamp := now, errorCode := tail, data := tail }
  | _ => .error (.cannotParse line)

inductive ButtonState
  | nothing | click | longPress
  deriving DecidableEq, Repr

def ButtonState.ofValue : Nat → Except Raised ButtonState
  | 0 => .ok .nothing
  | 1 => .ok .click
  | 3 => .ok .longPress
  | value => .error (.invalidEnum "ButtonState" value)

inductive ChargingState
  | noCharging | charging | charged
  deriving DecidableEq, Repr

def ChargingState.ofValue : Nat → Except Raised ChargingState
  | 0 => .ok .noCharging
  | 1 => .ok .charging
  | 2 => .ok .charged
  | value => .error (.invalidEnum "ChargingState" value)

/-- The sensor snapshot. Voltages are kept in exact arithmetic. -/
structure A1Data where
  buttonUpClick : ButtonState := .nothing
  buttonOkClick : ButtonState := .nothing
  buttonDownClick : ButtonState := .nothing
  bluetoothButtonClick : ButtonState := .nothing
  endRightTrig : Bool := false
  endLeftTrig : Bool := false
  dustBoxPresent : Bool := false
  lidIsClosed : Bool := false
  rangefinderLeftValue : Nat := 0
  rangefinderCenterValue : Nat := 0
  rangefinderRightValue : Nat := 0
  backLeftCliffBreakage : Bool := false
  backCenterCliffBreakage : Bool := false
  backRightCliffBreakage : Bool := false
  frontLeftCliffBreakage : Bool := false
  frontCenterCliffBreakage : Bool := false
  frontRightCliffBreakage : Bool := false
  batteryVoltage : ℚ := 0
  batteryCapacity : Int := 0
  isShutDownButtonTriggered : Bool := false
  chargingState : ChargingState := .noCharging
  rightWheelSpeed : Nat := 0
  leftWheelSpeed : Nat := 0
  deriving DecidableEq, Repr

namespace A1Data

def maxBatteryVoltage : ℚ := 167 / 10
def minBatteryVoltage : ℚ := 131 / 10

/-- The four click latches, in the order in which a telemetry byte is read. -/
inductive Button
  | bluetooth | up | ok | down
  deriving DecidableEq, Repr

def Button.shift : Button → Nat
  | .bluetooth => 6
  | .up => 4
  | .ok => 2
  | .down => 0

def Button.code (button : Button) (value : Nat) : Nat := (value >>> button.shift) &&& 3

def click (data : A1Data) : Button → ButtonState
  | .bluetooth => data.bluetoothButtonClick
  | .up => data.buttonUpClick
  | .ok => data.buttonOkClick
  | .down => data.buttonDownClick

def setClick (data : A1Data) (state : ButtonState) : Button → A1Data
  | .bluetooth => { data with bluetoothButtonClick := state }
  | .up => { data with buttonUpClick := state }
  | .ok => { data with buttonOkClick := state }
  | .down => { data with buttonDownClick := state }

/-- The four latch properties: reading a click clears its latch. -/
def readButton (data : A1Data) (button : Button) : ButtonState × A1Data :=
  if data.click button ≠ .nothing then (data.click button, data.setClick .nothing button)
  else (data.click button, data)

/-- What a parser leaves: the new snapshot, or an exception together with the
fields that were already written when it was raised. -/
abbrev Refresh := Except (Raised × A1Data) A1Data

def refreshButton (button : Button) (value : Nat) (data : A1Data) : Refresh :=
  if data.click button = .nothing then
    match ButtonState.ofValue (button.code value) with
    | .ok state => .ok (data.setClick state button)
    | .error raised => .error (raised, data)
  else .ok data

def parseAndSetButtonsState (value : Nat) (data : A1Data) : Refresh := do
  let data ← refreshButton .bluetooth value data
  let data ← refreshButton .up value data
  let data ← refreshButton .ok value data
  refreshButton .down value data

def parseAndSetEndsState (value : Nat) (data : A1Data) : Refresh :=
  .ok { data with
    endRightTrig := (value &&& 0x1) != 0
    endLeftTrig := (value &&& 0x2) != 0
    lidIsClosed := (value &&& 0x4) != 0
    dustBoxPresent := (value &&& 0x8) != 0 }

def parseDisValues (value : Nat) (data : A1Data) : Refresh :=
  .ok { data with
    rangefinderLeftValue := value &&& 0xFF
    rangefinderCenterValue := (value >>> 0x8) &&& 0xFF
    rangefinderRightValue := (value >>> 0x10) &&& 0xFF }

def parseCliffs (value : Nat) (data : A1Data) : Refresh :=
  .ok { data with
    backRightCliffBreakage := ((value >>> 0x0) &&& 0x1) != 0
    backCenterCliffBreakage := ((value >>> 0x1) &&& 0x1) != 0
    backLeftCliffBreakage := ((value >>> 0x2) &&& 0x1) != 0
    frontRightCliffBreakage := ((value >>> 0x3) &&& 0x1) != 0
    frontCenterCliffBreakage := ((value >>> 0x4) &&& 0x1) != 0
    frontLeftCliffBreakage := ((value >>> 0x5) &&& 0x1) != 0 }

/-- The shutdown flag is written before the charging state is converted. -/
def parsePowerControllerStates (value : Nat) (data : A1Data) : Refresh :=
  let powerState := value &&& 0x3
  let data := { data with isShutDownButtonTriggered := powerState == 0x3 }
  match ChargingState.ofValue ((value >>> 3) &&& 0x3) with
  | .ok state => .ok { data with chargingState := state }
  | .error raised => .error (raised, data)

/-- Python's `round`: halves go to the even neighbour. -/
def roundHalfEven (value : ℚ) : Int :=
  let below := value.floor
  let rest := value - below
  if rest < 1 / 2 then below
  else if 1 / 2 < rest then below + 1
  else if below % 2 = 0 then below else below + 1

def constrainNumber (value minValue maxValue : Int) : Int := max (min maxValue value) minValue

def parseBatteryVoltageValue (value : Nat) (data : A1Data) : Refresh :=
  let decimalPart := value &&& 0xff
  let integerPart := (value >>> 0x8) &&& 0xff
  let voltage : ℚ := integerPart + decimalPart / 10
  let capacity := roundHalfEven
    ((voltage - minBatteryVoltage) * 100 / (maxBatteryVoltage - minBatteryVoltage))
  .ok { data with
    batteryVoltage := voltage
    batteryCapacity := constrainNumber capacity 0 100 }

def parseWheelsSpeed (value : Nat) (data : A1Data) : Refresh :=
  .ok { data with
    rightWheelSpeed := value &&& 0xFFFF
    leftWheelSpeed := (value >>> 0x10) &&& 0xFFFF }

/-- The `parsers` table; unknown sensors are skipped. -/
def parser (sensorId value : Nat) (data : A1Data) : Refresh :=
  match sensorId with
  | 0x1 => parseAndSetButtonsState value data
  | 0x2 => parseAndSetEndsState value data
  | 0x3 => parseDisValues value data
  | 0x4 => parseCliffs value data
  | 0x5 => parsePowerControllerStates value data
  | 0x6 => parseBatteryVoltageValue value data
  | 0x7 => parseWheelsSpeed value data
  | _ => .ok data

/-- One match of `(\d):(\d+);`. -/
structure Entry where
  sensorId : Nat
  digits : List Char
  deriving DecidableEq, Repr

/-- The match at the head of a text, with its length. -/
def matchEntry (py : Runtime) : List Char → Option (Entry × Nat)
  | c :: ':' :: rest =>
    match py.decimalDigit c with
    | none => none
    | some sensorId =>
      let digits := rest.takeWhile py.isDigit
      if digits ≠ [] ∧ (rest.drop digits.length).head? = some ';' then
        some (⟨sensorId.val, digits⟩, digits.length + 3)
      else none
  | _ => none

/-- `findall`: leftmost matches that do not overlap; `skip` characters still
belong to the last match. -/
def findEntries (py : Runtime) (skip : Nat) : List Char → List Entry
  | [] => []
  | c :: rest =>
    match skip with
    | skip + 1 => findEntries py skip rest
    | 0 =>
      match matchEntry py (c :: rest) with
      | some (entry, length) => entry :: findEntries py (length - 1) rest
      | none => findEntries py 0 rest

def decimalValue (py : Runtime) (digits : List Char) : Nat :=
  digits.foldl (fun value c => 10 * value + ((py.decimalDigit c).map Fin.val).getD 0) 0

/-- `int(result[1])`, with the runtime's limit on long numerals. -/
def Entry.value (py : Runtime) (entry : Entry) : Except Raised Nat :=
  if py.maxStrDigits ≠ 0 ∧ py.maxStrDigits < entry.digits.length then
    .error (.intTooLong entry.digits.length)
  else .ok (decimalValue py entry.digits)

def refreshEntry (py : Runtime) (data : A1Data) (entry : Entry) : Refresh :=
  match entry.value py with
  | .ok value => parser entry.sensorId value data
  | .error raised => .error (raised, data)

def refreshEntries (py : Runtime) (data : A1Data) : List Entry → Refresh
  | [] => .ok data
  | entry :: entries => do
    let data ← refreshEntry py data entry
    refreshEntries py data entries

def parseAndRefresh (py : Runtime) (line : List Char) (data : A1Data) : Refresh :=
  refreshEntries py data (findEntries py 0 line)

end A1Data

end VacuumCleaner.Core.Models
