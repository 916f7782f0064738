import VacuumCleaner.Lib.CText

/-! The receiving side of A1's UART: one line is collected into the command
buffer and taken apart by fixed positions. -/
namespace VacuumCleaner.A1.InstructionHandler

open Lib.Hex Lib.CText

abbrev RequestId := UInt16

def startPrefix : Char := '#'
def commandSize : Nat := 2
def idDevider : Char := ':'
def parametersDevider : Char := ':'
def idSize : Nat := 4
def maxInputSize : Nat := 100
def maxCommandSize : Nat := 1 + commandSize + idSize + maxInputSize

inductive SerialReadingStatus
  | none | ready | error
  deriving DecidableEq, Repr

/-- The callbacks that `setup` registers. -/
inductive Callback
  | onHasBeenInitialized | onLedWifi | onLedErr | onLedSt | onBeep | onMove | onTurn
  | onVacuumMotor | onLeftBrushMotor | onRightBrushMotor | onGetCurrentTime | onSetDataTime
  | onGetTempAndHumid | onSetShuttingDownState | onCutOffThePower
  | onSetErrorStateInPowerController | onMainBrushMotor | onWalk | onRotate | onSetPidSettings
  | onSetBootingUpState | onBluetoothLedState | onSetTimerToTurnOff
  deriving DecidableEq, Repr

/-- The table built by the calls of `InstructionHandler::add` in `setup`. -/
def instructions : List (Nat × Callback) :=
  [(0x01, .onHasBeenInitialized), (0x02, .onLedWifi), (0x03, .onLedErr), (0x04, .onLedSt),
   (0x05, .onBeep), (0x06, .onMove), (0x07, .onTurn), (0x08, .onVacuumMotor),
   (0x09, .onLeftBrushMotor), (0x0A, .onRightBrushMotor), (0x0C, .onGetCurrentTime),
   (0x0D, .onSetDataTime), (0x0E, .onGetTempAndHumid), (0x0F, .onSetShuttingDownState),
   (0x10, .onCutOffThePower), (0x11, .onSetErrorStateInPowerController),
   (0x12, .onMainBrushMotor), (0x13, .onWalk), (0x14, .onRotate), (0x15, .onSetPidSettings),
   (0x16, .onSetBootingUpState), (0x17, .onBluetoothLedState), (0xff, .onSetTimerToTurnOff)]

/-- The loop of `_read_from_sream` over the bytes that arrive in time; when
they run out, `SERIAL_READING_TIMEOUT_MS` ends it. -/
def readLoop (collected : List Char) : List Char → SerialReadingStatus × List Char × List Char
  | [] => (.error, collected, [])
  | symbol :: stream =>
    let collected := collected ++ [symbol]
    if symbol = '\n' then (.ready, collected, stream)
    else if maxCommandSize ≤ collected.length then (.error, collected, stream)
    else readLoop collected stream

/-- Status, contents of the zeroed command buffer, and the bytes left. -/
def readFromStream (stream : List Char) : SerialReadingStatus × List Char × List Char :=
  if stream = [] then (.none, [], [])
  else
    let (status, collected, rest) := readLoop [] stream
    (status, collected.rightpad maxCommandSize nul, rest)

def charAt (input : List Char) (index : Nat) : Char := input.getD index nul

def fetchCommand (input : List Char) : Nat :=
  let commandArray := strncpy (commandSize + 1) commandSize (input.drop 1)
  ((strtolHex (cString commandArray)).1 % 2 ^ 8).toNat

def fetchRequestId (input : List Char) : RequestId :=
  let requestIdArray := strncpy (idSize + 1) idSize (input.drop (1 + commandSize + 1))
  UInt16.ofNat ((strtolHex (cString requestIdArray)).1 % 2 ^ 16).toNat

/-- What `_handle` does with a line: the status it returns, and for `OK` the
callback it invoked with its arguments. -/
inductive InstructionStatus
  | ok (callback : Callback) (requestId : RequestId) (value : List Char)
  | undefinedCommand
  | wrongInstruction
  deriving DecidableEq, Repr

def handle (input : List Char) : InstructionStatus :=
  if charAt input 0 ≠ startPrefix ∨ charAt input (commandSize + 1) ≠ idDevider ∨
      charAt input (commandSize + 1 + idSize + 1) ≠ parametersDevider then .wrongInstruction
  else
    let command := fetchCommand input
    let requestId := fetchRequestId input
    let value := strncpy maxInputSize maxInputSize (input.drop (1 + commandSize + 1 + idSize + 1))
    match instructions.find? (·.1 = command) with
    | some instruction => .ok instruction.2 requestId value
    | none => .undefinedCommand

theorem readLoop_line {collected line rest : List Char} (hline : '\n' ∉ line)
    (hsize : collected.length + line.length < maxCommandSize) :
    readLoop collected (line ++ '\n' :: rest) = (.ready, collected ++ line ++ ['\n'], rest) := by
  induction line generalizing collected with
  | nil => simp [readLoop]
  | cons symbol line ih =>
    have hsymbol : symbol ≠ '\n' := fun h => hline (by simp [h])
    simp only [List.length_cons] at hsize
    have hshort : ¬ maxCommandSize ≤ (collected ++ [symbol]).length := by simp; omega
    simp only [List.cons_append, readLoop, hsymbol, hshort, if_false]
    rw [ih (fun h => hline (by simp [h])) (by simp; omega)]
    simp

theorem readFromStream_line {line rest : List Char} (hline : '\n' ∉ line)
    (hsize : line.length < maxCommandSize) :
    readFromStream (line ++ '\n' :: rest) =
      (.ready, (line ++ ['\n']).rightpad maxCommandSize nul, rest) := by
  unfold readFromStream
  rw [if_neg (by simp), readLoop_line hline (by simpa using hsize)]
  simp

theorem readLoop_long {collected line : List Char} (rest : List Char) (hline : '\n' ∉ line)
    (hcollected : collected.length < maxCommandSize)
    (hsize : maxCommandSize ≤ collected.length + line.length) :
    (readLoop collected (line ++ rest)).1 = .error := by
  induction line generalizing collected with
  | nil =>
    rw [List.length_nil] at hsize
    omega
  | cons symbol line ih =>
    have hsymbol : symbol ≠ '\n' := fun h => hline (by simp [h])
    rw [List.length_cons] at hsize
    rw [List.cons_append, readLoop, if_neg hsymbol]
    split
    · rfl
    · rename_i hshort
      apply ih (fun h => hline (by simp [h])) (Nat.not_le.mp hshort)
      rw [List.length_append, List.length_singleton]
      omega

theorem readFromStream_long {line : List Char} (rest : List Char) (hline : '\n' ∉ line)
    (hsize : maxCommandSize ≤ line.length) : (readFromStream (line ++ rest)).1 = .error := by
  have hne : line ++ rest ≠ [] := by
    intro hempty
    rw [(List.append_eq_nil_iff.mp hempty).1] at hsize
    exact absurd hsize (by decide)
  have hread := readLoop_long rest hline (show [].length < maxCommandSize by decide)
    (by simpa using hsize)
  rw [readFromStream, if_neg hne]
  exact hread

theorem strtolHex_strncpy_digits {digits : List Char} (rest : List Char) (hne : digits ≠ [])
    (hshort : digits.length ≤ 7) (hdigits : ∀ c ∈ digits, isHexDigit c = true) :
    (strtolHex (cString (strncpy (digits.length + 1) digits.length (digits ++ rest)))).1 =
      hexValue digits := by
  have hnul : ∀ c ∈ digits, c ≠ nul := by
    rintro c hc rfl
    exact absurd (hdigits nul hc) (by decide)
  have hread := strtolHex_digits [] hne hdigits (by simp)
  have hbound : hexValue digits < 2 ^ 31 :=
    calc hexValue digits < 16 ^ digits.length := hexValue_lt digits
      _ ≤ 16 ^ 7 := Nat.pow_le_pow_right (by decide) hshort
      _ < 2 ^ 31 := by decide
  rw [List.append_nil] at hread
  rw [cString_strncpy_append _ rest hnul, hread, clampLong_of_lt hbound]

theorem fetchCommand_digits {digits : List Char} (rest : List Char)
    (hlength : digits.length = commandSize)
    (hdigits : ∀ c ∈ digits, isHexDigit c = true) (first : Char) :
    fetchCommand (first :: (digits ++ rest)) = hexValue digits := by
  have hne : digits ≠ [] := by
    rintro rfl
    simp [commandSize] at hlength
  have hread := strtolHex_strncpy_digits rest hne (by rw [hlength]; decide) hdigits
  have hbound : hexValue digits < 2 ^ 8 := by
    have hlt := hexValue_lt digits
    rw [hlength] at hlt
    exact hlt
  unfold fetchCommand
  rw [hlength] at hread
  simp only [List.drop_succ_cons, List.drop_zero, hread]
  omega

theorem fetchRequestId_digits {digits header : List Char} (rest : List Char)
    (hheader : header.length = 4) (hlength : digits.length = idSize)
    (hdigits : ∀ c ∈ digits, isHexDigit c = true) :
    fetchRequestId (header ++ (digits ++ rest)) = UInt16.ofNat (hexValue digits) := by
  have hne : digits ≠ [] := by
    rintro rfl
    simp [idSize] at hlength
  have hread := strtolHex_strncpy_digits rest hne (by rw [hlength]; decide) hdigits
  have hbound : hexValue digits < 2 ^ 16 := by
    have hlt := hexValue_lt digits
    rw [hlength] at hlt
    exact hlt
  have hdrop : (header ++ (digits ++ rest)).drop (1 + commandSize + 1) = digits ++ rest := by
    rw [List.drop_append_of_le_length (by simp [hheader, commandSize]),
      List.drop_eq_nil_of_le (by simp [hheader, commandSize])]
    simp
  unfold fetchRequestId
  rw [hlength] at hread
  simp only [hdrop, hread]
  congr 1
  omega

theorem handle_wellFormed {command id : List Char} (rest : List Char)
    (hcommand : command.length = commandSize)
    (hcommandDigits : ∀ c ∈ command, isHexDigit c = true) (hid : id.length = idSize)
    (hidDigits : ∀ c ∈ id, isHexDigit c = true) :
    handle (startPrefix :: (command ++ idDevider :: (id ++ parametersDevider :: rest))) =
      match instructions.find? (·.1 = hexValue command) with
      | some instruction =>
        .ok instruction.2 (UInt16.ofNat (hexValue id)) (strncpy maxInputSize maxInputSize rest)
      | none => .undefinedCommand := by
  have hfetch := fetchCommand_digits (idDevider :: (id ++ parametersDevider :: rest))
    hcommand hcommandDigits startPrefix
  have hheader : (startPrefix :: (command ++ [idDevider])).length = 4 := by
    simp [hcommand, commandSize]
  have hfetchId := fetchRequestId_digits (parametersDevider :: rest) hheader hid hidDigits
  simp only [List.cons_append, List.append_assoc, List.nil_append] at hfetchId
  match command, hcommand with
  | [c₁, c₂], _ =>
    match id, hid with
    | [i₁, i₂, i₃, i₄], _ =>
      unfold handle
      rw [hfetch, hfetchId]
      simp [charAt, commandSize, idSize, startPrefix, idDevider, parametersDevider]

theorem handle_longId {command : List Char} (id : List Char) (extra : Char) (rest : List Char)
    (hcommand : command.length = commandSize) (hid : id.length = idSize)
    (hextra : extra ≠ parametersDevider) :
    handle (startPrefix :: (command ++ idDevider :: (id ++ extra :: rest))) =
      .wrongInstruction := by
  match command, hcommand with
  | [c₁, c₂], _ =>
    match id, hid with
    | [i₁, i₂, i₃, i₄], _ =>
      unfold handle
      rw [if_pos]
      right; right
      simpa [charAt, commandSize, idSize] using hextra

end VacuumCleaner.A1.InstructionHandler
