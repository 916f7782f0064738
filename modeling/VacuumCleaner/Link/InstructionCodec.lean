import VacuumCleaner.A1.InstructionHandler
import VacuumCleaner.Core.Socket

/-! The instruction line between the core and A1. The two ends were written
independently: the core pads numerals, A1 reads fixed positions. -/
namespace VacuumCleaner.Link.InstructionCodec

open Lib.Hex Lib.CText A1.InstructionHandler Core.Socket

/-- The parameter texts the core writes: printable ASCII on one line. -/
def Printable (parameters : List Char) : Prop :=
  ∀ c ∈ parameters, ' ' ≤ c ∧ c ≤ '~'

instance (parameters : List Char) : Decidable (Printable parameters) :=
  List.decidableBAll (fun c => ' ' ≤ c ∧ c ≤ '~') parameters

/-- The line is read completely and A1 invokes the callback registered for
`instructionId` with the job's request id and the parameters. -/
def Delivered (communicator : SerialA1Communicator) (instructionId : Nat)
    (parameters : List Char) : Prop :=
  let (line, request, _) := communicator.sendInstruction instructionId parameters
  ∃ buffer callback requestId value,
    readFromStream line = (.ready, buffer, []) ∧
    handle buffer = .ok callback requestId value ∧
    (instructionId, callback) ∈ instructions ∧
    requestId.toNat = request.id ∧ cString value = parameters ++ ['\r', '\n']

/-- The written line without its final line feed. -/
def lineBody (instructionId idK : Nat) (parameters : List Char) : List Char :=
  '#' :: (hexPadded 2 instructionId ++ ':' :: (hexPadded 4 idK ++ ':' :: (parameters ++ ['\r'])))

theorem sendInstruction_eq (communicator : SerialA1Communicator) (instructionId : Nat)
    (parameters : List Char) :
    let idK := SerialA1Communicator.nextIdK communicator.instructionIdK
    communicator.sendInstruction instructionId parameters =
      (lineBody instructionId idK parameters ++ ['\n'], ⟨idK, instructionId, parameters⟩,
        { communicator with instructionIdK := idK }) := by
  simp [SerialA1Communicator.sendInstruction, SerialA1Communicator.generateUid,
    SerialA1Communicator.writeLine, lineBody]

theorem not_mem_of_printable {parameters : List Char} {c : Char}
    (hparameters : Printable parameters) (hc : c < ' ') : c ∉ parameters := by
  intro hmem
  exact absurd (hparameters c hmem).1 (Char.not_le.mpr hc)

theorem newline_not_mem_lineBody {instructionId idK : Nat} {parameters : List Char}
    (hparameters : Printable parameters) : '\n' ∉ lineBody instructionId idK parameters := by
  have hnumeral : ∀ width value, '\n' ∉ hexPadded width value := by
    intro width value hmem
    exact absurd (isHexDigit_of_mem_hexPadded hmem) (by decide)
  have hparams : '\n' ∉ parameters := not_mem_of_printable hparameters (by decide)
  simp [lineBody, hnumeral, hparams]

theorem readFromStream_line {instructionId idK : Nat} {parameters : List Char}
    (hparameters : Printable parameters)
    (hsize : (lineBody instructionId idK parameters).length < maxCommandSize) :
    ∃ padding, readFromStream (lineBody instructionId idK parameters ++ ['\n']) =
      (.ready, lineBody instructionId idK parameters ++ '\n' :: List.replicate padding nul, []) := by
  rw [A1.InstructionHandler.readFromStream_line (newline_not_mem_lineBody hparameters) hsize]
  refine ⟨maxCommandSize - (lineBody instructionId idK parameters ++ ['\n']).length, ?_⟩
  simp [List.rightpad]

theorem length_lineBody (instructionId idK : Nat) (parameters : List Char) :
    (lineBody instructionId idK parameters).length =
      (hexPadded 2 instructionId).length + (hexPadded 4 idK).length + parameters.length + 4 := by
  simp [lineBody]
  omega

theorem registered_lt {instructionId : Nat}
    (hregistered : instructionId ∈ instructions.map Prod.fst) :
    instructionId < 16 ^ 2 := by
  revert instructionId
  decide

theorem find_registered {instructionId : Nat}
    (hregistered : instructionId ∈ instructions.map Prod.fst) :
    ∃ instruction ∈ instructions, instructions.find? (·.1 = instructionId) = some instruction ∧
      instruction.1 = instructionId := by
  obtain ⟨entry, hentry, rfl⟩ := List.mem_map.mp hregistered
  have hsome : (instructions.find? (·.1 = entry.1)).isSome := by
    rw [List.find?_isSome]
    exact ⟨entry, hentry, by simp⟩
  obtain ⟨instruction, hfind⟩ := Option.isSome_iff_exists.mp hsome
  exact ⟨instruction, List.mem_of_find?_eq_some hfind, hfind, by simpa using List.find?_some hfind⟩

theorem cString_value {parameters : List Char} (hparameters : Printable parameters)
    (hlength : parameters.length ≤ 98) (padding : Nat) :
    cString (strncpy maxInputSize maxInputSize
      (parameters ++ '\r' :: '\n' :: List.replicate padding nul)) = parameters ++ ['\r', '\n'] := by
  have hnul : ∀ c ∈ parameters ++ ['\r', '\n'], c ≠ nul := by
    intro c hc
    rcases List.mem_append.mp hc with hc | hc
    · rintro rfl
      exact not_mem_of_printable hparameters (by decide) hc
    · have hc' : c = '\r' ∨ c = '\n' := by simpa using hc
      rcases hc' with rfl | rfl <;> decide
  have htext := cString_replicate_nul hnul padding
  rw [List.append_assoc] at htext
  rw [cString_strncpy, show '\r' :: '\n' :: List.replicate padding nul =
    ['\r', '\n'] ++ List.replicate padding nul from rfl, htext, List.take_of_length_le]
  simp [maxInputSize]
  omega

theorem handle_lineBody {instructionId idK : Nat} (parameters : List Char) (padding : Nat)
    (hregistered : instructionId ∈ instructions.map Prod.fst) (hid : idK < 16 ^ 4) :
    ∃ callback, (instructionId, callback) ∈ instructions ∧
      handle (lineBody instructionId idK parameters ++ '\n' :: List.replicate padding nul) =
        .ok callback (UInt16.ofNat idK) (strncpy maxInputSize maxInputSize
          (parameters ++ '\r' :: '\n' :: List.replicate padding nul)) := by
  obtain ⟨instruction, hmem, hfind, hcommand⟩ := find_registered hregistered
  have hcommandLength : (hexPadded 2 instructionId).length = commandSize :=
    (length_hexPadded_eq_iff (by decide)).mpr (registered_lt hregistered)
  have hidLength : (hexPadded 4 idK).length = idSize :=
    (length_hexPadded_eq_iff (by decide)).mpr hid
  have hhandle := handle_wellFormed
    (parameters ++ '\r' :: '\n' :: List.replicate padding nul) hcommandLength
    (fun _ => isHexDigit_of_mem_hexPadded) hidLength (fun _ => isHexDigit_of_mem_hexPadded)
  rw [hexValue_hexPadded, hexValue_hexPadded, hfind] at hhandle
  refine ⟨instruction.2, ?_, ?_⟩
  · rw [← hcommand]
    exact hmem
  · refine Eq.trans ?_ hhandle
    simp [lineBody, startPrefix, idDevider, parametersDevider]

theorem handle_lineBody_wrapped {instructionId : Nat} {parameters : List Char} {padding : Nat}
    (hregistered : instructionId ∈ instructions.map Prod.fst) :
    handle (lineBody instructionId 65536 parameters ++ '\n' :: List.replicate padding nul) =
      .wrongInstruction := by
  have hcommandLength : (hexPadded 2 instructionId).length = commandSize :=
    (length_hexPadded_eq_iff (by decide)).mpr (registered_lt hregistered)
  have hwrapped : hexPadded 4 65536 = ['1', '0', '0', '0'] ++ ['0'] := by decide
  have hhandle := handle_longId ['1', '0', '0', '0'] '0'
    (':' :: (parameters ++ '\r' :: '\n' :: List.replicate padding nul))
    hcommandLength rfl (by decide)
  rw [← hhandle]
  simp [lineBody, hwrapped, startPrefix, idDevider]

theorem callback_unique : ∀ instruction ∈ instructions, ∀ other ∈ instructions,
    instruction.1 = other.1 → instruction.2 = other.2 := by decide

theorem received_of_fits {communicator : SerialA1Communicator} {instructionId : Nat}
    {name : Callback} {parameters : List Char} (hname : (instructionId, name) ∈ instructions)
    (hparameters : Printable parameters) (hlength : parameters.length ≤ 96)
    (hfits : SerialA1Communicator.nextIdK communicator.instructionIdK < 16 ^ 4) :
    let idK := SerialA1Communicator.nextIdK communicator.instructionIdK
    ∃ buffer rest,
      readFromStream (communicator.sendInstruction instructionId parameters).1 =
        (.ready, buffer, []) ∧
      handle buffer = .ok name (UInt16.ofNat idK) (parameters ++ '\r' :: '\n' :: rest) := by
  intro idK
  have hregistered : instructionId ∈ instructions.map Prod.fst := List.mem_map.mpr ⟨_, hname, rfl⟩
  have hcommandLength : (hexPadded 2 instructionId).length = 2 :=
    (length_hexPadded_eq_iff (by decide)).mpr (registered_lt hregistered)
  have hidLength : (hexPadded 4 idK).length = 4 := (length_hexPadded_eq_iff (by decide)).mpr hfits
  have hsize : (lineBody instructionId idK parameters).length < maxCommandSize := by
    rw [length_lineBody, hcommandLength, hidLength]
    simp only [maxCommandSize, commandSize, idSize, maxInputSize]
    omega
  obtain ⟨padding, hread⟩ := readFromStream_line hparameters hsize
  obtain ⟨callback, hcallback, hhandle⟩ := handle_lineBody parameters padding hregistered hfits
  have hvalue := cString_value hparameters (by omega) padding
  have hsame : callback = name := callback_unique _ hcallback _ hname rfl
  generalize strncpy maxInputSize maxInputSize _ = value at hhandle hvalue
  refine ⟨lineBody instructionId idK parameters ++ '\n' :: List.replicate padding nul,
    value.dropWhile (· ≠ nul), ?_, ?_⟩
  · rw [sendInstruction_eq]
    exact hread
  · rw [hhandle, hsame]
    congr 1
    calc value = cString value ++ value.dropWhile (· ≠ nul) :=
          List.takeWhile_append_dropWhile.symm
      _ = _ := by
        rw [hvalue, List.append_assoc]
        rfl

theorem fits_of_received {communicator : SerialA1Communicator} {instructionId : Nat}
    {parameters buffer rest value : List Char} {name : Callback} {requestId : RequestId}
    (hregistered : instructionId ∈ instructions.map Prod.fst) (hparameters : Printable parameters)
    (hread : readFromStream (communicator.sendInstruction instructionId parameters).1 =
      (.ready, buffer, rest))
    (hhandle : handle buffer = .ok name requestId value) :
    SerialA1Communicator.nextIdK communicator.instructionIdK < 16 ^ 4 ∧
      parameters.length ≤ 96 := by
  rw [sendInstruction_eq] at hread
  dsimp only at hread
  have hbound : SerialA1Communicator.nextIdK communicator.instructionIdK ≤ 65536 := by
    unfold SerialA1Communicator.nextIdK
    split <;> omega
  generalize SerialA1Communicator.nextIdK communicator.instructionIdK = idK at hread hbound ⊢
  have hsize : (lineBody instructionId idK parameters).length < maxCommandSize := by
    by_contra hlong
    have herror := readFromStream_long ['\n'] (newline_not_mem_lineBody hparameters)
      (Nat.not_lt.mp hlong)
    rw [hread] at herror
    cases herror
  have hid : idK < 16 ^ 4 := by
    by_contra hlarge
    obtain rfl : idK = 65536 := by omega
    obtain ⟨padding, hread'⟩ := readFromStream_line hparameters hsize
    rw [hread'] at hread
    cases hread
    rw [handle_lineBody_wrapped hregistered] at hhandle
    cases hhandle
  refine ⟨hid, ?_⟩
  have hcommandLength : (hexPadded 2 instructionId).length = 2 :=
    (length_hexPadded_eq_iff (by decide)).mpr (registered_lt hregistered)
  have hidLength : (hexPadded 4 idK).length = 4 := (length_hexPadded_eq_iff (by decide)).mpr hid
  rw [length_lineBody, hcommandLength, hidLength] at hsize
  simp only [maxCommandSize, commandSize, idSize, maxInputSize] at hsize
  omega

theorem length_lineBody_lt {instructionId idK : Nat} {parameters : List Char}
    (hregistered : instructionId ∈ instructions.map Prod.fst)
    (hid : (hexPadded 4 idK).length ≤ 5) (hlength : parameters.length ≤ 95) :
    (lineBody instructionId idK parameters).length < maxCommandSize := by
  have hcommandLength : (hexPadded 2 instructionId).length = 2 :=
    (length_hexPadded_eq_iff (by decide)).mpr (registered_lt hregistered)
  rw [length_lineBody, hcommandLength]
  simp only [maxCommandSize, commandSize, idSize, maxInputSize]
  omega

section

variable {communicator : SerialA1Communicator} {instructionId : Nat} {parameters : List Char}
  (hregistered : instructionId ∈ instructions.map Prod.fst)
  (hparameters : Printable parameters) (hlength : parameters.length ≤ 95)

include hregistered hparameters hlength

theorem delivered_of_fits
    (hfits : SerialA1Communicator.nextIdK communicator.instructionIdK < 16 ^ 4) :
    Delivered communicator instructionId parameters := by
  have hidLength :
      (hexPadded 4 (SerialA1Communicator.nextIdK communicator.instructionIdK)).length = 4 :=
    (length_hexPadded_eq_iff (by decide)).mpr hfits
  obtain ⟨padding, hread⟩ := readFromStream_line hparameters
    (length_lineBody_lt hregistered (hidLength.trans_le (by decide)) hlength)
  obtain ⟨callback, hcallback, hhandle⟩ :=
    handle_lineBody parameters padding hregistered hfits
  unfold Delivered
  simp only [sendInstruction_eq]
  refine ⟨_, callback, _, _, hread, hhandle, hcallback, ?_, cString_value hparameters (by omega) _⟩
  simp only [UInt16.toNat_ofNat']
  omega

theorem not_delivered_of_wrapped
    (hwrapped : SerialA1Communicator.nextIdK communicator.instructionIdK = 65536) :
    ¬ Delivered communicator instructionId parameters := by
  have hidLength : (hexPadded 4 65536).length = 5 := by decide
  obtain ⟨padding, hread⟩ := readFromStream_line hparameters
    (length_lineBody_lt hregistered hidLength.le hlength)
  unfold Delivered
  simp only [sendInstruction_eq, hwrapped]
  rintro ⟨buffer, callback, requestId, value, hready, hok, -⟩
  rw [hread] at hready
  cases hready
  rw [handle_lineBody_wrapped hregistered] at hok
  cases hok

end

/-- Every call is delivered except each 65536th, whose id has five digits. -/
theorem delivered_iff (calls : List (Nat × List Char)) (instructionId : Nat)
    (parameters : List Char) (hregistered : instructionId ∈ instructions.map Prod.fst)
    (hparameters : Printable parameters) (hlength : parameters.length ≤ 95) :
    Delivered (SerialA1Communicator.sendInstructions {} calls) instructionId parameters ↔
      calls.length % 65536 ≠ 65535 := by
  have hidK := SerialA1Communicator.nextIdK_sendInstructions calls
  constructor
  · intro hdelivered hwrap
    exact not_delivered_of_wrapped hregistered hparameters hlength (by omega) hdelivered
  · intro hwrap
    exact delivered_of_fits hregistered hparameters hlength (by omega)

theorem delivered_beep_after_one_call :
    Delivered (SerialA1Communicator.sendInstructions {} [(0x01, ['S'])]) 0x05
      ['3', ';', '6', '4'] ↔ 1 % 65536 ≠ 65535 :=
  delivered_iff [(0x01, ['S'])] 0x05 ['3', ';', '6', '4'] (by decide) (by decide) (by decide)

/-- After 65535 calls a stop of the wheels is rejected by A1. -/
theorem stop_not_delivered_after_wrap :
    ¬ Delivered (SerialA1Communicator.sendInstructions {}
        (List.replicate 65535 (0x13, ['1', ';', '6', '4'])))
      0x06 ['1', ';', '0', ';', '0', ';', '1'] := by
  have hidK := SerialA1Communicator.nextIdK_sendInstructions
    (List.replicate 65535 (0x13, ['1', ';', '6', '4']))
  rw [List.length_replicate] at hidK
  exact not_delivered_of_wrapped (by decide) (by decide) (by decide) hidK

end VacuumCleaner.Link.InstructionCodec
