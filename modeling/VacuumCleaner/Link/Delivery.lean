import VacuumCleaner.A1.ServedLines
import VacuumCleaner.Link.InstructionCodec

/-! The instructions of the core on their way through the port of A1. What the
core has asked for is what the callbacks of A1 are called with. -/
namespace VacuumCleaner.Link.Delivery

open Lib.Hex Lib.CText Lib.Lines A1.InstructionHandler A1.LineReader A1.ServedLines Core.Models
  Core.Socket InstructionCodec

/-- A call of `send_instruction`: the instruction and its parameters. -/
abbrev Call := Nat × List Char

/-- The bytes that a series of calls writes. -/
def written (communicator : SerialA1Communicator) : List Call → List Char
  | [] => []
  | (instructionId, parameters) :: calls =>
    let (line, _, next) := communicator.sendInstruction instructionId parameters
    line ++ written next calls

/-- The requests of the jobs that the calls return. -/
def requests (communicator : SerialA1Communicator) : List Call → List Request
  | [] => []
  | (instructionId, parameters) :: calls =>
    let (_, request, next) := communicator.sendInstruction instructionId parameters
    request :: requests next calls

/-- A callback of A1 with its request id and the text that it is given. -/
structure Invocation where
  callback : Callback
  requestId : RequestId
  value : List Char
  deriving DecidableEq, Repr

/-- What `_handle` calls for a buffer, with the memory behind it. -/
def invokedBy (beyond buffer : List Char) : Option Invocation :=
  match handle (buffer ++ beyond) with
  | .ok callback requestId value => some ⟨callback, requestId, cString value⟩
  | _ => none

def callbackOf (instructionId : Nat) : Option Callback :=
  (instructions.find? (·.1 = instructionId)).map Prod.snd

/-- What a request stands for. Its id has five digits once in 65536 calls, and
then its line is no instruction to A1. -/
def asked (request : Request) : Option Invocation :=
  if request.id < 16 ^ 4 then
    (callbackOf request.instructionId).map fun callback =>
      ⟨callback, UInt16.ofNat request.id, request.parameters ++ ['\r', '\n']⟩
  else none

def refusal (request : Request) : List (List Char) :=
  if request.id < 16 ^ 4 then
    if (callbackOf request.instructionId).isSome then [] else ["UC".toList]
  else ["WI".toList]

/-- The instruction is one byte, and the text is printable and of a length that
the buffer of A1 holds with any id. -/
structure Sendable (call : Call) : Prop where
  instruction : call.1 < 16 ^ 2
  printable : Printable call.2
  fits : call.2.length ≤ 95

/-- The line of a request, without its line feed. -/
def bodyOf (request : Request) : List Char :=
  lineBody request.instructionId request.id request.parameters

structure Numbered (request : Request) : Prop where
  sendable : Sendable (request.instructionId, request.parameters)
  id : request.id ≤ 16 ^ 4

theorem written_eq (communicator : SerialA1Communicator) (calls : List Call) :
    written communicator calls = joined ['\n'] ((requests communicator calls).map bodyOf) := by
  induction calls generalizing communicator with
  | nil => rfl
  | cons call calls ih =>
    obtain ⟨instructionId, parameters⟩ := call
    rw [written, requests, sendInstruction_eq]
    dsimp only
    rw [ih, List.map_cons, joined_cons]
    rfl

theorem nextIdK_le (instructionIdK : Nat) :
    SerialA1Communicator.nextIdK instructionIdK ≤ 16 ^ 4 := by
  unfold SerialA1Communicator.nextIdK
  split <;> omega

theorem numbered_requests (communicator : SerialA1Communicator) {calls : List Call}
    (hcalls : ∀ call ∈ calls, Sendable call) :
    ∀ request ∈ requests communicator calls, Numbered request := by
  induction calls generalizing communicator with
  | nil => simp [requests]
  | cons call calls ih =>
    obtain ⟨instructionId, parameters⟩ := call
    rw [requests, sendInstruction_eq]
    dsimp only
    rw [List.forall_mem_cons]
    exact ⟨⟨hcalls _ (.head _), nextIdK_le _⟩, ih _ fun call hcall => hcalls call (.tail _ hcall)⟩

theorem requests_take (communicator : SerialA1Communicator) (calls : List Call) (count : Nat) :
    (requests communicator calls).take count = requests communicator (calls.take count) := by
  induction calls generalizing communicator count with
  | nil => simp [requests]
  | cons call calls ih =>
    obtain ⟨instructionId, parameters⟩ := call
    cases count with
    | zero => simp [requests]
    | succ count =>
      rw [requests, sendInstruction_eq]
      dsimp only
      rw [List.take_succ_cons, List.take_succ_cons, requests, sendInstruction_eq, ih]

section

variable {request : Request} (beyond : List Char)

theorem Numbered.commandBuffer_append (hnumbered : Numbered request) (hid : request.id < 16 ^ 4) :
    ∃ rest, commandBuffer (bodyOf request) ++ beyond = bodyOf request ++ '\n' :: nul :: rest := by
  obtain ⟨⟨hinstruction, -, hfits⟩, -⟩ := hnumbered
  have hcommandLength : (hexPadded 2 request.instructionId).length = 2 :=
    (length_hexPadded_eq_iff (by decide)).mpr hinstruction
  have hidLength : (hexPadded 4 request.id).length = 4 :=
    (length_hexPadded_eq_iff (by decide)).mpr hid
  have hroom : ∃ padding, maxCommandSize - (bodyOf request ++ ['\n']).length = padding + 1 := by
    apply Nat.exists_eq_add_one.mpr
    rw [List.length_append, bodyOf, length_lineBody, hcommandLength, hidLength]
    simp only [maxCommandSize, commandSize, idSize, maxInputSize, List.length_singleton]
    dsimp only at hfits
    omega
  obtain ⟨padding, hpadding⟩ := hroom
  refine ⟨List.replicate padding nul ++ beyond, ?_⟩
  rw [commandBuffer, List.rightpad, hpadding, List.replicate_succ]
  simp

theorem handle_bodyOf (hnumbered : Numbered request) (hid : request.id < 16 ^ 4)
    (rest : List Char) :
    handle (bodyOf request ++ rest) =
      match instructions.find? (·.1 = request.instructionId) with
      | some instruction => .ok instruction.2 (UInt16.ofNat request.id)
          (strncpy maxInputSize maxInputSize (request.parameters ++ '\r' :: rest))
      | none => .undefinedCommand := by
  have hcommandLength : (hexPadded 2 request.instructionId).length = commandSize :=
    (length_hexPadded_eq_iff (by decide)).mpr hnumbered.sendable.instruction
  have hidLength : (hexPadded 4 request.id).length = idSize :=
    (length_hexPadded_eq_iff (by decide)).mpr hid
  have hhandle := handle_wellFormed (request.parameters ++ '\r' :: rest) hcommandLength
    (fun _ => isHexDigit_of_mem_hexPadded) hidLength (fun _ => isHexDigit_of_mem_hexPadded)
  rw [hexValue_hexPadded, hexValue_hexPadded] at hhandle
  refine Eq.trans ?_ hhandle
  simp [bodyOf, lineBody, startPrefix, idDevider, parametersDevider]

theorem handle_bodyOf_wrapped (hnumbered : Numbered request) (hid : ¬ request.id < 16 ^ 4)
    (rest : List Char) : handle (bodyOf request ++ rest) = .wrongInstruction := by
  have hwrap : request.id = 65536 := Nat.le_antisymm hnumbered.id (Nat.not_lt.mp hid)
  have hcommandLength : (hexPadded 2 request.instructionId).length = commandSize :=
    (length_hexPadded_eq_iff (by decide)).mpr hnumbered.sendable.instruction
  have hwrapped : hexPadded 4 65536 = ['1', '0', '0', '0'] ++ ['0'] := by decide
  have hhandle := handle_longId ['1', '0', '0', '0'] '0'
    (':' :: (request.parameters ++ '\r' :: rest)) hcommandLength rfl (by decide)
  rw [← hhandle]
  simp [bodyOf, lineBody, hwrap, hwrapped, startPrefix, idDevider]

theorem handle_commandBuffer_wrapped (hnumbered : Numbered request) (hid : ¬ request.id < 16 ^ 4) :
    handle (commandBuffer (bodyOf request) ++ beyond) = .wrongInstruction := by
  rw [commandBuffer, List.rightpad, List.append_assoc, List.append_assoc]
  exact handle_bodyOf_wrapped hnumbered hid _

theorem cString_strncpy_printable {parameters : List Char} (hparameters : Printable parameters)
    (hlength : parameters.length ≤ 95) (rest : List Char) :
    cString (strncpy maxInputSize maxInputSize (parameters ++ '\r' :: '\n' :: nul :: rest)) =
      parameters ++ ['\r', '\n'] := by
  have hnul : ∀ c ∈ parameters ++ ['\r', '\n'], c ≠ nul := by
    intro c hc
    rcases List.mem_append.mp hc with hc | hc
    · rintro rfl
      exact not_mem_of_printable hparameters (by decide) hc
    · have hc' : c = '\r' ∨ c = '\n' := by simpa using hc
      rcases hc' with rfl | rfl <;> decide
  have htext : cString ((parameters ++ ['\r', '\n']) ++ nul :: rest) = parameters ++ ['\r', '\n'] :=
    cString_append_nul hnul (.inr rfl)
  rw [List.append_assoc] at htext
  rw [cString_strncpy]
  refine (congrArg (List.take maxInputSize) htext).trans (List.take_of_length_le ?_)
  simp only [List.length_append, List.length_cons, List.length_nil, maxInputSize]
  omega

theorem commandBuffer_bodyOf (hnumbered : Numbered request) :
    invokedBy beyond (commandBuffer (bodyOf request)) = asked request ∧
      replyTo beyond (commandBuffer (bodyOf request)) = refusal request := by
  unfold invokedBy replyTo asked refusal
  by_cases hid : request.id < 16 ^ 4
  · obtain ⟨rest, hbuffer⟩ := hnumbered.commandBuffer_append beyond hid
    have hvalue := cString_strncpy_printable hnumbered.sendable.printable
      hnumbered.sendable.fits rest
    rw [hbuffer, handle_bodyOf hnumbered hid, if_pos hid, if_pos hid, callbackOf]
    cases instructions.find? (·.1 = request.instructionId) with
    | none => exact ⟨rfl, rfl⟩
    | some instruction => exact ⟨congrArg
      (fun value => some (Invocation.mk instruction.2 (UInt16.ofNat request.id) value)) hvalue, rfl⟩
  · rw [handle_commandBuffer_wrapped beyond hnumbered hid, if_neg hid, if_neg hid]
    exact ⟨rfl, rfl⟩

end

theorem endsFirst_bodyOf {request : Request} (hnumbered : Numbered request) :
    EndsFirst ['\n'] (bodyOf request) :=
  endsFirst_of_not_mem (newline_not_mem_lineBody hnumbered.sendable.printable)

/-- The callbacks that A1 has called so far. -/
def invoked (beyond : List Char) (reader : Reader) : List Invocation :=
  reader.handed.filterMap fun handed => invokedBy beyond handed.buffer

/-- At every moment at which the port has kept up, A1 has called the callbacks
of the instructions that have come in completely: each once, in the order of
the calls, with its own id and text. -/
theorem delivers (beyond : List Char) (communicator : SerialA1Communicator) (calls : List Call)
    (polls : List Poll) (hcalls : ∀ call ∈ calls, Sendable call)
    (hpolls : bytes polls <+: written communicator calls) (hlines : LinesInTime polls)
    (htime : InTime (currentLine polls)) :
    let complete := requests communicator (calls.take ((bytes polls).count '\n'))
    let reader := Reader.run beyond polls
    invoked beyond reader = complete.filterMap asked ∧ reader.rejected = [] ∧
      reader.sent = complete.flatMap refusal := by
  intro complete reader
  obtain ⟨lines, hcut, hhanded, hrejected, hsent⟩ := exists_serving beyond hlines htime
  have hnumbered := numbered_requests communicator hcalls
  have hwhole : Cut ['\n'] (written communicator calls)
      ((requests communicator calls).map bodyOf) [] := by
    rw [written_eq]
    refine cut_joined (by simp) fun line hline => ?_
    obtain ⟨request, hrequest, rfl⟩ := List.mem_map.mp hline
    exact endsFirst_bodyOf (hnumbered request hrequest)
  have hcomplete : lines = complete.map bodyOf := by
    have hpre := hcut.lines_prefix (by simp) hpolls hwhole
    have hcount : (bytes polls).count '\n' = lines.length := by
      rw [written_eq] at hpolls
      refine Cut.count [] hcut hpolls List.not_mem_nil fun line hline => ?_
      obtain ⟨request, hrequest, rfl⟩ := List.mem_map.mp hline
      exact ⟨endsFirst_bodyOf (hnumbered request hrequest),
        newline_not_mem_lineBody (hnumbered request hrequest).sendable.printable⟩
    rw [List.prefix_iff_eq_take.mp hpre, ← hcount, ← List.map_take, requests_take]
  have hspec : ∀ request ∈ complete,
      invokedBy beyond (commandBuffer (bodyOf request)) = asked request ∧
        replyTo beyond (commandBuffer (bodyOf request)) = refusal request := by
    intro request hrequest
    apply commandBuffer_bodyOf
    apply numbered_requests communicator (fun call hcall => hcalls call (List.mem_of_mem_take hcall))
    exact hrequest
  rw [hcomplete] at hhanded hsent
  refine ⟨?_, hrejected, ?_⟩
  · have hbuffers : invoked beyond reader =
        (reader.handed.map Handed.buffer).filterMap (invokedBy beyond) := by
      rw [List.filterMap_map]
      rfl
    rw [hbuffers, hhanded, List.map_map, List.filterMap_map]
    exact List.filterMap_congr fun request hrequest => (hspec request hrequest).1
  · rw [hsent, List.flatMap_map]
    exact List.flatMap_congr fun request hrequest => (hspec request hrequest).2

/-- Few bytes that come all at once. -/
def instant (text : List Char) : List Poll := text.map fun symbol => { symbol := some symbol }

theorem inTime_of_sublist_instant {text : List Char} {line : List Poll}
    (hline : line.Sublist (instant text)) (hlength : text.length < maxCommandSize) :
    InTime line := by
  have htimes : ∀ poll ∈ line, poll.startTime = 0 ∧ poll.now = 0 := by
    intro poll hpoll
    obtain ⟨symbol, -, rfl⟩ := List.mem_map.mp (hline.subset hpoll)
    exact ⟨rfl, rfl⟩
  intro first hfirst
  have hmem := (List.dropWhile_sublist _).subset (List.mem_of_head? hfirst)
  refine ⟨?_, fun poll hpoll => ?_⟩
  · have hbytes : (bytes line).length ≤ (instant text).length :=
      (List.length_filterMap_le _ line).trans hline.length_le
    rw [instant, List.length_map] at hbytes
    exact Nat.lt_of_le_of_lt hbytes hlength
  · rw [(htimes first hmem).1, (htimes poll ((List.dropWhile_sublist _).subset hpoll)).2]
    decide

theorem linesInTime_instant {text : List Char} (hlength : text.length < maxCommandSize) :
    LinesInTime (instant text) := by
  intro before poll after hsplit _
  apply inTime_of_sublist_instant _ hlength
  rw [hsplit]
  exact ((List.rtakeWhile_suffix _ before).sublist).trans (List.sublist_append_left _ _)

/-- A beep, an instruction that A1 does not know, and the first bytes of a third. -/
theorem delivers_beep :
    let calls : List Call := [(0x05, "3;64".toList), (0x7F, "1".toList), (0x05, "1;1".toList)]
    let text := "#05:0001:3;64\r\n#7f:0002:1\r\n#05:00".toList
    let complete := requests {} (calls.take ((bytes (instant text)).count '\n'))
    let reader := Reader.run [] (instant text)
    invoked [] reader = complete.filterMap asked ∧ reader.rejected = [] ∧
      reader.sent = complete.flatMap refusal :=
  delivers [] {} [(0x05, "3;64".toList), (0x7F, "1".toList), (0x05, "1;1".toList)]
    (instant "#05:0001:3;64\r\n#7f:0002:1\r\n#05:00".toList)
    (by
      simp only [List.forall_mem_cons, List.not_mem_nil, false_implies, implies_true, and_true]
      exact ⟨⟨by decide, by decide, by decide⟩, ⟨by decide, by decide, by decide⟩,
        ⟨by decide, by decide, by decide⟩⟩)
    (by decide +kernel) (linesInTime_instant (by decide))
    (inTime_of_sublist_instant (List.rtakeWhile_suffix _ _).sublist (by decide))

end VacuumCleaner.Link.Delivery
