import VacuumCleaner.Core.Models

/-! `SerialA1Communicator`: writing instruction lines and receiving lines. -/
namespace VacuumCleaner.Core.Socket

open Lib.Hex Models

structure SerialA1Communicator where
  data : A1Data := {}
  responses : List Response := []
  instructionIdK : Nat := 0
  deriving DecidableEq, Repr

namespace SerialA1Communicator

/-- The counter after the next call of `_generate_uid`. -/
def nextIdK (instructionIdK : Nat) : Nat :=
  (if instructionIdK > 0xFFFF then 0 else instructionIdK) + 1

def generateUid (communicator : SerialA1Communicator) : List Char × SerialA1Communicator :=
  let instructionIdK := nextIdK communicator.instructionIdK
  (hexPadded 4 instructionIdK, { communicator with instructionIdK })

/-- `LineReader.write_line` appends the terminator. -/
def writeLine (text : List Char) : List Char := text ++ ['\r', '\n']

/-- The bytes written, the `Request` of the returned job, and the new state. -/
def sendInstruction (communicator : SerialA1Communicator) (instructionId : Nat)
    (parameters : List Char) : List Char × Request × SerialA1Communicator :=
  let instructionText := hexPadded 2 instructionId
  let (requestId, communicator) := communicator.generateUid
  let line := '#' :: (instructionText ++ ':' :: (requestId ++ ':' :: parameters))
  (writeLine line, ⟨hexValue requestId, hexValue instructionText, parameters⟩, communicator)

/-- The state after a series of earlier calls. -/
def sendInstructions (communicator : SerialA1Communicator) :
    List (Nat × List Char) → SerialA1Communicator
  | [] => communicator
  | (instructionId, parameters) :: calls =>
    (communicator.sendInstruction instructionId parameters).2.2.sendInstructions calls

abbrev Outcome := Except (Raised × SerialA1Communicator) SerialA1Communicator

def handleRequestResponse (py : Runtime) (now : Int) (line : List Char)
    (communicator : SerialA1Communicator) : Outcome :=
  match Response.parse py now line with
  | .ok response => .ok { communicator with responses := communicator.responses ++ [response] }
  | .error raised => .error (raised, communicator)

def handleLine (py : Runtime) (now : Int) (line : List Char)
    (communicator : SerialA1Communicator) : Outcome :=
  match line with
  | [] => .error (.indexError, communicator)
  | initialByte :: _ =>
    if initialByte = '@' then
      match A1Data.parseAndRefresh py line communicator.data with
      | .ok data => .ok { communicator with data }
      | .error (raised, data) => .error (raised, { communicator with data })
    else if initialByte = '$' then handleRequestResponse py now line communicator
    else .ok communicator

@[simp] theorem sendInstruction_instructionIdK (communicator : SerialA1Communicator)
    (instructionId : Nat) (parameters : List Char) :
    (communicator.sendInstruction instructionId parameters).2.2.instructionIdK =
      nextIdK communicator.instructionIdK := rfl

@[simp] theorem sendInstruction_id (communicator : SerialA1Communicator)
    (instructionId : Nat) (parameters : List Char) :
    (communicator.sendInstruction instructionId parameters).2.1.id =
      nextIdK communicator.instructionIdK := by
  simp [sendInstruction, generateUid]

/-- The id given to the call that follows `calls`: a counter modulo 2^16 that
runs from 1 to 2^16. -/
theorem nextIdK_sendInstructions (calls : List (Nat × List Char)) :
    nextIdK (sendInstructions {} calls).instructionIdK = calls.length % 2 ^ 16 + 1 := by
  have hcount : ∀ (communicator : SerialA1Communicator) (start : Nat),
      nextIdK communicator.instructionIdK = start % 2 ^ 16 + 1 →
      nextIdK (communicator.sendInstructions calls).instructionIdK =
        (start + calls.length) % 2 ^ 16 + 1 := by
    induction calls with
    | nil => exact fun _ _ h => h
    | cons call calls ih =>
      intro communicator start hstart
      have hnext := ih (communicator.sendInstruction call.1 call.2).2.2 (start + 1) (by
        rw [sendInstruction_instructionIdK, hstart]
        unfold nextIdK
        split <;> omega)
      rw [sendInstructions, hnext, List.length_cons]
      congr 2
      omega
  simpa using hcount {} 0 rfl

end SerialA1Communicator
end VacuumCleaner.Core.Socket
