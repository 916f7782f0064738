import VacuumCleaner.A1.Wheels
import VacuumCleaner.Lib.CText

/-! The lines that A1 answers with: `printf` formats over buffers of fixed
size, sent character by character up to the NUL. -/
namespace VacuumCleaner.A1.Replies

open Lib.Hex Lib.CText InstructionHandler

def responseBufferSize : Nat := 18
def responseResultBufferSize : Nat := 30

/-- A text fits a buffer that also holds its terminator. -/
def Fits (size : Nat) (text : List Char) : Prop := text.length < size

instance (size : Nat) (text : List Char) : Decidable (Fits size text) :=
  inferInstanceAs (Decidable (text.length < size))

/-- `sprintf` knows no size: nothing is defined once the text overruns the
buffer. -/
def sprintf (size : Nat) (text : List Char) : Option (List Char) :=
  if Fits size text then some text else none

/-- `snprintf` cuts the text. -/
def snprintf (size : Nat) (text : List Char) : List Char := text.take (size - 1)

def lineEnd : List Char := ['\r', '\n']

/-- `_send`. -/
def send (message : List Char) : List Char := cString message ++ lineEnd

/-- `$S:%04X`. -/
def finishedText (requestId : RequestId) : List Char :=
  '$' :: 'S' :: ':' :: hexUpperPadded 4 requestId.toNat

/-- `$F:%X:%X`. -/
def failedText (requestId : RequestId) (errorCode : UInt8) : List Char :=
  '$' :: 'F' :: ':' :: (hexUpper requestId.toNat ++ ':' :: hexUpper errorCode.toNat)

/-- `$R:%04X:%s`. -/
def resultText (requestId : RequestId) (result : List Char) : List Char :=
  '$' :: 'R' :: ':' :: (hexUpperPadded 4 requestId.toNat ++ ':' :: cString result)

def onFinished (requestId : RequestId) : Option (List Char) :=
  (sprintf responseBufferSize (finishedText requestId)).map send

def onResult (requestId : RequestId) (result : List Char) : Option (List Char) :=
  (sprintf responseResultBufferSize (resultText requestId result)).map send

def onFailed (requestId : RequestId) (errorCode : UInt8) : List Char :=
  send (snprintf responseBufferSize (failedText requestId errorCode))

/-- What a reply of the model puts on the line. -/
def line : Reply → Option (List Char)
  | .finished requestId => onFinished requestId
  | .failed requestId errorCode => some (onFailed requestId (UInt8.ofNat errorCode))
  | .result requestId result => onResult requestId result

theorem length_requestId (requestId : RequestId) :
    (hexUpperPadded 4 requestId.toNat).length = 4 := by
  unfold hexUpperPadded
  rw [List.length_map, length_hexPadded_eq_iff (by decide)]
  exact requestId.toNat_lt

theorem fits_finishedText (requestId : RequestId) :
    Fits responseBufferSize (finishedText requestId) := by
  simp [Fits, finishedText, length_requestId, responseBufferSize]

theorem fits_failedText (requestId : RequestId) (errorCode : UInt8) :
    Fits responseBufferSize (failedText requestId errorCode) := by
  have hid : (hexText requestId.toNat).length ≤ 4 :=
    length_hexText_le (by decide) requestId.toNat_lt
  have hcode : (hexText errorCode.toNat).length ≤ 2 :=
    length_hexText_le (by decide) errorCode.toNat_lt
  simp only [Fits, failedText, hexUpper, List.length_cons, List.length_append, List.length_map,
    responseBufferSize]
  omega

theorem fits_resultText_iff (requestId : RequestId) (result : List Char) :
    Fits responseResultBufferSize (resultText requestId result) ↔ (cString result).length ≤ 21 := by
  simp only [Fits, resultText, List.length_cons, List.length_append, length_requestId,
    responseResultBufferSize]
  omega

theorem send_of_no_nul {message : List Char} (hmessage : ∀ c ∈ message, c ≠ nul) :
    send message = message ++ lineEnd := by
  rw [send, cString_of_no_nul hmessage]

theorem snprintf_of_fits {size : Nat} {text : List Char} (hfits : Fits size text) :
    snprintf size text = text := by
  have hlength : text.length ≤ size - 1 := Nat.le_sub_one_of_lt hfits
  exact List.take_of_length_le hlength

end VacuumCleaner.A1.Replies
