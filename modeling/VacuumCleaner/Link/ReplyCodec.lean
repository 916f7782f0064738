import VacuumCleaner.A1.Replies
import VacuumCleaner.Core.Models

/-! The replies of A1 as the core's pattern reads them. The printers pad the id
or leave it bare; the pattern takes one to four digits. -/
namespace VacuumCleaner.Link.ReplyCodec

open Lib.Hex Lib.CText A1 A1.InstructionHandler A1.Replies Core.Models

theorem replyDigit_ascii (py : Runtime) {c : Char} (hc : c.toNat < 128) :
    replyDigit py c = replyDigit asciiRuntime c := by
  unfold replyDigit
  rw [py.ascii_digit c hc, asciiRuntime.ascii_digit c hc]

theorem replyDigit_digitChar (py : Runtime) {digit : Nat} (hdigit : digit < 16) :
    replyDigit py digit.digitChar.toUpper = some digit := by
  have hdigits : ∀ digit < 16, digit.digitChar.toUpper.toNat < 128 ∧
      replyDigit asciiRuntime digit.digitChar.toUpper = some digit := by decide
  obtain ⟨hascii, hvalue⟩ := hdigits digit hdigit
  rw [replyDigit_ascii py hascii, hvalue]

theorem isReplyDigit_toUpper (py : Runtime) {c : Char} (hc : ∃ digit < 16, c = digit.digitChar) :
    isReplyDigit py c.toUpper = true := by
  obtain ⟨digit, hdigit, rfl⟩ := hc
  rw [isReplyDigit, replyDigit_digitChar py hdigit]
  rfl

theorem foldl_replyDigit (py : Runtime) {digits : List Char}
    (hdigits : ∀ c ∈ digits, ∃ digit < 16, c = digit.digitChar) :
    (digits.map Char.toUpper).foldl (fun value c => 16 * value + (replyDigit py c).getD 0) 0 =
      hexValue digits := by
  rw [List.foldl_map]
  apply List.foldl_ext
  intro value c hc
  obtain ⟨digit, hdigit, rfl⟩ := hdigits c hc
  rw [replyDigit_digitChar py hdigit, hexDigit_digitChar digit hdigit]

/-- The line is one line of the stream. -/
def SingleLine (text : List Char) : Prop := ∀ c ∈ text, c ≠ nul ∧ c ≠ '\r' ∧ c ≠ '\n'

instance (text : List Char) : Decidable (SingleLine text) := List.decidableBAll _ text

theorem replyTail_of_no_newline {text : List Char} (htext : '\n' ∉ text) :
    replyTail (':' :: text) = some text := by
  rw [replyTail, List.takeWhile_eq_self_iff.mpr]
  intro c hc
  simpa using ne_of_mem_of_not_mem hc htext

theorem SingleLine.no_nul {text : List Char} (htext : SingleLine text) : ∀ c ∈ text, c ≠ nul :=
  fun c hc => (htext c hc).1

theorem SingleLine.no_newline {text : List Char} (htext : SingleLine text) : '\n' ∉ text :=
  fun hc => (htext _ hc).2.2 rfl

theorem SingleLine.append {left right : List Char} (hleft : SingleLine left)
    (hright : SingleLine right) : SingleLine (left ++ right) := by
  intro c hc
  rcases List.mem_append.mp hc with hc | hc
  · exact hleft c hc
  · exact hright c hc

theorem singleLine_toUpper {digits : List Char}
    (hdigits : ∀ c ∈ digits, ∃ digit < 16, c = digit.digitChar) :
    SingleLine (digits.map Char.toUpper) := by
  have hsingle : ∀ digit < 16, digit.digitChar.toUpper ≠ nul ∧
      digit.digitChar.toUpper ≠ '\r' ∧ digit.digitChar.toUpper ≠ '\n' := by decide
  intro c hc
  obtain ⟨lower, hlower, rfl⟩ := List.mem_map.mp hc
  obtain ⟨digit, hdigit, rfl⟩ := hdigits lower hlower
  exact hsingle digit hdigit

theorem singleLine_hexUpper (value : Nat) : SingleLine (hexUpper value) :=
  singleLine_toUpper fun _ => exists_digit_of_mem_hexText

theorem singleLine_hexUpperPadded (width value : Nat) : SingleLine (hexUpperPadded width value) :=
  singleLine_toUpper fun _ => exists_digit_of_mem_hexPadded

theorem parse_reply (py : Runtime) (now : Int) {kind : Char} {digits : List Char}
    (tail : List Char) (hkind : kind = 'S' ∨ kind = 'F' ∨ kind = 'R') (hne : digits ≠ [])
    (hlength : digits.length ≤ 4)
    (hdigits : ∀ c ∈ digits, ∃ digit < 16, c = digit.digitChar)
    (htail : ∀ c ∈ tail.head?, c = ':') :
    Response.parse py now ('$' :: kind :: ':' :: (digits.map Char.toUpper ++ tail)) =
      if kind = 'F' then .ok ⟨hexValue digits, false, now, replyTail tail, replyTail tail⟩
      else .ok ⟨hexValue digits, true, now, none, replyTail tail⟩ := by
  have hcolon : isReplyDigit py ':' = false := by
    rw [isReplyDigit, replyDigit_ascii py (by decide)]
    rfl
  have htake : (digits.map Char.toUpper ++ tail).takeWhile (isReplyDigit py) =
      digits.map Char.toUpper := by
    rw [List.takeWhile_append_of_pos]
    · cases tail with
      | nil => simp
      | cons c tail => simp [htail c (by simp), hcolon]
    · intro c hc
      obtain ⟨lower, hlower, rfl⟩ := List.mem_map.mp hc
      exact isReplyDigit_toUpper py (hdigits lower hlower)
  have hfour : (digits.map Char.toUpper).take 4 = digits.map Char.toUpper :=
    List.take_of_length_le (by simpa using hlength)
  have hvalue := foldl_replyDigit py hdigits
  have hmap : digits.map Char.toUpper ≠ [] := by simpa using hne
  have hdrop : (digits.map Char.toUpper ++ tail).drop (digits.map Char.toUpper).length = tail :=
    List.drop_left
  simp only [Response.parse, htake, hfour, hvalue, hdrop]
  rcases hkind with rfl | rfl | rfl <;> simp [hmap]

section

variable (py : Runtime) (now : Int) (requestId : RequestId)

theorem paddedId_spec :
    hexPadded 4 requestId.toNat ≠ [] ∧ (hexPadded 4 requestId.toNat).length ≤ 4 := by
  have hlength := length_requestId requestId
  rw [hexUpperPadded, List.length_map] at hlength
  exact ⟨fun h => by simp [h] at hlength, hlength.le⟩

theorem parse_finishedText : Response.parse py now (finishedText requestId) =
    .ok ⟨requestId.toNat, true, now, none, none⟩ := by
  obtain ⟨hne, hlength⟩ := paddedId_spec requestId
  have hparse := parse_reply py now [] (.inl rfl) hne hlength
    (fun _ => exists_digit_of_mem_hexPadded) (by simp)
  rw [hexValue_hexPadded, List.append_nil] at hparse
  exact hparse

theorem parse_failedText (errorCode : UInt8) :
    Response.parse py now (failedText requestId errorCode) =
      .ok ⟨requestId.toNat, false, now, some (hexUpper errorCode.toNat),
        some (hexUpper errorCode.toNat)⟩ := by
  have hlength : (hexText requestId.toNat).length ≤ 4 :=
    length_hexText_le (by decide) requestId.toNat_lt
  have htail := replyTail_of_no_newline (singleLine_hexUpper errorCode.toNat).no_newline
  have hparse := parse_reply py now (':' :: hexUpper errorCode.toNat) (.inr (.inl rfl))
    (hexText_ne_nil _) hlength (fun _ => exists_digit_of_mem_hexText) (by simp)
  rw [hexValue_hexText, htail] at hparse
  exact hparse

theorem parse_resultText {result : List Char} (hnul : ∀ c ∈ result, c ≠ nul)
    (hnewline : '\n' ∉ result) :
    Response.parse py now (resultText requestId result) =
      .ok ⟨requestId.toNat, true, now, none, some result⟩ := by
  obtain ⟨hne, hlength⟩ := paddedId_spec requestId
  have hparse := parse_reply py now (':' :: result) (.inr (.inr rfl)) hne hlength
    (fun _ => exists_digit_of_mem_hexPadded) (by simp)
  rw [hexValue_hexPadded, replyTail_of_no_newline hnewline] at hparse
  rw [resultText, cString_of_no_nul hnul]
  exact hparse

end

theorem singleLine_header (kind : Char) (hkind : kind = 'S' ∨ kind = 'F' ∨ kind = 'R')
    {text : List Char} (htext : SingleLine text) : SingleLine ('$' :: kind :: ':' :: text) := by
  have hheader : SingleLine ['$', kind, ':'] := by
    rcases hkind with rfl | rfl | rfl <;> decide
  exact hheader.append htext

theorem singleLine_finishedText (requestId : RequestId) : SingleLine (finishedText requestId) :=
  singleLine_header 'S' (.inl rfl) (singleLine_hexUpperPadded 4 _)

theorem singleLine_failedText (requestId : RequestId) (errorCode : UInt8) :
    SingleLine (failedText requestId errorCode) := by
  have hcolon : SingleLine [':'] := by decide
  have htail := hcolon.append (singleLine_hexUpper errorCode.toNat)
  exact singleLine_header 'F' (.inr (.inl rfl)) ((singleLine_hexUpper requestId.toNat).append htail)

theorem singleLine_resultText (requestId : RequestId) {result : List Char}
    (hresult : SingleLine result) : SingleLine (resultText requestId result) := by
  have hcolon : SingleLine [':'] := by decide
  have htail := (singleLine_hexUpperPadded 4 requestId.toNat).append (hcolon.append hresult)
  rw [resultText, cString_of_no_nul hresult.no_nul]
  exact singleLine_header 'R' (.inr (.inr rfl)) htail

theorem resultText_eq_append (requestId : RequestId) {result : List Char}
    (hresult : ∀ c ∈ result, c ≠ nul) :
    resultText requestId result = resultText requestId [] ++ result := by
  simp only [resultText, cString_of_no_nul hresult]
  simp [cString]

/-- What pyserial's `LineReader` hands over: the text in front of the first CR LF. -/
def receivedLine : List Char → List Char
  | '\r' :: '\n' :: _ => []
  | c :: rest => c :: receivedLine rest
  | [] => []

theorem receivedLine_append {text : List Char} (htext : '\n' ∉ text) :
    receivedLine (text ++ lineEnd) = text := by
  induction text with
  | nil => rfl
  | cons c text ih =>
    rw [List.mem_cons, not_or] at htext
    have hnext : ∀ rest, text ++ lineEnd ≠ '\n' :: rest := by
      intro rest hrest
      cases text with
      | nil => simp [lineEnd] at hrest
      | cons second text =>
        rw [List.cons_append] at hrest
        exact htext.2 (by simp [(List.cons.inj hrest).1])
    rw [List.cons_append, receivedLine, ih htext.2]
    intro rest _ hrest
    exact hnext rest hrest

/-- A message of A1 is one line, which fits its buffer and is parsed to the
response. -/
structure Arrives (py : Runtime) (now : Int) (size : Nat) (text : List Char)
    (sent : Option (List Char)) (response : Response) : Prop where
  fits : Fits size text
  sent : sent = some (text ++ lineEnd)
  singleLine : SingleLine text
  parsed : Response.parse py now text = .ok response

theorem onFinished_arrives (py : Runtime) (now : Int) (requestId : RequestId) :
    Arrives py now responseBufferSize (finishedText requestId) (onFinished requestId)
      ⟨requestId.toNat, true, now, none, none⟩ where
  fits := fits_finishedText requestId
  sent := by
    rw [onFinished, sprintf, if_pos (fits_finishedText requestId), Option.map_some,
      send_of_no_nul (singleLine_finishedText requestId).no_nul]
  singleLine := singleLine_finishedText requestId
  parsed := parse_finishedText py now requestId

theorem onFailed_arrives (py : Runtime) (now : Int) (requestId : RequestId) (errorCode : UInt8) :
    Arrives py now responseBufferSize (failedText requestId errorCode)
      (some (onFailed requestId errorCode))
      ⟨requestId.toNat, false, now, some (hexUpper errorCode.toNat),
        some (hexUpper errorCode.toNat)⟩ where
  fits := fits_failedText requestId errorCode
  sent := by
    rw [onFailed, snprintf_of_fits (fits_failedText requestId errorCode),
      send_of_no_nul (singleLine_failedText requestId errorCode).no_nul]
  singleLine := singleLine_failedText requestId errorCode
  parsed := parse_failedText py now requestId errorCode

theorem onResult_arrives (py : Runtime) (now : Int) (requestId : RequestId) {result : List Char}
    (hresult : SingleLine result) (hlength : result.length ≤ 21) :
    Arrives py now responseResultBufferSize (resultText requestId result)
      (onResult requestId result) ⟨requestId.toNat, true, now, none, some result⟩ := by
  have hsingle := singleLine_resultText requestId hresult
  have hfits : Fits responseResultBufferSize (resultText requestId result) := by
    rw [fits_resultText_iff, cString_of_no_nul hresult.no_nul]
    exact hlength
  have hsent : onResult requestId result = some (resultText requestId result ++ lineEnd) := by
    rw [onResult, sprintf, if_pos hfits, Option.map_some,
      send_of_no_nul hsingle.no_nul]
  exact ⟨hfits, hsent, hsingle, parse_resultText py now requestId hresult.no_nul hresult.no_newline⟩

/-- The reply codec: each printer's line is read back with the id, the outcome
and the payload that it was given. A character of the result is one ASCII byte, as
of everything that A1 prints. -/
theorem replies_arrive (py : Runtime) (now : Int) (requestId : RequestId) (errorCode : UInt8)
    (result : List Char) (hne : result ≠ []) (hlength : result.length ≤ 21)
    (hresult : ∀ c ∈ result, c ≠ nul ∧ c ≠ '\r' ∧ c ≠ '\n') :
    (∃ finished, Arrives py now responseBufferSize (finishedText requestId)
        (onFinished requestId) finished ∧
      finished.id = requestId.toNat ∧ finished.isSuccessful = true) ∧
    (∃ failed, Arrives py now responseBufferSize (failedText requestId errorCode)
        (some (onFailed requestId errorCode)) failed ∧
      failed.id = requestId.toNat ∧ failed.isSuccessful = false ∧
      failed.errorCodeProperty = some (some (hexUpper errorCode.toNat))) ∧
    ∃ succeeded, Arrives py now responseResultBufferSize (resultText requestId result)
        (onResult requestId result) succeeded ∧
      succeeded.id = requestId.toNat ∧ succeeded.isSuccessful = true ∧
      succeeded.dataProperty = some result := by
  refine ⟨⟨_, onFinished_arrives py now requestId, rfl, rfl⟩,
    ⟨_, onFailed_arrives py now requestId errorCode, rfl, rfl, rfl⟩,
    ⟨_, onResult_arrives py now requestId hresult hlength, rfl, rfl, ?_⟩⟩
  simp [Response.dataProperty, hne]

/-- A result with a colon and hexadecimal digits, behind an id of few digits. -/
theorem replies_arrive_beef :
    let result := ['B', 'E', ':', 'E', 'F']
    (∃ finished, Arrives asciiRuntime 0 responseBufferSize (finishedText 7) (onFinished 7) finished ∧
      finished.id = 7 ∧ finished.isSuccessful = true) ∧
    (∃ failed, Arrives asciiRuntime 0 responseBufferSize (failedText 7 0xA)
        (some (onFailed 7 0xA)) failed ∧
      failed.id = 7 ∧ failed.isSuccessful = false ∧
      failed.errorCodeProperty = some (some (hexUpper 0xA))) ∧
    ∃ succeeded, Arrives asciiRuntime 0 responseResultBufferSize (resultText 7 result)
        (onResult 7 result) succeeded ∧
      succeeded.id = 7 ∧ succeeded.isSuccessful = true ∧ succeeded.dataProperty = some result :=
  replies_arrive asciiRuntime 0 7 0xA ['B', 'E', ':', 'E', 'F'] (by decide) (by decide)
    (by simp [nul])

end VacuumCleaner.Link.ReplyCodec
