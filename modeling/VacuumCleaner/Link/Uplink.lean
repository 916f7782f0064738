import VacuumCleaner.Lib.Lines
import VacuumCleaner.Link.ReplyCodec
import VacuumCleaner.Link.Telemetry
import VacuumCleaner.Core.Reception

/-! The messages of A1 on their way into the core. The port hands over bytes as
they come; what the core makes of them depends on the messages alone. -/
namespace VacuumCleaner.Link.Uplink

open Lib.CText Lib.Lines A1 A1.InstructionHandler A1.Replies A1.Telemetry Core.Models
  Core.Models.A1Data Core.Socket Core.Reception ReplyCodec Telemetry

/-- What `perform` answers with itself. -/
inductive Complaint
  | serialError | undefinedCommand | wrongInstruction
  deriving DecidableEq, Repr

def Complaint.text : Complaint → List Char
  | .serialError => "SE".toList
  | .undefinedCommand => "UC".toList
  | .wrongInstruction => "WI".toList

inductive Message
  | reply (reply : Reply)
  | complaint (complaint : Complaint)
  | sensors (sensors : Sensors)
  deriving DecidableEq, Repr

namespace Message

/-- What A1 writes for a message; nothing is defined behind an overrun buffer. -/
def sent : Message → Option (List Char)
  | .reply answer => line answer
  | .complaint reason => some (send reason.text)
  | .sensors readings => some (send (sendSensorsOutput (sensorsOutput readings)))

/-- The line of a message without its ending. -/
def text : Message → List Char
  | .reply (.finished requestId) => finishedText requestId
  | .reply (.failed requestId errorCode) => failedText requestId (UInt8.ofNat errorCode)
  | .reply (.result requestId result) => resultText requestId result
  | .complaint reason => reason.text
  | .sensors readings => sensorsOutput readings

/-- A result is one line of at most 21 characters, each of which stands for one
byte, and the bytes of the power controller are those that it sends. -/
def Valid : Message → Prop
  | .reply (.result _ result) => SingleLine result ∧ result.length ≤ 21
  | .reply _ => True
  | .complaint _ => True
  | .sensors readings => InRange readings

end Message

/-- The response that stands for a reply. -/
def responseOf (now : Int) : Reply → Response
  | .finished requestId => ⟨requestId.toNat, true, now, none, none⟩
  | .failed requestId errorCode => ⟨requestId.toNat, false, now,
      some (Lib.Hex.hexUpper (UInt8.ofNat errorCode).toNat),
      some (Lib.Hex.hexUpper (UInt8.ofNat errorCode).toNat)⟩
  | .result requestId result => ⟨requestId.toNat, true, now, none, some result⟩

/-- A click is taken over by an empty latch only. -/
def merge (latch state : ButtonState) : ButtonState := if latch = .nothing then state else latch

/-- The snapshot behind a sensor line: the readings, and the clicks that wait. -/
def refreshed (sensors : Sensors) (data : A1Data) : A1Data :=
  { Telemetry.received sensors with
    bluetoothButtonClick := merge data.bluetoothButtonClick (click sensors.bluetoothButton)
    buttonUpClick := merge data.buttonUpClick (click sensors.upButton)
    buttonOkClick := merge data.buttonOkClick (click sensors.okButton)
    buttonDownClick := merge data.buttonDownClick (click sensors.downButton) }

/-- What the communicator is told: a message, or that the core reads a latch. -/
inductive Input
  | message (now : Int) (message : Message)
  | buttonRead (button : A1Data.Button)
  deriving DecidableEq, Repr

def Input.message? : Input → Option Message
  | .message _ told => some told
  | .buttonRead _ => none

def Input.button? : Input → Option A1Data.Button
  | .message .. => none
  | .buttonRead button => some button

/-- The communicator as a reader of messages. -/
def absorb (communicator : SerialA1Communicator) : Input → SerialA1Communicator
  | .message now (.reply reply) =>
    { communicator with responses := communicator.responses ++ [responseOf now reply] }
  | .message _ (.complaint _) => communicator
  | .message _ (.sensors sensors) =>
    { communicator with data := refreshed sensors communicator.data }
  | .buttonRead button =>
    { communicator with data := (communicator.data.readButton button).2 }

/-- What happens at the port of the core: bytes arrive, or a latch is read. -/
inductive Event
  | chunk (now : Int) (data : List Char)
  | buttonRead (button : A1Data.Button)
  deriving DecidableEq, Repr

def Event.data? : Event → Option (List Char)
  | .chunk _ data => some data
  | .buttonRead _ => none

def Event.button? : Event → Option A1Data.Button
  | .chunk .. => none
  | .buttonRead button => some button

/-- `data_received` of pyserial's `LineReader` keeps what is behind the last CR LF. -/
def deliveries (splitter : Splitter lineEnd) (buffer : List Char) : List Event → List Delivery
  | [] => []
  | .chunk now data :: events =>
    (splitter.split (buffer ++ data)).1.map (.line now) ++
      deliveries splitter (splitter.split (buffer ++ data)).2 events
  | .buttonRead button :: events => .buttonRead button :: deliveries splitter buffer events

/-- The bytes that the port has handed over. -/
def received (events : List Event) : List Char := (events.filterMap Event.data?).flatten

/-- The bytes that A1 has written. -/
def written (messages : List Message) : Option (List Char) :=
  (messages.mapM Message.sent).map List.flatten

/-! The lines of the messages. -/

theorem singleLine_sensorsOutput (sensors : Sensors) : SingleLine (sensorsOutput sensors) := by
  intro c hc
  have hdigit : ∀ {number}, c ∈ decimal number → c ≠ nul ∧ c ≠ '\r' ∧ c ≠ '\n' := by
    intro number hmem
    have hisDigit := Nat.isDigit_of_mem_toDigits (by decide) (by decide) hmem
    refine ⟨?_, ?_, ?_⟩ <;> rintro rfl <;> exact absurd hisDigit (by decide)
  rw [sensorsOutput_eq, List.mem_cons, List.mem_flatMap] at hc
  obtain rfl | ⟨⟨id, value⟩, -, hc⟩ := hc
  · decide
  · simp only [sensorEntry, List.mem_append, List.mem_cons, List.not_mem_nil, or_false] at hc
    obtain hid | rfl | hvalue | rfl := hc
    · exact hdigit hid
    · decide
    · exact hdigit hvalue
    · decide

theorem Message.singleLine_text {message : Message} (hvalid : message.Valid) :
    SingleLine message.text := by
  cases message with
  | reply answer =>
    cases answer with
    | finished requestId => exact singleLine_finishedText requestId
    | failed requestId errorCode => exact singleLine_failedText requestId _
    | result requestId result => exact singleLine_resultText requestId hvalid.1
  | complaint reason => cases reason <;> decide
  | sensors readings => exact singleLine_sensorsOutput readings

theorem Message.sent_eq (py : Runtime) {message : Message} (hvalid : message.Valid) :
    message.sent = some (message.text ++ lineEnd) := by
  cases message with
  | reply answer =>
    cases answer with
    | finished requestId => exact (onFinished_arrives py 0 requestId).sent
    | failed requestId errorCode => exact (onFailed_arrives py 0 requestId _).sent
    | result requestId result => exact (onResult_arrives py 0 requestId hvalid.1 hvalid.2).sent
  | complaint reason => cases reason <;> rfl
  | sensors readings =>
    rw [Message.sent, sendSensorsOutput_sensorsOutput,
      send_of_no_nul (singleLine_sensorsOutput readings).no_nul, Message.text]

theorem written_eq (py : Runtime) {messages : List Message}
    (hvalid : ∀ message ∈ messages, message.Valid) :
    written messages = some (joined lineEnd (messages.map Message.text)) := by
  have hsent : messages.mapM Message.sent =
      some (messages.map fun message => message.text ++ lineEnd) := by
    induction messages with
    | nil => rfl
    | cons message messages ih =>
      rw [List.mapM_cons, Message.sent_eq py (hvalid message (.head _)),
        ih fun other hother => hvalid other (.tail _ hother)]
      rfl
  rw [written, hsent, Option.map_some, joined, List.flatMap_map, List.flatMap_def]

theorem text_free {messages : List Message} (hvalid : ∀ message ∈ messages, message.Valid) :
    ∀ text ∈ messages.map Message.text, EndsFirst lineEnd text ∧ '\n' ∉ text := by
  intro text htext
  obtain ⟨message, hmessage, rfl⟩ := List.mem_map.mp htext
  have hsingle := Message.singleLine_text (hvalid message hmessage)
  exact ⟨endsFirst_of_not_mem fun hmem => (hsingle _ hmem).2.1 rfl, hsingle.no_newline⟩

/-! What the core makes of one message. -/

theorem refreshButton_packed (sensors : Sensors) (button : A1Data.Button) (data : A1Data) :
    refreshButton button sensors.getControllButtonsState.toUInt32.toNat data =
      .ok (data.setClick (merge (data.click button) (click (buttonOf sensors button))) button) := by
  unfold refreshButton merge
  rw [ofValue_code]
  split
  · rfl
  · cases button <;> rfl

theorem parseAndSetButtonsState_merged (sensors : Sensors) (data : A1Data) :
    parseAndSetButtonsState sensors.getControllButtonsState.toUInt32.toNat data =
      .ok { data with
        bluetoothButtonClick := merge data.bluetoothButtonClick (click sensors.bluetoothButton)
        buttonUpClick := merge data.buttonUpClick (click sensors.upButton)
        buttonOkClick := merge data.buttonOkClick (click sensors.okButton)
        buttonDownClick := merge data.buttonDownClick (click sensors.downButton) } := by
  simp only [parseAndSetButtonsState, refreshButton_packed, Core.Reception.click_setClick, reduceCtorEq,
    if_false, bind, Except.bind]
  rfl

theorem parseAndRefresh_refreshed {py : Runtime} (hlimit : LimitsLongNumerals py)
    {sensors : Sensors} (hrange : InRange sensors) (data : A1Data) :
    parseAndRefresh py (sensorsOutput sensors) data = .ok (refreshed sensors data) := by
  rw [parseAndRefresh_sensorsOutput hlimit]
  refine (refreshValues_cons 1 sensors.getControllButtonsState.toUInt32
    (parseAndSetButtonsState_merged sensors data)).trans ?_
  refine (refreshValues_cons 2 sensors.getEndsState.toUInt32
    (parseAndSetEndsState_packed sensors _)).trans ?_
  refine (refreshValues_cons 3 sensors.getRangefinderValue
    (parseDisValues_packed sensors _)).trans ?_
  refine (refreshValues_cons 4 sensors.getCliffsStatus.toUInt32
    (parseCliffs_packed sensors _)).trans ?_
  refine (refreshValues_cons 5 sensors.getPowerControllerState.toUInt32
    (parsePowerControllerStates_packed hrange _)).trans ?_
  refine (refreshValues_cons 6 sensors.getBatteryVoltageValue.toUInt32
    (parseBatteryVoltageValue_packed sensors _)).trans ?_
  exact refreshValues_cons 7 sensors.getWheelsSpeedValue (parseWheelsSpeed_packed sensors _)

theorem handleLine_dollar (py : Runtime) (now : Int) (communicator : SerialA1Communicator)
    {rest : List Char} {response : Response}
    (hparse : Response.parse py now ('$' :: rest) = .ok response) :
    communicator.handleLine py now ('$' :: rest) =
      .ok { communicator with responses := communicator.responses ++ [response] } := by
  rw [SerialA1Communicator.handleLine, if_neg (by decide), if_pos rfl,
    SerialA1Communicator.handleRequestResponse, hparse]

theorem handleLine_text {py : Runtime} (hlimit : LimitsLongNumerals py) (now : Int)
    (communicator : SerialA1Communicator) {message : Message} (hvalid : message.Valid) :
    communicator.handleLine py now message.text =
      .ok (absorb communicator (.message now message)) := by
  cases message with
  | reply answer =>
    cases answer with
    | finished requestId =>
      exact handleLine_dollar py now communicator (parse_finishedText py now requestId)
    | failed requestId errorCode =>
      exact handleLine_dollar py now communicator (parse_failedText py now requestId _)
    | result requestId result =>
      exact handleLine_dollar py now communicator
        (parse_resultText py now requestId hvalid.1.no_nul hvalid.1.no_newline)
  | complaint reason => cases reason <;> rfl
  | sensors readings =>
    have hrefresh := parseAndRefresh_refreshed hlimit hvalid communicator.data
    have hline : Message.text (.sensors readings) = sensorsOutput readings := rfl
    rw [sensorsOutput_eq] at hrefresh hline
    rw [hline, SerialA1Communicator.handleLine, if_pos rfl, hrefresh]
    rfl

/-! The chunks of a run. -/

/-- A delivery is the line of a message, or the same read of a latch. -/
inductive Stands : Delivery → Input → Prop
  | message (now : Int) (message : Message) (hvalid : message.Valid) :
    Stands (.line now message.text) (.message now message)
  | buttonRead (button : A1Data.Button) : Stands (.buttonRead button) (.buttonRead button)

def textOf? : Delivery → Option (List Char)
  | .line _ text => some text
  | .buttonRead _ => none

def buttonOf? : Delivery → Option A1Data.Button
  | .line .. => none
  | .buttonRead button => some button

theorem receive_of_stands {py : Runtime} (hlimit : LimitsLongNumerals py)
    {delivered : List Delivery} {inputs : List Input}
    (hstands : List.Forall₂ Stands delivered inputs) (communicator : SerialA1Communicator) :
    receive py communicator delivered = .ok (inputs.foldl absorb communicator) := by
  induction hstands generalizing communicator with
  | nil => rfl
  | cons hhead _ ih =>
    cases hhead with
    | message now message hvalid =>
      rw [receive, handleLine_text hlimit now communicator hvalid]
      exact ih _
    | buttonRead button => exact ih _

theorem exists_inputs {delivered : List Delivery} {messages : List Message}
    (hvalid : ∀ message ∈ messages, message.Valid)
    (hlines : delivered.filterMap textOf? = messages.map Message.text) :
    ∃ inputs, List.Forall₂ Stands delivered inputs ∧
      inputs.filterMap Input.message? = messages ∧
      inputs.filterMap Input.button? = delivered.filterMap buttonOf? := by
  induction delivered generalizing messages with
  | nil =>
    obtain rfl : messages = [] := List.map_eq_nil_iff.mp hlines.symm
    exact ⟨[], .nil, rfl, rfl⟩
  | cons delivery delivered ih =>
    cases delivery with
    | buttonRead button =>
      obtain ⟨inputs, hstands, hmessages, hbuttons⟩ := ih hvalid hlines
      exact ⟨.buttonRead button :: inputs, .cons (.buttonRead button) hstands, hmessages,
        congrArg (button :: ·) hbuttons⟩
    | line now text =>
      cases messages with
      | nil => cases hlines
      | cons message messages =>
        obtain ⟨rfl, hrest⟩ := List.cons.inj hlines
        obtain ⟨inputs, hstands, hmessages, hbuttons⟩ :=
          ih (fun other hother => hvalid other (.tail _ hother)) hrest
        exact ⟨.message now message :: inputs,
          .cons (.message now message (hvalid message (.head _))) hstands,
          congrArg (message :: ·) hmessages, hbuttons⟩

section deliveries

variable (splitter : Splitter lineEnd)

theorem textOf_deliveries (buffer : List Char) (events : List Event) :
    (deliveries splitter buffer events).filterMap textOf? =
      (splitter.run buffer (events.filterMap Event.data?)).1 := by
  induction events generalizing buffer with
  | nil => rfl
  | cons event events ih =>
    cases event with
    | buttonRead button => exact ih buffer
    | chunk now data =>
      have hchunk : (fun line => textOf? (.line now line)) = some := rfl
      simp only [deliveries, List.filterMap_append, List.filterMap_map, Function.comp_def, hchunk,
        List.filterMap_some, ih]
      rfl

theorem buttonOf_deliveries (buffer : List Char) (events : List Event) :
    (deliveries splitter buffer events).filterMap buttonOf? = events.filterMap Event.button? := by
  induction events generalizing buffer with
  | nil => rfl
  | cons event events ih =>
    cases event with
    | buttonRead button => exact congrArg (button :: ·) (ih buffer)
    | chunk now data =>
      have hchunk : (fun line => buttonOf? (.line now line)) = fun _ => none := rfl
      simp only [deliveries, List.filterMap_append, List.filterMap_map, Function.comp_def, hchunk,
        List.filterMap_none, ih]
      rfl

theorem textOf_deliveries_eq {messages : List Message}
    (hvalid : ∀ message ∈ messages, message.Valid) {events : List Event}
    (hreceived : received events <+: joined lineEnd (messages.map Message.text)) :
    (deliveries splitter [] events).filterMap textOf? =
      (messages.take ((received events).count '\n')).map Message.text := by
  have hmark : lineEnd ≠ [] := by simp [lineEnd]
  have hcut := splitter.cut_run (cut_nil hmark) (events.filterMap Event.data?)
  rw [List.nil_append, List.nil_append] at hcut
  have hlines := hcut.lines_prefix hmark hreceived
    (cut_joined hmark fun text htext => (text_free hvalid text htext).1)
  have hcount : (received events).count '\n' =
      (splitter.run [] (events.filterMap Event.data?)).1.length :=
    hcut.count ['\r'] hreceived (by decide) (text_free hvalid)
  rw [textOf_deliveries, hcount, List.map_take]
  exact List.prefix_iff_eq_take.mp hlines

end deliveries

/-! What a run leaves behind. -/

def untimed (response : Response) : Response := { response with timestamp := 0 }

def Message.response? : Message → Option Response
  | .reply answer => some (responseOf 0 answer)
  | _ => none

def Message.sensors? : Message → Option Sensors
  | .sensors readings => some readings
  | _ => none

/-- The snapshot without its clicks. -/
def unlatched (data : A1Data) : A1Data :=
  { data with
    buttonUpClick := .nothing, buttonOkClick := .nothing
    buttonDownClick := .nothing, bluetoothButtonClick := .nothing }

theorem untimed_responseOf (now : Int) (answer : Reply) :
    untimed (responseOf now answer) = responseOf 0 answer := by cases answer <;> rfl

theorem unlatched_readButton (data : A1Data) (button : A1Data.Button) :
    unlatched (data.readButton button).2 = unlatched data := by
  unfold readButton
  split
  · cases button <;> rfl
  · rfl

theorem responses_foldl (inputs : List Input) (communicator : SerialA1Communicator) :
    (inputs.foldl absorb communicator).responses.map untimed =
      communicator.responses.map untimed ++
        (inputs.filterMap Input.message?).filterMap Message.response? := by
  induction inputs generalizing communicator with
  | nil => simp
  | cons input inputs ih =>
    rw [List.foldl_cons, ih]
    cases input with
    | buttonRead button => rfl
    | message now message =>
      cases message with
      | reply answer =>
        simp [absorb, Input.message?, Message.response?, untimed_responseOf]
      | complaint reason => rfl
      | sensors readings => rfl

theorem data_foldl (inputs : List Input) (communicator : SerialA1Communicator) :
    unlatched (inputs.foldl absorb communicator).data =
      match ((inputs.filterMap Input.message?).filterMap Message.sensors?).getLast? with
      | some readings => unlatched (Telemetry.received readings)
      | none => unlatched communicator.data := by
  induction inputs using List.reverseRecOn with
  | nil => rfl
  | append_singleton inputs input ih =>
    rw [List.foldl_append, List.foldl_cons, List.foldl_nil, List.filterMap_append,
      List.filterMap_append]
    cases input with
    | buttonRead button =>
      have hnone : [Input.buttonRead button].filterMap Input.message? = [] := rfl
      rw [hnone, List.filterMap_nil, List.append_nil, ← ih]
      exact unlatched_readButton _ _
    | message now message =>
      have hsome : [Input.message now message].filterMap Input.message? = [message] := rfl
      rw [hsome]
      cases message with
      | reply answer =>
        have hnone : [Message.reply answer].filterMap Message.sensors? = [] := rfl
        rw [hnone, List.append_nil, ← ih]
        rfl
      | complaint reason =>
        have hnone : [Message.complaint reason].filterMap Message.sensors? = [] := rfl
        rw [hnone, List.append_nil, ← ih]
        rfl
      | sensors readings =>
        have hlast : [Message.sensors readings].filterMap Message.sensors? = [readings] := rfl
        rw [hlast, List.getLast?_concat]
        rfl

/-- However the bytes of A1 are cut into chunks, and whenever the core reads
its latches between them, the link lives and the communicator is in the state
that the complete messages bring about: the replies in their order, each once,
and the readings of the last sensor line. -/
theorem chunks_refine_messages (py : Runtime) (hlimit : LimitsLongNumerals py)
    (splitter : Splitter lineEnd) (communicator : SerialA1Communicator) (messages : List Message)
    (hvalid : ∀ message ∈ messages, message.Valid) :
    ∃ bytes, written messages = some bytes ∧ ∀ events, received events <+: bytes →
      let complete := messages.take ((received events).count '\n')
      ∃ inputs : List Input, inputs.filterMap Input.message? = complete ∧
        inputs.filterMap Input.button? = events.filterMap Event.button? ∧
        receive py communicator (deliveries splitter [] events) =
          .ok (inputs.foldl absorb communicator) ∧
        (inputs.foldl absorb communicator).responses.map untimed =
          communicator.responses.map untimed ++ complete.filterMap Message.response? ∧
        unlatched (inputs.foldl absorb communicator).data =
          match (complete.filterMap Message.sensors?).getLast? with
          | some readings => unlatched (Telemetry.received readings)
          | none => unlatched communicator.data := by
  refine ⟨_, written_eq py hvalid, fun events hreceived => ?_⟩
  intro complete
  obtain ⟨inputs, hstands, hmessages, hbuttons⟩ := exists_inputs
    (fun message hmessage => hvalid message (List.mem_of_mem_take hmessage))
    (textOf_deliveries_eq splitter hvalid hreceived)
  rw [buttonOf_deliveries] at hbuttons
  have hresponses := responses_foldl inputs communicator
  have hdata := data_foldl inputs communicator
  rw [hmessages] at hresponses hdata
  exact ⟨inputs, hmessages, hbuttons, receive_of_stands hlimit hstands communicator,
    hresponses, hdata⟩

/-- A reply in three pieces, one of which ends inside of the line ending. -/
theorem chunks_refine_finished :
    let events : List Event := [.chunk 1 "$S:00".toList, .buttonRead .up, .chunk 2 "07\r".toList,
      .chunk 3 "\nU".toList]
    let messages : List Message := [.reply (.finished 7), .complaint .undefinedCommand]
    ∃ inputs : List Input,
      inputs.filterMap Input.message? = messages.take ((received events).count '\n') ∧
      receive asciiRuntime {} (deliveries (scanner lineEnd (by decide)) [] events) =
        .ok (inputs.foldl absorb {}) := by
  obtain ⟨bytes, hbytes, hrun⟩ := chunks_refine_messages asciiRuntime (.inr (by decide))
    (scanner lineEnd (by decide)) {} [.reply (.finished 7), .complaint .undefinedCommand]
    (by simp [Message.Valid])
  have htext : bytes = "$S:0007\r\nUC\r\n".toList := by
    apply Option.some.inj
    rw [← hbytes]
    decide +kernel
  obtain ⟨inputs, hmessages, -, hreceive, -⟩ := hrun [.chunk 1 "$S:00".toList, .buttonRead .up,
    .chunk 2 "07\r".toList, .chunk 3 "\nU".toList] (by rw [htext]; decide)
  exact ⟨inputs, hmessages, hreceive⟩

end VacuumCleaner.Link.Uplink
