import VacuumCleaner.A1.Answers
import VacuumCleaner.A1.Clock
import VacuumCleaner.Link.EncodedFields
import VacuumCleaner.Link.ReplyCodec

/-! The date on its way from the core into A1's clock, and what the core reads
back from it at boot. -/
namespace VacuumCleaner.Link.Clock

open Lib.Hex Lib.CText Lib.Numeral A1 A1.InstructionHandler A1.Fields A1.Clock A1.Replies
open Core.Models Core.Robot Core.Socket EncodedFields ReplyCodec

/-- A1 with its clock. -/
structure World (F : Type) where
  firmware : Firmware F
  registers : Registers

variable {F : Type} (fpu : FloatUnit) (toFloat : Scanned → F)

/-- The callback's surroundings: the clock's text where the format stays in its
tables. -/
def World.surroundings (around : Surroundings) (world : World F) : Surroundings :=
  { around with
    dateFormat := fun format =>
      (dateFormat format (getDateTime world.registers)).getD (around.dateFormat format) }

/-- A1 performs what it reads; the call of `setDateTime` writes the clock. -/
def World.receive (behind : Nat) (around : Surroundings) (stream : List Char) (world : World F) :
    World F × List Reply :=
  match readFromStream stream with
  | (.ready, buffer, _) =>
    match handle buffer with
    | .ok name id value =>
      let (firmware, replies) := { world.firmware with dateTime := none }.callback fpu toFloat
        (world.surroundings around) id value name
      match firmware.dateTime with
      | some time => (⟨firmware, setDateTime behind time world.registers⟩, replies)
      | none => (⟨firmware, world.registers⟩, replies)
    | _ => (world, [])
  | _ => (world, [])

/-- The response that the core makes of a reply. -/
def response (py : Runtime) (now : Int) (reply : Reply) : Option Response :=
  (Replies.line reply).bind fun message =>
    (Response.parse py now (receivedLine message)).toOption

def daysOf (year month : Nat) : Nat :=
  if month = 2 then
    if year % 4 = 0 ∧ (year % 100 ≠ 0 ∨ year % 400 = 0) then 29 else 28
  else if month ∈ [4, 6, 9, 11] then 30 else 31

/-- A date and time of the years that the clock counts. -/
structure CalendarTime where
  year : Nat
  month : Nat
  day : Nat
  hour : Nat
  minute : Nat
  second : Nat
  year_range : 2000 ≤ year ∧ year ≤ 2099
  month_range : 1 ≤ month ∧ month ≤ 12
  day_range : 1 ≤ day ∧ day ≤ daysOf year month
  hour_lt : hour < 24
  minute_lt : minute < 60
  second_lt : second < 60

namespace CalendarTime

variable (time : CalendarTime)

def command : Command :=
  .setDateTime time.year time.month time.day time.hour time.minute time.second

def values : List Nat := [time.year, time.month, time.day, time.hour, time.minute, time.second]

def clockText : List Char :=
  decimal02 time.hour ++ ':' :: (decimal02 time.minute ++ ':' :: decimal02 time.second)

/-- `YYYY-MM-DD HH:MM:SS`. -/
def text : List Char :=
  decimal time.year ++ '-' :: (decimal02 time.month ++ '-' :: (decimal02 time.day ++
    ' ' :: time.clockText))

/-- `YYYY-DD-MM HH:MM:SS` with a CR behind it. -/
def swappedText : List Char :=
  decimal time.year ++ '-' :: (decimal02 time.day ++ '-' :: (decimal02 time.month ++
    ' ' :: (time.clockText ++ ['\r'])))

end CalendarTime

/-- `set_date_time`, and then the reading of the boot: the data that the core
hands to the operating system. -/
def readBack (py : Runtime) (now : Int) (behind : Nat) (aroundSet aroundGet : Surroundings)
    (communicator : SerialA1Communicator) (world : World F) (time : CalendarTime) :
    Option (List Char) :=
  let set := time.command.instruction
  let (setLine, _, communicator) :=
    communicator.sendInstruction set.instructionId set.parameters
  let (world, _) := world.receive fpu toFloat behind aroundSet setLine
  let get := Command.getDateTime.instruction
  let (getLine, _, _) := communicator.sendInstruction get.instructionId get.parameters
  let (_, replies) := world.receive fpu toFloat behind aroundGet getLine
  (replies.head?.bind (response py now)).bind Response.dataProperty

namespace CalendarTime

variable (time : CalendarTime)

theorem day_le : time.day ≤ 31 := by
  have hday := time.day_range.2
  unfold daysOf at hday
  split at hday
  · split at hday <;> omega
  · split at hday <;> omega

theorem parameters_command : time.command.instruction.parameters = encoded time.values := by
  simp only [command, Command.instruction, hex_natCast]
  rfl

theorem values_lt : ∀ value ∈ time.values, value < 16 ^ 3 := by
  have hyear := time.year_range
  have hmonth := time.month_range
  have hday := time.day_le
  have hhour := time.hour_lt
  have hminute := time.minute_lt
  have hsecond := time.second_lt
  simp only [values, List.forall_mem_cons]
  refine ⟨?_, ?_, ?_, ?_, ?_, ?_, by simp⟩ <;> omega

theorem length_encoded_values : (encoded time.values).length ≤ 24 :=
  length_encoded_le fun value hvalue =>
    (length_hexText_le_iff value (by decide)).mpr (time.values_lt value hvalue)

/-- The date as `setDateTime` gets it. -/
def dateTime : DateTime :=
  ⟨time.year, time.month, time.day, time.hour, time.minute, time.second⟩

theorem onSetDateTime_encoded {F : Type} (around : Surroundings) (id : RequestId)
    (rest : List Char) (firmware : Firmware F) :
    firmware.onSetDataTime around id (encoded time.values ++ '\r' :: rest) =
      ({ firmware with dateTime := some time.dateTime }, [.finished id]) := by
  have hlength : (encoded time.values).length ≤ 100 := time.length_encoded_values.trans (by decide)
  have hfetch : ∀ group (hgroup : group < time.values.length),
      fetchUnsignedHexNumber (around.beyond group) (encoded time.values ++ '\r' :: rest) group =
        time.values.get ⟨group, hgroup⟩ := by
    intro group hgroup
    rw [fetch_encoded hgroup hlength, readField,
      if_pos (time.values_lt _ (List.get_mem _ _))]
  have hyear := hfetch 0 (by decide : 0 < 6)
  have hmonth := hfetch 1 (by decide : 1 < 6)
  have hday := hfetch 2 (by decide : 2 < 6)
  have hhour := hfetch 3 (by decide : 3 < 6)
  have hminute := hfetch 4 (by decide : 4 < 6)
  have hsecond := hfetch 5 (by decide : 5 < 6)
  simp only [values, List.get] at hyear hmonth hday hhour hminute hsecond
  have hyearRange := time.year_range
  have hmonthRange := time.month_range
  have hdayRange := time.day_le
  have hhourRange := time.hour_lt
  have hminuteRange := time.minute_lt
  have hsecondRange := time.second_lt
  unfold Firmware.onSetDataTime
  simp only [values, hyear, hmonth, hday, hhour, hminute, hsecond]
  rw [toSigned_natCast (by omega), toSigned_natCast (by omega), toSigned_natCast (by omega),
    toSigned_natCast (by omega), toSigned_natCast (by omega), toSigned_natCast (by omega),
    toUnsigned_natCast (by omega), toUnsigned_natCast (by omega), toUnsigned_natCast (by omega),
    toUnsigned_natCast (by omega), toUnsigned_natCast (by omega), toUnsigned_natCast (by omega),
    if_neg (by unfold parsingError; omega)]
  rfl

end CalendarTime

/-- What the format of the boot shows of a time, with the CR of the line. -/
def bootText (time : RTCDateTime) : List Char :=
  decimal time.year ++ '-' :: (decimal02 time.day ++ '-' :: (decimal02 time.month ++
    ' ' :: (decimal02 time.hour ++ ':' :: (decimal02 time.minute ++
      ':' :: (decimal02 time.second ++ ['\r'])))))

theorem length_bootText_le (registers : Registers) :
    (bootText (getDateTime registers)).length ≤ 25 := by
  have hyear : bcd2dec (registers (ds3231RegTime + 6)) + 2000 < 10 ^ 4 := by
    have hlt := bcd2dec_lt (registers (ds3231RegTime + 6))
    omega
  have hyearLength := length_decimal_le _ (show 0 < 4 by decide) hyear
  have hmonth := length_decimal02_le (bcd2dec_lt (registers (ds3231RegTime + 5)))
  have hday := length_decimal02_le (bcd2dec_lt (registers (ds3231RegTime + 4)))
  have hhour := length_decimal02_le (bcd2dec_lt (registers (ds3231RegTime + 2)))
  have hminute := length_decimal02_le (bcd2dec_lt (registers (ds3231RegTime + 1)))
  have hsecond := length_decimal02_le (bcd2dec_lt (registers ds3231RegTime))
  simp only [bootText, getDateTime, List.length_append, List.length_cons, List.length_nil]
  omega

def bootFormat : List Char := Command.getDateTime.instruction.parameters

theorem takeWhile_bootFormat (rest : List Char) :
    (bootFormat ++ '\r' :: '\n' :: rest).takeWhile (fun c => c ≠ '\n' ∧ c ≠ '\x00') =
      bootFormat ++ ['\r'] := by
  simp [bootFormat, Command.instruction]

theorem dateFormat_bootFormat (registers : Registers) :
    dateFormat (bootFormat ++ ['\r']) (getDateTime registers) =
      some (bootText (getDateTime registers)) := by
  have hlength := length_bootText_le registers
  generalize getDateTime registers = time at hlength
  have htexts : (bootFormat ++ ['\r']).mapM (decoder time) =
      some [decimal time.year, ['-'], decimal02 time.day, ['-'], decimal02 time.month, [' '],
        decimal02 time.hour, [':'], decimal02 time.minute, [':'], decimal02 time.second,
        ['\r']] := rfl
  have hflatten : [decimal time.year, ['-'], decimal02 time.day, ['-'], decimal02 time.month, [' '],
      decimal02 time.hour, [':'], decimal02 time.minute, [':'], decimal02 time.second,
      ['\r']].flatten = bootText time := by
    simp [bootText]
  unfold dateFormat
  rw [htexts, Option.bind_eq_bind, Option.bind_some, hflatten, if_pos]
  unfold bufferSize
  omega

theorem mem_bootText {time : RTCDateTime} {c : Char} (hc : c ∈ bootText time) :
    c.isDigit = true ∨ c ∈ ['-', ' ', ':', '\r'] := by
  have hyear : ∀ c ∈ decimal time.year, c.isDigit = true := fun c =>
    Nat.isDigit_of_mem_toDigits (by decide) (by decide)
  simp only [bootText, List.mem_append, List.mem_cons] at hc
  rcases hc with hc | rfl | hc | rfl | hc | rfl | hc | rfl | hc | rfl | hc | rfl | hc
  · exact .inl (hyear c hc)
  all_goals first
    | exact .inl (isDigit_of_mem_decimal02 hc)
    | simp at hc
    | simp

theorem bootText_clean (time : RTCDateTime) :
    (∀ c ∈ bootText time, c ≠ nul) ∧ '\n' ∉ bootText time := by
  constructor
  · rintro c hc rfl
    exact absurd (mem_bootText hc) (by decide)
  · intro hc
    exact absurd (mem_bootText hc) (by decide)

theorem response_bootText (py : Runtime) (now : Int) (id : RequestId) (time : RTCDateTime) :
    (response py now (.result id (bootText time))).bind Response.dataProperty =
      if (bootText time).length ≤ 21 then some (bootText time) else none := by
  obtain ⟨hnul, hnewline⟩ := bootText_clean time
  have hfits := fits_resultText_iff id (bootText time)
  rw [cString_of_no_nul hnul] at hfits
  by_cases hlength : (bootText time).length ≤ 21
  swap
  · rw [if_neg hlength, response, Replies.line, onResult, sprintf, if_neg (mt hfits.mp hlength)]
    rfl
  have hsafe : (∀ c ∈ resultText id (bootText time), c ≠ nul) ∧
      '\n' ∉ resultText id (bootText time) := by
    have hheader : SingleLine (resultText id []) := singleLine_resultText id (by simp [SingleLine])
    rw [resultText_eq_append id hnul]
    refine ⟨List.forall_mem_append.mpr ⟨hheader.no_nul, hnul⟩, ?_⟩
    rw [List.mem_append, not_or]
    exact ⟨hheader.no_newline, hnewline⟩
  have hmessage : Replies.line (.result id (bootText time)) =
      some (resultText id (bootText time) ++ lineEnd) := by
    rw [Replies.line, onResult, sprintf, if_pos (hfits.mpr hlength), Option.map_some,
      send_of_no_nul hsafe.1]
  have hne : bootText time ≠ [] := by simp [bootText]
  rw [if_pos hlength, response, hmessage, Option.bind_some, receivedLine_append hsafe.2,
    parse_resultText py now id hnul hnewline]
  simp [Except.toOption, Response.dataProperty, hne]

section

variable {fpu toFloat}

theorem receive_of_handle {stream buffer rest value : List Char} {name : Callback} {id : RequestId}
    (hread : readFromStream stream = (.ready, buffer, rest))
    (hhandle : handle buffer = .ok name id value)
    (behind : Nat) (around : Surroundings) (world : World F) :
    world.receive fpu toFloat behind around stream =
      let (firmware, replies) := { world.firmware with dateTime := none }.callback fpu toFloat
        (world.surroundings around) id value name
      match firmware.dateTime with
      | some time => (⟨firmware, setDateTime behind time world.registers⟩, replies)
      | none => (⟨firmware, world.registers⟩, replies) := by
  simp only [World.receive, hread, hhandle]

theorem receive_setDateTime {communicator : SerialA1Communicator}
    (hfits : SerialA1Communicator.nextIdK communicator.instructionIdK < 16 ^ 4)
    (behind : Nat) (around : Surroundings) (world : World F) (time : CalendarTime) :
    (world.receive fpu toFloat behind around
      (communicator.sendInstruction time.command.instruction.instructionId
        time.command.instruction.parameters).1).1.registers =
      setDateTime behind time.dateTime world.registers := by
  rw [time.parameters_command, show time.command.instruction.instructionId = 0x0D from rfl]
  obtain ⟨buffer, rest, hread, hhandle⟩ := InstructionCodec.received_of_fits
    (show (0x0D, Callback.onSetDataTime) ∈ instructions by decide) (printable_encoded time.values)
    (time.length_encoded_values.trans (by decide)) hfits
  rw [receive_of_handle hread hhandle]
  simp only [Firmware.callback, time.onSetDateTime_encoded]

theorem receive_getDateTime {communicator : SerialA1Communicator}
    (hfits : SerialA1Communicator.nextIdK communicator.instructionIdK < 16 ^ 4)
    (behind : Nat) (around : Surroundings) (world : World F) :
    (world.receive fpu toFloat behind around
      (communicator.sendInstruction Command.getDateTime.instruction.instructionId
        Command.getDateTime.instruction.parameters).1).2 =
      [.result (UInt16.ofNat (SerialA1Communicator.nextIdK communicator.instructionIdK))
        (bootText (getDateTime world.registers))] := by
  obtain ⟨buffer, rest, hread, hhandle⟩ := InstructionCodec.received_of_fits
    (show (0x0C, Callback.onGetCurrentTime) ∈ instructions by decide)
    (show InstructionCodec.Printable bootFormat by decide) (by decide) hfits
  rw [show Command.getDateTime.instruction.instructionId = 0x0C from rfl,
    show Command.getDateTime.instruction.parameters = bootFormat from rfl,
    receive_of_handle hread hhandle]
  simp only [Firmware.callback, Firmware.onGetCurrentTime, takeWhile_bootFormat,
    World.surroundings, dateFormat_bootFormat, Option.getD_some]

theorem receive_getDateTime_wrapped {communicator : SerialA1Communicator}
    (hwrapped : SerialA1Communicator.nextIdK communicator.instructionIdK = 65536)
    (behind : Nat) (around : Surroundings) (world : World F) :
    (world.receive fpu toFloat behind around
      (communicator.sendInstruction Command.getDateTime.instruction.instructionId
        Command.getDateTime.instruction.parameters).1).2 = [] := by
  have hregistered : 0x0C ∈ instructions.map Prod.fst := by decide
  have hprintable : InstructionCodec.Printable bootFormat := by decide
  have hlength : (hexPadded 4 65536).length ≤ 5 := by decide
  obtain ⟨padding, hread⟩ := InstructionCodec.readFromStream_line hprintable
    (InstructionCodec.length_lineBody_lt hregistered hlength (by decide))
  have hline : (communicator.sendInstruction Command.getDateTime.instruction.instructionId
      Command.getDateTime.instruction.parameters).1 =
      InstructionCodec.lineBody 0x0C 65536 bootFormat ++ ['\n'] := by
    rw [InstructionCodec.sendInstruction_eq, hwrapped]
    rfl
  rw [hline, World.receive, hread]
  simp only [InstructionCodec.handle_lineBody_wrapped hregistered]

end

theorem nextIdK_le (instructionIdK : Nat) : SerialA1Communicator.nextIdK instructionIdK ≤ 65536 := by
  unfold SerialA1Communicator.nextIdK
  split <;> omega

namespace CalendarTime

variable (time : CalendarTime)

theorem bootText_getDateTime (behind : Nat) (registers : Registers) :
    bootText (getDateTime (setDateTime behind time.dateTime registers)) = time.swappedText := by
  have hyear := time.year_range
  have hmonth := time.month_range
  have hday := time.day_le
  have hhour := time.hour_lt
  have hminute := time.minute_lt
  have hsecond := time.second_lt
  rw [getDateTime_setDateTime]
  · simp [bootText, swappedText, clockText, dateTime]
  all_goals
    simp only [dateTime]
    omega

theorem length_swappedText : time.swappedText.length = 20 := by
  have hall : ∀ year < 100, (decimal (2000 + year)).length = 4 := by decide
  have hyear : (decimal time.year).length = 4 := by
    have hrange := time.year_range
    have hlength := hall (time.year - 2000) (by omega)
    rw [show 2000 + (time.year - 2000) = time.year by omega] at hlength
    exact hlength
  have hmonthRange := time.month_range
  have hdayRange := time.day_le
  have hhourRange := time.hour_lt
  have hminuteRange := time.minute_lt
  have hsecondRange := time.second_lt
  have hmonth := length_decimal02 (show time.month < 100 by omega)
  have hday := length_decimal02 (show time.day < 100 by omega)
  have hhour := length_decimal02 (show time.hour < 100 by omega)
  have hminute := length_decimal02 (show time.minute < 100 by omega)
  have hsecond := length_decimal02 (show time.second < 100 by omega)
  simp [swappedText, clockText, hyear, hmonth, hday, hhour, hminute, hsecond]

theorem cr_not_mem_text : '\r' ∉ time.text := by
  have hyear : '\r' ∉ decimal time.year := fun hc =>
    absurd (Nat.isDigit_of_mem_toDigits (by decide) (by decide) hc) (by decide)
  have hpair : ∀ value, '\r' ∉ decimal02 value := fun value hc =>
    absurd (isDigit_of_mem_decimal02 hc) (by decide)
  simp [text, clockText, hyear, hpair]

end CalendarTime

theorem cr_mem_bootText (time : RTCDateTime) : '\r' ∈ bootText time := by
  simp [bootText]

section

variable (py : Runtime) (now : Int) (behind : Nat) (aroundSet aroundGet : Surroundings)
  (communicator : SerialA1Communicator) (world : World F) (time : CalendarTime)

theorem readBack_eq_swappedText
    (hset : SerialA1Communicator.nextIdK communicator.instructionIdK < 16 ^ 4)
    (hget : SerialA1Communicator.nextIdK
      (SerialA1Communicator.nextIdK communicator.instructionIdK) < 16 ^ 4) :
    readBack fpu toFloat py now behind aroundSet aroundGet communicator world time =
      some time.swappedText := by
  unfold readBack
  dsimp only
  rw [receive_getDateTime (by simpa using hget), List.head?_cons, Option.bind_some,
    receive_setDateTime hset, response_bootText, time.bootText_getDateTime, if_pos]
  rw [time.length_swappedText]
  decide

theorem readBack_ne_text : readBack fpu toFloat py now behind aroundSet aroundGet communicator
    world time ≠ some time.text := by
  unfold readBack
  dsimp only
  obtain ⟨started, -⟩ := world.receive fpu toFloat behind aroundSet _
  generalize (communicator.sendInstruction _ _).2.2 = following
  obtain hfits | hwrapped := Nat.lt_or_eq_of_le (nextIdK_le following.instructionIdK)
  · rw [receive_getDateTime hfits, List.head?_cons, Option.bind_some, response_bootText]
    split
    · intro htext
      apply time.cr_not_mem_text
      rw [← Option.some.inj htext]
      exact cr_mem_bootText _
    · simp
  · rw [receive_getDateTime_wrapped hwrapped]
    simp

/-- The core never reads back the text of the date that it has set: where both
lines arrive, day and month are swapped and a CR follows. -/
theorem readBack_swaps : readBack fpu toFloat py now behind aroundSet aroundGet communicator
      world time ≠ some time.text ∧
    (SerialA1Communicator.nextIdK communicator.instructionIdK < 16 ^ 4 →
      SerialA1Communicator.nextIdK
        (SerialA1Communicator.nextIdK communicator.instructionIdK) < 16 ^ 4 →
      readBack fpu toFloat py now behind aroundSet aroundGet communicator world time =
        some time.swappedText) :=
  ⟨readBack_ne_text fpu toFloat py now behind aroundSet aroundGet communicator world time,
    readBack_eq_swappedText fpu toFloat py now behind aroundSet aroundGet communicator world time⟩

end

/-- 2024-03-15 08:05:09. -/
def fifteenthOfMarch : CalendarTime where
  year := 2024
  month := 3
  day := 15
  hour := 8
  minute := 5
  second := 9
  year_range := by decide
  month_range := by decide
  day_range := by decide
  hour_lt := by decide
  minute_lt := by decide
  second_lt := by decide

/-- The first two calls of a new process set and read this date. -/
theorem fifteenthOfMarch_not_read_back : ¬ ∀ fpu (world : World Scanned) around time,
    readBack fpu id asciiRuntime 0 0 around around {} world time = some time.text := by
  intro hevery
  let around : Surroundings := ⟨fun _ => [], 0, id, none⟩
  let world : World Scanned := ⟨{ pid := Answers.noGains }, fun _ => 0⟩
  have hread := hevery Answers.noFpu world around fifteenthOfMarch
  rw [readBack_eq_swappedText Answers.noFpu id asciiRuntime 0 0 around around {} world
    fifteenthOfMarch (by decide) (by decide)] at hread
  exact absurd hread (by decide)

end VacuumCleaner.Link.Clock
