import VacuumCleaner.A1.InstructionGrammar
import VacuumCleaner.Lib.CMemory
import VacuumCleaner.Link.Clock

/-! The reply to a request for the date: how wide it gets, and what is touched
of the buffers between the format and the line. -/
namespace VacuumCleaner.Link.DateReply

open Lib.CText Lib.CMemory A1 A1.InstructionHandler A1.Clock A1.Replies Clock
open A1.Fields (toUnsigned)

/-- What the clock counts; its days of the week are numbered from 1. -/
structure ClockTime extends CalendarTime where
  dayOfWeek : Nat
  dayOfWeek_range : 1 ≤ dayOfWeek ∧ dayOfWeek ≤ 7

def ClockTime.rtc (time : ClockTime) : RTCDateTime :=
  ⟨time.year, time.month, time.day, time.hour, time.minute, time.second, time.dayOfWeek⟩

/-- A format as the callback cuts it out of its value. -/
structure Format where
  text : List Char
  no_newline : '\n' ∉ text
  no_nul : nul ∉ text
  length_le : text.length ≤ 97

inductive Buffer
  | helper | buffer | messageBuffer | daysShort | monthShort | amOrPm | daySuffix
  deriving DecidableEq, Repr

def Buffer.size : Buffer → Nat
  | .helper => 11
  | .buffer => bufferSize
  | .messageBuffer => responseResultBufferSize
  | .daysShort => A1.Clock.daysShort.length
  | .monthShort => A1.Clock.monthShort.length
  | .amOrPm => 4
  | .daySuffix => 4

/-- The entry of a name table that a letter reads. -/
def tableAccesses (time : RTCDateTime) : Char → List (Access Buffer)
  | 'l' | 'D' => if time.dayOfWeek ≤ 6 then [⟨.daysShort, time.dayOfWeek⟩] else []
  | 'F' | 'M' => if time.month ≤ 12 then [⟨.monthShort, time.month⟩] else []
  | 'S' => [⟨.daySuffix, if time.day % 10 = 1 then 0 else if time.day % 10 = 2 then 1
      else if time.day % 10 = 3 then 2 else 3⟩]
  | 'A' => [⟨.amOrPm, if time.hour < 12 then 0 else 1⟩]
  | 'a' => [⟨.amOrPm, if time.hour < 12 then 2 else 3⟩]
  | _ => []

/-- The letters whose text is a number, printed into `helper`. -/
def numbers : List Char := "djNwzmntYyLHGhgisU".toList

section reply

variable (beyond : List Char) (time : RTCDateTime)

/-- `beyond` is what a pointer from behind a table leads to. -/
def letterText (letter : Char) : List Char :=
  match decoder time letter with
  | some text => text
  | none => if letter = 'M' then beyond.take 3 else beyond

def letterAccesses (letter : Char) : List (Access Buffer) :=
  tableAccesses time letter ++
    if letter ∈ numbers then span .helper 0 ((letterText beyond time letter).length + 1) else []

/-- `strcat` goes through the buffer to its NUL and writes from there. -/
def formatAccesses : (format : List Char) → (written : Nat) → List (Access Buffer)
  | [], _ => []
  | letter :: format, written =>
    let length := (letterText beyond time letter).length
    letterAccesses beyond time letter ++ span .buffer 0 (written + length + 1) ++
      formatAccesses format (written + length)

def dateFormatAccesses (format : List Char) : List (Access Buffer) :=
  ⟨.buffer, 0⟩ :: formatAccesses beyond time format 0

def expansion (format : List Char) : List Char := format.flatMap (letterText beyond time)

/-- The message that is zeroed and printed. -/
def onResultAccesses (id : RequestId) (result : List Char) : List (Access Buffer) :=
  span .messageBuffer 0 responseResultBufferSize ++
    span .messageBuffer 0 ((resultText id result).length + 1)

def replyAccesses (id : RequestId) (format : List Char) : List (Access Buffer) :=
  dateFormatAccesses beyond time format ++ onResultAccesses id (expansion beyond time format)

end reply

theorem length_takeWhile_strncpy_le (size count : Nat) (line rest : List Char) :
    ((strncpy size count (line ++ '\n' :: rest)).takeWhile
      fun c => c ≠ '\n' ∧ c ≠ '\x00').length ≤ line.length := by
  have hpad : ∀ copy : List Char, ((copy.rightpad size nul).takeWhile
      fun c => c ≠ '\n' ∧ c ≠ '\x00') <+: copy := by
    intro copy
    rw [List.rightpad, List.takeWhile_append, List.takeWhile_replicate]
    split
    · simp [nul]
    · exact List.takeWhile_prefix _
  have hcopy : ((strncpy size count (line ++ '\n' :: rest)).takeWhile
      fun c => c ≠ '\n' ∧ c ≠ '\x00') <+: line ++ '\n' :: rest :=
    (hpad _).trans ((List.take_prefix _ _).trans (List.takeWhile_prefix _))
  by_contra hlong
  have hline : line ++ ['\n'] <+: line ++ '\n' :: rest := by simp
  have hwhole := List.prefix_of_prefix_length_le hline hcopy (by
    rw [List.length_append, List.length_singleton]
    omega)
  have hnewline := List.mem_takeWhile_imp (hwhole.subset (List.mem_append_right line
    (List.mem_singleton_self '\n')))
  simp at hnewline

theorem le_length_body_of_hasSeparators {line : ReceivedLine} (hseparators : line.HasSeparators) :
    9 ≤ line.body.length := by
  by_contra hshort
  have hthird := hseparators.2.2
  rw [charAt, line.text_eq, List.getD_eq_getElem?_getD,
    List.getElem?_append_right (by simp only [commandSize, idSize]; omega)] at hthird
  cases hoffset : commandSize + 1 + idSize + 1 - line.body.length with
  | zero =>
    rw [hoffset] at hthird
    exact absurd hthird (by decide)
  | succ offset =>
    rw [hoffset] at hthird
    exact absurd hthird (show nul ≠ parametersDevider by decide)

theorem length_body_le (line : ReceivedLine) : line.body.length ≤ 106 := by
  have hlength := line.length_le
  rw [line.text_eq, List.length_append, List.length_singleton] at hlength
  exact Nat.le_of_succ_le_succ hlength

theorem exists_format (line : ReceivedLine) {behind : List Char} {id : RequestId}
    {value : List Char} (hhandle : handle (line.memory behind) = .ok .onGetCurrentTime id value) :
    ∃ format : Format, format.text = value.takeWhile fun c => c ≠ '\n' ∧ c ≠ '\x00' := by
  have hseparators : line.HasSeparators := by
    by_contra hmissing
    rw [(line.handle_eq_wrongInstruction_iff behind).mpr hmissing] at hhandle
    cases hhandle
  have hlong := le_length_body_of_hasSeparators hseparators
  have hvalue : value = strncpy maxInputSize maxInputSize ((line.memory behind).drop 9) := by
    unfold handle at hhandle
    split at hhandle
    · cases hhandle
    · dsimp only at hhandle
      split at hhandle
      · injection hhandle with _ _ hcopy
        exact hcopy.symm
      · cases hhandle
  have hmemory : (line.memory behind).drop 9 = line.body.drop 9 ++ '\n' ::
      (List.replicate (maxCommandSize - line.text.length) nul ++ behind) := by
    rw [ReceivedLine.memory, List.rightpad, line.text_eq, List.append_assoc, List.append_assoc,
      List.drop_append_of_le_length hlong]
    rfl
  have hbody := length_body_le line
  have hends : ∀ c ∈ value.takeWhile fun c => c ≠ '\n' ∧ c ≠ '\x00', c ≠ '\n' ∧ c ≠ nul :=
    fun c hc => by simpa [nul] using List.mem_takeWhile_imp hc
  refine ⟨⟨value.takeWhile fun c => c ≠ '\n' ∧ c ≠ '\x00', fun hmem => (hends _ hmem).1 rfl,
    fun hmem => (hends _ hmem).2 rfl, ?_⟩, rfl⟩
  rw [hvalue, hmemory]
  refine (length_takeWhile_strncpy_le ..).trans ?_
  rw [List.length_drop]
  omega

theorem map_letterText {beyond : List Char} {time : RTCDateTime} {format : List Char}
    {texts : List (List Char)} (hmap : format.mapM (decoder time) = some texts) :
    format.map (letterText beyond time) = texts := by
  induction format generalizing texts with
  | nil =>
    cases hmap
    rfl
  | cons letter format ih =>
    obtain ⟨text, hletter, hrest⟩ := Option.bind_eq_some_iff.mp (List.mapM_cons.symm.trans hmap)
    obtain ⟨others, hothers, htexts⟩ := Option.bind_eq_some_iff.mp hrest
    cases htexts
    rw [List.map_cons, ih hothers, letterText, hletter]

theorem expansion_of_dateFormat {beyond : List Char} {time : RTCDateTime} {format text : List Char}
    (htext : dateFormat format time = some text) : expansion beyond time format = text := by
  obtain ⟨texts, hmap, hresult⟩ := Option.bind_eq_some_iff.mp htext
  split at hresult
  · cases hresult
    rw [expansion, List.flatMap_def, map_letterText hmap]
  · cases hresult

/-- The characters that a letter stands for. -/
def width (time : RTCDateTime) : Char → Nat
  | 'd' | 'm' | 'y' | 'H' | 'h' | 'i' | 's' | 'S' | 't' | 'A' | 'a' => 2
  | 'D' | 'F' | 'M' => 3
  | 'Y' => 4
  | 'j' => if time.day < 10 then 1 else 2
  | 'n' => if time.month < 10 then 1 else 2
  | 'G' => if time.hour < 10 then 1 else 2
  | 'g' => if hour12 time.hour < 10 then 1 else 2
  | 'l' => if time.dayOfWeek = 7 then 7 else 3
  | 'z' =>
    if time.month = 1 ∧ time.day ≤ 10 then 1
    else if time.month ≤ 3 ∨ time.month = 4 ∧ time.day ≤ 10 then 2 else 3
  | 'U' =>
    -- the seconds have nine digits until 2001-09-09 02:46:40
    if [time.year, time.month, time.day, time.hour, time.minute, time.second] <
      [2001, 9, 9, 2, 46, 40] then 9 else 10
  | _ => 1

/-- The text has at most 21 characters, and in December no name of the month. -/
def HasRoom (time : RTCDateTime) (format : List Char) : Prop :=
  (time.month = 12 → 'F' ∉ format ∧ 'M' ∉ format) ∧ (format.map (width time)).sum ≤ 21

section widths

theorem length_decimal_eq {value width : Nat} (hlow : width = 0 ∨ 10 ^ width ≤ value)
    (hhigh : value < 10 ^ (width + 1)) : (decimal value).length = width + 1 := by
  have hle := length_decimal_le value (Nat.succ_pos width) hhigh
  have hpos : 0 < (decimal value).length := Nat.length_toDigits_pos
  rcases Nat.eq_zero_or_pos width with rfl | hwidth
  · omega
  · by_contra hne
    have hshort : (decimal value).length ≤ width := by omega
    have hlt := (Nat.length_toDigits_le_iff (by decide) hwidth).mp hshort
    have hge := hlow.resolve_left (Nat.ne_of_gt hwidth)
    omega

/-- The days of the months before, as the table has them. -/
def daysBefore (month : Nat) : Nat := (daysArray.take (month - 1)).sum

def leapDay (year month : Nat) : Nat := if month = 2 ∧ isLeapYear year then 1 else 0

theorem mapM_daysArray {month : Nat} (hmonth : month ≤ 12) :
    (List.range' 1 (month - 1)).mapM (tableAt daysArray) = some (daysArray.take (month - 1)) := by
  have hall : ∀ month ≤ 12, (List.range' 1 (month - 1)).mapM (tableAt daysArray) =
      some (daysArray.take (month - 1)) := by decide
  exact hall month hmonth

theorem daysBefore_le {month : Nat} (hmonth : month ≤ 12) : daysBefore month ≤ 334 := by
  have hall : ∀ month ≤ 12, daysBefore month ≤ 334 := by decide
  exact hall month hmonth

theorem leapDay_le (year month : Nat) : leapDay year month ≤ 1 := by
  unfold leapDay
  split <;> simp

theorem date2days_eq {year month day : Nat} (hyear : 2000 ≤ year ∧ year ≤ 2099)
    (hmonth : month ≤ 12) (hday : 1 ≤ day ∧ day ≤ 31) :
    date2days year month day = some (day + daysBefore month + leapDay year month +
      365 * (year - 2000) + (year - 2000 + 3) / 4 - 1) := by
  have hyears : toUnsigned 16 ((year : Int) - 2000) = year - 2000 := by
    unfold toUnsigned
    omega
  have hleap : isLeapYear (year - 2000) = isLeapYear year := by
    unfold isLeapYear
    rw [show (year - 2000) % 4 = year % 4 by omega]
  have hbefore := daysBefore_le hmonth
  have hextra := leapDay_le year month
  unfold daysBefore at hbefore
  unfold leapDay at hextra
  unfold date2days daysBefore leapDay
  simp only [hyears, hleap, mapM_daysArray hmonth, Option.bind_eq_bind, Option.bind_some,
    Option.pure_def, Option.some.injEq]
  generalize (daysArray.take (month - 1)).sum = before at hbefore ⊢
  generalize (if month = 2 ∧ isLeapYear year = true then 1 else 0) = extra at hextra ⊢
  unfold toUnsigned
  omega

namespace ClockTime

variable (time : ClockTime)

theorem dayInYear_eq : dayInYear time.year time.month time.day =
    some (time.day + daysBefore time.month + leapDay time.year time.month - 1) := by
  have hday := time.toCalendarTime.day_le
  have hbefore := daysBefore_le time.month_range.2
  have hextra := leapDay_le time.year time.month
  have hfirst : date2days time.year 1 1 =
      some (1 + 0 + 0 + 365 * (time.year - 2000) + (time.year - 2000 + 3) / 4 - 1) :=
    date2days_eq time.year_range (by decide) (by decide)
  have hpositive := time.day_range.1
  have hyear := time.year_range
  unfold dayInYear
  rw [hfirst, date2days_eq time.year_range time.month_range.2 ⟨hpositive, hday⟩]
  simp only [Option.bind_eq_bind, Option.bind_some, Option.pure_def, Option.some.injEq]
  unfold toUnsigned
  omega

theorem unixtime_eq : unixtime time.rtc =
    some ((((time.day + daysBefore time.month + leapDay time.year time.month +
      365 * (time.year - 2000) + (time.year - 2000 + 3) / 4 - 1) * 24 + time.hour) * 60 +
        time.minute) * 60 + time.second + 946681200) := by
  have hday := time.toCalendarTime.day_le
  have hbefore := daysBefore_le time.month_range.2
  have hextra := leapDay_le time.year time.month
  have hpositive := time.day_range.1
  have hyear := time.year_range
  have hhour := time.hour_lt
  have hminute := time.minute_lt
  have hsecond := time.second_lt
  unfold unixtime
  simp only [rtc, date2days_eq time.year_range time.month_range.2 ⟨hpositive, hday⟩,
    Option.bind_eq_bind, Option.bind_some, Option.pure_def, Option.some.injEq]
  unfold toUnsigned
  omega

end ClockTime

theorem hour12_range {hour : Nat} (hhour : hour < 24) : 1 ≤ hour12 hour ∧ hour12 hour ≤ 12 := by
  unfold hour12
  split
  · omega
  · split <;> omega

theorem length_decimal_two {value : Nat} (hvalue : value < 100) :
    (decimal value).length = if value < 10 then 1 else 2 := by
  split
  · exact length_decimal_eq (.inl rfl) (by omega)
  · exact length_decimal_eq (.inr (by omega)) (by omega)

theorem length_strAmPm (hour : Nat) (uppercase : Bool) : (strAmPm hour uppercase).toList.length = 2 := by
  unfold strAmPm
  cases uppercase
  · split <;> rfl
  · split <;> rfl

theorem length_strDaySufix (day : Nat) : (strDaySufix day).toList.length = 2 := by
  unfold strDaySufix
  split
  · rfl
  · split
    · rfl
    · split <;> rfl

theorem length_strMonth {month : Nat} {name : List Char} (hname : strMonth month = some name)
    (hmonth : 1 ≤ month ∧ month ≤ 12) : name.length = 3 := by
  have hall : ∀ month ≤ 12, (strMonth month).all (fun name => name.length = 3) = true := by decide
  have hthree := hall month hmonth.2
  rw [hname] at hthree
  simpa using hthree

theorem length_strDayOfWeek {day : Nat} {name : List Char} (hname : strDayOfWeek day = some name)
    (hday : 1 ≤ day ∧ day ≤ 7) : name.length = if day = 7 then 7 else 3 := by
  have hall : ∀ day ≤ 7, (strDayOfWeek day).all
      (fun name => name.length = if day = 7 then 7 else 3) = true := by decide
  have hlength := hall day hday.2
  rw [hname] at hlength
  simpa using hlength

theorem length_isLeapYear (year : Nat) : (decimal (isLeapYear year).toNat).length = 1 := by
  cases isLeapYear year <;> rfl

namespace ClockTime

variable (time : ClockTime)

theorem length_dayInYear {text : List Char}
    (htext : (dayInYear time.year time.month time.day).map decimal = some text) :
    text.length = if time.month = 1 ∧ time.day ≤ 10 then 1
      else if time.month ≤ 3 ∨ time.month = 4 ∧ time.day ≤ 10 then 2 else 3 := by
  rw [dayInYear_eq, Option.map_some, Option.some.injEq] at htext
  subst htext
  have hday := time.day_range
  have hlast := time.toCalendarTime.day_le
  have hextra := leapDay_le time.year time.month
  have hbefore : daysBefore 1 = 0 ∧ ∀ month ≤ 12, (2 ≤ month → 31 ≤ daysBefore month) ∧
      (month ≤ 3 → daysBefore month ≤ 59) ∧ (month = 4 → daysBefore month = 90) ∧
      (5 ≤ month → 100 ≤ daysBefore month) ∧ daysBefore month ≤ 334 := by decide
  obtain ⟨hlong, hquarter, hapril, hlate, hmax⟩ := hbefore.2 time.month time.month_range.2
  have hnoLeap : time.month ≠ 2 → leapDay time.year time.month = 0 := fun hmonth =>
    if_neg fun h => hmonth h.1
  have hmonths := time.month_range
  split
  · rename_i hfirst
    have hjanuary := hbefore.1
    rw [← hfirst.1] at hjanuary
    exact length_decimal_eq (.inl rfl) (by omega)
  · split
    · refine length_decimal_eq (.inr ?_) ?_
      · by_cases hmonth : time.month = 1 <;> omega
      · by_cases hmonth : time.month = 4 <;> omega
    · refine length_decimal_eq (.inr ?_) ?_
      · by_cases hmonth : time.month = 4 <;> omega
      · omega

theorem length_daysInMonth {text : List Char}
    (htext : (daysInMonth time.year time.month).map decimal = some text) : text.length = 2 := by
  have hall : ∀ month ≤ 12, (tableAt daysArray month).all
      (fun days => 28 ≤ days ∧ days ≤ 31) = true := by decide
  obtain ⟨days, hdays, rfl⟩ := Option.map_eq_some_iff.mp htext
  obtain ⟨table, htable, hresult⟩ := Option.bind_eq_some_iff.mp hdays
  have hrange := hall time.month time.month_range.2
  rw [htable] at hrange
  have hdays' : 28 ≤ table ∧ table ≤ 31 := by simpa using hrange
  have hlast : days = table ∨ days = table + 1 := by
    split at hresult <;> cases hresult <;> simp
  exact length_decimal_eq (.inr (by omega)) (by omega)

theorem length_unixtime {text : List Char} (htext : (unixtime time.rtc).map decimal = some text) :
    text.length = if [time.year, time.month, time.day, time.hour, time.minute, time.second] <
      [2001, 9, 9, 2, 46, 40] then 9 else 10 := by
  rw [unixtime_eq, Option.map_some, Option.some.injEq] at htext
  subst htext
  have hyear := time.year_range
  have hmonths := time.month_range
  have hday := time.day_range
  have hlast := time.toCalendarTime.day_le
  have hhour := time.hour_lt
  have hminute := time.minute_lt
  have hsecond := time.second_lt
  have hextra := leapDay_le time.year time.month
  have hbefore : ∀ month ≤ 12, (month ≤ 8 → daysBefore month ≤ 212) ∧
      (month = 9 → daysBefore month = 243) ∧ (10 ≤ month → 273 ≤ daysBefore month) ∧
      daysBefore month ≤ 334 := by decide
  obtain ⟨hsummer, hseptember, hautumn, hmax⟩ := hbefore time.month hmonths.2
  have hnoLeap : time.year = 2001 → leapDay time.year time.month = 0 := by
    intro hyear
    rw [hyear]
    exact if_neg fun h => absurd h.2 (by decide)
  simp only [List.cons_lt_cons_iff, List.not_lt_nil, and_false, or_false]
  split
  · refine length_decimal_eq (.inr ?_) ?_ <;> omega
  · refine length_decimal_eq (.inr ?_) ?_ <;> omega

theorem length_decoder {letter : Char} {text : List Char}
    (htext : decoder time.rtc letter = some text) : text.length = width time.rtc letter := by
  have hyear := time.year_range
  have hmonths := time.month_range
  have hday := time.day_range
  have hlast := time.toCalendarTime.day_le
  have hweek := time.dayOfWeek_range
  have hhour := time.hour_lt
  have hhour12 := hour12_range time.hour_lt
  have hminute := time.minute_lt
  have hsecond := time.second_lt
  have hshort : toUnsigned 16 ((time.year : Int) - 2000) < 100 := by
    unfold toUnsigned
    omega
  unfold decoder at htext
  split at htext
  · exact Option.some.inj htext ▸ length_decimal02 (by simp only [rtc]; omega)
  · exact Option.some.inj htext ▸ length_decimal_two (by simp only [rtc]; omega)
  · exact length_strDayOfWeek htext hweek
  · obtain ⟨name, hname, rfl⟩ := Option.map_eq_some_iff.mp htext
    have hlength := length_strDayOfWeek hname hweek
    rw [List.length_take, hlength]
    show min 3 _ = 3
    split <;> rfl
  · have hlength := @length_decimal_two time.dayOfWeek (by omega)
    rw [if_pos (by omega)] at hlength
    exact Option.some.inj htext ▸ hlength
  · have hlength := @length_decimal_two ((time.dayOfWeek + 7) % 7) (by omega)
    rw [if_pos (by omega)] at hlength
    exact Option.some.inj htext ▸ hlength
  · exact time.length_dayInYear htext
  · exact Option.some.inj htext ▸ length_strDaySufix time.day
  · exact Option.some.inj htext ▸ length_decimal02 (by simp only [rtc]; omega)
  · exact Option.some.inj htext ▸ length_decimal_two (by simp only [rtc]; omega)
  · exact length_strMonth htext hmonths
  · obtain ⟨name, hname, rfl⟩ := Option.map_eq_some_iff.mp htext
    rw [List.length_take, length_strMonth hname hmonths]
    rfl
  · exact time.length_daysInMonth htext
  · exact Option.some.inj htext ▸ @length_decimal_eq time.year 3 (.inr (by omega)) (by omega)
  · exact Option.some.inj htext ▸ length_decimal02 hshort
  · exact Option.some.inj htext ▸ length_isLeapYear time.year
  · exact Option.some.inj htext ▸ length_decimal02 (by simp only [rtc]; omega)
  · exact Option.some.inj htext ▸ length_decimal_two (by simp only [rtc]; omega)
  · exact Option.some.inj htext ▸ length_decimal02 (by simp only [rtc]; omega)
  · exact Option.some.inj htext ▸ length_decimal_two (by simp only [rtc]; omega)
  · exact Option.some.inj htext ▸ length_strAmPm time.hour true
  · exact Option.some.inj htext ▸ length_strAmPm time.hour false
  · exact Option.some.inj htext ▸ length_decimal02 (by simp only [rtc]; omega)
  · exact Option.some.inj htext ▸ length_decimal02 (by simp only [rtc]; omega)
  · exact time.length_unixtime htext
  · rw [← Option.some.inj htext]
    unfold width
    split <;> first | rfl | simp_all

theorem daysInMonth_ne_none : daysInMonth time.year time.month ≠ none := by
  have hall : ∀ month ≤ 12, 1 ≤ month → tableAt daysArray month ≠ none := by decide
  obtain ⟨days, hdays⟩ := Option.ne_none_iff_exists'.mp
    (hall time.month time.month_range.2 time.month_range.1)
  unfold daysInMonth
  rw [hdays]
  nofun

theorem decoder_eq_none_iff (letter : Char) : decoder time.rtc letter = none ↔
    time.month = 12 ∧ (letter = 'F' ∨ letter = 'M') := by
  have hmonth : strMonth time.rtc.month = none ↔ time.month = 12 := by
    have hall : ∀ month ≤ 12, strMonth month = none ↔ month = 12 := by decide
    exact hall time.month time.month_range.2
  have hday : strDayOfWeek time.rtc.dayOfWeek ≠ none := by
    have hall : ∀ day ≤ 7, strDayOfWeek day ≠ none := by decide
    exact hall time.dayOfWeek time.dayOfWeek_range.2
  have hlength : daysInMonth time.rtc.year time.rtc.month ≠ none := time.daysInMonth_ne_none
  have hpast : dayInYear time.rtc.year time.rtc.month time.rtc.day ≠ none := by
    rw [rtc, time.dayInYear_eq]
    nofun
  have hseconds : unixtime time.rtc ≠ none := by
    rw [time.unixtime_eq]
    nofun
  unfold decoder
  split <;> simp_all

end ClockTime

theorem nul_not_mem_decimal (value : Nat) : nul ∉ decimal value := fun hmem =>
  absurd (Nat.isDigit_of_mem_toDigits (by decide) (by decide) hmem) (by decide)

theorem nul_not_mem_decimal02 (value : Nat) : nul ∉ decimal02 value := fun hmem =>
  absurd (isDigit_of_mem_decimal02 hmem) (by decide)

theorem nul_not_mem_strMonth {month : Nat} {name : List Char} (hname : strMonth month = some name) :
    nul ∉ name := by
  have hall : ∀ name ∈ A1.Clock.monthShort, nul ∉ name.toList := by decide
  unfold strMonth at hname
  split at hname
  · obtain ⟨text, hget, rfl⟩ := Option.map_eq_some_iff.mp hname
    exact hall text (List.mem_of_getElem? hget)
  · exact Option.some.inj hname ▸ (by decide : nul ∉ unknown.toList)

theorem nul_not_mem_strDayOfWeek {day : Nat} {name : List Char}
    (hname : strDayOfWeek day = some name) : nul ∉ name := by
  have hall : ∀ name ∈ A1.Clock.daysShort, nul ∉ name.toList := by decide
  unfold strDayOfWeek at hname
  split at hname
  · obtain ⟨text, hget, rfl⟩ := Option.map_eq_some_iff.mp hname
    exact hall text (List.mem_of_getElem? hget)
  · exact Option.some.inj hname ▸ (by decide : nul ∉ unknown.toList)

theorem nul_not_mem_strAmPm (hour : Nat) (uppercase : Bool) :
    nul ∉ (strAmPm hour uppercase).toList := by
  unfold strAmPm
  cases uppercase
  · split <;> decide
  · split <;> decide

theorem nul_not_mem_strDaySufix (day : Nat) : nul ∉ (strDaySufix day).toList := by
  unfold strDaySufix
  split
  · decide
  · split
    · decide
    · split <;> decide

theorem nul_not_mem_decoder {time : RTCDateTime} {letter : Char} {text : List Char}
    (hletter : letter ≠ nul) (htext : decoder time letter = some text) : nul ∉ text := by
  have htake {name : List Char} (hname : nul ∉ name) : nul ∉ name.take 3 :=
    fun hmem => hname (List.mem_of_mem_take hmem)
  unfold decoder at htext
  split at htext <;>
    grind [Option.map_eq_some_iff, nul_not_mem_decimal, nul_not_mem_decimal02, nul_not_mem_strMonth,
      nul_not_mem_strDayOfWeek, nul_not_mem_strAmPm, nul_not_mem_strDaySufix]

end widths

section bounds

variable (beyond : List Char) (time : ClockTime)

theorem width_le (time : RTCDateTime) (letter : Char) : width time letter ≤ 10 := by
  unfold width
  split <;> first | decide | (split <;> first | decide | (split <;> decide))

theorem tableAccesses_inside_iff (letter : Char) :
    Inside Buffer.size (tableAccesses time.rtc letter) ↔ decoder time.rtc letter ≠ none := by
  have hsize : Buffer.size .monthShort = 12 := rfl
  have hmonths : 1 ≤ time.rtc.month ∧ time.rtc.month ≤ 12 := time.month_range
  have hmonth : time.month = time.rtc.month := rfl
  rw [ne_eq, time.decoder_eq_none_iff, hmonth]
  unfold tableAccesses
  split
  · refine iff_of_true ?_ (by simp)
    split
    · rename_i hday
      exact inside_cons.mpr ⟨Nat.lt_succ_of_le hday, inside_nil⟩
    · exact inside_nil
  · refine iff_of_true ?_ (by simp)
    split
    · rename_i hday
      exact inside_cons.mpr ⟨Nat.lt_succ_of_le hday, inside_nil⟩
    · exact inside_nil
  · rw [if_pos hmonths.2, inside_cons, and_iff_left inside_nil, hsize]
    simp only [true_or, and_true]
    omega
  · rw [if_pos hmonths.2, inside_cons, and_iff_left inside_nil, hsize]
    simp only [or_true, and_true]
    omega
  · refine iff_of_true (inside_cons.mpr ⟨?_, inside_nil⟩) (by simp)
    split
    · decide
    · split
      · decide
      · split <;> decide
  · refine iff_of_true (inside_cons.mpr ⟨?_, inside_nil⟩) (by simp)
    split <;> decide
  · refine iff_of_true (inside_cons.mpr ⟨?_, inside_nil⟩) (by simp)
    split <;> decide
  · refine iff_of_true inside_nil ?_
    rintro ⟨-, rfl | rfl⟩ <;> simp_all

variable {letter : Char}

theorem length_letterText (hletter : decoder time.rtc letter ≠ none) :
    (letterText beyond time.rtc letter).length = width time.rtc letter := by
  obtain ⟨text, htext⟩ := Option.ne_none_iff_exists'.mp hletter
  rw [letterText, htext]
  exact time.length_decoder htext

theorem letterAccesses_inside_iff : Inside Buffer.size (letterAccesses beyond time.rtc letter) ↔
    decoder time.rtc letter ≠ none := by
  rw [letterAccesses, inside_append, tableAccesses_inside_iff]
  refine and_iff_left_of_imp fun hletter => ?_
  have hhelper : Buffer.size .helper = 11 := rfl
  split
  · rw [inside_span, hhelper, length_letterText beyond time hletter]
    have hwidth := width_le time.rtc letter
    omega
  · exact inside_nil

theorem decoder_of_formatAccesses {format : List Char} {written : Nat}
    (hinside : Inside Buffer.size (formatAccesses beyond time.rtc format written)) :
    ∀ letter ∈ format, decoder time.rtc letter ≠ none := by
  induction format generalizing written with
  | nil => simp
  | cons letter format ih =>
    rw [formatAccesses, inside_append, inside_append, letterAccesses_inside_iff] at hinside
    exact List.forall_mem_cons.mpr ⟨hinside.1.1, ih hinside.2⟩

theorem formatAccesses_inside {format : List Char} {written : Nat}
    (hformat : ∀ letter ∈ format, decoder time.rtc letter ≠ none)
    (hroom : written + (format.map (width time.rtc)).sum < bufferSize) :
    Inside Buffer.size (formatAccesses beyond time.rtc format written) := by
  induction format generalizing written with
  | nil => exact inside_nil
  | cons letter format ih =>
    obtain ⟨hletter, hformat⟩ := List.forall_mem_cons.mp hformat
    rw [List.map_cons, List.sum_cons] at hroom
    have hbuffer : Buffer.size .buffer = bufferSize := rfl
    rw [formatAccesses, inside_append, inside_append, letterAccesses_inside_iff, inside_span,
      hbuffer, length_letterText beyond time hletter]
    exact ⟨⟨hletter, .inr (by omega)⟩, ih hformat (by omega)⟩

theorem length_expansion {format : List Char}
    (hformat : ∀ letter ∈ format, decoder time.rtc letter ≠ none) :
    (expansion beyond time.rtc format).length = (format.map (width time.rtc)).sum := by
  rw [expansion, List.length_flatMap]
  congr 1
  exact List.map_congr_left fun letter hletter =>
    length_letterText beyond time (hformat letter hletter)

theorem nul_not_mem_expansion {format : List Char} (hnul : nul ∉ format)
    (hformat : ∀ letter ∈ format, decoder time.rtc letter ≠ none) :
    ∀ c ∈ expansion beyond time.rtc format, c ≠ nul := by
  rintro c hc rfl
  obtain ⟨letter, hletter, hmem⟩ := List.mem_flatMap.mp hc
  obtain ⟨text, htext⟩ := Option.ne_none_iff_exists'.mp (hformat letter hletter)
  rw [letterText, htext] at hmem
  exact nul_not_mem_decoder (ne_of_mem_of_not_mem hletter hnul) htext hmem

theorem decoder_ne_none_iff (format : List Char) :
    (∀ letter ∈ format, decoder time.rtc letter ≠ none) ↔
      (time.rtc.month = 12 → 'F' ∉ format ∧ 'M' ∉ format) := by
  simp only [ne_eq, time.decoder_eq_none_iff]
  constructor
  · intro hformat hmonth
    exact ⟨fun hmem => hformat 'F' hmem ⟨hmonth, .inl rfl⟩,
      fun hmem => hformat 'M' hmem ⟨hmonth, .inr rfl⟩⟩
  · rintro hdecember letter hletter ⟨hmonth, rfl | rfl⟩
    · exact (hdecember hmonth).1 hletter
    · exact (hdecember hmonth).2 hletter

theorem onResultAccesses_inside_iff (id : RequestId) (result : List Char) :
    Inside Buffer.size (onResultAccesses id result) ↔ (cString result).length ≤ 21 := by
  have hbuffer : Buffer.size .messageBuffer = responseResultBufferSize := rfl
  rw [onResultAccesses, inside_append, inside_span, inside_span, hbuffer,
    ← fits_resultText_iff id result, Fits]
  omega

/-- All buffers hold exactly where the widths of the letters leave room. -/
theorem replyAccesses_inside_iff (id : RequestId) (format : Format) :
    Inside Buffer.size (replyAccesses beyond time.rtc id format.text) ↔
      HasRoom time.rtc format.text := by
  have hfirst : (0 : Nat) < Buffer.size .buffer := by decide
  rw [replyAccesses, dateFormatAccesses, inside_append, inside_cons, onResultAccesses_inside_iff,
    HasRoom, ← decoder_ne_none_iff]
  constructor
  · rintro ⟨⟨-, hinside⟩, hresult⟩
    have hformat := decoder_of_formatAccesses beyond time hinside
    rw [cString_of_no_nul (nul_not_mem_expansion beyond time format.no_nul hformat),
      length_expansion beyond time hformat] at hresult
    exact ⟨hformat, hresult⟩
  · rintro ⟨hformat, hwidth⟩
    refine ⟨⟨hfirst, formatAccesses_inside beyond time hformat ?_⟩, ?_⟩
    · unfold bufferSize
      omega
    · rwa [cString_of_no_nul (nul_not_mem_expansion beyond time format.no_nul hformat),
        length_expansion beyond time hformat]

/-- The first of December 2025, a Monday. -/
def december : ClockTime where
  year := 2025
  month := 12
  day := 1
  hour := 10
  minute := 20
  second := 40
  dayOfWeek := 1
  year_range := by decide
  month_range := by decide
  day_range := by decide
  hour_lt := by decide
  minute_lt := by decide
  second_lt := by decide
  dayOfWeek_range := by decide

/-- A format of the documentation, and one of 24 characters that fit no reply. -/
def documented : Format := ⟨"d F Y H:i:s".toList, by decide, by decide, by decide⟩

def weekday : Format := ⟨"D, d-m-Y H:i:s".toList, by decide, by decide, by decide⟩

theorem not_replyAccesses_inside_december :
    (∀ beyond id, ¬ Inside Buffer.size (replyAccesses beyond december.rtc id documented.text)) ∧
      ¬ Inside Buffer.size (replyAccesses [] december.rtc 1 weekday.text) ∧
      handle ("#0C:0001:d F Y H:i:s\n".toList.rightpad maxCommandSize nul) =
        .ok .onGetCurrentTime 1 ("d F Y H:i:s\n".toList.rightpad maxInputSize nul) := by
  refine ⟨fun beyond id hinside => ?_, by decide +kernel, by decide +kernel⟩
  have hread : ⟨.monthShort, 12⟩ ∈ replyAccesses beyond december.rtc id documented.text := by
    refine List.mem_append_left _ (List.mem_cons_of_mem _ ?_)
    rw [show documented.text = ['d', ' '] ++ 'F' :: " Y H:i:s".toList by decide]
    simp [formatAccesses, letterAccesses, tableAccesses, december, ClockTime.rtc]
  exact absurd (hinside _ hread) (by decide)

end bounds

end VacuumCleaner.Link.DateReply
