import VacuumCleaner.A1.Instructions

/-! The clock chip DS3231 on A1's bus: its registers, written and read in BCD,
and the interpreter of date formats. -/
namespace VacuumCleaner.A1.Clock

open Fields

/-- The chip's registers by address; nothing runs while A1 talks to it. -/
abbrev Registers := Nat → UInt8

def ds3231RegTime : Nat := 0x00

/-- The bytes of one transmission; the chip counts the address up. -/
def write (address : Nat) : List UInt8 → Registers → Registers
  | [], registers => registers
  | byte :: bytes, registers => write (address + 1) bytes (Function.update registers address byte)

/-- The tables are indexed by the month less one; what lies behind them is not
known. -/
def tableAt (table : List Nat) (month : Nat) : Option Nat :=
  if month = 0 then none else table[month - 1]?

def daysArray : List Nat := [31, 28, 31, 30, 31, 30, 31, 31, 30, 31, 30, 31]
def dowArray : List Nat := [0, 3, 2, 5, 0, 3, 5, 1, 4, 6, 2, 4]

def dec2bcd (dec : Nat) : UInt8 := UInt8.ofNat (dec / 10 * 16 + dec % 10)

def bcd2dec (bcd : UInt8) : Nat := (bcd.toNat / 16 * 10 + bcd.toNat % 16) % 2 ^ 8

/-- In unsigned arithmetic of 16 bits; `behind` is the byte that the flash holds
where the month is in no table. -/
def dow (behind year month day : Nat) : Nat :=
  let year := toUnsigned 16 ((year : Int) - if month < 3 then 1 else 0)
  let sum := toUnsigned 16 ((year : Int) + (year / 4 : Nat) - (year / 100 : Nat) +
    (year / 400 : Nat) + ((tableAt dowArray month).getD behind : Nat) + day)
  if sum % 7 = 0 then 7 else sum % 7

/-- The last byte lands in the register behind the year. -/
def setDateTime (behind : Nat) (time : DateTime) (registers : Registers) : Registers :=
  write ds3231RegTime
    [dec2bcd time.second, dec2bcd time.minute, dec2bcd time.hour,
      dec2bcd (dow behind time.year time.month time.day), dec2bcd time.day, dec2bcd time.month,
      dec2bcd (toUnsigned 8 ((time.year : Int) - 2000)), UInt8.ofNat ds3231RegTime] registers

structure RTCDateTime where
  year : Nat
  month : Nat
  day : Nat
  hour : Nat
  minute : Nat
  second : Nat
  dayOfWeek : Nat
  deriving DecidableEq, Repr

def getDateTime (registers : Registers) : RTCDateTime where
  year := bcd2dec (registers (ds3231RegTime + 6)) + 2000
  month := bcd2dec (registers (ds3231RegTime + 5))
  day := bcd2dec (registers (ds3231RegTime + 4))
  dayOfWeek := bcd2dec (registers (ds3231RegTime + 3))
  hour := bcd2dec (registers (ds3231RegTime + 2))
  minute := bcd2dec (registers (ds3231RegTime + 1))
  second := bcd2dec (registers ds3231RegTime)

def daysShort : List String := ["Mon", "Tue", "Wed", "Thu", "Fri", "Sat", "Sun"]

def monthShort : List String :=
  ["Jan", "Feb", "Mar", "Apr", "May", "Jun", "Jul", "Aug", "Sep", "Oct", "Nov", "Dec"]

def unknown : String := "Unknown"

def strDayOfWeek (dayOfWeek : Nat) : Option (List Char) :=
  if dayOfWeek ≤ 6 then daysShort[dayOfWeek]?.map String.toList else some unknown.toList

/-- December is looked up behind the table. -/
def strMonth (month : Nat) : Option (List Char) :=
  if month ≤ 12 then monthShort[month]?.map String.toList else some unknown.toList

def strAmPm (hour : Nat) (uppercase : Bool) : String :=
  if hour < 12 then if uppercase then "AM" else "am" else if uppercase then "PM" else "pm"

def strDaySufix (day : Nat) : String :=
  if day % 10 = 1 then "st" else if day % 10 = 2 then "nd" else if day % 10 = 3 then "rd" else "th"

def hour12 (hour24 : Nat) : Nat :=
  if hour24 = 0 then 12 else if hour24 > 12 then hour24 - 12 else hour24

def isLeapYear (year : Nat) : Bool := year % 4 == 0

def daysInMonth (year month : Nat) : Option Nat := do
  let days ← tableAt daysArray month
  return if month = 2 ∧ isLeapYear year then days + 1 else days

/-- The days of the months before, and one more in the February of a leap year. -/
def date2days (year month day : Nat) : Option Nat := do
  let year := toUnsigned 16 ((year : Int) - 2000)
  let before ← (List.range' 1 (month - 1)).mapM (tableAt daysArray)
  let days := day + before.sum + if month = 2 ∧ isLeapYear year then 1 else 0
  return toUnsigned 16 ((days : Int) + 365 * year + ((year + 3) / 4 : Nat) - 1)

def dayInYear (year month day : Nat) : Option Nat := do
  let fromDate ← date2days year 1 1
  let toDate ← date2days year month day
  return toUnsigned 16 ((toDate : Int) - fromDate)

def unixtime (time : RTCDateTime) : Option Nat := do
  let days ← date2days time.year time.month time.day
  return toUnsigned 32
    (((((days : Int) * 24 + time.hour) * 60 + time.minute) * 60 + time.second) + 946681200)

/-- `%d`. -/
def decimal (value : Nat) : List Char := Nat.toDigits 10 value

/-- `%02d`. -/
def decimal02 (value : Nat) : List Char := (decimal value).leftpad 2 '0'

/-- What one character of a format stands for: none where a table is left. -/
def decoder (time : RTCDateTime) : Char → Option (List Char)
  | 'd' => some (decimal02 time.day)
  | 'j' => some (decimal time.day)
  | 'l' => strDayOfWeek time.dayOfWeek
  | 'D' => (strDayOfWeek time.dayOfWeek).map (List.take 3)
  | 'N' => some (decimal time.dayOfWeek)
  | 'w' => some (decimal ((time.dayOfWeek + 7) % 7))
  | 'z' => (dayInYear time.year time.month time.day).map decimal
  | 'S' => some (strDaySufix time.day).toList
  | 'm' => some (decimal02 time.month)
  | 'n' => some (decimal time.month)
  | 'F' => strMonth time.month
  | 'M' => (strMonth time.month).map (List.take 3)
  | 't' => (daysInMonth time.year time.month).map decimal
  | 'Y' => some (decimal time.year)
  | 'y' => some (decimal02 (toUnsigned 16 ((time.year : Int) - 2000)))
  | 'L' => some (decimal (isLeapYear time.year).toNat)
  | 'H' => some (decimal02 time.hour)
  | 'G' => some (decimal time.hour)
  | 'h' => some (decimal02 (hour12 time.hour))
  | 'g' => some (decimal (hour12 time.hour))
  | 'A' => some (strAmPm time.hour true).toList
  | 'a' => some (strAmPm time.hour false).toList
  | 'i' => some (decimal02 time.minute)
  | 's' => some (decimal02 time.second)
  | 'U' => (unixtime time).map decimal
  | other => some [other]

def bufferSize : Nat := 255

/-- The static buffer must also hold the terminator. -/
def dateFormat (format : List Char) (time : RTCDateTime) : Option (List Char) := do
  let texts ← format.mapM (decoder time)
  if texts.flatten.length < bufferSize then some texts.flatten else none

theorem bcd2dec_dec2bcd {value : Nat} (hvalue : value < 100) : bcd2dec (dec2bcd value) = value := by
  have hall : ∀ value < 100, bcd2dec (dec2bcd value) = value := by decide
  exact hall value hvalue

theorem bcd2dec_lt (bcd : UInt8) : bcd2dec bcd < 1000 := by
  unfold bcd2dec
  omega

theorem getDateTime_setDateTime (behind : Nat) {time : DateTime} (registers : Registers)
    (hyear : 2000 ≤ time.year ∧ time.year < 2100) (hmonth : time.month < 100)
    (hday : time.day < 100) (hhour : time.hour < 100) (hminute : time.minute < 100)
    (hsecond : time.second < 100) :
    getDateTime (setDateTime behind time registers) =
      ⟨time.year, time.month, time.day, time.hour, time.minute, time.second,
        bcd2dec (dec2bcd (dow behind time.year time.month time.day))⟩ := by
  have hshort : toUnsigned 8 ((time.year : Int) - 2000) = time.year - 2000 := by
    unfold toUnsigned
    omega
  have hread := bcd2dec_dec2bcd (show time.year - 2000 < 100 by omega)
  simp only [getDateTime, setDateTime, ds3231RegTime, write, Function.update_apply, hshort,
    RTCDateTime.mk.injEq]
  simp only [Nat.reduceAdd, Nat.reduceEqDiff, if_true, if_false, hread, bcd2dec_dec2bcd hmonth,
    bcd2dec_dec2bcd hday, bcd2dec_dec2bcd hhour, bcd2dec_dec2bcd hminute, bcd2dec_dec2bcd hsecond,
    and_true]
  omega

theorem isDigit_of_mem_decimal02 {value : Nat} {c : Char} (hc : c ∈ decimal02 value) :
    c.isDigit = true := by
  unfold decimal02 List.leftpad at hc
  rcases List.mem_append.mp hc with hc | hc
  · rw [List.eq_of_mem_replicate hc]
    rfl
  · exact Nat.isDigit_of_mem_toDigits (by decide) (by decide) hc

theorem length_decimal_le (value : Nat) {width : Nat} (hwidth : 0 < width)
    (hvalue : value < 10 ^ width) :
    (decimal value).length ≤ width :=
  (Nat.length_toDigits_le_iff (by decide) hwidth).mpr hvalue

theorem length_decimal02 {value : Nat} (hvalue : value < 100) : (decimal02 value).length = 2 := by
  have hlength := length_decimal_le value (show 0 < 2 by decide) hvalue
  unfold decimal02
  rw [List.length_leftpad]
  omega

theorem length_decimal02_le {value : Nat} (hvalue : value < 1000) :
    (decimal02 value).length ≤ 3 := by
  have hlength := length_decimal_le value (show 0 < 3 by decide) hvalue
  unfold decimal02
  rw [List.length_leftpad]
  omega

end VacuumCleaner.A1.Clock
