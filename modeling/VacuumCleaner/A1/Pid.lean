import VacuumCleaner.A1.Fields
import VacuumCleaner.A1.Wheels
import VacuumCleaner.Lib.Numeral

/-! The PID gains of the wheels: three decimal numerals, read like the other
fields but with a buffer of six characters. -/
namespace VacuumCleaner.A1

open Lib.CText Lib.Numeral InstructionHandler Fields

def maxValueFloatSize : Nat := 6

/-- The field is searched for with the bounds of the integer fields; the buffer
is longer than any field found so, and is always terminated. -/
def fetchFloatNumber (input : List Char) (group : Nat) : Option Scanned :=
  match startIndex input group with
  | none => none
  | some start =>
    match endIndex input start with
    | none => none
    | some stop =>
      let buffer := strncpy maxValueFloatSize (stop - start) (input.drop start)
      let (result, error) := strtod (cString buffer)
      if error = [] then some result else none

structure Gains (F : Type) where
  kp : F
  ki : F
  kd : F
  deriving DecidableEq, Repr

/-- The gains of the left and the right wheel. -/
structure PidSettings (F : Type) where
  wheelLeft : Gains F
  wheelRight : Gains F
  deriving DecidableEq, Repr

variable {F : Type} (toFloat : Scanned → F)

/-- `toFloat` is the conversion of a scanned number to the device's `float`. -/
def onSetPidSettings (id : RequestId) (input : List Char) (settings : PidSettings F) :
    PidSettings F × Reply :=
  match fetchFloatNumber input 0, fetchFloatNumber input 1, fetchFloatNumber input 2 with
  | some p, some i, some d =>
    let gains := ⟨toFloat p, toFloat i, toFloat d⟩
    (⟨gains, gains⟩, .finished id)
  | _, _, _ => (settings, .failed id 0x1)

theorem fetchFloatNumber_field {input field rest : List Char} {terminator : Char} {start group : Nat}
    (hstart : startIndex input group = some start)
    (hdrop : input.drop start = field ++ terminator :: rest)
    (hfield : ∀ c ∈ field, isFieldEnd c = false ∧ c ≠ nul)
    (hterminator : isFieldEnd terminator = true) :
    fetchFloatNumber input group =
      if field.length ≤ maxValueSize then
        if (strtod field).2 = [] then some (strtod field).1 else none
      else none := by
  have hend := endIndex_field hdrop (fun c hc => (hfield c hc).1) hterminator
  have htext := cString_strncpy_append maxValueFloatSize (terminator :: rest)
    fun c hc => (hfield c hc).2
  unfold fetchFloatNumber
  by_cases hlength : field.length ≤ maxValueSize
  · rw [if_pos hlength] at hend ⊢
    simp only [hstart, hend, Nat.add_sub_cancel_left, hdrop, htext]
  · rw [if_neg hlength] at hend ⊢
    simp only [hstart, hend]

/-- A numeral of the core, with the number it denotes. -/
structure Denotes (numeral : List Char) (value : ℚ) : Prop where
  chars : ∀ c ∈ numeral, c ∈ Decimal.numeralChars
  length : numeral.length ≤ 24
  read : numeral.length ≤ maxValueSize → strtod numeral = (.number value, [])

theorem denotes_repr (x : Decimal) : Denotes x.repr x.value where
  chars _ := Decimal.mem_numeralChars_of_mem_repr
  length := x.length_repr_le
  read hlength := Decimal.strtod_repr (Decimal.isPositional_of_length_le hlength)

theorem denotes_zero : Denotes ['0'] 0 where
  chars := by simp [Decimal.numeralChars]
  length := by decide
  read _ := by decide +kernel

theorem Denotes.no_end {numeral : List Char} {value : ℚ} (hnumeral : Denotes numeral value)
    {c : Char} (hc : c ∈ numeral) : isFieldEnd c = false ∧ c ≠ nul := by
  have hchars : ∀ c ∈ Decimal.numeralChars, isFieldEnd c = false ∧ c ≠ nul := by
    simp [Decimal.numeralChars, isFieldEnd, separator, nul]
  exact hchars c (hnumeral.chars c hc)

theorem Denotes.no_separator {numeral : List Char} {value : ℚ} (hnumeral : Denotes numeral value) :
    separator ∉ numeral := by
  intro hmem
  exact absurd (hnumeral.chars _ hmem) (by decide)

theorem Denotes.fetch {input numeral rest : List Char} {value : ℚ} {terminator : Char}
    {start group : Nat} (hnumeral : Denotes numeral value)
    (hstart : startIndex input group = some start)
    (hdrop : input.drop start = numeral ++ terminator :: rest)
    (hterminator : isFieldEnd terminator = true) :
    fetchFloatNumber input group =
      if numeral.length ≤ maxValueSize then some (.number value) else none := by
  rw [fetchFloatNumber_field hstart hdrop (fun c => hnumeral.no_end) hterminator]
  split
  · rename_i hlength
    rw [hnumeral.read hlength]
    rfl
  · rfl

section

variable {p i d : List Char} (rest : List Char) {vp vi vd : ℚ}

/-- The text that the core sends as parameters, behind its line ending. -/
def pidInput (p i d rest : List Char) : List Char :=
  p ++ separator :: (i ++ separator :: (d ++ '\r' :: rest))

theorem drop_pidInput (p i d rest : List Char) :
    (pidInput p i d rest).drop (p.length + 1) = i ++ separator :: (d ++ '\r' :: rest) ∧
      (pidInput p i d rest).drop (p.length + 1 + (i.length + 1)) = d ++ '\r' :: rest := by
  have hsecond : (pidInput p i d rest).drop (p.length + 1) =
      i ++ separator :: (d ++ '\r' :: rest) := by
    simp [pidInput, List.drop_append]
  refine ⟨hsecond, ?_⟩
  rw [← List.drop_drop, hsecond]
  simp [List.drop_append]

theorem startIndex_pidInput (d : List Char) (hp : Denotes p vp) (hi : Denotes i vi) :
    startIndex (pidInput p i d rest) 1 = some (p.length + 1) ∧
      startIndex (pidInput p i d rest) 2 = some (p.length + 1 + (i.length + 1)) := by
  have hfirst : (pidInput p i d rest).drop 0 =
      p ++ separator :: (i ++ separator :: (d ++ '\r' :: rest)) := rfl
  have hsecond := (drop_pidInput p i d rest).1
  have hpLength := hp.length
  have hiLength := hi.length
  constructor
  · rw [startIndex, if_pos (by decide),
      startLoop_field hfirst hp.no_separator (by decide) (by omega)]
    simp
  · rw [startIndex, if_pos (by decide),
      startLoop_field hfirst hp.no_separator (by decide) (by omega), if_neg (by decide),
      Nat.zero_add, startLoop_field hsecond hi.no_separator (by decide) (by omega)]
    simp
    omega

theorem onSetPidSettings_pidInput (hp : Denotes p vp) (hi : Denotes i vi) (hd : Denotes d vd)
    (id : RequestId) (settings : PidSettings F) :
    onSetPidSettings toFloat id (pidInput p i d rest) settings =
      if p.length ≤ maxValueSize ∧ i.length ≤ maxValueSize ∧ d.length ≤ maxValueSize then
        let gains := ⟨toFloat (.number vp), toFloat (.number vi), toFloat (.number vd)⟩
        (⟨gains, gains⟩, .finished id)
      else (settings, .failed id 0x1) := by
  obtain ⟨hstartI, hstartD⟩ := startIndex_pidInput rest d hp hi
  obtain ⟨hdropI, hdropD⟩ := drop_pidInput p i d rest
  have hstartP : startIndex (pidInput p i d rest) 0 = some 0 := rfl
  have hdropP : (pidInput p i d rest).drop 0 =
      p ++ separator :: (i ++ separator :: (d ++ '\r' :: rest)) := rfl
  have hfetchP := hp.fetch hstartP hdropP (by decide)
  have hfetchI := hi.fetch hstartI hdropI (by decide)
  have hfetchD := hd.fetch hstartD hdropD (by decide)
  unfold onSetPidSettings
  rw [hfetchP, hfetchI, hfetchD]
  by_cases hpShort : p.length ≤ maxValueSize <;> by_cases hiShort : i.length ≤ maxValueSize <;>
    by_cases hdShort : d.length ≤ maxValueSize <;> simp [hpShort, hiShort, hdShort]

end

example : fetchFloatNumber ['0', '.', '1', ';', '2', '\r'] 1 = some (.number 2) := by
  decide +kernel

end VacuumCleaner.A1
