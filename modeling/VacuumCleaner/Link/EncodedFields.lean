import VacuumCleaner.A1.Fields
import VacuumCleaner.Core.Robot
import VacuumCleaner.Link.InstructionCodec

/-! Numbers as the core writes them into a parameters text, and what A1's field
reader makes of each of them. -/
namespace VacuumCleaner.Link.EncodedFields

open Lib.Hex Lib.CText A1.InstructionHandler A1.Fields Core.Robot

/-- A tuple of numbers, each written with `:x`. -/
def encoded (values : List Nat) : List Char := fields (values.map hexText)

theorem encoded_singleton (value : Nat) : encoded [value] = hexText value := by
  simp [encoded, fields, List.intercalate]

theorem encoded_cons_cons (value next : Nat) (values : List Nat) :
    encoded (value :: next :: values) = hexText value ++ separator :: encoded (next :: values) := by
  simp [encoded, fields, List.intercalate, separator]

theorem hex_natCast (value : Nat) : hex value = hexText value := by
  rw [hex, if_neg (by omega), Int.natAbs_natCast]

theorem mem_encoded {values : List Nat} {c : Char} (hc : c ∈ encoded values) :
    c = separator ∨ ∃ value, c ∈ hexText value := by
  induction values with
  | nil => simp [encoded, fields, List.intercalate] at hc
  | cons value values ih =>
    cases values with
    | nil =>
      rw [encoded_singleton] at hc
      exact .inr ⟨value, hc⟩
    | cons next values =>
      rw [encoded_cons_cons] at hc
      rcases List.mem_append.mp hc with hc | hc
      · exact .inr ⟨value, hc⟩
      · exact (List.mem_cons.mp hc).elim .inl ih

theorem printable_encoded (values : List Nat) : InstructionCodec.Printable (encoded values) := by
  have hdigits : ∀ digit < 16, ' ' ≤ digit.digitChar ∧ digit.digitChar ≤ '~' := by decide
  intro c hc
  rcases mem_encoded hc with rfl | ⟨value, hc⟩
  · decide
  · obtain ⟨digit, hdigit, rfl⟩ := exists_digit_of_mem_hexText hc
    exact hdigits digit hdigit

theorem length_encoded_le {values : List Nat} {width : Nat}
    (hvalues : ∀ value ∈ values, (hexText value).length ≤ width) :
    (encoded values).length ≤ values.length * (width + 1) := by
  induction values with
  | nil => simp [encoded, fields, List.intercalate]
  | cons value values ih =>
    have hvalue := hvalues value List.mem_cons_self
    cases values with
    | nil =>
      rw [encoded_singleton]
      simp
      omega
    | cons next values =>
      have hrest := ih fun other hother => hvalues other (List.mem_cons_of_mem _ hother)
      rw [encoded_cons_cons, List.length_append, List.length_cons, List.length_cons,
        Nat.add_mul _ 1]
      omega

theorem isFieldEnd_of_mem_hexText {value : Nat} {c : Char} (hc : c ∈ hexText value) :
    isFieldEnd c = false := by
  have hdigits : ∀ digit < 16, isFieldEnd digit.digitChar = false := by decide
  obtain ⟨digit, hdigit, rfl⟩ := exists_digit_of_mem_hexText hc
  exact hdigits digit hdigit

theorem separator_not_mem_hexText (value : Nat) : separator ∉ hexText value := by
  intro hmem
  exact absurd (isFieldEnd_of_mem_hexText hmem) (by decide)

theorem startLoop_encoded {input rest : List Char} {values : List Nat} {group : Nat}
    (hgroup : group + 1 < values.length) {fuel index : Nat} (separatorCount : Nat)
    (hdrop : input.drop index = encoded values ++ rest) (hfuel : (encoded values).length ≤ fuel) :
    ∃ stop, startLoop input (separatorCount + group + 1) fuel index separatorCount = some stop ∧
      input.drop (stop + 1) = encoded (values.drop (group + 1)) ++ rest := by
  induction group generalizing values fuel index separatorCount with
  | zero =>
    obtain ⟨value, next, values, rfl⟩ : ∃ value next others, values = value :: next :: others := by
      match values, hgroup with
      | value :: next :: others, _ => exact ⟨value, next, others, rfl⟩
    rw [encoded_cons_cons, List.append_assoc, List.cons_append] at hdrop
    rw [encoded_cons_cons, List.length_append, List.length_cons] at hfuel
    refine ⟨index + (hexText value).length, ?_, ?_⟩
    · rw [startLoop_field hdrop (separator_not_mem_hexText value) (by omega) (by omega)]
      simp
    · rw [Nat.add_assoc, ← List.drop_drop, hdrop]
      simp [List.drop_append]
  | succ group ih =>
    obtain ⟨value, next, values, rfl⟩ : ∃ value next others, values = value :: next :: others := by
      match values, hgroup with
      | value :: next :: others, _ => exact ⟨value, next, others, rfl⟩
    rw [encoded_cons_cons, List.append_assoc, List.cons_append] at hdrop
    rw [encoded_cons_cons, List.length_append, List.length_cons] at hfuel
    have hnext : input.drop (index + (hexText value).length + 1) =
        encoded (next :: values) ++ rest := by
      rw [Nat.add_assoc, ← List.drop_drop, hdrop]
      simp [List.drop_append]
    have hrest : (encoded (next :: values)).length ≤ fuel - (hexText value).length - 1 := by omega
    obtain ⟨stop, hstop, hfield⟩ := ih (by simpa using hgroup) (separatorCount + 1) hnext hrest
    refine ⟨stop, ?_, hfield⟩
    rw [startLoop_field hdrop (separator_not_mem_hexText value) (by omega) (by omega),
      if_neg (by omega), ← hstop]
    congr 1
    omega

theorem startIndex_encoded (rest : List Char) {values : List Nat} {group : Nat}
    (hgroup : group < values.length) (hlength : (encoded values).length ≤ 100) :
    ∃ start, startIndex (encoded values ++ rest) group = some start ∧
      (encoded values ++ rest).drop start = encoded (values.drop group) ++ rest := by
  cases group with
  | zero => exact ⟨0, rfl, rfl⟩
  | succ group =>
    have hwhole : (encoded values ++ rest).drop 0 = encoded values ++ rest := rfl
    obtain ⟨stop, hstop, hdrop⟩ := startLoop_encoded hgroup 0 hwhole hlength
    refine ⟨stop + 1, ?_, hdrop⟩
    rw [startIndex, if_pos (by omega), ← Nat.zero_add (group + 1), ← Nat.add_assoc, hstop]
    rfl

/-- What A1 reads for a number: four digits leave no room for the terminator. -/
def readField (beyond : List Char) (value : Nat) : Int :=
  if value < 16 ^ 3 then value
  else if value < 16 ^ 4 then
    clampLong (hexValue (hexText value ++ (cString beyond).takeWhile isHexDigit))
  else parsingError

theorem length_hexText_le_iff {width : Nat} (value : Nat) (hwidth : 0 < width) :
    (hexText value).length ≤ width ↔ value < 16 ^ width :=
  Nat.length_toDigits_le_iff (by decide) hwidth

theorem nul_not_mem_hexText {value : Nat} : ∀ c ∈ hexText value, c ≠ nul := by
  rintro c hc rfl
  exact absurd (isHexDigit_of_mem_hexText hc) (by decide)

theorem encoded_eq_hexText_append (value : Nat) (values : List Nat) (rest : List Char) :
    ∃ terminator others, encoded (value :: values) ++ '\r' :: rest =
      hexText value ++ terminator :: others ∧ isFieldEnd terminator = true := by
  cases values with
  | nil => exact ⟨'\r', rest, by rw [encoded_singleton], rfl⟩
  | cons next values =>
    refine ⟨separator, encoded (next :: values) ++ '\r' :: rest, ?_, rfl⟩
    rw [encoded_cons_cons, List.append_assoc, List.cons_append]

theorem cString_buffer {value : Nat} (beyond rest : List Char) (hvalue : value < 16 ^ 3) :
    cString (strncpy maxValueSize (hexText value).length (hexText value ++ rest) ++ beyond) =
      hexText value := by
  have hlength : (hexText value).length ≤ 3 := (length_hexText_le_iff value (by decide)).mpr hvalue
  have htake : (cString (hexText value ++ rest)).take (hexText value).length = hexText value := by
    rw [cString, List.takeWhile_append_of_pos fun c hc => by simpa using nul_not_mem_hexText c hc,
      List.take_left]
  obtain ⟨count, hcount⟩ : ∃ count, maxValueSize - (hexText value).length = count + 1 :=
    Nat.exists_eq_add_one.mpr (by unfold maxValueSize; omega)
  unfold strncpy List.rightpad
  rw [htake, hcount, List.replicate_succ, List.append_assoc]
  exact cString_append_nul nul_not_mem_hexText (.inr rfl)

theorem cString_full_buffer {value : Nat} (beyond rest : List Char)
    (hlength : (hexText value).length = maxValueSize) :
    cString (strncpy maxValueSize (hexText value).length (hexText value ++ rest) ++ beyond) =
      hexText value ++ cString beyond := by
  have hnul : ∀ c ∈ hexText value, decide (c ≠ nul) = true := fun c hc => by
    simpa using nul_not_mem_hexText c hc
  unfold strncpy List.rightpad cString
  rw [List.takeWhile_append_of_pos hnul, List.take_left, hlength, Nat.sub_self,
    List.replicate_zero, List.append_nil, List.takeWhile_append_of_pos hnul]

section

variable {input rest : List Char} {terminator : Char} {value start group : Nat} (beyond : List Char)
  (hstart : startIndex input group = some start)
  (hdrop : input.drop start = hexText value ++ terminator :: rest)
  (hend : isFieldEnd terminator = true)

include hstart hdrop hend

theorem fetch_short (hvalue : value < 16 ^ 3) :
    fetchUnsignedHexNumber beyond input group = value := by
  have hstop := endIndex_field hdrop (fun _ => isFieldEnd_of_mem_hexText) hend
  have hlength : (hexText value).length ≤ 3 := (length_hexText_le_iff value (by decide)).mpr hvalue
  have hread := strtolHex_digits [] (hexText_ne_nil value) (fun _ => isHexDigit_of_mem_hexText)
    (by simp)
  rw [List.append_nil, hexValue_hexText, clampLong_of_lt (by omega)] at hread
  rw [if_pos (hlength.trans (by decide))] at hstop
  unfold fetchUnsignedHexNumber
  simp only [hstart, hstop, Nat.add_sub_cancel_left, hdrop, cString_buffer beyond _ hvalue, hread,
    (hexText_ne_nil value).symm, if_false]

theorem fetch_full (hlength : (hexText value).length = maxValueSize) :
    fetchUnsignedHexNumber beyond input group =
      clampLong (hexValue (hexText value ++ (cString beyond).takeWhile isHexDigit)) := by
  have hstop := endIndex_field hdrop (fun _ => isFieldEnd_of_mem_hexText) hend
  have htwo : 2 ≤ (hexText value).length := by
    rw [hlength]
    decide
  have hread := strtolHex_of_two_le (cString beyond) htwo fun _ => isHexDigit_of_mem_hexText
  -- the end of the number is behind its first digit
  have hne : (cString beyond).dropWhile isHexDigit ≠ hexText value ++ cString beyond := by
    intro heq
    have hsuffix : (cString beyond).dropWhile isHexDigit <:+ cString beyond :=
      List.dropWhile_suffix isHexDigit
    have hle := hsuffix.length_le
    rw [heq, List.length_append] at hle
    omega
  rw [if_pos hlength.le] at hstop
  unfold fetchUnsignedHexNumber
  simp only [hstart, hstop, Nat.add_sub_cancel_left, hdrop, cString_full_buffer beyond _ hlength,
    hread, hne, if_false]

theorem fetch_long (hlength : maxValueSize < (hexText value).length) :
    fetchUnsignedHexNumber beyond input group = parsingError := by
  have hstop := endIndex_field hdrop (fun _ => isFieldEnd_of_mem_hexText) hend
  rw [if_neg (by omega)] at hstop
  unfold fetchUnsignedHexNumber
  simp only [hstart, hstop]

theorem fetch_field : fetchUnsignedHexNumber beyond input group = readField beyond value := by
  have hthree := length_hexText_le_iff value (show 0 < 3 by decide)
  have hfour := length_hexText_le_iff value (show 0 < maxValueSize by decide)
  unfold maxValueSize at hfour
  unfold readField
  by_cases hshort : value < 16 ^ 3
  · rw [if_pos hshort]
    exact fetch_short beyond hstart hdrop hend hshort
  · rw [if_neg hshort]
    by_cases hfull : value < 16 ^ 4
    · rw [if_pos hfull]
      apply fetch_full beyond hstart hdrop hend
      unfold maxValueSize
      omega
    · rw [if_neg hfull]
      apply fetch_long beyond hstart hdrop hend
      unfold maxValueSize
      omega

end

theorem fetch_encoded {values : List Nat} {group : Nat} (hgroup : group < values.length)
    (hlength : (encoded values).length ≤ 100) (beyond rest : List Char) :
    fetchUnsignedHexNumber beyond (encoded values ++ '\r' :: rest) group =
      readField beyond (values.get ⟨group, hgroup⟩) := by
  obtain ⟨start, hstart, hdrop⟩ := startIndex_encoded ('\r' :: rest) hgroup hlength
  rw [List.drop_eq_getElem_cons hgroup] at hdrop
  obtain ⟨terminator, others, hfield, hend⟩ :=
    encoded_eq_hexText_append values[group] (values.drop (group + 1)) rest
  rw [hfield] at hdrop
  exact fetch_field beyond hstart hdrop hend

end VacuumCleaner.Link.EncodedFields
