import Mathlib.Tactic.Common
import Mathlib.Tactic.Ring

/-! Hexadecimal numerals as character lists: how they are written with a fixed
minimal width, and that reading them back restores the number. -/
namespace VacuumCleaner.Lib.Hex

/-- The value of one hexadecimal digit in either case. -/
def hexDigit (c : Char) : Option Nat :=
  if '0' ≤ c ∧ c ≤ '9' then some (c.toNat - '0'.toNat)
  else if 'a' ≤ c ∧ c ≤ 'f' then some (c.toNat - 'a'.toNat + 10)
  else if 'A' ≤ c ∧ c ≤ 'F' then some (c.toNat - 'A'.toNat + 10)
  else none

def isHexDigit (c : Char) : Bool := (hexDigit c).isSome

/-- Positional value of a list of hexadecimal digits. -/
def hexValue (digits : List Char) : Nat :=
  digits.foldl (fun value c => 16 * value + (hexDigit c).getD 0) 0

/-- Lower-case digits of a number, without leading zeros. -/
def hexText (value : Nat) : List Char := Nat.toDigits 16 value

/-- Lower-case digits, filled with zeros on the left up to `width`. -/
def hexPadded (width value : Nat) : List Char := (hexText value).leftpad width '0'

/-- Upper-case digits, without leading zeros. -/
def hexUpper (value : Nat) : List Char := (hexText value).map Char.toUpper

/-- Upper-case digits, filled with zeros on the left up to `width`. -/
def hexUpperPadded (width value : Nat) : List Char := (hexPadded width value).map Char.toUpper

theorem hexDigit_digitChar : ∀ value : Nat, value < 16 → hexDigit value.digitChar = some value := by
  decide

private theorem hexValue_foldl (digits : List Char) (start : Nat) :
    digits.foldl (fun value c => 16 * value + (hexDigit c).getD 0) start =
      16 ^ digits.length * start + hexValue digits := by
  induction digits generalizing start with
  | nil => simp [hexValue]
  | cons c digits ih =>
    have hcons : hexValue (c :: digits) =
        16 ^ digits.length * (hexDigit c).getD 0 + hexValue digits := by
      rw [← ih]
      simp [hexValue]
    rw [List.foldl_cons, ih, hcons, List.length_cons]
    ring

theorem hexValue_append (left right : List Char) :
    hexValue (left ++ right) = 16 ^ right.length * hexValue left + hexValue right := by
  conv_lhs => unfold hexValue
  rw [List.foldl_append, hexValue_foldl]
  rfl

theorem hexValue_hexText (value : Nat) : hexValue (hexText value) = value := by
  unfold hexText
  induction value using Nat.strongRecOn with
  | _ value ih =>
    rw [Nat.toDigits_eq_if (by decide)]
    split
    · rename_i hlt
      simp [hexValue, hexDigit_digitChar value hlt]
    · rename_i hge
      have hmod := hexDigit_digitChar (value % 16) (Nat.mod_lt _ (by decide))
      rw [hexValue_append, ih (value / 16) (by omega)]
      simp only [hexValue, List.foldl_cons, List.foldl_nil, hmod, List.length_cons,
        List.length_nil, Option.getD_some]
      omega

theorem hexValue_replicate_zero (count : Nat) : hexValue (List.replicate count '0') = 0 := by
  induction count with
  | zero => rfl
  | succ count ih =>
    have hzero : hexValue ['0'] = 0 := by decide
    rw [List.replicate_succ', hexValue_append, ih, hzero]
    simp

@[simp] theorem hexValue_hexPadded (width value : Nat) :
    hexValue (hexPadded width value) = value := by
  unfold hexPadded List.leftpad
  rw [hexValue_append, hexValue_replicate_zero, hexValue_hexText]
  simp

theorem hexText_ne_nil (value : Nat) : hexText value ≠ [] := Nat.toDigits_ne_nil

theorem exists_digit_of_mem_hexText {value : Nat} {c : Char} (hc : c ∈ hexText value) :
    ∃ digit < 16, c = digit.digitChar := by
  unfold hexText at hc
  induction value using Nat.strongRecOn with
  | _ value ih =>
    rw [Nat.toDigits_eq_if (by decide)] at hc
    split at hc
    · rename_i hlt
      exact ⟨value, hlt, List.mem_singleton.mp hc⟩
    · rename_i hge
      rcases List.mem_append.mp hc with hc | hc
      · exact ih (value / 16) (by omega) hc
      · exact ⟨value % 16, Nat.mod_lt _ (by decide), List.mem_singleton.mp hc⟩

theorem exists_digit_of_mem_hexPadded {width value : Nat} {c : Char}
    (hc : c ∈ hexPadded width value) : ∃ digit < 16, c = digit.digitChar := by
  unfold hexPadded List.leftpad at hc
  rcases List.mem_append.mp hc with hc | hc
  · exact ⟨0, by decide, List.eq_of_mem_replicate hc⟩
  · exact exists_digit_of_mem_hexText hc

theorem isHexDigit_of_mem_hexText {value : Nat} {c : Char} (hc : c ∈ hexText value) :
    isHexDigit c = true := by
  obtain ⟨digit, hdigit, rfl⟩ := exists_digit_of_mem_hexText hc
  rw [isHexDigit, hexDigit_digitChar digit hdigit]
  rfl

theorem isHexDigit_of_mem_hexPadded {width value : Nat} {c : Char}
    (hc : c ∈ hexPadded width value) : isHexDigit c = true := by
  obtain ⟨digit, hdigit, rfl⟩ := exists_digit_of_mem_hexPadded hc
  rw [isHexDigit, hexDigit_digitChar digit hdigit]
  rfl

theorem hexDigit_lt {c : Char} {value : Nat} (hc : hexDigit c = some value) : value < 16 := by
  unfold hexDigit at hc
  have hzero : '0'.toNat = 48 := rfl
  have hlower : 'a'.toNat = 97 := rfl
  have hupper : 'A'.toNat = 65 := rfl
  split at hc
  · rename_i hrange
    have hle : c.toNat ≤ 57 := hrange.2
    cases hc
    omega
  · split at hc
    · rename_i hrange
      have hle : c.toNat ≤ 102 := hrange.2
      cases hc
      omega
    · split at hc
      · rename_i hrange
        have hle : c.toNat ≤ 70 := hrange.2
        cases hc
        omega
      · cases hc

theorem hexValue_lt (digits : List Char) : hexValue digits < 16 ^ digits.length := by
  induction digits with
  | nil => simp [hexValue]
  | cons c digits ih =>
    have hsplit := hexValue_append [c] digits
    have hdigit : hexValue [c] < 16 := by
      simp only [hexValue, List.foldl_cons, List.foldl_nil]
      cases hc : hexDigit c with
      | none => simp
      | some value => simpa using hexDigit_lt hc
    rw [List.singleton_append] at hsplit
    rw [hsplit, List.length_cons, Nat.pow_succ]
    calc 16 ^ digits.length * hexValue [c] + hexValue digits
        < 16 ^ digits.length * hexValue [c] + 16 ^ digits.length := by omega
      _ = 16 ^ digits.length * (hexValue [c] + 1) := by ring
      _ ≤ 16 ^ digits.length * 16 := Nat.mul_le_mul_left _ hdigit

theorem length_hexPadded_eq_iff {width value : Nat} (hwidth : 0 < width) :
    (hexPadded width value).length = width ↔ value < 16 ^ width := by
  have hfits : (Nat.toDigits 16 value).length ≤ width ↔ value < 16 ^ width :=
    Nat.length_toDigits_le_iff (by decide) hwidth
  rw [← hfits]
  unfold hexPadded hexText
  rw [List.length_leftpad]
  omega

@[simp] theorem hexPadded_one (value : Nat) : hexPadded 1 value = hexText value := by
  have hlength : 1 ≤ (hexText value).length := List.length_pos_iff.mpr (hexText_ne_nil value)
  unfold hexPadded List.leftpad
  rw [Nat.sub_eq_zero_of_le hlength, List.replicate_zero, List.nil_append]

theorem length_hexText_le {width value : Nat} (hwidth : 0 < width) (hfits : value < 16 ^ width) :
    (hexText value).length ≤ width :=
  (Nat.length_toDigits_le_iff (by decide) hwidth).mpr hfits

end VacuumCleaner.Lib.Hex
