import VacuumCleaner.Lib.CText
import Mathlib.Data.Rat.Floor
import Mathlib.Tactic.FieldSimp
import Mathlib.Tactic.Ring

/-! Finite decimal numbers: the numerals that `repr` prints for them and what
`strtod` reads. -/
namespace VacuumCleaner.Lib.Numeral

open CText

def digitChar (digit : Fin 10) : Char := Char.ofNat (48 + digit)

def digitsText (digits : List (Fin 10)) : List Char := digits.map digitChar

def digitValue (c : Char) : Nat := c.toNat - 48

/-- The number that a text of digits denotes. -/
def digitsNumber (text : List Char) : Nat :=
  text.foldl (fun number c => 10 * number + digitValue c) 0

def digit (value : Nat) : Fin 10 := Fin.ofNat 10 value

/-- A finite float as its shortest digits show it: at most 17 of them, the
decimal point standing `point` places behind the first. -/
structure Decimal where
  negative : Bool
  digits : List (Fin 10)
  point : Int
  nonempty : digits ≠ []
  short : digits.length ≤ 17
  range : -323 ≤ point ∧ point ≤ 309
  deriving DecidableEq

namespace Decimal

def value (x : Decimal) : ℚ :=
  (if x.negative then -1 else 1) * digitsNumber (digitsText x.digits) *
    10 ^ (x.point - x.digits.length)

/-- The digits in front of and behind the point. -/
def whole (x : Decimal) : List Char :=
  if x.point ≤ 0 then ['0']
  else digitsText (x.digits.take x.point.toNat) ++
    List.replicate (x.point.toNat - x.digits.length) '0'

def fraction (x : Decimal) : List Char :=
  if x.point ≤ 0 then List.replicate (-x.point).toNat '0' ++ digitsText x.digits
  else if x.digits.length ≤ x.point.toNat then ['0']
  else digitsText (x.digits.drop x.point.toNat)

def sign (x : Decimal) : List Char := if x.negative then ['-'] else []

/-- An exponent is printed with its sign and at least two digits. -/
def exponentText (exponent : Int) : List Char :=
  (if exponent < 0 then '-' else '+') :: (Nat.toDigits 10 exponent.natAbs).leftpad 2 '0'

def scientific (x : Decimal) : List Char :=
  digitsText (x.digits.take 1) ++
    (if x.digits.length ≤ 1 then [] else '.' :: digitsText (x.digits.drop 1)) ++
    'e' :: exponentText (x.point - 1)

def isPositional (x : Decimal) : Prop := -4 < x.point ∧ x.point ≤ 16

instance (x : Decimal) : Decidable x.isPositional := by
  unfold isPositional
  infer_instance

/-- `float.__repr__`: from 1e16 on and below 1e-4 with an exponent. -/
def repr (x : Decimal) : List Char :=
  x.sign ++ if x.isPositional then x.whole ++ '.' :: x.fraction else x.scientific

end Decimal

/-- What `strtod` finds at the head of a text. -/
inductive Scanned
  | number (value : ℚ)
  | infinity (negative : Bool)
  | nan
  deriving DecidableEq

/-- The digits behind a decimal point, and what follows them. -/
def takeFraction : List Char → List Char × List Char
  | '.' :: rest => (rest.takeWhile Char.isDigit, rest.dropWhile Char.isDigit)
  | rest => ([], rest)

/-- An exponent belongs to the number only when it has digits. -/
def takeExponent (text : List Char) : Int × List Char :=
  match text with
  | c :: rest =>
    if c = 'e' ∨ c = 'E' then
      let (negative, rest) := takeSign rest
      let digits := rest.takeWhile Char.isDigit
      if digits = [] then (0, text)
      else ((if negative then -digitsNumber digits else digitsNumber digits),
        rest.dropWhile Char.isDigit)
    else (0, text)
  | [] => (0, [])

def beginsWith (name text : List Char) : Bool := (text.take name.length).map Char.toLower == name

/-- `strtod(text, &end)`: the number, and the text from `end` on. -/
def strtod (text : List Char) : Scanned × List Char :=
  let (negative, body) := takeSign (text.dropWhile isSpace)
  if beginsWith ['i', 'n', 'f'] body then
    (.infinity negative,
      if beginsWith ['i', 'n', 'f', 'i', 'n', 'i', 't', 'y'] body then body.drop 8 else body.drop 3)
  else if beginsWith ['n', 'a', 'n'] body then (.nan, body.drop 3)
  else
    let whole := body.takeWhile Char.isDigit
    let (fraction, rest) := takeFraction (body.dropWhile Char.isDigit)
    if whole ++ fraction = [] then (.number 0, text)
    else
      let (exponent, rest) := takeExponent rest
      (.number ((if negative then -1 else 1) * digitsNumber (whole ++ fraction) *
        10 ^ (exponent - fraction.length)), rest)

@[simp] theorem isDigit_digitChar (digit : Fin 10) : (digitChar digit).isDigit = true := by
  revert digit
  decide

@[simp] theorem length_digitsText (digits : List (Fin 10)) :
    (digitsText digits).length = digits.length := by
  simp [digitsText]

@[simp] theorem digitsText_append (left right : List (Fin 10)) :
    digitsText (left ++ right) = digitsText left ++ digitsText right := by
  simp [digitsText]

theorem isDigit_of_mem_digitsText {digits : List (Fin 10)} {c : Char}
    (hc : c ∈ digitsText digits) : c.isDigit = true := by
  obtain ⟨digit, -, rfl⟩ := List.mem_map.mp hc
  exact isDigit_digitChar digit

theorem foldl_digitsNumber (text : List Char) (start : Nat) :
    text.foldl (fun number c => 10 * number + digitValue c) start =
      start * 10 ^ text.length + digitsNumber text := by
  induction text generalizing start with
  | nil => simp [digitsNumber]
  | cons c text ih =>
    have hcons : digitsNumber (c :: text) = digitValue c * 10 ^ text.length + digitsNumber text := by
      unfold digitsNumber
      rw [List.foldl_cons, ih]
      simp [digitsNumber]
    rw [List.foldl_cons, ih, hcons, List.length_cons]
    ring

theorem digitsNumber_append (left right : List Char) :
    digitsNumber (left ++ right) = digitsNumber left * 10 ^ right.length + digitsNumber right := by
  rw [digitsNumber, List.foldl_append, foldl_digitsNumber right]
  rfl

theorem digitsNumber_replicate_zero (count : Nat) :
    digitsNumber (List.replicate count '0') = 0 := by
  induction count with
  | zero => rfl
  | succ count ih =>
    rw [List.replicate_succ', digitsNumber_append, ih]
    rfl

theorem exists_digitChar {c : Char} (hc : c.isDigit = true) : ∃ digit, c = digitChar digit := by
  unfold Char.isDigit at hc
  rw [Bool.and_eq_true, decide_eq_true_eq, decide_eq_true_eq] at hc
  have hlow : 48 ≤ c.toNat := UInt32.le_iff_toNat_le.mp hc.1
  have hhigh : c.toNat ≤ 57 := UInt32.le_iff_toNat_le.mp hc.2
  refine ⟨⟨c.toNat - 48, by omega⟩, ?_⟩
  have hback : 48 + (c.toNat - 48) = c.toNat := by omega
  simp only [digitChar, hback, Char.ofNat_toNat]

theorem start_of_isDigit {text : List Char} {c : Char} (hhead : text.head? = some c)
    (hc : c.isDigit = true) : text.dropWhile isSpace = text ∧ takeSign text = (false, text) ∧
      beginsWith ['i', 'n', 'f'] text = false ∧ beginsWith ['n', 'a', 'n'] text = false := by
  have hletters : ∀ digit : Fin 10, (digitChar digit).toLower ≠ 'i' ∧
      (digitChar digit).toLower ≠ 'n' ∧ digitChar digit ≠ '-' ∧ digitChar digit ≠ '+' ∧
      isSpace (digitChar digit) = false := by decide
  obtain ⟨digit, rfl⟩ := exists_digitChar hc
  obtain ⟨rest, rfl⟩ := List.head?_eq_some_iff.mp hhead
  obtain ⟨hi, hn, hminus, hplus, hspace⟩ := hletters digit
  refine ⟨by simp [hspace], ?_, by simp [beginsWith, hi], by simp [beginsWith, hn]⟩
  unfold takeSign
  split
  · simp_all
  · simp_all
  · rfl

theorem takeWhile_digits {digits : List Char} (rest : List Char)
    (hdigits : ∀ c ∈ digits, c.isDigit = true)
    (hrest : ∀ c, rest.head? = some c → c.isDigit = false) :
    (digits ++ rest).takeWhile Char.isDigit = digits ∧
      (digits ++ rest).dropWhile Char.isDigit = rest := by
  rw [List.takeWhile_append_of_pos hdigits, List.dropWhile_append_of_pos hdigits]
  cases rest with
  | nil => simp
  | cons c rest =>
    have hc : c.isDigit = false := hrest c rfl
    simp [hc]

theorem strtod_point (negative : Bool) {whole fraction : List Char} (hne : whole ≠ [])
    (hwhole : ∀ c ∈ whole, c.isDigit = true) (hfraction : ∀ c ∈ fraction, c.isDigit = true) :
    strtod ((if negative then ['-'] else []) ++ (whole ++ '.' :: fraction)) =
      (.number ((if negative then -1 else 1) * digitsNumber (whole ++ fraction) *
        10 ^ (-(fraction.length : Int))), []) := by
  obtain ⟨first, hfirst⟩ : ∃ first, whole.head? = some first :=
    ⟨whole.head hne, List.head?_eq_some_head hne⟩
  have hhead : (whole ++ '.' :: fraction).head? = some first := by
    rw [List.head?_append, hfirst]
    rfl
  obtain ⟨hblank, hsign, hinf, hnan⟩ :=
    start_of_isDigit hhead (hwhole first (List.mem_of_mem_head? hfirst))
  have hstart : takeSign (((if negative then ['-'] else []) ++
      (whole ++ '.' :: fraction)).dropWhile isSpace) = (negative, whole ++ '.' :: fraction) := by
    cases negative with
    | true => rfl
    | false =>
      simp only [Bool.false_eq_true, if_false, List.nil_append]
      rw [hblank, hsign]
  have hpoint : ∀ c, ('.' :: fraction).head? = some c → c.isDigit = false := by
    intro c hc
    cases hc
    decide
  obtain ⟨htake, hdrop⟩ := takeWhile_digits ('.' :: fraction) hwhole hpoint
  obtain ⟨hfractionTake, hfractionDrop⟩ := takeWhile_digits [] hfraction (by simp)
  rw [List.append_nil] at hfractionTake hfractionDrop
  have hnonempty : ¬ whole ++ fraction = [] := by simp [hne]
  unfold strtod
  simp only [hstart, hinf, hnan, htake, hdrop, takeFraction, hfractionTake, hfractionDrop,
    takeExponent, if_neg hnonempty, Bool.false_eq_true, if_false, zero_sub]

namespace Decimal

theorem whole_ne_nil (x : Decimal) : x.whole ≠ [] := by
  unfold whole
  split
  · simp
  · rename_i hpoint
    have hlength : 0 < (x.digits.take x.point.toNat).length := by
      have hdigits := List.length_pos_iff.mpr x.nonempty
      rw [List.length_take]
      omega
    have htext := length_digitsText (x.digits.take x.point.toNat)
    intro hnil
    have hnone := (List.append_eq_nil_iff.mp hnil).1
    rw [hnone] at htext
    simp only [List.length_nil] at htext
    omega

theorem isDigit_of_mem_whole {x : Decimal} {c : Char} (hc : c ∈ x.whole) : c.isDigit = true := by
  unfold whole at hc
  split at hc
  · simp_all
  · rcases List.mem_append.mp hc with hc | hc
    · exact isDigit_of_mem_digitsText hc
    · rw [List.eq_of_mem_replicate hc]
      decide

theorem isDigit_of_mem_fraction {x : Decimal} {c : Char} (hc : c ∈ x.fraction) :
    c.isDigit = true := by
  unfold fraction at hc
  split at hc
  · rcases List.mem_append.mp hc with hc | hc
    · rw [List.eq_of_mem_replicate hc]
      decide
    · exact isDigit_of_mem_digitsText hc
  · split at hc
    · simp_all
    · exact isDigit_of_mem_digitsText hc

theorem digitsNumber_whole_fraction (x : Decimal) :
    (digitsNumber (x.whole ++ x.fraction) : ℚ) * 10 ^ (-(x.fraction.length : Int)) =
      digitsNumber (digitsText x.digits) * 10 ^ (x.point - x.digits.length) := by
  unfold whole fraction
  split
  · rename_i hpoint
    have hnumber : digitsNumber (['0'] ++ (List.replicate (-x.point).toNat '0' ++
        digitsText x.digits)) = digitsNumber (digitsText x.digits) := by
      rw [digitsNumber_append, digitsNumber_append, digitsNumber_replicate_zero]
      simp [digitsNumber, digitValue]
    rw [hnumber]
    congr 2
    simp only [List.length_append, List.length_replicate, length_digitsText]
    omega
  · rename_i hpoint
    split
    · rename_i hlong
      have htake : x.digits.take x.point.toNat = x.digits := List.take_of_length_le hlong
      have hnumber : digitsNumber (digitsText x.digits ++
          List.replicate (x.point.toNat - x.digits.length) '0' ++ ['0']) =
            digitsNumber (digitsText x.digits) * 10 ^ (x.point.toNat - x.digits.length) * 10 := by
        rw [digitsNumber_append, digitsNumber_append, digitsNumber_replicate_zero]
        simp [digitsNumber, digitValue]
      have hexponent : x.point - x.digits.length = (x.point.toNat - x.digits.length : Nat) := by
        omega
      rw [htake, hnumber, hexponent, zpow_natCast]
      push_cast
      simp
    · rename_i hshort
      have hlength : (x.digits.take x.point.toNat).length = x.point.toNat := by
        rw [List.length_take]
        omega
      have hzeros : x.point.toNat - x.digits.length = 0 := by omega
      rw [hzeros, List.replicate_zero, List.append_nil, ← digitsText_append, List.take_append_drop]
      congr 2
      simp only [length_digitsText, List.length_drop]
      omega

theorem strtod_repr {x : Decimal} (hpositional : x.isPositional) :
    strtod x.repr = (.number x.value, []) := by
  have hfraction : ∀ c ∈ x.fraction, c.isDigit = true := fun _ => isDigit_of_mem_fraction
  have hread := strtod_point x.negative x.whole_ne_nil (fun _ => isDigit_of_mem_whole) hfraction
  unfold repr sign
  rw [if_pos hpositional, hread, mul_assoc, digitsNumber_whole_fraction, ← mul_assoc]
  rfl

theorem length_exponentText (x : Decimal) :
    3 ≤ (exponentText (x.point - 1)).length ∧ (exponentText (x.point - 1)).length ≤ 4 := by
  have hdigits : (Nat.toDigits 10 (x.point - 1).natAbs).length ≤ 3 := by
    rw [Nat.length_toDigits_le_iff (by decide) (by decide)]
    have hrange := x.range
    omega
  simp only [exponentText, List.length_cons, List.length_leftpad]
  omega

theorem isPositional_of_length_le {x : Decimal} (hlength : x.repr.length ≤ 4) :
    x.isPositional := by
  by_contra hscientific
  have hexponent := x.length_exponentText
  have hfirst : 0 < (x.digits.take 1).length := by
    have hdigits := List.length_pos_iff.mpr x.nonempty
    rw [List.length_take]
    omega
  unfold repr scientific at hlength
  rw [if_neg hscientific] at hlength
  simp only [List.length_append, List.length_cons, length_digitsText] at hlength
  omega

theorem length_repr_le (x : Decimal) : x.repr.length ≤ 24 := by
  have hshort := x.short
  have hexponent := x.length_exponentText
  have hsign : x.sign.length ≤ 1 := by
    unfold sign
    split <;> simp
  unfold repr
  rw [List.length_append]
  split
  · rename_i hpositional
    obtain ⟨hlow, hhigh⟩ := hpositional
    have hwhole : x.whole.length + x.fraction.length ≤ 22 := by
      unfold whole fraction
      split
      · simp
        omega
      · split
        · simp
          omega
        · simp
          omega
    rw [List.length_append, List.length_cons]
    omega
  · have hmantissa : (if x.digits.length ≤ 1 then []
        else '.' :: digitsText (x.digits.drop 1)).length ≤ 17 := by
      split
      · simp
      · simp
        omega
    unfold scientific
    simp only [List.length_append, List.length_cons, length_digitsText, List.length_take]
    omega

/-- The characters of numerals. -/
def numeralChars : List Char :=
  ['-', '+', '.', 'e', '0', '1', '2', '3', '4', '5', '6', '7', '8', '9']

theorem mem_numeralChars_of_isDigit {c : Char} (hc : c.isDigit = true) : c ∈ numeralChars := by
  obtain ⟨digit, rfl⟩ := exists_digitChar hc
  revert digit
  decide

theorem mem_numeralChars_of_mem_exponentText {exponent : Int} {c : Char}
    (hc : c ∈ exponentText exponent) : c ∈ numeralChars := by
  unfold exponentText List.leftpad at hc
  rcases List.mem_cons.mp hc with rfl | hc
  · split <;> decide
  rcases List.mem_append.mp hc with hc | hc
  · rw [List.eq_of_mem_replicate hc]
    decide
  · exact mem_numeralChars_of_isDigit (Nat.isDigit_of_mem_toDigits (by decide) (by decide) hc)

theorem mem_numeralChars_of_mem_repr {x : Decimal} {c : Char} (hc : c ∈ x.repr) :
    c ∈ numeralChars := by
  unfold repr at hc
  rcases List.mem_append.mp hc with hc | hc
  · unfold sign at hc
    split at hc
    · rw [List.mem_singleton.mp hc]
      decide
    · cases hc
  split at hc
  · rcases List.mem_append.mp hc with hc | hc
    · exact mem_numeralChars_of_isDigit (isDigit_of_mem_whole hc)
    · rcases List.mem_cons.mp hc with rfl | hc
      · decide
      · exact mem_numeralChars_of_isDigit (isDigit_of_mem_fraction hc)
  · unfold scientific at hc
    rcases List.mem_append.mp hc with hc | hc
    · rcases List.mem_append.mp hc with hc | hc
      · exact mem_numeralChars_of_isDigit (isDigit_of_mem_digitsText hc)
      · split at hc
        · cases hc
        · rcases List.mem_cons.mp hc with rfl | hc
          · decide
          · exact mem_numeralChars_of_isDigit (isDigit_of_mem_digitsText hc)
    · rcases List.mem_cons.mp hc with rfl | hc
      · decide
      · exact mem_numeralChars_of_mem_exponentText hc

end Decimal
end VacuumCleaner.Lib.Numeral
