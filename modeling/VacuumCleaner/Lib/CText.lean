import VacuumCleaner.Lib.Hex
import Mathlib.Data.List.TakeWhile

/-! The part of the C string library that parsers of fixed buffers rely on. A
buffer is the list of its characters; a string ends at the first NUL. -/
namespace VacuumCleaner.Lib.CText

open Hex

def nul : Char := '\x00'

/-- The string that starts at the head of a buffer. -/
def cString (buffer : List Char) : List Char := buffer.takeWhile (· ≠ nul)

/-- `strncpy` into a zeroed array of `size` characters. -/
def strncpy (size count : Nat) (source : List Char) : List Char :=
  ((cString source).take count).rightpad size nul

def isSpace (c : Char) : Bool :=
  c == ' ' || c == '\t' || c == '\n' || c == '\x0b' || c == '\x0c' || c == '\r'

/-- An optional sign: whether the number is negative, and what follows. -/
def takeSign : List Char → Bool × List Char
  | '-' :: rest => (true, rest)
  | '+' :: rest => (false, rest)
  | rest => (false, rest)

/-- `0x` belongs to the number only when a hexadecimal digit follows. -/
def dropHexPrefix : List Char → List Char
  | '0' :: 'x' :: c :: rest => if isHexDigit c then c :: rest else '0' :: 'x' :: c :: rest
  | '0' :: 'X' :: c :: rest => if isHexDigit c then c :: rest else '0' :: 'X' :: c :: rest
  | rest => rest

/-- Saturation of `strtol` at the bounds of a 32-bit `long`. -/
def clampLong (value : Int) : Int := max (-2 ^ 31) (min value (2 ^ 31 - 1))

/-- `strtol(text, &end, 16)`: the value, and the text from `end` on. Without
digits the value is 0 and `end` is the start. -/
def strtolHex (text : List Char) : Int × List Char :=
  let (negative, body) := takeSign (text.dropWhile isSpace)
  let body := dropHexPrefix body
  let digits := body.takeWhile isHexDigit
  if digits = [] then (0, text)
  else
    let magnitude : Int := hexValue digits
    (clampLong (if negative then -magnitude else magnitude), body.dropWhile isHexDigit)

theorem cString_of_no_nul {text : List Char} (htext : ∀ c ∈ text, c ≠ nul) : cString text = text :=
  List.takeWhile_eq_self_iff.mpr fun c hc => by simpa using htext c hc

theorem cString_append_nul {text rest : List Char} (htext : ∀ c ∈ text, c ≠ nul)
    (hrest : rest.head? = none ∨ rest.head? = some nul) : cString (text ++ rest) = text := by
  unfold cString
  rw [List.takeWhile_append_of_pos fun c hc => by simpa using htext c hc]
  cases rest with
  | nil => simp
  | cons c rest => simp_all

theorem cString_replicate_nul {text : List Char} (htext : ∀ c ∈ text, c ≠ nul) (count : Nat) :
    cString (text ++ List.replicate count nul) = text := by
  apply cString_append_nul htext
  cases count <;> simp [List.replicate_succ]

theorem cString_strncpy {size count : Nat} {source : List Char} :
    cString (strncpy size count source) = (cString source).take count := by
  unfold strncpy List.rightpad
  apply cString_replicate_nul
  intro c hc
  have hmem := List.mem_takeWhile_imp (List.mem_of_mem_take hc)
  simpa using hmem

theorem cString_strncpy_append {text : List Char} (size : Nat) (rest : List Char)
    (htext : ∀ c ∈ text, c ≠ nul) : cString (strncpy size text.length (text ++ rest)) = text := by
  rw [cString_strncpy]
  unfold cString
  rw [List.takeWhile_append_of_pos fun c hc => by simpa using htext c hc, List.take_left]

theorem isSpace_eq_false_of_isHexDigit {c : Char} (hc : isHexDigit c = true) :
    isSpace c = false := by
  by_contra hspace
  simp only [isSpace, Bool.or_eq_true, beq_iff_eq, Bool.not_eq_false] at hspace
  rcases hspace with ((((rfl | rfl) | rfl) | rfl) | rfl) | rfl <;> simp [isHexDigit, hexDigit] at hc

theorem takeSign_of_isHexDigit {c : Char} (hc : isHexDigit c = true) (rest : List Char) :
    takeSign (c :: rest) = (false, c :: rest) := by
  unfold takeSign
  split
  · rename_i heq
    cases heq
    simp [isHexDigit, hexDigit] at hc
  · rename_i heq
    cases heq
    simp [isHexDigit, hexDigit] at hc
  · rfl

theorem dropHexPrefix_of_second {text : List Char}
    (hsecond : ∀ c ∈ text[1]?, c ≠ 'x' ∧ c ≠ 'X') : dropHexPrefix text = text := by
  unfold dropHexPrefix
  split
  · exact absurd rfl (hsecond 'x' (by simp)).1
  · exact absurd rfl (hsecond 'X' (by simp)).2
  · rfl

theorem strtolHex_run {digits : List Char} (rest : List Char) (hne : digits ≠ [])
    (hdigits : ∀ c ∈ digits, isHexDigit c = true)
    (hsecond : ∀ c ∈ (digits ++ rest)[1]?, c ≠ 'x' ∧ c ≠ 'X')
    (hrest : ∀ c ∈ rest.head?, isHexDigit c = false) :
    strtolHex (digits ++ rest) = (clampLong (hexValue digits), rest) := by
  obtain ⟨first, tail, rfl⟩ := List.exists_cons_of_ne_nil hne
  have hfirst : isHexDigit first = true := hdigits first (by simp)
  have hspaces : (first :: tail ++ rest).dropWhile isSpace = first :: tail ++ rest := by
    simp [isSpace_eq_false_of_isHexDigit hfirst]
  have hkept : dropHexPrefix (first :: tail ++ rest) = first :: tail ++ rest :=
    dropHexPrefix_of_second hsecond
  have htake : (first :: tail ++ rest).takeWhile isHexDigit = first :: tail := by
    rw [List.takeWhile_append_of_pos hdigits]
    cases rest with
    | nil => simp
    | cons c rest => simp [hrest c (by simp)]
  have hdrop : (first :: tail ++ rest).dropWhile isHexDigit = rest := by
    rw [List.dropWhile_append_of_pos hdigits]
    cases rest with
    | nil => rfl
    | cons c rest => simp [hrest c (by simp)]
  unfold strtolHex
  rw [hspaces, List.cons_append, takeSign_of_isHexDigit hfirst, ← List.cons_append]
  simp only [hkept, htake, hdrop, reduceCtorEq, if_false]

theorem ne_x_of_isHexDigit {c : Char} (hc : isHexDigit c = true) : c ≠ 'x' ∧ c ≠ 'X' := by
  constructor <;> (rintro rfl; simp [isHexDigit, hexDigit] at hc)

theorem strtolHex_digits {digits : List Char} (rest : List Char) (hne : digits ≠ [])
    (hdigits : ∀ c ∈ digits, isHexDigit c = true)
    (hrest : ∀ c ∈ rest.head?, isHexDigit c = false ∧ c ≠ 'x' ∧ c ≠ 'X') :
    strtolHex (digits ++ rest) = (clampLong (hexValue digits), rest) := by
  apply strtolHex_run rest hne hdigits
  · intro c hc
    obtain ⟨first, tail, rfl⟩ := List.exists_cons_of_ne_nil hne
    cases tail with
    | nil =>
      have hhead : c ∈ rest.head? := by simpa [List.head?_eq_getElem?] using hc
      exact (hrest c hhead).2
    | cons second tail =>
      have hcs : second = c := by simpa using hc
      subst hcs
      exact ne_x_of_isHexDigit (hdigits second (by simp))
  · exact fun c hc => (hrest c hc).1

theorem strtolHex_of_two_le {digits : List Char} (rest : List Char) (hlength : 2 ≤ digits.length)
    (hdigits : ∀ c ∈ digits, isHexDigit c = true) :
    strtolHex (digits ++ rest) =
      (clampLong (hexValue (digits ++ rest.takeWhile isHexDigit)), rest.dropWhile isHexDigit) := by
  have hne : digits ++ rest.takeWhile isHexDigit ≠ [] := by
    rintro h
    rw [(List.append_eq_nil_iff.mp h).1] at hlength
    simp at hlength
  have hall : ∀ c ∈ digits ++ rest.takeWhile isHexDigit, isHexDigit c = true := by
    intro c hc
    rcases List.mem_append.mp hc with hc | hc
    · exact hdigits c hc
    · exact List.mem_takeWhile_imp hc
  have hrun := strtolHex_run (rest.dropWhile isHexDigit) hne hall
    (fun c hc => ?_) (fun c hc => ?_)
  · rw [List.append_assoc, List.takeWhile_append_dropWhile] at hrun
    exact hrun
  · rw [List.append_assoc, List.takeWhile_append_dropWhile,
      List.getElem?_append_left (by omega)] at hc
    exact ne_x_of_isHexDigit (hdigits c (List.mem_of_getElem? hc))
  · have hstop := List.head?_dropWhile_not isHexDigit rest
    rw [Option.mem_def.mp hc] at hstop
    exact hstop

theorem clampLong_of_lt {value : Nat} (hvalue : value < 2 ^ 31) : clampLong value = value := by
  unfold clampLong
  omega

end VacuumCleaner.Lib.CText
