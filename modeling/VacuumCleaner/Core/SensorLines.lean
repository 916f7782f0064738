import VacuumCleaner.Core.Reception
import VacuumCleaner.Lib.Numeral
import Mathlib.Data.List.TakeWhile
import Mathlib.Tactic.Ring

/-! What stands in a sensor line, told without the core's pattern and its
shifts, and that `findall` and `int` read just that. -/
namespace VacuumCleaner.Core.SensorLines

open Lib Models Models.A1Data Reception

/-- Each digit counts at its place. -/
def numeralValue : List (Fin 10) → Nat
  | [] => 0
  | digit :: digits => digit.val * 10 ^ digits.length + numeralValue digits

/-- An output of a sensor: the digit of its id and the digits of its value. -/
structure SensorOutput where
  id : Fin 10
  digits : List (Fin 10)
  deriving DecidableEq, Repr

namespace SensorOutput

def value (output : SensorOutput) : Nat := numeralValue output.digits

/-- The digit of the id, a colon, the digits of the value and a semicolon. -/
def IsText (py : Runtime) (output : SensorOutput) (text : List Char) : Prop :=
  ∃ c numeral, text = c :: ':' :: (numeral ++ [';']) ∧ py.decimalDigit c = some output.id ∧
    output.digits ≠ [] ∧ numeral.map py.decimalDigit = output.digits.map some

end SensorOutput

/-- The outputs in a text from left to right. What is none is passed over. -/
inductive Shows (py : Runtime) : List Char → List SensorOutput → Prop
  | nil : Shows py [] []
  | output {output text rest outputs} (htext : SensorOutput.IsText py output text)
      (hrest : Shows py rest outputs) : Shows py (text ++ rest) (output :: outputs)
  | other {c rest outputs}
      (hnone : ∀ output text after, SensorOutput.IsText py output text → c :: rest ≠ text ++ after)
      (hrest : Shows py rest outputs) : Shows py (c :: rest) outputs

/-- A line with the outputs that stand in it. -/
structure Line (py : Runtime) where
  text : List Char
  outputs : List SensorOutput
  shows : Shows py text outputs
  deriving DecidableEq, Repr

/-- The two bits of a button in the value of the first sensor. -/
def pairOf : Button → Nat → Nat
  | .bluetooth, value => value / 64 % 4
  | .up, value => value / 16 % 4
  | .ok, value => value / 4 % 4
  | .down, value => value % 4

theorem pairOf_lt (button : Button) (value : Nat) : pairOf button value < 4 := by
  cases button <;> exact Nat.mod_lt _ (by decide)

theorem code_eq_pairOf (button : Button) (value : Nat) : button.code value = pairOf button value := by
  have hmask : ∀ shifted : Nat, shifted &&& 3 = shifted % 4 :=
    fun shifted => Nat.and_two_pow_sub_one_eq_mod shifted 2
  rw [Button.code, hmask, Nat.shiftRight_eq_div_pow]
  cases button
  case down => simp [Button.shift, pairOf]
  all_goals rfl

theorem chargingCode_eq (value : Nat) : chargingCode value = value / 8 % 4 := by
  have hmask : (value >>> 3) &&& 3 = (value >>> 3) % 4 :=
    Nat.and_two_pow_sub_one_eq_mod (value >>> 3) 2
  rw [chargingCode, hmask, Nat.shiftRight_eq_div_pow]

/-- The entry is what the pattern makes of the output. -/
structure Reads (py : Runtime) (entry : Entry) (output : SensorOutput) : Prop where
  id : entry.sensorId = output.id.val
  digits : entry.digits.map py.decimalDigit = output.digits.map some

theorem Reads.length {py : Runtime} {entry : Entry} {output : SensorOutput}
    (h : Reads py entry output) : entry.digits.length = output.digits.length := by
  simpa using congrArg List.length h.digits

theorem foldl_eq_numeralValue (digits : List (Fin 10)) (start : Nat) :
    digits.foldl (fun value digit => 10 * value + digit.val) start =
      start * 10 ^ digits.length + numeralValue digits := by
  induction digits generalizing start with
  | nil => simp [numeralValue]
  | cons digit digits ih =>
    rw [List.foldl_cons, ih, numeralValue, List.length_cons, Nat.pow_succ]
    ring

theorem Reads.value {py : Runtime} {entry : Entry} {output : SensorOutput}
    (h : Reads py entry output) : decimalValue py entry.digits = output.value := by
  have hfold : decimalValue py entry.digits = (entry.digits.map py.decimalDigit).foldl
      (fun value digit => 10 * value + (digit.map Fin.val).getD 0) 0 := by
    rw [List.foldl_map]
    rfl
  have hvalue := foldl_eq_numeralValue output.digits 0
  rw [Nat.zero_mul, Nat.zero_add] at hvalue
  rw [hfold, h.digits, List.foldl_map, SensorOutput.value, ← hvalue]
  rfl

theorem isDigit_of_map_eq {py : Runtime} {numeral : List Char} {digits : List (Fin 10)}
    (h : numeral.map py.decimalDigit = digits.map some) : ∀ c ∈ numeral, py.isDigit c = true := by
  intro c hc
  have hmember : py.decimalDigit c ∈ digits.map some := h ▸ List.mem_map_of_mem hc
  obtain ⟨digit, -, hdigit⟩ := List.mem_map.mp hmember
  rw [Runtime.isDigit, ← hdigit]
  rfl

theorem matchEntry_of_isText {py : Runtime} {output : SensorOutput} {text : List Char}
    (h : output.IsText py text) (rest : List Char) :
    ∃ entry, Reads py entry output ∧ matchEntry py (text ++ rest) = some (entry, text.length) := by
  obtain ⟨c, numeral, rfl, hid, hdigits, hnumeral⟩ := h
  refine ⟨⟨output.id.val, numeral⟩, ⟨rfl, hnumeral⟩, ?_⟩
  have hne : numeral ≠ [] := by
    rintro rfl
    exact hdigits (List.map_eq_nil_iff.mp hnumeral.symm)
  have htake := takeWhile_numeral (isDigit_of_map_eq hnumeral) rest
  have htext : (c :: ':' :: (numeral ++ [';'])) ++ rest = c :: ':' :: (numeral ++ ';' :: rest) := by
    simp
  rw [htext]
  simp only [matchEntry, hid, htake, List.drop_left, List.head?_cons]
  rw [if_pos ⟨hne, trivial⟩]
  simp

theorem map_eq_of_isDigit {py : Runtime} {numeral : List Char}
    (h : ∀ c ∈ numeral, py.isDigit c = true) :
    numeral.map py.decimalDigit = (numeral.filterMap py.decimalDigit).map some := by
  induction numeral with
  | nil => rfl
  | cons c numeral ih =>
    obtain ⟨digit, hdigit⟩ := Option.isSome_iff_exists.mp (h c (.head _))
    simp [hdigit, ih fun other hother => h other (.tail _ hother)]

theorem isText_of_matchEntry {py : Runtime} {text : List Char} {entry : Entry} {length : Nat}
    (h : matchEntry py text = some (entry, length)) :
    ∃ output shown after, SensorOutput.IsText py output shown ∧ text = shown ++ after := by
  unfold matchEntry at h
  split at h
  · rename_i c rest
    cases hid : py.decimalDigit c with
    | none =>
      rw [hid] at h
      cases h
    | some id =>
      rw [hid] at h
      dsimp only at h
      split at h
      · rename_i hmatch
        obtain ⟨hne, hend⟩ := hmatch
        have hnumeral : (rest.takeWhile py.isDigit).map py.decimalDigit =
            ((rest.takeWhile py.isDigit).filterMap py.decimalDigit).map some :=
          map_eq_of_isDigit fun c hc => List.mem_takeWhile_imp hc
        obtain ⟨behind, hbehind⟩ := List.takeWhile_prefix (l := rest) py.isDigit
        generalize rest.takeWhile py.isDigit = numeral at hne hend hnumeral hbehind
        subst hbehind
        rw [List.drop_left] at hend
        obtain ⟨after, rfl⟩ := List.head?_eq_some_iff.mp hend
        refine ⟨⟨id, numeral.filterMap py.decimalDigit⟩, _, after,
          ⟨c, numeral, rfl, hid, ?_, hnumeral⟩, by simp⟩
        intro hempty
        dsimp only at hempty
        rw [hempty] at hnumeral
        exact hne (List.map_eq_nil_iff.mp hnumeral)
      · cases h
  · cases h

/-- `findall` finds the outputs of a line and nothing else. -/
theorem reads_findEntries {py : Runtime} {text : List Char} {outputs : List SensorOutput}
    (h : Shows py text outputs) : List.Forall₂ (Reads py) (findEntries py 0 text) outputs := by
  induction h with
  | nil => exact .nil
  | @output output text rest outputs htext hrest ih =>
    obtain ⟨entry, hreads, hmatch⟩ := matchEntry_of_isText htext rest
    obtain ⟨c, numeral, rfl, -⟩ := htext
    have hskip := findEntries_skip py (':' :: (numeral ++ [';'])) rest
    rw [List.cons_append] at hmatch ⊢
    rw [findEntries, hmatch]
    exact .cons hreads (hskip.symm ▸ ih)
  | @other c rest outputs hnone hrest ih =>
    have hmatch : matchEntry py (c :: rest) = none := by
      by_contra hsome
      obtain ⟨⟨entry, length⟩, hentry⟩ := Option.ne_none_iff_exists'.mp hsome
      obtain ⟨output, shown, after, htext, heq⟩ := isText_of_matchEntry hentry
      exact hnone output shown after htext heq
    rw [findEntries, hmatch]
    exact ih

theorem exists_line (py : Runtime) (text : List Char) : ∃ line : Line py, line.text = text := by
  suffices hshows : ∃ outputs, Shows py text outputs by
    obtain ⟨outputs, hshows⟩ := hshows
    exact ⟨⟨text, outputs, hshows⟩, rfl⟩
  induction hlength : text.length using Nat.strong_induction_on generalizing text with
  | _ length ih =>
    subst hlength
    cases text with
    | nil => exact ⟨[], .nil⟩
    | cons c rest =>
      by_cases houtput : ∃ output text after, SensorOutput.IsText py output text ∧
          c :: rest = text ++ after
      · obtain ⟨output, text, after, htext, heq⟩ := houtput
        have hshorter : after.length < (c :: rest).length := by
          obtain ⟨_, _, rfl, -⟩ := htext
          rw [heq]
          simp
          omega
        obtain ⟨outputs, hshows⟩ := ih _ hshorter after rfl
        exact ⟨output :: outputs, heq ▸ .output htext hshows⟩
      · obtain ⟨outputs, hshows⟩ := ih rest.length (by simp) rest rfl
        refine ⟨outputs, .other ?_ hshows⟩
        intro output text after htext heq
        exact houtput ⟨output, text, after, htext, heq⟩

def buttonsText (digits : List (Fin 10)) : List Char :=
  '@' :: '1' :: ':' :: (digits.map (fun digit => digit.val.digitChar) ++ [';'])

theorem shows_buttonsText {digits : List (Fin 10)} (hdigits : digits ≠ []) :
    Shows asciiRuntime (buttonsText digits) [⟨Numeral.digit 1, digits⟩] := by
  have hchar : ∀ digit : Fin 10, asciiRuntime.decimalDigit digit.val.digitChar = some digit := by
    decide
  have hnumeral : (digits.map fun digit => digit.val.digitChar).map asciiRuntime.decimalDigit =
      digits.map some := by
    rw [List.map_map]
    exact List.map_congr_left fun digit _ => hchar digit
  have htext : SensorOutput.IsText asciiRuntime ⟨Numeral.digit 1, digits⟩
      ('1' :: ':' :: (digits.map (fun digit => digit.val.digitChar) ++ [';'])) :=
    ⟨'1', _, rfl, rfl, hdigits, hnumeral⟩
  apply Shows.other
  · rintro output text after ⟨c, numeral, rfl, hid, -⟩ heq
    have hat : '@' = c := (List.cons.inj heq).1
    rw [← hat] at hid
    cases hid
  · simpa using Shows.output htext .nil

/-- A line with one value of the first sensor. -/
def buttonsLine (digit : Fin 10) (digits : List (Fin 10)) : Line asciiRuntime where
  text := buttonsText (digit :: digits)
  outputs := [⟨Numeral.digit 1, digit :: digits⟩]
  shows := shows_buttonsText (List.cons_ne_nil digit digits)

end VacuumCleaner.Core.SensorLines
