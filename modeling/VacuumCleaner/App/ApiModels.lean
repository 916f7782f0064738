import VacuumCleaner.Lib.CText
import VacuumCleaner.Lib.Numeral
import VacuumCleaner.Lib.Pieces

/-! How the app reads the type of an algorithm's parameter (`AlgorithmParameter`),
and the filter that its number fields get. -/
namespace VacuumCleaner.App.ApiModels

open Lib.CText Lib.Numeral Lib.Pieces

/-- What the app's platform decides: the digits, the characters that a dot
matches, and the conversions of floating numbers. -/
structure Kotlin (F : Type) where
  decimalDigit : Char → Option (Fin 10)
  dot : Char → Bool
  doubleText : Decimal → List Char
  toFloat : List Char → Option F
  floatToInt : F → Int
  ascii_digit : ∀ c : Char, c.toNat < 128 →
    decimalDigit c = if 48 ≤ c.toNat ∧ c.toNat < 58 then some (digit (c.toNat - 48)) else none
  ascii_dot : ∀ c : Char, 32 ≤ c.toNat → c.toNat < 127 → dot c = true
  toFloat_doubleText : ∀ x, (toFloat (doubleText x)).isSome

/-- A platform that knows the ASCII digits only and keeps a float as its text. -/
def asciiKotlin : Kotlin (List Char) where
  decimalDigit c := if 48 ≤ c.toNat ∧ c.toNat < 58 then some (digit (c.toNat - 48)) else none
  dot c := c ≠ '\n' ∧ c ≠ '\r'
  doubleText := Decimal.repr
  toFloat text := if text.all (· ∈ Decimal.numeralChars) then some text else none
  floatToInt text := digitsNumber (text.takeWhile Char.isDigit)
  ascii_digit _ _ := rfl
  ascii_dot c hlow _ := by
    rw [decide_eq_true_eq]
    constructor <;> rintro rfl <;> exact absurd hlow (by decide)
  toFloat_doubleText x := by
    have hall : x.repr.all (· ∈ Decimal.numeralChars) = true :=
      List.all_eq_true.mpr fun _ hc => decide_eq_true (Decimal.mem_numeralChars_of_mem_repr hc)
    simp only [hall, if_true, Option.isSome_some]

/-- What Moshi reads for `Any`; a list or a map is kept as its text. -/
inductive Any
  | boolean (value : Bool)
  | double (value : Decimal)
  | string (text : List Char)
  | collection (text : List Char)

structure AlgorithmParameter where
  name : List Char
  valueType : List Char
  currentValue : Any
  defaultValue : Any

inductive ParameterKind (F : Type)
  | text (value default : List Char)
  | integer (value default : Int)
  | floating (value default : F)
  | intRange (start stop default : Int)
  | textChoice (values : List (List Char)) (default : List Char)
  | bool (value default : Bool)

inductive Raised
  | classCast
  | numberFormat
  | illegalState
  deriving DecidableEq

variable {F : Type} (kotlin : Kotlin F)

namespace Kotlin

def isDigit (c : Char) : Bool := (kotlin.decimalDigit c).isSome

def digitsValue (text : List Char) (start : Int) : Option Int :=
  text.foldlM (fun number c => (kotlin.decimalDigit c).map fun digit => 10 * number + digit.val) start

/-- A number that an `Int` can hold. -/
def toInt32 (number : Int) : Option Int :=
  if -0x80000000 ≤ number ∧ number < 0x80000000 then some number else none

/-- `Integer.parseInt`: none where it raises. -/
def parseInt (text : List Char) : Option Int :=
  let (negative, digits) := takeSign text
  if digits = [] then none
  else (kotlin.digitsValue digits 0).bind fun number =>
    toInt32 (if negative then -number else number)

/-- `(\d+)..(\d+)` at the start of a text, the first group at most `count` long.
The dots match any character of the line. -/
def matchRange (text : List Char) : (count : Nat) → Option (List Char × List Char)
  | 0 => none
  | count + 1 =>
    match text.drop (count + 1) with
    | first :: second :: rest =>
      if kotlin.dot first ∧ kotlin.dot second ∧ rest.takeWhile kotlin.isDigit ≠ [] then
        some (text.take (count + 1), rest.takeWhile kotlin.isDigit)
      else matchRange text count
    | _ => matchRange text count

/-- `rangeTypeRegex.find`. -/
def findRange : List Char → Option (List Char × List Char)
  | [] => none
  | c :: text =>
    (kotlin.matchRange (c :: text) ((c :: text).takeWhile kotlin.isDigit).length).or
      (findRange text)

end Kotlin

/-- `choiceTypeRegex.findAll`, over `[^,]+`. -/
def findChoices (text : List Char) : List (List Char) := pieces ',' text

namespace Any

def asBoolean : Any → Except Raised Bool
  | boolean value => .ok value
  | _ => .error .classCast

def asString : Any → Except Raised (List Char)
  | string text => .ok text
  | _ => .error .classCast

def toText : Any → List Char
  | boolean value => if value then "true".toList else "false".toList
  | double value => kotlin.doubleText value
  | string text | collection text => text

/-- `toString().toFloat()`. -/
def toFloat (value : Any) : Except Raised F :=
  match kotlin.toFloat (value.toText kotlin) with
  | some number => .ok number
  | none => .error .numberFormat

end Any

def toInt (text : List Char) : Except Raised Int :=
  match kotlin.parseInt text with
  | some number => .ok number
  | none => .error .numberFormat

namespace AlgorithmParameter

/-- The branches of `getType` that go by a pattern. -/
def patternType (parameter : AlgorithmParameter) : Except Raised (ParameterKind F) :=
  match kotlin.findRange parameter.valueType with
  | some (start, stop) => do
    return .intRange (← toInt kotlin start) (← toInt kotlin stop)
      (kotlin.floatToInt (← parameter.defaultValue.toFloat kotlin))
  | none =>
    if findChoices parameter.valueType ≠ [] then
      .ok (.textChoice (findChoices parameter.valueType) (parameter.defaultValue.toText kotlin))
    else .error .illegalState

def getType (parameter : AlgorithmParameter) : Except Raised (ParameterKind F) :=
  if parameter.valueType = "boolean".toList then do
    return .bool (← parameter.currentValue.asBoolean) (← parameter.defaultValue.asBoolean)
  else if parameter.valueType = "string".toList then do
    return .text (← parameter.currentValue.asString) (← parameter.defaultValue.asString)
  else if parameter.valueType = "integer".toList then do
    return .integer (kotlin.floatToInt (← parameter.currentValue.toFloat kotlin))
      (kotlin.floatToInt (← parameter.defaultValue.toFloat kotlin))
  else if parameter.valueType = "floating".toList then do
    return .floating (← parameter.currentValue.toFloat kotlin)
      (← parameter.defaultValue.toFloat kotlin)
  else parameter.patternType kotlin

end AlgorithmParameter

namespace InputFilterMinMax

def isInRange (a b c : Int) : Bool :=
  if b > a then a ≤ c && c ≤ b else b ≤ c && c ≤ a

/-- None lets the input through, the empty text drops it. -/
def filter (min max : Int) (source dest : List Char) : Option (List Char) :=
  match kotlin.parseInt (dest ++ source) with
  | some input => if isInRange min max input then none else some []
  | none => some []

end InputFilterMinMax

namespace Kotlin

variable {kotlin : Kotlin F}

theorem decimalDigit_of_isDigit {c : Char} (hc : c.isDigit = true) :
    ∃ digit : Fin 10, kotlin.decimalDigit c = some digit ∧ digit.val = c.toNat - 48 := by
  simp only [Char.isDigit, Bool.and_eq_true, decide_eq_true_eq] at hc
  have hlow : 48 ≤ c.toNat := hc.1
  have hhigh : c.toNat ≤ 57 := hc.2
  rw [kotlin.ascii_digit c (by omega), if_pos ⟨hlow, by omega⟩]
  refine ⟨_, rfl, ?_⟩
  rw [digit, Fin.val_ofNat, Nat.mod_eq_of_lt (by omega)]

theorem isDigit_of_isDigit {c : Char} (hc : c.isDigit = true) : kotlin.isDigit c = true := by
  obtain ⟨digit, hdigit, -⟩ := kotlin.decimalDigit_of_isDigit hc
  rw [isDigit, hdigit]
  rfl

/-- Two digits stand three places apart, on one line. -/
def DigitsApart (kotlin : Kotlin F) (text : List Char) : Prop :=
  ∃ before first second third fourth after,
    text = before ++ first :: second :: third :: fourth :: after ∧ kotlin.isDigit first = true ∧
      kotlin.dot second = true ∧ kotlin.dot third = true ∧ kotlin.isDigit fourth = true

theorem takeWhile_isDigit_ne_nil {text : List Char} (h : text.takeWhile kotlin.isDigit ≠ []) :
    ∃ digit after, text = digit :: after ∧ kotlin.isDigit digit = true := by
  cases text with
  | nil => exact absurd rfl h
  | cons digit after =>
    refine ⟨digit, after, rfl, ?_⟩
    by_contra hdigit
    exact h (List.takeWhile_cons_of_neg hdigit)

theorem matchRange_eq_some {text start stop : List Char} {count : Nat}
    (h : kotlin.matchRange text count = some (start, stop)) :
    ∃ length first second rest, 0 < length ∧ length ≤ count ∧ start = text.take length ∧
      text.drop length = first :: second :: rest ∧ kotlin.dot first = true ∧
      kotlin.dot second = true ∧ stop = rest.takeWhile kotlin.isDigit ∧ stop ≠ [] := by
  induction count with
  | zero => cases h
  | succ count ih =>
    unfold matchRange at h
    split at h
    · rename_i first second rest hdrop
      split at h
      · rename_i hdots
        cases h
        exact ⟨count + 1, first, second, rest, by omega, by omega, rfl, hdrop, hdots.1, hdots.2.1,
          rfl, hdots.2.2⟩
      · obtain ⟨length, first, second, rest, hpos, hle, hmatch⟩ := ih h
        exact ⟨length, first, second, rest, hpos, by omega, hmatch⟩
    · obtain ⟨length, first, second, rest, hpos, hle, hmatch⟩ := ih h
      exact ⟨length, first, second, rest, hpos, by omega, hmatch⟩

theorem matchRange_ne_none {text : List Char} {first second third fourth : Char}
    (hsecond : kotlin.dot second = true) (hthird : kotlin.dot third = true)
    (hfourth : kotlin.isDigit fourth = true) {count : Nat} (hcount : 0 < count) :
    kotlin.matchRange (first :: second :: third :: fourth :: text) count ≠ none := by
  induction count with
  | zero => omega
  | succ count ih =>
    unfold matchRange
    split
    · rename_i c d rest hdrop
      split
      · simp
      · rename_i hdots
        apply ih
        by_contra hzero
        obtain rfl : count = 0 := by omega
        simp only [Nat.zero_add, List.drop_succ_cons, List.drop_zero, List.cons.injEq] at hdrop
        obtain ⟨rfl, rfl, rfl⟩ := hdrop
        exact hdots ⟨hsecond, hthird, by simp [hfourth]⟩
    · rename_i hdrop
      apply ih
      by_contra hzero
      obtain rfl : count = 0 := by omega
      exact hdrop _ _ _ rfl

theorem findRange_ne_none_iff {text : List Char} :
    kotlin.findRange text ≠ none ↔ kotlin.DigitsApart text := by
  constructor
  · intro h
    induction text with
    | nil => exact absurd rfl h
    | cons c text ih =>
      cases hmatch : kotlin.matchRange (c :: text)
          ((c :: text).takeWhile kotlin.isDigit).length with
      | none =>
        rw [findRange, hmatch, Option.none_or] at h
        obtain ⟨before, a, b, d, e, after, htext, hrest⟩ := ih h
        exact ⟨c :: before, a, b, d, e, after, by rw [htext]; rfl, hrest⟩
      | some found =>
        obtain ⟨start, stop⟩ := found
        obtain ⟨length, first, second, rest, hpos, hle, -, hdrop, hfirst, hsecond, hstop, hne⟩ :=
          matchRange_eq_some hmatch
        rw [hstop] at hne
        obtain ⟨digit, after, hrest, hdigit⟩ := takeWhile_isDigit_ne_nil hne
        -- the last character of the first group
        have hlength : length - 1 < (c :: text).length := by
          have := ( List.takeWhile_prefix (l := c :: text) kotlin.isDigit).length_le
          omega
        have hlast : kotlin.isDigit (c :: text)[length - 1] = true := by
          have hmem : (c :: text)[length - 1] ∈ (c :: text).takeWhile kotlin.isDigit := by
            rw [← ( List.takeWhile_prefix (l := c :: text) kotlin.isDigit).getElem (by omega)]
            exact List.getElem_mem _
          exact List.mem_takeWhile_imp hmem
        refine ⟨(c :: text).take (length - 1), _, first, second, digit, after, ?_, hlast, hfirst,
          hsecond, hdigit⟩
        rw [← hrest, ← hdrop]
        have hsucc : length - 1 + 1 = length := by omega
        conv_lhs => rw [← List.take_append_drop (length - 1) (c :: text)]
        rw [List.drop_eq_getElem_cons hlength, hsucc]
  · rintro ⟨before, first, second, third, fourth, after, rfl, hfirst, hsecond, hthird, hfourth⟩
    induction before with
    | nil =>
      have hmatch : kotlin.matchRange (first :: second :: third :: fourth :: after)
          ((first :: second :: third :: fourth :: after).takeWhile kotlin.isDigit).length ≠ none :=
        matchRange_ne_none hsecond hthird hfourth (by simp [hfirst])
      obtain ⟨found, hfound⟩ := Option.ne_none_iff_exists'.mp hmatch
      rw [List.nil_append, findRange, hfound]
      simp
    | cons c before ih =>
      obtain ⟨found, hfound⟩ := Option.ne_none_iff_exists'.mp ih
      rw [List.cons_append, findRange, hfound]
      cases kotlin.matchRange _ _ <;> simp

theorem isDigit_of_findRange {text start stop : List Char}
    (h : kotlin.findRange text = some (start, stop)) :
    (∀ c ∈ start, kotlin.isDigit c = true) ∧ ∀ c ∈ stop, kotlin.isDigit c = true := by
  induction text with
  | nil => cases h
  | cons c text ih =>
    rw [findRange, Option.or_eq_some_iff] at h
    rcases h with hmatch | ⟨-, hrest⟩
    · obtain ⟨length, first, second, rest, -, hle, hstart, -, -, -, hstop, -⟩ :=
        matchRange_eq_some hmatch
      constructor
      · intro d hd
        have hinitial : start <+: (c :: text).takeWhile kotlin.isDigit := by
          rw [hstart]
          apply List.prefix_of_prefix_length_le ( List.take_prefix _ _) ( List.takeWhile_prefix _)
          exact (List.length_take_le _ _).trans hle
        exact List.mem_takeWhile_imp (hinitial.subset hd)
      · intro d hd
        rw [hstop] at hd
        exact List.mem_takeWhile_imp hd
    · exact ih hrest

theorem isDigit_dot : kotlin.isDigit '.' = false := by
  rw [isDigit, kotlin.ascii_digit '.' (by decide), if_neg (by decide)]
  rfl

theorem findRange_range {start stop : List Char} (hstart : start ≠ []) (hstop : stop ≠ [])
    (hstartDigits : ∀ c ∈ start, kotlin.isDigit c = true)
    (hstopDigits : ∀ c ∈ stop, kotlin.isDigit c = true) :
    kotlin.findRange (start ++ '.' :: '.' :: stop) = some (start, stop) := by
  obtain ⟨c, rest, rfl⟩ := List.exists_cons_of_ne_nil hstart
  have hrun : (c :: rest ++ '.' :: '.' :: stop).takeWhile kotlin.isDigit = c :: rest := by
    rw [List.takeWhile_append_of_pos hstartDigits, List.takeWhile_cons_of_neg (by simp [isDigit_dot]),
      List.append_nil]
  have hstopRun : stop.takeWhile kotlin.isDigit = stop := List.takeWhile_eq_self_iff.mpr hstopDigits
  have hdot : kotlin.dot '.' = true := kotlin.ascii_dot '.' (by decide) (by decide)
  have hmatch : kotlin.matchRange (c :: rest ++ '.' :: '.' :: stop) (rest.length + 1) =
      some (c :: rest, stop) := by
    rw [matchRange, ← List.length_cons (a := c), List.drop_left, List.take_left]
    simp [hdot, hstopRun, hstop]
  rw [List.cons_append, findRange, ← List.cons_append, hrun, List.length_cons, hmatch,
    Option.some_or]

theorem digitsValue_nonneg {text : List Char} {start number : Int} (hstart : 0 ≤ start)
    (h : kotlin.digitsValue text start = some number) : 0 ≤ number := by
  induction text generalizing start with
  | nil =>
    cases h
    exact hstart
  | cons c text ih =>
    rw [digitsValue, List.foldlM_cons] at h
    obtain ⟨value, hvalue, hrest⟩ := Option.bind_eq_some_iff.mp h
    obtain ⟨digit, -, rfl⟩ := Option.map_eq_some_iff.mp hvalue
    exact ih (by omega) hrest

theorem digitsValue_toDigits (kotlin : Kotlin F) (number : Nat) :
    kotlin.digitsValue (Nat.toDigits 10 number) 0 = some (number : Int) := by
  have hfold : ∀ (digits : List Char) (start : Nat), (∀ c ∈ digits, c.isDigit = true) →
      kotlin.digitsValue digits start = some (Nat.ofDigitChars 10 digits start : Int) := by
    intro digits
    induction digits with
    | nil => exact fun _ _ => rfl
    | cons c digits ih =>
      intro start hdigits
      obtain ⟨digit, hdigit, hvalue⟩ := kotlin.decimalDigit_of_isDigit (hdigits c (.head _))
      have hrest := ih (10 * start + (c.toNat - 48)) fun d hd => hdigits d (.tail _ hd)
      rw [digitsValue, List.foldlM_cons, hdigit, Nat.ofDigitChars_cons]
      simp only [Option.map_some, Option.bind_eq_bind, Option.bind_some, hvalue]
      exact_mod_cast hrest
  have hnumber := hfold _ 0 fun c => Nat.isDigit_of_mem_toDigits (b := 10) (n := number) (by decide)
    (by decide)
  rwa [Nat.ofDigitChars_ten_toDigits] at hnumber

theorem takeSign_of_isDigit {text : List Char} (h : ∀ c ∈ text, kotlin.isDigit c = true) :
    takeSign text = (false, text) := by
  have hsign : ∀ c : Char, c = '-' ∨ c = '+' → kotlin.isDigit c = false := by
    rintro c (rfl | rfl)
    · rw [isDigit, kotlin.ascii_digit '-' (by decide), if_neg (by decide)]
      rfl
    · rw [isDigit, kotlin.ascii_digit '+' (by decide), if_neg (by decide)]
      rfl
  unfold takeSign
  split
  · have := h '-' (.head _)
    rw [hsign _ (.inl rfl)] at this
    cases this
  · have := h '+' (.head _)
    rw [hsign _ (.inr rfl)] at this
    cases this
  · rfl

theorem toInt32_eq_some {number value : Int} (h : toInt32 number = some value) :
    (-0x80000000 ≤ number ∧ number < 0x80000000) ∧ number = value := by
  unfold toInt32 at h
  split at h
  · rename_i hfits
    exact ⟨hfits, Option.some.inj h⟩
  · cases h

theorem parseInt_of_isDigit {text : List Char} (hne : text ≠ [])
    (hdigits : ∀ c ∈ text, kotlin.isDigit c = true) :
    kotlin.parseInt text = (kotlin.digitsValue text 0).bind toInt32 := by
  rw [parseInt, takeSign_of_isDigit hdigits]
  exact if_neg hne

theorem parseInt_nonneg {text : List Char} {number : Int}
    (hdigits : ∀ c ∈ text, kotlin.isDigit c = true) (h : kotlin.parseInt text = some number) :
    0 ≤ number := by
  have hne : text ≠ [] := by
    rintro rfl
    cases h
  rw [parseInt_of_isDigit hne hdigits] at h
  obtain ⟨value, hvalue, hfits⟩ := Option.bind_eq_some_iff.mp h
  obtain ⟨-, rfl⟩ := toInt32_eq_some hfits
  exact digitsValue_nonneg (Int.le_refl 0) hvalue

theorem parseInt_toDigits (kotlin : Kotlin F) (number : Nat) :
    kotlin.parseInt (Nat.toDigits 10 number) = toInt32 number := by
  have hdigits : ∀ c ∈ Nat.toDigits 10 number, kotlin.isDigit c = true := fun c hc =>
    isDigit_of_isDigit (Nat.isDigit_of_mem_toDigits (by decide) (by decide) hc)
  rw [parseInt_of_isDigit Nat.toDigits_ne_nil hdigits, digitsValue_toDigits, Option.bind_some]

end Kotlin

end VacuumCleaner.App.ApiModels
