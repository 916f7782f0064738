import VacuumCleaner.App.ApiModels
import VacuumCleaner.Core.AlgorithmArguments
import VacuumCleaner.Lib.Fallible

/-! The type of a parameter on its way from the core, which prints it, to the
app, which recognises it by its text. -/
namespace VacuumCleaner.Link.ParameterTypes

open Lib Lib.Json Lib.Pieces Core.AlgorithmArguments App.ApiModels
open App.ApiModels (AlgorithmParameter)

variable {F : Type} (kotlin : Kotlin F) (other : Value → List Char)

/-- The integers that the filter of a number field lets in. -/
def admits (start stop number : Int) : Prop :=
  InputFilterMinMax.filter kotlin start stop (Number.int number).str [] = none

/-- The app takes the type for what it is. -/
def Matches (type : ParameterType) (kind : ParameterKind F) : Prop :=
  match type with
  | .range lower upper => ∃ start stop default, kind = .intRange start stop default ∧
      ∀ number, admits kotlin start stop number ↔
        doesValueMeetType (.range lower upper) (.number (.int number)) = true
  | .list values => ∃ default, kind = .textChoice (values.map (strOf other)) default
  | .bool => ∃ value default, kind = .bool value default
  | .str => ∃ value default, kind = .text value default
  | .int => ∃ value default, kind = .integer value default
  | .float => ∃ value default, kind = .floating value default

/-- How Moshi holds the values of a type. -/
def Carries : ParameterType → Any → Prop
  | .bool, value => ∃ flag, value = .boolean flag
  | .str, value => ∃ text, value = .string text
  | .range .., value | .int, value | .float, value => ∃ number, value = .double number
  | .list _, _ => True

/-- Ranges with something in them, and lists of strings and integers. -/
def Supported : ParameterType → Prop
  | .range start stop => start < stop
  | .list values => values ≠ [] ∧
      ∀ value ∈ values, (∃ text, value = .string text) ∨ ∃ number, value = .number (.int number)
  | _ => True

def Understood (type : ParameterType) : Prop :=
  ∀ name current default, Carries type current → Carries type default →
    ∃ kind, AlgorithmParameter.getType kotlin
      ⟨name, representType other type, current, default⟩ = .ok kind ∧ Matches kotlin other type kind

def primitiveTypes : List (List Char) :=
  ["boolean".toList, "string".toList, "integer".toList, "floating".toList]

/-- The printed text of a list is no other type's, and its items come apart. -/
def Unambiguous : ParameterType → Prop
  | .range .. => False
  | .list values => representType other (.list values) ∉ primitiveTypes ∧
      ¬ kotlin.DigitsApart (representType other (.list values)) ∧
      ∀ value ∈ values, strOf other value ≠ [] ∧ ',' ∉ strOf other value
  | _ => True

section GetType

variable {kotlin} {parameter : AlgorithmParameter}

theorem getType_of_not_primitive (h : parameter.valueType ∉ primitiveTypes) :
    parameter.getType kotlin = parameter.patternType kotlin := by
  simp only [primitiveTypes, List.mem_cons, List.not_mem_nil, or_false, not_or] at h
  obtain ⟨hboolean, hstring, hinteger, hfloating⟩ := h
  rw [AlgorithmParameter.getType, if_neg hboolean, if_neg hstring, if_neg hinteger,
    if_neg hfloating]

theorem getType_of_primitive {kind : ParameterKind F} (h : parameter.valueType ∈ primitiveTypes)
    (hkind : parameter.getType kotlin = .ok kind) :
    (∃ value default, kind = .bool value default) ∨ (∃ value default, kind = .text value default) ∨
      (∃ value default, kind = .integer value default) ∨
      ∃ value default, kind = .floating value default := by
  simp only [primitiveTypes, List.mem_cons, List.not_mem_nil, or_false] at h
  unfold AlgorithmParameter.getType at hkind
  rcases h with htext | htext | htext | htext
  · rw [if_pos htext] at hkind
    obtain ⟨value, -, hkind⟩ := bind_ok hkind
    obtain ⟨default, -, hkind⟩ := bind_ok hkind
    cases hkind
    exact .inl ⟨value, default, rfl⟩
  · rw [if_neg (by rw [htext]; decide), if_pos htext] at hkind
    obtain ⟨value, -, hkind⟩ := bind_ok hkind
    obtain ⟨default, -, hkind⟩ := bind_ok hkind
    cases hkind
    exact .inr (.inl ⟨value, default, rfl⟩)
  · rw [if_neg (by rw [htext]; decide), if_neg (by rw [htext]; decide), if_pos htext] at hkind
    obtain ⟨value, -, hkind⟩ := bind_ok hkind
    obtain ⟨default, -, hkind⟩ := bind_ok hkind
    cases hkind
    exact .inr (.inr (.inl ⟨_, _, rfl⟩))
  · rw [if_neg (by rw [htext]; decide), if_neg (by rw [htext]; decide),
      if_neg (by rw [htext]; decide), if_pos htext] at hkind
    obtain ⟨value, -, hkind⟩ := bind_ok hkind
    obtain ⟨default, -, hkind⟩ := bind_ok hkind
    cases hkind
    exact .inr (.inr (.inr ⟨_, _, rfl⟩))

theorem toInt_eq_ok {text : List Char} {number : Int} (h : toInt kotlin text = .ok number) :
    kotlin.parseInt text = some number := by
  unfold toInt at h
  split at h
  · cases h
    assumption
  · cases h

theorem patternType_eq_ok {kind : ParameterKind F} (h : parameter.patternType kotlin = .ok kind) :
    (∃ start stop default startText stopText, kind = .intRange start stop default ∧
      kotlin.findRange parameter.valueType = some (startText, stopText) ∧
      kotlin.parseInt startText = some start ∧ kotlin.parseInt stopText = some stop) ∨
    ∃ default, kind = .textChoice (findChoices parameter.valueType) default ∧
      kotlin.findRange parameter.valueType = none := by
  unfold AlgorithmParameter.patternType at h
  cases hfind : kotlin.findRange parameter.valueType with
  | none =>
    rw [hfind] at h
    simp only at h
    split at h
    · cases h
      exact .inr ⟨_, rfl, rfl⟩
    · cases h
  | some found =>
    obtain ⟨startText, stopText⟩ := found
    rw [hfind] at h
    obtain ⟨start, hstart, h⟩ := bind_ok h
    obtain ⟨stop, hstop, h⟩ := bind_ok h
    obtain ⟨value, -, h⟩ := bind_ok h
    cases h
    exact .inl ⟨start, stop, _, startText, stopText, rfl, rfl, toInt_eq_ok hstart,
      toInt_eq_ok hstop⟩

theorem getType_eq_intRange {start stop default : Int}
    (h : parameter.getType kotlin = .ok (.intRange start stop default)) :
    ∃ startText stopText, kotlin.findRange parameter.valueType = some (startText, stopText) ∧
      kotlin.parseInt startText = some start ∧ kotlin.parseInt stopText = some stop := by
  by_cases hprimitive : parameter.valueType ∈ primitiveTypes
  · rcases getType_of_primitive hprimitive h with ⟨_, _, hkind⟩ | ⟨_, _, hkind⟩ | ⟨_, _, hkind⟩ |
      ⟨_, _, hkind⟩ <;> cases hkind
  · rw [getType_of_not_primitive hprimitive] at h
    rcases patternType_eq_ok h with ⟨_, _, _, startText, stopText, hkind, hfound⟩ | ⟨_, hkind, -⟩
    · cases hkind
      exact ⟨startText, stopText, hfound⟩
    · cases hkind

theorem getType_eq_textChoice {choices : List (List Char)} {default : List Char}
    (h : parameter.getType kotlin = .ok (.textChoice choices default)) :
    parameter.valueType ∉ primitiveTypes ∧ kotlin.findRange parameter.valueType = none ∧
      findChoices parameter.valueType = choices := by
  by_cases hprimitive : parameter.valueType ∈ primitiveTypes
  · rcases getType_of_primitive hprimitive h with ⟨_, _, hkind⟩ | ⟨_, _, hkind⟩ | ⟨_, _, hkind⟩ |
      ⟨_, _, hkind⟩ <;> cases hkind
  · rw [getType_of_not_primitive hprimitive] at h
    rcases patternType_eq_ok h with ⟨_, _, _, _, _, hkind, -⟩ | ⟨_, hkind, hnone⟩
    · cases hkind
    · cases hkind
      exact ⟨hprimitive, hnone, rfl⟩

end GetType

/-! Ranges. -/

theorem str_ofNat (number : Nat) : (Number.int number).str = Nat.toDigits 10 number := by
  rw [str_int, if_neg (by simp)]
  rfl

theorem parseInt_str (number : Int) :
    kotlin.parseInt (Number.int number).str = Kotlin.toInt32 number := by
  cases number with
  | ofNat number =>
    rw [Int.ofNat_eq_natCast, str_ofNat, kotlin.parseInt_toDigits]
  | negSucc number =>
    have hstr : (Number.int (Int.negSucc number)).str = '-' :: Nat.toDigits 10 (number + 1) := by
      rw [str_int, if_pos (by simp)]
      rfl
    rw [hstr, Kotlin.parseInt]
    have hsign : Lib.CText.takeSign ('-' :: Nat.toDigits 10 (number + 1)) =
        (true, Nat.toDigits 10 (number + 1)) := rfl
    rw [hsign]
    simp only
    rw [if_neg Nat.toDigits_ne_nil, kotlin.digitsValue_toDigits, Option.bind_some, if_pos trivial,
      Int.negSucc_eq]
    norm_cast

theorem admits_iff (start stop number : Int) : admits kotlin start stop number ↔
    (-0x80000000 ≤ number ∧ number < 0x80000000) ∧
      InputFilterMinMax.isInRange start stop number = true := by
  unfold admits InputFilterMinMax.filter
  rw [List.nil_append, parseInt_str, Kotlin.toInt32]
  by_cases hfits : -0x80000000 ≤ number ∧ number < 0x80000000
  · rw [if_pos hfits]
    cases hrange : InputFilterMinMax.isInRange start stop number <;> simp [hfits, hrange]
  · rw [if_neg hfits]
    simp [hfits]

theorem meets_range_iff (start stop number : Int) :
    doesValueMeetType (.range start stop) (.number (.int number)) = true ↔
      start ≤ number ∧ number < stop := by
  simp [doesValueMeetType, asInteger, asNumber]

theorem not_matches_range {start stop : Int} (hlt : start < stop) {name : List Char}
    {current default : Any} {kind : ParameterKind F}
    (hkind : AlgorithmParameter.getType kotlin
      ⟨name, representType other (.range start stop), current, default⟩ = .ok kind) :
    ¬ Matches kotlin other (.range start stop) kind := by
  rintro ⟨first, last, _, rfl, hmatches⟩
  obtain ⟨firstText, lastText, hfind, hfirst, hlast⟩ := getType_eq_intRange hkind
  by_cases hstart : start < 0
  · obtain ⟨hfirstDigits, hlastDigits⟩ := Kotlin.isDigit_of_findRange hfind
    have hfirstNonneg := Kotlin.parseInt_nonneg hfirstDigits hfirst
    have hlastNonneg := Kotlin.parseInt_nonneg hlastDigits hlast
    have hadmits := (hmatches start).mpr ((meets_range_iff ..).mpr ⟨Int.le_refl _, hlt⟩)
    have hrange := ((admits_iff ..).mp hadmits).2
    unfold InputFilterMinMax.isInRange at hrange
    split at hrange <;> simp only [Bool.and_eq_true, decide_eq_true_eq] at hrange <;> omega
  · obtain ⟨lower, rfl⟩ := Int.eq_ofNat_of_zero_le (Int.not_lt.mp hstart)
    obtain ⟨upper, rfl⟩ := Int.eq_ofNat_of_zero_le (a := stop) (by omega)
    have hdigits : ∀ number : Nat, ∀ c ∈ Nat.toDigits 10 number, kotlin.isDigit c = true :=
      fun number c hc => Kotlin.isDigit_of_isDigit
        (Nat.isDigit_of_mem_toDigits (by decide) (by decide) hc)
    simp only [representType_range, str_ofNat] at hfind
    rw [Kotlin.findRange_range Nat.toDigits_ne_nil Nat.toDigits_ne_nil (hdigits lower)
      (hdigits upper)] at hfind
    cases hfind
    rw [kotlin.parseInt_toDigits] at hfirst hlast
    obtain ⟨-, rfl⟩ := Kotlin.toInt32_eq_some hfirst
    obtain ⟨hfits, rfl⟩ := Kotlin.toInt32_eq_some hlast
    have hadmits : admits kotlin lower upper upper := by
      rw [admits_iff]
      refine ⟨hfits, ?_⟩
      unfold InputFilterMinMax.isInRange
      rw [if_pos hlt]
      simp only [Bool.and_eq_true, decide_eq_true_eq]
      omega
    have hmeets := (meets_range_iff ..).mp ((hmatches upper).mp hadmits)
    omega

/-! Lists. -/

theorem unambiguous_of_matches {values : List Value} {name : List Char} {current default : Any}
    {kind : ParameterKind F} (hne : values ≠ [])
    (hkind : AlgorithmParameter.getType kotlin
      ⟨name, representType other (.list values), current, default⟩ = .ok kind)
    (hmatches : Matches kotlin other (.list values) kind) :
    Unambiguous kotlin other (.list values) := by
  obtain ⟨_, rfl⟩ := hmatches
  obtain ⟨hprimitive, hfind, hchoices⟩ := getType_eq_textChoice hkind
  rw [findChoices, representType_list, pieces_intercalate_iff ',' (by simpa using hne)] at hchoices
  refine ⟨hprimitive, fun hapart => Kotlin.findRange_ne_none_iff.mpr hapart hfind, ?_⟩
  intro value hvalue
  exact hchoices _ (List.mem_map_of_mem hvalue)

theorem getType_list {values : List Value} (hne : values ≠ [])
    (h : Unambiguous kotlin other (.list values)) (name : List Char) (current default : Any) :
    AlgorithmParameter.getType kotlin
      ⟨name, representType other (.list values), current, default⟩ =
        .ok (.textChoice (values.map (strOf other)) (default.toText kotlin)) := by
  obtain ⟨hprimitive, hapart, hitems⟩ := h
  have hchoices : findChoices (representType other (.list values)) = values.map (strOf other) := by
    apply (pieces_intercalate_iff ',' (by simpa using hne)).mpr
    intro item hitem
    obtain ⟨value, hvalue, rfl⟩ := List.mem_map.mp hitem
    exact hitems value hvalue
  have hfind : kotlin.findRange (representType other (.list values)) = none := by
    by_contra hsome
    exact hapart (Kotlin.findRange_ne_none_iff.mp hsome)
  rw [getType_of_not_primitive hprimitive, AlgorithmParameter.patternType]
  simp only
  rw [hfind, hchoices]
  exact if_pos (by simpa using hne)

/-! The primitive types. -/

theorem exists_toFloat (value : Lib.Numeral.Decimal) :
    ∃ number, (Any.double value).toFloat kotlin = .ok number := by
  obtain ⟨number, hnumber⟩ := Option.isSome_iff_exists.mp (kotlin.toFloat_doubleText value)
  exact ⟨number, by rw [Any.toFloat, Any.toText, hnumber]⟩

theorem getType_int (name : List Char) (current default : Any) :
    AlgorithmParameter.getType kotlin ⟨name, representType other .int, current, default⟩ = do
      return .integer (kotlin.floatToInt (← current.toFloat kotlin))
        (kotlin.floatToInt (← default.toFloat kotlin)) := rfl

theorem getType_float (name : List Char) (current default : Any) :
    AlgorithmParameter.getType kotlin ⟨name, representType other .float, current, default⟩ = do
      return .floating (← current.toFloat kotlin) (← default.toFloat kotlin) := rfl

theorem understood_primitive {type : ParameterType}
    (h : type = .bool ∨ type = .str ∨ type = .int ∨ type = .float) :
    Understood kotlin other type := by
  intro name current default hcurrent hdefault
  rcases h with rfl | rfl | rfl | rfl
  · obtain ⟨value, rfl⟩ := hcurrent
    obtain ⟨default, rfl⟩ := hdefault
    exact ⟨.bool value default, rfl, value, default, rfl⟩
  · obtain ⟨text, rfl⟩ := hcurrent
    obtain ⟨default, rfl⟩ := hdefault
    exact ⟨.text text default, rfl, text, default, rfl⟩
  · obtain ⟨number, rfl⟩ := hcurrent
    obtain ⟨default, rfl⟩ := hdefault
    obtain ⟨value, hvalue⟩ := exists_toFloat kotlin number
    obtain ⟨standard, hstandard⟩ := exists_toFloat kotlin default
    refine ⟨.integer (kotlin.floatToInt value) (kotlin.floatToInt standard), ?_, _, _, rfl⟩
    rw [getType_int, hvalue, hstandard]
    rfl
  · obtain ⟨number, rfl⟩ := hcurrent
    obtain ⟨default, rfl⟩ := hdefault
    obtain ⟨value, hvalue⟩ := exists_toFloat kotlin number
    obtain ⟨standard, hstandard⟩ := exists_toFloat kotlin default
    refine ⟨.floating value standard, ?_, _, _, rfl⟩
    rw [getType_float, hvalue, hstandard]
    rfl

theorem exists_carries (type : ParameterType) : ∃ value, Carries type value := by
  cases type with
  | list => exact ⟨.string [], trivial⟩
  | bool => exact ⟨.boolean true, true, rfl⟩
  | str => exact ⟨.string [], [], rfl⟩
  | _ => exact ⟨.double Smart.one, Smart.one, rfl⟩

/-- The app understands the primitive types and the unambiguous lists, and no range. -/
theorem understood_iff (type : ParameterType) (hsupported : Supported type) :
    Understood kotlin other type ↔ Unambiguous kotlin other type := by
  obtain ⟨value, hvalue⟩ := exists_carries type
  constructor
  · intro hunderstood
    obtain ⟨kind, hkind, hmatches⟩ := hunderstood [] value value hvalue hvalue
    cases type with
    | range start stop => exact not_matches_range kotlin other hsupported hkind hmatches
    | list values => exact unambiguous_of_matches kotlin other hsupported.1 hkind hmatches
    | _ => trivial
  · intro hunambiguous
    cases type with
    | range => exact hunambiguous.elim
    | list values =>
      intro name current default _ _
      exact ⟨_, getType_list kotlin other hsupported.1 hunambiguous name current default, _, rfl⟩
    | bool => exact understood_primitive kotlin other (.inl rfl)
    | str => exact understood_primitive kotlin other (.inr (.inl rfl))
    | int => exact understood_primitive kotlin other (.inr (.inr (.inl rfl)))
    | float => exact understood_primitive kotlin other (.inr (.inr (.inr rfl)))

theorem understood_levels : Understood asciiKotlin (fun _ => [])
    (.list [.string "low".toList, .string "high".toList]) := by
  have hsupported : Supported (.list [.string "low".toList, .string "high".toList]) := by
    refine ⟨by simp, ?_⟩
    intro value hvalue
    simp only [List.mem_cons, List.not_mem_nil, or_false] at hvalue
    exact .inl (hvalue.elim (⟨_, ·⟩) (⟨_, ·⟩))
  apply (understood_iff asciiKotlin (fun _ => []) _ hsupported).mpr
  refine ⟨by decide, fun hapart => Kotlin.findRange_ne_none_iff.mpr hapart (by decide), ?_⟩
  intro value hvalue
  simp only [List.mem_cons, List.not_mem_nil, or_false] at hvalue
  rcases hvalue with rfl | rfl <;> exact ⟨by decide, by decide⟩

/-- The field for the speed of `Simple` admits 2000. -/
theorem speed_not_understood : Supported Simple.speed.type ∧
    ¬ Understood asciiKotlin (fun _ => []) Simple.speed.type := by
  have hlt : (0 : Int) < 2000 := by decide
  refine ⟨hlt, fun hunderstood => ?_⟩
  obtain ⟨kind, hkind, hmatches⟩ := hunderstood [] (.double Smart.one) (.double Smart.one)
    ⟨Smart.one, rfl⟩ ⟨Smart.one, rfl⟩
  exact not_matches_range asciiKotlin (fun _ => []) hlt hkind hmatches

end VacuumCleaner.Link.ParameterTypes
