import VacuumCleaner.App.AlgorithmSetup
import VacuumCleaner.Core.StoreRuns
import VacuumCleaner.Link.ParameterTypes

/-! The arguments of an algorithm on their way from the core's files to the app's
screen, and back from what stands in its fields. -/
namespace VacuumCleaner.Link.AlgorithmSettings

open Lib Lib.Json Lib.Numeral App.ApiModels App.AlgorithmSetup Core.AlgorithmArguments
open Core.StoreRuns Core.Stores ParameterTypes
open Core.AlgorithmManager (AlgorithmName)
open App.ApiModels (AlgorithmParameter)

/-- What JSON makes of the values on their way: the double of a numeral, none where
it is none, the text of a container, and the numeral of a float. -/
structure Transport (F : Type) where
  double : Number → Option Decimal
  collectionText : Value → List Char
  number : F → Number
  double_int : ∀ number : Int, number.natAbs ≤ 2 ^ 53 →
    ∃ x, double (.int number) = some x ∧ x.value = number
  double_finite : ∀ x, double (.float (.finite x)) = some x

namespace Transport

variable {F : Type} (transport : Transport F)

/-- What Moshi reads for `Any`, which is not null. -/
def anyOf : Value → Option Any
  | .null => none
  | .bool value => some (.boolean value)
  | .number number => (transport.double number).map .double
  | .string text => some (.string text)
  | value => some (.collection (transport.collectionText value))

def parameterOf (info : ArgumentInfo) : Option AlgorithmParameter := do
  return ⟨info.name, info.valueType, ← transport.anyOf info.value, ← transport.anyOf info.default⟩

def scriptOf (info : AlgorithmInfo) : Option AlgorithmScript := do
  return ⟨info.name, info.description, ← info.arguments.mapM transport.parameterOf⟩

/-- The answer to `/get-algorithms`. -/
def algorithmsOf : Answer → Option AlgorithmList
  | .algorithms current infos => do return ⟨current, ← infos.mapM transport.scriptOf⟩
  | _ => none

def valueOf : Argument F → Value
  | .bool value => .bool value
  | .int value => .number (.int value)
  | .float value => .number (transport.number value)
  | .text value => .string value

/-- `applySettings` of an algorithm. -/
def requestOf (name : List Char) (arguments : List (List Char × Argument F)) :
    Core.SetAlgorithm.Request :=
  ⟨name, arguments.map fun argument => (argument.1, transport.valueOf argument.2)⟩

end Transport

/-- What the user makes of the fields, by the names of the parameters, and the order
in which the app sends them. -/
structure Round where
  check : (name : List Char) → Bool → Bool
  write : (name : List Char) → List Char → List Char
  choose : (name : List Char) → List Char → List Char
  order : List (AlgorithmParameter × View) → List (AlgorithmParameter × View)
  order_perm : ∀ entries, (order entries).Perm entries

namespace Round

def edit (round : Round) (name : List Char) : View → View
  | .switch isChecked => .switch (round.check name isChecked)
  | .input text => .input (round.write name text)
  | .choice text => .choice (round.choose name text)

section Perform

variable {F : Type} (py : Runtime) (other : Value → List Char) (kotlin : Kotlin F)
  (floatText : F → List Char) (transport : Transport F) (round : Round)

/-- The screen of `Simple`, with what the core has loaded for it. -/
def opened (store : Store) :
    Option (List (AlgorithmParameter × View)) × Store :=
  match performGetAlgorithms py other store with
  | (.ok answer, store) => ((transport.algorithmsOf answer).bind fun algorithms =>
      setAlgorithm kotlin floatText algorithms (getName .simple), store)
  | (.error _, store) => (none, store)

/-- The screen is opened, filled in and applied. -/
def perform (store : Store) : Store :=
  match opened py other kotlin floatText transport store with
  | (none, store) => store
  | (some views, store) =>
    match onApply kotlin (round.order (views.map fun entry =>
        (entry.1, round.edit entry.1.name entry.2))) with
    | .error _ => store
    | .ok arguments =>
      (Core.SetAlgorithm.perform py (transport.requestOf (getName .simple) arguments) store).2

end Perform

end Round

/-! The same over what the core remembers. -/

def valueAt (holder : ArgumentsHolder) (parameter : List Char × FieldParameter) : Value :=
  (getItem parameter.1 holder).getD .null

/-- How a remembered value is shown. -/
def shownView : Value → View
  | .bool value => .switch value
  | value => .input (intText ((asInteger value).getD 0))

variable {F : Type} (kotlin : Kotlin F)

/-- What a field says. -/
def fieldValue : View → Option Value
  | .switch isChecked => some (.bool isChecked)
  | .input text => (kotlin.parseInt text).map fun number => .number (.int number)
  | .choice text => some (.string text)

namespace Round

variable (round : Round)

/-- What the field of a parameter says: none where it says no `Int`. -/
def fieldOf (holder : ArgumentsHolder) (parameter : List Char × FieldParameter) : Option Value :=
  fieldValue kotlin (round.edit parameter.2.name (shownView (valueAt holder parameter)))

def newValue (holder : ArgumentsHolder) (parameter : List Char × FieldParameter) :
    Option (List Char × Value) := do
  let value ← round.fieldOf kotlin holder parameter
  if doesValueMeetType parameter.2.type value then some (parameter.1, value) else none

/-- All arguments are set, or none. -/
def fill (remembered : Remembered) : Remembered :=
  match Simple.parameters.mapM (round.newValue kotlin (remembered.arguments .simple)) with
  | none => remembered
  | some holder => { remembered with
      selected := .simple
      arguments := Function.update remembered.arguments .simple holder
      current := some (.simple, holder) }

end Round

/-- A finite number, and no boolean that stands for one. -/
def IsFinite : Value → Prop
  | .number (.int _) | .number (.float (.finite _)) => True
  | _ => False

/-- The app takes the arguments: their numbers are finite numbers. -/
def Presentable (algorithm : AlgorithmName) (holder : ArgumentsHolder) : Prop :=
  ∀ parameter ∈ getParameters algorithm, ∀ value, getItem parameter.1 holder = some value →
    parameter.2.type = .bool ∨ IsFinite value

section Values

variable (transport : Transport F) {value : Value} {number : Int}

theorem doubleToInt_of_value {x : Decimal} (hvalue : x.value = number)
    (hfits : -0x80000000 ≤ number ∧ number < 0x80000000) : doubleToInt x = number := by
  unfold doubleToInt
  rw [hvalue, Rat.num_intCast, Rat.den_intCast, Int.ofNat_one, Int.tdiv_one]
  omega

theorem value_of_asInteger {x : Decimal}
    (hnumber : asInteger (.number (.float (.finite x))) = some number) : x.value = number := by
  unfold asInteger at hnumber
  dsimp only [asNumber] at hnumber
  split at hnumber
  · rename_i hint
    cases hnumber
    exact ((Rat.den_eq_one_iff x.value).mp (eq_of_beq hint)).symm
  · cases hnumber

theorem same_of_asInteger (hvalue : IsFinite value) (hnumber : asInteger value = some number) :
    same (.number (.int number)) value = true := by
  match value with
  | .number (.int found) =>
    cases hnumber
    exact beq_self_eq_true number
  | .number (.float (.finite x)) =>
    exact beq_iff_eq.mpr (value_of_asInteger hnumber)

theorem exists_double (hvalue : IsFinite value) (hnumber : asInteger value = some number)
    (hsmall : number.natAbs ≤ 2 ^ 53) :
    ∃ x, transport.anyOf value = some (.double x) ∧ x.value = number := by
  match value with
  | .number (.int found) =>
    cases hnumber
    obtain ⟨x, hx, hsame⟩ := transport.double_int number hsmall
    exact ⟨x, by rw [Transport.anyOf, hx]; rfl, hsame⟩
  | .number (.float (.finite x)) =>
    exact ⟨x, by rw [Transport.anyOf, transport.double_finite]; rfl, value_of_asInteger hnumber⟩

end Values

/-! One parameter. -/

section Parameter

variable (other : Value → List Char) {kotlin} (transport : Transport F)
  {parameter : List Char × FieldParameter} {old : Value}

theorem parameter_kind {algorithm : AlgorithmName}
    (hparameter : parameter ∈ getParameters algorithm) :
    (parameter.2.type = .bool ∧ ∃ flag, parameter.2.default = .bool flag) ∨
      (∃ stop default : Nat, stop < 2 ^ 31 ∧ default < 2 ^ 31 ∧
        parameter.2.type = .range 0 stop ∧ parameter.2.default = .number (.int default)) ∨
      (algorithm = .smart ∧ parameter.2.type = .float ∧
        ∃ x, parameter.2.default = .number (.float (.finite x))) := by
  cases algorithm with
  | simple =>
    simp only [getParameters, Simple.parameters, List.mem_cons, List.not_mem_nil,
      or_false] at hparameter
    rcases hparameter with rfl | rfl | rfl | rfl | rfl | rfl | rfl
    · exact .inr (.inl ⟨2000, 1000, by decide, by decide, rfl, rfl⟩)
    · exact .inl ⟨rfl, true, rfl⟩
    · exact .inr (.inl ⟨1000, 20, by decide, by decide, rfl, rfl⟩)
    · exact .inr (.inl ⟨2000, 1000, by decide, by decide, rfl, rfl⟩)
    · exact .inl ⟨rfl, false, rfl⟩
    · exact .inl ⟨rfl, false, rfl⟩
    · exact .inr (.inl ⟨100, 50, by decide, by decide, rfl, rfl⟩)
  | smart =>
    simp only [getParameters, Smart.parameters, List.mem_cons, List.not_mem_nil,
      or_false] at hparameter
    rcases hparameter with rfl | rfl
    · exact .inr (.inl ⟨1000, 50, by decide, by decide, rfl, rfl⟩)
    · exact .inr (.inr ⟨rfl, rfl, Smart.one, rfl⟩)

theorem exists_bool (hmeets : doesValueMeetType .bool old = true) :
    ∃ isChecked, old = .bool isChecked := by
  cases old with
  | bool isChecked => exact ⟨isChecked, rfl⟩
  | null => cases hmeets
  | number number => cases hmeets
  | string text => cases hmeets
  | array values => cases hmeets
  | object members => cases hmeets

theorem exists_integer {stop : Nat} (hmeets : doesValueMeetType (.range 0 stop) old = true) :
    ∃ number, asInteger old = some number ∧ 0 ≤ number ∧ number < stop := by
  rw [doesValueMeetType, Option.any_eq_true] at hmeets
  obtain ⟨number, hnumber, hrange⟩ := hmeets
  rw [Bool.and_eq_true, decide_eq_true_eq, decide_eq_true_eq] at hrange
  exact ⟨number, hnumber, hrange⟩

variable (kotlin) in
theorem getType_range {stop : Nat} (hstop : stop < 2 ^ 31) (name : List Char) (current : Any)
    (default : Decimal) : ∃ shown, AlgorithmParameter.getType kotlin
      ⟨name, representType other (.range 0 stop), current, .double default⟩ =
        .ok (.intRange 0 stop shown) := by
  have hdigits : ∀ number : Nat, ∀ c ∈ Nat.toDigits 10 number, kotlin.isDigit c = true :=
    fun number c hc => Kotlin.isDigit_of_isDigit
      (Nat.isDigit_of_mem_toDigits (by decide) (by decide) hc)
  have htext : representType other (.range 0 stop) =
      Nat.toDigits 10 0 ++ '.' :: '.' :: Nat.toDigits 10 stop := by
    rw [representType_range, ← str_ofNat, ← str_ofNat]
    rfl
  have hprimitive : representType other (.range 0 stop) ∉ primitiveTypes := by
    intro hmem
    have hdot : ∀ text ∈ primitiveTypes, '.' ∉ text := by decide
    exact hdot _ hmem (by rw [htext]; simp)
  have hfind : kotlin.findRange (representType other (.range 0 stop)) =
      some (Nat.toDigits 10 0, Nat.toDigits 10 stop) := by
    rw [htext]
    exact Kotlin.findRange_range Nat.toDigits_ne_nil Nat.toDigits_ne_nil (hdigits 0) (hdigits stop)
  have htoInt : ∀ number : Nat, number < 2 ^ 31 →
      toInt kotlin (Nat.toDigits 10 number) = .ok number := by
    intro number hsmall
    rw [toInt, kotlin.parseInt_toDigits, Kotlin.toInt32, if_pos (by omega)]
  obtain ⟨float, hfloat⟩ := Option.isSome_iff_exists.mp (kotlin.toFloat_doubleText default)
  refine ⟨kotlin.floatToInt float, ?_⟩
  rw [getType_of_not_primitive hprimitive, AlgorithmParameter.patternType, hfind]
  dsimp only
  rw [htoInt 0 (by decide), htoInt stop hstop, Any.toFloat, Any.toText, hfloat]
  rfl

/-- A parameter as the app gets it. -/
def argumentOf (parameter : List Char × FieldParameter) (old : Value) : AlgorithmParameter where
  name := parameter.2.name
  valueType := representType other parameter.2.type
  currentValue := (transport.anyOf old).getD (.boolean false)
  defaultValue := (transport.anyOf parameter.2.default).getD (.boolean false)

theorem anyOf_isSome {algorithm : AlgorithmName} (hparameter : parameter ∈ getParameters algorithm)
    (hmeets : doesValueMeetType parameter.2.type old = true)
    (hplain : parameter.2.type = .bool ∨ IsFinite old) : (transport.anyOf old).isSome := by
  obtain ⟨htype, -⟩ | ⟨stop, default, hstop, -, htype, -⟩ | ⟨-, htype, -⟩ :=
    parameter_kind hparameter
  · rw [htype] at hmeets
    obtain ⟨isChecked, rfl⟩ := exists_bool hmeets
    rfl
  · have hfinite : IsFinite old := hplain.resolve_left fun hbool => by
      rw [htype] at hbool
      cases hbool
    rw [htype] at hmeets
    obtain ⟨number, hnumber, hrange⟩ := exists_integer hmeets
    obtain ⟨x, hx, -⟩ := exists_double transport hfinite hnumber (by omega)
    exact Option.isSome_of_eq_some hx
  · have hfinite : IsFinite old := hplain.resolve_left fun hbool => by
      rw [htype] at hbool
      cases hbool
    rw [htype] at hmeets
    match old with
    | .number (.float (.finite x)) =>
      rw [Transport.anyOf, transport.double_finite]
      rfl

theorem default_isSome {algorithm : AlgorithmName}
    (hparameter : parameter ∈ getParameters algorithm) :
    (transport.anyOf parameter.2.default).isSome := by
  obtain ⟨-, flag, hdefault⟩ | ⟨stop, default, -, hsmall, -, hdefault⟩ | ⟨-, -, x, hdefault⟩ :=
    parameter_kind hparameter
  · rw [hdefault]
    rfl
  · have hplain : IsFinite (.number (.int default)) := trivial
    obtain ⟨y, hy, -⟩ := exists_double transport hplain rfl (by omega)
    rw [hdefault]
    exact Option.isSome_of_eq_some hy
  · rw [hdefault, Transport.anyOf, transport.double_finite]
    rfl

/-- The app shows the value of a parameter, and sends what its field says. -/
structure Carried (kotlin : Kotlin F) (floatText : F → List Char)
    (parameter : List Char × FieldParameter) (old : Value) : Prop where
  shown : generateParameter kotlin floatText (argumentOf other transport parameter old) =
    .ok (shownView old)
  sent : ∀ (round : Round) value,
    fieldValue kotlin (round.edit parameter.2.name (shownView old)) = some value →
    ∃ argument, argumentValue kotlin (argumentOf other transport parameter old,
        round.edit parameter.2.name (shownView old)) = .ok (parameter.2.name, argument) ∧
      transport.valueOf argument = value
  refused : ∀ round : Round,
    fieldValue kotlin (round.edit parameter.2.name (shownView old)) = none →
    argumentValue kotlin (argumentOf other transport parameter old,
      round.edit parameter.2.name (shownView old)) = .error .numberFormat

theorem shownView_number {number : Int} (hfinite : IsFinite old)
    (hnumber : asInteger old = some number) : shownView old = .input (intText number) := by
  match old with
  | .number _ => exact congrArg (fun found => View.input (intText (found.getD 0))) hnumber

theorem carried_bool (floatText : F → List Char) (htype : parameter.2.type = .bool) {flag : Bool}
    (hdefault : parameter.2.default = .bool flag) (isChecked : Bool) :
    Carried other transport kotlin floatText parameter (.bool isChecked) := by
  have hgetType : (argumentOf other transport parameter (.bool isChecked)).getType kotlin =
      .ok (.bool isChecked flag) := by
    unfold argumentOf
    rw [htype, hdefault]
    rfl
  constructor
  · rw [generateParameter, hgetType]
    rfl
  · intro round value hvalue
    cases hvalue
    refine ⟨.bool (round.check parameter.2.name isChecked), ?_, rfl⟩
    unfold argumentValue
    dsimp only [shownView, Round.edit]
    rw [hgetType]
    rfl
  · intro round hnone
    cases hnone

theorem carried_range (floatText : F → List Char) {stop default : Nat} {number : Int}
    (hstop : stop < 2 ^ 31) (hsmall : default < 2 ^ 31)
    (htype : parameter.2.type = .range 0 stop)
    (hdefault : parameter.2.default = .number (.int default)) (hfinite : IsFinite old)
    (hnumber : asInteger old = some number) (hrange : 0 ≤ number ∧ number < stop) :
    Carried other transport kotlin floatText parameter old := by
  obtain ⟨x, hx, hvalue⟩ := exists_double transport hfinite hnumber (by omega)
  have hplain : IsFinite (.number (.int default)) := trivial
  obtain ⟨y, hy, -⟩ := exists_double transport hplain rfl (by omega)
  have hargument : argumentOf other transport parameter old = ⟨parameter.2.name,
      representType other (.range 0 stop), .double x, .double y⟩ := by
    rw [argumentOf, htype, hdefault, hx, hy]
    rfl
  obtain ⟨shown, hgetType⟩ := getType_range kotlin other hstop parameter.2.name (.double x) y
  have hview := shownView_number hfinite hnumber
  constructor
  · rw [hargument, generateParameter, hgetType, hview, ← doubleToInt_of_value hvalue (by omega)]
    rfl
  · intro round value hfield
    rw [hview, Round.edit, fieldValue] at hfield
    obtain ⟨found, hfound, rfl⟩ := Option.map_eq_some_iff.mp hfield
    have htoInt : toInt kotlin (round.write parameter.2.name (intText number)) = .ok found := by
      rw [toInt, hfound]
    refine ⟨.int found, ?_, rfl⟩
    unfold argumentValue
    rw [hargument, hview, Round.edit]
    dsimp only
    rw [hgetType]
    dsimp only [bind, Except.bind]
    rw [htoInt]
    rfl
  · intro round hfield
    rw [hview, Round.edit, fieldValue] at hfield
    have htoInt : toInt kotlin (round.write parameter.2.name (intText number)) =
        .error .numberFormat := by
      rw [toInt, Option.map_eq_none_iff.mp hfield]
    unfold argumentValue
    rw [hargument, hview, Round.edit]
    dsimp only
    rw [hgetType]
    dsimp only [bind, Except.bind]
    rw [htoInt]
    rfl

theorem carried (floatText : F → List Char) (hparameter : parameter ∈ Simple.parameters)
    (hmeets : doesValueMeetType parameter.2.type old = true)
    (hplain : parameter.2.type = .bool ∨ IsFinite old) :
    Carried other transport kotlin floatText parameter old := by
  obtain ⟨htype, flag, hdefault⟩ | ⟨stop, default, hstop, hsmall, htype, hdefault⟩ | ⟨hsmart, -⟩ :=
    parameter_kind (show parameter ∈ getParameters .simple from hparameter)
  · rw [htype] at hmeets
    obtain ⟨isChecked, rfl⟩ := exists_bool hmeets
    exact carried_bool other transport floatText htype hdefault isChecked
  · have hfinite : IsFinite old := hplain.resolve_left fun hbool => by
      rw [htype] at hbool
      cases hbool
    rw [htype] at hmeets
    obtain ⟨number, hnumber, hrange⟩ := exists_integer hmeets
    exact carried_range other transport floatText hstop hsmall htype hdefault hfinite hnumber hrange
  · cases hsmart

end Parameter

/-! The screen of what is remembered. -/

/-- A value of its type for each parameter. -/
def Complete (algorithm : AlgorithmName) (holder : ArgumentsHolder) : Prop :=
  ∀ parameter ∈ getParameters algorithm, ∃ value, getItem parameter.1 holder = some value ∧
    doesValueMeetType parameter.2.type value = true

theorem loaded_ok {config : Value} {parameter : FieldParameter} {value : Value}
    (h : loaded config parameter = .ok value) : doesValueMeetType parameter.type value = true := by
  unfold loaded at h
  split at h
  · split at h
    · cases h
    · split at h
      · rename_i hmeets
        cases h
        exact hmeets
      · cases h
  · cases h

theorem complete_of_loadArguments {py : Runtime} {algorithm : AlgorithmName} {folder after : Folder}
    {holder : ArgumentsHolder} (hload : loadArguments py algorithm folder = (.ok holder, after)) :
    Complete algorithm holder := by
  have hkeys := (parameters_nodup algorithm).2
  unfold loadArguments at hload
  split at hload
  · rename_i hfile
    cases hload
    obtain ⟨config, -, hcollect⟩ := bind_ok hfile
    intro parameter hparameter
    obtain ⟨value, hvalue, hitem⟩ := getItem_collect hcollect hkeys hparameter
    exact ⟨value, hitem, loaded_ok hvalue⟩
  · unfold recreateArgumentConfigFile at hload
    split at hload
    · rename_i hcollect
      cases hload
      intro parameter hparameter
      obtain ⟨value, hvalue, hitem⟩ := getItem_collect hcollect hkeys hparameter
      exact ⟨value, hitem, (defaulted_ok hvalue).2.2⟩
    · cases hload
    · cases hload
  · cases hload

section Screen

variable (other : Value → List Char) {transport : Transport F} {floatText : F → List Char}
  {algorithm : AlgorithmName} {holder : ArgumentsHolder} {remembered : Remembered}

/-- An algorithm as the core describes it. -/
def infoOf (algorithm : AlgorithmName) (holder : ArgumentsHolder) : AlgorithmInfo where
  name := getName algorithm
  description := getDescription algorithm
  arguments := (getParameters algorithm).map fun parameter =>
    ⟨parameter.2.name, representType other parameter.2.type, parameter.2.default,
      valueAt holder parameter⟩

/-- An algorithm as the app gets it. -/
def scriptOf (transport : Transport F) (algorithm : AlgorithmName) (holder : ArgumentsHolder) :
    AlgorithmScript where
  name := getName algorithm
  description := getDescription algorithm
  parameters := (getParameters algorithm).map fun parameter =>
    argumentOf other transport parameter (valueAt holder parameter)

theorem describe_complete (hcomplete : Complete algorithm holder) :
    describe other algorithm holder = .ok (infoOf other algorithm holder) := by
  have hinfos : (getParameters algorithm).mapM (argumentInfo other holder) =
      .ok (infoOf other algorithm holder).arguments := by
    apply mapM_of_pure
    intro parameter hparameter
    obtain ⟨value, hvalue, -⟩ := hcomplete parameter hparameter
    rw [argumentInfo, valueAt, hvalue]
    rfl
  rw [describe, hinfos]
  rfl

theorem scriptOf_complete (hcomplete : Complete algorithm holder)
    (hplain : Presentable algorithm holder) :
    transport.scriptOf (infoOf other algorithm holder) =
      some (scriptOf other transport algorithm holder) := by
  have hparameters : (infoOf other algorithm holder).arguments.mapM transport.parameterOf =
      some (scriptOf other transport algorithm holder).parameters := by
    rw [infoOf, List.mapM_map]
    apply mapM_of_pure
    intro parameter hparameter
    obtain ⟨value, hvalue, hmeets⟩ := hcomplete parameter hparameter
    have hplain := hplain parameter hparameter value hvalue
    obtain ⟨current, hcurrent⟩ :=
      Option.isSome_iff_exists.mp (anyOf_isSome transport hparameter hmeets hplain)
    obtain ⟨default, hdefault⟩ :=
      Option.isSome_iff_exists.mp (default_isSome transport hparameter)
    have hfound : valueAt holder parameter = value := by rw [valueAt, hvalue, Option.getD_some]
    rw [Function.comp_apply, Transport.parameterOf, argumentOf, hfound, hcurrent, hdefault]
    rfl
  rw [Transport.scriptOf, hparameters]
  rfl

/-- The screen of `Simple` as it is drawn. -/
def screen (transport : Transport F) (holder : ArgumentsHolder) :
    List (AlgorithmParameter × View) :=
  Simple.parameters.map fun parameter =>
    (argumentOf other transport parameter (valueAt holder parameter),
      shownView (valueAt holder parameter))

/-- What the screen is opened over. -/
structure Ready (py : Runtime) (store : Store) (remembered : Remembered) : Prop where
  represents : Represents py store remembered
  presentable : ∀ algorithm, Presentable algorithm (remembered.arguments algorithm)
  idle : remembered.state = .idle
  current : remembered.current.isSome

variable {other} {py : Runtime} {store : Store}

theorem Ready.complete (h : Ready py store remembered) (algorithm : AlgorithmName) :
    Complete algorithm (remembered.arguments algorithm) := by
  obtain ⟨after, hload⟩ := h.represents.folder algorithm
  exact complete_of_loadArguments hload

theorem Ready.getAlgorithms (other : Value → List Char) (h : Ready py store remembered) : ∃ name,
    remembered.getAlgorithms other = .ok (.algorithms name (algorithms.map fun algorithm =>
      infoOf other algorithm (remembered.arguments algorithm))) := by
  have hinfos : algorithms.mapM (fun algorithm =>
      describe other algorithm (remembered.arguments algorithm)) = .ok (algorithms.map
        fun algorithm => infoOf other algorithm (remembered.arguments algorithm)) := by
    apply mapM_of_pure
    intro algorithm _
    exact describe_complete other (h.complete algorithm)
  obtain ⟨current, hcurrent⟩ := Option.isSome_iff_exists.mp h.current
  rw [Remembered.getAlgorithms, hinfos, hcurrent]
  exact ⟨_, rfl⟩

theorem Ready.carried (h : Ready py store remembered) (floatText : F → List Char)
    {parameter : List Char × FieldParameter} (hparameter : parameter ∈ Simple.parameters) :
    Carried other transport kotlin floatText parameter
      (valueAt (remembered.arguments .simple) parameter) := by
  obtain ⟨value, hvalue, hmeets⟩ := h.complete .simple parameter hparameter
  have hplain := h.presentable .simple parameter hparameter value hvalue
  rw [valueAt, hvalue, Option.getD_some]
  exact AlgorithmSettings.carried other transport floatText hparameter hmeets hplain

theorem Ready.opened (hpy : Faithful py) (h : Ready py store remembered) : ∃ after,
    Round.opened py other kotlin floatText transport store =
        (some (screen other transport (remembered.arguments .simple)), after) ∧
      Ready py after remembered := by
  obtain ⟨hanswer, hafter⟩ : (performGetAlgorithms py other store).1 =
      remembered.getAlgorithms other ∧ Represents py (performGetAlgorithms py other store).2
        remembered := performGetAlgorithms_refines hpy h.represents
  obtain ⟨name, hinfos⟩ := h.getAlgorithms other
  rw [hinfos] at hanswer
  have hscripts : (algorithms.map fun algorithm =>
      infoOf other algorithm (remembered.arguments algorithm)).mapM transport.scriptOf =
        some (algorithms.map fun algorithm =>
          scriptOf other transport algorithm (remembered.arguments algorithm)) := by
    rw [List.mapM_map]
    apply mapM_of_pure
    intro algorithm _
    exact scriptOf_complete other (h.complete algorithm) (h.presentable algorithm)
  have hviews : generateParameters kotlin floatText
      (scriptOf other transport .simple (remembered.arguments .simple)).parameters =
        screen other transport (remembered.arguments .simple) := by
    apply generateParameters_map
    intro parameter hparameter
    exact (h.carried kotlin floatText hparameter).shown
  have hfound : setAlgorithm kotlin floatText ⟨name, algorithms.map fun algorithm =>
      scriptOf other transport algorithm (remembered.arguments algorithm)⟩ (getName .simple) =
        some (screen other transport (remembered.arguments .simple)) := congrArg some hviews
  refine ⟨(performGetAlgorithms py other store).2, ?_, hafter, h.presentable, h.idle, h.current⟩
  unfold Round.opened
  generalize performGetAlgorithms py other store = answer at hanswer
  obtain ⟨outcome, after⟩ := answer
  cases hanswer
  dsimp only [Transport.algorithmsOf]
  rw [hscripts]
  exact congrArg (fun views => (views, after)) hfound

end Screen

/-! One round. -/

theorem toOption_collect {key : List Char × FieldParameter → List Char}
    {find : FieldParameter → Except Core.AlgorithmArguments.Raised Value} {parameters : Parameters}
    {found : List Char × FieldParameter → Option (List Char × Value)}
    (h : ∀ parameter ∈ parameters,
      found parameter = (find parameter.2).toOption.map fun value => (key parameter, value)) :
    (collect key find parameters).toOption = parameters.mapM found := by
  induction parameters with
  | nil => rfl
  | cons parameter parameters ih =>
    rw [List.forall_mem_cons] at h
    rw [List.mapM_cons, h.1, ← ih h.2, collect]
    cases find parameter.2 with
    | error raised => rfl
    | ok value =>
      cases collect key find parameters with
      | error raised => rfl
      | ok values => rfl

theorem dictionary_of_nodup {request : Core.SetAlgorithm.Request}
    (hnodup : (request.arguments.map Prod.fst).Nodup) : request.dictionary = request.arguments := by
  have hfold : ∀ (arguments members : Members), ((members ++ arguments).map Prod.fst).Nodup →
      arguments.foldl (fun members a => setItem a.1 a.2 members) members = members ++ arguments := by
    intro arguments
    induction arguments with
    | nil => exact fun members _ => (List.append_nil members).symm
    | cons argument arguments ih =>
      intro members hnodup
      rw [List.foldl_cons, setItem_of_not_mem (not_mem_of_nodup hnodup), ih _ (by
        rwa [List.append_assoc]), List.append_assoc]
      rfl
  exact hfold request.arguments [] hnodup

theorem getItem_of_mem {members : Members} (hnodup : (members.map Prod.fst).Nodup)
    {key : List Char} {value : Value} (hmem : (key, value) ∈ members) :
    getItem key members = some value := by
  induction members with
  | nil => cases hmem
  | cons member members ih =>
    rw [List.map_cons, List.nodup_cons] at hnodup
    rcases List.mem_cons.mp hmem with rfl | hmem
    · simp [getItem]
    · have hne : member.1 ≠ key := by
        rintro rfl
        exact hnodup.1 (List.mem_map.mpr ⟨_, hmem, rfl⟩)
      unfold getItem at ih ⊢
      rw [List.find?_cons_of_neg (by simpa using hne)]
      exact ih hnodup.2 hmem

section Apply

variable {kotlin} {other : Value → List Char} {transport : Transport F} {floatText : F → List Char}
  {py : Runtime} {store : Store} {remembered : Remembered} {round : Round}

theorem fieldValue_ne_null {view : View} {value : Value} (h : fieldValue kotlin view = some value) :
    value ≠ .null := by
  rintro rfl
  cases view with
  | switch isChecked => cases h
  | choice text => cases h
  | input text =>
    obtain ⟨number, -, hnumber⟩ := Option.map_eq_some_iff.mp h
    cases hnumber

theorem parseInt_fits {text : List Char} {number : Int} (h : kotlin.parseInt text = some number) :
    -0x80000000 ≤ number ∧ number < 0x80000000 := by
  unfold Kotlin.parseInt at h
  dsimp only at h
  split at h
  · cases h
  · obtain ⟨value, -, hfits⟩ := Option.bind_eq_some_iff.mp h
    obtain ⟨hin, rfl⟩ := Kotlin.toInt32_eq_some hfits
    exact hin

theorem readable_fieldValue (hpy : Faithful py) {view : View} {value : Value}
    (h : fieldValue kotlin view = some value) : Readable py 0 value := by
  cases view with
  | switch isChecked =>
    cases h
    exact .bool
  | choice text =>
    cases h
    exact .string
  | input text =>
    obtain ⟨number, hnumber, rfl⟩ := Option.map_eq_some_iff.mp h
    have hfits := parseInt_fits hnumber
    have hlength : (Nat.toDigits 10 number.natAbs).length ≤ 10 := by
      rw [Nat.length_toDigits_le_iff (by decide) (by decide)]
      omega
    exact .int (hpy.numerals.imp id fun hlarge => by omega)

/-- The fields as they are applied. -/
def entries (round : Round) (other : Value → List Char) (transport : Transport F)
    (holder : ArgumentsHolder) : List (AlgorithmParameter × View) :=
  (screen other transport holder).map fun entry => (entry.1, round.edit entry.1.name entry.2)

theorem entries_eq (round : Round) (holder : ArgumentsHolder) :
    entries round other transport holder = Simple.parameters.map fun parameter =>
      (argumentOf other transport parameter (valueAt holder parameter),
        round.edit parameter.2.name (shownView (valueAt holder parameter))) := by
  rw [entries, screen, List.map_map]
  rfl

theorem onApply_refused (other : Value → List Char) (transport : Transport F)
    (h : Ready py store remembered) {parameter : List Char × FieldParameter}
    (hparameter : parameter ∈ Simple.parameters)
    (hnone : round.fieldOf kotlin (remembered.arguments .simple) parameter = none) :
    ∃ raised, onApply kotlin (round.order
      (entries round other transport (remembered.arguments .simple))) = .error raised := by
  cases happly : onApply kotlin (round.order
      (entries round other transport (remembered.arguments .simple))) with
  | error raised => exact ⟨raised, rfl⟩
  | ok arguments =>
    have hmem := (round.order_perm
      (entries round other transport (remembered.arguments .simple))).mem_iff.mpr (by
        rw [entries_eq]
        exact List.mem_map_of_mem hparameter)
    obtain ⟨argument, hargument⟩ := exists_of_mapM_ok happly hmem
    rw [(h.carried kotlin (fun _ => []) hparameter).refused round hnone] at hargument
    cases hargument

theorem onApply_sent (other : Value → List Char) (transport : Transport F)
    (h : Ready py store remembered)
    (hfields : ∀ parameter ∈ Simple.parameters,
      (round.fieldOf kotlin (remembered.arguments .simple) parameter).isSome) :
    ∃ arguments, onApply kotlin (round.order
        (entries round other transport (remembered.arguments .simple))) = .ok arguments ∧
      (transport.requestOf (getName .simple) arguments).arguments.Perm
        (Simple.parameters.map fun parameter => (parameter.2.name,
          (round.fieldOf kotlin (remembered.arguments .simple) parameter).getD .null)) := by
  have hperm := round.order_perm (entries round other transport (remembered.arguments .simple))
  have hsent : ∀ entry ∈ round.order (entries round other transport (remembered.arguments .simple)),
      ∃ argument, argumentValue kotlin entry = .ok (entry.1.name, argument) ∧
        transport.valueOf argument = (fieldValue kotlin entry.2).getD .null := by
    intro entry hentry
    rw [hperm.mem_iff, entries_eq] at hentry
    obtain ⟨parameter, hparameter, rfl⟩ := List.mem_map.mp hentry
    obtain ⟨value, hvalue⟩ := Option.isSome_iff_exists.mp (hfields parameter hparameter)
    obtain ⟨argument, hargument, hsame⟩ :=
      (h.carried kotlin (fun _ => []) hparameter).sent round value hvalue
    refine ⟨argument, hargument, ?_⟩
    rw [hsame]
    exact (congrArg (Option.getD · .null) hvalue).symm
  obtain ⟨arguments, happly⟩ := exists_mapM_ok fun entry hentry =>
    (hsent entry hentry).imp' (entry.1.name, ·) fun argument hargument => hargument.1
  refine ⟨arguments, happly, ?_⟩
  have hnamed : arguments.map (fun argument => (argument.1, transport.valueOf argument.2)) =
      (round.order (entries round other transport (remembered.arguments .simple))).map
        fun entry => (entry.1.name, (fieldValue kotlin entry.2).getD .null) := by
    apply map_of_mapM_ok happly
    intro entry hentry result hresult
    obtain ⟨argument, hargument, hsame⟩ := hsent entry hentry
    rw [hargument] at hresult
    cases hresult
    rw [hsame]
  rw [Transport.requestOf, hnamed]
  have hnames := hperm.map fun entry : AlgorithmParameter × View =>
    (entry.1.name, (fieldValue kotlin entry.2).getD .null)
  rw [entries_eq, List.map_map] at hnames
  exact hnames

theorem asked_eq {holder : ArgumentsHolder} {request : Core.SetAlgorithm.Request}
    (hname : request.algorithmName = getName .simple)
    (hfields : ∀ parameter ∈ Simple.parameters, (round.fieldOf kotlin holder parameter).isSome)
    (hperm : request.arguments.Perm (Simple.parameters.map fun parameter =>
      (parameter.2.name, (round.fieldOf kotlin holder parameter).getD .null))) :
    (asked request).toOption =
      (Simple.parameters.mapM (round.newValue kotlin holder)).map fun next => (.simple, next) := by
  have hnodup : (request.arguments.map Prod.fst).Nodup := by
    rw [(hperm.map Prod.fst).nodup_iff, List.map_map]
    exact (parameters_nodup .simple).1
  have hfound : ∀ parameter ∈ Simple.parameters,
      getItem parameter.2.name request.dictionary = round.fieldOf kotlin holder parameter := by
    intro parameter hparameter
    obtain ⟨value, hvalue⟩ := Option.isSome_iff_exists.mp (hfields parameter hparameter)
    rw [dictionary_of_nodup hnodup, hvalue]
    apply getItem_of_mem hnodup
    rw [hperm.mem_iff]
    exact List.mem_map.mpr ⟨parameter, hparameter, by rw [hvalue]; rfl⟩
  have hnew : ∀ parameter ∈ Simple.parameters, round.newValue kotlin holder parameter =
      (accepted request.dictionary parameter.2).toOption.map fun value => (parameter.1, value) := by
    intro parameter hparameter
    obtain ⟨value, hvalue⟩ := Option.isSome_iff_exists.mp (hfields parameter hparameter)
    have hgiven := Core.Config.Configuration.given_of_getItem (fieldValue_ne_null hvalue)
      ((hfound parameter hparameter).trans hvalue)
    rw [Round.newValue, hvalue, accepted, hgiven]
    dsimp only [Option.bind_eq_bind, Option.bind_some]
    split <;> rfl
  have hcollect : (collect Prod.fst (accepted request.dictionary) Simple.parameters).toOption =
      Simple.parameters.mapM (round.newValue kotlin holder) := toOption_collect hnew
  rw [asked, hname, getAlgorithmClass_getName, ← hcollect]
  show (collect Prod.fst (accepted request.dictionary) Simple.parameters >>= _).toOption = _
  cases collect Prod.fst (accepted request.dictionary) Simple.parameters <;> rfl

theorem setAlgorithm_eq_fill (hidle : remembered.state = .idle)
    {request : Core.SetAlgorithm.Request}
    (hasked : (asked request).toOption =
      (Simple.parameters.mapM (round.newValue kotlin (remembered.arguments .simple))).map
        fun next => (.simple, next)) :
    (remembered.setAlgorithm request).2 = round.fill kotlin remembered := by
  rw [Remembered.setAlgorithm, Round.fill]
  cases hnext : Simple.parameters.mapM
      (round.newValue kotlin (remembered.arguments .simple)) with
  | none =>
    rw [hnext] at hasked
    cases hrequest : asked request with
    | error raised => rfl
    | ok found =>
      rw [hrequest] at hasked
      cases hasked
  | some next =>
    rw [hnext] at hasked
    cases hrequest : asked request with
    | error raised =>
      rw [hrequest] at hasked
      cases hasked
    | ok found =>
      rw [hrequest] at hasked
      cases hasked
      dsimp only
      rw [if_neg (not_not.mpr hidle)]

theorem newValue_ok {holder : ArgumentsHolder} {parameter : List Char × FieldParameter}
    {member : List Char × Value} (h : round.newValue kotlin holder parameter = some member) :
    member.1 = parameter.1 ∧ round.fieldOf kotlin holder parameter = some member.2 ∧
      doesValueMeetType parameter.2.type member.2 = true := by
  obtain ⟨value, hvalue, h⟩ := Option.bind_eq_some_iff.mp h
  split at h
  · rename_i hmeets
    cases h
    exact ⟨rfl, hvalue, hmeets⟩
  · cases h

theorem filled_ok {holder next : ArgumentsHolder} {parameters : Parameters}
    (h : parameters.mapM (round.newValue kotlin holder) = some next) :
    next.map Prod.fst = parameters.map Prod.fst ∧ ∀ parameter ∈ parameters, ∃ value,
      (parameter.1, value) ∈ next ∧ round.newValue kotlin holder parameter =
        some (parameter.1, value) := by
  induction parameters generalizing next with
  | nil =>
    cases h
    exact ⟨rfl, fun parameter hparameter => by cases hparameter⟩
  | cons parameter parameters ih =>
    rw [List.mapM_cons] at h
    obtain ⟨member, hmember, h⟩ := Option.bind_eq_some_iff.mp h
    obtain ⟨members, hmembers, h⟩ := Option.bind_eq_some_iff.mp h
    cases h
    obtain ⟨hkeys, hvalues⟩ := ih hmembers
    obtain ⟨hkey, -⟩ := newValue_ok hmember
    refine ⟨by rw [List.map_cons, List.map_cons, hkey, hkeys], ?_⟩
    rw [List.forall_mem_cons]
    refine ⟨⟨member.2, hkey ▸ List.mem_cons_self, hkey ▸ hmember⟩, fun other hother => ?_⟩
    obtain ⟨value, hvalue, hnew⟩ := hvalues other hother
    exact ⟨value, List.mem_cons_of_mem _ hvalue, hnew⟩

theorem getItem_filled {holder next : ArgumentsHolder}
    (h : Simple.parameters.mapM (round.newValue kotlin holder) = some next)
    {parameter : List Char × FieldParameter} (hparameter : parameter ∈ Simple.parameters) :
    ∃ value, getItem parameter.1 next = some value ∧
      round.fieldOf kotlin holder parameter = some value := by
  obtain ⟨hkeys, hvalues⟩ := filled_ok h
  obtain ⟨value, hmem, hnew⟩ := hvalues parameter hparameter
  have hnodup : (next.map Prod.fst).Nodup := by
    rw [hkeys]
    exact (parameters_nodup .simple).2
  exact ⟨value, getItem_of_mem hnodup hmem, (newValue_ok hnew).2.1⟩

theorem presentable_filled {holder next : ArgumentsHolder} (hcomplete : Complete .simple holder)
    (hplain : Presentable .simple holder)
    (h : Simple.parameters.mapM (round.newValue kotlin holder) = some next) :
    Presentable .simple next := by
  intro parameter hparameter found hfound
  obtain ⟨value, hvalue, hfield⟩ := getItem_filled h hparameter
  rw [hvalue] at hfound
  cases hfound
  obtain ⟨old, hold, hmeets⟩ := hcomplete parameter hparameter
  refine (hplain parameter hparameter old hold).imp id fun hfinite => ?_
  have hview : ∃ text, shownView old = .input text := by
    match old with
    | .number number => exact ⟨_, rfl⟩
  obtain ⟨text, htext⟩ := hview
  rw [Round.fieldOf, valueAt, hold, Option.getD_some, htext] at hfield
  obtain ⟨number, -, rfl⟩ := Option.map_eq_some_iff.mp hfield
  trivial

theorem Ready.fill (h : Ready py store remembered) {after : Store}
    (hafter : Represents py after (round.fill kotlin remembered)) :
    Ready py after (round.fill kotlin remembered) := by
  have hkept : (∀ algorithm, Presentable algorithm ((round.fill kotlin remembered).arguments
      algorithm)) ∧ (round.fill kotlin remembered).state = .idle ∧
        (round.fill kotlin remembered).current.isSome := by
    unfold Round.fill
    split
    · exact ⟨h.presentable, h.idle, h.current⟩
    · rename_i next hnext
      refine ⟨fun algorithm => ?_, h.idle, rfl⟩
      dsimp only
      by_cases hsimple : algorithm = .simple
      · subst hsimple
        rw [Function.update_self]
        exact presentable_filled (h.complete .simple) (h.presentable .simple) hnext
      · rw [Function.update_of_ne hsimple]
        exact h.presentable algorithm
  exact ⟨hafter, hkept.1, hkept.2.1, hkept.2.2⟩

theorem Ready.perform (hpy : Faithful py) (h : Ready py store remembered) (round : Round) :
    Ready py (round.perform py other kotlin floatText transport store)
      (round.fill kotlin remembered) := by
  obtain ⟨opened, hopened, hready⟩ := h.opened kotlin hpy
  unfold Round.perform
  rw [hopened]
  dsimp only
  change Ready py (match onApply kotlin (round.order
    (entries round other transport (remembered.arguments .simple))) with
      | .error _ => opened
      | .ok arguments => (Core.SetAlgorithm.perform py
          (transport.requestOf (getName .simple) arguments) opened).2) _
  apply h.fill
  by_cases hfields : ∀ parameter ∈ Simple.parameters,
      (round.fieldOf kotlin (remembered.arguments .simple) parameter).isSome
  · obtain ⟨arguments, happly, hperm⟩ := onApply_sent other transport h hfields
    rw [happly]
    dsimp only
    have hreadable : ∀ argument ∈ (transport.requestOf (getName .simple) arguments).arguments,
        ∃ depth, Readable py depth argument.2 := by
      intro argument hargument
      rw [hperm.mem_iff] at hargument
      obtain ⟨parameter, hparameter, rfl⟩ := List.mem_map.mp hargument
      obtain ⟨value, hvalue⟩ := Option.isSome_iff_exists.mp (hfields parameter hparameter)
      dsimp only
      rw [hvalue]
      exact ⟨0, readable_fieldValue hpy hvalue⟩
    have hset : Represents py
        (Core.StoreRuns.perform py other (.setAlgorithm _ hreadable) opened).2 _ :=
      (setAlgorithm_refines hpy hready.represents _ hreadable).2
    rwa [setAlgorithm_eq_fill h.idle (asked_eq rfl hfields hperm)] at hset
  · push Not at hfields
    obtain ⟨parameter, hparameter, hnone⟩ := hfields
    replace hnone := Option.not_isSome_iff_eq_none.mp hnone
    obtain ⟨raised, happly⟩ := onApply_refused other transport h hparameter hnone
    rw [happly]
    have hnew : round.newValue kotlin (remembered.arguments .simple) parameter = none := by
      rw [Round.newValue, hnone]
      rfl
    rw [Round.fill, mapM_eq_none hparameter hnew]
    exact hready.represents

/-- Nobody touches the fields. -/
def Round.Untouched (round : Round) : Prop := ∀ name view, round.edit name view = view

variable (kotlin) in
theorem fieldValue_shownView {parameter : List Char × FieldParameter} {old : Value}
    (hparameter : parameter ∈ Simple.parameters)
    (hmeets : doesValueMeetType parameter.2.type old = true)
    (hplain : parameter.2.type = .bool ∨ IsFinite old) :
    ∃ value, fieldValue kotlin (shownView old) = some value ∧
      doesValueMeetType parameter.2.type value = true ∧ same value old = true := by
  obtain ⟨htype, -⟩ | ⟨stop, default, hstop, -, htype, -⟩ | ⟨hsmart, -⟩ :=
    parameter_kind (show parameter ∈ getParameters .simple from hparameter)
  · rw [htype] at hmeets ⊢
    obtain ⟨isChecked, rfl⟩ := exists_bool hmeets
    exact ⟨.bool isChecked, rfl, rfl, by cases isChecked <;> rfl⟩
  · have hfinite : IsFinite old := hplain.resolve_left fun hbool => by
      rw [htype] at hbool
      cases hbool
    rw [htype] at hmeets ⊢
    obtain ⟨number, hnumber, hlow, hhigh⟩ := exists_integer hmeets
    obtain ⟨digits, rfl⟩ := Int.eq_ofNat_of_zero_le hlow
    refine ⟨.number (.int digits), ?_, ?_, ?_⟩
    · rw [shownView_number hfinite hnumber, fieldValue, intText, str_ofNat,
        kotlin.parseInt_toDigits, Kotlin.toInt32, if_pos (by omega)]
      rfl
    · rw [doesValueMeetType] at hmeets ⊢
      rwa [hnumber] at hmeets
    · exact same_of_asInteger hfinite hnumber
  · cases hsmart

theorem Ready.untouched (h : Ready py store remembered) (huntouched : round.Untouched)
    {parameter : List Char × FieldParameter} (hparameter : parameter ∈ Simple.parameters) :
    ∃ old new, getItem parameter.1 (remembered.arguments .simple) = some old ∧
      getItem parameter.1 ((round.fill kotlin remembered).arguments .simple) = some new ∧
        same new old = true := by
  have hfield : ∀ parameter ∈ Simple.parameters, ∃ old new,
      getItem parameter.1 (remembered.arguments .simple) = some old ∧
        round.fieldOf kotlin (remembered.arguments .simple) parameter = some new ∧
          doesValueMeetType parameter.2.type new = true ∧ same new old = true := by
    intro parameter hparameter
    obtain ⟨old, hold, hmeets⟩ := h.complete .simple parameter hparameter
    obtain ⟨new, hnew, hmeets, hsame⟩ := fieldValue_shownView kotlin hparameter hmeets
      (h.presentable .simple parameter hparameter old hold)
    refine ⟨old, new, hold, ?_, hmeets, hsame⟩
    rw [Round.fieldOf, huntouched, valueAt, hold, Option.getD_some, hnew]
  have hfilled : Simple.parameters.mapM (round.newValue kotlin (remembered.arguments .simple)) =
      some (Simple.parameters.map fun parameter => (parameter.1,
        (round.fieldOf kotlin (remembered.arguments .simple) parameter).getD .null)) := by
    apply mapM_of_pure
    intro parameter hparameter
    obtain ⟨old, new, -, hnew, hmeets, -⟩ := hfield parameter hparameter
    rw [Round.newValue, hnew]
    exact if_pos hmeets
  obtain ⟨old, new, hold, hnew, -, hsame⟩ := hfield parameter hparameter
  obtain ⟨found, hfound, hfoundNew⟩ := getItem_filled hfilled hparameter
  rw [hnew] at hfoundNew
  cases hfoundNew
  refine ⟨old, new, hold, ?_, hsame⟩
  rw [Round.fill, hfilled]
  dsimp only
  rwa [Function.update_self]

variable (kotlin) in
theorem Ready.rounds (hpy : Faithful py) (h : Ready py store remembered) (rounds : List Round) :
    Ready py
      (rounds.foldl (fun store round => round.perform py other kotlin floatText transport store)
        store)
      (rounds.foldl (fun remembered round => round.fill kotlin remembered) remembered) := by
  induction rounds generalizing store remembered with
  | nil => exact h
  | cons round rounds ih => exact ih (h.perform hpy round)

end Apply

/-- Over any rounds of the screen, each opened, filled in and applied, the core's
files keep what the fields say: all arguments are set when every field says a
value of its type, and otherwise none. The screen then shows each argument as it is
kept, and applied untouched it changes none. -/
theorem settings_kept {F : Type} (kotlin : Kotlin F) (floatText : F → List Char)
    (transport : Transport F) (py : Runtime) (hpy : Faithful py) (other : Value → List Char)
    (store : Store) (remembered : Remembered) (hready : Ready py store remembered)
    (rounds : List Round) :
    let after := rounds.foldl
      (fun store round => round.perform py other kotlin floatText transport store) store
    let kept := rounds.foldl (fun remembered round => round.fill kotlin remembered) remembered
    Represents py after kept ∧
      (Round.opened py other kotlin floatText transport after).1 =
        some (screen other transport (kept.arguments .simple)) ∧
      ∀ round : Round, round.Untouched → ∀ parameter ∈ Simple.parameters, ∃ old new,
        getItem parameter.1 (kept.arguments .simple) = some old ∧
          getItem parameter.1 ((round.fill kotlin kept).arguments .simple) = some new ∧
            same new old = true := by
  intro after kept
  have hkept : Ready py after kept := hready.rounds kotlin hpy rounds
  obtain ⟨opened, hopened, -⟩ := hkept.opened kotlin hpy
  refine ⟨hkept.represents, ?_, fun round huntouched parameter hparameter =>
    hkept.untouched huntouched hparameter⟩
  rw [hopened]

/-- The double of an integer, where its digits are few enough. -/
def doubleOf (number : Int) : Option Decimal :=
  let digits := (Nat.toDigits 10 number.natAbs).map fun c => digit (digitValue c)
  if h : digits ≠ [] ∧ digits.length ≤ 17 then
    some ⟨number < 0, digits, digits.length, h.1, h.2, by omega⟩
  else none

theorem digitsText_map {text : List Char} (h : ∀ c ∈ text, c.isDigit = true) :
    digitsText (text.map fun c => digit (digitValue c)) = text := by
  rw [digitsText, List.map_map]
  refine (List.map_congr_left fun c hc => ?_).trans (List.map_id text)
  obtain ⟨found, rfl⟩ := exists_digitChar (h c hc)
  have hback : ∀ found : Fin 10, digit (digitValue (digitChar found)) = found := by decide
  exact congrArg digitChar (hback found)

theorem doubleOf_value {number : Int} (hsmall : number.natAbs ≤ 2 ^ 53) :
    ∃ x, doubleOf number = some x ∧ x.value = number := by
  have hdigits : ∀ c ∈ Nat.toDigits 10 number.natAbs, c.isDigit = true :=
    fun c hc => Nat.isDigit_of_mem_toDigits (by decide) (by decide) hc
  have hlength : (Nat.toDigits 10 number.natAbs).length ≤ 17 := by
    rw [Nat.length_toDigits_le_iff (by decide) (by decide)]
    omega
  have hfits : (Nat.toDigits 10 number.natAbs).map (fun c => digit (digitValue c)) ≠ [] ∧
      ((Nat.toDigits 10 number.natAbs).map fun c => digit (digitValue c)).length ≤ 17 := by
    rw [List.length_map]
    exact ⟨List.map_eq_nil_iff.not.mpr Nat.toDigits_ne_nil, hlength⟩
  refine ⟨_, dif_pos hfits, ?_⟩
  rw [Decimal.value]
  dsimp only
  rw [digitsText_map hdigits, digitsNumber_toDigits, sub_self, zpow_zero, mul_one]
  have hcast : ((number.natAbs : ℤ) : ℚ) = number.natAbs := Int.cast_natCast _
  by_cases hnegative : number < 0
  · rw [if_pos (decide_eq_true hnegative), ← hcast, neg_one_mul, ← Int.cast_neg,
      Int.ofNat_natAbs_of_nonpos (by omega), neg_neg]
  · rw [if_neg (by simpa using hnegative), ← hcast, one_mul, Int.natAbs_of_nonneg (by omega)]

/-- Moshi over doubles that hold what their digits say. -/
def decimalTransport : Transport (List Char) where
  double
    | .int number => doubleOf number
    | .float (.finite x) => some x
    | _ => none
  collectionText _ := []
  number _ := .int 0
  double_int _ := doubleOf_value
  double_finite _ := rfl

theorem presentable_first (pid : Value × Value × Value) (selected : AlgorithmName)
    (algorithm : AlgorithmName) :
    Presentable algorithm ((Remembered.first pid selected).arguments algorithm) := by
  obtain ⟨-, holder, -, hholder⟩ := Core.Boot.exists_defaults algorithm
  intro parameter hparameter value hvalue
  obtain ⟨found, hfound, hitem⟩ :=
    getItem_collect hholder (parameters_nodup algorithm).2 hparameter
  dsimp only [Remembered.first] at hvalue
  rw [hholder] at hvalue
  obtain rfl : found = value := Option.some.inj (hitem.symm.trans hvalue)
  rw [(defaulted_ok hfound).1]
  obtain ⟨htype, -⟩ | ⟨stop, default, -, -, -, hdefault⟩ | ⟨-, -, x, hdefault⟩ :=
    parameter_kind hparameter
  · exact .inl htype
  · rw [hdefault]
    exact .inr trivial
  · rw [hdefault]
    exact .inr trivial

/-- The speed of the algorithm is written, and the rest is sent from the last field
to the first. -/
def speedRound (text : List Char) : Round where
  check _ isChecked := isChecked
  write name old := if name = Simple.speed.name then text else old
  choose _ old := old
  order := List.reverse
  order_perm := List.reverse_perm

/-- A robot that has just started, and two rounds of which one asks for too much. -/
theorem settings_kept_speed :
    let other : Value → List Char := fun _ => []
    let store := (perform readingDefaults other .restart
      (Core.Boot.firstStore (ConfigFile.saveConfig ⟨[]⟩))).2
    let remembered : Remembered := { Remembered.first Core.Config.defaultPidSettings .simple with
      current := some (.simple,
        (Remembered.first Core.Config.defaultPidSettings .simple).arguments .simple) }
    let rounds := [speedRound "600".toList, speedRound "6000".toList]
    let after := rounds.foldl
      (fun store round => round.perform readingDefaults other asciiKotlin id decimalTransport store)
      store
    let kept := rounds.foldl (fun remembered round => round.fill asciiKotlin remembered) remembered
    Represents readingDefaults after kept ∧
      (Round.opened readingDefaults other asciiKotlin id decimalTransport after).1 =
        some (screen other decimalTransport (kept.arguments .simple)) ∧
      ∀ round : Round, round.Untouched → ∀ parameter ∈ Simple.parameters, ∃ old new,
        getItem parameter.1 (kept.arguments .simple) = some old ∧
          getItem parameter.1 ((round.fill asciiKotlin kept).arguments .simple) = some new ∧
            same new old = true := by
  intro other store remembered rounds
  have hfirst : Represents readingDefaults
      (Core.Boot.firstStore (ConfigFile.saveConfig ⟨[]⟩))
      (Remembered.first Core.Config.defaultPidSettings .simple) :=
    represents_first (holds_empty _ (by decide)) rfl
  have hready : Ready readingDefaults store remembered :=
    ⟨(restart_refines faithful_readingDefaults hfirst).2, 
      presentable_first Core.Config.defaultPidSettings .simple, rfl, rfl⟩
  exact settings_kept asciiKotlin id decimalTransport readingDefaults faithful_readingDefaults other
    store remembered hready rounds

end VacuumCleaner.Link.AlgorithmSettings
