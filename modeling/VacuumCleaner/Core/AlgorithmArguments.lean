import VacuumCleaner.Core.AlgorithmManager
import VacuumCleaner.Core.Config
import VacuumCleaner.Lib.Fallible
import VacuumCleaner.Lib.JsonAccepted

/-! The parameters of the registered algorithms, and the files in which their
arguments are kept. -/
namespace VacuumCleaner.Core.AlgorithmArguments

open Lib Lib.Json Lib.Numeral AlgorithmLoop
open AlgorithmManager (AlgorithmName)
open Config.Configuration (given)

/-- What a parameter is annotated with: `in` tests the first two, `isinstance` the rest. -/
inductive ParameterType
  | range (start stop : Int)
  | list (values : List Value)
  | bool
  | str
  | int
  | float

structure FieldParameter where
  name : List Char
  type : ParameterType
  default : Value

inductive LoadingError
  | fileDoesNotExist (algorithm : AlgorithmName)
  | valueDoesNotExist (parameter : FieldParameter)
  | valueDoesNotMeetType (parameter : FieldParameter)
  | defaultIsNone
  | defaultDoesNotMeetType (parameter : FieldParameter)

/-- What the manager raises: a `LoadingAlgorithmArgumentsException`, another
exception of its own, or one that it lets through. -/
inductive Raised
  | loading (error : LoadingError)
  | forbidden (state : State)
  | canNotFind (algorithmName : List Char)
  | valueIsNotFound (name : List Char)
  | wrongType (name : List Char) (value : Value)
  | decoder (raised : DecodeError)
  | attributeError

/-- A value as a number, a boolean as 1 or 0. -/
def asNumber : Value → Option Number
  | .bool value => some (.int value.toInt)
  | .number number => some number
  | _ => none

/-- The integer that a value equals. -/
def asInteger (value : Value) : Option Int :=
  match asNumber value with
  | some (.int number) => some number
  | some (.float (.finite x)) => if x.value.isInt then some x.value.num else none
  | _ => none

/-- `==` of two numbers that a float can hold. -/
def sameNumber : Number → Number → Bool
  | .int a, .int b => a == b
  | .int a, .float (.finite x) | .float (.finite x), .int a => x.value == a
  | .float (.finite x), .float (.finite y) => x.value == y.value
  | .float (.infinity a), .float (.infinity b) => a == b
  | _, _ => false

/-- `==` of two scalars. -/
def same (left right : Value) : Bool :=
  match asNumber left, asNumber right with
  | some a, some b => sameNumber a b
  | _, _ =>
    match left, right with
    | .null, .null => true
    | .string a, .string b => a == b
    | _, _ => false

def doesValueMeetType (type : ParameterType) (value : Value) : Bool :=
  match type with
  | .range start stop => (asInteger value).any fun number => start ≤ number && number < stop
  | .list values => values.any (same value)
  | .bool => match value with
    | .bool _ => true
    | _ => false
  | .str => match value with
    | .string _ => true
    | _ => false
  | .int => match value with
    | .bool _ | .number (.int _) => true
    | _ => false
  | .float => match value with
    | .number (.float _) => true
    | _ => false

/-- `str` of a list's element. What is neither a string nor a number is printed
by `other`. -/
def strOf (other : Value → List Char) : Value → List Char
  | .string text => text
  | .number number => number.str
  | value => other value

/-- `_represent_type`; a type of another kind is no `ParameterType`. -/
def representType (other : Value → List Char) : ParameterType → List Char
  | .range start stop => (Number.int start).str ++ '.' :: '.' :: (Number.int stop).str
  | .list values => [','].intercalate (values.map (strOf other))
  | .bool => "boolean".toList
  | .str => "string".toList
  | .int => "integer".toList
  | .float => "floating".toList

theorem representType_range (other : Value → List Char) (start stop : Int) :
    representType other (.range start stop) =
      (Number.int start).str ++ '.' :: '.' :: (Number.int stop).str := rfl

theorem representType_list (other : Value → List Char) (values : List Value) :
    representType other (.list values) = [','].intercalate (values.map (strOf other)) := rfl

/-- The attributes of an algorithm's class that are parameters. -/
abbrev Parameters := List (List Char × FieldParameter)

namespace Simple

def speed : FieldParameter := ⟨"speed".toList, .range 0 2000, .number (.int 1000)⟩
def enableVacuumMotor : FieldParameter := ⟨"enable_motor".toList, .bool, .bool true⟩
def reverseDis : FieldParameter := ⟨"reverse_distance".toList, .range 0 1000, .number (.int 20)⟩
def reverseDisSpeed : FieldParameter :=
  ⟨"reverse_distance_speed".toList, .range 0 2000, .number (.int 1000)⟩
def reverseWithBreak : FieldParameter := ⟨"reverse_with_break".toList, .bool, .bool false⟩
def cliffEnabled : FieldParameter := ⟨"cliffs".toList, .bool, .bool false⟩
def vacuumMotorValue : FieldParameter := ⟨"vacuum_motor".toList, .range 0 100, .number (.int 50)⟩

def parameters : Parameters :=
  [("speed".toList, speed), ("enable_vacuum_motor".toList, enableVacuumMotor),
    ("reverse_dis".toList, reverseDis), ("reverse_dis_speed".toList, reverseDisSpeed),
    ("reverse_with_break".toList, reverseWithBreak), ("cliff_enabled".toList, cliffEnabled),
    ("vacuum_motor_value".toList, vacuumMotorValue)]

end Simple

namespace Smart

/-- One. -/
def one : Decimal := { Config.pointOne with point := 1, range := by decide }

def speedArgument : FieldParameter := ⟨"speed".toList, .range 0 1000, .number (.int 50)⟩
def test : FieldParameter := ⟨"test3".toList, .float, .number (.float (.finite one))⟩

def parameters : Parameters := [("speed_argument".toList, speedArgument), ("test".toList, test)]

end Smart

/-- `ALGORITHMS`. -/
def algorithms : List AlgorithmName := [.simple, .smart]

def getName : AlgorithmName → List Char
  | .simple => "simple".toList
  | .smart => "smart".toList

def getParameters : AlgorithmName → Parameters
  | .simple => Simple.parameters
  | .smart => Smart.parameters

def getAlgorithmClass (algorithmName : List Char) : Except Raised AlgorithmName :=
  match algorithms.find? fun algorithm => getName algorithm == algorithmName with
  | some algorithm => .ok algorithm
  | none => .error (.canNotFind algorithmName)

/-- The texts of the files in the configs folder, by their names. -/
abbrev Folder := (file : List Char) → Option (List Char)

def configFile (algorithm : AlgorithmName) : List Char := getName algorithm ++ ".json".toList

def saveConfigFor (algorithm : AlgorithmName) (parameters : Members) (folder : Folder) : Folder :=
  Function.update folder (configFile algorithm) (some (dumps (.object parameters)))

def readConfigFor (py : Runtime) (algorithm : AlgorithmName) (folder : Folder) :
    Except Raised Value :=
  match folder (configFile algorithm) with
  | none => .error (.loading (.fileDoesNotExist algorithm))
  | some text => (loads py text).mapError .decoder

/-- One pass over the parameters, which keeps what it finds for each under a key. -/
def collect (key : List Char × FieldParameter → List Char)
    (find : FieldParameter → Except Raised Value) : Parameters → Except Raised Members
  | [] => .ok []
  | parameter :: parameters => do
    let value ← find parameter.2
    let values ← collect key find parameters
    return (key parameter, value) :: values

/-- What `save_algorithm_arguments` keeps for a parameter. -/
def accepted (arguments : Members) (arg : FieldParameter) : Except Raised Value :=
  match given arg.name arguments with
  | none => .error (.valueIsNotFound arg.name)
  | some value =>
    if doesValueMeetType arg.type value then .ok value else .error (.wrongType arg.name value)

/-- What `_load_arguments_from_file` finds for a parameter. -/
def loaded (config : Value) (parameter : FieldParameter) : Except Raised Value :=
  match config with
  | .object members =>
    match given parameter.name members with
    | none => .error (.loading (.valueDoesNotExist parameter))
    | some value =>
      if doesValueMeetType parameter.type value then .ok value
      else .error (.loading (.valueDoesNotMeetType parameter))
  | _ => .error .attributeError

/-- What `_recreate_argument_config_file` takes for a parameter. -/
def defaulted (parameter : FieldParameter) : Except Raised Value :=
  match parameter.default with
  | .null => .error (.loading .defaultIsNone)
  | value =>
    if doesValueMeetType parameter.type value then .ok value
    else .error (.loading (.defaultDoesNotMeetType parameter))

/-- The attributes of a holder with their values. -/
abbrev ArgumentsHolder := Members

/-! An operation on the files gives them back also when it has raised. -/

def saveAlgorithmArguments (algorithmName : List Char) (arguments : Members) (folder : Folder) :
    Except Raised Unit × Folder :=
  match getAlgorithmClass algorithmName with
  | .error raised => (.error raised, folder)
  | .ok algorithm =>
    match collect (·.2.name) (accepted arguments) (getParameters algorithm) with
    | .error raised => (.error raised, folder)
    | .ok res => (.ok (), saveConfigFor algorithm res folder)

def loadArgumentsFromFile (py : Runtime) (algorithm : AlgorithmName) (folder : Folder) :
    Except Raised ArgumentsHolder := do
  let config ← readConfigFor py algorithm folder
  collect Prod.fst (loaded config) (getParameters algorithm)

def recreateArgumentConfigFile (algorithm : AlgorithmName) (folder : Folder) :
    Except Raised ArgumentsHolder × Folder :=
  match collect (·.2.name) defaulted (getParameters algorithm),
    collect Prod.fst defaulted (getParameters algorithm) with
  | .ok result, .ok holder => (.ok holder, saveConfigFor algorithm result folder)
  | .error raised, _ | _, .error raised => (.error raised, folder)

def loadArguments (py : Runtime) (algorithm : AlgorithmName) (folder : Folder) :
    Except Raised ArgumentsHolder × Folder :=
  match loadArgumentsFromFile py algorithm folder with
  | .ok args => (.ok args, folder)
  | .error (.loading _) => recreateArgumentConfigFile algorithm folder
  | .error raised => (.error raised, folder)

theorem parameters_nodup (algorithm : AlgorithmName) :
    ((getParameters algorithm).map (·.2.name)).Nodup ∧
      ((getParameters algorithm).map Prod.fst).Nodup := by
  cases algorithm <;> decide

theorem configFile_injective : Function.Injective configFile := by
  intro algorithm other h
  cases algorithm <;> cases other <;> first | rfl | cases h

theorem getAlgorithmClass_ok {algorithmName : List Char} {algorithm : AlgorithmName}
    (h : getAlgorithmClass algorithmName = .ok algorithm) : getName algorithm = algorithmName := by
  unfold getAlgorithmClass at h
  split at h
  · rename_i hfound
    cases h
    exact eq_of_beq (List.find?_some (p := fun algorithm => getName algorithm == algorithmName) hfound)
  · cases h

theorem getAlgorithmClass_getName (algorithm : AlgorithmName) :
    getAlgorithmClass (getName algorithm) = .ok algorithm := by
  cases algorithm <;> rfl

section Collect

variable {key : List Char × FieldParameter → List Char} {find : FieldParameter → Except Raised Value}
  {parameters : Parameters} {values : Members}

theorem collect_cons_ok {parameter : List Char × FieldParameter}
    (h : collect key find (parameter :: parameters) = .ok values) : ∃ value others,
      find parameter.2 = .ok value ∧ collect key find parameters = .ok others ∧
        values = (key parameter, value) :: others := by
  obtain ⟨value, hvalue, h⟩ := bind_ok h
  obtain ⟨others, hothers, h⟩ := bind_ok h
  cases h
  exact ⟨value, others, hvalue, hothers, rfl⟩

theorem keys_collect (h : collect key find parameters = .ok values) :
    values.map Prod.fst = parameters.map key := by
  induction parameters generalizing values with
  | nil =>
    cases h
    rfl
  | cons parameter parameters ih =>
    obtain ⟨value, others, -, hothers, rfl⟩ := collect_cons_ok h
    rw [List.map_cons, List.map_cons, ih hothers]

theorem mem_collect (h : collect key find parameters = .ok values) {member : List Char × Value}
    (hmem : member ∈ values) : ∃ parameter ∈ parameters, find parameter.2 = .ok member.2 := by
  induction parameters generalizing values with
  | nil =>
    cases h
    cases hmem
  | cons parameter parameters ih =>
    obtain ⟨value, others, hvalue, hothers, rfl⟩ := collect_cons_ok h
    rcases List.mem_cons.mp hmem with rfl | hmem
    · exact ⟨parameter, List.mem_cons_self, hvalue⟩
    · obtain ⟨other, hother, hfind⟩ := ih hothers hmem
      exact ⟨other, List.mem_cons_of_mem _ hother, hfind⟩

theorem getItem_collect (h : collect key find parameters = .ok values)
    (hnodup : (parameters.map key).Nodup) {parameter : List Char × FieldParameter}
    (hmem : parameter ∈ parameters) :
    ∃ value, find parameter.2 = .ok value ∧ getItem (key parameter) values = some value := by
  induction parameters generalizing values with
  | nil => cases hmem
  | cons first parameters ih =>
    obtain ⟨value, others, hvalue, hothers, rfl⟩ := collect_cons_ok h
    rw [List.map_cons, List.nodup_cons] at hnodup
    rcases List.mem_cons.mp hmem with rfl | hmem
    · exact ⟨value, hvalue, by simp [getItem]⟩
    · obtain ⟨found, hfind, hitem⟩ := ih hothers hnodup.2 hmem
      refine ⟨found, hfind, ?_⟩
      have hne : key first ≠ key parameter := by
        intro heq
        exact hnodup.1 (heq ▸ List.mem_map_of_mem hmem)
      unfold getItem at hitem ⊢
      rw [List.find?_cons_of_neg (by simpa using hne)]
      exact hitem

theorem exists_collect (key : List Char × FieldParameter → List Char)
    (hfind : ∀ parameter ∈ parameters, ∃ value, find parameter.2 = .ok value) :
    ∃ values, collect key find parameters = .ok values := by
  induction parameters with
  | nil => exact ⟨[], rfl⟩
  | cons parameter parameters ih =>
    obtain ⟨value, hvalue⟩ := hfind parameter List.mem_cons_self
    obtain ⟨others, hothers⟩ := ih fun other hother => hfind other (List.mem_cons_of_mem _ hother)
    refine ⟨(key parameter, value) :: others, ?_⟩
    rw [collect, hvalue, hothers]
    rfl

end Collect

section Saving

variable {py : Runtime} {algorithm : AlgorithmName} {arguments res : Members} {folder : Folder}

theorem accepted_ok {arg : FieldParameter} {value : Value} (h : accepted arguments arg = .ok value) :
    getItem arg.name arguments = some value ∧ value ≠ .null ∧
      doesValueMeetType arg.type value = true := by
  unfold accepted at h
  split at h
  · cases h
  · rename_i found hgiven
    split at h
    · rename_i htype
      cases h
      unfold given at hgiven
      split at hgiven
      · cases hgiven
      · rename_i hnull
        refine ⟨hgiven, ?_, htype⟩
        rintro rfl
        exact hnull hgiven
    · cases h

theorem loaded_of_accepted {arg : FieldParameter} {value : Value}
    (h : accepted arguments arg = .ok value) (hitem : getItem arg.name res = some value) :
    loaded (.object res) arg = .ok value := by
  obtain ⟨-, hnull, htype⟩ := accepted_ok h
  simp only [loaded, Config.Configuration.given_of_getItem hnull hitem, htype, if_true]

theorem readable_of_meetsType {type : ParameterType} {value : Value}
    (htype : doesValueMeetType type value = true) {outer : Nat} (h : Readable py outer value)
    (depth : Nat) : Readable py depth value := by
  cases h with
  | null => exact .null
  | bool => exact .bool
  | string => exact .string
  | int hdigits => exact .int hdigits
  | finite hshortest hfloat => exact .finite hshortest hfloat
  | infinity => exact .infinity
  | nan => exact .nan
  | array => cases type <;> simp [doesValueMeetType, asInteger, asNumber, same] at htype
  | object => cases type <;> simp [doesValueMeetType, asInteger, asNumber, same] at htype

theorem loads_saved (hnests : 0 < py.recursionLimit)
    (hreadable : ∀ argument ∈ arguments, ∃ depth, Readable py depth argument.2)
    (hres : collect (·.2.name) (accepted arguments) (getParameters algorithm) = .ok res) :
    loads py (dumps (.object res)) = .ok (.object res) := by
  obtain ⟨depth, hdepth⟩ := Nat.exists_eq_succ_of_ne_zero (Nat.ne_of_gt hnests)
  apply loads_dumps
  rw [hdepth]
  refine .object ?_ fun member hmember => ?_
  · rw [keys_collect hres]
    exact (parameters_nodup algorithm).1
  · obtain ⟨parameter, -, haccepted⟩ := mem_collect hres hmember
    obtain ⟨hitem, -, htype⟩ := accepted_ok haccepted
    obtain ⟨entry, hentry, hvalue⟩ := Option.map_eq_some_iff.mp hitem
    obtain ⟨outer, hread⟩ := hreadable entry (List.mem_of_find?_eq_some hentry)
    rw [hvalue] at hread
    exact readable_of_meetsType htype hread depth

@[simp] theorem saveConfigFor_self (parameters : Members) :
    saveConfigFor algorithm parameters folder (configFile algorithm) =
      some (dumps (.object parameters)) := Function.update_self ..

theorem saveConfigFor_of_ne {file : List Char} (hne : file ≠ configFile algorithm)
    (parameters : Members) : saveConfigFor algorithm parameters folder file = folder file :=
  Function.update_of_ne hne ..

theorem loadArgumentsFromFile_saved (folder : Folder) (hnests : 0 < py.recursionLimit)
    (hreadable : ∀ argument ∈ arguments, ∃ depth, Readable py depth argument.2)
    (hres : collect (·.2.name) (accepted arguments) (getParameters algorithm) = .ok res) :
    ∃ holder, loadArgumentsFromFile py algorithm (saveConfigFor algorithm res folder) = .ok holder ∧
      ∀ parameter ∈ getParameters algorithm, ∃ value,
        accepted arguments parameter.2 = .ok value ∧ getItem parameter.1 holder = some value := by
  obtain ⟨hnames, hrefs⟩ := parameters_nodup algorithm
  have hloaded : ∀ parameter ∈ getParameters algorithm, ∃ value,
      accepted arguments parameter.2 = .ok value ∧ loaded (.object res) parameter.2 = .ok value := by
    intro parameter hparameter
    obtain ⟨value, haccepted, hitem⟩ := getItem_collect hres hnames hparameter
    exact ⟨value, haccepted, loaded_of_accepted haccepted hitem⟩
  obtain ⟨holder, hholder⟩ := exists_collect Prod.fst fun parameter hparameter =>
    (hloaded parameter hparameter).imp fun value h => h.2
  refine ⟨holder, ?_, fun parameter hparameter => ?_⟩
  · unfold loadArgumentsFromFile readConfigFor
    rw [saveConfigFor_self]
    dsimp only
    rw [loads_saved hnests hreadable hres]
    exact hholder
  · obtain ⟨value, haccepted, hvalue⟩ := hloaded parameter hparameter
    obtain ⟨found, hfound, hitem⟩ := getItem_collect hholder hrefs hparameter
    rw [hvalue] at hfound
    cases hfound
    exact ⟨value, haccepted, hitem⟩

theorem saveAlgorithmArguments_eq_error {algorithmName : List Char} {raised : Raised}
    (h : (saveAlgorithmArguments algorithmName arguments folder).1 = .error raised) :
    (saveAlgorithmArguments algorithmName arguments folder).2 = folder := by
  unfold saveAlgorithmArguments at h ⊢
  split at h
  · rfl
  · split at h
    · rfl
    · cases h

theorem saveAlgorithmArguments_eq_ok {algorithmName : List Char}
    (h : (saveAlgorithmArguments algorithmName arguments folder).1 = .ok ()) :
    ∃ algorithm res, getName algorithm = algorithmName ∧
      collect (·.2.name) (accepted arguments) (getParameters algorithm) = .ok res ∧
      (saveAlgorithmArguments algorithmName arguments folder).2 =
        saveConfigFor algorithm res folder := by
  unfold saveAlgorithmArguments at h ⊢
  split at h
  · cases h
  · rename_i algorithm hclass
    split at h
    · cases h
    · rename_i res hres
      exact ⟨algorithm, res, getAlgorithmClass_ok hclass, hres, rfl⟩

theorem loadArguments_of_file {holder : ArgumentsHolder}
    (h : loadArgumentsFromFile py algorithm folder = .ok holder) :
    loadArguments py algorithm folder = (.ok holder, folder) := by
  unfold loadArguments
  rw [h]

end Saving

/-- Accepted arguments that JSON takes there and back are loaded as they were
given. A rejected request has written nothing, an accepted one its own file. -/
theorem saved_arguments_read_back (py : Runtime) (hnests : 0 < py.recursionLimit)
    (algorithmName : List Char) (arguments : Members)
    (hreadable : ∀ argument ∈ arguments, ∃ depth, Readable py depth argument.2) (folder : Folder) :
    match saveAlgorithmArguments algorithmName arguments folder with
    | (.error _, after) => after = folder
    | (.ok _, after) => ∃ algorithm holder, getName algorithm = algorithmName ∧
        loadArgumentsFromFile py algorithm after = .ok holder ∧
        loadArguments py algorithm after = (.ok holder, after) ∧
        (∀ parameter ∈ getParameters algorithm, ∃ value,
          getItem parameter.2.name arguments = some value ∧
            getItem parameter.1 holder = some value) ∧
        ∀ other, other ≠ algorithm → after (configFile other) = folder (configFile other) := by
  cases hsave : (saveAlgorithmArguments algorithmName arguments folder).1 with
  | error raised =>
    have hsame := saveAlgorithmArguments_eq_error hsave
    split
    · rename_i heq
      rw [heq] at hsame
      exact hsame
    · rename_i heq
      rw [heq] at hsave
      cases hsave
  | ok saved =>
    obtain ⟨algorithm, res, hname, hres, hafter⟩ := saveAlgorithmArguments_eq_ok hsave
    obtain ⟨holder, hholder, hvalues⟩ := loadArgumentsFromFile_saved folder hnests
      hreadable hres
    split
    · rename_i heq
      rw [heq] at hsave
      cases hsave
    · rename_i after heq
      rw [heq] at hafter
      dsimp only at hafter
      subst hafter
      refine ⟨algorithm, holder, hname, hholder, loadArguments_of_file hholder,
        fun parameter hparameter => ?_, fun other hother => ?_⟩
      · obtain ⟨value, haccepted, hitem⟩ := hvalues parameter hparameter
        exact ⟨value, (accepted_ok haccepted).1, hitem⟩
      · exact saveConfigFor_of_ne (configFile_injective.ne hother) res

/-- A runtime that reads the numeral of one float. -/
def readingRuntime (x : Decimal) : Runtime :=
  ⟨1000, 4300, fun numeral => if numeral = x.repr then .finite x else .nan⟩

def smartArguments (speed : Int) : Members :=
  [("speed".toList, .number (.int speed)),
    ("test3".toList, .number (.float (.finite Smart.one)))]

theorem exact_readingRuntime {x : Decimal} (hshortest : IsShortest x) : (readingRuntime x).Exact := by
  have hsame : ∀ {numeral : List Char} {y : Decimal}, (readingRuntime x).toFloat numeral = .finite y →
      y = x := by
    intro numeral y hfloat
    simp only [readingRuntime] at hfloat
    split at hfloat
    · cases hfloat
      rfl
    · cases hfloat
  constructor
  · intro numeral y hfloat
    rw [hsame hfloat]
    exact hshortest
  · intro numeral y hfloat
    rw [hsame hfloat]
    simp [readingRuntime]

theorem readable_reading {x : Decimal} (hshortest : IsShortest x) (depth : Nat) :
    Readable (readingRuntime x) depth (.number (.float (.finite x))) :=
  .finite hshortest (by simp [readingRuntime])

theorem isShortest_one : IsShortest Smart.one := .inr (by decide)

theorem readable_smartArguments :
    ∀ argument ∈ smartArguments 5, ∃ depth, Readable (readingRuntime Smart.one) depth argument.2 := by
  simp only [smartArguments, List.forall_mem_cons, List.not_mem_nil, false_imp_iff, implies_true,
    and_true]
  exact ⟨⟨0, .int (.inr (by decide))⟩, ⟨0, readable_reading isShortest_one 0⟩⟩

theorem saved_arguments_read_back_smart :
    ∃ holder, loadArguments (readingRuntime Smart.one) .smart
        (saveAlgorithmArguments "smart".toList (smartArguments 5) fun _ => none).2 =
          (.ok holder, (saveAlgorithmArguments "smart".toList (smartArguments 5) fun _ => none).2) ∧
      ∀ parameter ∈ getParameters .smart, ∃ value,
        getItem parameter.2.name (smartArguments 5) = some value ∧
          getItem parameter.1 holder = some value := by
  obtain ⟨algorithm, holder, hname, -, hload, hvalues, -⟩ :=
    saved_arguments_read_back (readingRuntime Smart.one) (by decide) "smart".toList (smartArguments 5)
      readable_smartArguments fun _ => none
  cases algorithm with
  | simple => cases hname
  | smart => exact ⟨holder, hload, hvalues⟩

end VacuumCleaner.Core.AlgorithmArguments
