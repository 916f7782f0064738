import VacuumCleaner.Core.Boot
import VacuumCleaner.Core.ConfigurationRuns
import VacuumCleaner.Core.SetAlgorithm
import VacuumCleaner.Lib.Refinement

/-! What the core remembers from one request to the next, and over a restart:
the gains, the selected algorithm and the arguments of each algorithm. Over the
texts of its files the core answers as if it kept these values themselves. -/
namespace VacuumCleaner.Core.StoreRuns

open Lib Lib.Json AlgorithmLoop AlgorithmArguments Stores
open AlgorithmManager (AlgorithmName)
open Config (Configuration pointOne)
open ConfigurationRuns (Gain Holds Performs settings)

/-- An entry of the `arguments` of `get_algorithm_info`. -/
structure ArgumentInfo where
  name : List Char
  valueType : List Char
  default : Value
  value : Value

structure AlgorithmInfo where
  name : List Char
  description : List Char
  arguments : List ArgumentInfo

def getDescription : AlgorithmName → List Char
  | .simple => "Just simple algorithm of cleaning".toList
  | .smart => "Just smart algorithm of cleaning".toList

/-- An attribute that the holder does not have raises. -/
def argumentInfo (other : Value → List Char) (holder : ArgumentsHolder)
    (parameter : List Char × FieldParameter) : Except AlgorithmArguments.Raised ArgumentInfo :=
  match getItem parameter.1 holder with
  | none => .error .attributeError
  | some value =>
    .ok ⟨parameter.2.name, representType other parameter.2.type, parameter.2.default, value⟩

def describe (other : Value → List Char) (algorithm : AlgorithmName) (savedValues : ArgumentsHolder) :
    Except AlgorithmArguments.Raised AlgorithmInfo := do
  let arguments ← (getParameters algorithm).mapM (argumentInfo other savedValues)
  return ⟨getName algorithm, getDescription algorithm, arguments⟩

def getAlgorithmInfo (py : Runtime) (other : Value → List Char) (algorithm : AlgorithmName)
    (folder : Folder) : Except AlgorithmArguments.Raised AlgorithmInfo × Folder :=
  match loadArguments py algorithm folder with
  | (.error raised, folder) => (.error raised, folder)
  | (.ok savedValues, folder) => (describe other algorithm savedValues, folder)

def getAlgorithms (py : Runtime) (other : Value → List Char) :
    List AlgorithmName → Folder → Except AlgorithmArguments.Raised (List AlgorithmInfo) × Folder
  | [], folder => (.ok [], folder)
  | algorithm :: algorithms, folder =>
    match getAlgorithmInfo py other algorithm folder with
    | (.error raised, folder) => (.error raised, folder)
    | (.ok info, folder) =>
      let (infos, folder) := getAlgorithms py other algorithms folder
      (infos.map (info :: ·), folder)

/-- What the endpoints raise. Without an algorithm the current one has no name. -/
inductive Raised
  | store (raised : Stores.Raised)
  | algorithmIsNotSet

inductive Answer
  | done
  | pidSettings (gains : Value × Value × Value)
  | algorithms (current : List Char) (infos : List AlgorithmInfo)

/-- The requests that read or write what is stored, a restart, and what `start`,
`pause`, `resume` and `stop` make of the state. The values of a request come
out of JSON. -/
inductive Operation (py : Runtime)
  | setAlgorithm (request : SetAlgorithm.Request)
    (readable : ∀ argument ∈ request.arguments, ∃ depth, Readable py depth argument.2)
  | getAlgorithms
  | setPidSettings (proportional integral derivative : Gain py)
  | getPidSettings
  | restart
  | enter (state : State)

section

variable (py : Runtime) (other : Value → List Char)

/-- `GetAlgorithmsRequest.perform`. -/
def performGetAlgorithms (store : Store) : Except Raised Answer × Store :=
  match getAlgorithms py other algorithms store.folder with
  | (.error raised, folder) => (.error (.store (.manager raised)), { store with folder })
  | (.ok infos, folder) =>
    match store.algorithm with
    | none => (.error .algorithmIsNotSet, { store with folder })
    | some (algorithm, _) => (.ok (.algorithms (getName algorithm) infos), { store with folder })

/-- A new process over the same files. -/
def restart (store : Store) : Store := { store with state := .idle, algorithm := none }

def perform : Operation py → Store → Except Raised Answer × Store
  | .setAlgorithm request _, store =>
    let (result, after) := SetAlgorithm.perform py request store
    ((result.map fun _ => .done).mapError .store, after)
  | .getAlgorithms, store => performGetAlgorithms py other store
  | .setPidSettings proportional integral derivative, store =>
    let (result, config) := ConfigFile.setPidSettings py proportional.value integral.value
      derivative.value store.config
    ((result.map fun _ => .done).mapError fun raised => .store (.configuration raised),
      { store with config })
  | .getPidSettings, store =>
    let (result, config) := ConfigFile.getPidSettings py store.config
    ((result.map .pidSettings).mapError fun raised => .store (.configuration raised),
      { store with config })
  | .restart, store =>
    let (result, after) := Boot.boot py (restart store)
    ((result.map .pidSettings).mapError .store, after)
  | .enter state, store => (.ok .done, { store with state })

end

/-! The abstract store. -/

structure Remembered where
  pid : Value × Value × Value
  selected : AlgorithmName
  arguments : AlgorithmName → ArgumentsHolder
  state : State
  current : Option (AlgorithmName × ArgumentsHolder)

/-- What a request asks to be kept: its algorithm with a value for each
parameter, or what it is refused with. -/
def asked (request : SetAlgorithm.Request) :
    Except AlgorithmArguments.Raised (AlgorithmName × ArgumentsHolder) := do
  let algorithm ← getAlgorithmClass request.algorithmName
  let holder ← collect Prod.fst (accepted request.dictionary) (getParameters algorithm)
  return (algorithm, holder)

namespace Remembered

variable {py : Runtime} (other : Value → List Char)

/-- An accepted request is remembered also by a manager that is at work. -/
def setAlgorithm (request : SetAlgorithm.Request) (remembered : Remembered) :
    Except Raised Answer × Remembered :=
  match asked request with
  | .error raised => (.error (.store (.manager raised)), remembered)
  | .ok (algorithm, holder) =>
    let next := { remembered with
      selected := algorithm, arguments := Function.update remembered.arguments algorithm holder }
    if remembered.state ≠ .idle then
      (.error (.store (.manager (.forbidden remembered.state))), next)
    else (.ok .done, { next with current := some (algorithm, holder) })

def getAlgorithms (remembered : Remembered) : Except Raised Answer :=
  match algorithms.mapM fun algorithm =>
      describe other algorithm (remembered.arguments algorithm) with
  | .error raised => .error (.store (.manager raised))
  | .ok infos =>
    match remembered.current with
    | none => .error .algorithmIsNotSet
    | some (algorithm, _) => .ok (.algorithms (getName algorithm) infos)

def perform : Operation py → Remembered → Except Raised Answer × Remembered
  | .setAlgorithm request _, remembered => remembered.setAlgorithm request
  | .getAlgorithms, remembered => (remembered.getAlgorithms other, remembered)
  | .setPidSettings proportional integral derivative, remembered =>
    (.ok .done, { remembered with
      pid := (proportional.value, integral.value, derivative.value) })
  | .getPidSettings, remembered => (.ok (.pidSettings remembered.pid), remembered)
  | .restart, remembered => (.ok (.pidSettings remembered.pid), { remembered with
      state := .idle
      current := some (remembered.selected, remembered.arguments remembered.selected) })
  | .enter state, remembered => (.ok .done, { remembered with state })

end Remembered

/-- The files hold what is remembered: what they lack is the default. -/
structure Represents (py : Runtime) (store : Store) (remembered : Remembered) : Prop where
  config : ∃ members, Holds py store.config members ∧
    settings members = ⟨remembered.pid, .string (getName remembered.selected)⟩
  folder : ∀ algorithm, ∃ folder, loadArguments py algorithm store.folder =
    (.ok (remembered.arguments algorithm), folder)
  state : store.state = remembered.state
  current : store.algorithm = remembered.current

/-- What is used of the runtime: its floats are read back as they are printed,
and it takes the nesting and the numerals of the defaults. -/
structure Faithful (py : Runtime) : Prop where
  exact : py.Exact
  nests : 2 ≤ py.recursionLimit
  numerals : py.maxStrDigits = 0 ∨ 640 ≤ py.maxStrDigits
  pointOne : py.toFloat pointOne.repr = .finite pointOne
  one : py.toFloat Smart.one.repr = .finite Smart.one

/-! The files of the arguments. -/

section Collect

variable {key other : List Char × FieldParameter → List Char}
  {find found : FieldParameter → Except AlgorithmArguments.Raised Value} {parameters : Parameters}

theorem collect_congr (h : ∀ parameter ∈ parameters, find parameter.2 = found parameter.2) :
    collect key find parameters = collect key found parameters := by
  induction parameters with
  | nil => rfl
  | cons parameter parameters ih =>
    rw [collect, collect, h parameter (.head _), ih fun next hnext => h next (.tail _ hnext)]

theorem collect_error {raised : AlgorithmArguments.Raised}
    (h : collect key find parameters = .error raised) :
    collect other find parameters = .error raised := by
  induction parameters with
  | nil => cases h
  | cons parameter parameters ih =>
    rw [collect] at h ⊢
    cases hvalue : find parameter.2 with
    | error first =>
      rw [hvalue] at h
      exact h
    | ok value =>
      cases hvalues : collect key find parameters with
      | error rest =>
        rw [hvalue, hvalues] at h
        cases h
        rw [ih hvalues]
        rfl
      | ok values =>
        rw [hvalue, hvalues] at h
        cases h

theorem exists_collect_of_ok {values : Members} (h : collect key find parameters = .ok values) :
    ∃ values, collect other find parameters = .ok values := by
  cases hother : collect other find parameters with
  | ok values => exact ⟨values, rfl⟩
  | error raised =>
    rw [collect_error hother] at h
    cases h

end Collect

/-- What a parameter is found to be it can be loaded as. -/
def Loadable (find : FieldParameter → Except AlgorithmArguments.Raised Value) : Prop :=
  ∀ parameter value, find parameter = .ok value →
    value ≠ .null ∧ doesValueMeetType parameter.type value = true

theorem loadable_accepted (arguments : Members) : Loadable (accepted arguments) :=
  fun _ _ h => (accepted_ok h).2

theorem defaulted_ok {parameter : FieldParameter} {value : Value}
    (h : defaulted parameter = .ok value) : value = parameter.default ∧ value ≠ .null ∧
      doesValueMeetType parameter.type value = true := by
  unfold defaulted at h
  split at h
  · cases h
  · rename_i hnull
    split at h
    · rename_i htype
      cases h
      exact ⟨rfl, hnull, htype⟩
    · cases h

theorem loadable_defaulted : Loadable defaulted := fun _ _ h => (defaulted_ok h).2

section Folder

variable {py : Runtime} {algorithm : AlgorithmName} {folder : Folder} {res : Members}
  {find : FieldParameter → Except AlgorithmArguments.Raised Value}

theorem loadArgumentsFromFile_found (hfind : Loadable find)
    (hres : collect (·.2.name) find (getParameters algorithm) = .ok res)
    (hread : loads py (dumps (.object res)) = .ok (.object res)) (folder : Folder) :
    loadArgumentsFromFile py algorithm (saveConfigFor algorithm res folder) =
      collect Prod.fst find (getParameters algorithm) := by
  unfold loadArgumentsFromFile readConfigFor
  rw [saveConfigFor_self]
  dsimp only
  rw [hread]
  apply collect_congr
  intro parameter hparameter
  obtain ⟨value, hvalue, hitem⟩ :=
    getItem_collect hres (parameters_nodup algorithm).1 hparameter
  obtain ⟨hnull, htype⟩ := hfind _ _ hvalue
  rw [hvalue]
  simp only [loaded, Config.Configuration.given_of_getItem hnull hitem, htype, if_true]

theorem readable_default (hpy : Faithful py) {parameter : List Char × FieldParameter}
    (hparameter : parameter ∈ getParameters algorithm) (depth : Nat) :
    Readable py depth parameter.2.default := by
  have hint : ∀ number : Int, (Nat.toDigits 10 number.natAbs).length ≤ 640 →
      Readable py depth (.number (.int number)) := by
    intro number hlength
    refine .int (hpy.numerals.imp id fun hlarge => hlength.trans hlarge)
  cases algorithm with
  | simple =>
    simp only [getParameters, Simple.parameters, List.mem_cons, List.not_mem_nil,
      or_false] at hparameter
    rcases hparameter with rfl | rfl | rfl | rfl | rfl | rfl | rfl
    · exact hint 1000 (by decide)
    · exact .bool
    · exact hint 20 (by decide)
    · exact hint 1000 (by decide)
    · exact .bool
    · exact .bool
    · exact hint 50 (by decide)
  | smart =>
    simp only [getParameters, Smart.parameters, List.mem_cons, List.not_mem_nil,
      or_false] at hparameter
    rcases hparameter with rfl | rfl
    · exact hint 50 (by decide)
    · exact .finite isShortest_one hpy.one

theorem loads_defaults (hpy : Faithful py)
    (hres : collect (·.2.name) defaulted (getParameters algorithm) = .ok res) :
    loads py (dumps (.object res)) = .ok (.object res) := by
  obtain ⟨depth, hdepth⟩ := Nat.exists_eq_succ_of_ne_zero
    (show py.recursionLimit ≠ 0 from fun hzero => by
      have hnests := hpy.nests
      omega)
  apply loads_dumps
  rw [hdepth]
  refine .object ?_ fun member hmember => ?_
  · rw [keys_collect hres]
    exact (parameters_nodup algorithm).1
  · obtain ⟨parameter, hparameter, hvalue⟩ := mem_collect hres hmember
    rw [(defaulted_ok hvalue).1]
    exact readable_default hpy hparameter depth

theorem loadArguments_congr {other : Folder}
    (hfile : other (configFile algorithm) = folder (configFile algorithm)) :
    (loadArguments py algorithm other).1 = (loadArguments py algorithm folder).1 := by
  have hload : loadArgumentsFromFile py algorithm other =
      loadArgumentsFromFile py algorithm folder := by
    unfold loadArgumentsFromFile readConfigFor
    rw [hfile]
  unfold loadArguments
  rw [hload]
  split
  · rfl
  · unfold recreateArgumentConfigFile
    split <;> rfl
  · rfl

/-- Loading leaves the other files alone, and its own as it loads again. -/
structure Settled (py : Runtime) (algorithm : AlgorithmName) (holder : ArgumentsHolder)
    (folder after : Folder) : Prop where
  again : loadArguments py algorithm after = (.ok holder, after)
  others : ∀ other, other ≠ algorithm → after (configFile other) = folder (configFile other)

theorem settled_of_loadArguments (hpy : Faithful py) {holder : ArgumentsHolder} {after : Folder}
    (hload : loadArguments py algorithm folder = (.ok holder, after)) :
    Settled py algorithm holder folder after := by
  have hagain := hload
  unfold loadArguments at hload
  split at hload
  · cases hload
    exact ⟨hagain, fun _ _ => rfl⟩
  · obtain ⟨result, holder', hresult, hholder'⟩ := Boot.exists_defaults algorithm
    unfold recreateArgumentConfigFile at hload
    rw [hresult, hholder'] at hload
    cases hload
    have hfile := loadArgumentsFromFile_found loadable_defaulted hresult
      (loads_defaults hpy hresult) folder
    exact ⟨loadArguments_of_file (hfile.trans hholder'), fun other hother =>
      saveConfigFor_of_ne (configFile_injective.ne hother) result⟩
  · cases hload

/-- Every algorithm loads with its arguments. -/
def Kept (py : Runtime) (folder : Folder) (arguments : AlgorithmName → ArgumentsHolder) : Prop :=
  ∀ algorithm, ∃ after, loadArguments py algorithm folder = (.ok (arguments algorithm), after)

theorem exists_load {holder : ArgumentsHolder}
    (h : (loadArguments py algorithm folder).1 = .ok holder) :
    ∃ after, loadArguments py algorithm folder = (.ok holder, after) := ⟨_, Prod.ext h rfl⟩

theorem Kept.load (hpy : Faithful py) {arguments : AlgorithmName → ArgumentsHolder}
    (hkept : Kept py folder arguments) {holder : ArgumentsHolder} {after : Folder}
    (hload : loadArguments py algorithm folder = (.ok holder, after)) :
    Kept py after arguments := by
  have hsettled := settled_of_loadArguments hpy hload
  intro other
  obtain ⟨_, hother⟩ := hkept other
  by_cases hsame : other = algorithm
  · subst hsame
    rw [hother] at hload
    cases hload
    exact ⟨_, hsettled.again⟩
  · apply exists_load
    rw [loadArguments_congr (hsettled.others other hsame), hother]

theorem Kept.save {arguments : AlgorithmName → ArgumentsHolder} (hkept : Kept py folder arguments)
    {holder : ArgumentsHolder}
    (hload : loadArgumentsFromFile py algorithm (saveConfigFor algorithm res folder) = .ok holder) :
    Kept py (saveConfigFor algorithm res folder)
      (Function.update arguments algorithm holder) := by
  intro other
  by_cases hsame : other = algorithm
  · subst hsame
    rw [Function.update_self]
    exact ⟨_, loadArguments_of_file hload⟩
  · obtain ⟨_, hother⟩ := hkept other
    rw [Function.update_of_ne hsame]
    apply exists_load
    rw [loadArguments_congr (saveConfigFor_of_ne (configFile_injective.ne hsame) res), hother]

theorem getAlgorithms_kept (hpy : Faithful py) (other : Value → List Char)
    {arguments : AlgorithmName → ArgumentsHolder} (hkept : Kept py folder arguments)
    (names : List AlgorithmName) :
    (getAlgorithms py other names folder).1 =
        names.mapM (fun algorithm => describe other algorithm (arguments algorithm)) ∧
      Kept py (getAlgorithms py other names folder).2 arguments := by
  induction names generalizing folder with
  | nil => exact ⟨rfl, hkept⟩
  | cons name names ih =>
    obtain ⟨after, hload⟩ := hkept name
    have hnext := hkept.load hpy hload
    obtain ⟨hinfos, hlast⟩ := ih hnext
    rw [List.mapM_cons, getAlgorithms, getAlgorithmInfo, hload]
    dsimp only
    cases describe other name (arguments name) with
    | error raised => exact ⟨rfl, hnext⟩
    | ok info =>
      refine ⟨?_, hlast⟩
      rw [← hinfos]
      dsimp only
      cases (getAlgorithms py other names after).1 <;> rfl

end Folder

/-! One operation. -/

section Operations

variable {py : Runtime} {other : Value → List Char} {store : Store} {remembered : Remembered}

theorem Represents.kept (h : Represents py store remembered) :
    Kept py store.folder remembered.arguments := h.folder

theorem performGetAlgorithms_refines (hpy : Faithful py) (h : Represents py store remembered) :
    (performGetAlgorithms py other store).1 = remembered.getAlgorithms other ∧
      Represents py (performGetAlgorithms py other store).2 remembered := by
  obtain ⟨hinfos, hkept⟩ := getAlgorithms_kept hpy other h.kept algorithms
  unfold performGetAlgorithms Remembered.getAlgorithms
  rw [← hinfos, ← h.current]
  generalize getAlgorithms py other algorithms store.folder = loaded at hkept ⊢
  obtain ⟨outcome, folder⟩ := loaded
  cases outcome with
  | error raised => exact ⟨rfl, h.config, hkept, h.state, h.current⟩
  | ok infos =>
    dsimp only
    cases hcurrent : store.algorithm with
    | none => exact ⟨rfl, h.config, hkept, h.state, hcurrent.symm.trans h.current⟩
    | some current => exact ⟨rfl, h.config, hkept, h.state, hcurrent.symm.trans h.current⟩

theorem Represents.setConfig (h : Represents py store remembered) {config : List Char}
    {members : Members} {pid : Value × Value × Value} {selected : AlgorithmName}
    (hholds : Holds py config members)
    (hsettings : settings members = ⟨pid, .string (getName selected)⟩) :
    Represents py { store with config } { remembered with pid, selected } :=
  ⟨⟨members, hholds, hsettings⟩, h.folder, h.state, h.current⟩

theorem map_ok {α β ε : Type} {f : α → β} {result : Except ε α} {value : β}
    (h : result.map f = .ok value) : ∃ before, result = .ok before ∧ f before = value := by
  cases result with
  | error raised => cases h
  | ok before =>
    cases h
    exact ⟨before, rfl, rfl⟩

theorem setPidSettings_refines (hpy : Faithful py) (h : Represents py store remembered)
    (proportional integral derivative : Gain py) :
    (perform py other (.setPidSettings proportional integral derivative) store).1 = .ok .done ∧
      Represents py (perform py other (.setPidSettings proportional integral derivative) store).2
        { remembered with pid := (proportional.value, integral.value, derivative.value) } := by
  obtain ⟨members, hholds, hsettings⟩ := h.config
  obtain ⟨after, hperforms⟩ := ConfigurationRuns.performs_setPidSettings hpy.exact hpy.nests hholds
    proportional integral derivative
  obtain ⟨written, hresult, -⟩ := map_ok hperforms.answer
  replace hresult : (ConfigFile.setPidSettings py proportional.value integral.value
    derivative.value store.config).1 = .ok written := hresult
  have hnext := hperforms.settings
  rw [hsettings] at hnext
  refine ⟨?_, h.setConfig hperforms.holds hnext⟩
  simp only [perform]
  rw [hresult]
  rfl

theorem exists_getPidSettings (hpy : Faithful py) (h : Represents py store remembered) :
    ∃ config, ConfigFile.getPidSettings py store.config = (.ok remembered.pid, config) ∧
      Represents py { store with config } remembered := by
  obtain ⟨members, hholds, hsettings⟩ := h.config
  obtain ⟨after, hperforms⟩ := ConfigurationRuns.performs_getPidSettings hpy.exact hpy.nests
    hpy.pointOne hholds
  obtain ⟨gains, hresult, hgains⟩ := map_ok hperforms.answer
  replace hresult : (ConfigFile.getPidSettings py store.config).1 = .ok gains := hresult
  have hnext := hperforms.settings
  rw [hsettings] at hnext hgains
  cases hgains
  exact ⟨_, Prod.ext hresult rfl, h.setConfig hperforms.holds hnext⟩

theorem exists_getSelectedCleaningAlgorithm (hpy : Faithful py)
    (h : Represents py store remembered) :
    ∃ config, ConfigFile.getSelectedCleaningAlgorithm py store.config =
        (.ok (.string (getName remembered.selected)), config) ∧
      Represents py { store with config } remembered := by
  obtain ⟨members, hholds, hsettings⟩ := h.config
  obtain ⟨after, hperforms⟩ := ConfigurationRuns.performs_getSelectedCleaningAlgorithm hpy.exact
    hholds
  obtain ⟨value, hresult, hvalue⟩ := map_ok hperforms.answer
  replace hresult : (ConfigFile.getSelectedCleaningAlgorithm py store.config).1 = .ok value :=
    hresult
  have hnext := hperforms.settings
  rw [hsettings] at hnext hvalue
  cases hvalue
  exact ⟨_, Prod.ext hresult rfl, h.setConfig hperforms.holds hnext⟩

theorem exists_setTargetCleaningAlgorithm (hpy : Faithful py)
    (h : Represents py store remembered) (algorithm : AlgorithmName) :
    ∃ config, ConfigFile.setTargetCleaningAlgorithm py (getName algorithm) store.config =
        (.ok (), config) ∧
      Represents py { store with config } { remembered with selected := algorithm } := by
  obtain ⟨members, hholds, hsettings⟩ := h.config
  have hname : getName algorithm ≠ [] := by cases algorithm <;> decide
  obtain ⟨after, hperforms⟩ := ConfigurationRuns.performs_setTargetCleaningAlgorithm hpy.exact
    hholds hname
  obtain ⟨written, hresult, -⟩ := map_ok hperforms.answer
  replace hresult : (ConfigFile.setTargetCleaningAlgorithm py (getName algorithm) store.config).1 =
    .ok written := hresult
  have hnext := hperforms.settings
  rw [hsettings] at hnext
  exact ⟨_, Prod.ext hresult rfl, h.setConfig hperforms.holds hnext⟩

theorem exists_setAlgorithm (hpy : Faithful py) (h : Represents py store remembered)
    (algorithm : AlgorithmName) :
    (remembered.state = .idle → ∃ after,
      setAlgorithm py (getName algorithm) store = (.ok (), after) ∧
        Represents py after { remembered with
          current := some (algorithm, remembered.arguments algorithm) }) ∧
    (remembered.state ≠ .idle → setAlgorithm py (getName algorithm) store =
      (.error (.manager (.forbidden remembered.state)), store)) := by
  constructor
  · intro hidle
    obtain ⟨folder, hload⟩ := h.folder algorithm
    unfold setAlgorithm
    rw [if_neg (by simp [h.state, hidle]), getAlgorithmClass_getName]
    dsimp only
    rw [hload]
    exact ⟨_, rfl, h.config, h.kept.load hpy hload, h.state, rfl⟩
  · intro hbusy
    rw [← h.state] at hbusy ⊢
    exact SetAlgorithm.setAlgorithm_busy hbusy _

theorem restart_refines (hpy : Faithful py) (h : Represents py store remembered) :
    (perform py other .restart store).1 = .ok (.pidSettings remembered.pid) ∧
      Represents py (perform py other .restart store).2 { remembered with
        state := .idle
        current := some (remembered.selected, remembered.arguments remembered.selected) } := by
  have hnew : Represents py (restart store) { remembered with state := .idle, current := none } :=
    ⟨h.config, h.folder, rfl, rfl⟩
  obtain ⟨config, hpid, hread⟩ := exists_getPidSettings hpy hnew
  obtain ⟨config', hselected, hfound⟩ := exists_getSelectedCleaningAlgorithm hpy hread
  obtain ⟨after, hset, hafter⟩ := (exists_setAlgorithm hpy hfound remembered.selected).1 rfl
  simp only [perform, Boot.boot]
  rw [hpid]
  dsimp only
  rw [hselected]
  dsimp only
  rw [hset]
  exact ⟨rfl, hafter⟩

theorem Represents.save (hpy : Faithful py) (h : Represents py store remembered)
    {algorithm : AlgorithmName} {request : SetAlgorithm.Request} {res : Members}
    {holder : ArgumentsHolder}
    (readable : ∀ argument ∈ request.arguments, ∃ depth, Readable py depth argument.2)
    (hres : collect (·.2.name) (accepted request.dictionary) (getParameters algorithm) = .ok res)
    (hholder : collect Prod.fst (accepted request.dictionary) (getParameters algorithm) =
      .ok holder) :
    Represents py { store with folder := saveConfigFor algorithm res store.folder }
      { remembered with arguments := Function.update remembered.arguments algorithm holder } := by
  have hread := loads_saved (Nat.lt_of_lt_of_le Nat.zero_lt_two hpy.nests)
    (fun argument hargument => readable argument (SetAlgorithm.mem_dictionary hargument)) hres
  have hload := (loadArgumentsFromFile_found (loadable_accepted _) hres hread
    store.folder).trans hholder
  exact ⟨h.config, h.kept.save hload, h.state, h.current⟩

theorem setAlgorithm_refines (hpy : Faithful py) (h : Represents py store remembered)
    (request : SetAlgorithm.Request)
    (readable : ∀ argument ∈ request.arguments, ∃ depth, Readable py depth argument.2) :
    (perform py other (.setAlgorithm request readable) store).1 =
        (remembered.setAlgorithm request).1 ∧
      Represents py (perform py other (.setAlgorithm request readable) store).2
        (remembered.setAlgorithm request).2 := by
  simp only [perform, SetAlgorithm.perform, saveAlgorithmArguments, Remembered.setAlgorithm, asked]
  cases hclass : getAlgorithmClass request.algorithmName with
  | error raised => exact ⟨rfl, h⟩
  | ok algorithm =>
    dsimp only [bind, Except.bind]
    cases hres : collect (·.2.name) (accepted request.dictionary) (getParameters algorithm) with
    | error raised =>
      rw [collect_error hres]
      exact ⟨rfl, h⟩
    | ok res =>
      have hcollect : ∃ holder, collect Prod.fst (accepted request.dictionary)
          (getParameters algorithm) = .ok holder := exists_collect_of_ok hres
      obtain ⟨holder, hholder⟩ := hcollect
      rw [hholder]
      obtain ⟨config, htarget, hwritten⟩ :=
        exists_setTargetCleaningAlgorithm hpy (h.save hpy readable hres hholder) algorithm
      rw [getAlgorithmClass_ok hclass] at htarget
      dsimp only at htarget ⊢
      rw [htarget]
      dsimp only [pure, Except.pure]
      obtain ⟨hidle, hbusy⟩ := exists_setAlgorithm hpy hwritten algorithm
      rw [getAlgorithmClass_ok hclass] at hidle hbusy
      by_cases hstate : remembered.state = .idle
      · obtain ⟨after, hset, hafter⟩ := hidle hstate
        rw [hset, if_neg (not_not.mpr hstate)]
        dsimp only at hafter
        rw [Function.update_self] at hafter
        exact ⟨rfl, hafter⟩
      · rw [hbusy hstate, if_pos hstate]
        exact ⟨rfl, hwritten⟩

theorem perform_refines (hpy : Faithful py) (other : Value → List Char) :
    Refinement.Refines (perform py other) (Remembered.perform other) (Represents py) := by
  intro operation store remembered h
  cases operation with
  | setAlgorithm request readable => exact setAlgorithm_refines hpy h request readable
  | getAlgorithms => exact performGetAlgorithms_refines hpy h
  | setPidSettings proportional integral derivative =>
    exact setPidSettings_refines hpy h proportional integral derivative
  | getPidSettings =>
    obtain ⟨config, hpid, hread⟩ := exists_getPidSettings hpy h
    simp only [perform]
    rw [hpid]
    exact ⟨rfl, hread⟩
  | restart => exact restart_refines hpy h
  | enter state => exact ⟨rfl, h.config, h.folder, rfl, h.current⟩

/-- In every run of requests, with restarts between them, the core answers from its
files as if it remembered the values themselves: what a request has set is read
back and survives restarts until another request sets it. A request that is refused
for its arguments changes nothing; what one that the state forbids asks for is kept
all the same, as the memory says, and each restart comes up with it. -/
theorem run_remembers (py : Runtime) (hpy : Faithful py) (other : Value → List Char)
    (store : Store) (remembered : Remembered) (hstart : Represents py store remembered)
    (operations : List (Operation py)) :
    (Refinement.run (perform py other) operations store).1 =
        (Refinement.run (Remembered.perform other) operations remembered).1 ∧
      Represents py (Refinement.run (perform py other) operations store).2
        (Refinement.run (Remembered.perform other) operations remembered).2 :=
  (perform_refines hpy other).run operations hstart

end Operations

/-- What is remembered before the first request, with the settings of the file. -/
def Remembered.first (pid : Value × Value × Value) (selected : AlgorithmName) : Remembered where
  pid := pid
  selected := selected
  arguments algorithm := ((collect Prod.fst defaulted (getParameters algorithm)).toOption).getD []
  state := .idle
  current := none

theorem represents_first {py : Runtime} {text : List Char} {members : Members}
    {pid : Value × Value × Value} {selected : AlgorithmName} (hholds : Holds py text members)
    (hsettings : settings members = ⟨pid, .string (getName selected)⟩) :
    Represents py (Boot.firstStore text) (.first pid selected) := by
  refine ⟨⟨members, hholds, hsettings⟩, fun algorithm => ?_, rfl, rfl⟩
  obtain ⟨holder, after, hrecreate, hdefaults⟩ :=
    Boot.recreateArgumentConfigFile_ok algorithm (Boot.firstStore text).folder
  have hload : loadArguments py algorithm (Boot.firstStore text).folder = (.ok holder, after) :=
    hrecreate
  refine ⟨after, ?_⟩
  rw [hload]
  dsimp only [Remembered.first]
  rw [hdefaults]
  rfl

/-- A runtime that reads the floats of the defaults. -/
def readingDefaults : Runtime :=
  ⟨1000, 4300, fun numeral =>
    if numeral = pointOne.repr then .finite pointOne
    else if numeral = Smart.one.repr then .finite Smart.one else .nan⟩

theorem faithful_readingDefaults : Faithful readingDefaults := by
  have hone : readingDefaults.toFloat Smart.one.repr = .finite Smart.one := by decide
  have hpointOne : readingDefaults.toFloat pointOne.repr = .finite pointOne := by decide
  have hread : ∀ {numeral : List Char} {x : Numeral.Decimal},
      readingDefaults.toFloat numeral = .finite x → x = pointOne ∨ x = Smart.one := by
    intro numeral x hfloat
    simp only [readingDefaults] at hfloat
    split at hfloat
    · cases hfloat
      exact .inl rfl
    · split at hfloat
      · cases hfloat
        exact .inr rfl
      · cases hfloat
  refine ⟨⟨fun hfloat => ?_, fun hfloat => ?_⟩, by decide, .inr (by decide), hpointOne, hone⟩
  · rcases hread hfloat with rfl | rfl
    · exact .inr (by decide)
    · exact .inr (by decide)
  · rcases hread hfloat with rfl | rfl
    · exact hpointOne
    · exact hone

theorem holds_empty (py : Runtime) (hnests : 2 ≤ py.recursionLimit) :
    Holds py (ConfigFile.saveConfig ⟨[]⟩) [] where
  loads := loads_dumps (Boot.readable_of_written hnests .empty)
  pid value hitem := by cases hitem

theorem readable_smartRequest : ∀ argument ∈ SetAlgorithm.smartRequest.arguments, ∃ depth,
    Readable readingDefaults depth argument.2 := by
  simp only [SetAlgorithm.smartRequest, smartArguments, List.forall_mem_cons, List.not_mem_nil,
    false_imp_iff, implies_true, and_true]
  exact ⟨⟨0, .int (.inr (by decide))⟩, ⟨0, .finite isShortest_one faithful_readingDefaults.one⟩⟩

/-- A robot that is set to the smart algorithm, and started, and restarted. -/
theorem run_remembers_smart :
    let operations : List (Operation readingDefaults) := [.restart,
      .setAlgorithm SetAlgorithm.smartRequest readable_smartRequest, .enter .running,
      .getAlgorithms, .restart]
    let store := Boot.firstStore (ConfigFile.saveConfig ⟨[]⟩)
    let remembered := Remembered.first Config.defaultPidSettings .simple
    (Refinement.run (perform readingDefaults fun _ => []) operations store).1 =
        (Refinement.run (Remembered.perform fun _ => []) operations remembered).1 ∧
      Represents readingDefaults
        (Refinement.run (perform readingDefaults fun _ => []) operations store).2
        (Refinement.run (Remembered.perform fun _ => []) operations remembered).2 := by
  intro operations store remembered
  exact run_remembers readingDefaults faithful_readingDefaults (fun _ => []) store remembered
    (represents_first (holds_empty _ (by decide)) rfl) operations

end VacuumCleaner.Core.StoreRuns
