import VacuumCleaner.Core.AlgorithmArguments

/-! What outlasts a request: the configuration file as the text that it holds,
the files of the arguments, and the algorithm that the manager is set to. -/
namespace VacuumCleaner.Core.Stores

open Lib.Json AlgorithmLoop AlgorithmArguments
open AlgorithmManager (AlgorithmName)
open Config (Configuration pidKey cleaningAlgorithmKey defaultCleaningAlgorithm)

namespace ConfigFile

inductive Raised
  | decoder (raised : DecodeError)
  | attributeError
  | typeError
  deriving DecidableEq

/-- `_get_config`, and what its caller raises when that is no dictionary. -/
def getConfig (py : Runtime) (notDictionary : Raised) (text : List Char) :
    Except Raised Configuration :=
  match loads py text with
  | .error raised => .error (.decoder raised)
  | .ok (.object members) => .ok ⟨members⟩
  | .ok _ => .error notDictionary

/-- The text that `_save_config` writes. -/
def saveConfig (configuration : Configuration) : List Char := dumps (.object configuration.config)

def getPidSettings (py : Runtime) (text : List Char) :
    Except Raised (Value × Value × Value) × List Char :=
  match getConfig py .attributeError text with
  | .error raised => (.error raised, text)
  | .ok configuration =>
    match configuration.storedPidSettings with
    | .error .attributeError => (.error .attributeError, text)
    | .ok (some gains) => (.ok gains, text)
    | .ok none =>
      let (gains, after) := configuration.setupAndReturnDefaultValues
      (.ok gains, saveConfig after)

def setPidSettings (py : Runtime) (proportional integral derivative : Value) (text : List Char) :
    Except Raised Unit × List Char :=
  match getConfig py .typeError text with
  | .error raised => (.error raised, text)
  | .ok configuration =>
    (.ok (), saveConfig (configuration.setPidSettings proportional integral derivative))

def setTargetCleaningAlgorithm (py : Runtime) (name text : List Char) :
    Except Raised Unit × List Char :=
  match getConfig py .typeError text with
  | .error raised => (.error raised, text)
  | .ok configuration => (.ok (), saveConfig (configuration.setTargetCleaningAlgorithm name))

/-- The stored name when it is there and not falsy. -/
def storedCleaningAlgorithm (configuration : Configuration) : Option Value :=
  (getItem cleaningAlgorithmKey configuration.config).filter Value.isTruthy

def getSelectedCleaningAlgorithm (py : Runtime) (text : List Char) :
    Except Raised Value × List Char :=
  match getConfig py .attributeError text with
  | .error raised => (.error raised, text)
  | .ok configuration =>
    match storedCleaningAlgorithm configuration with
    | some cleaningAlgorithm => (.ok cleaningAlgorithm, text)
    | none =>
      match setTargetCleaningAlgorithm py defaultCleaningAlgorithm text with
      | (.error raised, after) => (.error raised, after)
      | (.ok _, after) => (.ok (.string defaultCleaningAlgorithm), after)

end ConfigFile

/-- A stored value that is no text names no algorithm. -/
inductive Raised
  | manager (raised : AlgorithmArguments.Raised)
  | configuration (raised : ConfigFile.Raised)
  | canNotFind (value : Value)

structure Store where
  folder : Folder
  config : List Char
  state : State := .idle
  algorithm : Option (AlgorithmName × ArgumentsHolder) := none

/-- `AlgorithmManager.set_algorithm`. -/
def setAlgorithm (py : Runtime) (name : List Char) (store : Store) :
    Except Raised Unit × Store :=
  if store.state ≠ .idle then (.error (.manager (.forbidden store.state)), store)
  else
    match getAlgorithmClass name with
    | .error raised => (.error (.manager raised), store)
    | .ok algorithm =>
      match loadArguments py algorithm store.folder with
      | (.error raised, folder) => (.error (.manager raised), { store with folder })
      | (.ok holder, folder) =>
        (.ok (), { store with folder, algorithm := some (algorithm, holder) })

namespace ConfigFile

variable {py : Runtime} {text : List Char} {configuration : Configuration}

theorem getConfig_ok_iff (notDictionary : Raised) :
    getConfig py notDictionary text = .ok configuration ↔
      loads py text = .ok (.object configuration.config) := by
  unfold getConfig
  split
  · rename_i hloads
    rw [hloads]
    simp
  · rename_i members hloads
    rw [hloads]
    cases configuration
    simp
  · rename_i value hobject hloads
    rw [hloads]
    refine iff_of_false (by simp) fun h => ?_
    cases h
    exact hobject _ rfl

theorem getConfig_saveConfig (notDictionary : Raised)
    (hread : Readable py py.recursionLimit (.object configuration.config)) :
    getConfig py notDictionary (saveConfig configuration) = .ok configuration :=
  (getConfig_ok_iff notDictionary).mpr (loads_dumps hread)

theorem setTargetCleaningAlgorithm_ok (hconfig : loads py text = .ok (.object configuration.config))
    (name : List Char) : setTargetCleaningAlgorithm py name text =
      (.ok (), saveConfig (configuration.setTargetCleaningAlgorithm name)) := by
  unfold setTargetCleaningAlgorithm
  rw [(getConfig_ok_iff .typeError).mpr hconfig]

theorem setTargetCleaningAlgorithm_error
    (hconfig : ∀ members, loads py text ≠ .ok (.object members)) (name : List Char) :
    ∃ raised, setTargetCleaningAlgorithm py name text = (.error raised, text) := by
  unfold setTargetCleaningAlgorithm
  cases hget : getConfig py .typeError text with
  | error raised => exact ⟨raised, rfl⟩
  | ok configuration => exact absurd ((getConfig_ok_iff _).mp hget) (hconfig _)

theorem readable_setTargetCleaningAlgorithm (hpy : py.Exact)
    (hconfig : loads py text = .ok (.object configuration.config)) (name : List Char) :
    Readable py py.recursionLimit
      (.object (configuration.setTargetCleaningAlgorithm name).config) := by
  have hread := readable_of_loads hpy hconfig
  generalize py.recursionLimit = limit at hread
  cases limit with
  | zero => cases hread
  | succ depth => exact Readable.string.setItem hread

theorem getSelectedCleaningAlgorithm_set (hpy : py.Exact)
    (hconfig : loads py text = .ok (.object configuration.config)) {name : List Char}
    (hname : name ≠ []) :
    getSelectedCleaningAlgorithm py (saveConfig (configuration.setTargetCleaningAlgorithm name)) =
      (.ok (.string name), saveConfig (configuration.setTargetCleaningAlgorithm name)) := by
  have hstored : storedCleaningAlgorithm (configuration.setTargetCleaningAlgorithm name) =
      some (.string name) := by
    unfold storedCleaningAlgorithm Configuration.setTargetCleaningAlgorithm
    simp [getItem_setItem_self, Value.isTruthy, hname]
  unfold getSelectedCleaningAlgorithm
  rw [getConfig_saveConfig _ (readable_setTargetCleaningAlgorithm hpy hconfig name)]
  dsimp only
  rw [hstored]

end ConfigFile
end VacuumCleaner.Core.Stores
