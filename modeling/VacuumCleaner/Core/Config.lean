import VacuumCleaner.Lib.Json

/-! The core's configuration file, as the JSON object it holds. -/
namespace VacuumCleaner.Core.Config

open Lib.Json Lib.Numeral

def pidKey : List Char := "PID".toList
def proportionalKey : List Char := "proportional".toList
def integralKey : List Char := "integral".toList
def derivativeKey : List Char := "derivative".toList
def cleaningAlgorithmKey : List Char := "cleaning_algorithm".toList

structure Configuration where
  config : Members := []

/-- The only exception of the getters: a PID entry that is no dictionary. -/
inductive Raised
  | attributeError
  deriving DecidableEq, Repr

/-- A tenth. -/
def pointOne : Decimal := ⟨false, [digit 1], 0, by decide, by decide, by decide⟩

def defaultPidSettings : Value × Value × Value :=
  (.number (.float (.finite pointOne)), .number (.float (.finite pointOne)), .number (.int 0))

def defaultCleaningAlgorithm : List Char := "simple".toList

namespace Configuration

def setPidSettings (proportional integral derivative : Value) (configuration : Configuration) :
    Configuration :=
  { config := setItem pidKey
      (.object [(proportionalKey, proportional), (integralKey, integral),
        (derivativeKey, derivative)]) configuration.config }

def setupAndReturnDefaultValues (configuration : Configuration) :
    (Value × Value × Value) × Configuration :=
  let (p, i, d) := defaultPidSettings
  (defaultPidSettings, configuration.setPidSettings p i d)

/-- The item when it is there and not `None`. -/
def given (key : List Char) (members : Members) : Option Value :=
  match getItem key members with
  | some .null => none
  | item => item

/-- The gains when all three are stored. -/
def storedPidSettings (configuration : Configuration) :
    Except Raised (Option (Value × Value × Value)) :=
  match getItem pidKey configuration.config with
  | none => .ok none
  | some pidSettings =>
    if pidSettings.isTruthy then
      match pidSettings with
      | .object members => .ok do
          let p ← given proportionalKey members
          let i ← given integralKey members
          let d ← given derivativeKey members
          return (p, i, d)
      | _ => .error .attributeError
    else .ok none

def getPidSettings (configuration : Configuration) :
    Except Raised ((Value × Value × Value) × Configuration) :=
  match configuration.storedPidSettings with
  | .error raised => .error raised
  | .ok (some gains) => .ok (gains, configuration)
  | .ok none => .ok configuration.setupAndReturnDefaultValues

def setTargetCleaningAlgorithm (name : List Char) (configuration : Configuration) :
    Configuration :=
  { config := setItem cleaningAlgorithmKey (.string name) configuration.config }

def getSelectedCleaningAlgorithm (configuration : Configuration) : Value × Configuration :=
  let setDefault := (.string defaultCleaningAlgorithm,
    configuration.setTargetCleaningAlgorithm defaultCleaningAlgorithm)
  match getItem cleaningAlgorithmKey configuration.config with
  | some cleaningAlgorithm =>
    if cleaningAlgorithm.isTruthy then (cleaningAlgorithm, configuration) else setDefault
  | none => setDefault

theorem given_of_getItem {key : List Char} {value : Value} {members : Members}
    (hvalue : value ≠ .null) (hitem : getItem key members = some value) :
    given key members = some value := by
  unfold given
  rw [hitem]
  split
  · rename_i hnull
    cases hnull
    exact absurd rfl hvalue
  · rfl

theorem getPidSettings_setPidSettings {p i d : Value} (hp : p ≠ .null) (hi : i ≠ .null)
    (hd : d ≠ .null) (configuration : Configuration) :
    (configuration.setPidSettings p i d).getPidSettings =
      .ok ((p, i, d), configuration.setPidSettings p i d) := by
  have hstored : (configuration.setPidSettings p i d).storedPidSettings = .ok (some (p, i, d)) := by
    unfold storedPidSettings setPidSettings
    simp only [getItem_setItem_self, Value.isTruthy, List.isEmpty_cons, Bool.not_false, if_true]
    rw [given_of_getItem hp rfl, given_of_getItem hi (by rfl), given_of_getItem hd (by rfl)]
    rfl
  unfold getPidSettings
  rw [hstored]

theorem getPidSettings_after {configuration after : Configuration} {gains : Value × Value × Value}
    (h : configuration.getPidSettings = .ok (gains, after)) :
    after.getPidSettings = .ok (gains, after) := by
  have hread := h
  unfold getPidSettings at h
  split at h
  · cases h
  · cases h
    exact hread
  · cases h
    apply getPidSettings_setPidSettings <;> simp

theorem getPidSettings_of_getItem_eq {configuration other after : Configuration}
    {gains : Value × Value × Value}
    (hitem : getItem pidKey other.config = getItem pidKey configuration.config)
    (h : configuration.getPidSettings = .ok (gains, after)) :
    ∃ after, other.getPidSettings = .ok (gains, after) := by
  have hstored : other.storedPidSettings = configuration.storedPidSettings := by
    unfold storedPidSettings
    rw [hitem]
  unfold getPidSettings at h ⊢
  rw [hstored]
  split at h
  · cases h
  · cases h
    exact ⟨_, rfl⟩
  · cases h
    exact ⟨_, rfl⟩

end Configuration
end VacuumCleaner.Core.Config
