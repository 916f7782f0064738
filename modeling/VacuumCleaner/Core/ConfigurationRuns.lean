import Mathlib.Data.List.Induction
import VacuumCleaner.Core.Stores

/-! Runs of the configuration's operations over the text of its file: a getter
returns what was last set, and the rest of the file stays as it is. -/
namespace VacuumCleaner.Core.ConfigurationRuns

open Lib.Json Stores.ConfigFile
open Config (Configuration pidKey proportionalKey integralKey derivativeKey cleaningAlgorithmKey
  defaultPidSettings defaultCleaningAlgorithm pointOne)
open Config.Configuration (given)
open AlgorithmArguments (readingRuntime exact_readingRuntime)

/-- A number that JSON takes there and back, as it does every float. -/
structure Gain (py : Runtime) where
  number : Number
  readable : Readable py 0 (.number number)

inductive Operation (py : Runtime)
  | setPidSettings (proportional integral derivative : Gain py)
  | getPidSettings
  | setTargetCleaningAlgorithm (name : List Char) (nonempty : name ≠ [])
  | getSelectedCleaningAlgorithm

inductive Answer
  | none
  | pidSettings (gains : Value × Value × Value)
  | cleaningAlgorithm (value : Value)

/-- The two settings that the file is for. -/
structure Settings where
  pid : Value × Value × Value
  algorithm : Value

section Definitions

variable {py : Runtime}

def Gain.value (gain : Gain py) : Value := .number gain.number

/-- The answer and the text that is left in the file. -/
def perform : Operation py → List Char → Except Raised Answer × List Char
  | .setPidSettings proportional integral derivative, text =>
    let (result, after) :=
      setPidSettings py proportional.value integral.value derivative.value text
    (result.map fun _ => .none, after)
  | .getPidSettings, text =>
    let (result, after) := getPidSettings py text
    (result.map .pidSettings, after)
  | .setTargetCleaningAlgorithm name _, text =>
    let (result, after) := setTargetCleaningAlgorithm py name text
    (result.map fun _ => .none, after)
  | .getSelectedCleaningAlgorithm, text =>
    let (result, after) := getSelectedCleaningAlgorithm py text
    (result.map .cleaningAlgorithm, after)

/-- The file after the operations, whatever they answer or raise. -/
def run (operations : List (Operation py)) (text : List Char) : List Char :=
  operations.foldl (fun text operation => (perform operation text).2) text

/-- The entry of the file that the operation is about. -/
def Operation.key : Operation py → List Char
  | .setPidSettings .. | .getPidSettings => pidKey
  | .setTargetCleaningAlgorithm .. | .getSelectedCleaningAlgorithm => cleaningAlgorithmKey

def Operation.pid : Operation py → Option (Value × Value × Value)
  | .setPidSettings proportional integral derivative =>
    some (proportional.value, integral.value, derivative.value)
  | _ => none

def Operation.algorithm : Operation py → Option Value
  | .setTargetCleaningAlgorithm name _ => some (.string name)
  | _ => none

/-- What the last of the operations that set a value has set. -/
def latest {α : Type} (value : Operation py → Option α) (done : List (Operation py)) : Option α :=
  done.reverse.findSome? value

/-- The gains of a PID entry that has all three of them. -/
def completePid (members : Members) : Option (Value × Value × Value) :=
  match getItem pidKey members with
  | some (.object entries) => do
      let p ← given proportionalKey entries
      let i ← given integralKey entries
      let d ← given derivativeKey entries
      return (p, i, d)
  | _ => none

/-- A name that is there and not falsy. -/
def completeAlgorithm (members : Members) : Option Value :=
  (getItem cleaningAlgorithmKey members).filter Value.isTruthy

/-- The settings of a file: the defaults stand in for what is not complete. -/
def settings (members : Members) : Settings where
  pid := (completePid members).getD defaultPidSettings
  algorithm := (completeAlgorithm members).getD (.string defaultCleaningAlgorithm)

/-- The settings after operations over a file that held the members at first. -/
def expected (members : Members) (done : List (Operation py)) : Settings where
  pid := (latest Operation.pid done).getD (settings members).pid
  algorithm := (latest Operation.algorithm done).getD (settings members).algorithm

def Operation.answer (operation : Operation py) (settings : Settings) : Answer :=
  match operation with
  | .getPidSettings => .pidSettings settings.pid
  | .getSelectedCleaningAlgorithm => .cleaningAlgorithm settings.algorithm
  | _ => .none

/-- The file has the setting of the operation, and has it complete. -/
def Operation.Persisted (operation : Operation py) (settings : Settings) (members : Members) :
    Prop :=
  match operation with
  | .setPidSettings .. | .getPidSettings => completePid members = some settings.pid
  | .setTargetCleaningAlgorithm .. | .getSelectedCleaningAlgorithm =>
    completeAlgorithm members = some settings.algorithm

/-- The text reads as an object whose PID entry, if it has one, is an object. -/
structure Holds (py : Runtime) (text : List Char) (members : Members) : Prop where
  loads : loads py text = .ok (.object members)
  pid : ∀ value, getItem pidKey members = some value → ∃ entries, value = .object entries

end Definitions

section Entries

variable {py : Runtime} {text : List Char} {members : Members}

theorem storedPidSettings_eq
    (hpid : ∀ value, getItem pidKey members = some value → ∃ entries, value = .object entries) :
    Configuration.storedPidSettings ⟨members⟩ = .ok (completePid members) := by
  unfold Configuration.storedPidSettings completePid
  cases hitem : getItem pidKey members with
  | none => rfl
  | some value =>
    obtain ⟨entries, rfl⟩ := hpid value hitem
    cases entries with
    | nil => rfl
    | cons entry entries => rfl

@[simp] theorem completePid_setPidSettings (proportional integral derivative : Gain py)
    (members : Members) :
    completePid (Configuration.setPidSettings proportional.value integral.value derivative.value
        ⟨members⟩).config =
      some (proportional.value, integral.value, derivative.value) := by
  unfold completePid Configuration.setPidSettings
  rw [getItem_setItem_self]
  rfl

@[simp] theorem completePid_setTargetCleaningAlgorithm (name : List Char) (members : Members) :
    completePid (Configuration.setTargetCleaningAlgorithm name ⟨members⟩).config =
      completePid members := by
  unfold completePid Configuration.setTargetCleaningAlgorithm
  rw [getItem_setItem_of_ne (by decide)]

@[simp] theorem completeAlgorithm_setPidSettings (proportional integral derivative : Value)
    (members : Members) :
    completeAlgorithm (Configuration.setPidSettings proportional integral derivative
        ⟨members⟩).config =
      completeAlgorithm members := by
  unfold completeAlgorithm Configuration.setPidSettings
  rw [getItem_setItem_of_ne (by decide)]

theorem completeAlgorithm_setTargetCleaningAlgorithm {name : List Char} (hname : name ≠ [])
    (members : Members) :
    completeAlgorithm (Configuration.setTargetCleaningAlgorithm name ⟨members⟩).config =
      some (.string name) := by
  unfold completeAlgorithm Configuration.setTargetCleaningAlgorithm
  simp [getItem_setItem_self, Value.isTruthy, hname]

theorem Gain.readable_value (gain : Gain py) (depth : Nat) : Readable py depth gain.value := by
  obtain ⟨number, hreadable⟩ := gain
  unfold Gain.value
  cases hreadable with
  | int hdigits => exact .int hdigits
  | finite hshortest hfloat => exact .finite hshortest hfloat
  | infinity => exact .infinity
  | nan => exact .nan

theorem Holds.setPidSettings (hexact : py.Exact) (hnests : 2 ≤ py.recursionLimit)
    (h : Holds py text members) (proportional integral derivative : Gain py) :
    Holds py (saveConfig (Configuration.setPidSettings proportional.value integral.value
        derivative.value ⟨members⟩))
      (Configuration.setPidSettings proportional.value integral.value derivative.value
        ⟨members⟩).config := by
  have hread := readable_of_loads hexact h.loads
  obtain ⟨depth, hdepth⟩ : ∃ depth, py.recursionLimit = depth + 1 + 1 :=
    ⟨py.recursionLimit - 2, by omega⟩
  have hkeys : [proportionalKey, integralKey, derivativeKey].Nodup := by decide
  have hentries : Readable py (depth + 1) (.object [(proportionalKey, proportional.value),
      (integralKey, integral.value), (derivativeKey, derivative.value)]) := by
    refine .object hkeys ?_
    simp only [List.forall_mem_cons, List.not_mem_nil, false_imp_iff, implies_true, and_true]
    exact ⟨proportional.readable_value _, integral.readable_value _, derivative.readable_value _⟩
  refine ⟨loads_dumps ?_, fun value hitem => ?_⟩
  · rw [hdepth] at hread ⊢
    exact hentries.setItem hread
  · unfold Configuration.setPidSettings at hitem
    rw [getItem_setItem_self] at hitem
    cases hitem
    exact ⟨_, rfl⟩

theorem Holds.setTargetCleaningAlgorithm_ok (h : Holds py text members) (name : List Char) :
    setTargetCleaningAlgorithm py name text =
      (.ok (), saveConfig (Configuration.setTargetCleaningAlgorithm name ⟨members⟩)) :=
  Stores.ConfigFile.setTargetCleaningAlgorithm_ok h.loads name

theorem Holds.setTargetCleaningAlgorithm (hexact : py.Exact) (h : Holds py text members)
    (name : List Char) :
    Holds py (saveConfig (Configuration.setTargetCleaningAlgorithm name ⟨members⟩))
      (Configuration.setTargetCleaningAlgorithm name ⟨members⟩).config := by
  refine ⟨loads_dumps (readable_setTargetCleaningAlgorithm hexact h.loads name),
    fun value hitem => h.pid value ?_⟩
  unfold Configuration.setTargetCleaningAlgorithm at hitem
  rw [getItem_setItem_of_ne (by decide)] at hitem
  exact hitem

end Entries

section Operations

variable {py : Runtime} {text : List Char} {members after : Members}

/-- What one operation does to the file: it answers from the settings that are there,
and of the entries only its own can change. -/
structure Performs (operation : Operation py) (text : List Char) (members after : Members) :
    Prop where
  answer : (perform operation text).1 = .ok (operation.answer (settings members))
  holds : Holds py (perform operation text).2 after
  settings : settings after = ⟨operation.pid.getD (settings members).pid,
    operation.algorithm.getD (settings members).algorithm⟩
  persisted : operation.Persisted (ConfigurationRuns.settings after) after
  kept : ∀ other, other ≠ operation.key → getItem other after = getItem other members

theorem kept_setPidSettings (proportional integral derivative : Value) (members : Members) :
    ∀ other, other ≠ pidKey → getItem other (Configuration.setPidSettings proportional integral
      derivative ⟨members⟩).config = getItem other members :=
  fun _ hother => getItem_setItem_of_ne hother _ _

theorem kept_setTargetCleaningAlgorithm (name : List Char) (members : Members) :
    ∀ other, other ≠ cleaningAlgorithmKey →
      getItem other (Configuration.setTargetCleaningAlgorithm name ⟨members⟩).config =
        getItem other members :=
  fun _ hother => getItem_setItem_of_ne hother _ _

theorem performs_setPidSettings (hexact : py.Exact) (hnests : 2 ≤ py.recursionLimit)
    (h : Holds py text members) (proportional integral derivative : Gain py) :
    ∃ after, Performs (.setPidSettings proportional integral derivative) text members after := by
  have hconfig : getConfig py .typeError text = .ok ⟨members⟩ :=
    (getConfig_ok_iff .typeError).mpr h.loads
  have hperform : perform (.setPidSettings proportional integral derivative) text =
      (.ok .none, saveConfig (Configuration.setPidSettings proportional.value integral.value
        derivative.value ⟨members⟩)) := by
    unfold perform setPidSettings
    dsimp only
    rw [hconfig]
    rfl
  refine ⟨_, ?_, ?_, ?_, ?_, kept_setPidSettings proportional.value integral.value derivative.value
    members⟩
  · rw [hperform]
    rfl
  · rw [hperform]
    exact h.setPidSettings hexact hnests proportional integral derivative
  · simp [settings, Operation.pid, Operation.algorithm]
  · simp [Operation.Persisted, settings]

theorem perform_getPidSettings_of_some (h : Holds py text members) {gains : Value × Value × Value}
    (hcomplete : completePid members = some gains) :
    perform (.getPidSettings : Operation py) text = (.ok (.pidSettings gains), text) := by
  unfold perform getPidSettings
  dsimp only
  rw [(getConfig_ok_iff .attributeError).mpr h.loads]
  dsimp only
  rw [storedPidSettings_eq h.pid, hcomplete]
  rfl

theorem perform_getPidSettings_of_none (h : Holds py text members)
    (hcomplete : completePid members = none) :
    perform (.getPidSettings : Operation py) text = (.ok (.pidSettings defaultPidSettings),
      saveConfig (Configuration.setupAndReturnDefaultValues ⟨members⟩).2) := by
  unfold perform getPidSettings
  dsimp only
  rw [(getConfig_ok_iff .attributeError).mpr h.loads]
  dsimp only
  rw [storedPidSettings_eq h.pid, hcomplete]
  rfl

theorem performs_getPidSettings (hexact : py.Exact) (hnests : 2 ≤ py.recursionLimit)
    (hpointOne : py.toFloat pointOne.repr = .finite pointOne) (h : Holds py text members) :
    ∃ after, Performs (.getPidSettings : Operation py) text members after := by
  cases hcomplete : completePid members with
  | some gains =>
    have hperform := perform_getPidSettings_of_some h hcomplete
    refine ⟨members, ?_, ?_, ?_, ?_, fun _ _ => rfl⟩
    · rw [hperform]
      simp [Operation.answer, settings, hcomplete]
    · rw [hperform]
      exact h
    · rfl
    · simp [Operation.Persisted, settings, hcomplete]
  | none =>
    let tenth : Gain py := ⟨.float (.finite pointOne), .finite (.inr (by decide)) hpointOne⟩
    let zero : Gain py := ⟨.int 0, .int (Nat.eq_zero_or_pos py.maxStrDigits)⟩
    have hperform := perform_getPidSettings_of_none h hcomplete
    refine ⟨_, ?_, ?_, ?_, ?_, kept_setPidSettings tenth.value tenth.value zero.value members⟩
    · rw [hperform]
      simp [Operation.answer, settings, hcomplete]
    · rw [hperform]
      exact h.setPidSettings hexact hnests tenth tenth zero
    · simp [settings, Operation.pid, Operation.algorithm, hcomplete]
      rfl
    · simp [Operation.Persisted, settings]

theorem performs_setTargetCleaningAlgorithm (hexact : py.Exact) (h : Holds py text members)
    {name : List Char} (hname : name ≠ []) :
    ∃ after, Performs (.setTargetCleaningAlgorithm name hname : Operation py) text members after :=
    by
  have hcomplete := completeAlgorithm_setTargetCleaningAlgorithm hname members
  have hperform : perform (.setTargetCleaningAlgorithm name hname : Operation py) text =
      (.ok .none, saveConfig (Configuration.setTargetCleaningAlgorithm name ⟨members⟩)) := by
    unfold perform
    dsimp only
    rw [h.setTargetCleaningAlgorithm_ok]
    rfl
  refine ⟨_, ?_, ?_, ?_, ?_, kept_setTargetCleaningAlgorithm name members⟩
  · rw [hperform]
    rfl
  · rw [hperform]
    exact h.setTargetCleaningAlgorithm hexact name
  · simp [settings, Operation.pid, Operation.algorithm, hcomplete]
  · simp [Operation.Persisted, settings, hcomplete]

theorem perform_getSelectedCleaningAlgorithm_of_some (h : Holds py text members) {value : Value}
    (hcomplete : completeAlgorithm members = some value) :
    perform (.getSelectedCleaningAlgorithm : Operation py) text =
      (.ok (.cleaningAlgorithm value), text) := by
  have hstored : storedCleaningAlgorithm ⟨members⟩ = some value := hcomplete
  unfold perform getSelectedCleaningAlgorithm
  dsimp only
  rw [(getConfig_ok_iff .attributeError).mpr h.loads]
  dsimp only
  rw [hstored]
  rfl

theorem perform_getSelectedCleaningAlgorithm_of_none (h : Holds py text members)
    (hcomplete : completeAlgorithm members = none) :
    perform (.getSelectedCleaningAlgorithm : Operation py) text =
      (.ok (.cleaningAlgorithm (.string defaultCleaningAlgorithm)),
        saveConfig (Configuration.setTargetCleaningAlgorithm defaultCleaningAlgorithm
          ⟨members⟩)) := by
  have hstored : storedCleaningAlgorithm ⟨members⟩ = none := hcomplete
  unfold perform getSelectedCleaningAlgorithm
  dsimp only
  rw [(getConfig_ok_iff .attributeError).mpr h.loads]
  dsimp only
  rw [hstored]
  dsimp only
  rw [h.setTargetCleaningAlgorithm_ok]
  rfl

theorem performs_getSelectedCleaningAlgorithm (hexact : py.Exact) (h : Holds py text members) :
    ∃ after, Performs (.getSelectedCleaningAlgorithm : Operation py) text members after := by
  cases hcomplete : completeAlgorithm members with
  | some value =>
    have hperform := perform_getSelectedCleaningAlgorithm_of_some h hcomplete
    refine ⟨members, ?_, ?_, ?_, ?_, fun _ _ => rfl⟩
    · rw [hperform]
      simp [Operation.answer, settings, hcomplete]
    · rw [hperform]
      exact h
    · rfl
    · simp [Operation.Persisted, settings, hcomplete]
  | none =>
    have hname : defaultCleaningAlgorithm ≠ [] := by decide
    have hdefault := completeAlgorithm_setTargetCleaningAlgorithm hname members
    have hperform := perform_getSelectedCleaningAlgorithm_of_none h hcomplete
    refine ⟨_, ?_, ?_, ?_, ?_,
      kept_setTargetCleaningAlgorithm defaultCleaningAlgorithm members⟩
    · rw [hperform]
      simp [Operation.answer, settings, hcomplete]
    · rw [hperform]
      exact h.setTargetCleaningAlgorithm hexact defaultCleaningAlgorithm
    · simp [settings, Operation.pid, Operation.algorithm, hcomplete, hdefault]
    · simp [Operation.Persisted, settings, hdefault]

theorem exists_performs (hexact : py.Exact) (hnests : 2 ≤ py.recursionLimit)
    (hpointOne : py.toFloat pointOne.repr = .finite pointOne) (h : Holds py text members)
    (operation : Operation py) : ∃ after, Performs operation text members after := by
  cases operation with
  | setPidSettings proportional integral derivative =>
    exact performs_setPidSettings hexact hnests h proportional integral derivative
  | getPidSettings => exact performs_getPidSettings hexact hnests hpointOne h
  | setTargetCleaningAlgorithm name hname =>
    exact performs_setTargetCleaningAlgorithm hexact h hname
  | getSelectedCleaningAlgorithm => exact performs_getSelectedCleaningAlgorithm hexact h

end Operations

section Runs

variable {py : Runtime} {text : List Char} {members : Members}

theorem latest_concat {α : Type} (value : Operation py → Option α) (done : List (Operation py))
    (operation : Operation py) :
    latest value (done ++ [operation]) = (value operation).or (latest value done) := by
  unfold latest
  rw [List.reverse_append, List.reverse_singleton, List.singleton_append, List.findSome?_cons]
  cases value operation <;> rfl

theorem expected_concat (members : Members) (done : List (Operation py))
    (operation : Operation py) :
    expected members (done ++ [operation]) =
      ⟨operation.pid.getD (expected members done).pid,
        operation.algorithm.getD (expected members done).algorithm⟩ := by
  unfold expected
  rw [latest_concat, latest_concat]
  cases operation <;> rfl

theorem run_concat (done : List (Operation py)) (operation : Operation py) (text : List Char) :
    run (done ++ [operation]) text = (perform operation (run done text)).2 := by
  unfold run
  rw [List.foldl_append]
  rfl

theorem holds_run (hexact : py.Exact) (hnests : 2 ≤ py.recursionLimit)
    (hpointOne : py.toFloat pointOne.repr = .finite pointOne) (h : Holds py text members)
    (done : List (Operation py)) :
    ∃ before, Holds py (run done text) before ∧ settings before = expected members done := by
  induction done using List.reverseRecOn with
  | nil => exact ⟨members, h, rfl⟩
  | append_singleton done operation ih =>
    obtain ⟨before, hbefore, hsettings⟩ := ih
    obtain ⟨after, hperforms⟩ := exists_performs hexact hnests hpointOne hbefore operation
    refine ⟨after, ?_, ?_⟩
    · rw [run_concat]
      exact hperforms.holds
    · rw [expected_concat, hperforms.settings, hsettings]

end Runs

/-- Whatever was done before, an operation raises nothing, answers with the latest settings,
leaves its own in the file, and changes no other key. Lone surrogates in the texts of
the file are not told apart. -/
theorem perform_latest (py : Runtime) (hexact : py.Exact) (hnests : 2 ≤ py.recursionLimit)
    (hpointOne : py.toFloat pointOne.repr = .finite pointOne) (text : List Char)
    (members : Members) (h : Holds py text members) (done : List (Operation py))
    (operation : Operation py) :
    ∃ before after, loads py (run done text) = .ok (.object before) ∧
      perform operation (run done text) =
        (.ok (operation.answer (expected members done)), run (done ++ [operation]) text) ∧
      loads py (run (done ++ [operation]) text) = .ok (.object after) ∧
      operation.Persisted (expected members (done ++ [operation])) after ∧
      ∀ other, other ≠ operation.key → getItem other after = getItem other before := by
  obtain ⟨before, hbefore, hsettings⟩ := holds_run hexact hnests hpointOne h done
  obtain ⟨after, hperforms⟩ := exists_performs hexact hnests hpointOne hbefore operation
  have hexpected : settings after = expected members (done ++ [operation]) := by
    rw [expected_concat, hperforms.settings, hsettings]
  refine ⟨before, after, hbefore.loads, ?_, ?_, ?_, hperforms.kept⟩
  · refine Prod.ext ?_ (run_concat done operation text).symm
    rw [hperforms.answer, hsettings]
  · rw [run_concat]
    exact hperforms.holds.loads
  · rw [← hexpected]
    exact hperforms.persisted

/-- Another key, and gains that are not complete. -/
def partialMembers : Members :=
  [(pidKey, .object [(integralKey, .number (.int 2))]), ("room".toList, .null)]

def firstRead : List (Operation (readingRuntime pointOne)) := [.getPidSettings]

theorem perform_latest_partial : ∃ before after,
    loads (readingRuntime pointOne) (run firstRead (saveConfig ⟨partialMembers⟩)) =
      .ok (.object before) ∧
    perform (.getPidSettings : Operation (readingRuntime pointOne))
        (run firstRead (saveConfig ⟨partialMembers⟩)) =
      (.ok (.pidSettings defaultPidSettings),
        run (firstRead ++ [.getPidSettings]) (saveConfig ⟨partialMembers⟩)) ∧
    loads (readingRuntime pointOne)
        (run (firstRead ++ [.getPidSettings]) (saveConfig ⟨partialMembers⟩)) =
      .ok (.object after) ∧
    completePid after = some defaultPidSettings ∧
    ∀ other, other ≠ pidKey → getItem other after = getItem other before := by
  have hreadable : Readable (readingRuntime pointOne) (998 + 1 + 1) (.object partialMembers) := by
    refine .object (by decide) ?_
    simp only [partialMembers, List.forall_mem_cons, List.not_mem_nil, false_imp_iff, implies_true,
      and_true]
    refine ⟨.object (by decide) ?_, .null⟩
    simp only [List.forall_mem_cons, List.not_mem_nil, false_imp_iff, implies_true, and_true]
    exact .int (.inr (by decide))
  have hholds : Holds (readingRuntime pointOne) (saveConfig ⟨partialMembers⟩) partialMembers := by
    refine ⟨loads_dumps hreadable, fun value hitem => ?_⟩
    cases hitem
    exact ⟨_, rfl⟩
  exact perform_latest (readingRuntime pointOne) (exact_readingRuntime (.inr (by decide)))
    (by decide) (by simp [readingRuntime]) (saveConfig ⟨partialMembers⟩) partialMembers hholds firstRead
    .getPidSettings

end VacuumCleaner.Core.ConfigurationRuns
