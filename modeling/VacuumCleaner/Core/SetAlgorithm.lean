import VacuumCleaner.Core.Stores

/-! `/set-algorithm`: three stores are written one after the other, and the last
call is the one that tests whether the manager is idle. -/
namespace VacuumCleaner.Core.SetAlgorithm

open Lib.Json AlgorithmLoop AlgorithmArguments Stores
open AlgorithmManager (AlgorithmName)

structure Request where
  algorithmName : List Char
  arguments : List (List Char × Value)

/-- `{a.name: a.value for a in data.arguments}`. -/
def Request.dictionary (request : Request) : Members :=
  request.arguments.foldl (fun members a => setItem a.1 a.2 members) []

/-- `SetAlgorithmScriptRequest.perform`, with what is stored when it has returned or raised. -/
def perform (py : Runtime) (request : Request) (store : Store) : Except Stores.Raised Unit × Store :=
  match saveAlgorithmArguments request.algorithmName request.dictionary store.folder with
  | (.error raised, folder) => (.error (.manager raised), { store with folder })
  | (.ok _, folder) =>
    match ConfigFile.setTargetCleaningAlgorithm py request.algorithmName store.config with
    | (.error raised, config) => (.error (.configuration raised), { store with folder, config })
    | (.ok _, config) => setAlgorithm py request.algorithmName { store with folder, config }

/-- The algorithm that the configuration selects. -/
def selected (py : Runtime) (store : Store) : Except ConfigFile.Raised Value :=
  (ConfigFile.getSelectedCleaningAlgorithm py store.config).1

/-- The stored arguments, the selected algorithm and the current one are what they were. -/
structure Unchanged (py : Runtime) (store after : Store) : Prop where
  arguments : ∀ algorithm, after.folder (configFile algorithm) = store.folder (configFile algorithm)
  selected : selected py after = selected py store
  algorithm : after.algorithm = store.algorithm

/-- A request that raises has changed nothing. -/
def AllOrNothing (py : Runtime) (request : Request) (store : Store) : Prop :=
  ∀ raised, (perform py request store).1 = .error raised →
    Unchanged py store (perform py request store).2

/-- The name is that of no algorithm, or a parameter lacks a value of its type. -/
def Refused (request : Request) : Prop :=
  ∀ algorithm, getName algorithm = request.algorithmName →
    ∃ parameter ∈ getParameters algorithm, ∀ value,
      accepted request.dictionary parameter.2 ≠ .ok value

def ConfigReadable (py : Runtime) (store : Store) : Prop :=
  ∃ members, loads py store.config = .ok (.object members)

/-- The arguments' file holds the very text that the request writes. -/
def AlreadyStored (request : Request) (store : Store) : Prop :=
  ∀ algorithm res, getName algorithm = request.algorithmName →
    collect (·.2.name) (accepted request.dictionary) (getParameters algorithm) = .ok res →
    store.folder (configFile algorithm) = some (dumps (.object res))

/-- The file decides nothing for a refused request. An accepted one succeeds when
the manager is idle and the configuration can be read; otherwise it raises, and
must not have written anything new. -/
def LeavesNoTrace (py : Runtime) (request : Request) (store : Store) : Prop :=
  Refused request ∨ (store.state = .idle ∧ ConfigReadable py store) ∨
    (AlreadyStored request store ∧
      (ConfigReadable py store → selected py store = .ok (.string request.algorithmName)))

section Perform

variable {py : Runtime} {request : Request} {store : Store} {algorithm : AlgorithmName}
  {res : Members}

theorem getAlgorithmClass_of_getName {name : List Char} (hname : getName algorithm = name) :
    getAlgorithmClass name = .ok algorithm := hname ▸ getAlgorithmClass_getName algorithm

theorem save_refused (store : Store) (hrefused : Refused request) : ∃ raised,
    (saveAlgorithmArguments request.algorithmName request.dictionary store.folder).1 =
      .error raised := by
  cases hsave : (saveAlgorithmArguments request.algorithmName request.dictionary store.folder).1 with
  | error raised => exact ⟨raised, rfl⟩
  | ok saved =>
    obtain ⟨algorithm, res, hname, hres, -⟩ := saveAlgorithmArguments_eq_ok hsave
    obtain ⟨parameter, hparameter, hnone⟩ := hrefused algorithm hname
    obtain ⟨value, hvalue, -⟩ := getItem_collect hres (parameters_nodup algorithm).1 hparameter
    exact absurd hvalue (hnone value)

theorem exists_res_of_not_refused (haccepted : ¬ Refused request) : ∃ algorithm res,
    getName algorithm = request.algorithmName ∧
      collect (·.2.name) (accepted request.dictionary) (getParameters algorithm) = .ok res := by
  unfold Refused at haccepted
  push Not at haccepted
  obtain ⟨algorithm, hname, hvalues⟩ := haccepted
  obtain ⟨res, hres⟩ := exists_collect (·.2.name) hvalues
  exact ⟨algorithm, res, hname, hres⟩

theorem save_accepted (hname : getName algorithm = request.algorithmName)
    (hres : collect (·.2.name) (accepted request.dictionary) (getParameters algorithm) = .ok res) :
    saveAlgorithmArguments request.algorithmName request.dictionary store.folder =
      (.ok (), saveConfigFor algorithm res store.folder) := by
  unfold saveAlgorithmArguments
  rw [getAlgorithmClass_of_getName hname]
  dsimp only
  rw [hres]

theorem perform_refused (hrefused : Refused request) : (perform py request store).2 = store := by
  obtain ⟨raised, hsave⟩ := save_refused store hrefused
  have hsame := saveAlgorithmArguments_eq_error hsave
  unfold perform
  split
  · rename_i heq
    rw [heq] at hsame
    dsimp only at hsame ⊢
    rw [hsame]
  · rename_i heq
    rw [heq] at hsave
    cases hsave

theorem perform_unreadable (hname : getName algorithm = request.algorithmName)
    (hres : collect (·.2.name) (accepted request.dictionary) (getParameters algorithm) = .ok res)
    (hconfig : ¬ ConfigReadable py store) : ∃ raised, perform py request store =
      (.error raised, { store with folder := saveConfigFor algorithm res store.folder }) := by
  obtain ⟨raised, hraised⟩ := ConfigFile.setTargetCleaningAlgorithm_error
    (fun members hloads => hconfig ⟨members, hloads⟩) request.algorithmName
  refine ⟨.configuration raised, ?_⟩
  unfold perform
  rw [save_accepted hname hres]
  dsimp only
  rw [hraised]

/-- The stores when the arguments and the configuration have been written. -/
def written (algorithm : AlgorithmName) (res members : Members) (name : List Char) (store : Store) :
    Store :=
  { store with
    folder := saveConfigFor algorithm res store.folder
    config := ConfigFile.saveConfig
      ((⟨members⟩ : Config.Configuration).setTargetCleaningAlgorithm name) }

theorem perform_readable {members : Members} (hname : getName algorithm = request.algorithmName)
    (hres : collect (·.2.name) (accepted request.dictionary) (getParameters algorithm) = .ok res)
    (hconfig : loads py store.config = .ok (.object members)) : perform py request store =
      setAlgorithm py request.algorithmName
        (written algorithm res members request.algorithmName store) := by
  have hset := ConfigFile.setTargetCleaningAlgorithm_ok
    (show loads py store.config = .ok (.object (⟨members⟩ : Config.Configuration).config) from
      hconfig) request.algorithmName
  unfold perform
  rw [save_accepted hname hres]
  dsimp only
  rw [hset]
  rfl

theorem mem_dictionary {argument : List Char × Value} (hmem : argument ∈ request.dictionary) :
    argument ∈ request.arguments := by
  have hfold : ∀ (arguments : List (List Char × Value)) (members : Members),
      argument ∈ arguments.foldl (fun members a => setItem a.1 a.2 members) members →
        argument ∈ members ∨ argument ∈ arguments := by
    intro arguments
    induction arguments with
    | nil => exact fun members hmem => .inl hmem
    | cons first arguments ih =>
      intro members hmem
      rcases ih _ hmem with hmem | hmem
      · rcases mem_setItem hmem with hfirst | hmem
        · exact .inr (hfirst ▸ List.mem_cons_self)
        · exact .inl hmem
      · exact .inr (List.mem_cons_of_mem _ hmem)
  rcases hfold _ _ hmem with hmem | hmem
  · cases hmem
  · exact hmem

theorem setAlgorithm_idle {members : Members} (hnests : 0 < py.recursionLimit)
    (hreadable : ∀ argument ∈ request.arguments, ∃ depth, Readable py depth argument.2)
    (hname : getName algorithm = request.algorithmName)
    (hres : collect (·.2.name) (accepted request.dictionary) (getParameters algorithm) = .ok res)
    (hidle : store.state = .idle) :
    (setAlgorithm py request.algorithmName
      (written algorithm res members request.algorithmName store)).1 = .ok () := by
  obtain ⟨holder, hholder, -⟩ := loadArgumentsFromFile_saved store.folder hnests
    (fun argument hmem => hreadable argument (mem_dictionary hmem)) hres
  unfold setAlgorithm
  rw [if_neg (by simp [written, hidle]), getAlgorithmClass_of_getName hname]
  dsimp only [written]
  rw [loadArguments_of_file hholder]

theorem setAlgorithm_busy (hbusy : store.state ≠ .idle) (name : List Char) :
    setAlgorithm py name store = (.error (.manager (.forbidden store.state)), store) := if_pos hbusy

theorem folder_unchanged_iff : (∀ other, saveConfigFor algorithm res store.folder (configFile other) =
      store.folder (configFile other)) ↔
    store.folder (configFile algorithm) = some (dumps (.object res)) := by
  constructor
  · intro hsame
    rw [← hsame algorithm, saveConfigFor_self]
  · intro hstored other
    by_cases hother : other = algorithm
    · rw [hother, saveConfigFor_self, hstored]
    · exact saveConfigFor_of_ne (configFile_injective.ne hother) res

theorem alreadyStored_iff (hname : getName algorithm = request.algorithmName)
    (hres : collect (·.2.name) (accepted request.dictionary) (getParameters algorithm) = .ok res) :
    AlreadyStored request store ↔
      store.folder (configFile algorithm) = some (dumps (.object res)) := by
  constructor
  · exact fun h => h algorithm res hname hres
  · intro hstored other others hother hothers
    have hsame := getAlgorithmClass_of_getName hother
    rw [getAlgorithmClass_of_getName hname] at hsame
    cases hsame
    rw [hres] at hothers
    cases hothers
    exact hstored

theorem selected_written {members : Members} (hpy : py.Exact)
    (hconfig : loads py store.config = .ok (.object members))
    (hname : getName algorithm = request.algorithmName) :
    selected py (written algorithm res members request.algorithmName store) =
      .ok (.string request.algorithmName) := by
  have hne : request.algorithmName ≠ [] := by
    rw [← hname]
    cases algorithm <;> decide
  have hselected := ConfigFile.getSelectedCleaningAlgorithm_set hpy
    (show loads py store.config = .ok (.object (⟨members⟩ : Config.Configuration).config) from
      hconfig) hne
  unfold selected written
  rw [hselected]

theorem allOrNothing_unreadable (hname : getName algorithm = request.algorithmName)
    (hres : collect (·.2.name) (accepted request.dictionary) (getParameters algorithm) = .ok res)
    (hconfig : ¬ ConfigReadable py store) :
    AllOrNothing py request store ↔ AlreadyStored request store := by
  obtain ⟨raised, hperform⟩ := perform_unreadable hname hres hconfig
  rw [alreadyStored_iff hname hres, ← folder_unchanged_iff]
  unfold AllOrNothing
  rw [hperform]
  constructor
  · exact fun h => (h raised rfl).arguments
  · exact fun h _ _ => ⟨h, rfl, rfl⟩

theorem allOrNothing_busy {members : Members} (hpy : py.Exact)
    (hname : getName algorithm = request.algorithmName)
    (hres : collect (·.2.name) (accepted request.dictionary) (getParameters algorithm) = .ok res)
    (hconfig : loads py store.config = .ok (.object members)) (hbusy : store.state ≠ .idle) :
    AllOrNothing py request store ↔
      AlreadyStored request store ∧ selected py store = .ok (.string request.algorithmName) := by
  have hwritten : (written algorithm res members request.algorithmName store).state ≠ .idle := hbusy
  have hperform := perform_readable hname hres hconfig
  rw [setAlgorithm_busy hwritten] at hperform
  rw [alreadyStored_iff hname hres, ← folder_unchanged_iff]
  unfold AllOrNothing
  rw [hperform]
  constructor
  · intro h
    obtain ⟨hfolder, hselected, -⟩ := h _ rfl
    exact ⟨hfolder, hselected ▸ selected_written hpy hconfig hname⟩
  · rintro ⟨hfolder, hselected⟩ raised -
    exact ⟨hfolder, (selected_written hpy hconfig hname).trans hselected.symm, rfl⟩

end Perform

/-- A request leaves nothing behind when it raises iff it is refused, finds the
manager idle, or asks for what is stored already. -/
theorem setAlgorithm_allOrNothing_iff (py : Runtime) (hpy : py.Exact)
    (hnests : 0 < py.recursionLimit) (request : Request)
    (hreadable : ∀ argument ∈ request.arguments, ∃ depth, Readable py depth argument.2)
    (store : Store) : AllOrNothing py request store ↔ LeavesNoTrace py request store := by
  by_cases hrefused : Refused request
  · refine iff_of_true (fun raised hraised => ?_) (.inl hrefused)
    rw [perform_refused hrefused]
    exact ⟨fun _ => rfl, rfl, rfl⟩
  obtain ⟨algorithm, res, hname, hres⟩ := exists_res_of_not_refused hrefused
  unfold LeavesNoTrace
  by_cases hconfig : ConfigReadable py store
  · obtain ⟨members, hmembers⟩ := hconfig
    by_cases hidle : store.state = .idle
    · refine iff_of_true (fun raised hraised => ?_) (.inr (.inl ⟨hidle, members, hmembers⟩))
      rw [perform_readable hname hres hmembers,
        setAlgorithm_idle hnests hreadable hname hres hidle] at hraised
      cases hraised
    · rw [allOrNothing_busy hpy hname hres hmembers hidle]
      simp [hrefused, hidle, ConfigReadable, hmembers]
  · rw [allOrNothing_unreadable hname hres hconfig]
    simp [hrefused, hconfig]

def smartRequest : Request := ⟨"smart".toList, smartArguments 5⟩

def gainsOfOne : Value :=
  .object [(Config.proportionalKey, .number (.float (.finite Smart.one))),
    (Config.integralKey, .number (.float (.finite Smart.one))),
    (Config.derivativeKey, .number (.float (.finite Smart.one)))]

def simpleSelected : Config.Configuration :=
  ⟨[(Config.pidKey, gainsOfOne),
    (Config.cleaningAlgorithmKey, .string Config.defaultCleaningAlgorithm)]⟩

/-- The robot cleans by the other algorithm. -/
def cleaningStore (state : State) : Store where
  folder := saveConfigFor .smart (smartArguments 50) fun _ => none
  config := ConfigFile.saveConfig simpleSelected
  state := state
  algorithm := some (.simple, [])

theorem loads_simpleSelected (state : State) :
    loads (readingRuntime Smart.one) (cleaningStore state).config =
      .ok (.object simpleSelected.config) := by
  apply loads_dumps
  refine .object (by decide) ?_
  simp only [simpleSelected, gainsOfOne, List.forall_mem_cons, List.not_mem_nil, false_imp_iff,
    implies_true, and_true]
  refine ⟨.object (by decide) ?_, .string⟩
  simp only [List.forall_mem_cons, List.not_mem_nil, false_imp_iff, implies_true, and_true]
  exact ⟨readable_reading isShortest_one _, readable_reading isShortest_one _,
    readable_reading isShortest_one _⟩

theorem setAlgorithm_while_cleaning : ¬ ∀ (py : Runtime) (request : Request) (store : Store),
    AllOrNothing py request store := by
  intro h
  have hname : getName .smart = smartRequest.algorithmName := rfl
  have hbusy := (allOrNothing_busy (exact_readingRuntime isShortest_one) hname rfl
    (loads_simpleSelected .running) (by decide)).mp
      (h (readingRuntime Smart.one) smartRequest (cleaningStore .running))
  have hstored := hbusy.1 .smart (smartArguments 5) rfl rfl
  have hne : (cleaningStore .running).folder (configFile .smart) ≠
      some (dumps (.object (smartArguments 5))) := by decide
  exact hne hstored

/-- A request without one of the parameters. -/
def forgetfulRequest : Request := ⟨"smart".toList, [("speed".toList, .number (.int 5))]⟩

theorem refused_forgetfulRequest : Refused forgetfulRequest := by
  intro algorithm hname
  cases algorithm with
  | simple => exact absurd hname (by decide)
  | smart =>
    refine ⟨("test".toList, Smart.test), by simp [getParameters, Smart.parameters], ?_⟩
    rintro value ⟨⟩

theorem setAlgorithm_allOrNothing_when_refused :
    (∃ raised, (perform (readingRuntime Smart.one) forgetfulRequest (cleaningStore .running)).1 =
      .error raised) ∧
    AllOrNothing (readingRuntime Smart.one) forgetfulRequest (cleaningStore .running) := by
  have hreadable : ∀ argument ∈ forgetfulRequest.arguments, ∃ depth,
      Readable (readingRuntime Smart.one) depth argument.2 := by
    intro argument hargument
    obtain rfl := List.mem_singleton.mp hargument
    exact ⟨0, .int (.inr (by decide))⟩
  exact ⟨⟨_, rfl⟩, (setAlgorithm_allOrNothing_iff (readingRuntime Smart.one)
    (exact_readingRuntime isShortest_one) (by decide) forgetfulRequest hreadable
    (cleaningStore .running)).mpr (.inl refused_forgetfulRequest)⟩

end VacuumCleaner.Core.SetAlgorithm
