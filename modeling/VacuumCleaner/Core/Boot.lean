import VacuumCleaner.Core.Stores

/-! The boot steps that read the stores, when the writing of a file may have
been cut at any point. -/
namespace VacuumCleaner.Core.Boot

open Lib.Json Lib.Numeral AlgorithmLoop AlgorithmArguments Stores ConfigFile
open AlgorithmManager (AlgorithmName)
open Config (Configuration pidKey proportionalKey integralKey derivativeKey cleaningAlgorithmKey
  defaultCleaningAlgorithm defaultPidSettings pointOne)

/-- The steps of `_initialization` up to `set_algorithm`: the gains for A1, and what is stored then. -/
def boot (py : Runtime) (store : Store) : Except Stores.Raised (Value × Value × Value) × Store :=
  match getPidSettings py store.config with
  | (.error raised, config) => (.error (.configuration raised), { store with config })
  | (.ok gains, config) =>
    match getSelectedCleaningAlgorithm py config with
    | (.error raised, config) => (.error (.configuration raised), { store with config })
    | (.ok (.string name), config) =>
      match setAlgorithm py name { store with config } with
      | (.error raised, after) => (.error raised, after)
      | (.ok _, after) => (.ok gains, after)
    | (.ok value, config) => (.error (.canNotFind value), { store with config })

/-- What the configuration can be after any writes of the core: gains are numbers
that JSON takes there and back, names those of algorithms. -/
inductive Written (py : Runtime) : Configuration → Prop
  | empty : Written py ⟨[]⟩
  | pid {configuration : Configuration} {p i d : Number} : Written py configuration →
    Readable py 0 (.number p) → Readable py 0 (.number i) → Readable py 0 (.number d) →
    Written py (configuration.setPidSettings (.number p) (.number i) (.number d))
  | target {configuration : Configuration} (algorithm : AlgorithmName) : Written py configuration →
    Written py (configuration.setTargetCleaningAlgorithm (getName algorithm))

/-- The algorithm that is stored in the configuration, or else the default. -/
def Selects (configuration : Configuration) (algorithm : AlgorithmName) : Prop :=
  (storedCleaningAlgorithm configuration).getD (.string defaultCleaningAlgorithm) =
    .string (getName algorithm)

/-- The boot steps return, with what is stored or the defaults. -/
def Boots (py : Runtime) (configuration : Configuration) (arguments : AlgorithmName → Members)
    (store : Store) : Prop :=
  ∃ gains after algorithm holder, boot py store = (.ok gains, after) ∧
    (configuration.storedPidSettings = .ok (some gains) ∨ gains = defaultPidSettings) ∧
    after.algorithm = some (algorithm, holder) ∧ Selects configuration algorithm ∧
    (collect Prod.fst (loaded (.object (arguments algorithm))) (getParameters algorithm) =
        .ok holder ∨
      collect Prod.fst defaulted (getParameters algorithm) = .ok holder)

/-- The files are beginnings of the texts that were being written. -/
structure Interrupted (configuration : Configuration) (arguments : AlgorithmName → Members)
    (store : Store) : Prop where
  config : store.config <+: saveConfig configuration
  folder : ∀ algorithm text, store.folder (configFile algorithm) = some text →
    text <+: dumps (.object (arguments algorithm))

/-- Neither the configuration nor the file of the selected algorithm lacks its end. -/
structure NothingCut (configuration : Configuration) (arguments : AlgorithmName → Members)
    (store : Store) : Prop where
  config : store.config = saveConfig configuration
  folder : ∀ algorithm text, Selects configuration algorithm →
    store.folder (configFile algorithm) = some text → text = dumps (.object (arguments algorithm))

section Configurations

variable {py : Runtime} {configuration : Configuration} {text : List Char}

/-- What the getters find in the configuration: nothing, or an entry they can use. -/
structure WellFormed (configuration : Configuration) : Prop where
  pid : getItem pidKey configuration.config = none ∨ ∃ p i d : Number,
    getItem pidKey configuration.config = some (.object
      [(proportionalKey, .number p), (integralKey, .number i), (derivativeKey, .number d)])
  target : getItem cleaningAlgorithmKey configuration.config = none ∨ ∃ algorithm,
    getItem cleaningAlgorithmKey configuration.config = some (.string (getName algorithm))

theorem wellFormed_of_written (h : Written py configuration) : WellFormed configuration := by
  induction h with
  | empty => exact ⟨.inl rfl, .inl rfl⟩
  | @pid configuration p i d _ _ _ _ ih =>
    refine ⟨.inr ⟨p, i, d, getItem_setItem_self ..⟩, ?_⟩
    unfold Configuration.setPidSettings
    rw [getItem_setItem_of_ne (by decide)]
    exact ih.target
  | @target configuration algorithm _ ih =>
    refine ⟨?_, .inr ⟨algorithm, getItem_setItem_self ..⟩⟩
    unfold Configuration.setTargetCleaningAlgorithm
    rw [getItem_setItem_of_ne (by decide)]
    exact ih.pid

theorem readable_number {number : Number} (h : Readable py 0 (.number number)) (depth : Nat) :
    Readable py depth (.number number) := by
  cases h with
  | int hdigits => exact .int hdigits
  | finite hshortest hfloat => exact .finite hshortest hfloat
  | infinity => exact .infinity
  | nan => exact .nan

theorem readable_of_written (hnests : 2 ≤ py.recursionLimit) (h : Written py configuration) :
    Readable py py.recursionLimit (.object configuration.config) := by
  obtain ⟨depth, hdepth⟩ : ∃ depth, py.recursionLimit = depth + 1 + 1 :=
    ⟨py.recursionLimit - 2, by omega⟩
  rw [hdepth]
  induction h with
  | empty => exact .object (by simp) (by simp)
  | pid _ hp hi hd ih =>
    have hkeys : [proportionalKey, integralKey, derivativeKey].Nodup := by decide
    refine Readable.setItem (.object hkeys ?_) ih
    simp only [List.forall_mem_cons, List.not_mem_nil, false_imp_iff, implies_true, and_true]
    exact ⟨readable_number hp _, readable_number hi _, readable_number hd _⟩
  | target algorithm _ ih => exact Readable.string.setItem ih

theorem written_defaults (hpointOne : py.toFloat pointOne.repr = .finite pointOne)
    (h : Written py configuration) : Written py configuration.setupAndReturnDefaultValues.2 := by
  have hreadable : Readable py 0 (.number (.float (.finite pointOne))) :=
    .finite (.inr (by decide)) hpointOne
  have hzero : py.maxStrDigits = 0 ∨ (Nat.toDigits 10 (0 : Int).natAbs).length ≤ py.maxStrDigits :=
    Nat.eq_zero_or_pos py.maxStrDigits
  exact .pid h hreadable hreadable (.int hzero)

theorem storedPidSettings_ok (h : Written py configuration) :
    ∃ gains, configuration.storedPidSettings = .ok gains := by
  unfold Configuration.storedPidSettings
  rcases (wellFormed_of_written h).pid with hnone | ⟨p, i, d, hsome⟩
  · rw [hnone]
    exact ⟨_, rfl⟩
  · rw [hsome]
    exact ⟨_, rfl⟩

theorem storedCleaningAlgorithm_cases (h : Written py configuration) :
    storedCleaningAlgorithm configuration = none ∨ ∃ algorithm,
      storedCleaningAlgorithm configuration = some (.string (getName algorithm)) := by
  unfold storedCleaningAlgorithm
  rcases (wellFormed_of_written h).target with hnone | ⟨algorithm, hsome⟩
  · rw [hnone]
    exact .inl rfl
  · rw [hsome]
    refine .inr ⟨algorithm, ?_⟩
    cases algorithm <;> rfl

theorem storedCleaningAlgorithm_defaults (configuration : Configuration) :
    storedCleaningAlgorithm configuration.setupAndReturnDefaultValues.2 =
      storedCleaningAlgorithm configuration := by
  unfold storedCleaningAlgorithm Configuration.setupAndReturnDefaultValues
    Configuration.setPidSettings
  dsimp only
  rw [getItem_setItem_of_ne (by decide)]

theorem getPidSettings_whole (hnests : 2 ≤ py.recursionLimit)
    (hpointOne : py.toFloat pointOne.repr = .finite pointOne) (h : Written py configuration) :
    ∃ gains after, getPidSettings py (saveConfig configuration) = (.ok gains, saveConfig after) ∧
      (configuration.storedPidSettings = .ok (some gains) ∨ gains = defaultPidSettings) ∧
      Written py after ∧ storedCleaningAlgorithm after = storedCleaningAlgorithm configuration := by
  obtain ⟨stored, hstored⟩ := storedPidSettings_ok h
  unfold getPidSettings
  rw [getConfig_saveConfig _ (readable_of_written hnests h)]
  dsimp only
  rw [hstored]
  cases stored with
  | some gains => exact ⟨gains, configuration, rfl, .inl rfl, h, rfl⟩
  | none =>
    exact ⟨defaultPidSettings, configuration.setupAndReturnDefaultValues.2, rfl, .inr rfl,
      written_defaults hpointOne h, storedCleaningAlgorithm_defaults configuration⟩

theorem getSelectedCleaningAlgorithm_whole (hnests : 2 ≤ py.recursionLimit)
    (h : Written py configuration) : ∃ algorithm after, Selects configuration algorithm ∧
      getSelectedCleaningAlgorithm py (saveConfig configuration) =
        (.ok (.string (getName algorithm)), after) := by
  have hread := readable_of_written hnests h
  unfold getSelectedCleaningAlgorithm
  rw [getConfig_saveConfig _ hread]
  dsimp only
  rcases storedCleaningAlgorithm_cases h with hnone | ⟨algorithm, hsome⟩
  · refine ⟨.simple, saveConfig (configuration.setTargetCleaningAlgorithm
      defaultCleaningAlgorithm), ?_, ?_⟩
    · unfold Selects
      rw [hnone]
      rfl
    · have hset : setTargetCleaningAlgorithm py defaultCleaningAlgorithm (saveConfig configuration) =
          (.ok (), saveConfig (configuration.setTargetCleaningAlgorithm defaultCleaningAlgorithm)) :=
        setTargetCleaningAlgorithm_ok (loads_dumps hread) _
      rw [hnone]
      dsimp only
      rw [hset]
      rfl
  · refine ⟨algorithm, saveConfig configuration, ?_, ?_⟩
    · unfold Selects
      rw [hsome]
      rfl
    · rw [hsome]

theorem getPidSettings_of_unread {raised : DecodeError} (h : loads py text = .error raised) :
    getPidSettings py text = (.error (.decoder raised), text) := by
  unfold getPidSettings getConfig
  rw [h]

end Configurations

section Arguments

variable {py : Runtime} {algorithm : AlgorithmName} {folder : Folder} {members : Members}

theorem loaded_error {parameter : FieldParameter} {raised : AlgorithmArguments.Raised}
    (h : loaded (.object members) parameter = .error raised) : ∃ error, raised = .loading error := by
  unfold loaded at h
  dsimp only at h
  split at h
  · cases h
    exact ⟨_, rfl⟩
  · split at h
    · cases h
    · cases h
      exact ⟨_, rfl⟩

theorem collect_loaded_error {key : List Char × FieldParameter → List Char}
    {parameters : Parameters} {raised : AlgorithmArguments.Raised}
    (h : collect key (loaded (.object members)) parameters = .error raised) :
    ∃ error, raised = .loading error := by
  induction parameters with
  | nil => cases h
  | cons parameter parameters ih =>
    rw [collect] at h
    cases hvalue : loaded (.object members) parameter.2 with
    | error first =>
      rw [hvalue] at h
      cases h
      exact loaded_error hvalue
    | ok value =>
      cases hothers : collect key (loaded (.object members)) parameters with
      | error other =>
        rw [hvalue, hothers] at h
        cases h
        exact ih hothers
      | ok others =>
        rw [hvalue, hothers] at h
        cases h

/-- Every default passes its own check. -/
theorem exists_defaults (algorithm : AlgorithmName) : ∃ result holder,
    collect (·.2.name) defaulted (getParameters algorithm) = .ok result ∧
      collect Prod.fst defaulted (getParameters algorithm) = .ok holder := by
  have hdefaults : ∀ parameter ∈ getParameters algorithm, ∃ value,
      defaulted parameter.2 = .ok value := by
    intro parameter hparameter
    cases algorithm with
    | simple =>
      simp only [getParameters, Simple.parameters, List.mem_cons, List.not_mem_nil,
        or_false] at hparameter
      rcases hparameter with rfl | rfl | rfl | rfl | rfl | rfl | rfl <;> exact ⟨_, rfl⟩
    | smart =>
      simp only [getParameters, Smart.parameters, List.mem_cons, List.not_mem_nil,
        or_false] at hparameter
      rcases hparameter with rfl | rfl <;> exact ⟨_, rfl⟩
  obtain ⟨result, hresult⟩ := exists_collect (·.2.name) hdefaults
  obtain ⟨holder, hholder⟩ := exists_collect Prod.fst hdefaults
  exact ⟨result, holder, hresult, hholder⟩

theorem recreateArgumentConfigFile_ok (algorithm : AlgorithmName) (folder : Folder) :
    ∃ holder after, recreateArgumentConfigFile algorithm folder = (.ok holder, after) ∧
      collect Prod.fst defaulted (getParameters algorithm) = .ok holder := by
  obtain ⟨result, holder, hresult, hholder⟩ := exists_defaults algorithm
  refine ⟨holder, saveConfigFor algorithm result folder, ?_, hholder⟩
  unfold recreateArgumentConfigFile
  rw [hresult, hholder]

theorem loadArguments_whole (hfile : ∀ text, folder (configFile algorithm) = some text →
      loads py text = .ok (.object members)) : ∃ holder after,
    loadArguments py algorithm folder = (.ok holder, after) ∧
      (collect Prod.fst (loaded (.object members)) (getParameters algorithm) = .ok holder ∨
        collect Prod.fst defaulted (getParameters algorithm) = .ok holder) := by
  obtain ⟨recreated, after, hrecreate, hdefaults⟩ := recreateArgumentConfigFile_ok algorithm folder
  cases htext : folder (configFile algorithm) with
  | none =>
    refine ⟨recreated, after, ?_, .inr hdefaults⟩
    have hload : loadArgumentsFromFile py algorithm folder =
        .error (.loading (.fileDoesNotExist algorithm)) := by
      unfold loadArgumentsFromFile readConfigFor
      rw [htext]
      rfl
    unfold loadArguments
    rw [hload]
    exact hrecreate
  | some text =>
    have hload : loadArgumentsFromFile py algorithm folder =
        collect Prod.fst (loaded (.object members)) (getParameters algorithm) := by
      unfold loadArgumentsFromFile readConfigFor
      rw [htext]
      dsimp only
      rw [hfile text htext]
      rfl
    cases hcollect : collect Prod.fst (loaded (.object members)) (getParameters algorithm) with
    | ok holder => exact ⟨holder, folder, loadArguments_of_file (hload.trans hcollect), .inl rfl⟩
    | error raised =>
      obtain ⟨error, rfl⟩ := collect_loaded_error hcollect
      refine ⟨recreated, after, ?_, .inr hdefaults⟩
      unfold loadArguments
      rw [hload, hcollect]
      exact hrecreate

theorem loadArguments_unread {text : List Char} {raised : DecodeError}
    (htext : folder (configFile algorithm) = some text) (h : loads py text = .error raised) :
    loadArguments py algorithm folder = (.error (.decoder raised), folder) := by
  have hload : loadArgumentsFromFile py algorithm folder = .error (.decoder raised) := by
    unfold loadArgumentsFromFile readConfigFor
    rw [htext]
    dsimp only
    rw [h]
    rfl
  unfold loadArguments
  rw [hload]

end Arguments

section Boots

variable {py : Runtime} {configuration : Configuration} {arguments : AlgorithmName → Members}
  {store : Store}

theorem selects_unique {algorithm other : AlgorithmName} (h : Selects configuration algorithm)
    (hother : Selects configuration other) : other = algorithm := by
  have hname : getName other = getName algorithm :=
    Value.string.inj (hother.symm.trans h)
  have hclass := getAlgorithmClass_getName other
  rw [hname, getAlgorithmClass_getName] at hclass
  exact (Except.ok.inj hclass).symm

theorem boot_whole (hnests : 2 ≤ py.recursionLimit)
    (hpointOne : py.toFloat pointOne.repr = .finite pointOne) (hwritten : Written py configuration)
    (hidle : store.state = .idle) (hconfig : store.config = saveConfig configuration) :
    ∃ gains algorithm config, Selects configuration algorithm ∧
      (configuration.storedPidSettings = .ok (some gains) ∨ gains = defaultPidSettings) ∧
      boot py store = match loadArguments py algorithm store.folder with
        | (.error raised, folder) => (.error (.manager raised), { store with config, folder })
        | (.ok holder, folder) => (.ok gains,
          { store with config, folder, algorithm := some (algorithm, holder) }) := by
  obtain ⟨gains, after, hgains, hstored, hafter, hsame⟩ :=
    getPidSettings_whole hnests hpointOne hwritten
  obtain ⟨algorithm, config, hselects, hselected⟩ :=
    getSelectedCleaningAlgorithm_whole hnests hafter
  refine ⟨gains, algorithm, config, ?_, hstored, ?_⟩
  · unfold Selects at hselects ⊢
    rw [← hsame]
    exact hselects
  · unfold boot
    rw [hconfig, hgains]
    dsimp only
    rw [hselected]
    dsimp only
    unfold setAlgorithm
    rw [if_neg (by simp [hidle]), getAlgorithmClass_getName]
    dsimp only
    obtain ⟨outcome, folder⟩ := loadArguments py algorithm store.folder
    cases outcome with
    | error raised => rfl
    | ok holder => rfl

theorem config_whole_of_boots (hnests : 2 ≤ py.recursionLimit) (hwritten : Written py configuration)
    (hcut : store.config <+: saveConfig configuration)
    (hboots : Boots py configuration arguments store) : store.config = saveConfig configuration := by
  by_contra hne
  obtain ⟨raised, hraised⟩ := loads_of_cut_dumps (readable_of_written hnests hwritten) hcut hne
  obtain ⟨gains, after, algorithm, holder, hboot, -⟩ := hboots
  unfold boot at hboot
  rw [getPidSettings_of_unread hraised] at hboot
  cases hboot

end Boots

/-- The robot boots iff no write was cut short; then it boots with what is stored,
or the defaults where nothing is. -/
theorem boots_iff_nothingCut (py : Runtime) (hnests : 2 ≤ py.recursionLimit)
    (hpointOne : py.toFloat pointOne.repr = .finite pointOne) (configuration : Configuration)
    (hwritten : Written py configuration) (arguments : AlgorithmName → Members)
    (harguments : ∀ algorithm, Readable py py.recursionLimit (.object (arguments algorithm)))
    (store : Store) (hidle : store.state = .idle)
    (hinterrupted : Interrupted configuration arguments store) :
    Boots py configuration arguments store ↔ NothingCut configuration arguments store := by
  constructor
  · intro hboots
    have hconfig := config_whole_of_boots hnests hwritten hinterrupted.config hboots
    refine ⟨hconfig, fun selected text hselected htext => ?_⟩
    obtain ⟨gains, algorithm, config, hselects, -, hwhole⟩ :=
      boot_whole hnests hpointOne hwritten hidle hconfig
    rw [selects_unique hselects hselected] at htext ⊢
    by_contra hne
    obtain ⟨raised, hraised⟩ :=
      loads_of_cut_dumps (harguments algorithm) (hinterrupted.folder algorithm text htext) hne
    obtain ⟨gains, after, other, holder, hboot, -⟩ := hboots
    rw [hwhole, loadArguments_unread htext hraised] at hboot
    cases hboot
  · rintro ⟨hconfig, hfolder⟩
    obtain ⟨gains, algorithm, config, hselects, hgains, hwhole⟩ :=
      boot_whole hnests hpointOne hwritten hidle hconfig
    have hfile : ∀ text, store.folder (configFile algorithm) = some text →
        loads py text = .ok (.object (arguments algorithm)) := by
      intro text htext
      rw [hfolder algorithm text hselects htext]
      exact loads_dumps (harguments algorithm)
    obtain ⟨holder, folder, hload, hholder⟩ := loadArguments_whole hfile
    rw [hload] at hwhole
    exact ⟨gains, _, algorithm, holder, hwhole, hgains, rfl, hselects, hholder⟩

/-- The stores of a first boot. -/
def firstStore (config : List Char) : Store := ⟨fun _ => none, config, .idle, none⟩

def keptConfiguration : Configuration :=
  ((⟨[]⟩ : Configuration).setPidSettings (.number (.int 2)) (.number (.int 0))
    (.number (.int 1))).setTargetCleaningAlgorithm (getName .smart)

def keptArguments : AlgorithmName → Members
  | .smart => [("speed".toList, .number (.int 7)),
      ("test3".toList, .number (.float (.finite pointOne)))]
  | .simple => []

/-- Whole files of a configuration and of the arguments that it selects. -/
def keptStore : Store :=
  ⟨saveConfigFor .smart (keptArguments .smart) fun _ => none, saveConfig keptConfiguration, .idle,
    none⟩

theorem keptStore_folder {algorithm : AlgorithmName} {text : List Char}
    (htext : keptStore.folder (configFile algorithm) = some text) :
    text = dumps (.object (keptArguments algorithm)) := by
  cases algorithm with
  | smart => exact (Option.some.inj htext).symm
  | simple => cases htext

theorem boots_with_whole_files :
    Boots (readingRuntime pointOne) keptConfiguration keptArguments keptStore := by
  have hreadable : ∀ algorithm, Readable (readingRuntime pointOne) 1000
      (.object (keptArguments algorithm)) := by
    intro algorithm
    cases algorithm with
    | simple => exact .object (by decide) (by simp [keptArguments])
    | smart =>
      refine .object (by decide) ?_
      simp only [keptArguments, List.forall_mem_cons, List.not_mem_nil, false_imp_iff,
        implies_true, and_true]
      exact ⟨.int (.inr (by decide)), readable_reading (.inr (by decide)) _⟩
  have hwritten : Written (readingRuntime pointOne) keptConfiguration :=
    .target .smart (.pid .empty (.int (.inr (by decide))) (.int (.inr (by decide)))
      (.int (.inr (by decide))))
  refine (boots_iff_nothingCut (readingRuntime pointOne) (by decide) (by simp [readingRuntime])
    keptConfiguration hwritten keptArguments hreadable keptStore rfl
    ⟨List.prefix_refl _, ?_⟩).mpr ⟨rfl, ?_⟩
  · intro algorithm text htext
    obtain rfl := keptStore_folder htext
    exact List.prefix_refl _
  · intro algorithm text _ htext
    exact keptStore_folder htext

theorem boot_fails_on_empty_file : ¬ ∀ (py : Runtime) (configuration : Configuration)
    (arguments : AlgorithmName → Members) (store : Store), 2 ≤ py.recursionLimit →
    py.toFloat pointOne.repr = .finite pointOne → Written py configuration →
    (∀ algorithm, Readable py py.recursionLimit (.object (arguments algorithm))) →
    store.state = .idle → Interrupted configuration arguments store →
    Boots py configuration arguments store := by
  intro h
  have hinterrupted : Interrupted ⟨[]⟩ (fun _ => []) (firstStore []) := by
    refine ⟨List.nil_prefix, ?_⟩
    intro algorithm text htext
    cases htext
  have hboots := h (readingRuntime pointOne) ⟨[]⟩ (fun _ => []) (firstStore []) (by decide)
    (by simp [readingRuntime]) .empty (fun _ => .object (by decide) (by simp)) rfl hinterrupted
  have hconfig := config_whole_of_boots (by decide) .empty hinterrupted.config hboots
  cases hconfig

end VacuumCleaner.Core.Boot
