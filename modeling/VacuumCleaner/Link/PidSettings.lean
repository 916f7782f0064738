import VacuumCleaner.A1.Pid
import VacuumCleaner.Core.Config
import VacuumCleaner.Core.Robot
import VacuumCleaner.Link.InstructionCodec

/-! The PID gains on their way from the endpoint through the configuration to
A1, which judges them only at the next start. -/
namespace VacuumCleaner.Link.PidSettings

open Lib.CText Lib.Json Lib.Numeral A1 A1.Fields A1.InstructionHandler
open Core.Config Core.Robot Core.Socket InstructionCodec

/-- The three gains of a request, or of the configuration. -/
structure PidGains where
  proportional : Number
  integral : Number
  derivative : Number
  deriving DecidableEq

/-- The finite floats that `/set-current-pid` is answered OK for. -/
structure PidSettingsRequest where
  proportional : Decimal
  integral : Decimal
  derivative : Decimal
  deriving DecidableEq

def gain (value : Decimal) : Number := .float (.finite value)

def PidSettingsRequest.gains (data : PidSettingsRequest) : PidGains :=
  ⟨gain data.proportional, gain data.integral, gain data.derivative⟩

def PidGains.command (gains : PidGains) : Command :=
  .setPid gains.proportional gains.integral gains.derivative

def PidGains.values (gains : PidGains) : Value × Value × Value :=
  (.number gains.proportional, .number gains.integral, .number gains.derivative)

/-- The calls of the API that write the configuration. -/
inductive ApiCall
  | setCurrentPid (data : PidSettingsRequest)
  | getCurrentPid
  | setAlgorithm (name : List Char)
  deriving DecidableEq

/-- `SetPidSettings.perform`: it stores the gains first, and nobody waits for its command. -/
def performSetPid (data : PidSettingsRequest) (configuration : Configuration) :
    Configuration × Command :=
  let (p, i, d) := data.gains.values
  (configuration.setPidSettings p i d, data.gains.command)

def ApiCall.perform (configuration : Configuration) : ApiCall → Configuration
  | .setCurrentPid data => (performSetPid data configuration).1
  | .getCurrentPid =>
    match configuration.getPidSettings with
    | .ok (_, after) => after
    | .error _ => configuration
  | .setAlgorithm name => configuration.setTargetCleaningAlgorithm name

/-- The configuration of a new file after a sequence of calls. -/
def configured (calls : List ApiCall) : Configuration := calls.foldl ApiCall.perform {}

def defaultGains : PidGains := ⟨gain pointOne, gain pointOne, .int 0⟩

/-- The gains set last. -/
def lastGains (calls : List ApiCall) : PidGains :=
  calls.foldl (fun gains call =>
    match call with
    | .setCurrentPid data => data.gains
    | _ => gains) defaultGains

/-- The commands of `_initialization` before the gains are sent. -/
def initialization : List Command :=
  [.coreIsInitialized true, .setErrorState false, .setErrorLed .off, .beep 1 50]

/-- The communicator of a new process, once these commands are sent. -/
def started : SerialA1Communicator :=
  SerialA1Communicator.sendInstructions {}
    (initialization.map fun command => (command.instruction.instructionId,
      command.instruction.parameters))

def bootLine (gains : PidGains) : List Char :=
  (started.sendInstruction gains.command.instruction.instructionId
    gains.command.instruction.parameters).1

/-- The number a gain denotes. -/
def denoted : Number → Option ℚ
  | .int value => some value
  | .float (.finite value) => some value.value
  | .float _ => none

/-- A1 accepts the line that `_init_pid_settings` sends: it hands the parameters
to `on_set_pid_settings`, and both wheels get the numbers denoted. -/
def Accepted {F : Type} (toFloat : Scanned → F) (gains : PidGains) : Prop :=
  ∃ p i d buffer id value,
    denoted gains.proportional = some p ∧ denoted gains.integral = some i ∧
    denoted gains.derivative = some d ∧
    readFromStream (bootLine gains) = (.ready, buffer, []) ∧
    handle buffer = .ok .onSetPidSettings id value ∧
    ∀ settings : PidSettings F, onSetPidSettings toFloat id value settings =
      (⟨⟨toFloat (.number p), toFloat (.number i), toFloat (.number d)⟩,
        ⟨toFloat (.number p), toFloat (.number i), toFloat (.number d)⟩⟩, .finished id)

/-- The stored gains are numbers, and A1 accepts them. -/
def Boots {F : Type} (toFloat : Scanned → F) (configuration : Configuration) : Prop :=
  ∃ gains after, configuration.getPidSettings = .ok (PidGains.values gains, after) ∧
    Accepted toFloat gains

def Short (number : Number) : Prop := number.str.length ≤ maxValueSize

instance (number : Number) : Decidable (Short number) := by
  unfold Short
  infer_instance

def PidGains.Short (gains : PidGains) : Prop :=
  PidSettings.Short gains.proportional ∧ PidSettings.Short gains.integral ∧
    PidSettings.Short gains.derivative

theorem getPidSettings_configured (calls : List ApiCall) :
    ∃ after, (configured calls).getPidSettings = .ok ((lastGains calls).values, after) := by
  have hrun : ∀ (configuration : Configuration) (gains : PidGains),
      (∃ after, configuration.getPidSettings = .ok (gains.values, after)) →
      ∃ after, (calls.foldl ApiCall.perform configuration).getPidSettings =
        .ok ((calls.foldl (fun gains call =>
          match call with
          | .setCurrentPid data => data.gains
          | _ => gains) gains).values, after) := by
    induction calls with
    | nil => exact fun _ _ h => h
    | cons call calls ih =>
      rintro configuration gains ⟨after, hread⟩
      apply ih
      cases call with
      | setCurrentPid data =>
        have hset := Configuration.getPidSettings_setPidSettings
          (p := .number data.gains.proportional) (i := .number data.gains.integral)
          (d := .number data.gains.derivative) (by simp) (by simp) (by simp) configuration
        exact ⟨_, hset⟩
      | getCurrentPid =>
        simp only [ApiCall.perform, hread]
        exact ⟨after, Configuration.getPidSettings_after hread⟩
      | setAlgorithm name =>
        refine Configuration.getPidSettings_of_getItem_eq ?_ hread
        exact getItem_setItem_of_ne (by decide) _ _
  exact hrun {} defaultGains ⟨_, rfl⟩

/-- A gain that the API can store: a finite float or the default 0. -/
def Storable (number : Number) : Prop := (∃ value, number = gain value) ∨ number = .int 0

theorem Storable.denotes {number : Number} (hnumber : Storable number) :
    ∃ value, denoted number = some value ∧ Denotes number.str value := by
  rcases hnumber with ⟨value, rfl⟩ | rfl
  · exact ⟨value.value, rfl, denotes_repr value⟩
  · exact ⟨0, rfl, denotes_zero⟩

def PidGains.Storable (gains : PidGains) : Prop :=
  PidSettings.Storable gains.proportional ∧ PidSettings.Storable gains.integral ∧
    PidSettings.Storable gains.derivative

theorem storable_lastGains (calls : List ApiCall) : (lastGains calls).Storable := by
  have hrun : ∀ gains : PidGains, gains.Storable → (calls.foldl (fun gains call =>
      match call with
      | .setCurrentPid data => data.gains
      | _ => gains) gains).Storable := by
    induction calls with
    | nil => exact fun _ h => h
    | cons call calls ih =>
      intro gains hgains
      apply ih
      cases call with
      | setCurrentPid data => exact ⟨.inl ⟨_, rfl⟩, .inl ⟨_, rfl⟩, .inl ⟨_, rfl⟩⟩
      | getCurrentPid => exact hgains
      | setAlgorithm name => exact hgains
  exact hrun defaultGains ⟨.inl ⟨_, rfl⟩, .inl ⟨_, rfl⟩, .inr rfl⟩

theorem parameters_command (gains : PidGains) :
    gains.command.instruction.parameters = gains.proportional.str ++ separator ::
      (gains.integral.str ++ separator :: gains.derivative.str) := by
  simp [PidGains.command, Command.instruction, fields, List.intercalate, separator]

theorem bootLine_handled {gains : PidGains} (hgains : gains.Storable) :
    ∃ buffer id rest, readFromStream (bootLine gains) = (.ready, buffer, []) ∧
      handle buffer = .ok .onSetPidSettings id
        (pidInput gains.proportional.str gains.integral.str gains.derivative.str rest) := by
  obtain ⟨vp, -, hp⟩ := hgains.1.denotes
  obtain ⟨vi, -, hi⟩ := hgains.2.1.denotes
  obtain ⟨vd, -, hd⟩ := hgains.2.2.denotes
  have hchars : ∀ c ∈ Decimal.numeralChars, ' ' ≤ c ∧ c ≤ '~' := by
    simp [Decimal.numeralChars]
  have hprintable : Printable gains.command.instruction.parameters := by
    rw [parameters_command]
    intro c hc
    simp only [List.mem_append, List.mem_cons] at hc
    rcases hc with hc | rfl | hc | rfl | hc
    · exact hchars c (hp.chars c hc)
    · decide
    · exact hchars c (hi.chars c hc)
    · decide
    · exact hchars c (hd.chars c hc)
  have hlength : gains.command.instruction.parameters.length ≤ 96 := by
    have hpLength := hp.length
    have hiLength := hi.length
    have hdLength := hd.length
    rw [parameters_command]
    simp only [List.length_append, List.length_cons]
    omega
  have hname : (0x15, Callback.onSetPidSettings) ∈ instructions := by decide
  have hid : SerialA1Communicator.nextIdK started.instructionIdK < 16 ^ 4 := by decide
  obtain ⟨buffer, rest, hread, hhandle⟩ := received_of_fits hname hprintable hlength hid
  rw [parameters_command, List.append_assoc, List.cons_append, List.append_assoc,
    List.cons_append] at hhandle
  exact ⟨buffer, _, '\n' :: rest, hread, hhandle⟩

theorem accepted_iff_short {F : Type} (toFloat : Scanned → F) {gains : PidGains}
    (hgains : gains.Storable) : Accepted toFloat gains ↔ gains.Short := by
  obtain ⟨p, hpDenoted, hp⟩ := hgains.1.denotes
  obtain ⟨i, hiDenoted, hi⟩ := hgains.2.1.denotes
  obtain ⟨d, hdDenoted, hd⟩ := hgains.2.2.denotes
  obtain ⟨buffer, id, rest, hread, hhandle⟩ := bootLine_handled hgains
  have haccept := onSetPidSettings_pidInput toFloat rest hp hi hd id
  constructor
  · rintro ⟨_, _, _, _, _, _, -, -, -, hread', hhandle', haccepted⟩
    rw [hread] at hread'
    cases hread'
    rw [hhandle] at hhandle'
    cases hhandle'
    by_contra hlong
    let unset : Gains F := ⟨toFloat .nan, toFloat .nan, toFloat .nan⟩
    have hreply := haccepted ⟨unset, unset⟩
    rw [haccept] at hreply
    have hfailed := congrArg Prod.snd (hreply.symm.trans (if_neg hlong))
    cases hfailed
  · intro hshort
    refine ⟨p, i, d, buffer, id, _, hpDenoted, hiDenoted, hdDenoted, hread, hhandle, ?_⟩
    intro settings
    rw [haccept]
    exact if_pos hshort

theorem values_injective {gains other : PidGains} (h : gains.values = other.values) :
    gains = other := by
  cases gains
  cases other
  simpa [PidGains.values] using h

theorem boots_iff_accepted {F : Type} (toFloat : Scanned → F) (calls : List ApiCall) :
    Boots toFloat (configured calls) ↔ Accepted toFloat (lastGains calls) := by
  obtain ⟨after, hread⟩ := getPidSettings_configured calls
  constructor
  · rintro ⟨gains, after', hread', haccepted⟩
    rw [hread, Except.ok.injEq, Prod.mk.injEq] at hread'
    rw [values_injective hread'.1]
    exact haccepted
  · intro haccepted
    exact ⟨lastGains calls, after, hread, haccepted⟩

/-- After any calls of the API the core boots iff each of the gains set last is
printed with at most four characters. -/
theorem boots_iff_short {F : Type} (toFloat : Scanned → F) (calls : List ApiCall) :
    Boots toFloat (configured calls) ↔ (lastGains calls).Short := by
  rw [boots_iff_accepted, accepted_iff_short toFloat (storable_lastGains calls)]

/-- The gain 0.123. -/
def threeDecimals : Decimal :=
  { pointOne with
    digits := [digit 1, digit 2, digit 3], nonempty := by decide, short := by decide }

theorem no_boot_after_three_decimals : ¬ ∀ (toFloat : Scanned → Scanned) (calls : List ApiCall),
    Boots toFloat (configured calls) := by
  intro hevery
  have hboots := hevery id [.setCurrentPid ⟨threeDecimals, pointOne, pointOne⟩]
  rw [boots_iff_accepted, accepted_iff_short id (storable_lastGains _)] at hboots
  exact absurd hboots.1 (by decide)

end VacuumCleaner.Link.PidSettings
