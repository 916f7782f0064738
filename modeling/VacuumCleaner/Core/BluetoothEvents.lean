import VacuumCleaner.Core.BluetoothService
import Mathlib.Data.Finset.Card

/-! What the Bluetooth button may start, whether pairing can be asked for again,
and what the LED shows, over whole runs. -/
namespace VacuumCleaner.Core.BluetoothEvents

open Lib Robot Models BluetoothService
open BluetoothService (Event machine)

/-! The button. -/

/-- The button does not ask for another start of a thread that has ended, and
what an event makes the core show or say does not fail. -/
def survivable (world : World) : Event → Prop
  | .button .click => world.service ≠ .ended
  | .button .longPress => world.service = .ended → world.pairing.isParingProcessEnabled = true
  | .got (some _) fails => fails = false
  | _ => True

instance (world : World) (event : Event) : Decidable (survivable world event) := by
  unfold survivable
  split <;> infer_instance

theorem startService_eq_none_iff {world : World} :
    world.startService = none ↔ world.service = .ended := by
  unfold World.startService
  cases world.service <;> simp [ServiceThread.isAlive, ServiceThread.start]

theorem handleButton_eq_none_iff {world : World} {button : ButtonState} :
    world.handleButton button = none ↔ ¬ survivable world (.button button) := by
  cases button with
  | nothing => simp [World.handleButton, survivable]
  | click =>
    rw [World.handleButton, startService_eq_none_iff, survivable, not_not]
  | longPress =>
    unfold World.handleButton survivable
    cases world.pairing.isParingProcessEnabled with
    | true => simp
    | false =>
      simp only [Bool.false_eq_true, if_false, Option.map_eq_none_iff, startService_eq_none_iff,
        imp_false, not_not]

@[simp] theorem core_emit (world : World) (event : Option ServiceEvent) :
    (world.emit event).core = world.core := by
  cases event <;> rfl

/-- What the threads and the core loop do in one step. -/
inductive Moves (world : World) : Event → World → Prop
  | handles {button : ButtonState} {after : World} : world.core = .handlingButton →
    world.handleButton button = some after → Moves world (.button button)
      { after with core := if after.pairing.joining then .enablingPairing else .gettingEvent }
  | raises {button : ButtonState} : world.core = .handlingButton →
    world.handleButton button = none → Moves world (.button button) { world with core := .raised }
  | joins {pairing : Pairing} : world.core = .enablingPairing → world.pairing.join = some pairing →
    Moves world .joined { world with pairing, core := .gettingEvent }
  | gets {picked : Option ServiceEvent} {fails : Bool} {display : Display} :
    world.core = .gettingEvent → world.display.get picked = some display →
    Moves world (.got picked fails)
      { world with display, core := if picked.isSome && fails then .raised else .handlingButton }
  | service {fails : Bool} {service : ServiceThread} {emitted : Option ServiceEvent} :
    world.service.advance fails = some (service, emitted) →
    Moves world (.service fails) { world.emit emitted with service }
  | pairing {fails : Bool} {pairing : Pairing} {emitted : Option ServiceEvent} :
    world.pairing.advance fails = some (pairing, emitted) →
    Moves world (.pairing fails) { world.emit emitted with pairing }

theorem moves_of_step {world next : World} {event : Event}
    (hstep : machine.step world event = some next) : Moves world event next := by
  cases event with
  | button button =>
    simp only [machine, World.step] at hstep
    split at hstep
    · rename_i hcore
      split at hstep <;> cases hstep
      · exact .handles hcore (by assumption)
      · exact .raises hcore (by assumption)
    · cases hstep
  | joined =>
    simp only [machine, World.step] at hstep
    split at hstep
    · rename_i hcore
      obtain ⟨pairing, hjoin, rfl⟩ := Option.map_eq_some_iff.mp hstep
      exact .joins hcore hjoin
    · cases hstep
  | got picked fails =>
    simp only [machine, World.step] at hstep
    split at hstep
    · rename_i hcore
      obtain ⟨display, hget, rfl⟩ := Option.map_eq_some_iff.mp hstep
      exact .gets hcore hget
    · cases hstep
  | service fails =>
    obtain ⟨⟨service, emitted⟩, hadvance, rfl⟩ := Option.map_eq_some_iff.mp hstep
    exact .service hadvance
  | pairing fails =>
    obtain ⟨⟨pairing, emitted⟩, hadvance, rfl⟩ := Option.map_eq_some_iff.mp hstep
    exact .pairing hadvance

theorem raised_step {world next : World} {event : Event}
    (hstep : machine.step world event = some next) :
    (world.core = .raised → next.core = .raised) ∧
      (world.core ≠ .raised → (next.core ≠ .raised ↔ survivable world event)) := by
  cases moves_of_step hstep with
  | @handles button after hcore hhandle =>
    have hsurvivable : survivable world (.button button) := by
      by_contra hnot
      rw [handleButton_eq_none_iff.mpr hnot] at hhandle
      cases hhandle
    refine ⟨fun hraised => absurd (hcore.symm.trans hraised) (by decide), fun _ => ?_⟩
    refine iff_of_true ?_ hsurvivable
    simp only
    split <;> decide
  | raises hcore hhandle =>
    have hnot := handleButton_eq_none_iff.mp hhandle
    simp [hcore, hnot]
  | joins hcore => simp [hcore, survivable]
  | @gets picked fails display hcore =>
    cases picked <;> cases fails <;> simp [hcore, survivable]
  | service | pairing => simp [survivable]

/-- The Bluetooth events never take the core loop down exactly when the button never
asks for the start of a service thread that has ended and what an event makes the
core show or say never fails. -/
theorem core_survives_iff {events : List Event} {finish : World}
    (hexec : machine.exec {} events = some finish) :
    finish.core ≠ .raised ↔ machine.Guarded survivable {} events := by
  apply Machine.exec_clear_iff (fun world => world.core = .raised) (fun _ => True)
    Machine.anyEvent _ trivial (by decide) (Machine.guarded_anyEvent _ _) hexec
  intro state event next _ _ hstep
  exact ⟨trivial, raised_step hstep⟩

def clickedTwice : List Event := [.button .click, .service false, .got (some .startService) false,
  .button .click, .got none false, .button .longPress]

theorem core_survives_second_click : ∃ finish, machine.exec {} clickedTwice = some finish ∧
    finish.core ≠ .raised := by
  have hguarded : machine.Guarded survivable {} clickedTwice := by decide
  obtain ⟨finish, hexec⟩ : ∃ finish, machine.exec {} clickedTwice = some finish := ⟨_, rfl⟩
  exact ⟨finish, hexec, (core_survives_iff hexec).mpr hguarded⟩

/-- Bluetooth cannot be enabled; the next click starts the ended thread again. -/
theorem core_raised_by_click : ∃ finish, machine.exec {} [.button .click, .service false,
    .service true, .service false, .got (some .startService) false, .button .click] = some finish ∧
      finish.core = .raised :=
  ⟨_, rfl, rfl⟩

/-! Pairing. -/

inductive PairingEvent
  | enablePairing
  | joined
  | thread (fails : Bool)
  deriving DecidableEq

/-- The core asks for pairing only while the flag is down and no call waits. -/
def pairingStep (pairing : Pairing) : PairingEvent → Option Pairing
  | .enablePairing =>
    if pairing.isParingProcessEnabled = false ∧ pairing.joining = false then
      some pairing.enablePairing
    else none
  | .joined => pairing.join
  | .thread fails => (pairing.advance fails).map Prod.fst

def pairingMachine : Machine Pairing PairingEvent := ⟨pairingStep⟩

/-- The thread has its reset of the flag still ahead. -/
def WillReset (pairing : Pairing) : Prop :=
  pairing.pairingThread = some .accepting ∨ pairing.pairingThread = some .resetting

instance (pairing : Pairing) : Decidable (WillReset pairing) := by
  unfold WillReset
  infer_instance

/-- Where the flag is up, a thread is alive that will reset it. -/
def Requestable (pairing : Pairing) : Prop :=
  pairing.isParingProcessEnabled = true → WillReset pairing

/-- No thread is stored when pairing is asked for, and no thread fails. -/
def firstRound (pairing : Pairing) : PairingEvent → Prop
  | .enablePairing => pairing.pairingThread = none
  | .joined => True
  | .thread fails => fails = true → pairing.pairingThread ≠ some .accepting

instance (pairing : Pairing) (event : PairingEvent) : Decidable (firstRound pairing event) := by
  cases event <;> unfold firstRound <;> infer_instance

/-- A thread with its reset ahead was started by the call that set the flag. -/
def Consistent (pairing : Pairing) : Prop :=
  WillReset pairing → pairing.isParingProcessEnabled = true ∧ pairing.joining = false

theorem consistent_step {pairing next : Pairing} {event : PairingEvent} (h : Consistent pairing)
    (hstep : pairingMachine.step pairing event = some next) : Consistent next := by
  obtain ⟨enabled, thread, joining⟩ := pairing
  cases event with
  | enablePairing =>
    simp only [pairingMachine, pairingStep] at hstep
    split at hstep
    · rename_i hcall
      cases hstep
      cases thread with
      | none => exact fun _ => ⟨rfl, hcall.2⟩
      | some thread =>
        intro hreset
        have hbefore := h hreset
        exact absurd (hbefore.1.symm.trans hcall.1) (by decide)
    · cases hstep
  | joined =>
    simp only [pairingMachine, pairingStep, Pairing.join] at hstep
    split at hstep
    · cases hstep
      simp [Consistent, WillReset]
    · cases hstep
  | thread fails =>
    obtain ⟨⟨after, event⟩, hadvance, rfl⟩ := Option.map_eq_some_iff.mp hstep
    cases thread with
    | none => cases hadvance
    | some place =>
      cases place with
      | accepting =>
        cases hadvance
        exact fun _ => h (.inl rfl)
      | ended => cases hadvance
      | _ =>
        cases hadvance
        simp [Consistent, WillReset]

/-- A flag that nobody will reset stays up, and what brings it about is a second
round or a thread that fails. -/
theorem requestable_step {pairing next : Pairing} {event : PairingEvent} (h : Consistent pairing)
    (hstep : pairingMachine.step pairing event = some next) :
    (¬ Requestable pairing → ¬ Requestable next) ∧
      (Requestable pairing → (Requestable next ↔ firstRound pairing event)) := by
  obtain ⟨enabled, thread, joining⟩ := pairing
  cases event with
  | enablePairing =>
    simp only [pairingMachine, pairingStep] at hstep
    split at hstep
    · rename_i hcall
      cases hstep
      obtain ⟨henabled, hjoining⟩ := hcall
      cases henabled
      cases thread with
      | none => simp [Requestable, WillReset, firstRound, Pairing.enablePairing]
      | some place =>
        have hnot : ¬ WillReset ⟨false, some place, joining⟩ := fun hreset => by cases (h hreset).1
        refine ⟨fun hbad => absurd (fun hfalse => by cases hfalse) hbad, fun _ => ?_⟩
        refine iff_of_false (fun hgood => hnot (hgood rfl)) ?_
        simp [firstRound]
    · cases hstep
  | joined =>
    simp only [pairingMachine, pairingStep, Pairing.join] at hstep
    split at hstep
    · rename_i hended
      cases hstep
      obtain ⟨-, hthread⟩ := hended
      cases hthread
      simp [Requestable, WillReset, firstRound]
    · cases hstep
  | thread fails =>
    obtain ⟨⟨after, event⟩, hadvance, rfl⟩ := Option.map_eq_some_iff.mp hstep
    cases thread with
    | none => cases hadvance
    | some place =>
      cases place with
      | accepting =>
        cases hadvance
        have henabled := (h (.inl rfl)).1
        cases henabled
        cases fails <;> simp [Requestable, WillReset, firstRound]
      | ended => cases hadvance
      | _ =>
        cases hadvance
        simp [Requestable, WillReset, firstRound]

/-- Pairing can always be asked for again exactly when it is asked for only once
and its thread does not fail. -/
theorem requestable_iff {events : List PairingEvent} {finish : Pairing}
    (hexec : pairingMachine.exec {} events = some finish) :
    Requestable finish ↔ pairingMachine.Guarded firstRound {} events := by
  have hstart : Consistent {} := by simp [Consistent, WillReset]
  have hclear : ¬ ¬ Requestable {} := by simp [Requestable]
  rw [← Machine.exec_clear_iff (fun pairing => ¬ Requestable pairing) Consistent Machine.anyEvent _
    hstart hclear (Machine.guarded_anyEvent _ _) hexec, not_not]
  intro state event next hconsistent _ hstep
  rw [not_not, not_not]
  exact ⟨consistent_step hconsistent hstep, requestable_step hconsistent hstep⟩

def oneRound : List PairingEvent := [.enablePairing, .thread false, .thread false, .thread false]

theorem requestable_after_pairing : ∃ finish, pairingMachine.exec {} oneRound = some finish ∧
    Requestable finish := by
  have hguarded : pairingMachine.Guarded firstRound {} oneRound := by decide
  obtain ⟨finish, hexec⟩ : ∃ finish, pairingMachine.exec {} oneRound = some finish := ⟨_, rfl⟩
  exact ⟨finish, hexec, (requestable_iff hexec).mpr hguarded⟩

/-- The second round joins the thread of the first and starts none. -/
theorem unrequestable_after_second_round : ∃ finish,
    pairingMachine.exec {} (oneRound ++ [.enablePairing, .joined]) = some finish ∧
      ¬ Requestable finish := by
  refine ⟨_, rfl, fun hrequestable => ?_⟩
  rcases hrequestable rfl with hreset | hreset <;> cases hreset

/-! The LED. -/

inductive DisplayEvent
  | emit (event : ServiceEvent)
  | get (event : Option ServiceEvent)
  deriving DecidableEq

def displayMachine : Machine Display DisplayEvent where
  step display
    | .emit event => some (display.emit event)
    | .get event => display.get event

/-- Once nothing is pending, the LED shows what was emitted last. -/
def Reflects (display : Display) : Prop :=
  display.events = ∅ → ∀ event ∈ display.last, display.led = some (ledFor event)

def drains (_ : Display) (event : DisplayEvent) : Prop := ∃ picked, event = .get picked

/-- So it does after every way to drain what is pending. -/
def ReflectsWhenDrained (display : Display) : Prop :=
  ∀ finish, displayMachine.Reach drains display finish → Reflects finish

/-- An event is emitted while nothing is pending that shows differently. -/
def showsAlike (display : Display) : DisplayEvent → Prop
  | .emit event => ∀ pending ∈ display.events, ledFor pending = ledFor event
  | .get _ => True

instance (display : Display) (event : DisplayEvent) : Decidable (showsAlike display event) := by
  cases event <;> unfold showsAlike <;> infer_instance

/-- Everything pending shows as the last event does, and with nothing pending so
does the LED. -/
def Agrees (display : Display) : Prop :=
  ∀ event ∈ display.last, (∀ pending ∈ display.events, ledFor pending = ledFor event) ∧
    (display.events = ∅ → display.led = some (ledFor event))

theorem get_eq_some {display next : Display} {picked : Option ServiceEvent}
    (h : display.get picked = some next) :
    next.last = display.last ∧ ((picked = none ∧ next = display) ∨
      ∃ event ∈ display.events, picked = some event ∧ next.led = some (ledFor event) ∧
        next.events = display.events.erase event) := by
  cases picked with
  | none =>
    simp only [Display.get] at h
    split at h <;> cases h
    exact ⟨rfl, .inl ⟨rfl, rfl⟩⟩
  | some event =>
    simp only [Display.get] at h
    split at h <;> cases h
    rename_i hmem
    exact ⟨rfl, .inr ⟨event, hmem, rfl, rfl, rfl⟩⟩

theorem Agrees.get {display next : Display} {picked : Option ServiceEvent} (h : Agrees display)
    (hget : display.get picked = some next) : Agrees next := by
  obtain ⟨hlast, ⟨-, rfl⟩ | ⟨event, hmem, -, hled, hevents⟩⟩ := get_eq_some hget
  · exact h
  · intro last hmemLast
    rw [hlast] at hmemLast
    obtain ⟨hpending, -⟩ := h last hmemLast
    refine ⟨fun pending hrest => ?_, fun _ => ?_⟩
    · rw [hevents] at hrest
      exact hpending pending (Finset.mem_of_mem_erase hrest)
    · rw [hled, hpending event hmem]

theorem exists_drain {display : Display} {event : ServiceEvent} (hmem : event ∈ display.events) :
    ∃ finish, displayMachine.Reach drains display finish ∧ finish.events = ∅ ∧
      finish.led = some (ledFor event) ∧ finish.last = display.last := by
  induction hcard : display.events.card generalizing display with
  | zero =>
    rw [Finset.card_eq_zero] at hcard
    rw [hcard] at hmem
    exact absurd hmem (Finset.notMem_empty _)
  | succ count ih =>
    have htake : ∀ other ∈ display.events, ∃ next, displayMachine.step display (.get (some other)) =
        some next ∧ next.events = display.events.erase other ∧ next.led = some (ledFor other) ∧
          next.last = display.last := fun other hother => ⟨_, if_pos hother, rfl, rfl, rfl⟩
    by_cases hrest : display.events.erase event = ∅
    · obtain ⟨next, hnext, hevents, hled, hlast⟩ := htake event hmem
      exact ⟨next, .one hnext ⟨_, rfl⟩, hevents.trans hrest, hled, hlast⟩
    · obtain ⟨other, hother⟩ := Finset.nonempty_iff_ne_empty.mpr hrest
      obtain ⟨hne, hotherMem⟩ := Finset.mem_erase.mp hother
      obtain ⟨next, hnext, hevents, -, hlast⟩ := htake other hotherMem
      have hstill : event ∈ next.events := by
        rw [hevents]
        exact Finset.mem_erase.mpr ⟨hne.symm, hmem⟩
      have hless : next.events.card = count := by
        rw [hevents, Finset.card_erase_of_mem hotherMem, hcard, Nat.add_sub_cancel]
      obtain ⟨finish, hreach, hempty, hled, hsame⟩ := ih hstill hless
      exact ⟨finish, .head hnext ⟨_, rfl⟩ hreach, hempty, hled, hsame.trans hlast⟩

theorem reflectsWhenDrained_iff (display : Display) :
    ReflectsWhenDrained display ↔ Agrees display := by
  constructor
  · intro h event hlast
    refine ⟨fun pending hpending => ?_, fun hempty => h display .refl hempty event hlast⟩
    obtain ⟨finish, hreach, hempty, hled, hsame⟩ := exists_drain hpending
    have hshown := h finish hreach hempty event (hsame ▸ hlast)
    rw [hled] at hshown
    exact Option.some.inj hshown
  · intro h finish hreach
    have hagrees : Agrees finish := by
      apply hreach.invariant Agrees h
      rintro state event next hstate ⟨picked, rfl⟩ hstep
      exact hstate.get hstep
    exact fun hempty event hlast => (hagrees event hlast).2 hempty

/-- The LED ends at the last event, whichever way the set is emptied, exactly
when no event is emitted beside a pending one that shows differently. -/
theorem reflects_throughout_iff {events : List DisplayEvent} {finish : Display}
    (hexec : displayMachine.exec {} events = some finish) :
    displayMachine.Throughout ReflectsWhenDrained {} events ↔
      displayMachine.Guarded showsAlike {} events := by
  apply Machine.throughout_iff ReflectsWhenDrained (fun _ => True) (fun _ _ _ _ _ _ => trivial) _
    trivial _ hexec
  · intro display event next _ hbefore hstep
    rw [reflectsWhenDrained_iff] at hbefore ⊢
    cases event with
    | emit event =>
      cases hstep
      constructor
      · intro hagrees pending hpending
        exact (hagrees event rfl).1 pending (Finset.mem_insert_of_mem hpending)
      · rintro hsame last ⟨⟩
        refine ⟨fun pending hpending => ?_, fun hempty => ?_⟩
        · rcases Finset.mem_insert.mp hpending with rfl | hold
          · rfl
          · exact hsame pending hold
        · exact absurd hempty (Finset.insert_ne_empty _ _)
    | get picked => exact iff_of_true (hbefore.get hstep) trivial
  · rw [reflectsWhenDrained_iff]
    rintro event ⟨⟩

def oneConnection : List DisplayEvent := [.emit .startService, .get (some .startService),
  .emit .connected, .get (some .connected), .emit .disconnected, .emit .finishPairing,
  .get (some .finishPairing), .get (some .disconnected), .get none]

theorem reflects_throughout_connection :
    displayMachine.Throughout ReflectsWhenDrained {} oneConnection := by
  have hguarded : displayMachine.Guarded showsAlike {} oneConnection := by decide
  obtain ⟨finish, hexec⟩ : ∃ finish, displayMachine.exec {} oneConnection = some finish := ⟨_, rfl⟩
  exact (reflects_throughout_iff hexec).mpr hguarded

/-- The connection closes before the core loop has seen it open. -/
theorem led_connected_after_disconnect : ∃ finish, displayMachine.exec {} [.emit .connected,
    .emit .disconnected, .get (some .disconnected), .get (some .connected)] = some finish ∧
      ¬ Reflects finish := by
  refine ⟨_, rfl, fun hreflects => ?_⟩
  have hled := hreflects rfl .disconnected rfl
  cases hled

/-! The threads of the service and the core loop do nothing else to the two. -/

theorem startService_eq_some {world next : World} (h : world.startService = some next) :
    next.pairing = world.pairing ∧ next.display = world.display := by
  unfold World.startService at h
  split at h
  · cases h
    exact ⟨rfl, rfl⟩
  · obtain ⟨service, -, rfl⟩ := Option.map_eq_some_iff.mp h
    exact ⟨rfl, rfl⟩

theorem handleButton_eq_some {world next : World} {button : ButtonState}
    (h : world.handleButton button = some next) :
    (next.pairing = world.pairing ∧ next.display = world.display) ∨
      (world.pairing.isParingProcessEnabled = false ∧
        next.pairing = world.pairing.enablePairing ∧
          next.display = world.display.emit .startPairing) := by
  cases button with
  | nothing =>
    cases h
    exact .inl ⟨rfl, rfl⟩
  | click => exact .inl (startService_eq_some h)
  | longPress =>
    simp only [World.handleButton] at h
    split at h
    · cases h
      exact .inl ⟨rfl, rfl⟩
    · rename_i hdown
      obtain ⟨started, hstarted, rfl⟩ := Option.map_eq_some_iff.mp h
      obtain ⟨hpairing, hdisplay⟩ := startService_eq_some hstarted
      refine .inr ⟨by simpa using hdown, ?_, ?_⟩
      · exact congrArg Pairing.enablePairing hpairing
      · exact congrArg (Display.emit · .startPairing) hdisplay

theorem reach_emit (display : Display) (event : ServiceEvent) :
    displayMachine.Reach Machine.anyEvent display (display.emit event) := by
  have hstep : displayMachine.step display (.emit event) = some (display.emit event) := rfl
  exact .one hstep trivial

theorem display_emit (world : World) (event : Option ServiceEvent) :
    displayMachine.Reach Machine.anyEvent world.display (world.emit event).display := by
  cases event with
  | none => exact .refl
  | some event => exact reach_emit world.display event

theorem display_reach {world : World} (run : machine.Reach Machine.anyEvent {} world) :
    displayMachine.Reach Machine.anyEvent {} world.display := by
  apply run.invariant fun world => displayMachine.Reach Machine.anyEvent {} world.display
  · exact .refl
  intro world event next hdisplay _ hstep
  apply hdisplay.trans
  cases moves_of_step hstep with
  | handles _ hhandle =>
    rcases handleButton_eq_some hhandle with ⟨-, hsame⟩ | ⟨-, -, hemit⟩
    · simp only [hsame]
      exact .refl
    · simp only [hemit]
      exact reach_emit world.display .startPairing
  | raises | joins => exact .refl
  | @gets picked fails display _ hget =>
    have htake : displayMachine.step world.display (.get picked) = some display := hget
    exact .one htake trivial
  | service | pairing => exact display_emit world _

@[simp] theorem pairing_emit (world : World) (event : Option ServiceEvent) :
    (world.emit event).pairing = world.pairing := by
  cases event <;> rfl

theorem pairing_reach {world : World} (run : machine.Reach Machine.anyEvent {} world) :
    pairingMachine.Reach Machine.anyEvent {} world.pairing ∧
      (world.pairing.joining = true → world.core = .enablingPairing) := by
  apply run.invariant fun world => pairingMachine.Reach Machine.anyEvent {} world.pairing ∧
    (world.pairing.joining = true → world.core = .enablingPairing)
  · exact ⟨.refl, fun hjoining => by cases hjoining⟩
  rintro world event next ⟨hpairing, hjoining⟩ - hstep
  have hlater : ∀ {pairing : Pairing} {event : PairingEvent},
      pairingStep world.pairing event = some pairing →
      pairingMachine.Reach Machine.anyEvent {} pairing := fun h => hpairing.step trivial h
  cases moves_of_step hstep with
  | handles hcore hhandle =>
    have hfree : world.pairing.joining = false := by
      by_contra hbusy
      rw [hjoining (by simpa using hbusy)] at hcore
      cases hcore
    refine ⟨?_, fun hbusy => if_pos hbusy⟩
    rcases handleButton_eq_some hhandle with ⟨hsame, -⟩ | ⟨hdown, hcalled, -⟩
    · simp only [hsame]
      exact hpairing
    · simp only [hcalled]
      have hcall : pairingStep world.pairing .enablePairing =
          some world.pairing.enablePairing := if_pos ⟨hdown, hfree⟩
      exact hlater hcall
  | raises hcore | gets hcore =>
    refine ⟨hpairing, fun hbusy => ?_⟩
    rw [hjoining hbusy] at hcore
    cases hcore
  | @joins pairing _ hjoin =>
    have hstepped : pairingStep world.pairing .joined = some pairing := hjoin
    refine ⟨hlater hstepped, ?_⟩
    unfold Pairing.join at hjoin
    split at hjoin <;> cases hjoin
    exact fun hbusy => by cases hbusy
  | service =>
    simp only [pairing_emit, core_emit]
    exact ⟨hpairing, hjoining⟩
  | @pairing fails pairing emitted hadvance =>
    have hstepped : pairingStep world.pairing (.thread fails) = some pairing := by
      simp only [pairingStep, hadvance, Option.map_some]
    refine ⟨hlater hstepped, fun hbusy => ?_⟩
    have hkept : pairing.joining = world.pairing.joining := by
      unfold Pairing.advance at hadvance
      split at hadvance <;> cases hadvance <;> rfl
    rw [core_emit]
    exact hjoining (hkept ▸ hbusy)

end VacuumCleaner.Core.BluetoothEvents
