import VacuumCleaner.A1.Device
import VacuumCleaner.Lib.Cadence
import Mathlib.Data.List.Infix

/-! The five LEDs of A1: what instructions have made of their states, and what
the pins show of it, between ticks and while one is under way. -/
namespace VacuumCleaner.A1

open Lib Lib.Cadence Lib.Numeral InstructionHandler

def blinkingDelay : UInt32 := 300

/-- The pin of an LED, and the time of its last change while it blinks. -/
structure Led where
  time : UInt32 := 0
  pinIsHigh : Bool := false
  deriving DecidableEq, Repr

def Led.tick (state : LedState) (now later : UInt32) (led : Led) : Led :=
  match state with
  | .on => { led with pinIsHigh := true }
  | .off => { led with pinIsHigh := false }
  | .blinking =>
    if now - led.time > blinkingDelay then { time := later, pinIsHigh := !led.pinIsHigh } else led

structure Panel (F : Type) where
  device : Device F
  led : LedName → Led := fun _ => {}

namespace Panel

/-- What comes to A1, and the part of `propagandate_tick_signal` that ticks the
LEDs, each at its own readings of the clock. -/
inductive Event
  | device (event : Device.Event)
  | tick (polls : LedName → Poll)

variable {F : Type} (fpu : FloatUnit) (toFloat : Scanned → F)

def state (name : LedName) (panel : Panel F) : LedState := panel.device.firmware.leds name

def tickLed (polls : LedName → Poll) (panel : Panel F) (name : LedName) : Panel F :=
  { panel with
    led := Function.update panel.led name ((panel.led name).tick (panel.state name)
      (millis (polls name).now) (millis (polls name).later)) }

def tickLeds (polls : LedName → Poll) (names : List LedName) (panel : Panel F) : Panel F :=
  names.foldl (tickLed polls) panel

/-- The order in which `propagandate_tick_signal` ticks the LEDs. -/
def ledOrder : List LedName := [.wifi, .error, .status, .bluetoothRed, .bluetoothGreen]

def ticked (polls : LedName → Poll) (panel : Panel F) : Panel F := panel.tickLeds polls ledOrder

def step (panel : Panel F) : Event → Option (Panel F)
  | .device event => (panel.device.step fpu toFloat event).map fun device => { panel with device }
  | .tick polls => some (panel.ticked polls)

def machine : Machine (Panel F) Event := ⟨step fpu toFloat⟩

def start (settings : PidSettings F) : Panel F := ⟨.start settings, fun _ => {}⟩

/-! Each LED is ticked on its own. -/

section Ticks

variable {polls : LedName → Poll} {panel : Panel F}

@[simp] theorem device_tickLeds (names : List LedName) :
    (panel.tickLeds polls names).device = panel.device := by
  induction names generalizing panel with
  | nil => rfl
  | cons name names ih => exact ih

theorem led_tickLeds {names : List LedName} (hnodup : names.Nodup) (name : LedName) :
    (panel.tickLeds polls names).led name =
      if name ∈ names then (panel.led name).tick (panel.state name) (millis (polls name).now)
        (millis (polls name).later)
      else panel.led name := by
  induction names generalizing panel with
  | nil => rfl
  | cons first names ih =>
    obtain ⟨hfirst, hnodup⟩ := List.nodup_cons.mp hnodup
    have hcons : panel.tickLeds polls (first :: names) =
        (panel.tickLed polls first).tickLeds polls names := rfl
    rw [hcons, ih hnodup]
    by_cases hsame : name = first
    · subst hsame
      rw [if_neg hfirst, if_pos List.mem_cons_self]
      exact Function.update_self ..
    · have hother : (panel.tickLed polls first).led name = panel.led name :=
        Function.update_of_ne hsame ..
      rw [hother]
      simp only [List.mem_cons, hsame, false_or]
      rfl

theorem led_ticked (name : LedName) : (panel.ticked polls).led name =
    (panel.led name).tick (panel.state name) (millis (polls name).now)
      (millis (polls name).later) := by
  have hmember : name ∈ ledOrder := by cases name <;> decide
  rw [ticked, led_tickLeds (by decide), if_pos hmember]

@[simp] theorem state_ticked (name : LedName) : (panel.ticked polls).state name = panel.state name :=
  congrArg (fun device : Device F => device.firmware.leds name) (device_tickLeds ledOrder)

end Ticks

/-! The states of the LEDs. -/

section States

variable {around : Surroundings} {id : RequestId} {input : List Char} {firmware : Firmware F}

/-- The colours of the Bluetooth button's LED exclude each other. -/
def OneColour (leds : LedName → LedState) : Prop :=
  leds .bluetoothRed = .off ∨ leds .bluetoothGreen = .off

theorem leds_handleLed_of_ne {name other : LedName} (hne : other ≠ name) :
    (firmware.handleLed id input name).1.leds other = firmware.leds other := by
  unfold Firmware.handleLed
  split
  · exact Function.update_of_ne hne _ _
  · exact Function.update_of_ne hne _ _
  · exact Function.update_of_ne hne _ _
  · rfl

/-- Both are switched off before one of them is switched. -/
theorem oneColour_onBluetoothLedState :
    OneColour (firmware.onBluetoothLedState id input).1.leds := by
  have hred : ((firmware.setLed .bluetoothGreen .off).setLed .bluetoothRed .off).leds
      .bluetoothRed = .off := by simp [Firmware.setLed]
  have hgreen : ((firmware.setLed .bluetoothGreen .off).setLed .bluetoothRed .off).leds
      .bluetoothGreen = .off := by simp [Firmware.setLed]
  unfold Firmware.onBluetoothLedState
  dsimp only
  split
  · exact .inr ((leds_handleLed_of_ne (by decide)).trans hgreen)
  · exact .inl ((leds_handleLed_of_ne (by decide)).trans hred)
  · exact .inl hred

theorem leds_acted (outcome : Outcome) : (firmware.acted id outcome).1.leds = firmware.leds := by
  cases outcome <;> rfl

theorem leds_powered (outcome : Power.Outcome) :
    (firmware.powered id outcome).1.leds = firmware.leds := by
  obtain ⟨power, commands, errorCode⟩ := outcome
  cases errorCode <;> rfl

theorem leds_onSetDataTime : (firmware.onSetDataTime around id input).1.leds = firmware.leds := by
  unfold Firmware.onSetDataTime
  dsimp only
  split
  · rfl
  · rfl

theorem leds_onGetTempAndHumid : (firmware.onGetTempAndHumid around id).1.leds = firmware.leds := by
  unfold Firmware.onGetTempAndHumid
  split
  · rfl
  · rfl

theorem oneColour_callback (name : Callback) (h : OneColour firmware.leds) :
    OneColour (firmware.callback fpu toFloat around id input name).1.leds := by
  have hsame : ∀ {next : Firmware F}, next.leds = firmware.leds → OneColour next.leds :=
    fun hleds => hleds ▸ h
  have hother : ∀ led : LedName, led ≠ .bluetoothRed → led ≠ .bluetoothGreen →
      OneColour (firmware.handleLed id input led).1.leds := fun led hred hgreen => by
    unfold OneColour
    rw [leds_handleLed_of_ne hred.symm, leds_handleLed_of_ne hgreen.symm]
    exact h
  cases name with
  | onLedWifi => exact hother .wifi (by decide) (by decide)
  | onLedErr => exact hother .error (by decide) (by decide)
  | onLedSt => exact hother .status (by decide) (by decide)
  | onBluetoothLedState => exact oneColour_onBluetoothLedState
  | onGetCurrentTime => exact h
  | onSetDataTime => exact hsame leds_onSetDataTime
  | onGetTempAndHumid => exact hsame leds_onGetTempAndHumid
  | onSetPidSettings => exact h
  | onHasBeenInitialized | onSetShuttingDownState | onCutOffThePower
  | onSetErrorStateInPowerController | onSetBootingUpState | onSetTimerToTurnOff =>
    exact hsame (leds_powered _)
  | onBeep | onMove | onTurn | onVacuumMotor | onLeftBrushMotor | onRightBrushMotor
  | onMainBrushMotor | onWalk | onRotate => exact hsame (leds_acted _)

end States

variable {fpu toFloat}

theorem oneColour_of_reach {settings : PidSettings F} {panel : Panel F}
    (hrun : (machine fpu toFloat).Reach Machine.anyEvent (start settings) panel) :
    OneColour panel.state := by
  refine hrun.invariant (fun panel => OneColour panel.state) (.inl rfl) ?_
  intro panel event next h _ hstep
  cases event with
  | tick polls =>
    cases hstep
    exact h
  | device event =>
    obtain ⟨device, hdevice, rfl⟩ := Option.map_eq_some_iff.mp hstep
    cases event with
    | instruction line around =>
      unfold Device.step at hdevice
      dsimp only at hdevice
      split at hdevice
      · cases hdevice
        exact oneColour_callback fpu toFloat _ h
      · cases hdevice
        exact h
    | tick tick =>
      cases hdevice
      exact h
    | power now answer =>
      cases hdevice
      exact h

/-- Nothing but the line counts for the instructions below. -/
def silence : Surroundings := ⟨fun _ => [], 0, id, none⟩

/-- The pin shows the state of an LED that does not blink. -/
def Shows (panel : Panel F) (name : LedName) : Prop :=
  (panel.state name = .on → (panel.led name).pinIsHigh = true) ∧
    (panel.state name = .off → (panel.led name).pinIsHigh = false)

def BothColours (panel : Panel F) : Prop :=
  (panel.led .bluetoothRed).pinIsHigh = true ∧ (panel.led .bluetoothGreen).pinIsHigh = true

def Event.isInstruction : Event → Bool
  | .device (.instruction _ _) => true
  | .device (.tick _) | .device (.power _ _) | .tick _ => false

/-- What the pins of a panel show. -/
structure ShowsStates (fpu : FloatUnit) (toFloat : Scanned → F) (panel : Panel F) : Prop where
  /-- Between ticks the Bluetooth button shows one colour at most. -/
  oneColour : ¬ panel.BothColours
  /-- From a tick on the LEDs show their states until an instruction comes. -/
  settled : ∀ polls quiet next, (∀ event ∈ quiet, Event.isInstruction event = false) →
    (machine fpu toFloat).exec (panel.ticked polls) quiet = some next → ∀ name, next.Shows name
  /-- Inside a tick the green pin is written right behind the red one. -/
  inside : ∀ polls done rest, done ++ rest = ledOrder → BothColours (panel.tickLeds polls done) →
    done = [.wifi, .error, .status, .bluetoothRed]

theorem shows_ticked (polls : LedName → Poll) (panel : Panel F) (name : LedName) :
    (panel.ticked polls).Shows name := by
  unfold Shows
  rw [state_ticked, led_ticked]
  constructor
  · intro hstate
    rw [hstate]
    rfl
  · intro hstate
    rw [hstate]
    rfl

theorem not_bothColours_ticked {panel : Panel F} (h : OneColour panel.state)
    (polls : LedName → Poll) : ¬ (panel.ticked polls).BothColours := by
  rintro ⟨hred, hgreen⟩
  have hshows := shows_ticked polls panel
  simp only [Shows, state_ticked] at hshows
  rcases h with hoff | hoff
  · exact absurd hred (Bool.eq_false_iff.mp ((hshows .bluetoothRed).2 hoff))
  · exact absurd hgreen (Bool.eq_false_iff.mp ((hshows .bluetoothGreen).2 hoff))

theorem led_step_device {panel next : Panel F} {event : Device.Event}
    (h : panel.step fpu toFloat (.device event) = some next) : next.led = panel.led := by
  obtain ⟨device, -, rfl⟩ := Option.map_eq_some_iff.mp h
  rfl

theorem not_bothColours_of_reach {settings : PidSettings F} {panel : Panel F}
    (hrun : (machine fpu toFloat).Reach Machine.anyEvent (start settings) panel) :
    ¬ panel.BothColours := by
  induction hrun with
  | refl => exact fun hboth => Bool.false_ne_true hboth.1
  | @step panel next event hbefore _ hstep ih =>
    cases event with
    | tick polls =>
      cases hstep
      exact not_bothColours_ticked (oneColour_of_reach hbefore) polls
    | device event =>
      unfold BothColours
      rw [led_step_device hstep]
      exact ih

theorem state_of_quiet {panel next : Panel F} {event : Event}
    (hquiet : event.isInstruction = false) (h : panel.step fpu toFloat event = some next)
    (name : LedName) : next.state name = panel.state name := by
  cases event with
  | tick polls =>
    cases h
    exact state_ticked name
  | device event =>
    cases event with
    | instruction line around => cases hquiet
    | tick tick =>
      cases h
      rfl
    | power now answer =>
      cases h
      rfl

theorem shows_of_quiet {panel next : Panel F} {events : List Event}
    (hquiet : ∀ event ∈ events, event.isInstruction = false)
    (hexec : (machine fpu toFloat).exec panel events = some next)
    (h : ∀ name, panel.Shows name) : ∀ name, next.Shows name := by
  induction events generalizing panel with
  | nil =>
    cases hexec
    exact h
  | cons event events ih =>
    rw [Machine.exec_cons] at hexec
    obtain ⟨between, hstep, hrest⟩ := Option.bind_eq_some_iff.mp hexec
    refine ih (fun other hother => hquiet other (List.mem_cons_of_mem event hother)) hrest ?_
    intro name
    cases event with
    | tick polls =>
      cases hstep
      exact shows_ticked polls panel name
    | device device =>
      have hstate := state_of_quiet (hquiet _ List.mem_cons_self) hstep name
      unfold Shows
      rw [hstate, led_step_device hstep]
      exact h name

/-- However instructions and ticks follow each other, the pins show the states. -/
theorem shows_states {settings : PidSettings F} {panel : Panel F}
    (hrun : (machine fpu toFloat).Reach Machine.anyEvent (start settings) panel) :
    ShowsStates fpu toFloat panel where
  oneColour := not_bothColours_of_reach hrun
  settled polls quiet next hquiet hexec := shows_of_quiet hquiet hexec (shows_ticked polls panel)
  inside polls done rest hdone hboth := by
    have hbehind := not_bothColours_ticked (oneColour_of_reach hrun) polls
    -- Without its two LEDs a tick leaves the button as it was.
    have hearly : ∀ early : List LedName, early.Nodup → .bluetoothRed ∉ early →
        .bluetoothGreen ∉ early → ¬ BothColours (panel.tickLeds polls early) := by
      intro early hnodup hred hgreen
      unfold BothColours
      rw [led_tickLeds hnodup, led_tickLeds hnodup, if_neg hred, if_neg hgreen]
      exact not_bothColours_of_reach hrun
    have hinit : done ∈ ledOrder.inits := (List.mem_inits done ledOrder).mpr ⟨rest, hdone⟩
    simp only [ledOrder, List.inits, List.map_cons, List.map_nil, List.mem_cons,
      List.not_mem_nil, or_false] at hinit
    rcases hinit with rfl | rfl | rfl | rfl | rfl | rfl
    case inr.inr.inr.inr.inl => rfl
    case inr.inr.inr.inr.inr => exact absurd hboth hbehind
    all_goals exact absurd hboth (hearly _ (by decide) (by decide) (by decide))

/-- The Bluetooth button goes from green to red, and shows both on the way. -/
theorem shows_states_red : ∃ panel : Panel Scanned, panel.state .bluetoothRed = .on ∧
    BothColours (panel.tickLeds (fun _ => ⟨40, 40⟩) [.wifi, .error, .status, .bluetoothRed]) ∧
    ShowsStates Answers.noFpu id panel := by
  let events : List Event := [.device (.instruction "#17:0001:H;G\r\n".toList silence),
    .tick fun _ => ⟨20, 20⟩, .device (.instruction "#17:0002:H;R\r\n".toList silence)]
  obtain ⟨panel, hexec, hred, hboth⟩ : ∃ panel,
      (machine Answers.noFpu id).exec (start Answers.noGains) events = some panel ∧
        panel.state .bluetoothRed = .on ∧ BothColours (panel.tickLeds (fun _ => ⟨40, 40⟩)
          [.wifi, .error, .status, .bluetoothRed]) := ⟨_, rfl, rfl, rfl, rfl⟩
  exact ⟨panel, hred, hboth, shows_states (Machine.reach_of_exec hexec)⟩

/-! An LED that blinks. -/

/-- The readings of the clock by which an LED is ticked. -/
def pollsOf (name : LedName) (events : List Event) : List Poll :=
  events.filterMap fun
    | .tick polls => some (polls name)
    | .device _ => none

/-- The ticks that turn the pin of an LED. -/
def turns (fpu : FloatUnit) (toFloat : Scanned → F) (name : LedName) (panel : Panel F) :
    List Event → List Poll
  | [] => []
  | event :: events =>
    match panel.step fpu toFloat event with
    | none => []
    | some next =>
      let rest := turns fpu toFloat name next events
      match event with
      | .tick polls =>
        if (next.led name).pinIsHigh ≠ (panel.led name).pinIsHigh then polls name :: rest else rest
      | .device _ => rest

/-- No instruction among the events ends the blinking. -/
def Blinks (fpu : FloatUnit) (toFloat : Scanned → F) (name : LedName) (panel : Panel F) :
    List Event → Prop
  | [] => True
  | event :: events => panel.state name = .blinking ∧
      ∀ next, panel.step fpu toFloat event = some next → Blinks fpu toFloat name next events

theorem exists_step (panel : Panel F) (event : Event) :
    ∃ next, panel.step fpu toFloat event = some next := by
  cases event with
  | tick polls => exact ⟨_, rfl⟩
  | device event =>
    cases event with
    | instruction line around =>
      unfold step Device.step
      dsimp only
      split
      · exact ⟨_, rfl⟩
      · exact ⟨_, rfl⟩
    | tick tick => exact ⟨_, rfl⟩
    | power now answer => exact ⟨_, rfl⟩

theorem tick_blinking (poll : Poll) (led : Led) :
    led.tick .blinking (millis poll.now) (millis poll.later) =
      if millis poll.now - led.time < blinkingDelay + 1 then led
      else { time := millis poll.later, pinIsHigh := !led.pinIsHigh } := by
  have hdue : millis poll.now - led.time < blinkingDelay + 1 ↔
      ¬ millis poll.now - led.time > blinkingDelay := by
    rw [gt_iff_lt, UInt32.lt_iff_toNat_lt, UInt32.lt_iff_toNat_lt]
    have hdelay : blinkingDelay.toNat = 300 := rfl
    have hnext : (blinkingDelay + 1).toNat = 301 := rfl
    omega
  unfold Led.tick
  dsimp only
  by_cases hrunning : millis poll.now - led.time < blinkingDelay + 1
  · rw [if_pos hrunning, if_neg (hdue.mp hrunning)]
  · rw [if_neg hrunning, if_pos (not_not.mp (mt hdue.mpr hrunning))]

theorem turns_eq {name : LedName} {events : List Event} {panel : Panel F}
    (hblinks : Blinks fpu toFloat name panel events) :
    turns fpu toFloat name panel events =
      firedMillis (blinkingDelay + 1) (panel.led name).time (pollsOf name events) := by
  induction events generalizing panel with
  | nil => rfl
  | cons event events ih =>
    obtain ⟨hstate, hnext⟩ := hblinks
    obtain ⟨next, hstep⟩ : ∃ next, panel.step fpu toFloat event = some next :=
      exists_step panel event
    have hrest := ih (hnext next hstep)
    cases event with
    | device event =>
      obtain ⟨device, -, rfl⟩ := Option.map_eq_some_iff.mp hstep
      rw [turns, hstep]
      exact hrest
    | tick polls =>
      have hled : next.led name = (panel.led name).tick .blinking (millis (polls name).now)
          (millis (polls name).later) := by
        cases hstep
        rw [led_ticked, hstate]
      have hpolls : pollsOf name (.tick polls :: events) = polls name :: pollsOf name events := rfl
      rw [turns, hstep, hpolls, firedMillis]
      dsimp only
      rw [hrest, hled, tick_blinking]
      split
      · rw [if_neg (by simp)]
      · rw [if_pos (by simp)]

theorem time_tick (state : LedState) (now later : UInt32) (led : Led) :
    (led.tick state now later).time = led.time ∨ (led.tick state now later).time = later := by
  cases state with
  | on => exact .inl rfl
  | off => exact .inl rfl
  | blinking =>
    unfold Led.tick
    dsimp only
    split
    · exact .inr rfl
    · exact .inl rfl

theorem exists_time {name : LedName} {time : Nat} {before panel : Panel F} {events : List Event}
    (hexec : (machine fpu toFloat).exec before events = some panel)
    (hevents : ∀ poll ∈ pollsOf name events, poll.later ≤ time)
    (hstart : ∃ set ≤ time, millis set = (before.led name).time) :
    ∃ set ≤ time, millis set = (panel.led name).time := by
  induction events generalizing before with
  | nil =>
    cases hexec
    exact hstart
  | cons event events ih =>
    rw [Machine.exec_cons] at hexec
    obtain ⟨next, hstep, hrest⟩ := Option.bind_eq_some_iff.mp hexec
    cases event with
    | device event =>
      obtain ⟨device, -, rfl⟩ := Option.map_eq_some_iff.mp hstep
      exact ih hrest hevents hstart
    | tick polls =>
      cases hstep
      obtain ⟨hlater, hevents⟩ := List.forall_mem_cons.mp hevents
      refine ih hrest hevents ?_
      rw [led_ticked]
      rcases time_tick (before.state name) (millis (polls name).now) (millis (polls name).later)
        (before.led name) with hsame | hnew
      · obtain ⟨set, hset, hmillis⟩ := hstart
        exact ⟨set, hset, hmillis.trans hsame.symm⟩
      · exact ⟨(polls name).later, hlater, hnew.symm⟩

/-- However long an LED has been blinking or not: from any time on, as long as no
instruction ends it, its pin turns with the first tick more than 300 ms behind
the last turn, and that again and again. -/
theorem blinks_evenly {settings : PidSettings F} {name : LedName} {time gap : Nat}
    {panel : Panel F} {before events : List Event}
    (hexec : (machine fpu toFloat).exec (start settings) before = some panel)
    (hbefore : ∀ poll ∈ pollsOf name before, poll.later ≤ time)
    (hblinks : Blinks fpu toFloat name panel events)
    (hpaced : Paced gap ⟨time, time⟩ (pollsOf name events)) (hgap : 301 + gap ≤ 2 ^ 32) :
    let made := turns fpu toFloat name panel events
    Spread 301 made ∧ (∃ since ≤ time + gap, made = fired 301 since (pollsOf name events)) ∧
      ∀ count, ∀ last ∈ pollsOf name events, time + gap + count * (301 + gap) ≤ last.now →
        count ≤ made.length := by
  intro made
  obtain ⟨set, hset, htime⟩ := exists_time hexec hbefore ⟨0, Nat.zero_le _, rfl⟩
  have hpos : 0 < (blinkingDelay + 1).toNat := by decide
  obtain ⟨since, hsince, hfired⟩ := exists_fired hpos hpaced hgap hset
  have hmade : made = fired 301 since (pollsOf name events) := by
    unfold made
    rw [turns_eq hblinks, ← htime, hfired _ (List.prefix_refl _)]
    rfl
  rw [hmade]
  refine ⟨spread_fired _ _ _, ⟨since, hsince, rfl⟩, fun count last hlast hlate => ?_⟩
  exact le_length_fired (Nat.succ_pos 300) hpaced hsince hlast hlate

/-- The Wi-Fi LED over three ticks, of which the last two turn it. -/
theorem blinks_evenly_wifi : ∃ panel : Panel Scanned,
    let events : List Event := [.tick fun _ => ⟨200, 200⟩, .tick fun _ => ⟨400, 410⟩,
      .tick fun _ => ⟨730, 740⟩]
    let made := turns Answers.noFpu id .wifi panel events
    Spread 301 made ∧
      (∃ since ≤ 50 + 400, made = fired 301 since (pollsOf .wifi events)) ∧
      ∀ count, ∀ last ∈ pollsOf .wifi events, 50 + 400 + count * (301 + 400) ≤ last.now →
        count ≤ made.length := by
  let before : List Event := [.device (.instruction "#02:0001:B\r\n".toList silence)]
  obtain ⟨panel, hexec, hstate⟩ : ∃ panel,
      (machine Answers.noFpu id).exec (start Answers.noGains) before = some panel ∧
        panel.state .wifi = .blinking := ⟨_, rfl, rfl⟩
  refine ⟨panel, ?_⟩
  intro events
  have hbefore : ∀ poll ∈ pollsOf .wifi before, poll.later ≤ 50 := by
    intro poll hpoll
    cases hpoll
  have hblinks : Blinks Answers.noFpu id .wifi panel events := by
    refine ⟨hstate, ?_⟩
    rintro _ ⟨rfl⟩
    refine ⟨hstate, ?_⟩
    rintro _ ⟨rfl⟩
    refine ⟨hstate, ?_⟩
    rintro _ ⟨rfl⟩
    trivial
  have hpaced : Paced 400 ⟨50, 50⟩ (pollsOf .wifi events) := by
    change Paced 400 ⟨50, 50⟩ [⟨200, 200⟩, ⟨400, 410⟩, ⟨730, 740⟩]
    decide
  exact blinks_evenly hexec hbefore hblinks hpaced (by decide)

end Panel
end VacuumCleaner.A1
