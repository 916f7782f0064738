import VacuumCleaner.A1.Clock
import VacuumCleaner.Lib.Machine
import VacuumCleaner.Lib.TwoWire

/-! A1's power controller and its clock on one bus. The request for a frame and
the reading of it are two ticks, and the clock may be used between them. -/
namespace VacuumCleaner.A1.PowerFrames

open Lib Fields Clock PowerController

universe u

/-- The fields that `PowerController::tick` fills. -/
structure Controller where
  powerState : UInt8 := 0
  chargingState : UInt8 := 0
  chargingWorkStatus : UInt8 := 0
  batteryVoltageIntPart : UInt8 := 0
  batteryVoltageDecPart : UInt8 := 0
  dataIsRequested : Bool := false
  deriving DecidableEq, Repr

def Controller.frame (controller : Controller) : List UInt8 :=
  [controller.powerState, controller.chargingState, controller.chargingWorkStatus,
    controller.batteryVoltageIntPart, controller.batteryVoltageDecPart]

def ds3231RegControl : UInt8 := 0x0E
def ds3231RegTemperature : UInt8 := 0x11

section operations

variable {State : Type u} (wire : TwoWire State)

/-- `answer` is what the board gives to a request at this moment. -/
def tick (answer : List UInt8) (controller : Controller) (state : State) : Controller × State :=
  if controller.dataIsRequested ∧ wire.available state = requestedBytes then
    let (powerState, state) := wire.read state
    let (chargingState, state) := wire.read state
    let (chargingWorkStatus, state) := wire.read state
    let (batteryVoltageIntPart, state) := wire.read state
    let (batteryVoltageDecPart, state) := wire.read state
    (⟨powerState, chargingState, chargingWorkStatus, batteryVoltageIntPart,
      batteryVoltageDecPart, false⟩, state)
  else ({ controller with dataIsRequested := true }, wire.requestFrom requestedBytes answer state)

def sendByte (command : UInt8) (state : State) : State := wire.transmit [command] state

/-- A register of the clock; without an answer the wait for it has no end. -/
def readRegister8 (reg : UInt8) (answer : List UInt8) (state : State) : Option (UInt8 × State) := do
  let state ← wire.await 1 answer (wire.transmit [reg] state)
  let (value, state) := wire.read state
  return (value, wire.transmit [] state)

def writeRegister8 (reg value : UInt8) (state : State) : State := wire.transmit [reg, value] state

def setBattery (timeBattery squareBattery : Bool) (answer : List UInt8) (state : State) :
    Option State := do
  let (value, state) ← readRegister8 wire ds3231RegControl answer state
  let value := if squareBattery then value ||| 0b01000000 else value &&& 0b10111111
  let value := if timeBattery then value &&& 0b01111011 else value ||| 0b10000000
  return writeRegister8 wire ds3231RegControl value state

/-- The values come in the order of the chip, from the second to the year. -/
def timeOf (values : List UInt8) : RTCDateTime :=
  let value (index : Nat) : Nat := bcd2dec (values.getD index 0)
  { year := value 6 + 2000
    month := value 5
    day := value 4
    dayOfWeek := value 3
    hour := value 2
    minute := value 1
    second := value 0 }

def getDateTime (answer : List UInt8) (state : State) : Option (RTCDateTime × State) := do
  let state ← wire.await 7 answer (wire.transmit [UInt8.ofNat ds3231RegTime] state)
  let (values, state) := wire.readBytes 7 state
  return (timeOf values, wire.transmit [] state)

def setDateTime (behind : Nat) (time : DateTime) (state : State) : State :=
  wire.transmit
    (UInt8.ofNat ds3231RegTime ::
      [dec2bcd time.second, dec2bcd time.minute, dec2bcd time.hour,
        dec2bcd (dow behind time.year time.month time.day), dec2bcd time.day, dec2bcd time.month,
        dec2bcd (toUnsigned 8 ((time.year : Int) - 2000)), UInt8.ofNat ds3231RegTime]) state

/-- In quarters of a degree. -/
def readTemperature (answer : List UInt8) (state : State) : Option (Int × State) := do
  let state ← wire.await 2 answer (wire.transmit [ds3231RegTemperature] state)
  let (msb, state) := wire.read state
  let (lsb, state) := wire.read state
  return (toSigned 16 (msb.toNat * 2 ^ 8 + lsb.toNat) / 2 ^ 6, state)

end operations

inductive Event
  | tick
  | sendByte (command : UInt8) (received : Bool)
  | getDateTime (answer : List UInt8)
  | setDateTime (behind : Nat) (time : DateTime)
  | setBattery (timeBattery squareBattery : Bool) (answer : List UInt8)
  | readTemperature (answer : List UInt8)
  | boardLoop (buttonState : ButtonState) (pins : Pins)
  deriving DecidableEq, Repr

/-- A1 and the board; `asked` holds the board at each `requestEvent`. -/
structure World (State : Type u) where
  bus : State
  controller : Controller := {}
  board : Board := {}
  asked : List Board := []
  deriving DecidableEq, Repr

namespace World

variable {State : Type u} (wire : TwoWire State)

/-- A request calls the board's `requestEvent`. -/
def tick (world : World State) : World State :=
  let (controller, bus) := PowerFrames.tick wire world.board.requestEvent world.controller world.bus
  { world with
    controller, bus
    asked := if controller.dataIsRequested then world.asked ++ [world.board] else world.asked }

def step (world : World State) : Event → Option (World State)
  | .tick => some (world.tick wire)
  | .sendByte command received => some
    { world with
      bus := PowerFrames.sendByte wire command world.bus
      board := if received then world.board.onReceiveCommand command else world.board }
  | .getDateTime answer => (PowerFrames.getDateTime wire answer world.bus).map fun (_, bus) =>
    { world with bus }
  | .setDateTime behind time => some
    { world with bus := PowerFrames.setDateTime wire behind time world.bus }
  | .setBattery timeBattery squareBattery answer =>
    (PowerFrames.setBattery wire timeBattery squareBattery answer world.bus).map fun bus =>
      { world with bus }
  | .readTemperature answer =>
    (PowerFrames.readTemperature wire answer world.bus).map fun (_, bus) => { world with bus }
  | .boardLoop buttonState pins => some { world with board := world.board.loop buttonState pins }

end World

def machine {State : Type u} (wire : TwoWire State) : Machine (World State) Event :=
  ⟨World.step wire⟩

section operations

variable {State : Type u} {wire : TwoWire State} (lawful : wire.Lawful)
include lawful

theorem tick_frame (answer : List UInt8) {controller : Controller} {state : State}
    (hrequested : controller.dataIsRequested = true)
    (havailable : wire.available state = requestedBytes) :
    (tick wire answer controller state).1.frame = wire.unread state ∧
      (tick wire answer controller state).1.dataIsRequested = false := by
  have hread := lawful.readBytes_fst requestedBytes state havailable.ge
  rw [← havailable, TwoWire.available, List.take_length, ← TwoWire.available, havailable] at hread
  rw [tick, if_pos ⟨hrequested, havailable⟩]
  exact ⟨hread, rfl⟩

theorem unread_sendByte (command : UInt8) (state : State) :
    wire.unread (sendByte wire command state) = wire.unread state := lawful.transmit _ _

theorem unread_setDateTime (behind : Nat) (time : DateTime) (state : State) :
    wire.unread (setDateTime wire behind time state) = wire.unread state := lawful.transmit _ _

theorem unread_readRegister8 {reg : UInt8} {answer : List UInt8} {state : State}
    {result : UInt8 × State} (hread : readRegister8 wire reg answer state = some result) :
    wire.unread result.2 = [] := by
  obtain ⟨next, hawait, hresult⟩ := Option.bind_eq_some_iff.mp hread
  cases hresult
  rw [lawful.transmit]
  exact lawful.unread_await_readBytes hawait

theorem unread_setBattery {timeBattery squareBattery : Bool} {answer : List UInt8}
    {state next : State}
    (hset : setBattery wire timeBattery squareBattery answer state = some next) :
    wire.unread next = [] := by
  obtain ⟨result, hread, hresult⟩ := Option.bind_eq_some_iff.mp hset
  cases hresult
  rw [writeRegister8, lawful.transmit]
  exact unread_readRegister8 lawful hread

theorem unread_getDateTime {answer : List UInt8} {state : State} {result : RTCDateTime × State}
    (hget : getDateTime wire answer state = some result) : wire.unread result.2 = [] := by
  obtain ⟨next, hawait, hresult⟩ := Option.bind_eq_some_iff.mp hget
  cases hresult
  rw [lawful.transmit]
  exact lawful.unread_await_readBytes hawait

theorem unread_readTemperature {answer : List UInt8} {state : State} {result : Int × State}
    (hread : readTemperature wire answer state = some result) : wire.unread result.2 = [] := by
  obtain ⟨next, hawait, hresult⟩ := Option.bind_eq_some_iff.mp hread
  have hstate := congrArg Prod.snd (Option.some.inj hresult)
  rw [← hstate]
  exact lawful.unread_await_readBytes hawait

omit lawful in
theorem getDateTime_of_await {answer : List UInt8} {state next : State}
    (hawait : wire.await 7 answer (wire.transmit [UInt8.ofNat ds3231RegTime] state) = some next) :
    getDateTime wire answer state =
      some (timeOf (wire.readBytes 7 next).1, wire.transmit [] (wire.readBytes 7 next).2) := by
  rw [getDateTime, hawait, Option.bind_eq_bind, Option.bind_some]
  rfl

theorem getDateTime_registers (registers : Registers) {state : State}
    (hfull : wire.unread (wire.requestFrom 7 ((List.range 7).map registers)
      (wire.transmit [UInt8.ofNat ds3231RegTime] state)) = (List.range 7).map registers) :
    (getDateTime wire ((List.range 7).map registers) state).map Prod.fst =
      some (Clock.getDateTime registers) := by
  have havailable : wire.available (wire.requestFrom 7 ((List.range 7).map registers)
      (wire.transmit [UInt8.ofNat ds3231RegTime] state)) = 7 := by
    rw [TwoWire.available, hfull, List.length_map, List.length_range]
  have hread := lawful.readBytes_fst 7 _ havailable.ge
  rw [hfull] at hread
  rw [getDateTime_of_await (if_neg (by rw [havailable]; decide)), Option.map_some, hread]
  rfl

end operations

theorem tick_buffered (answer : List UInt8) (power : Power)
    (hanswer : answer.length ≤ requestedBytes) :
    tick TwoWire.buffered answer ⟨power.powerState, power.chargingState, power.chargingWorkStatus,
        power.batteryVoltageIntPart, power.batteryVoltageDecPart, power.dataIsRequested⟩
        power.available =
      (⟨(power.tick answer).powerState, (power.tick answer).chargingState,
        (power.tick answer).chargingWorkStatus, (power.tick answer).batteryVoltageIntPart,
        (power.tick answer).batteryVoltageDecPart, (power.tick answer).dataIsRequested⟩,
        (power.tick answer).available) := by
  unfold tick Power.tick
  by_cases hframe : power.dataIsRequested = true ∧ power.available.length = requestedBytes
  · have havailable : TwoWire.buffered.available power.available = requestedBytes := hframe.2
    rw [if_pos ⟨hframe.1, havailable⟩, if_pos hframe]
    match hbytes : power.available, hframe.2 with
    | [_, _, _, _, _], _ => rfl
  · have hframe' : ¬ (power.dataIsRequested = true ∧
        TwoWire.buffered.available power.available = requestedBytes) := hframe
    rw [if_neg hframe', if_neg hframe]
    exact congrArg (Prod.mk _) (List.take_of_length_le hanswer)

/-- The frame is whole, and what is unread while one is asked for belongs to
one reply of the board. -/
structure Inv {State : Type u} (wire : TwoWire State) (world : World State) : Prop where
  frame : world.controller.frame = ({} : Controller).frame ∨
    ∃ board ∈ world.asked, world.controller.frame = board.requestEvent
  unread : world.controller.dataIsRequested = true → wire.unread world.bus ≠ [] →
    ∃ board ∈ world.asked, wire.unread world.bus <+: board.requestEvent

section runs

variable {State : Type u} {wire : TwoWire State} (lawful : wire.Lawful) {world : World State}

theorem Inv.other {bus : State} {board : Board} (hinv : Inv wire world)
    (hbus : wire.unread bus = [] ∨ wire.unread bus = wire.unread world.bus) :
    Inv wire { world with bus, board } := by
  refine ⟨hinv.frame, fun hrequested hne => ?_⟩
  rcases hbus with hnil | hsame
  · exact absurd hnil hne
  · dsimp only at hne ⊢
    rw [hsame] at hne ⊢
    exact hinv.unread hrequested hne

include lawful

theorem Inv.tick (hinv : Inv wire world) : Inv wire (world.tick wire) := by
  unfold World.tick
  by_cases hframe : world.controller.dataIsRequested = true ∧
      wire.available world.bus = requestedBytes
  · obtain ⟨hread, hidle⟩ := tick_frame lawful world.board.requestEvent hframe.1 hframe.2
    have hne : wire.unread world.bus ≠ [] := by
      intro hnil
      have hempty := hframe.2
      rw [TwoWire.available, hnil] at hempty
      cases hempty
    obtain ⟨board, hasked, hprefix⟩ := hinv.unread hframe.1 hne
    have hwhole : wire.unread world.bus = board.requestEvent := hprefix.eq_of_length hframe.2
    constructor
    · dsimp only
      rw [hidle]
      exact .inr ⟨board, hasked, hread.trans hwhole⟩
    · dsimp only
      rw [hidle]
      exact fun hrequested => absurd hrequested Bool.false_ne_true
  · rw [PowerFrames.tick, if_neg hframe]
    refine ⟨?_, fun _ _ => ⟨world.board, List.mem_append_right _ (List.mem_singleton_self _),
      lawful.unread_requestFrom_prefix _ _ _⟩⟩
    rcases hinv.frame with hfirst | ⟨board, hasked, hreply⟩
    · exact .inl hfirst
    · exact .inr ⟨board, List.mem_append_left _ hasked, hreply⟩

theorem Inv.step {event : Event} {next : World State} (hinv : Inv wire world)
    (hstep : world.step wire event = some next) : Inv wire next := by
  cases event with
  | tick =>
    cases hstep
    exact hinv.tick lawful
  | sendByte command received =>
    cases hstep
    exact hinv.other (.inr (unread_sendByte lawful command _))
  | getDateTime answer =>
    obtain ⟨result, hget, rfl⟩ := Option.map_eq_some_iff.mp hstep
    exact hinv.other (.inl (unread_getDateTime lawful hget))
  | setDateTime behind time =>
    cases hstep
    exact hinv.other (.inr (unread_setDateTime lawful behind time _))
  | setBattery timeBattery squareBattery answer =>
    obtain ⟨bus, hset, rfl⟩ := Option.map_eq_some_iff.mp hstep
    exact hinv.other (.inl (unread_setBattery lawful hset))
  | readTemperature answer =>
    obtain ⟨result, hread, rfl⟩ := Option.map_eq_some_iff.mp hstep
    exact hinv.other (.inl (unread_readTemperature lawful hread))
  | boardLoop buttonState pins =>
    cases hstep
    exact hinv.other (.inr rfl)

/-- The cached frame is that of the start, or one reply of the board as a whole. -/
theorem frame_eq_requestEvent {bus : State} {board : Board}
    (run : (machine wire).Reach Machine.anyEvent { bus, board } world) :
    world.controller.frame = ({} : Controller).frame ∨
      ∃ board ∈ world.asked, world.controller.frame = board.requestEvent := by
  have hstart : Inv wire ({ bus, board } : World State) := ⟨.inl rfl, nofun⟩
  exact (run.invariant (Inv wire) hstart fun _ _ _ hinv _ hstep => hinv.step lawful hstep).frame

end runs

/-- A frame is asked for, the clock is read, and the next frame comes whole. -/
def interleaved : List Event :=
  [.tick, .boardLoop .pressed { batteryVoltageIntPart := 15 },
    .getDateTime [0x30, 0x59, 0x23, 0x06, 0x31, 0x12, 0x99], .tick, .tick]

theorem frame_eq_requestEvent_interleaved : ∃ world,
    (machine TwoWire.buffered).exec { bus := [] } interleaved = some world ∧
      world.controller.frame = [1, 0, 0, 15, 0] ∧
      (world.controller.frame = ({} : Controller).frame ∨
        ∃ board ∈ world.asked, world.controller.frame = board.requestEvent) := by
  refine ⟨_, rfl, by decide, ?_⟩
  exact frame_eq_requestEvent TwoWire.buffered_lawful
    (Machine.reach_of_exec (show (machine TwoWire.buffered).exec _ interleaved = some _ from rfl))

end VacuumCleaner.A1.PowerFrames
