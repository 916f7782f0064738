import VacuumCleaner.Core.Robot
import VacuumCleaner.Lib.Machine
import Mathlib.Data.Finset.Basic

/-! `BluetoothService` with its two threads, beside the core loop, which handles
the Bluetooth button and shows the events of the service on an LED. -/
namespace VacuumCleaner.Core.BluetoothService

open Lib Robot Models

inductive ServiceEvent
  | startService
  | connected
  | disconnected
  | startPairing
  | finishPairing
  | errorOccurred
  deriving DecidableEq, Repr

/-- The LED state that `_handle_bluetooth_events` sets for an event. -/
def ledFor : ServiceEvent → Command
  | .startService | .disconnected | .finishPairing => .setBluetoothLedState false .on
  | .connected => .setBluetoothLedState true .on
  | .startPairing => .setBluetoothLedState true .blinking
  | .errorOccurred => .setBluetoothLedState false .blinking

/-- The `Eventer` of the service and the LED that shows what is taken from it.
`last` only records what was emitted last. -/
structure Display where
  events : Finset ServiceEvent := ∅
  led : Option Command := none
  last : Option ServiceEvent := none
  deriving DecidableEq

namespace Display

def emit (display : Display) (event : ServiceEvent) : Display :=
  { display with events := insert event display.events, last := some event }

/-- `get`, where `set.pop` has chosen the element. -/
def get (display : Display) : Option ServiceEvent → Option Display
  | some event =>
    if event ∈ display.events then
      some { display with events := display.events.erase event, led := some (ledFor event) }
    else none
  | none => if display.events = ∅ then some display else none

end Display

/-- Where `__pairing` stands. -/
inductive PairingThread
  | accepting
  | resetting
  | emitting
  | ended
  deriving DecidableEq, Repr

/-- `joining` while a call of `enable_pairing` waits for the stored thread. -/
structure Pairing where
  isParingProcessEnabled : Bool := false
  pairingThread : Option PairingThread := none
  joining : Bool := false
  deriving DecidableEq, Repr

namespace Pairing

/-- `enable_pairing` up to its `join`. -/
def enablePairing (pairing : Pairing) : Pairing :=
  match pairing.pairingThread with
  | some _ => { pairing with isParingProcessEnabled := true, joining := true }
  | none => { pairing with isParingProcessEnabled := true, pairingThread := some .accepting }

/-- The rest of the call, once the thread has ended. -/
def join (pairing : Pairing) : Option Pairing :=
  if pairing.joining ∧ pairing.pairingThread = some .ended then
    some { pairing with pairingThread := none, joining := false }
  else none

/-- A step of the thread, with the event that it emits. What fails is the talk
with `bluetoothctl`. -/
def advance (pairing : Pairing) (fails : Bool) : Option (Pairing × Option ServiceEvent) :=
  match pairing.pairingThread with
  | some .accepting =>
    some ({ pairing with pairingThread := some (if fails then .ended else .resetting) }, none)
  | some .resetting =>
    some ({ pairing with isParingProcessEnabled := false, pairingThread := some .emitting }, none)
  | some .emitting => some ({ pairing with pairingThread := some .ended }, some .finishPairing)
  | some .ended | none => none

end Pairing

/-- What the thread of the service does next. -/
inductive Place
  | emittingStart
  | enablingBluetooth
  | acceptingConnection
  | emittingConnected
  | handlingRequests
  | emittingDisconnected
  | emittingError
  deriving DecidableEq, Repr

inductive ServiceThread
  | initial
  | alive (place : Place)
  | ended
  deriving DecidableEq, Repr

namespace ServiceThread

def isAlive : ServiceThread → Bool
  | alive _ => true
  | initial | ended => false

/-- `Thread.start`: none where it raises. -/
def start : ServiceThread → Option ServiceThread
  | initial => some (alive .emittingStart)
  | alive _ | ended => none

/-- A step of `run`, with the event that it emits. -/
def advance (thread : ServiceThread) (fails : Bool) : Option (ServiceThread × Option ServiceEvent) :=
  match thread with
  | alive place =>
    match place with
    | .emittingStart => some (alive .enablingBluetooth, some .startService)
    | .enablingBluetooth => some (alive (if fails then .emittingError else .acceptingConnection), none)
    | .acceptingConnection => some (alive (if fails then .emittingError else .emittingConnected), none)
    | .emittingConnected => some (alive .handlingRequests, some .connected)
    | .handlingRequests => some (alive (if fails then .emittingError else .emittingDisconnected), none)
    | .emittingDisconnected => some (alive .acceptingConnection, some .disconnected)
    | .emittingError => some (ended, some .errorOccurred)
  | initial | ended => none

end ServiceThread

/-- Where the core loop stands, if an exception has not ended it. -/
inductive CoreThread
  | handlingButton
  | enablingPairing
  | gettingEvent
  | raised
  deriving DecidableEq, Repr

structure World where
  core : CoreThread := .handlingButton
  service : ServiceThread := .initial
  pairing : Pairing := {}
  display : Display := {}
  deriving DecidableEq

/-- `fails` of an event that is got: the LED's instruction raises, or the voice
behind an error. -/
inductive Event
  | button (button : ButtonState)
  | joined
  | got (event : Option ServiceEvent) (fails : Bool)
  | service (fails : Bool)
  | pairing (fails : Bool)
  deriving DecidableEq

namespace World

def emit (world : World) (event : Option ServiceEvent) : World :=
  match event with
  | some event => { world with display := world.display.emit event }
  | none => world

/-- `start` unless the thread is alive. -/
def startService (world : World) : Option World :=
  if world.service.isAlive then some world
  else world.service.start.map fun service => { world with service }

/-- The two tests of the button: none where they raise. -/
def handleButton (world : World) : ButtonState → Option World
  | .nothing => some world
  | .click => world.startService
  | .longPress =>
    if world.pairing.isParingProcessEnabled then some world
    else world.startService.map fun world =>
      { world.emit (some .startPairing) with pairing := world.pairing.enablePairing }

def step (world : World) : Event → Option World
  | .button button =>
    if world.core = .handlingButton then
      match world.handleButton button with
      | some next =>
        some { next with core := if next.pairing.joining then .enablingPairing else .gettingEvent }
      | none => some { world with core := .raised }
    else none
  | .joined =>
    if world.core = .enablingPairing then
      world.pairing.join.map fun pairing => { world with pairing, core := .gettingEvent }
    else none
  | .got event fails =>
    if world.core = .gettingEvent then
      (world.display.get event).map fun display =>
        { world with display, core := if event.isSome && fails then .raised else .handlingButton }
    else none
  | .service fails =>
    (world.service.advance fails).map fun (service, event) => { world.emit event with service }
  | .pairing fails =>
    (world.pairing.advance fails).map fun (pairing, event) => { world.emit event with pairing }

end World

def machine : Machine World Event := ⟨World.step⟩

end VacuumCleaner.Core.BluetoothService
