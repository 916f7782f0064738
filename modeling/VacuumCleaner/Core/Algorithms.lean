import VacuumCleaner.Core.AlgorithmLoop
import VacuumCleaner.Core.Models
import VacuumCleaner.Core.Robot
import VacuumCleaner.Lib.Emitter

/-! The two registered algorithms, down to the single robot calls of their
callbacks, and the worker thread that runs one of them. -/
namespace VacuumCleaner.Core.Algorithms

open Lib AlgorithmLoop Robot Models

/-- What a callback does between two decisions. `expect` waits on the job of an
earlier call, and `awaitAndCheck` on a job or a cliff behind the robot. -/
inductive Op
  | send (command : Command)
  | expect
  | setIsLowerSpeed (value : Bool)
  | awaitAndCheck
  deriving DecidableEq

/-- The places of `Simple.loop` at which it looks at the state or the sensors. -/
inductive Label
  | outerTest
  | innerTest
  | correctSpeed
  | checkBumpers
  | movedBackward
  | checkCliffs
  deriving DecidableEq, Repr

/-- The arguments of `Simple`, with their defaults. -/
structure Arguments where
  speed : Int := 1000
  enableVacuumMotor : Bool := true
  reverseDis : Int := 20
  reverseDisSpeed : Int := 1000
  reverseWithBreak : Bool := false
  cliffEnabled : Bool := false
  vacuumMotorValue : Int := 50

inductive Algorithm
  | simple (args : Arguments)
  | smart

/-- What `random` gives at one decision. -/
structure Draw where
  randomTrue : Bool
  angle : Int

namespace Arguments

def startMotors (args : Arguments) : List Op :=
  [.send (.setMainBrushMotor 50), .send (.setLeftBrushMotor 70), .send (.setRightBrushMotor 70)] ++
  (if args.enableVacuumMotor then [.send (.setVacuumMotor args.vacuumMotorValue), .expect] else []) ++
  [.expect, .expect, .expect]

/-- `_turn_left` or `_turn_right` by an angle that `randint` draws. -/
def turn (args : Arguments) (left : Bool) (angle : Int) : Command :=
  if left then .turnLeft angle args.speed true else .turnRight angle args.speed true

def moveBackward (args : Arguments) (distance : Int) : Command :=
  .moveBackward distance args.reverseDisSpeed args.reverseWithBreak

def stepAsideAndRotate (args : Arguments) (draw : Draw) : List Op :=
  [.send (args.moveBackward 20), .awaitAndCheck,
    .send (args.turn (!draw.randomTrue) draw.angle), .awaitAndCheck]

/-- The operations that follow a decision, and the label after them; no label
where `loop` returns, and nothing at all where the angle is out of its range. -/
def decide (args : Arguments) (state : State) (isLowerSpeed : Bool) (data : A1Data) (draw : Draw) :
    Label → Option (List Op × Option Label)
  | .outerTest =>
    if state.isBreakEvent then some ([], none)
    else some ([.send (.walkForward args.speed), .expect], some .innerTest)
  | .innerTest => some ([], some (if state.isBreakEvent then .outerTest else .correctSpeed))
  | .correctSpeed =>
    let ops : List Op :=
      if data.rangefinderRightValue + data.rangefinderLeftValue + data.rangefinderCenterValue < 750
      then if isLowerSpeed then []
        else [.send (.walkForward (args.speed / 2)), .expect, .setIsLowerSpeed true]
      else if isLowerSpeed then [.send (.walkForward args.speed), .expect, .setIsLowerSpeed false]
      else []
    some (ops, some .checkBumpers)
  | .checkBumpers =>
    if data.endRightTrig || data.endLeftTrig then
      some ([.send (args.moveBackward args.reverseDis), .expect], some .movedBackward)
    else some ([], some (if args.cliffEnabled then .checkCliffs else .innerTest))
  | .movedBackward =>
    if state.isBreakEvent then
      some ([], some (if args.cliffEnabled then .checkCliffs else .innerTest))
    else if 10 ≤ draw.angle ∧ draw.angle ≤ 180 then
      some ([.send (args.turn draw.randomTrue draw.angle), .expect], some .outerTest)
    else none
  | .checkCliffs =>
    if data.frontCenterCliffBreakage then
      if 10 ≤ draw.angle ∧ draw.angle ≤ 180 then
        some (args.stepAsideAndRotate draw, some .innerTest)
      else none
    else if data.frontLeftCliffBreakage || data.frontRightCliffBreakage then
      if 30 ≤ draw.angle ∧ draw.angle ≤ 180 then
        some ([.send (args.moveBackward 20), .expect,
          .send (args.turn (!data.frontLeftCliffBreakage) draw.angle), .expect], some .innerTest)
      else none
    else some ([], some .innerTest)

end Arguments

namespace Algorithm

/-- The calls a callback begins with, which are all it does unless it is a loop. -/
def opening : Algorithm → Callback → List Op
  | .simple args, .onPrepare | .simple args, .onResume => args.startMotors
  | .simple _, .onPause =>
    [.send (.stopMovement true), .expect, .send (.setVacuumMotor 0),
      .send (.setMainBrushMotor 30), .send (.setLeftBrushMotor 10), .send (.setRightBrushMotor 10),
      .expect, .expect, .expect, .expect]
  | .simple _, .onFinish =>
    [.send (.stopMovement true), .expect, .send (.setVacuumMotor 0),
      .send (.setMainBrushMotor 0), .send (.setLeftBrushMotor 0), .send (.setRightBrushMotor 0),
      .expect, .expect, .expect, .expect]
  | .simple _, .loop | .smart, _ => []

def decide (algorithm : Algorithm) (state : State) (isLowerSpeed : Bool) (data : A1Data)
    (draw : Draw) (label : Label) : Option (List Op × Option Label) :=
  match algorithm with
  | .simple args => args.decide state isLowerSpeed data draw label
  | .smart => some ([], none)

end Algorithm

/-- The worker thread inside its algorithm. -/
structure Cleaner where
  worker : Worker
  ops : List Op := []
  label : Label := .outerTest
  isLowerSpeed : Bool := false

inductive Event
  | tests
  | goesOn (raises cliffBehind : Bool)
  | decides (data : A1Data) (draw : Draw)

namespace Cleaner

def enter (algorithm : Algorithm) (cleaner : Cleaner) (worker : Worker) : Cleaner :=
  match worker with
  | .inside callback =>
    { cleaner with worker, ops := algorithm.opening callback, label := .outerTest }
  | _ => { cleaner with worker, ops := [] }

def goOn (cleaner : Cleaner) (raises cliffBehind : Bool) : Option (Cleaner × Option Command) :=
  match cleaner.ops with
  | [] => none
  | .send command :: ops => some ({ cleaner with ops }, some command)
  | .expect :: ops =>
    some (if raises then { cleaner with worker := .died, ops := [] } else { cleaner with ops }, none)
  | .setIsLowerSpeed value :: ops => some ({ cleaner with ops, isLowerSpeed := value }, none)
  | .awaitAndCheck :: ops =>
    if raises then some ({ cleaner with worker := .died, ops := [] }, none)
    else some ({ cleaner with ops }, if cliffBehind then some (.stopMovement true) else none)

/-- A loop decides what comes next; the other callbacks return. -/
def decides (algorithm : Algorithm) (state : State) (cleaner : Cleaner) (callback : Callback)
    (data : A1Data) (draw : Draw) : Option Cleaner :=
  match callback with
  | .loop =>
    (algorithm.decide state cleaner.isLowerSpeed data draw cleaner.label).map fun
      | (ops, some label) => { cleaner with ops, label }
      | (_, none) => cleaner.enter algorithm (.after .loop .returned)
  | _ => some (cleaner.enter algorithm (.after callback .returned))

def step (algorithm : Algorithm) (state : State) (cleaner : Cleaner) :
    Event → Option (Cleaner × Option Command)
  | .tests => (cleaner.worker.test state).map fun worker => (cleaner.enter algorithm worker, none)
  | .goesOn raises cliffBehind =>
    match cleaner.worker with
    | .inside _ => cleaner.goOn raises cliffBehind
    | _ => none
  | .decides data draw =>
    match cleaner.worker, cleaner.ops with
    | .inside callback, [] =>
      (cleaner.decides algorithm state callback data draw).map fun next => (next, none)
    | _, _ => none

end Cleaner

/-- The worker while nobody writes the execution state. -/
def emitter (algorithm : Algorithm) (state : State) : Emitter Cleaner Event Command :=
  ⟨Cleaner.step algorithm state⟩

@[simp] theorem worker_enter (algorithm : Algorithm) (cleaner : Cleaner) (worker : Worker) :
    (cleaner.enter algorithm worker).worker = worker := by
  cases worker <;> rfl

/-- What the steps of the worker do. A callback comes back behind its last
operation, a loop when it finds no other label to go on at. -/
inductive Moves (algorithm : Algorithm) (state : State) (cleaner : Cleaner) :
    Event → Cleaner → Option Command → Prop
  | tests {worker : Worker} : cleaner.worker.test state = some worker →
    Moves algorithm state cleaner .tests (cleaner.enter algorithm worker) none
  | goesOn {callback : Callback} {raises cliffBehind : Bool} {next : Cleaner}
      {emitted : Option Command} : cleaner.worker = .inside callback →
    cleaner.goOn raises cliffBehind = some (next, emitted) →
    Moves algorithm state cleaner (.goesOn raises cliffBehind) next emitted
  | decides {data : A1Data} {draw : Draw} {ops : List Op} {label : Label} :
    cleaner.worker = .inside .loop → cleaner.ops = [] →
    algorithm.decide state cleaner.isLowerSpeed data draw cleaner.label = some (ops, some label) →
    Moves algorithm state cleaner (.decides data draw) { cleaner with ops, label } none
  | returns {data : A1Data} {draw : Draw} {callback : Callback} :
    cleaner.worker = .inside callback → cleaner.ops = [] →
    (callback = .loop → ∃ ops, algorithm.decide state cleaner.isLowerSpeed data draw
      cleaner.label = some (ops, none)) →
    Moves algorithm state cleaner (.decides data draw)
      (cleaner.enter algorithm (.after callback .returned)) none

theorem moves_of_step {algorithm : Algorithm} {state : State} {cleaner next : Cleaner}
    {event : Event} {emitted : Option Command}
    (h : cleaner.step algorithm state event = some (next, emitted)) :
    Moves algorithm state cleaner event next emitted := by
  cases event with
  | tests =>
    obtain ⟨worker, htest, heq⟩ := Option.map_eq_some_iff.mp h
    cases heq
    exact .tests htest
  | goesOn raises cliffBehind =>
    simp only [Cleaner.step] at h
    split at h
    · rename_i callback hworker
      exact .goesOn hworker h
    · cases h
  | decides data draw =>
    simp only [Cleaner.step] at h
    split at h
    · rename_i callback hworker hops
      obtain ⟨after, hdecides, heq⟩ := Option.map_eq_some_iff.mp h
      cases heq
      unfold Cleaner.decides at hdecides
      split at hdecides
      · obtain ⟨⟨ops, label⟩, hdecide, rfl⟩ := Option.map_eq_some_iff.mp hdecides
        cases label with
        | some label => exact .decides hworker hops hdecide
        | none => exact .returns hworker hops fun _ => ⟨ops, hdecide⟩
      · rename_i hother
        cases hdecides
        exact .returns hworker hops fun hloop => absurd hloop hother
    · cases h

theorem worker_goOn {cleaner next : Cleaner} {raises cliffBehind : Bool} {emitted : Option Command}
    (h : cleaner.goOn raises cliffBehind = some (next, emitted)) :
    next.worker = cleaner.worker ∨ next.worker = .died := by
  unfold Cleaner.goOn at h
  split at h
  · cases h
  · cases h
    exact .inl rfl
  · cases raises <;> cases h
    · exact .inl rfl
    · exact .inr rfl
  · cases h
    exact .inl rfl
  · cases raises <;> cases h
    · exact .inl rfl
    · exact .inr rfl

/-- The worker of a cleaner moves as `_algorithm_loop` does: it stays inside its
callback, leaves it, or tests the state. -/
theorem worker_step {algorithm : Algorithm} {state : State} {cleaner next : Cleaner} {event : Event}
    {emitted : Option Command} (h : cleaner.step algorithm state event = some (next, emitted)) :
    next.worker = cleaner.worker ∨ cleaner.worker.test state = some next.worker ∨
      ∃ callback outcome, cleaner.worker = .inside callback ∧
        next.worker = .after callback outcome := by
  cases moves_of_step h with
  | tests htest => exact .inr (.inl (by rw [worker_enter, htest]))
  | @goesOn callback _ _ _ _ hworker hgoOn =>
    rcases worker_goOn hgoOn with hsame | hdied
    · exact .inl hsame
    · exact .inr (.inr ⟨callback, .raised, hworker, hdied⟩)
  | decides => exact .inl rfl
  | @returns _ _ callback hworker =>
    exact .inr (.inr ⟨callback, .returned, hworker, worker_enter ..⟩)

end VacuumCleaner.Core.Algorithms
