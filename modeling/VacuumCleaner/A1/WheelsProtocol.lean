import VacuumCleaner.A1.Wheels
import VacuumCleaner.Lib.Machine

/-! What `Wheels::tick` reports, over any sequence of instructions, interrupts
and ticks. -/
namespace VacuumCleaner.A1.WheelsProtocol

open InstructionHandler Lib Machine

/-- `moved` holds id and brake flag of every `move` and `turn`, `reported` the
ids that `Wheels::tick` has answered. -/
structure World where
  wheels : Wheels := {}
  moved : List (RequestId × Bool) := []
  reported : List RequestId := []
  deriving DecidableEq, Repr

inductive Event
  | move (requestId : RequestId) (distanceSm speedSmPerMinute : Nat) (forward withBreak : Bool)
  | turn (requestId : RequestId) (side : SideDirection) (degree speedSmPerMinute : Nat)
    (withBreak : Bool)
  | walk (requestId : RequestId) (speedSmPerMinute : Nat) (forward : Bool)
  | rotate (requestId : RequestId) (direction : SideDirection) (speedSmPerMinute : Nat)
  | interrupt (side : SideDirection) (res : UInt8)
  | pulse (side : SideDirection)
  | tick
  deriving DecidableEq, Repr

def onWheel (side : SideDirection) (change : Wheel → Wheel) (wheels : Wheels) : Wheels :=
  match side with
  | .left => { wheels with leftWheel := change wheels.leftWheel }
  | .right => { wheels with rightWheel := change wheels.rightWheel }

variable (fpu : FloatUnit)

def World.step (world : World) : Event → Option World
  | .move requestId distanceSm speedSmPerMinute forward withBreak =>
    some { world with
      wheels := world.wheels.move fpu requestId distanceSm speedSmPerMinute forward withBreak
      moved := world.moved ++ [(requestId, withBreak)] }
  | .turn requestId side degree speedSmPerMinute withBreak =>
    some { world with
      wheels := world.wheels.turn fpu requestId side degree speedSmPerMinute withBreak
      moved := world.moved ++ [(requestId, withBreak)] }
  | .walk requestId speedSmPerMinute forward =>
    some { world with wheels := (world.wheels.walk requestId speedSmPerMinute forward).1 }
  | .rotate requestId direction speedSmPerMinute =>
    some { world with wheels := (world.wheels.rotate requestId direction speedSmPerMinute).1 }
  | .interrupt side res => some { world with wheels := onWheel side (Wheel.tick res) world.wheels }
  | .pulse side => some { world with wheels := onWheel side Wheel.pulse world.wheels }
  | .tick =>
    some { world with
      wheels := world.wheels.tick.1
      reported := world.reported ++ world.wheels.tick.2.map Reply.requestId }

def machine : Machine World Event := ⟨World.step fpu⟩

def isAlone (moving other : Wheel) : Prop :=
  moving.wheelState = .moving ∧ other.wheelState = .idle

/-- What the next `Wheels::tick` does, and what those before have reported. -/
structure Finishes (world : World) : Prop where
  together : ¬ isAlone world.wheels.tick.1.leftWheel world.wheels.tick.1.rightWheel ∧
    ¬ isAlone world.wheels.tick.1.rightWheel world.wheels.tick.1.leftWheel
  report : ∀ reply ∈ world.wheels.tick.2, ∃ withBreak,
    reply = .finished world.wheels.requestId ∧
    world.moved.getLast? = some (world.wheels.requestId, withBreak) ∧
    ∀ wheel ∈ [world.wheels.tick.1.leftWheel, world.wheels.tick.1.rightWheel],
      wheel.wheelState = .idle ∧ wheel.forwardPin = (if withBreak then high else low) ∧
        wheel.backwardPin = (if withBreak then high else low)
  once : world.reported.Sublist (world.moved.map Prod.fst)

def isEndless (wheels : Wheels) : Prop :=
  wheels.leftWheel.wheelState = .endlessWalking ∨ wheels.rightWheel.wheelState = .endlessWalking

instance (wheels : Wheels) : Decidable (isEndless wheels) := inferInstanceAs (Decidable (_ ∨ _))

/-- The id that a later `Wheels::tick` is to report: wheels that walk get idle
by another `move` or `turn` only. -/
def awaited (wheels : Wheels) : Option RequestId :=
  if wheels.isMoving ∧ ¬ isEndless wheels then some wheels.requestId else none

/-- An idle wheel is as the end of its last move left it. -/
def isSettled (wheel : Wheel) : Prop := wheel.wheelState = .idle → wheel.Released

/-- What interrupts, pulses and the stop of a lone wheel leave of a wheel. -/
structure Keeps (wheel next : Wheel) : Prop where
  withBreak : next.withBreak = wheel.withBreak
  endless : next.wheelState = .endlessWalking ↔ wheel.wheelState = .endlessWalking
  settled : isSettled wheel → isSettled next

theorem Keeps.refl (wheel : Wheel) : Keeps wheel wheel := ⟨rfl, Iff.rfl, id⟩

theorem Keeps.tick (res : UInt8) (wheel : Wheel) : Keeps wheel (wheel.tick res) := by
  have hspec := Wheel.tick_spec res wheel
  refine ⟨hspec.1, hspec.2.1, fun hsettled hidle => ?_⟩
  cases hspec.2.2 hidle with
  | inl hsame =>
    rw [hsame] at hidle ⊢
    exact hsettled hidle
  | inr hreleased => exact hreleased

theorem Keeps.pulse (wheel : Wheel) : Keeps wheel wheel.pulse :=
  ⟨rfl, Iff.rfl, fun hsettled hidle => hsettled hidle⟩

theorem Keeps.stopped {wheel : Wheel} (hmoving : wheel.wheelState = .moving) :
    Keeps wheel { wheel with wheelState := .stopped } := by
  refine ⟨rfl, ?_, fun _ hidle => ?_⟩
  · simp [hmoving]
  · cases hidle

/-- What holds of the wheels and of the ids given and reported. `pending` says
what the next report will be. -/
structure Inv (world : World) : Prop where
  leftSettled : isSettled world.wheels.leftWheel
  rightSettled : isSettled world.wheels.rightWheel
  pending : ∀ requestId, awaited world.wheels = some requestId → ∃ earlier,
    world.moved = earlier ++ [(requestId, world.wheels.leftWheel.withBreak)] ∧
    world.wheels.rightWheel.withBreak = world.wheels.leftWheel.withBreak ∧
    world.reported.Sublist (earlier.map Prod.fst)
  once : world.reported.Sublist (world.moved.map Prod.fst)

theorem Inv.start : Inv {} where
  leftSettled _ := ⟨rfl, rfl⟩
  rightSettled _ := ⟨rfl, rfl⟩
  pending _ hawaited := by simp [awaited] at hawaited
  once := .slnil

theorem awaited_congr {wheels next : Wheels} (hmoving : next.isMoving = wheels.isMoving)
    (hid : next.requestId = wheels.requestId) (hleft : Keeps wheels.leftWheel next.leftWheel)
    (hright : Keeps wheels.rightWheel next.rightWheel) : awaited next = awaited wheels := by
  have hendless : isEndless next ↔ isEndless wheels := or_congr hleft.endless hright.endless
  rw [awaited, awaited, hmoving, hid]
  exact if_congr (and_congr_right fun _ => not_congr hendless) rfl rfl

theorem Inv.keeps {world : World} (inv : Inv world) {next : Wheels}
    (hmoving : next.isMoving = world.wheels.isMoving)
    (hid : next.requestId = world.wheels.requestId)
    (hleft : Keeps world.wheels.leftWheel next.leftWheel)
    (hright : Keeps world.wheels.rightWheel next.rightWheel) :
    Inv { world with wheels := next } where
  leftSettled := hleft.settled inv.leftSettled
  rightSettled := hright.settled inv.rightSettled
  pending requestId hawaited := by
    simp only [awaited_congr hmoving hid hleft hright, hleft.withBreak, hright.withBreak]
      at hawaited ⊢
    exact inv.pending requestId hawaited
  once := inv.once

theorem Inv.moved {world : World} (inv : Inv world) (next : Wheels) {withBreak : Bool}
    (hleft : next.leftWheel.wheelState = .moving) (hright : next.rightWheel.wheelState = .moving)
    (hbreak : next.leftWheel.withBreak = withBreak)
    (hbreak' : next.rightWheel.withBreak = withBreak) :
    Inv { world with wheels := next, moved := world.moved ++ [(next.requestId, withBreak)] } where
  leftSettled hidle := by simp [hleft] at hidle
  rightSettled hidle := by simp [hright] at hidle
  pending requestId hawaited := by
    have hid : next.requestId = requestId := by
      simp only [awaited, Option.ite_none_right_eq_some] at hawaited
      exact Option.some.inj hawaited.2
    exact ⟨world.moved, by simp [hid, hbreak], by simp [hbreak, hbreak'], inv.once⟩
  once := by
    rw [List.map_append]
    exact inv.once.trans (List.sublist_append_left _ _)

theorem Inv.walked {world : World} (inv : Inv world) {next : Wheels}
    (hleft : next.leftWheel.wheelState = .endlessWalking)
    (hright : next.rightWheel.wheelState = .endlessWalking) :
    Inv { world with wheels := next } where
  leftSettled hidle := by simp [hleft] at hidle
  rightSettled hidle := by simp [hright] at hidle
  pending requestId hawaited := by simp [awaited, isEndless, hleft] at hawaited
  once := inv.once

theorem keeps_stopLoneWheel (wheels : Wheels) :
    Keeps wheels.leftWheel wheels.stopLoneWheel.leftWheel ∧
      Keeps wheels.rightWheel wheels.stopLoneWheel.rightWheel := by
  unfold Wheels.stopLoneWheel
  split
  · rename_i hlone
    exact ⟨Keeps.refl _, Keeps.stopped hlone.2⟩
  · split
    · rename_i hlone
      exact ⟨Keeps.stopped hlone.2, Keeps.refl _⟩
    · exact ⟨Keeps.refl _, Keeps.refl _⟩

/-- The pair after a tick: with a report both wheels are idle, without one the
pair is the one whose lone wheel has been stopped. -/
theorem tick_wheels (wheels : Wheels) :
    wheels.tick.1.leftWheel = wheels.stopLoneWheel.leftWheel ∧
      wheels.tick.1.rightWheel = wheels.stopLoneWheel.rightWheel ∧
      (wheels.tick = (wheels.stopLoneWheel, []) ∨
        wheels.isMoving ∧ wheels.stopLoneWheel.leftWheel.wheelState = .idle ∧
          wheels.stopLoneWheel.rightWheel.wheelState = .idle ∧
          wheels.tick.2 = [.finished wheels.requestId] ∧ wheels.tick.1.isMoving = false) := by
  unfold Wheels.tick
  dsimp only
  split
  · rename_i hidle
    refine ⟨rfl, rfl, .inr ⟨by simpa using hidle.1, hidle.2.1, hidle.2.2, ?_, rfl⟩⟩
    simp
  · exact ⟨rfl, rfl, .inl rfl⟩

theorem awaited_of_idle {wheels : Wheels} (hmoving : wheels.isMoving = true)
    (hleft : wheels.stopLoneWheel.leftWheel.wheelState = .idle)
    (hright : wheels.stopLoneWheel.rightWheel.wheelState = .idle) :
    awaited wheels = some wheels.requestId := by
  have hkeeps := keeps_stopLoneWheel wheels
  have hendless : ¬ isEndless wheels := by
    simp only [isEndless, ← hkeeps.1.endless, ← hkeeps.2.endless, hleft, hright]
    decide
  simp [awaited, hmoving, hendless]

theorem Inv.tick {world : World} (inv : Inv world) :
    Inv { world with
      wheels := world.wheels.tick.1
      reported := world.reported ++ world.wheels.tick.2.map Reply.requestId } := by
  have hkeeps := keeps_stopLoneWheel world.wheels
  obtain ⟨hleft, hright, hquiet | ⟨hmoving, hidle, hidle', hreply, hdone⟩⟩ :=
    tick_wheels world.wheels
  · simp only [hquiet, List.map_nil, List.append_nil]
    exact inv.keeps (by simp) (by simp) hkeeps.1 hkeeps.2
  · obtain ⟨earlier, hmoved, -, hreported⟩ :=
      inv.pending _ (awaited_of_idle hmoving hidle hidle')
    refine ⟨?_, ?_, ?_, ?_⟩
    · simpa only [hleft] using hkeeps.1.settled inv.leftSettled
    · simpa only [hright] using hkeeps.2.settled inv.rightSettled
    · intro requestId hawaited
      simp [awaited, hdone] at hawaited
    · simp only [hreply, hmoved, List.map_append, List.map_cons, List.map_nil, Reply.requestId]
      exact hreported.append (List.Sublist.refl _)

theorem Inv.step {world next : World} {event : Event} (inv : Inv world)
    (hstep : World.step fpu world event = some next) : Inv next := by
  cases event with
  | move requestId distanceSm speedSmPerMinute forward withBreak =>
    cases hstep
    exact inv.moved (world.wheels.move fpu requestId _ _ forward withBreak) rfl rfl rfl rfl
  | turn requestId side degree speedSmPerMinute withBreak =>
    cases hstep
    exact inv.moved (world.wheels.turn fpu requestId side degree _ withBreak) rfl rfl rfl rfl
  | walk requestId speedSmPerMinute forward =>
    cases hstep
    exact inv.walked rfl rfl
  | rotate requestId direction speedSmPerMinute =>
    cases hstep
    exact inv.walked rfl rfl
  | interrupt side res =>
    cases hstep
    cases side with
    | left => exact inv.keeps rfl rfl (.tick res _) (.refl _)
    | right => exact inv.keeps rfl rfl (.refl _) (.tick res _)
  | pulse side =>
    cases hstep
    cases side with
    | left => exact inv.keeps rfl rfl (.pulse _) (.refl _)
    | right => exact inv.keeps rfl rfl (.refl _) (.pulse _)
  | tick =>
    cases hstep
    exact inv.tick

theorem Inv.of_reach {world : World} (run : (machine fpu).Reach anyEvent {} world) : Inv world :=
  run.invariant Inv .start fun _ _ _ inv _ hstep => inv.step fpu hstep

theorem not_isAlone_stopLoneWheel (wheels : Wheels) :
    ¬ isAlone wheels.stopLoneWheel.leftWheel wheels.stopLoneWheel.rightWheel ∧
      ¬ isAlone wheels.stopLoneWheel.rightWheel wheels.stopLoneWheel.leftWheel := by
  unfold Wheels.stopLoneWheel
  split
  · rename_i hlone
    simp [isAlone, hlone.1]
  · rename_i hright
    split
    · rename_i hlone
      simp [isAlone, hlone.1]
    · rename_i hleft
      exact ⟨fun halone => hleft ⟨halone.2, halone.1⟩, fun halone => hright ⟨halone.2, halone.1⟩⟩

/-- In every order of instructions, interrupts, pulses and ticks: no tick leaves
a wheel moving alone, a report is the end of the last move, and every move is
reported once at most. -/
theorem finishes {world : World} (run : (machine fpu).Reach anyEvent {} world) :
    Finishes world ∧ ((world.moved.map Prod.fst).Nodup → world.reported.Nodup) := by
  have inv := Inv.of_reach fpu run
  have hkeeps := keeps_stopLoneWheel world.wheels
  obtain ⟨hleft, hright, htick⟩ := tick_wheels world.wheels
  refine ⟨⟨?_, ?_, inv.once⟩, fun hnodup => hnodup.sublist inv.once⟩
  · rw [hleft, hright]
    exact not_isAlone_stopLoneWheel world.wheels
  · intro reply hmem
    cases htick with
    | inl hquiet =>
      rw [hquiet] at hmem
      cases hmem
    | inr hfinished =>
      obtain ⟨hmoving, hidle, hidle', hreply, -⟩ := hfinished
      obtain ⟨earlier, hmoved, hbreak, -⟩ := inv.pending _ (awaited_of_idle hmoving hidle hidle')
      rw [hreply, List.mem_singleton] at hmem
      refine ⟨world.wheels.leftWheel.withBreak, hmem, by simp [hmoved], ?_⟩
      rw [hleft, hright]
      have hpins := hkeeps.1.settled inv.leftSettled hidle
      have hpins' := hkeeps.2.settled inv.rightSettled hidle'
      rw [Wheel.Released, hkeeps.1.withBreak] at hpins
      rw [Wheel.Released, hkeeps.2.withBreak, hbreak] at hpins'
      intro wheel hwheel
      simp only [List.mem_cons, List.not_mem_nil, or_false] at hwheel
      cases hwheel with
      | inl hwheel =>
        rw [hwheel]
        exact ⟨hidle, hpins⟩
      | inr hwheel =>
        rw [hwheel]
        exact ⟨hidle', hpins'⟩

/-- A brakeless step forward that the left wheel ends first, then a turn with
the brake. -/
def stepAndTurn : List Event :=
  [.move 5 0 1 true false, .interrupt .left 9, .tick, .interrupt .right 9, .tick,
    .turn 6 .left 0 1 true, .interrupt .left 9, .interrupt .right 9]

def noDistance : FloatUnit := ⟨fun _ => 0, fun _ => 0⟩

theorem finishes_after_stepAndTurn : ∃ world,
    (machine noDistance).exec {} stepAndTurn = some world ∧ world.reported = [5] ∧
      world.wheels.tick.2 = [.finished 6] ∧ Finishes world ∧
      ((world.moved.map Prod.fst).Nodup → world.reported.Nodup) := by
  obtain ⟨world, hexec, hreported, htick⟩ : ∃ world,
      (machine noDistance).exec {} stepAndTurn = some world ∧ world.reported = [5] ∧
        world.wheels.tick.2 = [.finished 6] := ⟨_, rfl, rfl, rfl⟩
  exact ⟨world, hexec, hreported, htick, finishes noDistance (reach_of_exec hexec)⟩

/-- One move after the other, both under the same id. -/
def sameIdTwice : List Event :=
  [.move 5 0 1 true false, .interrupt .left 9, .interrupt .right 9, .tick,
    .move 5 0 1 true false, .interrupt .left 9, .interrupt .right 9, .tick]

theorem reported_twice_of_sameIdTwice : ¬ ∀ fpu world, (machine fpu).Reach anyEvent {} world →
    Finishes world ∧ world.reported.Nodup := by
  intro hevery
  obtain ⟨world, hexec, hreported⟩ : ∃ world,
      (machine noDistance).exec {} sameIdTwice = some world ∧ world.reported = [5, 5] :=
    ⟨_, rfl, rfl⟩
  have htwice := (hevery noDistance world (reach_of_exec hexec)).2
  rw [hreported] at htwice
  exact absurd htwice (by decide)

end VacuumCleaner.A1.WheelsProtocol
