import VacuumCleaner.A1.Actuators
import VacuumCleaner.Lib.Machine

/-! What becomes of an accepted request: it is answered, or a component keeps
its id. An interrupt changes nothing but the wheels' own fields, so the calls
of the main loop are taken as one step each. -/
namespace VacuumCleaner.A1.Pending

open InstructionHandler Fields Actuators Lib

structure World where
  actuators : Actuators := {}
  accepted : List (Component × RequestId) := []
  sent : List Reply := []

/-- A tick of the main loop or of an interrupt. -/
inductive Tick
  | wheels
  | motor (name : MotorName) (now later : UInt32)
  | buzzer (now later : UInt32)
  | wheel (side : SideDirection) (res : UInt8)
  | wheelPulse (side : SideDirection)

inductive Event
  | instruction (line : List Char) (beyond : StackBytes)
  | tick (tick : Tick)

def onWheel (side : SideDirection) (change : Wheel → Wheel) (actuators : Actuators) : Actuators :=
  match side with
  | .left => { actuators with
      wheels := { actuators.wheels with leftWheel := change actuators.wheels.leftWheel } }
  | .right => { actuators with
      wheels := { actuators.wheels with rightWheel := change actuators.wheels.rightWheel } }

/-- The actuators after a tick, and the replies it sends. -/
def Tick.run (actuators : Actuators) : Tick → Actuators × List Reply
  | .wheels => ({ actuators with wheels := actuators.wheels.tick.1 }, actuators.wheels.tick.2)
  | .motor name now later =>
    (actuators.setMotor name ((actuators.motors name).tick now later).1,
      ((actuators.motors name).tick now later).2)
  | .buzzer now later =>
    ({ actuators with buzzer := (actuators.buzzer.tick now later).1 },
      (actuators.buzzer.tick now later).2)
  | .wheel side res => (onWheel side (Wheel.tick res) actuators, [])
  | .wheelPulse side => (onWheel side Wheel.pulse actuators, [])

def World.accept (world : World) (component : Component) (id : RequestId) : Outcome → World
  | .ok (actuators, replies) =>
    ⟨actuators, world.accepted ++ [(component, id)], world.sent ++ replies⟩
  | .error errorCode =>
    ⟨world.actuators, world.accepted ++ [(component, id)], world.sent ++ [.failed id errorCode]⟩

variable (fpu : FloatUnit)

def World.step (world : World) : Event → Option World
  | .instruction line beyond =>
    match handle line with
    | .ok name id value =>
      (callback fpu beyond id value world.actuators name).map fun (component, outcome) =>
        world.accept component id outcome
    | _ => none
  | .tick tick =>
    let (actuators, replies) := tick.run world.actuators
    some ⟨actuators, world.accepted, world.sent ++ replies⟩

def machine : Machine World Event := ⟨World.step fpu⟩

def World.answered (world : World) (id : RequestId) : Prop :=
  ∃ reply ∈ world.sent, reply.requestId = id

def NothingLost (world : World) : Prop :=
  ∀ component id, (component, id) ∈ world.accepted →
    world.answered id ∨ ∃ holder, world.actuators.pendingId holder = some id

def distinctIds (world : World) : Event → Prop
  | .instruction line _ => ∀ name id value, handle line = .ok name id value →
      ∀ component, (component, id) ∉ world.accepted
  | _ => True

/-- The instructions that leave their id in the component. -/
def storesId : Callback → Bool
  | .onWalk | .onRotate => false
  | _ => true

/-- An instruction that a component keeps comes when every earlier one for that
component has been answered. -/
def componentFree (world : World) : Event → Prop
  | .instruction line beyond => ∀ name id value component outcome,
      handle line = .ok name id value → storesId name = true →
      callback fpu beyond id value world.actuators name = some (component, .ok outcome) →
      ∀ earlier, (component, earlier) ∈ world.accepted → world.answered earlier
  | _ => True

/-- Pending ids stay where they are. -/
def Keeps (before after : Actuators) : Prop :=
  ∀ component id, before.pendingId component = some id → after.pendingId component = some id

theorem Keeps.refl (actuators : Actuators) : Keeps actuators actuators := fun _ _ h => h

/-- The component now keeps `id`; the others keep what they had. -/
def Stores (component : Component) (id : RequestId) (before after : Actuators) : Prop :=
  after.pendingId component = some id ∧
    ∀ other, other ≠ component → after.pendingId other = before.pendingId other

/-! Replacing one component leaves the others what they hold. -/

theorem pendingId_wheels_of_ne (wheels : Wheels) (actuators : Actuators) {other : Component}
    (hother : other ≠ .wheels) :
    pendingId { actuators with wheels } other = actuators.pendingId other := by
  cases other with
  | wheels => exact absurd rfl hother
  | motor name => rfl
  | buzzer => rfl

theorem pendingId_setMotor_of_ne (name : MotorName) (motor : Motor) (actuators : Actuators)
    {other : Component} (hother : other ≠ .motor name) :
    (actuators.setMotor name motor).pendingId other = actuators.pendingId other := by
  cases other with
  | wheels => rfl
  | motor otherName =>
    have hname : otherName ≠ name := fun h => hother (by rw [h])
    simp [pendingId, setMotor, hname]
  | buzzer => rfl

theorem pendingId_buzzer_of_ne (buzzer : Buzzer) (actuators : Actuators) {other : Component}
    (hother : other ≠ .buzzer) :
    pendingId { actuators with buzzer } other = actuators.pendingId other := by
  cases other with
  | wheels => rfl
  | motor name => rfl
  | buzzer => exact absurd rfl hother

theorem stores_wheels {wheels : Wheels} {id : RequestId} (actuators : Actuators)
    (hid : wheels.requestId = id) (hmoving : wheels.isMoving = true) :
    Stores .wheels id actuators { actuators with wheels } := by
  constructor
  · simp [pendingId, hid, hmoving]
  · exact fun _ => pendingId_wheels_of_ne wheels actuators

theorem stores_motor {name : MotorName} {motor : Motor} {id : RequestId} (actuators : Actuators)
    (hid : motor.requestId = id) (hset : motor.isSet = false) :
    Stores (.motor name) id actuators (actuators.setMotor name motor) := by
  constructor
  · simp [pendingId, setMotor, hid, hset]
  · exact fun _ => pendingId_setMotor_of_ne name motor actuators

theorem stores_buzzer {buzzer : Buzzer} {id : RequestId} (actuators : Actuators)
    (hid : buzzer.requestId = id) (hexecuting : buzzer.isExecuting = true) :
    Stores .buzzer id actuators { actuators with buzzer } := by
  constructor
  · simp [pendingId, hid, hexecuting]
  · exact fun _ => pendingId_buzzer_of_ne buzzer actuators

theorem keeps_wheels {wheels : Wheels} (actuators : Actuators)
    (hid : wheels.requestId = actuators.wheels.requestId) (hmoving : wheels.isMoving = true) :
    Keeps actuators { actuators with wheels } := by
  intro component id hpending
  cases component with
  | wheels =>
    simp only [pendingId] at hpending ⊢
    rw [if_pos hmoving, hid]
    exact (Option.ite_none_right_eq_some.mp hpending).2
  | motor name => exact hpending
  | buzzer => exact hpending

theorem callback_ok {fpu : FloatUnit} {beyond : StackBytes} {id : RequestId} {input : List Char}
    {actuators next : Actuators} {replies : List Reply} {name : Callback} {component : Component}
    (h : callback fpu beyond id input actuators name = some (component, .ok (next, replies))) :
    (storesId name = true ∧ Stores component id actuators next) ∨
      (replies = [.finished id] ∧ Keeps actuators next) := by
  cases drives_of_callback h with
  | beep => exact .inl ⟨rfl, stores_buzzer actuators rfl rfl⟩
  | move | turn => exact .inl ⟨rfl, stores_wheels actuators rfl rfl⟩
  | walk | rotate => exact .inr ⟨rfl, keeps_wheels actuators rfl rfl⟩
  | vacuumMotor | leftBrushMotor | rightBrushMotor | mainBrushMotor =>
    exact .inl ⟨rfl, stores_motor actuators rfl rfl⟩

/-! What a tick does to the ids that are held, those of the wheels as a view of
them tells it. -/

section Held

def held (view : Wheels → Option RequestId) (actuators : Actuators) :
    Component → Option RequestId
  | .wheels => view actuators.wheels
  | .motor name => actuators.pendingId (.motor name)
  | .buzzer => actuators.pendingId .buzzer

variable {view : Wheels → Option RequestId}

theorem held_of_ne {actuators : Actuators} {component : Component} (hother : component ≠ .wheels) :
    held view actuators component = actuators.pendingId component := by
  cases component with
  | wheels => exact absurd rfl hother
  | motor name => rfl
  | buzzer => rfl

/-- It leaves all that is held, or answers one of it. -/
def Ticked (view : Wheels → Option RequestId) (before after : Actuators) (replies : List Reply) :
    Prop :=
  (replies = [] ∧ ∀ other, held view after other = held view before other) ∨
    ∃ component id, replies = [.finished id] ∧ held view before component = some id ∧
      held view after component = none ∧
      ∀ other, other ≠ component → held view after other = held view before other

theorem Ticked.of_component {before after : Actuators} {replies : List Reply}
    (component : Component)
    (hothers : ∀ other, other ≠ component → held view after other = held view before other)
    (hcomponent : (replies = [] ∧ held view after component = held view before component) ∨
      ∃ id, replies = [.finished id] ∧ held view before component = some id ∧
        held view after component = none) : Ticked view before after replies := by
  cases hcomponent with
  | inl hquiet =>
    refine .inl ⟨hquiet.1, fun other => ?_⟩
    by_cases hsame : other = component
    · rw [hsame]
      exact hquiet.2
    · exact hothers other hsame
  | inr hanswered =>
    obtain ⟨id, hreplies, hbefore, hafter⟩ := hanswered
    exact .inr ⟨component, id, hreplies, hbefore, hafter, hothers⟩

/-- A tick of the wheels keeps what the view tells or answers it; those of one
wheel keep it. -/
structure Steady (view : Wheels → Option RequestId) : Prop where
  tick : ∀ wheels : Wheels, (wheels.tick.2 = [] ∧ view wheels.tick.1 = view wheels) ∨
    ∃ id, wheels.tick.2 = [.finished id] ∧ view wheels = some id ∧ view wheels.tick.1 = none
  interrupt : ∀ side res actuators,
    view (onWheel side (Wheel.tick res) actuators).wheels = view actuators.wheels
  pulse : ∀ side actuators, view (onWheel side Wheel.pulse actuators).wheels = view actuators.wheels

theorem held_wheels_of_ne (wheels : Wheels) (actuators : Actuators) {other : Component}
    (hother : other ≠ .wheels) :
    held view { actuators with wheels } other = held view actuators other := by
  rw [held_of_ne hother, held_of_ne hother]
  exact pendingId_wheels_of_ne wheels actuators hother

theorem held_onWheel_of_ne (side : SideDirection) (change : Wheel → Wheel) (actuators : Actuators)
    {other : Component} (hother : other ≠ .wheels) :
    held view (onWheel side change actuators) other = held view actuators other := by
  cases side <;> exact held_wheels_of_ne _ actuators hother

theorem ticked_motor (actuators : Actuators) (name : MotorName) (now later : UInt32) :
    Ticked view actuators (actuators.setMotor name ((actuators.motors name).tick now later).1)
      ((actuators.motors name).tick now later).2 := by
  refine .of_component (.motor name) (fun other hother => ?_) ?_
  · by_cases hwheel : other = .wheels
    · subst hwheel
      rfl
    · rw [held_of_ne hwheel, held_of_ne hwheel]
      exact pendingId_setMotor_of_ne name _ actuators hother
  · simp only [held, pendingId, setMotor, Function.update_self]
    obtain ⟨hreplies, hid, hset⟩ | ⟨hreplies, hset, hdone⟩ :=
      (actuators.motors name).tick_cases now later
    · exact .inl ⟨hreplies, by rw [hid, hset]⟩
    · exact .inr ⟨_, hreplies, by simp [hset], by simp [hdone]⟩

theorem ticked_buzzer (actuators : Actuators) (now later : UInt32) :
    Ticked view actuators { actuators with buzzer := (actuators.buzzer.tick now later).1 }
      (actuators.buzzer.tick now later).2 := by
  refine .of_component .buzzer (fun other hother => ?_) ?_
  · by_cases hwheel : other = .wheels
    · subst hwheel
      rfl
    · rw [held_of_ne hwheel, held_of_ne hwheel]
      exact pendingId_buzzer_of_ne _ actuators hother
  · simp only [held, pendingId]
    obtain ⟨hreplies, hid, hexecuting⟩ | ⟨hreplies, hexecuting, hdone⟩ :=
      actuators.buzzer.tick_cases now later
    · exact .inl ⟨hreplies, by rw [hid, hexecuting]⟩
    · exact .inr ⟨_, hreplies, if_pos hexecuting, by simp [hdone]⟩

theorem ticked (hsteady : Steady view) (actuators : Actuators) (tick : Tick) :
    Ticked view actuators (tick.run actuators).1 (tick.run actuators).2 := by
  cases tick with
  | wheels =>
    exact .of_component .wheels (fun _ => held_wheels_of_ne _ actuators)
      (hsteady.tick actuators.wheels)
  | motor name now later => exact ticked_motor actuators name now later
  | buzzer now later => exact ticked_buzzer actuators now later
  | wheel side res =>
    exact .of_component .wheels (fun _ => held_onWheel_of_ne side _ actuators)
      (.inl ⟨rfl, hsteady.interrupt side res actuators⟩)
  | wheelPulse side =>
    exact .of_component .wheels (fun _ => held_onWheel_of_ne side _ actuators)
      (.inl ⟨rfl, hsteady.pulse side actuators⟩)

end Held

def pendingWheels (wheels : Wheels) : Option RequestId :=
  if wheels.isMoving then some wheels.requestId else none

theorem held_pendingWheels (actuators : Actuators) (component : Component) :
    held pendingWheels actuators component = actuators.pendingId component := by
  cases component <;> rfl

theorem steady_pendingWheels : Steady pendingWheels where
  tick wheels := by
    unfold pendingWheels
    rcases wheels.tick_cases with ⟨hreplies, hid, hmoving⟩ | ⟨hreplies, hmoving, hdone⟩
    · exact .inl ⟨hreplies, by rw [hid, hmoving]⟩
    · exact .inr ⟨_, hreplies, if_pos hmoving, by simp [hdone]⟩
  interrupt side res actuators := by cases side <;> rfl
  pulse side actuators := by cases side <;> rfl

theorem run_keeps (actuators : Actuators) (tick : Tick) (component : Component) (id : RequestId)
    (hpending : actuators.pendingId component = some id) :
    (tick.run actuators).1.pendingId component = some id ∨
      ∃ reply ∈ (tick.run actuators).2, reply.requestId = id := by
  rw [← held_pendingWheels] at hpending ⊢
  rcases ticked steady_pendingWheels actuators tick with ⟨-, hsame⟩ |
    ⟨target, answeredId, hreplies, hheld, -, hothers⟩
  · exact .inl ((hsame component).trans hpending)
  · by_cases htarget : component = target
    · subst htarget
      rw [hheld] at hpending
      cases hpending
      exact .inr ⟨_, by rw [hreplies]; exact List.mem_singleton_self _, rfl⟩
    · exact .inl ((hothers component htarget).trans hpending)

/-- The invariant of a guarded run: what is unanswered is kept by the very
component it was sent to. -/
def Kept (world : World) : Prop :=
  ∀ component id, (component, id) ∈ world.accepted →
    world.answered id ∨ world.actuators.pendingId component = some id

theorem Kept.nothingLost {world : World} (hkept : Kept world) : NothingLost world := by
  intro component id haccepted
  rcases hkept component id haccepted with hanswered | hpending
  · exact .inl hanswered
  · exact .inr ⟨component, hpending⟩

theorem Kept.advance {world : World} (hkept : Kept world) (actuators : Actuators)
    (replies : List Reply)
    (hstep : ∀ component id, world.actuators.pendingId component = some id →
      (component, id) ∈ world.accepted → world.answered id ∨
      actuators.pendingId component = some id ∨ ∃ reply ∈ replies, reply.requestId = id) :
    Kept ⟨actuators, world.accepted, world.sent ++ replies⟩ := by
  have hold : ∀ {id}, world.answered id →
      World.answered ⟨actuators, world.accepted, world.sent ++ replies⟩ id := by
    rintro id ⟨reply, hsent, hid⟩
    exact ⟨reply, List.mem_append_left _ hsent, hid⟩
  intro component id haccepted
  rcases hkept component id haccepted with hanswered | hpending
  · exact .inl (hold hanswered)
  · rcases hstep component id hpending haccepted with hanswered | hnext | ⟨reply, hmem, hid⟩
    · exact .inl (hold hanswered)
    · exact .inr hnext
    · exact .inl ⟨reply, List.mem_append_right _ hmem, hid⟩

theorem Kept.accept {world : World} {component : Component} {id : RequestId}
    (actuators : Actuators) (replies : List Reply)
    (hkept : Kept ⟨actuators, world.accepted, world.sent ++ replies⟩)
    (hnew : actuators.pendingId component = some id ∨ ∃ reply ∈ replies, reply.requestId = id) :
    Kept ⟨actuators, world.accepted ++ [(component, id)], world.sent ++ replies⟩ := by
  intro other otherId haccepted
  rcases List.mem_append.mp haccepted with hold | hlast
  · exact hkept other otherId hold
  · cases List.mem_singleton.mp hlast
    rcases hnew with hpending | ⟨reply, hmem, hid⟩
    · exact .inr hpending
    · exact .inl ⟨reply, List.mem_append_right _ hmem, hid⟩

theorem Kept.step {world next : World} {event : Event} (hkept : Kept world)
    (hfree : componentFree fpu world event) (hstep : world.step fpu event = some next) :
    Kept next := by
  cases event with
  | instruction line beyond =>
    simp only [World.step] at hstep
    split at hstep
    · rename_i name id value hhandle
      obtain ⟨⟨component, outcome⟩, hcallback, rfl⟩ := Option.map_eq_some_iff.mp hstep
      cases outcome with
      | error errorCode =>
        refine Kept.accept _ _ (hkept.advance _ _ fun _ _ hpending _ => .inr (.inl hpending)) ?_
        exact .inr ⟨_, List.mem_singleton_self _, rfl⟩
      | ok outcome =>
        obtain ⟨actuators, replies⟩ := outcome
        rcases callback_ok hcallback with ⟨hstores, hpending, hothers⟩ | ⟨rfl, hkeeps⟩
        · refine Kept.accept _ _ (hkept.advance _ _ fun other otherId hother haccepted => ?_)
            (.inl hpending)
          by_cases hsame : other = component
          · subst hsame
            exact .inl (hfree name id value other _ hhandle hstores hcallback otherId haccepted)
          · exact .inr (.inl ((hothers other hsame).trans hother))
        · refine Kept.accept _ _ (hkept.advance _ _ fun other otherId hother _ =>
            .inr (.inl (hkeeps other otherId hother))) ?_
          exact .inr ⟨_, List.mem_singleton_self _, rfl⟩
    · cases hstep
  | tick tick =>
    cases hstep
    exact hkept.advance _ _ fun component id hpending _ =>
      .inr (run_keeps world.actuators tick component id hpending)

/-- No request is lost in a run in which components are free when they get one. -/
theorem nothingLost_of_componentFree (world : World)
    (run : (machine fpu).Reach (fun world event =>
      distinctIds world event ∧ componentFree fpu world event) {} world) :
    NothingLost world := by
  refine (run.invariant Kept ?_ ?_).nothingLost
  · intro component id haccepted
    cases haccepted
  · intro state event next hkept hguard hstep
    exact hkept.step fpu hguard.2 hstep

/-- The wheels of the robot: 235 pulses and 212 mm a turn, in exact arithmetic. -/
def robotFpu : FloatUnit where
  pulsesToMove distanceInMm := distanceInMm * 235 / 212
  angleDistanceInSm angle := 314159 * 145 * angle / 180000000

/-- A move of no distance, which is how the core stops the wheels. -/
def stopLine (id : Char) : List Char :=
  ['#', '0', '6', ':', '0', '0', '0', id, ':', '1', ';', '0', ';', '0', ';', '1', '\r', '\n']

def stop (id : Char) : Event := .instruction (stopLine id) fun _ => []

theorem guards_first_stop (id : Char) :
    distinctIds {} (stop id) ∧ componentFree robotFpu {} (stop id) := by
  constructor
  · intro name id value _ component haccepted
    cases haccepted
  · intro name id value component outcome _ _ _ earlier haccepted
    cases haccepted

theorem guards_second_stop {world : World} {first : RequestId} (id : Char)
    (haccepted : world.accepted = [(.wheels, first)])
    (hid : fetchRequestId (stopLine id) ≠ first) : distinctIds world (stop id) ∧
      (world.answered first → componentFree robotFpu world (stop id)) := by
  constructor
  · intro name other value hhandle component hmem
    rw [haccepted] at hmem
    cases List.mem_singleton.mp hmem
    cases hhandle
    exact hid rfl
  · intro hanswered name other value component outcome _ _ _ earlier hmem
    rw [haccepted] at hmem
    cases List.mem_singleton.mp hmem
    exact hanswered

/-- Two stops, the first answered before the second. -/
def stopTwice : List Event :=
  [stop '1', .tick (.wheel .left 0), .tick (.wheel .right 0), .tick .wheels, stop '2']

theorem nothingLost_after_stopTwice :
    ∃ world, (machine robotFpu).exec {} stopTwice = some world ∧ NothingLost world := by
  have hguard : (machine robotFpu).Guarded (fun world event =>
      distinctIds world event ∧ componentFree robotFpu world event) {} stopTwice := by
    refine ⟨guards_first_stop '1', fun _ h => ?_⟩
    cases h
    refine ⟨⟨trivial, trivial⟩, fun _ h => ?_⟩
    cases h
    refine ⟨⟨trivial, trivial⟩, fun _ h => ?_⟩
    cases h
    refine ⟨⟨trivial, trivial⟩, fun world h => ?_⟩
    have hsent : world.sent = [.finished 1] := by
      cases h
      decide
    have haccepted : world.accepted = [(.wheels, 1)] := by
      cases h
      decide
    obtain ⟨hdistinct, hfree⟩ := guards_second_stop '2' haccepted (by decide)
    exact ⟨⟨hdistinct, hfree ⟨_, by rw [hsent]; exact List.mem_singleton_self _, rfl⟩⟩,
      fun _ _ => trivial⟩
  obtain ⟨world, hexec⟩ : ∃ world, (machine robotFpu).exec {} stopTwice = some world := ⟨_, rfl⟩
  exact ⟨world, hexec,
    nothingLost_of_componentFree robotFpu world (Machine.reach_of_exec_guarded hguard hexec)⟩

/-- A second move takes the place of the first, which is never answered. -/
theorem first_stop_lost : ¬ ∀ fpu world, (machine fpu).Reach distinctIds {} world →
    NothingLost world := by
  intro hevery
  have hlost : ∃ world, (machine robotFpu).exec {} [stop '1', stop '2'] = some world ∧
      world.sent = [] ∧ (Component.wheels, 1) ∈ world.accepted ∧
      ∀ holder, world.actuators.pendingId holder ≠ some 1 := by
    refine ⟨_, rfl, rfl, by decide, ?_⟩
    intro holder
    cases holder with
    | wheels => decide
    | motor name => cases name <;> decide
    | buzzer => decide
  have hguard : (machine robotFpu).Guarded distinctIds {} [stop '1', stop '2'] := by
    refine ⟨(guards_first_stop '1').1, fun world h => ?_⟩
    have haccepted : world.accepted = [(.wheels, 1)] := by
      cases h
      decide
    exact ⟨(guards_second_stop '2' haccepted (by decide)).1, fun _ _ => trivial⟩
  obtain ⟨world, hexec, hsent, haccepted, hholder⟩ := hlost
  have run := Machine.reach_of_exec_guarded hguard hexec
  rcases hevery robotFpu world run .wheels 1 haccepted with ⟨reply, hreply, -⟩ | ⟨holder, hid⟩
  · rw [hsent] at hreply
    cases hreply
  · exact hholder holder hid

end VacuumCleaner.A1.Pending
