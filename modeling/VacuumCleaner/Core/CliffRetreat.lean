import VacuumCleaner.Core.Walking
import VacuumCleaner.Core.Jobs

/-! How `Simple` backs away from a cliff. The waits for a job are loops, and only
`await_and_check` looks at the rear cliff sensors in between. -/
namespace VacuumCleaner.Core.CliffRetreat

open Lib AlgorithmLoop Models SimpleCalls
open Algorithms (Label Draw)
open Jobs (Polled)

/-- The flag that `_check_cliffs` acts on. -/
inductive FrontCliff
  | center | left | right
  deriving DecidableEq, Repr

def frontCliffOf (data : A1Data) : Option FrontCliff :=
  if data.frontCenterCliffBreakage then some .center
  else if data.frontLeftCliffBreakage then some .left
  else if data.frontRightCliffBreakage then some .right
  else none

def seesRearCliff (data : A1Data) : Bool :=
  data.backCenterCliffBreakage || data.backLeftCliffBreakage || data.backRightCliffBreakage

/-- With `sendingStop`, `await_and_check` has seen a rear cliff. `retreat` and
`endangered` only record: the cliff of a manoeuvre whose backward move is
unanswered, and whether a poll since the last instruction has found a rear cliff
meanwhile. -/
structure World where
  cleaner : Cleaner
  sendingStop : Bool := false
  retreat : Option FrontCliff := none
  endangered : Bool := false

/-- `polls` is one turn of a wait: what `Job.response` ends with, and the sensors
as they are at that moment. -/
inductive Event
  | tests
  | decides (data : A1Data) (draw : Draw)
  | goesOn
  | polls (polled : Polled Response) (data : A1Data)

namespace World

/-- The record of a decision. -/
def retreatOf (world : World) (data : A1Data) : Option FrontCliff :=
  if world.cleaner.worker = .inside .loop ∧ world.cleaner.label = .checkCliffs then
    frontCliffOf data
  else none

/-- The job is not answered, and the wait goes on or breaks off. -/
def waits (world : World) (checks : Bool) (data : A1Data) : World :=
  { world with
    sendingStop := checks && seesRearCliff data
    endangered := world.endangered || (world.retreat.isSome && seesRearCliff data) }

/-- A wait that is over. -/
def answered (args : Arguments) (state : State) (world : World) (raises : Bool) :
    Option (World × Option Call) :=
  (world.cleaner.step args state (.goesOn raises false)).map fun (cleaner, call) =>
    ({ world with cleaner, retreat := none }, call)

def poll (args : Arguments) (state : State) (world : World) (checks : Bool)
    (polled : Polled Response) (data : A1Data) : Option (World × Option Call) :=
  match polled with
  | .none => some (world.waits checks data, none)
  | .response _ => world.answered args state false
  | .instructionFailure _ | .instructionTimeout => world.answered args state true

/-- A step of the worker, and what it calls the robot for. -/
def advance (args : Arguments) (world : World) : State × Event → Option (World × Option Call)
  | (state, .tests) =>
    (world.cleaner.step args state .tests).map fun (cleaner, call) =>
      ({ world with cleaner, retreat := none }, call)
  | (state, .decides data draw) =>
    (world.cleaner.step args state (.decides data draw)).map fun (cleaner, call) =>
      ({ world with cleaner, retreat := world.retreatOf data }, call)
  | (state, .goesOn) =>
    match world.cleaner.ops, world.sendingStop with
    | .send _ :: _, _ =>
      (world.cleaner.step args state (.goesOn false false)).map fun (cleaner, call) =>
        ({ world with cleaner, endangered := false }, call)
    | .setIsLowerSpeed _ :: _, _ =>
      (world.cleaner.step args state (.goesOn false false)).map fun (cleaner, call) =>
        ({ world with cleaner }, call)
    | .awaitAndCheck :: _, true =>
      (world.cleaner.step args state (.goesOn false true)).map fun (cleaner, call) =>
        ({ world with cleaner, sendingStop := false, endangered := false }, call)
    | _, _ => none
  | (state, .polls polled data) =>
    match world.cleaner.ops, world.sendingStop with
    | .expect :: _, false => world.poll args state false polled data
    | .awaitAndCheck :: _, false => world.poll args state true polled data
    | _, _ => none

end World

def machine (args : Arguments) : Machine World (State × Event) :=
  ⟨fun world event => (world.advance args event).map Prod.fst⟩

def start (args : Arguments) (isLowerSpeed : Bool) : World :=
  { cleaner := .start args isLowerSpeed }

/-- Once a rear cliff has been seen behind the unanswered move, the next step of
the worker sends `stop_movement`, and it can take that step. -/
def StopsNext (args : Arguments) (world : World) : Prop :=
  world.endangered = true →
    (∃ event next, world.advance args event = some (next, some (.stopMovement true))) ∧
      ∀ event next call, world.advance args event = some (next, call) →
        call = some (.stopMovement true)

/-- No poll finds a rear cliff behind the move unless it is the front centre cliff
that the robot backs away from. -/
def rearClearAtSides (world : World) : State × Event → Prop
  | (_, .polls .none data) => seesRearCliff data = true →
    world.retreat ≠ some .left ∧ world.retreat ≠ some .right
  | _ => True

instance (world : World) : (event : State × Event) → Decidable (rearClearAtSides world event)
  | (_, .polls .none _) => inferInstanceAs (Decidable (_ → _))
  | (_, .polls (.response _) _) | (_, .polls (.instructionFailure _) _)
  | (_, .polls .instructionTimeout _) | (_, .tests) | (_, .decides ..) | (_, .goesOn) =>
    .isTrue trivial

/-- How the backward move is waited for. -/
def waitOf : FrontCliff → Op
  | .center => .awaitAndCheck
  | .left | .right => .expect

/-- What is left of the manoeuvre. -/
def BacksAway (front : FrontCliff) (ops : List Op) : Prop :=
  ∀ op ∈ ops, (∃ call, op = .send call) ∨ op = waitOf front

structure Inv (world : World) : Prop where
  inside : world.cleaner.ops ≠ [] → ∃ callback, world.cleaner.worker = .inside callback
  backsAway : ∀ front, world.retreat = some front → BacksAway front world.cleaner.ops
  sendingStop : world.sendingStop = true → ∃ ops, world.cleaner.ops = .awaitAndCheck :: ops
  endangered : world.endangered = true → world.sendingStop = true

section Steps

variable {args : Arguments} {world : World} {state : State}

/-- A turn of a wait that goes on leaves the operations as they are; every other
step is one of the worker whose waits are single operations. -/
theorem step_of_advance {event : State × Event} {next : World} {call : Option Call}
    (h : world.advance args event = some (next, call)) :
    next.cleaner = world.cleaner ∧ call = none ∨
      ∃ operation, world.cleaner.step args event.1 operation = some (next.cleaner, call) := by
  have htaken : ∀ {record : Cleaner × Option Call → World × Option Call} {operation},
      (world.cleaner.step args event.1 operation).map record = some (next, call) →
      (∀ taken, (record taken).1.cleaner = taken.1 ∧ (record taken).2 = taken.2) →
      ∃ operation, world.cleaner.step args event.1 operation = some (next.cleaner, call) := by
    intro record operation hstep hrecord
    obtain ⟨taken, hstep, heq⟩ := Option.map_eq_some_iff.mp hstep
    obtain ⟨hcleaner, hcall⟩ := hrecord taken
    rw [heq] at hcleaner hcall
    dsimp only at hcleaner hcall
    exact ⟨operation, by rw [hstep, hcleaner, hcall]⟩
  obtain ⟨state, event⟩ := event
  cases event with
  | tests | decides =>
    simp only [World.advance] at h
    exact .inr (htaken h fun _ => ⟨rfl, rfl⟩)
  | goesOn =>
    simp only [World.advance] at h
    split at h
    · exact .inr (htaken h fun _ => ⟨rfl, rfl⟩)
    · exact .inr (htaken h fun _ => ⟨rfl, rfl⟩)
    · exact .inr (htaken h fun _ => ⟨rfl, rfl⟩)
    · cases h
  | polls polled data =>
    have hpoll : ∀ {checks}, world.poll args state checks polled data = some (next, call) →
        next.cleaner = world.cleaner ∧ call = none ∨
          ∃ operation, world.cleaner.step args state operation = some (next.cleaner, call) := by
      intro checks hpoll
      cases polled with
      | none =>
        cases hpoll
        exact .inl ⟨rfl, rfl⟩
      | response | instructionFailure | instructionTimeout =>
        simp only [World.poll, World.answered] at hpoll
        exact .inr (htaken hpoll fun _ => ⟨rfl, rfl⟩)
    simp only [World.advance] at h
    split at h
    · exact hpoll h
    · exact hpoll h
    · cases h

/-- The decision on a front cliff. -/
theorem backsAway_decides {isLowerSpeed : Bool} {data : A1Data} {draw : Draw} {ops : List Op}
    {label : Option Label} {front : FrontCliff} (hfront : frontCliffOf data = some front)
    (h : Decides args state isLowerSpeed data draw .checkCliffs ops label) :
    BacksAway front ops := by
  unfold frontCliffOf at hfront
  cases h with
  | stepsAside hcenter =>
    rw [if_pos hcenter] at hfront
    cases hfront
    simp [BacksAway, Arguments.stepAsideAndRotate, waitOf]
  | turnsAway hcenter =>
    rw [hcenter, if_neg (by simp)] at hfront
    have hwait : waitOf front = .expect := by
      split at hfront
      · cases hfront
        rfl
      · split at hfront <;> cases hfront
        rfl
    simp [BacksAway, hwait]
  | seesNoCliff hcenter hside =>
    obtain ⟨hleft, hright⟩ := Bool.or_eq_false_iff.mp hside
    rw [hcenter, hleft, hright] at hfront
    cases hfront

theorem inside_enter (cleaner : Cleaner) (worker : Worker)
    (hops : (cleaner.enter args worker).ops ≠ []) :
    ∃ callback, (cleaner.enter args worker).worker = .inside callback := by
  cases worker with
  | inside callback => exact ⟨callback, rfl⟩
  | _ => exact absurd rfl hops

theorem Inv.still (inv : Inv world) (hops : ∀ ops, world.cleaner.ops ≠ .awaitAndCheck :: ops) :
    world.sendingStop = false := by
  apply Bool.eq_false_of_not_eq_true
  intro hsending
  obtain ⟨ops, hawait⟩ := inv.sendingStop hsending
  exact hops ops hawait

theorem Inv.safe (inv : Inv world) (hstill : world.sendingStop = false) :
    world.endangered = false := by
  apply Bool.eq_false_of_not_eq_true
  intro hdanger
  cases hstill.symm.trans (inv.endangered hdanger)

theorem Inv.of_still (hstill : world.sendingStop = false) (hsafe : world.endangered = false)
    (hinside : world.cleaner.ops ≠ [] → ∃ callback, world.cleaner.worker = .inside callback)
    (hbacks : ∀ front, world.retreat = some front → BacksAway front world.cleaner.ops) :
    Inv world where
  inside := hinside
  backsAway := hbacks
  sendingStop := fun hsending => by cases hstill.symm.trans hsending
  endangered := fun hdanger => by cases hsafe.symm.trans hdanger

theorem tail_goOn {cleaner next : Cleaner} {op : Op} {ops : List Op} {raises cliffBehind : Bool}
    {call : Option Call} (hops : cleaner.ops = op :: ops)
    (h : cleaner.step args state (.goesOn raises cliffBehind) = some (next, call)) :
    (∃ callback, cleaner.worker = .inside callback) ∧
      (next.ops = [] ∨ next.ops = ops ∧ next.worker = cleaner.worker) := by
  cases takes_of_step h with
  | operates hworker hgoOn =>
    refine ⟨⟨_, hworker⟩, ?_⟩
    cases op with
    | send command =>
      obtain ⟨-, ⟨rfl, -⟩ | ⟨rfl, -⟩⟩ := SpeedFlag.isOk_of_sent hops hgoOn
      · exact .inr ⟨rfl, rfl⟩
      · exact .inl rfl
    | setIsLowerSpeed value =>
      simp only [Cleaner.goOn, hops] at hgoOn
      cases hgoOn
      exact .inr ⟨rfl, rfl⟩
    | expect | awaitAndCheck =>
      simp only [Cleaner.goOn, hops] at hgoOn
      cases raises <;> cases hgoOn
      · exact .inr ⟨rfl, rfl⟩
      · exact .inl rfl

theorem inside_goOn {cleaner next : Cleaner} {op : Op} {ops : List Op} {raises cliffBehind : Bool}
    {call : Option Call} (hops : cleaner.ops = op :: ops)
    (h : cleaner.step args state (.goesOn raises cliffBehind) = some (next, call))
    (hnext : next.ops ≠ []) : ∃ callback, next.worker = .inside callback := by
  obtain ⟨⟨callback, hworker⟩, hnil | ⟨-, hsame⟩⟩ := tail_goOn hops h
  · exact absurd hnil hnext
  · exact ⟨callback, hsame.trans hworker⟩

theorem BacksAway.goOn {cleaner next : Cleaner} {op : Op} {ops : List Op}
    {raises cliffBehind : Bool} {call : Option Call} {front : FrontCliff}
    (hbacks : BacksAway front cleaner.ops) (hops : cleaner.ops = op :: ops)
    (h : cleaner.step args state (.goesOn raises cliffBehind) = some (next, call)) :
    BacksAway front next.ops := by
  intro other hother
  obtain ⟨-, hnil | ⟨hrest, -⟩⟩ := tail_goOn hops h
  · rw [hnil] at hother
    cases hother
  · rw [hrest] at hother
    apply hbacks
    rw [hops]
    exact .tail _ hother

theorem inv_tests {cleaner : Cleaner} {call : Option Call} (inv : Inv world)
    (h : world.cleaner.step args state .tests = some (cleaner, call)) :
    Inv { world with cleaner, retreat := none } := by
  cases takes_of_step h with
  | enters hwaits =>
    have hops : world.cleaner.ops = [] := by
      by_contra hops
      obtain ⟨callback, hworker⟩ := inv.inside hops
      exact hwaits callback hworker
    have hstill := inv.still (by simp [hops])
    refine .of_still hstill (inv.safe hstill) (inside_enter _ _) fun front hfront => ?_
    cases hfront

theorem Inv.decided {cleaner : Cleaner} {data : A1Data} (inv : Inv world)
    (hops : world.cleaner.ops = [])
    (hinside : cleaner.ops ≠ [] → ∃ callback, cleaner.worker = .inside callback)
    (hbacks : ∀ front, world.retreatOf data = some front → BacksAway front cleaner.ops) :
    Inv { world with cleaner, retreat := world.retreatOf data } := by
  have hstill := inv.still (by simp [hops])
  exact .of_still hstill (inv.safe hstill) hinside hbacks

theorem inv_decides {cleaner : Cleaner} {call : Option Call} {data : A1Data} {draw : Draw}
    (inv : Inv world)
    (h : world.cleaner.step args state (.decides data draw) = some (cleaner, call)) :
    Inv { world with cleaner, retreat := world.retreatOf data } := by
  cases takes_of_step h with
  | decides hworker hops hdecides =>
    refine inv.decided hops (fun _ => ⟨.loop, hworker⟩) fun front hfront => ?_
    obtain ⟨⟨-, hcliffs⟩, hfront⟩ := Option.ite_none_right_eq_some.mp hfront
    rw [hcliffs] at hdecides
    exact backsAway_decides hfront hdecides
  | leavesLoop _ hops =>
    apply inv.decided hops (inside_enter _ _)
    intro front _ op hop
    cases hop
  | returns hworker hother hops =>
    apply inv.decided hops (inside_enter _ _)
    intro front hfront
    obtain ⟨⟨hloop, -⟩, -⟩ := Option.ite_none_right_eq_some.mp hfront
    cases hworker.symm.trans hloop
    exact absurd rfl hother

theorem inv_goesOn {next : World} {call : Option Call} (inv : Inv world)
    (h : world.advance args (state, .goesOn) = some (next, call)) : Inv next := by
  have hbacks : ∀ {op ops raises cliffBehind cleaner sent}, world.cleaner.ops = op :: ops →
      world.cleaner.step args state (.goesOn raises cliffBehind) = some (cleaner, sent) →
      ∀ front, world.retreat = some front → BacksAway front cleaner.ops := by
    intro op ops raises cliffBehind cleaner sent hops hstep front hfront
    exact (inv.backsAway front hfront).goOn hops hstep
  simp only [World.advance] at h
  split at h
  · rename_i command ops hops
    obtain ⟨⟨cleaner, sent⟩, hstep, heq⟩ := Option.map_eq_some_iff.mp h
    cases heq
    have hstill := inv.still (by simp [hops])
    exact .of_still hstill rfl (inside_goOn hops hstep) (hbacks hops hstep)
  · rename_i value ops hops
    obtain ⟨⟨cleaner, sent⟩, hstep, heq⟩ := Option.map_eq_some_iff.mp h
    cases heq
    have hstill := inv.still (by simp [hops])
    exact .of_still hstill (inv.safe hstill) (inside_goOn hops hstep) (hbacks hops hstep)
  · rename_i ops hops hsending
    obtain ⟨⟨cleaner, sent⟩, hstep, heq⟩ := Option.map_eq_some_iff.mp h
    cases heq
    exact .of_still rfl rfl (inside_goOn hops hstep) (hbacks hops hstep)
  · cases h

theorem inv_answered {next : World} {call : Option Call} {raises : Bool} {op : Op} {ops : List Op}
    (inv : Inv world) (hops : world.cleaner.ops = op :: ops) (hstill : world.sendingStop = false)
    (h : world.answered args state raises = some (next, call)) : Inv next := by
  obtain ⟨⟨cleaner, sent⟩, hstep, heq⟩ := Option.map_eq_some_iff.mp h
  cases heq
  refine .of_still hstill (inv.safe hstill) (inside_goOn hops hstep) fun front hfront => ?_
  cases hfront

theorem inv_poll {next : World} {call : Option Call} {checks : Bool} {polled : Polled Response}
    {data : A1Data} {op : Op} {ops : List Op} (inv : Inv world)
    (hops : world.cleaner.ops = op :: ops) (hstill : world.sendingStop = false)
    (hchecks : checks = true → op = .awaitAndCheck)
    (hclear : polled = .none → seesRearCliff data = true → world.retreat ≠ none → checks = true)
    (h : world.poll args state checks polled data = some (next, call)) : Inv next := by
  have hsafe := inv.safe hstill
  cases polled with
  | none =>
    cases h
    constructor
    · exact inv.inside
    · exact inv.backsAway
    · intro hsending
      obtain ⟨htrue, -⟩ := Bool.and_eq_true_iff.mp hsending
      exact ⟨ops, by rw [World.waits, hops, hchecks htrue]⟩
    · intro hdanger
      simp only [World.waits, hsafe, Bool.false_or, Bool.and_eq_true] at hdanger ⊢
      obtain ⟨hretreat, hsees⟩ := hdanger
      refine ⟨hclear rfl hsees ?_, hsees⟩
      exact Option.isSome_iff_ne_none.mp hretreat
  | response | instructionFailure | instructionTimeout =>
    exact inv_answered inv hops hstill h

theorem inv_polls {next : World} {call : Option Call} {polled : Polled Response} {data : A1Data}
    (inv : Inv world) (hclear : rearClearAtSides world (state, .polls polled data))
    (h : world.advance args (state, .polls polled data) = some (next, call)) : Inv next := by
  simp only [World.advance] at h
  split at h
  · rename_i ops hops hstill
    apply inv_poll inv hops hstill (by simp) _ h
    rintro rfl hsees hretreat
    obtain ⟨front, hfront⟩ := Option.ne_none_iff_exists'.mp hretreat
    obtain ⟨hleft, hright⟩ := hclear hsees
    rcases inv.backsAway front hfront .expect (by simp [hops]) with ⟨call, hsend⟩ | hwait
    · cases hsend
    · cases front with
      | center => cases hwait
      | left => exact absurd hfront hleft
      | right => exact absurd hfront hright
  · rename_i ops hops hstill
    exact inv_poll inv hops hstill (fun _ => rfl) (fun _ _ _ => rfl) h
  · cases h

theorem inv_step {next : World} {event : State × Event} (inv : Inv world)
    (hclear : rearClearAtSides world event) (h : (machine args).step world event = some next) :
    Inv next := by
  obtain ⟨⟨after, call⟩, hadvance, heq⟩ := Option.map_eq_some_iff.mp h
  cases heq
  obtain ⟨state, event⟩ := event
  cases event with
  | tests =>
    obtain ⟨⟨cleaner, sent⟩, hstep, heq⟩ := Option.map_eq_some_iff.mp hadvance
    cases heq
    exact inv_tests inv hstep
  | decides data draw =>
    obtain ⟨⟨cleaner, sent⟩, hstep, heq⟩ := Option.map_eq_some_iff.mp hadvance
    cases heq
    exact inv_decides inv hstep
  | goesOn => exact inv_goesOn inv hadvance
  | polls polled data => exact inv_polls inv hclear hadvance

theorem Inv.stopsNext (inv : Inv world) : StopsNext args world := by
  intro hdanger
  have hsending := inv.endangered hdanger
  obtain ⟨ops, hops⟩ := inv.sendingStop hsending
  obtain ⟨callback, hworker⟩ := inv.inside (by rw [hops]; simp)
  constructor
  · refine ⟨(.running, .goesOn), ⟨{ world.cleaner with ops }, false, world.retreat, false⟩, ?_⟩
    simp only [World.advance, hops, hsending, Cleaner.step, hworker, Cleaner.goOn]
    rfl
  · rintro ⟨state, event⟩ next call h
    cases event with
    | tests =>
      simp only [World.advance, Cleaner.step, hworker] at h
      cases h
    | decides data draw =>
      simp only [World.advance, Cleaner.step, hworker, hops] at h
      cases h
    | goesOn =>
      simp only [World.advance, hops, hsending, Cleaner.step, hworker, Cleaner.goOn] at h
      cases h
      rfl
    | polls polled data =>
      simp only [World.advance, hops, hsending] at h
      cases h

theorem not_stopsNext {next : World} {data : A1Data} (inv : Inv world)
    (hside : world.retreat = some .left ∨ world.retreat = some .right)
    (hsees : seesRearCliff data = true)
    (h : (machine args).step world (state, .polls .none data) = some next) :
    ¬ StopsNext args next := by
  obtain ⟨⟨after, call⟩, hadvance, heq⟩ := Option.map_eq_some_iff.mp h
  cases heq
  have hwait : ∃ front, world.retreat = some front ∧ waitOf front = .expect := by
    rcases hside with hside | hside <;> exact ⟨_, hside, rfl⟩
  obtain ⟨front, hfront, hwait⟩ := hwait
  simp only [World.advance] at hadvance
  split at hadvance
  · rename_i ops hops hstill
    cases hadvance
    intro hstops
    have hdanger : (world.waits false data).endangered = true := by
      simp [World.waits, hfront, hsees]
    have hagain := (hstops hdanger).2 (state, .polls .none data)
      ((world.waits false data).waits false data) none
    simp only [World.advance, World.waits, hops] at hagain
    cases hagain rfl
  · rename_i ops hops hstill
    rcases inv.backsAway front hfront .awaitAndCheck (by simp [hops]) with ⟨call, hsend⟩ | hop
    · cases hsend
    · cases hop.trans hwait
  · cases hadvance

end Steps

/-- Exactly the runs in which no rear cliff comes up behind the backward move of
the front left or the front right cliff. -/
theorem stopsNext_throughout_iff (args : Arguments) (isLowerSpeed : Bool)
    (events : List (State × Event)) (finish : World)
    (hexec : (machine args).exec (start args isLowerSpeed) events = some finish) :
    (machine args).Throughout (StopsNext args) (start args isLowerSpeed) events ↔
      (machine args).Guarded rearClearAtSides (start args isLowerSpeed) events := by
  have hstart : Inv (start args isLowerSpeed) := by
    constructor
    · exact fun _ => ⟨.onPrepare, rfl⟩
    · intro front hfront
      cases hfront
    · intro hsending
      cases hsending
    · intro hdanger
      cases hdanger
  apply Machine.throughout_iff (StopsNext args) Inv _ _ hstart hstart.stopsNext hexec
  · intro world event next inv hclear hstep
    exact inv_step inv hclear hstep
  · intro world event next inv _ hstep
    constructor
    · intro hstops
      obtain ⟨state, event⟩ := event
      cases event with
      | polls polled data =>
        cases polled with
        | none =>
          intro hsees
          rw [← not_or]
          intro hside
          exact not_stopsNext inv hside hsees hstep hstops
        | response | instructionFailure | instructionTimeout => trivial
      | tests | decides | goesOn => trivial
    · intro hclear
      exact (inv_step inv hclear hstep).stopsNext

def runs (events : List Event) : List (State × Event) := events.map fun event => (.running, event)

def sends : List Event := [.goesOn]

/-- A wait whose job is answered at once. -/
def answers : List Event := [.polls (.response ⟨0, true, 0, none, none⟩) {}]

def unanswered (data : A1Data) : List Event := [.polls .none data]

def decidesOn (data : A1Data) : List Event := [.decides data ⟨true, 90⟩]

/-- The motors start, and the robot walks until its cliffs are looked at. -/
def untilCliffs : List Event :=
  sends ++ sends ++ sends ++ sends ++ answers ++ answers ++ answers ++ answers ++
  decidesOn {} ++ decidesOn {} ++ sends ++ answers ++ decidesOn {} ++ decidesOn {} ++
  sends ++ answers ++ sends ++ decidesOn {}

/-- Behind the move away from a front centre cliff, a rear cliff comes up. -/
def stopsAtRearCliff : List (State × Event) :=
  runs (untilCliffs ++ decidesOn { frontCenterCliffBreakage := true } ++ sends ++ unanswered {} ++
    unanswered { backLeftCliffBreakage := true } ++ sends ++ sends ++ answers)

theorem stopsNext_stopsAtRearCliff : (machine Walking.cliffsEnabled).Throughout
    (StopsNext Walking.cliffsEnabled) (start Walking.cliffsEnabled false) stopsAtRearCliff := by
  have hguarded : (machine Walking.cliffsEnabled).Guarded rearClearAtSides
      (start Walking.cliffsEnabled false) stopsAtRearCliff := by decide
  obtain ⟨finish, hexec⟩ : ∃ finish, (machine Walking.cliffsEnabled).exec
      (start Walking.cliffsEnabled false) stopsAtRearCliff = some finish := ⟨_, rfl⟩
  exact (stopsNext_throughout_iff Walking.cliffsEnabled false stopsAtRearCliff finish hexec).mpr
    hguarded

/-- Behind the move away from a front left cliff, a rear cliff comes up. -/
def backsOverRearCliff : List (State × Event) :=
  runs (untilCliffs ++ decidesOn { frontLeftCliffBreakage := true } ++ sends ++
    unanswered { backLeftCliffBreakage := true })

/-- The worker waits on, and turns when the move is over. -/
theorem not_stopsNext_backsOverRearCliff : ¬ ∀ args isLowerSpeed events finish,
    (machine args).exec (start args isLowerSpeed) events = some finish → StopsNext args finish := by
  intro hevery
  obtain ⟨finish, waiting, hexec, hdanger, hwaits⟩ : ∃ finish waiting,
      (machine Walking.cliffsEnabled).exec (start Walking.cliffsEnabled false)
        backsOverRearCliff = some finish ∧
      finish.endangered = true ∧
      finish.advance Walking.cliffsEnabled
        (.running, .polls .none { backLeftCliffBreakage := true }) = some (waiting, none) :=
    ⟨_, _, rfl, rfl, rfl⟩
  have hstops := hevery Walking.cliffsEnabled false backsOverRearCliff finish hexec hdanger
  cases hstops.2 _ _ _ hwaits

end VacuumCleaner.Core.CliffRetreat
