import VacuumCleaner.Lib.Machine

/-! `ManualControlViewModel`: the drive buttons launch coroutines of their own,
whose requests reach the robot in the order in which they are written. -/
namespace VacuumCleaner.App.ManualControl

open Lib

inductive Parameters
  | movement (direction : List Char) (speed : Int)
  | stopMovement (withBreak : Bool)
  deriving DecidableEq, Repr

structure Request where
  endpoint : List Char
  parameters : Parameters
  deriving DecidableEq, Repr

def walk (direction : List Char) (speedCmPerMinute : Int) : Request :=
  ⟨"/movement".toList, .movement direction speedCmPerMinute⟩

def stopMovement (withBreak : Bool) : Request := ⟨"/stop-movement".toList, .stopMovement withBreak⟩

/-- The methods of the view model that the drive buttons call. -/
inductive Action
  | moveForward
  | moveBackward
  | turnLeft
  | turnRight
  | stop
  deriving DecidableEq, Repr

/-- The request of an action, with the settings at the time its coroutine runs. -/
def Action.request (wheelSpeed : Int) (withBreak : Bool) : Action → Request
  | .moveForward => walk "forward".toList wheelSpeed
  | .moveBackward => walk "backward".toList wheelSpeed
  | .turnLeft => walk "left".toList wheelSpeed
  | .turnRight => walk "right".toList wheelSpeed
  | .stop => stopMovement withBreak

/-- A coroutine that has not started, or that has made its request and is about
to write it to the socket. -/
inductive Coroutine
  | launched (action : Action)
  | sending (request : Request)
  deriving DecidableEq, Repr

/-- `released` records whether the last touch was a release. -/
structure World where
  wheelSpeed : Int := 1500
  withBreak : Bool := false
  coroutines : List Coroutine := []
  received : List Request := []
  released : Bool := false
  deriving DecidableEq, Repr

/-- The buttons that can be pressed. -/
inductive Button
  | btnForward
  | btnBackward
  | btnLeft
  | btnRight
  deriving DecidableEq, Repr

def Button.onPress : Button → Action
  | .btnForward => .moveForward
  | .btnBackward => .moveBackward
  | .btnLeft => .turnLeft
  | .btnRight => .turnRight

inductive Event
  | press (button : Button)
  | release (button : Button)
  | settings (wheelSpeed : Int) (withBreak : Bool)
  | start (place : Nat)
  | send (place : Nat)
  deriving DecidableEq, Repr

namespace World

def launch (world : World) (action : Action) : World :=
  { world with coroutines := world.coroutines ++ [.launched action] }

def step (world : World) : Event → Option World
  | .press button => some { world.launch button.onPress with released := false }
  | .release _ => some { world.launch .stop with released := true }
  | .settings wheelSpeed withBreak => some { world with wheelSpeed, withBreak }
  | .start place =>
    match world.coroutines[place]? with
    | some (.launched action) =>
      some { world with
        coroutines := world.coroutines.set place
          (.sending (action.request world.wheelSpeed world.withBreak)) }
    | _ => none
  | .send place =>
    match world.coroutines[place]? with
    | some (.sending request) =>
      some { world with
        coroutines := world.coroutines.eraseIdx place, received := world.received ++ [request] }
    | _ => none

end World

def machine : Machine World Event := ⟨World.step⟩

def Request.isStop (request : Request) : Bool := request.endpoint == "/stop-movement".toList

def Coroutine.isStop : Coroutine → Bool
  | launched action => action == .stop
  | sending request => request.isStop

theorem isStop_request (action : Action) (wheelSpeed : Int) (withBreak : Bool) :
    (action.request wheelSpeed withBreak).isStop = (action == .stop) := by
  cases action <;> rfl

/-- The last command that has reached the robot is a stop. -/
def LastIsStop (world : World) : Prop := ∃ request ∈ world.received.getLast?, request.isStop = true

/-- After a release, once every coroutine has sent. -/
def Stopped (world : World) : Prop :=
  world.released = true → world.coroutines = [] → LastIsStop world

/-- The coroutines go on, but nobody touches a button. -/
def untouched (_ : World) : Event → Prop
  | .press _ | .release _ => False
  | _ => True

/-- However the coroutines are scheduled from here on. -/
def StopsAnyway (world : World) : Prop :=
  ∀ finish, machine.Reach untouched world finish → Stopped finish

/-- A button is released when no drive request is still on its way. -/
def allSent (world : World) : Event → Prop
  | .release _ => ∀ coroutine ∈ world.coroutines, coroutine.isStop = true
  | _ => True

instance (world : World) (event : Event) : Decidable (allSent world event) := by
  cases event <;> unfold allSent <;> infer_instance

/-- Only stops are on their way after a release, or one has arrived last. -/
def Quiet (world : World) : Prop :=
  world.released = true → (∀ coroutine ∈ world.coroutines, coroutine.isStop = true) ∧
    (world.coroutines = [] → LastIsStop world)

theorem Quiet.untouched {world next : World} {event : Event} (h : Quiet world)
    (huntouched : untouched world event) (hstep : machine.step world event = some next) :
    Quiet next := by
  cases event with
  | press | release => exact huntouched.elim
  | settings wheelSpeed withBreak =>
    cases hstep
    exact h
  | start place =>
    simp only [machine, World.step] at hstep
    split at hstep <;> cases hstep
    rename_i action hplace
    intro hreleased
    obtain ⟨hstops, -⟩ := h hreleased
    have haction := hstops _ (List.mem_of_getElem? hplace)
    refine ⟨fun coroutine hmem => ?_, fun hempty => ?_⟩
    · rcases List.mem_or_eq_of_mem_set hmem with hold | rfl
      · exact hstops coroutine hold
      · exact (isStop_request ..).trans haction
    · have hlt := (List.getElem?_eq_some_iff.mp hplace).1
      have hlength := congrArg List.length hempty
      rw [List.length_set, List.length_nil] at hlength
      omega
  | send place =>
    simp only [machine, World.step] at hstep
    split at hstep <;> cases hstep
    rename_i request hplace
    intro hreleased
    obtain ⟨hstops, -⟩ := h hreleased
    have hrequest := hstops _ (List.mem_of_getElem? hplace)
    refine ⟨fun coroutine hmem => hstops coroutine (List.mem_of_mem_eraseIdx hmem), fun _ => ?_⟩
    exact ⟨request, List.getLast?_concat, hrequest⟩

theorem exists_send {world : World} {before after : List Coroutine} {coroutine : Coroutine}
    (hsplit : world.coroutines = before ++ coroutine :: after) :
    ∃ next request, machine.Reach untouched world next ∧ next.coroutines = before ++ after ∧
      next.received = world.received ++ [request] ∧ request.isStop = coroutine.isStop ∧
        next.released = world.released := by
  have hsend : ∀ {world : World} {request : Request},
      world.coroutines = before ++ .sending request :: after →
      machine.step world (.send before.length) = some { world with
        coroutines := before ++ after, received := world.received ++ [request] } := by
    intro world request hsplit
    simp [machine, World.step, hsplit, List.eraseIdx_append_of_length_le]
  cases coroutine with
  | sending request => exact ⟨_, request, .one (hsend hsplit) trivial, rfl, rfl, rfl, rfl⟩
  | launched action =>
    have hstart : machine.step world (.start before.length) = some { world with
        coroutines := before ++ .sending (action.request world.wheelSpeed world.withBreak) :: after } := by
      simp [machine, World.step, hsplit]
    exact ⟨_, _, .head hstart trivial (.one (hsend rfl) trivial), rfl, rfl, isStop_request .., rfl⟩

theorem exists_send_last {world : World} {before after : List Coroutine} {coroutine : Coroutine}
    (hsplit : world.coroutines = before ++ coroutine :: after) :
    ∃ finish request, machine.Reach untouched world finish ∧ finish.coroutines = [] ∧
      finish.received.getLast? = some request ∧ request.isStop = coroutine.isStop ∧
        finish.released = world.released := by
  induction before generalizing world with
  | nil =>
    induction after generalizing world with
    | nil =>
      obtain ⟨next, request, hreach, hnil, hreceived, hstop, hreleased⟩ := exists_send hsplit
      exact ⟨next, request, hreach, hnil, by rw [hreceived, List.getLast?_concat], hstop, hreleased⟩
    | cons other after ih =>
      have hother : world.coroutines = [coroutine] ++ other :: after := hsplit
      obtain ⟨next, -, hreach, hrest, -, -, hsame⟩ := exists_send hother
      obtain ⟨finish, request, hreach', hdone, hlast, hstop, hreleased⟩ := ih hrest
      exact ⟨finish, request, hreach.trans hreach', hdone, hlast, hstop, hreleased.trans hsame⟩
  | cons other before ih =>
    have hother : world.coroutines = [] ++ other :: (before ++ coroutine :: after) := hsplit
    obtain ⟨next, -, hreach, hrest, -, -, hsame⟩ := exists_send hother
    obtain ⟨finish, request, hreach', hdone, hlast, hstop, hreleased⟩ := ih hrest
    exact ⟨finish, request, hreach.trans hreach', hdone, hlast, hstop, hreleased.trans hsame⟩

theorem stopsAnyway_iff (world : World) : StopsAnyway world ↔ Quiet world := by
  constructor
  · intro h hreleased
    refine ⟨fun coroutine hmem => ?_, h world .refl hreleased⟩
    obtain ⟨before, after, hsplit⟩ := List.append_of_mem hmem
    obtain ⟨finish, request, hreach, hdone, hlast, hstop, hsame⟩ := exists_send_last hsplit
    obtain ⟨last, hmemLast, hlastStop⟩ := h finish hreach (hsame.trans hreleased) hdone
    rw [hlast] at hmemLast
    cases hmemLast
    exact hstop.symm.trans hlastStop
  · intro h finish hreach hreleased
    have hquiet : Quiet finish := by
      apply hreach.invariant Quiet h
      intro state event next hstate huntouched hstep
      exact hstate.untouched huntouched hstep
    exact (hquiet hreleased).2

/-- A release stops the robot under every schedule exactly when, at each release,
every drive request has been sent. -/
theorem stops_throughout_iff {events : List Event} {finish : World}
    (hexec : machine.exec {} events = some finish) :
    machine.Throughout StopsAnyway {} events ↔ machine.Guarded allSent {} events := by
  apply Machine.throughout_iff StopsAnyway (fun _ => True) (fun _ _ _ _ _ _ => trivial) _ trivial _
    hexec
  · intro world event next _ hbefore hstep
    rw [stopsAnyway_iff] at hbefore ⊢
    cases event with
    | press button =>
      cases hstep
      exact iff_of_true (fun hreleased => by cases hreleased) trivial
    | release button =>
      cases hstep
      constructor
      · intro hquiet coroutine hmem
        exact (hquiet rfl).1 coroutine (List.mem_append_left _ hmem)
      · intro hsent _
        refine ⟨fun coroutine hmem => ?_, fun hempty => ?_⟩
        · rcases List.mem_append.mp hmem with hold | hnew
          · exact hsent coroutine hold
          · rw [List.mem_singleton.mp hnew]
            rfl
        · have hlength := congrArg List.length hempty
          simp [World.launch] at hlength
    | settings | start | send =>
      have hquiet : untouched world _ → Quiet next := fun h => hbefore.untouched h hstep
      exact iff_of_true (hquiet trivial) trivial
  · rw [stopsAnyway_iff]
    intro hreleased
    cases hreleased

def slowDrive : List Event := [.press .btnForward, .start 0, .send 0, .release .btnForward,
  .start 0, .send 0]

theorem stops_throughout_slowDrive : machine.Throughout StopsAnyway {} slowDrive := by
  have hguarded : machine.Guarded allSent {} slowDrive := by decide
  obtain ⟨finish, hexec⟩ : ∃ finish, machine.exec {} slowDrive = some finish := ⟨_, rfl⟩
  exact (stops_throughout_iff hexec).mpr hguarded

/-- The stop of a short press overtakes its drive request. -/
theorem drives_after_release : ∃ finish, machine.exec {} [.press .btnForward, .release .btnForward,
    .start 0, .start 1, .send 1, .send 0] = some finish ∧ ¬ Stopped finish := by
  refine ⟨_, rfl, fun hstopped => ?_⟩
  obtain ⟨request, hlast, hstop⟩ := hstopped rfl rfl
  cases hlast
  exact absurd hstop (by decide)

end VacuumCleaner.App.ManualControl
