import VacuumCleaner.Core.SpeedFlag

/-! Whether the robot walks when an inner iteration of `Simple.loop` begins. A
manoeuvre leaves it standing, and the outer loop has to set it walking again. -/
namespace VacuumCleaner.Core.Walking

open Lib AlgorithmLoop Models SimpleCalls
open Algorithms (Label Draw)

def isMovement : Call → Bool
  | .walk .. | .move .. | .turn .. => true
  | .setVacuumMotor _ | .setLeftBrushMotor _ | .setRightBrushMotor _ | .setMainBrushMotor _ => false

/-- The movement instruction that a step has sent. A call that cannot be
formatted sends none. -/
def movementOf : Option Call → Option Call
  | some call => if isMovement call && call.instruction.isOk then some call else none
  | none => none

/-- `lastMovement` and `strayed` only record: the last movement instruction sent,
and whether the inner iteration has met a front cliff, or a break event behind
its move backward. -/
structure Watched where
  cleaner : Cleaner
  lastMovement : Option Call := none
  strayed : Bool := false

def seesFrontCliff (data : A1Data) : Bool :=
  data.frontCenterCliffBreakage || data.frontLeftCliffBreakage || data.frontRightCliffBreakage

def strays (state : State) (data : A1Data) (strayed : Bool) : Label → Bool
  | .movedBackward => state.isBreakEvent
  | .checkCliffs => strayed || seesFrontCliff data
  | .outerTest | .innerTest | .correctSpeed | .checkBumpers => false

def straysIn (watched : Watched) : State × SimpleCalls.Event → Bool
  | (state, .decides data _) => strays state data watched.strayed watched.cleaner.label
  | _ => watched.strayed

/-- A step of the worker, beside others who write the state as they like. -/
def Watched.step (args : Arguments) (watched : Watched) (event : State × SimpleCalls.Event) :
    Option Watched :=
  (watched.cleaner.step args event.1 event.2).map fun (cleaner, call) =>
    { cleaner
      lastMovement := (movementOf call).or watched.lastMovement
      strayed := straysIn watched event }

def machine (args : Arguments) : Machine Watched (State × SimpleCalls.Event) := ⟨Watched.step args⟩

def start (args : Arguments) (isLowerSpeed : Bool) : Watched :=
  { cleaner := .start args isLowerSpeed }

/-- The inner test has found no break event, and the iteration begins. -/
def BeginsIteration (cleaner : Cleaner) : Prop :=
  cleaner.worker = .inside .loop ∧ cleaner.ops = [] ∧ cleaner.label = .correctSpeed

def BeginsWalking (watched : Watched) : Prop :=
  BeginsIteration watched.cleaner → ∃ speed, watched.lastMovement = some (.walkForward speed)

/-- Behind a front cliff, or a move backward that met a break event, the inner
test finds a break event. -/
def leavesAfterManoeuvre (watched : Watched) : State × SimpleCalls.Event → Prop
  | (state, .decides _ _) => watched.cleaner.worker = .inside .loop →
    watched.cleaner.label = .innerTest → watched.strayed = true → state.isBreakEvent = true
  | _ => True

instance (watched : Watched) : (event : State × SimpleCalls.Event) →
    Decidable (leavesAfterManoeuvre watched event)
  | (_, .decides _ _) => inferInstanceAs (Decidable (_ → _))
  | (_, .tests) | (_, .goesOn _ _) => .isTrue trivial

def walks : Option Call → Bool
  | some (.walk true _) => true
  | _ => false

/-- Whether the robot walks once the operations are through, however their waits end. -/
def Ends (walking : Bool) : List Op → Bool → Prop
  | [], before => before = walking
  | .send call :: ops, before =>
    Ends walking ops (if isMovement call then walks (some call) else before)
  | .awaitAndCheck :: ops, before => Ends walking ops before ∧ Ends walking ops false
  | .expect :: ops, before | .setIsLowerSpeed _ :: ops, before => Ends walking ops before

/-- What the place in the loop says about walking. -/
def expected (strayed : Bool) : Label → Option Bool
  | .outerTest => none
  | .innerTest | .checkCliffs => some !strayed
  | .correctSpeed | .checkBumpers => some true
  | .movedBackward => some false

def Inv (watched : Watched) : Prop :=
  watched.cleaner.worker = .inside .loop →
    ∀ walking, expected watched.strayed watched.cleaner.label = some walking →
      Ends walking watched.cleaner.ops (walks watched.lastMovement)

section Steps

variable {args : Arguments} {cleaner next : Cleaner} {lastMovement : Option Call}

theorem walks_iff : walks lastMovement = true ↔
    ∃ speed, lastMovement = some (.walkForward speed) := by
  constructor
  · intro hwalks
    unfold walks at hwalks
    split at hwalks
    · rename_i speed
      exact ⟨speed, rfl⟩
    · cases hwalks
  · rintro ⟨speed, rfl⟩
    rfl

theorem walks_sent {call : Call} (hok : call.instruction.isOk = true) :
    walks ((movementOf (some call)).or lastMovement) =
      if isMovement call then walks (some call) else walks lastMovement := by
  simp only [movementOf, hok, Bool.and_true]
  split <;> rfl

@[simp] theorem isMovement_turn (left : Bool) (angle : Int) :
    isMovement (args.turn left angle) = true := by
  cases left <;> rfl

@[simp] theorem walks_turn (left : Bool) (angle : Int) :
    walks (some (args.turn left angle)) = false := by
  cases left <;> rfl

@[simp] theorem isMovement_moveBackward (distance : PyNumber) :
    isMovement (args.moveBackward distance) = true := rfl

@[simp] theorem walks_moveBackward (distance : PyNumber) :
    walks (some (args.moveBackward distance)) = false := rfl

theorem ends_goOn {raises cliffBehind : Bool} {call : Option Call}
    (h : cleaner.goOn raises cliffBehind = some (next, call)) :
    next.worker = .died ∨ next.worker = cleaner.worker ∧ next.label = cleaner.label ∧
      ∀ walking, Ends walking cleaner.ops (walks lastMovement) →
        Ends walking next.ops (walks ((movementOf call).or lastMovement)) := by
  obtain ⟨worker, ops, label, isLowerSpeed⟩ := cleaner
  cases ops with
  | nil => cases h
  | cons op ops =>
    cases op with
    | send command =>
      obtain ⟨rfl, ⟨rfl, hok⟩ | ⟨rfl, -⟩⟩ := SpeedFlag.isOk_of_sent rfl h
      · refine .inr ⟨rfl, rfl, fun walking hends => ?_⟩
        rw [walks_sent hok]
        exact hends
      · exact .inl rfl
    | expect =>
      cases raises <;> cases h
      · exact .inr ⟨rfl, rfl, fun _ hends => hends⟩
      · exact .inl rfl
    | setIsLowerSpeed value =>
      cases h
      exact .inr ⟨rfl, rfl, fun _ hends => hends⟩
    | awaitAndCheck =>
      cases raises <;> cases h
      · cases cliffBehind
        · exact .inr ⟨rfl, rfl, fun _ hends => hends.1⟩
        · exact .inr ⟨rfl, rfl, fun _ hends => hends.2⟩
      · exact .inl rfl

theorem expected_behindBumpers (strayed cliffEnabled : Bool) :
    expected strayed (if cliffEnabled then .checkCliffs else .innerTest) = some !strayed := by
  cases cliffEnabled <;> rfl

theorem ends_decides {state : State} {isLowerSpeed strayed before : Bool} {data : A1Data}
    {draw : Draw} {label after : Label} {ops : List Op}
    (hbefore : ∀ walking, expected strayed label = some walking → before = walking)
    (hleaves : label = .innerTest → strayed = true → state.isBreakEvent = true)
    (h : Decides args state isLowerSpeed data draw label ops (some after)) :
    ∀ walking, expected (strays state data strayed label) after = some walking →
      Ends walking ops before := by
  intro walking hwalking
  cases h with
  | walks | slowsDown | speedsUp | bumps =>
    cases hwalking
    rfl
  | leaves | turns => cases hwalking
  | iterates hbreak =>
    cases hwalking
    cases strayed with
    | true => cases hbreak.symm.trans (hleaves rfl rfl)
    | false => exact hbefore true rfl
  | keepsSpeed =>
    cases hwalking
    exact hbefore true rfl
  | touchesNothing =>
    rw [expected_behindBumpers] at hwalking
    cases hwalking
    exact hbefore true rfl
  | interrupted hbreak =>
    rw [expected_behindBumpers, strays, hbreak] at hwalking
    cases hwalking
    exact hbefore false rfl
  | stepsAside hcenter =>
    have hseen : seesFrontCliff data = true := by simp [seesFrontCliff, hcenter]
    rw [strays, hseen, Bool.or_true] at hwalking
    cases hwalking
    simp [Arguments.stepAsideAndRotate, Ends]
  | turnsAway _ hside =>
    have hseen : seesFrontCliff data = true := by
      rw [seesFrontCliff, Bool.or_assoc, hside, Bool.or_true]
    rw [strays, hseen, Bool.or_true] at hwalking
    cases hwalking
    simp [Ends]
  | seesNoCliff hcenter hside =>
    have hunseen : seesFrontCliff data = false := by
      rw [seesFrontCliff, Bool.or_assoc, hcenter, hside]
      rfl
    rw [strays, hunseen, Bool.or_false] at hwalking
    exact hbefore walking hwalking

theorem label_enter {worker : Worker} (h : (cleaner.enter args worker).worker = .inside .loop) :
    (cleaner.enter args worker).label = .outerTest := by
  cases worker <;> first | rfl | cases h

end Steps

section Runs

variable {args : Arguments} {watched next : Watched} {event : State × SimpleCalls.Event}

theorem inv_of_enter {cleaner : Cleaner} {worker : Worker} {lastMovement : Option Call}
    {strayed : Bool} : Inv ⟨cleaner.enter args worker, lastMovement, strayed⟩ := by
  intro hloop walking hwalking
  rw [show Watched.cleaner _ = cleaner.enter args worker from rfl, label_enter hloop] at hwalking
  cases hwalking

theorem inv_step (hinv : Inv watched) (hleaves : leavesAfterManoeuvre watched event)
    (h : watched.step args event = some next) : Inv next := by
  obtain ⟨state, event⟩ := event
  obtain ⟨⟨cleaner, call⟩, hstep, rfl⟩ := Option.map_eq_some_iff.mp h
  cases takes_of_step hstep with
  | enters | leavesLoop | returns => exact inv_of_enter
  | operates _ hgoOn =>
    intro hloop walking hwalking
    rcases ends_goOn hgoOn with hdied | ⟨hworker, hlabel, hends⟩
    · rw [show cleaner.worker = .inside .loop from hloop] at hdied
      cases hdied
    · apply hends walking
      apply hinv (hworker.symm.trans hloop) walking
      rw [← hlabel]
      exact hwalking
  | decides hworker hops hdecides =>
    intro _
    apply ends_decides _ (hleaves hworker) hdecides
    intro walking hwalking
    have hends := hinv hworker walking hwalking
    rw [hops] at hends
    exact hends

theorem Inv.beginsWalking (hinv : Inv watched) : BeginsWalking watched := by
  rintro ⟨hloop, hops, hlabel⟩
  have hends := hinv hloop true (by rw [hlabel]; rfl)
  rw [hops] at hends
  exact walks_iff.mp hends

theorem leaves_of_beginsWalking (hinv : Inv watched)
    (h : watched.step args event = some next) (hwalking : BeginsWalking next) :
    leavesAfterManoeuvre watched event := by
  obtain ⟨state, event⟩ := event
  obtain ⟨⟨cleaner, call⟩, hstep, rfl⟩ := Option.map_eq_some_iff.mp h
  cases takes_of_step hstep with
  | enters | operates => trivial
  | leavesLoop _ _ hdecides =>
    intro _ hlabel
    rw [hlabel] at hdecides
    cases hdecides
  | returns hworker hother =>
    intro hloop
    cases hworker.symm.trans hloop
    exact absurd rfl hother
  | decides hworker hops hdecides =>
    intro _ hlabel hstrayed
    rw [hlabel] at hdecides
    cases hdecides with
    | leaves hbreak => exact hbreak
    | iterates =>
      have hends := hinv hworker false (by rw [hlabel, hstrayed]; rfl)
      rw [hops] at hends
      have hwalks := walks_iff.mpr (hwalking ⟨hworker, rfl, rfl⟩)
      cases hwalks.symm.trans hends

/-- Every inner iteration of a run begins walking exactly when none that begins
follows a manoeuvre. -/
theorem beginsWalking_throughout_iff (args : Arguments) (isLowerSpeed : Bool)
    (events : List (State × SimpleCalls.Event)) (finish : Watched)
    (hexec : (machine args).exec (start args isLowerSpeed) events = some finish) :
    (machine args).Throughout BeginsWalking (start args isLowerSpeed) events ↔
      (machine args).Guarded leavesAfterManoeuvre (start args isLowerSpeed) events := by
  have hstart : Inv (start args isLowerSpeed) := by
    intro hloop
    cases hloop
  apply Machine.throughout_iff BeginsWalking Inv _ _ hstart hstart.beginsWalking hexec
  · intro watched event next hinv hleaves hstep
    exact inv_step hinv hleaves hstep
  · intro watched event next hinv _ hstep
    constructor
    · exact leaves_of_beginsWalking hinv hstep
    · intro hleaves
      exact (inv_step hinv hleaves hstep).beginsWalking

end Runs

def runs (state : State) (events : List SimpleCalls.Event) : List (State × SimpleCalls.Event) :=
  events.map fun event => (state, event)

def proceeds (times : Nat) : List SimpleCalls.Event := List.replicate times (.goesOn false false)

def decidesOn (data : A1Data) : List SimpleCalls.Event := [.decides data ⟨true, 90⟩]

/-- The default arguments with the cliff checks on. -/
def cliffsEnabled : Arguments := { SpeedFlag.thousand with cliffEnabled := true }

/-- The motors start, and the robot walks until its bumpers are looked at. -/
def untilBumpers : List SimpleCalls.Event :=
  proceeds 8 ++ decidesOn {} ++ decidesOn {} ++ proceeds 2 ++ decidesOn {} ++ decidesOn {} ++
    proceeds 3

/-- A bumper turns the robot aside. -/
def turnedAside : List (State × SimpleCalls.Event) :=
  runs .running (untilBumpers ++ decidesOn { endLeftTrig := true } ++ proceeds 2 ++ decidesOn {} ++
    proceeds 2 ++ decidesOn {} ++ proceeds 2 ++ decidesOn {})

theorem beginsWalking_turnedAside : (machine cliffsEnabled).Throughout BeginsWalking
    (start cliffsEnabled false) turnedAside := by
  have hguarded : (machine cliffsEnabled).Guarded leavesAfterManoeuvre
      (start cliffsEnabled false) turnedAside := by decide
  obtain ⟨finish, hexec⟩ : ∃ finish,
      (machine cliffsEnabled).exec (start cliffsEnabled false) turnedAside = some finish := ⟨_, rfl⟩
  exact (beginsWalking_throughout_iff cliffsEnabled false turnedAside finish hexec).mpr hguarded

/-- One iteration meets a cliff at the front left. -/
def cliffMet : List (State × SimpleCalls.Event) :=
  runs .running (untilBumpers ++ decidesOn {} ++ decidesOn { frontLeftCliffBreakage := true } ++
    proceeds 4 ++ decidesOn {})

/-- Behind a cliff the next iteration begins with the robot turned, and standing. -/
theorem not_beginsWalking_cliffMet : ¬ ∀ args isLowerSpeed events finish,
    (machine args).exec (start args isLowerSpeed) events = some finish → BeginsWalking finish := by
  intro hevery
  obtain ⟨finish, hexec, hlast, hbegins⟩ : ∃ finish,
      (machine cliffsEnabled).exec (start cliffsEnabled false) cliffMet = some finish ∧
      finish.lastMovement = some (.turnRight (.int 90) (.int 1000) true) ∧
      BeginsIteration finish.cleaner := ⟨_, rfl, rfl, rfl, rfl, rfl⟩
  obtain ⟨speed, hwalk⟩ := hevery cliffsEnabled false cliffMet finish hexec hbegins
  rw [hlast] at hwalk
  cases hwalk

end VacuumCleaner.Core.Walking
