import VacuumCleaner.A1.Power
import VacuumCleaner.Lib.Machine

/-! The board and A1 together: when the power is cut by a command. The history
notes what the two devices do but do not remember. -/
namespace VacuumCleaner.Link.PowerOff

open A1 A1.InstructionHandler A1.Fields PowerController Lib

inductive Note
  | enteredShuttingDown | acceptedTurnOff | cut
  deriving DecidableEq, Repr

/-- Both devices, and the notes with the newest first. -/
structure World where
  board : Board := {}
  a1 : Power := {}
  history : List Note := []
  deriving DecidableEq, Repr

inductive Event
  | instruction (now : UInt32) (line : List Char) (beyond : StackBytes)
  | timerCheck (now : UInt32)
  | powerTick
  | boardLoop (buttonState : ButtonState) (pins : Pins)
  | restart

/-- A command reaches the board. -/
def World.send (world : World) (command : UInt8) : World :=
  let board := world.board.onReceiveCommand command
  if world.board.currentStatus = .turnedOn ∧ board.currentStatus = .shuttingDown then
    { world with board, history := .enteredShuttingDown :: world.history }
  else if world.board.currentStatus = .shuttingDown ∧ board.currentStatus = .turnedOff then
    { world with board, history := .cut :: world.history }
  else { world with board }

def asksForCut : Callback → Bool
  | .onCutOffThePower | .onSetTimerToTurnOff => true
  | _ => false

/-- A1 has run a callback: state, acceptance and the commands it sends. -/
def World.run (world : World) (name : Callback) : Power.Outcome → World
  | (a1, commands, errorCode) =>
    let history :=
      if asksForCut name ∧ errorCode = none then .acceptedTurnOff :: world.history
      else world.history
    commands.foldl World.send { world with a1, history }

def World.boardLoop (world : World) (buttonState : ButtonState) (pins : Pins) : World :=
  let board := world.board.loop buttonState pins
  if world.board.currentStatus = .turnedOn ∧ board.currentStatus = .shuttingDown then
    { world with board, history := .enteredShuttingDown :: world.history }
  else { world with board }

/-- A1 loses its memory only while the relay keeps it without power. -/
def World.step (world : World) : Event → Option World
  | .instruction now line beyond =>
    match handle line with
    | .ok name _ value =>
      (Power.callback value world.a1 beyond now name).map (world.run name)
    | _ => none
  | .timerCheck now => some ((world.a1.timerCommands now).foldl World.send world)
  | .powerTick => some { world with a1 := world.a1.tick world.board.requestEvent }
  | .boardLoop buttonState pins => some (world.boardLoop buttonState pins)
  | .restart => if world.board.relayIsHigh then none else some { world with a1 := {} }

def machine : Machine World Event := ⟨World.step⟩

/-- Since the last entry into SHUTTING_DOWN A1 has accepted a turn off. -/
def Asked (history : List Note) : Prop :=
  .acceptedTurnOff ∈ history.takeWhile (· ≠ .enteredShuttingDown)

instance : DecidablePred Asked := fun history =>
  inferInstanceAs (Decidable (.acceptedTurnOff ∈ history.takeWhile (· ≠ .enteredShuttingDown)))

def CutsAsked : List Note → Prop
  | [] => True
  | .cut :: history => Asked history ∧ CutsAsked history
  | _ :: history => CutsAsked history

/-- The board enters SHUTTING_DOWN only while A1's timer is not armed. -/
def timerUnarmed (world : World) : Event → Prop
  | .instruction _ line _ => ∀ id value, handle line = .ok .onSetShuttingDownState id value →
      world.board.currentStatus = .turnedOn → world.a1.timeToTurnOff = 0
  | .boardLoop .pressed _ => world.board.currentStatus = .turnedOn → world.a1.timeToTurnOff = 0
  | _ => True

theorem asked_acceptedTurnOff (history : List Note) : Asked (.acceptedTurnOff :: history) := by
  unfold Asked
  rw [List.takeWhile_cons_of_pos (by decide)]
  exact List.mem_cons_self ..

/-- While the board shuts down, an armed timer was armed for this shutdown. -/
structure Inv (world : World) : Prop where
  cutsAsked : CutsAsked world.history
  armed : world.board.currentStatus = .shuttingDown → world.a1.timeToTurnOff ≠ 0 →
    Asked world.history

theorem Inv.send {world : World} {command : UInt8} (hinv : Inv world)
    (henter : command = setShuttingDownState → world.board.currentStatus = .turnedOn →
      world.a1.timeToTurnOff = 0)
    (hcut : command = setTurnedOffState → world.board.currentStatus = .shuttingDown →
      Asked world.history) : Inv (world.send command) := by
  unfold World.send
  dsimp only
  split
  · rename_i hentered
    have hbefore : world.board.currentStatus ≠ .shuttingDown := by simp [hentered.1]
    obtain ⟨hcommand, hon⟩ := Board.shuttingDown_of_onReceiveCommand hbefore hentered.2
    exact ⟨hinv.cutsAsked, fun _ harmed => absurd (henter hcommand hon) harmed⟩
  split
  · rename_i hcutting
    have hbefore : world.board.currentStatus ≠ .turnedOff := by simp [hcutting.1]
    obtain ⟨hcommand, hshutting⟩ := Board.turnedOff_of_onReceiveCommand hbefore hcutting.2
    refine ⟨⟨hcut hcommand hshutting, hinv.cutsAsked⟩, fun hafter => ?_⟩
    rw [hcutting.2] at hafter
    cases hafter
  · rename_i hentered _
    refine ⟨hinv.cutsAsked, fun hshutting harmed => hinv.armed ?_ harmed⟩
    by_contra hbefore
    have hon := (Board.shuttingDown_of_onReceiveCommand hbefore hshutting).2
    exact hentered ⟨hon, hshutting⟩

theorem Inv.send_other {world : World} {command : UInt8} (hinv : Inv world)
    (henter : command ≠ setShuttingDownState) (hcut : command ≠ setTurnedOffState) :
    Inv (world.send command) :=
  hinv.send (fun h => absurd h henter) fun h => absurd h hcut

theorem Inv.boardLoop {world : World} {buttonState : ButtonState} {pins : Pins} (hinv : Inv world)
    (henter : buttonState = .pressed → world.board.currentStatus = .turnedOn →
      world.a1.timeToTurnOff = 0) : Inv (world.boardLoop buttonState pins) := by
  unfold World.boardLoop
  dsimp only
  split
  · rename_i hentered
    rw [Board.currentStatus_loop] at hentered
    have hbefore : world.board.currentStatus ≠ .shuttingDown := by simp [hentered.1]
    obtain ⟨hpressed, hon⟩ := Board.shuttingDown_of_handleButton hbefore hentered.2
    exact ⟨hinv.cutsAsked, fun _ harmed => absurd (henter hpressed hon) harmed⟩
  · rename_i hentered
    refine ⟨hinv.cutsAsked, fun hshutting harmed => hinv.armed ?_ harmed⟩
    by_contra hbefore
    dsimp only at hshutting
    have hbutton := hshutting
    rw [Board.currentStatus_loop] at hbutton
    exact hentered ⟨(Board.shuttingDown_of_handleButton hbefore hbutton).2, hshutting⟩

theorem Inv.same {world : World} (hinv : Inv world) (a1 : Power)
    (htimer : a1.timeToTurnOff = world.a1.timeToTurnOff) : Inv { world with a1 } := by
  refine ⟨hinv.cutsAsked, fun hshutting harmed => hinv.armed hshutting ?_⟩
  rwa [htimer] at harmed

theorem Inv.accepted {world : World} (hinv : Inv world) (a1 : Power) :
    Inv { world with a1, history := .acceptedTurnOff :: world.history } :=
  ⟨hinv.cutsAsked, fun _ _ => asked_acceptedTurnOff _⟩

theorem Inv.run {world : World} {name : Callback} {outcome : Power.Outcome} (hinv : Inv world)
    (value : List Char) (beyond : StackBytes) (now : UInt32)
    (hcallback : Power.callback value world.a1 beyond now name = some outcome)
    (henter : name = .onSetShuttingDownState → world.board.currentStatus = .turnedOn →
      world.a1.timeToTurnOff = 0) : Inv (world.run name outcome) := by
  cases name <;> simp only [Power.callback, Option.some.injEq, reduceCtorEq] at hcallback
  case onHasBeenInitialized =>
    unfold Power.onHasBeenInitialized at hcallback
    split at hcallback <;> cases hcallback
    · exact hinv.send_other (by decide) (by decide)
    · exact hinv.send_other (by decide) (by decide)
    · exact hinv
  case onSetShuttingDownState =>
    cases hcallback
    exact hinv.send (fun _ => henter rfl) fun h => absurd h (by decide)
  case onCutOffThePower =>
    cases hcallback
    exact (hinv.accepted world.a1).send (fun h => absurd h (by decide))
      fun _ _ => asked_acceptedTurnOff _
  case onSetErrorStateInPowerController =>
    unfold Power.onSetErrorStateInPowerController at hcallback
    split at hcallback <;> cases hcallback
    · exact hinv.send_other (by decide) (by decide)
    · exact hinv.send_other (by decide) (by decide)
    · exact hinv
  case onSetBootingUpState =>
    cases hcallback
    exact hinv.send_other (by decide) (by decide)
  case onSetTimerToTurnOff =>
    unfold Power.onSetTimerToTurnOff at hcallback
    split at hcallback
    · cases hcallback
      exact hinv
    split at hcallback
    · cases hcallback
      exact hinv
    · cases hcallback
      exact hinv.accepted _

theorem Inv.step {world next : World} {event : Event} (hinv : Inv world)
    (hguard : timerUnarmed world event) (hstep : world.step event = some next) : Inv next := by
  cases event with
  | instruction now line beyond =>
    simp only [World.step] at hstep
    split at hstep
    · rename_i name id value hhandle
      obtain ⟨outcome, hcallback, rfl⟩ := Option.map_eq_some_iff.mp hstep
      refine hinv.run value beyond now hcallback ?_
      rintro rfl hon
      exact hguard id value hhandle hon
    · cases hstep
  | timerCheck now =>
    cases hstep
    unfold Power.timerCommands
    split
    · rename_i hdue
      refine hinv.send (fun h => absurd h (by decide)) fun _ hshutting =>
        hinv.armed hshutting ?_
      exact fun hzero => absurd hdue.1 (by simp [hzero])
    · exact hinv
  | powerTick =>
    cases hstep
    refine hinv.same _ ?_
    unfold Power.tick
    split <;> rfl
  | boardLoop buttonState pins =>
    cases hstep
    refine hinv.boardLoop ?_
    rintro rfl
    exact hguard
  | restart =>
    simp only [World.step] at hstep
    split at hstep
    · cases hstep
    · cases hstep
      exact ⟨hinv.cutsAsked, fun _ harmed => absurd rfl harmed⟩

/-- Every cut by a command follows a request made in the same shutdown. -/
theorem cutsAsked_of_timerUnarmed {world : World} (run : machine.Reach timerUnarmed {} world) :
    CutsAsked world.history := by
  refine (run.invariant Inv ?_ ?_).cutsAsked
  · exact ⟨trivial, fun hshutting => by cases hshutting⟩
  · intro state event next hinv hguard hstep
    exact hinv.step hguard hstep

/-- The line of an instruction under the id 1. -/
def instructionLine (first second : Char) (parameters : List Char) : List Char :=
  ['#', first, second, ':', '0', '0', '0', '1', ':'] ++ parameters ++ ['\r', '\n']

def instruction (now : UInt32) (first second : Char) (parameters : List Char) : Event :=
  .instruction now (instructionLine first second parameters) fun _ => []

/-- Power on, a shutdown by the button, and the core arms the timer: ten seconds. -/
def shutDown : List Event :=
  [.boardLoop .pressed {}, instruction 1000 '0' '1' ['S'], .boardLoop .pressed {},
    .powerTick, .powerTick, instruction 5000 'f' 'f' ['a']]

theorem timerUnarmed_instruction {world : World} {now : UInt32} {first second : Char}
    {parameters : List Char}
    (hother : ∀ id value, handle (instructionLine first second parameters) ≠
      .ok .onSetShuttingDownState id value) :
    timerUnarmed world (instruction now first second parameters) :=
  fun id value hhandle => absurd hhandle (hother id value)

theorem cutsAsked_after_shutDown : ∃ world, machine.exec {} (shutDown ++ [.timerCheck 15000]) =
    some world ∧ world.history = [.cut, .acceptedTurnOff, .enteredShuttingDown] ∧
      CutsAsked world.history := by
  have hguard : machine.Guarded timerUnarmed {} (shutDown ++ [.timerCheck 15000]) := by
    refine ⟨fun _ => rfl, fun _ hboot => ⟨timerUnarmed_instruction ?_, fun _ hon =>
      ⟨?_, fun _ _ => ⟨trivial, fun _ _ => ⟨trivial, fun _ _ => ⟨timerUnarmed_instruction ?_,
        fun _ _ => ⟨trivial, fun _ _ => trivial⟩⟩⟩⟩⟩⟩⟩
    · intro id value h
      cases h
    · cases hboot
      cases hon
      exact fun _ => rfl
    · intro id value h
      cases h
  have hexec : ∃ world, machine.exec {} (shutDown ++ [.timerCheck 15000]) = some world ∧
      world.history = [.cut, .acceptedTurnOff, .enteredShuttingDown] := ⟨_, rfl, by decide⟩
  obtain ⟨world, hexec, hhistory⟩ := hexec
  exact ⟨world, hexec, hhistory,
    cutsAsked_of_timerUnarmed (Machine.reach_of_exec_guarded hguard hexec)⟩

/-- A reboot leaves the timer armed: it cuts the power in the next shutdown. -/
theorem stale_timer_cuts :
    ¬ ∀ world, machine.Reach Machine.anyEvent {} world → CutsAsked world.history := by
  intro hevery
  have hcut : ∃ world, machine.exec {} (shutDown ++ [instruction 6000 '1' '6' [],
      instruction 9000 '0' '1' ['S'], .boardLoop .pressed {}, .timerCheck 15000]) = some world ∧
      world.history = [.cut, .enteredShuttingDown, .acceptedTurnOff, .enteredShuttingDown] :=
    ⟨_, rfl, by decide⟩
  obtain ⟨world, hexec, hhistory⟩ := hcut
  have hasked := hevery world (Machine.reach_of_exec hexec)
  rw [hhistory] at hasked
  exact absurd hasked.1 (by decide)

end VacuumCleaner.Link.PowerOff
