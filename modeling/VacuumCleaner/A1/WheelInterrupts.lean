import VacuumCleaner.A1.Wheels
import VacuumCleaner.Lib.Machine

/-! `Wheel::move` and `Wheel::walk` statement by statement, with the timer
interrupt anywhere between two statements. -/
namespace VacuumCleaner.A1.WheelInterrupts

open InstructionHandler Lib Machine

/-- The statements of `move` and `walk`, in the order of `rank`. Those about the
PID's memory change nothing that is modelled here. -/
inductive Statement
  | clearForward
  | clearBackward
  | setDirection (forward : Bool)
  | setSpeed (speed : Nat)
  | setBreak (withBreak : Bool)
  | resetPulsesCount
  | resetIntegral
  | resetPrevErr
  | setPulsesToMove (pulses : UInt64)
  | setState (wheelState : WheelState)
  deriving DecidableEq, Repr

namespace Statement

def rank : Statement → Nat
  | clearForward => 0
  | clearBackward => 1
  | setDirection _ => 2
  | setSpeed _ => 3
  | setBreak _ => 4
  | resetPulsesCount => 5
  | resetIntegral => 6
  | resetPrevErr => 7
  | setPulsesToMove _ => 8
  | setState _ => 9

def run (wheel : Wheel) : Statement → Wheel
  | clearForward => { wheel with forwardPin := low }
  | clearBackward => { wheel with backwardPin := low }
  | setDirection forward => { wheel with forwardDirectionToMove := forward }
  | setSpeed speed => { wheel with speedSetpoint := speed }
  | setBreak withBreak => { wheel with withBreak := withBreak }
  | resetPulsesCount => { wheel with wheelPulsesCount := 0 }
  | resetIntegral => wheel
  | resetPrevErr => wheel
  | setPulsesToMove pulses => { wheel with pulsesToMove := pulses }
  | setState wheelState => { wheel with wheelState := wheelState }

end Statement

def move (fpu : FloatUnit) (distanseSm speed : Nat) (withBreak forward : Bool) : List Statement :=
  [.clearForward, .clearBackward, .setDirection forward, .setSpeed speed, .setBreak withBreak,
    .resetPulsesCount, .resetIntegral, .resetPrevErr,
    .setPulsesToMove (UInt64.ofNat (fpu.pulsesToMove (distanseSm * 10 % 2 ^ 32))),
    .setState .moving]

def walk (speedSmPerMinute : Nat) (forward : Bool) : List Statement :=
  [.clearForward, .clearBackward, .setDirection forward, .setSpeed speedSmPerMinute,
    .resetIntegral, .resetPrevErr, .setState .endlessWalking]

def runAll (statements : List Statement) (wheel : Wheel) : Wheel :=
  statements.foldl Statement.run wheel

theorem runAll_move (fpu : FloatUnit) (distanseSm speed : Nat) (withBreak forward : Bool)
    (wheel : Wheel) : runAll (move fpu distanseSm speed withBreak forward) wheel =
      wheel.move fpu distanseSm speed withBreak forward := rfl

theorem runAll_walk (speedSmPerMinute : Nat) (forward : Bool) (wheel : Wheel) :
    runAll (walk speedSmPerMinute forward) wheel = wheel.walk speedSmPerMinute forward := rfl

/-- A wheel and what is left of the call that the main loop is in. -/
structure World where
  wheel : Wheel := {}
  rest : List Statement := []
  deriving DecidableEq, Repr

/-- `stopLone` is what `Wheels::tick` does to a wheel between two calls. -/
inductive Event
  | move (distanseSm speed : Nat) (withBreak forward : Bool)
  | walk (speedSmPerMinute : Nat) (forward : Bool)
  | statement
  | interrupt (res : UInt8)
  | pulse
  | stopLone
  deriving DecidableEq, Repr

def World.step (fpu : FloatUnit) (world : World) : Event → Option World
  | .move distanseSm speed withBreak forward =>
    if world.rest = [] then
      some { world with rest := WheelInterrupts.move fpu distanseSm speed withBreak forward }
    else none
  | .walk speedSmPerMinute forward =>
    if world.rest = [] then
      some { world with rest := WheelInterrupts.walk speedSmPerMinute forward }
    else none
  | .statement =>
    match world.rest with
    | [] => none
    | statement :: rest => some ⟨statement.run world.wheel, rest⟩
  | .interrupt res => some { world with wheel := world.wheel.tick res }
  | .pulse => some { world with wheel := world.wheel.pulse }
  | .stopLone =>
    if world.rest = [] ∧ world.wheel.wheelState = .moving then
      some { world with wheel := { world.wheel with wheelState := .stopped } }
    else none

def machine (fpu : FloatUnit) : Machine World Event := ⟨World.step fpu⟩

/-- At most one input of a running motor is driven. -/
def OneInput (wheel : Wheel) : Prop :=
  wheel.isRunning → wheel.forwardPin = 0 ∨ wheel.backwardPin = 0

/-- The direction that the rest of a call leaves. -/
def direction (current : Bool) : List Statement → Bool
  | [] => current
  | .setDirection forward :: rest => direction forward rest
  | _ :: rest => direction current rest

/-- The statement that clears the input which a wheel in this direction must
not drive. -/
def clearing (forward : Bool) : Statement :=
  if forward then .clearBackward else .clearForward

/-- The tick drives the input against `forward`: it brakes, or it goes on in the
other direction. -/
def drivesAgainst (forward : Bool) (res : UInt8) (wheel : Wheel) : Prop :=
  ((wheel.wheelState = .stopped ∨ wheel.isReached) ∧ wheel.withBreak) ∨
    (wheel.isRunning ∧ ¬ wheel.isReached ∧ wheel.forwardDirectionToMove ≠ forward ∧ res ≠ 0)

instance (forward : Bool) (res : UInt8) (wheel : Wheel) :
    Decidable (drivesAgainst forward res wheel) := inferInstanceAs (Decidable (_ ∨ _))

/-- No interrupt drives again the input that the call under way has cleared for
its direction. -/
def keepsCleared (world : World) : Event → Prop
  | .interrupt res => world.rest ≠ [] →
      ¬ clearing (direction world.wheel.forwardDirectionToMove world.rest) ∈ world.rest →
      ¬ drivesAgainst (direction world.wheel.forwardDirectionToMove world.rest) res world.wheel
  | _ => True

instance (world : World) : (event : Event) → Decidable (keepsCleared world event)
  | .interrupt _ => inferInstanceAs (Decidable (_ → _))
  | .move .. => .isTrue trivial
  | .walk .. => .isTrue trivial
  | .statement => .isTrue trivial
  | .pulse => .isTrue trivial
  | .stopLone => .isTrue trivial

/-- The input against `forward`. -/
def pinAgainst (forward : Bool) (wheel : Wheel) : UInt8 :=
  if forward then wheel.backwardPin else wheel.forwardPin

theorem direction_runAll (statements : List Statement) (wheel : Wheel) :
    (runAll statements wheel).forwardDirectionToMove =
      direction wheel.forwardDirectionToMove statements := by
  induction statements generalizing wheel with
  | nil => rfl
  | cons statement rest ih =>
    have hstep := ih (statement.run wheel)
    cases statement <;> exact hstep

theorem forwardPin_runAll (statements : List Statement) (wheel : Wheel) :
    (runAll statements wheel).forwardPin =
      if .clearForward ∈ statements then low else wheel.forwardPin := by
  induction statements generalizing wheel with
  | nil => rfl
  | cons statement rest ih =>
    have hstep := ih (statement.run wheel)
    cases statement <;> simpa [runAll, Statement.run] using hstep

theorem backwardPin_runAll (statements : List Statement) (wheel : Wheel) :
    (runAll statements wheel).backwardPin =
      if .clearBackward ∈ statements then low else wheel.backwardPin := by
  induction statements generalizing wheel with
  | nil => rfl
  | cons statement rest ih =>
    have hstep := ih (statement.run wheel)
    cases statement <;> simpa [runAll, Statement.run] using hstep

/-- A call leaves the input against its direction as it is, unless it has yet to
clear it. -/
theorem pinAgainst_runAll (forward : Bool) (statements : List Statement) (wheel : Wheel) :
    pinAgainst forward (runAll statements wheel) =
      if clearing forward ∈ statements then low else pinAgainst forward wheel := by
  cases forward with
  | false => exact forwardPin_runAll statements wheel
  | true => exact backwardPin_runAll statements wheel

theorem pinAgainst_run (forward : Bool) (statement : Statement) (wheel : Wheel) :
    pinAgainst forward (statement.run wheel) =
      if clearing forward = statement then low else pinAgainst forward wheel := by
  have hrun := pinAgainst_runAll forward [statement] wheel
  simp only [List.mem_singleton] at hrun
  exact hrun

theorem rank_clearing (forward : Bool) : (clearing forward).rank < 2 := by
  cases forward <;> decide

theorem run_of_rank {statement : Statement} (wheel : Wheel) (hrank : statement.rank < 2) :
    (statement.run wheel).wheelState = wheel.wheelState ∧
      (statement.run wheel).forwardDirectionToMove = wheel.forwardDirectionToMove := by
  cases statement with
  | clearForward => exact ⟨rfl, rfl⟩
  | clearBackward => exact ⟨rfl, rfl⟩
  | _ => simp [Statement.rank] at hrank

theorem direction_of_rank {rest : List Statement} (current : Bool)
    (hrank : ∀ statement ∈ rest, 2 < statement.rank) : direction current rest = current := by
  induction rest with
  | nil => rfl
  | cons statement rest ih =>
    have hrest := ih fun other hother => hrank other (.tail _ hother)
    cases statement with
    | setDirection forward =>
      have hlt : 2 < 2 := hrank (.setDirection forward) (.head _)
      exact absurd hlt (by decide)
    | _ => exact hrest

theorem direction_cons (statement : Statement) (rest : List Statement) (wheel : Wheel) :
    direction (statement.run wheel).forwardDirectionToMove rest =
      direction wheel.forwardDirectionToMove (statement :: rest) := by
  cases statement <;> rfl

theorem pinAgainst_setSpeed (forward : Bool) (res : UInt8) (wheel : Wheel) :
    pinAgainst forward (wheel.setSpeed res) =
      if wheel.forwardDirectionToMove = forward then pinAgainst forward wheel else res := by
  cases forward <;> cases hdirection : wheel.forwardDirectionToMove <;>
    simp [pinAgainst, Wheel.setSpeed, hdirection]

theorem pinAgainst_stop {wheel : Wheel} (forward : Bool) (hbreak : wheel.withBreak = false) :
    pinAgainst forward wheel.stop = low := by
  cases forward <;> simp [pinAgainst, Wheel.stop, hbreak, Wheel.netralMotor]

theorem direction_tick (res : UInt8) (wheel : Wheel) :
    (wheel.tick res).forwardDirectionToMove = wheel.forwardDirectionToMove := by
  obtain ⟨-, -, htick⟩ | ⟨-, htick⟩ | ⟨-, htick⟩ := Wheel.tick_cases res wheel <;> simp [htick]

theorem tick_running {res : UInt8} {wheel : Wheel} (hrunning : (wheel.tick res).isRunning) :
    wheel.isRunning ∧ pinAgainst wheel.forwardDirectionToMove (wheel.tick res) =
      pinAgainst wheel.forwardDirectionToMove wheel := by
  obtain ⟨hbefore, -, htick⟩ | ⟨-, htick⟩ | ⟨hidle, htick⟩ := Wheel.tick_cases res wheel
  · rw [htick, pinAgainst_setSpeed, if_pos rfl]
    exact ⟨hbefore, rfl⟩
  · rw [htick] at hrunning
    simp [Wheel.isRunning] at hrunning
  · rw [htick] at hrunning ⊢
    exact ⟨hrunning, rfl⟩

theorem tick_against {forward : Bool} {res : UInt8} {wheel : Wheel}
    (hclear : pinAgainst forward wheel = low) (hdrives : ¬ drivesAgainst forward res wheel) :
    pinAgainst forward (wheel.tick res) = low := by
  obtain ⟨hrunning, hreached, htick⟩ | ⟨hstopping, htick⟩ | ⟨-, htick⟩ :=
    Wheel.tick_cases res wheel
  · rw [htick, pinAgainst_setSpeed]
    split
    · exact hclear
    · rename_i hother
      exact not_not.mp fun hres => hdrives (.inr ⟨hrunning, hreached, hother, hres⟩)
  · have hbreak : wheel.withBreak = false :=
      Bool.eq_false_iff.mpr fun hbreak => hdrives (.inl ⟨hstopping, hbreak⟩)
    rw [htick]
    exact pinAgainst_stop forward hbreak
  · rw [htick]
    exact hclear

/-- `current` is about the wheel as it runs now, `cleared` about the wheel as the
call under way will leave it. -/
structure Inv (world : World) : Prop where
  sorted : world.rest.Pairwise fun earlier later => earlier.rank < later.rank
  current : world.wheel.isRunning →
    pinAgainst world.wheel.forwardDirectionToMove world.wheel = low
  cleared : world.rest ≠ [] →
    clearing (direction world.wheel.forwardDirectionToMove world.rest) ∉ world.rest →
    pinAgainst (direction world.wheel.forwardDirectionToMove world.rest) world.wheel = low

theorem Inv.start : Inv {} where
  sorted := .nil
  current _ := rfl
  cleared hrest := absurd rfl hrest

theorem Inv.statement {wheel : Wheel} {statement : Statement} {rest : List Statement}
    (inv : Inv ⟨wheel, statement :: rest⟩) : Inv ⟨statement.run wheel, rest⟩ := by
  have hsorted := List.pairwise_cons.mp inv.sorted
  have hcleared := inv.cleared (List.cons_ne_nil _ _)
  rw [← direction_cons] at hcleared
  have hnext : clearing (direction (statement.run wheel).forwardDirectionToMove rest) ∉ rest →
      pinAgainst (direction (statement.run wheel).forwardDirectionToMove rest)
        (statement.run wheel) = low := by
    intro hrest
    rw [pinAgainst_run]
    split
    · rfl
    · rename_i hother
      exact hcleared fun hmem => (List.mem_cons.mp hmem).elim hother hrest
  refine ⟨hsorted.2, fun hrunning => ?_, fun _ => hnext⟩
  -- the pins are cleared before the direction changes, and the state is set last
  by_cases hrank : statement.rank < 2
  · have hsame := run_of_rank wheel hrank
    rw [Wheel.isRunning, hsame.1] at hrunning
    rw [hsame.2, pinAgainst_run, inv.current hrunning, ite_self]
  · have hlater : ∀ other ∈ rest, 2 < other.rank := fun other hother =>
      lt_of_le_of_lt (Nat.le_of_not_lt hrank) (hsorted.1 other hother)
    rw [direction_of_rank _ hlater] at hnext
    exact hnext fun hmem => absurd (hlater _ hmem) (Nat.not_lt.mpr (rank_clearing _).le)

theorem Inv.interrupt {world : World} {res : UInt8} (inv : Inv world)
    (hguard : keepsCleared world (.interrupt res)) :
    Inv { world with wheel := world.wheel.tick res } := by
  refine ⟨inv.sorted, fun hnext => ?_, fun hrest hpending => ?_⟩
  · have hrunning := tick_running hnext
    rw [direction_tick, hrunning.2]
    exact inv.current hrunning.1
  · rw [direction_tick] at hpending ⊢
    exact tick_against (inv.cleared hrest hpending) (hguard hrest hpending)

theorem Inv.call {world : World} (inv : Inv world) {rest : List Statement}
    (hsorted : rest.Pairwise fun earlier later => earlier.rank < later.rank)
    (hclears : ∀ forward, clearing forward ∈ rest) : Inv { world with rest := rest } where
  sorted := hsorted
  current := inv.current
  cleared _ hpending := absurd (hclears _) hpending

theorem sorted_move (fpu : FloatUnit) (distanseSm speed : Nat) (withBreak forward : Bool) :
    (move fpu distanseSm speed withBreak forward).Pairwise fun earlier later =>
      earlier.rank < later.rank := by
  simp [move, Statement.rank]

theorem sorted_walk (speedSmPerMinute : Nat) (forward : Bool) :
    (walk speedSmPerMinute forward).Pairwise fun earlier later => earlier.rank < later.rank := by
  simp [walk, Statement.rank]

theorem Inv.step {fpu : FloatUnit} {world next : World} {event : Event} (inv : Inv world)
    (hguard : keepsCleared world event) (hstep : World.step fpu world event = some next) :
    Inv next := by
  cases event with
  | move distanseSm speed withBreak forward =>
    simp only [World.step, Option.ite_none_right_eq_some] at hstep
    cases hstep.2
    refine inv.call (sorted_move fpu distanseSm speed withBreak forward) fun forward => ?_
    cases forward <;> simp [clearing, move]
  | walk speedSmPerMinute forward =>
    simp only [World.step, Option.ite_none_right_eq_some] at hstep
    cases hstep.2
    refine inv.call (sorted_walk speedSmPerMinute forward) fun forward => ?_
    cases forward <;> simp [clearing, walk]
  | statement =>
    obtain ⟨wheel, rest⟩ := world
    cases rest with
    | nil => cases hstep
    | cons statement rest =>
      cases hstep
      exact inv.statement
  | interrupt res =>
    cases hstep
    exact inv.interrupt hguard
  | pulse =>
    cases hstep
    exact ⟨inv.sorted, inv.current, inv.cleared⟩
  | stopLone =>
    simp only [World.step, Option.ite_none_right_eq_some] at hstep
    obtain ⟨⟨hrest, -⟩, hnext⟩ := hstep
    cases hnext
    refine ⟨inv.sorted, fun hrunning => ?_, fun hbusy => absurd hrest hbusy⟩
    simp [Wheel.isRunning] at hrunning

theorem Inv.of_reach {fpu : FloatUnit} {world : World}
    (run : (machine fpu).Reach keepsCleared {} world) : Inv world :=
  run.invariant Inv .start fun _ _ _ inv hguard hstep => inv.step hguard hstep

/-- No motor is driven on both inputs, as long as no interrupt drives again what
the call under way has cleared. -/
theorem oneInput_of_keepsCleared (fpu : FloatUnit) (world : World)
    (run : (machine fpu).Reach keepsCleared {} world) : OneInput world.wheel := by
  intro hrunning
  have hlow := (Inv.of_reach run).current hrunning
  cases hforward : world.wheel.forwardDirectionToMove with
  | false =>
    rw [hforward] at hlow
    exact .inl hlow
  | true =>
    rw [hforward] at hlow
    exact .inr hlow

theorem drives_tick {forward : Bool} {res : UInt8} {wheel : Wheel}
    (hdrives : drivesAgainst forward res wheel) : pinAgainst forward (wheel.tick res) ≠ 0 := by
  cases hdrives with
  | inl hbrakes =>
    obtain ⟨hstopping, hbreak⟩ := hbrakes
    have hpins : wheel.stop.Released := Wheel.released_stop wheel
    rw [Wheel.Released, Wheel.withBreak_stop, if_pos hbreak] at hpins
    rw [Wheel.tick_of_stopping res hstopping]
    cases forward <;> simp [pinAgainst, hpins, high]
  | inr hgoes =>
    obtain ⟨hrunning, hreached, hother, hres⟩ := hgoes
    rw [Wheel.tick_of_running res hrunning hreached, pinAgainst_setSpeed, if_neg hother]
    exact hres

theorem reach_runAll (fpu : FloatUnit) (wheel : Wheel) (rest : List Statement) :
    (machine fpu).Reach anyEvent ⟨wheel, rest⟩ ⟨runAll rest wheel, []⟩ := by
  induction rest generalizing wheel with
  | nil => exact .refl
  | cons statement rest ih =>
    have hstep : (machine fpu).step ⟨wheel, statement :: rest⟩ .statement =
        some ⟨statement.run wheel, rest⟩ := rfl
    exact .head hstep trivial (ih (statement.run wheel))

/-- The interrupt that `keepsCleared` excludes leads to both inputs being driven,
unless the call is a move that ends where it begins. -/
theorem bothInputs_of_drivesAgainst (fpu : FloatUnit) {wheel : Wheel} {rest : List Statement}
    {res : UInt8} (hcleared : clearing (direction wheel.forwardDirectionToMove rest) ∉ rest)
    (hdrives : drivesAgainst (direction wheel.forwardDirectionToMove rest) res wheel)
    (hrunning : (runAll rest (wheel.tick res)).isRunning)
    (hreached : ¬ (runAll rest (wheel.tick res)).isReached) :
    ∃ next, (machine fpu).Reach anyEvent ⟨wheel, rest⟩ next ∧ ¬ OneInput next.wheel := by
  have hinterrupt : ∀ wheel rest res, (machine fpu).step ⟨wheel, rest⟩ (.interrupt res) =
      some ⟨wheel.tick res, rest⟩ := fun _ _ _ => rfl
  have hrun : (machine fpu).Reach anyEvent ⟨wheel, rest⟩
      ⟨(runAll rest (wheel.tick res)).tick 1, []⟩ :=
    .head (hinterrupt wheel rest res) trivial
      ((reach_runAll fpu _ rest).step trivial (hinterrupt _ [] 1))
  refine ⟨_, hrun, fun hone => ?_⟩
  have hdirection := direction_runAll rest (wheel.tick res)
  have hopposite := pinAgainst_runAll (direction wheel.forwardDirectionToMove rest) rest
    (wheel.tick res)
  rw [direction_tick] at hdirection
  rw [if_neg hcleared] at hopposite
  have hagainst := drives_tick hdrives
  rw [← hopposite, ← hdirection] at hagainst
  rw [Wheel.tick_of_running 1 hrunning hreached] at hone
  generalize runAll rest (wheel.tick res) = last at hone hrunning hagainst
  have hpins := hone (by simpa [Wheel.isRunning] using hrunning)
  cases hforward : last.forwardDirectionToMove <;>
    simp_all [pinAgainst, Wheel.setSpeed]

/-- A walk forward, an interrupt, and a move back in which one interrupt comes
before the clearing of the driven input and one after the change of direction. -/
def turnedRound : List Event :=
  [.walk 100 true, .statement, .statement, .statement, .statement, .statement, .statement,
    .statement, .interrupt 9, .move 10 100 true false, .interrupt 9, .statement, .statement,
    .statement, .interrupt 9, .statement, .statement, .statement, .statement, .statement,
    .statement, .statement, .interrupt 9]

def farAway : FloatUnit := ⟨fun _ => 100, fun _ => 0⟩

theorem oneInput_after_turnedRound : ∃ world,
    (machine farAway).exec {} turnedRound = some world ∧ world.wheel.wheelState = .moving ∧
      world.wheel.backwardPin = 9 ∧ OneInput world.wheel := by
  have hguard : (machine farAway).Guarded keepsCleared {} turnedRound := by decide +kernel
  obtain ⟨world, hexec, hmoving, hpin⟩ : ∃ world,
      (machine farAway).exec {} turnedRound = some world ∧ world.wheel.wheelState = .moving ∧
        world.wheel.backwardPin = 9 := ⟨_, rfl, rfl, rfl⟩
  exact ⟨world, hexec, hmoving, hpin,
    oneInput_of_keepsCleared farAway world (reach_of_exec_guarded hguard hexec)⟩

/-- The interrupt comes when both inputs have just been cleared for a walk back,
and drives the forward one again. -/
def drivenAgain : List Event :=
  [.walk 100 true, .statement, .statement, .statement, .statement, .statement, .statement,
    .statement, .interrupt 9, .walk 100 false, .statement, .statement, .interrupt 9, .statement,
    .statement, .statement, .statement, .statement, .interrupt 9]

theorem bothInputs_after_drivenAgain : ¬ ∀ fpu world,
    (machine fpu).Reach anyEvent {} world → OneInput world.wheel := by
  intro hevery
  obtain ⟨world, hexec, hwalking, hforward, hbackward⟩ : ∃ world,
      (machine farAway).exec {} drivenAgain = some world ∧
        world.wheel.wheelState = .endlessWalking ∧ world.wheel.forwardPin = 9 ∧
        world.wheel.backwardPin = 9 := ⟨_, rfl, rfl, rfl, rfl⟩
  have hone := hevery farAway world (reach_of_exec hexec) (.inr hwalking)
  rw [hforward, hbackward] at hone
  exact absurd hone (by decide)

end VacuumCleaner.A1.WheelInterrupts
