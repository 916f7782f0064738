import VacuumCleaner.Core.SimpleCalls
import Mathlib.Tactic.Linarith

/-! The flag `_is_lower_speed` of `Simple` beside the speed that the robot was
last told to walk at, while the cleaning is paused, resumed and stopped. -/
namespace VacuumCleaner.Core.SpeedFlag

open Lib AlgorithmLoop Models SimpleCalls
open Algorithms (Label Draw)

/-- `lastWalk` and `obstacle` only record: the speed of the last call of
`walk_forward`, and whether `_correct_speed` last saw something in range. -/
structure Watched where
  state : State := .running
  cleaner : Cleaner
  lastWalk : Option PyNumber := none
  obstacle : Bool := false

inductive Turn
  | pause
  | resume
  | stop
  | works (event : SimpleCalls.Event)

def inRange (data : A1Data) : Bool :=
  data.rangefinderRightValue + data.rangefinderLeftValue + data.rangefinderCenterValue < 750

def walkOf : Option Call → Option PyNumber
  | some (.walk true speed) => some speed
  | _ => none

/-- What a decision makes of the last look at the rangefinders. -/
def look (data : A1Data) (obstacle : Bool) : Label → Bool
  | .correctSpeed => inRange data
  | _ => obstacle

def lookOf (event : SimpleCalls.Event) (label : Label) (obstacle : Bool) : Bool :=
  match event with
  | .decides data _ => look data obstacle label
  | _ => obstacle

namespace Watched

/-- The worker has taken a step, in which it may have called the robot. -/
def record (watched : Watched) (event : SimpleCalls.Event) (cleaner : Cleaner)
    (call : Option Call) : Watched :=
  { watched with
    cleaner
    lastWalk := (walkOf call).or watched.lastWalk
    obstacle := lookOf event watched.cleaner.label watched.obstacle }

/-- `AlgorithmManager.pause`, `resume` and `stop`, and a step of the worker. -/
def step (args : Arguments) (watched : Watched) : Turn → Option Watched
  | .pause =>
    if watched.state = .running then some { watched with state := .paused } else none
  | .resume =>
    if watched.state = .paused then some { watched with state := .running } else none
  | .stop =>
    if watched.state = .idle ∨ watched.state = .stopped then none
    else some { watched with state := .stopped }
  | .works event =>
    (watched.cleaner.step args watched.state event).map fun (cleaner, call) =>
      watched.record event cleaner call

end Watched

def machine (args : Arguments) : Machine Watched Turn := ⟨Watched.step args⟩

/-- A cleaning begins with the flag that earlier ones have left. -/
def start (args : Arguments) (isLowerSpeed : Bool) : Watched :=
  { cleaner := .start args isLowerSpeed }

/-- `_correct_speed` is not between its call and its assignment. -/
def Settled (cleaner : Cleaner) : Prop := ∀ value, Op.setIsLowerSpeed value ∉ cleaner.ops

/-- What holds in `Simple.loop`: the flag tells the speed of the last walk, and
behind `_correct_speed` an obstacle has lowered it. -/
structure Agrees (args : Arguments) (watched : Watched) : Prop where
  flag : watched.cleaner.worker = .inside .loop → Settled watched.cleaner →
    ∀ speed, watched.lastWalk = some speed →
      (watched.cleaner.isLowerSpeed = true ↔ speed = args.speed.halved) ∧
        (watched.cleaner.isLowerSpeed = false ↔ speed = args.speed)
  lowered : watched.cleaner.worker = .inside .loop → Settled watched.cleaner →
    watched.cleaner.label = .checkBumpers → watched.obstacle = true →
      watched.lastWalk = some args.speed.halved

/-- The outer loop is about to send its walk, with the flag set. -/
def overrides (cleaner : Cleaner) : Bool :=
  match cleaner.ops with
  | [.send (.walk true speed), .expect] =>
    cleaner.isLowerSpeed && (Call.walkForward speed).instruction.isOk
  | _ => false

/-- The outer loop sends its walk only while the flag is clear. -/
def flagClear (watched : Watched) : Turn → Prop
  | .works (.goesOn _ _) => overrides watched.cleaner = false
  | _ => True

instance (watched : Watched) : (turn : Turn) → Decidable (flagClear watched turn)
  | .works (.goesOn _ _) => inferInstanceAs (Decidable (overrides watched.cleaner = false))
  | .works .tests | .works (.decides _ _) | .pause | .resume | .stop => .isTrue trivial

/-- Neither a walk nor an assignment of the flag. -/
def isQuiet : Op → Bool
  | .send (.walk true _) | .setIsLowerSpeed _ => false
  | _ => true

def Quiet (ops : List Op) : Prop := ∀ op ∈ ops, isQuiet op = true

section Quiet

variable {args : Arguments}

theorem Quiet.of_all {ops : List Op} (h : ops.all isQuiet = true) : Quiet ops :=
  List.all_eq_true.mp h

theorem quiet_opening (args : Arguments) (callback : Callback) : Quiet (args.opening callback) := by
  apply Quiet.of_all
  cases callback with
  | onPrepare | onResume =>
    simp only [Arguments.opening, Arguments.startMotors]
    split <;> rfl
  | _ => rfl

theorem quiet_enter (cleaner : Cleaner) (worker : Worker) : Quiet (cleaner.enter args worker).ops := by
  cases worker with
  | inside callback => exact quiet_opening args callback
  | _ => exact Quiet.of_all rfl

theorem quiet_turn (left : Bool) (angle : Int) : isQuiet (.send (args.turn left angle)) = true := by
  cases left <;> rfl

theorem quiet_decides {state : State} {isLowerSpeed : Bool} {data : A1Data} {draw : Draw}
    {label : Label} {ops : List Op} {next : Option Label} (houter : label ≠ .outerTest)
    (hcorrect : label ≠ .correctSpeed)
    (h : Decides args state isLowerSpeed data draw label ops next) :
    Quiet ops ∧ ∃ label, next = some label ∧ label ≠ .checkBumpers := by
  cases h with
  | returns | walks => exact absurd rfl houter
  | slowsDown | speedsUp | keepsSpeed => exact absurd rfl hcorrect
  | leaves | iterates | bumps | seesNoCliff => exact ⟨.of_all rfl, _, rfl, by decide⟩
  | touchesNothing | interrupted =>
    refine ⟨.of_all rfl, _, rfl, ?_⟩
    split <;> decide
  | turns | turnsAway =>
    refine ⟨.of_all ?_, _, rfl, by decide⟩
    simp only [List.all_cons, quiet_turn]
    rfl
  | stepsAside =>
    refine ⟨.of_all ?_, _, rfl, by decide⟩
    simp only [Arguments.stepAsideAndRotate, List.all_cons, quiet_turn]
    rfl

end Quiet

def speedOf (args : Arguments) (isLowerSpeed : Bool) : PyNumber :=
  if isLowerSpeed then args.speed.halved else args.speed

/-- The flag tells the speed of the last walk, if there was one. -/
def Tells (args : Arguments) (cleaner : Cleaner) (lastWalk : Option PyNumber) : Prop :=
  ∀ speed, lastWalk = some speed → speed = speedOf args cleaner.isLowerSpeed

/-- Where the worker may be: away from any walk, before the walk of the outer
loop, or before or behind the walk of `_correct_speed`. -/
inductive Inv (args : Arguments) (cleaner : Cleaner) (lastWalk : Option PyNumber)
    (obstacle : Bool) : Prop
  | died : cleaner.worker = .died → Inv args cleaner lastWalk obstacle
  | calm : Quiet cleaner.ops → Tells args cleaner lastWalk →
    (cleaner.worker = .inside .loop → cleaner.label ≠ .outerTest → lastWalk ≠ none) →
    (cleaner.worker = .inside .loop → cleaner.label = .checkBumpers →
      cleaner.isLowerSpeed = obstacle) → Inv args cleaner lastWalk obstacle
  | walking : cleaner.worker = .inside .loop →
    cleaner.ops = [.send (.walkForward args.speed), .expect] → cleaner.label = .innerTest →
    Tells args cleaner lastWalk → Inv args cleaner lastWalk obstacle
  | correcting : cleaner.worker = .inside .loop →
    cleaner.ops = [.send (.walkForward (speedOf args obstacle)), .expect,
      .setIsLowerSpeed obstacle] →
    cleaner.label = .checkBumpers → Inv args cleaner lastWalk obstacle
  | corrected : cleaner.worker = .inside .loop →
    cleaner.ops = [.expect, .setIsLowerSpeed obstacle] ∨
      cleaner.ops = [.setIsLowerSpeed obstacle] →
    cleaner.label = .checkBumpers → lastWalk = some (speedOf args obstacle) →
    Inv args cleaner lastWalk obstacle

section Steps

variable {args : Arguments} {cleaner next : Cleaner} {lastWalk : Option PyNumber} {obstacle : Bool}

theorem inv_enter (worker : Worker) (htells : Tells args cleaner lastWalk) :
    Inv args (cleaner.enter args worker) lastWalk obstacle := by
  have hflag : (cleaner.enter args worker).isLowerSpeed = cleaner.isLowerSpeed := by
    cases worker <;> rfl
  have hlabel : (cleaner.enter args worker).worker = .inside .loop →
      (cleaner.enter args worker).label = .outerTest := by
    intro hworker
    cases worker <;> first | rfl | cases hworker
  apply Inv.calm (quiet_enter cleaner worker)
  · rw [Tells, hflag]
    exact htells
  · intro hworker hother
    exact absurd (hlabel hworker) hother
  · intro hworker hbumpers
    rw [hlabel hworker] at hbumpers
    cases hbumpers

theorem inv_goOn_calm {raises cliffBehind : Bool} {call : Option Call}
    (hquiet : Quiet cleaner.ops) (htells : Tells args cleaner lastWalk)
    (hwalked : cleaner.worker = .inside .loop → cleaner.label ≠ .outerTest → lastWalk ≠ none)
    (hflag : cleaner.worker = .inside .loop → cleaner.label = .checkBumpers →
      cleaner.isLowerSpeed = obstacle)
    (h : cleaner.goOn raises cliffBehind = some (next, call)) :
    walkOf call = none ∧ Inv args next lastWalk obstacle := by
  obtain ⟨worker, ops, label, isLowerSpeed⟩ := cleaner
  cases ops with
  | nil => cases h
  | cons op ops =>
    have hop := hquiet op List.mem_cons_self
    have hrest : Inv args ⟨worker, ops, label, isLowerSpeed⟩ lastWalk obstacle :=
      .calm (fun other hother => hquiet other (List.mem_cons_of_mem _ hother)) htells hwalked hflag
    cases op with
    | send command =>
      have hcommand : walkOf (some command) = none := by
        unfold walkOf
        split
        · rename_i heq
          cases heq
          cases hop
        · rfl
      simp only [Cleaner.goOn] at h
      split at h <;> cases h
      · exact ⟨hcommand, hrest⟩
      · exact ⟨hcommand, .died rfl⟩
    | expect =>
      cases raises <;> cases h
      · exact ⟨rfl, hrest⟩
      · exact ⟨rfl, .died rfl⟩
    | setIsLowerSpeed value => cases hop
    | awaitAndCheck =>
      cases raises <;> cases h
      · cases cliffBehind <;> exact ⟨rfl, hrest⟩
      · exact ⟨rfl, .died rfl⟩

theorem isOk_of_sent {command : Call} {ops : List Op} {raises cliffBehind : Bool}
    {call : Option Call} (hops : cleaner.ops = .send command :: ops)
    (h : cleaner.goOn raises cliffBehind = some (next, call)) :
    call = some command ∧
      (next = { cleaner with ops } ∧ command.instruction.isOk = true ∨
        next = cleaner.die ∧ command.instruction.isOk = false) := by
  simp only [Cleaner.goOn, hops] at h
  split at h <;> rename_i heq <;> cases h
  · exact ⟨rfl, .inl ⟨rfl, by rw [heq]; rfl⟩⟩
  · exact ⟨rfl, .inr ⟨rfl, by rw [heq]; rfl⟩⟩

theorem inv_goOn {raises cliffBehind : Bool} {call : Option Call} {callback : Callback}
    (hworker : cleaner.worker = .inside callback)
    (hinv : Inv args cleaner lastWalk obstacle) (hclear : overrides cleaner = false)
    (h : cleaner.goOn raises cliffBehind = some (next, call)) :
    Inv args next ((walkOf call).or lastWalk) obstacle := by
  cases hinv with
  | died hdied =>
    rw [hworker] at hdied
    cases hdied
  | calm hquiet htells hwalked hflag =>
    obtain ⟨hcall, hnext⟩ := inv_goOn_calm hquiet htells hwalked hflag h
    rw [hcall]
    exact hnext
  | walking hloop hops hlabel htells =>
    obtain ⟨rfl, hsent | hdied⟩ := isOk_of_sent hops h
    · obtain ⟨rfl, hok⟩ := hsent
      have hflag : cleaner.isLowerSpeed = false := by
        have hok' : (Call.walk true args.speed).instruction.isOk = true := hok
        simpa only [overrides, hops, Call.walkForward, hok', Bool.and_true] using hclear
      apply Inv.calm (.of_all rfl)
      · rintro speed ⟨⟩
        simp [speedOf, hflag]
      · intro _ _ hnone
        cases hnone
      · intro _ hbumpers
        rw [show _ = Label.innerTest from hlabel] at hbumpers
        cases hbumpers
    · rw [hdied.1]
      exact .died rfl
  | correcting hloop hops hlabel =>
    obtain ⟨rfl, hsent | hdied⟩ := isOk_of_sent hops h
    · rw [hsent.1]
      exact .corrected hloop (.inl rfl) hlabel rfl
    · rw [hdied.1]
      exact .died rfl
  | corrected hloop hops hlabel hlast =>
    rcases hops with hops | hops
    · simp only [Cleaner.goOn, hops] at h
      cases raises <;> cases h
      · exact .corrected hloop (.inr rfl) hlabel hlast
      · exact .died rfl
    · simp only [Cleaner.goOn, hops] at h
      cases h
      apply Inv.calm (.of_all rfl)
      · intro speed hspeed
        exact Option.some.inj (hspeed.symm.trans hlast)
      · intro _ _
        rw [show (walkOf none).or lastWalk = lastWalk from rfl, hlast]
        exact Option.some_ne_none _
      · intro _ _
        rfl

theorem inv_decides {state : State} {data : A1Data} {draw : Draw} {ops : List Op} {label : Label}
    (hloop : cleaner.worker = .inside .loop) (htells : Tells args cleaner lastWalk)
    (hwalked : cleaner.label ≠ .outerTest → lastWalk ≠ none)
    (h : Decides args state cleaner.isLowerSpeed data draw cleaner.label ops (some label)) :
    Inv args { cleaner with ops, label } lastWalk (look data obstacle cleaner.label) := by
  cases hlabel : cleaner.label with
  | outerTest =>
    rw [hlabel] at h
    cases h
    exact .walking hloop rfl rfl htells
  | correctSpeed =>
    rw [hlabel] at hwalked h
    cases h with
    | slowsDown _ hseen =>
      have hrange : inRange data = true := decide_eq_true hseen
      rw [look, hrange]
      exact .correcting hloop rfl rfl
    | speedsUp _ hseen =>
      have hrange : inRange data = false := decide_eq_false hseen
      rw [look, hrange]
      exact .correcting hloop rfl rfl
    | keepsSpeed hsame =>
      have hflag : cleaner.isLowerSpeed = inRange data := by
        rw [Bool.eq_iff_iff, hsame, inRange, decide_eq_true_iff]
      exact .calm (.of_all rfl) htells (fun _ _ => hwalked (by decide)) (fun _ _ => hflag)
  | innerTest | checkBumpers | movedBackward | checkCliffs =>
    rw [hlabel] at hwalked h
    obtain ⟨hquiet, other, hother, hne⟩ := quiet_decides (by decide) (by decide) h
    cases hother
    exact .calm hquiet htells (fun _ _ => hwalked (by decide)) (fun _ heq => absurd heq hne)

theorem Inv.tells_of_idle (hinv : Inv args cleaner lastWalk obstacle) (hops : cleaner.ops = [])
    (hdied : cleaner.worker ≠ .died) : Tells args cleaner lastWalk ∧
      (cleaner.worker = .inside .loop → cleaner.label ≠ .outerTest → lastWalk ≠ none) := by
  cases hinv with
  | died hworker => exact absurd hworker hdied
  | calm _ htells hwalked => exact ⟨htells, hwalked⟩
  | walking _ hops' | correcting _ hops' =>
    rw [hops] at hops'
    cases hops'
  | corrected _ hops' =>
    rw [hops] at hops'
    rcases hops' with hops' | hops' <;> cases hops'

theorem inv_step {state : State} {event : SimpleCalls.Event} {call : Option Call}
    (hinv : Inv args cleaner lastWalk obstacle)
    (hclear : ∀ raises cliffBehind, event = .goesOn raises cliffBehind →
      overrides cleaner = false)
    (h : cleaner.step args state event = some (next, call)) :
    Inv args next ((walkOf call).or lastWalk) (lookOf event cleaner.label obstacle) := by
  cases takes_of_step h with
  | enters hwaits htest =>
    cases hinv with
    | died hdied =>
      rw [hdied] at htest
      cases htest
    | calm _ htells => exact inv_enter _ htells
    | walking hloop | correcting hloop | corrected hloop => exact absurd hloop (hwaits _)
  | operates hworker hgoOn => exact inv_goOn hworker hinv (hclear _ _ rfl) hgoOn
  | decides hloop hops hdecides =>
    obtain ⟨htells, hwalked⟩ := hinv.tells_of_idle hops (by simp [hloop])
    exact inv_decides hloop htells (hwalked hloop) hdecides
  | leavesLoop hworker hops | returns hworker _ hops =>
    obtain ⟨htells, -⟩ := hinv.tells_of_idle hops (by simp [hworker])
    exact inv_enter _ htells

theorem inv_turn {watched after : Watched} {turn : Turn}
    (hinv : Inv args watched.cleaner watched.lastWalk watched.obstacle)
    (hclear : flagClear watched turn) (h : watched.step args turn = some after) :
    Inv args after.cleaner after.lastWalk after.obstacle := by
  cases turn with
  | pause | resume =>
    simp only [Watched.step] at h
    split at h <;> cases h
    exact hinv
  | stop =>
    simp only [Watched.step] at h
    split at h <;> cases h
    exact hinv
  | works event =>
    obtain ⟨⟨cleaner, call⟩, hstep, rfl⟩ := Option.map_eq_some_iff.mp h
    apply inv_step hinv _ hstep
    rintro raises cliffBehind rfl
    exact hclear

end Steps

theorem halved_ne {number : PyNumber} (hspeed : 1 ≤ number.toInt) : number.halved ≠ number := by
  intro heq
  cases number with
  | bool value => cases heq
  | int value =>
    have hhalf : value / 2 = value := PyNumber.int.inj heq
    have hone : 1 ≤ value := hspeed
    omega
  | float value =>
    have hhalf : ((value / 2).floor : ℚ) = value := PyNumber.float.inj heq
    have hbelow : ((value / 2).floor : ℚ) ≤ value / 2 := Rat.floor_le _
    simp only [PyNumber.toInt] at hspeed
    split at hspeed
    · rename_i hnegative
      have hceil : value.ceil ≤ 0 := Rat.ceil_le_iff.mpr (le_of_lt hnegative)
      omega
    · have hone : ((1 : Int) : ℚ) ≤ value := Rat.le_floor_iff.mp hspeed
      push_cast at hone
      linarith

section Runs

variable {args : Arguments} {watched : Watched}

theorem Tells.iffs (hspeed : 1 ≤ args.speed.toInt) {speed : PyNumber}
    (htells : Tells args watched.cleaner watched.lastWalk) (hlast : watched.lastWalk = some speed) :
    (watched.cleaner.isLowerSpeed = true ↔ speed = args.speed.halved) ∧
      (watched.cleaner.isLowerSpeed = false ↔ speed = args.speed) := by
  have hne := halved_ne hspeed
  rw [htells speed hlast]
  cases watched.cleaner.isLowerSpeed with
  | true => exact ⟨iff_of_true rfl rfl, iff_of_false (by decide) hne⟩
  | false => exact ⟨iff_of_false (by decide) hne.symm, iff_of_true rfl rfl⟩

theorem Inv.agrees (hspeed : 1 ≤ args.speed.toInt)
    (hinv : Inv args watched.cleaner watched.lastWalk watched.obstacle) : Agrees args watched := by
  cases hinv with
  | died hdied =>
    constructor <;>
    · intro hloop
      rw [hdied] at hloop
      cases hloop
  | calm _ htells hwalked hflag =>
    constructor
    · intro _ _ speed hlast
      exact htells.iffs hspeed hlast
    · intro hloop _ hlabel hobstacle
      obtain ⟨speed, hlast⟩ := Option.ne_none_iff_exists'.mp
        (hwalked hloop (by rw [hlabel]; decide))
      rw [hlast, htells speed hlast, hflag hloop hlabel, hobstacle]
      rfl
  | walking _ _ hlabel htells =>
    constructor
    · intro _ _ speed hlast
      exact htells.iffs hspeed hlast
    · intro _ _ hbumpers
      rw [hlabel] at hbumpers
      cases hbumpers
  | correcting _ hops =>
    constructor <;> exact fun _ hsettled => absurd (by simp [hops]) (hsettled watched.obstacle)
  | corrected _ hops =>
    have hmem : Op.setIsLowerSpeed watched.obstacle ∈ watched.cleaner.ops := by
      rcases hops with hops | hops <;> simp [hops]
    constructor <;> exact fun _ hsettled => absurd hmem (hsettled watched.obstacle)

theorem ops_of_overrides {cleaner : Cleaner} (h : overrides cleaner = true) :
    cleaner.isLowerSpeed = true ∧ ∃ speed, cleaner.ops = [.send (.walkForward speed), .expect] ∧
      (Call.walkForward speed).instruction.isOk = true := by
  unfold overrides at h
  split at h
  · rename_i speed hops
    obtain ⟨hflag, hok⟩ := Bool.and_eq_true_iff.mp h
    exact ⟨hflag, speed, hops, hok⟩
  · cases h

theorem not_agrees {next : Watched} {raises cliffBehind : Bool} (hspeed : 1 ≤ args.speed.toInt)
    (hinv : Inv args watched.cleaner watched.lastWalk watched.obstacle)
    (hoverrides : overrides watched.cleaner = true)
    (h : watched.step args (.works (.goesOn raises cliffBehind)) = some next) :
    ¬ Agrees args next := by
  obtain ⟨hflag, speed, hops, hok⟩ := ops_of_overrides hoverrides
  obtain ⟨⟨cleaner, call⟩, hstep, rfl⟩ := Option.map_eq_some_iff.mp h
  simp only [Cleaner.step] at hstep
  split at hstep
  · rename_i callback hworker
    obtain ⟨hloop, rfl⟩ : watched.cleaner.worker = .inside .loop ∧ speed = args.speed := by
      cases hinv with
      | died hdied =>
        rw [hdied] at hworker
        cases hworker
      | calm hquiet =>
        have hwalk := hquiet (.send (.walkForward speed)) (by simp [hops])
        cases hwalk
      | walking hloop hops' =>
        rw [hops] at hops'
        cases hops'
        exact ⟨hloop, rfl⟩
      | correcting _ hops' =>
        rw [hops] at hops'
        cases hops'
      | corrected _ hops' =>
        rw [hops] at hops'
        rcases hops' with hops' | hops' <;> cases hops'
    obtain ⟨rfl, ⟨rfl, -⟩ | ⟨-, hfails⟩⟩ := isOk_of_sent hops hstep
    · intro hagrees
      have hsettled : Settled { watched.cleaner with ops := [.expect] } := by
        intro value hmem
        cases List.mem_singleton.mp hmem
      have hhalved := ((hagrees.flag hloop hsettled args.speed rfl).1.mp hflag).symm
      exact halved_ne hspeed hhalved
    · rw [hok] at hfails
      cases hfails
  · cases hstep

/-- Exactly the runs in which the outer loop never walks while the flag is set. -/
theorem agrees_throughout_iff (hspeed : 1 ≤ args.speed.toInt)
    {isLowerSpeed : Bool} {turns : List Turn} {finish : Watched}
    (hexec : (machine args).exec (start args isLowerSpeed) turns = some finish) :
    (machine args).Throughout (Agrees args) (start args isLowerSpeed) turns ↔
      (machine args).Guarded flagClear (start args isLowerSpeed) turns := by
  have hstart : Inv args (start args isLowerSpeed).cleaner none false :=
    .calm (quiet_opening args .onPrepare) (fun _ h => by cases h) (fun h => by cases h)
      (fun h => by cases h)
  apply Machine.throughout_iff (Agrees args)
    (fun watched => Inv args watched.cleaner watched.lastWalk watched.obstacle) _ _ hstart
    (hstart.agrees hspeed) hexec
  · intro watched turn next hinv hclear hstep
    exact inv_turn hinv hclear hstep
  · intro watched turn next hinv _ hstep
    constructor
    · intro hagrees
      cases turn with
      | works event =>
        cases event with
        | goesOn raises cliffBehind =>
          apply Bool.eq_false_of_not_eq_true
          intro hoverrides
          exact not_agrees hspeed hinv hoverrides hstep hagrees
        | _ => trivial
      | _ => trivial
    · intro hclear
      exact (inv_turn hinv hclear hstep).agrees hspeed

end Runs

/-- The default arguments. -/
def thousand : Arguments where
  speed := .int 1000
  enableVacuumMotor := true
  reverseDis := .int 20
  reverseDisSpeed := .int 1000
  reverseWithBreak := false
  cliffEnabled := false
  vacuumMotorValue := .int 50

def proceeds (times : Nat) : List Turn := List.replicate times (.works (.goesOn false false))

def decidesOn (data : A1Data) : List Turn := [.works (.decides data ⟨true, 90⟩)]

/-- The loop begins, and slows down before an obstacle. -/
def slowsDown : List Turn :=
  proceeds 8 ++ decidesOn {} ++ decidesOn {} ++ proceeds 2 ++ decidesOn {} ++ decidesOn {} ++
    proceeds 3

theorem agrees_slowsDown :
    (machine thousand).Throughout (Agrees thousand) (start thousand false) slowsDown := by
  have hguarded : (machine thousand).Guarded flagClear (start thousand false) slowsDown := by decide
  obtain ⟨finish, hexec⟩ : ∃ finish,
      (machine thousand).exec (start thousand false) slowsDown = some finish := ⟨_, rfl⟩
  exact (agrees_throughout_iff (by decide) hexec).mpr hguarded

/-- After a turn at the bumper the robot walks at full speed with the flag set,
and an obstacle in range no longer slows it down. -/
theorem full_speed_before_obstacle : ∃ finish,
    (machine thousand).exec (start thousand false)
      (slowsDown ++ decidesOn { endRightTrig := true } ++ proceeds 2 ++ decidesOn {} ++
        proceeds 2 ++ decidesOn {} ++ proceeds 2 ++ decidesOn {} ++ decidesOn {}) = some finish ∧
      finish.obstacle = true ∧ finish.cleaner.isLowerSpeed = true ∧
      finish.lastWalk = some thousand.speed ∧ ¬ Agrees thousand finish := by
  refine ⟨_, rfl, rfl, rfl, rfl, fun hagrees => ?_⟩
  have hlast := hagrees.lowered rfl (fun value hmem => by cases hmem) rfl rfl
  cases hlast

end VacuumCleaner.Core.SpeedFlag
