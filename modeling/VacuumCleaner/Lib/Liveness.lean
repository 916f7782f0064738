import VacuumCleaner.Lib.Machine
import Mathlib.Data.Nat.Find

/-! Endless behaviours of a machine, fairness towards its threads, and the rule
by which a condition leads to another. -/
namespace VacuumCleaner.Lib

universe u v w

/-- In every instant an event or a pause. -/
structure Behaviour {State : Type u} {Event : Type v} (machine : Machine State Event)
    (start : State) where
  state : Nat → State
  event : Nat → Option Event
  starts : state 0 = start
  steps : ∀ instant event', event instant = some event' →
    machine.step (state instant) event' = some (state (instant + 1))
  pauses : ∀ instant, event instant = none → state (instant + 1) = state instant

namespace Behaviour

variable {State : Type u} {Event : Type v} {Thread : Type w} {machine : Machine State Event}
  {start : State}

def Guarded (guard : State → Event → Prop) (behaviour : Behaviour machine start) : Prop :=
  ∀ instant event, behaviour.event instant = some event → guard (behaviour.state instant) event

theorem Guarded.reach {guard : State → Event → Prop} {behaviour : Behaviour machine start}
    (hguard : behaviour.Guarded guard) (instant : Nat) :
    machine.Reach guard start (behaviour.state instant) := by
  induction instant with
  | zero =>
    rw [behaviour.starts]
    exact .refl
  | succ instant ih =>
    cases hevent : behaviour.event instant with
    | none =>
      rw [behaviour.pauses instant hevent]
      exact ih
    | some event => exact ih.step (hguard instant event hevent) (behaviour.steps instant event hevent)

theorem Guarded.always {guard : State → Event → Prop} {behaviour : Behaviour machine start}
    (hguard : behaviour.Guarded guard) {holds : State → Prop}
    (hstep : ∀ state event next, holds state → guard state event →
      machine.step state event = some next → holds next)
    {instant later : Nat} (hholds : holds (behaviour.state instant)) (hle : instant ≤ later) :
    holds (behaviour.state later) := by
  induction hle with
  | refl => exact hholds
  | @step later _ ih =>
    cases hevent : behaviour.event later with
    | none =>
      rw [behaviour.pauses later hevent]
      exact ih
    | some event =>
      exact hstep _ event _ ih (hguard later event hevent) (behaviour.steps later event hevent)

section Fairness

variable (machine) (thread : Event → Option Thread)

/-- Some event of the thread can be taken. -/
def Enabled (mover : Thread) (state : State) : Prop :=
  ∃ event, thread event = some mover ∧ (machine.step state event).isSome

variable {machine}

def Takes (behaviour : Behaviour machine start) (mover : Thread) (instant : Nat) : Prop :=
  ∃ event, behaviour.event instant = some event ∧ thread event = some mover

/-- Weak fairness: no thread is able to move from some instant on without ever
moving. Events of no thread are left to the environment. -/
def Fair (behaviour : Behaviour machine start) : Prop :=
  ∀ mover instant, ∃ later, instant ≤ later ∧
    (behaviour.Takes thread mover later ∨ ¬ Enabled machine thread mover (behaviour.state later))

end Fairness

def LeadsTo (behaviour : Behaviour machine start) (condition goal : State → Prop) : Prop :=
  ∀ instant, condition (behaviour.state instant) →
    ∃ later, instant ≤ later ∧ goal (behaviour.state later)

theorem LeadsTo.trans {behaviour : Behaviour machine start} {first second third : State → Prop}
    (left : behaviour.LeadsTo first second) (right : behaviour.LeadsTo second third) :
    behaviour.LeadsTo first third := by
  intro instant hfirst
  obtain ⟨middle, hmiddle, hsecond⟩ := left instant hfirst
  obtain ⟨last, hlast, hthird⟩ := right middle hsecond
  exact ⟨last, Nat.le_trans hmiddle hlast, hthird⟩

/-- What a step does on the way to a goal: it gets there, or it brings the rank
down, or it is not the helper's and leaves rank and helper. -/
def Approaches (goal holds : State → Prop) (rank : State → Nat) (thread : Event → Option Thread)
    (helper : State → Thread) (state : State) (event : Event) (next : State) : Prop :=
  goal next ∨ holds next ∧ (rank next < rank state ∨
    thread event ≠ some (helper state) ∧ rank next = rank state ∧ helper next = helper state)

section Rule

variable {guard : State → Event → Prop} {behaviour : Behaviour machine start}
  {thread : Event → Option Thread} {goal holds : State → Prop} {rank : State → Nat}
  {helper : State → Thread}

theorem wait (hguard : behaviour.Guarded guard)
    (hstep : ∀ state event next, holds state → ¬ goal state → guard state event →
      machine.step state event = some next →
      Approaches goal holds rank thread helper state event next)
    {instant : Nat} (hholds : holds (behaviour.state instant)) (pauses : Nat)
    (hnone : ∀ later, instant ≤ later → later < instant + pauses →
      ¬ behaviour.Takes thread (helper (behaviour.state instant)) later) :
    (∃ later, instant ≤ later ∧ goal (behaviour.state later)) ∨
    (∃ later, instant ≤ later ∧ holds (behaviour.state later) ∧
      rank (behaviour.state later) < rank (behaviour.state instant)) ∨
    (holds (behaviour.state (instant + pauses)) ∧
      rank (behaviour.state (instant + pauses)) = rank (behaviour.state instant) ∧
      helper (behaviour.state (instant + pauses)) = helper (behaviour.state instant)) := by
  induction pauses with
  | zero => exact .inr (.inr ⟨hholds, rfl, rfl⟩)
  | succ pauses ih =>
    obtain hgoal | hless | ⟨hthere, hrank, hhelper⟩ :=
      ih fun later hfrom hto => hnone later hfrom (by omega)
    · exact .inl hgoal
    · exact .inr (.inl hless)
    · by_cases hgoal : goal (behaviour.state (instant + pauses))
      · exact .inl ⟨_, by omega, hgoal⟩
      · cases hevent : behaviour.event (instant + pauses) with
        | none =>
          have hpause := behaviour.pauses _ hevent
          rw [← Nat.add_assoc, hpause]
          exact .inr (.inr ⟨hthere, hrank, hhelper⟩)
        | some event =>
          have hnext := behaviour.steps _ event hevent
          obtain hreached | ⟨hstill, hfalls | ⟨-, hsame, hkept⟩⟩ :=
            hstep _ event _ hthere hgoal (hguard _ event hevent) hnext
          · exact .inl ⟨_, by omega, hreached⟩
          · exact .inr (.inl ⟨_, by omega, hstill, hrank ▸ hfalls⟩)
          · exact .inr (.inr ⟨hstill, hsame.trans hrank, hkept.trans hhelper⟩)

variable (rank helper) in
/-- The rule: under fairness a rank that only the helper has to bring down, and
that nobody brings up, leads to the goal. -/
theorem Fair.leadsTo (hfair : behaviour.Fair thread) (hguard : behaviour.Guarded guard)
    (hstep : ∀ state event next, holds state → ¬ goal state → guard state event →
      machine.step state event = some next →
      Approaches goal holds rank thread helper state event next)
    (henabled : ∀ state, holds state → ¬ goal state →
      Enabled machine thread (helper state) state) :
    behaviour.LeadsTo holds goal := by
  intro instant hholds
  induction hrank : rank (behaviour.state instant) using Nat.strong_induction_on
    generalizing instant with
  | _ bound ih =>
    obtain ⟨stop, hstop, hmoves⟩ := hfair (helper (behaviour.state instant)) instant
    -- the first instant from here on at which the helper moves or cannot move
    have hfirst : ∃ pauses, (behaviour.Takes thread (helper (behaviour.state instant))
          (instant + pauses) ∨ ¬ Enabled machine thread (helper (behaviour.state instant))
            (behaviour.state (instant + pauses))) ∧
        ∀ later, instant ≤ later → later < instant + pauses →
          ¬ behaviour.Takes thread (helper (behaviour.state instant)) later := by
      classical
      have hexists : ∃ pauses, behaviour.Takes thread (helper (behaviour.state instant))
          (instant + pauses) ∨ ¬ Enabled machine thread (helper (behaviour.state instant))
            (behaviour.state (instant + pauses)) :=
        ⟨stop - instant, by rwa [Nat.add_sub_cancel' hstop]⟩
      refine ⟨Nat.find hexists, Nat.find_spec hexists, fun later hfrom hto htakes => ?_⟩
      refine Nat.find_min hexists (m := later - instant) (by omega) (.inl ?_)
      rwa [Nat.add_sub_cancel' hfrom]
    obtain ⟨pauses, hmove, hnone⟩ := hfirst
    obtain hgoal | ⟨later, hlater, hstill, hfalls⟩ | ⟨hthere, hsame, hkept⟩ :=
      wait hguard hstep hholds pauses hnone
    · exact hgoal
    · obtain ⟨last, hlast, hgoal⟩ := ih _ (hrank ▸ hfalls) later hstill rfl
      exact ⟨last, Nat.le_trans hlater hlast, hgoal⟩
    · by_cases hgoal : goal (behaviour.state (instant + pauses))
      · exact ⟨_, Nat.le_add_right _ _, hgoal⟩
      · cases hmove with
        | inr hdisabled => exact absurd (hkept ▸ henabled _ hthere hgoal) hdisabled
        | inl htakes =>
          obtain ⟨event, hevent, hthread⟩ := htakes
          obtain hreached | ⟨hstill, hfalls | ⟨hother, -, -⟩⟩ := hstep _ event _ hthere hgoal
            (hguard _ event hevent) (behaviour.steps _ event hevent)
          · exact ⟨_, by omega, hreached⟩
          · obtain ⟨last, hlast, hfinally⟩ := ih _ (by omega) _ hstill rfl
            exact ⟨last, by omega, hfinally⟩
          · rw [hkept] at hother
            exact absurd hthread hother

end Rule

/-- The behaviour that pauses for ever. -/
def rest (machine : Machine State Event) (start : State) : Behaviour machine start where
  state _ := start
  event _ := none
  starts := rfl
  steps _ _ hevent := by cases hevent
  pauses _ _ := rfl

/-- A step in front of a behaviour. -/
def cons {next : State} (event : Event) (hstep : machine.step start event = some next)
    (behaviour : Behaviour machine next) : Behaviour machine start where
  state
    | 0 => start
    | instant + 1 => behaviour.state instant
  event
    | 0 => some event
    | instant + 1 => behaviour.event instant
  starts := rfl
  steps
    | 0, _, hevent => by
      cases hevent
      exact hstep.trans (congrArg some behaviour.starts.symm)
    | instant + 1, event', hevent => behaviour.steps instant event' hevent
  pauses
    | 0, hevent => by cases hevent
    | instant + 1, hevent => behaviour.pauses instant hevent

theorem exists_of_exec {guard : State → Event → Prop} {thread : Event → Option Thread}
    {finish : State} {events : List Event} (hguard : machine.Guarded guard start events)
    (hexec : machine.exec start events = some finish)
    (hrest : ∀ mover, ¬ Enabled machine thread mover finish) :
    ∃ behaviour : Behaviour machine start, behaviour.Guarded guard ∧ behaviour.Fair thread ∧
      behaviour.state events.length = finish := by
  induction events generalizing start with
  | nil =>
    cases hexec
    refine ⟨rest machine _, fun _ _ hevent => ?_, fun mover instant => ?_, rfl⟩
    · cases hevent
    · exact ⟨instant, Nat.le_refl _, .inr (hrest mover)⟩
  | cons event events ih =>
    obtain ⟨next, hstep, hrun⟩ := Option.bind_eq_some_iff.mp hexec
    obtain ⟨behaviour, hguarded, hfair, hfinish⟩ := ih (hguard.2 next hstep) hrun
    refine ⟨cons event hstep behaviour, ?_, fun mover instant => ?_, hfinish⟩
    · intro instant taken htaken
      cases instant with
      | zero =>
        cases htaken
        exact hguard.1
      | succ instant => exact hguarded instant taken htaken
    · obtain ⟨later, hlater, hmove⟩ := hfair mover instant
      exact ⟨later + 1, Nat.le_succ_of_le hlater, hmove⟩

end Behaviour
end VacuumCleaner.Lib
