import Mathlib.Tactic.Common

/-! Event-driven machines and the induction rules for their runs. An event that
a state does not enable has no successor; nothing else restricts the schedule. -/
namespace VacuumCleaner.Lib

universe u v w

structure Machine (State : Type u) (Event : Type v) where
  step : State → Event → Option State

namespace Machine

variable {State : Type u} {Event : Type v}

/-- A state reached by a run in which every event satisfies `guard` in the
state where it is taken. -/
inductive Reach (machine : Machine State Event) (guard : State → Event → Prop)
    (start : State) : State → Prop
  | refl : Reach machine guard start start
  | step {state next : State} {event : Event} : Reach machine guard start state →
      guard state event → machine.step state event = some next →
      Reach machine guard start next

/-- The guard of a run that restricts nothing. -/
def anyEvent (_ : State) (_ : Event) : Prop := True

instance (state : State) (event : Event) : Decidable (anyEvent state event) := .isTrue trivial

variable {machine : Machine State Event} {guard : State → Event → Prop}

theorem Reach.trans {start middle finish : State}
    (left : machine.Reach guard start middle) (right : machine.Reach guard middle finish) :
    machine.Reach guard start finish := by
  induction right with
  | refl => exact left
  | step _ hguard hstep ih => exact .step ih hguard hstep

theorem Reach.one {start next : State} {event : Event}
    (hstep : machine.step start event = some next) (hguard : guard start event) :
    machine.Reach guard start next :=
  .step .refl hguard hstep

theorem Reach.head {start next finish : State} {event : Event}
    (hstep : machine.step start event = some next) (hguard : guard start event)
    (run : machine.Reach guard next finish) : machine.Reach guard start finish :=
  (Reach.one hstep hguard).trans run

/-- The run rule: what every guarded step preserves holds at the end of a run. -/
theorem Reach.invariant {start finish : State} (property : State → Prop)
    (hstart : property start)
    (hstep : ∀ state event next, property state → guard state event →
      machine.step state event = some next → property next)
    (run : machine.Reach guard start finish) : property finish := by
  induction run with
  | refl => exact hstart
  | step _ hguard hnext ih => exact hstep _ _ _ ih hguard hnext

/-- Execute a list of events, which is how a concrete run is exhibited. -/
def exec (machine : Machine State Event) (state : State) : List Event → Option State
  | [] => some state
  | event :: events => (machine.step state event).bind fun next => machine.exec next events

@[simp] theorem exec_nil (machine : Machine State Event) (state : State) :
    machine.exec state [] = some state := rfl

@[simp] theorem exec_cons (machine : Machine State Event) (state : State) (event : Event)
    (events : List Event) : machine.exec state (event :: events) =
      (machine.step state event).bind fun next => machine.exec next events := rfl

/-- Every event of the list satisfies `guard` where it is taken. -/
def Guarded (machine : Machine State Event) (guard : State → Event → Prop) (state : State) :
    List Event → Prop
  | [] => True
  | event :: events => guard state event ∧
      ∀ next, machine.step state event = some next → machine.Guarded guard next events

instance decidableGuarded [∀ state event, Decidable (guard state event)] (state : State) :
    (events : List Event) → Decidable (machine.Guarded guard state events)
  | [] => .isTrue trivial
  | event :: events =>
    match hstep : machine.step state event with
    | none => decidable_of_iff (guard state event)
        ⟨fun h => ⟨h, fun next hnext => by rw [hstep] at hnext; cases hnext⟩, And.left⟩
    | some next =>
      haveI := decidableGuarded next events
      decidable_of_iff (guard state event ∧ machine.Guarded guard next events)
        ⟨fun h => ⟨h.1, fun other hother => by rw [hstep] at hother; cases hother; exact h.2⟩,
          fun h => ⟨h.1, h.2 next hstep⟩⟩

theorem reach_of_exec_guarded {start finish : State} {events : List Event}
    (hguard : machine.Guarded guard start events)
    (hexec : machine.exec start events = some finish) : machine.Reach guard start finish := by
  induction events generalizing start with
  | nil =>
    cases hexec
    exact .refl
  | cons event events ih =>
    obtain ⟨next, hstep, hrest⟩ := Option.bind_eq_some_iff.mp hexec
    exact .head hstep hguard.1 (ih (hguard.2 next hstep) hrest)

theorem guarded_anyEvent (state : State) (events : List Event) :
    machine.Guarded anyEvent state events := by
  induction events generalizing state with
  | nil => trivial
  | cons event events ih => exact ⟨trivial, fun next _ => ih next⟩

theorem reach_of_exec {start finish : State} {events : List Event}
    (hexec : machine.exec start events = some finish) : machine.Reach anyEvent start finish :=
  reach_of_exec_guarded (guarded_anyEvent start events) hexec

/-- A run keeps clear of a condition that stays once it has come about exactly
when each of its steps does, in the state where it is taken. `assumed` is what
the steps of the run are known to satisfy. -/
theorem exec_clear_iff {start finish : State} {events : List Event} (bad holds : State → Prop)
    (assumed : State → Event → Prop)
    (hstep : ∀ state event next, holds state → assumed state event →
      machine.step state event = some next →
      holds next ∧ (bad state → bad next) ∧ (¬ bad state → (¬ bad next ↔ guard state event)))
    (hstart : holds start) (hclear : ¬ bad start)
    (hassumed : machine.Guarded assumed start events)
    (hexec : machine.exec start events = some finish) :
    ¬ bad finish ↔ machine.Guarded guard start events := by
  have hstays : ∀ {state : State} {events : List Event}, holds state → bad state →
      machine.Guarded assumed state events → machine.exec state events = some finish →
      bad finish := by
    intro state events
    induction events generalizing state with
    | nil =>
      intro _ hbad _ hexec
      cases hexec
      exact hbad
    | cons event events ih =>
      intro hholds hbad hassumed hexec
      obtain ⟨next, hnext, hrest⟩ := Option.bind_eq_some_iff.mp hexec
      obtain ⟨hholds', hkept, -⟩ := hstep _ _ _ hholds hassumed.1 hnext
      exact ih hholds' (hkept hbad) (hassumed.2 next hnext) hrest
  induction events generalizing start with
  | nil =>
    cases hexec
    exact iff_of_true hclear trivial
  | cons event events ih =>
    obtain ⟨next, hnext, hrest⟩ := Option.bind_eq_some_iff.mp hexec
    have hassumed' := hassumed.2 next hnext
    obtain ⟨hholds, -, hguard⟩ := hstep _ _ _ hstart hassumed.1 hnext
    constructor
    · intro hfinish
      have hclear' : ¬ bad next := fun hbad => hfinish (hstays hholds hbad hassumed' hrest)
      refine ⟨(hguard hclear).mp hclear', fun other hother => ?_⟩
      rw [hnext] at hother
      cases hother
      exact (ih hholds hclear' hassumed' hrest).mp hfinish
    · intro hguarded
      have hclear' := (hguard hclear).mpr hguarded.1
      exact (ih hholds hclear' hassumed' hrest).mpr (hguarded.2 next hnext)

/-- The condition holds in the state where a run starts and behind each of its events. -/
def Throughout (machine : Machine State Event) (holds : State → Prop) (state : State) :
    List Event → Prop
  | [] => holds state
  | event :: events => holds state ∧
      ∀ next, machine.step state event = some next → machine.Throughout holds next events

/-- The rule for conditions that may come and go: a run is right throughout
exactly when each of its steps is. What is assumed is kept by the right steps. -/
theorem throughout_iff {start finish : State} {events : List Event} (holds assumed : State → Prop)
    (hassumed : ∀ state event next, assumed state → guard state event →
      machine.step state event = some next → assumed next)
    (hstep : ∀ state event next, assumed state → holds state →
      machine.step state event = some next → (holds next ↔ guard state event))
    (hstart : assumed start) (hholds : holds start)
    (hexec : machine.exec start events = some finish) :
    machine.Throughout holds start events ↔ machine.Guarded guard start events := by
  induction events generalizing start with
  | nil => exact iff_of_true hholds trivial
  | cons event events ih =>
    obtain ⟨next, hnext, hrest⟩ := Option.bind_eq_some_iff.mp hexec
    have hiff := hstep _ _ _ hstart hholds hnext
    constructor
    · rintro ⟨-, hthroughout⟩
      have hrun := hthroughout next hnext
      have hholds' : holds next := by
        cases events with
        | nil => exact hrun
        | cons => exact hrun.1
      have hguard := hiff.mp hholds'
      refine ⟨hguard, fun other hother => ?_⟩
      rw [hnext] at hother
      cases hother
      exact (ih (hassumed _ _ _ hstart hguard hnext) hholds' hrest).mp hrun
    · rintro ⟨hguard, hguarded⟩
      refine ⟨hholds, fun other hother => ?_⟩
      rw [hnext] at hother
      cases hother
      exact (ih (hassumed _ _ _ hstart hguard hnext) (hiff.mpr hguard) hrest).mpr
        (hguarded next hnext)

end Machine
end VacuumCleaner.Lib
