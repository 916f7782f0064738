import Mathlib.Tactic.Common

/-! The worker thread of a cleaning: `_algorithm_loop` with
`_block_while_is_paused`, over any algorithm. Between two callbacks it only
tests the execution state, which other threads write. -/
namespace VacuumCleaner.Core.AlgorithmLoop

/-- `ExecutionState.State`. -/
inductive State
  | idle | running | paused | stopped
  deriving DecidableEq, Repr

def State.isBreakEvent : State → Bool
  | .paused | .stopped => true
  | .idle | .running => false

def State.isWorking (state : State) : Bool := state ≠ .idle

inductive Callback
  | onPrepare | loop | onPause | onResume | onFinish
  deriving DecidableEq, Repr

inductive Outcome
  | returned | raised
  deriving DecidableEq, Repr

/-- Where a worker stands. The `blocked` places are the two tests of
`_block_while_is_paused`. -/
inductive Worker
  | unstarted
  | inside (callback : Callback)
  | checkingPaused
  | blockedRunning
  | blockedStopped
  | checkingStopped
  | ended
  | died
  deriving DecidableEq, Repr

namespace Worker

/-- No handler surrounds a callback, so what it raises ends the thread. -/
def after (callback : Callback) : Outcome → Worker
  | .raised => .died
  | .returned =>
    match callback with
    | .onPrepare => .inside .loop
    | .loop => .checkingPaused
    | .onPause => .blockedRunning
    | .onResume => .checkingStopped
    | .onFinish => .ended

def test (state : State) : Worker → Option Worker
  | .checkingPaused => some (if state = .paused then .inside .onPause else .checkingStopped)
  | .blockedRunning => some (if state = .running then .inside .onResume else .blockedStopped)
  | .blockedStopped => some (if state = .stopped then .checkingStopped else .blockedRunning)
  | .checkingStopped => some (if state = .stopped then .inside .onFinish else .inside .loop)
  | _ => none

/-- What `join` waits for. -/
def isOver : Worker → Bool
  | .ended | .died => true
  | _ => false

end Worker

/-- A thread with the callbacks it has been through. -/
structure Thread where
  worker : Worker := .unstarted
  calls : List (Callback × Outcome) := []
  deriving DecidableEq, Repr

namespace Thread

def test (state : State) (thread : Thread) : Option Thread :=
  (thread.worker.test state).map fun worker => { thread with worker }

def leave (outcome : Outcome) (thread : Thread) : Option Thread :=
  match thread.worker with
  | .inside callback =>
    some ⟨.after callback outcome, thread.calls ++ [(callback, outcome)]⟩
  | _ => none

/-- `on_finish` has come back after the last call of `loop`. -/
def FinishedAfterLoop (thread : Thread) : Prop :=
  ∃ earlier later, thread.calls = earlier ++ (.onFinish, .returned) :: later ∧
    ∀ call ∈ later, call.1 ≠ .loop

def NoneRaised (thread : Thread) : Prop := ∀ call ∈ thread.calls, call.2 = .returned

/-- The calls of a thread that has neither finished nor failed. -/
def Underway (calls : List (Callback × Outcome)) : Prop :=
  ∀ call ∈ calls, call.1 ≠ .onFinish ∧ call.2 = .returned

/-- What the place of a thread says about its calls. -/
def Consistent (thread : Thread) : Prop :=
  match thread.worker with
  | .ended => ∃ calls, thread.calls = calls ++ [(.onFinish, .returned)] ∧ Underway calls
  | .died => ∃ calls callback, thread.calls = calls ++ [(callback, .raised)] ∧ Underway calls
  | _ => Underway thread.calls

theorem Consistent.test {state : State} {thread next : Thread} (h : thread.Consistent)
    (hstep : thread.test state = some next) : next.Consistent := by
  obtain ⟨worker, calls⟩ := thread
  obtain ⟨worker', htest, rfl⟩ := Option.map_eq_some_iff.mp hstep
  cases worker with
  | checkingPaused | blockedRunning | blockedStopped | checkingStopped =>
    simp only [Worker.test, Option.some.injEq] at htest
    subst htest
    split <;> exact h
  | _ => cases htest

theorem Underway.snoc {calls : List (Callback × Outcome)} {callback : Callback}
    (h : Underway calls) (hcallback : callback ≠ .onFinish) :
    Underway (calls ++ [(callback, .returned)]) := by
  intro call hcall
  rcases List.mem_append.mp hcall with hold | hnew
  · exact h call hold
  · rw [List.mem_singleton.mp hnew]
    exact ⟨hcallback, rfl⟩

theorem Consistent.leave {outcome : Outcome} {thread next : Thread} (h : thread.Consistent)
    (hstep : thread.leave outcome = some next) : next.Consistent := by
  obtain ⟨worker, calls⟩ := thread
  cases worker with
  | inside callback =>
    cases hstep
    cases outcome with
    | raised => exact ⟨calls, callback, rfl, h⟩
    | returned =>
      cases callback with
      | onFinish => exact ⟨calls, rfl, h⟩
      | _ => exact Underway.snoc h nofun
  | _ => cases hstep

theorem Consistent.finished_iff {thread : Thread} (h : thread.Consistent)
    (hover : thread.worker.isOver = true) : thread.FinishedAfterLoop ↔ thread.NoneRaised := by
  obtain ⟨worker, all⟩ := thread
  cases worker with
  | ended =>
    obtain ⟨calls, hcalls, hunderway⟩ := h
    constructor
    · intro _ call hcall
      rw [hcalls] at hcall
      rcases List.mem_append.mp hcall with hold | hlast
      · exact (hunderway call hold).2
      · rw [List.mem_singleton.mp hlast]
    · intro _
      exact ⟨calls, [], hcalls, nofun⟩
  | died =>
    obtain ⟨calls, callback, hcalls, hunderway⟩ := h
    constructor
    · rintro ⟨earlier, later, hsplit, -⟩
      have hfinish : (Callback.onFinish, Outcome.returned) ∈ calls ++ [(callback, .raised)] := by
        rw [← hcalls, hsplit]
        simp
      rcases List.mem_append.mp hfinish with hold | hlast
      · exact absurd rfl (hunderway _ hold).1
      · cases List.mem_singleton.mp hlast
    · intro hnone
      have hraised := hnone (callback, .raised) (by rw [hcalls]; simp)
      cases hraised
  | _ => cases hover

theorem isOver_of_test {state : State} {thread next : Thread}
    (hstep : thread.test state = some next) : thread.worker.isOver = false := by
  obtain ⟨worker, calls⟩ := thread
  cases worker <;> first | rfl | cases hstep

theorem isOver_of_leave {outcome : Outcome} {thread next : Thread}
    (hstep : thread.leave outcome = some next) : thread.worker.isOver = false := by
  obtain ⟨worker, calls⟩ := thread
  cases worker <;> first | rfl | cases hstep

end Thread

end VacuumCleaner.Core.AlgorithmLoop
