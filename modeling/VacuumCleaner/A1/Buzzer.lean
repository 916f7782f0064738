import VacuumCleaner.A1.Wheels

/-! The buzzer: a number of beeps of one period, answered after the last. -/
namespace VacuumCleaner.A1

open InstructionHandler

structure Buzzer where
  isExecuting : Bool := false
  requestId : RequestId := 0
  beepCount : Nat := 0
  startTime : UInt32 := 0
  period : Nat := 0
  pinIsHigh : Bool := false
  deriving DecidableEq, Repr

namespace Buzzer

def tick (now later : UInt32) (buzzer : Buzzer) : Buzzer × List Reply :=
  if buzzer.beepCount = 0 then
    let buzzer := { buzzer with pinIsHigh := false }
    if buzzer.isExecuting then
      ({ buzzer with isExecuting := false }, [.finished buzzer.requestId])
    else (buzzer, [])
  else if (now - buzzer.startTime).toNat > buzzer.period then
    let buzzer :=
      if buzzer.pinIsHigh then { buzzer with pinIsHigh := false, beepCount := buzzer.beepCount - 1 }
      else { buzzer with pinIsHigh := true }
    ({ buzzer with startTime := later }, [])
  else (buzzer, [])

def beep (requestId : RequestId) (count period : Nat) (buzzer : Buzzer) : Buzzer :=
  { buzzer with beepCount := count, period := period, isExecuting := true, requestId := requestId }

theorem tick_cases (now later : UInt32) (buzzer : Buzzer) :
    ((buzzer.tick now later).2 = [] ∧ (buzzer.tick now later).1.requestId = buzzer.requestId ∧
      (buzzer.tick now later).1.isExecuting = buzzer.isExecuting) ∨
    ((buzzer.tick now later).2 = [.finished buzzer.requestId] ∧ buzzer.isExecuting = true ∧
      (buzzer.tick now later).1.isExecuting = false) := by
  unfold tick
  split
  · dsimp only
    split
    · rename_i hexecuting
      exact .inr ⟨rfl, hexecuting, rfl⟩
    · exact .inl ⟨rfl, rfl, rfl⟩
  · split
    · exact .inl ⟨rfl, by split <;> rfl, by split <;> rfl⟩
    · exact .inl ⟨rfl, rfl, rfl⟩

end Buzzer
end VacuumCleaner.A1
