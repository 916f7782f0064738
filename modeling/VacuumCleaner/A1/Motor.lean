import VacuumCleaner.A1.Wheels

/-! The brush and vacuum motors. The main loop ramps the signal of a motor
towards its setpoint and answers the request once it is reached. -/
namespace VacuumCleaner.A1

open InstructionHandler

def tickInterval : UInt32 := 100
def signalTickStep : Nat := 30

structure Motor where
  requestId : RequestId := 0
  setpoint : Nat := 0
  signal : Nat := 0
  isSet : Bool := true
  lastTick : UInt32 := 0
  pin : Nat := 0
  deriving DecidableEq, Repr

namespace Motor

def set (requestId : RequestId) (value : Nat) (motor : Motor) : Motor :=
  let value := if value > 100 then 100 else value
  { motor with requestId := requestId, setpoint := value * 255 / 100 % 2 ^ 8, isSet := false }

/-- `now` and `later` are the two readings of `millis` in one call. -/
def tick (now later : UInt32) (motor : Motor) : Motor × List Reply :=
  if !motor.isSet ∧ now - motor.lastTick > tickInterval then
    let (motor, replies) :=
      if motor.signal > motor.setpoint then
        ({ motor with signal := (motor.signal -
            (if motor.signal - motor.setpoint < signalTickStep then motor.signal - motor.setpoint
              else signalTickStep)) % 2 ^ 8 }, [])
      else if motor.signal < motor.setpoint then
        ({ motor with signal := (motor.signal +
            (if motor.setpoint - motor.signal < signalTickStep then motor.setpoint - motor.signal
              else signalTickStep)) % 2 ^ 8 }, [])
      else ({ motor with isSet := true }, [.finished motor.requestId])
    ({ motor with pin := motor.signal, lastTick := later }, replies)
  else (motor, [])

theorem tick_cases (now later : UInt32) (motor : Motor) :
    ((motor.tick now later).2 = [] ∧ (motor.tick now later).1.requestId = motor.requestId ∧
      (motor.tick now later).1.isSet = motor.isSet) ∨
    ((motor.tick now later).2 = [.finished motor.requestId] ∧ motor.isSet = false ∧
      (motor.tick now later).1.isSet = true) := by
  unfold tick
  split
  · rename_i heffective
    split
    rename_i next replies heq
    split at heq
    · cases heq
      exact .inl ⟨rfl, rfl, rfl⟩
    · split at heq
      · cases heq
        exact .inl ⟨rfl, rfl, rfl⟩
      · cases heq
        exact .inr ⟨rfl, by simpa using heffective.1, rfl⟩
  · exact .inl ⟨rfl, rfl, rfl⟩

end Motor

end VacuumCleaner.A1
