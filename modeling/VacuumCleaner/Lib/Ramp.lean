import Mathlib.Data.Nat.Dist

/-! A value that moves towards a target by at most `step` at a time. -/
namespace VacuumCleaner.Lib

def approach (step value target : Nat) : Nat :=
  if target < value then value - min step (value - target)
  else value + min step (target - value)

/-- How many steps it takes to cover a distance: the quotient, rounded up. -/
def stepsFor (step distance : Nat) : Nat := (distance + (step - 1)) / step

variable {step value target : Nat}

theorem approach_le_max (step value target : Nat) : approach step value target ≤ max value target := by
  unfold approach
  split <;> omega

theorem dist_approach_target : Nat.dist (approach step value target) target =
    Nat.dist value target - step := by
  unfold approach Nat.dist
  split <;> omega

@[simp] theorem approach_self : approach step value value = value := by
  simp [approach]

theorem stepsFor_zero (hstep : 0 < step) : stepsFor step 0 = 0 :=
  Nat.div_eq_of_lt (by omega)

theorem stepsFor_of_pos {distance : Nat} (hstep : 0 < step) (hdistance : 0 < distance) :
    stepsFor step distance = stepsFor step (distance - step) + 1 := by
  unfold stepsFor
  obtain hle | hlt := Nat.lt_or_ge distance step |>.symm
  · have hsplit : distance + (step - 1) = distance - step + (step - 1) + step := by omega
    rw [hsplit, Nat.add_div_right _ hstep]
  · have hrest : distance - step = 0 := by omega
    have hone : distance + (step - 1) = distance - 1 + step := by omega
    rw [hrest, hone, Nat.add_div_right _ hstep, Nat.div_eq_of_lt (by omega),
      Nat.div_eq_of_lt (by omega)]

end VacuumCleaner.Lib
