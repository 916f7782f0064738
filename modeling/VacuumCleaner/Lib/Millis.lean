import Mathlib.Algebra.Group.Nat.Defs
import Mathlib.Tactic.Common

/-! A clock of milliseconds that is read as a 32-bit word and wraps. -/
namespace VacuumCleaner.Lib

def millis (time : Nat) : UInt32 := UInt32.ofNat time

theorem toNat_millis (time : Nat) : (millis time).toNat = time % 2 ^ 32 := UInt32.toNat_ofNat

theorem toNat_millis_of_lt {time : Nat} (h : time < 2 ^ 32) : (millis time).toNat = time := by
  rw [toNat_millis, Nat.mod_eq_of_lt h]

/-- A difference of readings is the time between them, whether or not the clock
has wrapped, as long as it cannot have come round. -/
theorem toNat_millis_sub {since time : Nat} (hle : since ≤ time) (hlt : time < since + 2 ^ 32) :
    (millis time - millis since).toNat = time - since := by
  rw [UInt32.toNat_sub, toNat_millis, toNat_millis]
  omega

theorem lt_millis_sub_iff {since time : Nat} {limit : UInt32} (hle : since ≤ time)
    (hlt : time < since + 2 ^ 32) :
    limit < millis time - millis since ↔ since + limit.toNat < time := by
  rw [UInt32.lt_iff_toNat_lt, toNat_millis_sub hle hlt]
  omega

theorem millis_sub_lt_iff {since time : Nat} {limit : UInt32} (hle : since ≤ time)
    (hlt : time < since + 2 ^ 32) :
    millis time - millis since < limit ↔ time < since + limit.toNat := by
  rw [UInt32.lt_iff_toNat_lt, toNat_millis_sub hle hlt]
  omega

end VacuumCleaner.Lib
