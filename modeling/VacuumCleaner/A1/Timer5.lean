import Mathlib.Algebra.Ring.Int.Defs
import Mathlib.Tactic.Common

/-! Setting up timer 5 for a period in microseconds: a divider is chosen by
thresholds, and the real period is computed back from what was programmed. -/
namespace VacuumCleaner.A1.Timer5

def fCpu : UInt32 := 16000000
def maxPeriod16 : UInt32 := 1000000 * 1024 / fCpu * 65536

def constrain (amount low high : UInt32) : UInt32 :=
  if amount < low then low else if amount > high then high else amount

structure Registers where
  tccr5a : UInt8
  tccr5b : UInt8
  icr5 : UInt16
  timsk5 : UInt8
  deriving DecidableEq, Repr

def wgm53 : UInt8 := 4
def wgm52 : UInt8 := 3
def ocie5a : UInt8 := 1
def ocie5b : UInt8 := 2
def ocie5c : UInt8 := 3

/-- `_timer5_cycles`. -/
def timer5Cycles (period : UInt32) : UInt32 := fCpu / 1000000 * constrain period 1 maxPeriod16

/-- `_timer5_prescaler` and `_timer5_divider`. -/
def timer5Divider (cycles : UInt32) : UInt8 × UInt16 :=
  if cycles < 65536 then (0x01, 1)
  else if cycles < 65536 * 8 then (0x02, 8)
  else if cycles < 65536 * 64 then (0x03, 64)
  else if cycles < 65536 * 256 then (0x04, 256)
  else (0x05, 1024)

/-- The top before it is stored in 16 bits. -/
def wideTop (cycles : UInt32) : UInt32 :=
  if cycles < 65536 * 1024 then cycles / (timer5Divider cycles).2.toUInt32 else 65536

/-- `_timer5_top`. -/
def timer5Top (cycles : UInt32) : UInt16 := (wideTop cycles).toUInt16

/-- A division by zero has no result. -/
def divide (dividend divisor : UInt32) : Option UInt32 :=
  if divisor = 0 then none else some (dividend / divisor)

def realPeriod (cycles : UInt32) : Option UInt32 := do
  let frequency ← divide fCpu (timer5Divider cycles).2.toUInt32
  let rounds ← divide frequency (timer5Top cycles).toUInt32
  divide 1000000 rounds

def enableChannel (source timsk5 : UInt8) : UInt8 :=
  if source = 0x00 then timsk5 ||| 1 <<< ocie5a
  else if source = 0x01 then timsk5 ||| 1 <<< ocie5b
  else if source = 0x02 then timsk5 ||| 1 <<< ocie5c
  else timsk5

/-- The registers, which are written before the period is computed back. -/
def enableTimer5WithPeriod (period : UInt32) (source : UInt8) (registers : Registers) :
    Registers × Option UInt32 :=
  let cycles := timer5Cycles period
  ({ tccr5a := registers.tccr5a &&& 0xFC
     tccr5b := 1 <<< wgm53 ||| 1 <<< wgm52 ||| (timer5Divider cycles).1
     icr5 := timer5Top cycles - 1
     timsk5 := enableChannel source registers.timsk5 }, realPeriod cycles)

/-- A value on the way, and the bits of the type that it has to fit. -/
structure Intermediate where
  bits : Nat
  exact : Int

def Intermediate.Fits (value : Intermediate) : Prop := 0 ≤ value.exact ∧ value.exact < 2 ^ value.bits

/-- What is multiplied, narrowed or subtracted on the way; a quotient always fits. -/
def intermediates (period : UInt32) : List Intermediate :=
  let cycles := timer5Cycles period
  [⟨32, 1000000 * 1024⟩, ⟨32, (1000000 * 1024 / fCpu).toNat * 65536⟩,
    ⟨32, (fCpu / 1000000).toNat * (constrain period 1 maxPeriod16).toNat⟩, ⟨32, 65536 * 1024⟩,
    ⟨16, (wideTop cycles).toNat⟩, ⟨16, (timer5Top cycles).toNat - 1⟩]

/-- The dividers that the timer has. -/
def dividers : List Nat := [1, 8, 64, 256, 1024]

/-- The divider of a prescaler code. -/
def dividerOf (prescaler : UInt8) : Option Nat :=
  if prescaler = 0 then none else dividers[prescaler.toNat - 1]?

def cyclesOf (period : Nat) : Nat := 16 * max 1 (min period 4194304)

/-- The smallest divider that leaves the cycles in 16 bits, the last one if none does. -/
def smallestDivider (cycles : Nat) : Nat :=
  (dividers.find? fun divider => cycles / divider ≤ 65535).getD 1024

/-- What one call is to do to the timer. -/
structure SetsUp (period : UInt32) (source : UInt8) (registers : Registers) : Prop where
  divides : (enableTimer5WithPeriod period source registers).2.isSome
  fits : ∀ value ∈ intermediates period, value.Fits
  divider : (timer5Divider (timer5Cycles period)).2.toNat =
    smallestDivider (cyclesOf period.toNat)
  prescaler : dividerOf ((enableTimer5WithPeriod period source registers).1.tccr5b &&& 7) =
    some (smallestDivider (cyclesOf period.toNat))
  top : (enableTimer5WithPeriod period source registers).1.icr5.toNat + 1 =
    cyclesOf period.toNat / smallestDivider (cyclesOf period.toNat)

theorem constrain_toNat (period : UInt32) :
    (constrain period 1 maxPeriod16).toNat = max 1 (min period.toNat 4194304) := by
  have hmax : maxPeriod16.toNat = 4194304 := by decide
  unfold constrain
  simp only [UInt32.lt_iff_toNat_lt, gt_iff_lt, hmax, UInt32.toNat_one]
  split
  · rw [UInt32.toNat_one]
    omega
  · split <;> omega

theorem timer5Cycles_toNat (period : UInt32) :
    (timer5Cycles period).toNat = cyclesOf period.toNat := by
  have hfactor : (fCpu / 1000000).toNat = 16 := by decide
  rw [timer5Cycles, UInt32.toNat_mul, hfactor, constrain_toNat, cyclesOf]
  omega

theorem smallestDivider_eq (cycles : Nat) :
    smallestDivider cycles =
      if cycles < 65536 then 1 else if cycles < 65536 * 8 then 8
      else if cycles < 65536 * 64 then 64 else if cycles < 65536 * 256 then 256 else 1024 := by
  have hfits : ∀ divider ∈ dividers, cycles / divider ≤ 65535 ↔ cycles < 65536 * divider := by
    intro divider hdivider
    have hpos : 0 < divider := by
      revert hdivider
      revert divider
      decide
    rw [← Nat.lt_succ_iff, Nat.div_lt_iff_lt_mul hpos]
  unfold smallestDivider dividers
  simp only [dividers, List.forall_mem_cons] at hfits
  obtain ⟨h1, h8, h64, h256, -⟩ := hfits
  simp only [List.find?_cons, List.find?_nil, h1, h8, h64, h256, Nat.mul_one]
  by_cases hlt1 : cycles < 65536
  · simp [hlt1]
  by_cases hlt8 : cycles < 65536 * 8
  · simp [hlt1, hlt8]
  by_cases hlt64 : cycles < 65536 * 64
  · simp [hlt1, hlt8, hlt64]
  by_cases hlt256 : cycles < 65536 * 256
  · simp [hlt1, hlt8, hlt64, hlt256]
  · simp only [hlt1, hlt8, hlt64, hlt256, decide_false, if_false]
    split <;> rfl

theorem timer5Divider_smallest (cycles : UInt32) :
    (timer5Divider cycles).2.toNat = smallestDivider cycles.toNat ∧
      dividerOf (timer5Divider cycles).1 = some (smallestDivider cycles.toNat) := by
  rw [smallestDivider_eq]
  unfold timer5Divider
  simp only [UInt32.lt_iff_toNat_lt]
  have h8 : ((65536 * 8 : UInt32)).toNat = 65536 * 8 := by decide
  have h64 : ((65536 * 64 : UInt32)).toNat = 65536 * 64 := by decide
  have h256 : ((65536 * 256 : UInt32)).toNat = 65536 * 256 := by decide
  have h1 : ((65536 : UInt32)).toNat = 65536 := by decide
  rw [h1, h8, h64, h256]
  split
  · decide
  split
  · decide
  split
  · decide
  split <;> decide

theorem prescaler_of_tccr5b (cycles : UInt32) :
    (1 <<< wgm53 ||| 1 <<< wgm52 ||| (timer5Divider cycles).1) &&& 7 = (timer5Divider cycles).1 := by
  unfold timer5Divider
  split
  · decide
  split
  · decide
  split
  · decide
  split <;> decide

theorem divide_isSome_iff {dividend divisor : UInt32} :
    (divide dividend divisor).isSome ↔ 0 < divisor.toNat := by
  unfold divide
  rw [Nat.pos_iff_ne_zero, Ne, ← UInt32.toNat_zero, UInt32.toNat_inj]
  split <;> simp_all

/-- The period can be computed back as long as the top is not above the timer's frequency. -/
theorem realPeriod_isSome_iff (cycles : UInt32) :
    (realPeriod cycles).isSome ↔ 0 < (timer5Top cycles).toNat ∧
      (timer5Top cycles).toNat ≤ 16000000 / smallestDivider cycles.toNat := by
  have hdivider : 0 < (timer5Divider cycles).2.toUInt32.toNat := by
    rw [UInt16.toNat_toUInt32, (timer5Divider_smallest cycles).1, smallestDivider_eq]
    repeat' split
    all_goals decide
  have hfrequency : divide fCpu (timer5Divider cycles).2.toUInt32 =
      some (fCpu / (timer5Divider cycles).2.toUInt32) :=
    if_neg fun hzero => absurd hdivider (by rw [hzero]; decide)
  have hrate : (fCpu / (timer5Divider cycles).2.toUInt32).toNat =
      16000000 / smallestDivider cycles.toNat := by
    rw [UInt32.toNat_div, UInt16.toNat_toUInt32, (timer5Divider_smallest cycles).1]
    rfl
  rw [← hrate]
  generalize fCpu / (timer5Divider cycles).2.toUInt32 = frequency at hfrequency
  unfold realPeriod
  rw [hfrequency, Option.bind_eq_bind, Option.bind_some]
  by_cases htop : 0 < (timer5Top cycles).toNat
  · have hrounds : divide frequency (timer5Top cycles).toUInt32 =
        some (frequency / (timer5Top cycles).toUInt32) :=
      if_neg fun hzero => by
        rw [← UInt16.toNat_toUInt32, hzero] at htop
        exact absurd htop (by decide)
    rw [hrounds, Option.bind_some, divide_isSome_iff, UInt32.toNat_div, UInt16.toNat_toUInt32,
      Nat.div_pos_iff]
  · have hnone : divide frequency (timer5Top cycles).toUInt32 = none := by
      rw [← Option.not_isSome_iff_eq_none, divide_isSome_iff, UInt16.toNat_toUInt32]
      exact htop
    rw [hnone]
    simp [htop]

theorem cyclesOf_le (period : Nat) : 16 ≤ cyclesOf period ∧ cyclesOf period ≤ 67108864 := by
  unfold cyclesOf
  omega

theorem wideTop_toNat (period : UInt32) : (wideTop (timer5Cycles period)).toNat =
    cyclesOf period.toNat / smallestDivider (cyclesOf period.toNat) := by
  have hlimit : (65536 * 1024 : UInt32).toNat = 67108864 := by decide
  have hcycles := (cyclesOf_le period.toNat).2
  unfold wideTop
  simp only [UInt32.lt_iff_toNat_lt, hlimit, timer5Cycles_toNat]
  split
  · rw [UInt32.toNat_div, UInt16.toNat_toUInt32, (timer5Divider_smallest _).1, timer5Cycles_toNat]
  · have hlast : cyclesOf period.toNat = 67108864 := by omega
    rw [hlast]
    decide

theorem top_range (period : Nat) : 0 < cyclesOf period / smallestDivider (cyclesOf period) ∧
    cyclesOf period / smallestDivider (cyclesOf period) ≤ 65536 := by
  obtain ⟨hlow, hhigh⟩ := cyclesOf_le period
  rw [smallestDivider_eq]
  repeat' split
  all_goals omega

theorem timer5Top_toNat (period : UInt32) : (timer5Top (timer5Cycles period)).toNat =
    cyclesOf period.toNat / smallestDivider (cyclesOf period.toNat) % 65536 := by
  rw [timer5Top, UInt32.toNat_toUInt16, wideTop_toNat]

theorem icr5_toNat (period : UInt32) : (timer5Top (timer5Cycles period) - 1).toNat + 1 =
    cyclesOf period.toNat / smallestDivider (cyclesOf period.toNat) := by
  have hrange := top_range period.toNat
  rw [UInt16.toNat_sub, timer5Top_toNat]
  have hone : (1 : UInt16).toNat = 1 := by decide
  omega

theorem fits_iff (period : UInt32) : (∀ value ∈ intermediates period, value.Fits) ↔
    cyclesOf period.toNat / smallestDivider (cyclesOf period.toNat) < 65536 := by
  have hconstrained := constrain_toNat period
  have hfactor : (fCpu / 1000000).toNat = 16 := by decide
  have hrange := top_range period.toNat
  have hconstant : (1000000 * 1024 / fCpu).toNat = 64 := by decide
  simp only [intermediates, List.forall_mem_cons, Intermediate.Fits, hconstrained, hfactor,
    hconstant, wideTop_toNat, timer5Top_toNat]
  generalize cyclesOf period.toNat / smallestDivider (cyclesOf period.toNat) = top at hrange
  constructor
  · rintro ⟨-, -, -, -, ⟨-, hnarrow⟩, -⟩
    omega
  · intro hnarrow
    refine ⟨by omega, by omega, by omega, by omega, by omega, by omega, by simp⟩

/-- The timer is set up as meant for the periods up to 1000015 microseconds, and for no other. -/
theorem setsUp_iff (period : UInt32) (source : UInt8) (registers : Registers) :
    SetsUp period source registers ↔ period.toNat ≤ 1000015 := by
  have hdivides : (realPeriod (timer5Cycles period)).isSome ↔ period.toNat ≤ 1000015 := by
    rw [realPeriod_isSome_iff, timer5Top_toNat, timer5Cycles_toNat, smallestDivider_eq]
    unfold cyclesOf
    repeat' split
    all_goals omega
  have hcycles := timer5Cycles_toNat period
  have hdivider := timer5Divider_smallest (timer5Cycles period)
  rw [hcycles] at hdivider
  constructor
  · exact fun hsetsUp => hdivides.mp hsetsUp.divides
  · intro hperiod
    refine ⟨hdivides.mpr hperiod, (fits_iff period).mpr ?_, hdivider.1, ?_, icr5_toNat period⟩
    · rw [smallestDivider_eq]
      unfold cyclesOf
      repeat' split
      all_goals omega
    · rw [enableTimer5WithPeriod, prescaler_of_tccr5b]
      exact hdivider.2

/-- Two seconds divide by zero: the top is above the timer's frequency. -/
theorem not_setsUp_twoSeconds : ¬ ∀ (period : UInt32) (source : UInt8) (registers : Registers),
    SetsUp period source registers := by
  intro hevery
  have hdivides := (hevery 2000000 0 ⟨0, 0, 0, 0⟩).divides
  exact absurd hdivides (by decide)

end VacuumCleaner.A1.Timer5
