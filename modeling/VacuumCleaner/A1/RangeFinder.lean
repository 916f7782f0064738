import Mathlib.Data.Rat.Floor
import Mathlib.Algebra.Order.BigOperators.Group.List
import Mathlib.Algebra.Module.Defs
import Mathlib.Tactic.IntervalCases
import VacuumCleaner.Lib.RingBuffer

/-! The three range finders, of which each tick measures one, and the averages
of their last measurements. -/
namespace VacuumCleaner.A1

open Lib

def averageBufferSize : Nat := 5

inductive Sensor
  | left | center | right
  deriving DecidableEq, Repr

/-- The value of `_range_finder_to_proceed` that stands for the sensor. -/
def Sensor.number : Sensor → Nat
  | .left => 0
  | .center => 1
  | .right => 2

/-- A measurement, and the average it goes into, are whole millimetres. -/
abbrev AverageBuffer := RingBuffer Nat

structure RangeFinder where
  rangeFinderToProceed : Nat := 0
  left : AverageBuffer := ⟨List.replicate averageBufferSize 0, 0⟩
  center : AverageBuffer := ⟨List.replicate averageBufferSize 0, 0⟩
  right : AverageBuffer := ⟨List.replicate averageBufferSize 0, 0⟩
  deriving DecidableEq, Repr

namespace RangeFinder

/-- The `float` of `measure_range_in_mm` is truncated when it is stored. -/
def toUInt16 (range : ℚ) : Nat := (⌊range⌋ % 2 ^ 16).toNat

/-- `_measure_left_range`, `_measure_center_range` and `_measure_right_range`. -/
def measureRange (range : ℚ) (buffer : AverageBuffer) : AverageBuffer :=
  let index := (buffer.index + 1) % 2 ^ 8
  { slots := buffer.slots.set buffer.index (toUInt16 range)
    index := if index ≥ averageBufferSize then 0 else index }

/-- `range` is what the sensor that is measured returns. -/
def tick (range : ℚ) (finder : RangeFinder) : RangeFinder :=
  let measured :=
    match finder.rangeFinderToProceed with
    | 0 => { finder with left := measureRange range finder.left }
    | 1 => { finder with center := measureRange range finder.center }
    | 2 => { finder with right := measureRange range finder.right }
    | _ => finder
  { measured with rangeFinderToProceed :=
      if finder.rangeFinderToProceed ≥ 2 then 0 else (finder.rangeFinderToProceed + 1) % 2 ^ 8 }

def countSum (buffer : AverageBuffer) : Nat :=
  buffer.slots.foldl (fun sum range => (sum + range) % 2 ^ 16) 0 / averageBufferSize % 2 ^ 8

def getLeftRangeInMm (finder : RangeFinder) : Nat := countSum finder.left
def getCenterRangeInMm (finder : RangeFinder) : Nat := countSum finder.center
def getRightRangeInMm (finder : RangeFinder) : Nat := countSum finder.right

def buffer (finder : RangeFinder) : Sensor → AverageBuffer
  | .left => finder.left
  | .center => finder.center
  | .right => finder.right

def getRangeInMm (finder : RangeFinder) : Sensor → Nat
  | .left => finder.getLeftRangeInMm
  | .center => finder.getCenterRangeInMm
  | .right => finder.getRightRangeInMm

def ticks (finder : RangeFinder) (ranges : List ℚ) : RangeFinder :=
  ranges.foldl (fun finder range => finder.tick range) finder

/-- What the sensor returns at its turns, which is every third tick. -/
def rangesOf (sensor : Sensor) (ranges : List ℚ) : List ℚ :=
  (ranges.zipIdx.filter fun (_, index) => index % 3 = sensor.number).map Prod.fst

/-- The measurements of the sensor in whole millimetres, as they are stored. -/
def measurementsOf (sensor : Sensor) (ranges : List ℚ) : List Nat :=
  (rangesOf sensor ranges).map fun range => ⌊range⌋.toNat

def lastFive {Value : Type} (history : List Value) : List Value :=
  history.drop (history.length - averageBufferSize)

/-- The ranges that `measure_range_in_mm` constrains its results to. -/
def Constrained (range : ℚ) : Prop := 0 ≤ range ∧ range ≤ 250

instance (range : ℚ) : Decidable (Constrained range) := inferInstanceAs (Decidable (_ ∧ _))

theorem rangesOf_concat (sensor : Sensor) (ranges : List ℚ) (range : ℚ) :
    rangesOf sensor (ranges ++ [range]) = rangesOf sensor ranges ++
      if ranges.length % 3 = sensor.number then [range] else [] := by
  unfold rangesOf
  rw [List.zipIdx_append, List.filter_append, List.map_append]
  congr 1
  by_cases hturn : ranges.length % 3 = sensor.number <;> simp [hturn]

theorem floor_of_constrained {range : ℚ} (h : Constrained range) :
    0 ≤ ⌊range⌋ ∧ ⌊range⌋ ≤ 250 := by
  constructor
  · exact Int.floor_nonneg.mpr h.1
  · have hfloor : ⌊range⌋ ≤ ⌊(250 : ℚ)⌋ := Int.floor_le_floor h.2
    simpa using hfloor

theorem measureRange_eq_write {range : ℚ} {buffer : AverageBuffer} (hrange : Constrained range)
    (hlength : buffer.slots.length = averageBufferSize)
    (hindex : buffer.index < averageBufferSize) :
    measureRange range buffer = buffer.write ⌊range⌋.toNat := by
  obtain ⟨hnonneg, hle⟩ := floor_of_constrained hrange
  have hstored : toUInt16 range = ⌊range⌋.toNat := by
    rw [toUInt16, Int.emod_eq_of_lt hnonneg (by omega)]
  unfold averageBufferSize at hlength hindex
  have hnext : (buffer.index + 1) % 2 ^ 8 = buffer.index + 1 := Nat.mod_eq_of_lt (by omega)
  unfold measureRange RingBuffer.write
  rw [hstored, hnext, hlength, averageBufferSize]
  dsimp only
  congr 1
  split <;> split <;> omega

theorem buffer_tick {finder : RangeFinder} (range : ℚ) (sensor : Sensor)
    (h : finder.rangeFinderToProceed < 3) : (finder.tick range).buffer sensor =
      if finder.rangeFinderToProceed = sensor.number then measureRange range (finder.buffer sensor)
      else finder.buffer sensor := by
  obtain ⟨turn, left, center, right⟩ := finder
  dsimp only at h
  interval_cases turn <;> cases sensor <;> rfl

theorem rangeFinderToProceed_tick {finder : RangeFinder} (range : ℚ)
    (h : finder.rangeFinderToProceed < 3) :
    (finder.tick range).rangeFinderToProceed = (finder.rangeFinderToProceed + 1) % 3 := by
  obtain ⟨turn, left, center, right⟩ := finder
  dsimp only at h
  interval_cases turn
  · rfl
  · rfl
  · simp [tick]

/-- Whose turn it is, and what each buffer holds. -/
structure Inv (ranges : List ℚ) (finder : RangeFinder) : Prop where
  turn : finder.rangeFinderToProceed = ranges.length % 3
  holds : ∀ sensor, (finder.buffer sensor).Holds (List.replicate averageBufferSize 0)
    (measurementsOf sensor ranges)

theorem Inv.tick {ranges : List ℚ} {finder : RangeFinder} (hinv : Inv ranges finder) {range : ℚ}
    (hrange : Constrained range) : Inv (ranges ++ [range]) (finder.tick range) := by
  have hturn : finder.rangeFinderToProceed < 3 := by
    rw [hinv.turn]
    exact Nat.mod_lt _ (by decide)
  constructor
  · rw [rangeFinderToProceed_tick range hturn, hinv.turn, List.length_append,
      List.length_singleton, Nat.mod_add_mod]
  · intro sensor
    have hholds := hinv.holds sensor
    rw [buffer_tick range sensor hturn, hinv.turn, measurementsOf, rangesOf_concat]
    by_cases hsensor : ranges.length % 3 = sensor.number
    · have hlength := hholds.length
      have hindex := hholds.index_lt
      rw [hlength] at hindex
      rw [List.length_replicate] at hlength hindex
      rw [if_pos hsensor, if_pos hsensor, List.map_append, measureRange_eq_write hrange hlength hindex]
      exact hholds.write _
    · rw [if_neg hsensor, if_neg hsensor, List.append_nil]
      exact hholds

theorem inv_ticks {ranges : List ℚ} (hranges : ∀ range ∈ ranges, Constrained range) :
    Inv ranges (ticks {} ranges) := by
  induction ranges using List.reverseRecOn with
  | nil =>
    refine ⟨rfl, fun sensor => ?_⟩
    cases sensor <;> exact RingBuffer.holds_start (by decide)
  | append_singleton ranges range ih =>
    rw [ticks, List.foldl_append]
    exact (ih fun other hother => hranges other (List.mem_append_left _ hother)).tick
      (hranges range (by simp))

theorem foldl_add_mod {size : Nat} (slots : List Nat) {sum : Nat} (h : sum < size) :
    slots.foldl (fun sum range => (sum + range) % size) sum = (sum + slots.sum) % size := by
  induction slots generalizing sum with
  | nil => exact (Nat.mod_eq_of_lt h).symm
  | cons range slots ih =>
    rw [List.foldl_cons, ih (Nat.mod_lt _ (Nat.zero_lt_of_lt h)), List.sum_cons, Nat.mod_add_mod,
      Nat.add_assoc]

theorem countSum_of_le {buffer : AverageBuffer} (hlength : buffer.slots.length = averageBufferSize)
    (hslots : ∀ range ∈ buffer.slots, range ≤ 250) :
    countSum buffer = buffer.slots.sum / averageBufferSize := by
  have hsum : buffer.slots.sum ≤ 5 * 250 := by
    have hbound := List.sum_le_card_nsmul buffer.slots 250 hslots
    rwa [hlength, smul_eq_mul] at hbound
  have haverage : buffer.slots.sum / averageBufferSize ≤ 250 := Nat.div_le_of_le_mul hsum
  rw [countSum, foldl_add_mod _ (by decide), Nat.zero_add, Nat.mod_eq_of_lt (a := buffer.slots.sum)
    (by omega), Nat.mod_eq_of_lt (by omega)]

theorem sum_window (history : List Nat) :
    (RingBuffer.window (List.replicate averageBufferSize 0) history).sum =
      (lastFive history).sum := by
  rw [RingBuffer.window, List.drop_append, List.sum_append, List.drop_replicate,
    List.sum_replicate, smul_zero, Nat.zero_add, List.length_replicate, lastFive]

theorem le_of_mem_measurementsOf {sensor : Sensor} {ranges : List ℚ}
    (hranges : ∀ range ∈ ranges, Constrained range) :
    ∀ measurement ∈ measurementsOf sensor ranges, measurement ≤ 250 := by
  intro measurement hmeasurement
  obtain ⟨range, hrange, rfl⟩ := List.mem_map.mp hmeasurement
  obtain ⟨⟨_, index⟩, hmember, rfl⟩ := List.mem_map.mp hrange
  have hfloor := floor_of_constrained
    (hranges _ (List.fst_mem_of_mem_zipIdx (List.mem_of_mem_filter hmember)))
  omega

/-- The averages behind any number of ticks. -/
structure Averages (ranges : List ℚ) (finder : RangeFinder) : Prop where
  /-- The next tick measures the sensor whose turn it is, and that one alone. -/
  measured : ∀ range sensor, (finder.tick range).buffer sensor =
    if ranges.length % 3 = sensor.number then measureRange range (finder.buffer sensor)
    else finder.buffer sensor
  index_lt : ∀ sensor, (finder.buffer sensor).index < averageBufferSize
  average : ∀ sensor, finder.getRangeInMm sensor =
    (lastFive (measurementsOf sensor ranges)).sum / averageBufferSize

theorem averages_ticks (ranges : List ℚ) (hranges : ∀ range ∈ ranges, Constrained range) :
    Averages ranges (ticks {} ranges) := by
  have hinv := inv_ticks hranges
  have hlength : ∀ sensor, ((ticks {} ranges).buffer sensor).slots.length = averageBufferSize := by
    intro sensor
    rw [(hinv.holds sensor).length, List.length_replicate]
  constructor
  · intro range sensor
    rw [← hinv.turn]
    apply buffer_tick
    rw [hinv.turn]
    exact Nat.mod_lt _ (by decide)
  · intro sensor
    have hindex := (hinv.holds sensor).index_lt
    rwa [hlength sensor] at hindex
  · intro sensor
    have hperm := (hinv.holds sensor).perm
    have hslots : ∀ range ∈ ((ticks {} ranges).buffer sensor).slots, range ≤ 250 := by
      intro range hrange
      have hwindow := List.mem_of_mem_drop (hperm.mem_iff.mp hrange)
      obtain hpadding | hhistory := List.mem_append.mp hwindow
      · rw [List.eq_of_mem_replicate hpadding]
        exact Nat.zero_le _
      · exact le_of_mem_measurementsOf hranges range hhistory
    have hsum : countSum ((ticks {} ranges).buffer sensor) =
        (lastFive (measurementsOf sensor ranges)).sum / averageBufferSize := by
      rw [countSum_of_le (hlength sensor) hslots, hperm.sum_eq, sum_window]
    cases sensor <;> exact hsum

/-- The ring of the left sensor has turned: its sixth measurement took the place of
its first. -/
theorem averages_of_sixteen_ticks :
    Averages [1/2, 8, 9, 250, 0, 17, 30, 8, 9, 40, 0, 17, 50, 8, 9, 60]
      (ticks {} [1/2, 8, 9, 250, 0, 17, 30, 8, 9, 40, 0, 17, 50, 8, 9, 60]) :=
  averages_ticks _ (by decide +kernel)

/-- What is behind the point of a measurement is lost before the average. -/
theorem average_loses_fractions : ¬ ∀ ranges : List ℚ, (∀ range ∈ ranges, Constrained range) →
    ∀ sensor, ((ticks {} ranges).getRangeInMm sensor : ℤ) =
      ⌊(lastFive (rangesOf sensor ranges)).sum / 5⌋ := by
  intro hevery
  have hleft := hevery [1/2, 0, 0, 1/2, 0, 0, 1/2, 0, 0, 1/2, 0, 0, 3] (by decide +kernel) .left
  revert hleft
  decide +kernel

end RangeFinder
end VacuumCleaner.A1
