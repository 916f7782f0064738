import VacuumCleaner.Lib.Reporter
import VacuumCleaner.A1.Power

/-! When the timer of the main power runs out: the seconds are narrowed to a
byte, multiplied in 16 bits and added to a clock that wraps. -/
namespace VacuumCleaner.A1.Power

open Lib Fields PowerController InstructionHandler

/-- One main loop, with the time since the timer was set and what the board
answers on the bus. -/
structure LoopTick where
  elapsed : Nat
  answer : List UInt8 := []
  deriving DecidableEq, Repr

/-- The part of `propagandate_tick_signal` that is about the main power. -/
def reporter (start : UInt32) : Reporter Power LoopTick (List UInt8) :=
  ⟨fun loopTick power =>
    (power.tick loopTick.answer, power.timerCommands (start + UInt32.ofNat loopTick.elapsed))⟩

/-- The command comes with the first loop at which the seconds have passed, and
with no earlier one, in whatever loops follow for less than half a round of the clock. -/
def TurnsOffOnTime (start : UInt32) (seconds : Nat) (power : Power) : Prop :=
  ∀ loops : List LoopTick, loops.Pairwise (·.elapsed ≤ ·.elapsed) →
    (∀ loopTick ∈ loops, loopTick.elapsed < 2 ^ 31) →
    ∀ before report after, (reporter start).reports power loops = before ++ report :: after →
      (report.1.elapsed < seconds * 1000 → report.2 = []) ∧
      (seconds * 1000 ≤ report.1.elapsed →
        (∀ earlier ∈ before, earlier.1.elapsed < seconds * 1000) →
        report.2 = [setTurnedOffState])

@[simp] theorem tick_timeToTurnOff (answer : List UInt8) (power : Power) :
    (power.tick answer).timeToTurnOff = power.timeToTurnOff := by
  unfold tick
  split <;> rfl

theorem reports_eq (start : UInt32) (power : Power) (loops : List LoopTick) :
    (reporter start).reports power loops = loops.map fun loopTick =>
      (loopTick, power.timerCommands (start + UInt32.ofNat loopTick.elapsed)) := by
  induction loops generalizing power with
  | nil => rfl
  | cons loopTick loops ih =>
    rw [Reporter.reports, ih, List.map_cons]
    simp [reporter, timerCommands]

/-- Whether the timer has run out `elapsed` milliseconds behind `start`. -/
def IsOut (start : UInt32) (elapsed : Nat) (power : Power) : Prop :=
  0 < power.timeToTurnOff ∧ power.timeToTurnOff ≤ start + UInt32.ofNat elapsed

instance (start : UInt32) (elapsed : Nat) (power : Power) :
    Decidable (power.IsOut start elapsed) := inferInstanceAs (Decidable (_ ∧ _))

theorem timerCommands_eq (start : UInt32) (elapsed : Nat) (power : Power) :
    power.timerCommands (start + UInt32.ofNat elapsed) =
      if power.IsOut start elapsed then [setTurnedOffState] else [] := rfl

/-- Any loop may be the first at which the seconds have passed. -/
theorem turnsOffOnTime_iff {start : UInt32} {seconds : Nat} {power : Power} :
    TurnsOffOnTime start seconds power ↔
      ∀ elapsed < 2 ^ 31, power.IsOut start elapsed ↔ seconds * 1000 ≤ elapsed := by
  constructor
  · intro honTime elapsed helapsed
    have hreports := reports_eq start power [⟨elapsed, []⟩]
    rw [List.map_singleton, timerCommands_eq] at hreports
    obtain ⟨hearly, hlate⟩ := honTime [⟨elapsed, []⟩] (List.pairwise_singleton _ _)
      (by simpa using helapsed) [] _ [] hreports
    constructor
    · intro hout
      by_contra hbefore
      have hnone := hearly (Nat.lt_of_not_le hbefore)
      rw [if_pos hout] at hnone
      cases hnone
    · intro hpassed
      have hsent := hlate hpassed (by simp)
      by_contra hout
      rw [if_neg hout] at hsent
      cases hsent
  · intro hout loops _ hlimit before report after hreports
    rw [reports_eq] at hreports
    have hmember : report ∈ loops.map fun loopTick =>
        (loopTick, power.timerCommands (start + UInt32.ofNat loopTick.elapsed)) := by
      rw [hreports]
      simp
    obtain ⟨loopTick, hloop, rfl⟩ := List.mem_map.mp hmember
    have hiff := hout loopTick.elapsed (hlimit loopTick hloop)
    rw [timerCommands_eq]
    constructor
    · intro hbefore
      exact if_neg fun h => Nat.not_le_of_lt hbefore (hiff.mp h)
    · intro hpassed _
      exact if_pos (hiff.mpr hpassed)

theorem isOut_iff {start : UInt32} {elapsed : Nat} {delay : Int} {power : Power}
    (hdelay : power.timeToTurnOff = start + UInt32.ofInt delay) :
    power.IsOut start elapsed ↔ 0 < (start.toNat + delay) % 2 ^ 32 ∧
      (start.toNat + delay) % 2 ^ 32 ≤ (start.toNat + elapsed : Int) % 2 ^ 32 := by
  have hdeadline : (power.timeToTurnOff.toNat : Int) = (start.toNat + delay) % 2 ^ 32 := by
    rw [hdelay, UInt32.toNat_add, UInt32.ofInt, UInt32.toNat_ofNat']
    omega
  have hclock : ((start + UInt32.ofNat elapsed).toNat : Int) =
      (start.toNat + elapsed : Int) % 2 ^ 32 := by
    rw [UInt32.toNat_add, UInt32.toNat_ofNat']
    omega
  rw [IsOut, UInt32.lt_iff_toNat_lt, UInt32.le_iff_toNat_le, UInt32.toNat_zero]
  omega

/-- The delay that an accepted number of seconds makes. -/
def delayOf (seconds : Nat) : Int := toSigned 16 (toSigned 8 seconds * 1000)

theorem delayOf_of_le {seconds : Nat} (h : seconds ≤ 32) : delayOf seconds = seconds * 1000 := by
  have hproduct : (seconds : Int) * 1000 = (seconds * 1000 : Nat) := by push_cast; rfl
  rw [delayOf, toSigned_natCast (by omega), hproduct, toSigned_natCast (by omega)]

theorem delayOf_lt (seconds : Nat) : delayOf seconds < 2 ^ 15 := by
  have hlt := Int.bmod_lt (x := toSigned 8 seconds * 1000) (Nat.two_pow_pos 16)
  rwa [show ((2 ^ 16 : Nat) + 1 : Int) / 2 = 2 ^ 15 from rfl] at hlt

theorem neg_le_delayOf (seconds : Nat) : -2 ^ 15 ≤ delayOf seconds := by
  have hle := Int.le_bmod (x := toSigned 8 seconds * 1000) (Nat.two_pow_pos 16)
  rwa [show -(((2 ^ 16 : Nat) : Int) / 2) = -2 ^ 15 from rfl] at hle

/-- A deadline is met at every moment before the clock has gone half round
exactly when it is that of the seconds, behind the acceptance and not zero, and
the clock does not wrap so soon. -/
theorem deadline_met_iff {start seconds : Nat} {delay : Int} (hstart : start < 2 ^ 32)
    (hseconds : seconds ≤ 0xFF) (hsmall : seconds ≤ 32 → delay = seconds * 1000)
    (hupper : delay < 2 ^ 15) (hlower : -2 ^ 15 ≤ delay) :
    (∀ elapsed : Nat, elapsed < 2 ^ 31 → (0 < (start + delay) % 2 ^ 32 ∧
      (start + delay) % 2 ^ 32 ≤ (start + elapsed : Int) % 2 ^ 32 ↔ seconds * 1000 ≤ elapsed)) ↔
    seconds ≤ 32 ∧ start ≤ 2 ^ 31 ∧ ¬ (start = 0 ∧ seconds = 0) := by
  constructor
  · intro hmet
    have hend := (hmet (seconds * 1000) (by omega)).mpr (Nat.le_refl _)
    have hexact : (start + delay) % 2 ^ 32 = (start + (seconds * 1000 : Nat) : Int) % 2 ^ 32 := by
      by_cases hzero : seconds = 0
      · have := hsmall (by omega)
        omega
      · have hbefore := hmet (seconds * 1000 - 1) (by omega)
        omega
    obtain ⟨rounds, hrounds⟩ :=
      Int.dvd_of_emod_eq_zero (Int.emod_eq_emod_iff_emod_sub_eq_zero.mp hexact)
    have hnone : rounds = 0 := by omega
    have hle : seconds ≤ 32 := by omega
    have hdelay := hsmall hle
    have hnoWrap : start + seconds * 1000 < 2 ^ 32 := by
      by_cases hzero : seconds = 0
      · omega
      · have hfirst := hmet 0 (by omega)
        omega
    refine ⟨hle, ?_, by omega⟩
    by_contra hhalf
    have hwrapped := (hmet (2 ^ 32 - start) (by omega)).mpr (by omega)
    omega
  · rintro ⟨hle, hhalf, hnonzero⟩ elapsed helapsed
    have hdelay := hsmall hle
    have hdeadline : (start + delay) % 2 ^ 32 = start + delay := by omega
    have hclock : (start + elapsed : Int) % 2 ^ 32 = start + elapsed := by omega
    rw [hdeadline, hclock]
    omega

section accepted

variable {input : List Char} {beyond : StackBytes} {start : UInt32} {power next : Power}

theorem timeToTurnOff_of_accepted {seconds : Nat}
    (hfield : fetchUnsignedHexNumber (beyond 0) input 0 = seconds)
    (haccepted : power.onSetTimerToTurnOff input beyond start = (next, [], none)) :
    next.timeToTurnOff = start + UInt32.ofInt (delayOf seconds) := by
  unfold onSetTimerToTurnOff validated at haccepted
  rw [hfield] at haccepted
  split at haccepted
  · simp at haccepted
  · rename_i value hvalue
    dsimp only at hvalue
    split at hvalue
    · simp at hvalue
    · have hseconds := Except.ok.inj hvalue
      split at haccepted
      · simp at haccepted
      · obtain ⟨rfl, -⟩ := Prod.mk.inj haccepted
        rw [delayOf, hseconds]

end accepted

/-- The command comes on time exactly for at most 32 seconds that are set in the
first half of the clock's round, but for no seconds at its very beginning. -/
theorem turnsOffOnTime_iff_small (input : List Char) (beyond : StackBytes) (start : UInt32)
    (power next : Power) (seconds : Nat) (hbyte : seconds ≤ 0xFF)
    (hfield : fetchUnsignedHexNumber (beyond 0) input 0 = seconds)
    (haccepted : power.onSetTimerToTurnOff input beyond start = (next, [], none)) :
    TurnsOffOnTime start seconds next ↔
      seconds ≤ 32 ∧ start.toNat ≤ 2 ^ 31 ∧ ¬ (start.toNat = 0 ∧ seconds = 0) := by
  rw [turnsOffOnTime_iff, ← deadline_met_iff start.toNat_lt hbyte (fun h => delayOf_of_le h)
    (delayOf_lt seconds) (neg_le_delayOf seconds)]
  apply forall₂_congr
  intro elapsed _
  rw [isOut_iff (timeToTurnOff_of_accepted hfield haccepted)]

theorem fifteen_seconds_turnOff_on_time :
    TurnsOffOnTime 5000 15 { timeToTurnOff := 20000, powerState := 0x3 } ↔
      15 ≤ 32 ∧ (5000 : UInt32).toNat ≤ 2 ^ 31 ∧ ¬ ((5000 : UInt32).toNat = 0 ∧ 15 = 0) :=
  turnsOffOnTime_iff_small "F\r\n".toList (fun _ => []) 5000 { powerState := 0x3 }
    { timeToTurnOff := 20000, powerState := 0x3 } 15 (by decide) rfl (by decide)

/-- A minute overflows the 16 bits, and the power is cut in the next loop. -/
theorem a_minute_turns_off_at_once : ¬ ∀ (input : List Char) (beyond : StackBytes)
    (start : UInt32) (power next : Power) (seconds : Nat), seconds ≤ 0xFF →
    fetchUnsignedHexNumber (beyond 0) input 0 = seconds →
    power.onSetTimerToTurnOff input beyond start = (next, [], none) →
    TurnsOffOnTime start seconds next := by
  intro hevery
  have hminute := hevery "3C\r\n".toList (fun _ => []) 100000 { powerState := 0x3 }
    { timeToTurnOff := 94464, powerState := 0x3 } 60 (by decide) rfl (by decide)
  have hnow := (turnsOffOnTime_iff.mp hminute 0 (by decide)).mp (by decide)
  omega

end VacuumCleaner.A1.Power
