import VacuumCleaner.Lib.Ramp
import VacuumCleaner.Lib.Reporter
import VacuumCleaner.A1.Motor

/-! A motor over any sequence of requests and ticks: how its signal moves, and
when the last request is answered, as far as its calls and its answers tell. -/
namespace VacuumCleaner.A1.Motor

open Lib InstructionHandler

/-- The two readings of `millis` in one tick. -/
structure Readings where
  now : UInt32
  later : UInt32
  deriving DecidableEq, Repr

inductive Call
  | set (requestId : RequestId) (value : Nat)
  | tick (readings : Readings)
  deriving DecidableEq, Repr

def reporter : Reporter Motor Call (List Reply) where
  step call motor :=
    match call with
    | .set requestId value => (motor.set requestId value, [])
    | .tick readings => motor.tick readings.now readings.later

/-- The values that a request may set. -/
def Call.IsInRange : Call → Prop
  | .set _ value => value ≤ 100
  | .tick _ => True

instance : DecidablePred Call.IsInRange
  | .set _ value => inferInstanceAs (Decidable (value ≤ 100))
  | .tick _ => .isTrue trivial

/-- The tick does anything at all. -/
def isEffective (now : UInt32) (motor : Motor) : Bool :=
  !motor.isSet && now - motor.lastTick > tickInterval

def distance (motor : Motor) : Nat := Nat.dist motor.signal motor.setpoint

/-- Both bytes are what they are without wrapping. -/
structure InRange (motor : Motor) : Prop where
  signal : motor.signal < 2 ^ 8
  setpoint : motor.setpoint < 2 ^ 8

theorem isSet_of_isEffective {now : UInt32} {motor : Motor} (h : motor.isEffective now = true) :
    motor.isSet = false := by
  simp only [isEffective, Bool.and_eq_true, Bool.not_eq_true'] at h
  exact h.1

theorem tick_of_not_effective {now later : UInt32} {motor : Motor}
    (h : motor.isEffective now = false) : motor.tick now later = (motor, []) := by
  unfold tick
  rw [if_neg]
  simpa [isEffective] using h

theorem tick_of_reached {now later : UInt32} {motor : Motor}
    (h : motor.isEffective now = true) (hreached : motor.signal = motor.setpoint) :
    motor.tick now later = ({ motor with isSet := true, pin := motor.signal, lastTick := later },
      [.finished motor.requestId]) := by
  unfold tick
  rw [if_pos (by simpa [isEffective] using h)]
  simp [hreached]

theorem tick_of_distant {now later : UInt32} {motor : Motor} (hrange : motor.InRange)
    (h : motor.isEffective now = true) (hdistant : motor.signal ≠ motor.setpoint) :
    motor.tick now later = ({ motor with
      signal := approach signalTickStep motor.signal motor.setpoint
      pin := approach signalTickStep motor.signal motor.setpoint
      lastTick := later }, []) := by
  obtain ⟨hsignal, hsetpoint⟩ := hrange
  have hmax := approach_le_max signalTickStep motor.signal motor.setpoint
  have hmin : ∀ distance, (if distance < signalTickStep then distance else signalTickStep) =
      min signalTickStep distance := by
    intro distance
    split <;> omega
  unfold tick
  rw [if_pos (by simpa [isEffective] using h)]
  simp only [hmin, gt_iff_lt]
  by_cases hbelow : motor.setpoint < motor.signal
  · have hdown : approach signalTickStep motor.signal motor.setpoint =
        motor.signal - min signalTickStep (motor.signal - motor.setpoint) := if_pos hbelow
    rw [if_pos hbelow, ← hdown, Nat.mod_eq_of_lt (by omega)]
  · have hup : approach signalTickStep motor.signal motor.setpoint =
        motor.signal + min signalTickStep (motor.setpoint - motor.signal) := if_neg hbelow
    rw [if_neg hbelow, if_pos (by omega), ← hup, Nat.mod_eq_of_lt (by omega)]

/-- What a tick keeps: the bytes in range, and the request and its setpoint. -/
structure Ticked (motor next : Motor) : Prop where
  inRange : next.InRange
  requestId : next.requestId = motor.requestId
  setpoint : next.setpoint = motor.setpoint

theorem ticked_tick {motor : Motor} (hrange : motor.InRange) (now later : UInt32) :
    Ticked motor (motor.tick now later).1 := by
  cases heffective : motor.isEffective now with
  | false =>
    rw [tick_of_not_effective heffective]
    exact ⟨hrange, rfl, rfl⟩
  | true =>
    by_cases hreached : motor.signal = motor.setpoint
    · rw [tick_of_reached heffective hreached]
      exact ⟨⟨hrange.signal, hrange.setpoint⟩, rfl, rfl⟩
    · rw [tick_of_distant hrange heffective hreached]
      have hmax := approach_le_max signalTickStep motor.signal motor.setpoint
      have hsignal : approach signalTickStep motor.signal motor.setpoint < 2 ^ 8 :=
        Nat.lt_of_le_of_lt hmax (max_lt hrange.signal hrange.setpoint)
      exact ⟨⟨hsignal, hrange.setpoint⟩, rfl, rfl⟩

theorem signal_tick {motor : Motor} (hrange : motor.InRange) (now later : UInt32) :
    (motor.tick now later).1.signal =
      if motor.isEffective now then approach signalTickStep motor.signal motor.setpoint
      else motor.signal := by
  cases heffective : motor.isEffective now with
  | false =>
    rw [tick_of_not_effective heffective]
    rfl
  | true =>
    by_cases hreached : motor.signal = motor.setpoint
    · rw [tick_of_reached heffective hreached, hreached, approach_self]
      rfl
    · rw [tick_of_distant hrange heffective hreached]
      rfl

/-- How many of the ticks do anything. -/
def effectiveTicks (motor : Motor) : List Readings → Nat
  | [] => 0
  | readings :: ticks => (if motor.isEffective readings.now then 1 else 0) +
      (motor.tick readings.now readings.later).1.effectiveTicks ticks

/-- What the ticks of a motor send. -/
def answers (motor : Motor) (ticks : List Readings) : List Reply :=
  (reporter.reports motor (ticks.map .tick)).flatMap Prod.snd

@[simp] theorem answers_cons (motor : Motor) (readings : Readings) (ticks : List Readings) :
    motor.answers (readings :: ticks) = (motor.tick readings.now readings.later).2 ++
      (motor.tick readings.now readings.later).1.answers ticks := rfl

theorem idle_of_isSet (motor : Motor) (h : motor.isSet = true) (ticks : List Readings) :
    motor.answers ticks = [] ∧ motor.effectiveTicks ticks = 0 := by
  induction ticks with
  | nil => exact ⟨rfl, rfl⟩
  | cons readings ticks ih =>
    have heffective : motor.isEffective readings.now = false := by
      simp [isEffective, h]
    rw [answers_cons, effectiveTicks, tick_of_not_effective heffective, heffective]
    exact ⟨ih.1, by simpa using ih.2⟩

/-- A pending request is answered with the last of the ticks that the distance
takes, and one more. -/
theorem answers_of_pending {motor : Motor} (hrange : motor.InRange) (h : motor.isSet = false)
    (ticks : List Readings) :
    motor.answers ticks =
      if stepsFor signalTickStep motor.distance + 1 ≤ motor.effectiveTicks ticks then
        [.finished motor.requestId] else [] := by
  induction ticks generalizing motor with
  | nil => rfl
  | cons readings ticks ih =>
    cases heffective : motor.isEffective readings.now with
    | false =>
      rw [answers_cons, effectiveTicks, tick_of_not_effective heffective, heffective, ih hrange h]
      simp
    | true =>
      by_cases hreached : motor.signal = motor.setpoint
      · have hzero : motor.distance = 0 := Nat.dist_eq_zero hreached
        rw [answers_cons, effectiveTicks, tick_of_reached heffective hreached, heffective, hzero]
        obtain ⟨hnone, hidle⟩ := idle_of_isSet
          { motor with isSet := true, pin := motor.signal, lastTick := readings.later } rfl ticks
        rw [hnone, hidle, stepsFor_zero (by decide)]
        rfl
      · have hpositive : 0 < motor.distance := Nat.dist_pos_of_ne hreached
        have hticked := ticked_tick hrange readings.now readings.later
        have hnext : motor.tick readings.now readings.later = _ :=
          tick_of_distant hrange heffective hreached
        have hdistance : (motor.tick readings.now readings.later).1.distance =
            motor.distance - signalTickStep := by
          rw [hnext]
          exact dist_approach_target
        have hpending : (motor.tick readings.now readings.later).1.isSet = false := by
          rw [hnext]
          exact h
        have hsilent : (motor.tick readings.now readings.later).2 = [] := by
          rw [hnext]
        rw [answers_cons, effectiveTicks, heffective, hsilent, List.nil_append,
          ih hticked.inRange hpending, hdistance, hticked.requestId,
          stepsFor_of_pos (by decide) hpositive]
        simp only [if_true]
        congr 1
        rw [eq_iff_iff]
        omega

theorem setpoint_set {requestId : RequestId} {value : Nat} {motor : Motor} (h : value ≤ 100) :
    (motor.set requestId value).setpoint = value * 255 / 100 := by
  unfold set
  dsimp only
  rw [if_neg (by omega), Nat.mod_eq_of_lt (by omega)]

theorem inRange_set {motor : Motor} (hrange : motor.InRange) (requestId : RequestId)
    (value : Nat) : (motor.set requestId value).InRange :=
  ⟨hrange.signal, Nat.mod_lt _ (by decide)⟩

/-! What is known of a motor from its calls and its answers alone. -/

/-- The target that was asked for last, the request that is not answered yet, and
when the motor has moved last. -/
structure Observed where
  target : Nat := 0
  unanswered : Option RequestId := none
  lastTick : UInt32 := 0
  deriving DecidableEq, Repr

namespace Observed

/-- A tick that is late enough is effective while the request is unanswered. -/
def isEffective (now : UInt32) (seen : Observed) : Bool :=
  seen.unanswered.isSome && now - seen.lastTick > tickInterval

def step (seen : Observed) : Call × List Reply → Observed
  | (.set requestId value, _) =>
    { seen with target := value * 255 / 100, unanswered := some requestId }
  | (.tick readings, replies) =>
    if seen.isEffective readings.now then
      { seen with
        unanswered := if replies.isEmpty then seen.unanswered else none
        lastTick := readings.later }
    else seen

/-- How many of the ticks are effective. -/
def effective (seen : Observed) : List (Call × List Reply) → Nat
  | [] => 0
  | (call, replies) :: reports =>
    (match call with
      | .set _ _ => 0
      | .tick readings => if seen.isEffective readings.now then 1 else 0) +
    (seen.step (call, replies)).effective reports

end Observed

def observed (calls : List Call) : Observed := (reporter.reports {} calls).foldl Observed.step {}

/-- How a motor goes through a sequence of calls. -/
structure Ramps (calls : List Call) : Prop where
  /-- An effective tick moves the signal by as much as it should, and no byte wraps. -/
  moves : ∀ before readings after, calls = before ++ .tick readings :: after →
    let motor := reporter.after {} before
    let seen := observed before
    motor.signal < 2 ^ 8 ∧ motor.setpoint = seen.target ∧
      (motor.tick readings.now readings.later).1.signal =
        if seen.isEffective readings.now then approach 30 motor.signal seen.target
        else motor.signal
  /-- A request does not move it. -/
  keeps : ∀ before requestId value after, calls = before ++ .set requestId value :: after →
    (reporter.after {} (before ++ [.set requestId value])).signal =
      (reporter.after {} before).signal
  /-- An effective tick answers what is unanswered once its target has been reached. -/
  answers : ∀ before readings after, calls = before ++ .tick readings :: after →
    let motor := reporter.after {} before
    let seen := observed before
    (motor.tick readings.now readings.later).2 =
      if seen.isEffective readings.now ∧ motor.signal = seen.target then
        seen.unanswered.toList.map .finished
      else []
  /-- Without another request, the answer comes with the last tick that the
  distance takes and one more, and only once. -/
  answered : ∀ before requestId value (ticks : List Readings) after,
    calls = before ++ .set requestId value :: (ticks.map .tick ++ after) →
    let distance := Nat.dist (reporter.after {} before).signal (value * 255 / 100)
    let seen := observed (before ++ [.set requestId value])
    let reports := reporter.reports (reporter.after {} (before ++ [.set requestId value]))
      (ticks.map .tick)
    reports.flatMap Prod.snd =
      if stepsFor 30 distance + 1 ≤ seen.effective reports then [.finished requestId] else []

/-- What the motor knows of itself is what is known of it. -/
structure Agrees (motor : Motor) (seen : Observed) : Prop where
  inRange : motor.InRange
  target : motor.setpoint = seen.target
  unanswered : seen.unanswered = if motor.isSet then none else some motor.requestId
  lastTick : motor.lastTick = seen.lastTick

theorem agrees_start : Agrees {} {} := ⟨⟨by decide, by decide⟩, rfl, rfl, rfl⟩

theorem isEffective_eq {motor : Motor} {seen : Observed} (h : Agrees motor seen) (now : UInt32) :
    motor.isEffective now = seen.isEffective now := by
  unfold isEffective Observed.isEffective
  rw [h.unanswered, h.lastTick]
  cases motor.isSet <;> rfl

theorem agrees_set {motor : Motor} {seen : Observed} (h : Agrees motor seen)
    (requestId : RequestId) {value : Nat} (hvalue : value ≤ 100) (replies : List Reply) :
    Agrees (motor.set requestId value) (seen.step (.set requestId value, replies)) :=
  ⟨inRange_set h.inRange requestId value, setpoint_set hvalue, rfl, h.lastTick⟩

theorem agrees_tick {motor : Motor} {seen : Observed} (h : Agrees motor seen)
    (readings : Readings) : Agrees (motor.tick readings.now readings.later).1
      (seen.step (.tick readings, (motor.tick readings.now readings.later).2)) := by
  have hticked := ticked_tick h.inRange readings.now readings.later
  cases heffective : motor.isEffective readings.now with
  | false =>
    rw [tick_of_not_effective heffective]
    rw [isEffective_eq h] at heffective
    simpa [Observed.step, heffective] using h
  | true =>
    have hseen := heffective
    rw [isEffective_eq h] at hseen
    have htarget : (motor.tick readings.now readings.later).1.setpoint = seen.target :=
      hticked.setpoint.trans h.target
    have hpending := isSet_of_isEffective heffective
    by_cases hreached : motor.signal = motor.setpoint
    · rw [tick_of_reached heffective hreached] at hticked htarget ⊢
      refine ⟨hticked.inRange, ?_, ?_, ?_⟩ <;> simp [Observed.step, hseen, h.target]
    · rw [tick_of_distant h.inRange heffective hreached] at hticked htarget ⊢
      refine ⟨hticked.inRange, ?_, ?_, ?_⟩ <;>
        simp [Observed.step, hseen, h.target, h.unanswered, hpending]

theorem agrees_after {motor : Motor} {seen : Observed} (h : Agrees motor seen)
    {calls : List Call} (hvalues : ∀ call ∈ calls, call.IsInRange) :
    Agrees (reporter.after motor calls) ((reporter.reports motor calls).foldl Observed.step seen) := by
  induction calls generalizing motor seen with
  | nil => exact h
  | cons call calls ih =>
    have hrest : ∀ other ∈ calls, other.IsInRange :=
      fun other hother => hvalues other (List.mem_cons_of_mem call hother)
    cases call with
    | set requestId value => exact ih (agrees_set h requestId (hvalues _ List.mem_cons_self) []) hrest
    | tick readings => exact ih (agrees_tick h readings) hrest

theorem agrees_observed {calls : List Call} (hvalues : ∀ call ∈ calls, call.IsInRange) :
    Agrees (reporter.after {} calls) (observed calls) := agrees_after agrees_start hvalues

theorem effective_reports {motor : Motor} {seen : Observed} (h : Agrees motor seen)
    (ticks : List Readings) :
    seen.effective (reporter.reports motor (ticks.map .tick)) = motor.effectiveTicks ticks := by
  induction ticks generalizing motor seen with
  | nil => rfl
  | cons readings ticks ih =>
    have hrest := ih (agrees_tick h readings)
    rw [effectiveTicks, isEffective_eq h, ← hrest]
    rfl

theorem replies_tick {motor : Motor} {seen : Observed} (h : Agrees motor seen)
    (readings : Readings) : (motor.tick readings.now readings.later).2 =
      if seen.isEffective readings.now ∧ motor.signal = seen.target then
        seen.unanswered.toList.map .finished
      else [] := by
  rw [← isEffective_eq h, ← h.target]
  cases heffective : motor.isEffective readings.now with
  | false =>
    rw [tick_of_not_effective heffective]
    simp
  | true =>
    have hpending := isSet_of_isEffective heffective
    by_cases hreached : motor.signal = motor.setpoint
    · rw [tick_of_reached heffective hreached, h.unanswered]
      simp [hreached, hpending]
    · rw [tick_of_distant h.inRange heffective hreached]
      simp [hreached]

/-- The signal follows its setpoint without wrapping, and each request is
answered once at most, when its setpoint has been reached. -/
theorem ramps (calls : List Call) (hvalues : ∀ call ∈ calls, call.IsInRange) : Ramps calls where
  moves before readings after hcalls := by
    have hagrees : Agrees (reporter.after {} before) (observed before) :=
      agrees_observed fun call hcall => hvalues call (by simp [hcalls, hcall])
    have hsignal := signal_tick hagrees.inRange readings.now readings.later
    rw [isEffective_eq hagrees, hagrees.target] at hsignal
    exact ⟨hagrees.inRange.signal, hagrees.target, hsignal⟩
  keeps before requestId value after hcalls := by
    rw [Reporter.after_append]
    rfl
  answers before readings after hcalls := by
    have hagrees : Agrees (reporter.after {} before) (observed before) :=
      agrees_observed fun call hcall => hvalues call (by simp [hcalls, hcall])
    exact replies_tick hagrees readings
  answered before requestId value ticks after hcalls := by
    have hvalue : value ≤ 100 := hvalues (.set requestId value) (by simp [hcalls])
    have hbefore : Agrees (reporter.after {} before) (observed before) :=
      agrees_observed fun call hcall => hvalues call (by simp [hcalls, hcall])
    have hagrees := agrees_set hbefore requestId hvalue []
    have hafter : reporter.after {} (before ++ [.set requestId value]) =
        (reporter.after {} before).set requestId value := by
      rw [Reporter.after_append]
      rfl
    have hseen : observed (before ++ [.set requestId value]) =
        (observed before).step (.set requestId value, []) := by
      rw [observed, Reporter.reports_append, List.foldl_append]
      rfl
    dsimp only
    rw [hafter, hseen, effective_reports hagrees ticks]
    have hanswers := answers_of_pending hagrees.inRange rfl ticks
    rw [distance, setpoint_set hvalue] at hanswers
    exact hanswers

/-- A request is replaced in the middle of its ramp. -/
theorem ramps_retargeted : Ramps [.set 7 100, .tick ⟨101, 101⟩, .tick ⟨202, 202⟩, .set 8 10,
    .tick ⟨303, 303⟩, .tick ⟨404, 404⟩, .tick ⟨505, 505⟩] :=
  ramps _ (by decide)

end VacuumCleaner.A1.Motor
