import VacuumCleaner.Lib.Presses
import VacuumCleaner.Lib.Millis
import VacuumCleaner.A1.Telemetry

/-! A push button of the robot: ticked in every loop, and read behind each tick
for the sensor line. -/
namespace VacuumCleaner.A1

open Lib
open Telemetry (State)

def longPressTime : UInt32 := 2000

structure Button where
  startTime : UInt32 := 0
  pressed : Bool := false
  holdFlag : Bool := false
  state : State := .unpressed
  deriving DecidableEq, Repr

namespace Button

/-- The pin has one level in a tick. `!IS_PRESSED` expands to
`!digitalRead(_pin) == LOW`, which holds for `HIGH` alone. -/
def tick (isPressed : Bool) (now : UInt32) (button : Button) : Button :=
  if isPressed && !button.pressed then
    { button with startTime := now, pressed := true }
  else if isPressed && button.pressed && !button.holdFlag &&
      now - button.startTime > longPressTime then
    { button with state := .longClick, holdFlag := true, pressed := false, startTime := 0 }
  else if !isPressed && button.pressed && !button.holdFlag then
    { button with state := .click, pressed := false, startTime := 0 }
  else if !isPressed then
    { button with holdFlag := false, pressed := false }
  else button

def readState (button : Button) : Button × State :=
  ({ button with state := .unpressed }, button.state)

/-- One loop: the button is ticked and then read. -/
def reporter : Reporter Button Sample State :=
  ⟨fun sample button => (button.tick sample.isPressed (millis sample.time)).readState⟩

def events : PressEvents State := ⟨.unpressed, .click, .longClick⟩

/-- The flags of a button that has been read. While a reported hold goes on the
pressed flag is set again. -/
def Related (button : Button) : Press → Prop
  | .released => button.state = .unpressed ∧ button.pressed = false ∧ button.holdFlag = false
  | .held since false => button.state = .unpressed ∧ button.pressed = true ∧
      button.holdFlag = false ∧ button.startTime = millis since
  | .held _ true => button.state = .unpressed ∧ button.holdFlag = true

/-- A sample of a hold comes before the clock has come round. -/
def Timely (press : Press) (sample : Sample) : Prop :=
  ∀ since isLong, press = .held since isLong → sample.isPressed = true →
    since ≤ sample.time ∧ sample.time < since + 2 ^ 32

theorem step_related {button : Button} {press : Press} {sample : Sample}
    (hrelated : Related button press) (htimely : Timely press sample) :
    Related (reporter.step sample button).1 (Press.step events longPressTime.toNat sample press).1 ∧
      (reporter.step sample button).2 =
        (Press.step events longPressTime.toNat sample press).2 := by
  obtain ⟨isPressed, time⟩ := sample
  cases press with
  | released =>
    obtain ⟨hstate, hpressed, hhold⟩ := hrelated
    cases isPressed <;>
      simp [reporter, tick, readState, Press.step, Related, events, hstate, hpressed, hhold]
  | held since isLong =>
    cases isPressed with
    | false =>
      cases isLong with
      | false =>
        obtain ⟨hstate, hpressed, hhold, -⟩ := hrelated
        simp [reporter, tick, readState, Press.step, Related, events, hpressed, hhold]
      | true =>
        obtain ⟨hstate, hhold⟩ := hrelated
        simp [reporter, tick, readState, Press.step, Related, events, hstate, hhold]
    | true =>
      obtain ⟨hle, hlt⟩ := htimely since isLong rfl rfl
      cases isLong with
      | false =>
        obtain ⟨hstate, hpressed, hhold, hstart⟩ := hrelated
        have hlong : longPressTime < millis time - millis since ↔
            since + longPressTime.toNat < time := lt_millis_sub_iff hle hlt
        by_cases hbeyond : since + longPressTime.toNat < time
        · simp [reporter, tick, readState, Press.step, Related, events, hpressed, hhold, hstart,
            hlong, hbeyond]
        · simp [reporter, tick, readState, Press.step, Related, events, hstate, hpressed, hhold,
            hstart, hlong, hbeyond]
      | true =>
        obtain ⟨hstate, hhold⟩ := hrelated
        cases hpressed : button.pressed <;>
          simp [reporter, tick, readState, Press.step, Related, events, hstate, hpressed, hhold]

/-- Each hold of the button is shorter than a round of the clock. -/
def ShortHolds (samples : List Sample) : Prop :=
  ∀ before first hold after, samples = before ++ first :: hold ++ after →
    (∀ sample ∈ first :: hold, sample.isPressed = true) →
    ∀ sample ∈ hold, sample.time < first.time + 2 ^ 32

theorem timely_of_shortHolds {samples before rest : List Sample} {sample : Sample} {limit : Nat}
    (hmonotone : samples.Pairwise (·.time ≤ ·.time)) (hshort : ShortHolds samples)
    (hsamples : samples = before ++ sample :: rest) :
    Timely ((Press.reporter events limit).after .released before) sample := by
  intro since isLong hheld hpressed
  obtain ⟨early, first, hold, rfl, rfl, hhold⟩ := Press.exists_hold_of_held hheld
  have hwindow : samples = early ++ first :: (hold ++ [sample]) ++ rest := by
    simp [hsamples]
  constructor
  · rw [hwindow, List.append_assoc, List.pairwise_append] at hmonotone
    exact (List.pairwise_cons.mp hmonotone.2.1).1 sample (by simp)
  · apply hshort early first (hold ++ [sample]) rest hwindow _ sample (by simp)
    intro other hother
    rw [← List.cons_append, List.mem_append, List.mem_singleton] at hother
    obtain hother | rfl := hother
    · exact hhold other hother
    · exact hpressed

/-- Every hold that the samples show makes one event, and nothing else makes any. -/
theorem reports_each_hold_once (samples : List Sample)
    (hmonotone : samples.Pairwise (·.time ≤ ·.time)) (hshort : ShortHolds samples) :
    ReportsHolds events 2000 (reporter.reports {} samples) := by
  have hsame : reporter.reports {} samples =
      (Press.reporter events longPressTime.toNat).reports .released samples := by
    apply Reporter.reports_eq_of_simulates Related Timely
    · exact fun button press sample => step_related
    · exact ⟨rfl, rfl, rfl⟩
    · exact fun before sample rest => timely_of_shortHolds hmonotone hshort
  rw [hsame]
  exact Press.reportsHolds_reports samples

theorem reports_long_hold_over_wrap : ReportsHolds events 2000 (reporter.reports {}
    [⟨true, 2 ^ 32 - 1000⟩, ⟨true, 2 ^ 32 + 1500⟩, ⟨true, 2 ^ 32 + 1501⟩, ⟨false, 2 ^ 32 + 1502⟩]) :=
  reports_each_hold_once _ (by decide) fun before first hold after hsamples _ sample hsample => by
    have hfirst : first ∈ before ++ first :: hold ++ after := by simp
    have hmember : sample ∈ before ++ first :: hold ++ after := by simp [hsample]
    rw [← hsamples] at hfirst hmember
    simp only [List.mem_cons, List.not_mem_nil, or_false] at hfirst hmember
    obtain rfl | rfl | rfl | rfl := hfirst <;> obtain rfl | rfl | rfl | rfl := hmember <;> decide

example : (reporter.reports {} [⟨true, 2 ^ 32 - 1000⟩, ⟨true, 2 ^ 32 + 1500⟩,
    ⟨true, 2 ^ 32 + 1501⟩, ⟨false, 2 ^ 32 + 1502⟩]).map Prod.snd =
    [.unpressed, .longClick, .unpressed, .unpressed] := by decide

end Button
end VacuumCleaner.A1
