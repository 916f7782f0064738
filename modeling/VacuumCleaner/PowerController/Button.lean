import VacuumCleaner.Lib.Presses
import VacuumCleaner.Lib.Millis
import VacuumCleaner.PowerController.Board

/-! The push button of the power controller: `get_button_state` with its static
variables, and the guard that skips every sample shortly behind a release. -/
namespace VacuumCleaner.PowerController

open Lib

def latestButtonClickDelay : UInt32 := 500
def longPressDelay : UInt32 := 3000

/-- The static variables of `get_button_state`. -/
structure Statics where
  wasPressed : Bool := false
  wasLongClick : Bool := false
  latestClick : UInt32 := 0
  clickTimestamp : UInt32 := 0
  deriving DecidableEq, Repr

namespace Statics

def isSkipped (now : UInt32) (statics : Statics) : Bool :=
  now - statics.latestClick < latestButtonClickDelay

/-- A timestamp of zero stands for none. -/
def takeTimestamp (now : UInt32) (statics : Statics) : Statics :=
  if statics.clickTimestamp = 0 then { statics with clickTimestamp := now } else statics

def getButtonState (isPressed : Bool) (now : UInt32) (statics : Statics) : Statics × ButtonState :=
  if statics.isSkipped now then (statics, .nothing)
  else if isPressed then
    let statics := ({ statics with wasPressed := true } : Statics).takeTimestamp now
    if statics.wasLongClick = false ∧ now - statics.clickTimestamp > longPressDelay then
      ({ statics with wasLongClick := true, clickTimestamp := 0 }, .longPressed)
    else (statics, .nothing)
  else if statics.wasPressed then
    let statics := { statics with wasPressed := false, latestClick := now, clickTimestamp := 0 }
    if statics.wasLongClick then ({ statics with wasLongClick := false }, .nothing)
    else (statics, .pressed)
  else (statics, .nothing)

/-- What a sample is answered, beside whether the guard has skipped it. -/
structure Answer where
  isSkipped : Bool
  state : ButtonState
  deriving DecidableEq, Repr

def reporter : Reporter Statics Sample Answer :=
  ⟨fun sample statics =>
    let (next, state) := statics.getButtonState sample.isPressed (millis sample.time)
    (next, ⟨statics.isSkipped (millis sample.time), state⟩)⟩

/-- The samples that the guard lets through, each with its answer. -/
def taken (reports : List (Sample × Answer)) : List (Sample × ButtonState) :=
  (reports.filter fun report => !report.2.isSkipped).map fun report => (report.1, report.2.state)

def events : PressEvents ButtonState := ⟨.nothing, .pressed, .longPressed⟩

/-- The flags and the timestamp. That of a hold is not zero, since the guard
skips the first samples of all. -/
def Flags (statics : Statics) : Press → Prop
  | .released => statics.wasPressed = false ∧ statics.wasLongClick = false ∧
      statics.clickTimestamp = 0
  | .held since false => statics.wasPressed = true ∧ statics.wasLongClick = false ∧
      statics.clickTimestamp = millis since ∧ 0 < since
  | .held _ true => statics.wasPressed = true ∧ statics.wasLongClick = true

/-- The static variables behind the last release at `latest`. -/
structure Related (latest : Nat) (press : Press) (statics : Statics) : Prop where
  latestClick : statics.latestClick = millis latest
  flags : statics.Flags press

/-- A sample that comes behind what has been seen, before the clock wraps. -/
structure Follows (latest : Nat) (press : Press) (sample : Sample) : Prop where
  latest : latest ≤ sample.time
  since : ∀ since isLong, press = .held since isLong → since ≤ sample.time
  noWrap : sample.time < 2 ^ 32

/-- When the button was released last, once a sample has been taken. -/
def releasedAt (latest : Nat) (press : Press) (sample : Sample) : Nat :=
  if sample.isPressed = false ∧ press ≠ .released then sample.time else latest

theorem isSkipped_eq {latest : Nat} {press : Press} {statics : Statics} {sample : Sample}
    (hrelated : Related latest press statics) (hfollows : Follows latest press sample) :
    statics.isSkipped (millis sample.time) = decide (sample.time < latest + 500) := by
  have hnoWrap := hfollows.noWrap
  rw [isSkipped, hrelated.latestClick, decide_eq_decide]
  exact millis_sub_lt_iff hfollows.latest (by omega)

theorem millis_ne_zero {time : Nat} (hpositive : 0 < time) (hlt : time < 2 ^ 32) :
    millis time ≠ 0 := by
  intro hzero
  have hnat := congrArg UInt32.toNat hzero
  rw [toNat_millis_of_lt hlt, UInt32.toNat_zero] at hnat
  omega

section answers

variable {now : UInt32} {statics : Statics}

theorem getButtonState_of_first (htaken : statics.isSkipped now = false)
    (hlong : statics.wasLongClick = false) (hstamp : statics.clickTimestamp = 0) :
    statics.getButtonState true now =
      ({ statics with wasPressed := true, clickTimestamp := now }, .nothing) := by
  simp [getButtonState, htaken, takeTimestamp, hlong, hstamp, longPressDelay]

theorem getButtonState_of_held (htaken : statics.isSkipped now = false)
    (hpressed : statics.wasPressed = true) (hlong : statics.wasLongClick = false)
    (hstamp : statics.clickTimestamp ≠ 0) :
    statics.getButtonState true now =
      if longPressDelay < now - statics.clickTimestamp then
        ({ statics with wasLongClick := true, clickTimestamp := 0 }, .longPressed)
      else (statics, .nothing) := by
  obtain ⟨wasPressed, wasLongClick, latestClick, clickTimestamp⟩ := statics
  subst hpressed hlong
  simp [getButtonState, htaken, takeTimestamp, hstamp]

/-- The timestamp is taken anew under a reported hold, to no effect. -/
theorem getButtonState_of_long (htaken : statics.isSkipped now = false)
    (hlong : statics.wasLongClick = true) :
    statics.getButtonState true now =
      (({ statics with wasPressed := true } : Statics).takeTimestamp now, .nothing) := by
  have hkept : (({ statics with wasPressed := true } : Statics).takeTimestamp now).wasLongClick =
      true := by
    unfold takeTimestamp
    split <;> exact hlong
  simp [getButtonState, htaken, hkept]

theorem getButtonState_of_released (htaken : statics.isSkipped now = false)
    (hpressed : statics.wasPressed = false) :
    statics.getButtonState false now = (statics, .nothing) := by
  simp [getButtonState, htaken, hpressed]

theorem getButtonState_of_release (htaken : statics.isSkipped now = false)
    (hpressed : statics.wasPressed = true) :
    statics.getButtonState false now =
      (⟨false, false, now, 0⟩, if statics.wasLongClick then .nothing else .pressed) := by
  cases hlong : statics.wasLongClick <;> simp [getButtonState, htaken, hpressed, hlong]

end answers

theorem step_related {latest : Nat} {press : Press} {statics : Statics} {sample : Sample}
    (hrelated : Related latest press statics) (hfollows : Follows latest press sample)
    (htaken : statics.isSkipped (millis sample.time) = false) :
    let answer := statics.getButtonState sample.isPressed (millis sample.time)
    let next := Press.step events 3000 sample press
    Related (releasedAt latest press sample) next.1 answer.1 ∧ answer.2 = next.2 := by
  have hskipped := htaken
  rw [isSkipped_eq hrelated hfollows, decide_eq_false_iff_not] at hskipped
  obtain ⟨isPressed, time⟩ := sample
  obtain ⟨hle, hsince, hnoWrap⟩ := hfollows
  dsimp only at htaken hskipped hsince hnoWrap ⊢
  cases isPressed with
  | false =>
    cases press with
    | released =>
      rw [getButtonState_of_released htaken hrelated.flags.1]
      exact ⟨hrelated, rfl⟩
    | held since isLong =>
      have hpressed : statics.wasPressed = true := by
        cases isLong <;> exact hrelated.flags.1
      have hlong : statics.wasLongClick = isLong := by
        cases isLong with
        | false => exact hrelated.flags.2.1
        | true => exact hrelated.flags.2
      rw [getButtonState_of_release htaken hpressed, hlong]
      exact ⟨⟨rfl, rfl, rfl, rfl⟩, rfl⟩
  | true =>
    cases press with
    | released =>
      obtain ⟨-, hlong, hstamp⟩ := hrelated.flags
      rw [getButtonState_of_first htaken hlong hstamp]
      have hpositive : 0 < time := by omega
      exact ⟨⟨hrelated.latestClick, rfl, hlong, rfl, hpositive⟩, rfl⟩
    | held since isLong =>
      have hle := hsince since isLong rfl
      cases isLong with
      | false =>
        obtain ⟨hpressed, hlong, hstamp, hpositive⟩ := hrelated.flags
        have hnonzero : statics.clickTimestamp ≠ 0 := by
          rw [hstamp]
          exact millis_ne_zero hpositive (by omega)
        have hbeyond : longPressDelay < millis time - statics.clickTimestamp ↔
            since + 3000 < time := by
          rw [hstamp]
          exact lt_millis_sub_iff hle (by omega)
        rw [getButtonState_of_held htaken hpressed hlong hnonzero]
        by_cases htime : since + 3000 < time
        · rw [if_pos (hbeyond.mpr htime)]
          simp only [Press.step, htime, releasedAt]
          exact ⟨⟨hrelated.latestClick, hpressed, rfl⟩, rfl⟩
        · rw [if_neg (hbeyond.not.mpr htime)]
          simp only [Press.step, htime, releasedAt]
          exact ⟨⟨hrelated.latestClick, hpressed, hlong, hstamp, hpositive⟩, rfl⟩
      | true =>
        obtain ⟨hpressed, hlong⟩ := hrelated.flags
        rw [getButtonState_of_long htaken hlong]
        refine ⟨⟨?_, ?_⟩, rfl⟩
        · unfold takeTimestamp
          split <;> exact hrelated.latestClick
        · unfold takeTimestamp
          split <;> exact ⟨rfl, hlong⟩

theorem skipped_answers_nothing (statics : Statics) (samples : List Sample) :
    ∀ report ∈ reporter.reports statics samples, report.2.isSkipped = true →
      report.2.state = .nothing := by
  induction samples generalizing statics with
  | nil => simp [Reporter.reports]
  | cons sample samples ih =>
    intro report hreport hskipped
    obtain rfl | hreport := List.mem_cons.mp hreport
    · have hguard : statics.isSkipped (millis sample.time) = true := hskipped
      simp [reporter, getButtonState, hguard]
    · exact ih _ report hreport hskipped

/-- A release behind a pressed sample is followed by nothing for the time of the guard. -/
def Separated (isHeld : Bool) : List (Sample × ButtonState) → Prop
  | [] => True
  | report :: reports =>
    (isHeld = true → report.1.isPressed = false →
      ∀ later ∈ reports, report.1.time + 500 ≤ later.1.time) ∧
    Separated report.1.isPressed reports

theorem Separated.of_split {isHeld : Bool} {earlier late : List (Sample × ButtonState)}
    {previous release : Sample × ButtonState}
    (h : Separated isHeld (earlier ++ previous :: release :: late))
    (hpressed : previous.1.isPressed = true) (hreleased : release.1.isPressed = false) :
    ∀ later ∈ late, release.1.time + 500 ≤ later.1.time := by
  induction earlier generalizing isHeld with
  | nil => exact h.2.1 hpressed hreleased
  | cons report earlier ih => exact ih h.2

/-- What the samples that the guard lets through are like. -/
structure Taken (latest : Nat) (press : Press) (reports : List (Sample × ButtonState)) : Prop where
  reported : reports = (Press.reporter events 3000).reports press (reports.map Prod.fst)
  separated : Separated (press != .released) reports
  delayed : ∀ report ∈ reports, latest + 500 ≤ report.1.time

theorem Taken.cons {latest : Nat} {press : Press} {sample : Sample}
    {reports : List (Sample × ButtonState)}
    (h : Taken (releasedAt latest press sample) (Press.step events 3000 sample press).1 reports)
    (hlatest : latest ≤ sample.time) (hguard : latest + 500 ≤ sample.time) :
    Taken latest press ((sample, (Press.step events 3000 sample press).2) :: reports) where
  reported := congrArg (List.cons _) h.reported
  separated := by
    constructor
    · intro hheld hreleased later hlater
      have hdelayed := h.delayed later hlater
      rwa [releasedAt, if_pos ⟨hreleased, by simpa using hheld⟩] at hdelayed
    · have hseparated := h.separated
      rwa [Press.step_ne_released] at hseparated
  delayed := by
    intro report hreport
    obtain rfl | hreport := List.mem_cons.mp hreport
    · exact hguard
    · have hreleased : latest ≤ releasedAt latest press sample := by
        unfold releasedAt
        split
        · exact hlatest
        · exact Nat.le_refl latest
      have hdelayed := h.delayed report hreport
      omega

theorem follows_of_pairwise {latest : Nat} {press : Press} {sample : Sample}
    {samples : List Sample} (hmonotone : (sample :: samples).Pairwise (·.time ≤ ·.time))
    (hfollows : ∀ other ∈ sample :: samples, Follows latest press other) :
    ∀ other ∈ samples, Follows (releasedAt latest press sample)
      (Press.step events 3000 sample press).1 other := by
  intro other hother
  have hle := (List.pairwise_cons.mp hmonotone).1 other hother
  obtain ⟨hlatest, hsince, hnoWrap⟩ := hfollows other (List.mem_cons_of_mem sample hother)
  refine ⟨?_, ?_, hnoWrap⟩
  · unfold releasedAt
    split
    · exact hle
    · exact hlatest
  · intro since isLong hheld
    obtain ⟨-, ⟨-, rfl⟩ | ⟨wasLong, hwas⟩⟩ := Press.step_eq_held hheld
    · exact hle
    · exact hsince since wasLong hwas

theorem taken_reports {latest : Nat} {press : Press} {statics : Statics} {samples : List Sample}
    (hrelated : Related latest press statics)
    (hmonotone : samples.Pairwise (·.time ≤ ·.time))
    (hfollows : ∀ sample ∈ samples, Follows latest press sample) :
    Taken latest press (taken (reporter.reports statics samples)) := by
  induction samples generalizing latest press statics with
  | nil => exact ⟨rfl, trivial, by simp [Reporter.reports, taken]⟩
  | cons sample samples ih =>
    have hfirst := hfollows sample List.mem_cons_self
    cases hskipped : statics.isSkipped (millis sample.time) with
    | true =>
      have hsame : taken (reporter.reports statics (sample :: samples)) =
          taken (reporter.reports statics samples) := by
        simp [Reporter.reports, reporter, getButtonState, taken, hskipped]
      rw [hsame]
      exact ih hrelated (List.pairwise_cons.mp hmonotone).2 fun other hother =>
        hfollows other (List.mem_cons_of_mem sample hother)
    | false =>
      obtain ⟨hrelated', hanswer⟩ := step_related hrelated hfirst hskipped
      have hrest := ih hrelated' (List.pairwise_cons.mp hmonotone).2
        (follows_of_pairwise hmonotone hfollows)
      have hfirstTaken : taken (reporter.reports statics (sample :: samples)) =
          (sample, (Press.step events 3000 sample press).2) ::
            taken (reporter.reports
              (statics.getButtonState sample.isPressed (millis sample.time)).1 samples) := by
        simp [Reporter.reports, reporter, taken, hskipped, hanswer]
      rw [hfirstTaken]
      have hguard := hskipped
      rw [isSkipped_eq hrelated hfirst, decide_eq_false_iff_not] at hguard
      exact hrest.cons hfirst.latest (Nat.not_lt.mp hguard)

/-- Half a second passes between a release and the first sample of any later hold. -/
def KeepsApart (reports : List (Sample × ButtonState)) : Prop :=
  ∀ before hold after, reports = before ++ hold ++ after → IsHold before hold after →
    ∀ earlier previous release between, before = earlier ++ previous :: release :: between →
      previous.1.isPressed = true → release.1.isPressed = false →
      ∀ first ∈ hold.head?, release.1.time + 500 ≤ first.1.time

theorem keepsApart_of_separated {isHeld : Bool} {reports : List (Sample × ButtonState)}
    (h : Separated isHeld reports) : KeepsApart reports := by
  intro before hold after hreports _ earlier previous release between hbefore hpressed hreleased
    first hfirst
  rw [hreports, hbefore, List.append_assoc, List.append_assoc, List.cons_append,
    List.cons_append] at h
  apply h.of_split hpressed hreleased
  rw [List.mem_append, List.mem_append]
  exact .inr (.inl (List.mem_of_mem_head? hfirst))

/-- The time of the last release among the samples, or `latest` without any. -/
def lastRelease (isHeld : Bool) (latest : Nat) : List (Sample × ButtonState) → Nat
  | [] => latest
  | (sample, _) :: reports =>
    lastRelease sample.isPressed (if isHeld && !sample.isPressed then sample.time else latest) reports

/-- The guard skips what comes less than half a second behind the last release
that it has let through, or behind the boot. -/
def SkipsBehindRelease (isHeld : Bool) (latest : Nat) (reports : List (Sample × Answer)) : Prop :=
  ∀ before report after, reports = before ++ report :: after →
    (report.2.isSkipped = true ↔
      report.1.time < lastRelease isHeld latest (taken before) + 500)

theorem skipsBehindRelease_reports {latest : Nat} {press : Press} {statics : Statics}
    {samples : List Sample} (hrelated : Related latest press statics)
    (hmonotone : samples.Pairwise (·.time ≤ ·.time))
    (hfollows : ∀ sample ∈ samples, Follows latest press sample) :
    SkipsBehindRelease (press != .released) latest (reporter.reports statics samples) := by
  induction samples generalizing latest press statics with
  | nil =>
    intro before report after hreports
    exact absurd hreports.symm (by simp [Reporter.reports])
  | cons sample samples ih =>
    have hfirst := hfollows sample List.mem_cons_self
    have hguard := isSkipped_eq hrelated hfirst
    intro before report after hreports
    cases before with
    | nil =>
      obtain ⟨rfl, -⟩ := List.cons.inj hreports
      change statics.isSkipped (millis sample.time) = true ↔ _
      rw [hguard, decide_eq_true_iff]
      rfl
    | cons first before =>
      obtain ⟨rfl, hrest⟩ := List.cons.inj hreports
      cases hskipped : statics.isSkipped (millis sample.time) with
      | true =>
        have hsame : (reporter.step sample statics).1 = statics := by
          simp [reporter, getButtonState, hskipped]
        have htaken : taken ((sample, (reporter.step sample statics).2) :: before) = taken before := by
          simp [taken, reporter, hskipped]
        rw [hsame] at hrest
        rw [htaken]
        exact ih hrelated (List.pairwise_cons.mp hmonotone).2 (fun other hother =>
          hfollows other (List.mem_cons_of_mem sample hother)) before report after hrest
      | false =>
        obtain ⟨hrelated', -⟩ := step_related hrelated hfirst hskipped
        have hskips := ih hrelated' (List.pairwise_cons.mp hmonotone).2
          (follows_of_pairwise hmonotone hfollows) before report after hrest
        have htaken : taken ((sample, (reporter.step sample statics).2) :: before) =
            (sample, (reporter.step sample statics).2.state) :: taken before := by
          simp [taken, reporter, hskipped]
        have hreleased : releasedAt latest press sample =
            if press != .released && !sample.isPressed then sample.time else latest := by
          cases hpressed : sample.isPressed <;> simp [releasedAt, hpressed, bne_iff_ne]
        rw [htaken, lastRelease, ← hreleased]
        rwa [Press.step_ne_released] at hskips

/-- A skipped sample is answered with nothing, and the guard skips those that come
shortly behind a release. The others are told apart into holds, each of which
makes one event, and which the guard keeps apart. -/
theorem getButtonState_reports_each_hold_once (samples : List Sample)
    (hmonotone : samples.Pairwise (·.time ≤ ·.time))
    (hnoWrap : ∀ sample ∈ samples, sample.time < 2 ^ 32) :
    (∀ report ∈ reporter.reports {} samples, report.2.isSkipped = true →
      report.2.state = .nothing) ∧
    SkipsBehindRelease false 0 (reporter.reports {} samples) ∧
    ReportsHolds events 3000 (taken (reporter.reports {} samples)) ∧
    KeepsApart (taken (reporter.reports {} samples)) := by
  have hrelated : Related 0 .released {} := ⟨rfl, rfl, rfl, rfl⟩
  have hfollows : ∀ sample ∈ samples, Follows 0 .released sample := fun sample hsample =>
    ⟨Nat.zero_le _, fun since isLong h => (by cases h), hnoWrap sample hsample⟩
  have htaken := taken_reports hrelated hmonotone hfollows
  refine ⟨skipped_answers_nothing {} samples,
    skipsBehindRelease_reports hrelated hmonotone hfollows, ?_,
    keepsApart_of_separated htaken.separated⟩
  rw [htaken.reported]
  exact Press.reportsHolds_reports _

theorem getButtonState_reports_two_holds :
    let reports := reporter.reports {} [⟨true, 600⟩, ⟨true, 3601⟩, ⟨false, 3700⟩, ⟨true, 4000⟩,
      ⟨true, 4200⟩, ⟨false, 4300⟩]
    (∀ report ∈ reports, report.2.isSkipped = true → report.2.state = .nothing) ∧
    SkipsBehindRelease false 0 reports ∧ ReportsHolds events 3000 (taken reports) ∧
    KeepsApart (taken reports) :=
  getButtonState_reports_each_hold_once _ (by decide) (by decide)

end Statics
end VacuumCleaner.PowerController
