import VacuumCleaner.Lib.Reporter
import Mathlib.Data.List.Induction

/-! The presses of a button: what a long and a short hold report, said of any
list of reports, and the machine that tells the two apart. -/
namespace VacuumCleaner.Lib

universe u

/-- The level of a pin when it is read, and the milliseconds that have passed. -/
structure Sample where
  isPressed : Bool
  time : Nat
  deriving DecidableEq, Repr

/-- What a source calls no event, that of a short hold and that of a long one. -/
structure PressEvents (Event : Type u) where
  nothing : Event
  short : Event
  long : Event

section holds

variable {Event : Type u}

/-- A maximal run of pressed samples among the reports. -/
structure IsHold (before hold after : List (Sample × Event)) : Prop where
  nonempty : hold ≠ []
  pressed : ∀ report ∈ hold, report.1.isPressed = true
  begins : ∀ report ∈ before.getLast?, report.1.isPressed = false
  ends : ∀ report ∈ after.head?, report.1.isPressed = false

/-- The sample comes more than `limit` milliseconds behind the first of its hold. -/
def isBeyond (limit : Nat) (hold : List (Sample × Event)) (sample : Sample) : Prop :=
  ∀ first ∈ hold.head?, first.1.time + limit < sample.time

theorem isBeyond_cons {limit : Nat} {first : Sample × Event} {hold : List (Sample × Event)}
    {sample : Sample} : isBeyond limit (first :: hold) sample ↔
      first.1.time + limit < sample.time := by
  simp [isBeyond]

/-- Each hold reports one event: a long one at its first sample beyond the
limit, any other where it is released. Nothing else reports any. -/
structure ReportsHolds (events : PressEvents Event) (limit : Nat)
    (reports : List (Sample × Event)) : Prop where
  ofLong : ∀ before hold after, reports = before ++ hold ++ after → IsHold before hold after →
    (∃ report ∈ hold, isBeyond limit hold report.1) →
    ∃ early report late, hold = early ++ report :: late ∧ report.2 = events.long ∧
      isBeyond limit hold report.1 ∧
      (∀ other ∈ early, other.2 = events.nothing ∧ ¬ isBeyond limit hold other.1) ∧
      (∀ other ∈ late, other.2 = events.nothing) ∧
      ∀ release ∈ after.head?, release.2 = events.nothing
  ofShort : ∀ before hold after, reports = before ++ hold ++ after → IsHold before hold after →
    (∀ report ∈ hold, ¬ isBeyond limit hold report.1) →
    (∀ report ∈ hold, report.2 = events.nothing) ∧
      ∀ release ∈ after.head?, release.2 = events.short
  elsewhere : ∀ before report after, reports = before ++ report :: after →
    report.1.isPressed = false → (∀ previous ∈ before.getLast?, previous.1.isPressed = false) →
    report.2 = events.nothing

end holds

/-- What is known of a button: whether it is held, since when, and whether the
hold has been reported as a long one. -/
inductive Press
  | released
  | held (since : Nat) (isLong : Bool)
  deriving DecidableEq, Repr

namespace Press

variable {Event : Type u} (events : PressEvents Event) (limit : Nat)

def step (sample : Sample) : Press → Press × Event
  | .released =>
    (if sample.isPressed then .held sample.time false else .released, events.nothing)
  | .held since isLong =>
    if sample.isPressed then
      if isLong = false ∧ since + limit < sample.time then (.held since true, events.long)
      else (.held since isLong, events.nothing)
    else (.released, if isLong then events.nothing else events.short)

def reporter : Reporter Press Sample Event := ⟨step events limit⟩

variable {events} {limit}

theorem step_of_not_pressed {sample : Sample} (h : sample.isPressed = false) (press : Press) :
    (step events limit sample press).1 = .released := by
  cases press with
  | released => simp [step, h]
  | held since isLong => simp [step, h]

theorem step_ne_released (sample : Sample) (press : Press) :
    ((step events limit sample press).1 != .released) = sample.isPressed := by
  cases hpressed : sample.isPressed with
  | false =>
    rw [step_of_not_pressed hpressed]
    rfl
  | true =>
    cases press with
    | released => simp [step, hpressed]
    | held since isLong =>
      simp only [step, hpressed, if_true]
      split <;> rfl

theorem after_of_not_pressed {samples : List Sample}
    (h : ∀ last ∈ samples.getLast?, last.isPressed = false) :
    (reporter events limit).after .released samples = .released := by
  obtain rfl | ⟨samples, last, rfl⟩ := samples.eq_nil_or_concat
  · rfl
  · rw [List.concat_eq_append] at h ⊢
    rw [Reporter.after_append]
    exact step_of_not_pressed (h last (by simp)) _

theorem step_eq_held {sample : Sample} {press : Press} {since : Nat} {isLong : Bool}
    (h : (step events limit sample press).1 = .held since isLong) :
    sample.isPressed = true ∧
      (press = .released ∧ sample.time = since ∨ ∃ wasLong, press = .held since wasLong) := by
  cases hpressed : sample.isPressed with
  | false =>
    rw [step_of_not_pressed hpressed] at h
    cases h
  | true =>
    refine ⟨rfl, ?_⟩
    cases press with
    | released =>
      simp only [step, hpressed, if_true, held.injEq] at h
      exact .inl ⟨rfl, h.1⟩
    | held earlier wasLong =>
      simp only [step, hpressed, if_true] at h
      have hsince : earlier = since := by
        split at h <;> exact (held.inj h).1
      exact .inr ⟨wasLong, by rw [hsince]⟩

theorem exists_hold_of_held {samples : List Sample} {since : Nat} {isLong : Bool}
    (h : (reporter events limit).after .released samples = .held since isLong) :
    ∃ before first hold, samples = before ++ first :: hold ∧ first.time = since ∧
      ∀ sample ∈ first :: hold, sample.isPressed = true := by
  induction samples using List.reverseRecOn generalizing since isLong with
  | nil => cases h
  | append_singleton samples last ih =>
    rw [Reporter.after_append] at h
    obtain ⟨hlast, ⟨hreleased, htime⟩ | ⟨wasLong, hheld⟩⟩ := step_eq_held h
    · exact ⟨samples, last, [], rfl, htime, by simpa using hlast⟩
    · obtain ⟨before, first, hold, rfl, hfirst, hpressed⟩ := ih hheld
      refine ⟨before, first, hold ++ [last], by simp, hfirst, fun sample hsample => ?_⟩
      rw [← List.cons_append, List.mem_append, List.mem_singleton] at hsample
      obtain hsample | rfl := hsample
      · exact hpressed sample hsample
      · exact hlast

variable (events limit) in
theorem reports_within {since : Nat} {samples : List Sample}
    (hpressed : ∀ sample ∈ samples, sample.isPressed = true)
    (hwithin : ∀ sample ∈ samples, ¬ since + limit < sample.time) :
    (reporter events limit).reports (.held since false) samples =
        samples.map (·, events.nothing) ∧
      (reporter events limit).after (.held since false) samples = .held since false := by
  apply Reporter.reports_of_fixed
  intro sample hsample
  simp [reporter, step, hpressed sample hsample, hwithin sample hsample]

variable (events limit) in
theorem reports_long {since : Nat} {samples : List Sample}
    (hpressed : ∀ sample ∈ samples, sample.isPressed = true) :
    (reporter events limit).reports (.held since true) samples =
        samples.map (·, events.nothing) ∧
      (reporter events limit).after (.held since true) samples = .held since true := by
  apply Reporter.reports_of_fixed
  intro sample hsample
  simp [reporter, step, hpressed sample hsample]

variable (events limit) in
theorem reports_beyond {since : Nat} {early late : List Sample} {sample : Sample}
    (hpressed : ∀ other ∈ early ++ sample :: late, other.isPressed = true)
    (hearly : ∀ other ∈ early, ¬ since + limit < other.time)
    (hsample : since + limit < sample.time) :
    (reporter events limit).reports (.held since false) (early ++ sample :: late) =
        early.map (·, events.nothing) ++ (sample, events.long) :: late.map (·, events.nothing) ∧
      (reporter events limit).after (.held since false) (early ++ sample :: late) =
        .held since true := by
  obtain ⟨hreports, hafter⟩ := reports_within events limit
    (fun other hother => hpressed other (List.mem_append_left _ hother)) hearly
  obtain ⟨hreports', hafter'⟩ := reports_long events limit
    fun other hother => hpressed other
      (List.mem_append_right early (List.mem_cons_of_mem sample hother))
  have hstep : (reporter events limit).step sample (.held since false) =
      (.held since true, events.long) := by
    simp [reporter, step, hpressed sample (by simp), hsample]
  constructor
  · rw [Reporter.reports_append, hreports, hafter, Reporter.reports, hstep, hreports']
  · rw [Reporter.after_append, hafter, Reporter.after, hstep, hafter']

theorem reports_hold {first : Sample} {hold after : List Sample}
    (hpressed : ∀ sample ∈ first :: hold, sample.isPressed = true) :
    (reporter events limit).reports .released (first :: hold ++ after) =
      (first, events.nothing) ::
        ((reporter events limit).reports (.held first.time false) hold ++
          (reporter events limit).reports
            ((reporter events limit).after (.held first.time false) hold) after) := by
  have hfirst : step events limit first .released = (.held first.time false, events.nothing) := by
    simp [step, hpressed first List.mem_cons_self]
  rw [List.cons_append, Reporter.reports, show (reporter events limit).step = step events limit
    from rfl, hfirst, Reporter.reports_append]

theorem reports_release {press : Press} {samples : List Sample}
    (h : ∀ release ∈ samples.head?, release.isPressed = false) :
    ∀ release ∈ ((reporter events limit).reports press samples).head?,
      release.2 = (step events limit ⟨false, 0⟩ press).2 := by
  intro release hrelease
  cases samples with
  | nil => simp [Reporter.reports] at hrelease
  | cons sample samples =>
    have hsample := h sample rfl
    simp only [Reporter.reports, List.head?_cons, Option.mem_def, Option.some.injEq] at hrelease
    subst hrelease
    cases press <;> simp [reporter, step, hsample]

theorem after_of_map_fst {reports : List (Sample × Event)}
    (h : ∀ report ∈ reports.getLast?, report.1.isPressed = false) :
    (reporter events limit).after .released (reports.map Prod.fst) = .released := by
  apply after_of_not_pressed
  rw [List.getLast?_map]
  intro last hlast
  obtain ⟨report, hreport, rfl⟩ := Option.map_eq_some_iff.mp hlast
  exact h report hreport

theorem exists_of_isHold {samples : List Sample} {before hold after : List (Sample × Event)}
    (hreports : (reporter events limit).reports .released samples = before ++ hold ++ after)
    (h : IsHold before hold after) :
    ∃ first rest late, hold = (first, events.nothing) ::
        (reporter events limit).reports (.held first.time false) rest ∧
      after = (reporter events limit).reports
        ((reporter events limit).after (.held first.time false) rest) late ∧
      (∀ sample ∈ first :: rest, sample.isPressed = true) ∧
      ∀ release ∈ late.head?, release.isPressed = false := by
  rw [List.append_assoc] at hreports
  obtain ⟨-, hbehind⟩ := Reporter.reports_eq_append hreports
  rw [after_of_map_fst h.begins] at hbehind
  cases hold with
  | nil => exact absurd rfl h.nonempty
  | cons report hold =>
    have hpressed : ∀ sample ∈ report.1 :: hold.map Prod.fst, sample.isPressed = true := by
      intro sample hsample
      change sample ∈ (report :: hold).map Prod.fst at hsample
      obtain ⟨other, hother, rfl⟩ := List.mem_map.mp hsample
      exact h.pressed other hother
    rw [List.map_append, List.map_cons, reports_hold hpressed, List.cons_append,
      List.cons.injEq] at hbehind
    obtain ⟨hreport, hrest⟩ := hbehind
    have hlength : hold.length = ((reporter events limit).reports (.held report.1.time false)
        (hold.map Prod.fst)).length := by
      rw [Reporter.length_reports, List.length_map]
    obtain ⟨hhold, hafter⟩ := List.append_inj hrest hlength
    refine ⟨report.1, hold.map Prod.fst, after.map Prod.fst, ?_, hafter, hpressed, ?_⟩
    · rw [← hhold, ← hreport]
    · rw [List.head?_map]
      intro release hrelease
      obtain ⟨other, hother, rfl⟩ := Option.map_eq_some_iff.mp hrelease
      exact h.ends other hother

theorem exists_first_beyond {since : Nat} {samples : List Sample}
    (h : ∃ sample ∈ samples, since + limit < sample.time) :
    ∃ early sample late, samples = early ++ sample :: late ∧ since + limit < sample.time ∧
      ∀ other ∈ early, ¬ since + limit < other.time := by
  obtain ⟨sample, hsample⟩ : ∃ sample,
      samples.find? (fun sample => decide (since + limit < sample.time)) = some sample := by
    rw [← Option.isSome_iff_exists, List.find?_isSome]
    simpa using h
  obtain ⟨hbeyond, early, late, rfl, hearly⟩ := List.find?_eq_some_iff_append.mp hsample
  exact ⟨early, sample, late, rfl, by simpa using hbeyond, by simpa using hearly⟩

theorem reportsHolds_reports (samples : List Sample) :
    ReportsHolds events limit ((reporter events limit).reports .released samples) where
  ofLong before hold after hreports hhold hlong := by
    obtain ⟨first, rest, behind, rfl, rfl, hpressed, hrelease⟩ := exists_of_isHold hreports hhold
    have hbeyond : ∃ sample ∈ rest, first.time + limit < sample.time := by
      obtain ⟨report, hreport, hreportBeyond⟩ := hlong
      rw [isBeyond_cons] at hreportBeyond
      obtain rfl | hrest := List.mem_cons.mp hreport
      · omega
      · refine ⟨report.1, ?_, hreportBeyond⟩
        have := List.mem_map_of_mem (f := Prod.fst) hrest
        rwa [Reporter.map_fst_reports] at this
    obtain ⟨early, sample, late, rfl, hsample, hearly⟩ := exists_first_beyond hbeyond
    have hpressedOf : ∀ other ∈ early ++ sample :: late, other.isPressed = true :=
      fun other hother => hpressed other (List.mem_cons_of_mem first hother)
    obtain ⟨hreports', hafter'⟩ := reports_beyond events limit
      (fun other hother => hpressed other (List.mem_cons_of_mem first hother)) hearly hsample
    rw [hreports', hafter']
    refine ⟨(first, events.nothing) :: early.map (·, events.nothing), (sample, events.long),
      late.map (·, events.nothing), rfl, rfl, isBeyond_cons.mpr hsample, ?_, ?_,
      reports_release hrelease⟩
    · intro other hother
      obtain rfl | hother := List.mem_cons.mp hother
      · exact ⟨rfl, by simp [isBeyond_cons]⟩
      · obtain ⟨within, hwithin, rfl⟩ := List.mem_map.mp hother
        exact ⟨rfl, isBeyond_cons.not.mpr (hearly within hwithin)⟩
    · intro other hother
      obtain ⟨other, -, rfl⟩ := List.mem_map.mp hother
      rfl
  ofShort before hold after hreports hhold hshort := by
    obtain ⟨first, rest, behind, rfl, rfl, hpressed, hrelease⟩ := exists_of_isHold hreports hhold
    have hwithin : ∀ sample ∈ rest, ¬ first.time + limit < sample.time := by
      intro sample hsample
      have hrest : ((reporter events limit).reports (.held first.time false) rest).map Prod.fst =
          rest := Reporter.map_fst_reports _ rest
      rw [← hrest] at hsample
      obtain ⟨report, hreport, rfl⟩ := List.mem_map.mp hsample
      exact isBeyond_cons.not.mp (hshort report (List.mem_cons_of_mem _ hreport))
    obtain ⟨hreports', hafter'⟩ := reports_within events limit
      (fun other hother => hpressed other (List.mem_cons_of_mem first hother)) hwithin
    rw [hreports', hafter']
    refine ⟨fun report hreport => ?_, reports_release hrelease⟩
    obtain rfl | hreport := List.mem_cons.mp hreport
    · rfl
    · obtain ⟨sample, -, rfl⟩ := List.mem_map.mp hreport
      rfl
  elsewhere before report after hreports hreport hbefore := by
    obtain ⟨-, hbehind⟩ := Reporter.reports_eq_append hreports
    rw [after_of_map_fst hbefore] at hbehind
    simp only [List.map_cons, Reporter.reports, List.cons.injEq] at hbehind
    rw [hbehind.1]
    rfl

end Press
end VacuumCleaner.Lib
