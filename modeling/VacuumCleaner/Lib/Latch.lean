import VacuumCleaner.Lib.Reporter

/-! A latch: it keeps the first value it is offered until that is taken. -/
namespace VacuumCleaner.Lib

universe u

inductive LatchInput (Value : Type u)
  | offer (values : List Value)
  | take
  deriving DecidableEq, Repr

namespace Latch

variable {Value : Type u}

/-- Values offered together are offered in their order. -/
def step : LatchInput Value → Option Value → Option Value × Option Value
  | .offer values, latch => (latch.or values.head?, none)
  | .take, latch => (none, latch)

def reporter : Reporter (Option Value) (LatchInput Value) (Option Value) := ⟨step⟩

/-- The values that the inputs offer, in their order. -/
def offered : List (LatchInput Value × Option Value) → List Value
  | [] => []
  | (.offer values, _) :: reports => values ++ offered reports
  | (.take, _) :: reports => offered reports

/-- Nothing is taken by any of the inputs. -/
def TakesNothing (reports : List (LatchInput Value × Option Value)) : Prop :=
  ∀ report ∈ reports, report.1 = .take → report.2 = none

/-- A take gives the first value that was offered since one was taken last. -/
def TakesFirst (reports : List (LatchInput Value × Option Value)) : Prop :=
  ∀ early since result late, reports = early ++ since ++ (.take, result) :: late →
    (∀ last ∈ early.getLast?, last.1 = .take) → TakesNothing since →
    result = (offered since).head?

theorem after_of_takesNothing {latch : Option Value} {inputs : List (LatchInput Value)}
    (h : TakesNothing (reporter.reports latch inputs)) :
    reporter.after latch inputs = latch.or (offered (reporter.reports latch inputs)).head? := by
  induction inputs generalizing latch with
  | nil => simp [Reporter.after, Reporter.reports, offered]
  | cons input inputs ih =>
    have hrest := ih (fun report hreport => h report (List.mem_cons_of_mem _ hreport))
    cases input with
    | offer values =>
      change reporter.after (latch.or values.head?) inputs = (latch.or values.head?).or _ at hrest
      change reporter.after (latch.or values.head?) inputs = latch.or (values ++ _).head?
      rw [hrest, Option.or_assoc, ← List.head?_append]
    | take =>
      have hnone : latch = none := h (.take, latch) List.mem_cons_self rfl
      rw [hnone] at hrest ⊢
      exact hrest

theorem after_of_last_take {inputs : List (LatchInput Value)}
    (h : ∀ last ∈ inputs.getLast?, last = .take) :
    (reporter : Reporter (Option Value) _ _).after none inputs = none := by
  obtain rfl | ⟨inputs, last, rfl⟩ := inputs.eq_nil_or_concat
  · rfl
  · rw [List.concat_eq_append] at h ⊢
    rw [Reporter.after_append, h last (by simp)]
    rfl

theorem takesFirst_reports (inputs : List (LatchInput Value)) :
    TakesFirst (reporter.reports none inputs) := by
  intro early since result late hreports hearly hsince
  rw [List.append_assoc] at hreports
  obtain ⟨-, hbehind⟩ := Reporter.reports_eq_append hreports
  have hempty : reporter.after none (early.map Prod.fst) = none := by
    apply after_of_last_take
    rw [List.getLast?_map]
    intro last hlast
    obtain ⟨report, hreport, rfl⟩ := Option.map_eq_some_iff.mp hlast
    exact hearly report hreport
  rw [hempty] at hbehind
  obtain ⟨hsinceReports, htake⟩ := Reporter.reports_eq_append hbehind.symm
  rw [hsinceReports] at hsince
  have hlatch := after_of_takesNothing hsince
  rw [← hsinceReports, Option.none_or] at hlatch
  rw [hlatch] at htake
  simp only [List.map_cons, Reporter.reports, List.cons.injEq, Prod.mk.injEq] at htake
  exact htake.1.2

end Latch
end VacuumCleaner.Lib
