import Mathlib.Tactic.Common

/-! Machines that are shown one input after another and report an event at each. -/
namespace VacuumCleaner.Lib

universe u v w x y z

structure Reporter (State : Type u) (Input : Type v) (Event : Type w) where
  step : Input → State → State × Event

namespace Reporter

variable {State : Type u} {Input : Type v} {Event : Type w}

def after (reporter : Reporter State Input Event) (state : State) : List Input → State
  | [] => state
  | input :: inputs => reporter.after (reporter.step input state).1 inputs

/-- Every input with the event that is reported at it. -/
def reports (reporter : Reporter State Input Event) (state : State) :
    List Input → List (Input × Event)
  | [] => []
  | input :: inputs =>
    (input, (reporter.step input state).2) :: reporter.reports (reporter.step input state).1 inputs

variable {reporter : Reporter State Input Event}

@[simp] theorem after_append (state : State) (early late : List Input) :
    reporter.after state (early ++ late) = reporter.after (reporter.after state early) late := by
  induction early generalizing state with
  | nil => rfl
  | cons input early ih => exact ih _

@[simp] theorem reports_append (state : State) (early late : List Input) :
    reporter.reports state (early ++ late) =
      reporter.reports state early ++ reporter.reports (reporter.after state early) late := by
  induction early generalizing state with
  | nil => rfl
  | cons input early ih => exact congrArg (List.cons _) (ih _)

@[simp] theorem map_fst_reports (state : State) (inputs : List Input) :
    (reporter.reports state inputs).map Prod.fst = inputs := by
  induction inputs generalizing state with
  | nil => rfl
  | cons input inputs ih => exact congrArg (List.cons input) (ih _)

@[simp] theorem length_reports (state : State) (inputs : List Input) :
    (reporter.reports state inputs).length = inputs.length := by
  rw [← List.length_map Prod.fst, map_fst_reports]

theorem reports_eq_append {state : State} {inputs : List Input} {early late : List (Input × Event)}
    (h : reporter.reports state inputs = early ++ late) :
    early = reporter.reports state (early.map Prod.fst) ∧
      late = reporter.reports (reporter.after state (early.map Prod.fst)) (late.map Prod.fst) := by
  have hinputs : inputs = early.map Prod.fst ++ late.map Prod.fst := by
    rw [← List.map_append, ← h, map_fst_reports]
  rw [hinputs, reports_append] at h
  have hlength : (reporter.reports state (early.map Prod.fst)).length = early.length := by
    rw [length_reports, List.length_map]
  obtain ⟨hearly, hlate⟩ := List.append_inj h hlength
  exact ⟨hearly.symm, hlate.symm⟩

theorem reports_of_fixed {state : State} {event : Event} {inputs : List Input}
    (h : ∀ input ∈ inputs, reporter.step input state = (state, event)) :
    reporter.reports state inputs = inputs.map (·, event) ∧
      reporter.after state inputs = state := by
  induction inputs with
  | nil => exact ⟨rfl, rfl⟩
  | cons input inputs ih =>
    obtain ⟨hreports, hafter⟩ := ih fun other hother => h other (List.mem_cons_of_mem input hother)
    have hstep := h input List.mem_cons_self
    constructor
    · rw [reports, hstep, hreports, List.map_cons]
    · rw [after, hstep, hafter]

section simulation

variable {Abstract : Type x} {Seen : Type y} {Shown : Type z}
  {abstract : Reporter Abstract Seen Shown}

/-- A machine that shows another one its inputs and events through two views
reports through them what the other reports. -/
theorem map_reports_of_simulates (project : Input → Seen) (view : Input → Event → Shown)
    (related : State → Abstract → Prop) (allowed : Abstract → Input → Prop)
    (hstep : ∀ state image input, related state image → allowed image input →
      related (reporter.step input state).1 (abstract.step (project input) image).1 ∧
        view input (reporter.step input state).2 = (abstract.step (project input) image).2)
    {state : State} {image : Abstract} (hstart : related state image) (inputs : List Input)
    (hallowed : ∀ before input rest, inputs = before ++ input :: rest →
      allowed (abstract.after image (before.map project)) input) :
    (reporter.reports state inputs).map (fun (input, event) => (project input, view input event)) =
      abstract.reports image (inputs.map project) := by
  induction inputs generalizing state image with
  | nil => rfl
  | cons input inputs ih =>
    obtain ⟨hrelated, hevent⟩ := hstep state image input hstart (hallowed [] input inputs rfl)
    have hrest := ih hrelated fun before other rest hinputs =>
      hallowed (input :: before) other rest (by rw [hinputs, List.cons_append])
    simp only [reports, List.map_cons, hevent, hrest]

end simulation

/-- Two machines whose steps agree on what an input is allowed to be report the same. -/
theorem reports_eq_of_simulates {Abstract : Type x} {abstract : Reporter Abstract Input Event}
    (related : State → Abstract → Prop) (allowed : Abstract → Input → Prop)
    (hstep : ∀ state image input, related state image → allowed image input →
      related (reporter.step input state).1 (abstract.step input image).1 ∧
        (reporter.step input state).2 = (abstract.step input image).2)
    {state : State} {image : Abstract} (hstart : related state image) (inputs : List Input)
    (hallowed : ∀ before input rest, inputs = before ++ input :: rest →
      allowed (abstract.after image before) input) :
    reporter.reports state inputs = abstract.reports image inputs := by
  have hmap := map_reports_of_simulates id (fun _ event => event) related allowed hstep hstart
    inputs (by simpa using hallowed)
  simpa using hmap

end Reporter
end VacuumCleaner.Lib
