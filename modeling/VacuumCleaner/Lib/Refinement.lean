import Mathlib.Tactic.Common

/-! Data refinement: operations over a concrete state answer as those over an
abstract one that it represents. -/
namespace VacuumCleaner.Lib.Refinement

universe u v w x

variable {Operation : Type u} {Answer : Type v} {State : Type w} {Model : Type x}

/-- The answers of a series of operations, and the state behind it. -/
def run (perform : Operation → State → Answer × State) :
    List Operation → State → List Answer × State
  | [], state => ([], state)
  | operation :: operations, state =>
    let (answer, next) := perform operation state
    let (answers, last) := run perform operations next
    (answer :: answers, last)

/-- One operation answers as its model does, and leaves what represents the
model's next state. -/
def Refines (perform : Operation → State → Answer × State)
    (model : Operation → Model → Answer × Model) (represents : State → Model → Prop) : Prop :=
  ∀ operation state abstract, represents state abstract →
    (perform operation state).1 = (model operation abstract).1 ∧
      represents (perform operation state).2 (model operation abstract).2

variable {perform : Operation → State → Answer × State}
  {model : Operation → Model → Answer × Model} {represents : State → Model → Prop}

/-- The run rule: so does every series of operations. -/
theorem Refines.run (hrefines : Refines perform model represents) (operations : List Operation)
    {state : State} {abstract : Model} (hstart : represents state abstract) :
    (Refinement.run perform operations state).1 = (Refinement.run model operations abstract).1 ∧
      represents (Refinement.run perform operations state).2
        (Refinement.run model operations abstract).2 := by
  induction operations generalizing state abstract with
  | nil => exact ⟨rfl, hstart⟩
  | cons operation operations ih =>
    obtain ⟨hanswer, hnext⟩ := hrefines operation state abstract hstart
    obtain ⟨hanswers, hlast⟩ := ih hnext
    exact ⟨congrArg₂ List.cons hanswer hanswers, hlast⟩

end VacuumCleaner.Lib.Refinement
