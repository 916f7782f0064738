import VacuumCleaner.Core.Socket

/-! `Job`: the caller's handle on one request. Jobs share the communicator's
list of unread responses and look their own up by request id. -/
namespace VacuumCleaner.Core.Jobs

open Models

/-- Responses may carry more than the code sees; `reply` forgets the rest. -/
class Reply (ρ : Type) where
  reply : ρ → Response

instance : Reply Response := ⟨id⟩

variable {ρ σ : Type} [Reply ρ] [Reply σ]

structure Job (ρ : Type) where
  request : Request
  timeout : Option Int := none
  time : Int
  response : Option ρ := none
  deriving DecidableEq, Repr

/-- What one evaluation of `Job.response` ends with. -/
inductive Polled (ρ : Type)
  | response (response : ρ)
  | instructionFailure (response : ρ)
  | instructionTimeout
  | none
  deriving DecidableEq, Repr

/-- `_timeout` counts when it is neither `None` nor 0. -/
def Job.timedOut (job : Job ρ) (now : Int) : Bool :=
  match job.timeout with
  | some timeout => timeout != 0 && decide (now - job.time ≥ timeout)
  | none => false

/-- The first unread response with the id, and the list without it. -/
def popMatching (id : Nat) : List ρ → Option (ρ × List ρ)
  | [] => none
  | resp :: responses =>
    if (Reply.reply resp).id = id then some (resp, responses)
    else (popMatching id responses).map fun (found, rest) => (found, resp :: rest)

/-- One evaluation of the property `Job.response`. -/
def Job.poll (job : Job ρ) (now : Int) (responses : List ρ) : Polled ρ × Job ρ × List ρ :=
  match job.response with
  | some response => (.response response, job, responses)
  | none =>
    if job.timedOut now then (.instructionTimeout, job, responses)
    else
      match popMatching job.request.id responses with
      | some (found, rest) =>
        (if (Reply.reply found).isSuccessful then .response found else .instructionFailure found,
          { job with response := some found }, rest)
      | none => (.none, job, responses)

theorem popMatching_spec {id : Nat} {responses rest : List ρ} {found : ρ}
    (h : popMatching id responses = some (found, rest)) :
    (Reply.reply found).id = id ∧
      ∃ before after, responses = before ++ found :: after ∧ rest = before ++ after := by
  induction responses generalizing rest with
  | nil => cases h
  | cons resp responses ih =>
    unfold popMatching at h
    split at h
    · rename_i hid
      cases h
      exact ⟨hid, [], _, rfl, rfl⟩
    · obtain ⟨⟨found', rest'⟩, hpop, heq⟩ := Option.map_eq_some_iff.mp h
      cases heq
      obtain ⟨hid, before, after, hsplit, hrest⟩ := ih hpop
      exact ⟨hid, resp :: before, after, by rw [hsplit]; rfl, by rw [hrest]; rfl⟩

theorem Job.poll_cases (job : Job ρ) (now : Int) (responses : List ρ) :
    ((job.poll now responses).2 = (job, responses)) ∨
      ∃ found before after, job.response = none ∧ (Reply.reply found).id = job.request.id ∧
        responses = before ++ found :: after ∧
        (job.poll now responses).2 = ({ job with response := some found }, before ++ after) := by
  unfold Job.poll
  cases hresponse : job.response with
  | some response => exact .inl rfl
  | none =>
    cases htimeout : job.timedOut now with
    | true => exact .inl (by simp)
    | false =>
      cases hpop : popMatching job.request.id responses with
      | none => exact .inl (by simp)
      | some popped =>
        obtain ⟨found, rest⟩ := popped
        obtain ⟨hid, before, after, hsplit, hrest⟩ := popMatching_spec hpop
        exact .inr ⟨found, before, after, rfl, hid, hsplit, by simp [hrest]⟩

section Map

variable (forget : ρ → σ) (hforget : ∀ resp, Reply.reply (forget resp) = Reply.reply resp)

def Job.map (job : Job ρ) : Job σ where
  request := job.request
  timeout := job.timeout
  time := job.time
  response := job.response.map forget

include hforget

theorem popMatching_map (id : Nat) (responses : List ρ) :
    popMatching id (responses.map forget) =
      (popMatching id responses).map fun (found, rest) => (forget found, rest.map forget) := by
  induction responses with
  | nil => rfl
  | cons resp responses ih =>
    simp only [popMatching, List.map_cons, hforget]
    split
    · rfl
    · rw [ih]
      cases popMatching id responses <;> rfl

/-- Polling sees nothing but the reply: it commutes with forgetting the rest. -/
theorem Job.poll_map (job : Job ρ) (now : Int) (responses : List ρ) :
    ((job.map forget).poll now (responses.map forget)).2 =
      ((job.poll now responses).2.1.map forget, (job.poll now responses).2.2.map forget) := by
  have htimeout : (job.map forget).timedOut now = job.timedOut now := rfl
  have hpop := popMatching_map forget hforget job.request.id responses
  unfold Job.poll
  cases hresponse : job.response with
  | some response => simp [Job.map, hresponse]
  | none =>
    simp only [htimeout]
    simp only [Job.map, hresponse, Option.map_none]
    rw [hpop]
    cases job.timedOut now with
    | true => simp [hresponse]
    | false => cases popMatching job.request.id responses <;> simp [hresponse]

end Map

end VacuumCleaner.Core.Jobs
