import Mathlib.Data.List.Forall2
import Mathlib.Tactic.Common

/-! Steps that may fail: when a sequence of them succeeds. -/
namespace VacuumCleaner.Lib

universe u

variable {ε : Type u} {α β : Type u} {first : Except ε α} {rest : α → Except ε β}

theorem exists_bind_ok_iff :
    (∃ result, (first >>= rest) = .ok result) ↔
      ∃ value, first = .ok value ∧ ∃ result, rest value = .ok result := by
  cases first with
  | error raised => simp [bind, Except.bind]
  | ok value => simp [bind, Except.bind]

theorem bind_ok {result : β} (h : (first >>= rest) = .ok result) :
    ∃ value, first = .ok value ∧ rest value = .ok result := by
  cases first with
  | error raised => cases h
  | ok value => exact ⟨value, rfl, h⟩

theorem bind_ok_iff {result : β} : (first >>= rest) = .ok result ↔
    ∃ value, first = .ok value ∧ rest value = .ok result := by
  refine ⟨bind_ok, ?_⟩
  rintro ⟨value, rfl, hrest⟩
  exact hrest

theorem mapM_ok_iff {step : α → Except ε β} {values : List α} {results : List β} :
    values.mapM step = .ok results ↔
      List.Forall₂ (fun value result => step value = .ok result) values results := by
  induction values generalizing results with
  | nil =>
    rw [List.mapM_nil, List.forall₂_nil_left_iff]
    exact ⟨fun h => (Except.ok.inj h).symm, fun h => congrArg Except.ok h.symm⟩
  | cons value values ih =>
    rw [List.mapM_cons, bind_ok_iff, List.forall₂_cons_left_iff]
    constructor
    · rintro ⟨result, hresult, hrest⟩
      obtain ⟨others, hothers, hresults⟩ := bind_ok hrest
      exact ⟨result, others, hresult, ih.mp hothers, (Except.ok.inj hresults).symm⟩
    · rintro ⟨result, others, hresult, hothers, rfl⟩
      exact ⟨result, hresult, bind_ok_iff.mpr ⟨others, ih.mpr hothers, rfl⟩⟩

section

variable {step : α → Except ε β} {values : List α} {results : List β}

theorem exists_of_mapM_ok (h : values.mapM step = .ok results) {value : α} (hmem : value ∈ values) :
    ∃ result, step value = .ok result := by
  induction mapM_ok_iff.mp h with
  | nil => cases hmem
  | cons hstep hrest ih =>
    rcases List.mem_cons.mp hmem with rfl | hmem
    · exact ⟨_, hstep⟩
    · exact ih (mapM_ok_iff.mpr hrest) hmem

theorem exists_mapM_ok (h : ∀ value ∈ values, ∃ result, step value = .ok result) :
    ∃ results, values.mapM step = .ok results := by
  induction values with
  | nil => exact ⟨[], rfl⟩
  | cons value values ih =>
    rw [List.forall_mem_cons] at h
    obtain ⟨result, hresult⟩ := h.1
    obtain ⟨results, hresults⟩ := ih h.2
    exact ⟨result :: results, mapM_ok_iff.mpr (.cons hresult (mapM_ok_iff.mp hresults))⟩

theorem map_of_mapM_ok {γ : Type*} {found : β → γ} {expected : α → γ}
    (h : values.mapM step = .ok results)
    (hstep : ∀ value ∈ values, ∀ result, step value = .ok result → found result = expected value) :
    results.map found = values.map expected := by
  induction mapM_ok_iff.mp h with
  | nil => rfl
  | cons hfirst hrest ih =>
    rw [List.forall_mem_cons] at hstep
    rw [List.map_cons, List.map_cons, hstep.1 _ hfirst, ih (mapM_ok_iff.mpr hrest) hstep.2]

end

theorem mapM_eq_none {step : α → Option β} {values : List α} {value : α} (hmem : value ∈ values)
    (hnone : step value = none) : values.mapM step = none := by
  induction values with
  | nil => cases hmem
  | cons first values ih =>
    rw [List.mapM_cons]
    rcases List.mem_cons.mp hmem with rfl | hmem
    · rw [hnone]
      rfl
    · rw [ih hmem]
      cases step first <;> rfl

theorem mapM_of_pure {m : Type u → Type*} [Monad m] [LawfulMonad m] {step : α → m β}
    {result : α → β} {values : List α} (h : ∀ value ∈ values, step value = pure (result value)) :
    values.mapM step = pure (values.map result) := by
  induction values with
  | nil => rw [List.mapM_nil, List.map_nil]
  | cons value values ih =>
    rw [List.forall_mem_cons] at h
    rw [List.mapM_cons, h.1, ih h.2, pure_bind, pure_bind, List.map_cons]

end VacuumCleaner.Lib
