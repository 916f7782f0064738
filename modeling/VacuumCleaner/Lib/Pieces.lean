import Mathlib.Tactic.Common

/-! Texts joined with a separator, and the pieces that stand between separators. -/
namespace VacuumCleaner.Lib.Pieces

universe u

variable {α : Type u} [DecidableEq α]

/-- The longest runs without the separator. -/
def pieces (separator : α) (text : List α) : List (List α) :=
  (text.splitOn separator).filter (· ≠ [])

theorem ne_nil_of_mem_pieces {separator : α} {text piece : List α}
    (h : piece ∈ pieces separator text) : piece ≠ [] := by
  simpa using (List.mem_filter.mp h).2

theorem not_mem_of_mem_splitOn {separator : α} {text piece : List α}
    (h : piece ∈ text.splitOn separator) : separator ∉ piece := by
  induction text generalizing piece with
  | nil =>
    rw [List.splitOn_nil, List.mem_singleton] at h
    rw [h]
    exact List.not_mem_nil
  | cons a text ih =>
    rw [List.splitOn_cons_eq_if_modifyHead] at h
    split at h
    · rcases List.mem_cons.mp h with rfl | hrest
      · exact List.not_mem_nil
      · exact ih hrest
    · rename_i hne
      obtain ⟨first, rest, hsplit⟩ := List.exists_cons_of_ne_nil (List.splitOn_ne_nil separator text)
      rw [hsplit, List.modifyHead_cons] at h
      rw [hsplit] at ih
      rcases List.mem_cons.mp h with rfl | hrest
      · intro hmem
        rcases List.mem_cons.mp hmem with rfl | hfirst
        · exact hne (by simp)
        · exact ih (.head _) hfirst
      · exact ih (.tail _ hrest)

theorem pieces_intercalate_iff (separator : α) {items : List (List α)} (hne : items ≠ []) :
    pieces separator ([separator].intercalate items) = items ↔
      ∀ item ∈ items, item ≠ [] ∧ separator ∉ item := by
  constructor
  · intro heq item hitem
    rw [← heq] at hitem
    exact ⟨ne_nil_of_mem_pieces hitem, not_mem_of_mem_splitOn (List.mem_filter.mp hitem).1⟩
  · intro hitems
    rw [pieces, List.splitOn_intercalate separator (fun item hitem => (hitems item hitem).2) hne]
    apply List.filter_eq_self.mpr
    intro item hitem
    simpa using (hitems item hitem).1

end VacuumCleaner.Lib.Pieces
