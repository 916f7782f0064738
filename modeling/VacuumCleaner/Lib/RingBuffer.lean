import Mathlib.Data.List.Rotate

/-! Ring buffers of a fixed size, which hold the last values that were written. -/
namespace VacuumCleaner.Lib

universe u

/-- The slots, and the one that is written next. -/
structure RingBuffer (Value : Type u) where
  slots : List Value
  index : Nat
  deriving DecidableEq, Repr

namespace RingBuffer

variable {Value : Type u}

def write (value : Value) (buffer : RingBuffer Value) : RingBuffer Value where
  slots := buffer.slots.set buffer.index value
  index := if buffer.index + 1 < buffer.slots.length then buffer.index + 1 else 0

/-- The last values of a history that starts behind `padding`. -/
def window (padding history : List Value) : List Value :=
  (padding ++ history).drop history.length

/-- Read from the slot that is written next, the slots are the last values of the history. -/
structure Holds (padding history : List Value) (buffer : RingBuffer Value) : Prop where
  length : buffer.slots.length = padding.length
  index_lt : buffer.index < buffer.slots.length
  rotated : buffer.slots.rotate buffer.index = window padding history

theorem window_concat {padding : List Value} (hpadding : padding ≠ []) (history : List Value)
    (value : Value) :
    window padding (history ++ [value]) = (window padding history).drop 1 ++ [value] := by
  have hlength := List.length_pos_iff.mpr hpadding
  rw [window, window, List.drop_drop, ← List.append_assoc, List.length_append,
    List.length_singleton, List.drop_append_of_le_length (by simp; omega)]

theorem rotate_write {buffer : RingBuffer Value} (hindex : buffer.index < buffer.slots.length)
    (value : Value) : (buffer.write value).slots.rotate (buffer.write value).index =
      (buffer.slots.rotate buffer.index).drop 1 ++ [value] := by
  have hnext : (buffer.write value).slots.rotate (buffer.write value).index =
      (buffer.slots.set buffer.index value).rotate (buffer.index + 1) := by
    unfold write
    dsimp only
    split
    · rfl
    · have hlast : buffer.index + 1 = (buffer.slots.set buffer.index value).length := by
        rw [List.length_set]
        omega
      rw [hlast, List.rotate_length, List.rotate_zero]
  have hdrop : (buffer.slots.set buffer.index value).drop (buffer.index + 1) =
      buffer.slots.drop (buffer.index + 1) := List.drop_set_of_lt (by omega)
  have htake : (buffer.slots.set buffer.index value).take (buffer.index + 1) =
      buffer.slots.take buffer.index ++ [value] := by
    have hset : buffer.index < (buffer.slots.set buffer.index value).length := by
      rwa [List.length_set]
    rw [← List.take_append_getElem hset, List.getElem_set_self, List.take_set_of_le (Nat.le_refl _)]
  rw [hnext, List.rotate_eq_drop_append_take (by rw [List.length_set]; omega), hdrop, htake,
    List.rotate_eq_drop_append_take (Nat.le_of_lt hindex),
    List.drop_append_of_le_length (by rw [List.length_drop]; omega), List.drop_drop,
    List.append_assoc]

theorem Holds.write {padding history : List Value} {buffer : RingBuffer Value}
    (h : buffer.Holds padding history) (value : Value) :
    (buffer.write value).Holds padding (history ++ [value]) where
  length := by
    rw [RingBuffer.write, List.length_set, h.length]
  index_lt := by
    have := h.index_lt
    unfold RingBuffer.write
    dsimp only
    rw [List.length_set]
    split <;> omega
  rotated := by
    have hpadding : padding ≠ [] := by
      have := h.index_lt
      rw [h.length] at this
      exact List.length_pos_iff.mp (by omega)
    rw [rotate_write h.index_lt, h.rotated, window_concat hpadding]

theorem holds_start {padding : List Value} (h : padding ≠ []) :
    (⟨padding, 0⟩ : RingBuffer Value).Holds padding [] where
  length := rfl
  index_lt := List.length_pos_iff.mpr h
  rotated := by simp [window]

theorem Holds.perm {padding history : List Value} {buffer : RingBuffer Value}
    (h : buffer.Holds padding history) : buffer.slots.Perm (window padding history) := by
  rw [← h.rotated]
  exact (List.rotate_perm _ _).symm

end RingBuffer
end VacuumCleaner.Lib
