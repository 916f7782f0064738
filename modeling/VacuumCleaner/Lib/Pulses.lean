import Mathlib.Tactic.Common

/-! A line of two levels that is looked at again and again, and the counting of
the looks at which a level lasts. -/
namespace VacuumCleaner.Lib.Pulses

/-- The level at each look. -/
abbrev Line := Nat → Bool

/-- The line behind some looks. -/
def behind (looks : Nat) (line : Line) : Line := fun look => line (looks + look)

/-- The looks up to the first at the other level, which is passed over; none
when the level lasts longer than for `patience` looks. -/
def countLooks (level : Bool) : (patience : Nat) → Line → Option Nat × Line
  | 0, line => (if line 0 = level then none else some 0, behind 1 line)
  | patience + 1, line =>
    if line 0 = level then
      let (count, rest) := countLooks level patience (behind 1 line)
      (count.map (· + 1), rest)
    else (some 0, behind 1 line)

/-- The level lasts for `count` looks, and not longer. -/
structure Lasts (level : Bool) (count : Nat) (line : Line) : Prop where
  during : ∀ look < count, line look = level
  after : line count ≠ level

/-- Pulses of alternating levels, none of them longer than `patience`. -/
def Shows (patience : Nat) : (level : Bool) → List Nat → Line → Prop
  | _, [], _ => True
  | level, count :: counts, line => count ≤ patience ∧ Lasts level count line ∧
      Shows patience (!level) counts (behind (count + 1) line)

theorem behind_behind (first second : Nat) (line : Line) :
    behind second (behind first line) = behind (first + second) line := by
  funext look
  exact congrArg line (Nat.add_assoc first second look).symm

theorem lasts_zero {level : Bool} {line : Line} : Lasts level 0 line ↔ line 0 ≠ level :=
  ⟨fun h => h.after, fun h => ⟨fun _ hlook => absurd hlook (Nat.not_lt_zero _), h⟩⟩

theorem lasts_succ {level : Bool} {count : Nat} {line : Line} :
    Lasts level (count + 1) line ↔ line 0 = level ∧ Lasts level count (behind 1 line) := by
  have hshift : ∀ look, behind 1 line look = line (look + 1) := fun look =>
    congrArg line (Nat.add_comm 1 look)
  constructor
  · rintro ⟨hduring, hafter⟩
    refine ⟨hduring 0 (Nat.succ_pos _), fun look hlook => ?_, ?_⟩
    · rw [hshift]
      exact hduring _ (Nat.succ_lt_succ hlook)
    · rw [hshift]
      exact hafter
  · rintro ⟨hfirst, hduring, hafter⟩
    refine ⟨fun look hlook => ?_, ?_⟩
    · cases look with
      | zero => exact hfirst
      | succ look =>
        rw [← hshift]
        exact hduring look (Nat.lt_of_succ_lt_succ hlook)
    · rw [← hshift]
      exact hafter

theorem Lasts.unique {level : Bool} {count other : Nat} {line : Line}
    (h : Lasts level count line) (hother : Lasts level other line) : count = other := by
  rcases Nat.lt_trichotomy count other with hlt | rfl | hgt
  · exact absurd (hother.during count hlt) h.after
  · rfl
  · exact absurd (h.during other hgt) hother.after

theorem countLooks_eq_some_iff {level : Bool} {patience count : Nat} {line rest : Line} :
    countLooks level patience line = (some count, rest) ↔
      count ≤ patience ∧ Lasts level count line ∧ rest = behind (count + 1) line := by
  induction patience generalizing count line with
  | zero =>
    rw [countLooks, Nat.le_zero]
    by_cases hlevel : line 0 = level
    · rw [if_pos hlevel]
      refine iff_of_false (by simp) ?_
      rintro ⟨rfl, hlasts, -⟩
      exact hlasts.after hlevel
    · rw [if_neg hlevel, Prod.mk.injEq, Option.some.injEq]
      constructor
      · rintro ⟨rfl, rfl⟩
        exact ⟨rfl, lasts_zero.mpr hlevel, rfl⟩
      · rintro ⟨rfl, -, rfl⟩
        exact ⟨rfl, rfl⟩
  | succ patience ih =>
    rw [countLooks]
    by_cases hlevel : line 0 = level
    · rw [if_pos hlevel]
      dsimp only
      cases count with
      | zero =>
        refine iff_of_false ?_ fun h => h.2.1.after hlevel
        rw [Prod.mk.injEq, Option.map_eq_some_iff]
        rintro ⟨⟨before, -, hzero⟩, -⟩
        exact Nat.succ_ne_zero before hzero
      | succ count =>
        have hrest : behind (count + 1 + 1) line = behind (count + 1) (behind 1 line) := by
          rw [behind_behind, Nat.add_comm 1]
        have hcounted : countLooks level patience (behind 1 line) = (some count, rest) ↔ _ := ih
        rw [lasts_succ, hrest, Nat.add_le_add_iff_right, and_iff_right hlevel, ← hcounted]
        generalize countLooks level patience (behind 1 line) = counted
        obtain ⟨result, next⟩ := counted
        cases result <;> simp
    · rw [if_neg hlevel, Prod.mk.injEq, Option.some.injEq]
      constructor
      · rintro ⟨rfl, rfl⟩
        exact ⟨Nat.zero_le _, lasts_zero.mpr hlevel, rfl⟩
      · rintro ⟨-, hlasts, rfl⟩
        obtain rfl := hlasts.unique (lasts_zero.mpr hlevel)
        exact ⟨rfl, rfl⟩

end VacuumCleaner.Lib.Pulses
