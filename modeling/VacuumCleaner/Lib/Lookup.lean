import Mathlib.Data.List.Perm.Basic

/-! Parties kept in a list and addressed by their places. -/
namespace VacuumCleaner.Lib.Lookup

universe u v

variable {α : Type u} {κ : Type v} {items : List α} {place other : Nat} {item found : α}

theorem lookup_set (h : (items.set place item)[other]? = some found) :
    (other = place ∧ found = item) ∨ (other ≠ place ∧ items[other]? = some found) := by
  rw [List.getElem?_set] at h
  split at h
  · rename_i heq
    split at h
    · exact .inl ⟨heq.symm, (Option.some.inj h).symm⟩
    · cases h
  · rename_i hne
    exact .inr ⟨fun heq => hne heq.symm, h⟩

theorem lookup_concat (h : (items ++ [item])[place]? = some found) :
    items[place]? = some found ∨ (place = items.length ∧ found = item) := by
  rw [List.getElem?_append] at h
  split at h
  · exact .inl h
  · rename_i hge
    rw [List.getElem?_singleton] at h
    split at h
    · exact .inr ⟨by omega, (Option.some.inj h).symm⟩
    · cases h

theorem lookup_set_self (h : items[place]? = some found) (new : α) :
    (items.set place new)[place]? = some new :=
  List.getElem?_set_self (List.getElem?_eq_some_iff.mp h).1

theorem lookup_concat_of_some (h : items[place]? = some found) (new : α) :
    (items ++ [new])[place]? = some found := by
  rw [List.getElem?_append_left (List.getElem?_eq_some_iff.mp h).1, h]

/-- No two places hold active parties with the same key. -/
def Distinct (active : α → Prop) (key : α → κ) (items : List α) : Prop :=
  ∀ (first second : Nat) (left right : α), items[first]? = some left →
    items[second]? = some right → active left → active right → key left = key right →
      first = second

section Distinct

variable {active : α → Prop} {key : α → κ}

theorem Distinct.nil : Distinct active key ([] : List α) := by
  intro first second left right hleft
  cases hleft

theorem Distinct.set (h : Distinct active key items) (hfound : items[place]? = some found)
    (hactive : active item → active found) (hkey : key item = key found) :
    Distinct active key (items.set place item) := by
  have hback : ∀ {at' : Nat} {later : α}, (items.set place item)[at']? = some later →
      active later → ∃ earlier, items[at']? = some earlier ∧ active earlier ∧
        key earlier = key later := by
    intro at' later hlater hlive
    rcases lookup_set hlater with ⟨rfl, rfl⟩ | ⟨-, hold⟩
    · exact ⟨found, hfound, hactive hlive, hkey.symm⟩
    · exact ⟨later, hold, hlive, rfl⟩
  intro first second left right hleft hright hlive hlive' hsame
  obtain ⟨earlier, hearlier, hactive', heq⟩ := hback hleft hlive
  obtain ⟨other, hother, hactive'', heq'⟩ := hback hright hlive'
  exact h first second earlier other hearlier hother hactive' hactive'' (by rw [heq, heq', hsame])

theorem Distinct.concat (h : Distinct active key items)
    (hfresh : ∀ other ∈ items, active other → key other ≠ key item) :
    Distinct active key (items ++ [item]) := by
  intro first second left right hleft hright hlive hlive' hsame
  rcases lookup_concat hleft with hold | ⟨hplace, rfl⟩ <;>
    rcases lookup_concat hright with hold' | ⟨hplace', rfl⟩
  · exact h first second left right hold hold' hlive hlive' hsame
  · exact absurd hsame (hfresh left (List.mem_of_getElem? hold) hlive)
  · exact absurd hsame.symm (hfresh right (List.mem_of_getElem? hold') hlive')
  · rw [hplace, hplace']

end Distinct

theorem perm_concat {left right all : List α} (h : (left ++ right).Perm all) (added : List α) :
    (left ++ added ++ right).Perm (all ++ added) := by
  rw [List.append_assoc]
  refine (List.perm_append_comm.append_left left).trans ?_
  rw [← List.append_assoc]
  exact h.append_right added

end VacuumCleaner.Lib.Lookup
