/-
  Fixed-size tables searched from slot 0.

  Kernel tables are arrays of `n` slots with a linear search: the first slot that satisfies a test,
  or none.  `firstIdx p` is that search over `Fin n`; `used p` counts the slots that satisfy `p`.
  A table is full exactly when the search for a free slot fails (`firstIdx_not_eq_none_iff`), and
  the count moves by one when one slot changes (`used_update_true`, `used_update_false`).
-/
import Mathlib.Algebra.Order.Ring.Nat
import Mathlib.Data.Fintype.Card

namespace Lyth.Table

open Function

/-- Tables of one, eight and sixteen slots have a slot 0. -/
instance neZero_one : NeZero 1 := ⟨Nat.one_ne_zero⟩

@[inherit_doc neZero_one]
instance neZero_eight : NeZero 8 := ⟨by decide⟩

@[inherit_doc neZero_one]
instance neZero_sixteen : NeZero 16 := ⟨by decide⟩

/-- What holds of the entry written and of all others holds of every entry. -/
theorem forall_update_some {ι β : Type*} [DecidableEq ι] {f : ι → Option β} {i : ι} {x : β}
    {P : ι → β → Prop} (hnew : P i x) (hold : ∀ j v, f j = some v → j ≠ i → P j v) :
    ∀ j v, update f i (some x) j = some v → P j v := by
  intro j v hv
  rcases eq_or_ne j i with rfl | hj
  · rw [update_self] at hv
    exact Option.some.inj hv ▸ hnew
  · rw [update_of_ne hj] at hv
    exact hold j v hv hj

variable {n : Nat} {α : Type}

/-- The first slot that satisfies `p`. -/
def firstIdx (p : Fin n → Bool) : Option (Fin n) := (List.finRange n).find? p

variable {i : Fin n} {p : Fin n → Bool}

theorem firstIdx_some (h : firstIdx p = some i) : p i := List.find?_some h

theorem firstIdx_eq_some : firstIdx p = some i ↔ p i ∧ ∀ j < i, p j = false := by
  rw [firstIdx, ← Fin.find?_eq_find?_finRange]
  exact Fin.find?_eq_some_iff

theorem firstIdx_eq_none : firstIdx p = none ↔ ∀ i, p i = false := by
  rw [firstIdx, List.find?_eq_none]
  simp

/-- A slot that satisfies `p` alone is the one found. -/
theorem firstIdx_unique (hi : p i) (huniq : ∀ j, p j → j = i) : firstIdx p = some i := by
  cases h : firstIdx p with
  | none => rw [firstIdx_eq_none.mp h i] at hi; cases hi
  | some j => rw [huniq j (firstIdx_some h)]

/-- Slot 0 is tried first. -/
theorem firstIdx_zero {p : Fin (n + 1) → Bool} (h : p 0) : firstIdx p = some 0 := by
  rw [firstIdx, List.finRange_succ, List.find?_cons_of_pos h]

section

variable {ι : Type} [Fintype ι]

/-- How many slots satisfy `p`. -/
def used (p : ι → Bool) : Nat := (Finset.univ.filter fun i => p i).card

theorem used_le (p : Fin n → Bool) : used p ≤ n := (Finset.card_le_univ _).trans (Fintype.card_fin n).le

/-- The search for a free slot fails exactly when every slot is used. -/
theorem firstIdx_not_eq_none_iff (p : Fin n → Bool) : firstIdx (fun i => !p i) = none ↔ used p = n := by
  rw [firstIdx_eq_none]
  constructor
  · intro h
    have hall : (Finset.univ.filter fun i => p i) = Finset.univ :=
      Finset.filter_true_of_mem fun i _ => by simpa using h i
    rw [used, hall, Finset.card_univ, Fintype.card_fin]
  · intro h i
    have hall : (Finset.univ.filter fun i => p i) = Finset.univ :=
      Finset.eq_univ_of_card _ (by rwa [Fintype.card_fin])
    have hi := Finset.mem_univ i
    rw [← hall, Finset.mem_filter] at hi
    simp [hi.2]

theorem used_eq_zero {p : ι → Bool} : used p = 0 ↔ ∀ i, p i = false := by
  rw [used, Finset.card_eq_zero, Finset.filter_eq_empty_iff]
  simp

variable [DecidableEq ι]

/-- Occupying a free slot. -/
theorem used_update_true {p : ι → Bool} {i : ι} (h : p i = false) :
    used (update p i true) = used p + 1 := by
  have hins : (Finset.univ.filter fun j => update p i true j)
      = insert i (Finset.univ.filter fun j => p j) := by
    ext j
    rcases eq_or_ne j i with rfl | hj
    · simp
    · simp [hj]
  rw [used, hins, Finset.card_insert_of_notMem (by simp [h])]
  rfl

/-- Releasing a used slot. -/
theorem used_update_false {p : ι → Bool} {i : ι} (h : p i) :
    used (update p i false) + 1 = used p := by
  have hback := used_update_true (p := update p i false) (i := i) (by simp)
  rw [update_idem, ← h, update_eq_self] at hback
  exact hback.symm

end

end Lyth.Table
