/-
  ORBITS `c, next c, next (next c), …` in a finite set.

  An orbit longer than the set meets an element again (`exists_repeat`).  One that does so goes round for
  ever: what holds of its elements up to then holds of all (`forall_of_repeat`).
-/
import Mathlib.Algebra.Order.Ring.Nat
import Mathlib.Data.Finset.Card

namespace Lyth.Orbit

open Function

variable {α : Type} {next : α → α} {c : α}

/-- **More steps than elements**: two of them are at one element. -/
theorem exists_repeat {s : Finset α} {n : Nat} (hcard : s.card < n) (hmem : ∀ k < n, next^[k] c ∈ s) :
    ∃ i j, i < j ∧ j < n ∧ next^[i] c = next^[j] c := by
  have hmaps : ∀ k ∈ Finset.range n, next^[k] c ∈ s := fun k hk => hmem k (Finset.mem_range.mp hk)
  obtain ⟨i, hi, j, hj, hne, heq⟩ :=
    Finset.exists_ne_map_eq_of_card_lt_of_maps_to (by rwa [Finset.card_range]) hmaps
  rw [Finset.mem_range] at hi hj
  rcases Nat.lt_or_gt_of_ne hne with hlt | hlt
  · exact ⟨i, j, hlt, hj, heq⟩
  · exact ⟨j, i, hlt, hi, heq.symm⟩

/-- **Round and round.** -/
theorem forall_of_repeat {P : α → Prop} {i j : Nat} (hij : i < j) (heq : next^[i] c = next^[j] c)
    (h : ∀ k < j, P (next^[k] c)) (n : Nat) : P (next^[n] c) := by
  induction n using Nat.strong_induction_on with
  | _ n ih =>
    by_cases hn : n < j
    · exact h n hn
    -- the same element, one round earlier
    have hback : next^[n] c = next^[n - j + i] c := by
      rw [iterate_add_apply, heq, ← iterate_add_apply, Nat.sub_add_cancel (by omega)]
    rw [hback]
    exact ih _ (by omega)

end Lyth.Orbit
