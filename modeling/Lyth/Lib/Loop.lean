/-
  Counting loops `for (i = lo; i < hi; i++)`.

  `forRange lo hi f s` runs the body `f i` for each index in turn; `forRange_inv` is its invariant
  rule.  `firstIn lo hi p` is the loop that stops at the first index that passes a test.
-/
import Mathlib.Algebra.Order.Ring.Nat
import Mathlib.Data.List.Basic

namespace Lyth.Loop

variable {σ : Type} {body : Nat → σ → σ} {p : Nat → Bool}

/-- `for (i = lo; i < hi; i++) body`. -/
def forRange (lo hi : Nat) (body : Nat → σ → σ) (s : σ) : σ :=
  (List.range' lo (hi - lo)).foldl (fun s i => body i s) s

/-- **The loop rule.**  `P i` holds when index `i` is about to run. -/
theorem forRange_inv {lo hi : Nat} {s : σ} {P : Nat → σ → Prop}
    (hle : lo ≤ hi) (h0 : P lo s)
    (hstep : ∀ i s, lo ≤ i → i < hi → P i s → P (i + 1) (body i s)) :
    P hi (forRange lo hi body s) := by
  unfold forRange
  obtain ⟨n, hn⟩ : ∃ n, hi - lo = n := ⟨_, rfl⟩
  rw [hn]
  -- peel the first index; the rest is the same loop from `lo + 1`
  induction n generalizing lo s with
  | zero =>
    have heq : lo = hi := by omega
    rwa [← heq]
  | succ n ih =>
    refine ih (by omega) (hstep lo s (Nat.le_refl _) (by omega) h0) ?_ (by omega)
    intro i t hi1 hi2 hP
    exact hstep i t (by omega) hi2 hP

/-- What every round keeps. -/
theorem forRange_keeps {P : σ → Prop} (hbody : ∀ i s, P s → P (body i s)) {lo hi : Nat} {s : σ}
    (h : P s) : P (forRange lo hi body s) := by
  unfold forRange
  generalize List.range' lo (hi - lo) = is
  induction is generalizing s with
  | nil => exact h
  | cons i is ih => exact ih (hbody i s h)

/-- An empty loop. -/
theorem forRange_of_le {lo hi : Nat} (h : hi ≤ lo) (body : Nat → σ → σ) (s : σ) :
    forRange lo hi body s = s := by
  rw [forRange, Nat.sub_eq_zero_of_le h]
  rfl

/-- A loop is its part before an index, the index, and its part after. -/
theorem forRange_split {lo i hi : Nat} (hlo : lo ≤ i) (hhi : i < hi) (body : Nat → σ → σ)
    (s : σ) : forRange lo hi body s = forRange (i + 1) hi body (body i (forRange lo i body s)) := by
  have hlen : hi - lo = (i - lo) + ((hi - (i + 1)) + 1) := by omega
  unfold forRange
  rw [hlen, List.range'_append_1.symm, List.foldl_append, List.range'_succ, List.foldl_cons,
    Nat.add_sub_cancel' hlo]

/-- A change that every round commutes with may be made after the loop. -/
theorem forRange_comm {g : σ → σ} (h : ∀ i s, body i (g s) = g (body i s))
    (lo hi : Nat) (s : σ) : forRange lo hi body (g s) = g (forRange lo hi body s) := by
  unfold forRange
  generalize List.range' lo (hi - lo) = is
  induction is generalizing s with
  | nil => rfl
  | cons i is ih => rw [List.foldl_cons, List.foldl_cons, h, ih]

/-- The first `i` with `lo ≤ i < hi` that passes `p`. -/
def firstIn (lo hi : Nat) (p : Nat → Bool) : Option Nat := (List.range' lo (hi - lo)).find? p

theorem firstIn_some {lo hi i : Nat} (h : firstIn lo hi p = some i) :
    lo ≤ i ∧ i < hi ∧ p i := by
  have hmem := List.mem_range'_1.mp (List.mem_of_find?_eq_some h)
  exact ⟨hmem.1, by omega, List.find?_some h⟩

theorem firstIn_none {lo hi : Nat} (h : firstIn lo hi p = none) {i : Nat}
    (hlo : lo ≤ i) (hhi : i < hi) : p i = false := by
  have hall := List.find?_eq_none.mp h i (List.mem_range'_1.mpr ⟨hlo, by omega⟩)
  simpa using hall

/-- An index that passes, with none before it that does, is the one found. -/
theorem firstIn_eq {lo hi i : Nat} (hlo : lo ≤ i) (hhi : i < hi)
    (hp : p i) (hbefore : ∀ j, lo ≤ j → j < i → p j = false) : firstIn lo hi p = some i := by
  rw [firstIn, List.find?_range'_eq_some]
  refine ⟨hp, List.mem_range'_1.mpr ⟨hlo, by omega⟩, fun j hj1 hj2 => ?_⟩
  rw [hbefore j hj1 hj2]
  rfl

end Lyth.Loop
