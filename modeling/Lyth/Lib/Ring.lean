/-
  Ring buffers: a circular window of cells read in FIFO order.

  A ring keeps its elements in `cap` cells, the oldest at index `tail`, `count` of them, the next
  free cell at `head`.  `window cells cap tail n` is the list of the `n` elements found by walking
  from `tail`, wrapping at `cap`; it does not mention `head`, whose place is fixed by the equation
  `head = (tail + count) % cap` that a client carries as its invariant.

  The lemmas say how the two loops of a ring act on the window: taking the oldest element
  (`window_succ`), taking several (`window_split`), and storing at the head (`window_push`, with the
  frame fact `window_congr`).
-/
import Mathlib.Data.Int.ModEq
import Mathlib.Data.List.Basic

namespace Lyth.Ring

open Function

variable {α : Type} {cap : Nat}

/-- The `n` elements of a ring of `cap` cells, walking from index `tail`. -/
def window (cells : Nat → α) (cap tail : Nat) : Nat → List α
  | 0 => []
  | n + 1 => cells tail :: window cells cap ((tail + 1) % cap) n

variable (cells : Nat → α)

@[simp] theorem window_zero (cap tail : Nat) : window cells cap tail 0 = [] := rfl

theorem window_succ (cap tail n : Nat) :
    window cells cap tail (n + 1) = cells tail :: window cells cap ((tail + 1) % cap) n := rfl

@[simp] theorem length_window (cap : Nat) :
    ∀ n tail, (window cells cap tail n).length = n := by
  intro n
  induction n with
  | zero => intro tail; rfl
  | succ n ih => intro tail; rw [window_succ, List.length_cons, ih]

/-- Two steps around the ring add up. -/
theorem mod_add_mod_right (cap tail k : Nat) : ((tail + 1) % cap + k) % cap = (tail + (k + 1)) % cap := by
  rw [Nat.mod_add_mod, Nat.add_assoc, Nat.add_comm 1 k]

/-- The window of `k + n` elements is the first `k`, then `n` more from where those end. -/
theorem window_split (cap n : Nat) : ∀ k tail, tail < cap →
    window cells cap tail (k + n) = window cells cap tail k ++ window cells cap ((tail + k) % cap) n := by
  intro k
  induction k with
  | zero => intro tail ht; rw [Nat.zero_add, Nat.add_zero, Nat.mod_eq_of_lt ht]; rfl
  | succ k ih =>
    intro tail ht
    have hcap : 0 < cap := Nat.lt_of_le_of_lt (Nat.zero_le _) ht
    rw [Nat.add_right_comm, window_succ, window_succ, ih _ (Nat.mod_lt _ hcap), List.cons_append,
      mod_add_mod_right]

/-- Only the cells inside the window matter. -/
theorem window_congr {cells cells' : Nat → α} : ∀ n tail, tail < cap →
    (∀ k, k < n → cells ((tail + k) % cap) = cells' ((tail + k) % cap)) →
    window cells cap tail n = window cells' cap tail n := by
  intro n
  induction n with
  | zero => intro tail _ _; rfl
  | succ n ih =>
    intro tail ht h
    have hcap : 0 < cap := Nat.lt_of_le_of_lt (Nat.zero_le _) ht
    have h0 := h 0 (Nat.succ_pos n)
    rw [Nat.add_zero, Nat.mod_eq_of_lt ht] at h0
    rw [window_succ, window_succ, h0, ih _ (Nat.mod_lt _ hcap)]
    intro k hk
    rw [mod_add_mod_right]
    exact h (k + 1) (Nat.succ_lt_succ hk)

/-- Distances below `cap` from one index reach distinct cells. -/
theorem add_mod_ne {tail j k : Nat} (hj : j < cap) (hk : k < cap) (hne : j ≠ k) :
    (tail + j) % cap ≠ (tail + k) % cap := by
  intro h
  have h' : j % cap = k % cap := Nat.ModEq.add_left_cancel' tail h
  rw [Nat.mod_eq_of_lt hj, Nat.mod_eq_of_lt hk] at h'
  exact hne h'

/-- Storing at the head of a ring that is not full appends to the window. -/
theorem window_push (cells cells' : Nat → α) (x : α) {tail n : Nat} (ht : tail < cap)
    (hn : n < cap) (hx : cells' ((tail + n) % cap) = x)
    (hframe : ∀ i, i < cap → i ≠ (tail + n) % cap → cells' i = cells i) :
    window cells' cap tail (n + 1) = window cells cap tail n ++ [x] := by
  rw [window_split cells' cap 1 n tail ht, window_succ, window_zero, hx]
  congr 1
  refine window_congr n tail ht fun k hk => hframe _ (Nat.mod_lt _ (by omega)) ?_
  exact add_mod_ne (by omega) hn (by omega)

/-- `window_push` for a plain cell update. -/
theorem window_update (x : α) {tail n : Nat} (ht : tail < cap) (hn : n < cap) :
    window (update cells ((tail + n) % cap) x) cap tail (n + 1)
      = window cells cap tail n ++ [x] :=
  window_push cells _ x ht hn (update_self ..) fun _ _ hi => update_of_ne hi x cells

end Lyth.Ring
