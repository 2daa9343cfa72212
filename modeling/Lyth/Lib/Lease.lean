/-
  Handles that refer to the slots of a lower table.

  An upper table has entries `i : ι`, a lower one has slots `k : κ`.  `ref i` is the slot that entry `i`
  refers to, `live k` says that the slot is held open, and `owner k` is the entry it was last opened for.  The
  lower layer picks any slot that is not live, and may give a slot up by itself; so the two tables agree only
  as long as `Leased` holds: a reference is to a live slot, and to one's own.
-/
import Mathlib.Logic.Function.Basic

namespace Lyth.Lease

open Function

variable {ι κ : Type} {ref : ι → Option κ} {live live' : κ → Prop} {owner : κ → Option ι} {k : κ}

/-- Every reference is to a live slot that was opened for the entry. -/
def Leased (ref : ι → Option κ) (live : κ → Prop) (owner : κ → Option ι) : Prop :=
  ∀ i k, ref i = some k → live k ∧ owner k = some i

section

variable (h : Leased ref live owner)
include h

/-- Two entries never share a slot. -/
theorem Leased.unique {i j : ι} (hi : ref i = some k) (hj : ref j = some k) : i = j := by
  have howner := (h i k hi).2
  rw [(h j k hj).2] at howner
  exact (Option.some.inj howner).symm

/-- **The frame rule.**  Slots may change as long as those that are referred to stay live. -/
theorem Leased.frame (hlive : ∀ i k, ref i = some k → live k → live' k) : Leased ref live' owner :=
  fun i k hi => ⟨hlive i k hi (h i k hi).1, (h i k hi).2⟩

variable [DecidableEq ι]

/-- An entry gives up its reference. -/
theorem Leased.drop (i : ι) : Leased (update ref i none) live owner := by
  intro j k hj
  by_cases hji : j = i
  · rw [hji, update_self] at hj
    cases hj
  · rw [update_of_ne hji] at hj
    exact h j k hj

/-- An entry that refers to a slot gives it up, and then the slot may go too. -/
theorem Leased.release {i : ι} (hi : ref i = some k)
    (hlive : ∀ k', k' ≠ k → live k' → live' k') : Leased (update ref i none) live' owner := by
  refine (h.drop i).frame fun j k' hj hk' => hlive k' ?_ hk'
  rintro rfl
  by_cases hji : j = i
  · rw [hji, update_self] at hj
    cases hj
  · rw [update_of_ne hji] at hj
    exact hji (h.unique hj hi)

/-- **Opening.**  A slot that was not live is opened for an entry. -/
theorem Leased.acquire [DecidableEq κ] (i : ι) (hfree : ¬live k) (hk : live' k)
    (hlive : ∀ k', k' ≠ k → live k' → live' k') :
    Leased (update ref i (some k)) live' (update owner k (some i)) := by
  intro j k' hj
  by_cases hji : j = i
  · rw [hji, update_self] at hj
    obtain rfl := Option.some.inj hj
    rw [hji, update_self]
    exact ⟨hk, rfl⟩
  · rw [update_of_ne hji] at hj
    have hne : k' ≠ k := by
      rintro rfl
      exact hfree (h _ _ hj).1
    rw [update_of_ne hne]
    exact ⟨hlive k' hne (h j k' hj).1, (h j k' hj).2⟩

end

end Lyth.Lease
