/-
  NULL-TERMINATED LISTS THREADED THROUGH A MEMORY.

  A node is a non-zero address, `next a` is the address stored in node `a`, and 0 ends a list.
  `Linked next p l` says that the nodes met from `p` are exactly `l`, in this order.

  The rules are those of a program that keeps such lists: only the links of the nodes on the list
  count (`Linked.congr`); a node is put in front (`Linked.push`); the walk that looks for the
  predecessor of a node finds it (`Linked.pred_spec`), and the predecessor bypasses the node
  (`Linked.bypass`).
-/
import Mathlib.Data.List.Nodup

namespace Lyth.Threaded

variable {next next' : Nat → Nat} {p q : Nat} {l l' : List Nat}

/-- From `p` the links lead through the nodes `l` and then to 0. -/
def Linked (next : Nat → Nat) : Nat → List Nat → Prop
  | p, [] => p = 0
  | p, a :: l => p = a ∧ a ≠ 0 ∧ Linked next (next a) l

theorem linked_nil : Linked next p [] ↔ p = 0 := Iff.rfl

/-- Only the links of the nodes on the list count. -/
theorem Linked.congr (h : Linked next p l) (hsame : ∀ a ∈ l, next' a = next a) : Linked next' p l := by
  induction l generalizing p with
  | nil => exact h
  | cons a l ih =>
    obtain ⟨hp, hne, hrest⟩ := h
    refine ⟨hp, hne, ?_⟩
    rw [hsame a (List.mem_cons_self ..)]
    exact ih hrest fun b hb => hsame b (.tail _ hb)

/-- A node put in front: its link is set to the old head, the links of the others stay. -/
theorem Linked.push (h : Linked next p l) {a : Nat} (ha : a ≠ 0) (hlink : next' a = p)
    (hsame : ∀ b ∈ l, next' b = next b) : Linked next' a (a :: l) := by
  refine ⟨rfl, ha, ?_⟩
  rw [hlink]
  exact h.congr hsame

/-- The node before `d` on the list that starts with node `a`, looked for in `rounds` rounds. -/
def pred (next : Nat → Nat) (d : Nat) : Nat → Nat → Option Nat
  | 0, _ => none
  | rounds + 1, a =>
    if next a = 0 then none
    else if next a = d then some a
    else pred next d rounds (next a)

/-- **The walk finds the predecessor**, if it may make as many rounds as the list is long. -/
theorem Linked.pred_spec {a d rounds : Nat} (h : Linked next a (a :: l)) (hd : d ∈ l)
    (hrounds : l.length ≤ rounds) :
    ∃ pre b post, a :: l = pre ++ b :: d :: post ∧ pred next d rounds a = some b := by
  induction l generalizing a rounds with
  | nil => cases hd
  | cons c l ih =>
    obtain ⟨_, _, hnext, hc, hrest⟩ := h
    obtain ⟨rounds, rfl⟩ : ∃ k, rounds = k + 1 := ⟨rounds - 1, by rw [List.length_cons] at hrounds; omega⟩
    have hne : next a ≠ 0 := by rwa [hnext]
    rcases eq_or_ne c d with rfl | hcd
    · refine ⟨[], a, l, rfl, ?_⟩
      rw [pred, if_neg hne, if_pos hnext]
    have hd' : d ∈ l := (List.mem_cons.mp hd).resolve_left fun heq => hcd heq.symm
    have hlen : l.length ≤ rounds := by rw [List.length_cons] at hrounds; omega
    obtain ⟨pre, b, post, hlist, hpred⟩ := ih ⟨rfl, hc, hrest⟩ hd' hlen
    refine ⟨a :: pre, b, post, by rw [hlist]; rfl, ?_⟩
    rwa [pred, if_neg hne, if_neg (by rw [hnext]; exact hcd), hnext]

/-- A node behind the first one is bypassed: its predecessor takes over its link. -/
theorem Linked.bypass {pre post : List Nat} {a d : Nat} (h : Linked next p (pre ++ a :: d :: post))
    (hnodup : (pre ++ a :: d :: post).Nodup) (hlink : next' a = next d)
    (hsame : ∀ b ∈ pre ++ a :: d :: post, b ≠ a → next' b = next b) :
    Linked next' p (pre ++ a :: post) := by
  induction pre generalizing p with
  | nil =>
    obtain ⟨hp, hne, _, _, hrest⟩ := h
    refine ⟨hp, hne, ?_⟩
    rw [hlink]
    refine hrest.congr fun b hb => hsame b (.tail _ (.tail _ hb)) ?_
    rintro rfl
    exact (List.nodup_cons.mp hnodup).1 (.tail _ hb)
  | cons b pre ih =>
    obtain ⟨hp, hne, hrest⟩ := h
    obtain ⟨hnotin, htail⟩ := List.nodup_cons.mp hnodup
    have hba : b ≠ a := by
      rintro rfl
      exact hnotin (List.mem_append_right _ (.head _))
    refine ⟨hp, hne, ?_⟩
    rw [hsame b (List.mem_cons_self ..) hba]
    exact ih hrest htail fun c hc => hsame c (.tail _ hc)

end Lyth.Threaded
