/-
  INTRUSIVE FIRST-IN-FIRST-OUT QUEUES.

  A queue is threaded through its nodes: `next a` is the node after `a`, and the queue itself is a
  `head` and a `tail`.  `Holds next head tail l` says that such a queue holds exactly the nodes `l`,
  in order and each once; everything an operation does is then said by the list before and after:

    * `Holds.push`   a new node goes to the end;
    * `Holds.pop`    the first node leaves;
    * `Holds.erase`  a node is unlinked from between its neighbours;
    * `Holds.congr`  links outside the queue do not matter, so that several queues may share `next`.

  The two walks along the links, `queued` (is the node there?) and `before` (the node ahead of it),
  carry fuel; with more fuel than nodes they answer for the list.
-/
import Mathlib.Data.List.Nodup

namespace Lyth.Fifo

variable {ι : Type}

/-- Following `next` from `h` passes the nodes `l` and ends. -/
def Chain (next : ι → Option ι) : Option ι → List ι → Prop
  | h, [] => h = none
  | h, a :: l => h = some a ∧ Chain next (next a) l

/-- The queue with this `head` and `tail` holds the nodes `l`. -/
structure Holds (next : ι → Option ι) (head tail : Option ι) (l : List ι) : Prop where
  chain : Chain next head l
  last : tail = l.getLast?
  nodup : l.Nodup

/-! ## Chains -/

variable {h t p : Option ι} {next next' : ι → Option ι} {l l₁ l₂ : List ι}

theorem Chain.congr (hc : Chain next h l) (heq : ∀ a ∈ l, next' a = next a) : Chain next' h l := by
  induction l generalizing h with
  | nil => exact hc
  | cons a l ih =>
    refine ⟨hc.1, ?_⟩
    rw [heq a List.mem_cons_self]
    exact ih hc.2 fun b hb => heq b (.tail _ hb)

variable {a : ι}

/-- The part of a chain after a node starts at its `next`. -/
theorem Chain.after (hc : Chain next h (l₁ ++ a :: l₂)) : Chain next (next a) l₂ := by
  induction l₁ generalizing h with
  | nil => exact hc.2
  | cons b l₁ ih => exact ih hc.2

/-- A chain whose last link is set to `e` goes on with the chain from `e`. -/
theorem Chain.relink {h e : Option ι} {x : List ι} (hc : Chain next h (l₁ ++ x)) (hl₁ : l₁ ≠ [])
    (hlast : ∀ b, l₁.getLast? = some b → next' b = e)
    (hrest : ∀ b ∈ l₁, l₁.getLast? ≠ some b → next' b = next b) (hnodup : l₁.Nodup)
    (htail : Chain next' e l₂) : Chain next' h (l₁ ++ l₂) := by
  induction l₁ generalizing h with
  | nil => exact absurd rfl hl₁
  | cons a l₁ ih =>
    refine ⟨hc.1, ?_⟩
    cases l₁ with
    | nil =>
      show Chain next' (next' a) l₂
      rwa [hlast a rfl]
    | cons b l₁ =>
      have hne : (a :: b :: l₁).getLast? ≠ some a := by
        intro heq
        have hmem : a ∈ b :: l₁ := List.mem_of_getLast? heq
        exact (List.nodup_cons.mp hnodup).1 hmem
      rw [hrest a List.mem_cons_self hne]
      apply ih hc.2 (List.cons_ne_nil _ _) _ _ (List.nodup_cons.mp hnodup).2
      · intro c hc'
        exact hlast c (by rwa [List.getLast?_cons_cons])
      · intro c hc' hne'
        exact hrest c (.tail _ hc') (by rwa [List.getLast?_cons_cons])

/-! ## The operations -/

theorem holds_nil (next : ι → Option ι) : Holds next none none [] := ⟨rfl, rfl, List.nodup_nil⟩

theorem Holds.head_eq (hq : Holds next h t l) : h = l.head? := by
  cases l with
  | nil => exact hq.chain
  | cons a l => exact hq.chain.1

/-- Links outside the queue do not matter. -/
theorem Holds.congr (hq : Holds next h t l) (heq : ∀ a ∈ l, next' a = next a) : Holds next' h t l :=
  ⟨hq.chain.congr heq, hq.last, hq.nodup⟩

/-- **A new node goes to the end.** -/
theorem Holds.push (hq : Holds next h t l) (ha : a ∉ l) (hnew : next' a = none)
    (hlast : ∀ b, t = some b → next' b = some a)
    (hrest : ∀ b, b ≠ a → t ≠ some b → next' b = next b) :
    Holds next' (if t = none then some a else h) (some a) (l ++ [a]) := by
  have hlast' : ∀ b, l.getLast? = some b → next' b = some a := by
    rwa [← hq.last]
  have hend : Chain next' (some a) [a] := ⟨rfl, hnew⟩
  refine ⟨?_, ?_, ?_⟩
  · cases l with
    | nil =>
      have ht : t = none := hq.last
      rwa [if_pos ht]
    | cons c l =>
      have ht : t ≠ none := by
        rw [hq.last, List.getLast?_cons]
        exact Option.some_ne_none _
      rw [if_neg ht]
      have hc : Chain next h ((c :: l) ++ []) := by
        rw [List.append_nil]
        exact hq.chain
      apply hc.relink (List.cons_ne_nil _ _) hlast' _ hq.nodup hend
      intro b hb hne
      have hba : b ≠ a := fun heq => ha (heq ▸ hb)
      exact hrest b hba (by rwa [hq.last])
  · rw [List.getLast?_concat]
  · exact List.nodup_append.mpr ⟨hq.nodup, List.nodup_singleton a, fun b hb c hc heq =>
      ha (by rwa [← List.mem_singleton.mp hc, ← heq])⟩

/-- **A node is unlinked.**  `p` is the node before it, if there is one. -/
theorem Holds.erase [DecidableEq ι] (hq : Holds next h t (l₁ ++ a :: l₂)) (hp : p = l₁.getLast?)
    (hprev : ∀ b, p = some b → next' b = next a)
    (hrest : ∀ b, b ≠ a → p ≠ some b → next' b = next b) :
    Holds next' (if p = none then next a else h) (if t = some a then p else t) (l₁ ++ l₂) := by
  have hnodup := List.nodup_append.mp hq.nodup
  have ha₁ : a ∉ l₁ := fun hmem => hnodup.2.2 a hmem a (.head _) rfl
  have ha₂ : a ∉ l₂ := (List.nodup_cons.mp hnodup.2.1).1
  have hafter : Chain next' (next a) l₂ := by
    refine (hq.chain.after).congr fun b hb => ?_
    have hpb : p ≠ some b := by
      rw [hp]
      intro heq
      exact hnodup.2.2 b (List.mem_of_getLast? heq) b (.tail _ hb) rfl
    exact hrest b (fun heq => ha₂ (heq ▸ hb)) hpb
  refine ⟨?_, ?_, ?_⟩
  · cases l₁ with
    | nil =>
      rwa [if_pos (show p = none from hp)]
    | cons c l₁ =>
      have hpn : p ≠ none := by
        rw [hp, List.getLast?_cons]
        exact Option.some_ne_none _
      rw [if_neg hpn]
      apply hq.chain.relink (List.cons_ne_nil _ _) _ _ hnodup.1 hafter
      · intro b hb
        exact hprev b (by rwa [hp])
      · intro b hb hne
        exact hrest b (fun heq => ha₁ (heq ▸ hb)) (by rwa [hp])
  · have hlast := hq.last
    rw [List.getLast?_append] at hlast ⊢
    cases l₂ with
    | nil =>
      rw [if_pos (show t = some a from hlast), hp]
      rfl
    | cons b l₂ =>
      have hta : t ≠ some a := by
        rw [hlast, List.getLast?_cons_cons]
        intro heq
        rw [Option.or_eq_some_iff] at heq
        rcases heq with heq | ⟨heq, -⟩
        · exact ha₂ (List.mem_of_getLast? heq)
        · cases heq
      rw [if_neg hta, hlast, List.getLast?_cons_cons]
  · refine List.nodup_append.mpr ⟨hnodup.1, (List.nodup_cons.mp hnodup.2.1).2, ?_⟩
    intro b hb c hc
    exact hnodup.2.2 b hb c (.tail _ hc)

/-- **The first node leaves.** -/
theorem Holds.pop [DecidableEq ι] (hq : Holds next h t (a :: l)) (hrest : ∀ b, b ≠ a → next' b = next b) :
    Holds next' (next a) (if next a = none then none else t) l := by
  have hq' : Holds next h t ([] ++ a :: l) := hq
  have herase : Holds next' (next a) (if t = some a then none else t) l :=
    hq'.erase rfl (fun b hb => by cases hb) fun b hb _ => hrest b hb
  refine ⟨herase.chain, ?_, herase.nodup⟩
  split
  · rename_i hnone
    cases l with
    | nil => rfl
    | cons b l => exact absurd (hnone.symm.trans hq.chain.2.1) (by simp)
  · rename_i hsome
    cases l with
    | nil => exact absurd hq.chain.2 hsome
    | cons b l => rw [hq.last, List.getLast?_cons_cons]

/-! ## Walking along the links -/

variable [DecidableEq ι]

/-- Is `a` among the nodes from `h` on? -/
def queued (next : ι → Option ι) (a : ι) : Nat → Option ι → Bool
  | 0, _ => false
  | _ + 1, none => false
  | fuel + 1, some b => if b = a then true else queued next a fuel (next b)

/-- The node before `a` among the nodes from `h` on, with `p` the one before `h`. -/
def before (next : ι → Option ι) (a : ι) : Nat → Option ι → Option ι → Option (Option ι)
  | 0, _, _ => none
  | _ + 1, _, none => none
  | fuel + 1, p, some b => if b = a then some p else before next a fuel (some b) (next b)

theorem queued_chain {fuel : Nat}
    (hc : Chain next h l) (hfuel : l.length < fuel) : queued next a fuel h = decide (a ∈ l) := by
  induction l generalizing h fuel with
  | nil =>
    have hh : h = none := hc
    subst hh
    cases fuel with
    | zero => cases hfuel
    | succ fuel => rw [queued, decide_eq_false (List.not_mem_nil)]
  | cons b l ih =>
    obtain ⟨rfl, hrest⟩ := hc
    cases fuel with
    | zero => cases hfuel
    | succ fuel =>
      rw [queued]
      by_cases hba : b = a
      · rw [if_pos hba, decide_eq_true (hba ▸ List.mem_cons_self)]
      · rw [if_neg hba, ih hrest (by rw [List.length_cons] at hfuel; omega)]
        rw [decide_eq_decide, List.mem_cons]
        exact ⟨.inr, fun h => h.resolve_left (Ne.symm hba)⟩

theorem before_chain {fuel : Nat}
    (hc : Chain next h (l₁ ++ a :: l₂)) (ha : a ∉ l₁) (hfuel : l₁.length < fuel) :
    before next a fuel p h = some (l₁.getLast?.or p) := by
  induction l₁ generalizing h p fuel with
  | nil =>
    obtain ⟨rfl, -⟩ := hc
    cases fuel with
    | zero => cases hfuel
    | succ fuel =>
      rw [before, if_pos rfl]
      rfl
  | cons b l₁ ih =>
    obtain ⟨rfl, hrest⟩ := hc
    cases fuel with
    | zero => cases hfuel
    | succ fuel =>
      rw [before, if_neg fun heq : b = a => ha (heq ▸ List.mem_cons_self)]
      rw [ih hrest (fun hmem => ha (List.mem_cons_of_mem _ hmem))
        (by rw [List.length_cons] at hfuel; omega)]
      cases l₁ with
      | nil => rfl
      | cons c l₁ =>
        rfl

theorem before_none (fuel : Nat) (hc : Chain next h l) (ha : a ∉ l) : before next a fuel p h = none := by
  induction l generalizing h p fuel with
  | nil =>
    have hh : h = none := hc
    subst hh
    cases fuel with
    | zero => rfl
    | succ fuel => rfl
  | cons b l ih =>
    obtain ⟨rfl, hrest⟩ := hc
    cases fuel with
    | zero => rfl
    | succ fuel =>
      rw [before, if_neg fun heq : b = a => ha (heq ▸ List.mem_cons_self)]
      exact ih fuel hrest fun hmem => ha (.tail _ hmem)

end Lyth.Fifo
