/-
  Direct-mapped caches, and writing a list of values one after another.

    1. Writing.  `putAll f key xs` writes the values `xs` into the function `f`, the `i`-th one at `key i`.
       It is what a device does with a buffer, a sector at a time.
    2. Caches.  A cache of `n` slots keeps at the slot `slot k` one key that hashes there, with a value.
       `Agrees` says that every value kept is the CONTENTS of its key.  Keys may be different names for one
       place, so a write changes the contents of several keys at once: `AgreesOff S` is agreement except
       on a set `S` of keys, and storing the new value under a key takes it out of `S`.
-/
import Mathlib.Data.Set.Basic
import Mathlib.Data.List.Basic

namespace Lyth.Cache

open Function

/-! ## Writing a list of values -/

section

variable {α β : Type} [DecidableEq β] {key : Nat → β} (f : β → α)

/-- Write `xs` into `f`, the `i`-th value at `key i`. -/
def putAll (f : β → α) (key : Nat → β) : List α → β → α
  | [] => f
  | x :: xs => putAll (update f (key 0) x) (fun i => key (i + 1)) xs

theorem putAll_append (key : Nat → β) (xs ys : List α) :
    putAll f key (xs ++ ys) = putAll (putAll f key xs) (fun i => key (xs.length + i)) ys := by
  induction xs generalizing f key with
  | nil =>
    show putAll f key ys = putAll f (fun i => key (0 + i)) ys
    simp only [Nat.zero_add]
  | cons x xs ih =>
    show putAll _ _ (xs ++ ys) = _
    rw [ih]
    simp only [List.length_cons]
    congr 1
    funext i
    congr 1
    omega

theorem putAll_congr {key' : Nat → β} (xs : List α)
    (h : ∀ i < xs.length, key i = key' i) : putAll f key xs = putAll f key' xs := by
  induction xs generalizing f key key' with
  | nil => rfl
  | cons x xs ih =>
    show putAll (update f (key 0) x) _ xs = putAll (update f (key' 0) x) _ xs
    rw [h 0 (Nat.succ_pos _)]
    exact ih _ fun i hi => h (i + 1) (Nat.succ_lt_succ hi)

/-- What is not written stays. -/
theorem putAll_of_ne {xs : List α} {b : β}
    (h : ∀ i < xs.length, key i ≠ b) : putAll f key xs b = f b := by
  induction xs generalizing f key with
  | nil => rfl
  | cons x xs ih =>
    show putAll _ _ xs b = f b
    rw [ih _ fun i hi => h (i + 1) (Nat.succ_lt_succ hi)]
    exact update_of_ne (h 0 (Nat.succ_pos _)).symm ..

/-- What is written under different keys is there afterwards. -/
theorem putAll_of_inj {xs : List α}
    (hinj : ∀ i < xs.length, ∀ j < xs.length, key i = key j → i = j) {i : Nat} (hi : i < xs.length) :
    putAll f key xs (key i) = xs[i] := by
  induction xs generalizing f key i with
  | nil => exact absurd hi (Nat.not_lt_zero i)
  | cons x xs ih =>
    cases i with
    | zero =>
      -- no later write hits the first key
      show putAll _ _ xs (key 0) = x
      rw [putAll_of_ne _ fun j hj heq => ?_]
      · exact update_self ..
      · have := hinj (j + 1) (Nat.succ_lt_succ hj) 0 (Nat.succ_pos _) heq
        omega
    | succ i =>
      refine ih _ (fun j hj k hk heq => ?_) (Nat.lt_of_succ_lt_succ hi)
      have := hinj (j + 1) (Nat.succ_lt_succ hj) (k + 1) (Nat.succ_lt_succ hk) heq
      omega

end

/-! ## Direct-mapped caches -/

section

variable {κ α : Type} {n : Nat} {slot : κ → Fin n}

/-- At most one key, with a value, in each slot. -/
abbrev Slots (κ α : Type) (n : Nat) : Type := Fin n → Option (κ × α)

/-- The value kept for `k`, if there is one. -/
def lookup [DecidableEq κ] (slot : κ → Fin n) (c : Slots κ α n) (k : κ) : Option α :=
  match c (slot k) with
  | some (k', a) => if k' = k then some a else none
  | none => none

def store (slot : κ → Fin n) (c : Slots κ α n) (k : κ) (a : α) : Slots κ α n :=
  update c (slot k) (some (k, a))

/-- Store values one after another, the `i`-th one under `key i`. -/
def storeAll (slot : κ → Fin n) (c : Slots κ α n) (key : Nat → κ) : List α → Slots κ α n
  | [] => c
  | x :: xs => storeAll slot (store slot c (key 0) x) (fun i => key (i + 1)) xs

/-- Drop the entries whose key is in `p`. -/
def dropKeys (p : κ → Bool) (c : Slots κ α n) : Slots κ α n :=
  fun i => (c i).filter fun e => !p e.1

/-- Another value gets into the slot `i`, and the key in it stays. -/
def overwrite (c : Slots κ α n) (i : Fin n) (a : α) : Slots κ α n := update c i ((c i).map fun e => (e.1, a))

/-- Every key kept is in its slot, is one of `P`, and unless it is in `S` comes with its contents. -/
def AgreesOff (slot : κ → Fin n) (P : κ → Prop) (S : Set κ) (c : Slots κ α n) (contents : κ → α) : Prop :=
  ∀ i k a, c i = some (k, a) → i = slot k ∧ P k ∧ (k ∉ S → a = contents k)

/-- The cache is right. -/
abbrev Agrees (slot : κ → Fin n) (P : κ → Prop) (c : Slots κ α n) (contents : κ → α) : Prop :=
  AgreesOff slot P ∅ c contents

variable {P : κ → Prop} {S T : Set κ} {c : Slots κ α n} {contents : κ → α}

theorem Agrees.lookup [DecidableEq κ] (h : Agrees slot P c contents) {k : κ} {a : α} (hl : lookup slot c k = some a) :
    a = contents k := by
  unfold Cache.lookup at hl
  split at hl
  · rename_i k' a' hc
    split at hl
    · rename_i hk
      cases hl
      rw [← hk]
      exact (h _ _ _ hc).2.2 (Set.notMem_empty _)
    · cases hl
  · cases hl

section

variable (h : AgreesOff slot P S c contents)
include h

/-- Only the keys of `P` count. -/
theorem AgreesOff.mono (hS : ∀ k, P k → k ∈ S → k ∈ T) : AgreesOff slot P T c contents := by
  intro i k a hc
  obtain ⟨hslot, hP, ha⟩ := h i k a hc
  exact ⟨hslot, hP, fun hT => ha fun hk => hT (hS k hP hk)⟩

theorem AgreesOff.store {k : κ} (hk : P k) {a : α}
    (ha : a = contents k) : AgreesOff slot P (S \ {k}) (store slot c k a) contents := by
  intro i k' a' hc
  unfold Cache.store at hc
  by_cases hi : i = slot k
  · subst hi
    rw [update_self] at hc
    cases hc
    exact ⟨rfl, hk, fun _ => ha⟩
  · rw [update_of_ne hi] at hc
    obtain ⟨hslot, hP, ha'⟩ := h i k' a' hc
    refine ⟨hslot, hP, fun hnot => ha' fun hS => hnot ⟨hS, ?_⟩⟩
    rintro rfl
    exact hi hslot

theorem AgreesOff.storeAll (key : Nat → κ) {xs : List α}
    (hP : ∀ i < xs.length, P (key i)) (hx : ∀ i (hi : i < xs.length), xs[i] = contents (key i)) :
    AgreesOff slot P (S \ {k | ∃ i < xs.length, k = key i}) (storeAll slot c key xs) contents := by
  induction xs generalizing c S key with
  | nil =>
    refine h.mono fun k _ hk => ⟨hk, ?_⟩
    rintro ⟨i, hi, _⟩
    exact absurd hi (Nat.not_lt_zero i)
  | cons x xs ih =>
    have hstore := h.store (hP 0 (Nat.succ_pos _)) (hx 0 (Nat.succ_pos _))
    have hrest := ih hstore (fun i => key (i + 1))
      (fun i hi => hP (i + 1) (Nat.succ_lt_succ hi)) fun i hi => hx (i + 1) (Nat.succ_lt_succ hi)
    refine hrest.mono fun k _ hk => ⟨hk.1.1, ?_⟩
    rintro ⟨i, hi, rfl⟩
    cases i with
    | zero => exact hk.1.2 rfl
    | succ i => exact hk.2 ⟨i, Nat.lt_of_succ_lt_succ hi, rfl⟩

theorem AgreesOff.dropKeys (p : κ → Bool) :
    AgreesOff slot P (S \ {k | p k = true}) (dropKeys p c) contents := by
  intro i k a hc
  obtain ⟨hc, hp⟩ := Option.filter_eq_some_iff.mp hc
  obtain ⟨hslot, hP, ha⟩ := h i k a hc
  refine ⟨hslot, hP, fun hnot => ha fun hS => hnot ⟨hS, fun hk => ?_⟩⟩
  have hk : p k := hk
  simp [hk] at hp

end

end

end Lyth.Cache
