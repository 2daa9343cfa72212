/-
  RULES FOR PROGRAMS OVER A STATE — triples, and two programs run side by side.

  A kernel function is a program `f : StateM σ α`: from a state it computes an answer and the next
  state.  Three judgments, each with one rule per way of composing programs, so that a proof about
  a function follows the function's own text:

  1. **`Triple P f Q`** — from a state with `P` the answer and the next state satisfy `Q`.

  2. **`Keeps I f`** — `f` leads from `I` to `I`, whatever it answers.

  3. **`Agree bad P f g Q`** — `f` and `g`, started in states related by `P`, answer the same and end
     in states related by `Q`; unless `f` has ended in a `bad` state, which it then never leaves.
     The escape is what lets a comparison of two versions of a program be conditional on something
     that happens DURING the run: the condition is `¬ bad` of the last state.
-/
import Mathlib.Algebra.Order.Ring.Nat

namespace Lyth.Hoare

variable {σ τ α β : Type} {k : α → StateM σ β} {c : Prop} {a : α}

theorem bind_run (f : StateM σ α) (k : α → StateM σ β) (s : σ) : (f >>= k) s = k (f s).1 (f s).2 := rfl

/-- A bind whose first part is known. -/
theorem bind_of {f : StateM σ α} {s s' : σ} (h : f s = (a, s')) (k : α → StateM σ β) :
    (f >>= k) s = k a s' := by rw [bind_run, h]

theorem pure_run (a : α) (s : σ) : (Pure.pure a : StateM σ α) s = (a, s) := rfl

/-! ## Triples -/

/-- From every state with `P`, the answer and the next state satisfy `Q`. -/
def Triple (P : σ → Prop) (f : StateM σ α) (Q : α → σ → Prop) : Prop :=
  ∀ s, P s → Q (f s).1 (f s).2

variable {P P' : σ → Prop} {f : StateM σ α} {Q Q' : α → σ → Prop}

theorem Triple.pure (h : ∀ s, P s → Q a s) : Triple P (Pure.pure a : StateM σ α) Q := h

theorem Triple.bind {R : β → σ → Prop} (hf : Triple P f Q)
    (hk : ∀ a, Triple (Q a) (k a) R) : Triple P (f >>= k) R :=
  fun s hs => hk _ _ (hf s hs)

theorem Triple.ite [Decidable c] {g : StateM σ α} (ht : c → Triple P f Q)
    (he : ¬ c → Triple P g Q) : Triple P (if c then f else g) Q := by
  by_cases hc : c
  · rw [if_pos hc]; exact ht hc
  · rw [if_neg hc]; exact he hc

/-- The rule of consequence. -/
theorem Triple.conseq (h : Triple P f Q) (hP : ∀ s, P' s → P s) (hQ : ∀ a s, Q a s → Q' a s) :
    Triple P' f Q' :=
  fun s hs => hQ _ _ (h s (hP s hs))

/-! ## Kept invariants -/

/-- `f` leads from `I` to `I`. -/
def Keeps (I : σ → Prop) (f : StateM σ α) : Prop := Triple I f fun _ => I

variable {I : σ → Prop}

theorem Keeps.pure (a : α) : Keeps I (Pure.pure a : StateM σ α) := fun _ h => h

theorem Keeps.bind (hf : Keeps I f) (hk : ∀ a, Keeps I (k a)) : Keeps I (f >>= k) :=
  Triple.bind hf hk

theorem Keeps.ite [Decidable c] {g : StateM σ α} (ht : Keeps I f) (he : Keeps I g) :
    Keeps I (if c then f else g) :=
  Triple.ite (fun _ => ht) fun _ => he

/-! ## Two programs side by side -/

/-- From `P`-related states `f` and `g` answer the same and end `Q`-related, unless `f` ends `bad`;
    and `f` never leaves `bad`. -/
structure Agree (bad : σ → Prop) (P : σ → τ → Prop) (f : StateM σ α) (g : StateM τ α)
    (Q : α → σ → τ → Prop) : Prop where
  stays : Keeps bad f
  run : ∀ s t, P s t → bad (f s).2 ∨ ((f s).1 = (g t).1 ∧ Q (f s).1 (f s).2 (g t).2)

section

variable {bad : σ → Prop} {P : σ → τ → Prop} {g : StateM τ α} {Q : α → σ → τ → Prop}

theorem Agree.pure (h : ∀ s t, P s t → Q a s t) : Agree bad P (Pure.pure a) (Pure.pure a) Q :=
  ⟨Keeps.pure a, fun s t hP => .inr ⟨rfl, h s t hP⟩⟩

theorem Agree.bind {l : α → StateM τ β} {R : β → σ → τ → Prop}
    (hf : Agree bad P f g Q) (hk : ∀ a, Agree bad (Q a) (k a) (l a) R) :
    Agree bad P (f >>= k) (g >>= l) R := by
  refine ⟨hf.stays.bind fun a => (hk a).stays, fun s t h => ?_⟩
  rcases hf.run s t h with hbad | ⟨hans, hrel⟩
  · exact .inl ((hk _).stays _ hbad)
  · have hbind : (g >>= l) t = l (f s).1 (g t).2 := by rw [hans]; rfl
    rw [hbind]
    exact (hk (f s).1).run _ _ hrel

theorem Agree.ite [Decidable c] {f' : StateM σ α} {g' : StateM τ α}
    (ht : Agree bad P f g Q) (he : Agree bad P f' g' Q) :
    Agree bad P (if c then f else f') (if c then g else g') Q := by
  by_cases hc : c
  · rw [if_pos hc, if_pos hc]; exact ht
  · rw [if_neg hc, if_neg hc]; exact he

end

end Lyth.Hoare
