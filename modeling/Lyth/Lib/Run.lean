/-
  Runs of a machine given by a step function.

  A component is modelled as a state type `σ`, a type `ι` of calls and a function
  `step : σ → ι → ω × σ` that returns what one call answers and the state it leaves.  `exec` folds
  `step` over a list of calls, so a statement about `exec step s calls`, for every `calls`, is a
  statement about every run; since every prefix of a run is a run, it is also one about every state
  a run passes through.

  Two rules carry the developments that use this file:
    * `exec_inv`      an invariant kept by each step holds at the end of every run;
    * `exec_refines`  a relation to an abstract machine kept by each step, with equal answers,
                      gives equal answers over whole runs.
  Both are stated for GUARDED runs: `Guarded step ok s calls` says that each call of the run meets
  the condition `ok` in the state in which it is made.
-/
import Mathlib.Algebra.Order.Ring.Nat
import Mathlib.Data.List.Basic

namespace Lyth.Run

variable {σ τ ι ω : Type} (s : σ)

/-- Run `step` over a list of calls: the answers in order, and the final state. -/
def exec (step : σ → ι → ω × σ) : σ → List ι → List ω × σ
  | s, [] => ([], s)
  | s, i :: is => ((step s i).1 :: (exec step (step s i).2 is).1, (exec step (step s i).2 is).2)

/-- Every call of the run meets `ok` in the state in which it is made. -/
def Guarded (step : σ → ι → ω × σ) (ok : σ → ι → Prop) : σ → List ι → Prop
  | _, [] => True
  | s, i :: is => ok s i ∧ Guarded step ok (step s i).2 is

instance Guarded.decidable (step : σ → ι → ω × σ) (ok : σ → ι → Prop)
    [∀ s i, Decidable (ok s i)] : ∀ s is, Decidable (Guarded step ok s is)
  | _, [] => inferInstanceAs (Decidable True)
  | s, i :: is =>
    have := Guarded.decidable step ok (step s i).2 is
    inferInstanceAs (Decidable (ok s i ∧ Guarded step ok (step s i).2 is))

section

variable {step : σ → ι → ω × σ} {ok : σ → ι → Prop}

@[simp] theorem exec_nil : exec step s [] = ([], s) := rfl

@[simp] theorem exec_cons (i : ι) (is : List ι) : exec step s (i :: is)
      = ((step s i).1 :: (exec step (step s i).2 is).1, (exec step (step s i).2 is).2) := rfl

/-- A run of `is ++ js` is the run of `js` from where the run of `is` ends. -/
theorem exec_append (is js : List ι) : exec step s (is ++ js)
      = ((exec step s is).1 ++ (exec step (exec step s is).2 js).1,
         (exec step (exec step s is).2 js).2) := by
  induction is generalizing s with
  | nil => rfl
  | cons i is ih => simp only [List.cons_append, exec_cons, ih]

theorem Guarded_append (is js : List ι) : Guarded step ok s (is ++ js)
      ↔ Guarded step ok s is ∧ Guarded step ok (exec step s is).2 js := by
  induction is generalizing s with
  | nil => simp [Guarded]
  | cons i is ih => simp only [List.cons_append, Guarded, exec_cons, ih, and_assoc]

/-- A condition that the inputs meet in every state. -/
theorem guarded_of_forall {is : List ι} (h : ∀ i ∈ is, ∀ s, ok s i) : ∀ s, Guarded step ok s is := by
  induction is with
  | nil => exact fun _ => trivial
  | cons i is ih => exact fun s => ⟨h i (by simp) s, ih (fun j hj => h j (by simp [hj])) _⟩

/-- **The invariant rule.**  What each guarded step keeps holds after every guarded run. -/
theorem exec_inv {Inv : σ → Prop} (hstep : ∀ s i, Inv s → ok s i → Inv (step s i).2)
    (is : List ι) : ∀ s, Inv s → Guarded step ok s is → Inv (exec step s is).2 := by
  induction is with
  | nil => intro s hs _; exact hs
  | cons i is ih =>
    intro s hs hg
    exact ih _ (hstep s i hs hg.1) hg.2

/-- **The refinement rule.**  If one guarded step answers as the abstract machine does and keeps the
    relation, so does every guarded run. -/
theorem exec_refines {spec : τ → ι → ω × τ} {R : σ → τ → Prop} (hstep : ∀ s t i, R s t → ok s i →
      (step s i).1 = (spec t i).1 ∧ R (step s i).2 (spec t i).2)
    (is : List ι) : ∀ s t, R s t → Guarded step ok s is →
      (exec step s is).1 = (exec spec t is).1 ∧ R (exec step s is).2 (exec spec t is).2 := by
  induction is with
  | nil => intro s t hR _; exact ⟨rfl, hR⟩
  | cons i is ih =>
    intro s t hR hg
    obtain ⟨ho, hR'⟩ := hstep s t i hR hg.1
    obtain ⟨hos, hRs⟩ := ih _ _ hR' hg.2
    refine ⟨?_, hRs⟩
    rw [exec_cons, exec_cons, ho, hos]

end

end Lyth.Run
