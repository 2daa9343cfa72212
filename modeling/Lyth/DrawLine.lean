/-
  DRAWING A LINE (`drivers/console/fbconsole.c`).

    1. The program.  `fb_draw_line` writes the first point and moves on until BOTH coordinates are those of the
       second point.  An error term decides in which of them it moves.
    2. Specification.  `Traced`: one pixel for each step along the longer side, from the first point to the second,
       each next to the one before and not farther from the end.
    3. Crux.  With `a` and `b` steps left the error is `dx - dy + a * dy - b * dx` (`Exact`).  The second test reads
       the error that the first one has CHANGED: a line with `dy < dx < 2 * dy` is never again at the error it began
       with, which is that of the end point, and does not stop.
-/
import Mathlib.Algebra.Order.Ring.Int
import Mathlib.Tactic.Ring

namespace Lyth.DrawLine

/-- What the loop does not change. -/
structure Line where
  x1 : Int
  y1 : Int
  dx : Int
  dy : Int
  stepX : Int
  stepY : Int

structure Pen where
  x0 : Int
  y0 : Int
  error : Int

/-- `if ((error * 2) > -dy)`. -/
def Line.moveX (l : Line) (p : Pen) : Pen :=
  if p.error * 2 > -l.dy then { p with error := p.error - l.dy, x0 := p.x0 + l.stepX } else p

/-- `if ((error * 2) < dx)`. -/
def Line.moveY (l : Line) (p : Pen) : Pen :=
  if p.error * 2 < l.dx then { p with error := p.error + l.dx, y0 := p.y0 + l.stepY } else p

def Line.next (l : Line) (p : Pen) : Pen := l.moveY (l.moveX p)

/-- `x0 == x1 && y0 == y1`. -/
def Line.Done (l : Line) (p : Pen) : Prop := p.x0 = l.x1 ∧ p.y0 = l.y1

def Line.longer (l : Line) : Int := max l.dx l.dy

/-- What `fb_draw_line(x0, y0, x1, y1)` computes before the loop. -/
def line (x0 y0 x1 y1 : Int) : Line where
  x1 := x1
  y1 := y1
  dx := if x0 < x1 then x1 - x0 else x0 - x1
  dy := if y0 < y1 then y1 - y0 else y0 - y1
  stepX := if x0 < x1 then 1 else -1
  stepY := if y0 < y1 then 1 else -1

/-- The pen at pixel `k` of the loop, as long as it runs. -/
def pen (x0 y0 x1 y1 : Int) : Nat → Pen
  | 0 => ⟨x0, y0, (line x0 y0 x1 y1).dx - (line x0 y0 x1 y1).dy⟩
  | k + 1 => (line x0 y0 x1 y1).next (pen x0 y0 x1 y1 k)

/-- A step of at most 1 in each coordinate, not away from the end point. -/
def Towards (l : Line) (p q : Pen) : Prop :=
  (q.x0 - p.x0).natAbs ≤ 1 ∧ (q.y0 - p.y0).natAbs ≤ 1 ∧
    (l.x1 - q.x0).natAbs ≤ (l.x1 - p.x0).natAbs ∧ (l.y1 - q.y0).natAbs ≤ (l.y1 - p.y0).natAbs

/-- The loop stops at the pixel `n`, at the end point, and not before. -/
structure Traced (l : Line) (P : Nat → Pen) (n : Nat) : Prop where
  stops : l.Done (P n)
  runs : ∀ k < n, ¬l.Done (P k)
  steps : ∀ k < n, Towards l (P k) (P (k + 1))

section

variable {l : Line} {p : Pen} {P : Nat → Pen}

/-- The steps left in x. -/
def Line.a (l : Line) (p : Pen) : Int := l.stepX * (l.x1 - p.x0)

/-- The steps left in y. -/
def Line.b (l : Line) (p : Pen) : Int := l.stepY * (l.y1 - p.y0)

/-- The sides are not negative, and the steps are of length 1. -/
structure Line.Ok (l : Line) : Prop where
  dx : 0 ≤ l.dx
  dy : 0 ≤ l.dy
  stepX : l.stepX = 1 ∨ l.stepX = -1
  stepY : l.stepY = 1 ∨ l.stepY = -1

theorem Line.Ok.done_iff (hl : l.Ok) : l.Done p ↔ l.a p = 0 ∧ l.b p = 0 := by
  unfold Line.Done Line.a Line.b
  rcases hl.stepX with hx | hx <;> rcases hl.stepY with hy | hy <;> rw [hx, hy] <;> omega

/-- One round of the loop: it moves in x or not, and then in y or not. -/
theorem Line.Ok.next_cases (hl : l.Ok) (p : Pen) :
    -l.dy < p.error * 2 ∧ l.a (l.next p) = l.a p - 1 ∧
        ((p.error - l.dy) * 2 < l.dx ∧ l.b (l.next p) = l.b p - 1 ∧ (l.next p).error = p.error - l.dy + l.dx ∨
          l.dx ≤ (p.error - l.dy) * 2 ∧ l.b (l.next p) = l.b p ∧ (l.next p).error = p.error - l.dy) ∨
      p.error * 2 ≤ -l.dy ∧ l.a (l.next p) = l.a p ∧
        (p.error * 2 < l.dx ∧ l.b (l.next p) = l.b p - 1 ∧ (l.next p).error = p.error + l.dx ∨
          l.dx ≤ p.error * 2 ∧ l.b (l.next p) = l.b p ∧ (l.next p).error = p.error) := by
  unfold Line.next Line.moveY Line.moveX Line.a Line.b
  rcases hl.stepX with hx | hx <;> rcases hl.stepY with hy | hy <;> rw [hx, hy] <;> split_ifs <;> grind

theorem Line.Ok.towards (hl : l.Ok) (ha : 0 ≤ l.a (l.next p)) (hb : 0 ≤ l.b (l.next p)) :
    Towards l p (l.next p) := by
  have hcases := hl.next_cases p
  generalize l.next p = q at *
  unfold Towards Line.a Line.b at *
  rcases hl.stepX with hx | hx <;> rcases hl.stepY with hy | hy <;> simp only [hx, hy] at * <;> omega

/-- `P` is the loop on `l` from its first pixel. -/
structure Run (l : Line) (P : Nat → Pen) : Prop where
  ok : l.Ok
  a : l.a (P 0) = l.dx
  b : l.b (P 0) = l.dy
  error : (P 0).error = l.dx - l.dy
  next : ∀ k, P (k + 1) = l.next (P k)

/-- What the error says. -/
def Exact (l : Line) (p : Pen) : Prop := p.error = l.dx - l.dy + (l.a p * l.dy - l.b p * l.dx)

theorem Run.exact (h : Run l P) (k : Nat) : Exact l (P k) := by
  unfold Exact
  induction k with
  | zero =>
    rw [h.error, h.a, h.b]
    ring
  | succ k ih =>
    rw [h.next]
    rcases h.ok.next_cases (P k) with ⟨-, ha, ⟨-, hb, he⟩ | ⟨-, hb, he⟩⟩ | ⟨-, ha, ⟨-, hb, he⟩ | ⟨-, hb, he⟩⟩ <;>
      rw [ha, hb, he, ih] <;> ring

/-- A steep line moves in y every time, and is at most half a step off in x. -/
theorem Run.steep (h : Run l P) (hle : l.dx ≤ l.dy) (hpos : 0 < l.dy) (k : Nat) : l.b (P k) = l.dy - k ∧
    -3 * l.dy < ((P k).error - l.dx) * 2 ∧ ((P k).error - l.dx) * 2 ≤ -l.dy := by
  have hdx := h.ok.dx
  induction k with
  | zero =>
    rw [h.error, h.b]
    omega
  | succ k ih =>
    have hcases := h.ok.next_cases (P k)
    rw [h.next]
    omega

/-- A flat line moves in x every time, and is at most half a step off in y. -/
theorem Run.flat (h : Run l P) (hle : 2 * l.dy ≤ l.dx) (hpos : 0 < l.dx) (k : Nat) : l.a (P k) = l.dx - k ∧
    l.dx ≤ (P k).error * 2 ∧ (P k).error * 2 < 3 * l.dx := by
  have hdy := h.ok.dy
  induction k with
  | zero =>
    rw [h.error, h.a]
    omega
  | succ k ih =>
    have hcases := h.ok.next_cases (P k)
    rw [h.next]
    omega

/-- Between the two the error does not come back to that of the end point. -/
theorem Run.passes (h : Run l P) (hlow : l.dy < l.dx) (hhigh : l.dx < 2 * l.dy) (k : Nat) :
    l.dx - l.dy < (P (k + 1)).error := by
  induction k with
  | zero =>
    have hcases := h.ok.next_cases (P 0)
    have herror := h.error
    rw [h.next]
    omega
  | succ k ih =>
    have hcases := h.ok.next_cases (P (k + 1))
    rw [h.next]
    omega

/-- A product smaller than one of its factors. -/
theorem eq_zero_of_mul {d m : Int} (hm : 0 ≤ m) (hd : 0 ≤ d) (h : m * d < d) : m = 0 := by
  by_contra hne
  have := Int.mul_le_mul_of_nonneg_right (by omega : 1 ≤ m) hd
  omega

theorem nonneg_of_mul {d m : Int} (hd : 0 ≤ d) (h : -d < m * d) : 0 ≤ m := by
  by_contra hneg
  have := Int.mul_le_mul_of_nonneg_right (by omega : m ≤ -1) hd
  omega

/-- The steps left, at every pixel of a line that is steep, or flat enough. -/
theorem Run.left (h : Run l P) (hline : l.dx ≤ l.dy ∨ 2 * l.dy ≤ l.dx) {k : Nat} (hk : k ≤ max l.dx l.dy) :
    0 ≤ l.a (P k) ∧ 0 ≤ l.b (P k) ∧ (l.a (P k) = 0 ∧ l.b (P k) = 0 ↔ k = max l.dx l.dy) := by
  have hexact := h.exact k
  have hdx := h.ok.dx
  have hdy := h.ok.dy
  unfold Exact at hexact
  by_cases hzero : max l.dx l.dy = 0
  · obtain rfl : k = 0 := by omega
    have ha := h.a
    have hb := h.b
    omega
  rcases hline with hle | hle
  · obtain ⟨hb, hlow, hhigh⟩ := h.steep hle (by omega) k
    have hmul := Int.mul_nonneg (by omega : 0 ≤ l.b (P k)) hdx
    have ha := @nonneg_of_mul l.dy (l.a (P k)) hdy (by omega)
    refine ⟨ha, by omega, by omega, fun heq => ⟨eq_zero_of_mul ha hdy ?_, by omega⟩⟩
    rw [show l.b (P k) = 0 by omega] at hexact
    omega
  · obtain ⟨ha, hlow, hhigh⟩ := h.flat hle (by omega) k
    have hmul := Int.mul_nonneg (by omega : 0 ≤ l.a (P k)) hdy
    have hb := @nonneg_of_mul l.dx (l.b (P k)) hdx (by omega)
    refine ⟨by omega, hb, by omega, fun heq => ⟨by omega, eq_zero_of_mul hb hdx ?_⟩⟩
    rw [show l.a (P k) = 0 by omega] at hexact
    omega

theorem Run.traced_iff (h : Run l P) :
    Traced l P (max l.dx l.dy).toNat ↔ l.dx ≤ l.dy ∨ 2 * l.dy ≤ l.dx := by
  have hdy := h.ok.dy
  constructor
  · intro ht
    by_contra hline
    obtain ⟨k, hk⟩ : ∃ k, (max l.dx l.dy).toNat = k + 1 := ⟨(max l.dx l.dy).toNat - 1, by omega⟩
    have hexact := h.exact (k + 1)
    obtain ⟨ha, hb⟩ := h.ok.done_iff.mp (hk ▸ ht.stops)
    have hpasses := h.passes (by omega) (by omega) k
    rw [Exact, ha, hb] at hexact
    omega
  · intro hline
    refine ⟨?_, fun k hk => ?_, fun k hk => ?_⟩
    · exact h.ok.done_iff.mpr ((h.left hline (by omega)).2.2.mpr (by omega))
    · rw [h.ok.done_iff, (h.left hline (by omega)).2.2]
      omega
    · obtain ⟨ha, hb, -⟩ := @Run.left _ _ h hline (k + 1) (by omega)
      rw [h.next] at *
      exact h.ok.towards ha hb

/-- The error is within three times the sides, so that nothing overflows an `int` for coordinates below 2^20. -/
def Small (l : Line) (p : Pen) : Prop := -3 * l.dy ≤ p.error * 2 ∧ p.error * 2 ≤ 3 * l.dx

theorem Run.small (h : Run l P) (k : Nat) : Small l (P k) := by
  have hdx := h.ok.dx
  have hdy := h.ok.dy
  unfold Small
  induction k with
  | zero =>
    rw [h.error]
    omega
  | succ k ih =>
    have hcases := h.ok.next_cases (P k)
    rw [h.next]
    omega

end

theorem pen_run (x0 y0 x1 y1 : Int) : Run (line x0 y0 x1 y1) (pen x0 y0 x1 y1) := by
  refine ⟨⟨?_, ?_, ?_, ?_⟩, ?_, ?_, rfl, fun _ => rfl⟩ <;> simp only [line, pen, Line.a, Line.b] <;> split <;> omega

/-- **A line is drawn as it should be exactly when it is steep, or flat enough.** -/
theorem line_traced_iff (x0 y0 x1 y1 : Int) :
    (∀ k, Small (line x0 y0 x1 y1) (pen x0 y0 x1 y1 k)) ∧
      (Traced (line x0 y0 x1 y1) (pen x0 y0 x1 y1) (line x0 y0 x1 y1).longer.toNat ↔
        (line x0 y0 x1 y1).dx ≤ (line x0 y0 x1 y1).dy ∨ 2 * (line x0 y0 x1 y1).dy ≤ (line x0 y0 x1 y1).dx) :=
  ⟨(pen_run x0 y0 x1 y1).small, (pen_run x0 y0 x1 y1).traced_iff⟩

/-- From (0, 0) to (3, 2) the third step goes to (3, 3). -/
theorem line_passes_its_end : ¬Traced (line 0 0 3 2) (pen 0 0 3 2) 3 :=
  fun h => absurd h.stops.2 (by decide)

end Lyth.DrawLine
