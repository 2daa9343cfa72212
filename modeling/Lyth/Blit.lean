/-
  THE CLIPPED BLIT (`gui/renderer_sw.c`).

    1. The program.  `sw_blit` clips a copy against the source, the target and the scissor, one after the other, and
       copies what is left row by row.  For positions and sizes below 2^28 no sum of the clips leaves an `int`
       (`clips_isInt`).
    2. Specification.  `Copies`: position `(i, j)` of the copy is in the source, in the target and in the scissor.
    3. Crux.  The two axes do not see each other.  On each a clip keeps the DISTANCE of the two origins and takes
       positions away at the ends; it gives none back, also when the size is negative already (`within_spec`).
-/
import Lyth.Lib.Loop
import Lyth.Lib.Word
import Mathlib.Algebra.Order.Ring.Int
import Mathlib.Tactic.Ring

namespace Lyth.Blit

open Loop Word

/-- `gpu_texture_t`.  Position `(x, y)` is the pixel `y * stride + x`. -/
structure Texture where
  width : Int
  height : Int
  stride : Int
  pixels : Int → UInt32

def Texture.at (t : Texture) (x y : Int) : Int := y * t.stride + x

/-- `gpu_clip_t`. -/
structure Clip where
  x : Int
  y : Int
  w : Int
  h : Int
  active : Bool

/-- One axis of a copy: `dx`, `sx` and `sw_w`, or `dy`, `sy` and `sh`. -/
structure Axis where
  dst : Int
  src : Int
  size : Int

/-- Clip one origin and the end that belongs to it to the positions from `lo` up to `hi`. -/
def Axis.within (a : Axis) (lo hi : Int) : Axis :=
  let a := if a.dst < lo then ⟨lo, a.src + (lo - a.dst), a.size - (lo - a.dst)⟩ else a
  if a.dst + a.size > hi then { a with size := hi - a.dst } else a

def Axis.swap (a : Axis) : Axis := ⟨a.src, a.dst, a.size⟩

def Axis.clipSource (a : Axis) (size : Int) : Axis := (a.swap.within 0 size).swap

def Axis.clipDest (a : Axis) (size : Int) : Axis := a.within 0 size

def Axis.scissor (a : Axis) (active : Bool) (lo size : Int) : Axis := if active then a.within lo (lo + size) else a

/-- `memcpy(&t->pixels[dst], &src->pixels[from], n * 4)`. -/
def Texture.copy (t src : Texture) (dst start n : Int) : Texture :=
  { t with pixels := fun k => if dst ≤ k ∧ k < dst + n then src.pixels (start + (k - dst)) else t.pixels k }

/-- `sw_blit`, from a texture to another one, both with pixels. -/
def swBlit (clip : Clip) (t src : Texture) (dx dy sx sy w h : Int) : Texture :=
  let x := (((Axis.mk dx sx w).clipSource src.width).clipDest t.width).scissor clip.active clip.x clip.w
  let y := (((Axis.mk dy sy h).clipSource src.height).clipDest t.height).scissor clip.active clip.y clip.h
  if x.size ≤ 0 ∨ y.size ≤ 0 then t
  else forRange 0 y.size.toNat (fun row t => t.copy src (t.at x.dst (y.dst + row)) (src.at x.src (y.src + row)) x.size) t

/-- Position `i` of an axis is in the copy, the source, the target and the scissor. -/
def InAxis (dst src size srcSize dstSize : Int) (active : Bool) (lo len i : Int) : Prop :=
  (0 ≤ i ∧ i < size) ∧ (0 ≤ src + i ∧ src + i < srcSize) ∧ (0 ≤ dst + i ∧ dst + i < dstSize) ∧
    (active → lo ≤ dst + i ∧ dst + i < lo + len)

/-- **What is to be copied.** -/
def Copies (clip : Clip) (t src : Texture) (dx dy sx sy w h i j : Int) : Prop :=
  InAxis dx sx w src.width t.width clip.active clip.x clip.w i ∧
    InAxis dy sy h src.height t.height clip.active clip.y clip.h j

/-! ## One axis -/

/-- The copy writes position `d` of the target. -/
def Axis.Has (a : Axis) (d : Int) : Prop := a.dst ≤ d ∧ d < a.dst + a.size

/-- How far the source is from the target. -/
def Axis.shift (a : Axis) : Int := a.src - a.dst

theorem within_spec (a : Axis) (lo hi : Int) : (a.within lo hi).shift = a.shift ∧
    ∀ d, (a.within lo hi).Has d ↔ a.Has d ∧ lo ≤ d ∧ d < hi := by
  obtain ⟨dst, src, size⟩ := a
  unfold Axis.within Axis.Has Axis.shift
  dsimp only
  split <;> dsimp only <;> split <;> exact ⟨by dsimp only <;> omega, fun d => by dsimp only; omega⟩

theorem scissor_spec (a : Axis) (active : Bool) (lo size : Int) : (a.scissor active lo size).shift = a.shift ∧
    ∀ d, (a.scissor active lo size).Has d ↔ a.Has d ∧ (active → lo ≤ d ∧ d < lo + size) := by
  cases active with
  | false => exact ⟨rfl, fun d => (and_iff_left Bool.noConfusion).symm⟩
  | true => exact ⟨(within_spec ..).1, fun d => ((within_spec ..).2 d).trans (by rw [forall_prop_of_true rfl])⟩

theorem clipSource_spec (a : Axis) (size : Int) : (a.clipSource size).shift = a.shift ∧
    ∀ d, (a.clipSource size).Has d ↔ a.Has d ∧ 0 ≤ d + a.shift ∧ d + a.shift < size := by
  obtain ⟨hshift, hhas⟩ := within_spec a.swap 0 size
  unfold Axis.clipSource Axis.swap Axis.Has Axis.shift at *
  dsimp only at *
  refine ⟨by omega, fun d => ?_⟩
  have hd := hhas (d + (a.src - a.dst))
  omega

/-- The three clips together. -/
theorem clipped_spec (dst src size srcSize dstSize : Int) (active : Bool) (lo len : Int) : ∃ a,
    (((Axis.mk dst src size).clipSource srcSize).clipDest dstSize).scissor active lo len = a ∧ a.shift = src - dst ∧
      ∀ i, a.Has (dst + i) ↔ InAxis dst src size srcSize dstSize active lo len i := by
  obtain ⟨hs, has⟩ := clipSource_spec ⟨dst, src, size⟩ srcSize
  obtain ⟨hd, had⟩ := within_spec ((Axis.mk dst src size).clipSource srcSize) 0 dstSize
  obtain ⟨hc, hac⟩ := scissor_spec (((Axis.mk dst src size).clipSource srcSize).clipDest dstSize) active lo len
  refine ⟨_, rfl, hc.trans (hd.trans hs), fun i => ?_⟩
  rw [hac, Axis.clipDest, had, has]
  unfold InAxis Axis.Has Axis.shift
  dsimp only
  rw [show dst + i + (src - dst) = src + i by omega, and_assoc, and_assoc]
  exact and_congr_left fun _ => by omega

/-- The sums of a clip are `int`s. -/
def Axis.Sums (a : Axis) (lo hi : Int) : Prop :=
  if a.dst < lo then IsInt (lo - a.dst) ∧ IsInt (a.src + (lo - a.dst)) ∧ IsInt (a.size - (lo - a.dst)) ∧
    IsInt (lo + (a.size - (lo - a.dst))) ∧ IsInt (hi - lo)
  else IsInt (a.dst + a.size) ∧ IsInt (hi - a.dst)

/-- What an axis can have become in some clips, `k` times as far out as the positions it began with. -/
def Axis.Near (k : Int) (a : Axis) : Prop :=
  -2 ^ 28 < a.dst ∧ a.dst < k * 2 ^ 28 ∧ -2 ^ 28 < a.src ∧ a.src < k * 2 ^ 28 ∧ -(k * 2 ^ 28) < a.size ∧ a.size < 2 ^ 28

/-- The origins grow and the size shrinks, each by less than twice 2^28 in a clip. -/
theorem within_near (lo hi : Int) {k : Int} {a : Axis} (h : a.Near k) (hk : 1 ≤ k ∧ k ≤ 5)
    (hlo : lo.natAbs < 2 ^ 28) (hhi : hi.natAbs < 2 ^ 29) : (a.within lo hi).Near (k + 2) ∧ a.Sums lo hi := by
  unfold Axis.Near at *
  unfold Axis.Sums Axis.within IsInt
  dsimp only
  split_ifs <;> try dsimp only at *
  all_goals omega

/-- **No sum of the three clips leaves an `int`.** -/
theorem clips_isInt {dst src size srcSize dstSize lo len : Int}
    (h : ∀ n ∈ [dst, src, size, srcSize, dstSize, lo, len], n.natAbs < 2 ^ 28) :
    (Axis.mk src dst size).Sums 0 srcSize ∧ ((Axis.mk dst src size).clipSource srcSize).Sums 0 dstSize ∧
      (((Axis.mk dst src size).clipSource srcSize).clipDest dstSize).Sums lo (lo + len) ∧ IsInt (lo + len) := by
  simp only [List.forall_mem_cons, List.not_mem_nil, false_imp_iff, implies_true, and_true] at h
  have hstart : (Axis.mk src dst size).Near 1 := by
    unfold Axis.Near
    dsimp only
    omega
  obtain ⟨⟨h1, h2, h3⟩, hsum⟩ := within_near 0 srcSize hstart (by decide) (by decide) (by omega)
  have hsource : ((Axis.mk dst src size).clipSource srcSize).Near 3 := ⟨h3.1, h3.2.1, h1, h2, h3.2.2⟩
  obtain ⟨hd, hsum'⟩ := within_near 0 dstSize hsource (by decide) (by decide) (by omega)
  obtain ⟨-, hsum''⟩ := within_near lo (lo + len) hd (by decide) (by omega) (by omega)
  exact ⟨hsum, hsum', hsum'', by unfold IsInt; omega⟩

/-! ## The rows -/

section

variable {t src : Texture} {x y : Axis}

/-- The row loop after `n` rows. -/
structure Rows (t src : Texture) (x y : Axis) (n : Nat) (t' : Texture) : Prop where
  stride : t'.stride = t.stride
  copied : ∀ d r, x.Has d → y.dst ≤ r → r < y.dst + n →
    t'.pixels (t.at d r) = src.pixels (src.at (d + x.shift) (r + y.shift))
  kept : ∀ k, (∀ d r, x.Has d → y.dst ≤ r → r < y.dst + n → k ≠ t.at d r) → t'.pixels k = t.pixels k

theorem Rows.next (hx : 0 ≤ x.dst) (hw : x.dst + x.size ≤ t.stride) {n : Nat} {t' : Texture}
    (h : Rows t src x y n t') : Rows t src x y (n + 1)
      (t'.copy src (t'.at x.dst (y.dst + n)) (src.at x.src (y.src + n)) x.size) := by
  have hrow : t'.at x.dst (y.dst + n) = t.at x.dst (y.dst + n) := by rw [Texture.at, h.stride]; rfl
  rw [hrow]
  refine ⟨h.stride, fun d r hx hlo hlt => ?_, fun k hk => ?_⟩
  · obtain ⟨hd, hd'⟩ := hx
    by_cases heq : r = y.dst + n
    · -- the row of this round
      subst heq
      refine (if_pos ?_).trans (congrArg src.pixels ?_) <;> unfold Texture.at
      · omega
      · unfold Axis.shift
        rw [show y.dst + n + (y.src - y.dst) = y.src + n by omega]
        omega
    · -- an earlier row ends before it
      have hmul := Int.mul_le_mul_of_nonneg_right (by omega : r + 1 ≤ y.dst + n) (by omega : 0 ≤ t.stride)
      rw [Int.add_mul] at hmul
      refine (if_neg ?_).trans (h.copied d r ⟨hd, hd'⟩ hlo (by omega))
      unfold Texture.at
      omega
  · refine (if_neg ?_).trans (h.kept k fun d r hd hlo hlt => hk d r hd hlo (by omega))
    rintro ⟨hlo, hhi⟩
    refine hk (x.dst + (k - t.at x.dst (y.dst + n))) (y.dst + n) ⟨by omega, by omega⟩ (by omega) (by omega) ?_
    unfold Texture.at
    omega

end

/-- **Clipped blit.**  Exactly the positions that are in the source, in the target and in the scissor are copied, and
    no other pixel changes. -/
theorem blit_exact (clip : Clip) (t src : Texture) (dx dy sx sy w h : Int) (hstride : t.width ≤ t.stride) :
    (∀ i j, Copies clip t src dx dy sx sy w h i j →
      (swBlit clip t src dx dy sx sy w h).pixels (t.at (dx + i) (dy + j)) = src.pixels (src.at (sx + i) (sy + j))) ∧
    ∀ k, (∀ i j, Copies clip t src dx dy sx sy w h i j → k ≠ t.at (dx + i) (dy + j)) →
      (swBlit clip t src dx dy sx sy w h).pixels k = t.pixels k := by
  obtain ⟨x, hx, hsx, hxs⟩ := clipped_spec dx sx w src.width t.width clip.active clip.x clip.w
  obtain ⟨y, hy, hsy, hys⟩ := clipped_spec dy sy h src.height t.height clip.active clip.y clip.h
  unfold Copies swBlit
  simp only [hx, hy, ← hxs, ← hys]
  by_cases hempty : x.size ≤ 0 ∨ y.size ≤ 0
  · rw [if_pos hempty]
    refine ⟨?_, fun _ _ => rfl⟩
    rintro i j ⟨hi, hj⟩
    unfold Axis.Has at hi hj
    omega
  rw [if_neg hempty]
  -- what is left lies in the rows of the target
  have hfirst := (hxs (x.dst - dx)).mp ⟨by omega, by omega⟩
  have hlast := (hxs (x.dst + x.size - 1 - dx)).mp ⟨by omega, by omega⟩
  unfold InAxis at hfirst hlast
  have hrows : Rows t src x y y.size.toNat (forRange 0 y.size.toNat _ t) :=
    forRange_inv (P := Rows t src x y) (Nat.zero_le _)
      ⟨rfl, fun _ _ _ hr hlt => absurd hr (by omega), fun _ _ => rfl⟩ fun n t' _ _ h => h.next (by omega) (by omega)
  refine ⟨?_, fun k hk => hrows.kept k fun d r hd hlo hr => ?_⟩
  · rintro i j ⟨hi, hj⟩
    have hcopied := hrows.copied _ _ hi hj.1 (by have := hj.2; omega)
    rwa [hsx, hsy, show dx + i + (sx - dx) = sx + i by omega, show dy + j + (sy - dy) = sy + j by omega] at hcopied
  · have hdr := hk (d - dx) (r - dy)
    rw [show dx + (d - dx) = d by omega, show dy + (r - dy) = r by omega] at hdr
    exact hdr ⟨hd, hlo, by omega⟩

/-- Two pixels square, numbered. -/
def numbered : Texture := ⟨2, 2, 2, fun k => UInt32.ofNat k.toNat⟩

/-- From the left border on, its second column is seen. -/
theorem blit_exact_border :
    (swBlit ⟨0, 0, 0, 0, false⟩ ⟨4, 4, 5, fun _ => 7⟩ numbered (-1) 0 0 0 2 2).pixels 5 = 3 :=
  (blit_exact ⟨0, 0, 0, 0, false⟩ ⟨4, 4, 5, fun _ => 7⟩ numbered (-1) 0 0 0 2 2 (by decide)).1 1 1
    (by unfold Copies InAxis; decide)

end Lyth.Blit
