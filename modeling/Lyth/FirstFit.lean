/-
  THE SEARCH OF `physmem_alloc_region`.

  1. **Program** — `allocRegionSearch`, the loop that tries one start frame after the other.  When a
     frame of the run is marked, the loop sets its own index to that frame, so the next start is the
     one BEHIND it.

  2. **Specification** — FIRST FIT: the answer is the least frame at which an aligned run of free
     frames above the low megabyte begins (`Fits`), and there is an answer whenever there is such a
     frame.

  3. **Why the jump loses nothing (`not_fits_between`)** — a run that begins between the start that
     was tried and the marked frame reaches over the marked frame.  So the loop invariant is just "no
     frame before `start_frame` fits", and it is kept by the three ways of going on.

  Alignment is tested by `align_up(start) != start` on 32 bits.  A multiple of a power of two is at
  most `2^32` less that power, so the sum does not wrap there (`alignUp_eq_self`), and a wrapped sum
  is no false hit either.
-/
import Lyth.Physmem

namespace Lyth.Physmem

open Loop Word

variable {s : State} {n al : Nat}

/-- A run of `n` free frames that exist, above the low megabyte, aligned to `al`, begins at `f`. -/
structure Fits (s : State) (n al f : Nat) : Prop where
  aligned : frameAddr f % al = 0
  low : lowFrames ≤ f
  fits : f + n ≤ s.totalFrames
  free : ∀ g, f ≤ g → g < f + n → s.marked g = false

/-- Rounding up to a power of two leaves a 32-bit number alone exactly when it is a multiple. -/
theorem alignUp_eq_self {k a : Nat} (hk : k < 32) (ha : a < 2 ^ 32) :
    alignUp a (2 ^ k) = a ↔ a % 2 ^ k = 0 := by
  have hpow : 2 ^ k * 2 ^ (32 - k) = 2 ^ 32 := by rw [← Nat.pow_add, Nat.add_sub_cancel' (by omega)]
  rw [alignUp_pow (by omega)]
  constructor
  · intro h
    rw [← h]
    exact Nat.mul_mod_left ..
  intro h
  obtain ⟨q, rfl⟩ := Nat.dvd_of_mod_eq_zero h
  -- The last multiple is `2^32 - 2^k`: there the sum is `2^32 - 1`.
  have hq : q < 2 ^ (32 - k) := by
    rw [← hpow] at ha
    exact Nat.lt_of_mul_lt_mul_left ha
  have hle : 2 ^ k * (q + 1) ≤ 2 ^ 32 := by
    rw [← hpow]
    exact Nat.mul_le_mul_left _ hq
  have hpos : 0 < 2 ^ k := Nat.two_pow_pos k
  have hsum : 2 ^ k * q + 2 ^ k - 1 = 2 ^ k * q + (2 ^ k - 1) := by omega
  rw [u32_of_lt (by rw [Nat.mul_add] at hle; omega), hsum, Nat.mul_add_div hpos,
    Nat.div_eq_of_lt (Nat.sub_lt hpos Nat.one_pos), Nat.add_zero, Nat.mul_comm]

/-- A run that begins behind `f` and at or before a marked frame of the run from `f` contains it. -/
theorem not_fits_between {f g frame : Nat} (hlo : f ≤ g) (hhi : g ≤ frame) (hin : frame < f + n)
    (hmarked : s.marked frame) : ¬Fits s n al g := by
  intro h
  rw [h.free frame hhi (by omega)] at hmarked
  cases hmarked

/-- **The loop invariant.**  If nothing before `startFrame` fits, the search answers with the first
    frame that does, or there is none. -/
theorem allocRegionSearch_first {k : Nat} (hk : k < 32) (htot : s.totalFrames < physmemMaxFrames)
    (hn : 0 < n) : ∀ fuel startFrame, s.totalFrames + 1 ≤ startFrame + fuel →
      (∀ f, f < startFrame → ¬Fits s n (2 ^ k) f) →
      match allocRegionSearch s n (2 ^ k) fuel startFrame with
      | some r => Fits s n (2 ^ k) r ∧ ∀ f, f < r → ¬Fits s n (2 ^ k) f
      | none => ∀ f, ¬Fits s n (2 ^ k) f := by
  intro fuel
  induction fuel with
  | zero =>
    intro startFrame hfuel hbefore f hf
    exact hbefore f (by have := hf.fits; omega) hf
  | succ fuel ih =>
    intro startFrame hfuel hbefore
    -- The loop goes on at `next`, and nothing in between fits.
    have hnext : ∀ next, startFrame < next → (∀ f, startFrame ≤ f → f < next → ¬Fits s n (2 ^ k) f) →
        match allocRegionSearch s n (2 ^ k) fuel next with
        | some r => Fits s n (2 ^ k) r ∧ ∀ f, f < r → ¬Fits s n (2 ^ k) f
        | none => ∀ f, ¬Fits s n (2 ^ k) f := by
      intro next hlt hbetween
      refine ih next (by omega) fun f hf => ?_
      rcases Nat.lt_or_ge f startFrame with h | h
      · exact hbefore f h
      · exact hbetween f h hf
    have hone : ¬Fits s n (2 ^ k) startFrame →
        ∀ f, startFrame ≤ f → f < startFrame + 1 → ¬Fits s n (2 ^ k) f := by
      intro hnot f h1 h2
      have heq : f = startFrame := by omega
      rwa [heq]
    rw [allocRegionSearch]
    by_cases hfit : startFrame + n ≤ s.totalFrames
    swap
    · rw [if_neg hfit]
      intro f hf
      rcases Nat.lt_or_ge f startFrame with h | h
      · exact hbefore f h hf
      · have := hf.fits
        omega
    have hsmall : startFrame * physmemFrameSize < 2 ^ 32 := by
      simp only [physmemMaxFrames, physmemFrameSize] at htot ⊢
      omega
    rw [if_pos hfit]
    rw [u32_of_lt hsmall]
    by_cases halign : alignUp (startFrame * physmemFrameSize) (2 ^ k) = startFrame * physmemFrameSize
    swap
    · rw [if_pos halign]
      refine hnext _ (Nat.lt_succ_self _) (hone fun h => halign ?_)
      exact (alignUp_eq_self hk hsmall).mpr h.aligned
    rw [if_neg (not_not.mpr halign)]
    by_cases hlow : startFrame * physmemFrameSize < 0x100000
    · rw [if_pos hlow]
      refine hnext _ (Nat.lt_succ_self _) (hone fun h => ?_)
      have := h.low
      simp only [lowFrames, physmemFrameSize] at this hlow
      omega
    rw [if_neg hlow]
    cases hfirst : firstIn startFrame (startFrame + n) s.marked with
    | some frame =>
      obtain ⟨hle, hlt, hmarked⟩ := firstIn_some hfirst
      exact hnext _ (by omega) fun f h1 h2 => not_fits_between h1 (by omega) hlt hmarked
    | none =>
      refine ⟨⟨(alignUp_eq_self hk hsmall).mp halign, ?_, hfit, ?_⟩, hbefore⟩
      · simp only [lowFrames, physmemFrameSize] at hlow ⊢
        omega
      · exact fun g h1 h2 => firstIn_none hfirst h1 h2

/-- The alignment that the search works with: at least a frame. -/
theorem alignment_max (k : Nat) :
    (if 2 ^ k < physmemFrameSize then physmemFrameSize else 2 ^ k) = 2 ^ max k 12 := by
  have hframe : physmemFrameSize = 2 ^ 12 := rfl
  rw [hframe]
  rcases Nat.lt_or_ge k 12 with h | h
  · rw [if_pos (Nat.pow_lt_pow_right (by decide) h), Nat.max_eq_right (by omega)]
  · rw [if_neg (Nat.not_lt.mpr (Nat.pow_le_pow_right (by decide) h)), Nat.max_eq_left h]

/-- A run of frames is aligned to `2^k` exactly when it is aligned to the larger of that and a
    frame. -/
theorem fits_max {k f : Nat} : Fits s n (2 ^ max k 12) f ↔ Fits s n (2 ^ k) f := by
  have hiff : frameAddr f % 2 ^ max k 12 = 0 ↔ frameAddr f % 2 ^ k = 0 := by
    rcases Nat.le_total k 12 with h | h
    · have hdvd : 2 ^ k ∣ frameAddr f :=
        Nat.dvd_trans (Nat.pow_dvd_pow 2 h) (Nat.dvd_of_mod_eq_zero (frameAddr_mod f))
      rw [Nat.max_eq_right h]
      exact ⟨fun _ => Nat.mod_eq_zero_of_dvd hdvd, fun _ => frameAddr_mod f⟩
    · rw [Nat.max_eq_left h]
  exact ⟨fun h => ⟨hiff.mp h.aligned, h.low, h.fits, h.free⟩,
    fun h => ⟨hiff.mpr h.aligned, h.low, h.fits, h.free⟩⟩

/-- **First fit.**  A non-zero answer is the address of the first aligned run of `framesOf size` free
    frames above the low megabyte; its frames are now used with count 1 and no other frame has
    changed.  The answer is 0 only if there is no such run. -/
theorem allocRegion_first_fit (s : State) (htot : s.totalFrames < physmemMaxFrames) (size k : Nat)
    (hpos : 1 ≤ size) (hsize : size ≤ 0xFFFFF000) (hk : k < 32) :
    let a := (physmemAllocRegion s size (2 ^ k)).1
    let s' := (physmemAllocRegion s size (2 ^ k)).2
    (a ≠ 0 → ∃ f, a = frameAddr f ∧ Fits s (framesOf size) (2 ^ k) f ∧
      (∀ g, g < f → ¬Fits s (framesOf size) (2 ^ k) g) ∧
      (∀ g, f ≤ g → g < f + framesOf size → s'.marked g = true ∧ s'.refcount g = 1) ∧
      ∀ g, ¬(f ≤ g ∧ g < f + framesOf size) → SameFrame g s s') ∧
    (a = 0 → ∀ f, ¬Fits s (framesOf size) (2 ^ k) f) := by
  intro a s'
  have hcount : 0 < framesOf size := by unfold framesOf; omega
  have hsearch := allocRegionSearch_first (s := s) (show max k 12 < 32 by omega) htot hcount
    (s.totalFrames + 1) 0 (by omega) fun f h => absurd h (Nat.not_lt_zero f)
  have ha : a = match allocRegionSearch s (framesOf size) (2 ^ max k 12) (s.totalFrames + 1) 0 with
      | some r => u32 (r * physmemFrameSize)
      | none => 0 := by
    show (physmemAllocRegion s size (2 ^ k)).1 = _
    unfold physmemAllocRegion
    dsimp only
    rw [if_neg (by omega), alignment_max, frameCount_eq hsize]
    cases allocRegionSearch s (framesOf size) (2 ^ max k 12) (s.totalFrames + 1) 0 <;> rfl
  have hframe := allocRegion_frame (s := s) htot (2 ^ k) hsize
  cases hfound : allocRegionSearch s (framesOf size) (2 ^ max k 12) (s.totalFrames + 1) 0 with
  | none =>
    rw [hfound] at ha hsearch
    refine ⟨fun h => absurd ha h, fun _ f hf => hsearch f (fits_max.mpr hf)⟩
  | some r =>
    rw [hfound] at ha hsearch
    obtain ⟨hfits, hfirst⟩ := hsearch
    have hlow := hfits.low
    have hle := hfits.fits
    have haddr : a = frameAddr r := by
      rw [ha]
      refine u32_of_lt ?_
      simp only [physmemMaxFrames, physmemFrameSize] at htot ⊢
      omega
    have hne : a ≠ 0 := by rw [haddr]; exact frameAddr_ne_zero hlow
    have hdiv : a / physmemFrameSize = r := by rw [haddr, frameAddr_div]
    refine ⟨fun _ => ⟨r, haddr, fits_max.mp hfits, fun g hg h => hfirst g hg (fits_max.mpr h), ?_, ?_⟩,
      fun h => absurd h hne⟩
    · intro g h1 h2
      rcases hframe g with ⟨_, hout⟩ | ⟨hnot, _⟩
      · exact hout.2
      · exact absurd ⟨hne, by rwa [hdiv], by rwa [hdiv]⟩ hnot
    · intro g hg
      rcases hframe g with ⟨⟨_, h1, h2⟩, _⟩ | ⟨_, hsame⟩
      · rw [hdiv] at h1 h2
        exact absurd ⟨h1, h2⟩ hg
      · exact hsame

/-- Frames 256 and 257 free, 258 used, 259 and 260 free. -/
def gapped : State where
  marked := fun f => f < 256 || f = 258 || 261 ≤ f
  refcount := fun _ => 0
  totalFrames := 300
  freeFrames := 4
  highestAddress := 300 * 4096

/-- Two frames aligned to two frames: the first fit is at frame 256. -/
theorem allocRegion_first_fit_gapped : (physmemAllocRegion gapped 5000 (2 ^ 13)).1 = frameAddr 256 ∧
      (physmemAllocRegion gapped 5000 (2 ^ 13)).2.marked 257 = true := by
  have ha : (physmemAllocRegion gapped 5000 (2 ^ 13)).1 = frameAddr 256 := by decide +kernel
  obtain ⟨f, haddr, -, -, hmarked, -⟩ :=
    (allocRegion_first_fit gapped (by decide) 5000 13 (by decide) (by decide) (by decide)).1
      (by rw [ha]; decide)
  have hf : f = 256 := by
    rw [← frameAddr_div f, ← haddr, ha]
    decide
  subst hf
  exact ⟨ha, (hmarked 257 (by decide) (by decide)).1⟩

end Lyth.Physmem
