/-
  TAKING A CLONE BACK: the memory side of a fork that fails after its clone.

  1. THE PROGRAM.  After `paging_cow_clone_user_directory` has succeeded, a fork that fails calls
     `paging_release_user_pages` and `paging_destroy_user_directory` on the child (`dispose`).
  2. WHAT A CLONE TAKES.  A clone of a directory takes five frames and marks no other
     (**`cowClone_bits`**): what the frame allocator answers afterwards is what it answers once five
     frames have been taken (`taken 5`), since its searches read the bits and not the counts.
  3. WHAT IS GIVEN BACK.  The child's five frames are free again, and every other frame loses one
     reference for each page of the child that maps it (**`dispose_counts`**).
-/
import Lyth.CloneFailure
import Lyth.UserBuffer

namespace Lyth.CloneUndo

open Loop Paging Directory CowIsolation
open Physmem (physmemAllocFrame physmemFreeFrame physmemAllocRegion frameAddr lowFrames)

/-! ## Parents and children as directories -/

section

variable {s s' : State} {D C : Dir}

/-- The directory of a task is a parent that a clone can work on. -/
theorem rooted_of_chain (hchain : Chain s D) (hD : OwnFrames s D) : Rooted s D.pml4 := by
  have hpdpt : pdptOf s D.pml4 = D.pdpt := by rw [pdptOf, hchain.pml4, Pte.rw_phys]
  have hpd : pdOf s D.pml4 = D.pd := by rw [pdOf, hpdpt, hchain.pdpt, Pte.rw_phys]
  have hpde : ∀ ti < userPdCount, (pdeOf s D.pml4 ti).phys = D.pt ti := by
    intro ti hti
    rw [pdeOf, hpd, hchain.pd ti hti, Pte.rw_phys]
  have hcases : ∀ ti < userPdCount, ti = 0 ∨ ti = 1 := by
    intro ti hti
    simp only [userPdCount] at hti
    omega
  obtain ⟨hpd0, hpd1, _⟩ := hD.ne
  refine ⟨?_, fun ti hti _ => ?_, fun ti hti _ => ?_, fun ti hti _ p hp hpresent => ?_⟩
  · rw [hpdpt, hpd]
    exact hD.upper
  · rw [hpde ti hti]
    exact hD.inUse _ (Dir.pt_mem _ _)
  · rw [hpde ti hti, hpd]
    rcases hcases ti hti with rfl | rfl
    · exact Ne.symm hpd0
    · exact Ne.symm hpd1
  · rw [hpde ti hti] at hpresent ⊢
    rcases hcases ti hti with rfl | rfl
    · exact hD.pagesInUse.1 p hp hpresent
    · exact hD.pagesInUse.2 p hp hpresent

/-- The child of a clone is a directory on frames of its own. -/
theorem Cloned.own (hfr : s.frames.Inv) (h : Cloned s s' D C) (hD : OwnFrames s D) : OwnFrames s' C := by
  refine ⟨h.frames.nodup, fun a ha => h.frames.taken_inUse hfr ha, fun p hp hpresent => ?_⟩
  rw [h.child p hp, childEntry] at hpresent ⊢
  by_cases hshares : shares (leaf s D p) (pageVa 0 p)
  · rw [if_pos hshares]
    exact h.frames.inUse (hD.pages p hp (Bool.and_eq_true_iff.mp hshares).1)
  · rw [if_neg hshares] at hpresent
    cases hpresent

/-- Destroying a directory gives its five frames back. -/
theorem destroyUserDirectory_frames (hchain : Chain s C) (hne : C.pml4 ≠ s.kernelPml4) :
    (destroyUserDirectory s C.pml4).frames =
      [C.pt0, C.pt1, C.pd, C.pdpt, C.pml4].foldl physmemFreeFrame s.frames := by
  have hzero := hchain.upper_ne_zero.1
  have htables : forRange 0 userPdCount (freeUserTable C.pd) s = (s.freeFrame C.pt0).freeFrame C.pt1 := by
    have hfirst : freeUserTable C.pd 0 s = s.freeFrame C.pt0 := by
      unfold freeUserTable
      rw [hchain.pd 0 (by decide)]
      rfl
    have hsecond : freeUserTable C.pd 1 (s.freeFrame C.pt0) = (s.freeFrame C.pt0).freeFrame C.pt1 := by
      unfold freeUserTable
      rw [show (s.freeFrame C.pt0).tables = s.tables from rfl, hchain.pd 1 (by decide)]
      rfl
    show freeUserTable C.pd 1 (freeUserTable C.pd 0 s) = _
    rw [hfirst, hsecond]
  unfold destroyUserDirectory
  rw [if_neg (not_or.mpr ⟨hzero, hne⟩)]
  unfold freeUserPts
  simp only [hchain.pml4, hchain.pdpt, Pte.rw_phys, htables]
  rfl

end

/-! ## Bits: what the frame allocator decides by -/

/-- The same frames are marked. -/
structure SameBits (fr fr' : Physmem.State) : Prop where
  total : fr'.totalFrames = fr.totalFrames
  marked : fr'.marked = fr.marked

section

variable {fr fr' fr'' : Physmem.State}

theorem SameBits.refl (fr : Physmem.State) : SameBits fr fr := ⟨rfl, rfl⟩

variable (h : SameBits fr fr')
include h

theorem SameBits.trans (h' : SameBits fr' fr'') : SameBits fr fr'' :=
  ⟨h'.total.trans h.total, h'.marked.trans h.marked⟩

/-- Taking a frame depends on the bits alone. -/
theorem SameBits.allocFrame :
    SameBits (physmemAllocFrame fr).2 (physmemAllocFrame fr').2 := by
  refine ⟨?_, funext fun g => ?_⟩
  · rw [Physmem.allocFrame_totalFrames, Physmem.allocFrame_totalFrames, h.total]
  unfold physmemAllocFrame
  rw [h.total, h.marked]
  cases firstIn 0 fr.totalFrames fun frame => !fr.marked frame with
  | none => exact congrFun h.marked g
  | some f =>
    rw [Physmem.setRefcount_marked, Physmem.setRefcount_marked, Physmem.markFrame_marked,
      Physmem.markFrame_marked, h.total, h.marked]

/-- The search for a region depends on the bits alone. -/
theorem SameBits.allocRegionSearch (n al : Nat) : ∀ fuel start,
    Physmem.allocRegionSearch fr' n al fuel start = Physmem.allocRegionSearch fr n al fuel start := by
  intro fuel
  induction fuel with
  | zero => exact fun _ => rfl
  | succ fuel ih =>
    intro start
    rw [Physmem.allocRegionSearch, Physmem.allocRegionSearch, h.total, h.marked, ih]
    simp only [ih]

/-- And so does the address of the region. -/
theorem SameBits.allocRegion (size al : Nat) :
    (physmemAllocRegion fr' size al).1 = (physmemAllocRegion fr size al).1 := by
  unfold physmemAllocRegion
  split
  · rfl
  · dsimp only
    rw [h.allocRegionSearch, h.total]
    split <;> rfl

end

/-- The frame allocator after `n` frames have been taken. -/
def taken (n : Nat) (fr : Physmem.State) : Physmem.State := (fun fr => (physmemAllocFrame fr).2)^[n] fr

section

variable {s s' : State} {D : Dir}

theorem allocFrames_bits (n : Nat) : ∀ s : State, SameBits (taken n s.frames) (s.allocFrames n).2.frames := by
  induction n with
  | zero => exact fun s => SameBits.refl _
  | succ n ih => exact fun s => ih s.allocFrame.2

/-- Sharing the pages of a table changes no bit. -/
theorem cowTable_bits (ti parentPt childPt n : Nat) (s : State) :
    SameBits s.frames (forRange 0 n (cowPage ti parentPt childPt) s).frames := by
  refine forRange_keeps (P := fun s' : State => SameBits s.frames s'.frames) (fun i s' h => ?_) (SameBits.refl _)
  unfold cowPage
  dsimp only
  split
  · exact h
  · split
    · exact h
    · exact h.trans ⟨Physmem.refFrame_totalFrames _, Physmem.refFrame_marked _⟩

/-- A page table that is cloned takes one frame. -/
theorem cloneTable_bits {parentPd newPd ti : Nat}
    (htable : isTable (s.tables parentPd (userPdStart + ti)))
    (hok : cloneTable parentPd newPd ti s = (true, s')) : SameBits (taken 1 s.frames) s'.frames := by
  rw [cloneTable_eq, if_pos htable] at hok
  split at hok <;> cases hok
  exact cowTable_bits ti _ _ _ s.allocFrame.2

/-- Linking the upper tables takes no frame. -/
theorem linkClone_frames (s : State) (parent parentPdpt parentPd pml4 pdpt pd : Nat) :
    (linkClone s parent parentPdpt parentPd pml4 pdpt pd).frames = s.frames := by
  have hcopy : ∀ (t : State) (src dst : Nat), (t.copyTable src dst).frames = t.frames := by
    intro t src dst
    exact forRange_inv (P := fun _ (t' : State) => t'.frames = t.frames) (Nat.zero_le _) rfl
      fun i t' _ _ ht => ht
  unfold linkClone
  rw [hcopy, setEntry_frames, hcopy, setEntry_frames, hcopy]

/-- **A clone takes five frames**, and marks no other. -/
theorem cowClone_bits (hfr : s.frames.Inv) (hchain : Chain s D) (hD : OwnFrames s D)
    (hne : (cowClone s D.pml4).1 ≠ 0) : SameBits (taken 5 s.frames) (cowClone s D.pml4).2.frames := by
  obtain ⟨pml4, pdpt, pd, s₀, s₃, halloc, hzero, hok, heq⟩ := cowClone_some hchain hne
  have hroot := rooted_of_chain hchain hD
  have hpd : pdOf s D.pml4 = D.pd := by rw [pdOf, pdptOf, hchain.pml4, Pte.rw_phys, hchain.pdpt, Pte.rw_phys]
  have htable : ∀ ti < userPdCount, isTable (s.tables D.pd (userPdStart + ti)) := by
    intro ti hti
    rw [hchain.pd ti hti]
    rfl
  have hlinked := linkClone_linked hfr hD.upper halloc hzero
  have hupper : SameBits (taken 3 s.frames) (linkClone s₀ D.pml4 D.pdpt D.pd pml4 pdpt pd).frames := by
    have hthree := allocFrames_bits 3 s
    rw [halloc] at hthree
    rwa [linkClone_frames]
  rw [heq]
  generalize linkClone s₀ D.pml4 D.pdpt D.pd pml4 pdpt pd = s₁ at *
  obtain ⟨s₂, hok₀, hok₁⟩ := cloneTables_true hok
  have huse : InUse s.frames D.pd := hD.upper _ (by simp)
  have hentry₀ : isTable (s₁.tables D.pd (userPdStart + 0)) := by
    rw [hlinked.others _ _ fun hmem => hlinked.frames.not_inUse hmem huse]
    exact htable 0 (by decide)
  -- the second round reads the parent's PD as it was
  have hentry₁ : isTable (s₂.tables D.pd (userPdStart + 1)) := by
    have hpde : isTable (pdeOf s D.pml4 0) := by
      rw [pdeOf, hpd]
      exact htable 0 (by decide)
    rw [← hpd] at hok₀ ⊢
    obtain ⟨_, _, _, hentries⟩ := firstTable_shared hroot hlinked hpde hok₀
    rw [hentries _ (by rwa [hpd]), firstEntries_pd hroot hpde, hpd]
    exact htable 1 (by decide)
  have hfirst := hupper.allocFrame.trans (cloneTable_bits hentry₀ hok₀)
  exact hfirst.allocFrame.trans (cloneTable_bits hentry₁ hok₁)

end

/-! ## Giving a directory back -/

/-- `paging_release_user_pages(dir); paging_destroy_user_directory(dir);`. -/
def dispose (m : State) (dir : Nat) : State := destroyUserDirectory (releaseUserPages m dir) dir

section

variable {s s' : State} {D C : Dir}

theorem releaseUserPages_kernelPml4 (s : State) (pml4 : Nat) :
    (releaseUserPages s pml4).kernelPml4 = s.kernelPml4 := by
  unfold releaseUserPages
  split
  · rfl
  refine forRange_kernelPml4 (fun ti s => ?_) s
  unfold releaseTable
  dsimp only
  split
  · rfl
  · refine forRange_kernelPml4 (fun p s => ?_) s
    unfold releasePage
    dsimp only
    split <;> rfl

theorem cloneTable_kernelPml4 (parentPd newPd ti : Nat) (s : State) :
    (cloneTable parentPd newPd ti s).2.kernelPml4 = s.kernelPml4 := by
  rw [cloneTable_eq]
  split
  · split
    · rfl
    · refine forRange_kernelPml4 (fun p s => ?_) s.allocFrame.2
      unfold cowPage
      dsimp only
      split
      · rfl
      · split <;> rfl
  · rfl

theorem cowClone_kernelPml4 (hchain : Chain s D) (hne : (cowClone s D.pml4).1 ≠ 0) :
    (cowClone s D.pml4).2.kernelPml4 = s.kernelPml4 := by
  obtain ⟨pml4, pdpt, pd, s₀, s₃, halloc, hzero, hok, heq⟩ := cowClone_some hchain hne
  obtain ⟨s₂, hok₀, hok₁⟩ := cloneTables_true hok
  have hs₀ : s₀.kernelPml4 = s.kernelPml4 := by
    have h := congrArg (fun r : List Nat × State => r.2.kernelPml4) halloc
    exact h.symm
  have h₀ := cloneTable_kernelPml4 D.pd pd 0 (linkClone s₀ D.pml4 D.pdpt D.pd pml4 pdpt pd)
  have h₁ := cloneTable_kernelPml4 D.pd pd 1 s₂
  rw [hok₀] at h₀
  rw [hok₁] at h₁
  rw [heq, h₁, h₀, ← hs₀]
  simp only [linkClone, copyTable_kernelPml4, setEntry_kernelPml4]

/-- **Releasing the pages and destroying the directory.**  Its own frames are free; every other one has
    lost a reference for each page that maps it. -/
theorem dispose_counts (hfr : s.frames.Inv) (hchain : Chain s C) (hC : OwnFrames s C)
    (hne : C.pml4 ≠ s.kernelPml4) (f : Nat) :
    (dispose s C.pml4).frames.refcount f = if frameAddr f ∈ C.frames then 0
      else s.frames.refcount f - Cow.countIn userPages (view s C.pml4) (frameAddr f) := by
  have hrel := releaseUserPages_released hfr hchain hC
  have hkernel := releaseUserPages_kernelPml4 s C.pml4
  unfold dispose
  generalize releaseUserPages s C.pml4 = s₁ at hrel hkernel ⊢
  have hchain₁ : Chain s₁ C := chain_congr hchain fun t ht i =>
    hrel.others t i (Dir.upper_ne_pt hC.nodup ht 0) (Dir.upper_ne_pt hC.nodup ht 1)
  rw [destroyUserDirectory_frames hchain₁ (by rwa [hkernel])]
  obtain ⟨_, _, hothers, hown⟩ := freeFrames_frame [C.pt0, C.pt1, C.pd, C.pdpt, C.pml4] s₁.frames hrel.frames.inv
  have hmem : frameAddr f ∈ [C.pt0, C.pt1, C.pd, C.pdpt, C.pml4] ↔ frameAddr f ∈ C.frames := by
    simp only [Dir.frames, List.mem_cons]
    tauto
  by_cases hf : frameAddr f ∈ C.frames
  · obtain ⟨g, hg, hlow, hlt, _⟩ := hC.inUse _ hf
    rw [← frameAddr_inj hg] at hlow hlt
    rw [if_pos hf, (hown f (hmem.mpr hf) hlow (by rwa [hrel.frames.total])).2]
  · rw [if_neg hf, (hothers f (.inl fun h => hf (hmem.mp h))).2, hrel.frames.counted]

/-- A page that is shared is a frame in use. -/
theorem sharedCount_free (hD : OwnFrames s D) {f : Nat} (hfree : s.frames.marked f = false) :
    sharedCount s D f = 0 := by
  refine List.countP_eq_zero.mpr fun p hp hshares => ?_
  have hp := List.mem_range.mp hp
  unfold sharesFrame at hshares
  simp only [Bool.and_eq_true, decide_eq_true_eq] at hshares
  obtain ⟨g, hg, _, _, hmarked⟩ := hD.pages p hp (Bool.and_eq_true_iff.mp hshares.1).1
  rw [hshares.2] at hg
  rw [frameAddr_inj hg, hmarked] at hfree
  cases hfree

end

end Lyth.CloneUndo
