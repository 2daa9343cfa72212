/-
  HOW LARGE THE BLOCK IS THAT `kmalloc` RETURNS (`kernel/mem/heap.c`).

  1. **Program** — the size goes through the class table of the slab allocator, or through `align_up`,
     the first-fit search, `split_block` and, if nothing fits, one growth of the heap.

  2. **Specification** — the object or block behind the returned pointer has at least the size that was
     asked for (`Alloc.Fits`).

  3. **The crux** — the one place where bytes are lost is `align_up`: above 0xFFFFFFF0 it wraps to 0
     (`alignUp_wraps`), and then EVERY free block is large enough for the search.  What the callers get
     has at most 40 bytes (`splitBlock_zero`).
-/
import Lyth.Heap

namespace Lyth.Heap

open Word
open Slab (ObjAt cacheSizes slabMaxObj)

/-! ## Specification -/

/-- The block or slab object of an allocation has the bytes that were asked for. -/
def Alloc.Fits (a : Alloc) (s : State) : Prop :=
  if a.large then ∃ b ∈ s.blocks, a.IsBlock b else a.InSlab s.slab

/-- Nothing is left: no block is free, and the heap cannot grow. -/
structure Exhausted (s : State) (grow : Nat) : Prop where
  used : ∀ b ∈ s.blocks, b.free = false
  full : grow = 0 ∨ heapMaxRegions ≤ s.regions.length

/-- No two blocks stand at one address, the block of a new region included. -/
structure DistinctBlocks (s : State) (grow : Nat) : Prop where
  nodup : (s.blocks.map Block.addr).Nodup
  fresh : grow ≠ 0 → grow ∉ s.blocks.map Block.addr

/-! ## Rounding -/

/-- `align_up` of a size above 0xFFFFFFF0 is 0. -/
theorem alignUp_wraps {size : Nat} (hlow : 0xFFFFFFF0 < size) (hhigh : size < 2 ^ 32) :
    alignUp size heapAlignment = 0 := by
  rw [alignUp_heap, u32]
  omega

/-- Cutting a block for no bytes leaves at most 40. -/
theorem splitBlock_zero (b : Block) : (splitBlock b 0).1.addr = b.addr ∧ (splitBlock b 0).1.size ≤ 40 := by
  have hmin : u32 (0 + (sizeofBlock + heapAlignment)) = 40 := by decide
  rw [splitBlock, hmin]
  by_cases hsmall : b.size ≤ 40
  · rw [if_pos hsmall]
    exact ⟨rfl, hsmall⟩
  · rw [if_neg hsmall]
    exact ⟨rfl, Nat.zero_le _⟩

/-! ## The list -/

section

variable {size : Nat} {bs : List Block}

/-- The search fails exactly if no free block is large enough. -/
theorem takeFirstFit_none_iff :
    takeFirstFit size bs = none ↔ ∀ b ∈ bs, b.free → b.size < size := by
  induction bs with
  | nil => exact ⟨fun _ b hb => (List.not_mem_nil hb).elim, fun _ => rfl⟩
  | cons c bs ih =>
    rw [takeFirstFit, List.forall_mem_cons]
    by_cases hfit : (c.free && decide (c.size ≥ size)) = true
    · obtain ⟨hfree, hsize⟩ := Bool.and_eq_true_iff.mp hfit
      have hge := of_decide_eq_true hsize
      rw [if_pos hfit]
      refine ⟨fun h => absurd h (Option.some_ne_none _), fun h => ?_⟩
      have := h.1 hfree
      omega
    · rw [if_neg hfit, Option.map_eq_none_iff, ih]
      refine ⟨fun h => ⟨fun hfree => ?_, h⟩, And.right⟩
      by_contra hge
      exact hfit (by rw [hfree, decide_eq_true (Nat.le_of_not_lt hge)]; rfl)

/-- Joining blocks moves none: the addresses that are left were there. -/
theorem coalesceFrom_addr (b : Block) (bs : List Block) :
    ((coalesceFrom b bs).map Block.addr).Sublist ((b :: bs).map Block.addr) := by
  induction bs generalizing b with
  | nil => exact List.Sublist.refl _
  | cons b' bs ih =>
    rw [coalesceFrom]
    split
    · exact (ih _).trans ((List.sublist_cons_self _ _).cons_cons _)
    · exact (ih b').cons_cons _

/-- Joining blocks leaves a free one, if there was one. -/
theorem coalesceFrom_free (b : Block) (bs : List Block) (h : ∃ c ∈ b :: bs, c.free) :
    ∃ c ∈ coalesceFrom b bs, c.free := by
  induction bs generalizing b with
  | nil => exact h
  | cons b' bs ih =>
    rw [coalesceFrom]
    split
    · -- the block takes its successor in and stays free
      rename_i hfree
      exact ih _ ⟨_, (.head _), (Bool.and_eq_true_iff.mp hfree).1⟩
    · obtain ⟨c, hc, hfree⟩ := h
      rcases List.mem_cons.mp hc with rfl | hc
      · exact ⟨c, (.head _), hfree⟩
      · obtain ⟨d, hd, hdfree⟩ := ih b' ⟨c, hc, hfree⟩
        exact ⟨d, .tail _ hd, hdfree⟩

end

/-! ## The two searches -/

section

variable {s : State} {size grow : Nat}

/-- The heap grows exactly if there is memory and room in the region table. -/
theorem heapGrow_none_iff : heapGrow s grow = none ↔ grow = 0 ∨ heapMaxRegions ≤ s.regions.length := by
  have hsize : ¬heapGrowSize ≤ sizeofBlock := by decide
  unfold heapGrow heapAddRegion
  by_cases hzero : grow = 0
  · rw [if_pos hzero]
    exact ⟨fun _ => .inl hzero, fun _ => rfl⟩
  rw [if_neg hzero]
  by_cases hfull : heapMaxRegions ≤ s.regions.length
  · rw [if_pos (.inl hfull)]
    exact ⟨fun _ => .inr hfull, fun _ => rfl⟩
  · rw [if_neg (not_or.mpr ⟨hfull, hsize⟩)]
    refine ⟨fun h => ?_, fun h => absurd h (not_or.mpr ⟨hzero, hfull⟩)⟩
    split at h <;> cases h

/-- The list after a growth. -/
theorem heapGrow_blocks {s' : State} (hne : s.blocks ≠ []) (h : heapGrow s grow = some s') :
    s'.blocks = coalesceBlocks (s.blocks ++ [regionBlock grow heapGrowSize]) := by
  unfold heapGrow heapAddRegion at h
  split at h
  · cases h
  split at h
  · cases h
  cases hblocks : s.blocks with
  | nil => exact absurd hblocks hne
  | cons b bs =>
    rw [hblocks] at h
    cases h
    rfl

/-- **What is served comes out of a first-fit search** over a list without double addresses. -/
theorem largeAlloc_served (hne : s.blocks ≠ []) (hdistinct : DistinctBlocks s grow)
    (h : (largeAlloc s size grow).1 ≠ 0) :
    ∃ bs, (bs.map Block.addr).Nodup ∧
      takeFirstFit size bs = some ((largeAlloc s size grow).1, (largeAlloc s size grow).2.blocks) := by
  unfold largeAlloc at h ⊢
  cases hfirst : takeFirstFit size s.blocks with
  | some r => exact ⟨s.blocks, hdistinct.nodup, hfirst⟩
  | none =>
    rw [hfirst] at h
    cases hgrow : heapGrow s grow with
    | none =>
      rw [hgrow] at h
      exact absurd rfl h
    | some s' =>
      rw [hgrow] at h
      dsimp only at h ⊢
      cases hsecond : takeFirstFit size s'.blocks with
      | none =>
        rw [hsecond] at h
        exact absurd rfl h
      | some r =>
        refine ⟨s'.blocks, ?_, hsecond⟩
        have hnonzero : grow ≠ 0 := by
          intro hzero
          rw [heapGrow_none_iff.mpr (.inl hzero)] at hgrow
          cases hgrow
        rw [heapGrow_blocks hne hgrow]
        cases hblocks : s.blocks with
        | nil => exact absurd hblocks hne
        | cons b bs =>
          refine List.Nodup.sublist (coalesceFrom_addr b (bs ++ [regionBlock grow heapGrowSize])) ?_
          have hall : ((b :: (bs ++ [regionBlock grow heapGrowSize])).map Block.addr) =
              s.blocks.map Block.addr ++ [grow] := by
            rw [hblocks]
            simp [regionBlock]
          rw [hall]
          refine List.nodup_append.mpr ⟨hdistinct.nodup, List.nodup_singleton _, fun a ha c hc heq => ?_⟩
          rw [List.mem_singleton.mp hc] at heq
          exact hdistinct.fresh hnonzero (heq ▸ ha)

/-- A search for no bytes fails only if nothing is left. -/
theorem largeAlloc_zero (hne : s.blocks ≠ []) : (largeAlloc s 0 grow).1 = 0 ↔ Exhausted s grow := by
  have hused : takeFirstFit 0 s.blocks = none ↔ ∀ b ∈ s.blocks, b.free = false := by
    rw [takeFirstFit_none_iff]
    refine ⟨fun h b hb => ?_, fun h b hb hfree => ?_⟩
    · rw [← Bool.not_eq_true]
      intro hfree
      exact absurd (h b hb hfree) (Nat.not_lt_zero _)
    · rw [h b hb] at hfree
      cases hfree
  have hptr : ∀ {bs r}, takeFirstFit 0 bs = some r → r.1 ≠ 0 := by
    intro bs r hr
    obtain ⟨_, b, _, _, _, _, rfl⟩ := takeFirstFit_some hr
    show b.addr + 24 ≠ 0
    omega
  unfold largeAlloc
  cases hfirst : takeFirstFit 0 s.blocks with
  | some r =>
    refine ⟨fun h => absurd h (hptr hfirst), fun h => ?_⟩
    rw [hused.mpr h.used] at hfirst
    cases hfirst
  | none =>
    cases hgrow : heapGrow s grow with
    | none => exact ⟨fun _ => ⟨hused.mp hfirst, heapGrow_none_iff.mp hgrow⟩, fun _ => rfl⟩
    | some s' =>
      have hnot : ¬Exhausted s grow := by
        intro h
        rw [heapGrow_none_iff.mpr h.full] at hgrow
        cases hgrow
      -- the new region is free, joined to what stood before it or not
      have hfree : ∃ c ∈ s'.blocks, c.free := by
        rw [heapGrow_blocks hne hgrow]
        cases hblocks : s.blocks with
        | nil => exact absurd hblocks hne
        | cons b bs =>
          exact coalesceFrom_free b _ ⟨regionBlock grow heapGrowSize, by simp, rfl⟩
      dsimp only
      cases hsecond : takeFirstFit 0 s'.blocks with
      | some r => exact ⟨fun h => absurd h (hptr hsecond), fun h => absurd h hnot⟩
      | none =>
        obtain ⟨c, hc, hcfree⟩ := hfree
        exact absurd (takeFirstFit_none_iff.mp hsecond c hc hcfree) (Nat.not_lt_zero _)

end

/-! ## `kmalloc` -/

section

variable {bs bs' : List Block} {size ptr : Nat}

/-- The block taken has the size that was searched for. -/
theorem takeFirstFit_isBlock (h : takeFirstFit size bs = some (ptr, bs')) :
    ∃ b ∈ bs', b.free = false ∧ ptr = b.addr + sizeofBlock ∧ size ≤ b.size := by
  obtain ⟨pre, b, post, _, _, hsize, hr⟩ := takeFirstFit_some h
  obtain ⟨hptr, hlist⟩ := Prod.mk.inj hr
  obtain ⟨haddr, hkept⟩ := splitBlock_fst hsize
  refine ⟨{ (splitBlock b size).1 with free := false }, ?_, rfl, ?_, hkept⟩
  · rw [hlist]
    exact List.mem_append_right _ (.head _)
  · rw [hptr, ← haddr]

/-- The block taken for no bytes is the only used one at its address, and has at most 40. -/
theorem takeFirstFit_zero (hnodup : (bs.map Block.addr).Nodup) (h : takeFirstFit 0 bs = some (ptr, bs'))
    {b : Block} (hb : b ∈ bs') (hused : b.free = false) (hptr : ptr = b.addr + sizeofBlock) :
    b.size ≤ 40 := by
  obtain ⟨pre, c, post, hbs, _, _, hr⟩ := takeFirstFit_some h
  obtain ⟨hcptr, hlist⟩ := Prod.mk.inj hr
  have haddr : b.addr = c.addr := by
    omega
  rw [hbs, List.map_append, List.map_cons] at hnodup
  obtain ⟨_, hrest, hapart⟩ := List.nodup_append.mp hnodup
  rw [hlist] at hb
  rcases List.mem_append.mp hb with hb | hb
  · exact absurd haddr (hapart _ (List.mem_map_of_mem hb) _ (.head _))
  rcases List.mem_cons.mp hb with rfl | hb
  · exact (splitBlock_zero c).2
  · rcases List.mem_append.mp hb with hb | hb
    · rw [splitBlock] at hb
      split at hb
      · exact (List.not_mem_nil hb).elim
      · rw [List.mem_singleton.mp hb] at hused
        cases hused
    · have hin : c.addr ∈ post.map Block.addr := haddr ▸ List.mem_map_of_mem hb
      exact absurd hin (List.nodup_cons.mp hrest).1

end

/-- What the slab allocator serves is small, and of a class that is large enough. -/
theorem trySlab_served {s : State} {n frame : Nat} (hslab : s.slab.Inv) (hframe : Slab.FrameOk s.slab frame)
    (h : (trySlab s n frame).1 ≠ 0) :
    n ≤ slabMaxObj ∧ (newAlloc s n frame (trySlab s n frame).1).InSlab (trySlab s n frame).2 := by
  unfold trySlab at h ⊢
  by_cases hle : n ≤ slabMaxObj
  · rw [if_pos hle] at h ⊢
    exact ⟨hle, (Slab.slabAlloc_spec hslab n hframe).2.2 h⟩
  · rw [if_neg hle] at h
    exact absurd rfl h

/-- **The size that `kmalloc` gives, and when it is enough.**  For any heap, any 32-bit size and whatever
    the frame allocator answers: a pointer that is returned has the bytes asked for, unless the size is
    above 0xFFFFFFF0 and there is a free block, or memory for one. -/
theorem kmalloc_fits_iff (s : State) (size : UInt32) (frame grow : Nat) (hslab : s.slab.Inv)
    (hframe : Slab.FrameOk s.slab frame) (hdistinct : DistinctBlocks s grow) :
    ((kmalloc s size.toNat frame grow).1 ≠ 0 →
      (newAlloc s size.toNat frame (kmalloc s size.toNat frame grow).1).Fits
        (kmalloc s size.toNat frame grow).2) ↔
    (size.toNat ≤ 0xFFFFFFF0 ∨ s.blocks = [] ∨ Exhausted s grow) := by
  have hhigh : size.toNat < 2 ^ 32 := size.toNat_lt
  generalize size.toNat = n at *
  unfold kmalloc
  by_cases hrefuse : n = 0 ∨ s.blocks = []
  · -- nothing asked for, or no heap
    rw [if_pos hrefuse]
    refine ⟨fun _ => ?_, fun _ h => absurd rfl h⟩
    rcases hrefuse with hzero | hempty
    · exact .inl (by omega)
    · exact .inr (.inl hempty)
  rw [if_neg hrefuse]
  obtain ⟨hpos, hne⟩ := not_or.mp hrefuse
  by_cases hsmall : (trySlab s n frame).1 ≠ 0
  · -- the slab allocator serves it, from a class that is large enough
    obtain ⟨hle, hobj⟩ := trySlab_served hslab hframe hsmall
    rw [if_pos hsmall]
    refine ⟨fun _ => .inl (Nat.le_trans hle (by decide)), fun _ _ => ?_⟩
    unfold Alloc.Fits
    rw [if_neg (show ¬(newAlloc s n frame (trySlab s n frame).1).large by
      simpa [newAlloc] using hsmall)]
    exact hobj
  rw [if_neg hsmall]
  have hlarge : ∀ ptr, (newAlloc s n frame ptr).large := fun _ => decide_eq_true (not_not.mp hsmall)
  -- the heap behind the slab allocator has the same blocks and regions
  have hne' : ({ s with slab := (trySlab s n frame).2 } : State).blocks ≠ [] := hne
  have hdistinct' : DistinctBlocks { s with slab := (trySlab s n frame).2 } grow :=
    ⟨hdistinct.nodup, hdistinct.fresh⟩
  have hexhausted : Exhausted { s with slab := (trySlab s n frame).2 } grow ↔ Exhausted s grow :=
    ⟨fun h => ⟨h.used, h.full⟩, fun h => ⟨h.used, h.full⟩⟩
  unfold Alloc.Fits
  rw [if_pos (hlarge _)]
  by_cases hwrap : n ≤ 0xFFFFFFF0
  · refine ⟨fun _ => .inl hwrap, fun _ hptr => ?_⟩
    obtain ⟨bs, _, htake⟩ := largeAlloc_served hne' hdistinct' hptr
    obtain ⟨b, hb, hused, hbptr, hsize⟩ := takeFirstFit_isBlock htake
    exact ⟨b, hb, hused, hbptr, Nat.le_trans (le_alignUp hwrap) hsize⟩
  rw [alignUp_wraps (Nat.lt_of_not_le hwrap) hhigh]
  constructor
  · intro h
    refine .inr (.inr (hexhausted.mp ((largeAlloc_zero hne').mp ?_)))
    by_contra hptr
    obtain ⟨bs, hnodup, htake⟩ := largeAlloc_served hne' hdistinct' hptr
    obtain ⟨b, hb, hused, hbptr, hsize⟩ := h hptr
    have hsmall := takeFirstFit_zero hnodup htake hb hused hbptr
    have hsize : n ≤ b.size := hsize
    omega
  · rintro (hle | hempty | hout) hptr
    · exact absurd hle hwrap
    · exact absurd hempty hne
    · exact absurd ((largeAlloc_zero hne').mpr (hexhausted.mpr hout)) hptr

/-- A heap of one free block of 4 MB, and no slab allocator yet. -/
def oneBlock : State :=
  { blocks := [{ addr := 0x100000, size := 4194280, free := true }]
    regions := [{ phys := 0x100000, size := heapInitialSize }]
    slab := Slab.State.empty }

theorem empty_slab_inv : Slab.State.empty.Inv :=
  ⟨fun _ _ h => (nomatch h), fun _ _ h => (nomatch h), fun _ _ h => (List.not_mem_nil h).elim,
    fun _ => List.nodup_nil⟩

/-- 5000 bytes are rounded up to 5008, and found. -/
theorem kmalloc_fits_5000 : (kmalloc oneBlock 5000 0 0).1 = 0x100018 ∧
    (newAlloc oneBlock 5000 0 0x100018).Fits (kmalloc oneBlock 5000 0 0).2 := by
  have hptr : (kmalloc oneBlock 5000 0 0).1 = 0x100018 := by decide
  have hfits := (kmalloc_fits_iff oneBlock 5000 0 0 empty_slab_inv (fun h => absurd rfl h)
    ⟨List.nodup_singleton _, fun h => absurd rfl h⟩).mpr (.inl (by decide))
  exact ⟨hptr, hfits (by decide)⟩

/-- 0xFFFFFFFF bytes are rounded up to none: the pointer that is returned has a block of size 0. -/
theorem kmalloc_wraps : (kmalloc oneBlock 0xFFFFFFFF 0 0).1 = 0x100018 ∧
    (kmalloc oneBlock 0xFFFFFFFF 0 0).2.blocks = [{ addr := 0x100000, size := 0, free := false },
       { addr := 0x100018, size := 4194256, free := true }] ∧
    ¬(newAlloc oneBlock 0xFFFFFFFF 0 0x100018).Fits (kmalloc oneBlock 0xFFFFFFFF 0 0).2 := by
  have hblocks : (kmalloc oneBlock 0xFFFFFFFF 0 0).2.blocks =
      [{ addr := 0x100000, size := 0, free := false },
       { addr := 0x100018, size := 4194256, free := true }] := by decide
  refine ⟨by decide, hblocks, ?_⟩
  rintro ⟨b, hb, hused, _, hsize⟩
  rcases List.mem_cons.mp hb with rfl | hb
  · exact absurd hsize (by decide)
  · rw [List.mem_singleton.mp hb] at hused
    cases hused

end Lyth.Heap
