/-
  Which allocator `kfree` gives a block back to (`kernel/mem/heap.c`, `kernel/mem/slab.c`).

    1. The program.   `kmalloc` serves small sizes from the slab allocator and the others, or small ones
       for which there is no slab page, from the first-fit heap.  `kfree` is told only the pointer: it
       rounds it down to its page and looks for `SLAB_MAGIC` in the first word there (`slab_owns`).
    2. Specification.  `Routed`: for each allocation that the callers hold, `slab_owns` answers yes exactly
       when the slab allocator served it.
    3. Crux.  A slab page does begin with the magic word, and nobody but the slab allocator writes there.  A
       page of a heap region begins with whatever is there: the bytes of a block header are never the
       magic word (`writeBlock_word`), but the DATA OF A CALLER can be (`forged_magic_routes_to_slab`).  So
       the theorem is about runs in which no page of a region comes to begin with that word.

  Memory is one array of bytes.  The list of heap blocks is kept beside it, and every change of the list
  is stored: the code stores the fields that change, the others hold what is stored again here.
-/
import Lyth.Heap
import Lyth.SlabInvariant

namespace Lyth.Routing

open Word Bytes Run Function
open Slab (slabMaxObj slabPageSize sizeofSlabPage pageOf pageOf_objAt OnGrid Held Accounted FrameOk)
open SlabMemory (Store Represents OutsidePages slabMagic slabOwns takesFrame heldAfter)
open Heap (Block Region Alloc heapInitialSize heapGrowSize heapMaxRegions heapAlignment sizeofBlock coalesceBlocks
  regionBlock takeFirstFit markFree splitBlock Separated)

/-! ## The model -/

/-- `HEAP_BLOCK_MAGIC`. -/
def heapBlockMagic : Nat := 0x4B484550

/-- A `heap_block_t` stored at its address; bytes 12 to 15 of it are padding. -/
def writeBlock (m : Mem) (b : Block) (next : Nat) : Mem :=
  let m := putLE m b.addr 4 heapBlockMagic
  let m := putLE m (b.addr + 4) 4 b.size
  let m := putLE m (b.addr + 8) 4 (if b.free then 1 else 0)
  putLE m (b.addr + 16) 8 next

/-- The address of the first block of a list, 0 if there is none. -/
def headAddr (bs : List Block) : Nat := (bs.head?.map Block.addr).getD 0

/-- The headers of a list of blocks, each with the address of the next one. -/
def writeBlocks (m : Mem) : List Block → Mem
  | [] => m
  | b :: bs => writeBlocks (writeBlock m b (headAddr bs)) bs

/-- Memory with the slab caches, the list of blocks, the region table; the allocations that the callers
    hold; and the frames that the slab allocator was given. -/
structure Machine where
  store : Store
  blocks : List Block
  regions : List Region
  live : List Alloc
  pages : List Nat

/-- The list of blocks becomes `bs`. -/
def Machine.setBlocks (w : Machine) (bs : List Block) : Machine :=
  { w with blocks := bs, store := { w.store with mem := writeBlocks w.store.mem bs } }

/-- `heap_grow()`, when `physmem_alloc_region` answers `grow`: the region is appended as one block, and
    the blocks are joined. -/
def heapGrow (w : Machine) (grow : Nat) : Option Machine :=
  if grow = 0 ∨ w.regions.length ≥ heapMaxRegions then none
  else
    let bs := w.blocks ++ [regionBlock grow heapGrowSize]
    let w' : Machine := { w with regions := w.regions ++ [{ phys := grow, size := heapGrowSize }] }
    some ((w'.setBlocks bs).setBlocks (coalesceBlocks bs))

/-- The part of `kmalloc` behind the slab allocator, for an aligned size. -/
def largeAlloc (w : Machine) (size grow : Nat) : Nat × Machine :=
  match takeFirstFit size w.blocks with
  | some r => (r.1, w.setBlocks r.2)
  | none =>
    match heapGrow w grow with
    | none => (0, w)
    | some w' =>
      match takeFirstFit size w'.blocks with
      | some r => (r.1, w'.setBlocks r.2)
      | none => (0, w')

/-- What the slab allocator answers inside `kmalloc(size)`. -/
def trySlab (w : Machine) (size frame : Nat) : Nat × Store :=
  if size ≤ slabMaxObj then SlabMemory.slabAlloc w.store size frame else (0, w.store)

/-- The machine after the slab allocator was tried. -/
def afterSlab (w : Machine) (size frame : Nat) : Machine :=
  { w with store := (trySlab w size frame).2
           pages := if decide (size ≤ slabMaxObj) && takesFrame w.store size frame then frame :: w.pages
             else w.pages }

/-- `kmalloc(size)`; `frame` and `grow` are what `physmem_alloc_frame` and `physmem_alloc_region` answer if
    they are called. -/
def kmalloc (w : Machine) (size frame grow : Nat) : Nat × Machine :=
  if size = 0 ∨ w.blocks = [] then (0, w)
  else if (trySlab w size frame).1 ≠ 0 then ((trySlab w size frame).1, afterSlab w size frame)
  else largeAlloc (afterSlab w size frame) (alignUp size heapAlignment) grow

/-- `kfree(ptr)`. -/
def kfree (w : Machine) (ptr : Nat) : Machine :=
  if ptr = 0 then w
  else if slabOwns w.store.mem ptr then { w with store := SlabMemory.slabFree w.store ptr }
  -- the magic check: a block of the list stands in front of the pointer
  else if w.blocks.any fun b => b.addr + sizeofBlock = ptr then
    (w.setBlocks (markFree ptr w.blocks)).setBlocks (coalesceBlocks (markFree ptr w.blocks))
  else w

/-- One call, or a caller's store of a byte into an allocation. -/
inductive Call
  | kmalloc (size : UInt32) (frame grow : Nat)
  | kfree (ptr : Nat)
  | store (ptr off : Nat) (v : UInt8)

/-- One step: the pointer a `kmalloc` returns (0 for the others), and the machine it leaves. -/
def step (w : Machine) : Call → Nat × Machine
  | .kmalloc size frame grow =>
    let r := kmalloc w size.toNat frame grow
    let a : Alloc := { ptr := r.1, size := size.toNat, large := decide ((trySlab w size.toNat frame).1 = 0) }
    (r.1, { r.2 with live := if r.1 = 0 then w.live else a :: w.live })
  | .kfree ptr => (0, { kfree w ptr with live := w.live.filter fun a => a.ptr ≠ ptr })
  | .store ptr off v => (0, { w with store := { w.store with mem := update w.store.mem (ptr + off) v } })

/-- `heap_init()` on memory `m`, when `physmem_alloc_region` answers `phys`. -/
def heapInit (m : Mem) (phys : Nat) : Machine :=
  if phys = 0 then
    { store := { mem := m, ready := false, partialHead := fun _ => 0, fullHead := fun _ => 0 }
      blocks := [], regions := [], live := [], pages := [] }
  else
    { store := SlabMemory.slabInit (writeBlocks m [regionBlock phys heapInitialSize])
      blocks := [regionBlock phys heapInitialSize]
      regions := [{ phys, size := heapInitialSize }]
      live := []
      pages := [] }

/-! ## Specification -/

/-- **`slab_owns` tells the two allocators apart**, for every allocation held. -/
def Routed (w : Machine) : Prop := ∀ a ∈ w.live, slabOwns w.store.mem a.ptr ↔ a.large = false

/-- `size` bytes from `phys` are page-aligned memory below 4 GB that neither allocator has. -/
structure Unused (w : Machine) (phys size : Nat) : Prop where
  aligned : phys % slabPageSize = 0
  below : phys + size ≤ 2 ^ 32
  regions : ∀ r ∈ w.regions, Tiling.Apart phys (phys + size) r.phys (r.phys + r.size)
  pages : ∀ base ∈ w.pages, Tiling.Apart phys (phys + size) base (base + slabPageSize)

/-- What the frame allocator and the callers promise: memory that is handed out is used nowhere else, only
    live pointers are freed, and callers store into what they asked for. -/
def Legal (w : Machine) : Call → Prop
  | .kmalloc _ frame grow =>
    (frame ≠ 0 → Unused w frame slabPageSize) ∧ (grow ≠ 0 → Unused w grow heapGrowSize) ∧
    (frame ≠ 0 → grow ≠ 0 → Tiling.Apart frame (frame + slabPageSize) grow (grow + heapGrowSize))
  | .kfree ptr => ∃ a ∈ w.live, a.ptr = ptr
  | .store ptr off _ => ∃ a ∈ w.live, a.ptr = ptr ∧ off < a.size

/-- No page that starts in the range begins with `SLAB_MAGIC`. -/
def Clean (m : Mem) (lo hi : Nat) : Prop :=
  ∀ q, q % slabPageSize = 0 → lo ≤ q → q < hi → getLE m q 4 ≠ slabMagic

/-- `kmalloc(size)` reaches the point where a new region is appended to the list. -/
def Grows (w : Machine) (size frame grow : Nat) : Prop :=
  size ≠ 0 ∧ w.blocks ≠ [] ∧ (trySlab w size frame).1 = 0 ∧
    takeFirstFit (alignUp size heapAlignment) w.blocks = none ∧ grow ≠ 0 ∧ w.regions.length < heapMaxRegions

/-- The conditions: no page of memory that the heap grows by begins with the magic word, and no store into a
    heap block makes one begin with it; sizes do not wrap, and blocks of different regions are not joined
    (the conditions under which heap blocks are apart from each other and from the slab pages). -/
def Sound (w : Machine) : Call → Prop
  | .kmalloc size frame grow =>
    size.toNat ≤ 0xFFFFFFF0 ∧
    (Grows w size.toNat frame grow → Clean w.store.mem grow (grow + heapGrowSize) ∧
      Separated (w.regions ++ [{ phys := grow, size := heapGrowSize }])
        (w.blocks ++ [regionBlock grow heapGrowSize]))
  | .kfree ptr => (∃ a ∈ w.live, a.ptr = ptr ∧ a.large) → Separated w.regions (markFree ptr w.blocks)
  | .store ptr off v => (∃ a ∈ w.live, a.ptr = ptr ∧ a.large) →
    getLE (update w.store.mem (ptr + off) v) (pageOf (ptr + off)) 4 ≠ slabMagic

/-! ## Headers in memory -/

section

variable {m : Mem} {b : Block} {bs : List Block} {next q x : Nat}

/-- A store into memory next to the word, or over the whole of it. -/
theorem word_putLE {a n v : Nat} (h : getLE m q 4 ≠ slabMagic)
    (hcase : (a = q ∧ 4 ≤ n ∧ v % 2 ^ 32 ≠ slabMagic) ∨ Apart a n q 4) :
    getLE (putLE m a n v) q 4 ≠ slabMagic := by
  rcases hcase with ⟨rfl, hn, hv⟩ | hapart
  · have hdigits : getLE (putLE m a n v) a 4 = v % 256 ^ 4 := by
      apply getLE_of_digits
      intro i hi
      rw [putLE, if_pos ⟨by omega, by omega⟩, Nat.add_sub_cancel_left]
    rwa [hdigits]
  · rwa [getLE_putLE_of_apart hapart]

/-- **The bytes of a block header never read as the magic word** at the start of a page: blocks are aligned
    to 8 bytes, and none of the words there can be `SLAB_MAGIC`. -/
theorem writeBlock_word (hq : q % 8 = 0) (hb : b.addr % 8 = 0) (hnext : next % 8 = 0)
    (h : getLE m q 4 ≠ slabMagic) : getLE (writeBlock m b next) q 4 ≠ slabMagic := by
  have hmagic : heapBlockMagic % 2 ^ 32 ≠ slabMagic := by decide
  have hfree : (if b.free then 1 else 0) % 2 ^ 32 ≠ slabMagic := by cases b.free <;> decide
  have hptr : next % 2 ^ 32 ≠ slabMagic := by
    unfold slabMagic
    omega
  refine word_putLE (word_putLE (word_putLE (word_putLE h ?_) ?_) ?_) ?_
  · by_cases heq : b.addr = q
    · exact .inl ⟨heq, Nat.le_refl _, hmagic⟩
    · exact .inr (by unfold Apart; omega)
  · exact .inr (by unfold Apart; omega)
  · by_cases heq : b.addr + 8 = q
    · exact .inl ⟨heq, Nat.le_refl _, hfree⟩
    · exact .inr (by unfold Apart; omega)
  · by_cases heq : b.addr + 16 = q
    · exact .inl ⟨heq, by omega, hptr⟩
    · exact .inr (by unfold Apart; omega)

/-- Addresses and sizes of blocks are multiples of 8. -/
def Grain (bs : List Block) : Prop := ∀ b ∈ bs, b.addr % 8 = 0 ∧ b.size % 8 = 0

theorem Grain.headAddr (h : Grain bs) : headAddr bs % 8 = 0 := by
  cases bs with
  | nil => rfl
  | cons b bs => exact (h b (.head _)).1

theorem writeBlocks_word (hbs : Grain bs) (hq : q % 8 = 0) (h : getLE m q 4 ≠ slabMagic) :
    getLE (writeBlocks m bs) q 4 ≠ slabMagic := by
  induction bs generalizing m with
  | nil => exact h
  | cons b bs ih =>
    obtain ⟨hb, hrest⟩ := List.forall_mem_cons.mp hbs
    exact ih hrest (writeBlock_word hq hb.1 (Grain.headAddr hrest) h)

theorem writeBlocks_outside (hx : ∀ b ∈ bs, ¬(b.addr ≤ x ∧ x < b.addr + sizeofBlock)) :
    writeBlocks m bs x = m x := by
  induction bs generalizing m with
  | nil => rfl
  | cons b bs ih =>
    have hb := hx b (.head _)
    unfold sizeofBlock at hb
    rw [writeBlocks, ih fun c hc => hx c (List.mem_cons_of_mem _ hc)]
    unfold writeBlock
    rw [putLE_of_not_mem (by omega), putLE_of_not_mem (by omega), putLE_of_not_mem (by omega),
      putLE_of_not_mem (by omega)]

theorem grain_coalesceFrom (hb : b.addr % 8 = 0 ∧ b.size % 8 = 0) (hbs : Grain bs) :
    Grain (Heap.coalesceFrom b bs) := by
  induction bs generalizing b with
  | nil => exact List.forall_mem_singleton.mpr hb
  | cons b' bs ih =>
    obtain ⟨hb', hrest⟩ := List.forall_mem_cons.mp hbs
    rw [Heap.coalesceFrom]
    split
    · refine ih ⟨hb.1, ?_⟩ hrest
      show u32 (b.size + (sizeofBlock + b'.size)) % 8 = 0
      unfold u32 sizeofBlock
      omega
    · exact List.forall_mem_cons.mpr ⟨hb, ih hb' hrest⟩

theorem Grain.coalesceBlocks (h : Grain bs) : Grain (coalesceBlocks bs) := by
  cases bs with
  | nil => exact h
  | cons b bs =>
    exact grain_coalesceFrom (h b (.head _)) fun c hc => h c (.tail _ hc)

theorem Grain.markFree (h : Grain bs) (ptr : Nat) : Grain (markFree ptr bs) := by
  intro c hc
  obtain ⟨b, hb, rfl⟩ := List.mem_map.mp hc
  split
  · exact h b hb
  · exact h b hb

theorem Grain.append_region (h : Grain bs) {phys size : Nat} (hphys : phys % 8 = 0) (hsize : size % 8 = 0)
    (hroom : sizeofBlock ≤ size) : Grain (bs ++ [regionBlock phys size]) := by
  refine List.forall_mem_append.mpr ⟨h, List.forall_mem_singleton.mpr ⟨hphys, ?_⟩⟩
  show u32 (size - sizeofBlock) % 8 = 0
  unfold u32 sizeofBlock at *
  omega

theorem Grain.takeFirstFit (h : Grain bs) {size : Nat} (hsize : size % 8 = 0) {r : Nat × List Block}
    (htake : takeFirstFit size bs = some r) : Grain r.2 := by
  obtain ⟨pre, b, post, rfl, _, hfit, rfl⟩ := Heap.takeFirstFit_some htake
  obtain ⟨hpre, hpost⟩ := List.forall_mem_append.mp h
  obtain ⟨hb, hpost⟩ := List.forall_mem_cons.mp hpost
  unfold splitBlock
  split
  · exact List.forall_mem_append.mpr ⟨hpre, List.forall_mem_cons.mpr ⟨hb, hpost⟩⟩
  · refine List.forall_mem_append.mpr ⟨hpre, List.forall_mem_cons.mpr ⟨⟨hb.1, hsize⟩, List.forall_mem_cons.mpr ⟨?_, hpost⟩⟩⟩
    show (b.addr + sizeofBlock + size) % 8 = 0 ∧ u32 (b.size + 2 ^ 32 - size - sizeofBlock) % 8 = 0
    unfold u32 sizeofBlock
    omega

end

/-! ## The invariant -/

/-- The heap of `Heap`, with the lists of the slab allocator in place of its bytes. -/
def Machine.heap (w : Machine) (t : Slab.State) : Heap.State := { blocks := w.blocks, regions := w.regions, slab := t }

/-- The heap with the allocations that the callers hold. -/
def Machine.abs (w : Machine) (t : Slab.State) : Heap.World := { heap := w.heap t, live := w.live }

/-- The allocations served by the slab allocator. -/
def smalls (live : List Alloc) : List Held :=
  (live.filter fun a => !a.large).map fun a => { ptr := a.ptr, size := a.size }

theorem mem_smalls {live : List Alloc} {a : Alloc} (ha : a ∈ live) (hsmall : a.large = false) :
    (⟨a.ptr, a.size⟩ : Held) ∈ smalls live :=
  List.mem_map.mpr ⟨a, List.mem_filter.mpr ⟨ha, by rw [hsmall]; rfl⟩, rfl⟩

/-- Memory holds the slab pages of `t`, and no page of a region begins with the magic word. -/
structure Good (w : Machine) (t : Slab.State) (held : List Held) : Prop where
  represents : Represents w.store t
  accounted : Accounted t held
  heap : (w.heap t).Inv
  grain : Grain w.blocks
  aligned : ∀ r ∈ w.regions, r.phys % slabPageSize = 0
  clean : ∀ r ∈ w.regions, Clean w.store.mem r.phys (r.phys + r.size)

/-- The invariant of a run. -/
structure Inv (w : Machine) (t : Slab.State) : Prop where
  good : Good w t (smalls w.live)
  world : (w.abs t).Inv
  pages : ∀ base, base ∈ w.pages ↔ (t.header base).isSome

section

variable {w w' : Machine} {t : Slab.State} {held : List Held} {bs : List Block} {rs : List Region} {m : Mem}

/-- Headers of blocks inside the regions meet no slab page. -/
theorem represents_writeBlocks (hr : Represents w.store t) (ht : Accounted t held)
    (hin : ∀ b ∈ bs, ∃ r ∈ rs, r.phys ≤ b.addr ∧ b.stop ≤ r.phys + r.size)
    (hapart : ∀ base page, t.header base = some page → ∀ r ∈ rs,
      Tiling.Apart base (base + slabPageSize) r.phys (r.phys + r.size)) :
    Represents (w.setBlocks bs).store t := by
  refine hr.congr ht fun x hx => writeBlocks_outside fun b hb hbx => hx fun base page hpage hpx => ?_
  obtain ⟨r, hr', hlo, hhi⟩ := hin b hb
  rw [Block.stop] at hhi
  rcases hapart base page hpage r hr' with h | h <;> omega

theorem clean_writeBlocks {lo hi : Nat} (h : Clean m lo hi) (hbs : Grain bs) : Clean (writeBlocks m bs) lo hi := by
  intro q hq hlo hhi
  refine writeBlocks_word hbs ?_ (h q hq hlo hhi)
  unfold slabPageSize at hq
  omega

/-- Storing a list of blocks that the heap may have keeps the invariant. -/
theorem Good.setBlocks (h : Good w t held) (hheap : ((w.setBlocks bs).heap t).Inv) (hgrain : Grain bs) :
    Good (w.setBlocks bs) t held :=
  ⟨represents_writeBlocks h.represents h.accounted (fun _ hb => hheap.block_in_region hb) hheap.pages_apart,
    h.accounted, hheap, hgrain, h.aligned, fun r hr => clean_writeBlocks (h.clean r hr) hgrain⟩

variable {size ptr : Nat}

theorem Good.take (h : Good w t held) (hsize : size % 8 = 0) {r : Nat × List Block}
    (htake : takeFirstFit size w.blocks = some r) : Good (w.setBlocks r.2) t held :=
  h.setBlocks (Heap.take_spec h.heap htake).1 (h.grain.takeFirstFit hsize htake)

/-- Growing on memory is growing on lists. -/
theorem heapGrow_heap (w : Machine) (t : Slab.State) (grow : Nat) :
    Heap.heapGrow (w.heap t) grow = (heapGrow w grow).map fun w' => w'.heap t := by
  unfold Heap.heapGrow heapGrow
  by_cases hzero : grow = 0
  · rw [if_pos hzero, if_pos (.inl hzero)]
    rfl
  rw [if_neg hzero]
  unfold Heap.heapAddRegion
  by_cases hfull : w.regions.length ≥ heapMaxRegions
  · have hrefused : (w.heap t).regions.length ≥ heapMaxRegions ∨ heapGrowSize ≤ sizeofBlock := .inl hfull
    rw [if_pos hrefused, if_pos (.inr hfull)]
    rfl
  have hroom : ¬((w.heap t).regions.length ≥ heapMaxRegions ∨ heapGrowSize ≤ sizeofBlock) :=
    not_or.mpr ⟨hfull, by decide⟩
  rw [if_neg hroom, if_neg (not_or.mpr ⟨hzero, hfull⟩)]
  cases hblocks : w.blocks with
  | nil =>
    simp only [Machine.heap, hblocks]
    rfl
  | cons b bs =>
    simp only [Machine.heap, hblocks]
    rfl

theorem heapGrow_some {grow : Nat} (h : heapGrow w grow = some w') : (grow ≠ 0 ∧ w.regions.length < heapMaxRegions) ∧
    w' = (Machine.setBlocks { w with regions := w.regions ++ [{ phys := grow, size := heapGrowSize }] }
      (w.blocks ++ [regionBlock grow heapGrowSize])).setBlocks
        (coalesceBlocks (w.blocks ++ [regionBlock grow heapGrowSize])) := by
  unfold heapGrow at h
  split at h
  · cases h
  · rename_i hroom
    rw [not_or, not_le] at hroom
    exact ⟨hroom, (Option.some.inj h).symm⟩

/-- The memory that the heap grows by is clean, and no blocks of different regions are joined. -/
def Suits (w : Machine) (grow : Nat) : Prop :=
  Clean w.store.mem grow (grow + heapGrowSize) ∧
    Separated (w.regions ++ [{ phys := grow, size := heapGrowSize }]) (w.blocks ++ [regionBlock grow heapGrowSize])

/-- **Growing keeps the invariant**, if the new memory is clean and no blocks of different regions are
    joined. -/
theorem Good.grow (h : Good w t held) {grow : Nat} (hunused : Heap.Unused (w.heap t) grow heapGrowSize)
    (hsuits : Suits w grow) (hgrow : heapGrow w grow = some w') : Good w' t held := by
  have hheap : Heap.heapAddRegion (w.heap t) grow heapGrowSize = some (w'.heap t) := by
    have h := heapGrow_heap w t grow
    rw [hgrow, Heap.heapGrow] at h
    split at h
    · cases h
    · exact h
  obtain ⟨hinv, _, _⟩ := Heap.heapAddRegion_spec h.heap hunused (by decide) hsuits.2 hheap
  have hphys : grow % 8 = 0 := by
    have := hunused.aligned
    unfold slabPageSize at this
    omega
  have hgrain : Grain (w.blocks ++ [regionBlock grow heapGrowSize]) :=
    h.grain.append_region hphys (by decide) (by decide)
  obtain ⟨-, rfl⟩ := heapGrow_some hgrow
  -- the block of the new region lies in it, the others in theirs
  have hin : ∀ b ∈ w.blocks ++ [regionBlock grow heapGrowSize],
      ∃ r ∈ w.regions ++ [{ phys := grow, size := heapGrowSize }], r.phys ≤ b.addr ∧ b.stop ≤ r.phys + r.size := by
    refine List.forall_mem_append.mpr ⟨fun b hb => ?_, List.forall_mem_singleton.mpr ?_⟩
    · obtain ⟨r, hr, hle⟩ := h.heap.block_in_region hb
      exact ⟨r, List.mem_append_left _ hr, hle⟩
    · refine ⟨_, List.mem_append_right _ (List.mem_singleton_self _), Nat.le_refl _, ?_⟩
      rw [Heap.regionBlock_stop (by decide) (by decide)]
  have hfirst : Represents ((w.setBlocks (w.blocks ++ [regionBlock grow heapGrowSize])).store) t :=
    represents_writeBlocks h.represents h.accounted hin hinv.pages_apart
  have hrep : Represents (((w.setBlocks (w.blocks ++ [regionBlock grow heapGrowSize])).setBlocks
      (coalesceBlocks (w.blocks ++ [regionBlock grow heapGrowSize]))).store) t :=
    represents_writeBlocks hfirst h.accounted (fun _ hb => hinv.block_in_region hb) hinv.pages_apart
  refine ⟨hrep, h.accounted, hinv, hgrain.coalesceBlocks, ?_, fun r hr => ?_⟩
  · exact List.forall_mem_append.mpr ⟨h.aligned, List.forall_mem_singleton.mpr hunused.aligned⟩
  · refine clean_writeBlocks (clean_writeBlocks ?_ hgrain) hgrain.coalesceBlocks
    exact List.forall_mem_append.mpr ⟨h.clean, List.forall_mem_singleton.mpr hsuits.1⟩ r hr

/-- The large path on memory is that on lists. -/
theorem largeAlloc_heap (w : Machine) (t : Slab.State) (size grow : Nat) :
    Heap.largeAlloc (w.heap t) size grow = ((largeAlloc w size grow).1, (largeAlloc w size grow).2.heap t) ∧
      (largeAlloc w size grow).2.live = w.live ∧ (largeAlloc w size grow).2.pages = w.pages := by
  unfold Heap.largeAlloc largeAlloc
  rw [heapGrow_heap]
  show (match takeFirstFit size w.blocks with | some r => _ | none => _) = _ ∧ _
  cases takeFirstFit size w.blocks with
  | some r => exact ⟨rfl, rfl, rfl⟩
  | none =>
    cases hgrow : heapGrow w grow with
    | none => exact ⟨rfl, rfl, rfl⟩
    | some w' =>
      have hfields : w'.live = w.live ∧ w'.pages = w.pages := by
        rw [(heapGrow_some hgrow).2]
        exact ⟨rfl, rfl⟩
      dsimp only [Option.map_some]
      show (match takeFirstFit size w'.blocks with | some r => _ | none => _) = _ ∧ _
      cases takeFirstFit size w'.blocks with
      | some r => exact ⟨rfl, hfields⟩
      | none => exact ⟨rfl, hfields⟩

/-- **The large path keeps the invariant.** -/
theorem Good.largeAlloc (h : Good w t held) {grow : Nat} (hsize : size % 8 = 0)
    (hunused : grow ≠ 0 → Heap.Unused (w.heap t) grow heapGrowSize)
    (hgrows : takeFirstFit size w.blocks = none → grow ≠ 0 → w.regions.length < heapMaxRegions → Suits w grow) :
    Good (largeAlloc w size grow).2 t held := by
  unfold Routing.largeAlloc
  cases hfit : takeFirstFit size w.blocks with
  | some r => exact h.take hsize hfit
  | none =>
    cases hgrow : heapGrow w grow with
    | none => exact h
    | some w' =>
      obtain ⟨⟨hzero, hroom⟩, -⟩ := heapGrow_some hgrow
      have hgood := h.grow (hunused hzero) (hgrows hfit hzero hroom) hgrow
      dsimp only
      cases hfit' : takeFirstFit size w'.blocks with
      | some r => exact hgood.take hsize hfit'
      | none => exact hgood

/-! ## The slab path -/

/-- The range meets no slab page. -/
def Clear (t : Slab.State) (lo hi : Nat) : Prop :=
  ∀ base page, t.header base = some page → Tiling.Apart base (base + slabPageSize) lo hi

/-- The first word of a page that starts in the range is in no slab page. -/
theorem Clear.outside {lo hi : Nat} (h : Clear t lo hi) (ht : Accounted t held) {q x : Nat} (hq : q % slabPageSize = 0)
    (hlo : lo ≤ q) (hhi : q < hi) (h1 : q ≤ x) (h2 : x < q + 4) : OutsidePages t x := by
  intro base page hpage hin
  have hbase := (ht.aligned base page hpage).1
  have hapart := h base page hpage
  unfold slabPageSize at *
  rcases hapart with h | h <;> omega

/-- Memory that does not change at the start of pages stays clean. -/
theorem Clean.congr {m' : Mem} {lo hi : Nat} (h : Clean m lo hi)
    (hsame : ∀ x q, q % slabPageSize = 0 → lo ≤ q → q < hi → q ≤ x → x < q + 4 → m' x = m x) : Clean m' lo hi := by
  intro q hq hlo hhi
  have hword : getLE m' q 4 = getLE m q 4 := getLE_congr fun x h1 h2 => hsame x q hq hlo hhi h1 h2
  rw [hword]
  exact h q hq hlo hhi

variable {frame : Nat}

/-- A frame that the heap knows nothing of is no slab page. -/
theorem frameOk_of_unused (hunused : frame ≠ 0 → Heap.Unused (w.heap t) frame slabPageSize) :
    FrameOk t frame := by
  intro hne
  obtain ⟨haligned, hbelow, _, hpages⟩ := hunused hne
  refine ⟨haligned, by unfold slabPageSize at hbelow; omega, ?_⟩
  cases hheader : t.header frame with
  | none => rfl
  | some page =>
    rcases hpages frame page hheader with h | h <;> unfold slabPageSize at h <;> omega

/-- What the slab allocator answers inside `kmalloc`, on memory and on lists. -/
theorem Good.trySlab_agrees (h : Good w t held) (size : Nat) (hframe : FrameOk t frame) :
    SlabMemory.Agrees held size (trySlab w size frame) (Heap.trySlab (w.heap t) size frame) := by
  unfold trySlab Heap.trySlab
  by_cases hsmall : size ≤ slabMaxObj
  · rw [if_pos hsmall, if_pos hsmall]
    exact SlabMemory.slabAlloc_agrees h.represents h.accounted hframe
  · rw [if_neg hsmall, if_neg hsmall]
    exact ⟨rfl, h.represents, h.accounted⟩

/-- The slab path stores into slab pages, or into the frame it is given. -/
theorem Good.clean_trySlab (h : Good w t held) {lo hi : Nat} (size : Nat)
    (hunused : frame ≠ 0 → Heap.Unused (w.heap t) frame slabPageSize) (hclear : Clear t lo hi)
    (hapart : frame ≠ 0 → Tiling.Apart frame (frame + slabPageSize) lo hi) (hclean : Clean w.store.mem lo hi) :
    Clean (trySlab w size frame).2.mem lo hi := by
  refine hclean.congr fun x q hq hlo hhi h1 h2 => ?_
  unfold trySlab
  split
  · have hout := hclear.outside h.accounted hq hlo hhi h1 h2
    refine SlabMemory.slabAlloc_outside h.represents h.accounted hout fun hne => ?_
    obtain ⟨haligned, hbelow, _, _⟩ := hunused hne
    have hlohi := hapart hne
    unfold slabPageSize at *
    rcases hlohi with h | h <;> omega
  · rfl

/-- **The slab path keeps the invariant.** -/
theorem Good.afterSlab (h : Good w t held) (size : Nat)
    (hunused : frame ≠ 0 → Heap.Unused (w.heap t) frame slabPageSize) :
    Good (afterSlab w size frame) (Heap.trySlab (w.heap t) size frame).2 (heldAfter held size (trySlab w size frame).1) := by
  obtain ⟨_, hrep, hacc⟩ := h.trySlab_agrees size (frameOk_of_unused hunused)
  refine ⟨hrep, hacc, (Heap.trySlab_spec h.heap size hunused).1, h.grain, h.aligned, fun r hr => ?_⟩
  exact h.clean_trySlab size hunused (fun base page hpage => h.heap.pages_apart base page hpage r hr)
    (fun hne => (hunused hne).regions r hr) (h.clean r hr)

/-- The pages after the slab path. -/
theorem pages_afterSlab (h : Good w t held) (hpages : ∀ base, base ∈ w.pages ↔ (t.header base).isSome)
    (base : Nat) : base ∈ (afterSlab w size frame).pages ↔ ((Heap.trySlab (w.heap t) size frame).2.header base).isSome := by
  unfold afterSlab Heap.trySlab
  by_cases hsmall : size ≤ slabMaxObj
  · rw [if_pos hsmall]
    show _ ↔ ((Slab.slabAlloc t size frame).2.header base).isSome
    rw [SlabMemory.isSome_slabAlloc h.represents]
    by_cases htakes : takesFrame w.store size frame
    · simp [hsmall, htakes, hpages, or_comm]
    · simp [htakes, hpages]
  · simp only [hsmall]
    exact hpages base

/-! ## `slab_owns` -/

/-- **In a good state `slab_owns` is right** about every allocation held. -/
theorem Inv.routed (hw : Inv w t) : Routed w := by
  intro a ha
  cases hlarge : a.large with
  | true =>
    -- the page begins inside the region of the block, where no page begins with the magic word
    obtain ⟨r, hr, hlo, hhi⟩ := hw.world.large_in_region ha hlarge
    have hsize := hw.world.nonempty a ha
    have hbelow := (hw.world.heap.bounded r hr).2
    have haligned := hw.good.aligned r hr
    have hround : pageOf a.ptr = a.ptr / 4096 * 4096 := alignDown_page (by omega)
    have hclean := hw.good.clean r hr (pageOf a.ptr)
    unfold slabPageSize at haligned hclean
    have hword := hclean (by omega) (by omega) (by omega)
    have hfalse : slabOwns w.store.mem a.ptr = false := by
      unfold slabOwns
      split
      · rfl
      · exact decide_eq_false hword
    rw [hfalse]
    simp
  | false =>
    obtain ⟨base, page, hpage, hgrid, _⟩ := hw.good.accounted.held _ (mem_smalls ha hlarge)
    obtain ⟨haligned, hpos, hlt⟩ := hw.good.accounted.aligned base page hpage
    have hround : pageOf a.ptr = base := pageOf_objAt hgrid.objAt haligned hlt
    have hne : a.ptr ≠ 0 := (SlabMemory.obj_lt hw.good.accounted hpage hgrid).2
    have htrue : slabOwns w.store.mem a.ptr := by
      unfold slabOwns
      rw [if_neg hne, hround]
      exact decide_eq_true (hw.good.represents.pages base page hpage).magic
    rw [htrue]
    simp

/-! ## One step -/

theorem smalls_filter (live : List Alloc) (ptr : Nat) :
    smalls (live.filter fun a => a.ptr ≠ ptr) = (smalls live).filter fun a => a.ptr ≠ ptr := by
  unfold smalls
  rw [List.filter_map, List.filter_filter, List.filter_filter]
  congr 1
  refine List.filter_congr fun a _ => ?_
  exact Bool.and_comm _ _

theorem Inv.unused (hw : Inv w t) {phys : Nat} (h : Unused w phys size) : Heap.Unused (w.heap t) phys size := by
  refine ⟨h.aligned, h.below, h.regions, fun base page hpage => h.pages base ((hw.pages base).mpr ?_)⟩
  have hpage : t.header base = some page := hpage
  rw [hpage]
  rfl

/-- The objects held after a `kmalloc` that answered `ptr`, and inside which the slab allocator answered
    `obj`. -/
def heldNow (held : List Held) (size ptr obj : Nat) : List Held :=
  if ptr ≠ 0 ∧ obj ≠ 0 then ⟨ptr, size⟩ :: held else held

/-- **`kmalloc` on memory is `kmalloc` on lists**, and keeps the invariant. -/
theorem Good.kmalloc (h : Good w t held) (hpages : ∀ base, base ∈ w.pages ↔ (t.header base).isSome) (size : Nat)
    {grow : Nat} (hframe : frame ≠ 0 → Heap.Unused (w.heap t) frame slabPageSize)
    (hgrow : grow ≠ 0 → Heap.Unused (w.heap t) grow heapGrowSize)
    (hapart : frame ≠ 0 → grow ≠ 0 → Tiling.Apart frame (frame + slabPageSize) grow (grow + heapGrowSize))
    (hgrows : Grows w size frame grow → Suits w grow) :
    ∃ t', Heap.kmalloc (w.heap t) size frame grow
        = ((kmalloc w size frame grow).1, (kmalloc w size frame grow).2.heap t') ∧
      Good (kmalloc w size frame grow).2 t'
        (heldNow held size (kmalloc w size frame grow).1 (trySlab w size frame).1) ∧
      ∀ base, base ∈ (kmalloc w size frame grow).2.pages ↔ (t'.header base).isSome := by
  unfold Heap.kmalloc Routing.kmalloc
  by_cases hrefuse : size = 0 ∨ w.blocks = []
  · have hrefuse' : size = 0 ∨ (w.heap t).blocks = [] := hrefuse
    simp only [if_pos hrefuse, if_pos hrefuse']
    exact ⟨t, rfl, h, hpages⟩
  have hrefuse' : ¬(size = 0 ∨ (w.heap t).blocks = []) := hrefuse
  obtain ⟨hpos, hblocks⟩ := not_or.mp hrefuse
  have hans : (Heap.trySlab (w.heap t) size frame).1 = (trySlab w size frame).1 :=
    (h.trySlab_agrees size (frameOk_of_unused hframe)).answer.symm
  have hgood := h.afterSlab size hframe
  refine ⟨(Heap.trySlab (w.heap t) size frame).2, ?_⟩
  simp only [if_neg hrefuse, if_neg hrefuse', hans]
  by_cases hslab : (trySlab w size frame).1 ≠ 0
  · simp only [if_pos hslab]
    refine ⟨rfl, ?_, pages_afterSlab h hpages⟩
    rw [heldNow, if_pos ⟨hslab, hslab⟩]
    rwa [heldAfter, if_neg hslab] at hgood
  have hzero : (trySlab w size frame).1 = 0 := not_not.mp hslab
  simp only [if_neg hslab]
  obtain ⟨hlarge, _, hsame⟩ := largeAlloc_heap (Routing.afterSlab w size frame)
    (Heap.trySlab (w.heap t) size frame).2 (alignUp size heapAlignment) grow
  refine ⟨hlarge, ?_, fun base => ?_⟩
  · rw [heldNow, if_neg fun hboth => hslab hboth.2]
    rw [heldAfter, if_pos hzero] at hgood
    have hext := (Heap.trySlab_spec h.heap size hframe).2.1
    refine hgood.largeAlloc ?_ (fun hne => ?_) fun hfit hne hcount => ?_
    · rw [Heap.alignUp_heap]
      omega
    · -- the page that the slab allocator may just have taken is apart from the new region
      exact (hgrow hne).afterSlab hext fun hne' => hapart hne' hne
    · obtain ⟨hclean, hsep⟩ := hgrows ⟨hpos, hblocks, hzero, hfit, hne, hcount⟩
      refine ⟨h.clean_trySlab size hframe (fun base page hpage => ?_) (fun hne' => hapart hne' hne) hclean, hsep⟩
      exact ((hgrow hne).pages base page hpage).symm
  · rw [hsame]
    exact pages_afterSlab h hpages base

/-- **`kmalloc` keeps the invariant.** -/
theorem step_kmalloc_inv (hw : Inv w t) {size : UInt32} {grow : Nat}
    (hlegal : Legal w (.kmalloc size frame grow)) (hsound : Sound w (.kmalloc size frame grow)) :
    ∃ t', Inv (step w (.kmalloc size frame grow)).2 t' := by
  obtain ⟨hframe, hgrow, hapart⟩ := hlegal
  obtain ⟨hwrap, hgrows⟩ := hsound
  have hunused : frame ≠ 0 → Heap.Unused (w.heap t) frame slabPageSize := fun hne => hw.unused (hframe hne)
  have hans : (Heap.trySlab (w.heap t) size.toNat frame).1 = (trySlab w size.toNat frame).1 :=
    (hw.good.trySlab_agrees size.toNat (frameOk_of_unused hunused)).answer.symm
  -- the heap of `Heap` is told the same, so it keeps its invariant
  have hworld : (Heap.step (w.abs t) (.kmalloc size frame grow)).2.Inv := by
    refine Heap.step_kmalloc_inv hw.world ⟨hunused, fun hne => hw.unused (hgrow hne), hapart⟩ ⟨hwrap, fun hg => ?_⟩
    obtain ⟨hpos, hblocks, hzero, hfit, hne, hcount⟩ := hg
    exact (hgrows ⟨hpos, hblocks, hans.symm.trans hzero, hfit, hne, hcount⟩).2
  obtain ⟨t', heq, hgood, hpages⟩ := hw.good.kmalloc hw.pages size.toNat hunused
    (fun hne => hw.unused (hgrow hne)) hapart hgrows
  refine ⟨t', ⟨?_, ?_, hpages⟩⟩
  · -- the callers hold one more object exactly if the slab allocator served the call
    refine { hgood with accounted := ?_ }
    have hacc := hgood.accounted
    show Accounted t' (smalls (if (kmalloc w size.toNat frame grow).1 = 0 then w.live else _ :: w.live))
    rw [heldNow] at hacc
    by_cases hptr : (kmalloc w size.toNat frame grow).1 = 0
    · rw [if_neg fun h => h.1 hptr] at hacc
      rwa [if_pos hptr]
    rw [if_neg hptr]
    by_cases hobj : (trySlab w size.toNat frame).1 = 0
    · rw [if_neg fun h => h.2 hobj] at hacc
      simp only [hobj]
      exact hacc
    · rw [if_pos ⟨hptr, hobj⟩] at hacc
      simp only [hobj]
      exact hacc
  · have hstep : (Heap.step (w.abs t) (.kmalloc size frame grow)).2 = (step w (.kmalloc size frame grow)).2.abs t' := by
      have heq' : Heap.kmalloc (w.abs t).heap size.toNat frame grow = _ := heq
      have hans' : (Heap.trySlab (w.abs t).heap size.toNat frame).1 = _ := hans
      unfold Heap.step
      simp only [heq', Heap.newAlloc, hans']
      rfl
    rwa [← hstep]

/-- The list of blocks after a heap block was freed. -/
theorem Good.kfree_block (h : Good w t held) (hsep : Separated w.regions (markFree ptr w.blocks)) :
    Good ((w.setBlocks (markFree ptr w.blocks)).setBlocks (coalesceBlocks (markFree ptr w.blocks))) t held := by
  obtain ⟨hmark, hjoin⟩ := h.heap.freed hsep
  exact (h.setBlocks hmark (h.grain.markFree ptr)).setBlocks hjoin (h.grain.markFree ptr).coalesceBlocks

/-- **`kfree` keeps the invariant.** -/
theorem step_kfree_inv (hw : Inv w t) (hlegal : Legal w (.kfree ptr)) (hsound : Sound w (.kfree ptr)) :
    ∃ t', Inv (step w (.kfree ptr)).2 t' := by
  obtain ⟨a, ha, rfl⟩ := hlegal
  have hrouted := hw.routed a ha
  have hne : a.ptr ≠ 0 := by
    cases hlarge : a.large with
    | true =>
      obtain ⟨b, _, _, hptr, _⟩ := hw.world.large a ha hlarge
      rw [hptr, sizeofBlock]
      omega
    | false =>
      obtain ⟨base, page, _, ⟨hlo, _⟩, _⟩ := hw.world.small a ha hlarge
      unfold sizeofSlabPage at hlo
      omega
  show ∃ t', Inv { kfree w a.ptr with live := w.live.filter fun b => b.ptr ≠ a.ptr } t'
  unfold kfree
  rw [if_neg hne]
  cases hlarge : a.large with
  | false =>
    -- an object of a slab page
    rw [if_pos (hrouted.mpr hlarge)]
    have hin := mem_smalls ha hlarge
    obtain ⟨page, hpage, hrep, hout⟩ := SlabMemory.slabFree_refines hw.good.represents hw.good.accounted hin
    have hpush : Accounted (Slab.slabFree t a.ptr page) ((smalls w.live).filter fun b => b.ptr ≠ a.ptr) :=
      hw.good.accounted.push hin hpage
    obtain ⟨page', hpage', hworld⟩ := hw.world.drop_small ha hlarge
    obtain rfl : page = page' := Option.some.inj (hpage.symm.trans hpage')
    refine ⟨Slab.slabFree t a.ptr page, ⟨⟨hrep, ?_, hworld.heap, hw.good.grain, hw.good.aligned, fun r hr => ?_⟩, hworld,
      fun base => (hw.pages base).trans ?_⟩⟩
    · rwa [← smalls_filter] at hpush
    · refine (hw.good.clean r hr).congr fun x q hq hlo hhi h1 h2 => ?_
      refine hout x ?_
      exact Clear.outside (fun base page hpage => hw.good.heap.pages_apart base page hpage r hr) hw.good.accounted hq hlo
        hhi h1 h2
    · rw [SlabMemory.isSome_slabFree hpage]
  | true =>
    -- a block of the list
    have hsep := hsound ⟨a, ha, rfl, hlarge⟩
    have howns : slabOwns w.store.mem a.ptr ≠ true := fun h => by
      rw [hrouted.mp h] at hlarge
      cases hlarge
    obtain ⟨b, hb, hblock⟩ := hw.world.large a ha hlarge
    have hany : (w.blocks.any fun b => b.addr + sizeofBlock = a.ptr) :=
      List.any_eq_true.mpr ⟨b, hb, decide_eq_true hblock.2.1.symm⟩
    rw [if_neg howns, if_pos hany]
    have hgood := hw.good.kfree_block hsep
    refine ⟨t, ⟨{ hgood with accounted := ?_ }, hw.world.drop_large hsep, hw.pages⟩⟩
    show Accounted t (smalls (w.live.filter fun b => b.ptr ≠ a.ptr))
    rw [smalls_filter]
    exact hgood.accounted.filter _

/-- A store changes the first word of no page but its own. -/
theorem word_store {q x : Nat} {v : UInt8} (hq : q % slabPageSize = 0) (hx : x < 2 ^ 32) (hne : q ≠ pageOf x) :
    getLE (update m x v) q 4 = getLE m q 4 := by
  refine getLE_congr fun y h1 h2 => update_of_ne ?_ ..
  rintro rfl
  have hround : pageOf y = y / 4096 * 4096 := alignDown_page hx
  unfold slabPageSize at hq
  omega

/-- **A caller's store keeps the invariant.** -/
theorem step_store_inv (hw : Inv w t) {off : Nat} {v : UInt8} (hlegal : Legal w (.store ptr off v))
    (hsound : Sound w (.store ptr off v)) : Inv (step w (.store ptr off v)).2 t := by
  obtain ⟨a, ha, rfl, hoff⟩ := hlegal
  refine ⟨{ hw.good with represents := ?_, clean := fun r hr => ?_ }, hw.world, hw.pages⟩
  · cases hlarge : a.large with
    | false =>
      exact SlabMemory.represents_store hw.good.represents hw.good.accounted (mem_smalls ha hlarge) hoff v
    | true =>
      -- the block lies in a region, where no slab page is
      obtain ⟨r, hr, hlo, hhi⟩ := hw.world.large_in_region ha hlarge
      refine hw.good.represents.congr hw.good.accounted fun x hx => update_of_ne ?_ ..
      rintro rfl
      refine hx fun base page hpage hin => ?_
      rcases hw.good.heap.pages_apart base page hpage r hr with h | h <;> omega
  · intro q hq hlo hhi
    show getLE (update w.store.mem (a.ptr + off) v) q 4 ≠ slabMagic
    cases hlarge : a.large with
    | false =>
      -- the object lies in a slab page, which is in no region
      obtain ⟨base, page, hpage, ⟨hobj, hend⟩, hsize⟩ := hw.world.small a ha hlarge
      have hapart := hw.good.heap.pages_apart base page hpage r hr
      have hsame : getLE (update w.store.mem (a.ptr + off) v) q 4 = getLE w.store.mem q 4 := by
        refine getLE_congr fun y h1 h2 => update_of_ne ?_ ..
        rintro rfl
        unfold sizeofSlabPage at *
        rcases hapart with h | h <;> omega
      rw [hsame]
      exact hw.good.clean r hr q hq hlo hhi
    | true =>
      rcases eq_or_ne q (pageOf (a.ptr + off)) with rfl | hne
      · exact hsound ⟨a, ha, rfl, hlarge⟩
      obtain ⟨b, hb, hblock⟩ := hw.world.large a ha hlarge
      obtain ⟨r', hr', _, hto'⟩ := hw.world.heap.block_in_region hb
      obtain ⟨_, hto⟩ := hblock.bounds
      have hbelow := (hw.world.heap.bounded r' hr').2
      rw [word_store hq (by omega) hne]
      exact hw.good.clean r hr q hq hlo hhi

/-- The invariant holds after `heap_init`, if no page of the first region begins with the magic word. -/
theorem heapInit_inv {phys : Nat} (haligned : phys % slabPageSize = 0)
    (hbelow : phys + heapInitialSize ≤ 2 ^ 32) (hclean : Clean m phys (phys + heapInitialSize)) :
    ∃ t, Inv (heapInit m phys) t := by
  have hinit := Heap.initial_inv hbelow
  have hempty : ∀ t : Slab.State, t.header = (fun _ => none) → ∀ base, base ∈ ([] : List Nat) ↔ (t.header base).isSome := by
    intro t ht base
    rw [ht]
    exact ⟨fun h => absurd h List.not_mem_nil, fun h => by cases h⟩
  by_cases hzero : phys = 0
  · rw [heapInit, if_pos hzero]
    have hworld : Heap.initial phys = { heap := Heap.State.empty, live := [] } := by
      rw [Heap.initial, Heap.heapInit, if_pos hzero]
    rw [hworld] at hinit
    refine ⟨Slab.State.empty, ⟨⟨⟨rfl, fun b p hp => ?_, fun _ => rfl, fun _ => rfl⟩,
      Slab.accounted_of_no_page (fun _ => rfl) (fun _ => rfl) fun _ => rfl, hinit.heap,
      List.forall_mem_nil _, List.forall_mem_nil _, List.forall_mem_nil _⟩, hinit, hempty _ rfl⟩⟩
    cases hp
  · rw [heapInit, if_neg hzero]
    have hworld : Heap.initial phys = { heap := { blocks := [regionBlock phys heapInitialSize]
                                                  regions := [{ phys, size := heapInitialSize }]
                                                  slab := Slab.slabInit Slab.State.empty }, live := [] } := by
      rw [Heap.initial, Heap.heapInit, if_neg hzero]
      rfl
    rw [hworld] at hinit
    have hphys : phys % 8 = 0 := by
      unfold slabPageSize at haligned
      omega
    have hgrain : Grain [regionBlock phys heapInitialSize] :=
      Grain.append_region (List.forall_mem_nil _) hphys (by decide) (by decide)
    refine ⟨Slab.slabInit Slab.State.empty, ⟨⟨⟨rfl, fun b p hp => ?_, fun _ => rfl, fun _ => rfl⟩,
      Slab.accounted_of_no_page (fun _ => rfl) (fun _ => rfl) fun _ => rfl, hinit.heap, hgrain,
      List.forall_mem_singleton.mpr haligned, List.forall_mem_singleton.mpr (clean_writeBlocks hclean hgrain)⟩,
      hinit, hempty _ rfl⟩⟩
    cases hp

theorem step_inv (hw : ∃ t, Inv w t) {c : Call} (hc : Legal w c ∧ Sound w c) : ∃ t, Inv (step w c).2 t := by
  obtain ⟨t, hw⟩ := hw
  cases c with
  | kmalloc size frame grow => exact step_kmalloc_inv hw hc.1 hc.2
  | kfree ptr => exact step_kfree_inv hw hc.1 hc.2
  | store ptr off v => exact ⟨t, step_store_inv hw hc.1 hc.2⟩

theorem Inv.apart (h : Inv w t) : w.live.Pairwise Alloc.Apart := by
  have hdistinct := List.pairwise_filter.mp (List.pairwise_map.mp h.good.accounted.distinct)
  refine (h.world.largeSafe.no_overlap.and hdistinct).imp_of_mem fun {a b} ha hb hab => ?_
  by_cases hlarge : a.large ∨ b.large
  · exact hab.1 hlarge
  · -- two objects of the slab allocator
    simp only [not_or, Bool.not_eq_true] at hlarge
    obtain ⟨base, page, hpage, hgrid, hsize, _⟩ := h.good.accounted.held _ (mem_smalls ha hlarge.1)
    obtain ⟨base', page', hpage', hgrid', hsize', _⟩ := h.good.accounted.held _ (mem_smalls hb hlarge.2)
    have hne : a.ptr ≠ b.ptr := hab.2 (by rw [hlarge.1]; rfl) (by rw [hlarge.2]; rfl)
    have hobjects := SlabMemory.objects_apart (w := ⟨w.store, smalls w.live, w.pages⟩) h.good.accounted hpage hpage'
      hgrid hgrid' hne
    dsimp only at hsize hsize' hobjects
    exact hobjects.imp (by omega) (by omega)

end

/-! ## Every run -/

/-- **`kfree` gives every block back to the allocator it came from**, after `heap_init` and any calls and
    stores, as long as no page of the memory given to the heap begins with `SLAB_MAGIC`, no caller makes one
    begin with it, no size wraps and no blocks of different regions are joined. -/
theorem kfree_routing (m : Mem) (phys : Nat) (haligned : phys % slabPageSize = 0)
    (hbelow : phys + heapInitialSize ≤ 2 ^ 32) (hclean : Clean m phys (phys + heapInitialSize)) (calls : List Call)
    (hrun : Guarded step (fun w c => Legal w c ∧ Sound w c) (heapInit m phys) calls) :
    Routed (exec step (heapInit m phys) calls).2 := by
  have hkept : ∀ w, (∃ t, Inv w t) → Guarded step (fun w c => Legal w c ∧ Sound w c) w calls →
      ∃ t, Inv (exec step w calls).2 t := exec_inv (fun _ _ hw hc => step_inv hw hc) calls
  obtain ⟨t, ht⟩ := hkept _ (heapInit_inv haligned hbelow hclean) hrun
  exact ht.routed

/-- A small object and a large block are taken, written and freed. -/
def bothPaths : List Call :=
  [.kmalloc 100 0x800000 0, .kmalloc 5000 0 0, .store 0x100018 4072 0x42, .kfree 0x100018]

/-- A `kmalloc` for which no new frame or region is handed out. -/
theorem admitted_kmalloc (w : Machine) {size : UInt32} (hsize : size.toNat ≤ 0xFFFFFFF0) :
    Legal w (.kmalloc size 0 0) ∧ Sound w (.kmalloc size 0 0) :=
  ⟨⟨fun h => absurd rfl h, fun h => absurd rfl h, fun h => absurd rfl h⟩, hsize, fun h => absurd rfl h.2.2.2.2.1⟩

/-- The first small allocation gets a frame for its slab. -/
theorem admitted_frame : Legal (heapInit (fun _ => 0) 0x100000) (.kmalloc 100 0x800000 0) ∧
    Sound (heapInit (fun _ => 0) 0x100000) (.kmalloc 100 0x800000 0) :=
  ⟨⟨fun _ => ⟨by decide, by decide, by decide, by decide⟩, fun h => absurd rfl h, fun _ h => absurd rfl h⟩,
    by decide, fun h => absurd rfl h.2.2.2.2.1⟩

theorem clean_zero (lo hi : Nat) : Clean (fun _ => 0) lo hi := by
  intro q _ _ _ h
  cases h

/-- A run that uses both allocators meets the conditions. -/
theorem kfree_routing_both :
    Guarded step (fun w c => Legal w c ∧ Sound w c) (heapInit (fun _ => 0) 0x100000) bothPaths ∧
      Routed (exec step (heapInit (fun _ => 0) 0x100000) bothPaths).2 := by
  have hrun : Guarded step (fun w c => Legal w c ∧ Sound w c) (heapInit (fun _ => 0) 0x100000) bothPaths := by
    refine ⟨admitted_frame, admitted_kmalloc _ (by decide), ⟨⟨⟨0x100018, 5000, true⟩, ?_, rfl, by decide⟩, fun _ => ?_⟩,
      ⟨⟨⟨0x100018, 5000, true⟩, ?_, rfl⟩, fun _ => ?_⟩, trivial⟩ <;> decide +kernel
  exact ⟨hrun, kfree_routing _ _ (by decide) (by decide) (clean_zero _ _) _ hrun⟩

/-- **No two allocations share a byte**, whichever allocator they came from, after every run in which `kfree` tells
    them apart. -/
theorem allocations_apart (m : Mem) (phys : Nat) (haligned : phys % slabPageSize = 0)
    (hbelow : phys + heapInitialSize ≤ 2 ^ 32) (hclean : Clean m phys (phys + heapInitialSize)) (calls : List Call)
    (hrun : Guarded step (fun w c => Legal w c ∧ Sound w c) (heapInit m phys) calls) :
    (exec step (heapInit m phys) calls).2.live.Pairwise Alloc.Apart := by
  have hstep : ∀ w c, (∃ t, Inv w t) → Legal w c ∧ Sound w c → ∃ t, Inv (step w c).2 t :=
    fun _ _ hw hc => step_inv hw hc
  obtain ⟨t, ht⟩ := exec_inv hstep calls _ (heapInit_inv haligned hbelow hclean) hrun
  exact ht.apart

/-- Two objects of one slab and two blocks; the first block is freed, and its place is taken by a smaller one. -/
def mixedRun : List Call :=
  [.kmalloc 100 0x800000 0, .kmalloc 5000 0 0, .kmalloc 120 0 0, .kmalloc 3000 0 0, .kfree 0x100018, .kmalloc 2100 0 0]

theorem allocations_apart_mixed :
    Guarded step (fun w c => Legal w c ∧ Sound w c) (heapInit (fun _ => 0) 0x100000) mixedRun ∧
      (exec step (heapInit (fun _ => 0) 0x100000) mixedRun).2.live =
        [⟨0x100018, 2100, true⟩, ⟨0x1013C0, 3000, true⟩, ⟨0x800F00, 120, false⟩, ⟨0x800F80, 100, false⟩] ∧
      (exec step (heapInit (fun _ => 0) 0x100000) mixedRun).2.live.Pairwise Alloc.Apart := by
  have hrun : Guarded step (fun w c => Legal w c ∧ Sound w c) (heapInit (fun _ => 0) 0x100000) mixedRun := by
    refine ⟨admitted_frame, admitted_kmalloc _ (by decide), admitted_kmalloc _ (by decide),
      admitted_kmalloc _ (by decide), ⟨⟨⟨0x100018, 5000, true⟩, ?_, rfl⟩, fun _ => ?_⟩,
      admitted_kmalloc _ (by decide), trivial⟩ <;> decide +kernel
  exact ⟨hrun, by decide +kernel, allocations_apart _ _ (by decide) (by decide) (clean_zero _ _) _ hrun⟩

/-- Two large blocks; the first one covers the start of the page in which the second one begins, and its
    holder stores the four bytes of the magic word there. -/
def forgingRun : List Call :=
  [.kmalloc 5000 0 0, .kmalloc 3000 0 0, .store 0x100018 4072 0x42, .store 0x100018 4073 0x41,
    .store 0x100018 4074 0x4C, .store 0x100018 4075 0x53]

/-- **Data of one caller sends another caller's block to the slab allocator.** -/
theorem forged_magic_routes_to_slab : Guarded step Legal (heapInit (fun _ => 0) 0x100000) forgingRun ∧
      ¬ Routed (exec step (heapInit (fun _ => 0) 0x100000) forgingRun).2 := by
  constructor
  · refine ⟨(admitted_kmalloc _ (by decide)).1, (admitted_kmalloc _ (by decide)).1,
      ⟨⟨0x100018, 5000, true⟩, ?_, rfl, by decide⟩, ⟨⟨0x100018, 5000, true⟩, ?_, rfl, by decide⟩,
      ⟨⟨0x100018, 5000, true⟩, ?_, rfl, by decide⟩, ⟨⟨0x100018, 5000, true⟩, ?_, rfl, by decide⟩, trivial⟩ <;>
      decide +kernel
  · intro hrouted
    have hlive : (⟨0x1013C0, 3000, true⟩ : Alloc)
        ∈ (exec step (heapInit (fun _ => 0) 0x100000) forgingRun).2.live := by decide +kernel
    have howns : slabOwns (exec step (heapInit (fun _ => 0) 0x100000) forgingRun).2.store.mem 0x1013C0 := by
      decide +kernel
    exact absurd ((hrouted _ hlive).mp howns) (by decide)

end Lyth.Routing
