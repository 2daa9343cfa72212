/-
  The kernel heap (`kernel/mem/heap.c`).

    1. The program.   One list of blocks, each a 24-byte header followed by its bytes, runs through
       all regions the heap was given, in the order in which it got them.  `kmalloc` tries the slab
       allocator for small sizes, and else takes the first free block that is large enough, cutting
       off what it does not need; if none is, the heap grows by one region and the search is made
       again.  `kfree` marks a block free and joins free neighbours OF THE LIST (`coalesce`).
    2. Specification.  `LargeSafe`: an allocation of the large path lies inside one region, overlaps
       no other live allocation and contains no block header.
    3. Crux.  The blocks tile the regions (`State.Inv.tiles`).  Cutting a block keeps that; joining two
       keeps it ONLY IF they belong to one region, and `coalesce_blocks` does not look: the last block
       of a region and the first of the next are list neighbours, whatever their addresses.  So the
       safety theorem is about runs in which no such pair is free when blocks are joined
       (`Separated`), and `grown_heap_joins_regions` is a run in which one is.

  The calls of one run are `kmalloc` and `kfree`; what the frame allocator answers inside them is part
  of the call.  `World` adds to the heap the allocations its callers hold.
-/
import Mathlib.Data.List.Pairwise
import Lyth.Lib.Run
import Lyth.Lib.Tiling
import Lyth.Slab

namespace Lyth.Heap

open Word Tiling Run
open Slab (Page ObjAt slabAlloc slabFree slabInit pageOf cacheSizes slabMaxObj slabPageSize)

/-! ## The model -/

/-- `HEAP_INITIAL_SIZE`. -/
def heapInitialSize : Nat := 4 * 1024 * 1024

/-- `HEAP_GROW_SIZE`. -/
def heapGrowSize : Nat := 2 * 1024 * 1024

/-- `HEAP_MAX_REGIONS`. -/
def heapMaxRegions : Nat := 32

/-- `HEAP_ALIGNMENT`. -/
def heapAlignment : Nat := 16

/-- `sizeof(heap_block_t)`. -/
def sizeofBlock : Nat := 24

/-- `heap_block_t`, with the address it stands at.  `next` is the order of the list. -/
structure Block where
  addr : Nat
  size : Nat
  free : Bool
deriving DecidableEq

/-- `heap_region_t`. -/
structure Region where
  phys : Nat
  size : Nat
deriving DecidableEq

/-- The state of `heap.c`: the list from `heap_head`, the region table, and the slab allocator. -/
structure State where
  blocks : List Block
  regions : List Region
  slab : Slab.State

/-- `split_block(block, size)`: the block, and the block that now follows it, if any. -/
def splitBlock (b : Block) (size : Nat) : Block × List Block :=
  if b.size ≤ u32 (size + (sizeofBlock + heapAlignment)) then (b, [])
  else ({ b with size },
    [{ addr := b.addr + sizeofBlock + size
       size := u32 (b.size + 2 ^ 32 - size - sizeofBlock)
       free := true }])

/-- The loop of `coalesce_blocks` at block `b`: while its successor is free too, take it in. -/
def coalesceFrom (b : Block) : List Block → List Block
  | [] => [b]
  | b' :: bs =>
    if b.free && b'.free then coalesceFrom { b with size := u32 (b.size + (sizeofBlock + b'.size)) } bs
    else b :: coalesceFrom b' bs

/-- `coalesce_blocks()`. -/
def coalesceBlocks : List Block → List Block
  | [] => []
  | b :: bs => coalesceFrom b bs

/-- The block `heap_add_region` writes at the start of a region. -/
def regionBlock (phys size : Nat) : Block :=
  { addr := phys, size := u32 (size - sizeofBlock), free := true }

/-- `heap_add_region(phys, size)`; `none` where the code returns 0. -/
def heapAddRegion (s : State) (phys size : Nat) : Option State :=
  if s.regions.length ≥ heapMaxRegions ∨ size ≤ sizeofBlock then none
  else
    let regions := s.regions ++ [{ phys, size }]
    match s.blocks with
    | [] => some { s with regions, blocks := [regionBlock phys size] }
    | b :: bs =>
      some { s with regions
                    blocks := coalesceBlocks (b :: bs ++ [regionBlock phys size]) }

/-- `heap_grow()`, when `physmem_alloc_region` answers `grow`. -/
def heapGrow (s : State) (grow : Nat) : Option State :=
  if grow = 0 then none else heapAddRegion s grow heapGrowSize

/-- The heap before `heap_init`. -/
def State.empty : State := { blocks := [], regions := [], slab := Slab.State.empty }

/-- `heap_init()`, when `physmem_alloc_region` answers `phys`. -/
def heapInit (phys : Nat) : State :=
  if phys = 0 then State.empty
  else
    let s := (heapAddRegion State.empty phys heapInitialSize).getD State.empty
    { s with slab := slabInit s.slab }

/-- The first-fit search of `kmalloc`: the pointer it returns and the list it leaves. -/
def takeFirstFit (size : Nat) : List Block → Option (Nat × List Block)
  | [] => none
  | b :: bs =>
    if b.free && decide (b.size ≥ size) then
      some (b.addr + sizeofBlock,
        { (splitBlock b size).1 with free := false } :: ((splitBlock b size).2 ++ bs))
    else (takeFirstFit size bs).map fun r => (r.1, b :: r.2)

/-- The part of `kmalloc` behind the slab allocator, for an aligned size: search, and if nothing fits
    grow once and search again. -/
def largeAlloc (s : State) (size grow : Nat) : Nat × State :=
  match takeFirstFit size s.blocks with
  | some r => (r.1, { s with blocks := r.2 })
  | none =>
    match heapGrow s grow with
    | none => (0, s)
    | some s' =>
      match takeFirstFit size s'.blocks with
      | some r => (r.1, { s' with blocks := r.2 })
      | none => (0, s')

/-- What the slab allocator answers inside `kmalloc(size)`. -/
def trySlab (s : State) (size frame : Nat) : Nat × Slab.State :=
  if size ≤ slabMaxObj then slabAlloc s.slab size frame else (0, s.slab)

/-- `kmalloc(size)`; `frame` and `grow` are what `physmem_alloc_frame` and `physmem_alloc_region`
    answer if they are called. -/
def kmalloc (s : State) (size frame grow : Nat) : Nat × State :=
  if size = 0 ∨ s.blocks = [] then (0, s)
  else
    let r := trySlab s size frame
    if r.1 ≠ 0 then (r.1, { s with slab := r.2 })
    else largeAlloc { s with slab := r.2 } (alignUp size heapAlignment) grow

/-- Mark the block of a pointer free. -/
def markFree (ptr : Nat) (blocks : List Block) : List Block :=
  blocks.map fun b => if b.addr + sizeofBlock = ptr then { b with free := true } else b

/-- The slab header that `slab_owns(ptr)` finds at the base of the pointer's page.  On a page that is
    none of the slab allocator's, the bytes there are whatever the callers wrote: `forged` is the
    header they read as, if their first word is `SLAB_MAGIC`. -/
def slabOwns (s : State) (ptr : Nat) (forged : Option Page) : Option Page :=
  match s.slab.header (pageOf ptr) with
  | some page => some page
  | none => forged

/-- `kfree(ptr)`. -/
def kfree (s : State) (ptr : Nat) (forged : Option Page) : State :=
  if ptr = 0 then s
  else
    match slabOwns s ptr forged with
    | some page => { s with slab := slabFree s.slab ptr page }
    | none =>
      -- the magic check: a block of the list stands in front of the pointer
      if s.blocks.any fun b => b.addr + sizeofBlock = ptr then
        { s with blocks := coalesceBlocks (markFree ptr s.blocks) }
      else s

/-! ## The heap and the allocations its callers hold -/

/-- An allocation a caller holds: the pointer, the size asked for, and which path served it. -/
structure Alloc where
  ptr : Nat
  size : Nat
  large : Bool
deriving DecidableEq

/-- The heap together with the live allocations. -/
structure World where
  heap : State
  live : List Alloc

/-- One call, with what the frame allocator answers in it, or what the freed pointer's page reads as. -/
inductive Call
  | kmalloc (size : UInt32) (frame grow : Nat)
  | kfree (ptr : Nat) (forged : Option Page)

/-- The allocation that a `kmalloc` call returning `ptr` makes. -/
def newAlloc (s : State) (size frame ptr : Nat) : Alloc :=
  { ptr, size, large := decide ((trySlab s size frame).1 = 0) }

/-- One call: the pointer it returns (0 for `kfree`), and the world it leaves. -/
def step (w : World) : Call → Nat × World
  | .kmalloc size frame grow =>
    let r := kmalloc w.heap size.toNat frame grow
    (r.1, { heap := r.2
            live := if r.1 = 0 then w.live else newAlloc w.heap size.toNat frame r.1 :: w.live })
  | .kfree ptr forged =>
    (0, { heap := kfree w.heap ptr forged, live := w.live.filter fun a => a.ptr ≠ ptr })

/-- The world right after `heap_init`. -/
def initial (phys : Nat) : World := { heap := heapInit phys, live := [] }

/-! ## Specification -/

/-- The address behind a block. -/
def Block.stop (b : Block) : Nat := b.addr + sizeofBlock + b.size

/-- The addresses of a region. -/
def Region.interval (r : Region) : Interval := { start := r.phys, stop := r.phys + r.size }

/-- Two allocations do not overlap. -/
def Alloc.Apart (a a' : Alloc) : Prop := Tiling.Apart a.ptr (a.ptr + a.size) a'.ptr (a'.ptr + a'.size)

/-- **What the callers of the large path rely on.** -/
structure LargeSafe (w : World) : Prop where
  in_region : ∀ a ∈ w.live, a.large →
    ∃ r ∈ w.heap.regions, r.phys ≤ a.ptr ∧ a.ptr + a.size ≤ r.phys + r.size
  no_overlap : w.live.Pairwise fun a a' => a.large ∨ a'.large → a.Apart a'
  no_header : ∀ a ∈ w.live, a.large → ∀ b ∈ w.heap.blocks,
    Tiling.Apart a.ptr (a.ptr + a.size) b.addr (b.addr + sizeofBlock)

/-- `size` bytes from `phys` are page-aligned memory below 4 GB that neither the heap nor the slab
    allocator has. -/
structure Unused (s : State) (phys size : Nat) : Prop where
  aligned : phys % slabPageSize = 0
  below : phys + size ≤ 2 ^ 32
  regions : ∀ r ∈ s.regions, Tiling.Apart phys (phys + size) r.phys (r.phys + r.size)
  pages : ∀ base page, s.slab.header base = some page →
    Tiling.Apart phys (phys + size) base (base + slabPageSize)

/-- What the frame allocator and the callers promise: memory handed to the heap is used nowhere else,
    and only live pointers are freed. -/
def Legal (w : World) : Call → Prop
  | .kmalloc _ frame grow =>
    (frame ≠ 0 → Unused w.heap frame slabPageSize) ∧
    (grow ≠ 0 → Unused w.heap grow heapGrowSize) ∧
    (frame ≠ 0 → grow ≠ 0 → Tiling.Apart frame (frame + slabPageSize) grow (grow + heapGrowSize))
  | .kfree ptr _ => ∃ a ∈ w.live, a.ptr = ptr

/-- No two free neighbours of the list belong to different regions: the second one does not start a
    region. -/
def Separated (regions : List Region) (blocks : List Block) : Prop :=
  blocks.IsChain fun b b' => b.free → b'.free → ∀ r ∈ regions, b'.addr ≠ r.phys

instance (regions : List Region) (blocks : List Block) : Decidable (Separated regions blocks) :=
  inferInstanceAs (Decidable (List.IsChain _ _))

/-- `kmalloc(size)` reaches the point where a new region is appended to the list. -/
def Grows (s : State) (size frame grow : Nat) : Prop :=
  size ≠ 0 ∧ s.blocks ≠ [] ∧ (trySlab s size frame).1 = 0 ∧
    takeFirstFit (alignUp size heapAlignment) s.blocks = none ∧ grow ≠ 0 ∧
    s.regions.length < heapMaxRegions

/-- The condition under which the heap is safe: the size does not wrap when it is rounded up; blocks
    are joined only where no two free neighbours belong to different regions; and the page of a freed
    block does not begin with bytes that read as a slab header. -/
def Sound (w : World) : Call → Prop
  | .kmalloc size frame grow =>
    size.toNat ≤ 0xFFFFFFF0 ∧
    (Grows w.heap size.toNat frame grow →
      Separated (w.heap.regions ++ [{ phys := grow, size := heapGrowSize }])
        (w.heap.blocks ++ [regionBlock grow heapGrowSize]))
  | .kfree ptr forged =>
    w.heap.slab.header (pageOf ptr) = none →
      forged = none ∧ Separated w.heap.regions (markFree ptr w.heap.blocks)

/-! ## Lists of blocks -/

variable {b : Block} {ptr frame grow : Nat}

section

variable {pos stop size : Nat} {rs : List Interval} {bs : List Block}

/-- No interval is longer than the initial region, so sizes of blocks do not wrap. -/
def Short (rs : List Interval) : Prop := ∀ r ∈ rs, r.stop ≤ r.start + heapInitialSize

/-- Joining blocks keeps the tiling, if no two free neighbours belong to different intervals. -/
theorem coalesceFrom_tiles (hb : b.addr = pos) (hle : b.stop ≤ stop)
    (hbs : Tiles Block.addr Block.stop b.stop stop rs bs) (hroom : stop ≤ pos + heapInitialSize)
    (hshort : Short rs)
    (hsep : (b :: bs).IsChain fun b b' =>
      b.free → b'.free → ∀ r ∈ rs, b'.addr ≠ r.start) :
    Tiles Block.addr Block.stop pos stop rs (coalesceFrom b bs) := by
  have hlt : b.addr < b.stop := by simp only [Block.stop, sizeofBlock]; omega
  induction bs generalizing b pos stop rs with
  | nil => exact .piece hb (by omega) hle hbs
  | cons b' bs ih =>
    obtain ⟨hpair, hchain⟩ := List.isChain_cons_cons.mp hsep
    have hlt' : b'.addr < b'.stop := by simp only [Block.stop, sizeofBlock]; omega
    rw [coalesceFrom]
    split
    · -- both free: the successor lies in the same interval, and the joined block ends with it
      rename_i hfree
      obtain ⟨hfree, hfree'⟩ := Bool.and_eq_true_iff.mp hfree
      have hstart := hpair hfree hfree'
      cases hbs with
      | next hr hrest => exact absurd (hrest.uncons hr).1 (hstart _ (.head _))
      | piece hadj _ hle' hrest =>
        have hnowrap : u32 (b.size + (sizeofBlock + b'.size)) = b.size + (sizeofBlock + b'.size) := by
          refine u32_of_lt ?_
          simp only [Block.stop, heapInitialSize] at *
          omega
        have hjoin : ({ b with size := u32 (b.size + (sizeofBlock + b'.size)) } : Block).stop
            = b'.stop := by
          simp only [Block.stop] at *
          omega
        refine ih hb (by rwa [hjoin]) (by rwa [hjoin]) hroom hshort ?_
          (by rw [hjoin]; simp only; omega)
        cases bs with
        | nil => exact List.IsChain.singleton _
        | cons b'' bs =>
          obtain ⟨hpair', hchain'⟩ := List.isChain_cons_cons.mp hchain
          exact List.isChain_cons_cons.mpr ⟨fun _ => hpair' hfree', hchain'⟩
    · -- not both free: the block stays, and the walk goes on behind it
      refine .piece hb (by omega) hle ?_
      cases hbs with
      | next hr hrest =>
        obtain ⟨hstart, hle', hrest'⟩ := hrest.uncons hr
        refine .next hr (ih hstart hle' hrest' (hshort _ (.head _))
          (fun r hr' => hshort r (.tail _ hr')) ?_ hlt')
        exact hchain.imp fun _ _ h hf hf' r hr' => h hf hf' r (.tail _ hr')
      | piece hadj _ hle' hrest => exact ih hadj hle' hrest (by omega) hshort hchain hlt'

/-- `coalesce_blocks` keeps the tiling, if no two free neighbours belong to different intervals. -/
theorem coalesceBlocks_tiles (h : Tiles Block.addr Block.stop pos stop rs bs)
    (hroom : stop ≤ pos + heapInitialSize) (hshort : Short rs)
    (hsep : bs.IsChain fun b b' => b.free → b'.free → ∀ r ∈ rs, b'.addr ≠ r.start) :
    Tiles Block.addr Block.stop pos stop rs (coalesceBlocks bs) := by
  induction h with
  | done => exact .done
  | piece hlo hlt hle hrest _ => exact coalesceFrom_tiles hlo hle hrest hroom hshort hsep
  | next hr _ ih =>
    refine .next hr (ih (hshort _ (.head _)) (fun r hr' => hshort r (.tail _ hr')) ?_)
    exact hsep.imp fun _ _ h hf hf' r hr' => h hf hf' r (.tail _ hr')

/-- Joining blocks leaves the used ones alone. -/
theorem mem_coalesceFrom {b used : Block} (hused : used.free = false) (h : used ∈ b :: bs) :
    used ∈ coalesceFrom b bs := by
  induction bs generalizing b with
  | nil => exact h
  | cons b' bs ih =>
    rw [coalesceFrom]
    split
    · rename_i hfree
      obtain ⟨hfree, hfree'⟩ := Bool.and_eq_true_iff.mp hfree
      refine ih (.tail _ ?_)
      rcases List.mem_cons.mp h with rfl | h
      · rw [hused] at hfree
        cases hfree
      · rcases List.mem_cons.mp h with rfl | h
        · rw [hused] at hfree'
          cases hfree'
        · exact h
    · rcases List.mem_cons.mp h with rfl | h
      · exact .head _
      · exact .tail _ (ih h)

theorem mem_coalesceBlocks {used : Block} (hused : used.free = false) (h : used ∈ bs) :
    used ∈ coalesceBlocks bs := by
  cases bs with
  | nil => exact h
  | cons b bs => exact mem_coalesceFrom hused h

/-- The first-fit search takes a free block that is large enough, and leaves the others. -/
theorem takeFirstFit_some {r : Nat × List Block} (h : takeFirstFit size bs = some r) :
    ∃ pre b post, bs = pre ++ b :: post ∧ b.free ∧ size ≤ b.size ∧
      r = (b.addr + sizeofBlock,
        pre ++ { (splitBlock b size).1 with free := false } :: ((splitBlock b size).2 ++ post)) := by
  induction bs generalizing r with
  | nil => cases h
  | cons c bs ih =>
    rw [takeFirstFit] at h
    split at h
    · rename_i hfit
      obtain ⟨hfree, hsize⟩ := Bool.and_eq_true_iff.mp hfit
      exact ⟨[], c, bs, rfl, hfree, of_decide_eq_true hsize, (Option.some.inj h).symm⟩
    · obtain ⟨r', hr', rfl⟩ := Option.map_eq_some_iff.mp h
      obtain ⟨pre, b, post, rfl, hfree, hsize, rfl⟩ := ih hr'
      exact ⟨c :: pre, b, post, rfl, hfree, hsize, rfl⟩

/-- Cutting a block that is not longer than a region: the first part keeps the address and has the
    size asked for or more, and the parts cover the block. -/
theorem splitBlock_tiles {post : List Block} (hfit : size ≤ b.size) (hshort : b.size ≤ heapInitialSize)
    (h : Tiles Block.addr Block.stop pos stop rs (b :: post)) :
    Tiles Block.addr Block.stop pos stop rs
      ({ (splitBlock b size).1 with free := false } :: ((splitBlock b size).2 ++ post)) := by
  have hnowrap : u32 (size + (sizeofBlock + heapAlignment)) = size + (sizeofBlock + heapAlignment) := by
    refine u32_of_lt ?_
    simp only [sizeofBlock, heapAlignment, heapInitialSize] at *
    omega
  rw [splitBlock]
  split
  · exact h.head_congr rfl rfl
  have hrest : u32 (b.size + 2 ^ 32 - size - sizeofBlock) = b.size - size - sizeofBlock := by
    simp only [u32, heapInitialSize] at *
    omega
  refine h.cut rfl rfl ?_ ?_ ?_ <;>
    simp only [Block.stop, sizeofBlock] at * <;> omega

theorem splitBlock_fst (hfit : size ≤ b.size) :
    (splitBlock b size).1.addr = b.addr ∧ size ≤ (splitBlock b size).1.size := by
  rw [splitBlock]
  split
  · exact ⟨rfl, hfit⟩
  · exact ⟨rfl, Nat.le_refl _⟩

end

/-! ## The invariant -/

/-- The invariant of the heap: the blocks tile the regions, and regions and slab pages are memory of
    their own. -/
structure State.Inv (s : State) : Prop where
  tiles : Tiles Block.addr Block.stop 0 0 (s.regions.map Region.interval) s.blocks
  bounded : ∀ r ∈ s.regions, r.size ≤ heapInitialSize ∧ r.phys + r.size ≤ 2 ^ 32
  regions_apart : (s.regions.map Region.interval).Pairwise Interval.Apart
  slab : s.slab.Inv
  pages_apart : ∀ base page, s.slab.header base = some page → ∀ r ∈ s.regions,
    Tiling.Apart base (base + slabPageSize) r.phys (r.phys + r.size)

/-- The allocation is the used block `b`. -/
def Alloc.IsBlock (a : Alloc) (b : Block) : Prop :=
  b.free = false ∧ a.ptr = b.addr + sizeofBlock ∧ a.size ≤ b.size

/-- The allocation is an object of a slab page. -/
def Alloc.InSlab (a : Alloc) (s : Slab.State) : Prop :=
  ∃ base page, s.header base = some page ∧ ObjAt base page.cacheIdx a.ptr ∧
    a.size ≤ cacheSizes page.cacheIdx

/-- The invariant of a run: each live allocation has its block or its slab object, and no two have
    the same block. -/
structure World.Inv (w : World) : Prop where
  heap : w.heap.Inv
  nonempty : ∀ a ∈ w.live, 0 < a.size
  large : ∀ a ∈ w.live, a.large → ∃ b ∈ w.heap.blocks, a.IsBlock b
  small : ∀ a ∈ w.live, a.large = false → a.InSlab w.heap.slab
  distinct : w.live.Pairwise fun a a' => a.large → a'.large → a.ptr ≠ a'.ptr

variable {a : Alloc}

section

variable {s : State}

theorem short_of_bounded {rs : List Region} (h : ∀ r ∈ rs, r.size ≤ heapInitialSize ∧ r.phys + r.size ≤ 2 ^ 32) :
    Short (rs.map Region.interval) :=
  List.forall_mem_map.mpr fun r hr => Nat.add_le_add_left (h r hr).1 r.phys

/-- Each block lies in one region. -/
theorem State.Inv.block_in_region (hs : s.Inv) (hb : b ∈ s.blocks) :
    ∃ r ∈ s.regions, r.phys ≤ b.addr ∧ b.stop ≤ r.phys + r.size := by
  obtain ⟨hlt, ⟨_, h0⟩ | ⟨i, hi, hlo, hhi⟩⟩ := hs.tiles.mem hb
  · omega
  · obtain ⟨r, hr, rfl⟩ := List.mem_map.mp hi
    exact ⟨r, hr, hlo, hhi⟩

theorem State.Inv.block_short (hs : s.Inv) (hb : b ∈ s.blocks) : b.size ≤ heapInitialSize := by
  obtain ⟨r, hr, hlo, hhi⟩ := hs.block_in_region hb
  have hsize := (hs.bounded r hr).1
  rw [Block.stop] at hhi
  omega

/-- Two blocks are the same or do not overlap. -/
theorem State.Inv.eq_or_apart (hs : s.Inv) {b b' : Block} (hb : b ∈ s.blocks) (hb' : b' ∈ s.blocks) :
    b = b' ∨ Tiling.Apart b.addr b.stop b'.addr b'.stop := by
  rcases eq_or_ne b b' with heq | hne
  · exact .inl heq
  · have : Std.Symm fun b b' : Block => Tiling.Apart b.addr b.stop b'.addr b'.stop :=
      ⟨fun _ _ h => h.symm⟩
    exact .inr ((hs.tiles.pairwise (fun _ _ => .inl (Nat.zero_le _)) hs.regions_apart).forall hb hb' hne)

theorem Block.addr_lt_stop (b : Block) : b.addr < b.stop := by
  rw [Block.stop, sizeofBlock]
  omega

/-- A block is known by its address. -/
theorem State.Inv.eq_of_addr (hs : s.Inv) {b b' : Block} (hb : b ∈ s.blocks) (hb' : b' ∈ s.blocks)
    (haddr : b.addr = b'.addr) : b = b' := by
  rcases hs.eq_or_apart hb hb' with heq | hapart
  · exact heq
  · have h1 := b.addr_lt_stop
    have h2 := b'.addr_lt_stop
    rcases hapart with h | h <;> omega

/-- The bytes of an allocation lie in its block, behind the header. -/
theorem Alloc.IsBlock.bounds (h : a.IsBlock b) :
    b.addr + sizeofBlock ≤ a.ptr ∧ a.ptr + a.size ≤ b.stop := by
  obtain ⟨_, hptr, hsize⟩ := h
  rw [Block.stop]
  omega

end

/-- A large allocation lies in a region, behind the header of its block. -/
theorem World.Inv.large_in_region {w : World} (hw : w.Inv) (ha : a ∈ w.live)
    (hlarge : a.large) :
    ∃ r ∈ w.heap.regions, r.phys + sizeofBlock ≤ a.ptr ∧ a.ptr + a.size ≤ r.phys + r.size := by
  obtain ⟨b, hb, hblock⟩ := hw.large a ha hlarge
  obtain ⟨r, hr, hlo, hhi⟩ := hw.heap.block_in_region hb
  obtain ⟨hfrom, hto⟩ := hblock.bounds
  exact ⟨r, hr, by omega, by omega⟩

/-- **The invariant gives safety.** -/
theorem World.Inv.largeSafe {w : World} (hw : w.Inv) : LargeSafe w := by
  constructor
  · intro a ha hlarge
    obtain ⟨r, hr, hlo, hhi⟩ := hw.large_in_region ha hlarge
    exact ⟨r, hr, by omega, hhi⟩
  · -- two blocks, or a block inside a region and an object inside a slab page
    have hmixed : ∀ a ∈ w.live, ∀ a' ∈ w.live, a.large → a'.large = false → a.Apart a' := by
      intro a ha a' ha' hlarge hsmall
      obtain ⟨r, hr, hlo, hhi⟩ := hw.large_in_region ha hlarge
      obtain ⟨base, page, hpage, ⟨hobj, hend⟩, hsize⟩ := hw.small a' ha' hsmall
      exact (hw.heap.pages_apart base page hpage r hr).symm.mono (by omega) (by omega) (by omega)
        (by omega)
    refine hw.distinct.imp_of_mem fun {a a'} ha ha' hne hlarge => ?_
    rcases hl : a.large with _ | _
    · exact (hmixed a' ha' a ha (by simpa [hl] using hlarge) hl).symm
    rcases hl' : a'.large with _ | _
    · exact hmixed a ha a' ha' hl hl'
    obtain ⟨b, hb, hblock⟩ := hw.large a ha hl
    obtain ⟨b', hb', hblock'⟩ := hw.large a' ha' hl'
    obtain ⟨hfrom, hto⟩ := hblock.bounds
    obtain ⟨hfrom', hto'⟩ := hblock'.bounds
    rcases hw.heap.eq_or_apart hb hb' with rfl | hapart
    · exact absurd (hblock.2.1.trans hblock'.2.1.symm) (hne hl hl')
    · exact hapart.mono (by omega) hto (by omega) hto'
  · intro a ha hlarge b' hb'
    obtain ⟨b, hb, hblock⟩ := hw.large a ha hlarge
    obtain ⟨hfrom, hto⟩ := hblock.bounds
    rcases hw.heap.eq_or_apart hb hb' with rfl | hapart
    · exact .inr hfrom
    · refine hapart.mono (by omega) hto (Nat.le_refl _) ?_
      rw [Block.stop]
      omega

/-! ## The large path -/

/-- Used blocks of `s` are blocks of `s'`. -/
def KeepsUsed (s s' : State) : Prop := ∀ b ∈ s.blocks, b.free = false → b ∈ s'.blocks

/-- The pointer is that of a used block of at least `size` bytes, and of no block used before. -/
def Serves (s s' : State) (size ptr : Nat) : Prop :=
  (∃ b ∈ s'.blocks, b.free = false ∧ ptr = b.addr + sizeofBlock ∧ size ≤ b.size) ∧
    ∀ b ∈ s.blocks, b.free = false → b.addr + sizeofBlock ≠ ptr

variable {phys : Nat}

section

variable {s : State} {size : Nat}

/-- Taking a block keeps the invariant, and gives out a block that was free. -/
theorem take_spec (hs : s.Inv) {r : Nat × List Block} (h : takeFirstFit size s.blocks = some r) :
    ({ s with blocks := r.2 } : State).Inv ∧ KeepsUsed s { s with blocks := r.2 } ∧
      Serves s { s with blocks := r.2 } size r.1 := by
  obtain ⟨pre, b, post, hblocks, hfree, hfit, rfl⟩ := takeFirstFit_some h
  have hb : b ∈ s.blocks := by rw [hblocks]; exact List.mem_append_right _ (.head _)
  obtain ⟨haddr, hsize⟩ := splitBlock_fst hfit
  refine ⟨{ hs with tiles := ?_ }, ?_,
    ⟨{ (splitBlock b size).1 with free := false }, ?_, rfl, ?_, hsize⟩, ?_⟩
  · have htiles := hs.tiles
    rw [hblocks] at htiles
    exact htiles.append_congr fun h => splitBlock_tiles hfit (hs.block_short hb) h
  · intro c hc hused
    rw [hblocks] at hc
    rcases List.mem_append.mp hc with hpre | hpost
    · exact List.mem_append_left _ hpre
    · rcases List.mem_cons.mp hpost with rfl | hpost
      · rw [hfree] at hused
        cases hused
      · exact List.mem_append_right _ (.tail _ (List.mem_append_right _ hpost))
  · exact List.mem_append_right _ (.head _)
  · show b.addr + sizeofBlock = (splitBlock b size).1.addr + sizeofBlock
    rw [haddr]
  · -- a block used before with this address would be the free block that was taken
    intro c hc hused hptr
    have heq : c = b := hs.eq_of_addr hc hb (Nat.add_right_cancel hptr)
    rw [heq, hfree] at hused
    cases hused

/-- The block of a fresh region covers it. -/
theorem regionBlock_stop (hlo : sizeofBlock < size) (hhi : size < 2 ^ 32) :
    (regionBlock phys size).stop = phys + size := by
  rw [regionBlock, Block.stop, u32_of_lt (by omega)]
  simp only
  omega

/-- A separated list is one `coalesceBlocks_tiles` applies to. -/
theorem Separated.intervals {regions : List Region} {blocks : List Block} (h : Separated regions blocks) :
    blocks.IsChain fun b b' => b.free → b'.free →
      ∀ i ∈ regions.map Region.interval, b'.addr ≠ i.start := by
  refine List.IsChain.imp (fun _ _ hpair hf hf' i hi => ?_) h
  obtain ⟨r, hr, rfl⟩ := List.mem_map.mp hi
  exact hpair hf hf' r hr

/-- Adding an unused region keeps the invariant, if no free neighbours belong to different regions
    when the blocks are joined. -/
theorem heapAddRegion_spec (hs : s.Inv) {s' : State}
    (hunused : Unused s phys size) (hle : size ≤ heapInitialSize)
    (hsep : Separated (s.regions ++ [{ phys, size := size }])
      (s.blocks ++ [regionBlock phys size]))
    (h : heapAddRegion s phys size = some s') : s'.Inv ∧ KeepsUsed s s' ∧ s'.slab = s.slab := by
  have hroom : sizeofBlock < size := by
    by_contra hsmall
    rw [heapAddRegion, if_pos (.inr (by omega))] at h
    cases h
  -- with no block before it the new one has no neighbour, so both branches join the blocks
  have hs' : s' = { s with
      regions := s.regions ++ [{ phys, size }]
      blocks := coalesceBlocks (s.blocks ++ [regionBlock phys size]) } := by
    unfold heapAddRegion at h
    split at h
    · cases h
    cases hblocks : s.blocks with
    | nil | cons =>
      rw [hblocks] at h
      exact (Option.some.inj h).symm
  subst hs'
  have hbounded : ∀ r ∈ s.regions ++ [Region.mk phys size],
      r.size ≤ heapInitialSize ∧ r.phys + r.size ≤ 2 ^ 32 :=
    List.forall_mem_append.mpr ⟨hs.bounded, List.forall_mem_singleton.mpr ⟨hle, hunused.below⟩⟩
  have hstop : (regionBlock phys size).stop = phys + size :=
    regionBlock_stop hroom (by rw [heapInitialSize] at hle; omega)
  have htiles : Tiles Block.addr Block.stop 0 0 ((s.regions ++ [Region.mk phys size]).map Region.interval)
      (s.blocks ++ [regionBlock phys size]) := by
    rw [List.map_append]
    exact hs.tiles.snoc (by show phys < phys + size; omega) rfl hstop
  refine ⟨⟨coalesceBlocks_tiles htiles (Nat.zero_le _) (short_of_bounded hbounded) hsep.intervals, hbounded, ?_,
    hs.slab, ?_⟩, ?_, rfl⟩
  · rw [List.map_append]
    refine List.pairwise_append.mpr ⟨hs.regions_apart, List.pairwise_singleton _ _, ?_⟩
    intro i hi j hj
    obtain ⟨r, hr, rfl⟩ := List.mem_map.mp hi
    obtain rfl := List.mem_singleton.mp hj
    exact (hunused.regions r hr).symm
  · intro base page hpage
    exact List.forall_mem_append.mpr ⟨hs.pages_apart base page hpage,
      List.forall_mem_singleton.mpr (hunused.pages base page hpage).symm⟩
  · intro b hb hused
    exact mem_coalesceBlocks hused (List.mem_append_left _ hb)

/-- **The large path.** `largeAlloc` keeps the invariant and the used blocks; a pointer it returns is
    that of a block which was not used before. -/
theorem largeAlloc_spec (hs : s.Inv) (hunused : grow ≠ 0 → Unused s grow heapGrowSize)
    (hsep : takeFirstFit size s.blocks = none → grow ≠ 0 → s.regions.length < heapMaxRegions →
      Separated (s.regions ++ [{ phys := grow, size := heapGrowSize }])
        (s.blocks ++ [regionBlock grow heapGrowSize])) :
    (largeAlloc s size grow).2.Inv ∧ KeepsUsed s (largeAlloc s size grow).2 ∧
      (largeAlloc s size grow).2.slab = s.slab ∧
      ((largeAlloc s size grow).1 ≠ 0 →
        Serves s (largeAlloc s size grow).2 size (largeAlloc s size grow).1) := by
  unfold largeAlloc
  cases hfit : takeFirstFit size s.blocks with
  | some r =>
    obtain ⟨hinv, hkeeps, hserves⟩ := take_spec hs hfit
    exact ⟨hinv, hkeeps, rfl, fun _ => hserves⟩
  | none =>
    cases hgrow : heapGrow s grow with
    | none => exact ⟨hs, fun _ hb _ => hb, rfl, fun h => absurd rfl h⟩
    | some s' =>
      dsimp only
      have hne : grow ≠ 0 := by
        rintro rfl
        cases hgrow
      rw [heapGrow, if_neg hne] at hgrow
      have hcount : s.regions.length < heapMaxRegions := by
        by_contra hfull
        rw [heapAddRegion, if_pos (.inl (by omega))] at hgrow
        cases hgrow
      obtain ⟨hinv, hkeeps, hslab⟩ :=
        heapAddRegion_spec hs (hunused hne) (by decide) (hsep hfit hne hcount) hgrow
      cases hfit' : takeFirstFit size s'.blocks with
      | none => exact ⟨hinv, hkeeps, hslab, fun h => absurd rfl h⟩
      | some r =>
        obtain ⟨hinv', hkeeps', hblock, hnew⟩ := take_spec hinv hfit'
        exact ⟨hinv', fun b hb hused => hkeeps' b (hkeeps b hb hused) hused, hslab,
          fun _ => ⟨hblock, fun b hb hused => hnew b (hkeeps b hb hused) hused⟩⟩

end

/-! ## One call -/

section

variable {w : World} {s s' : State}

/-- An object of a slab page stays one. -/
theorem Alloc.InSlab.extend {t t' : Slab.State} {fresh : Nat} (h : a.InSlab t)
    (hext : Slab.Extends t t' fresh) : a.InSlab t' := by
  obtain ⟨base, page, hpage, hobj, hsize⟩ := h
  obtain ⟨page', hpage', hci⟩ := hext.keeps base page hpage
  exact ⟨base, page', hpage', by rwa [hci], by rwa [hci]⟩

/-- The live allocations are kept by any change of the heap that keeps used blocks and slab pages. -/
theorem World.Inv.of_keeps (hw : w.Inv) (hs' : s'.Inv) (hkeeps : KeepsUsed w.heap s') (fresh : Nat)
    (hext : Slab.Extends w.heap.slab s'.slab fresh) : World.Inv { heap := s', live := w.live } := by
  refine ⟨hs', hw.nonempty, fun a ha hlarge => ?_, fun a ha hsmall => ?_, hw.distinct⟩
  · obtain ⟨b, hb, hblock⟩ := hw.large a ha hlarge
    exact ⟨b, hkeeps b hb hblock.1, hblock⟩
  · exact (hw.small a ha hsmall).extend hext

/-- One more live allocation. -/
theorem World.Inv.cons (hw : w.Inv) (hsize : 0 < a.size)
    (hlarge : a.large → (∃ b ∈ w.heap.blocks, a.IsBlock b) ∧
      ∀ a' ∈ w.live, a'.large → a.ptr ≠ a'.ptr)
    (hsmall : a.large = false → a.InSlab w.heap.slab) :
    World.Inv { heap := w.heap, live := a :: w.live } := by
  refine ⟨hw.heap, List.forall_mem_cons.mpr ⟨hsize, hw.nonempty⟩, ?_, ?_, ?_⟩
  · exact List.forall_mem_cons.mpr ⟨fun hl => (hlarge hl).1, hw.large⟩
  · exact List.forall_mem_cons.mpr ⟨hsmall, hw.small⟩
  · exact List.Pairwise.cons (fun a' ha' hl hl' => (hlarge hl).2 a' ha' hl') hw.distinct

/-- The slab allocator's part of `kmalloc` keeps the invariant. -/
theorem trySlab_spec (hs : s.Inv) (size : Nat)
    (hunused : frame ≠ 0 → Unused s frame slabPageSize) :
    ({ s with slab := (trySlab s size frame).2 } : State).Inv ∧
      Slab.Extends s.slab (trySlab s size frame).2 frame ∧
      ((trySlab s size frame).1 ≠ 0 → ∃ base page, (trySlab s size frame).2.header base = some page ∧
        ObjAt base page.cacheIdx (trySlab s size frame).1 ∧ size ≤ cacheSizes page.cacheIdx) := by
  have hframe : Slab.FrameOk s.slab frame := by
    intro hne
    obtain ⟨haligned, hbelow, _, hpages⟩ := hunused hne
    refine ⟨haligned, by rw [slabPageSize] at hbelow; omega, ?_⟩
    cases hheader : s.slab.header frame with
    | none => rfl
    | some page =>
      rcases hpages frame page hheader with h | h <;> rw [slabPageSize] at h <;> omega
  rw [trySlab]
  split
  · obtain ⟨hinv, hext, hobj⟩ := Slab.slabAlloc_spec hs.slab size hframe
    refine ⟨⟨hs.tiles, hs.bounded, hs.regions_apart, hinv, fun base page hpage r hr => ?_⟩, hext, hobj⟩
    rcases hext.only base page hpage with ⟨page', hpage'⟩ | ⟨rfl, hne⟩
    · exact hs.pages_apart base page' hpage' r hr
    · exact (hunused hne).regions r hr
  · exact ⟨hs, Slab.Extends.refl _ _, fun h => absurd rfl h⟩

theorem alignUp_heap (size : Nat) : alignUp size heapAlignment = u32 (size + 16 - 1) / 16 * 16 :=
  alignUp_pow (k := 4) (by decide) size

/-- Rounding up does not lose bytes, for a size that does not wrap. -/
theorem le_alignUp {size : Nat} (h : size ≤ 0xFFFFFFF0) : size ≤ alignUp size heapAlignment := by
  rw [alignUp_heap, u32_of_lt (by omega)]
  omega

/-- A page that the slab allocator may have taken leaves memory apart from it unused. -/
theorem Unused.afterSlab {slab : Slab.State} (h : Unused s grow heapGrowSize)
    (hext : Slab.Extends s.slab slab frame)
    (hapart : frame ≠ 0 → Tiling.Apart frame (frame + slabPageSize) grow (grow + heapGrowSize)) :
    Unused { s with slab } grow heapGrowSize := by
  refine ⟨h.aligned, h.below, h.regions, fun base page hpage => ?_⟩
  rcases hext.only base page hpage with ⟨page', hpage'⟩ | ⟨rfl, hne⟩
  · exact h.pages base page' hpage'
  · exact (hapart hne).symm

/-- **`kmalloc` keeps the invariant.** -/
theorem step_kmalloc_inv (hw : w.Inv) {size : UInt32}
    (hlegal : Legal w (.kmalloc size frame grow)) (hsound : Sound w (.kmalloc size frame grow)) :
    (step w (.kmalloc size frame grow)).2.Inv := by
  obtain ⟨hframe, hgrow, hapart⟩ := hlegal
  obtain ⟨hwrap, hsep⟩ := hsound
  show World.Inv { heap := (kmalloc w.heap size.toNat frame grow).2, live := _ }
  generalize size.toNat = size at *
  rw [kmalloc]
  by_cases hrefuse : size = 0 ∨ w.heap.blocks = []
  · rwa [if_pos hrefuse]
  obtain ⟨hpos, hblocks⟩ := not_or.mp hrefuse
  obtain ⟨hinv, hext, hobj⟩ := trySlab_spec hw.heap size hframe
  rw [if_neg hrefuse]
  by_cases hslab : (trySlab w.heap size frame).1 ≠ 0
  · rw [if_pos hslab, if_neg hslab]
    refine (hw.of_keeps hinv (fun _ hb _ => hb) frame hext).cons (Nat.pos_of_ne_zero hpos) ?_
      (fun _ => hobj hslab)
    intro hlarge
    exact absurd (of_decide_eq_true hlarge) hslab
  have hzero : (trySlab w.heap size frame).1 = 0 := not_not.mp hslab
  rw [if_neg hslab]
  -- the new region, if any, is apart from the page the slab allocator may just have taken
  obtain ⟨hinv', hkeeps, hslab', hserves⟩ := largeAlloc_spec hinv
    (fun hne => (hgrow hne).afterSlab hext fun hne' => hapart hne' hne)
    fun hfit hne hcount => hsep ⟨hpos, hblocks, hzero, hfit, hne, hcount⟩
  have hw' := hw.of_keeps hinv' hkeeps frame (by rwa [hslab'])
  split
  · exact hw'
  rename_i hptr
  obtain ⟨⟨b, hb, hused, hbptr, hfit⟩, hnew⟩ := hserves hptr
  refine hw'.cons (Nat.pos_of_ne_zero hpos) (fun _ => ⟨⟨b, hb, hused, hbptr, ?_⟩, ?_⟩) ?_
  · exact Nat.le_trans (le_alignUp hwrap) hfit
  · -- the block of another live allocation was used before the call
    intro a' ha' hlarge' heq
    obtain ⟨b', hb', hused', hptr', _⟩ := hw.large a' ha' hlarge'
    exact hnew b' hb' hused' (hptr'.symm.trans heq.symm)
  · intro hlarge
    exact absurd hzero (of_decide_eq_false hlarge)

/-- The page of a live large allocation is no slab page. -/
theorem World.Inv.large_not_slab (hw : w.Inv) (ha : a ∈ w.live) (hlarge : a.large) :
    w.heap.slab.header (pageOf a.ptr) = none := by
  obtain ⟨r, hr, hlo, hhi⟩ := hw.large_in_region ha hlarge
  have hsize := hw.nonempty a ha
  have hbelow := (hw.heap.bounded r hr).2
  cases hheader : w.heap.slab.header (pageOf a.ptr) with
  | none => rfl
  | some page =>
    -- the pointer lies in its page and in a region, and these are apart
    have hpage := hw.heap.pages_apart _ page hheader r hr
    rw [pageOf, slabPageSize, alignDown_page (by omega)] at hpage
    rcases hpage with h | h <;> omega

/-- Allocations are dropped: the heap keeps the blocks and the slab pages of the others. -/
theorem World.Inv.drop (ptr : Nat) (hw : w.Inv) (hs' : s'.Inv)
    (hkeeps : ∀ b ∈ w.heap.blocks, b.free = false → b.addr + sizeofBlock ≠ ptr → b ∈ s'.blocks)
    (hext : Slab.Extends w.heap.slab s'.slab 0) :
    World.Inv { heap := s', live := w.live.filter fun a => a.ptr ≠ ptr } := by
  refine ⟨hs', fun a ha => ?_, fun a ha hlarge => ?_, fun a ha hsmall => ?_, hw.distinct.filter _⟩ <;>
    obtain ⟨ha, hne⟩ := List.mem_filter.mp ha
  · exact hw.nonempty a ha
  · obtain ⟨b, hb, hblock⟩ := hw.large a ha hlarge
    refine ⟨b, hkeeps b hb hblock.1 ?_, hblock⟩
    rw [← hblock.2.1]
    exact of_decide_eq_true hne
  · exact (hw.small a ha hsmall).extend hext

/-- An object goes back to its page. -/
theorem World.Inv.drop_small (hw : w.Inv) (ha : a ∈ w.live) (hsmall : a.large = false) :
    ∃ page, w.heap.slab.header (pageOf a.ptr) = some page ∧
      World.Inv { heap := { w.heap with slab := slabFree w.heap.slab a.ptr page }
                  live := w.live.filter fun b => b.ptr ≠ a.ptr } := by
  obtain ⟨base, page, hpage, hobj, _⟩ := hw.small a ha hsmall
  obtain ⟨haligned, _, hbelow⟩ := hw.heap.slab.page_aligned base page hpage
  obtain ⟨hinv, hext⟩ := Slab.slabFree_spec hw.heap.slab hpage hobj
  refine ⟨page, by rwa [Slab.pageOf_objAt hobj haligned hbelow], hw.drop _ { hw.heap with slab := hinv, pages_apart := ?_ }
    (fun _ hb _ _ => hb) hext⟩
  intro base' page' hpage' r hr
  rcases hext.only base' page' hpage' with ⟨page'', hpage''⟩ | ⟨_, hzero⟩
  · exact hw.heap.pages_apart base' page'' hpage'' r hr
  · exact absurd rfl hzero

/-- A block is marked free, and free blocks are joined. -/
theorem State.Inv.freed (hs : s.Inv) (hsep : Separated s.regions (markFree ptr s.blocks)) :
    ({ s with blocks := markFree ptr s.blocks } : State).Inv ∧
      ({ s with blocks := coalesceBlocks (markFree ptr s.blocks) } : State).Inv := by
  have htiles : Tiles Block.addr Block.stop 0 0 (s.regions.map Region.interval) (markFree ptr s.blocks) := by
    refine hs.tiles.map ?_ ?_
    all_goals
      intro b
      split <;> rfl
  refine ⟨{ hs with tiles := htiles }, { hs with tiles := ?_ }⟩
  exact coalesceBlocks_tiles htiles (Nat.zero_le _) (short_of_bounded hs.bounded) hsep.intervals

theorem World.Inv.drop_large (hw : w.Inv) (hsep : Separated w.heap.regions (markFree ptr w.heap.blocks)) :
    World.Inv { heap := { w.heap with blocks := coalesceBlocks (markFree ptr w.heap.blocks) }
                live := w.live.filter fun a => a.ptr ≠ ptr } := by
  refine hw.drop _ (hw.heap.freed hsep).2 (fun b hb hused hne => ?_) (Slab.Extends.refl _ _)
  exact mem_coalesceBlocks hused (List.mem_map.mpr ⟨b, hb, if_neg hne⟩)

/-- **`kfree` keeps the invariant.** -/
theorem step_kfree_inv (hw : w.Inv) {forged : Option Page}
    (hlegal : Legal w (.kfree ptr forged)) (hsound : Sound w (.kfree ptr forged)) :
    (step w (.kfree ptr forged)).2.Inv := by
  obtain ⟨a, ha, rfl⟩ := hlegal
  have hsame := hw.drop a.ptr hw.heap (fun _ hb _ _ => hb) (Slab.Extends.refl _ _)
  show World.Inv { heap := kfree w.heap a.ptr forged, live := _ }
  unfold kfree
  split
  · exact hsame
  cases hl : a.large with
  | false =>
    obtain ⟨page, hpage, hinv⟩ := hw.drop_small ha hl
    have howns : slabOwns w.heap a.ptr forged = some page := by rw [slabOwns, hpage]
    rw [howns]
    exact hinv
  | true =>
    have hheader := hw.large_not_slab ha hl
    obtain ⟨hforged, hsep⟩ := hsound hheader
    have howns : slabOwns w.heap a.ptr forged = none := by rw [slabOwns, hheader, hforged]
    rw [howns]
    dsimp only
    split
    · exact hw.drop_large hsep
    · exact hsame

/-- The invariant holds after `heap_init`. -/
theorem initial_inv (hbelow : phys + heapInitialSize ≤ 2 ^ 32) : (initial phys).Inv := by
  have hnone : ∀ t, t = Slab.State.empty → ∀ base page, t.header base ≠ some page := by
    rintro t rfl base page hpage
    cases hpage
  refine ⟨?_, List.forall_mem_nil _, List.forall_mem_nil _, List.forall_mem_nil _, List.Pairwise.nil⟩
  show (heapInit phys).Inv
  unfold heapInit
  split
  · exact ⟨.done, List.forall_mem_nil _, List.Pairwise.nil,
      ⟨fun b p h => absurd h (hnone _ rfl b p), fun b p h => absurd h (hnone _ rfl b p),
        fun _ _ h => absurd h List.not_mem_nil, fun _ => List.nodup_nil⟩,
      fun b p h => absurd h (hnone _ rfl b p)⟩
  refine ⟨?_, ?_, List.pairwise_singleton _ _, Slab.slabInit_inv rfl,
    fun b p h => absurd h (hnone Slab.State.empty rfl b p)⟩
  · have hnil : Tiles Block.addr Block.stop 0 0 [] [] := .done
    have hroom : phys < phys + heapInitialSize := Nat.lt_add_of_pos_right (by decide)
    exact hnil.snoc hroom rfl
      (regionBlock_stop (by decide) (by decide))
  · exact List.forall_mem_singleton.mpr ⟨Nat.le_refl _, hbelow⟩

end

/-! ## Every run -/

theorem step_inv {w : World} (hw : w.Inv) {c : Call} (hc : Legal w c ∧ Sound w c) : (step w c).2.Inv := by
  cases c with
  | kmalloc size frame grow => exact step_kmalloc_inv hw hc.1 hc.2
  | kfree ptr forged => exact step_kfree_inv hw hc.1 hc.2

/-- **Large allocations are safe in every sound run.** After `heap_init` and any calls in which no
    size wraps, no blocks of different regions are joined and no freed block is taken for a slab
    object, each live allocation of the large path lies inside one region, overlaps no other live
    allocation and contains no block header. -/
theorem large_allocations_safe (phys : Nat) (hphys : phys + heapInitialSize ≤ 2 ^ 32) (calls : List Call)
    (hrun : Guarded step (fun w c => Legal w c ∧ Sound w c) (initial phys) calls) :
    LargeSafe (exec step (initial phys) calls).2 := by
  have hkept : ∀ w, w.Inv → Guarded step (fun w c => Legal w c ∧ Sound w c) w calls →
      (exec step w calls).2.Inv := exec_inv (fun _ _ hw hc => step_inv hw hc) calls
  exact (hkept _ (initial_inv hphys) hrun).largeSafe

/-- The first region is used up, the heap grows by a region elsewhere, and the block taken from it is
    freed again. -/
def growingRun : List Call :=
  [.kmalloc 4194272 0 0, .kmalloc 5000 0 0x1000000, .kfree 0x1000018 none]

/-- A run with a growth and a join meets the conditions. -/
theorem large_allocations_safe_growing :
    Guarded step (fun w c => Legal w c ∧ Sound w c) (initial 0x100000) growingRun ∧
      LargeSafe (exec step (initial 0x100000) growingRun).2 := by
  have hrun : Guarded step (fun w c => Legal w c ∧ Sound w c) (initial 0x100000) growingRun := by
    refine ⟨⟨⟨fun h => absurd rfl h, fun h => absurd rfl h, fun h => absurd rfl h⟩, by decide,
      fun h => absurd rfl h.2.2.2.2.1⟩, ⟨⟨fun h => absurd rfl h, fun _ => ⟨by decide, by decide,
      by decide, fun _ _ h => by cases h⟩, fun h => absurd rfl h⟩, by decide, fun _ => by decide⟩,
      ⟨⟨⟨0x1000018, 5000, true⟩, by decide, rfl⟩, fun _ => ⟨rfl, by decide⟩⟩, trivial⟩
  exact ⟨hrun, large_allocations_safe _ (by decide) _ hrun⟩

/-- 3 MB are taken from the first region; 1.5 MB do not fit in what is left of it, so the heap grows by
    a region that stands elsewhere. -/
def crossingRun : List Call :=
  [.kmalloc 0x300000 0 0, .kmalloc 0x180000 0 0x1000000]

/-- **Joining list neighbours across regions.** The free rest of the first region and the new region
    are joined to one block, and the second allocation runs over the end of the first region. -/
theorem grown_heap_joins_regions : Guarded step Legal (initial 0x100000) crossingRun ∧
      ¬ LargeSafe (exec step (initial 0x100000) crossingRun).2 := by
  constructor
  · exact ⟨⟨fun h => absurd rfl h, fun h => absurd rfl h, fun h => absurd rfl h⟩,
      ⟨fun h => absurd rfl h, fun _ => ⟨by decide, by decide, by decide, fun _ _ h => by cases h⟩,
        fun h => absurd rfl h⟩, trivial⟩
  intro hsafe
  have hlive : (⟨0x400030, 0x180000, true⟩ : Alloc)
      ∈ (exec step (initial 0x100000) crossingRun).2.live := by decide
  obtain ⟨r, hr, hlo, hhi⟩ := hsafe.in_region _ hlive rfl
  rcases List.mem_cons.mp hr with rfl | hr
  · exact absurd hhi (by decide)
  · obtain rfl := List.mem_singleton.mp hr
    exact absurd hlo (by decide)

end Lyth.Heap
