/-
  User page tables and copy-on-write (`kernel/mem/paging.c`).

    1. The program.  A user directory is a chain PML4 → PDPT → PD → two page tables; the user window
       is 4 MB, 1024 pages of 4 KB.  `cowClone` gives a new directory the pages of an old one, read-only
       and marked COW on both sides, and counts a reference for each; `cowResolve` makes a COW page
       writable, in place if it is the last one of its frame and else on a copy; `releaseUserPages`
       gives all pages back.
    2. Specification.  Directories behave as PRIVATE memories: a fork copies the memory of its parent,
       a write changes the memory of the writer.  Each frame that is mapped has as its reference count the
       number of its mappings.  That is stated and proved in `Lyth.CowIsolation`.
    3. Crux.  A directory is handled through its `Chain`: the five tables, linked as the code links them.
       On a chain the walk of the code ends at the `leaf` of the page, whatever the address.

  A frame holds either table entries or user bytes, and a table entry is a record of the bits the code
  reads.  The TLB is not modelled: each change of a present entry is followed by its invalidation.

  The code takes the physical address of a frame for a pointer to it: memory is mapped to itself.  In a user
  directory that does not hold of the user window, 0x01000000 to 0x013FFFFF, which is mapped to the pages of the
  program.  Tables are read and written here at their physical address whatever directory is loaded, as they are
  when no table stands in the window.  The copy of `cowResolve` goes through the directory that is loaded
  (`kernelFrame`), as on the machine.
-/
import Lyth.Lib.Cow
import Lyth.Physmem

namespace Lyth.Paging

open Loop Run Function
open Physmem (physmemAllocFrame physmemFreeFrame physmemRefFrame physmemUnrefFrame
  physmemFrameRefcount)

/-! ## Constants -/

/-- `PAGING_PAGE_SIZE`. -/
abbrev pageSize : Nat := 0x1000

/-- `ENTRIES_PER_TABLE`.  Irreducible, so that no proof runs a loop over a table. -/
@[irreducible]
def entriesPerTable : Nat := 512

/-- `PAGING_USER_BASE`. -/
def userBase : Nat := 0x01000000

/-- `PAGING_USER_SIZE`. -/
def userSize : Nat := 0x00400000

/-- `PAGING_USER_STACK_GUARD_BASE`. -/
def userStackGuardBase : Nat := userBase + userSize - 0x1000 - pageSize

/-- `PAGING_USER_SHM_BASE`: 16 pages below the guard page. -/
def userShmBase : Nat := userStackGuardBase - 16 * pageSize

/-- `USER_PD_START`. -/
def userPdStart : Nat := 8

/-- `USER_PD_COUNT`. -/
def userPdCount : Nat := 2

/-- The pages of the user window. -/
def userPages : Nat := 1024

/-- `PML4_IDX(va)`. -/
def pml4Idx (va : Nat) : Nat := va / 2 ^ 39 % 512

/-- `PDPT_IDX(va)`. -/
def pdptIdx (va : Nat) : Nat := va / 2 ^ 30 % 512

/-- `PD_IDX(va)`. -/
def pdIdx (va : Nat) : Nat := va / 2 ^ 21 % 512

/-- `PT_IDX(va)`. -/
def ptIdx (va : Nat) : Nat := va / 2 ^ 12 % 512

/-! ## Address validation -/

/-- `paging_address_is_user_accessible`. -/
def pagingAddressIsUserAccessible (address size : Nat) : Bool :=
  if size = 0 then false
  else
    let last := (address + size) % 2 ^ 64
    if last < address then false
    else decide (userBase ≤ address) && decide (last ≤ userBase + userSize)

/-- `paging_directory_user_buffer_is_accessible`, of a directory that lets user code reach the pages
    `page`: every page that the buffer touches, from the one its first byte is in. -/
def pagingDirectoryUserBufferIsAccessible (page : Nat → Bool) (address size : Nat) : Bool :=
  if !pagingAddressIsUserAccessible address size then false
  else
    let first := address / pageSize
    (List.range' first ((address + size + pageSize - 1) / pageSize - first)).all page

theorem range_of_accessible {page : Nat → Bool} {address size : Nat} (hsize : size < 2 ^ 63)
    (h : pagingDirectoryUserBufferIsAccessible page address size) :
    userBase ≤ address ∧ address + size ≤ userBase + userSize := by
  unfold pagingDirectoryUserBufferIsAccessible at h
  split at h
  · cases h
  rename_i hrange
  simp only [Bool.not_eq_true, Bool.not_eq_false', pagingAddressIsUserAccessible] at hrange
  split at hrange
  · cases hrange
  split at hrange
  · cases hrange
  · have hb := Bool.and_eq_true_iff.mp hrange
    have h1 := of_decide_eq_true hb.1
    have h2 := of_decide_eq_true hb.2
    omega

/-! ## Memory -/

/-- A table entry: the address it holds and the bits the code looks at. -/
structure Pte where
  phys : Nat
  present : Bool
  writable : Bool
  user : Bool
  ps : Bool
  cow : Bool
deriving DecidableEq

/-- The entry 0. -/
@[simps]
def Pte.zero : Pte :=
  { phys := 0, present := false, writable := false, user := false, ps := false, cow := false }

/-- `phys | PG_PRESENT | PG_WRITABLE | PG_USER`: the entry of a table, and of a writable page. -/
@[simps]
def Pte.rw (phys : Nat) : Pte :=
  { phys, present := true, writable := true, user := true, ps := false, cow := false }

/-- `phys | PG_PRESENT | PG_USER | PG_COW`. -/
@[simps]
def Pte.shared (phys : Nat) : Pte :=
  { phys, present := true, writable := false, user := true, ps := false, cow := true }

/-- The frame allocator, and the contents of frames by address: table entries, or bytes. -/
structure State where
  frames : Physmem.State
  tables : Nat → Nat → Pte
  bytes : Nat → Fin pageSize → UInt8
  kernelPml4 : Nat
  kernelPdpt : Nat
  kernelPd0 : Nat

/-- `table[idx] = entry`. -/
def State.setEntry (s : State) (table idx : Nat) (entry : Pte) : State :=
  { s with tables := update s.tables table (update (s.tables table) idx entry) }

/-- `physmem_alloc_frame()`. -/
def State.allocFrame (s : State) : Nat × State :=
  ((physmemAllocFrame s.frames).1, { s with frames := (physmemAllocFrame s.frames).2 })

/-- `physmem_free_frame(phys)`. -/
def State.freeFrame (s : State) (phys : Nat) : State :=
  { s with frames := physmemFreeFrame s.frames phys }

/-- `n` calls of `physmem_alloc_frame()` in a row, and what they answer in order. -/
def State.allocFrames : Nat → State → List Nat × State
  | 0, s => ([], s)
  | n + 1, s => (s.allocFrame.1 :: (State.allocFrames n s.allocFrame.2).1,
      (State.allocFrames n s.allocFrame.2).2)

/-- Free those of the frames that were allocated, in order. -/
def State.freeFrames (s : State) (frames : List Nat) : State :=
  frames.foldl (fun s phys => if phys ≠ 0 then s.freeFrame phys else s) s

/-- `physmem_ref_frame(phys)`. -/
def State.refFrame (s : State) (phys : Nat) : State :=
  { s with frames := physmemRefFrame s.frames phys }

/-- `physmem_unref_frame(phys)`. -/
def State.unrefFrame (s : State) (phys : Nat) : State :=
  { s with frames := physmemUnrefFrame s.frames phys }

/-- `for (i = 0; i < ENTRIES_PER_TABLE; i++) dst[i] = src[i]`. -/
def State.copyTable (s : State) (src dst : Nat) : State :=
  forRange 0 entriesPerTable (fun i s => s.setEntry dst i (s.tables src i)) s

/-- `for (i = 0; i < ENTRIES_PER_TABLE; i++) table[i] = 0`. -/
def State.clearTable (s : State) (table : Nat) : State :=
  forRange 0 entriesPerTable (fun i s => s.setEntry table i Pte.zero) s

/-! ## Directories -/

/-- `user_pt_for(pml4, va)`: the page table that covers `va`, or 0. -/
def userPtFor (s : State) (pml4 va : Nat) : Nat :=
  if pml4 = 0 then 0
  else
    let e := s.tables pml4 (pml4Idx va)
    if !e.present then 0
    else
      let e := s.tables e.phys (pdptIdx va)
      if !e.present then 0
      else
        let e := s.tables e.phys (pdIdx va)
        if !e.present || e.ps then 0 else e.phys

/-- The address lies in the user window. -/
def inUser (va : Nat) : Bool := decide (userBase ≤ va) && decide (va < userBase + userSize)

/-- The body of the loop of `paging_create_user_directory` that fills the page tables. -/
def mapInitialPage (userPhysicalBase pt0 pt1 page : Nat) (s : State) : State :=
  if userBase + page * pageSize = userStackGuardBase then s
  else
    let pa := userPhysicalBase + page * pageSize
    if page ≥ entriesPerTable then s.setEntry pt1 (page - entriesPerTable) (Pte.rw pa)
    else s.setEntry pt0 page (Pte.rw pa)

/-- Linking the tables of a new directory: the kernel's entries, and the new tables over them. -/
def linkUserDirectory (s : State) (pml4 pdpt pd pt0 pt1 : Nat) : State :=
  let kernelPdpt := s.kernelPdpt
  let kernelPd0 := s.kernelPd0
  let s := (s.copyTable s.kernelPml4 pml4).setEntry pml4 0 (Pte.rw pdpt)
  let s := (s.copyTable kernelPdpt pdpt).setEntry pdpt 0 (Pte.rw pd)
  ((s.copyTable kernelPd0 pd).setEntry pd userPdStart (Pte.rw pt0)).setEntry pd (userPdStart + 1)
    (Pte.rw pt1)

/-- Filling its page tables with the pages of the region. -/
def fillUserPages (s : State) (userPhysicalBase pt0 pt1 : Nat) : State :=
  forRange 0 (userSize / pageSize) (mapInitialPage userPhysicalBase pt0 pt1)
    ((s.clearTable pt0).clearTable pt1)

/-- `paging_create_user_directory(user_physical_base)`. -/
def createUserDirectory (s : State) (userPhysicalBase : Nat) : Nat × State :=
  if s.kernelPml4 = 0 ∨ s.kernelPdpt = 0 ∨ s.kernelPd0 = 0 then (0, s)
  else
    match s.allocFrames 5 with
    | ([pml4, pdpt, pd, pt0, pt1], s) =>
      if 0 ∈ [pml4, pdpt, pd, pt0, pt1] then (0, s.freeFrames [pml4, pdpt, pd, pt0, pt1])
      else (pml4, fillUserPages (linkUserDirectory s pml4 pdpt pd pt0 pt1) userPhysicalBase pt0 pt1)
    | (_, s) => (0, s)

/-- `paging_map_user_page(pml4, va, pa, writable)`: 1 or 0, and the state. -/
def mapUserPage (s : State) (pml4 va pa : Nat) (writable : Bool) : Bool × State :=
  if pml4 = 0 || !inUser va || va % pageSize ≠ 0 || pa = 0 || pa % pageSize ≠ 0 then (false, s)
  else
    let pt := userPtFor s pml4 va
    if pt = 0 then (false, s)
    else (true, s.setEntry pt (ptIdx va) { Pte.rw pa with writable })

/-- `paging_unmap_user_page(pml4, va)`. -/
def unmapUserPage (s : State) (pml4 va : Nat) : Bool × State :=
  if pml4 = 0 || !inUser va || va % pageSize ≠ 0 then (false, s)
  else
    let pt := userPtFor s pml4 va
    if pt = 0 then (false, s) else (true, s.setEntry pt (ptIdx va) Pte.zero)

/-- The page tables of a directory, for `free_user_pts`. -/
def freeUserTable (pd i : Nat) (s : State) : State :=
  let pde := s.tables pd (userPdStart + i)
  if pde.present && !pde.ps then s.freeFrame pde.phys else s

/-- `free_user_pts(pml4)`. -/
def freeUserPts (s : State) (pml4 : Nat) : State :=
  let e := s.tables pml4 0
  if !e.present then s
  else
    let e' := s.tables e.phys 0
    let s := if e'.present then
        (forRange 0 userPdCount (freeUserTable e'.phys) s).freeFrame e'.phys
      else s
    s.freeFrame e.phys

/-- `paging_destroy_user_directory(pml4)`. -/
def destroyUserDirectory (s : State) (pml4 : Nat) : State :=
  if pml4 = 0 ∨ pml4 = s.kernelPml4 then s else (freeUserPts s pml4).freeFrame pml4

/-! ## Copy on write -/

/-- The address of page `p` of page table `ti`. -/
def pageVa (ti p : Nat) : Nat := userBase + (ti * entriesPerTable + p) * pageSize

/-- The page belongs to the shared-memory window, which a clone leaves out. -/
def inShm (va : Nat) : Bool := decide (userShmBase ≤ va) && decide (va < userStackGuardBase)

/-- The body of the loop of `paging_cow_clone_user_directory` over the entries of a page table. -/
def cowPage (ti parentPt childPt p : Nat) (s : State) : State :=
  let pte := s.tables parentPt p
  if !pte.present then s.setEntry childPt p Pte.zero
  else if inShm (pageVa ti p) then s.setEntry childPt p Pte.zero
  else
    ((s.setEntry parentPt p (Pte.shared pte.phys)).setEntry childPt p (Pte.shared pte.phys)).refFrame
      pte.phys

/-- One round of its outer loop; `false` if there is no frame for the child's page table. -/
def cloneTable (parentPd newPd ti : Nat) (s : State) : Bool × State :=
  let pde := s.tables parentPd (userPdStart + ti)
  if !pde.present || pde.ps then (true, s.setEntry newPd (userPdStart + ti) Pte.zero)
  else
    let (childPt, s) := s.allocFrame
    if childPt = 0 then (false, s)
    else
      (true, (forRange 0 entriesPerTable (cowPage ti pde.phys childPt) s).setEntry newPd
        (userPdStart + ti) (Pte.rw childPt))

/-- The cleanup when a page table could not be allocated: the ones before it are freed. -/
def freeClonedTable (newPd j : Nat) (s : State) : State :=
  let e := s.tables newPd (userPdStart + j)
  if e.present then s.freeFrame e.phys else s

/-- The outer loop, over the remaining page tables. -/
def cloneTables (parentPd newPd : Nat) : List Nat → State → Bool × State
  | [], s => (true, s)
  | ti :: tis, s =>
    match cloneTable parentPd newPd ti s with
    | (true, s) => cloneTables parentPd newPd tis s
    | (false, s) => (false, forRange 0 ti (freeClonedTable newPd) s)

/-- Cloning the PML4, the PDPT and the PD. -/
def linkClone (s : State) (parent parentPdpt parentPd pml4 pdpt pd : Nat) : State :=
  let s := (s.copyTable parent pml4).setEntry pml4 0 (Pte.rw pdpt)
  let s := (s.copyTable parentPdpt pdpt).setEntry pdpt 0 (Pte.rw pd)
  s.copyTable parentPd pd

/-- `paging_cow_clone_user_directory(parent_pml4)`: the new directory, or 0. -/
def cowClone (s : State) (parent : Nat) : Nat × State :=
  if parent = 0 ∨ s.kernelPml4 = 0 then (0, s)
  else if !(s.tables parent 0).present || (s.tables parent 0).phys = 0 then (0, s)
  else
    let parentPdpt := (s.tables parent 0).phys
    if !(s.tables parentPdpt 0).present || (s.tables parentPdpt 0).phys = 0 then (0, s)
    else
      let parentPd := (s.tables parentPdpt 0).phys
      match s.allocFrames 3 with
      | ([pml4, pdpt, pd], s) =>
        if 0 ∈ [pml4, pdpt, pd] then (0, s.freeFrames [pml4, pdpt, pd])
        else
          match cloneTables parentPd pd (List.range userPdCount)
              (linkClone s parent parentPdpt parentPd pml4 pdpt pd) with
          | (true, s) => (pml4, s)
          | (false, s) => (0, ((s.freeFrame pd).freeFrame pdpt).freeFrame pml4)
      | (_, s) => (0, s)

/-- The body of the loop of `paging_release_user_pages` over the entries of a page table. -/
def releasePage (pt p : Nat) (s : State) : State :=
  let pte := s.tables pt p
  if pte.present then (s.unrefFrame pte.phys).setEntry pt p Pte.zero else s

/-- One round of its outer loop. -/
def releaseTable (pml4 ti : Nat) (s : State) : State :=
  let pt := userPtFor s pml4 (pageVa ti 0)
  if pt = 0 then s else forRange 0 entriesPerTable (releasePage pt) s

/-- `paging_release_user_pages(pml4)`. -/
def releaseUserPages (s : State) (pml4 : Nat) : State :=
  if pml4 = 0 then s else forRange 0 userPdCount (releaseTable pml4) s

/-- The frame behind the address `a` when the kernel runs on the directory `pml4`: the one at `a` itself, but in
    the user window that of the page there.  `none`: no page is present, or a write is to a read-only page, which
    faults in the kernel too (`CR0.WP` is set). -/
def kernelFrame (s : State) (pml4 a : Nat) (write : Bool) : Option Nat :=
  if !inUser a then some a
  else
    let pt := userPtFor s pml4 a
    let pte := s.tables pt (ptIdx a)
    if pt = 0 || !pte.present || (write && !pte.writable) then none else some pte.phys

/-- `paging_cow_resolve(pml4, fault_address)`: 1 or 0, and the state.  `pml4` is the directory that is loaded: the
    handler passes that of the faulting task. -/
def cowResolve (s : State) (pml4 faultAddress : Nat) : Bool × State :=
  let pageAddr := faultAddress / pageSize * pageSize
  if pml4 = 0 || !inUser pageAddr then (false, s)
  else
    let pt := userPtFor s pml4 pageAddr
    if pt = 0 then (false, s)
    else
      let pte := s.tables pt (ptIdx pageAddr)
      if !pte.present || !pte.cow then (false, s)
      else if physmemFrameRefcount s.frames pte.phys = 1 then
        (true, s.setEntry pt (ptIdx pageAddr) (Pte.rw pte.phys))
      else
        let (new, s) := s.allocFrame
        if new = 0 then (false, s)
        else
          -- the copy loop runs over the whole frame, 512 words of 8 bytes
          match kernelFrame s pml4 new true, kernelFrame s pml4 pte.phys false with
          | some dst, some src =>
            let s := { s with bytes := update s.bytes dst (s.bytes src) }
            (true, (s.unrefFrame pte.phys).setEntry pt (ptIdx pageAddr) (Pte.rw new))
          -- the copy itself faults: the kernel stops
          | _, _ => (false, s)

/-! ## What user code sees -/

/-- The entry a user access to `va` ends at, in the user window. -/
def walk (s : State) (pml4 va : Nat) : Option Pte :=
  if inUser va && decide (userPtFor s pml4 va ≠ 0) then
    let pte := s.tables (userPtFor s pml4 va) (ptIdx va)
    if pte.present && pte.user then some pte else none
  else none

/-- The offset of an address in its page. -/
def pageOffset (va : Nat) : Fin pageSize := ⟨va % pageSize, Nat.mod_lt _ (by decide)⟩

/-- A user read; `none` faults. -/
def userRead (s : State) (pml4 va : Nat) : Option UInt8 :=
  (walk s pml4 va).map fun pte => s.bytes pte.phys (pageOffset va)

/-- A user write; `none` faults. -/
def userStore (s : State) (pml4 va : Nat) (value : UInt8) : Option State :=
  match walk s pml4 va with
  | none => none
  | some pte =>
    if pte.writable then
      let frame := update (s.bytes pte.phys) (pageOffset va) value
      some { s with bytes := update s.bytes pte.phys frame }
    else none

/-- A user write with its page fault: the fault handler tries `paging_cow_resolve`, and the write is
    made again if that succeeds. -/
def userWrite (s : State) (pml4 va : Nat) (value : UInt8) : Option State :=
  match userStore s pml4 va value with
  | some s' => some s'
  | none =>
    match cowResolve s pml4 va with
    | (true, s') => userStore s' pml4 va value
    | (false, _) => none

/-! ## Tables after a write -/

section

variable (s : State) (table idx phys : Nat) (entry : Pte)

@[simp] theorem setEntry_frames : (s.setEntry table idx entry).frames = s.frames := rfl

@[simp] theorem setEntry_bytes : (s.setEntry table idx entry).bytes = s.bytes := rfl

@[simp] theorem refFrame_tables : (s.refFrame phys).tables = s.tables := rfl

@[simp] theorem unrefFrame_tables : (s.unrefFrame phys).tables = s.tables := rfl

/-- The entry written, and every other one. -/
theorem setEntry_tables (t i : Nat) : (s.setEntry table idx entry).tables t i
      = if t = table ∧ i = idx then entry else s.tables t i := by
  show update s.tables table (update (s.tables table) idx entry) t i = _
  by_cases ht : t = table
  · subst ht
    rw [update_self, update_apply]
    by_cases hi : i = idx
    · rw [if_pos hi, if_pos ⟨rfl, hi⟩]
    · rw [if_neg hi, if_neg fun h => hi h.2]
  · rw [update_of_ne ht, if_neg fun h => ht h.1]

end

/-- Copying a table onto another one. -/
theorem copyTable_spec (s : State) {src dst : Nat} (hne : src ≠ dst) :
    (s.copyTable src dst).frames = s.frames ∧ (s.copyTable src dst).bytes = s.bytes ∧
      (s.copyTable src dst).kernelPml4 = s.kernelPml4 ∧
      ∀ t i, (s.copyTable src dst).tables t i
        = if t = dst ∧ i < entriesPerTable then s.tables src i else s.tables t i := by
  refine forRange_inv (P := fun k (s' : State) => s'.frames = s.frames ∧ s'.bytes = s.bytes ∧
    s'.kernelPml4 = s.kernelPml4 ∧
    ∀ t i, s'.tables t i = if t = dst ∧ i < k then s.tables src i else s.tables t i)
    (Nat.zero_le _) ⟨rfl, rfl, rfl, fun t i => (if_neg fun h => Nat.not_lt_zero _ h.2).symm⟩ ?_
  rintro k s' _ _ ⟨hframes, hbytes, hkernel, htables⟩
  refine ⟨hframes, hbytes, hkernel, fun t i => ?_⟩
  rw [setEntry_tables]
  grind

/-- Clearing a table. -/
theorem clearTable_spec (s : State) (table : Nat) :
    (s.clearTable table).frames = s.frames ∧ (s.clearTable table).bytes = s.bytes ∧
      ∀ t i, (s.clearTable table).tables t i
        = if t = table ∧ i < entriesPerTable then Pte.zero else s.tables t i := by
  refine forRange_inv (P := fun k (s' : State) => s'.frames = s.frames ∧ s'.bytes = s.bytes ∧
    ∀ t i, s'.tables t i = if t = table ∧ i < k then Pte.zero else s.tables t i)
    (Nat.zero_le _) ⟨rfl, rfl, fun t i => (if_neg fun h => Nat.not_lt_zero _ h.2).symm⟩ ?_
  rintro k s' _ _ ⟨hframes, hbytes, htables⟩
  refine ⟨hframes, hbytes, fun t i => ?_⟩
  rw [setEntry_tables]
  grind

/-! ## A directory as a chain of tables -/

/-- The frames that hold the tables of a user directory. -/
structure Dir where
  pml4 : Nat
  pdpt : Nat
  pd : Nat
  pt0 : Nat
  pt1 : Nat
deriving DecidableEq

def Dir.pt (D : Dir) (ti : Nat) : Nat := if ti = 0 then D.pt0 else D.pt1

def Dir.frames (D : Dir) : List Nat := [D.pml4, D.pdpt, D.pd, D.pt0, D.pt1]

/-- The tables are linked as `paging_create_user_directory` links them. -/
structure Chain (s : State) (D : Dir) : Prop where
  pml4 : s.tables D.pml4 0 = Pte.rw D.pdpt
  pdpt : s.tables D.pdpt 0 = Pte.rw D.pd
  pd : ∀ ti < userPdCount, s.tables D.pd (userPdStart + ti) = Pte.rw (D.pt ti)
  ne_zero : 0 ∉ D.frames

/-- The page of the user window an address lies in. -/
def pageNo (va : Nat) : Nat := (va - userBase) / pageSize

/-- The entry of page `p` of the user window. -/
def leaf (s : State) (D : Dir) (p : Nat) : Pte :=
  s.tables (D.pt (p / entriesPerTable)) (p % entriesPerTable)

/-- Where an address of the user window stands in the four tables. -/
theorem idx_user {va : Nat} (h : inUser va) :
    pml4Idx va = 0 ∧ pdptIdx va = 0 ∧ pdIdx va = userPdStart + pageNo va / entriesPerTable ∧
      ptIdx va = pageNo va % entriesPerTable ∧ pageNo va < userPages := by
  obtain ⟨hlo, hhi⟩ := Bool.and_eq_true_iff.mp h
  have hlo := of_decide_eq_true hlo
  have hhi := of_decide_eq_true hhi
  simp only [userBase, userSize] at hlo hhi
  simp only [pml4Idx, pdptIdx, pdIdx, ptIdx, pageNo, userPdStart, entriesPerTable, userPages, userBase,
    pageSize]
  omega

theorem inUser_pageVa {p : Nat} (hp : p < userPages) :
    inUser (pageVa 0 p) ∧ pageNo (pageVa 0 p) = p := by
  refine ⟨Bool.and_eq_true_iff.mpr ⟨decide_eq_true ?_, decide_eq_true ?_⟩, ?_⟩ <;>
    simp only [pageNo, pageVa, userPages, userSize, pageSize] at * <;>
    omega

section

variable {s : State} {D : Dir} {va : Nat}

theorem Dir.pt_mem (D : Dir) (ti : Nat) : D.pt ti ∈ D.frames := by
  unfold Dir.pt Dir.frames
  split <;> simp

theorem Chain.upper_ne_zero (h : Chain s D) : D.pml4 ≠ 0 ∧ D.pdpt ≠ 0 ∧ D.pd ≠ 0 := by
  have hne := h.ne_zero
  simp only [Dir.frames, List.mem_cons, not_or] at hne
  exact ⟨Ne.symm hne.1, Ne.symm hne.2.1, Ne.symm hne.2.2.1⟩

/-- The page tables are none of the upper tables. -/
theorem Dir.upper_ne_pt (h : D.frames.Nodup) {t : Nat} (ht : t ∈ [D.pml4, D.pdpt, D.pd]) (ti : Nat) :
    t ≠ D.pt ti := by
  simp only [Dir.frames, List.nodup_cons, List.mem_cons, List.not_mem_nil, or_false] at h ht
  unfold Dir.pt
  split <;> rcases ht with rfl | rfl | rfl <;> tauto

theorem Chain.pt_ne_zero (h : Chain s D) (ti : Nat) : D.pt ti ≠ 0 :=
  fun heq => h.ne_zero (heq ▸ D.pt_mem ti)

/-- The code finds the page table of an address by walking the chain. -/
theorem Chain.userPtFor (h : Chain s D) (hva : inUser va) :
    userPtFor s D.pml4 va = D.pt (pageNo va / entriesPerTable) := by
  obtain ⟨h1, h2, h3, _, hlt⟩ := idx_user hva
  have hti : pageNo va / entriesPerTable < userPdCount := by
    simp only [entriesPerTable, userPdCount, userPages] at hlt ⊢
    omega
  unfold Paging.userPtFor
  rw [if_neg h.upper_ne_zero.1]
  simp only [h1, h2, h3, h.pml4, h.pdpt, h.pd _ hti, Pte.rw_present, Pte.rw_phys, Pte.rw_ps,
    Bool.not_true, Bool.or_self, Bool.false_eq_true, if_false]

theorem Chain.userPtFor_ne_zero (h : Chain s D) (hva : inUser va) :
    Paging.userPtFor s D.pml4 va ≠ 0 := by
  rw [h.userPtFor hva]
  exact h.pt_ne_zero _

/-- Its entry is the leaf of the page. -/
theorem Chain.entry (h : Chain s D) (hva : inUser va) :
    s.tables (Paging.userPtFor s D.pml4 va) (ptIdx va) = leaf s D (pageNo va) := by
  rw [h.userPtFor hva, (idx_user hva).2.2.2.1]
  rfl

end

end Lyth.Paging
