/-
  Buffers that system calls write to (`kernel/mem/paging.c`, `kernel/syscall.c`, `kernel/interrupts.c`).

    1. The program.   A system call that stores into user memory first asks
       `paging_directory_user_buffer_is_accessible`, which walks the tables of every page of the buffer and
       looks at `PG_PRESENT` and `PG_USER`.  Then the kernel stores.  Boot has set CR0.WP, so a store to a
       read-only page faults in kernel mode too, and the fault handler resolves copy-on-write faults of
       USER MODE only.
    2. Specification.  A buffer that is accepted is mapped writable (`Writable`), so that the store goes
       through (`kernelStore`).
    3. Crux.  The two tests are about different bits.  In every state that spawning, forking, faulting, and
       attaching shared memory can reach, a present user entry is writable or marked `PG_COW`, and never
       both (`EntryOk`); so an accepted buffer is writable EXACTLY IF none of its pages is marked.  A fork marks
       all pages of both tasks outside the shared-memory window.
-/
import Lyth.CowIsolation
import Lyth.Shm

namespace Lyth.UserBuffer

open Loop Table Run Paging Directory
open Shm (World taskMaxCount shmMaxSegments shmMaxMappings Mapping)
open Physmem (frameAddr lowFrames physmemFrameSize)

/-! ## The model -/

/-- `page_is_user_accessible(pml4, address)`. -/
def pageIsUserAccessible (s : State) (pml4 address : Nat) : Bool :=
  if pml4 = 0 then false
  else if !inUser address then false
  else
    let e := s.tables pml4 (pml4Idx address)
    if !e.present || !e.user then false
    else
      let e := s.tables e.phys (pdptIdx address)
      if !e.present || !e.user then false
      else
        let e := s.tables e.phys (pdIdx address)
        if !e.present || !e.user then false
        else if e.ps then true
        else
          let e := s.tables e.phys (ptIdx address)
          e.present && e.user

/-- `paging_directory_user_buffer_is_accessible(pml4, address, size)`. -/
def accepts (s : State) (pml4 : Nat) (address size : UInt64) : Bool :=
  pagingDirectoryUserBufferIsAccessible (fun page => pageIsUserAccessible s pml4 (page * pageSize)) address.toNat size.toNat

/-- The entries that the processor goes through for an access to `address`. -/
def entriesFor (s : State) (pml4 address : Nat) : List Pte :=
  let e1 := s.tables pml4 (pml4Idx address)
  let e2 := s.tables e1.phys (pdptIdx address)
  let e3 := s.tables e2.phys (pdIdx address)
  if e3.ps then [e1, e2, e3] else [e1, e2, e3, s.tables e3.phys (ptIdx address)]

/-- A store of the kernel to `address`, with CR0.WP set, does not fault: on every level the entry is
    present and writable. -/
def kernelStore (s : State) (pml4 address : Nat) : Bool :=
  (entriesFor s pml4 address).all fun e => e.present && e.writable

/-- Taking an address space apart: its pages if they are counted one by one, and its tables.  A region in
    one piece goes back to the frame allocator as a whole. -/
def dispose (m : State) (dir : Nat) (release : Bool) : State :=
  destroyUserDirectory (if release then releaseUserPages m dir else m) dir

/-- The part of `task_fork_from_frame` that is about memory; `stack` is whether the kernel stack of the
    child could be had. -/
def taskFork (w : World) (t : Fin taskMaxCount) (stack : Bool) : World :=
  match firstIdx fun u => !(w.tasks u).used with
  | none => w
  | some slot =>
    let childDir := (cowClone w.mem (w.tasks t).dir).1
    let w := w.setMem (cowClone w.mem (w.tasks t).dir).2
    if childDir = 0 then w
    else if !stack then w.setMem (dispose w.mem childDir true)
    else
      match Shm.shmCloneMappings
          (w.setTask slot { used := true, dir := childDir, slots := fun _ => Mapping.empty }) t slot with
      | (true, w) => w
      | (false, w) =>
        (w.setMem (dispose w.mem childDir true)).setTask slot { w.tasks slot with used := false }

/-- The part of `task_exec_current_user_from_frame` that is about memory: the task goes on in the new directory, and
    what it had attached and mapped in the old one goes. -/
def taskExec (w : World) (t : Fin taskMaxCount) (dir : Nat) (release : Bool) : World :=
  if dir = 0 then w
  else
    let old := (w.tasks t).dir
    let w := Shm.shmDetachAll w t
    (w.setMem (dispose w.mem old release)).setTask t
      { w.tasks t with dir, slots := fun _ => Mapping.empty }

/-- The part of `clear_task` that is about memory. -/
def taskClear (w : World) (t : Fin taskMaxCount) (release : Bool) : World :=
  let old := (w.tasks t).dir
  let w := Shm.clearTask w t
  w.setMem (dispose w.mem old release)

/-- One event: the system calls of `shm.c`; a task that is spawned over the region at `base`, forked,
    given a new program, ended; a write fault of a task in user mode; and any other use of the frame
    allocator. -/
inductive Call
  | create (size : Nat)
  | attach (t : Fin taskMaxCount) (segmentId : Int)
  | detach (t : Fin taskMaxCount) (address : Nat)
  | unlink (segmentId : Int)
  | spawn (base : Nat)
  | fork (t : Fin taskMaxCount) (stack : Bool)
  | execute (t : Fin taskMaxCount) (base : Nat) (release : Bool)
  | clear (t : Fin taskMaxCount) (release : Bool)
  | fault (t : Fin taskMaxCount) (address : Nat)
  | frames (fr : Physmem.State)

/-- The events that a system call returns from, as a step of memory, the segments and the tasks. -/
def next (w : World) : Call → World
  | .create size => (Shm.shmCreate w size).2
  | .attach t segmentId => if (w.tasks t).used then (Shm.shmAttach w t segmentId).2 else w
  | .detach t address => if (w.tasks t).used then (Shm.shmDetach w t address).2 else w
  | .unlink segmentId => (Shm.shmUnlink w segmentId).2
  | .spawn base =>
    let r := createUserDirectory w.mem base
    (Shm.step (w.setMem r.2) (.spawn r.1)).2
  | .fork t stack => if (w.tasks t).used then taskFork w t stack else w
  | .execute t base release =>
    if (w.tasks t).used then
      let r := createUserDirectory w.mem base
      taskExec (w.setMem r.2) t r.1 release
    else w
  | .clear t release => taskClear w t release
  | .fault t address => w.setMem (cowResolve w.mem (w.tasks t).dir address).2
  | .frames fr => w.setMem { w.mem with frames := fr }

def step (w : World) (c : Call) : Unit × World := ((), next w c)

/-! ## Specification -/

/-- Every byte of the buffer can be stored by the kernel. -/
def Writable (s : State) (pml4 : Nat) (address size : UInt64) : Prop :=
  ∀ va, address.toNat ≤ va → va < address.toNat + size.toNat → kernelStore s pml4 va

/-- A page of the buffer is marked copy-on-write. -/
def Marked (s : State) (pml4 : Nat) (address size : UInt64) : Prop :=
  ∃ va, address.toNat ≤ va ∧ va < address.toNat + size.toNat ∧ ∃ e ∈ entriesFor s pml4 va, e.cow

/-- A present entry for the user is either writable or copy-on-write. -/
def EntryOk (e : Pte) : Prop := e.present → e.user → e.cow = !e.writable

/-- Every entry of every table has the property. -/
def All (ok : Pte → Prop) (s : State) : Prop := ∀ t i, ok (s.tables t i)

/-- A property that the empty entry and the entries of new tables and pages have. -/
structure Kind (ok : Pte → Prop) : Prop where
  zero : ok Pte.zero
  rw : ∀ phys, ok (Pte.rw phys)

/-! ## Every event keeps a property of all entries -/

section

variable {ok : Pte → Prop} {s s' : State} {w : World}

theorem All.of_tables (h : All ok s) (htables : s'.tables = s.tables) : All ok s' := by
  intro t i
  rw [htables]
  exact h t i

theorem All.setEntry (h : All ok s) {e : Pte} (he : ok e) (table idx : Nat) : All ok (s.setEntry table idx e) := by
  intro t i
  rw [setEntry_tables]
  split
  · exact he
  · exact h t i

theorem All.forRange (h : All ok s) {lo hi : Nat} {body : Nat → State → State}
    (hbody : ∀ i s, All ok s → All ok (body i s)) : All ok (Loop.forRange lo hi body s) :=
  forRange_keeps hbody h

section

variable (h : All ok s)
include h

theorem All.copyTable (src dst : Nat) : All ok (s.copyTable src dst) :=
  h.forRange fun i _ hs => hs.setEntry (hs src i) dst i

theorem All.clearTable (hk : Kind ok) (table : Nat) : All ok (s.clearTable table) :=
  h.forRange fun i _ hs => hs.setEntry hk.zero table i

theorem All.freeFrames (frames : List Nat) : All ok (s.freeFrames frames) := by
  induction frames generalizing s with
  | nil => exact h
  | cons f frames ih =>
    refine ih ?_
    dsimp only
    split
    · exact h.of_tables rfl
    · exact h

theorem All.allocFrames (n : Nat) : All ok (s.allocFrames n).2 :=
  h.of_tables (allocFrames_same n s).2.1

section

variable (hk : Kind ok)
include hk

theorem All.linkUserDirectory (pml4 pdpt pd pt0 pt1 : Nat) :
    All ok (linkUserDirectory s pml4 pdpt pd pt0 pt1) := by
  have hpml4 := (h.copyTable s.kernelPml4 pml4).setEntry (hk.rw pdpt) pml4 0
  have hpdpt := (hpml4.copyTable s.kernelPdpt pdpt).setEntry (hk.rw pd) pdpt 0
  have hpd := (hpdpt.copyTable s.kernelPd0 pd).setEntry (hk.rw pt0) pd userPdStart
  exact hpd.setEntry (hk.rw pt1) pd (userPdStart + 1)

theorem All.fillUserPages (base pt0 pt1 : Nat) : All ok (fillUserPages s base pt0 pt1) := by
  refine All.forRange ((h.clearTable hk pt0).clearTable hk pt1) fun page s hs => ?_
  unfold mapInitialPage
  -- the guard page stays unmapped; the rest goes to the first or the second table
  by_cases hguard : userBase + page * pageSize = userStackGuardBase
  · rwa [if_pos hguard]
  rw [if_neg hguard]
  by_cases hsecond : page ≥ entriesPerTable
  · rw [if_pos hsecond]
    exact hs.setEntry (hk.rw _) _ _
  · rw [if_neg hsecond]
    exact hs.setEntry (hk.rw _) _ _

theorem All.createUserDirectory (base : Nat) : All ok (createUserDirectory s base).2 := by
  have halloc := h.allocFrames 5
  unfold Paging.createUserDirectory
  split
  · exact h
  split
  · rename_i pml4 pdpt pd pt0 pt1 s₀ heq
    rw [heq] at halloc
    split
    · exact halloc.freeFrames _
    · dsimp only at halloc ⊢
      exact (halloc.linkUserDirectory hk pml4 pdpt pd pt0 pt1).fillUserPages hk base pt0 pt1
  · rename_i heq
    rwa [heq] at halloc

section

variable (hshared : ∀ phys, ok (Pte.shared phys))
include hshared

theorem All.cowPage (ti parentPt childPt p : Nat) : All ok (cowPage ti parentPt childPt p s) := by
  unfold Paging.cowPage
  dsimp only
  split
  · exact h.setEntry hk.zero _ _
  · split
    · exact h.setEntry hk.zero _ _
    · exact ((h.setEntry (hshared _) _ _).setEntry (hshared _) _ _).of_tables rfl

theorem All.cloneTable (parentPd newPd ti : Nat) : All ok (cloneTable parentPd newPd ti s).2 := by
  unfold Paging.cloneTable
  dsimp only
  split
  · exact h.setEntry hk.zero _ _
  · have halloc : All ok s.allocFrame.2 := h.of_tables rfl
    split
    · exact halloc
    · exact (halloc.forRange fun p _ hs => hs.cowPage hk hshared ti _ _ p).setEntry (hk.rw _) _ _

theorem All.cloneTables (parentPd newPd : Nat) (tis : List Nat) :
    All ok (cloneTables parentPd newPd tis s).2 := by
  induction tis generalizing s with
  | nil => exact h
  | cons ti tis ih =>
    have hround := h.cloneTable hk hshared parentPd newPd ti
    unfold Paging.cloneTables
    split
    · rename_i heq
      rw [heq] at hround
      exact ih hround
    rename_i heq
    rw [heq] at hround
    refine hround.forRange fun j s hs => ?_
    unfold freeClonedTable
    dsimp only
    split
    · exact hs.of_tables rfl
    · exact hs

theorem All.cowClone (parent : Nat) : All ok (cowClone s parent).2 := by
  have halloc := h.allocFrames 3
  unfold Paging.cowClone
  split
  · exact h
  split
  · exact h
  dsimp only
  split
  · exact h
  split
  · rename_i pml4 pdpt pd s₀ heq
    rw [heq] at halloc
    split
    · exact halloc.freeFrames _
    have hlink : All ok (linkClone s₀ parent (s.tables parent 0).phys
        (s.tables (s.tables parent 0).phys 0).phys pml4 pdpt pd) :=
      ((((halloc.copyTable _ _).setEntry (hk.rw _) _ _).copyTable _ _).setEntry (hk.rw _) _ _).copyTable
        _ _
    have htables := hlink.cloneTables hk hshared (s.tables (s.tables parent 0).phys 0).phys pd (List.range userPdCount)
    split
    · rename_i heq₁
      rwa [heq₁] at htables
    · rename_i heq₁
      rw [heq₁] at htables
      exact htables.of_tables rfl
  · rename_i heq
    rwa [heq] at halloc

end

theorem All.cowResolve (pml4 va : Nat) : All ok (cowResolve s pml4 va).2 := by
  unfold Paging.cowResolve
  dsimp only
  split
  · exact h
  split
  · exact h
  split
  · exact h
  split
  · exact h.setEntry (hk.rw _) _ _
  · have halloc : All ok s.allocFrame.2 := h.of_tables rfl
    split
    · exact halloc
    split
    · exact All.setEntry (halloc.of_tables rfl) (hk.rw _) _ _
    · exact halloc

theorem All.mapUserPage (pml4 va pa : Nat) : All ok (mapUserPage s pml4 va pa true).2 := by
  unfold Paging.mapUserPage
  split
  · exact h
  · dsimp only
    split
    · exact h
    · exact h.setEntry (hk.rw _) _ _

theorem All.unmapUserPage (pml4 va : Nat) : All ok (unmapUserPage s pml4 va).2 := by
  unfold Paging.unmapUserPage
  split
  · exact h
  · dsimp only
    split
    · exact h
    · exact h.setEntry hk.zero _ _

theorem All.releaseUserPages (pml4 : Nat) : All ok (releaseUserPages s pml4) := by
  unfold Paging.releaseUserPages
  split
  · exact h
  refine h.forRange fun ti s hs => ?_
  unfold releaseTable
  dsimp only
  split
  · exact hs
  refine hs.forRange fun p s hs => ?_
  unfold releasePage
  dsimp only
  split
  · exact All.setEntry (hs.of_tables rfl) hk.zero _ _
  · exact hs

end

theorem All.freeUserTable (pd i : Nat) : All ok (freeUserTable pd i s) := by
  unfold Paging.freeUserTable
  dsimp only
  split
  · exact h.of_tables rfl
  · exact h

theorem All.destroyUserDirectory (pml4 : Nat) : All ok (destroyUserDirectory s pml4) := by
  unfold Paging.destroyUserDirectory
  split
  · exact h
  unfold freeUserPts
  dsimp only
  split
  · exact h
  · split
    · exact h.forRange fun i _ hs => hs.freeUserTable (s.tables (s.tables pml4 0).phys 0).phys i
    · exact h

theorem All.dispose (hk : Kind ok) (dir : Nat) (release : Bool) : All ok (dispose s dir release) := by
  unfold UserBuffer.dispose
  split
  · exact (h.releaseUserPages hk dir).destroyUserDirectory dir
  · exact h.destroyUserDirectory dir

end

/-! ### Segments and mappings -/

theorem all_releaseSegment (w : World) (h : All ok w.mem) (i : Fin shmMaxSegments) :
    All ok (Shm.releaseSegment w i).mem := by
  unfold Shm.releaseSegment
  split
  · exact h
  refine forRange_keeps (P := fun w : World => All ok w.mem) (fun page w hw => ?_) h
  unfold Shm.freePage
  dsimp only
  split
  · exact hw.of_tables rfl
  · exact hw

theorem all_createPages (i : Fin shmMaxSegments) (n : Nat) : ∀ page w, All ok w.mem →
    All ok (Shm.createPages i page n w).2.mem := by
  induction n with
  | zero => exact fun _ _ h => h
  | succ n ih =>
    intro page w h
    have halloc : All ok w.mem.allocFrame.2 := h.of_tables rfl
    unfold Shm.createPages
    dsimp only
    split
    · refine all_releaseSegment _ ?_ i
      exact halloc
    · exact ih _ _ (halloc.of_tables rfl)

section

variable (h : All ok w.mem)
include h

theorem all_shmCreate (size : Nat) : All ok (Shm.shmCreate w size).2.mem := by
  unfold Shm.shmCreate
  split
  · exact h
  split
  · exact h
  rename_i pageCount _ _ i _
  have hpages := all_createPages i pageCount 0
    ({ w with nextId := Word.int32 (w.nextId + 1) }.setSegment i
      (Shm.newSegment (w.segments i) w.nextId size pageCount)) h
  dsimp only
  split
  all_goals
    rename_i heq
    rwa [heq] at hpages

theorem all_shmUnlink (segmentId : Int) : All ok (Shm.shmUnlink w segmentId).2.mem := by
  unfold Shm.shmUnlink
  split
  · exact h
  · dsimp only
    split
    · refine all_releaseSegment _ ?_ _
      exact h
    · exact h

theorem all_dropRef (i : Fin shmMaxSegments) : All ok (Shm.dropRef w i).mem := by
  unfold Shm.dropRef
  dsimp only
  split
  · split
    · refine all_releaseSegment _ ?_ i
      exact h
    · exact h
  · exact h

theorem all_spawn (dir : Nat) : All ok (Shm.step w (.spawn dir)).2.mem := by
  unfold Shm.step
  dsimp only
  split
  · exact h
  rename_i heq
  unfold Shm.beginTask at heq
  split at heq
  · cases heq
  · obtain ⟨u, _, hu⟩ := Option.map_eq_some_iff.mp heq
    cases hu
    exact h

end

section

variable (hk : Kind ok)
include hk

theorem all_unmapBefore (dir base n : Nat) : ∀ s, All ok s → All ok (Shm.unmapBefore dir base n s) := by
  induction n with
  | zero => exact fun _ h => h
  | succ n ih => exact fun s h => ih _ (h.unmapUserPage hk dir _)

theorem all_mapPages (dir base : Nat) (frames : Nat → Nat) (n : Nat) : ∀ page s, All ok s →
    All ok (Shm.mapPages dir base frames page n s).2 := by
  induction n with
  | zero => exact fun _ _ h => h
  | succ n ih =>
    intro page s h
    have hmap := h.mapUserPage hk dir (base + page * pageSize) (frames page)
    unfold Shm.mapPages
    split
    · rename_i heq
      rw [heq] at hmap
      exact ih _ _ hmap
    · rename_i heq
      rw [heq] at hmap
      exact all_unmapBefore hk dir base page _ hmap

variable (h : All ok w.mem) (t : Fin taskMaxCount)
include h

theorem all_attachAt (i : Fin shmMaxSegments) (base : Nat) :
    All ok (Shm.attachAt w t i base).2.mem := by
  have hpages := all_mapPages hk (w.tasks t).dir base (w.segments i).frames (w.segments i).pageCount 0 w.mem h
  unfold Shm.attachAt
  dsimp only
  split
  · exact h
  split
  · exact h
  split
  all_goals
    rename_i heq
    rwa [heq] at hpages

theorem all_shmAttach (segmentId : Int) :
    All ok (Shm.shmAttach w t segmentId).2.mem := by
  unfold Shm.shmAttach
  split
  · exact h
  rename_i i _
  split
  · exact h
  dsimp only
  split
  · exact h
  have hattach := all_attachAt hk h t i (Shm.findFreeBase (w.tasks t).slots (w.segments i).pageCount)
  split
  all_goals
    rename_i heq
    rwa [heq] at hattach

theorem all_detachSlot (j : Fin shmMaxMappings) :
    All ok (Shm.detachSlot w t j).2.mem := by
  unfold Shm.detachSlot
  dsimp only
  split
  · exact h
  · have hunmap : All ok (Shm.unmapSlot (w.tasks t).dir ((w.tasks t).slots j) w.mem) :=
      h.forRange fun page _ hs => hs.unmapUserPage hk _ _
    split
    · exact all_dropRef hunmap _
    · exact hunmap

theorem all_shmDetach (address : Nat) :
    All ok (Shm.shmDetach w t address).2.mem := by
  unfold Shm.shmDetach
  split
  · exact all_detachSlot hk h t _
  · exact h

theorem all_shmDetachAll :
    All ok (Shm.shmDetachAll w t).mem := by
  unfold Shm.shmDetachAll
  split
  · exact h
  rename_i hdir
  clear hdir
  generalize List.finRange shmMaxMappings = js
  induction js generalizing w with
  | nil => exact h
  | cons j js ih =>
    refine ih ?_
    unfold Shm.detachUsed
    split
    · exact all_detachSlot hk h t j
    · exact h

theorem all_cloneSlots (child : Fin taskMaxCount) (ms : List Mapping) :
    All ok (Shm.cloneSlots child ms w).2.mem := by
  induction ms generalizing w with
  | nil => exact h
  | cons m ms ih =>
    unfold Shm.cloneSlots
    split
    · exact ih h
    split
    · exact all_shmDetachAll hk h child
    rename_i i _
    split
    · exact all_shmDetachAll hk h child
    have hattach := all_attachAt hk h child i m.base
    split
    · rename_i heq
      rw [heq] at hattach
      exact ih hattach
    · rename_i heq
      rw [heq] at hattach
      exact all_shmDetachAll hk hattach child

theorem all_shmCloneMappings (parent child : Fin taskMaxCount) :
    All ok (Shm.shmCloneMappings w parent child).2.mem := by
  unfold Shm.shmCloneMappings
  split
  · exact h
  · exact all_cloneSlots (w := w.setTask child _) hk h child _

/-! ### Events -/

theorem all_taskFork (hshared : ∀ phys, ok (Pte.shared phys)) (t : Fin taskMaxCount)
    (stack : Bool) : All ok (taskFork w t stack).mem := by
  have hclone := h.cowClone hk hshared (w.tasks t).dir
  unfold taskFork
  split
  · exact h
  rename_i slot _
  dsimp only
  split
  · exact hclone
  split
  · exact All.dispose hclone hk _ true
  have hmaps := all_shmCloneMappings hk
    (w := (w.setMem (cowClone w.mem (w.tasks t).dir).2).setTask slot
      { used := true, dir := (cowClone w.mem (w.tasks t).dir).1, slots := fun _ => Mapping.empty })
    hclone t slot
  split
  · rename_i heq
    rwa [heq] at hmaps
  · rename_i heq
    rw [heq] at hmaps
    exact All.dispose hmaps hk _ true

theorem all_taskExec (dir : Nat) (release : Bool) :
    All ok (taskExec w t dir release).mem := by
  unfold taskExec
  split
  · exact h
  · exact All.dispose (all_shmDetachAll hk h t) hk _ release

theorem all_taskClear (release : Bool) :
    All ok (taskClear w t release).mem := by
  refine All.dispose ?_ hk _ release
  show All ok (if (w.tasks t).dir ≠ 0 then Shm.shmDetachAll w t else w).mem
  split
  · exact all_shmDetachAll hk h t
  · exact h

end

/-- **One event keeps what it can.**  Only a fork writes shared entries. -/
theorem all_next (hk : Kind ok) (h : All ok w.mem) (c : Call)
    (hshared : (∃ t stack, c = .fork t stack) → ∀ phys, ok (Pte.shared phys)) : All ok (next w c).mem := by
  cases c with
  | create size => exact all_shmCreate h size
  | attach t segmentId =>
    unfold next
    dsimp only
    split
    · exact all_shmAttach hk h t segmentId
    · exact h
  | detach t address =>
    unfold next
    dsimp only
    split
    · exact all_shmDetach hk h t address
    · exact h
  | unlink segmentId => exact all_shmUnlink h segmentId
  | spawn base => exact all_spawn (h.createUserDirectory hk base) _
  | fork t stack =>
    unfold next
    dsimp only
    split
    · exact all_taskFork hk h (hshared ⟨t, stack, rfl⟩) t stack
    · exact h
  | execute t base release =>
    unfold next
    dsimp only
    split
    · exact all_taskExec hk (h.createUserDirectory hk base) t _ release
    · exact h
  | clear t release => exact all_taskClear hk h t release
  | fault t address => exact h.cowResolve hk _ address
  | frames fr => exact h.of_tables rfl

end

/-! ## Accepted buffers -/

section

variable {s : State} {pml4 va : Nat} {address size : UInt64}

theorem kind_entryOk : Kind EntryOk where
  zero := fun h => nomatch h
  rw := fun _ _ _ => rfl

/-- The start of a page goes through the same entries as its bytes. -/
theorem entriesFor_page (va : Nat) : entriesFor s pml4 (va / pageSize * pageSize) = entriesFor s pml4 va := by
  have h1 : pml4Idx (va / pageSize * pageSize) = pml4Idx va := by unfold pml4Idx pageSize; omega
  have h2 : pdptIdx (va / pageSize * pageSize) = pdptIdx va := by unfold pdptIdx pageSize; omega
  have h3 : pdIdx (va / pageSize * pageSize) = pdIdx va := by unfold pdIdx pageSize; omega
  have h4 : ptIdx (va / pageSize * pageSize) = ptIdx va := by unfold ptIdx pageSize; omega
  unfold entriesFor
  rw [h1, h2, h3, h4]

/-- What the walk of one page has seen. -/
theorem entries_of_accessible (h : pageIsUserAccessible s pml4 va) :
    ∀ e ∈ entriesFor s pml4 va, e.present ∧ e.user := by
  have hstep : ∀ {e : Pte}, ¬(!e.present || !e.user) = true → e.present = true ∧ e.user = true := by
    intro e he
    simpa using he
  unfold pageIsUserAccessible at h
  split at h
  · cases h
  split at h
  · cases h
  dsimp only at h
  split at h
  · cases h
  rename_i h1
  split at h
  · cases h
  rename_i h2
  split at h
  · cases h
  rename_i h3
  unfold entriesFor
  -- a large page ends the walk one level earlier
  split at h
  · rename_i hps
    rw [if_pos hps]
    simp only [List.forall_mem_cons]
    exact ⟨hstep h1, hstep h2, hstep h3, List.forall_mem_nil _⟩
  · rename_i hps
    rw [if_neg hps]
    simp only [List.forall_mem_cons]
    exact ⟨hstep h1, hstep h2, hstep h3, Bool.and_eq_true_iff.mp h, List.forall_mem_nil _⟩

/-- An accepted buffer is one whose every byte was walked. -/
theorem accessible_of_accepts (h : accepts s pml4 address size) (hlo : address.toNat ≤ va)
    (hhi : va < address.toNat + size.toNat) : pageIsUserAccessible s pml4 (va / pageSize * pageSize) := by
  unfold accepts pagingDirectoryUserBufferIsAccessible at h
  split at h
  · cases h
  · refine List.all_eq_true.mp h (va / pageSize) (List.mem_range'_1.mpr ?_)
    unfold pageSize
    omega

/-- The entries of a walk are entries. -/
theorem entries_all {ok : Pte → Prop} (h : All ok s) : ∀ e ∈ entriesFor s pml4 va, ok e := by
  unfold entriesFor
  dsimp only
  split
  all_goals
    simp only [List.forall_mem_cons, h _ _, true_and]
    exact List.forall_mem_nil _

/-- One byte: it can be stored exactly if no entry for it is marked. -/
theorem kernelStore_iff (hsane : All EntryOk s) (h : pageIsUserAccessible s pml4 (va / pageSize * pageSize)) :
    kernelStore s pml4 va ↔ ∀ e ∈ entriesFor s pml4 va, e.cow = false := by
  have hentries := entries_of_accessible h
  rw [entriesFor_page] at hentries
  have hsound : ∀ e ∈ entriesFor s pml4 va, e.cow = !e.writable :=
    fun e he => entries_all hsane e he (hentries e he).1 (hentries e he).2
  unfold kernelStore
  rw [List.all_eq_true]
  refine forall₂_congr fun e he => ?_
  rw [hsound e he, (hentries e he).1, Bool.true_and, Bool.not_eq_false']

/-- A buffer that is accepted can be stored exactly if no page of it is marked. -/
theorem writable_iff (hsane : All EntryOk s) (h : accepts s pml4 address size) :
    Writable s pml4 address size ↔ ¬Marked s pml4 address size := by
  constructor
  · rintro hw ⟨va, hlo, hhi, e, he, hcow⟩
    have hunmarked := (kernelStore_iff hsane (accessible_of_accepts h hlo hhi)).mp (hw va hlo hhi) e he
    rw [hunmarked] at hcow
    cases hcow
  · intro hunmarked va hlo hhi
    refine (kernelStore_iff hsane (accessible_of_accepts h hlo hhi)).mpr fun e he => ?_
    cases hcow : e.cow with
    | false => rfl
    | true => exact absurd ⟨va, hlo, hhi, e, he, hcow⟩ hunmarked

end

/-! ## The results -/

/-- The entries stay sane along every run. -/
theorem all_exec {w : World} (h : All EntryOk w.mem) (calls : List Call) :
    All EntryOk (exec step w calls).2.mem := by
  have hstep : ∀ w c, All EntryOk w.mem → True → All EntryOk (step w c).2.mem :=
    fun w c hw _ => all_next kind_entryOk hw c fun _ _ _ _ => rfl
  exact exec_inv hstep calls w h (guarded_of_forall (fun _ _ _ => trivial) w)

section

variable {s : State} {D : Dir} {va : Nat}

theorem table_lt (hva : inUser va) : pageNo va / entriesPerTable < userPdCount := by
  have hpage := (idx_user hva).2.2.2.2
  unfold userPages at hpage
  unfold entriesPerTable userPdCount
  omega

variable (h : Chain s D)
include h

/-- The walk in a directory whose tables are linked. -/
theorem entriesFor_chain (hva : inUser va) : entriesFor s D.pml4 va =
      [Pte.rw D.pdpt, Pte.rw D.pd, Pte.rw (D.pt (pageNo va / entriesPerTable)), leaf s D (pageNo va)] := by
  obtain ⟨h1, h2, h3, h4, -⟩ := idx_user hva
  unfold entriesFor
  simp only [h1, h2, h3, h4, h.pml4, h.pdpt, h.pd _ (table_lt hva), Pte.rw_phys]
  rfl

theorem accessible_chain (hva : inUser va) :
    pageIsUserAccessible s D.pml4 va = ((leaf s D (pageNo va)).present && (leaf s D (pageNo va)).user) := by
  have hpml4 := h.upper_ne_zero.1
  obtain ⟨h1, h2, h3, h4, -⟩ := idx_user hva
  unfold pageIsUserAccessible
  rw [if_neg hpml4, hva]
  simp only [h1, h2, h3, h4, h.pml4, h.pdpt, h.pd _ (table_lt hva), Pte.rw_phys, Pte.rw_ps, Pte.rw_present,
    Pte.rw_user]
  rfl

/-- The first byte of the window is accepted if its page is there for the user. -/
theorem accepts_first (hpresent : (leaf s D 0).present) (huser : (leaf s D 0).user) :
    accepts s D.pml4 0x01000000 1 := by
  have hpage : pageIsUserAccessible s D.pml4 userBase := by
    rw [accessible_chain h (by decide), show pageNo userBase = 0 by decide, hpresent, huser]
    rfl
  show List.all [4096] fun page => pageIsUserAccessible s D.pml4 (page * pageSize)
  simp only [List.all_cons, List.all_nil, Bool.and_true]
  exact hpage

/-- If the page is shared, the kernel cannot store to it. -/
theorem shared_not_writable {phys : Nat} (hleaf : leaf s D 0 = Pte.shared phys) :
    ¬Writable s D.pml4 0x01000000 1 := by
  intro hw
  have hstore := hw userBase (by decide) (by decide)
  unfold kernelStore at hstore
  rw [entriesFor_chain h (by decide), show pageNo userBase = 0 by decide, hleaf] at hstore
  cases hstore

/-- If it is a page of its own, there is no mark on the way to it. -/
theorem own_unmarked {phys : Nat} (hleaf : leaf s D 0 = Pte.rw phys) :
    ¬Marked s D.pml4 0x01000000 1 := by
  rintro ⟨va, hlo, hhi, e, he, hcow⟩
  have hva : va = userBase := by
    have hlo : userBase ≤ va := hlo
    have hhi : va < userBase + 1 := hhi
    omega
  rw [hva, entriesFor_chain h (by decide), show pageNo userBase = 0 by decide, hleaf] at he
  simp only [List.mem_cons, List.not_mem_nil, or_false] at he
  rcases he with rfl | rfl | rfl | rfl <;> cases hcow

end

/-- The machine before the first task. -/
def booted : World where
  mem := CowIsolation.booted
  segments := fun _ => Shm.Segment.empty
  nextId := 1
  tasks := fun _ => Shm.Holder.empty

/-- The machine when a task has begun in the directory `dir`. -/
def spawned (m : State) (dir : Nat) : World :=
  (booted.setMem m).setTask 0 { used := true, dir, slots := fun _ => Mapping.empty }

theorem cloneSlots_unused {ms : List Mapping} (h : ∀ m ∈ ms, m.used = false) (child : Fin taskMaxCount) (w : World) :
    Shm.cloneSlots child ms w = (true, w) := by
  induction ms with
  | nil => rfl
  | cons m ms ih =>
    unfold Shm.cloneSlots
    rw [h m List.mem_cons_self]
    exact ih fun m hm => h m (.tail _ hm)

theorem next_fork (m : State) (dir : Nat) (hne : (cowClone m dir).1 ≠ 0) :
    (next (spawned m dir) (.fork 0 true)).mem = (cowClone m dir).2 ∧
      ((next (spawned m dir) (.fork 0 true)).tasks 0).dir = dir := by
  have hslot : (firstIdx fun u => !((spawned m dir).tasks u).used) = some 1 := rfl
  have hfork : next (spawned m dir) (.fork 0 true) = taskFork (spawned m dir) 0 true := rfl
  rw [hfork]
  unfold taskFork
  rw [hslot]
  dsimp only
  rw [show ((spawned m dir).tasks 0).dir = dir from rfl, show (spawned m dir).mem = m from rfl, if_neg hne]
  generalize cowClone m dir = r at hne
  unfold Shm.shmCloneMappings
  rw [if_neg (show ((((spawned m dir).setMem r.2).setTask 1
    { used := true, dir := r.1, slots := fun _ => Mapping.empty }).tasks 1).dir ≠ 0 from hne), cloneSlots_unused]
  · exact ⟨rfl, rfl⟩
  · intro mapping hmem
    obtain ⟨j, _, rfl⟩ := List.mem_map.mp hmem
    rfl

/-- The task is spawned, and may fork. -/
theorem booted_spawn : ∃ D C s s', next booted (.spawn (frameAddr 256)) = spawned s D.pml4 ∧ Chain s D ∧
    Chain s' D ∧ CowIsolation.Forked 256 s s' D C := by
  obtain ⟨s, s', D, C, hinit, h⟩ := CowIsolation.booted_forked (fun _ => True) (.inl rfl) (fun _ _ _ => trivial)
    fun _ _ => trivial
  have hmem : D ∈ [D] := List.mem_singleton_self D
  have hchain := hinit.spaces.chain D hmem
  refine ⟨D, C, s, s', ?_, hchain,
    CowIsolation.chain_congr hchain (CowIsolation.cloned_upper h.cloned hinit.spaces hmem hmem), h⟩
  have hcreated : createUserDirectory booted.mem (frameAddr 256) = (D.pml4, s) := h.created
  unfold next Shm.step Shm.beginTask
  dsimp only
  rw [hcreated, if_neg hchain.upper_ne_zero.1]
  rfl

theorem booted_sane : All EntryOk booted.mem := fun _ _ => kind_entryOk.zero

end Lyth.UserBuffer
