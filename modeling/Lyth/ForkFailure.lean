/-
  A FORK THAT FAILS (`task_fork_from_frame`).

  1. THE PROGRAM.  A fork of the running task looks for a free slot, clones the page directory, takes the
     region in one piece away from the parent, asks for a kernel stack, fills the slot and clones the
     shared mappings; it can return -1 at each of these.  `forkTask` is the whole function over the task
     table, memory, the segments of `shm.c` and the heap.
  2. THE SPECIFICATION (`FailsCleanly`).  After -1 the parent's entry, the counts of all segments and
     frames and the resource pointers of the slot are as before, and a task that is later spawned into the
     slot gives back, when it exits, nothing but what it was given (`Reusable`).
  3. THE CRUX.  `task_spawn` does not write `page_directory`, so a slot is fit for reuse exactly if it
     holds none (`reusable_iff`).  The cleanup after `shm_clone_mappings` only clears `used`: the slot
     keeps the stack and the directory that were just freed.  The cleanup after a failed `kmalloc` forgets
     the parent's `user_physical_base`, and counts that stopped at 255 do not come back.
  4. THE RESULT.  **`fork_failure_clean_iff`**: a fork is clean exactly if it goes through, or it fails
     early in the sense of `FailsEarly` with a slot that was blank.
-/
import Lyth.CloneUndo
import Lyth.Heap
import Lyth.ShmAccounting
import Lyth.TaskEffects

namespace Lyth.ForkFailure

open Loop Word Paging Directory CowIsolation CloneUndo Function
open Physmem (physmemAllocRegion physmemFrameSize frameAddr lowFrames SameFrame)
open Lyth.Task (Slot Entry ForkEnv SpawnArgs SpawnUserArgs findFreeSlot forkDone modify_ne modify_self shared spawned
  spawnedUser taskSpawn taskSpawnUser)

/-! ## The model -/

/-- The task table, memory, the static variables of `shm.c`, and the heap. -/
structure Kernel where
  task : Task.State
  mem : State
  segments : Fin Shm.shmMaxSegments → Shm.Segment
  nextId : Int
  heap : Heap.State

/-- What `shm.c` sees of a task. -/
def holder (t : Entry) : Shm.Holder where
  used := t.used
  dir := t.pageDirectory
  slots := fun j => t.shmMappings.getD j Shm.Mapping.empty

def Kernel.shm (k : Kernel) : Shm.World where
  mem := k.mem
  segments := k.segments
  nextId := k.nextId
  tasks := fun i => holder (k.task.tasks i)

/-- No block of the heap has room for a kernel stack, so that `kmalloc` asks for a region. -/
def Asks (h : Heap.State) : Prop :=
  h.blocks ≠ [] ∧ Heap.takeFirstFit (alignUp Task.taskStackSize Heap.heapAlignment) h.blocks = none

instance (h : Heap.State) : Decidable (Asks h) := inferInstanceAs (Decidable (_ ∧ _))

/-- What `physmem_alloc_region` answers inside `kmalloc(TASK_STACK_SIZE)`, and what it leaves. -/
def growth (h : Heap.State) (fr : Physmem.State) : Nat × Physmem.State :=
  if Asks h then physmemAllocRegion fr Heap.heapGrowSize 4096 else (0, fr)

/-- `kmalloc(TASK_STACK_SIZE)`: a size above those of the slab allocator. -/
def kmallocStack (h : Heap.State) (fr : Physmem.State) : Nat × Heap.State :=
  Heap.kmalloc h Task.taskStackSize 0 (growth h fr).1

/-- The parent has lost its region in one piece. -/
def Kernel.loseRegion (k : Kernel) (c : Slot) : Kernel :=
  { k with task := k.task.modify c shared }

/-- The kernel after the stack of the child has been asked for. -/
def Kernel.askStack (k : Kernel) : Kernel :=
  { k with heap := (kmallocStack k.heap k.mem.frames).2
           mem := { k.mem with frames := (growth k.heap k.mem.frames).2 } }

/-- What the task code of a fork gets from the memory code. -/
def forkEnv (childDir childKstack : Nat) : ForkEnv where
  childDir := childDir
  childKstack := childKstack
  shmMappings := Task.resetShmMappings
  shmCloned := true

/-- The entry of the child is filled. -/
def Kernel.fillSlot (k : Kernel) (c slot : Slot) (e : ForkEnv) : Kernel :=
  { k with task := (k.task.modify slot (Task.forkEntry k.task (k.task.tasks c) e)).takeId }

/-- The entry with the mappings that `shm_clone_mappings` has made. -/
def attached (slots : Fin Shm.shmMaxMappings → Shm.Mapping) (t : Entry) : Entry :=
  { t with shmMappings := List.ofFn slots }

/-- What it has done is written back. -/
def Kernel.setShm (k : Kernel) (slot : Slot) (w : Shm.World) : Kernel :=
  { k with mem := w.mem
           segments := w.segments
           task := k.task.modify slot (attached (w.tasks slot).slots) }

/-- `tasks[slot].used = 0`, and nothing else. -/
def unused (t : Entry) : Entry := { t with used := false }

/-- The cleanup after `shm_clone_mappings` has failed.  `forged` is what the page of the stack reads as to
    `slab_owns`. -/
def Kernel.abandon (k : Kernel) (slot : Slot) (e : ForkEnv) (forged : Option Slab.Page) : Kernel :=
  { k with heap := Heap.kfree k.heap e.childKstack forged
           mem := dispose k.mem e.childDir
           task := k.task.modify slot unused }

/-- `task_fork_from_frame`. -/
def forkTask (k : Kernel) (forged : Option Slab.Page) : Int × Kernel :=
  match k.task.current with
  | none => (-1, k)
  | some c =>
    if (k.task.tasks c).userMode = false then (-1, k)
    else
      match findFreeSlot k.task with
      | none => (-1, k)
      | some slot =>
        let childDir := (cowClone k.mem (k.task.tasks c).pageDirectory).1
        let k := { k with mem := (cowClone k.mem (k.task.tasks c).pageDirectory).2 }
        if childDir = 0 then (-1, k)
        else
          let k := k.loseRegion c
          let childKstack := (kmallocStack k.heap k.mem.frames).1
          let k := k.askStack
          if childKstack = 0 then (-1, { k with mem := dispose k.mem childDir })
          else
            let e := forkEnv childDir childKstack
            let parent := k.task.tasks c
            let k := k.fillSlot c slot e
            match Shm.shmCloneMappings k.shm c slot with
            | (false, w) => (-1, (k.setShm slot w).abandon slot e forged)
            | (true, w) =>
              let k := k.setShm slot w
              let task := Task.schedEnqueueReady slot (k.task.modify slot (forkDone parent e))
              ((task.tasks slot).id, { k with task })

/-! ## Specification -/

/-- What a task gives back when it ends. -/
inductive Resource
  | heap (ptr : Nat)
  | region (base : Nat)
  | pages (dir : Nat)
  | directory (dir : Nat)
deriving DecidableEq

/-- What `zombify_task` and `clear_task` give back for an entry; they test the same fields. -/
def releases (t : Entry) : List Resource :=
  (if t.data ≠ 0 then [.heap t.data] else []) ++ (if t.stack ≠ 0 then [.heap t.stack] else []) ++
    (if t.userStack ≠ 0 ∧ t.userMode = false then [.heap t.userStack] else []) ++
    if t.pageDirectory ≠ 0 then
      (if t.userMode then
        if t.userPhysicalBase ≠ 0 then [.region t.userPhysicalBase] else [.pages t.pageDirectory]
      else []) ++ [.directory t.pageDirectory]
    else []

/-- The exit of a task and its reaping: `zombify_task`, and `clear_task` of what is left. -/
def exitReleases (t : Entry) : List Resource := releases t ++ releases t.zombified

/-- What the two kinds of tasks are given when they are spawned. -/
def given (a : SpawnArgs) : List Resource := [.heap a.stack, .heap a.data]

@[inherit_doc given]
def givenUser (a : SpawnUserArgs) : List Resource :=
  [.heap a.stack, .region a.userPhysicalBase, .directory a.pageDirectory]

/-- A task that is later spawned into a slot that holds `t` gives back nothing but what it was given. -/
structure Reusable (slot : Slot) (t : Entry) : Prop where
  kernel : ∀ (s : Task.State) (a : SpawnArgs), s.tasks slot = t → findFreeSlot s = some slot →
    (taskSpawn a s).1 ≠ -1 → ∀ r ∈ exitReleases ((taskSpawn a s).2.tasks slot), r ∈ given a
  user : ∀ (s : Task.State) (a : SpawnUserArgs), s.tasks slot = t → findFreeSlot s = some slot →
    (taskSpawnUser a s).1 ≠ -1 →
    ∀ r ∈ exitReleases ((taskSpawnUser a s).2.tasks slot), r ∈ givenUser a

/-- The resource pointers of an entry, and what decides about them. -/
def pointers (t : Entry) : List Nat × Bool :=
  ([t.data, t.stack, t.userStack, t.userPhysicalBase, t.pageDirectory], t.userMode)

/-- **A fork that failed left nothing behind.** -/
structure FailsCleanly (k k' : Kernel) : Prop where
  parent : ∀ c, k.task.current = some c → k'.task.tasks c = k.task.tasks c
  segments : ∀ g, (k'.segments g).refCount = (k.segments g).refCount
  counts : ∀ f, k'.mem.frames.refcount f = k.mem.frames.refcount f
  slot : ∀ i, findFreeSlot k.task = some i →
    pointers (k'.task.tasks i) = pointers (k.task.tasks i) ∧ Reusable i (k'.task.tasks i)

/-- A kernel in order: the books of the frame allocator are right, no free frame is the kernel's PML4,
    identifiers are positive, and the running user task has the directory `D`, on frames in use. -/
structure Ordered (k : Kernel) (D : Dir) : Prop where
  books : Books k.mem.frames
  kernel : ∀ f, k.mem.frames.marked f = false → f < k.mem.frames.totalFrames →
    frameAddr f ≠ k.mem.kernelPml4
  ids : 0 < k.task.nextTaskId
  parent : ∀ c, k.task.current = some c → (k.task.tasks c).userMode →
    (k.task.tasks c).used ∧ (k.task.tasks c).pageDirectory = D.pml4
  chain : Chain k.mem D
  own : OwnFrames k.mem D

/-- The fork comes to the clone: a user task runs, and a slot is free. -/
structure Begins (k : Kernel) (c i : Slot) : Prop where
  current : k.task.current = some c
  user : (k.task.tasks c).userMode
  free : findFreeSlot k.task = some i

/-- The clone has its five frames. -/
structure CanClone (k : Kernel) : Prop where
  kernel : k.mem.kernelPml4 ≠ 0
  frames : HasFree k.mem.frames 5

/-- The kernel stack and the region that `kmalloc` gets for it, once the clone has its frames. -/
def stackOf (k : Kernel) : Nat := (kmallocStack k.heap (taken 5 k.mem.frames)).1

@[inherit_doc stackOf]
def growthOf (k : Kernel) : Nat := (growth k.heap (taken 5 k.mem.frames)).1

/-- `paging_map_user_page` accepts the address and the frame. -/
structure Mappable (va pa : Nat) : Prop where
  user : inUser va
  page : va % pageSize = 0
  frame : pa ≠ 0
  aligned : pa % pageSize = 0

/-- `shm_clone_mappings` can attach the child where the parent is attached: the segment is there, it is
    not unlinked, and its frames can be mapped. -/
def Attachable (w : Shm.World) (m : Shm.Mapping) : Prop :=
  ∃ g, Shm.findSegment w m.segmentId = some g ∧ (w.segments g).markedForDelete = false ∧
    ∀ page < (w.segments g).pageCount, Mappable (m.base + page * pageSize) ((w.segments g).frames page)

/-- The fork goes through. -/
structure GoesThrough (k : Kernel) (c : Slot) : Prop where
  clone : CanClone k
  stack : stackOf k ≠ 0
  mappings : ∀ j, ((k.shm.tasks c).slots j).used → Attachable k.shm ((k.shm.tasks c).slots j)

/-- The free slot holds no directory. -/
def Blank (k : Kernel) : Prop :=
  ∀ i, findFreeSlot k.task = some i → (k.task.tasks i).pageDirectory = 0

/-- The fork fails before it has changed anything that it does not undo: at the clone, with no reference
    counted for the first page table; or at the kernel stack, with a parent whose pages are already
    shared, no count that stops at 255, and no region that the heap cannot register. -/
structure FailsEarly (k : Kernel) (c : Slot) (D : Dir) : Prop where
  clone : Stuck k.mem D.pml4 → ∀ f, firstShared k.mem D.pml4 f = 0 ∨ k.mem.frames.refcount f = 255
  stack : CanClone k → stackOf k = 0 ∧ growthOf k = 0 ∧ (k.task.tasks c).userPhysicalBase = 0 ∧
    ∀ f, k.mem.frames.refcount f = 0 ∨ k.mem.frames.refcount f + sharedCount k.mem D f ≤ 255

/-! ## What a later spawn gives back -/

/-- `clear_task` finds nothing that `zombify_task` has left. -/
theorem zombified_releases (t : Entry) : releases t.zombified = [] := by
  by_cases hmode : t.userMode
  · simp [releases, Entry.zombified, hmode]
  · simp [releases, Entry.zombified, hmode]

theorem releases_setNext (t : Entry) (n : Option Slot) : releases (t.setNext n) = releases t := rfl

variable {s : Task.State} {i : Slot} (free : Bool)

/-- A spawn that succeeds puts the new task into the slot. -/
theorem spawn_born {c : Task.Call} {r : Int × Task.State}
    (h : Task.Creation s c r) (hc : ∀ e, c ≠ .fork e) (hfree : findFreeSlot s = some i)
    (hok : r.1 ≠ -1) : ∃ b n, Task.Born s (s.tasks i) c b ∧ r.2.tasks i = b.setNext n := by
  obtain ⟨k, b, fg, hk, hb, rfl⟩ := h.made hc hok
  cases hfree.symm.trans hk
  have hentry := (Task.schedEnqueueReady_relinked i ((s.fill i b).setForeground fg)).entries i
  rw [Task.setForeground_tasks, Task.fill_self] at hentry
  exact ⟨b, _, hb, hentry⟩

variable {a : SpawnArgs}

theorem taskSpawn_born
    (hfree : findFreeSlot s = some i) (hok : (taskSpawn a s).1 ≠ -1) :
    ∃ n, (taskSpawn a s).2.tasks i = (spawned s a (s.tasks i)).setNext n := by
  obtain ⟨b, n, hb, hn⟩ := spawn_born (Task.taskSpawn_creation (s := s) a) (fun _ h => by cases h) hfree hok
  cases hb with
  | spawn => exact ⟨n, hn⟩

theorem taskSpawnUser_born {a : SpawnUserArgs}
    (hfree : findFreeSlot s = some i) (hok : (taskSpawnUser a s).1 ≠ -1) :
    a.userPhysicalBase ≠ 0 ∧
      ∃ n, (taskSpawnUser a s).2.tasks i = (spawnedUser s a (s.tasks i)).setNext n := by
  obtain ⟨b, n, hb, hn⟩ := spawn_born (Task.taskSpawnUser_creation (s := s) a) (fun _ h => by cases h) hfree hok
  refine ⟨fun hbase => hok ?_, ?_⟩
  · unfold taskSpawnUser
    rw [if_pos (.inr (.inl hbase))]
  · cases hb with
    | spawnUser => exact ⟨n, hn⟩

/-- A spawn in the background that has its stack and needs no data returns the identifier. -/
theorem taskSpawn_background
    (hfree : findFreeSlot s = some i) (hstep : a.step ≠ 0) (hfg : a.foreground = false)
    (hstack : a.stack ≠ 0) (hdata : a.dataSize = 0) : (taskSpawn a s).1 = s.nextTaskId := by
  unfold taskSpawn
  rw [if_neg hstep, if_neg (by rw [hfg]; exact fun h => Bool.noConfusion h.1), hfree]
  dsimp only
  rw [if_neg hstack, if_neg (by rw [hdata]; exact fun h => Nat.lt_irrefl 0 h.1)]
  obtain ⟨fg, heq⟩ := Task.launch_fill (b := { Task.spawnEntry s a (s.tasks i) with
    data := if 0 < a.dataSize then a.data else 0 }) a.foreground
  rw [show ((s.modify i (Task.spawnEntry s a)).takeId).modify i _ = _ from Task.fill_modify .., heq]
  rfl

/-- A kernel task keeps the directory that the slot held. -/
theorem mem_releases_spawned {old : Entry} {r : Resource} :
    r ∈ releases (spawned s a old) → r ∈ given a ∨ old.pageDirectory ≠ 0 := by
  have hdata : (spawned s a old).data = if 0 < a.dataSize then a.data else 0 := rfl
  unfold releases given
  rw [hdata]
  intro h
  by_cases hzero : old.pageDirectory = 0
  · left
    by_cases hsize : 0 < a.dataSize <;> simp [hsize] at h ⊢ <;> tauto
  · exact .inr hzero

/-- A user task has only what it was given. -/
theorem mem_releases_spawnedUser {a : SpawnUserArgs} {old : Entry} {r : Resource}
    (hbase : a.userPhysicalBase ≠ 0) (h : r ∈ releases (spawnedUser s a old)) : r ∈ givenUser a := by
  have hbare : ∃ t, releases (spawnedUser s a old) = releases t ∧ t.data = 0 ∧
      t.stack = a.stack ∧ t.userMode ∧ t.userPhysicalBase = a.userPhysicalBase ∧
      t.pageDirectory = a.pageDirectory := by
    refine ⟨Task.spawnedUserBare s a old, ?_, ?_⟩
    · unfold spawnedUser
      unfold releases Task.initializeTaskStack
      split
      · split <;> rfl
      · rfl
    · obtain ⟨va, hva⟩ := Task.installSignalTrampoline_eq
        { Task.spawnUserEntry s a old with userStack := Task.userStackBottom }
      rw [Task.spawnedUserBare, hva]
      exact ⟨rfl, rfl, rfl, rfl, rfl⟩
  obtain ⟨t, ht, hdata, hstack, hmode, hregion, hdir⟩ := hbare
  rw [ht, releases, hstack, hmode, hregion, hdir] at h
  unfold givenUser
  by_cases hd : a.pageDirectory = 0 <;> by_cases hs : a.stack = 0 <;>
    simp [hbase] at h ⊢ <;> tauto

/-- **A slot can be used again exactly if it holds no directory.**  `task_spawn` leaves the field as it
    is, and the new task's exit destroys what it finds there. -/
theorem reusable_iff (hfree : findFreeSlot s = some i) :
    Reusable i (s.tasks i) ↔ (s.tasks i).pageDirectory = 0 := by
  constructor
  · intro h
    by_contra hdir
    -- the next spawn of a kernel task
    let a : SpawnArgs := { name := [], step := 1, dataSize := 0, foreground := false, stack := 1, data := 0 }
    have hok : (taskSpawn a { s with nextTaskId := 1 }).1 ≠ -1 := by
      have hid := taskSpawn_background (s := { s with nextTaskId := 1 }) (a := a) hfree (by decide) rfl
        (by decide) rfl
      rw [hid]
      exact (by decide : (1 : Int) ≠ -1)
    obtain ⟨n, hn⟩ := taskSpawn_born (s := { s with nextTaskId := 1 }) hfree hok
    have hmem := h.kernel { s with nextTaskId := 1 } a rfl hfree hok (.directory (s.tasks i).pageDirectory)
    rw [hn] at hmem
    have hgiven := hmem (List.mem_append_left _ ?_)
    · simp [given] at hgiven
    rw [releases_setNext]
    have hd : (spawned { s with nextTaskId := 1 } a (s.tasks i)).pageDirectory =
      (s.tasks i).pageDirectory := rfl
    unfold releases
    rw [hd, if_pos hdir]
    exact List.mem_append_right _ (List.mem_append_right _ (.head _))
  · intro hdir
    constructor
    · intro s' a hentry hfree' hok r hr
      obtain ⟨n, hn⟩ := taskSpawn_born hfree' hok
      rw [hn, hentry, exitReleases, zombified_releases, List.append_nil, releases_setNext] at hr
      exact (mem_releases_spawned hr).resolve_right (not_not.mpr hdir)
    · intro s' a hentry hfree' hok r hr
      obtain ⟨hbase, n, hn⟩ := taskSpawnUser_born hfree' hok
      rw [hn, exitReleases, zombified_releases, List.append_nil, releases_setNext] at hr
      exact mem_releases_spawnedUser hbase hr

/-! ## The clone taken back -/

section

variable {s s' : State} {D C : Dir}

variable {fr : Physmem.State} (h : Heap.State)

/-- What the request for a kernel stack does to a frame. -/
theorem growth_frame (hfr : fr.Inv) (f : Nat) :
    let a := (growth h fr).1
    let handed := a ≠ 0 ∧ a / physmemFrameSize ≤ f ∧ f < a / physmemFrameSize + 512
    (handed ∧ Physmem.HandedOut f fr (growth h fr).2) ∨ (¬handed ∧ SameFrame f fr (growth h fr).2) := by
  unfold growth
  by_cases hasks : Asks h
  · rw [if_pos hasks]
    have hsize : Heap.heapGrowSize ≤ 0xFFFFF000 := by decide
    exact Physmem.allocRegion_frame hfr.total_lt 4096 hsize f
  · rw [if_neg hasks]
    exact .inr ⟨fun hc => hc.1 rfl, rfl, rfl⟩

theorem growth_total (fr : Physmem.State) : (growth h fr).2.totalFrames = fr.totalFrames := by
  unfold growth
  split
  · exact Physmem.allocRegion_totalFrames _ _
  · rfl

/-- Frames in use stay in use. -/
theorem growth_marked (hfr : fr.Inv) {f : Nat}
    (hmarked : fr.marked f) : (growth h fr).2.marked f := by
  rcases growth_frame h hfr f with ⟨_, _, hafter, _⟩ | ⟨_, hsame, _⟩
  · exact hafter
  · rw [hsame, hmarked]

theorem growth_inv (hfr : fr.Inv) : (growth h fr).2.Inv := by
  refine ⟨by rw [growth_total]; exact hfr.total_lt, fun f hlow hlt => ?_⟩
  rw [growth_total] at hlt
  exact growth_marked h hfr (hfr.low f hlow hlt)

theorem growth_inUse (hfr : fr.Inv) {a : Nat} (ha : InUse fr a) :
    InUse (growth h fr).2 a := by
  obtain ⟨f, hf, hlow, hlt, hmarked⟩ := ha
  exact ⟨f, hf, hlow, by rwa [growth_total], growth_marked h hfr hmarked⟩

/-- With no region, every count is kept. -/
theorem growth_kept (hfr : fr.Inv) (hzero : (growth h fr).1 = 0) (f : Nat) :
    (growth h fr).2.refcount f = fr.refcount f := by
  rcases growth_frame h hfr f with ⟨hhanded, _⟩ | ⟨_, hkept⟩
  · exact absurd hzero hhanded.1
  · exact hkept.2

/-- The state after a clone and the request for the kernel stack. -/
def grown (h : Heap.State) (s : State) : State := { s with frames := (growth h s.frames).2 }

/-- **A clone that is taken back after the stack failed**: every count is as before, unless a count of a
    frame in use had stopped at 255, or the heap got a region that it could not register. -/
theorem taken_back_iff (h : Heap.State) (hbooks : Books s.frames) (hD : OwnFrames s D)
    (hcl : Cloned s s' D C) (hne : C.pml4 ≠ s'.kernelPml4) :
    (∀ f, (dispose (grown h s') C.pml4).frames.refcount f = s.frames.refcount f) ↔
      (growth h s'.frames).1 = 0 ∧
        ∀ f, s.frames.refcount f = 0 ∨ s.frames.refcount f + sharedCount s D f ≤ 255 := by
  have hfr' := hcl.frames.inv
  have hown := Cloned.own hbooks.inv hcl hD
  have hcounts : ∀ f, (dispose (grown h s') C.pml4).frames.refcount f = if frameAddr f ∈ C.frames then 0
      else (growth h s'.frames).2.refcount f - sharedCount s D f := by
    intro f
    rw [dispose_counts (s := grown h s') (growth_inv h hfr') (chain_congr hcl.chain fun _ _ _ => rfl)
      ⟨hown.nodup, fun a ha => growth_inUse h hfr' (hown.inUse a ha),
        fun p hp hpresent => growth_inUse h hfr' (hown.pages p hp hpresent)⟩ hne]
    rw [← countIn_child hcl f]
    rfl
  -- the frames of the child were free
  have hchild : ∀ f, frameAddr f ∈ C.frames → s.frames.marked f = false ∧ s'.frames.marked f := by
    intro f hf
    obtain ⟨g, hg, ⟨hfree, _⟩, hmarked, _⟩ := hcl.frames.taken _ hf
    rw [frameAddr_inj hg]
    exact ⟨hfree, hmarked⟩
  constructor
  · intro hsame
    have hzero : (growth h s'.frames).1 = 0 := by
      by_contra hregion
      rcases growth_frame h hfr' ((growth h s'.frames).1 / physmemFrameSize) with
        ⟨_, ⟨hfree', _⟩, _, hone⟩ | ⟨hnot, _⟩
      · generalize (growth h s'.frames).1 / physmemFrameSize = f at hfree' hone
        have hf : frameAddr f ∉ C.frames := by
          intro hf
          rw [(hchild f hf).2] at hfree'
          cases hfree'
        have hfree : s.frames.marked f = false := by
          rwa [← hcl.frames.marked f hf]
        have hafter := hcounts f
        rw [if_neg hf, hone, sharedCount_free hD hfree, hsame, hbooks.idle f hfree] at hafter
        cases hafter
      · exact hnot ⟨hregion, Nat.le_refl _, by omega⟩
    refine ⟨hzero, fun f => ?_⟩
    by_cases hf : frameAddr f ∈ C.frames
    · exact .inl (hbooks.idle f (hchild f hf).1)
    have hafter := hcounts f
    rw [if_neg hf, growth_kept h hfr' hzero, hsame, hcl.frames.counted f hf (hbooks.byte f)] at hafter
    omega
  · rintro ⟨hzero, hbelow⟩ f
    rw [hcounts]
    by_cases hf : frameAddr f ∈ C.frames
    · rw [if_pos hf, hbooks.idle f (hchild f hf).1]
    have hc := hbelow f
    rw [if_neg hf, growth_kept h hfr' hzero, hcl.frames.counted f hf (hbooks.byte f)]
    omega

end

/-! ## The shared mappings -/

section

variable {s : State} {C : Dir}

/-- `paging_map_user_page` on a directory with all its tables. -/
theorem mapUserPage_iff (hchain : Chain s C) (va pa : Nat) :
    (mapUserPage s C.pml4 va pa true).1 ↔ Mappable va pa := by
  have hne := hchain.upper_ne_zero.1
  unfold mapUserPage
  by_cases hbad : (decide (C.pml4 = 0) || !inUser va || decide (va % pageSize ≠ 0) || decide (pa = 0) ||
      decide (pa % pageSize ≠ 0))
  · rw [if_pos hbad]
    refine ⟨nofun, fun h => ?_⟩
    simp [hne, h.user, h.page, h.frame, h.aligned] at hbad
  rw [if_neg hbad]
  simp only [hne, decide_false, Bool.false_or, Bool.or_eq_true, Bool.not_eq_true', decide_eq_true_eq,
    not_or, not_not, Bool.not_eq_false] at hbad
  obtain ⟨⟨⟨huser, hpage⟩, hframe⟩, haligned⟩ := hbad
  dsimp only
  rw [hchain.userPtFor huser, if_neg (hchain.pt_ne_zero _)]
  exact ⟨fun _ => ⟨huser, hpage, hframe, haligned⟩, fun _ => rfl⟩

/-- Mapping a page keeps the upper tables. -/
theorem mapUserPage_chain (hchain : Chain s C) (hnodup : C.frames.Nodup) (va pa : Nat) :
    Chain (mapUserPage s C.pml4 va pa true).2 C := by
  unfold mapUserPage
  split
  · exact hchain
  rename_i hgood
  have huser : inUser va := by
    by_contra hnot
    simp [hnot] at hgood
  dsimp only
  rw [hchain.userPtFor huser, if_neg (hchain.pt_ne_zero _)]
  refine chain_congr hchain fun t ht i => ?_
  rw [setEntry_tables, if_neg fun h => Dir.upper_ne_pt hnodup ht _ h.1]

/-- **The loop of `shm_attach_at` succeeds exactly if every page can be mapped.** -/
theorem mapPages_spec (base : Nat) (frames : Nat → Nat) (hnodup : C.frames.Nodup) : ∀ n page (s : State),
    Chain s C →
    ((Shm.mapPages C.pml4 base frames page n s).1 ↔
      ∀ q, page ≤ q → q < page + n → Mappable (base + q * pageSize) (frames q)) ∧
    ((Shm.mapPages C.pml4 base frames page n s).1 →
      Chain (Shm.mapPages C.pml4 base frames page n s).2 C) := by
  intro n
  induction n with
  | zero => exact fun page s hchain => ⟨⟨fun _ q hle hlt => by omega, fun _ => rfl⟩, fun _ => hchain⟩
  | succ n ih =>
    intro page s hchain
    have hiff := mapUserPage_iff hchain (base + page * pageSize) (frames page)
    have hkept := mapUserPage_chain hchain hnodup (base + page * pageSize) (frames page)
    unfold Shm.mapPages
    generalize mapUserPage s C.pml4 (base + page * pageSize) (frames page) true = r at hiff hkept
    obtain ⟨ok, s₁⟩ := r
    cases ok with
    | false =>
      refine ⟨⟨Bool.noConfusion, fun h => ?_⟩, Bool.noConfusion⟩
      exact Bool.noConfusion (hiff.mpr (h page (Nat.le_refl _) (by omega)))
    | true =>
      obtain ⟨hrest, hchain'⟩ := ih (page + 1) s₁ hkept
      refine ⟨hrest.trans ⟨fun h q hle hlt => ?_, fun h q hle hlt => h q (by omega) (by omega)⟩, hchain'⟩
      by_cases hq : q = page
      · rw [hq]
        exact hiff.mp rfl
      · exact h q (by omega) (by omega)

end

/-- The segments differ in their counts only. -/
def SameSegments (w w' : Shm.World) : Prop :=
  ∃ n : Fin Shm.shmMaxSegments → Nat, ∀ g, w'.segments g = { w.segments g with refCount := n g }

section

variable {w w' : Shm.World} (h : SameSegments w w')
include h

theorem SameSegments.attachable (m : Shm.Mapping) : Attachable w' m ↔ Attachable w m := by
  obtain ⟨n, hn⟩ := h
  simp only [Attachable, Shm.findSegment, hn]

/-- One more reference changes nothing else. -/
theorem SameSegments.ref (g : Fin Shm.shmMaxSegments) (count : Nat) :
    SameSegments w (w'.setSegment g { w'.segments g with refCount := count }) := by
  obtain ⟨n, hn⟩ := h
  refine ⟨update n g count, fun g' => ?_⟩
  rw [ShmAccounting.setSegment_segments, update_apply]
  by_cases hg : g' = g
  · rw [if_pos hg, if_pos hg, hn, hg]
  · rw [if_neg hg, if_neg hg, hn]

end

/-- The loop of `shm_clone_mappings` in the middle: the child `t` has taken `n` slots. -/
structure Stage (w w' : Shm.World) (t : Slot) (C : Dir) (n : Nat) : Prop where
  segments : SameSegments w w'
  dir : (w'.tasks t).dir = C.pml4
  chain : Chain w'.mem C
  taken : Table.used (fun j => ((w'.tasks t).slots j).used) = n

section

variable {w w' : Shm.World} {t : Slot} {C : Dir} {n : Nat}

/-- **One attachment.** -/
theorem Stage.attachAt (h : Stage w w' t C n) (hn : n < Shm.shmMaxMappings) (hnodup : C.frames.Nodup)
    {g : Fin Shm.shmMaxSegments} (hused : (w'.segments g).used) (base : Nat) :
    ((Shm.attachAt w' t g base).1 ↔ ∀ page < (w'.segments g).pageCount,
      Mappable (base + page * pageSize) ((w'.segments g).frames page)) ∧
    ((Shm.attachAt w' t g base).1 → Stage w (Shm.attachAt w' t g base).2 t C (n + 1)) := by
  have hne := h.chain.upper_ne_zero.1
  obtain ⟨hiff, hchain⟩ := mapPages_spec base (w'.segments g).frames hnodup (w'.segments g).pageCount 0 w'.mem
    h.chain
  obtain ⟨j, hj⟩ : ∃ j, Shm.slotFindFree (w'.tasks t).slots = some j := by
    refine Option.ne_none_iff_exists'.mp fun hnone => ?_
    have hfull := (Table.firstIdx_not_eq_none_iff fun j => ((w'.tasks t).slots j).used).mp hnone
    rw [h.taken] at hfull
    omega
  have hfree : ((w'.tasks t).slots j).used = false := by simpa using Table.firstIdx_some hj
  unfold Shm.attachAt
  rw [if_neg (by simp [h.dir, hne, hused]), hj, h.dir]
  generalize Shm.mapPages C.pml4 base (w'.segments g).frames 0 (w'.segments g).pageCount w'.mem = r at hiff hchain
  obtain ⟨ok, m⟩ := r
  cases ok with
  | false =>
    refine ⟨⟨nofun, fun hall => ?_⟩, nofun⟩
    exact hiff.mpr fun q _ hlt => hall q (by omega)
  | true =>
    refine ⟨⟨fun _ page hlt => hiff.mp rfl page (Nat.zero_le _) (by omega), fun _ => rfl⟩, fun _ => ?_⟩
    have hsegs := h.segments.ref g ((w'.segments g).refCount + 1)
    refine ⟨hsegs, ?_, hchain rfl, ?_⟩
    · show (((w'.setMem m).setSlot t j _).tasks t).dir = _
      rw [ShmAccounting.setSlot_dir]
      exact h.dir
    have hslots : ∀ m', m'.used →
        (fun l => ((((w'.setMem m).setSlot t j m').tasks t).slots l).used) =
          update (fun l => ((w'.tasks t).slots l).used) j true := by
      intro m' hm'
      funext l
      rw [ShmAccounting.setSlot_slots, update_apply]
      by_cases hl : l = j
      · rw [if_pos ⟨rfl, hl⟩, if_pos hl, hm']
      · rw [if_neg fun hc => hl hc.2, if_neg hl]
        rfl
    show Table.used (fun l => ((((w'.setMem m).setSlot t j _).tasks t).slots l).used) = _
    rw [hslots _ rfl, Table.used_update_true (p := fun l => ((w'.tasks t).slots l).used) hfree, h.taken]

/-- **All of them.** -/
theorem Stage.cloneSlots (hnodup : C.frames.Nodup) : ∀ ms {w' : Shm.World} {n : Nat},
    Stage w w' t C n → n + ms.length ≤ Shm.shmMaxMappings →
    ((Shm.cloneSlots t ms w').1 ↔ ∀ m ∈ ms, m.used → Attachable w m) := by
  intro ms
  induction ms with
  | nil => exact fun _ _ => ⟨fun _ _ hm => (List.not_mem_nil hm).elim, fun _ => rfl⟩
  | cons m ms ih =>
    intro w' n h hlen
    rw [List.length_cons] at hlen
    rw [List.forall_mem_cons]
    unfold Shm.cloneSlots
    cases hm : m.used with
    | false =>
      rw [if_pos (by decide), ih h (by omega)]
      exact ⟨fun hrest => ⟨Bool.noConfusion, hrest⟩, fun hrest => hrest.2⟩
    | true =>
      -- the segment is looked up in the world as it is by now
      have hattach := h.segments.attachable m
      cases hfind : Shm.findSegment w' m.segmentId with
      | none =>
        refine ⟨Bool.noConfusion, fun hall => ?_⟩
        obtain ⟨g, hg, _⟩ := hattach.mpr (hall.1 rfl)
        rw [hfind] at hg
        cases hg
      | some g =>
        have hused : (w'.segments g).used := (Bool.and_eq_true_iff.mp (Table.firstIdx_some hfind)).1
        dsimp only
        cases hmarked : (w'.segments g).markedForDelete with
        | true =>
          refine ⟨Bool.noConfusion, fun hall => ?_⟩
          obtain ⟨g', hg, hnot, _⟩ := hattach.mpr (hall.1 rfl)
          rw [hfind] at hg
          cases hg
          rw [hmarked] at hnot
          cases hnot
        | false =>
          obtain ⟨hiff, hnext⟩ := h.attachAt (by omega) hnodup hused m.base
          have hthis : (Shm.attachAt w' t g m.base).1 ↔ Attachable w m := by
            refine hiff.trans (Iff.trans ?_ hattach)
            refine ⟨fun hpages => ⟨g, hfind, hmarked, hpages⟩, ?_⟩
            rintro ⟨g', hg, _, hpages⟩
            rw [hfind] at hg
            cases hg
            exact hpages
          generalize Shm.attachAt w' t g m.base = r at hthis hnext
          obtain ⟨ok, w₁⟩ := r
          cases ok with
          | false =>
            exact ⟨Bool.noConfusion, fun hall => absurd (hthis.mpr (hall.1 rfl)) Bool.noConfusion⟩
          | true =>
            refine (ih (hnext rfl) (by omega)).trans ?_
            exact ⟨fun hrest => ⟨fun _ => hthis.mp rfl, hrest⟩, fun hrest => hrest.2⟩

/-- **`shm_clone_mappings` succeeds exactly if every mapping of the parent can be attached.** -/
theorem shmCloneMappings_iff (hnodup : C.frames.Nodup) (hdir : (w.tasks t).dir = C.pml4)
    (hchain : Chain w.mem C) (parent : Slot) :
    (Shm.shmCloneMappings w parent t).1 ↔
      ∀ j, ((w.tasks parent).slots j).used → Attachable w ((w.tasks parent).slots j) := by
  have hne := hchain.upper_ne_zero.1
  unfold Shm.shmCloneMappings
  rw [if_neg (by rwa [hdir])]
  have hself : (w.setTask t { w.tasks t with slots := fun _ => Shm.Mapping.empty }).tasks t =
      { w.tasks t with slots := fun _ => Shm.Mapping.empty } := update_self ..
  have hstage : Stage w (w.setTask t { w.tasks t with slots := fun _ => Shm.Mapping.empty }) t C 0 := by
    refine ⟨⟨fun g => (w.segments g).refCount, fun _ => rfl⟩, ?_, hchain, ?_⟩
    · rwa [hself]
    · rw [hself]
      exact Table.used_eq_zero.mpr fun _ => rfl
  rw [Stage.cloneSlots hnodup _ hstage (by rw [List.length_map, List.length_finRange, Nat.zero_add]),
    List.forall_mem_map]
  exact ⟨fun h j => h j (List.mem_finRange j), fun h j _ => h j⟩

end

/-! ## The ways a fork ends -/

section

variable {k : Kernel} {c i : Slot} {D : Dir} {forged : Option Slab.Page}

/-- The directory of the child, its kernel stack, and the two together. -/
def Kernel.childDir (k : Kernel) (c : Slot) : Nat := (cowClone k.mem (k.task.tasks c).pageDirectory).1

@[inherit_doc Kernel.childDir]
def Kernel.childStack (k : Kernel) (c : Slot) : Nat :=
  (kmallocStack k.heap (cowClone k.mem (k.task.tasks c).pageDirectory).2.frames).1

@[inherit_doc Kernel.childDir]
def Kernel.childEnv (k : Kernel) (c : Slot) : ForkEnv := forkEnv (k.childDir c) (k.childStack c)

/-- The kernel once the clone is made and the stack has been asked for. -/
def Kernel.cloned (k : Kernel) (c : Slot) : Kernel :=
  (Kernel.loseRegion { k with mem := (cowClone k.mem (k.task.tasks c).pageDirectory).2 } c).askStack

/-- And once the entry of the child is filled. -/
def Kernel.filled (k : Kernel) (c i : Slot) : Kernel := (k.cloned c).fillSlot c i (k.childEnv c)

theorem forkTask_early (h : ∀ c i, ¬Begins k c i) : forkTask k forged = (-1, k) := by
  unfold forkTask
  cases hcur : k.task.current with
  | none => rfl
  | some c =>
    dsimp only
    cases hmode : (k.task.tasks c).userMode with
    | false => rfl
    | true =>
      cases hfree : findFreeSlot k.task with
      | none => rfl
      | some i => exact absurd ⟨hcur, hmode, hfree⟩ (h c i)

/-- The slot as it was, for a later spawn. -/
theorem slot_iff (hsame : ∀ i, findFreeSlot k.task = some i → s.tasks i = k.task.tasks i) :
    (∀ i, findFreeSlot k.task = some i →
      pointers (s.tasks i) = pointers (k.task.tasks i) ∧ Reusable i (s.tasks i)) ↔ Blank k := by
  refine forall_congr' fun i => forall_congr' fun hfree => ?_
  rw [hsame i hfree, and_iff_right rfl, reusable_iff hfree]

/-- A fork that does not come to the clone. -/
theorem early_iff : FailsCleanly k k ↔ Blank k :=
  ⟨fun h => (slot_iff fun _ _ => rfl).mp h.slot,
    fun h => ⟨fun _ _ => rfl, fun _ => rfl, fun _ => rfl, (slot_iff fun _ _ => rfl).mpr h⟩⟩

theorem shared_iff (t : Entry) : shared t = t ↔ t.userPhysicalBase = 0 := by
  constructor
  · intro h
    rw [← h]
    rfl
  · intro h
    cases t
    cases h
    rfl

theorem forkDone_id (parent : Entry) (e : ForkEnv) (t : Entry) :
    (forkDone parent e t).id = t.id := by
  unfold forkDone
  rw [(Task.installSignalTrampoline_eq _).choose_spec]

theorem cloned_self : (k.cloned c).task.tasks c = shared (k.task.tasks c) := modify_self ..

theorem filled_self : (k.filled c i).task.tasks i = Task.forkEntry (k.cloned c).task
    ((k.cloned c).task.tasks c) (k.childEnv c) ((k.cloned c).task.tasks i) := modify_self ..

theorem filled_ne {j : Slot} (hj : j ≠ i) : (k.filled c i).task.tasks j = (k.cloned c).task.tasks j :=
  modify_ne hj ..

section

variable (hb : Begins k c i)
include hb

theorem forkTask_no_clone (hzero : k.childDir c = 0) :
    forkTask k forged = (-1, { k with mem := (cowClone k.mem (k.task.tasks c).pageDirectory).2 }) := by
  unfold forkTask
  rw [hb.current]
  dsimp only
  rw [hb.user, hb.free]
  exact if_pos hzero

theorem forkTask_no_stack (hne : k.childDir c ≠ 0) (hstack : k.childStack c = 0) :
    forkTask k forged = (-1, { k.cloned c with mem := dispose (k.cloned c).mem (k.childDir c) }) := by
  unfold forkTask
  rw [hb.current]
  dsimp only
  rw [hb.user, hb.free]
  exact (if_neg hne).trans (if_pos hstack)

theorem forkTask_filled (hne : k.childDir c ≠ 0) (hstack : k.childStack c ≠ 0) : forkTask k forged =
      match Shm.shmCloneMappings (k.filled c i).shm c i with
      | (false, w) => (-1, ((k.filled c i).setShm i w).abandon i (k.childEnv c) forged)
      | (true, w) =>
        let task := Task.schedEnqueueReady i (((k.filled c i).setShm i w).task.modify i
          (forkDone ((k.cloned c).task.tasks c) (k.childEnv c)))
        ((task.tasks i).id, { (k.filled c i).setShm i w with task }) := by
  unfold forkTask
  rw [hb.current]
  dsimp only
  rw [hb.user, hb.free]
  exact (if_neg hne).trans (if_neg hstack)

variable (hk : Ordered k D)
include hk

/-- The parent is not the free slot. -/
theorem Begins.ne : c ≠ i := by
  rintro rfl
  have hfree := List.find?_some hb.free
  rw [(hk.parent c hb.current hb.user).1] at hfree
  cases hfree

/-- The clone succeeds exactly if it has its five frames. -/
theorem childDir_ne_zero : k.childDir c ≠ 0 ↔ CanClone k := by
  unfold Kernel.childDir
  rw [(hk.parent c hb.current hb.user).2]
  constructor
  · intro hne
    refine ⟨fun hzero => hne ?_, ?_⟩
    · rw [cowClone_not_reached fun hreached => hreached.kernel hzero]
    · obtain ⟨C, _, hcl⟩ := cowClone_cloned hk.books.inv hk.chain hk.own hne
      exact hcl.frames.hasFree
  · exact fun h => cowClone_ne_zero hk.books.inv hk.chain hk.own h.kernel h.frames

theorem growth_cloned (hne : k.childDir c ≠ 0) :
    (growth k.heap (cowClone k.mem (k.task.tasks c).pageDirectory).2.frames).1 = growthOf k := by
  unfold Kernel.childDir at hne
  rw [(hk.parent c hb.current hb.user).2] at hne ⊢
  have hbits := cowClone_bits hk.books.inv hk.chain hk.own hne
  unfold growthOf growth
  split
  · exact hbits.allocRegion _ _
  · rfl

theorem childStack_eq (hne : k.childDir c ≠ 0) : k.childStack c = stackOf k := by
  unfold Kernel.childStack kmallocStack
  rw [growth_cloned hb hk hne]
  rfl

/-- **A fork that fails at the clone.** -/
theorem no_clone_iff (hzero : k.childDir c = 0) :
    FailsCleanly k (forkTask k forged).2 ↔ Blank k ∧ FailsEarly k c D := by
  have hclone : ¬CanClone k := fun h => (childDir_ne_zero hb hk).mpr h hzero
  have hdir := (hk.parent c hb.current hb.user).2
  have hcounts : (∀ f, (cowClone k.mem (k.task.tasks c).pageDirectory).2.frames.refcount f =
      k.mem.frames.refcount f) ↔
        (Stuck k.mem D.pml4 → ∀ f, firstShared k.mem D.pml4 f = 0 ∨ k.mem.frames.refcount f = 255) := by
    have hroot := rooted_of_chain hk.chain hk.own
    unfold Kernel.childDir at hzero
    rw [hdir] at hzero ⊢
    by_cases hstuck : Stuck k.mem D.pml4
    · obtain ⟨_, hleaves⟩ := cowClone_stuck hroot hk.books hstuck
      rw [forall_prop_of_true hstuck]
      refine forall_congr' fun f => ?_
      have hbyte := hk.books.byte f
      rw [hleaves.counted]
      omega
    · have hleaves := cowClone_not_stuck hroot hk.books hstuck hzero
      refine ⟨fun _ h => absurd h hstuck, fun _ f => ?_⟩
      have hbyte := hk.books.byte f
      rw [hleaves.counted]
      omega
  rw [forkTask_no_clone hb hzero]
  constructor
  · exact fun h => ⟨(slot_iff fun _ _ => rfl).mp h.slot, hcounts.mp h.counts, fun h => absurd h hclone⟩
  · exact fun h => ⟨fun _ _ => rfl, fun _ => rfl, hcounts.mpr h.2.clone, (slot_iff fun _ _ => rfl).mpr h.1⟩

/-- **A fork that fails at the kernel stack.** -/
theorem no_stack_iff (hne : k.childDir c ≠ 0) (hstack : k.childStack c = 0) :
    FailsCleanly k (forkTask k forged).2 ↔ Blank k ∧ FailsEarly k c D := by
  have hclone := (childDir_ne_zero hb hk).mp hne
  have hdir := (hk.parent c hb.current hb.user).2
  have hgrowth := growth_cloned hb hk hne
  have hslot := slot_iff (k := k) (s := (k.cloned c).task) fun j hfree =>
    modify_ne (Option.some.inj (hfree.symm.trans hb.free) ▸ (hb.ne hk).symm) ..
  have hcounts : (∀ f, (dispose (k.cloned c).mem (k.childDir c)).frames.refcount f = k.mem.frames.refcount f) ↔
      growthOf k = 0 ∧
        ∀ f, k.mem.frames.refcount f = 0 ∨ k.mem.frames.refcount f + sharedCount k.mem D f ≤ 255 := by
    rw [← hgrowth]
    unfold Kernel.childDir at hne ⊢
    unfold Kernel.cloned
    rw [hdir] at hne ⊢
    obtain ⟨C, hC, hcl⟩ := cowClone_cloned hk.books.inv hk.chain hk.own hne
    rw [← hC]
    refine taken_back_iff k.heap hk.books hk.own hcl ?_
    -- the child's PML4 is on a frame that was free
    obtain ⟨g, hg, ⟨hfree, hlt⟩, _⟩ := hcl.frames.taken C.pml4 (.head _)
    show C.pml4 ≠ (cowClone k.mem D.pml4).2.kernelPml4
    rw [cowClone_kernelPml4 hk.chain hne, hg]
    exact hk.kernel g hfree hlt
  rw [forkTask_no_stack hb hne hstack]
  constructor
  · intro h
    refine ⟨hslot.mp h.slot, fun hstuck => absurd hclone.frames hstuck.last, fun _ => ?_⟩
    refine ⟨(childStack_eq hb hk hne).symm.trans hstack, (hcounts.mp h.counts).1, ?_, (hcounts.mp h.counts).2⟩
    exact (shared_iff _).mp (cloned_self.symm.trans (h.parent c hb.current))
  · rintro ⟨hblank, hearly⟩
    obtain ⟨_, hregion, hbase, hbelow⟩ := hearly.stack hclone
    refine ⟨fun c' hc' => ?_, fun _ => rfl, hcounts.mpr ⟨hregion, hbelow⟩, hslot.mpr hblank⟩
    rw [← Option.some.inj (hb.current.symm.trans hc')]
    exact cloned_self.trans ((shared_iff _).mpr hbase)

/-- `shm_clone_mappings` answers for the child what the parent's mappings allow. -/
theorem filled_clone_iff (hne : k.childDir c ≠ 0) :
    (Shm.shmCloneMappings (k.filled c i).shm c i).1 ↔
      ∀ j, ((k.shm.tasks c).slots j).used → Attachable k.shm ((k.shm.tasks c).slots j) := by
  have hdir := (hk.parent c hb.current hb.user).2
  obtain ⟨C, hC, hcl⟩ := cowClone_cloned hk.books.inv hk.chain hk.own (by
    rw [← hdir]
    exact hne)
  have hchild : ((k.filled c i).shm.tasks i).dir = C.pml4 := by
    rw [hC, ← hdir]
    show ((k.filled c i).task.tasks i).pageDirectory = _
    rw [filled_self]
    rfl
  have hmem : (k.filled c i).shm.mem = grown k.heap (cowClone k.mem D.pml4).2 := by
    rw [← hdir]
    rfl
  have hslots : ((k.filled c i).shm.tasks c).slots = (k.shm.tasks c).slots := by
    show (holder ((k.filled c i).task.tasks c)).slots = _
    rw [filled_ne (hb.ne hk), cloned_self]
    rfl
  have hchain : Chain (k.filled c i).shm.mem C := by
    rw [hmem]
    exact chain_congr hcl.chain fun _ _ _ => rfl
  rw [shmCloneMappings_iff hcl.frames.nodup hchild hchain, hslots]
  exact Iff.rfl

/-- **A fork with a kernel stack** fails exactly if a mapping cannot be attached, and then the slot keeps
    the directory that has been destroyed. -/
theorem filled_iff (hne : k.childDir c ≠ 0) (hstack : k.childStack c ≠ 0) :
    ((forkTask k forged).1 = -1 → FailsCleanly k (forkTask k forged).2) ↔
      ∀ j, ((k.shm.tasks c).slots j).used → Attachable k.shm ((k.shm.tasks c).slots j) := by
  rw [← filled_clone_iff hb hk hne, forkTask_filled hb hne hstack]
  generalize Shm.shmCloneMappings (k.filled c i).shm c i = r
  obtain ⟨ok, w⟩ := r
  have hentry : ((k.filled c i).setShm i w).task.tasks i =
      attached (w.tasks i).slots ((k.filled c i).task.tasks i) := modify_self ..
  rw [filled_self] at hentry
  cases ok with
  | true =>
    refine ⟨fun _ => rfl, fun _ hid => ?_⟩
    -- the answer is the next identifier
    have hlink := (Task.schedEnqueueReady_relinked i (((k.filled c i).setShm i w).task.modify i
      (forkDone ((k.cloned c).task.tasks c) (k.childEnv c)))).entries i
    rw [modify_self, hentry] at hlink
    have hnext := (congrArg Entry.id hlink).trans (forkDone_id ..)
    have hlast : k.task.nextTaskId = -1 := hnext.symm.trans hid
    have hpos := hk.ids
    omega
  | false =>
    refine ⟨fun h => ?_, nofun⟩
    have hclean := (h rfl).slot i hb.free
    -- the slot is free again, and the next spawn finds it
    have hused : ∀ j, ((((k.filled c i).setShm i w).abandon i (k.childEnv c) forged).task.tasks j).used =
        (k.task.tasks j).used := by
      intro j
      by_cases hj : j = i
      · have hslot := List.find?_some hb.free
        rw [Bool.not_eq_true'] at hslot
        rw [hj, hslot]
        exact congrArg Entry.used (modify_self ..)
      · exact (congrArg Entry.used ((modify_ne hj ..).trans ((modify_ne hj ..).trans
          (filled_ne hj)))).trans (Task.modify_field Entry.used rfl j)
    have hfree : findFreeSlot (((k.filled c i).setShm i w).abandon i (k.childEnv c) forged).task =
        some i := by
      rw [← hb.free]
      unfold findFreeSlot
      simp only [hused]
    have hdir := (reusable_iff hfree).mp hclean.2
    refine absurd ?_ hne
    rw [← hdir]
    show _ = ((((k.filled c i).setShm i w).task.modify i unused).tasks i).pageDirectory
    rw [modify_self, hentry]
    rfl

end

end

/-- **When the failure of a fork is clean.**  In a kernel that is in order, a fork that returns -1 leaves
    the parent, the counts of segments and frames and the slot as they were, and the slot fit for a later
    spawn, exactly if it does not fail at all or it fails early, with no directory in the slot. -/
theorem fork_failure_clean_iff (k : Kernel) (D : Dir) (forged : Option Slab.Page) (hk : Ordered k D) :
    ((forkTask k forged).1 = -1 → FailsCleanly k (forkTask k forged).2) ↔
      (∃ c i, Begins k c i ∧ GoesThrough k c) ∨ (Blank k ∧ ∀ c i, Begins k c i → FailsEarly k c D) := by
  by_cases hbegins : ∃ c i, Begins k c i
  · obtain ⟨c, i, hb⟩ := hbegins
    have honly : ∀ c' i', Begins k c' i' → c' = c ∧ i' = i := by
      intro c' i' hb'
      have hc := hb'.current.symm.trans hb.current
      have hi := hb'.free.symm.trans hb.free
      exact ⟨Option.some.inj hc, Option.some.inj hi⟩
    have hright : ((∃ c i, Begins k c i ∧ GoesThrough k c) ∨
        (Blank k ∧ ∀ c i, Begins k c i → FailsEarly k c D)) ↔
          GoesThrough k c ∨ (Blank k ∧ FailsEarly k c D) := by
      refine or_congr ⟨?_, fun h => ⟨c, i, hb, h⟩⟩ (and_congr_right fun _ => ⟨fun h => h c i hb, ?_⟩)
      · rintro ⟨c', i', hb', h⟩
        rwa [(honly c' i' hb').1] at h
      · intro h c' i' hb'
        rwa [(honly c' i' hb').1]
    rw [hright]
    by_cases hzero : k.childDir c = 0
    · have hnot : ¬GoesThrough k c := fun h => (childDir_ne_zero hb hk).mpr h.clone hzero
      have hiff : FailsCleanly k (forkTask k forged).2 ↔ _ := no_clone_iff hb hk hzero
      rw [← hiff, forkTask_no_clone hb hzero]
      exact ⟨fun h => .inr (h rfl), fun h _ => h.resolve_left hnot⟩
    have hclone := (childDir_ne_zero hb hk).mp hzero
    have heq := childStack_eq hb hk hzero
    by_cases hstack : k.childStack c = 0
    · have hnot : ¬GoesThrough k c := fun h => h.stack (heq ▸ hstack)
      have hiff : FailsCleanly k (forkTask k forged).2 ↔ _ := no_stack_iff hb hk hzero hstack
      rw [← hiff, forkTask_no_stack hb hzero hstack]
      exact ⟨fun h => .inr (h rfl), fun h _ => h.resolve_left hnot⟩
    · rw [filled_iff hb hk hzero hstack]
      rw [heq] at hstack
      refine ⟨fun h => .inl ⟨hclone, hstack, h⟩, ?_⟩
      rintro (h | ⟨_, h⟩)
      · exact h.mappings
      · exact absurd (h.stack hclone).1 hstack
  · have hnot : ∀ c i, ¬Begins k c i := fun c i h => hbegins ⟨c, i, h⟩
    rw [forkTask_early hnot]
    refine (Iff.trans ⟨fun h => h rfl, fun h _ => h⟩ early_iff).trans ?_
    refine ⟨fun h => .inr ⟨h, fun c i hb => absurd hb (hnot c i)⟩, ?_⟩
    rintro (⟨c, i, hb, _⟩ | h)
    · exact absurd hb (hnot c i)
    · exact h.1

/-! ### A task with one page, attached to an unlinked segment -/

/-- The directory of one page. -/
def onePageDir : Dir := ⟨frameAddr 256, frameAddr 257, frameAddr 258, frameAddr 259, frameAddr 260⟩

/-- The memory of one page, and the page of a segment at the start of the window, on frame 262. -/
def twoPages : State :=
  { onePage 0 with
    frames :=
      { marked := fun f => decide (f < 263)
        refcount := fun f => if f < 263 then 1 else 0
        totalFrames := 300
        freeFrames := 37
        highestAddress := 300 * physmemFrameSize }
    tables := fun t i =>
      if t = frameAddr 260 ∧ i = ptIdx userShmBase then Pte.rw (frameAddr 262) else (onePage 0).tables t i }

/-- The task runs in slot 1 and is attached to segment 1. -/
def forker : Task.State :=
  let s := Task.taskSystemInit Task.quietBoot
  { s with
    tasks := update s.tasks 1 { s.tasks 1 with
      used := true, id := 2, state := .running, userMode := true, pageDirectory := onePageDir.pml4,
      shmMappings := [{ used := true, segmentId := 1, base := userShmBase, size := pageSize }] }
    current := some 1
    nextTaskId := 3 }

/-- The segment has been unlinked since.  The heap has one block, free or not. -/
def unlinked (free : Bool) : Kernel where
  task := forker
  mem := twoPages
  segments := update (fun _ => Shm.Segment.empty) 0
    { used := true, id := 1, size := pageSize, pageCount := 1, refCount := 1, markedForDelete := true,
      frames := fun page => if page = 0 then frameAddr 262 else 0 }
  nextId := 2
  heap := { blocks := [{ addr := 0x100000, size := 4194280, free }]
            regions := [{ phys := 0x100000, size := Heap.heapInitialSize }]
            slab := Slab.State.empty }

theorem twoPages_inUse {f : Nat} (hlow : lowFrames ≤ f) (hlt : f < 263) : InUse twoPages.frames (frameAddr f) :=
  ⟨f, rfl, hlow, Nat.lt_trans hlt (by decide), decide_eq_true hlt⟩

theorem twoPages_books : Books twoPages.frames := by
  refine ⟨⟨by decide, fun f hlow _ => ?_⟩, fun f hfree => ?_, fun f => ?_⟩
  · exact decide_eq_true (Nat.lt_trans hlow (by decide))
  · exact if_neg (of_decide_eq_false hfree)
  · show (if f < 263 then 1 else 0) ≤ 255
    split <;> omega

theorem twoPages_chain : Chain twoPages onePageDir := by
  refine ⟨by decide, by decide, fun ti hti => ?_, by decide⟩
  rcases (show ti = 0 ∨ ti = 1 by unfold userPdCount at hti; omega) with rfl | rfl <;> decide

/-- The page of the task and the page of the segment. -/
theorem twoPages_leaf {p : Nat} (hp : p < userPages) (hpresent : (leaf twoPages onePageDir p).present) :
    (p = 0 ∧ leaf twoPages onePageDir p = Pte.rw (frameAddr 261)) ∨
      (inShm (pageVa 0 p) ∧ leaf twoPages onePageDir p = Pte.rw (frameAddr 262)) := by
  have htables : ∀ t i, twoPages.tables t i = if t = frameAddr 260 ∧ i = ptIdx userShmBase then Pte.rw (frameAddr 262)
      else (onePage 0).tables t i := fun _ _ => rfl
  rcases userPages_cases hp with hlow | ⟨q, hq, rfl⟩
  · rw [leaf_low hlow, htables, if_neg fun h => absurd h.1 (by decide), onePage_leaf 0 (by decide)] at hpresent ⊢
    split at hpresent
    · rename_i hfirst
      exact .inl ⟨hfirst.2, if_pos hfirst⟩
    · cases hpresent
  · rw [leaf_high hq, htables] at hpresent ⊢
    split at hpresent
    · rename_i hwindow
      rw [hwindow.2]
      exact .inr ⟨by decide +kernel, rfl⟩
    · rw [onePage_leaf 0 (by decide), if_neg fun h => absurd h.1 (by decide)] at hpresent
      cases hpresent

/-- Only the first page is shared with a child. -/
theorem twoPages_shared (f : Nat) : sharedCount twoPages onePageDir f ≤ 1 := by
  have hfirst : ∀ p < userPages, shares (leaf twoPages onePageDir p) (pageVa 0 p) → p = 0 := by
    intro p hp hshares
    obtain ⟨hpresent, hshm⟩ := Bool.and_eq_true_iff.mp hshares
    rcases twoPages_leaf hp hpresent with ⟨h, _⟩ | ⟨h, _⟩
    · exact h
    · rw [h] at hshm
      cases hshm
  exact sharedCount_le_one (fun p hp q hq hps hqs _ => (hfirst p hp hps).trans (hfirst q hq hqs).symm) f

theorem twoPages_own : OwnFrames twoPages onePageDir := by
  refine ⟨by decide, fun a ha => ?_, fun p hp hpresent => ?_⟩
  · have ha : a ∈ [256, 257, 258, 259, 260].map frameAddr := ha
    obtain ⟨f, hf, rfl⟩ := List.mem_map.mp ha
    simp only [List.mem_cons, List.not_mem_nil, or_false] at hf
    exact twoPages_inUse (by simp only [lowFrames]; omega) (by omega)
  · rcases twoPages_leaf hp hpresent with ⟨_, h⟩ | ⟨_, h⟩
    · rw [h]
      exact twoPages_inUse (by decide) (by decide)
    · rw [h]
      exact twoPages_inUse (by decide) (by decide)

theorem unlinked_begins : Begins (unlinked free) 1 2 :=
  ⟨rfl, rfl, show findFreeSlot forker = some 2 by decide +kernel⟩

theorem unlinked_ordered : Ordered (unlinked free) onePageDir := by
  refine ⟨twoPages_books, fun f hfree _ heq => ?_, show (0 : Int) < 3 by decide, fun c hc _ => ?_,
    twoPages_chain, twoPages_own⟩
  · have hge : ¬f < 263 := of_decide_eq_false hfree
    have hone : f = 1 := frameAddr_inj (heq.trans (show physmemFrameSize = frameAddr 1 by decide))
    omega
  · rw [← Option.some.inj hc]
    exact ⟨rfl, rfl⟩

theorem unlinked_canClone : CanClone (unlinked free) :=
  ⟨show physmemFrameSize ≠ 0 by decide, show HasFree twoPages.frames 5 from
    ⟨[263, 264, 265, 266, 267], by decide, by decide, by decide⟩⟩

/-- With a kernel stack to be had, the fork fails at the segment, and the slot keeps a directory that is
    no longer one. -/
theorem fork_keeps_directory : (forkTask (unlinked true) none).1 = -1 ∧
    ¬FailsCleanly (unlinked true) (forkTask (unlinked true) none).2 := by
  have hb := unlinked_begins true
  have hk := unlinked_ordered true
  have hne := (childDir_ne_zero hb hk).mpr (unlinked_canClone true)
  have hstack : (unlinked true).childStack 1 ≠ 0 := by
    decide +kernel
  rw [← Classical.not_imp, filled_iff hb hk hne hstack]
  intro hall
  obtain ⟨g, hg, hnot, _⟩ := hall 0 rfl
  have hfind : Shm.findSegment (unlinked true).shm 1 = some 0 := by decide +kernel
  have hzero : g = 0 := Option.some.inj (hg.symm.trans hfind)
  rw [hzero] at hnot
  exact Bool.noConfusion hnot

/-- Without one it fails cleanly. -/
theorem fork_fails_cleanly : (forkTask (unlinked false) none).1 = -1 ∧
    FailsCleanly (unlinked false) (forkTask (unlinked false) none).2 := by
  have hb := unlinked_begins false
  have hk := unlinked_ordered false
  have hne := (childDir_ne_zero hb hk).mpr (unlinked_canClone false)
  have hzero : stackOf (unlinked false) = 0 := by decide +kernel
  have hfails : (forkTask (unlinked false) none).1 = -1 := by
    rw [forkTask_no_stack hb hne ((childStack_eq hb hk hne).trans hzero)]
  refine ⟨hfails, (fork_failure_clean_iff _ _ none hk).mpr (.inr ⟨fun i hi => ?_, fun c i hc => ?_⟩) hfails⟩
  · rw [← Option.some.inj (hb.free.symm.trans hi)]
    rfl
  rw [← Option.some.inj (hb.current.symm.trans hc.current)]
  refine ⟨fun h => absurd (unlinked_canClone false).frames h.last, fun _ => ⟨hzero, by decide +kernel, rfl, ?_⟩⟩
  intro f
  have hbyte : twoPages.frames.refcount f ≤ 1 := by
    show (if f < 263 then 1 else 0) ≤ 1
    split <;> omega
  have hone := twoPages_shared f
  show twoPages.frames.refcount f = 0 ∨ twoPages.frames.refcount f + sharedCount twoPages onePageDir f ≤ 255
  omega

end Lyth.ForkFailure
