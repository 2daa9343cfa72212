/-
  Shared memory segments (`kernel/mem/shm.c`).

    1. The program.  A table of `SHM_MAX_SEGMENTS` segments, each with up to 16 frames of its own, and for
       every task a directory and `SHM_MAX_MAPPINGS` mapping slots.  Attaching maps the frames of a
       segment into the window below the stack guard and takes a slot; a segment whose id has been unlinked
       lives on until its last slot is gone.
    2. Specification.  The reference count of a segment is the NUMBER OF SLOTS, over all tasks, that name
       it; no frame belongs to two segments; and the frames go back to the frame allocator exactly when
       the segment is unlinked and no slot names it.
    3. Crux.  Slots name segments by id, and `shm_find_segment` takes the first segment with that id, so the
       count is exact only as long as ids are UNIQUE.  The id of a new segment is `shm_next_id++` on a
       32-bit `int`: `FreshId` is the condition that it has not come round to one still in use.

  The rest of the kernel takes and gives back frames and writes page tables in between; `Call.other` is any
  such change that frees no frame of a segment.
-/
import Lyth.Lib.Table
import Lyth.Directory

namespace Lyth.Shm

open Loop Run Table Word Paging Directory Function
open Physmem (frameAddr lowFrames)

/-! ## The data of `shm.c` -/

abbrev shmMaxSegments : Nat := 16
abbrev shmMaxMappings : Nat := 8

/-- `TASK_MAX_COUNT`. -/
abbrev taskMaxCount : Nat := 16

/-- `PAGING_USER_SHM_SIZE`. -/
def userShmSize : Nat := 16 * pageSize

/-- `SHM_MAX_PAGES`. -/
def shmMaxPages : Nat := userShmSize / pageSize

/-- `shm_segment_t`. -/
structure Segment where
  used : Bool
  id : Int
  size : Nat
  pageCount : Nat
  refCount : Nat
  markedForDelete : Bool
  frames : Nat → Nat

/-- A segment as `shm_init` leaves it. -/
def Segment.empty : Segment where
  used := false
  id := 0
  size := 0
  pageCount := 0
  refCount := 0
  markedForDelete := false
  frames := fun _ => 0

def Segment.setFrames (g : Segment) (frames : Nat → Nat) : Segment := { g with frames }

/-- `shm_mapping_t`. -/
structure Mapping where
  used : Bool
  segmentId : Int
  base : Nat
  size : Nat
deriving DecidableEq

def Mapping.empty : Mapping where
  used := false
  segmentId := 0
  base := 0
  size := 0

/-- What of a task `shm.c` works on: whether its entry is in use, its directory, and its slots. -/
structure Holder where
  used : Bool
  dir : Nat
  slots : Fin shmMaxMappings → Mapping

def Holder.empty : Holder where
  used := false
  dir := 0
  slots := fun _ => Mapping.empty

/-- Memory, the static variables of `shm.c`, and the tasks. -/
structure World where
  mem : State
  segments : Fin shmMaxSegments → Segment
  nextId : Int
  tasks : Fin taskMaxCount → Holder

def World.setMem (w : World) (m : State) : World := { w with mem := m }

def World.setSegment (w : World) (i : Fin shmMaxSegments) (g : Segment) : World :=
  { w with segments := update w.segments i g }

def World.setTask (w : World) (t : Fin taskMaxCount) (h : Holder) : World :=
  { w with tasks := update w.tasks t h }

def World.setSlot (w : World) (t : Fin taskMaxCount) (j : Fin shmMaxMappings) (m : Mapping) : World :=
  w.setTask t { w.tasks t with slots := update (w.tasks t).slots j m }

/-- The bytes of a frame set to 0. -/
def zeroFrame (m : State) (frame : Nat) : State :=
  { m with bytes := update m.bytes frame fun _ => 0 }

/-! ## Segments -/

/-- `shm_page_count_for_size(size)`; `none` is -1. -/
def pageCountForSize (size : Nat) : Option Nat :=
  if size = 0 ∨ size > userShmSize then none
  else
    let alignedSize := alignUp size pageSize
    if alignedSize = 0 ∨ alignedSize > userShmSize then none else some (alignedSize / pageSize)

/-- `shm_find_segment(segment_id)`. -/
def findSegment (w : World) (segmentId : Int) : Option (Fin shmMaxSegments) :=
  firstIdx fun i => (w.segments i).used && decide ((w.segments i).id = segmentId)

/-- The body of the loop of `shm_release_segment`. -/
def freePage (i : Fin shmMaxSegments) (page : Nat) (w : World) : World :=
  let g := w.segments i
  if g.frames page ≠ 0 then
    (w.setMem (w.mem.freeFrame (g.frames page))).setSegment i
      (g.setFrames (update g.frames page 0))
  else w

/-- `shm_release_segment(segment)`. -/
def releaseSegment (w : World) (i : Fin shmMaxSegments) : World :=
  if !(w.segments i).used || decide ((w.segments i).refCount ≠ 0) then w
  else
    let w := forRange 0 (w.segments i).pageCount (freePage i) w
    w.setSegment i (Segment.empty.setFrames (w.segments i).frames)

/-- The loop of `shm_create` over the pages; `false` if a frame could not be had, and then what was
    taken is given back. -/
def createPages (i : Fin shmMaxSegments) : Nat → Nat → World → Bool × World
  | _, 0, w => (true, w)
  | page, n + 1, w =>
    let (frame, mem) := w.mem.allocFrame
    let g := w.segments i
    if frame = 0 then
      (false, releaseSegment ((w.setMem mem).setSegment i { g with markedForDelete := true }) i)
    else
      createPages i (page + 1) n ((w.setMem (zeroFrame mem frame)).setSegment i
          (g.setFrames (update g.frames page frame)))

/-- The segment `shm_create` begins with; the frames are those of the free entry. -/
def newSegment (g : Segment) (id : Int) (size pageCount : Nat) : Segment :=
  { used := true, id, size, pageCount, refCount := 0,
    markedForDelete := false, frames := g.frames }

/-- `shm_create(size)`: the id, or -1. -/
def shmCreate (w : World) (size : Nat) : Int × World :=
  match pageCountForSize size with
  | none => (-1, w)
  | some pageCount =>
    match firstIdx fun i => !(w.segments i).used with
    | none => (-1, w)
    | some i =>
      let id := w.nextId
      let w := { w with nextId := int32 (w.nextId + 1) }.setSegment i
        (newSegment (w.segments i) w.nextId size pageCount)
      match createPages i 0 pageCount w with
      | (true, w) => (id, w)
      | (false, w) => (-1, w)

/-- `shm_unlink(segment_id)`. -/
def shmUnlink (w : World) (segmentId : Int) : Int × World :=
  match findSegment w segmentId with
  | none => (-1, w)
  | some i =>
    let w := w.setSegment i { w.segments i with markedForDelete := true }
    (0, if (w.segments i).refCount = 0 then releaseSegment w i else w)

/-! ## Mappings -/

/-- `shm_slot_find_free`. -/
def slotFindFree (slots : Fin shmMaxMappings → Mapping) : Option (Fin shmMaxMappings) :=
  firstIdx fun j => !(slots j).used

/-- The pages of the window that a slot takes, in the loops of `shm_find_free_base`. -/
def markSlot (m : Mapping) (usedPages : Nat → Bool) : Nat → Bool :=
  if !m.used || m.size = 0 then usedPages
  else if m.base < userShmBase || m.base ≥ userShmBase + userShmSize then usedPages
  else
    let firstPage := (m.base - userShmBase) / pageSize
    forRange 0 (alignUp m.size pageSize / pageSize)
      (fun page usedPages => if firstPage + page < shmMaxPages
        then update usedPages (firstPage + page) true else usedPages) usedPages

/-- Its search: after a page that is taken it goes on behind it. -/
def searchBase (usedPages : Nat → Bool) (pageCount : Nat) : Nat → Nat → Nat
  | 0, _ => 0
  | fuel + 1, firstPage =>
    if firstPage + pageCount ≤ shmMaxPages then
      match firstIn 0 pageCount fun page => usedPages (firstPage + page) with
      | some page => searchBase usedPages pageCount fuel (firstPage + page + 1)
      | none => userShmBase + firstPage * pageSize
    else 0

/-- `shm_find_free_base(slots, slot_count, page_count)`. -/
def findFreeBase (slots : Fin shmMaxMappings → Mapping) (pageCount : Nat) : Nat :=
  if pageCount = 0 ∨ pageCount > shmMaxPages then 0
  else
    let usedPages := (List.finRange shmMaxMappings).foldl (fun u j => markSlot (slots j) u) fun _ => false
    -- the index grows with every round
    searchBase usedPages pageCount (shmMaxPages + 1) 0

/-- The rollback of `shm_attach_at`: the pages before `page` are unmapped, the last one first. -/
def unmapBefore (dir base : Nat) : Nat → State → State
  | 0, m => m
  | page + 1, m => unmapBefore dir base page (unmapUserPage m dir (base + page * pageSize)).2

/-- The loop of `shm_attach_at` over the pages of a segment. -/
def mapPages (dir base : Nat) (frames : Nat → Nat) : Nat → Nat → State → Bool × State
  | _, 0, m => (true, m)
  | page, n + 1, m =>
    match mapUserPage m dir (base + page * pageSize) (frames page) true with
    | (true, m) => mapPages dir base frames (page + 1) n m
    | (false, m) => (false, unmapBefore dir base page m)

/-- `shm_attach_at(directory, slots, slot_count, segment, base)`. -/
def attachAt (w : World) (t : Fin taskMaxCount) (i : Fin shmMaxSegments) (base : Nat) : Bool × World :=
  let h := w.tasks t
  let g := w.segments i
  if h.dir = 0 || !g.used then (false, w)
  else
    match slotFindFree h.slots with
    | none => (false, w)
    | some j =>
      match mapPages h.dir base g.frames 0 g.pageCount w.mem with
      | (false, m) => (false, w.setMem m)
      | (true, m) =>
        (true, ((w.setMem m).setSlot t j
          { used := true, segmentId := g.id, base, size := g.size }).setSegment i
            { g with refCount := g.refCount + 1 })

/-- `shm_attach(directory, slots, slot_count, segment_id)`: the address, or 0. -/
def shmAttach (w : World) (t : Fin taskMaxCount) (segmentId : Int) : Nat × World :=
  match findSegment w segmentId with
  | none => (0, w)
  | some i =>
    if (w.segments i).markedForDelete then (0, w)
    else
      let base := findFreeBase (w.tasks t).slots (w.segments i).pageCount
      if base = 0 then (0, w)
      else
        match attachAt w t i base with
        | (true, w) => (base, w)
        | (false, w) => (0, w)

/-- Unmapping the pages of a slot. -/
def unmapSlot (dir : Nat) (m : Mapping) (s : State) : State :=
  forRange 0 (alignUp m.size pageSize / pageSize)
    (fun page s => (unmapUserPage s dir (m.base + page * pageSize)).2) s

/-- One reference less; an unlinked segment goes with its last one. -/
def dropRef (w : World) (i : Fin shmMaxSegments) : World :=
  let g := w.segments i
  if g.refCount > 0 then
    let w := w.setSegment i { g with refCount := g.refCount - 1 }
    if g.markedForDelete && decide (g.refCount - 1 = 0) then releaseSegment w i else w
  else w

/-- `shm_detach_slot(directory, slot)`. -/
def detachSlot (w : World) (t : Fin taskMaxCount) (j : Fin shmMaxMappings) : Bool × World :=
  let m := (w.tasks t).slots j
  if (w.tasks t).dir = 0 || !m.used then (false, w)
  else
    let w' := w.setMem (unmapSlot (w.tasks t).dir m w.mem)
    let w' := match findSegment w m.segmentId with
      | some i => dropRef w' i
      | none => w'
    (true, w'.setSlot t j Mapping.empty)

/-- `shm_detach(directory, slots, slot_count, address)`. -/
def shmDetach (w : World) (t : Fin taskMaxCount) (address : Nat) : Bool × World :=
  match firstIdx fun j => ((w.tasks t).slots j).used && decide (((w.tasks t).slots j).base ≤ address) &&
      decide (address < ((w.tasks t).slots j).base + ((w.tasks t).slots j).size) with
  | some j => detachSlot w t j
  | none => (false, w)

/-- The body of the loop of `shm_detach_all`. -/
def detachUsed (t : Fin taskMaxCount) (w : World) (j : Fin shmMaxMappings) : World :=
  if ((w.tasks t).slots j).used then (detachSlot w t j).2 else w

/-- `shm_detach_all(directory, slots, slot_count)`. -/
def shmDetachAll (w : World) (t : Fin taskMaxCount) : World :=
  if (w.tasks t).dir = 0 then w else (List.finRange shmMaxMappings).foldl (detachUsed t) w

/-- The loop of `shm_clone_mappings` over the slots of the parent. -/
def cloneSlots (child : Fin taskMaxCount) : List Mapping → World → Bool × World
  | [], w => (true, w)
  | m :: ms, w =>
    if !m.used then cloneSlots child ms w
    else
      match findSegment w m.segmentId with
      | none => (false, shmDetachAll w child)
      | some i =>
        if (w.segments i).markedForDelete then (false, shmDetachAll w child)
        else
          match attachAt w child i m.base with
          | (true, w) => cloneSlots child ms w
          | (false, w) => (false, shmDetachAll w child)

/-- `shm_clone_mappings(child_directory, child_slots, …, parent_slots, …)`. -/
def shmCloneMappings (w : World) (parent child : Fin taskMaxCount) : Bool × World :=
  if (w.tasks child).dir = 0 then (false, w)
  else
    let parentSlots := (w.tasks parent).slots
    cloneSlots child ((List.finRange shmMaxMappings).map parentSlots)
      (w.setTask child { w.tasks child with slots := fun _ => Mapping.empty })

/-! ## Calls -/

inductive Call
  | create (size : Nat)
  | attach (t : Fin taskMaxCount) (segmentId : Int)
  | detach (t : Fin taskMaxCount) (address : Nat)
  | unlink (segmentId : Int)
  | spawn (dir : Nat)
  | fork (t : Fin taskMaxCount) (dir : Nat)
  | exit (t : Fin taskMaxCount)
  | reap (t : Fin taskMaxCount)
  | other (mem : State)

/-- A task that begins, with the directory `dir` and no mapping, in the first free entry. -/
def beginTask (w : World) (dir : Nat) : Option (Fin taskMaxCount × World) :=
  if dir = 0 then none
  else
    (firstIdx fun u => !(w.tasks u).used).map fun u =>
      (u, w.setTask u { used := true, dir, slots := fun _ => Mapping.empty })

/-- The part of `zombify_task` that `shm.c` takes part in. -/
def exitTask (w : World) (t : Fin taskMaxCount) : World :=
  if (w.tasks t).dir ≠ 0 then
    let w := shmDetachAll w t
    w.setTask t { w.tasks t with dir := 0 }
  else w

/-- The part of `clear_task`. -/
def clearTask (w : World) (t : Fin taskMaxCount) : World :=
  (if (w.tasks t).dir ≠ 0 then shmDetachAll w t else w).setTask t Holder.empty

/-- One call, and what it returns.  `fork` is the part of `task_fork_from_frame` after the directory has
    been cloned; `other` is the rest of the kernel at work on memory. -/
def step (w : World) : Call → Int × World
  | .create size => shmCreate w size
  | .attach t segmentId =>
    if (w.tasks t).used then ((shmAttach w t segmentId).1, (shmAttach w t segmentId).2) else (0, w)
  | .detach t address =>
    if (w.tasks t).used then (if (shmDetach w t address).1 then 0 else -1, (shmDetach w t address).2)
    else (-1, w)
  | .unlink segmentId => shmUnlink w segmentId
  | .spawn dir =>
    match beginTask w dir with
    | none => (-1, w)
    | some (u, w) => (u, w)
  | .fork t dir =>
    if !(w.tasks t).used then (-1, w)
    else
      match beginTask w dir with
      | none => (-1, w)
      | some (u, w) =>
        match shmCloneMappings w t u with
        | (true, w) => (u, w)
        | (false, w) => (-1, w.setTask u { w.tasks u with used := false })
  | .exit t => (0, exitTask w t)
  | .reap t => (0, clearTask w t)
  | .other mem => (0, w.setMem mem)

end Lyth.Shm
