/-
  The physical frame allocator (`kernel/mem/physmem.c`).

  One bit and one 8-bit reference count per 4 KB frame, for at most `PHYSMEM_MAX_FRAMES` frames.

  1. **Program** — every function of the file, over the bitmap (`marked`), the counts and the three
     static counters.  `physmem_init` takes the boot information as data: the memory-map entries are
     the ones its cursor visits, in order.

  2. **Specification** — a frame handed out by an allocation and then referenced `n` times goes back
     to the free pool at the `(n + 1)`-th unref and not before.

  3. **The crux** — WHAT ONE CALL CAN DO TO ONE FRAME: hand it out (`HandedOut`, only if it was
     free), count a reference, drop one, force it free, or leave it alone (`SameFrame`).  Each
     function gets a lemma that says which; the history statement only ever looks at one frame
     (`Held`, `step_held`).

  THE CATCH is `frame_refcount[frame] < 255` in `physmem_ref_frame`: at 255 a further reference is
  not counted, yet its unref is.  The history theorem (`frame_freed_at_last_unref`) holds for
  histories whose references are all made below 255; `saturated_frame_freed_early` is one that is
  not.
-/
import Lyth.Lib.Loop
import Lyth.Lib.Run
import Lyth.Lib.Word

namespace Lyth.Physmem

open Loop Run Word Function

/-! ## The data of `physmem.c` -/

def physmemMaxFrames : Nat := 1048576
def physmemFrameSize : Nat := 4096

/-- `0x00100000U / PHYSMEM_FRAME_SIZE`: the first frame above the low megabyte. -/
def lowFrames : Nat := 256

/-- The static variables of `physmem.c`; `marked` is the bitmap. -/
structure State where
  marked : Nat → Bool
  refcount : Nat → Nat
  totalFrames : Nat
  freeFrames : Nat
  highestAddress : Nat

/-- An entry of the boot loader's memory map. -/
structure MmapEntry where
  addr : Nat
  len : Nat
  type : Nat

/-- The fields of `multiboot_info_t` that `physmem_init` reads, the address it lies at, and the
    memory-map entries its cursor visits. -/
structure MultibootInfo where
  self : Nat
  flags : Nat
  memUpper : Nat
  mmapLength : Nat
  mmapAddr : Nat
  framebufferAddr : Nat
  framebufferPitch : Nat
  framebufferHeight : Nat
  mmap : List MmapEntry

/-- `sizeof(multiboot_info_t)`. -/
def multibootInfoSize : Nat := 120

/-! ## Marking -/

/-- `mark_frame`. -/
def markFrame (used : Bool) (frame : Nat) (s : State) : State :=
  if frame ≥ physmemMaxFrames || frame ≥ s.totalFrames then s
  else if used then
    if !s.marked frame then
      { s with marked := update s.marked frame true
               freeFrames := if s.freeFrames > 0 then s.freeFrames - 1 else s.freeFrames }
    else s
  else
    if s.marked frame then
      { s with marked := update s.marked frame false, freeFrames := s.freeFrames + 1 }
    else s

/-- `mark_range`. -/
def markRange (s : State) (start length : Nat) (used : Bool) : State :=
  if length = 0 then s
  else
    let frameStart := alignDown start physmemFrameSize / physmemFrameSize
    let frameEnd := alignUp (u32 (start + length)) physmemFrameSize / physmemFrameSize
    let frameEnd := if frameEnd > s.totalFrames then s.totalFrames else frameEnd
    forRange frameStart frameEnd (markFrame used) s

/-! ## `physmem_init` -/

/-- `region_end_32`, on 64-bit arguments. -/
def regionEnd32 (addr len : Nat) : Nat :=
  let stop := (addr + len) % 2 ^ 64
  if stop > 0xFFFFFFFF then 0xFFFFFFFF else stop

/-- `register_highest`. -/
def registerHighest (s : State) (stop : Nat) : State :=
  if stop > s.highestAddress then { s with highestAddress := stop } else s

/-- `add_available_range`. -/
def addAvailableRange (s : State) (start stop : Nat) : State :=
  if stop ≤ start then s
  else markRange (registerHighest s stop) start (stop - start) false

/-- The test for a usable memory map. -/
def MultibootInfo.hasMmap (mbi : MultibootInfo) : Bool :=
  mbi.flags.testBit 6 && mbi.mmapLength != 0 && mbi.mmapAddr != 0

/-- The body of the memory-map loop. -/
def addMmapEntry (s : State) (entry : MmapEntry) : State :=
  if entry.type = 1 && entry.len != 0 then
    if entry.addr < 0x100000000 then
      addAvailableRange s (u32 entry.addr) (regionEnd32 entry.addr entry.len)
    else s
  else s

/-- `init_from_multiboot_map`. -/
def initFromMultibootMap (s : State) (mbi : MultibootInfo) : State :=
  if mbi.hasMmap then mbi.mmap.foldl addMmapEntry s
  else addAvailableRange s 0x100000 (u32 (0x100000 + u32 (mbi.memUpper * 1024)))

/-- The reservations `physmem_init` makes for the boot information. -/
def reserveBoot (s : State) (mbi : MultibootInfo) : State :=
  let s := markRange s mbi.self multibootInfoSize true
  let s := if mbi.hasMmap then markRange s mbi.mmapAddr mbi.mmapLength true else s
  if mbi.flags.testBit 12 && mbi.framebufferAddr != 0 && mbi.framebufferPitch != 0 &&
      mbi.framebufferHeight != 0 then
    let start := u32 mbi.framebufferAddr
    let bytes := u32 (mbi.framebufferPitch * mbi.framebufferHeight)
    registerHighest (markRange s start bytes true) (u32 (start + bytes))
  else s

/-- The state before the memory map is read: everything marked. -/
def physmemReset : State where
  marked := fun _ => true
  refcount := fun _ => 0
  totalFrames := physmemMaxFrames
  freeFrames := 0
  highestAddress := 0

/-- The available memory, and the default range when there is none. -/
def physmemAvailable (mbi : Option MultibootInfo) : State :=
  let s := mbi.elim physmemReset (initFromMultibootMap physmemReset)
  if s.highestAddress = 0 then
    addAvailableRange { s with highestAddress := 0x1000000 } 0x100000 0x1000000
  else s

/-- Fix the number of frames. -/
def setTotalFrames (s : State) : State :=
  let total := alignUp s.highestAddress physmemFrameSize / physmemFrameSize
  if total > physmemMaxFrames then
    { s with totalFrames := physmemMaxFrames
             highestAddress := u32 (physmemMaxFrames * physmemFrameSize) }
  else { s with totalFrames := total }

/-- `physmem_init`, for a kernel image at `kernelStart .. kernelEnd`. -/
def physmemInit (kernelStart kernelEnd : Nat) (mbi : Option MultibootInfo) : State :=
  let s := setTotalFrames (physmemAvailable mbi)
  let s := markRange s 0 0x100000 true
  let s := markRange s (u32 kernelStart) (u32 (kernelEnd - kernelStart)) true
  mbi.elim s (reserveBoot s)

/-! ## Allocation -/

def State.setRefcount (s : State) (frame count : Nat) : State :=
  { s with refcount := update s.refcount frame count }

/-- `physmem_alloc_frame`. -/
def physmemAllocFrame (s : State) : Nat × State :=
  match firstIn 0 s.totalFrames fun frame => !s.marked frame with
  | some frame => (frame * physmemFrameSize, (markFrame true frame s).setRefcount frame 1)
  | none => (0, s)

/-- The search loop of `physmem_alloc_region`: the first aligned run of unmarked frames above the low
    megabyte.  After a marked frame the search goes on behind it.  `start_frame` grows with every
    iteration, so `total_frames + 1` of them are enough. -/
def allocRegionSearch (s : State) (frameCount alignment : Nat) : Nat → Nat → Option Nat
  | 0, _ => none
  | fuel + 1, startFrame =>
    if startFrame + frameCount ≤ s.totalFrames then
      let start := u32 (startFrame * physmemFrameSize)
      if alignUp start alignment ≠ start then
        allocRegionSearch s frameCount alignment fuel (startFrame + 1)
      else if start < 0x100000 then
        allocRegionSearch s frameCount alignment fuel (startFrame + 1)
      else
        match firstIn startFrame (startFrame + frameCount) s.marked with
        | some frame => allocRegionSearch s frameCount alignment fuel (frame + 1)
        | none => some startFrame
    else none

/-- `physmem_alloc_region`. -/
def physmemAllocRegion (s : State) (size alignment : Nat) : Nat × State :=
  if size = 0 then (0, s)
  else
    let alignment := if alignment < physmemFrameSize then physmemFrameSize else alignment
    let alignedSize := alignUp size physmemFrameSize
    let frameCount := alignedSize / physmemFrameSize
    match allocRegionSearch s frameCount alignment (s.totalFrames + 1) 0 with
    | some startFrame =>
      let start := u32 (startFrame * physmemFrameSize)
      (start, forRange startFrame (startFrame + frameCount) (fun frame s => s.setRefcount frame 1)
        (markRange s start alignedSize true))
    | none => (0, s)

/-! ## Reference counts and release -/

/-- `physmem_free_frame`. -/
def physmemFreeFrame (s : State) (physicalAddress : Nat) : State :=
  let frame := physicalAddress / physmemFrameSize
  if physicalAddress = 0 || physicalAddress % physmemFrameSize ≠ 0 then s
  else if frame < lowFrames then s
  else markFrame false frame (s.setRefcount frame 0)

/-- `physmem_ref_frame`. -/
def physmemRefFrame (s : State) (physicalAddress : Nat) : State :=
  let frame := physicalAddress / physmemFrameSize
  if physicalAddress = 0 || physicalAddress % physmemFrameSize ≠ 0 then s
  else if frame ≥ s.totalFrames then s
  else if s.refcount frame < 255 then s.setRefcount frame (s.refcount frame + 1)
  else s

/-- `physmem_unref_frame`. -/
def physmemUnrefFrame (s : State) (physicalAddress : Nat) : State :=
  let frame := physicalAddress / physmemFrameSize
  if physicalAddress = 0 || physicalAddress % physmemFrameSize ≠ 0 then s
  else if frame ≥ s.totalFrames || frame < lowFrames then s
  else if s.refcount frame = 0 then s
  else
    let s' := s.setRefcount frame (s.refcount frame - 1)
    if s'.refcount frame = 0 then markFrame false frame s' else s'

/-- The frames `physmem_free_region` walks: from the first to before the second. -/
def freeRegionBounds (s : State) (start length : Nat) : Nat × Nat :=
  let frameEnd := alignUp (u32 (start + length)) physmemFrameSize / physmemFrameSize
  (alignDown start physmemFrameSize / physmemFrameSize,
    if frameEnd > s.totalFrames then s.totalFrames else frameEnd)

/-- `physmem_free_region`. -/
def physmemFreeRegion (s : State) (start length : Nat) : State :=
  if length = 0 then s
  else
    let bounds := freeRegionBounds s start length
    forRange bounds.1 bounds.2 (fun frame s => physmemUnrefFrame s (frame * physmemFrameSize)) s

/-- `physmem_reserve_region`. -/
def physmemReserveRegion (s : State) (start length : Nat) : State := markRange s start length true

/-- `physmem_frame_refcount`. -/
def physmemFrameRefcount (s : State) (physicalAddress : Nat) : Nat :=
  let frame := physicalAddress / physmemFrameSize
  if physicalAddress = 0 || physicalAddress % physmemFrameSize ≠ 0 then 0
  else if frame ≥ s.totalFrames then 0
  else s.refcount frame

/-! ## Runs -/

inductive Call
  | allocFrame
  | allocRegion (size alignment : UInt32)
  | freeFrame (physicalAddress : UInt32)
  | freeRegion (start length : UInt32)
  | refFrame (physicalAddress : UInt32)
  | unrefFrame (physicalAddress : UInt32)

/-- One call; the answer of a `void` function is 0. -/
def step (s : State) : Call → Nat × State
  | .allocFrame => physmemAllocFrame s
  | .allocRegion size alignment => physmemAllocRegion s size.toNat alignment.toNat
  | .freeFrame physicalAddress => (0, physmemFreeFrame s physicalAddress.toNat)
  | .freeRegion start length => (0, physmemFreeRegion s start.toNat length.toNat)
  | .refFrame physicalAddress => (0, physmemRefFrame s physicalAddress.toNat)
  | .unrefFrame physicalAddress => (0, physmemUnrefFrame s physicalAddress.toNat)

/-! ## What marking does to one frame -/

variable {lo hi frameCount alignment size start length : Nat} (used : Bool) (frame count : Nat)

section

variable {s : State} {f a : Nat}

@[simp] theorem setRefcount_marked :
    (s.setRefcount frame count).marked = s.marked := rfl

@[simp] theorem setRefcount_totalFrames :
    (s.setRefcount frame count).totalFrames = s.totalFrames := rfl

@[simp] theorem setRefcount_refcount :
    (s.setRefcount frame count).refcount f = if f = frame then count else s.refcount f :=
  update_apply ..

@[simp] theorem markFrame_refcount :
    (markFrame used frame s).refcount = s.refcount := by
  unfold markFrame
  repeat' split
  all_goals rfl

@[simp] theorem markFrame_totalFrames :
    (markFrame used frame s).totalFrames = s.totalFrames := by
  unfold markFrame
  repeat' split
  all_goals rfl

/-- `mark_frame` on a frame that exists sets its bit. -/
theorem markFrame_update {frame : Nat} (hmax : frame < physmemMaxFrames)
    (htot : frame < s.totalFrames) :
    (markFrame used frame s).marked = update s.marked frame used := by
  unfold markFrame
  rw [if_neg (by simp only [Bool.or_eq_true, decide_eq_true_eq]; omega)]
  -- a bit that has the value already is left as it is
  have hsame : s.marked frame = used → s.marked = update s.marked frame used :=
    fun h => by rw [← h, update_eq_self]
  cases used with
  | true =>
    rw [if_pos rfl]
    split
    · rfl
    · rename_i hm
      exact hsame (by simpa using hm)
  | false =>
    rw [if_neg Bool.false_ne_true]
    split
    · rfl
    · rename_i hm
      exact hsame (by simpa using hm)

/-- `mark_frame` sets one bit, if the frame exists. -/
theorem markFrame_marked : (markFrame used frame s).marked f
      = if f = frame ∧ frame < physmemMaxFrames ∧ frame < s.totalFrames then used
        else s.marked f := by
  by_cases hin : frame < physmemMaxFrames ∧ frame < s.totalFrames
  · rw [markFrame_update used hin.1 hin.2, update_apply]
    simp only [hin, and_true]
  · have hout : markFrame used frame s = s := by
      unfold markFrame
      rw [if_pos (by simp only [Bool.or_eq_true, decide_eq_true_eq]; omega)]
    rw [hout, if_neg fun h => hin h.2]

/-- The loop of `mark_range`. -/
theorem forRange_markFrame (hle : lo ≤ hi) :
    (forRange lo hi (markFrame used) s).refcount = s.refcount ∧
    (forRange lo hi (markFrame used) s).totalFrames = s.totalFrames ∧
    (forRange lo hi (markFrame used) s).marked f
      = if (lo ≤ f ∧ f < hi) ∧ f < physmemMaxFrames ∧ f < s.totalFrames then used
        else s.marked f := by
  refine forRange_inv (P := fun i (t : State) => t.refcount = s.refcount ∧ t.totalFrames = s.totalFrames ∧
      t.marked f = if (lo ≤ f ∧ f < i) ∧ f < physmemMaxFrames ∧ f < s.totalFrames then used
        else s.marked f) hle ⟨rfl, rfl, ?_⟩ ?_
  · rw [if_neg (by omega)]
  rintro i t hlo hhi ⟨hrc, htot, hm⟩
  refine ⟨by rw [markFrame_refcount, hrc], by rw [markFrame_totalFrames, htot], ?_⟩
  rw [markFrame_marked, hm, htot, ← ite_or]
  exact if_congr (by omega) rfl rfl

/-- The frames of a `mark_range` call. -/
def inRange (start length f : Nat) : Prop :=
  length ≠ 0 ∧ alignDown start physmemFrameSize / physmemFrameSize ≤ f ∧
    f < alignUp (u32 (start + length)) physmemFrameSize / physmemFrameSize

instance (start length f : Nat) : Decidable (inRange start length f) :=
  inferInstanceAs (Decidable (_ ∧ _ ∧ _))

/-- `mark_range` sets the bits of its range, of the frames that exist. -/
theorem markRange_spec (start length : Nat) (used : Bool) :
    (markRange s start length used).refcount = s.refcount ∧
    (markRange s start length used).totalFrames = s.totalFrames ∧
    (markRange s start length used).marked f
      = if inRange start length f ∧ f < physmemMaxFrames ∧ f < s.totalFrames then used
        else s.marked f := by
  unfold markRange
  by_cases h0 : length = 0
  · rw [if_pos h0]
    exact ⟨rfl, rfl, by rw [if_neg fun h => h.1.1 h0]⟩
  rw [if_neg h0]
  dsimp only
  generalize hlo : alignDown start physmemFrameSize / physmemFrameSize = lo
  generalize hhi : alignUp (u32 (start + length)) physmemFrameSize / physmemFrameSize = hi
  generalize hcap : (if hi > s.totalFrames then s.totalFrames else hi) = cap
  have hiff : ((lo ≤ f ∧ f < cap) ∧ f < physmemMaxFrames ∧ f < s.totalFrames)
      ↔ (inRange start length f ∧ f < physmemMaxFrames ∧ f < s.totalFrames) := by
    unfold inRange
    split at hcap <;> omega
  rcases Nat.le_total lo cap with hle | hle
  · obtain ⟨hrc, htot, hm⟩ := forRange_markFrame used hle
    refine ⟨hrc, htot, hm.trans ?_⟩
    simp only [hiff]
  · rw [forRange_of_le hle]
    refine ⟨rfl, rfl, ?_⟩
    rw [if_neg fun h => by have := hiff.mpr h; omega]

/-! ## The invariant -/

/-- The number of frames fits the tables, and the low megabyte is never free. -/
structure State.Inv (s : State) : Prop where
  total_lt : s.totalFrames < physmemMaxFrames
  low : ∀ f, f < lowFrames → f < s.totalFrames → s.marked f

/-- A free frame that exists lies above the low megabyte. -/
theorem State.Inv.le_of_free (hs : s.Inv) (hf : f < s.totalFrames) (hm : s.marked f = false) :
    lowFrames ≤ f := by
  by_contra hlt
  rw [hs.low f (by omega) hf] at hm
  cases hm

/-- The two things a frame is: its bit and its count. -/
def SameFrame (f : Nat) (s s' : State) : Prop :=
  s'.marked f = s.marked f ∧ s'.refcount f = s.refcount f

/-- A frame that an allocation hands out: free before, marked with count 1 after. -/
def HandedOut (f : Nat) (s s' : State) : Prop :=
  (s.marked f = false ∧ f < s.totalFrames) ∧ s'.marked f ∧ s'.refcount f = 1

/-! ## `physmem_alloc_frame` -/

theorem allocFrame_totalFrames : (physmemAllocFrame s).2.totalFrames = s.totalFrames := by
  unfold physmemAllocFrame
  split
  · rw [setRefcount_totalFrames, markFrame_totalFrames]
  · rfl

/-- The frame found is handed out and every other one is left alone. -/
theorem allocFrame_frame (hs : s.Inv) (f : Nat) :
    ((physmemAllocFrame s).1 ≠ 0 ∧ (physmemAllocFrame s).1 = f * physmemFrameSize ∧
      HandedOut f s (physmemAllocFrame s).2) ∨
    (¬((physmemAllocFrame s).1 ≠ 0 ∧ (physmemAllocFrame s).1 = f * physmemFrameSize) ∧
      SameFrame f s (physmemAllocFrame s).2) := by
  unfold physmemAllocFrame
  cases hfirst : firstIn 0 s.totalFrames fun frame => !s.marked frame with
  | none => exact .inr ⟨fun h => h.1 rfl, rfl, rfl⟩
  | some frame =>
    obtain ⟨_, hlt, hfree⟩ := firstIn_some hfirst
    have hfree : s.marked frame = false := by simpa using hfree
    have hlow := hs.le_of_free hlt hfree
    have hmax := hs.total_lt
    by_cases hf : f = frame
    · subst hf
      refine .inl ⟨?_, rfl, ⟨hfree, hlt⟩, ?_, ?_⟩
      · simp only [lowFrames, physmemFrameSize] at hlow ⊢
        omega
      · rw [setRefcount_marked, markFrame_marked, if_pos ⟨rfl, by omega, hlt⟩]
      · rw [setRefcount_refcount, if_pos rfl]
    · refine .inr ⟨?_, ?_, ?_⟩
      · simp only [physmemFrameSize]
        omega
      · rw [setRefcount_marked, markFrame_marked, if_neg fun h => hf h.1]
      · rw [setRefcount_refcount, if_neg hf, markFrame_refcount]

/-! ## `physmem_alloc_region` -/

/-- The run of frames the search returns exists, is free and lies above the low megabyte. -/
theorem allocRegionSearch_some (htot : s.totalFrames < physmemMaxFrames) :
    ∀ fuel startFrame r, allocRegionSearch s frameCount alignment fuel startFrame = some r →
      r + frameCount ≤ s.totalFrames ∧ lowFrames ≤ r ∧
      ∀ frame, r ≤ frame → frame < r + frameCount → s.marked frame = false := by
  intro fuel
  induction fuel with
  | zero => intro startFrame r h; cases h
  | succ fuel ih =>
    intro startFrame r h
    rw [allocRegionSearch] at h
    split at h
    · rename_i hfit
      dsimp only at h
      split at h
      · exact ih _ _ h
      split at h
      · exact ih _ _ h
      rename_i hlow
      split at h
      · exact ih _ _ h
      -- found: `start_frame` is the answer
      rename_i hnone
      cases h
      refine ⟨hfit, ?_, fun frame h1 h2 => firstIn_none hnone h1 h2⟩
      have hsmall : startFrame * physmemFrameSize < 2 ^ 32 := by
        simp only [physmemMaxFrames, physmemFrameSize] at htot ⊢
        omega
      rw [u32_of_lt hsmall] at hlow
      simp only [physmemFrameSize, lowFrames] at hlow ⊢
      omega
    · cases h

/-- The number of frames of a request of `size` bytes. -/
def framesOf (size : Nat) : Nat := (size + 4095) / 4096

/-- For a size that does not overflow the rounding, the code's `frame_count` is that number. -/
theorem frameCount_eq (hsize : size ≤ 0xFFFFF000) :
    alignUp size physmemFrameSize / physmemFrameSize = framesOf size := by
  rw [physmemFrameSize, alignUp_div, u32_of_lt (by omega), framesOf]

theorem forRange_setRefcount (hle : lo ≤ hi) (count : Nat) :
    let t := forRange lo hi (fun frame s => s.setRefcount frame count) s
    t.marked = s.marked ∧ t.totalFrames = s.totalFrames ∧
      t.refcount f = if lo ≤ f ∧ f < hi then count else s.refcount f := by
  refine forRange_inv (P := fun i (t : State) => t.marked = s.marked ∧
    t.totalFrames = s.totalFrames ∧
    t.refcount f = if lo ≤ f ∧ f < i then count else s.refcount f) hle ⟨rfl, rfl, ?_⟩ ?_
  · rw [if_neg (by omega)]
  rintro i t hlo hhi ⟨hm, htot, hrc⟩
  refine ⟨hm, htot, ?_⟩
  rw [setRefcount_refcount, hrc, ← ite_or]
  exact if_congr (by omega) rfl rfl

theorem allocRegion_totalFrames (size alignment : Nat) :
    (physmemAllocRegion s size alignment).2.totalFrames = s.totalFrames := by
  unfold physmemAllocRegion
  split
  · rfl
  · dsimp only
    split
    · rw [(forRange_setRefcount (f := 0) (Nat.le_add_right _ _) 1).2.1]
      exact (markRange_spec (f := 0) _ _ _).2.1
    · rfl

/-- The range marked for a run of frames is that run. -/
theorem inRange_frames {startFrame n : Nat} (hn : 0 < n) (hfit : startFrame + n < physmemMaxFrames) :
    inRange (startFrame * physmemFrameSize) (n * physmemFrameSize) f
      ↔ startFrame ≤ f ∧ f < startFrame + n := by
  have hend : startFrame * 4096 + n * 4096 = (startFrame + n) * 4096 := by omega
  unfold inRange
  simp only [physmemFrameSize, physmemMaxFrames] at hfit ⊢
  rw [alignDown_div (by omega), hend, u32_of_lt (by omega), alignUp_div,
    u32_of_lt (by omega)]
  omega

/-- `physmem_alloc_region` hands out `framesOf size` consecutive free frames and leaves every other
    frame alone, for a size that does not overflow the rounding. -/
theorem allocRegion_frame (hmax : s.totalFrames < physmemMaxFrames) (alignment : Nat)
    (hsize : size ≤ 0xFFFFF000) (f : Nat) :
    let a := (physmemAllocRegion s size alignment).1
    let handed := a ≠ 0 ∧ a / physmemFrameSize ≤ f ∧ f < a / physmemFrameSize + framesOf size
    (handed ∧ HandedOut f s (physmemAllocRegion s size alignment).2) ∨
    (¬handed ∧ SameFrame f s (physmemAllocRegion s size alignment).2) := by
  unfold physmemAllocRegion
  by_cases h0 : size = 0
  · rw [if_pos h0]
    exact .inr ⟨fun h => h.1 rfl, rfl, rfl⟩
  rw [if_neg h0]
  dsimp only
  have hcount := frameCount_eq hsize
  have hround : alignUp size physmemFrameSize = framesOf size * physmemFrameSize := by
    rw [physmemFrameSize, alignUp_eq, u32_of_lt (by omega), framesOf]
  have hpos : 0 < framesOf size := by unfold framesOf; omega
  rw [hcount, hround]
  generalize framesOf size = n at hpos
  generalize (if alignment < physmemFrameSize then physmemFrameSize else alignment) = al
  cases hsearch : allocRegionSearch s n al (s.totalFrames + 1) 0 with
  | none => exact .inr ⟨fun h => h.1 rfl, rfl, rfl⟩
  | some start =>
    obtain ⟨hfit, hlow, hfree⟩ := allocRegionSearch_some hmax _ _ _ hsearch
    have hsmall : start * physmemFrameSize < 2 ^ 32 := by
      simp only [physmemMaxFrames, physmemFrameSize] at hmax ⊢
      omega
    have hdiv : start * physmemFrameSize / physmemFrameSize = start := Nat.mul_div_cancel _ (by decide)
    dsimp only
    rw [u32_of_lt hsmall, hdiv]
    obtain ⟨hm, _, hrc⟩ := forRange_setRefcount
      (Nat.le_add_right start n) 1
    obtain ⟨hrc', _, hm'⟩ := markRange_spec (start * physmemFrameSize)
      (n * physmemFrameSize) true
    have hiff := inRange_frames (f := f) hpos (show start + n < physmemMaxFrames by omega)
    by_cases hf : start ≤ f ∧ f < start + n
    · refine .inl ⟨⟨?_, hf⟩, ⟨hfree f hf.1 hf.2, by omega⟩, ?_, ?_⟩
      · simp only [lowFrames, physmemFrameSize] at hlow ⊢
        omega
      · rw [hm, hm', if_pos ⟨hiff.mpr hf, by omega, by omega⟩]
      · rw [hrc, if_pos hf]
    · refine .inr ⟨fun h => hf h.2, ?_, ?_⟩
      · rw [hm, hm', if_neg fun h => hf (hiff.mp h.1)]
      · rw [hrc, if_neg hf, hrc']

/-! ## References and releases -/

/-- The address of a frame. -/
def frameAddr (f : Nat) : Nat := f * physmemFrameSize

theorem frameAddr_div (f : Nat) : frameAddr f / physmemFrameSize = f := Nat.mul_div_cancel _ (by decide)

theorem frameAddr_mod (f : Nat) : frameAddr f % physmemFrameSize = 0 := Nat.mul_mod_left ..

/-- An aligned address that lies in frame `f` is the frame's own. -/
theorem eq_frameAddr (h : a % physmemFrameSize = 0) (hf : a / physmemFrameSize = f) :
    a = frameAddr f := by
  unfold frameAddr
  rw [← hf, Nat.div_mul_cancel (Nat.dvd_of_mod_eq_zero h)]

theorem frameAddr_ne_zero (hf : lowFrames ≤ f) : frameAddr f ≠ 0 := by
  simp only [lowFrames, frameAddr, physmemFrameSize] at hf ⊢
  omega

theorem refFrame_totalFrames (a : Nat) : (physmemRefFrame s a).totalFrames = s.totalFrames := by
  unfold physmemRefFrame
  dsimp only
  repeat' split
  all_goals rfl

theorem refFrame_marked (a : Nat) : (physmemRefFrame s a).marked = s.marked := by
  unfold physmemRefFrame
  dsimp only
  repeat' split
  all_goals rfl

/-- A reference below 255 is counted. -/
theorem refFrame_self (hlow : lowFrames ≤ f) (htot : f < s.totalFrames) (hrc : s.refcount f < 255) :
    (physmemRefFrame s (frameAddr f)).refcount f = s.refcount f + 1 := by
  unfold physmemRefFrame
  rw [frameAddr_div, frameAddr_mod, if_neg (by simp [frameAddr_ne_zero hlow]), if_neg (by omega),
    if_pos hrc, setRefcount_refcount, if_pos rfl]

/-- A reference made at 255 is not counted. -/
theorem refFrame_full (hrc : s.refcount f = 255) : physmemRefFrame s (frameAddr f) = s := by
  unfold physmemRefFrame
  dsimp only
  rw [frameAddr_div, hrc]
  split
  · rfl
  · split <;> rfl

/-- A reference to another address leaves the frame alone. -/
theorem refFrame_other (ha : a ≠ frameAddr f) : SameFrame f s (physmemRefFrame s a) := by
  refine ⟨by rw [refFrame_marked], ?_⟩
  unfold physmemRefFrame
  dsimp only
  split
  · rfl
  rename_i hal
  simp only [Bool.or_eq_true, decide_eq_true_eq, not_or, not_not] at hal
  split
  · rfl
  · split
    · rw [setRefcount_refcount, if_neg]
      exact fun h => ha (eq_frameAddr hal.2 h.symm)
    · rfl

theorem unrefFrame_totalFrames (a : Nat) : (physmemUnrefFrame s a).totalFrames = s.totalFrames := by
  unfold physmemUnrefFrame
  dsimp only
  repeat' split
  all_goals simp

/-- An unref of a counted frame above the low megabyte: the count drops, and at 0 the frame is
    free. -/
theorem unrefFrame_self (hlow : lowFrames ≤ f) (htot : f < s.totalFrames)
    (hmax : s.totalFrames < physmemMaxFrames) (hrc : s.refcount f ≠ 0) :
    (physmemUnrefFrame s (frameAddr f)).refcount f = s.refcount f - 1 ∧
    (physmemUnrefFrame s (frameAddr f)).marked f = if s.refcount f = 1 then false else s.marked f := by
  unfold physmemUnrefFrame
  dsimp only
  rw [frameAddr_div, frameAddr_mod, if_neg (by simp [frameAddr_ne_zero hlow]),
    if_neg (by simp only [Bool.or_eq_true, decide_eq_true_eq]; omega), if_neg hrc,
    setRefcount_refcount, if_pos rfl]
  by_cases h1 : s.refcount f = 1
  · rw [if_pos (by omega), if_pos h1, markFrame_refcount, setRefcount_refcount, if_pos rfl,
      markFrame_marked, if_pos ⟨rfl, by omega, htot⟩]
    exact ⟨rfl, rfl⟩
  · rw [if_neg (by omega), if_neg h1, setRefcount_refcount, if_pos rfl]
    exact ⟨rfl, rfl⟩

/-- A reference given up that is not there changes nothing. -/
theorem unrefFrame_zero (hrc : s.refcount f = 0) : physmemUnrefFrame s (frameAddr f) = s := by
  unfold physmemUnrefFrame
  dsimp only
  rw [frameAddr_div]
  split
  · rfl
  · split
    · rfl
    · rfl

/-- Freeing a frame leaves every other one alone. -/
theorem SameFrame.freed {frame count : Nat} (hne : f ≠ frame) :
    SameFrame f s (markFrame false frame (s.setRefcount frame count)) :=
  ⟨by rw [markFrame_marked, if_neg fun h => hne h.1, setRefcount_marked],
    by rw [markFrame_refcount, setRefcount_refcount, if_neg hne]⟩

/-- An unref of another address, or of a frame of the low megabyte, leaves the frame alone. -/
theorem unrefFrame_other (ha : a ≠ frameAddr f ∨ f < lowFrames) :
    SameFrame f s (physmemUnrefFrame s a) := by
  unfold physmemUnrefFrame
  dsimp only
  split
  · exact ⟨rfl, rfl⟩
  rename_i hal
  simp only [Bool.or_eq_true, decide_eq_true_eq, not_or, not_not] at hal
  split
  · exact ⟨rfl, rfl⟩
  rename_i hrange
  simp only [Bool.or_eq_true, decide_eq_true_eq] at hrange
  have hne : f ≠ a / physmemFrameSize := fun h =>
    ha.elim (fun ha => ha (eq_frameAddr hal.2 h.symm)) (by omega)
  split
  · exact ⟨rfl, rfl⟩
  · split
    · exact .freed hne
    · exact ⟨rfl, by rw [setRefcount_refcount, if_neg hne]⟩

/-- A forced release touches no other frame, and none of the low megabyte. -/
theorem freeFrame_other (ha : a ≠ frameAddr f ∨ f < lowFrames) :
    SameFrame f s (physmemFreeFrame s a) := by
  unfold physmemFreeFrame
  dsimp only
  split
  · exact ⟨rfl, rfl⟩
  rename_i hal
  simp only [Bool.or_eq_true, decide_eq_true_eq, not_or, not_not] at hal
  split
  · exact ⟨rfl, rfl⟩
  exact .freed fun h => ha.elim (fun ha => ha (eq_frameAddr hal.2 h.symm)) (by omega)

/-- A forced release frees the frame. -/
theorem freeFrame_self (hs : s.Inv) (hlow : lowFrames ≤ f) (htot : f < s.totalFrames) :
    (physmemFreeFrame s (frameAddr f)).marked f = false := by
  have htot' : f < (s.setRefcount f 0).totalFrames := htot
  unfold physmemFreeFrame
  rw [if_neg (by simp [frameAddr_ne_zero hlow, frameAddr_mod]), frameAddr_div,
    if_neg (by omega), markFrame_marked, if_pos ⟨rfl, Nat.lt_trans htot hs.total_lt, htot'⟩]

theorem freeFrame_totalFrames (a : Nat) : (physmemFreeFrame s a).totalFrames = s.totalFrames := by
  unfold physmemFreeFrame
  dsimp only
  repeat' split
  all_goals simp

/-- The two ends of the walk of `physmem_free_region`, cut off at `total_frames`. -/
theorem mem_freeRegionBounds (h0 : length ≠ 0) (htot : f < s.totalFrames) :
    ((freeRegionBounds s start length).1 ≤ f ∧ f < (freeRegionBounds s start length).2)
      ↔ inRange start length f := by
  unfold freeRegionBounds inRange
  dsimp only
  split <;> omega

/-- A walk of unrefs that passes by the frame leaves it alone. -/
theorem forRange_unref_other (h : ¬(lo ≤ f ∧ f < hi) ∨ f < lowFrames) :
    SameFrame f s (forRange lo hi (fun frame s => physmemUnrefFrame s (frameAddr frame)) s) := by
  rcases Nat.le_total lo hi with hle | hle
  · refine forRange_inv (P := fun _ t => SameFrame f s t) hle ⟨rfl, rfl⟩ ?_
    rintro i t hlo hhi ⟨hm, hrc⟩
    have hi : frameAddr i ≠ frameAddr f ∨ f < lowFrames := by
      rcases h with h | h
      · left
        intro heq
        have : i = f := by rw [← frameAddr_div i, heq, frameAddr_div]
        omega
      · exact .inr h
    obtain ⟨hm', hrc'⟩ := unrefFrame_other hi
    exact ⟨hm'.trans hm, hrc'.trans hrc⟩
  · rw [forRange_of_le hle]
    exact ⟨rfl, rfl⟩

theorem forRange_unref_totalFrames (lo hi : Nat) :
    (forRange lo hi (fun frame s => physmemUnrefFrame s (frameAddr frame)) s).totalFrames
      = s.totalFrames := by
  refine forRange_keeps (P := fun (t : State) => t.totalFrames = s.totalFrames) (fun i t ht => ?_) rfl
  rw [unrefFrame_totalFrames, ht]

/-- A walk of unrefs that meets the frame drops one reference to it. -/
theorem forRange_unref_self (hlo : lo ≤ f) (hhi : f < hi) (hlow : lowFrames ≤ f)
    (htot : f < s.totalFrames) (hmax : s.totalFrames < physmemMaxFrames) (hrc : s.refcount f ≠ 0) :
    let t := forRange lo hi (fun frame s => physmemUnrefFrame s (frameAddr frame)) s
    t.refcount f = s.refcount f - 1 ∧ t.marked f = if s.refcount f = 1 then false else s.marked f := by
  intro t
  have hsplit := forRange_split hlo hhi (fun frame s => physmemUnrefFrame s (frameAddr frame)) s
  obtain ⟨hm0, hrc0⟩ : SameFrame f s
      (forRange lo f (fun frame s => physmemUnrefFrame s (frameAddr frame)) s) :=
    forRange_unref_other (.inl (by omega))
  have htot0 := forRange_unref_totalFrames (s := s) lo f
  generalize forRange lo f (fun frame s => physmemUnrefFrame s (frameAddr frame)) s = u at *
  obtain ⟨hrc1, hm1⟩ := unrefFrame_self (s := u) hlow (by omega) (by omega) (by omega)
  obtain ⟨hm2, hrc2⟩ : SameFrame f (physmemUnrefFrame u (frameAddr f)) (forRange (f + 1) hi
      (fun frame s => physmemUnrefFrame s (frameAddr frame)) (physmemUnrefFrame u (frameAddr f))) :=
    forRange_unref_other (.inl (by omega))
  rw [← hsplit] at hm2 hrc2
  exact ⟨by rw [hrc2, hrc1, hrc0], by rw [hm2, hm1, hrc0, hm0]⟩

theorem freeRegion_totalFrames (start length : Nat) :
    (physmemFreeRegion s start length).totalFrames = s.totalFrames := by
  unfold physmemFreeRegion
  split
  · rfl
  · exact forRange_unref_totalFrames ..

/-- `physmem_free_region` over a range that contains the frame is one unref of it. -/
theorem freeRegion_self (hin : inRange start length f) (hlow : lowFrames ≤ f)
    (htot : f < s.totalFrames) (hmax : s.totalFrames < physmemMaxFrames) (hrc : s.refcount f ≠ 0) :
    (physmemFreeRegion s start length).refcount f = s.refcount f - 1 ∧
    (physmemFreeRegion s start length).marked f = if s.refcount f = 1 then false else s.marked f := by
  unfold physmemFreeRegion
  rw [if_neg hin.1]
  obtain ⟨hlo, hhi⟩ := (mem_freeRegionBounds hin.1 htot).mpr hin
  exact forRange_unref_self hlo hhi hlow htot hmax hrc

theorem freeRegion_other (htot : f < s.totalFrames) (h : ¬inRange start length f ∨ f < lowFrames) :
    SameFrame f s (physmemFreeRegion s start length) := by
  unfold physmemFreeRegion
  split
  · exact ⟨rfl, rfl⟩
  · rename_i h0
    refine forRange_unref_other ?_
    rcases h with h | h
    · exact .inl fun hb => h ((mem_freeRegionBounds h0 htot).mp hb)
    · exact .inr h

end

/-! ## `physmem_init` establishes the invariant -/

section

variable {s : State}

theorem markRange_true_inv (hs : s.Inv) (start length : Nat) : (markRange s start length true).Inv := by
  have htot := (markRange_spec (s := s) (f := 0) start length true).2.1
  refine ⟨by rw [htot]; exact hs.total_lt, fun f hf hft => ?_⟩
  rw [htot] at hft
  rw [(markRange_spec start length true).2.2]
  split
  · rfl
  · exact hs.low f hf hft

theorem registerHighest_inv (hs : s.Inv) (stop : Nat) : (registerHighest s stop).Inv := by
  unfold registerHighest
  split
  · exact ⟨hs.total_lt, hs.low⟩
  · exact hs

theorem reserveBoot_inv (hs : s.Inv) (mbi : MultibootInfo) : (reserveBoot s mbi).Inv := by
  unfold reserveBoot
  have h1 := markRange_true_inv hs mbi.self multibootInfoSize
  generalize markRange s mbi.self multibootInfoSize true = u at h1
  have h2 : (if mbi.hasMmap then markRange u mbi.mmapAddr mbi.mmapLength true else u).Inv := by
    split
    · exact markRange_true_inv h1 _ _
    · exact h1
  dsimp only
  split
  · exact registerHighest_inv (markRange_true_inv h2 _ _) _
  · exact h2

/-- `total_frames` is a rounded 32-bit address divided by the frame size, so the cap at
    `PHYSMEM_MAX_FRAMES` is never needed. -/
theorem setTotalFrames_eq (s : State) :
    setTotalFrames s = { s with totalFrames := u32 (s.highestAddress + 4095) / 4096 } ∧
      u32 (s.highestAddress + 4095) / 4096 < physmemMaxFrames := by
  have hlt : u32 (s.highestAddress + 4095) / 4096 < physmemMaxFrames := by
    have hu := u32_lt (s.highestAddress + 4095)
    simp only [physmemMaxFrames]
    omega
  have hround : alignUp s.highestAddress physmemFrameSize / physmemFrameSize
      = u32 (s.highestAddress + 4095) / 4096 := alignUp_div _
  refine ⟨?_, hlt⟩
  unfold setTotalFrames
  rw [hround, if_neg (Nat.not_lt.mpr (Nat.le_of_lt hlt))]

theorem setTotalFrames_lt (s : State) : (setTotalFrames s).totalFrames < physmemMaxFrames := by
  rw [(setTotalFrames_eq s).1]
  exact (setTotalFrames_eq s).2

theorem physmemInit_inv (kernelStart kernelEnd : Nat) (mbi : Option MultibootInfo) :
    (physmemInit kernelStart kernelEnd mbi).Inv := by
  have hlt := setTotalFrames_lt (physmemAvailable mbi)
  -- the reservation of the low megabyte is what makes the invariant true
  have hlow : (markRange (setTotalFrames (physmemAvailable mbi)) 0 0x100000 true).Inv := by
    generalize setTotalFrames (physmemAvailable mbi) = u at hlt
    have htot := (markRange_spec (s := u) (f := 0) 0 0x100000 true).2.1
    refine ⟨by rwa [htot], fun f hf hft => ?_⟩
    rw [htot] at hft
    have hin : inRange 0 0x100000 f := by
      have hbounds : alignDown 0 physmemFrameSize / physmemFrameSize = 0 ∧
          alignUp (u32 (0 + 0x100000)) physmemFrameSize / physmemFrameSize = lowFrames := by decide
      exact ⟨by decide, by rw [hbounds.1]; exact Nat.zero_le _, by rwa [hbounds.2]⟩
    rw [(markRange_spec 0 0x100000 true).2.2, if_pos ⟨hin, by omega, hft⟩]
  have hkernel := markRange_true_inv hlow (u32 kernelStart) (u32 (kernelEnd - kernelStart))
  cases mbi with
  | none => exact hkernel
  | some mbi => exact reserveBoot_inv hkernel mbi

end

/-! ## One frame over a history -/

/-- The call hands out frame `f`: the frames an allocation of the requested size is given. -/
def HandsOut (f : Nat) (s : State) (c : Call) : Prop :=
  let a := (step s c).1
  match c with
  | .allocFrame => a ≠ 0 ∧ a = frameAddr f
  | .allocRegion size _ =>
    a ≠ 0 ∧ a / physmemFrameSize ≤ f ∧ f < a / physmemFrameSize + framesOf size.toNat
  | _ => False

/-- How many references to `f` the call adds. -/
def Call.refs (f : Nat) : Call → Nat
  | .refFrame a => if a.toNat = frameAddr f then 1 else 0
  | _ => 0

/-- How many references to `f` the call drops: an unref of the frame, or a release of a region that
    contains it. -/
def Call.unrefs (f : Nat) : Call → Nat
  | .unrefFrame a => if a.toNat = frameAddr f then 1 else 0
  | .freeRegion start length => if inRange start.toNat length.toNat f then 1 else 0
  | _ => 0

def refs (f : Nat) (calls : List Call) : Nat := (calls.map (Call.refs f)).sum
def unrefs (f : Nat) (calls : List Call) : Nat := (calls.map (Call.unrefs f)).sum

/-- The condition under which a call keeps exact books on `f`: a reference is made below 255, the
    frame is not forced free, and a region's size does not overflow its rounding. -/
def CountsExactly (f : Nat) (s : State) : Call → Prop
  | .refFrame a => a.toNat = frameAddr f → s.refcount f < 255
  | .freeFrame a => a.toNat ≠ frameAddr f
  | .allocRegion size _ => size.toNat ≤ 0xFFFFF000
  | _ => True

/-- Frame `f` is in use with `k` references. -/
structure Held (f k : Nat) (s : State) : Prop where
  low : lowFrames ≤ f
  lt : f < s.totalFrames
  marked : s.marked f
  count : s.refcount f = k
  pos : 0 < k

section

variable {s : State} {f k : Nat}

/-- A size that overflows the rounding is taken for 0 bytes: an address may be returned, but nothing
    is marked. -/
theorem allocRegion_overflow (alignment : Nat) (hbig : 0xFFFFF000 < size)
    (hsize : size < 2 ^ 32) : (physmemAllocRegion s size alignment).2 = s := by
  have hround : alignUp size physmemFrameSize = 0 := by
    have hwrap : u32 (size + 4095) = size + 4095 - 2 ^ 32 := by unfold u32; omega
    rw [physmemFrameSize, alignUp_eq]
    omega
  unfold physmemAllocRegion
  dsimp only
  split
  · rfl
  · rw [hround]
    split
    · rw [markRange, if_pos rfl, forRange_of_le (Nat.le_of_eq (by rfl))]
    · rfl

theorem step_totalFrames (s : State) (c : Call) : (step s c).2.totalFrames = s.totalFrames := by
  cases c with
  | allocFrame => exact allocFrame_totalFrames
  | allocRegion size alignment => exact allocRegion_totalFrames ..
  | freeFrame a => exact freeFrame_totalFrames ..
  | freeRegion start length => exact freeRegion_totalFrames ..
  | refFrame a => exact refFrame_totalFrames ..
  | unrefFrame a => exact unrefFrame_totalFrames ..

/-- Every call keeps the invariant: nothing frees a frame of the low megabyte. -/
theorem step_inv (hs : s.Inv) (c : Call) : (step s c).2.Inv := by
  have htot := step_totalFrames s c
  refine ⟨by rw [htot]; exact hs.total_lt, fun f hf hft => ?_⟩
  rw [htot] at hft
  have hm := hs.low f hf hft
  cases c with
  | allocFrame =>
    rcases allocFrame_frame hs f with ⟨_, _, h⟩ | ⟨_, h⟩
    · exact h.2.1
    · exact h.1.trans hm
  | allocRegion size alignment =>
    rcases Nat.lt_or_ge 0xFFFFF000 size.toNat with hbig | hsize
    · have hsame := allocRegion_overflow (s := s) alignment.toNat hbig size.toNat_lt
      simp only [step, hsame, hm]
    · rcases allocRegion_frame hs.total_lt alignment.toNat hsize f with ⟨_, h⟩ | ⟨_, h⟩
      · exact h.2.1
      · exact h.1.trans hm
  | freeFrame a => exact (freeFrame_other (.inr hf)).1.trans hm
  | freeRegion start length => exact (freeRegion_other hft (.inr hf)).1.trans hm
  | refFrame a => exact (congrFun (refFrame_marked a.toNat) f).trans hm
  | unrefFrame a => exact (unrefFrame_other (.inr hf)).1.trans hm

variable {c : Call}

/-- What a call does to the frame: it hands it out, or, if it does not count on it, leaves it as it is. -/
theorem step_frame (hs : s.Inv) (hc : CountsExactly f s c) :
    HandsOut f s c ∧ HandedOut f s (step s c).2 ∨
    ¬HandsOut f s c ∧ (f < s.totalFrames → c.refs f = 0 → c.unrefs f = 0 → SameFrame f s (step s c).2) := by
  cases c with
  | allocFrame =>
    rcases allocFrame_frame hs f with ⟨h1, h2, hout⟩ | ⟨hnot, hsame⟩
    · exact .inl ⟨⟨h1, h2⟩, hout⟩
    · exact .inr ⟨hnot, fun _ _ _ => hsame⟩
  | allocRegion size alignment =>
    exact (allocRegion_frame hs.total_lt alignment.toNat hc f).imp_right fun h => ⟨h.1, fun _ _ _ => h.2⟩
  | freeFrame a => exact .inr ⟨id, fun _ _ _ => freeFrame_other (.inl hc)⟩
  | freeRegion start length =>
    exact .inr ⟨id, fun hf _ hu => freeRegion_other hf (.inl fun hin => Nat.one_ne_zero ((if_pos hin).symm.trans hu))⟩
  | refFrame a =>
    exact .inr ⟨id, fun _ hr _ => refFrame_other fun ha => Nat.one_ne_zero ((if_pos ha).symm.trans hr)⟩
  | unrefFrame a =>
    exact .inr ⟨id, fun _ _ hu => unrefFrame_other (.inl fun ha => Nat.one_ne_zero ((if_pos ha).symm.trans hu))⟩

theorem HandsOut.handedOut (hs : s.Inv) (hc : CountsExactly f s c) (h : HandsOut f s c) :
    HandedOut f s (step s c).2 :=
  ((step_frame hs hc).resolve_right fun hnot => hnot.1 h).2

/-- No call hands out a frame in use. -/
theorem Held.not_handsOut (h : Held f k s) (hs : s.Inv) (hc : CountsExactly f s c) : ¬HandsOut f s c := by
  intro hout
  have hfree := (hout.handedOut hs hc).1.1
  rw [h.marked] at hfree
  cases hfree

/-- An unref of a frame in use: from `k` references to `k - 1`, and to the free pool from 1. -/
theorem Held.unref (h : Held f k s) (hs : s.Inv) (hc : c.unrefs f ≠ 0) :
    (step s c).2.refcount f = k - 1 ∧ (step s c).2.marked f = if k = 1 then false else true := by
  have hrc : s.refcount f ≠ 0 := by rw [h.count]; exact Nat.pos_iff_ne_zero.mp h.pos
  rw [← h.count, ← h.marked]
  cases c with
  | freeRegion start length =>
    by_cases hin : inRange start.toNat length.toNat f
    · exact freeRegion_self hin h.low h.lt hs.total_lt hrc
    · exact absurd (if_neg hin) hc
  | unrefFrame a =>
    by_cases ha : a.toNat = frameAddr f
    · simp only [step, ha]
      exact unrefFrame_self h.low h.lt hs.total_lt hrc
    · exact absurd (if_neg ha) hc
  | allocFrame | allocRegion | freeFrame | refFrame => exact absurd rfl hc

theorem refs_or_unrefs (f : Nat) (c : Call) :
    (c.refs f = 0 ∧ c.unrefs f = 0) ∨ (c.refs f = 1 ∧ c.unrefs f = 0) ∨
      (c.refs f = 0 ∧ c.unrefs f = 1) := by
  cases c with
  | refFrame a => by_cases h : a.toNat = frameAddr f <;> simp [Call.refs, Call.unrefs, h]
  | unrefFrame a => by_cases h : a.toNat = frameAddr f <;> simp [Call.refs, Call.unrefs, h]
  | freeRegion start length =>
    by_cases h : inRange start.toNat length.toNat f <;> simp [Call.refs, Call.unrefs, h]
  | allocFrame | allocRegion | freeFrame => simp [Call.refs, Call.unrefs]

/-- **One call on a frame in use.**  It is free afterwards exactly if the call dropped its last
    reference; otherwise it is in use with the references added and dropped. -/
theorem step_held (h : Held f k s) (hs : s.Inv) (hc : CountsExactly f s c) :
    ((step s c).2.marked f = false ↔ c.unrefs f = k + c.refs f) ∧
    (c.unrefs f < k + c.refs f → Held f (k + c.refs f - c.unrefs f) (step s c).2) := by
  have hpos := h.pos
  have hcases := refs_or_unrefs f c
  suffices hcount : (step s c).2.refcount f = k + c.refs f - c.unrefs f ∧
      ((step s c).2.marked f ↔ c.unrefs f < k + c.refs f) by
    obtain ⟨hrc, hm⟩ := hcount
    refine ⟨?_, fun hlt => ⟨h.low, by rw [step_totalFrames]; exact h.lt, hm.mpr hlt, hrc, by omega⟩⟩
    rw [← Bool.not_eq_true, hm]
    omega
  rcases hcases with ⟨hr, hu⟩ | ⟨hr, hu⟩ | ⟨hr, hu⟩
  · -- the frame is not touched
    obtain ⟨hm, hrc⟩ := ((step_frame hs hc).resolve_left fun hout => h.not_handsOut hs hc hout.1).2 h.lt hr hu
    exact ⟨by rw [hrc, h.count]; omega, iff_of_true (hm.trans h.marked) (by omega)⟩
  · -- a reference, counted because the count is below 255
    cases c with
    | refFrame a =>
      by_cases ha : a.toNat = frameAddr f
      · refine ⟨?_, iff_of_true ((congrFun (refFrame_marked a.toNat) f).trans h.marked) (by omega)⟩
        rw [hr, hu, ← h.count]
        simp only [step, ha]
        exact refFrame_self h.low h.lt (hc ha)
      · rw [Call.refs, if_neg ha] at hr
        cases hr
    | allocFrame | allocRegion | freeFrame | freeRegion | unrefFrame => cases hr
  · -- an unref
    obtain ⟨hrc, hm⟩ := h.unref hs (c := c) (by omega)
    rw [hrc, hm, hr, hu]
    refine ⟨rfl, ?_⟩
    split
    · exact iff_of_false Bool.false_ne_true (by omega)
    · exact iff_of_true rfl (by omega)

theorem exec_inv_all (calls : List Call) (hs : s.Inv) : (exec step s calls).2.Inv := by
  induction calls generalizing s with
  | nil => exact hs
  | cons c calls ih => exact ih (step_inv hs c)

theorem refs_cons (f : Nat) (c : Call) (calls : List Call) :
    refs f (c :: calls) = c.refs f + refs f calls := by simp [refs]

theorem unrefs_cons (f : Nat) (c : Call) (calls : List Call) :
    unrefs f (c :: calls) = c.unrefs f + unrefs f calls := by simp [unrefs]

theorem refs_snoc (f : Nat) (calls : List Call) (c : Call) :
    refs f (calls ++ [c]) = refs f calls + c.refs f := by simp [refs]

theorem unrefs_snoc (f : Nat) (calls : List Call) (c : Call) :
    unrefs f (calls ++ [c]) = unrefs f calls + c.unrefs f := by simp [unrefs]

/-- **The history of a frame in use.**  As long as no prefix drops the last reference, the frame stays
    in use and its count is exact. -/
theorem exec_held (post : List Call) : ∀ s (k : Nat), s.Inv → Held f k s →
    Guarded step (CountsExactly f) s post →
    (∀ p, p <+: post → unrefs f p < k + refs f p) →
    Held f (k + refs f post - unrefs f post) (exec step s post).2 := by
  induction post with
  | nil => intro s k _ h _ _; exact h
  | cons c post ih =>
    intro s k hs h hg hpre
    -- the one-call prefix says that the first call leaves the frame in use
    have hfirst := hpre [c] (List.prefix_append [c] post)
    have hfirst : c.unrefs f < k + c.refs f := by simpa [refs, unrefs] using hfirst
    have hheld := (step_held h hs hg.1).2 hfirst
    have hrest := ih _ _ (step_inv hs c) hheld hg.2 fun p hp => by
      have := hpre (c :: p) ((List.prefix_cons_inj c).mpr hp)
      rw [refs_cons, unrefs_cons] at this
      omega
    have hcount : k + c.refs f - c.unrefs f + refs f post - unrefs f post
        = k + (c.refs f + refs f post) - (c.unrefs f + unrefs f post) := by omega
    rwa [hcount] at hrest

end

/-- **A frame goes back at its last unref.**  After any history from `physmem_init`, let a call hand
    out frame `f`, and let further calls follow that keep exact books on `f`, with at no point more
    unrefs of `f` than references.  Then `f` is in use, no further such call hands it out, and one
    more call returns it to the free pool exactly if it makes the unrefs one more than the
    references. -/
theorem frame_freed_at_last_unref (kernelStart kernelEnd : Nat) (mbi : Option MultibootInfo)
    (pre : List Call) (c₀ : Call) (post : List Call) (f : Nat)
    (hout : HandsOut f (exec step (physmemInit kernelStart kernelEnd mbi) pre).2 c₀)
    (hg : Guarded step (CountsExactly f) (exec step (physmemInit kernelStart kernelEnd mbi) pre).2
      (c₀ :: post))
    (hpost : ∀ p, p <+: post → unrefs f p ≤ refs f p) :
    let t := (exec step (physmemInit kernelStart kernelEnd mbi) (pre ++ c₀ :: post)).2
    t.marked f = true ∧
    ∀ c, CountsExactly f t c → ¬HandsOut f t c ∧
      ((step t c).2.marked f = false ↔ unrefs f (post ++ [c]) = refs f (post ++ [c]) + 1) := by
  have hinv := exec_inv_all pre (physmemInit_inv kernelStart kernelEnd mbi)
  rw [exec_append]
  generalize (exec step (physmemInit kernelStart kernelEnd mbi) pre).2 = s at *
  intro t
  obtain ⟨⟨hfree, hlt⟩, hm, hrc⟩ := hout.handedOut hinv hg.1
  have hheld₀ : Held f 1 (step s c₀).2 :=
    ⟨hinv.le_of_free hlt hfree, by rwa [step_totalFrames], hm, hrc, Nat.one_pos⟩
  have hinv₀ := step_inv hinv c₀
  have hheld : Held f (1 + refs f post - unrefs f post) t :=
    exec_held post _ 1 hinv₀ hheld₀ hg.2 fun p hp => by have := hpost p hp; omega
  have hinvt : t.Inv := exec_inv_all post hinv₀
  refine ⟨hheld.marked, fun c hc => ⟨hheld.not_handsOut hinvt hc, ?_⟩⟩
  have hle := hpost post (List.prefix_refl _)
  rw [(step_held hheld hinvt hc).1, refs_snoc, unrefs_snoc]
  omega

/-! ## A concrete machine

    16 MB without boot information, the kernel image in the next half megabyte: frame 384 is the
    first free one. -/

theorem markRange_highestAddress (s : State) (start length : Nat) (used : Bool) :
    (markRange s start length used).highestAddress = s.highestAddress := by
  unfold markRange
  split
  · rfl
  refine forRange_keeps (P := fun (t : State) => t.highestAddress = s.highestAddress) (fun i t ht => ?_) rfl
  unfold markFrame
  repeat' split
  all_goals exact ht

/-- The range of frames that `physmem_init` makes available without boot information. -/
theorem available_none : (physmemAvailable none).highestAddress = 0x1000000 ∧
    ∀ f, 256 ≤ f → f < 4096 → (physmemAvailable none).marked f = false := by
  have hdefault : ∀ s, s.highestAddress = 0x1000000 →
      addAvailableRange s 0x100000 0x1000000 = markRange s 0x100000 0xF00000 false := by
    intro s hs
    rw [addAvailableRange, if_neg (by decide), registerHighest, if_neg (by rw [hs]; decide)]
  have hav : physmemAvailable none
      = markRange { physmemReset with highestAddress := 0x1000000 } 0x100000 0xF00000 false := by
    unfold physmemAvailable
    rw [Option.elim_none]
    rw [if_pos (show physmemReset.highestAddress = 0 from rfl), hdefault _ rfl]
  have hb : alignDown 0x100000 physmemFrameSize / physmemFrameSize = 256 ∧
    alignUp (u32 (0x100000 + 0xF00000)) physmemFrameSize / physmemFrameSize = 4096 := by decide
  rw [hav, markRange_highestAddress]
  refine ⟨rfl, fun f hlo hhi => ?_⟩
  have hin : inRange 0x100000 0xF00000 f := ⟨by decide, by rwa [hb.1], by rwa [hb.2]⟩
  have hmax : f < physmemMaxFrames := Nat.lt_trans hhi (by decide)
  rw [(markRange_spec _ _ _).2.2, if_pos ⟨hin, hmax, hmax⟩]

theorem physmemInit_none (kernelStart kernelEnd : Nat) : physmemInit kernelStart kernelEnd none
      = markRange (markRange (setTotalFrames (physmemAvailable none)) 0 0x100000 true)
          (u32 kernelStart) (u32 (kernelEnd - kernelStart)) true := rfl

/-- Reserving the low megabyte and a kernel image of frames `256 .. hi - 1` leaves the rest of the
    available frames free. -/
theorem reserved_marked {w : State} {base len : Nat} (hw : w.totalFrames = 4096)
    (havail : ∀ f, 256 ≤ f → f < 4096 → w.marked f = false) (hlen : len ≠ 0) (hhi : 256 ≤ hi)
    (hbase : alignDown base physmemFrameSize / physmemFrameSize = 256)
    (hend : alignUp (u32 (base + len)) physmemFrameSize / physmemFrameSize = hi) (f : Nat)
    (hf : f < 4096) :
    (markRange (markRange w 0 0x100000 true) base len true).marked f ↔ f < hi := by
  have hmax : f < physmemMaxFrames := Nat.lt_trans hf (by decide)
  have hkernel : inRange base len f ↔ 256 ≤ f ∧ f < hi := by
    unfold inRange
    rw [hbase, hend]
    exact ⟨fun h => h.2, fun h => ⟨hlen, h⟩⟩
  have hfirst : inRange 0 0x100000 f ↔ f < 256 := by
    exact ⟨fun h => h.2.2, fun h => ⟨by decide, Nat.zero_le _, h⟩⟩
  rw [(markRange_spec _ _ _).2.2, (markRange_spec (f := 0) _ _ _).2.1, (markRange_spec _ _ _).2.2, hw]
  by_cases hk : 256 ≤ f ∧ f < hi
  · rw [if_pos ⟨hkernel.mpr hk, hmax, hf⟩]
    exact ⟨fun _ => hk.2, fun _ => rfl⟩
  rw [if_neg fun h => hk (hkernel.mp h.1)]
  rcases Nat.lt_or_ge f 256 with hlt | hge
  · rw [if_pos ⟨hfirst.mpr hlt, hmax, hf⟩]
    exact ⟨fun _ => Nat.lt_of_lt_of_le hlt hhi, fun _ => rfl⟩
  · rw [if_neg fun h => Nat.not_lt.mpr hge (hfirst.mp h.1), havail f hge hf]
    exact ⟨fun h => absurd h Bool.false_ne_true, fun h => absurd ⟨hge, h⟩ hk⟩

variable {s : State}

theorem setTotalFrames_16M (h : s.highestAddress = 0x1000000) :
    (setTotalFrames s).totalFrames = 4096 ∧ (setTotalFrames s).marked = s.marked := by
  rw [(setTotalFrames_eq s).1]
  refine ⟨?_, rfl⟩
  show u32 (s.highestAddress + 4095) / 4096 = 4096
  rw [h]
  decide

/-- An allocation returns the first free frame. -/
theorem alloc_first {f : Nat} (hf : f < s.totalFrames) (hfree : s.marked f = false)
    (hbelow : ∀ j, j < f → s.marked j) : (step s .allocFrame).1 = frameAddr f := by
  have hfirst : (firstIn 0 s.totalFrames fun frame => !s.marked frame) = some f :=
    firstIn_eq (Nat.zero_le _) hf (by rw [hfree]; rfl) fun j _ hj => by rw [hbelow j hj]; rfl
  simp only [step, physmemAllocFrame, hfirst, frameAddr]

section

variable (hs : s = physmemInit 0x100000 0x180000 none)
include hs

/-- That machine has 4096 frames; those of the low megabyte and of the kernel are taken. -/
theorem boot_spec :
    s.Inv ∧ s.totalFrames = 4096 ∧ ∀ f, f < 4096 → (s.marked f ↔ f < 384) := by
  obtain ⟨hhigh, havail⟩ := available_none
  obtain ⟨hw, hm⟩ := setTotalFrames_16M hhigh
  refine ⟨by rw [hs]; exact physmemInit_inv .., ?_, fun f hf => ?_⟩
  · rw [hs, physmemInit_none, (markRange_spec (f := 0) _ _ _).2.1,
      (markRange_spec (f := 0) _ _ _).2.1, hw]
  · rw [hs, physmemInit_none]
    exact reserved_marked hw (by rwa [hm]) (by decide) (by decide) (by decide)
      (by decide) f hf

/-- Its first allocation hands out frame 384. -/
theorem boot_alloc : (step s .allocFrame).1 = frameAddr 384 := by
  obtain ⟨_, htot, hmarked⟩ := boot_spec hs
  have hfree : ¬s.marked 384 := fun h => Nat.lt_irrefl _ ((hmarked 384 (by decide)).mp h)
  exact alloc_first (by omega) (by simpa using hfree) fun j hj => (hmarked j (by omega)).mpr hj

theorem boot_handsOut : HandsOut 384 s .allocFrame :=
  ⟨by rw [boot_alloc hs]; decide, boot_alloc hs⟩

theorem boot_held : Held 384 1 (step s .allocFrame).2 := by
  obtain ⟨⟨_, hlt⟩, hm, hrc⟩ := HandsOut.handedOut (c := .allocFrame) (boot_spec hs).1 trivial
    (boot_handsOut hs)
  exact ⟨by decide, by rwa [step_totalFrames], hm, hrc, Nat.one_pos⟩

end

/-- A frame allocated, referenced once and unreferenced once is still in use. -/
theorem frame_freed_at_last_unref_once :
    HandsOut 384 (exec step (physmemInit 0x100000 0x180000 none) []).2 .allocFrame ∧
    (exec step (physmemInit 0x100000 0x180000 none)
      ([] ++ [.allocFrame, .refFrame 0x180000, .unrefFrame 0x180000])).2.marked 384 = true := by
  have hout : HandsOut 384 (exec step (physmemInit 0x100000 0x180000 none) []).2 .allocFrame := by
    rw [exec_nil]
    dsimp only
    exact boot_handsOut rfl
  refine ⟨hout, (frame_freed_at_last_unref 0x100000 0x180000 none [] .allocFrame
    [.refFrame 0x180000, .unrefFrame 0x180000] 384 hout ?_ ?_).1⟩
  · rw [exec_nil]
    refine ⟨trivial, fun _ => ?_, trivial, trivial⟩
    rw [(boot_held rfl).count]
    decide
  -- the three prefixes
  intro p hp
  rcases p with _ | ⟨a, _ | ⟨b, _ | ⟨c, p⟩⟩⟩
  · decide
  · obtain ⟨rfl, _⟩ := List.cons_prefix_cons.mp hp
    decide
  · obtain ⟨rfl, hp'⟩ := List.cons_prefix_cons.mp hp
    obtain ⟨rfl, _⟩ := List.cons_prefix_cons.mp hp'
    decide
  · have hlen := hp.length_le
    simp at hlen

/-! ### Saturation -/

section

variable {f : Nat} {a : UInt32}

/-- `n` references to a frame in use, all made below 255. -/
theorem exec_refs (ha : a.toNat = frameAddr f) (n : Nat) : ∀ s (k : Nat), s.Inv →
    Held f k s → k + n ≤ 255 →
    Held f (k + n) (exec step s (List.replicate n (.refFrame a))).2 := by
  induction n with
  | zero => intro s k _ h _; exact h
  | succ n ih =>
    intro s k hs h hle
    have hr : (Call.refFrame a).refs f = 1 := if_pos ha
    have hu : (Call.refFrame a).unrefs f = 0 := rfl
    have hc : CountsExactly f s (.refFrame a) := fun _ => by rw [h.count]; omega
    have hnext := (step_held h hs hc).2 (by omega)
    rw [hr, hu, Nat.sub_zero] at hnext
    have hrest := ih _ _ (step_inv hs _) hnext (by omega)
    rwa [Nat.add_assoc, Nat.add_comm 1 n] at hrest

/-- `n` unrefs of a frame with more references than that. -/
theorem exec_unrefs (ha : a.toNat = frameAddr f) (n : Nat) : ∀ s (k : Nat), s.Inv →
    Held f k s → n < k → Held f (k - n) (exec step s (List.replicate n (.unrefFrame a))).2 := by
  induction n with
  | zero => intro s k _ h _; exact h
  | succ n ih =>
    intro s k hs h hlt
    have hu : (Call.unrefFrame a).unrefs f = 1 := if_pos ha
    have hc : CountsExactly f s (.unrefFrame a) := trivial
    have hnext := (step_held h hs hc).2 (by omega)
    rw [hu] at hnext
    have hrest := ih _ _ (step_inv hs _) hnext (by omega)
    rwa [Nat.sub_sub, Nat.add_comm 1 n] at hrest

/-- Calls on one address leave every other frame alone. -/
theorem exec_other {j : Nat} (ha : a.toNat ≠ frameAddr j) (calls : List Call)
    (hcalls : ∀ c ∈ calls, c = .refFrame a ∨ c = .unrefFrame a) : ∀ s,
    (exec step s calls).2.marked j = s.marked j := by
  induction calls with
  | nil => intro s; rfl
  | cons c calls ih =>
    intro s
    have hrest := ih (fun c hc => hcalls c (.tail _ hc)) (step s c).2
    rw [exec_cons, hrest]
    rcases hcalls c (.head _) with rfl | rfl
    · exact (refFrame_other ha).1
    · exact (unrefFrame_other (.inl ha)).1

end

/-- 255 references and 255 unrefs. -/
def saturate (a : UInt32) : List Call :=
  List.replicate 254 (.refFrame a) ++ (.refFrame a ::
    (List.replicate 254 (.unrefFrame a) ++ [.unrefFrame a]))

theorem exec_saturate {f : Nat} {a : UInt32} (hs : s.Inv) (h : Held f 1 s)
    (ha : a.toNat = frameAddr f) : (exec step s (saturate a)).2.marked f = false := by
  have h255 := exec_refs ha 254 s 1 hs h (by decide)
  have hs255 := exec_inv_all (List.replicate 254 (.refFrame a)) hs
  rw [saturate, exec_append, exec_cons]
  generalize (exec step s (List.replicate 254 (.refFrame a))).2 = t at h255 hs255
  have hfull : (step t (.refFrame a)).2 = t := by
    rw [step, ha]
    exact refFrame_full h255.count
  rw [hfull, exec_append]
  have h1 := exec_unrefs ha 254 t 255 hs255 h255 (by decide)
  have hs1 := exec_inv_all (List.replicate 254 (.unrefFrame a)) hs255
  have hu : (Call.unrefFrame a).unrefs f = 1 := if_pos ha
  exact (step_held h1 hs1 (c := .unrefFrame a) trivial).1.mpr (by rw [hu]; rfl)

theorem saturate_calls {a : UInt32} : ∀ c ∈ saturate a, c = .refFrame a ∨ c = .unrefFrame a := by
  intro c hc
  simp only [saturate, List.mem_append, List.mem_cons, List.mem_replicate] at hc
  rcases hc with ⟨_, h⟩ | h | ⟨_, h⟩ | h
  · exact .inl h
  · exact .inl h
  · exact .inr h
  · exact .inr (by simpa using h)

theorem exec_totalFrames (calls : List Call) : ∀ s,
    (exec step s calls).2.totalFrames = s.totalFrames := by
  induction calls with
  | nil => intro s; rfl
  | cons c calls ih => intro s; rw [exec_cons, ih, step_totalFrames]

/-- The frames below 384 are taken before and after, so the freed frame is the first free one. -/
theorem boot_saturated (hs : s = physmemInit 0x100000 0x180000 none) {t : State}
    (ht : t = (exec step s (.allocFrame :: saturate 0x180000)).2) :
    t.marked 384 = false ∧ HandsOut 384 t .allocFrame := by
  have ha : (0x180000 : UInt32).toNat = frameAddr 384 := by decide
  obtain ⟨hinv, htot, hmarked⟩ := boot_spec hs
  rw [exec_cons] at ht
  dsimp only at ht
  have hfree : t.marked 384 = false := by
    rw [ht]; exact exec_saturate (step_inv hinv .allocFrame) (boot_held hs) ha
  have hbelow : ∀ j, j < 384 → t.marked j := by
    intro j hj
    have hne : (0x180000 : UInt32).toNat ≠ frameAddr j := by
      rw [ha]
      unfold frameAddr physmemFrameSize
      omega
    rw [ht, exec_other hne _ saturate_calls]
    rcases allocFrame_frame hinv j with ⟨_, _, hout⟩ | ⟨_, hsame⟩
    · exact hout.2.1
    · exact hsame.1.trans ((hmarked j (by omega)).mpr hj)
  have htott : t.totalFrames = 4096 := by
    rw [ht, exec_totalFrames, step_totalFrames, htot]
  have hans := alloc_first (by omega) hfree hbelow
  exact ⟨hfree, by rw [hans]; decide, hans⟩

theorem saturate_counts {f : Nat} {a : UInt32} (ha : a.toNat = frameAddr f) :
    refs f (saturate a) = 255 ∧ unrefs f (saturate a) = 255 := by
  have hr : (Call.refFrame a).refs f = 1 ∧ (Call.refFrame a).unrefs f = 0 := ⟨if_pos ha, rfl⟩
  have hu : (Call.unrefFrame a).refs f = 0 ∧ (Call.unrefFrame a).unrefs f = 1 := ⟨rfl, if_pos ha⟩
  simp only [refs, unrefs, saturate, List.map_append, List.map_replicate, List.map_cons,
    List.map_nil, List.sum_append, List.sum_replicate_nat, List.sum_cons, List.sum_nil, hr, hu]
  decide

/-- **A saturated count frees a frame early.**  Frame 384 is allocated, referenced 255 times and
    unreferenced 255 times: one reference is left, but the frame is free, and the next allocation
    hands it out again. -/
theorem saturated_frame_freed_early :
    refs 384 (saturate 0x180000) = 255 ∧ unrefs 384 (saturate 0x180000) = 255 ∧
    HandsOut 384 (physmemInit 0x100000 0x180000 none) .allocFrame ∧
    (exec step (physmemInit 0x100000 0x180000 none)
      (.allocFrame :: saturate 0x180000)).2.marked 384 = false ∧
    HandsOut 384 (exec step (physmemInit 0x100000 0x180000 none)
      (.allocFrame :: saturate 0x180000)).2 .allocFrame :=
  ⟨(saturate_counts (by decide)).1, (saturate_counts (by decide)).2, boot_handsOut rfl,
    boot_saturated rfl rfl⟩

end Lyth.Physmem
