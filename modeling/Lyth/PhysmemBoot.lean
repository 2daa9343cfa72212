/-
  WHICH FRAMES `physmem_init` LEAVES FREE.

  1. **Program** — `physmemInit` with a memory map: everything marked, each usable entry unmarked,
     `total_frames` from the highest end, then the reservations.

  2. **Specification** — a frame is free exactly when every byte of it is available (`Covered`) and
     none is reserved (`Reserved`).

  3. **What it does instead (`physmemInit_free`)** — `mark_range` rounds OUTWARDS, which is right for
     a reservation and wrong for available memory: a frame that an entry covers in part is `Touched`
     and therefore free.  And it rounds on 32 bits: an end above `0xFFFFF000` rounds to 0, so an
     entry that reaches there frees nothing and leaves `total_frames = 0` (`ReachesTop`).

  The two sets are compared frame by frame in `physmem_init_free_iff`.
-/
import Lyth.Physmem

namespace Lyth.Physmem

open Loop Word

/-! ## What should be free -/

/-- A byte of a type 1 entry. -/
def Available (mbi : MultibootInfo) (b : Nat) : Prop :=
  ∃ e ∈ mbi.mmap, e.type = 1 ∧ e.addr ≤ b ∧ b < e.addr + e.len

/-- The frame lies wholly inside the union of the type 1 entries. -/
def Covered (mbi : MultibootInfo) (f : Nat) : Prop :=
  ∀ b, frameAddr f ≤ b → b < frameAddr (f + 1) → Available mbi b

/-- `physmem_init` reserves a framebuffer. -/
def MultibootInfo.hasFramebuffer (mbi : MultibootInfo) : Bool :=
  mbi.flags.testBit 12 && mbi.framebufferAddr != 0 && mbi.framebufferPitch != 0 &&
    mbi.framebufferHeight != 0

/-- The reserved ranges, as start and length: the first megabyte, the kernel image, the multiboot
    structure, the map and the framebuffer. -/
def reservedRanges (kernelStart kernelEnd : Nat) (mbi : MultibootInfo) : List (Nat × Nat) :=
  [(0, 0x100000), (kernelStart, kernelEnd - kernelStart), (mbi.self, multibootInfoSize),
    (mbi.mmapAddr, mbi.mmapLength)] ++
  if mbi.hasFramebuffer then
    [(mbi.framebufferAddr, mbi.framebufferPitch * mbi.framebufferHeight)] else []

/-- The frame has a byte in one of the ranges. -/
def Meets (ranges : List (Nat × Nat)) (f : Nat) : Prop :=
  ∃ r ∈ ranges, ∃ b, frameAddr f ≤ b ∧ b < frameAddr (f + 1) ∧ r.1 ≤ b ∧ b < r.1 + r.2

def Reserved (kernelStart kernelEnd : Nat) (mbi : MultibootInfo) (f : Nat) : Prop :=
  Meets (reservedRanges kernelStart kernelEnd mbi) f

/-- The bit of the frame is clear, and the frame exists. -/
def IsFree (s : State) (f : Nat) : Prop := s.marked f = false ∧ f < s.totalFrames

/-! ## What the code works with -/

/-- The entry adds available memory: type 1, not empty, and it begins before the last byte of the
    32-bit address space. -/
def MmapEntry.usable (e : MmapEntry) : Prop := e.type = 1 ∧ e.len ≠ 0 ∧ e.addr < 0xFFFFFFFF

/-- Some usable entry ends above `0xFFFFF000`, where rounding up to a frame wraps. -/
def ReachesTop (mbi : MultibootInfo) : Prop :=
  ∃ e ∈ mbi.mmap, e.usable ∧ 0xFFFFF000 < e.addr + e.len

/-- A usable entry has a byte in the frame, or there is no usable entry and the frame lies in the
    default range. -/
def Touched (mbi : MultibootInfo) (f : Nat) : Prop :=
  (∃ e ∈ mbi.mmap, e.usable ∧ e.addr < frameAddr (f + 1) ∧ frameAddr f < e.addr + e.len) ∨
    ((∀ e ∈ mbi.mmap, ¬e.usable) ∧ 0x100 ≤ f ∧ f < 0x1000)

/-- The ranges as `mark_range` gets them: on 32 bits. -/
def markedRanges (kernelStart kernelEnd : Nat) (mbi : MultibootInfo) : List (Nat × Nat) :=
  [(0, 0x100000), (u32 kernelStart, u32 (kernelEnd - kernelStart)), (mbi.self, multibootInfoSize),
    (mbi.mmapAddr, mbi.mmapLength)] ++
  if mbi.hasFramebuffer then
    [(u32 mbi.framebufferAddr, u32 (mbi.framebufferPitch * mbi.framebufferHeight))] else []

/-- The frame is in the range of one of the `mark_range` calls. -/
def Marked (kernelStart kernelEnd : Nat) (mbi : MultibootInfo) (f : Nat) : Prop :=
  ∃ r ∈ markedRanges kernelStart kernelEnd mbi, inRange r.1 r.2 f

/-! ## One available range -/

section

variable {s : State} {f start stop : Nat}

/-- The frames of an available range, rounded outwards; the end is rounded on 32 bits. -/
theorem inRange_available (hlt : start < stop) (hstop : stop < 2 ^ 32) :
    inRange start (stop - start) f ↔ start / 4096 ≤ f ∧ f < u32 (stop + 4095) / 4096 := by
  unfold inRange
  rw [physmemFrameSize, alignDown_div (by omega), alignUp_div, Nat.add_sub_cancel' (Nat.le_of_lt hlt),
    u32_of_lt hstop]
  constructor
  · rintro ⟨-, h1, h2⟩
    exact ⟨h1, h2⟩
  · rintro ⟨h1, h2⟩
    exact ⟨by omega, h1, h2⟩

theorem registerHighest_marked (stop : Nat) : (registerHighest s stop).marked = s.marked := by
  unfold registerHighest
  split <;> rfl

theorem registerHighest_totalFrames (stop : Nat) :
    (registerHighest s stop).totalFrames = s.totalFrames := by
  unfold registerHighest
  split <;> rfl

theorem registerHighest_highestAddress (stop : Nat) :
    (registerHighest s stop).highestAddress = max s.highestAddress stop := by
  unfold registerHighest
  split
  · rename_i h
    exact (Nat.max_eq_right (Nat.le_of_lt h)).symm
  · rename_i h
    exact (Nat.max_eq_left (Nat.not_lt.mp h)).symm

/-- `add_available_range` on a range that is not empty, while every frame exists. -/
theorem addAvailableRange_spec (hlt : start < stop) (hstop : stop < 2 ^ 32)
    (htot : s.totalFrames = physmemMaxFrames) :
    (addAvailableRange s start stop).refcount = s.refcount ∧
    (addAvailableRange s start stop).totalFrames = physmemMaxFrames ∧
    (addAvailableRange s start stop).highestAddress = max s.highestAddress stop ∧
    ∀ f, (addAvailableRange s start stop).marked f
      = if start / 4096 ≤ f ∧ f < u32 (stop + 4095) / 4096 then false else s.marked f := by
  have htot' : (registerHighest s stop).totalFrames = physmemMaxFrames := by
    rw [registerHighest_totalFrames, htot]
  have hrc : (registerHighest s stop).refcount = s.refcount := by
    unfold registerHighest
    split <;> rfl
  unfold addAvailableRange
  rw [if_neg (Nat.not_le.mpr hlt)]
  refine ⟨?_, ?_, ?_, fun f => ?_⟩
  · rw [(markRange_spec (f := 0) _ _ _).1, hrc]
  · rw [(markRange_spec (f := 0) _ _ _).2.1, htot']
  · rw [markRange_highestAddress, registerHighest_highestAddress]
  have hin : inRange start (stop - start) f ↔ _ := inRange_available hlt hstop
  have hround := u32_lt (stop + 4095)
  rw [(markRange_spec _ _ _).2.2, htot', registerHighest_marked]
  by_cases hf : start / 4096 ≤ f ∧ f < u32 (stop + 4095) / 4096
  · have hmax : f < physmemMaxFrames := by
      simp only [physmemMaxFrames]
      omega
    rw [if_pos hf, if_pos ⟨hin.mpr hf, hmax, hmax⟩]
  · rw [if_neg hf, if_neg fun h => hf (hin.mp h.1)]

end

/-! ## The memory map -/

section

variable {s : State} {f : Nat} {e : MmapEntry} {es : List MmapEntry}

/-- The 32-bit end of a usable entry. -/
def MmapEntry.stop (e : MmapEntry) : Nat := regionEnd32 e.addr e.len

/-- The end of an entry that does not wrap is cut off at the last byte. -/
theorem MmapEntry.stop_eq (hwrap : e.addr + e.len < 2 ^ 64) :
    e.stop = min (e.addr + e.len) 0xFFFFFFFF := by
  unfold MmapEntry.stop regionEnd32
  dsimp only
  split <;> omega

theorem MmapEntry.usable.lt_stop (h : e.usable) (hwrap : e.addr + e.len < 2 ^ 64) :
    e.addr < e.stop ∧ e.stop < 2 ^ 32 := by
  obtain ⟨-, hlen, haddr⟩ := h
  rw [MmapEntry.stop_eq hwrap]
  omega

/-- A usable entry is added as a range. -/
theorem addMmapEntry_usable (h : e.usable) : addMmapEntry s e = addAvailableRange s e.addr e.stop := by
  obtain ⟨htype, hlen, haddr⟩ := h
  unfold addMmapEntry
  rw [if_pos (by simp [htype, hlen]), if_pos (by omega), u32_of_lt (by omega)]
  rfl

/-- An entry that is not usable is passed over. -/
theorem addMmapEntry_unusable (h : ¬e.usable) (hwrap : e.type = 1 → e.addr + e.len < 2 ^ 64) :
    addMmapEntry s e = s := by
  unfold addMmapEntry
  by_cases htype : e.type = 1 && e.len != 0
  swap
  · rw [if_neg htype]
  rw [if_pos htype]
  simp only [Bool.and_eq_true, decide_eq_true_eq, bne_iff_ne] at htype
  by_cases haddr : e.addr < 0x100000000
  swap
  · rw [if_neg haddr]
  -- An entry that begins at the very last byte has an empty 32-bit range.
  have hlast : e.addr = 0xFFFFFFFF := by
    by_contra hne
    exact h ⟨htype.1, htype.2, by omega⟩
  have hstop : regionEnd32 e.addr e.len = 0xFFFFFFFF := by
    have := MmapEntry.stop_eq (hwrap htype.1)
    unfold MmapEntry.stop at this
    omega
  rw [if_pos haddr, hstop, hlast, addAvailableRange, if_pos (by decide)]

/-- The frames that a usable entry unmarks. -/
def Frees (e : MmapEntry) (f : Nat) : Prop :=
  e.usable ∧ e.addr / 4096 ≤ f ∧ f < u32 (e.stop + 4095) / 4096

/-- One entry: it unmarks its frames, and its end counts for the highest address. -/
theorem addMmapEntry_spec (hwrap : e.type = 1 → e.addr + e.len < 2 ^ 64)
    (htot : s.totalFrames = physmemMaxFrames) :
    (addMmapEntry s e).refcount = s.refcount ∧ (addMmapEntry s e).totalFrames = physmemMaxFrames ∧
    (∀ h, (addMmapEntry s e).highestAddress ≤ h ↔ s.highestAddress ≤ h ∧ (e.usable → e.stop ≤ h)) ∧
    ∀ f, (addMmapEntry s e).marked f = false ↔ s.marked f = false ∨ Frees e f := by
  by_cases he : e.usable
  · obtain ⟨hlt, hstop⟩ := he.lt_stop (hwrap he.1)
    obtain ⟨hrc, htot₁, hhigh, hmarked⟩ := addAvailableRange_spec hlt hstop htot
    rw [addMmapEntry_usable he]
    refine ⟨hrc, htot₁, fun h => by rw [hhigh, Nat.max_le, forall_prop_of_true he], fun f => ?_⟩
    rw [hmarked]
    split
    · rename_i hf
      exact ⟨fun _ => .inr ⟨he, hf⟩, fun _ => rfl⟩
    · rename_i hf
      exact ⟨.inl, fun h => h.resolve_right fun hfrees => hf hfrees.2⟩
  · rw [addMmapEntry_unusable he hwrap]
    exact ⟨rfl, htot, fun h => ⟨fun hle => ⟨hle, fun hu => absurd hu he⟩, And.left⟩,
      fun f => ⟨.inl, fun h => h.resolve_right fun hfrees => he hfrees.1⟩⟩

/-- **The loop over the map.**  A frame is unmarked afterwards if it was, or if an entry unmarks it;
    the highest address is the largest end. -/
theorem foldl_addMmapEntry (hwrap : ∀ e ∈ es, e.type = 1 → e.addr + e.len < 2 ^ 64)
    (htot : s.totalFrames = physmemMaxFrames) :
    (es.foldl addMmapEntry s).refcount = s.refcount ∧
    (es.foldl addMmapEntry s).totalFrames = physmemMaxFrames ∧
    (∀ h, (es.foldl addMmapEntry s).highestAddress ≤ h
      ↔ s.highestAddress ≤ h ∧ ∀ e ∈ es, e.usable → e.stop ≤ h) ∧
    ∀ f, (es.foldl addMmapEntry s).marked f = false ↔ s.marked f = false ∨ ∃ e ∈ es, Frees e f := by
  induction es generalizing s with
  | nil => exact ⟨rfl, htot, fun h => by simp, fun f => by simp⟩
  | cons e es ih =>
    obtain ⟨hwrap₀, hwrap⟩ := List.forall_mem_cons.mp hwrap
    obtain ⟨hrc, htot, hhigh, hmarked⟩ := addMmapEntry_spec hwrap₀ htot
    obtain ⟨hrc', htot', hhigh', hmarked'⟩ := ih hwrap htot
    refine ⟨hrc'.trans hrc, htot', fun h => ?_, fun f => ?_⟩
    · rw [List.foldl_cons, hhigh', hhigh, List.forall_mem_cons, and_assoc]
    · rw [List.foldl_cons, hmarked', hmarked, List.exists_mem_cons_iff, or_assoc]

/-- Below the top, an entry unmarks the frames that it has a byte in. -/
theorem frees_iff (he : e.usable) (htop : e.addr + e.len ≤ 0xFFFFF000) :
    Frees e f ↔ e.addr < frameAddr (f + 1) ∧ frameAddr f < e.addr + e.len := by
  have hstop : e.stop = e.addr + e.len := by
    rw [MmapEntry.stop_eq (by omega)]
    omega
  unfold Frees frameAddr
  rw [u32_of_lt (by omega), physmemFrameSize]
  constructor
  · rintro ⟨-, h1, h2⟩
    omega
  · rintro ⟨h1, h2⟩
    exact ⟨he, by omega, by omega⟩

end

/-! ## The frames that exist -/

section

variable {mbi : MultibootInfo} {f : Nat}

section

variable (hmap : mbi.hasMmap = true)
include hmap

theorem physmemAvailable_map : physmemAvailable (some mbi)
      = if (mbi.mmap.foldl addMmapEntry physmemReset).highestAddress = 0 then
          addAvailableRange { mbi.mmap.foldl addMmapEntry physmemReset with
            highestAddress := 0x1000000 } 0x100000 0x1000000
        else mbi.mmap.foldl addMmapEntry physmemReset := by
  unfold physmemAvailable
  simp only [Option.elim_some, initFromMultibootMap, if_pos hmap]

section

variable (hwrap : ∀ e ∈ mbi.mmap, e.type = 1 → e.addr + e.len < 2 ^ 64)
include hwrap

/-- Without a usable entry the default range is added. -/
theorem available_default
    (hnone : ∀ e ∈ mbi.mmap, ¬e.usable) :
    (physmemAvailable (some mbi)).highestAddress = 0x1000000 ∧
    ∀ f, (physmemAvailable (some mbi)).marked f = false ↔ 0x100 ≤ f ∧ f < 0x1000 := by
  obtain ⟨-, htot, hhigh, hmarked⟩ := foldl_addMmapEntry (s := physmemReset) hwrap rfl
  have hzero : (mbi.mmap.foldl addMmapEntry physmemReset).highestAddress = 0 :=
    Nat.le_zero.mp ((hhigh 0).mpr ⟨Nat.le_refl 0, fun e he hu => absurd hu (hnone e he)⟩)
  rw [physmemAvailable_map hmap, if_pos hzero]
  generalize hreset : mbi.mmap.foldl addMmapEntry physmemReset = t at htot hmarked
  obtain ⟨-, -, hhigh', hmarked'⟩ := addAvailableRange_spec (s := { t with highestAddress := 0x1000000 })
    (show 0x100000 < 0x1000000 by decide) (by decide) htot
  refine ⟨by rw [hhigh']; rfl, fun f => ?_⟩
  have hall : t.marked f := by
    by_contra hf
    rcases (hmarked f).mp (eq_false_of_ne_true hf) with h | ⟨e, he, hfrees⟩
    · cases h
    · exact hnone e he hfrees.1
  have hround : u32 (0x1000000 + 4095) / 4096 = 0x1000 := by decide
  rw [hmarked', hround]
  by_cases hf : 0x100000 / 4096 ≤ f ∧ f < 0x1000
  · rw [if_pos hf]
    exact ⟨fun _ => hf, fun _ => rfl⟩
  · rw [if_neg hf]
    exact ⟨fun h => absurd (hall.symm.trans h) Bool.true_eq_false.mp, fun h => absurd h hf⟩

/-- With a usable entry, the entries decide. -/
theorem available_usable
    (hsome : ∃ e ∈ mbi.mmap, e.usable) :
    (∀ h, (physmemAvailable (some mbi)).highestAddress ≤ h ↔ ∀ e ∈ mbi.mmap, e.usable → e.stop ≤ h) ∧
    ∀ f, (physmemAvailable (some mbi)).marked f = false ↔ ∃ e ∈ mbi.mmap, Frees e f := by
  obtain ⟨-, htot, hhigh, hmarked⟩ := foldl_addMmapEntry (s := physmemReset) hwrap rfl
  have hpos : ¬(mbi.mmap.foldl addMmapEntry physmemReset).highestAddress = 0 := by
    intro hzero
    obtain ⟨e, he, hu⟩ := hsome
    have hle := ((hhigh 0).mp (Nat.le_of_eq hzero)).2 e he hu
    have hlt := (hu.lt_stop (hwrap e he hu.1)).1
    omega
  rw [physmemAvailable_map hmap, if_neg hpos]
  refine ⟨fun h => ?_, fun f => ?_⟩
  · rw [hhigh]
    exact ⟨fun h => h.2, fun h => ⟨Nat.zero_le _, h⟩⟩
  · rw [hmarked]
    exact ⟨fun h => h.resolve_left fun h => (by cases h), .inr⟩

/-- Below the top, the available frames are the touched ones, and they lie below the highest
    address. -/
theorem available_touched
    (htop : ¬ReachesTop mbi) :
    (physmemAvailable (some mbi)).highestAddress ≤ 0xFFFFF000 ∧
    ∀ f, ((physmemAvailable (some mbi)).marked f = false ↔ Touched mbi f) ∧
      (Touched mbi f → frameAddr f < (physmemAvailable (some mbi)).highestAddress) := by
  have hend : ∀ e ∈ mbi.mmap, e.usable → e.addr + e.len ≤ 0xFFFFF000 := by
    intro e he hu
    by_contra hlt
    exact htop ⟨e, he, hu, by omega⟩
  by_cases hsome : ∃ e ∈ mbi.mmap, e.usable
  · obtain ⟨hhigh, hmarked⟩ := available_usable hmap hwrap hsome
    have hstop : ∀ e ∈ mbi.mmap, e.usable → e.stop = e.addr + e.len := by
      intro e he hu
      have := hend e he hu
      rw [MmapEntry.stop_eq (hwrap e he hu.1)]
      omega
    have htouched : ∀ f, Touched mbi f ↔ ∃ e ∈ mbi.mmap, Frees e f := by
      intro f
      constructor
      · rintro (⟨e, he, hu, hin⟩ | ⟨hnone, -⟩)
        · exact ⟨e, he, (frees_iff hu (hend e he hu)).mpr hin⟩
        · obtain ⟨e, he, hu⟩ := hsome
          exact absurd hu (hnone e he)
      · rintro ⟨e, he, hfrees⟩
        exact .inl ⟨e, he, hfrees.1, (frees_iff hfrees.1 (hend e he hfrees.1)).mp hfrees⟩
    refine ⟨(hhigh _).mpr fun e he hu => by rw [hstop e he hu]; exact hend e he hu, fun f => ⟨?_, ?_⟩⟩
    · rw [hmarked, htouched]
    · intro hf
      obtain ⟨e, he, hfrees⟩ := (htouched f).mp hf
      have hle := (hhigh _).mp (Nat.le_refl _) e he hfrees.1
      rw [hstop e he hfrees.1] at hle
      exact Nat.lt_of_lt_of_le ((frees_iff hfrees.1 (hend e he hfrees.1)).mp hfrees).2 hle
  · have hnone : ∀ e ∈ mbi.mmap, ¬e.usable := fun e he hu => hsome ⟨e, he, hu⟩
    obtain ⟨hhigh, hmarked⟩ := available_default hmap hwrap hnone
    have htouched : ∀ f, Touched mbi f ↔ 0x100 ≤ f ∧ f < 0x1000 := by
      intro f
      constructor
      · rintro (⟨e, he, hu, -⟩ | ⟨-, hf⟩)
        · exact absurd hu (hnone e he)
        · exact hf
      · exact fun hf => .inr ⟨hnone, hf⟩
    refine ⟨by rw [hhigh]; decide, fun f => ⟨by rw [hmarked, htouched], fun hf => ?_⟩⟩
    have hlt := ((htouched f).mp hf).2
    rw [frameAddr, physmemFrameSize]
    omega

/-- An entry that reaches the top takes the highest address there. -/
theorem available_top
    (htop : ReachesTop mbi) :
    0xFFFFF000 < (physmemAvailable (some mbi)).highestAddress ∧
    (physmemAvailable (some mbi)).highestAddress ≤ 0xFFFFFFFF := by
  obtain ⟨e, he, hu, hlt⟩ := htop
  obtain ⟨hhigh, -⟩ := available_usable hmap hwrap ⟨e, he, hu⟩
  constructor
  · by_contra hle
    have hstop := (hhigh _).mp (Nat.not_lt.mp hle) e he hu
    rw [MmapEntry.stop_eq (hwrap e he hu.1)] at hstop
    omega
  · refine (hhigh _).mpr fun e' he' hu' => ?_
    have := (hu'.lt_stop (hwrap e' he' hu'.1)).2
    omega

end

end

/-! ## The reservations -/

/-- A sequence of reservations marks the frames of its ranges, of those that exist. -/
theorem foldl_markRange (rs : List (Nat × Nat)) (s : State) :
    (rs.foldl (fun s r => markRange s r.1 r.2 true) s).totalFrames = s.totalFrames ∧
    ∀ f, (rs.foldl (fun s r => markRange s r.1 r.2 true) s).marked f ↔ s.marked f ∨
        ((∃ r ∈ rs, inRange r.1 r.2 f) ∧ f < physmemMaxFrames ∧ f < s.totalFrames) := by
  induction rs generalizing s with
  | nil => exact ⟨rfl, fun f => by simp⟩
  | cons r rs ih =>
    obtain ⟨htot, hmarked⟩ := ih (markRange s r.1 r.2 true)
    have htot₁ := (markRange_spec (s := s) (f := 0) r.1 r.2 true).2.1
    refine ⟨htot.trans htot₁, fun f => ?_⟩
    rw [List.foldl_cons, hmarked, htot₁, (markRange_spec _ _ _).2.2, List.exists_mem_cons_iff,
      or_and_right, ← or_assoc]
    refine or_congr_left ?_
    split
    · rename_i hin
      exact ⟨fun _ => .inr hin, fun _ => rfl⟩
    · rename_i hin
      exact ⟨.inl, fun h => h.resolve_right hin⟩

/-- `physmem_init` with a map: the frames that exist, and then the reservations. -/
theorem physmemInit_eq (kernelStart kernelEnd : Nat) (hmap : mbi.hasMmap) :
    let t := (markedRanges kernelStart kernelEnd mbi).foldl (fun s r => markRange s r.1 r.2 true)
      (setTotalFrames (physmemAvailable (some mbi)))
    (physmemInit kernelStart kernelEnd (some mbi)).marked = t.marked ∧
    (physmemInit kernelStart kernelEnd (some mbi)).totalFrames = t.totalFrames := by
  unfold physmemInit markedRanges MultibootInfo.hasFramebuffer
  simp only [Option.elim_some, reserveBoot, hmap]
  by_cases hfb : (mbi.flags.testBit 12 && mbi.framebufferAddr != 0 && mbi.framebufferPitch != 0 &&
      mbi.framebufferHeight != 0)
  · rw [if_pos hfb, if_pos hfb, registerHighest_marked, registerHighest_totalFrames]
    exact ⟨rfl, rfl⟩
  · rw [if_neg hfb, if_neg hfb]
    exact ⟨rfl, rfl⟩

/-- **What `physmem_init` does.**  If an entry reaches the top no frame is free; otherwise the free
    frames are the touched ones that no reservation marks. -/
theorem physmemInit_free (kernelStart kernelEnd : Nat) (hmap : mbi.hasMmap)
    (hwrap : ∀ e ∈ mbi.mmap, e.type = 1 → e.addr + e.len < 2 ^ 64) :
    (ReachesTop mbi → ∀ f, ¬IsFree (physmemInit kernelStart kernelEnd (some mbi)) f) ∧
    (¬ReachesTop mbi → ∀ f, IsFree (physmemInit kernelStart kernelEnd (some mbi)) f
      ↔ Touched mbi f ∧ ¬Marked kernelStart kernelEnd mbi f) := by
  obtain ⟨hmarked, htotal⟩ := physmemInit_eq kernelStart kernelEnd hmap
  obtain ⟨htot, hmark⟩ := foldl_markRange (markedRanges kernelStart kernelEnd mbi)
    (setTotalFrames (physmemAvailable (some mbi)))
  obtain ⟨hset, hmax⟩ := setTotalFrames_eq (physmemAvailable (some mbi))
  unfold IsFree
  rw [hmarked, htotal, htot, hset]
  rw [hset] at hmark
  constructor
  · intro htop f hf
    obtain ⟨hlo, hhi⟩ := available_top hmap hwrap htop
    have hzero : u32 ((physmemAvailable (some mbi)).highestAddress + 4095) / 4096 = 0 := by
      unfold u32
      omega
    have hlt : f < u32 ((physmemAvailable (some mbi)).highestAddress + 4095) / 4096 := hf.2
    omega
  · intro htop f
    obtain ⟨hhigh, htouched⟩ := available_touched hmap hwrap htop
    have hround : u32 ((physmemAvailable (some mbi)).highestAddress + 4095)
        = (physmemAvailable (some mbi)).highestAddress + 4095 := u32_of_lt (by omega)
    have hexists : Touched mbi f →
        f < u32 ((physmemAvailable (some mbi)).highestAddress + 4095) / 4096 := by
      intro hf
      have hlt := (htouched f).2 hf
      rw [frameAddr, physmemFrameSize] at hlt
      omega
    have hmarkf := hmark f
    constructor
    · rintro ⟨hfree, hlt⟩
      have hnot := mt hmarkf.mpr (by rw [hfree]; exact Bool.false_ne_true)
      rw [not_or] at hnot
      refine ⟨(htouched f).1.mp (eq_false_of_ne_true hnot.1), fun hm => hnot.2 ⟨hm, ?_, hlt⟩⟩
      exact Nat.lt_trans hlt hmax
    · rintro ⟨hf, hm⟩
      refine ⟨eq_false_of_ne_true fun htrue => ?_, hexists hf⟩
      rcases hmarkf.mp htrue with h | h
      · have hfalse := (htouched f).1.mpr hf
        exact absurd (h.symm.trans hfalse) Bool.true_eq_false.mp
      · exact hm h.1

/-! ## The comparison -/

/-- A covered frame below 4 GB is touched. -/
theorem Covered.touched (h : Covered mbi f) (hf : f < physmemMaxFrames) : Touched mbi f := by
  have hstep : frameAddr (f + 1) = frameAddr f + 4096 := by
    unfold frameAddr physmemFrameSize
    omega
  obtain ⟨e, he, htype, hlo, hhi⟩ := h (frameAddr f) (Nat.le_refl _) (by omega)
  have hsmall : frameAddr f ≤ 0xFFFFF000 := by
    simp only [frameAddr, physmemFrameSize, physmemMaxFrames] at hf ⊢
    omega
  exact .inl ⟨e, he, ⟨htype, by omega, by omega⟩, by omega, by omega⟩

/-- A range that ends at or below `0xFFFFF000` is marked as the frames it has a byte in. -/
theorem inRange_iff_meets {start len : Nat} (h : start + len ≤ 0xFFFFF000) : inRange start len f ↔
      ∃ b, frameAddr f ≤ b ∧ b < frameAddr (f + 1) ∧ start ≤ b ∧ b < start + len := by
  unfold inRange frameAddr
  rw [physmemFrameSize, alignDown_div (by omega), alignUp_div, u32_of_lt (n := start + len) (by omega),
    u32_of_lt (by omega)]
  constructor
  · rintro ⟨h0, h1, h2⟩
    exact ⟨max start (f * 4096), by omega, by omega, by omega, by omega⟩
  · rintro ⟨b, h1, h2, h3, h4⟩
    exact ⟨by omega, by omega, by omega⟩

/-- When all reserved ranges end there, the marks are the reservations. -/
theorem marked_iff_reserved {kernelStart kernelEnd : Nat}
    (h : ∀ r ∈ reservedRanges kernelStart kernelEnd mbi, r.1 + r.2 ≤ 0xFFFFF000) :
    Marked kernelStart kernelEnd mbi f ↔ Reserved kernelStart kernelEnd mbi f := by
  have hsame : markedRanges kernelStart kernelEnd mbi = reservedRanges kernelStart kernelEnd mbi := by
    unfold markedRanges reservedRanges
    have hkernel := h (kernelStart, kernelEnd - kernelStart) (List.mem_append_left _ (by simp))
    rw [u32_of_lt (by omega), u32_of_lt (by omega)]
    by_cases hfb : mbi.hasFramebuffer
    · have hmem := h (mbi.framebufferAddr, mbi.framebufferPitch * mbi.framebufferHeight)
        (List.mem_append_right _ (by rw [if_pos hfb]; exact List.mem_singleton_self _))
      rw [if_pos hfb, if_pos hfb, u32_of_lt (by omega),
        u32_of_lt (by omega)]
    · rw [if_neg hfb, if_neg hfb]
  unfold Marked
  rw [hsame]
  constructor
  · rintro ⟨r, hr, hin⟩
    exact ⟨r, hr, (inRange_iff_meets (h r hr)).mp hin⟩
  · rintro ⟨r, hr, hb⟩
    exact ⟨r, hr, (inRange_iff_meets (h r hr)).mpr hb⟩

/-- The condition under which the free frames are the right ones.  If an entry reaches the top, no
    frame is free, so none may be due; otherwise every frame that is touched and not marked must be
    covered, and on the covered frames the marks must be the reservations. -/
def FreesRightly (kernelStart kernelEnd : Nat) (mbi : MultibootInfo) : Prop :=
  (ReachesTop mbi → ∀ f, f < physmemMaxFrames → Covered mbi f → Reserved kernelStart kernelEnd mbi f) ∧
  (¬ReachesTop mbi →
    (∀ f, f < physmemMaxFrames → Touched mbi f → ¬Marked kernelStart kernelEnd mbi f → Covered mbi f) ∧
    ∀ f, f < physmemMaxFrames → Covered mbi f →
      (Marked kernelStart kernelEnd mbi f ↔ Reserved kernelStart kernelEnd mbi f))

/-- **The free set of `physmem_init`.**  For every memory map whose entries do not wrap: the frames
    below 4 GB that are free are those wholly inside the type 1 entries and outside the reserved
    ranges, exactly when `FreesRightly` holds. -/
theorem physmem_init_free_iff (kernelStart kernelEnd : Nat) (mbi : MultibootInfo)
    (hmap : mbi.hasMmap = true) (hwrap : ∀ e ∈ mbi.mmap, e.addr + e.len < 2 ^ 64) :
    (∀ f, f < physmemMaxFrames → (IsFree (physmemInit kernelStart kernelEnd (some mbi)) f
      ↔ Covered mbi f ∧ ¬Reserved kernelStart kernelEnd mbi f))
    ↔ FreesRightly kernelStart kernelEnd mbi := by
  obtain ⟨htop, hbelow⟩ := physmemInit_free kernelStart kernelEnd hmap fun e he _ => hwrap e he
  constructor
  · intro h
    refine ⟨fun hreach f hf hcov => ?_, fun hreach => ⟨fun f hf ht hm => ?_, fun f hf hcov => ?_⟩⟩
    · by_contra hres
      exact htop hreach f ((h f hf).mpr ⟨hcov, hres⟩)
    · exact ((h f hf).mp ((hbelow hreach f).mpr ⟨ht, hm⟩)).1
    constructor
    · intro hm
      by_contra hres
      exact ((hbelow hreach f).mp ((h f hf).mpr ⟨hcov, hres⟩)).2 hm
    · intro hres
      by_contra hm
      exact ((h f hf).mp ((hbelow hreach f).mpr ⟨hcov.touched hf, hm⟩)).2 hres
  · rintro ⟨hcond, hcond'⟩ f hf
    by_cases hreach : ReachesTop mbi
    · exact ⟨fun h => absurd h (htop hreach f), fun h => absurd (hcond hreach f hf h.1) h.2⟩
    obtain ⟨hcov, hmarks⟩ := hcond' hreach
    rw [hbelow hreach f]
    constructor
    · rintro ⟨ht, hm⟩
      have hc := hcov f hf ht hm
      exact ⟨hc, fun hres => hm ((hmarks f hf hc).mpr hres)⟩
    · rintro ⟨hc, hres⟩
      exact ⟨hc.touched hf, fun hm => hres ((hmarks f hf hc).mp hm)⟩

end

/-! ## Three maps

    The kernel in the half megabyte above the first, the boot information low, and one entry. -/

/-- One type 1 entry of `len` bytes from the first megabyte on. -/
def oneEntry (len : Nat) : MultibootInfo where
  self := 0x9000
  flags := 64
  memUpper := 0
  mmapLength := 24
  mmapAddr := 0x9100
  framebufferAddr := 0
  framebufferPitch := 0
  framebufferHeight := 0
  mmap := [⟨0x100000, len, 1⟩]

theorem oneEntry_ranges (len : Nat) : reservedRanges 0x100000 0x180000 (oneEntry len)
    = [(0, 0x100000), (0x100000, 0x80000), (0x9000, 120), (0x9100, 24)] := by
  have hfb : (oneEntry len).hasFramebuffer = false := by
    simp [MultibootInfo.hasFramebuffer, oneEntry]
  unfold reservedRanges
  rw [hfb]
  simp [oneEntry, multibootInfoSize]

theorem oneEntry_marked (len f : Nat) :
    Marked 0x100000 0x180000 (oneEntry len) f ↔ Reserved 0x100000 0x180000 (oneEntry len) f := by
  refine marked_iff_reserved ?_
  rw [oneEntry_ranges]
  decide

/-- Above the kernel nothing is reserved. -/
theorem oneEntry_reserved {len f : Nat} (hf : 0x180 ≤ f) :
    ¬Reserved 0x100000 0x180000 (oneEntry len) f := by
  rintro ⟨r, hr, b, h1, h2, h3, h4⟩
  rw [oneEntry_ranges] at hr
  simp only [frameAddr, physmemFrameSize] at h1
  simp only [List.mem_cons, List.not_mem_nil, or_false] at hr
  rcases hr with rfl | rfl | rfl | rfl <;> omega

theorem oneEntry_available {len b : Nat} :
    Available (oneEntry len) b ↔ 0x100000 ≤ b ∧ b < 0x100000 + len := by
  simp [Available, oneEntry]

theorem oneEntry_usable {len : Nat} (hlen : len ≠ 0) : MmapEntry.usable ⟨0x100000, len, 1⟩ :=
  ⟨rfl, hlen, show 0x100000 < 0xFFFFFFFF by decide⟩

theorem oneEntry_below {len : Nat} (h : len ≤ 0xFFEFF000) : ¬ReachesTop (oneEntry len) := by
  rintro ⟨e, he, -, hlt⟩
  simp only [oneEntry, List.mem_singleton] at he
  subst he
  dsimp only at hlt
  omega

/-- 4 MB of whole frames: the free frames are the right ones. -/
theorem physmem_init_free_4M : (oneEntry 0x400000).hasMmap = true ∧ ∀ f, f < physmemMaxFrames →
    (IsFree (physmemInit 0x100000 0x180000 (some (oneEntry 0x400000))) f
      ↔ Covered (oneEntry 0x400000) f ∧ ¬Reserved 0x100000 0x180000 (oneEntry 0x400000) f) := by
  refine ⟨rfl, (physmem_init_free_iff 0x100000 0x180000 (oneEntry 0x400000) rfl (by simp [oneEntry])).mpr
    ⟨fun h => absurd h (oneEntry_below (by decide)), fun _ => ⟨?_, fun f _ _ => oneEntry_marked _ f⟩⟩⟩
  intro f hf ht _ b h1 h2
  rw [oneEntry_available]
  rcases ht with ⟨e, he, -, h3, h4⟩ | ⟨hnone, -⟩
  · simp only [oneEntry, List.mem_singleton] at he
    subst he
    simp only [frameAddr, physmemFrameSize] at h1 h2 h3 h4
    omega
  · exact absurd (oneEntry_usable (by decide)) (hnone _ (.head _))

/-- **Two maps that go wrong.**  An entry that ends in the middle of frame `0x200` leaves that frame
    free; with an entry that reaches 4 GB not even frame `0x200`, available and not reserved, is
    free. -/
theorem half_frame_and_top : (IsFree (physmemInit 0x100000 0x180000 (some (oneEntry 0x100800))) 0x200 ∧
      ¬Covered (oneEntry 0x100800) 0x200) ∧
    (Covered (oneEntry 0xFFF00000) 0x200 ∧ ¬Reserved 0x100000 0x180000 (oneEntry 0xFFF00000) 0x200 ∧
      ¬IsFree (physmemInit 0x100000 0x180000 (some (oneEntry 0xFFF00000))) 0x200) := by
  refine ⟨⟨?_, ?_⟩, ?_, oneEntry_reserved (by decide), ?_⟩
  · refine ((physmemInit_free 0x100000 0x180000 rfl (by simp [oneEntry])).2 (oneEntry_below (by decide)) _).mpr ⟨?_, ?_⟩
    · exact .inl ⟨_, (.head _), oneEntry_usable (by decide), by decide, by decide⟩
    · rw [oneEntry_marked]
      exact oneEntry_reserved (by decide)
  · intro h
    have hlast := oneEntry_available.mp (h 0x200800 (by decide) (by decide))
    omega
  · intro b h1 h2
    rw [oneEntry_available]
    simp only [frameAddr, physmemFrameSize] at h1 h2
    omega
  · refine (physmemInit_free 0x100000 0x180000 rfl (by simp [oneEntry])).1 ?_ _
    exact ⟨_, (.head _), oneEntry_usable (by decide), by decide⟩

end Lyth.Physmem
