/-
  THE COUNTER OF FREE FRAMES.

  1. **Program** — every entry point of `physmem.c`, with arbitrary arguments: unaligned, overlapping
     and out-of-range regions, double frees.

  2. **Specification** — `free_frames` is the number of clear bits below `total_frames`, and a frame
     with a clear bit has count 0 (`Balanced`).

  3. **Why arbitrary arguments are harmless** — the counter moves in `mark_frame` alone, which looks
     at the bit first and does nothing to a frame that does not exist (`markFrame_count`); everything
     else is built from it.  A count other than 0 is written only to a frame that was just marked.

  The one delicate point is the end of `physmem_init`: `total_frames` drops from its maximum to the
  frames below the highest address, so no frame above may be free (`available_exists`).
-/
import Mathlib.Data.Finset.Card
import Lyth.PhysmemBoot

namespace Lyth.Physmem

open Loop Run Word Function

/-! ## Counting -/

/-- The frames that are free. -/
def freeSet (s : State) : Finset Nat := (Finset.range s.totalFrames).filter (s.marked · = false)

/-- The counter is right. -/
def Counted (s : State) : Prop := s.freeFrames = (freeSet s).card

/-- No free frame has references. -/
def Idle (s : State) : Prop := ∀ f, s.marked f = false → s.refcount f = 0

/-- **The books are balanced.** -/
structure Balanced (s : State) : Prop where
  counted : Counted s
  idle : Idle s

section

variable {s : State}

/-- The counter does not depend on the counts. -/
theorem Counted.setRefcount (h : Counted s) (frame count : Nat) : Counted (s.setRefcount frame count) := h

/-- **`mark_frame` keeps the counter right**: it moves it exactly when it changes a bit. -/
theorem markFrame_count (h : Counted s) (used : Bool) (frame : Nat) :
    Counted (markFrame used frame s) := by
  unfold markFrame
  by_cases hout : (frame ≥ physmemMaxFrames || frame ≥ s.totalFrames) = true
  · rwa [if_pos hout]
  have hlt : frame < s.totalFrames := by
    simp only [Bool.or_eq_true, decide_eq_true_eq] at hout
    omega
  rw [if_neg hout]
  cases used with
  | true =>
    rw [if_pos rfl]
    cases hm : s.marked frame with
    | true => exact h
    | false =>
      have hmem : frame ∈ freeSet s := Finset.mem_filter.mpr ⟨Finset.mem_range.mpr hlt, hm⟩
      have hpos : 0 < s.freeFrames := by
        rw [show s.freeFrames = (freeSet s).card from h]
        exact Finset.card_pos.mpr ⟨frame, hmem⟩
      rw [if_pos (show (!false) from rfl), if_pos hpos]
      have herase : (Finset.range s.totalFrames).filter
          (update s.marked frame true · = false) = (freeSet s).erase frame := by
        ext f
        by_cases hf : f = frame
        · simp [hf]
        · simp [freeSet, hf]
      show s.freeFrames - 1 = _
      unfold freeSet
      rw [herase, Finset.card_erase_of_mem hmem, show s.freeFrames = (freeSet s).card from h]
  | false =>
    rw [if_neg Bool.false_ne_true]
    cases hm : s.marked frame with
    | false =>
      rwa [if_neg Bool.false_ne_true]
    | true =>
      have hnot : frame ∉ freeSet s := by
        intro hmem
        rw [(Finset.mem_filter.mp hmem).2] at hm
        cases hm
      rw [if_pos rfl]
      have hinsert : (Finset.range s.totalFrames).filter
          (update s.marked frame false · = false) = insert frame (freeSet s) := by
        ext f
        by_cases hf : f = frame
        · simp [hf, hlt]
        · simp [freeSet, hf]
      show s.freeFrames + 1 = _
      unfold freeSet
      rw [hinsert, Finset.card_insert_of_notMem hnot, show s.freeFrames = (freeSet s).card from h]

theorem markRange_count (h : Counted s) (start length : Nat) (used : Bool) :
    Counted (markRange s start length used) := by
  unfold markRange
  split
  · exact h
  · exact forRange_keeps (P := Counted) (fun i t ht => markFrame_count ht used i) h

/-! ## The calls -/

/-- A reservation marks frames and changes no count. -/
theorem reserveRegion_balanced (h : Balanced s) (start length : Nat) :
    Balanced (physmemReserveRegion s start length) := by
  refine ⟨markRange_count h.counted _ _ _, fun f hf => ?_⟩
  obtain ⟨hrc, -, hm⟩ := markRange_spec (s := s) (f := f) start length true
  have hfree : s.marked f = false := by
    have hf : (markRange s start length true).marked f = false := hf
    rw [hm] at hf
    split at hf
    · cases hf
    · exact hf
  show (markRange s start length true).refcount f = 0
  rw [hrc]
  exact h.idle f hfree

theorem allocFrame_balanced (hs : s.Inv) (h : Balanced s) : Balanced (physmemAllocFrame s).2 := by
  refine ⟨?_, fun f hf => ?_⟩
  · unfold physmemAllocFrame
    split
    · exact (markFrame_count h.counted _ _).setRefcount _ _
    · exact h.counted
  · rcases allocFrame_frame hs f with ⟨-, -, hout⟩ | ⟨-, hm, hrc⟩
    · rw [hout.2.1] at hf
      cases hf
    · rw [hrc]
      exact h.idle f (hm ▸ hf)

theorem allocRegion_balanced (hs : s.Inv) (h : Balanced s) {size : Nat} (hsize : size < 2 ^ 32)
    (alignment : Nat) : Balanced (physmemAllocRegion s size alignment).2 := by
  rcases Nat.lt_or_ge 0xFFFFF000 size with hbig | hle
  · rwa [allocRegion_overflow alignment hbig hsize]
  refine ⟨?_, fun f hf => ?_⟩
  · unfold physmemAllocRegion
    split
    · exact h.counted
    · dsimp only
      split
      · exact forRange_keeps (P := Counted) (fun i t ht => ht.setRefcount i 1) (markRange_count h.counted _ _ _)
      · exact h.counted
  · rcases allocRegion_frame hs.total_lt alignment hle f with ⟨-, hout⟩ | ⟨-, hm, hrc⟩
    · rw [hout.2.1] at hf
      cases hf
    · rw [hrc]
      exact h.idle f (hm ▸ hf)

section

variable (h : Balanced s)
include h

/-- A count is set to 0, or the frame is marked. -/
theorem Balanced.setRefcount {frame count : Nat}
    (hcount : count = 0 ∨ s.marked frame) : Balanced (s.setRefcount frame count) := by
  refine ⟨h.counted.setRefcount _ _, fun f hf => ?_⟩
  rw [setRefcount_refcount]
  split
  · rename_i heq
    subst heq
    rcases hcount with h0 | hm
    · exact h0
    · rw [setRefcount_marked, hm] at hf
      cases hf
  · exact h.idle f hf

/-- A frame without references is released. -/
theorem markFrame_balanced {frame : Nat} (hzero : s.refcount frame = 0) :
    Balanced (markFrame false frame s) := by
  refine ⟨markFrame_count h.counted _ _, fun f hf => ?_⟩
  rw [markFrame_refcount]
  by_cases heq : f = frame
  · rwa [heq]
  · rw [markFrame_marked, if_neg fun hc => heq hc.1] at hf
    exact h.idle f hf

theorem freeFrame_balanced (a : Nat) : Balanced (physmemFreeFrame s a) := by
  unfold physmemFreeFrame
  dsimp only
  split
  · exact h
  · split
    · exact h
    · refine markFrame_balanced (h.setRefcount (.inl rfl)) ?_
      rw [setRefcount_refcount, if_pos rfl]

theorem unrefFrame_balanced (a : Nat) : Balanced (physmemUnrefFrame s a) := by
  unfold physmemUnrefFrame
  dsimp only
  split
  · exact h
  split
  · exact h
  split
  · exact h
  rename_i hne
  -- A frame that is free has no reference to drop.
  have hmarked : s.marked (a / physmemFrameSize) := by
    by_contra hfree
    exact hne (h.idle _ (eq_false_of_ne_true hfree))
  have hset : Balanced (s.setRefcount (a / physmemFrameSize)
      (s.refcount (a / physmemFrameSize) - 1)) := h.setRefcount (.inr hmarked)
  split
  · rename_i hzero
    exact markFrame_balanced hset hzero
  · exact hset

theorem refFrame_balanced {a : Nat}
    (ha : s.marked (a / physmemFrameSize)) : Balanced (physmemRefFrame s a) := by
  unfold physmemRefFrame
  dsimp only
  split
  · exact h
  · split
    · exact h
    · split
      · exact h.setRefcount (.inr ha)
      · exact h

theorem freeRegion_balanced (start length : Nat) : Balanced (physmemFreeRegion s start length) := by
  unfold physmemFreeRegion
  split
  · exact h
  · exact forRange_keeps (P := Balanced) (fun i t ht => unrefFrame_balanced ht _) h

end

/-! ## `physmem_init` -/

/-- While the memory map is read: every frame exists, the counter is right, nothing is referenced, and
    a free frame begins below the highest address. -/
structure Filling (s : State) : Prop where
  total : s.totalFrames = physmemMaxFrames
  counted : Counted s
  zero : ∀ f, s.refcount f = 0
  below : ∀ f, s.marked f = false → frameAddr f < s.highestAddress

theorem physmemReset_filling : Filling physmemReset := by
  refine ⟨rfl, ?_, fun _ => rfl, fun f hf => by cases hf⟩
  have hempty : freeSet physmemReset = ∅ := Finset.filter_eq_empty_iff.mpr fun f _ h => by cases h
  unfold Counted
  rw [hempty]
  rfl

theorem addAvailableRange_filling (h : Filling s) {start stop : Nat} (hstop : stop < 2 ^ 32) :
    Filling (addAvailableRange s start stop) := by
  rcases Nat.lt_or_ge start stop with hlt | hle
  swap
  · rwa [addAvailableRange, if_pos hle]
  obtain ⟨hrc, htot, hhigh, hmarked⟩ := addAvailableRange_spec (s := s) hlt hstop h.total
  refine ⟨htot, ?_, fun f => by rw [hrc]; exact h.zero f, fun f hf => ?_⟩
  · have hreg : Counted (registerHighest s stop) := by
      unfold registerHighest
      split <;> exact h.counted
    rw [addAvailableRange, if_neg (Nat.not_le.mpr hlt)]
    exact markRange_count hreg _ _ _
  rw [hmarked] at hf
  rw [hhigh]
  split at hf
  · -- An end that wraps rounds to 0 and frees nothing.
    rename_i hin
    have hbelow : frameAddr f < stop := by
      unfold frameAddr physmemFrameSize
      unfold u32 at hin
      omega
    exact Nat.lt_of_lt_of_le hbelow (Nat.le_max_right _ _)
  · exact Nat.lt_of_lt_of_le (h.below f hf) (Nat.le_max_left _ _)

theorem addMmapEntry_filling (h : Filling s) (e : MmapEntry) : Filling (addMmapEntry s e) := by
  have hstop : regionEnd32 e.addr e.len < 2 ^ 32 := by
    unfold regionEnd32
    dsimp only
    split <;> omega
  unfold addMmapEntry
  split
  · split
    · exact addAvailableRange_filling h hstop
    · exact h
  · exact h

theorem foldl_filling (es : List MmapEntry) (h : Filling s) : Filling (es.foldl addMmapEntry s) := by
  induction es generalizing s with
  | nil => exact h
  | cons e es ih => exact ih (addMmapEntry_filling h e)

end

/-- The available entries of the map, if there is one, end at or below `0xFFFFF000`. -/
def EndsBelowTop (mbi : Option MultibootInfo) : Prop :=
  ∀ m, mbi = some m → m.hasMmap → ∀ e ∈ m.mmap, e.type = 1 → e.addr + e.len ≤ 0xFFFFF000

theorem physmemAvailable_filling (mbi : Option MultibootInfo) : Filling (physmemAvailable mbi) := by
  have hread : Filling (mbi.elim physmemReset (initFromMultibootMap physmemReset)) := by
    cases mbi with
    | none => exact physmemReset_filling
    | some m =>
      show Filling (initFromMultibootMap physmemReset m)
      unfold initFromMultibootMap
      split
      · exact foldl_filling _ physmemReset_filling
      · exact addAvailableRange_filling physmemReset_filling (u32_lt _)
  unfold physmemAvailable
  dsimp only
  generalize mbi.elim physmemReset (initFromMultibootMap physmemReset) = t at hread ⊢
  split
  · rename_i hzero
    have hstart : Filling { t with highestAddress := 0x1000000 } := by
      refine ⟨hread.total, hread.counted, hread.zero, fun f hf => ?_⟩
      have hlt := hread.below f hf
      rw [hzero] at hlt
      exact absurd hlt (Nat.not_lt_zero _)
    exact addAvailableRange_filling hstart (by decide)
  · exact hread

/-- Every frame that is free when the map has been read still exists afterwards. -/
theorem available_exists {mbi : Option MultibootInfo} (hends : EndsBelowTop mbi) {f : Nat}
    (hf : (physmemAvailable mbi).marked f = false) :
    f < u32 ((physmemAvailable mbi).highestAddress + 4095) / 4096 := by
  have hbelow := (physmemAvailable_filling mbi).below f hf
  have hhigh : (physmemAvailable mbi).highestAddress ≤ 0xFFFFF000 := by
    cases mbi with
    | none => rw [available_none.1]; decide
    | some m =>
      by_cases hmap : m.hasMmap
      · have hends' := hends m rfl hmap
        refine (available_touched hmap (fun e he ht => ?_) ?_).1
        · have := hends' e he ht
          omega
        · rintro ⟨e, he, hu, hlt⟩
          have := hends' e he hu.1
          omega
      · -- Without a map there is one range; if it reaches the top, no frame is free.
        have hread : initFromMultibootMap physmemReset m
            = addAvailableRange physmemReset 0x100000 (u32 (0x100000 + u32 (m.memUpper * 1024))) := by
          rw [initFromMultibootMap, if_neg hmap]
        have hstop := u32_lt (0x100000 + u32 (m.memUpper * 1024))
        unfold physmemAvailable at hf ⊢
        simp only [Option.elim_some, hread] at hf ⊢
        generalize u32 (0x100000 + u32 (m.memUpper * 1024)) = stop at hf hstop ⊢
        rcases Nat.lt_or_ge 0x100000 stop with hlt | hle
        · obtain ⟨-, -, hhigh, hmarked⟩ := addAvailableRange_spec (s := physmemReset) hlt hstop rfl
          have hmax : max physmemReset.highestAddress stop = stop := Nat.max_eq_right (Nat.zero_le _)
          rw [if_neg (by rw [hhigh]; omega)] at hf ⊢
          rw [hmarked] at hf
          split at hf
          · rename_i hin
            unfold u32 at hin
            omega
          · cases hf
        · rw [addAvailableRange, if_pos hle, if_pos (show physmemReset.highestAddress = 0 from rfl)]
          rw [(addAvailableRange_spec (by decide) (by decide) rfl).2.2.1]
          decide
  unfold frameAddr physmemFrameSize at hbelow
  rw [u32_of_lt (by omega)]
  omega

/-- **After `physmem_init` the books are balanced.** -/
theorem physmemInit_balanced (kernelStart kernelEnd : Nat) {mbi : Option MultibootInfo}
    (hends : EndsBelowTop mbi) : Balanced (physmemInit kernelStart kernelEnd mbi) := by
  have hfill := physmemAvailable_filling mbi
  obtain ⟨hset, hmax⟩ := setTotalFrames_eq (physmemAvailable mbi)
  have hcut : Balanced (setTotalFrames (physmemAvailable mbi)) := by
    rw [hset]
    refine ⟨?_, fun f _ => hfill.zero f⟩
    have hsame : freeSet { physmemAvailable mbi with
        totalFrames := u32 ((physmemAvailable mbi).highestAddress + 4095) / 4096 }
        = freeSet (physmemAvailable mbi) := by
      ext f
      simp only [freeSet, Finset.mem_filter, Finset.mem_range]
      constructor
      · rintro ⟨hlt, hf⟩
        exact ⟨by rw [hfill.total]; exact Nat.lt_trans hlt hmax, hf⟩
      · rintro ⟨-, hf⟩
        exact ⟨available_exists hends hf, hf⟩
    unfold Counted
    rw [hsame]
    exact hfill.counted
  have hreserve : ∀ {t : State}, Balanced t → ∀ start length,
      Balanced (markRange t start length true) := fun ht => reserveRegion_balanced ht
  have hregister : ∀ {t : State}, Balanced t → ∀ stop, Balanced (registerHighest t stop) := by
    intro t ht stop
    unfold registerHighest
    split
    · exact ⟨ht.counted, ht.idle⟩
    · exact ht
  have hkernel := hreserve (hreserve hcut 0 0x100000) (u32 kernelStart) (u32 (kernelEnd - kernelStart))
  cases mbi with
  | none => exact hkernel
  | some m =>
    have hself := hreserve hkernel m.self multibootInfoSize
    show Balanced (reserveBoot _ m)
    unfold reserveBoot
    dsimp only
    split
    · split
      · exact hregister (hreserve (hreserve hself _ _) _ _) _
      · exact hregister (hreserve hself _ _) _
    · split
      · exact hreserve hself _ _
      · exact hself

/-! ## Histories -/

/-- The calls, with `physmem_reserve_region`. -/
inductive FrameCall
  | call (c : Call)
  | reserveRegion (start length : UInt32)

def frameStep (s : State) : FrameCall → Nat × State
  | .call c => step s c
  | .reserveRegion start length => (0, physmemReserveRegion s start.toNat length.toNat)

/-- A reference is taken only to a frame in use. -/
def RefsInUse (s : State) : FrameCall → Prop
  | .call (.refFrame a) => s.marked (a.toNat / physmemFrameSize)
  | _ => True

/-- **One call** keeps the books balanced. -/
theorem frameStep_balanced {s : State} (hs : s.Inv) (h : Balanced s) {c : FrameCall}
    (hc : RefsInUse s c) : (frameStep s c).2.Inv ∧ Balanced (frameStep s c).2 := by
  cases c with
  | reserveRegion start length =>
    exact ⟨markRange_true_inv hs _ _, reserveRegion_balanced h _ _⟩
  | call c =>
    refine ⟨step_inv hs c, ?_⟩
    cases c with
    | allocFrame => exact allocFrame_balanced hs h
    | allocRegion size alignment => exact allocRegion_balanced hs h size.toNat_lt _
    | freeFrame a => exact freeFrame_balanced h _
    | freeRegion start length => exact freeRegion_balanced h _ _
    | refFrame a => exact refFrame_balanced h hc
    | unrefFrame a => exact unrefFrame_balanced h _

/-- **Frame accounting.**  After `physmem_init` on a map whose available entries end at or below
    `0xFFFFF000`, and any calls with any arguments that take references only to frames in use, the
    counter of free frames is the number of clear bits below `total_frames`, and a frame with a clear
    bit has count 0. -/
theorem frame_accounting (kernelStart kernelEnd : Nat) (mbi : Option MultibootInfo)
    (hends : EndsBelowTop mbi) (calls : List FrameCall)
    (hcalls : Guarded frameStep RefsInUse (physmemInit kernelStart kernelEnd mbi) calls) :
    let t := (exec frameStep (physmemInit kernelStart kernelEnd mbi) calls).2
    t.freeFrames = (freeSet t).card ∧ ∀ f, t.marked f = false → t.refcount f = 0 := by
  have hstep : ∀ s (c : FrameCall), s.Inv ∧ Balanced s → RefsInUse s c →
      (frameStep s c).2.Inv ∧ Balanced (frameStep s c).2 :=
    fun s c h hc => frameStep_balanced h.1 h.2 hc
  have hrun := exec_inv hstep calls _
    ⟨physmemInit_inv kernelStart kernelEnd mbi, physmemInit_balanced kernelStart kernelEnd hends⟩ hcalls
  exact ⟨hrun.2.counted, hrun.2.idle⟩

/-- A reservation, two overlapping releases of it and an unref of a frame that is not allocated. -/
theorem frame_accounting_double_free :
    let t := (exec frameStep (physmemInit 0x100000 0x180000 (some (oneEntry 0x400000)))
      [.reserveRegion 0x200001 0x3000, .call (.freeFrame 0x201000), .call (.freeFrame 0x201000),
        .call (.freeRegion 0x200000 0x5000), .call (.unrefFrame 0x300000)]).2
    t.freeFrames = (freeSet t).card ∧ ∀ f, t.marked f = false → t.refcount f = 0 := by
  refine frame_accounting 0x100000 0x180000 (some (oneEntry 0x400000)) ?_ _
    ⟨trivial, trivial, trivial, trivial, trivial, trivial⟩
  rintro m hm - e he -
  rw [← Option.some.inj hm] at he
  simp only [oneEntry, List.mem_singleton] at he
  subst he
  decide

end Lyth.Physmem
