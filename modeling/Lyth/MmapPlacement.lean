/-
  WHERE A REGION IS PLACED (`mmap_anonymous`).

    1. THE PROGRAM rounds the length up to pages and scans down from the top of the arena, a page at a time, for a
       place that meets no used region.
    2. THE SPECIFICATION: `Placed` says what the region recorded for an answered base is; `Room` says that the table
       has a free entry and the arena a gap.
    3. THE CRUX is the mask: it is an `unsigned int`, so that the rounded length is one of 32 bits
       (`alignUpPage_toNat`).  A length near `2 ^ 32` or above it is cut, and the region recorded is shorter than
       the one asked for (`long_mapping_cut`).  The regions have no byte in common all the same.
-/
import Lyth.Mmap
import Lyth.Paging

namespace Lyth.Mmap

open Run Word Paging

/-! ## Specification -/

/-- The first byte behind the region. -/
def Region.stop (r : Region) : Nat := r.base.toNat + r.length.toNat

/-- Two regions with no byte in common. -/
def Apart (r q : Region) : Prop := r.stop ≤ q.base.toNat ∨ q.stop ≤ r.base.toNat

/-- An arena as `task_mmap` passes it. -/
structure Arena (top low : UInt64) : Prop where
  topPage : top.toNat % 4096 = 0
  lowPage : low.toNat % 4096 = 0
  lt : low < top
  bottom : userBase ≤ low.toNat
  window : top.toNat ≤ userBase + userSize

/-- The region recorded for the base that `mmap_anonymous` answers is a good one. -/
def Placed (regions : List Region) (top low length : UInt64) : Prop :=
  ∀ base after, mmapAnonymous regions top low length = (base, after) → base ≠ 0 →
    ∃ (slot : Nat) (r : Region), after[slot]? = some r ∧ r.used ∧ r.base = base ∧ r.base.toNat % 4096 = 0 ∧
      r.length.toNat % 4096 = 0 ∧ low ≤ r.base ∧ r.stop ≤ top.toNat ∧ length ≤ r.length ∧
      ∀ (j : Nat) q, j ≠ slot → after[j]? = some q → q.used → Apart r q

/-- `n` bytes at the address are in the arena and meet no used region. -/
structure Gap (regions : List Region) (top low : UInt64) (n base : Nat) : Prop where
  page : base % 4096 = 0
  low : low.toNat ≤ base
  top : base + n ≤ top.toNat
  free : ∀ r ∈ regions, r.used → r.stop ≤ base ∨ base + n ≤ r.base.toNat

/-- A region of `n` bytes can be recorded. -/
def Room (regions : List Region) (top low : UInt64) (n : Nat) : Prop :=
  0 < n ∧ (∃ r ∈ regions, r.used = false) ∧ ∃ base, Gap regions top low n base

/-- The calls of a task on its table. -/
inductive Call where
  | map (top low length : UInt64)
  | unmap (addr length : UInt64)

def step (regions : List Region) : Call → Int × List Region
  | .map top low length =>
    ((mmapAnonymous regions top low length).1.toNat, (mmapAnonymous regions top low length).2)
  | .unmap addr length => mmapUnmap regions addr length

/-- The calls pass arenas of the window. -/
def Legal (_ : List Region) : Call → Prop
  | .map top low _ => Arena top low
  | .unmap _ _ => True

/-- The used regions are in the window and have no byte in common. -/
structure Sound (regions : List Region) : Prop where
  window : ∀ r ∈ regions, r.used → r.stop ≤ userBase + userSize
  apart : ∀ (i j : Nat) r q, i ≠ j → regions[i]? = some r → regions[j]? = some q →
    r.used → q.used → Apart r q

/-! ## The arithmetic -/

theorem window_stop : userBase + userSize = 0x01400000 ∧ userBase = 0x01000000 := ⟨rfl, rfl⟩

/-- The mask keeps the pages of the low 32 bits. -/
theorem and_pageMask (v : UInt64) : (v &&& pageMask).toNat = u32 v.toNat / 4096 * 4096 := by
  have hmask : pageMask.toNat = not32 (2 ^ 12 - 1) := rfl
  have hlow : v.toNat &&& not32 (2 ^ 12 - 1) = u32 v.toNat &&& not32 (2 ^ 12 - 1) := by
    have hlt : v.toNat &&& not32 (2 ^ 12 - 1) < 2 ^ 32 := lt_of_le_of_lt Nat.and_le_right (by decide)
    rw [← Nat.mod_eq_of_lt hlt, Nat.and_mod_two_pow]
    rfl
  rw [UInt64.toNat_and, hmask, hlow]
  exact and_mask_eq (by decide) (u32_lt _)

/-- **The rounded length is one of 32 bits.** -/
theorem alignUpPage_toNat (v : UInt64) : (alignUpPage v).toNat = u32 (v.toNat + 4095) / 4096 * 4096 := by
  have hsum : u32 (v + pageSize - 1).toNat = u32 (v.toNat + 4095) := by
    have hps : pageSize.toNat = 4096 := rfl
    have hone : (1 : UInt64).toNat = 1 := rfl
    rw [UInt64.toNat_sub, UInt64.toNat_add, hps, hone, u32, u32]
    omega
  rw [alignUpPage, and_pageMask, hsum]

theorem toNat_add_window {a b : UInt64} (h : a.toNat + b.toNat ≤ userBase + userSize) :
    (a + b).toNat = a.toNat + b.toNat := by
  rw [UInt64.toNat_add, Nat.mod_eq_of_lt]
  rw [window_stop.1] at h
  omega

/-! ## The scan -/

section

variable {regions : List Region} {top low len : UInt64}

theorem overlapsAny_eq_false (hs : Sound regions) {base : UInt64}
    (hbase : base.toNat + len.toNat ≤ userBase + userSize) :
    overlapsAny regions base len = false ↔
      ∀ r ∈ regions, r.used → r.stop ≤ base.toNat ∨ base.toNat + len.toNat ≤ r.base.toNat := by
  rw [overlapsAny, List.any_eq_false]
  refine forall₂_congr fun r hr => ?_
  simp only [Region.overlaps, Bool.and_eq_true, decide_eq_true_eq, UInt64.lt_iff_toNat_lt, not_and, not_lt]
  constructor
  · intro h hused
    rw [toNat_add_window (hs.window r hr hused), toNat_add_window hbase] at h
    by_cases hlt : base.toNat < r.stop
    · exact .inr (h ⟨hused, hlt⟩)
    · exact .inl (by omega)
  · rintro h ⟨hused, hlt⟩
    rw [toNat_add_window (hs.window r hr hused)] at hlt
    rw [toNat_add_window hbase]
    exact (h hused).resolve_left (Nat.not_le.mpr hlt)

/-- **The scan finds a gap if there is one** at or below the candidate. -/
theorem scanDown_spec (harena : Arena top low) (hs : Sound regions) (fuel : Nat) (candidate : UInt64)
    (hfuel : candidate.toNat / 4096 < fuel) (hpage : candidate.toNat % 4096 = 0)
    (htop : candidate.toNat + len.toNat ≤ top.toNat) :
    match scanDown regions low len fuel candidate with
    | some base => Gap regions top low len.toNat base.toNat
    | none => ∀ base ≤ candidate.toNat, ¬Gap regions top low len.toNat base := by
  induction fuel generalizing candidate with
  | zero => omega
  | succ fuel ih =>
    have hover := overlapsAny_eq_false hs (htop.trans harena.window)
    rw [scanDown]
    by_cases hlow : candidate < low
    · rw [if_pos hlow]
      intro base hle h
      have hlt := UInt64.lt_iff_toNat_lt.mp hlow
      have hge := h.low
      omega
    rw [if_neg hlow]
    have hge : low.toNat ≤ candidate.toNat := by
      rw [UInt64.lt_iff_toNat_lt] at hlow
      omega
    by_cases hfree : overlapsAny regions candidate len = false
    · rw [if_pos (by rw [hfree]; rfl)]
      exact ⟨hpage, hge, htop, hover.mp hfree⟩
    rw [if_neg (by simpa using hfree)]
    -- the arena begins above the first page
    have hps : pageSize.toNat = 4096 := rfl
    have hbig : 4096 ≤ candidate.toNat := by
      have h1 := harena.bottom
      have h2 := window_stop.2
      omega
    rw [if_neg (by rw [UInt64.lt_iff_toNat_lt, hps]; omega)]
    have hnext : (candidate - pageSize).toNat = candidate.toNat - 4096 :=
      UInt64.toNat_sub_of_le _ _ (UInt64.le_iff_toNat_le.mpr hbig)
    have hrest := ih (candidate - pageSize) (by omega) (by omega) (by omega)
    cases hscan : scanDown regions low len fuel (candidate - pageSize) with
    | some base =>
      rwa [hscan] at hrest
    | none =>
      rw [hscan] at hrest
      intro base hle h
      by_cases heq : base = candidate.toNat
      · rw [heq] at h
        exact hfree (hover.mpr h.free)
      · have hbase := h.page
        exact hrest base (by omega) h

/-- **What `mmap_anonymous` does**: it records a region in a gap if there is room for one, and nothing otherwise. -/
theorem mmapAnonymous_cases (harena : Arena top low) (hs : Sound regions) (length : UInt64) :
    (∃ (slot : Nat) (base : UInt64) (old : Region), mmapAnonymous regions top low length
          = (base, regions.set slot { base, length := alignUpPage length, used := true }) ∧
        regions[slot]? = some old ∧ old.used = false ∧
        Gap regions top low (alignUpPage length).toNat base.toNat ∧ 0 < (alignUpPage length).toNat) ∨
      (mmapAnonymous regions top low length = (0, regions) ∧
        ¬Room regions top low (alignUpPage length).toNat) := by
  have harith := alignUpPage_toNat length
  unfold mmapAnonymous
  by_cases hzero : length = 0
  · rw [if_pos hzero, hzero]
    exact .inr ⟨rfl, fun h => absurd h.1 (by decide)⟩
  rw [if_neg hzero]
  have hspan : (top - low).toNat = top.toNat - low.toNat :=
    UInt64.toNat_sub_of_le _ _ (UInt64.le_of_lt harena.lt)
  by_cases hfit : alignUpPage length = 0 ∨ top - low < alignUpPage length
  · rw [if_pos hfit]
    refine .inr ⟨rfl, fun ⟨hpos, _, base, hgap⟩ => ?_⟩
    rcases hfit with h | h
    · rw [h] at hpos
      cases hpos
    · have hlt := UInt64.lt_iff_toNat_lt.mp h
      have h1 := hgap.low
      have h2 := hgap.top
      omega
  rw [if_neg hfit]
  obtain ⟨hne, hlt⟩ := not_or.mp hfit
  rw [UInt64.lt_iff_toNat_lt, hspan] at hlt
  have hpos : 0 < (alignUpPage length).toNat := Nat.pos_of_ne_zero fun h => hne (UInt64.toNat_inj.mp h)
  cases hslot : regions.findIdx? (fun r => !r.used) with
  | none =>
    refine .inr ⟨rfl, fun ⟨_, ⟨r, hr, hunused⟩, _⟩ => ?_⟩
    have := List.findIdx?_eq_none_iff.mp hslot r hr
    rw [hunused] at this
    cases this
  | some slot =>
    obtain ⟨hbound, hunused, -⟩ := List.findIdx?_eq_some_iff_getElem.mp hslot
    -- the scan begins at the highest place
    have hstart : (alignDownPage (top - alignUpPage length)).toNat = top.toNat - (alignUpPage length).toNat := by
      have hsub : (top - alignUpPage length).toNat = top.toNat - (alignUpPage length).toNat :=
        UInt64.toNat_sub_of_le _ _ (UInt64.le_iff_toNat_le.mpr (by omega))
      have h1 := harena.topPage
      have h2 := harena.window
      rw [window_stop.1] at h2
      rw [alignDownPage, and_pageMask, hsub, u32_of_lt (by omega)]
      omega
    have htop := harena.topPage
    have hps : pageSize.toNat = 4096 := rfl
    have hscan := @scanDown_spec regions top low (alignUpPage length) harena hs (top.toNat / pageSize.toNat + 1)
      (alignDownPage (top - alignUpPage length)) (by rw [hps]; omega) (by omega) (by omega)
    cases hfound : scanDown regions low (alignUpPage length) (top.toNat / pageSize.toNat + 1)
        (alignDownPage (top - alignUpPage length)) with
    | none =>
      rw [hfound] at hscan
      refine .inr ⟨rfl, fun ⟨_, _, base, hgap⟩ => hscan base ?_ hgap⟩
      have := hgap.top
      omega
    | some base =>
      rw [hfound] at hscan
      exact .inl ⟨slot, base, regions[slot], rfl, List.getElem?_eq_getElem hbound, by simpa using hunused, hscan,
        hpos⟩

end

/-! ## The regions stay apart -/

section

variable {regions : List Region}

/-- Giving up regions keeps the rest as it is. -/
theorem Sound.mono {after : List Region} (hs : Sound regions)
    (h : ∀ (i : Nat) r, after[i]? = some r → r.used → regions[i]? = some r) : Sound after := by
  refine ⟨fun r hr hused => ?_, fun i j r q hij hr hq hr' hq' => ?_⟩
  · obtain ⟨i, hi⟩ := List.mem_iff_getElem?.mp hr
    exact hs.window r (List.mem_iff_getElem?.mpr ⟨i, h i r hi hused⟩) hused
  · exact hs.apart i j r q hij (h i r hr hr') (h j q hq hq') hr' hq'

/-- A used entry behind a store is the one stored or one of before. -/
theorem getElem?_set_cases {slot i : Nat} {new r : Region} (h : (regions.set slot new)[i]? = some r) :
    (i = slot ∧ r = new) ∨ (i ≠ slot ∧ regions[i]? = some r) := by
  rw [List.getElem?_set] at h
  by_cases heq : slot = i
  · rw [if_pos heq] at h
    split at h
    · cases h
      exact .inl ⟨heq.symm, rfl⟩
    · cases h
  · rw [if_neg heq] at h
    exact .inr ⟨Ne.symm heq, h⟩

/-- A region recorded in a gap is apart from the others. -/
theorem Gap.apart {top low len base : UInt64} (h : Gap regions top low len.toNat base.toNat) {j : Nat} {q : Region}
    (hq : regions[j]? = some q) (hused : q.used) : Apart { base, length := len, used := true } q :=
  (h.free q (List.mem_iff_getElem?.mpr ⟨j, hq⟩) hused).symm

theorem sound_step (regions : List Region) (c : Call) (hs : Sound regions) (hlegal : Legal regions c) :
    Sound (step regions c).2 := by
  cases c with
  | unmap addr length =>
    show Sound (mmapUnmap regions addr length).2
    unfold mmapUnmap
    by_cases haddr : addr = 0
    · rwa [if_pos haddr]
    rw [if_neg haddr]
    cases regions.findIdx? (fun r => r.matches addr (alignUpPage length)) with
    | none => exact hs
    | some i =>
      refine hs.mono fun j r hr hused => ?_
      rw [List.getElem?_modify] at hr
      cases hj : regions[j]? with
      | none =>
        rw [hj] at hr
        split at hr <;> cases hr
      | some q =>
        rw [hj] at hr
        split at hr
        · cases hr
          cases hused
        · exact hr
  | map top low length =>
    show Sound (mmapAnonymous regions top low length).2
    obtain ⟨slot, base, old, heq, -, -, hgap, -⟩ | ⟨heq, -⟩ := mmapAnonymous_cases hlegal hs length
    · rw [heq]
      refine ⟨fun r hr hused => ?_, fun i j r q hij hr hq hr' hq' => ?_⟩
      · rcases List.mem_or_eq_of_mem_set hr with h | h
        · exact hs.window r h hused
        · rw [h]
          exact hgap.top.trans (Arena.window hlegal)
      obtain ⟨hi, hnew⟩ | ⟨hi, hold⟩ := getElem?_set_cases hr
      · obtain ⟨hj, -⟩ | ⟨-, hold⟩ := getElem?_set_cases hq
        · exact absurd (hi.trans hj.symm) hij
        · rw [hnew]
          exact hgap.apart hold hq'
      · obtain ⟨-, hnew⟩ | ⟨-, hold'⟩ := getElem?_set_cases hq
        · rw [hnew]
          exact (hgap.apart hold hr').symm
        · exact hs.apart i j r q hij hold hold' hr' hq'
    · rwa [heq]

theorem sound_init : Sound mmapInitRegions := by
  have hunused : ∀ r ∈ mmapInitRegions, r.used → False := by decide
  exact ⟨fun r hr h => (hunused r hr h).elim,
    fun i _ r _ _ hr _ h _ => (hunused r (List.mem_iff_getElem?.mpr ⟨i, hr⟩) h).elim⟩

end

/-! ## The result -/

/-- The region recorded is a good one exactly if the length is not cut or there is no room for the cut one. -/
theorem placed_iff {regions : List Region} (hs : Sound regions) {top low : UInt64} (harena : Arena top low)
    (length : UInt64) : Placed regions top low length ↔
      length.toNat + 4095 < 2 ^ 32 ∨ ¬Room regions top low (alignUpPage length).toNat := by
  have hlen := alignUpPage_toNat length
  obtain ⟨slot, base, old, heq, hold, hunused, hgap, hpos⟩ | ⟨heq, hroom⟩ := mmapAnonymous_cases harena hs length
  · have hne : base ≠ 0 := by
      rintro rfl
      have h1 := hgap.low
      have h2 := harena.bottom
      exact absurd (h2.trans h1) (by decide)
    have hroom : Room regions top low (alignUpPage length).toNat :=
      ⟨hpos, ⟨old, List.mem_iff_getElem?.mpr ⟨slot, hold⟩, hunused⟩, base.toNat, hgap⟩
    constructor
    · intro h
      obtain ⟨slot', r, hr, hused, hbase, -, -, -, -, hlong, hapart⟩ := h _ _ heq hne
      rcases getElem?_set_cases hr with ⟨-, hnew⟩ | ⟨hother, hr⟩
      · rw [hnew, UInt64.le_iff_toNat_le] at hlong
        dsimp only at hlong
        rw [u32] at hlen
        omega
      -- another region with the base would have to be apart from the new one
      have h := hapart slot _ (Ne.symm hother) (List.getElem?_set_self (List.getElem?_eq_some_iff.mp hold).1) rfl
      have hlong' := UInt64.le_iff_toNat_le.mp hlong
      unfold Apart Region.stop at h
      rw [hbase] at h
      dsimp only at h
      omega
    · intro h base' after heq' _
      obtain ⟨rfl, rfl⟩ := Prod.mk.inj (heq.symm.trans heq')
      have hshort := h.resolve_right (not_not.mpr hroom)
      rw [u32_of_lt hshort] at hlen
      refine ⟨slot, _, List.getElem?_set_self (List.getElem?_eq_some_iff.mp hold).1, rfl, rfl, hgap.page, ?_,
        UInt64.le_iff_toNat_le.mpr hgap.low, hgap.top, UInt64.le_iff_toNat_le.mpr ?_, fun j q hj hq hused => ?_⟩
      · dsimp only
        omega
      · dsimp only
        omega
      · obtain ⟨h, -⟩ | ⟨-, hq⟩ := getElem?_set_cases hq
        · exact absurd h hj
        · exact hgap.apart hq hused
  · refine ⟨fun _ => .inr hroom, fun _ base after h hne => ?_⟩
    rw [heq] at h
    exact absurd (Prod.mk.inj h).1.symm hne

/-- **Regions are apart after every run, and a length that is not cut is placed.** -/
theorem mmap_placement (calls : List Call) (hcalls : Guarded step Legal mmapInitRegions calls)
    {regions : List Region} (hregions : (exec step mmapInitRegions calls).2 = regions) :
    (∀ (i j : Nat) r q, i ≠ j → regions[i]? = some r → regions[j]? = some q →
        r.used = true → q.used = true → Apart r q) ∧
      ∀ top low length, Arena top low → (Placed regions top low length ↔
        length.toNat + 4095 < 2 ^ 32 ∨ ¬Room regions top low (alignUpPage length).toNat) := by
  have hs := exec_inv sound_step calls mmapInitRegions sound_init hcalls
  rw [hregions] at hs
  exact ⟨hs.apart, fun top low length harena => placed_iff hs harena length⟩

theorem arena_heap : Arena 0x013EE000 0x01200000 :=
  ⟨by decide, by decide, by decide, by decide, by decide⟩

/-- Three mappings, of which the second is unmapped: a gap of one page stays between the other two. -/
def gapRun : List Call :=
  [.map 0x013EE000 0x01200000 5000, .map 0x013EE000 0x01200000 4096, .map 0x013EE000 0x01200000 12288,
    .unmap 0x013EB000 0]

/-- The two regions are apart, and a mapping of two pages does not go into the gap. -/
theorem mmap_placement_gap :
    Apart ⟨0x013EC000, 8192, true⟩ ⟨0x013E8000, 12288, true⟩ ∧
      Placed (exec step mmapInitRegions gapRun).2 0x013EE000 0x01200000 8192 ∧
      (mmapAnonymous (exec step mmapInitRegions gapRun).2 0x013EE000 0x01200000 8192).1 = 0x013E6000 := by
  obtain ⟨hapart, hplaced⟩ :=
    mmap_placement gapRun ⟨arena_heap, arena_heap, arena_heap, trivial, trivial⟩ rfl
  refine ⟨hapart 0 2 _ _ (by decide) ?_ ?_ rfl rfl, (hplaced _ _ 8192 arena_heap).mpr (.inl (by decide)), ?_⟩ <;>
    decide +kernel

/-- **A long mapping is cut**: `2 ^ 32 + 4096` bytes are answered with a base, and the region has one page. -/
theorem long_mapping_cut : mmapAnonymous mmapInitRegions 0x013EE000 0x01200000 0x100001000
        = (0x013ED000, mmapInitRegions.set 0 { base := 0x013ED000, length := 4096, used := true }) ∧
      ¬Placed mmapInitRegions 0x013EE000 0x01200000 0x100001000 := by
  have heq : mmapAnonymous mmapInitRegions 0x013EE000 0x01200000 0x100001000
      = (0x013ED000, mmapInitRegions.set 0 { base := 0x013ED000, length := 4096, used := true }) := by
    decide +kernel
  refine ⟨heq, fun h => ?_⟩
  obtain ⟨slot, r, hr, hused, -, -, -, -, -, hlong, -⟩ := h _ _ heq (by decide)
  have hall : ∀ q ∈ mmapInitRegions.set 0 { base := 0x013ED000, length := 4096, used := true },
      ¬0x100001000 ≤ q.length := by decide
  exact hall r (List.mem_iff_getElem?.mpr ⟨slot, hr⟩) hlong

end Lyth.Mmap
