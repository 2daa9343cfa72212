/-
  A COPY-ON-WRITE CLONE THAT FAILS (`paging_cow_clone_user_directory`).

  1. **Program** — the clone takes three frames for the upper tables, and then, table by table, one
     frame for the child's page table, after which it marks the pages of the parent's table
     copy-on-write and counts a reference for each.  Any of these allocations may fail.

  2. **Specification** — a clone that returns 0 leaves the parent's entries, the counts and the set of
     free frames as they were (`Unchanged`).

  3. **The crux** — the cleanup gives back every frame that was taken (`Grows.giveBack`), but nothing
     undoes the entries and the counts.  So all depends on WHERE the allocation fails: before the first
     page table is done nothing of the parent has been touched; at the second page table
     (`Stuck`: exactly four frames free) the first one has been shared.
-/
import Lyth.Directory
import Lyth.FrameAccounting

namespace Lyth.Directory

open Loop Run Paging
open Physmem (physmemAllocFrame physmemFreeFrame frameAddr lowFrames SameFrame freeSet Idle frameAddr_div)

/-! ## Frames taken and given back -/

variable {f parentPd newPd ti pml4 pdpt pd p : Nat} {l : List Nat} {inc : Nat → Nat}

section

variable {fr fr' : Physmem.State} {as : List Nat}

/-- A forced release clears the count. -/
theorem freeFrame_refcount (hlow : lowFrames ≤ f) :
    (physmemFreeFrame fr (frameAddr f)).refcount f = 0 := by
  unfold physmemFreeFrame
  rw [if_neg (by simp [Physmem.frameAddr_ne_zero hlow, Physmem.frameAddr_mod]), frameAddr_div,
    if_neg (by omega), Physmem.markFrame_refcount, Physmem.setRefcount_refcount, if_pos rfl]

/-- Frames released one after the other: each is free with count 0; the others are as before, and so are
    those of the low megabyte. -/
theorem freeFrames_frame : ∀ (l : List Nat) (fr : Physmem.State), fr.Inv →
    (l.foldl physmemFreeFrame fr).totalFrames = fr.totalFrames ∧ (l.foldl physmemFreeFrame fr).Inv ∧
    (∀ f, frameAddr f ∉ l ∨ f < lowFrames → SameFrame f fr (l.foldl physmemFreeFrame fr)) ∧
    ∀ f, frameAddr f ∈ l → lowFrames ≤ f → f < fr.totalFrames →
      (l.foldl physmemFreeFrame fr).marked f = false ∧ (l.foldl physmemFreeFrame fr).refcount f = 0 := by
  intro l
  induction l with
  | nil =>
    intro fr hfr
    exact ⟨rfl, hfr, fun _ _ => ⟨rfl, rfl⟩, fun f hf => (List.not_mem_nil hf).elim⟩
  | cons a l ih =>
    intro fr hfr
    have hone := freeFrame_returned hfr a
    obtain ⟨htotal, hinv, hkept, hfreed⟩ := ih (physmemFreeFrame fr a) hone.inv
    refine ⟨htotal.trans hone.total, hinv, fun f hf => ?_, fun f hf hlow hlt => ?_⟩
    · have hfirst : SameFrame f fr (physmemFreeFrame fr a) :=
        Physmem.freeFrame_other (hf.imp_left fun hnot heq => hnot (heq ▸ (.head _)))
      have hrest := hkept f (hf.imp_left fun hnot hin => hnot (List.mem_cons_of_mem a hin))
      exact ⟨hrest.1.trans hfirst.1, hrest.2.trans hfirst.2⟩
    · by_cases htail : frameAddr f ∈ l
      · exact hfreed f htail hlow (by rwa [hone.total])
      · have hhead : frameAddr f = a := (List.mem_cons.mp hf).resolve_right htail
        have hrest := hkept f (.inl htail)
        subst hhead
        exact ⟨hrest.1.trans (hone.freed f (List.mem_singleton.mpr rfl) hlow hlt),
          hrest.2.trans (freeFrame_refcount hlow)⟩

/-- **Giving back what was taken**: the bits are as before, and so are the counts but for the
    references counted meanwhile. -/
theorem Grows.giveBack (hfr : fr.Inv) (hidle : Idle fr) (hle : ∀ f, fr.refcount f ≤ 255)
    (h : Grows fr fr' as inc) (hinc : ∀ f, frameAddr f ∈ as → inc f = 0)
    (hl : ∀ a, a ∈ as ↔ a ∈ l ∧ a ≠ 0) :
    (l.foldl physmemFreeFrame fr').totalFrames = fr.totalFrames ∧
    ∀ f, (l.foldl physmemFreeFrame fr').marked f = fr.marked f ∧
      (l.foldl physmemFreeFrame fr').refcount f = min 255 (fr.refcount f + inc f) := by
  obtain ⟨htotal, _, hkept, hfreed⟩ := freeFrames_frame l fr' h.inv
  refine ⟨htotal.trans h.total, fun f => ?_⟩
  by_cases hf : frameAddr f ∈ as
  · -- a frame that was taken: it was free, so its count was 0
    obtain ⟨g, hg, ⟨hfree, hlt⟩, _⟩ := h.taken _ hf
    rw [← frameAddr_inj hg] at hfree hlt
    obtain ⟨hmarked, hcount⟩ := hfreed f ((hl _).mp hf).1 (hfr.le_of_free hlt hfree)
      (by rwa [h.total])
    rw [hmarked, hcount, hfree, hidle f hfree, hinc f hf]
    exact ⟨rfl, rfl⟩
  · -- only address 0 is released without having been taken, and that does nothing
    have hother : frameAddr f ∉ l ∨ f < lowFrames := by
      by_contra hnot
      obtain ⟨hmem, hlow⟩ := not_or.mp hnot
      exact hf ((hl _).mpr ⟨not_not.mp hmem, Physmem.frameAddr_ne_zero (Nat.le_of_not_lt hlow)⟩)
    have hsame := hkept f hother
    exact ⟨hsame.1.trans (h.marked f hf), hsame.2.trans (h.counted f hf (hle f))⟩

/-- The frames taken were free. -/
theorem Grows.hasFree (h : Grows fr fr' as inc) : HasFree fr as.length := by
  refine ⟨as.map (· / Physmem.physmemFrameSize), ?_, by rw [List.length_map], fun f hf => ?_⟩
  · refine List.Nodup.map_on (fun a ha b hb heq => ?_) h.nodup
    obtain ⟨f, rfl, _⟩ := h.taken a ha
    obtain ⟨g, rfl, _⟩ := h.taken b hb
    rw [frameAddr_div, frameAddr_div] at heq
    rw [heq]
  · obtain ⟨a, ha, rfl⟩ := List.mem_map.mp hf
    obtain ⟨g, rfl, ⟨hfree, hlt⟩, _⟩ := h.taken a ha
    rw [frameAddr_div]
    exact ⟨hlt, hfree⟩

end

/-- Frames asked for in a row: those that were had are the answers other than 0. -/
theorem allocFrames_taken (n : Nat) : ∀ s : State, s.frames.Inv →
    ∃ as, Grows s.frames (s.allocFrames n).2.frames as (fun _ => 0) ∧
      ∀ a, a ∈ as ↔ a ∈ (s.allocFrames n).1 ∧ a ≠ 0 := by
  induction n with
  | zero =>
    intro s hfr
    exact ⟨[], Grows.refl hfr, fun a => ⟨fun h => (List.not_mem_nil h).elim, fun h => h.1⟩⟩
  | succ n ih =>
    intro s hfr
    by_cases hzero : s.allocFrame.1 = 0
    · have hsame : s.allocFrame.2.frames = s.frames := allocFrame_zero hfr hzero
      obtain ⟨as, hgrows, hmem⟩ := ih s.allocFrame.2 (by rwa [hsame])
      rw [hsame] at hgrows
      refine ⟨as, hgrows, fun a => (hmem a).trans ?_⟩
      refine ⟨fun h => ⟨.tail _ h.1, h.2⟩, fun h => ⟨?_, h.2⟩⟩
      exact (List.mem_cons.mp h.1).resolve_left fun heq => h.2 (heq.trans hzero)
    · have hfirst := allocFrame_grows hfr hzero
      obtain ⟨as, hgrows, hmem⟩ := ih s.allocFrame.2 hfirst.inv
      refine ⟨_, hfirst.trans hgrows fun _ _ => rfl, fun a => ?_⟩
      constructor
      · intro h
        rcases List.mem_append.mp h with h | h
        · rw [List.mem_singleton.mp h]
          exact ⟨(.head _), hzero⟩
        · exact ⟨.tail _ ((hmem a).mp h).1, ((hmem a).mp h).2⟩
      · rintro ⟨h, hne⟩
        rcases List.mem_cons.mp h with h | h
        · exact List.mem_append_left _ (List.mem_singleton.mpr h)
        · exact List.mem_append_right _ ((hmem a).mpr ⟨h, hne⟩)

/-! ## The parent -/

/-- The tables that the clone reads of a directory: `entry_subtable` of its first entry, and so on. -/
def pdptOf (s : State) (parent : Nat) : Nat := (s.tables parent 0).phys

def pdOf (s : State) (parent : Nat) : Nat := (s.tables (pdptOf s parent) 0).phys

/-- The entry of its PD for page table `ti` of the window. -/
def pdeOf (s : State) (parent ti : Nat) : Pte := s.tables (pdOf s parent) (userPdStart + ti)

/-- The tables of the parent stand on frames in use, the page tables apart from the upper ones; and so do
    the pages.  Either page table may be missing. -/
structure Rooted (s : State) (parent : Nat) : Prop where
  upper : ∀ a ∈ [parent, pdptOf s parent, pdOf s parent], InUse s.frames a
  table : ∀ ti < userPdCount, isTable (pdeOf s parent ti) → InUse s.frames (pdeOf s parent ti).phys
  apart : ∀ ti < userPdCount, isTable (pdeOf s parent ti) → (pdeOf s parent ti).phys ≠ pdOf s parent
  page : ∀ ti < userPdCount, isTable (pdeOf s parent ti) → ∀ p < entriesPerTable,
    (s.tables (pdeOf s parent ti).phys p).present →
      InUse s.frames (s.tables (pdeOf s parent ti).phys p).phys

/-- The clone gets past its checks, to the first allocation. -/
structure Reached (s : State) (parent : Nat) : Prop where
  directory : parent ≠ 0
  kernel : s.kernelPml4 ≠ 0
  pdpt : (s.tables parent 0).present ∧ pdptOf s parent ≠ 0
  pd : (s.tables (pdptOf s parent) 0).present ∧ pdOf s parent ≠ 0

/-- The clone comes to the second page table with the first one done, and finds no frame: exactly four
    are free. -/
structure Stuck (s : State) (parent : Nat) : Prop where
  reached : Reached s parent
  table : ∀ ti < userPdCount, isTable (pdeOf s parent ti)
  four : HasFree s.frames 4
  last : ¬HasFree s.frames 5

/-- What a failed clone leaves: the bits as before, `inc f` more references to frame `f`, and the
    entries `entry` in the tables that stand on frames in use. -/
structure Leaves (s s' : State) (inc : Nat → Nat) (entry : Nat → Nat → Pte) : Prop where
  total : s'.frames.totalFrames = s.frames.totalFrames
  marked : ∀ f, s'.frames.marked f = s.frames.marked f
  counted : ∀ f, s'.frames.refcount f = min 255 (s.frames.refcount f + inc f)
  entries : ∀ t, InUse s.frames t → ∀ i, s'.tables t i = entry t i

/-- The references that sharing the first page table counts. -/
def firstShared (s : State) (parent f : Nat) : Nat :=
  (List.range entriesPerTable).countP fun p =>
    sharesFrame (s.tables (pdeOf s parent 0).phys p) (pageVa 0 p) f

/-- The entries after the first page table has been shared. -/
def firstEntries (s : State) (parent t i : Nat) : Pte :=
  if t = (pdeOf s parent 0).phys ∧ i < entriesPerTable then parentEntry (s.tables t i) (pageVa 0 i)
  else s.tables t i

/-- The frame allocator before the call: no free frame has references, and counts are bytes. -/
structure Books (fr : Physmem.State) : Prop where
  inv : fr.Inv
  idle : Idle fr
  byte : ∀ f, fr.refcount f ≤ 255

/-! ## Where the clone fails -/

variable {entry : Nat → Nat → Pte}

section

variable {s s₀ s₁ s₂ : State} {parent : Nat}

/-- A round fails exactly if there is a page table and no frame, and then it changes nothing. -/
theorem cloneTable_false_iff (hfr : s.frames.Inv) : cloneTable parentPd newPd ti s = (false, s₁) ↔
    isTable (s.tables parentPd (userPdStart + ti)) ∧ s.allocFrame.1 = 0 ∧ s = s₁ := by
  rw [cloneTable_eq]
  by_cases htable : isTable (s.tables parentPd (userPdStart + ti))
  · rw [if_pos htable]
    by_cases hzero : s.allocFrame.1 = 0
    · have hsame : s.allocFrame.2 = s := by
        show { s with frames := (physmemAllocFrame s.frames).2 } = s
        rw [allocFrame_zero hfr hzero]
      rw [if_pos hzero, hsame]
      exact ⟨fun h => ⟨htable, hzero, (Prod.mk.inj h).2⟩, fun h => by rw [h.2.2]⟩
    · rw [if_neg hzero]
      exact ⟨fun h => Bool.noConfusion (Prod.mk.inj h).1, fun h => absurd h.2.1 hzero⟩
  · rw [if_neg htable]
    exact ⟨fun h => Bool.noConfusion (Prod.mk.inj h).1, fun h => absurd h.1 htable⟩

/-- The checks as the code writes them. -/
theorem reached_iff : Reached s parent ↔ ¬(parent = 0 ∨ s.kernelPml4 = 0) ∧
    ¬(!(s.tables parent 0).present || decide ((s.tables parent 0).phys = 0)) = true ∧
    ¬(!(s.tables (s.tables parent 0).phys 0).present ||
      decide ((s.tables (s.tables parent 0).phys 0).phys = 0)) = true := by
  simp only [not_or, Bool.or_eq_true, Bool.not_eq_true', decide_eq_true_eq, Bool.not_eq_false]
  exact ⟨fun h => ⟨⟨h.directory, h.kernel⟩, h.pdpt, h.pd⟩, fun h => ⟨h.1.1, h.1.2, h.2.1, h.2.2⟩⟩

/-- A clone that does not get past its checks returns at once. -/
theorem cowClone_not_reached (h : ¬Reached s parent) : cowClone s parent = (0, s) := by
  unfold cowClone
  split
  · rfl
  rename_i h1
  dsimp only
  split
  · rfl
  rename_i h2
  split
  · rfl
  rename_i h3
  exact absurd (reached_iff.mpr ⟨h1, h2, h3⟩) h

/-- The allocations of a clone that gets past its checks. -/
theorem cowClone_reached (h : Reached s parent)
    (halloc : s.allocFrames 3 = ([pml4, pdpt, pd], s₀)) : cowClone s parent =
      if 0 ∈ [pml4, pdpt, pd] then (0, s₀.freeFrames [pml4, pdpt, pd])
      else
        match cloneTables (pdOf s parent) pd (List.range userPdCount)
            (linkClone s₀ parent (pdptOf s parent) (pdOf s parent) pml4 pdpt pd) with
        | (true, s) => (pml4, s)
        | (false, s) => (0, ((s.freeFrame pd).freeFrame pdpt).freeFrame pml4) := by
  obtain ⟨h1, h2, h3⟩ := reached_iff.mp h
  unfold cowClone
  rw [if_neg h1, if_neg h2]
  rw [if_neg h3, halloc]
  rfl

/-- `freeFrames` skips the answers 0, which a release does as well. -/
theorem freeFrames_same (l : List Nat) : ∀ s : State,
    (s.freeFrames l).frames = l.foldl physmemFreeFrame s.frames ∧ (s.freeFrames l).tables = s.tables := by
  induction l with
  | nil => exact fun s => ⟨rfl, rfl⟩
  | cons a l ih =>
    intro s
    have hstep : s.freeFrames (a :: l) = (if a ≠ 0 then s.freeFrame a else s).freeFrames l := rfl
    rw [hstep]
    by_cases ha : a = 0
    · rw [ha]
      exact ih s
    · rw [if_pos ha]
      exact ih (s.freeFrame a)

/-- **The cleanup**: when the frames that were taken are given back, only the references and the entries
    are left. -/
theorem leaves_of_giveBack (hbooks : Books s.frames) {s₃ : State} {as : List Nat}
    (hgrows : Grows s.frames s₂.frames as inc)
    (hinc : ∀ f, frameAddr f ∈ as → inc f = 0) (hl : ∀ a, a ∈ as ↔ a ∈ l ∧ a ≠ 0)
    (hentries : ∀ t, InUse s.frames t → ∀ i, s₂.tables t i = entry t i)
    (hframes : s₃.frames = l.foldl physmemFreeFrame s₂.frames) (htables : s₃.tables = s₂.tables) :
    Leaves s s₃ inc entry := by
  obtain ⟨htotal, hframe⟩ := hgrows.giveBack hbooks.inv hbooks.idle hbooks.byte hinc hl
  rw [← hframes] at htotal hframe
  refine ⟨htotal, fun f => (hframe f).1, fun f => (hframe f).2, fun t ht i => ?_⟩
  rw [htables]
  exact hentries t ht i

/-- **A failure before any page table is shared** leaves nothing. -/
theorem leaves_linked (hbooks : Books s.frames)
    (h : Linked s s₁ pml4 pdpt pd) (hframes : s₂.frames = s₁.frames)
    (htables : ∀ t i, t ≠ pd → s₂.tables t i = s₁.tables t i) :
    Leaves s (((s₂.freeFrame pd).freeFrame pdpt).freeFrame pml4) (fun _ => 0) s.tables := by
  have hgrows := h.frames
  rw [← hframes] at hgrows
  refine leaves_of_giveBack hbooks (l := [pd, pdpt, pml4]) hgrows (fun _ _ => rfl) (fun a => ?_)
    (fun t ht i => ?_) rfl rfl
  · have hne : a ∈ [pml4, pdpt, pd] → a ≠ 0 := fun ha => hgrows.taken_ne_zero hbooks.inv ha
    simp only [List.mem_cons] at hne ⊢
    tauto
  · have hnot : t ∉ [pml4, pdpt, pd] := fun hmem => hgrows.not_inUse hmem ht
    rw [htables t i fun heq => hnot (by simp [heq]), h.others t i hnot]

/-- The second page table finds no frame exactly if four were free. -/
theorem stuck_of_second (hreached : Reached s parent)
    (htable : ∀ ti < userPdCount, isTable (pdeOf s parent ti)) {as : List Nat}
    (hgrows : Grows s.frames s₂.frames as inc) (hlength : as.length = 4)
    (hzero : s₂.allocFrame.1 = 0) : Stuck s parent := by
  refine ⟨hreached, htable, ?_, fun hfive => ?_⟩
  · rw [← hlength]
    exact hgrows.hasFree
  · have hone : HasFree s₂.frames 1 := HasFree.grows (by rwa [hlength]) hgrows
    exact allocFrame_ne_zero hgrows.inv hone hzero

/-- Nothing is given back for a page table that was missing. -/
theorem freeClonedTable_zero {j : Nat} (h : s.tables newPd (userPdStart + j) = Pte.zero) :
    freeClonedTable newPd j s = s := by
  unfold freeClonedTable
  rw [h]
  rfl

/-- **A failure among the first three frames** leaves nothing. -/
theorem leaves_upper (hbooks : Books s.frames) {n : Nat}
    (halloc : s.allocFrames n = (l, s₀)) : Leaves s (s₀.freeFrames l) (fun _ => 0) s.tables := by
  obtain ⟨as, hgrows, hmem⟩ := allocFrames_taken n s hbooks.inv
  have htables := (allocFrames_same n s).2.1
  rw [halloc] at hgrows hmem htables
  obtain ⟨hframes, hsame⟩ := freeFrames_same l s₀
  refine leaves_of_giveBack hbooks hgrows (fun _ _ => rfl) hmem (fun t _ i => ?_) hframes hsame
  exact congrFun (congrFun htables t) i

section

variable (hroot : Rooted s parent)
include hroot

/-- After the first page table: four frames are taken, its pages are shared, and the child's PD has its
    copy. -/
theorem firstTable_shared
    (h : Linked s s₁ pml4 pdpt pd) (htable : isTable (pdeOf s parent 0))
    (hok : cloneTable (pdOf s parent) pd 0 s₁ = (true, s₂)) :
    ∃ childPt, Grows s.frames s₂.frames ([pml4, pdpt, pd] ++ [childPt]) (firstShared s parent) ∧
      s₂.tables pd (userPdStart + 0) = Pte.rw childPt ∧
      ∀ t, InUse s.frames t → ∀ i, s₂.tables t i = firstEntries s parent t i := by
  obtain ⟨childPt, hround, hlink, -⟩ := h.underway.cloneTable (by simp) (hroot.upper _ (by simp))
    ⟨htable, rfl⟩ (hroot.table 0 (by decide) htable) (fun _ => rfl) (hroot.page 0 (by decide) htable) hok
  refine ⟨childPt, hround.frames.congr fun f => (Nat.zero_add _).symm, hlink, fun t ht i => ?_⟩
  exact hround.others t i fun hmem => hround.frames.not_inUse hmem ht

/-- The second round sees the parent's PD as it was. -/
theorem firstEntries_pd (htable : isTable (pdeOf s parent 0)) (i : Nat) :
    firstEntries s parent (pdOf s parent) i = s.tables (pdOf s parent) i := by
  unfold firstEntries
  rw [if_neg fun h => hroot.apart 0 (by decide) htable h.1.symm]

/-- The frames taken by then were not referred to. -/
theorem firstShared_zero (htable : isTable (pdeOf s parent 0))
    (hf : ¬InUse s.frames (frameAddr f)) : firstShared s parent f = 0 :=
  tableShares_zero (hroot.page 0 (by decide) htable) 0 hf

/-- **A failure at the second page table** leaves the first one shared. -/
theorem leaves_second (hbooks : Books s.frames)
    (h : Linked s s₁ pml4 pdpt pd) (htable : isTable (pdeOf s parent 0))
    (hok : cloneTable (pdOf s parent) pd 0 s₁ = (true, s₂)) :
    Leaves s ((((freeClonedTable pd 0 s₂).freeFrame pd).freeFrame pdpt).freeFrame pml4) (firstShared s parent)
      (firstEntries s parent) := by
  obtain ⟨childPt, hgrows, hentry, hentries⟩ := firstTable_shared hroot h htable hok
  have hfree : freeClonedTable pd 0 s₂ = s₂.freeFrame childPt := by
    unfold freeClonedTable
    rw [hentry]
    rfl
  rw [hfree]
  refine leaves_of_giveBack hbooks (l := [childPt, pd, pdpt, pml4]) hgrows (fun f hf => ?_) (fun a => ?_)
    hentries rfl rfl
  · exact firstShared_zero hroot htable fun huse => hgrows.not_inUse hf huse
  · have hne : a ∈ [pml4, pdpt, pd] ++ [childPt] → a ≠ 0 := fun ha => hgrows.taken_ne_zero hbooks.inv ha
    simp only [List.cons_append, List.nil_append, List.mem_cons] at hne ⊢
    tauto

/-- **Stuck**: the clone returns 0, and the first page table stays shared. -/
theorem cowClone_stuck (hbooks : Books s.frames) (h : Stuck s parent) :
    (cowClone s parent).1 = 0 ∧
      Leaves s (cowClone s parent).2 (firstShared s parent) (firstEntries s parent) := by
  obtain ⟨pml4, pdpt, pd, s₀, halloc⟩ : ∃ pml4 pdpt pd s₀, s.allocFrames 3 = ([pml4, pdpt, pd], s₀) :=
    ⟨_, _, _, _, rfl⟩
  have hzero := allocFrames_ne_zero 3 1 s hbooks.inv h.four
  rw [halloc] at hzero
  have hlinked := linkClone_linked hbooks.inv hroot.upper halloc hzero
  rw [cowClone_reached h.reached halloc, if_neg hzero]
  generalize linkClone s₀ parent (pdptOf s parent) (pdOf s parent) pml4 pdpt pd = s₁ at *
  have htable := h.table 0 (by decide)
  have hpd := hroot.upper (pdOf s parent) (by simp)
  rcases cloneTables_cases (pdOf s parent) pd s₁ with ⟨_, hno, _⟩ | ⟨s₂, ok, s₃, hok, hsecond, heq⟩
  · -- the fourth frame is for the first page table
    obtain ⟨_, hnone, _⟩ := (cloneTable_false_iff hlinked.frames.inv).mp hno
    exact absurd hnone (allocFrame_ne_zero (k := 0) hlinked.frames.inv (HasFree.grows h.four hlinked.frames))
  obtain ⟨childPt, hgrows, _, hentries⟩ := firstTable_shared hroot hlinked htable hok
  -- and there is no fifth
  have hfail : cloneTable (pdOf s parent) pd 1 s₂ = (false, s₂) := by
    refine (cloneTable_false_iff hgrows.inv).mpr ⟨?_, ?_, rfl⟩
    · rw [hentries _ hpd, firstEntries_pd hroot htable]
      exact h.table 1 (by decide)
    · by_contra hsome
      exact h.last (hgrows.trans (allocFrame_grows hgrows.inv hsome) fun _ _ => rfl).hasFree
  cases hsecond.symm.trans hfail
  rw [heq]
  exact ⟨rfl, leaves_second hroot hbooks hlinked htable hok⟩

/-- If the page tables cannot be had and the clone is not stuck, no table but the child's PD has been
    written. -/
theorem cloneTables_not_stuck (hreached : Reached s parent)
    (h : ¬Stuck s parent) (hlinked : Linked s s₁ pml4 pdpt pd)
    (hall : cloneTables (pdOf s parent) pd (List.range userPdCount) s₁ = (false, s₂)) :
    s₂.frames = s₁.frames ∧ ∀ t i, t ≠ pd → s₂.tables t i = s₁.tables t i := by
  have hpd : InUse s.frames (pdOf s parent) := hroot.upper _ (by simp)
  have hpde : s₁.tables (pdOf s parent) (userPdStart + 0) = pdeOf s parent 0 :=
    hlinked.others _ _ fun hmem => hlinked.frames.not_inUse hmem hpd
  rcases cloneTables_cases (pdOf s parent) pd s₁ with ⟨_, hno, heq⟩ | ⟨s₃, ok, s₄, hok, hno, heq⟩
  · -- no frame for the first page table
    cases heq.symm.trans hall
    obtain ⟨_, _, rfl⟩ := (cloneTable_false_iff hlinked.frames.inv).mp hno
    exact ⟨rfl, fun _ _ _ => rfl⟩
  cases heq.symm.trans hall
  cases htable : isTable (pdeOf s parent 0) with
  | true =>
    -- the second one after the first: that is being stuck
    obtain ⟨childPt, hgrows, _, hentries⟩ := firstTable_shared hroot hlinked htable hok
    obtain ⟨hsecond, hnone, _⟩ := (cloneTable_false_iff hgrows.inv).mp hno
    rw [hentries _ hpd, firstEntries_pd hroot htable] at hsecond
    refine absurd (stuck_of_second hreached (fun ti hti => ?_) hgrows rfl hnone) h
    have hcases : ti = 0 ∨ ti = 1 := by
      simp only [userPdCount] at hti
      omega
    rcases hcases with rfl | rfl
    · exact htable
    · exact hsecond
  | false =>
    -- there is no first page table
    have hmissing : isTable (s₁.tables (pdOf s parent) (userPdStart + 0)) = false := by
      rwa [hpde]
    rw [cloneTable_eq, hmissing] at hok
    cases hok
    obtain ⟨_, _, rfl⟩ := (cloneTable_false_iff (s := s₁.setEntry ..) hlinked.frames.inv).mp hno
    rw [if_neg Bool.false_ne_true, freeClonedTable_zero (by rw [setEntry_tables, if_pos ⟨rfl, rfl⟩])]
    refine ⟨setEntry_frames .., fun t i ht => ?_⟩
    rw [setEntry_tables, if_neg fun e => ht e.1]

/-- **Not stuck**: a clone that returns 0 has left nothing. -/
theorem cowClone_not_stuck (hbooks : Books s.frames) (h : ¬Stuck s parent)
    (hfail : (cowClone s parent).1 = 0) : Leaves s (cowClone s parent).2 (fun _ => 0) s.tables := by
  by_cases hreached : Reached s parent
  swap
  · rw [cowClone_not_reached hreached]
    exact ⟨rfl, fun _ => rfl, fun f => (Nat.min_eq_right (hbooks.byte f)).symm, fun _ _ _ => rfl⟩
  obtain ⟨pml4, pdpt, pd, s₀, halloc⟩ : ∃ pml4 pdpt pd s₀, s.allocFrames 3 = ([pml4, pdpt, pd], s₀) :=
    ⟨_, _, _, _, rfl⟩
  rw [cowClone_reached hreached halloc] at hfail ⊢
  by_cases hzero : 0 ∈ [pml4, pdpt, pd]
  · rw [if_pos hzero]
    exact leaves_upper hbooks halloc
  rw [if_neg hzero] at hfail ⊢
  have hlinked := linkClone_linked hbooks.inv hroot.upper halloc hzero
  split at hfail
  · have hnull : pml4 = 0 := hfail
    exact absurd (by rw [hnull]; exact (.head _)) hzero
  · rename_i s₂ hall
    obtain ⟨hframes, htables⟩ := cloneTables_not_stuck hroot hreached h hlinked hall
    exact leaves_linked hbooks hlinked hframes htables

end

end

/-! ## The clone as a whole -/

/-- The parent's entries on every level, every count and the set of free frames are as before. -/
structure Unchanged (s s' : State) (parent : Nat) : Prop where
  upper : ∀ a ∈ [parent, pdptOf s parent, pdOf s parent], ∀ i, s'.tables a i = s.tables a i
  entries : ∀ ti < userPdCount, isTable (pdeOf s parent ti) → ∀ p < entriesPerTable,
    s'.tables (pdeOf s parent ti).phys p = s.tables (pdeOf s parent ti).phys p
  counts : ∀ f, s'.frames.refcount f = s.frames.refcount f
  free : freeSet s'.frames = freeSet s.frames

/-- Sharing page `p` of the first page table can be seen: its entry is not yet the shared one, or the
    count of its frame can still rise. -/
def Traced (s : State) (parent p : Nat) : Prop :=
  (s.tables (pdeOf s parent 0).phys p).present ∧
    (s.tables (pdeOf s parent 0).phys p ≠ Pte.shared (s.tables (pdeOf s parent 0).phys p).phys ∨
      s.frames.refcount ((s.tables (pdeOf s parent 0).phys p).phys / Physmem.physmemFrameSize) < 255)

section

variable {s s' : State} {parent : Nat}

/-- The shared-memory window lies in the second page table. -/
theorem inShm_first (hp : p < entriesPerTable) : inShm (pageVa 0 p) = false := by
  have hva : pageVa 0 p = 0x01000000 + p * 4096 := by
    rw [pageVa, Nat.zero_mul, Nat.zero_add]
    rfl
  have hshm : userShmBase = 0x013EE000 := rfl
  have hlast : p < 512 := by
    rwa [entriesPerTable] at hp
  have hbelow : ¬userShmBase ≤ pageVa 0 p := by
    omega
  unfold inShm
  rw [decide_eq_false hbelow]
  rfl

theorem shares_first (hp : p < entriesPerTable) (e : Pte) : shares e (pageVa 0 p) = e.present := by
  unfold shares
  rw [inShm_first hp]
  exact Bool.and_true _

/-- The same bits below the same bound are the same free frames. -/
theorem Leaves.free (h : Leaves s s' inc entry) :
    freeSet s'.frames = freeSet s.frames := by
  unfold freeSet
  rw [h.total, show s'.frames.marked = s.frames.marked from funext h.marked]

/-- What leaves no entry and no count changed. -/
theorem Leaves.unchanged (hroot : Rooted s parent) (h : Leaves s s' inc entry)
    (hinc : ∀ f, min 255 (s.frames.refcount f + inc f) = s.frames.refcount f)
    (hentry : ∀ t, InUse s.frames t → ∀ i, entry t i = s.tables t i) : Unchanged s s' parent := by
  refine ⟨fun a ha i => ?_, fun ti hti htable p _ => ?_, fun f => ?_, h.free⟩
  · have huse := hroot.upper a ha
    rw [h.entries a huse, hentry a huse]
  · have huse := hroot.table ti hti htable
    rw [h.entries _ huse, hentry _ huse]
  · rw [h.counted, hinc]

/-- Without a page whose sharing can be seen, sharing the first page table changes nothing. -/
theorem untraced_same (hbooks : Books s.frames) (h : ∀ p < entriesPerTable, ¬Traced s parent p) :
    (∀ f, min 255 (s.frames.refcount f + firstShared s parent f) = s.frames.refcount f) ∧
      ∀ t i, firstEntries s parent t i = s.tables t i := by
  refine ⟨fun f => ?_, fun t i => ?_⟩
  · have hbyte := hbooks.byte f
    by_cases hnone : firstShared s parent f = 0
    · omega
    -- some page of the table stands on the frame, so its count is at its bound
    obtain ⟨p, hp, hshares⟩ := List.countP_pos_iff.mp (Nat.pos_of_ne_zero hnone)
    obtain ⟨hshares, hphys⟩ := Bool.and_eq_true_iff.mp hshares
    have hpresent := (Bool.and_eq_true_iff.mp hshares).1
    have hfull : ¬s.frames.refcount f < 255 := by
      intro hlt
      refine h p (List.mem_range.mp hp) ⟨hpresent, .inr ?_⟩
      rwa [of_decide_eq_true hphys, frameAddr_div]
    omega
  · unfold firstEntries
    by_cases hfirst : t = (pdeOf s parent 0).phys ∧ i < entriesPerTable
    · rw [if_pos hfirst, parentEntry, shares_first hfirst.2]
      by_cases hpresent : (s.tables t i).present
      · rw [if_pos hpresent]
        by_contra hne
        refine h i hfirst.2 ⟨?_, .inl ?_⟩
        · rwa [← hfirst.1]
        · rw [← hfirst.1]
          exact Ne.symm hne
      · rw [if_neg hpresent]
    · rw [if_neg hfirst]

/-- A page whose sharing can be seen is seen. -/
theorem traced_changed (hroot : Rooted s parent) (htable : isTable (pdeOf s parent 0))
    (h : Leaves s s' (firstShared s parent) (firstEntries s parent)) (hp : p < entriesPerTable)
    (htraced : Traced s parent p) : ¬Unchanged s s' parent := by
  intro hsame
  obtain ⟨hpresent, hentry | hcount⟩ := htraced
  · have hafter := hsame.entries 0 (by decide) htable p hp
    rw [h.entries _ (hroot.table 0 (by decide) htable), firstEntries, if_pos ⟨rfl, hp⟩, parentEntry,
      shares_first hp, if_pos hpresent] at hafter
    exact hentry hafter.symm
  obtain ⟨f, hf, _⟩ := hroot.page 0 (by decide) htable p hp hpresent
  rw [hf, frameAddr_div] at hcount
  have hshared : 0 < firstShared s parent f := by
    refine List.countP_pos_iff.mpr ⟨p, List.mem_range.mpr hp, ?_⟩
    unfold sharesFrame
    rw [shares_first hp, hpresent, hf]
    simp
  have hafter := hsame.counts f
  rw [h.counted] at hafter
  omega

end

/-- **A failed clone, and when it has no effect.**  For any parent directory and any number of free
    frames: a clone that returns 0 leaves the parent's entries, the counts and the free frames as they
    were, unless it fails at the second page table with something of the first one shared. -/
theorem failed_clone_unchanged_iff (s : State) (parent : Nat) (hbooks : Books s.frames)
    (hroot : Rooted s parent) :
    ((cowClone s parent).1 = 0 → Unchanged s (cowClone s parent).2 parent) ↔
      ¬(Stuck s parent ∧ ∃ p < entriesPerTable, Traced s parent p) := by
  constructor
  · rintro h ⟨hstuck, p, hp, htraced⟩
    obtain ⟨hzero, hleaves⟩ := cowClone_stuck hroot hbooks hstuck
    exact traced_changed hroot (hstuck.table 0 (by decide)) hleaves hp htraced (h hzero)
  intro h hzero
  by_cases hstuck : Stuck s parent
  · obtain ⟨_, hleaves⟩ := cowClone_stuck hroot hbooks hstuck
    obtain ⟨hcounts, hentries⟩ := untraced_same hbooks fun p hp htraced => h ⟨hstuck, p, hp, htraced⟩
    exact hleaves.unchanged hroot hcounts fun t _ i => hentries t i
  · have hleaves := cowClone_not_stuck hroot hbooks hstuck hzero
    refine hleaves.unchanged hroot (fun f => ?_) fun _ _ _ => rfl
    have hbyte := hbooks.byte f
    omega

/-- A directory on the frames 256 to 260 with one writable page, on frame 261; `k` frames are free. -/
def onePage (k : Nat) : State :=
  { frames := { marked := fun f => decide (f < 262 ∨ 262 + k ≤ f),
                refcount := fun f => if f < 262 ∨ 262 + k ≤ f then 1 else 0,
                totalFrames := 512, freeFrames := k, highestAddress := 0x200000 },
    tables := fun t i =>
      if t = 0x100000 ∧ i = 0 then Pte.rw 0x101000
      else if t = 0x101000 ∧ i = 0 then Pte.rw 0x102000
      else if t = 0x102000 ∧ i = userPdStart then Pte.rw 0x103000
      else if t = 0x102000 ∧ i = userPdStart + 1 then Pte.rw 0x104000
      else if t = 0x103000 ∧ i = 0 then Pte.rw 0x105000
      else Pte.zero,
    bytes := fun _ _ => 0, kernelPml4 := 0x1000, kernelPdpt := 0x2000, kernelPd0 := 0x3000 }

section

variable (k : Nat)

theorem onePage_books : Books (onePage k).frames := by
  refine ⟨⟨by show 512 < 1048576; decide, fun f hlow _ => ?_⟩, fun f hfree => ?_, fun f => ?_⟩
  · have hlt : f < 262 := Nat.lt_trans hlow (by decide)
    exact decide_eq_true (.inl hlt)
  · exact if_neg (of_decide_eq_false hfree)
  · show (if f < 262 ∨ 262 + k ≤ f then 1 else 0) ≤ 255
    split <;> omega

theorem onePage_inUse (hlow : lowFrames ≤ f) (hf : f < 262) : InUse (onePage k).frames (frameAddr f) :=
  ⟨f, rfl, hlow, Nat.lt_trans hf (by show 262 < 512; decide), decide_eq_true (.inl hf)⟩

theorem onePage_pde (hti : ti < userPdCount) :
    pdeOf (onePage k) 0x100000 ti = Pte.rw (0x103000 + ti * 0x1000) := by
  have hcases : ti = 0 ∨ ti = 1 := by
    simp only [userPdCount] at hti
    omega
  rcases hcases with rfl | rfl <;> rfl

/-- The page tables hold the one page. -/
theorem onePage_leaf {t : Nat} (ht : 0x103000 ≤ t) (p : Nat) :
    (onePage k).tables t p = if t = 0x103000 ∧ p = 0 then Pte.rw 0x105000 else Pte.zero := by
  unfold onePage
  dsimp only
  rw [if_neg (by omega), if_neg (by omega), if_neg (by omega), if_neg (by omega)]

theorem onePage_rooted : Rooted (onePage k) 0x100000 := by
  refine ⟨fun a ha => ?_, fun ti hti _ => ?_, fun ti hti _ => ?_, fun ti hti _ p _ hpresent => ?_⟩
  · have hmem : a ∈ [frameAddr 256, frameAddr 257, frameAddr 258] := ha
    have hcases : a = frameAddr 256 ∨ a = frameAddr 257 ∨ a = frameAddr 258 := by
      simpa only [List.mem_cons, List.not_mem_nil, or_false] using hmem
    rcases hcases with rfl | rfl | rfl <;> exact onePage_inUse k (by decide) (by decide)
  · have hlt : ti < 2 := hti
    rw [onePage_pde k hti, show (Pte.rw (0x103000 + ti * 0x1000)).phys = frameAddr (259 + ti) by
      show 0x103000 + ti * 0x1000 = (259 + ti) * 4096; omega]
    exact onePage_inUse k (by show 256 ≤ 259 + ti; omega) (by omega)
  · rw [onePage_pde k hti]
    show 0x103000 + ti * 0x1000 ≠ 0x102000
    omega
  · have hlow : 0x103000 ≤ 0x103000 + ti * 0x1000 := Nat.le_add_right _ _
    rw [onePage_pde k hti, Pte.rw_phys, onePage_leaf k hlow] at hpresent ⊢
    split at hpresent
    · rename_i hpage
      rw [if_pos hpage]
      exact onePage_inUse k (f := 261) (by decide) (by decide)
    · cases hpresent

/-- No more than `k` frames are free. -/
theorem onePage_hasFree {n : Nat} (h : HasFree (onePage k).frames n) : n ≤ k := by
  obtain ⟨fs, hnodup, hlength, hfs⟩ := h
  have hsub : fs ⊆ List.range' 262 k := by
    intro f hf
    have hfree : ¬(f < 262 ∨ 262 + k ≤ f) := of_decide_eq_false (hfs f hf).2
    rw [List.mem_range'_1]
    omega
  have hle := (hnodup.subperm hsub).length_le
  rw [List.length_range'] at hle
  omega

/-- Four free frames: the clone has one for the first page table and none for the second. -/
theorem onePage_stuck : Stuck (onePage 4) 0x100000 := by
  refine ⟨⟨by decide, by decide, ⟨rfl, by decide⟩, ⟨rfl, by decide⟩⟩, fun ti hti => ?_, ?_, ?_⟩
  · rw [onePage_pde 4 hti]
    rfl
  · refine ⟨[262, 263, 264, 265], by decide, by decide, ?_⟩
    decide
  · intro hfive
    exact absurd (onePage_hasFree 4 hfive) (by decide)

end

/-- With two free frames the clone of this directory fails and leaves nothing. -/
theorem failed_clone_two_frames : (cowClone (onePage 2) 0x100000).1 = 0 ∧
    Unchanged (onePage 2) (cowClone (onePage 2) 0x100000).2 0x100000 := by
  have hzero : (cowClone (onePage 2) 0x100000).1 = 0 := by decide +kernel
  refine ⟨hzero, (failed_clone_unchanged_iff (onePage 2) 0x100000 (onePage_books 2)
    (onePage_rooted 2)).mpr ?_ hzero⟩
  rintro ⟨hstuck, _⟩
  exact absurd (onePage_hasFree 2 hstuck.four) (by decide)

/-- With four, it fails after the page has been made copy-on-write and counted twice. -/
theorem failed_clone_four_frames : (cowClone (onePage 4) 0x100000).1 = 0 ∧
    (cowClone (onePage 4) 0x100000).2.tables 0x103000 0 = Pte.shared 0x105000 ∧
    (onePage 4).tables 0x103000 0 = Pte.rw 0x105000 ∧
    (cowClone (onePage 4) 0x100000).2.frames.refcount 261 = 2 ∧ (onePage 4).frames.refcount 261 = 1 ∧
    ¬Unchanged (onePage 4) (cowClone (onePage 4) 0x100000).2 0x100000 := by
  obtain ⟨hzero, hleaves⟩ := cowClone_stuck (onePage_rooted 4) (onePage_books 4) onePage_stuck
  have hfirst : 0 < entriesPerTable := by
    unfold entriesPerTable
    decide
  have hchanged := traced_changed (onePage_rooted 4) (onePage_stuck.table 0 (by decide)) hleaves hfirst
    ⟨rfl, .inl (show Pte.rw 0x105000 ≠ Pte.shared 0x105000 by decide)⟩
  refine ⟨hzero, ?_, rfl, ?_, rfl, hchanged⟩
  · rw [hleaves.entries 0x103000 (onePage_inUse 4 (f := 259) (by decide) (by decide)), firstEntries,
      if_pos ⟨rfl, hfirst⟩, parentEntry, shares_first hfirst]
    rfl
  · rw [hleaves.counted]
    have hone : firstShared (onePage 4) 0x100000 261 = 1 := by decide +kernel
    rw [hone]
    rfl

end Lyth.Directory
