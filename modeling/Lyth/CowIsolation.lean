/-
  Copy-on-write directories as private memories.

  `Lyth.Directory` says what the code does to tables; `Lyth.Cow` knows why shared, counted frames stand
  for private memories.  This file connects them.

    1. Spaces.  `Spaces`: the tables of the directories are linked, stand on frames of their own, and user
       pages are mapped to frames that hold no table.  No frame of theirs, and none that is free, lies in the user
       window, where the kernel does not reach a frame at its address.  Under it a clone is a `Cow.Forks`, a fault a
       `Cow.Remaps`, a release a `Cow.Drops`.
    2. The abstract machine.  `Private`: a list of spaces, each with a memory of its own.
    3. Runs.  `cow_isolation`: after any calls, every mapped byte of every directory reads as in its
       private memory, and the counts are exact.  `window_page_copied_wrong`: with one page on a frame of the window,
       a fork and one write show the child bytes of another page.
-/
import Lyth.Directory

namespace Lyth.CowIsolation

open Loop Run Paging Directory Function
open Physmem (physmemAllocFrame physmemFreeFrame physmemRefFrame physmemUnrefFrame
  physmemFrameRefcount physmemFrameSize frameAddr lowFrames HandedOut SameFrame frameAddr_div)

/-! ## Directories as spaces -/

/-- The mapping an entry makes. -/
def Pte.mapping (e : Pte) : Option (Nat × Bool) := if e.present then some (e.phys, e.writable) else none

/-- The pages of a directory, as the code finds them. -/
def view (s : State) (pml4 : Nat) : Cow.View Nat := fun p =>
  Pte.mapping (s.tables (userPtFor s pml4 (pageVa 0 p)) (ptIdx (pageVa 0 p)))

/-- Directories as spaces that share frames. -/
def store (s : State) (spaces : List Nat) : Cow.Store Nat Nat (Fin pageSize → UInt8) :=
  { spaces
    view := view s
    rc := fun a => s.frames.refcount (a / physmemFrameSize)
    mem := s.bytes }

abbrev stores (s : State) (dirs : List Dir) := store s (dirs.map Dir.pml4)

/-- The frames that hold tables. -/
def tableFrames (dirs : List Dir) : List Nat := dirs.flatMap Dir.frames

/-- A present page of a directory: mapped to a frame in use that is `ok` and holds no table, for the user, and
    writable or copy-on-write. -/
structure PageOk (ok : Nat → Prop) (fr : Physmem.State) (dirs : List Dir) (e : Pte) : Prop where
  inUse : InUse fr e.phys
  placed : ok e.phys
  no_table : e.phys ∉ tableFrames dirs
  user : e.user
  cow : e.cow = !e.writable

/-- All free frames are `ok`. -/
def FreeOk (ok : Nat → Prop) (fr : Physmem.State) : Prop :=
  ∀ f < fr.totalFrames, fr.marked f = false → ok (frameAddr f)

/-- The directories `dirs` stand on frames of their own; those, and the frames they may get, are `ok`. -/
structure Spaces (ok : Nat → Prop) (s : State) (dirs : List Dir) : Prop where
  frames : s.frames.Inv
  free : FreeOk ok s.frames
  chain : ∀ D ∈ dirs, Chain s D
  nodup : (tableFrames dirs).Nodup
  inUse : ∀ a ∈ tableFrames dirs, InUse s.frames a
  placed : ∀ a ∈ tableFrames dirs, ok a
  pages : ∀ D ∈ dirs, ∀ p < userPages, (leaf s D p).present → PageOk ok s.frames dirs (leaf s D p)

/-- The frame at `a` lies outside the user window: the kernel reaches it at its address whatever directory is
    loaded. -/
def Outside (a : Nat) : Prop := inUser a = false

variable {ok : Nat → Prop} {a va k f pml4 d : Nat} {sys : State}

section

variable {fr fr' : Physmem.State} {as : List Nat} {inc : Nat → Nat} (hgrows : Grows fr fr' as inc)
include hgrows

/-- Frames taken were free. -/
theorem FreeOk.taken (h : FreeOk ok fr) (ha : a ∈ as) : ok a := by
  obtain ⟨f, rfl, ⟨hfree, hlt⟩, _⟩ := hgrows.taken a ha
  exact h f hlt hfree

theorem FreeOk.grows (h : FreeOk ok fr) : FreeOk ok fr' := by
  intro f hlt hfree
  by_cases hf : frameAddr f ∈ as
  · exact h.taken hgrows hf
  · exact h f (by rwa [← hgrows.total]) (by rwa [← hgrows.marked f hf])

/-- The counts stay below a bound if all references that are counted do. -/
theorem grows_below {n : Nat} (h : ∀ f, fr.refcount f + inc f < n) (hn : 1 < n ∧ n ≤ 255) (f : Nat) :
    fr'.refcount f < n := by
  have hf := h f
  by_cases hmem : frameAddr f ∈ as
  · obtain ⟨g, hg, _, _, hone⟩ := hgrows.taken _ hmem
    rw [frameAddr_inj hg, hone]
    exact hn.1
  · rw [hgrows.counted f hmem (by omega)]
    omega

end

section

variable {s s' : State} {dirs : List Dir} {D E : Dir} {p : Nat}

/-- A frame that is allocated was free. -/
theorem FreeOk.fresh (h : FreeOk ok s.frames) (hfr : s.frames.Inv) (hnew : s.allocFrame.1 ≠ 0) :
    ok s.allocFrame.1 := h.taken (allocFrame_grows hfr hnew) (List.mem_singleton_self _)

theorem mem_tableFrames (hD : D ∈ dirs) (ha : a ∈ D.frames) : a ∈ tableFrames dirs :=
  List.mem_flatMap.mpr ⟨D, hD, ha⟩

theorem view_eq (h : Chain s D) (hp : p < userPages) : view s D.pml4 p = Pte.mapping (leaf s D p) := by
  obtain ⟨hva, hpage⟩ := inUser_pageVa hp
  rw [view, h.entry hva, hpage]

variable {e : Pte}

theorem mapping_some {m : Nat × Bool} :
    Pte.mapping e = some m ↔ e.present ∧ m = (e.phys, e.writable) := by
  unfold Pte.mapping
  cases e.present <;> simp [eq_comm]

theorem view_present (h : Chain s D) (hp : p < userPages) (hpresent : (leaf s D p).present) :
    view s D.pml4 p = some ((leaf s D p).phys, (leaf s D p).writable) :=
  (view_eq h hp).trans (mapping_some.mpr ⟨hpresent, rfl⟩)

/-- A page maps a frame if it is present and stands on it. -/
theorem maps_view (h : Chain s D) (hp : p < userPages) (a : Nat) :
    Cow.maps (view s D.pml4) a p = ((leaf s D p).present && decide ((leaf s D p).phys = a)) := by
  rw [Cow.maps, view_eq h hp, Pte.mapping]
  cases (leaf s D p).present <;> simp

/-- A page that maps a frame is present and stands on it. -/
theorem leaf_of_maps (h : Chain s D) (hp : p < userPages) (hmaps : Cow.maps (view s D.pml4) a p) :
    (leaf s D p).present ∧ (leaf s D p).phys = a := by
  rw [maps_view h hp, Bool.and_eq_true] at hmaps
  exact ⟨hmaps.1, of_decide_eq_true hmaps.2⟩

section

variable (h : Spaces ok s dirs) (hD : D ∈ dirs)
include h hD

theorem Spaces.own : OwnFrames s D := by
  refine ⟨(List.nodup_flatMap.mp h.nodup).1 D hD, fun a ha => h.inUse a (mem_tableFrames hD ha), ?_⟩
  exact fun p hp hpresent => (h.pages D hD p hp hpresent).inUse

/-- Different directories have no frame in common. -/
theorem Spaces.disjoint (hE : E ∈ dirs) (hne : D ≠ E)
    (ha : a ∈ D.frames) : a ∉ E.frames := by
  intro hb
  have hpair := (List.nodup_flatMap.mp h.nodup).2
  have hsymm : Std.Symm (onFun List.Disjoint Dir.frames) := ⟨fun _ _ h => h.symm⟩
  exact hpair.forall hD hE hne ha hb

theorem Spaces.ne_pt (hE : E ∈ dirs) (hne : D ≠ E) (ha : a ∈ D.frames) (ti : Nat) :
    a ≠ E.pt ti := fun heq => h.disjoint hD hE hne ha (heq ▸ E.pt_mem ti)

/-- The directory of an address. -/
theorem Spaces.pml4_inj (hE : E ∈ dirs) (heq : D.pml4 = E.pml4) : D = E := by
  by_contra hne
  refine h.disjoint hD hE hne (.head _) ?_
  rw [heq]
  exact .head _

/-- The page tables of `D` are no other table of any directory. -/
theorem Spaces.not_pt (hE : E ∈ dirs) (ha : a ∈ [E.pml4, E.pdpt, E.pd]) (ti : Nat) :
    a ≠ D.pt ti := by
  by_cases hne : E = D
  · subst hne
    exact Dir.upper_ne_pt (h.own hE).nodup ha ti
  · exact h.ne_pt hE hD hne (List.mem_append_left [E.pt0, E.pt1] ha) ti

/-- A frame that a page maps is in use, `ok`, and holds no table. -/
theorem Spaces.maps (hp : p < userPages) (hmaps : Cow.maps (view s D.pml4) a p) :
    InUse s.frames a ∧ ok a ∧ a ∉ tableFrames dirs := by
  obtain ⟨hpresent, rfl⟩ := leaf_of_maps (h.chain D hD) hp hmaps
  have hpage := h.pages D hD p hp hpresent
  exact ⟨hpage.inUse, hpage.placed, hpage.no_table⟩

omit hD in
theorem Spaces.mapped (ha : Cow.Mapped userPages (stores s dirs) a) : InUse s.frames a := by
  obtain ⟨d, hd, p, hp, hmaps⟩ := ha.exists_page
  obtain ⟨D, hD, rfl⟩ := List.mem_map.mp hd
  exact (h.maps hD hp hmaps).1

end

/-- A chain stays if the upper tables do. -/
theorem chain_congr (h : Chain s D)
    (hsame : ∀ t ∈ [D.pml4, D.pdpt, D.pd], ∀ i, s'.tables t i = s.tables t i) : Chain s' D :=
  ⟨(hsame _ (by simp) 0).trans h.pml4, (hsame _ (by simp) 0).trans h.pdpt,
    fun ti hti => (hsame _ (by simp) _).trans (h.pd ti hti), h.ne_zero⟩

/-! ### A clone is a fork -/

/-- The frame of an address. -/
theorem frameAddr_of_inUse {fr : Physmem.State} (ha : InUse fr a) :
    frameAddr (a / physmemFrameSize) = a := by
  obtain ⟨f, rfl, _⟩ := ha
  rw [frameAddr_div]

section

variable {C : Dir} (h : Cloned s s' D C)
include h

/-- The child maps a frame as often as the parent shares it. -/
theorem countIn_child (f : Nat) :
    Cow.countIn userPages (view s' C.pml4) (frameAddr f) = sharedCount s D f := by
  refine List.countP_congr fun p hp => ?_
  have hp := List.mem_range.mp hp
  rw [maps_view h.chain hp, h.child p hp, childEntry, sharesFrame]
  by_cases hshares : shares (leaf s D p) (pageVa 0 p)
  · rw [hshares]
    rfl
  · rw [Bool.not_eq_true _ |>.mp hshares]
    rfl

variable (hs : Spaces ok s dirs)
include hs

/-- The new frames are none of the old directories' tables. -/
theorem cloned_fresh (ha : a ∈ tableFrames dirs) :
    a ∉ C.frames := fun hmem => h.frames.not_inUse hmem (hs.inUse a ha)

variable (hD : D ∈ dirs)
include hD

/-- The upper tables of the old directories stay. -/
theorem cloned_upper (hE : E ∈ dirs) :
    ∀ t ∈ [E.pml4, E.pdpt, E.pd], ∀ i, s'.tables t i = s.tables t i := by
  intro t ht i
  have hmem : t ∈ tableFrames dirs := mem_tableFrames hE (List.mem_append_left [E.pt0, E.pt1] ht)
  exact h.others t i (cloned_fresh h hs hmem) (hs.not_pt hD hE ht 0) (hs.not_pt hD hE ht 1)

/-- The pages of the other directories stay. -/
theorem cloned_leaf_other (hE : E ∈ dirs)
    (hne : E ≠ D) (p : Nat) : leaf s' E p = leaf s E p := by
  have hmem := E.pt_mem (p / entriesPerTable)
  exact h.others _ _ (cloned_fresh h hs (mem_tableFrames hE hmem)) (hs.ne_pt hE hD hne hmem 0)
    (hs.ne_pt hE hD hne hmem 1)

/-- **A clone keeps the directories apart.** -/
theorem cloned_spaces_inv :
    Spaces ok s' (C :: dirs) := by
  have htables : tableFrames (C :: dirs) = C.frames ++ tableFrames dirs := rfl
  -- a page that was fine stays fine: its frame is none of the new ones
  have hpage : ∀ {e e' : Pte}, PageOk ok s.frames dirs e → e'.phys = e.phys → e'.user →
      e'.cow = !e'.writable → PageOk ok s'.frames (C :: dirs) e' := by
    intro e e' he hphys huser hcow
    refine ⟨by rw [hphys]; exact h.frames.inUse he.inUse, by rw [hphys]; exact he.placed, ?_, huser, hcow⟩
    rw [hphys, htables, List.mem_append, not_or]
    exact ⟨fun hmem => h.frames.not_inUse hmem he.inUse, he.no_table⟩
  constructor
  · exact h.frames.inv
  · exact hs.free.grows h.frames
  · exact List.forall_mem_cons.mpr ⟨h.chain, fun E hE => chain_congr (hs.chain E hE) (cloned_upper h hs hD hE)⟩
  · refine List.nodup_append.mpr ⟨h.frames.nodup, hs.nodup, ?_⟩
    intro a ha b hb heq
    exact cloned_fresh h hs hb (heq ▸ ha)
  · exact List.forall_mem_append.mpr
      ⟨fun a ha => h.frames.taken_inUse hs.frames ha, fun a ha => h.frames.inUse (hs.inUse a ha)⟩
  · exact List.forall_mem_append.mpr ⟨fun a ha => hs.free.taken h.frames ha, hs.placed⟩
  intro E hE p hp hpresent
  rcases List.mem_cons.mp hE with rfl | hE
  · rw [h.child p hp, childEntry] at hpresent ⊢
    split at hpresent
    · rename_i hshares
      rw [if_pos hshares]
      have hold := (Bool.and_eq_true_iff.mp hshares).1
      exact hpage (hs.pages D hD p hp hold) rfl rfl rfl
    · cases hpresent
  · by_cases hne : E = D
    · subst hne
      rw [h.parent p hp, parentEntry] at hpresent ⊢
      split at hpresent
      · rename_i hshares
        rw [if_pos hshares]
        have hold := (Bool.and_eq_true_iff.mp hshares).1
        exact hpage (hs.pages E hE p hp hold) rfl rfl rfl
      · rename_i hkeeps
        rw [if_neg hkeeps]
        have hok := hs.pages E hE p hp hpresent
        exact hpage hok rfl hok.user hok.cow
    · rw [cloned_leaf_other h hs hD hE hne] at hpresent ⊢
      have hok := hs.pages E hE p hp hpresent
      exact hpage hok rfl hok.user hok.cow

/-- **A clone is a fork** of the space that shares all pages outside the shared-memory window. -/
theorem cloned_forks
    (hcounts : ∀ f, s.frames.refcount f < 255) (hcounts' : ∀ f, s'.frames.refcount f < 255) :
    Cow.Forks userPages (stores s dirs) (stores s' (C :: dirs)) D.pml4 C.pml4
      fun p => !inShm (pageVa 0 p) := by
  have hs' := cloned_spaces_inv h hs hD
  have hD' : D ∈ C :: dirs := .tail _ hD
  -- a shared entry in terms of the parent's mapping
  have hshared : ∀ e va, Pte.mapping (if shares e va then Pte.shared e.phys else Pte.zero)
      = if !inShm va then (Pte.mapping e).map fun m => (m.1, false) else none := by
    intro e va
    unfold shares Pte.mapping
    cases e.present <;> cases inShm va <;> rfl
  have hkept : ∀ e va, Pte.mapping (parentEntry e va)
      = if !inShm va then (Pte.mapping e).map fun m => (m.1, false) else Pte.mapping e := by
    intro e va
    unfold parentEntry shares Pte.mapping
    cases he : e.present <;> cases inShm va <;> simp [he]
  constructor
  · exact List.mem_map_of_mem hD
  · intro hmem
    obtain ⟨E, hE, heq⟩ := List.mem_map.mp hmem
    exact cloned_fresh h hs (mem_tableFrames hE (.head _)) (heq ▸ .head _)
  · rfl
  · intro p hp
    show view s' D.pml4 p = if !inShm (pageVa 0 p) then (view s D.pml4 p).map _ else view s D.pml4 p
    rw [view_eq (hs'.chain D hD') hp, view_eq (hs.chain D hD) hp, h.parent p hp, hkept]
  · intro p hp
    show view s' C.pml4 p = if !inShm (pageVa 0 p) then (view s D.pml4 p).map _ else none
    rw [view_eq h.chain hp, view_eq (hs.chain D hD) hp, h.child p hp, childEntry, hshared]
  · intro d hd hne p hp
    obtain ⟨E, hE, rfl⟩ := List.mem_map.mp hd
    have hED : E ≠ D := fun heq => hne (by rw [heq])
    show view s' E.pml4 p = view s E.pml4 p
    rw [view_eq (hs'.chain E (List.mem_cons_of_mem _ hE)) hp, view_eq (hs.chain E hE) hp,
      cloned_leaf_other h hs hD hE hED]
  · -- the counts stay below 255, so every reference is counted
    intro a ha
    have huse := hs.mapped ha
    have haddr := frameAddr_of_inUse huse
    have hnot : frameAddr (a / physmemFrameSize) ∉ C.frames := by
      rw [haddr]
      exact fun hmem => h.frames.not_inUse hmem huse
    have hcount := h.frames.counted _ hnot (Nat.le_of_lt (hcounts _))
    have hbelow := hcounts' (a / physmemFrameSize)
    have hchild := countIn_child h (a / physmemFrameSize)
    rw [haddr] at hchild
    show s'.frames.refcount _ = s.frames.refcount _ + Cow.countIn userPages (view s' C.pml4) a
    omega
  · intro a _
    exact congrFun h.bytes a

end

/-! ### A fault moves one page -/

section

variable (h : Spaces ok s dirs) (hD : D ∈ dirs)
include h hD

/-- One page changes, and no other one of any directory. -/
theorem Spaces.leaf_setLeaf (hE : E ∈ dirs) (hp : p < userPages)
    (e : Pte) {q : Nat} (hq : q < userPages) :
    leaf (setLeaf s D p e) E q = if E = D ∧ q = p then e else leaf s E q := by
  by_cases hED : E = D
  · subst hED
    rw [leaf_setLeaf (h.own hE).ne.2.2 hp e hq]
    by_cases hqp : q = p
    · rw [if_pos hqp, if_pos ⟨rfl, hqp⟩]
    · rw [if_neg hqp, if_neg fun hc => hqp hc.2]
  · have hpt := h.ne_pt hE hD hED (E.pt_mem (q / entriesPerTable)) (p / entriesPerTable)
    rw [if_neg fun hc => hED hc.1, leaf, setLeaf, setEntry_tables, if_neg fun hc => hpt hc.1]
    rfl

theorem Spaces.chain_setLeaf (hE : E ∈ dirs) (e : Pte) : Chain (setLeaf s D p e) E := by
  refine chain_congr (h.chain E hE) fun t ht i => ?_
  rw [setLeaf, setEntry_tables, if_neg fun heq => h.not_pt hD hE ht _ heq.1]

/-- A page may be set to any good page. -/
theorem Spaces.set (hp : p < userPages)
    (he : PageOk ok s.frames dirs e) : Spaces ok (setLeaf s D p e) dirs := by
  refine ⟨h.frames, h.free, fun E hE => h.chain_setLeaf hD hE e, h.nodup, h.inUse, h.placed,
    fun E hE q hq hpresent => ?_⟩
  rw [h.leaf_setLeaf hD hE hp e hq] at hpresent ⊢
  split at hpresent
  · rename_i hc
    rwa [if_pos hc]
  · rename_i hc
    rw [if_neg hc]
    exact h.pages E hE q hq hpresent

omit hD in
/-- The frame allocator may change as long as no frame in use is lost. -/
theorem Spaces.mono (htables : s'.tables = s.tables) (hfr : s'.frames.Inv) (hfree : FreeOk ok s'.frames)
    (huse : ∀ a, InUse s.frames a → InUse s'.frames a) : Spaces ok s' dirs := by
  refine ⟨hfr, hfree, fun D hD => chain_congr (h.chain D hD) fun t _ i => by rw [htables], h.nodup,
    fun a ha => huse a (h.inUse a ha), h.placed, fun D hD p hp hpresent => ?_⟩
  have hleaf : leaf s' D p = leaf s D p := by rw [leaf, leaf, htables]
  rw [hleaf] at hpresent ⊢
  have hok := h.pages D hD p hp hpresent
  exact ⟨huse _ hok.inUse, hok.placed, hok.no_table, hok.user, hok.cow⟩

/-- Setting a page to a present entry, as a step of the spaces. -/
theorem Spaces.remaps (hp : p < userPages)
    (hpresent : e.present) {t : State} (ht : t.tables = s.tables) :
    Cow.Remaps userPages (stores t dirs) (stores (setLeaf s D p e) dirs) D.pml4 p
      (e.phys, e.writable) := by
  have hview : ∀ E ∈ dirs, ∀ q < userPages, view t E.pml4 q = Pte.mapping (leaf s E q) := by
    intro E hE q hq
    have hchain : Chain t E := chain_congr (h.chain E hE) fun _ _ i => by rw [ht]
    rw [view_eq hchain hq, leaf, leaf, ht]
  have hview' : ∀ E ∈ dirs, ∀ q < userPages, view (setLeaf s D p e) E.pml4 q
      = Pte.mapping (if E = D ∧ q = p then e else leaf s E q) := by
    intro E hE q hq
    rw [view_eq (h.chain_setLeaf hD hE e) hq, h.leaf_setLeaf hD hE hp e hq]
  constructor
  · exact List.mem_map_of_mem hD
  · exact hp
  · rfl
  · show view (setLeaf s D p e) D.pml4 p = some (e.phys, e.writable)
    rw [hview' D hD p hp, if_pos ⟨rfl, rfl⟩]
    exact mapping_some.mpr ⟨hpresent, rfl⟩
  · intro q hq hne
    show view (setLeaf s D p e) D.pml4 q = view t D.pml4 q
    rw [hview' D hD q hq, hview D hD q hq, if_neg fun hc => hne hc.2]
  intro d hd hne q hq
  obtain ⟨E, hE, rfl⟩ := List.mem_map.mp hd
  show view (setLeaf s D p e) E.pml4 q = view t E.pml4 q
  rw [hview' E hE q hq, hview E hE q hq, if_neg fun hc => hne (by rw [hc.1])]

end

/-- The page of an address is that of its page's first byte. -/
theorem page_base (va : Nat) :
    inUser (va / pageSize * pageSize) = inUser va ∧ pageNo (va / pageSize * pageSize) = pageNo va := by
  simp only [inUser, pageNo, userBase, userSize, pageSize]
  refine ⟨?_, by omega⟩
  congr 1
  · exact decide_eq_decide.mpr (by omega)
  · exact decide_eq_decide.mpr (by omega)

/-- The state after the copy of frame `src` onto frame `dst`: a frame is taken, the copy made, and `old` given up. -/
def copied (s : State) (old dst src : Nat) : State :=
  ({ s.allocFrame.2 with bytes := update s.bytes dst (s.bytes src) } : State).unrefFrame old

/-- A frame outside the window is reached at its address. -/
theorem kernelFrame_outside (ha : Outside a) (s : State) (pml4 : Nat) (write : Bool) :
    kernelFrame s pml4 a write = some a := by
  rw [kernelFrame, ha]
  rfl

/-- In the window the kernel reads the page that is there. -/
theorem kernelFrame_page (h : Chain s D) (ha : inUser a) (hpresent : (leaf s D (pageNo a)).present) :
    kernelFrame s D.pml4 a false = some (leaf s D (pageNo a)).phys := by
  unfold kernelFrame
  dsimp only
  rw [ha, h.entry ha]
  simp [h.userPtFor_ne_zero ha, hpresent]

/-- `cowResolve` on a directory, in terms of the page of the address. -/
theorem cowResolve_eq (h : Chain s D) (hva : inUser va) : cowResolve s D.pml4 va
    = if !(leaf s D (pageNo va)).present || !(leaf s D (pageNo va)).cow then (false, s)
      else if physmemFrameRefcount s.frames (leaf s D (pageNo va)).phys = 1 then
        (true, setLeaf s D (pageNo va) (Pte.rw (leaf s D (pageNo va)).phys))
      else if s.allocFrame.1 = 0 then (false, s.allocFrame.2)
      else
        match kernelFrame s.allocFrame.2 D.pml4 s.allocFrame.1 true,
          kernelFrame s.allocFrame.2 D.pml4 (leaf s D (pageNo va)).phys false with
        | some dst, some src => (true, setLeaf (copied s (leaf s D (pageNo va)).phys dst src) D (pageNo va)
            (Pte.rw s.allocFrame.1))
        | _, _ => (false, s.allocFrame.2) := by
  obtain ⟨huser, hpage⟩ := page_base va
  have hbase : inUser (va / pageSize * pageSize) := by rw [huser]; exact hva
  have hpt := h.userPtFor hbase
  have hidx := (idx_user hbase).2.2.2.1
  rw [hpage] at hpt hidx
  unfold cowResolve
  dsimp only
  rw [if_neg (by simp [huser, hva, h.upper_ne_zero.1]), hpt, if_neg (h.pt_ne_zero _), hidx]
  rfl

/-- What a successful `cowResolve` did.  Frames outside the window are copied as the code means it. -/
theorem cowResolve_true (h : Spaces Outside s dirs) (hD : D ∈ dirs) (hres : cowResolve s D.pml4 va = (true, s')) :
    inUser va ∧ (leaf s D (pageNo va)).present ∧ (leaf s D (pageNo va)).cow ∧
      ((physmemFrameRefcount s.frames (leaf s D (pageNo va)).phys = 1 ∧
          s' = setLeaf s D (pageNo va) (Pte.rw (leaf s D (pageNo va)).phys)) ∨
        (physmemFrameRefcount s.frames (leaf s D (pageNo va)).phys ≠ 1 ∧ s.allocFrame.1 ≠ 0 ∧
          s' = setLeaf (copied s (leaf s D (pageNo va)).phys s.allocFrame.1 (leaf s D (pageNo va)).phys) D
            (pageNo va) (Pte.rw s.allocFrame.1))) := by
  have hva : inUser va := by
    rw [← (page_base va).1]
    by_contra hout
    rw [cowResolve, if_pos (by simp [hout])] at hres
    cases hres
  have hp := (idx_user hva).2.2.2.2
  rw [cowResolve_eq (h.chain D hD) hva] at hres
  split at hres
  · cases hres
  rename_i hflags
  simp only [Bool.or_eq_true, not_or, Bool.not_eq_true', Bool.not_eq_false] at hflags
  refine ⟨hva, hflags.1, hflags.2, ?_⟩
  split at hres
  · rename_i hone
    exact .inl ⟨hone, (Prod.mk.inj hres).2.symm⟩
  rename_i hone
  split at hres
  · cases hres
  rename_i hnew
  rw [kernelFrame_outside (h.free.fresh h.frames hnew), kernelFrame_outside (h.pages D hD _ hp hflags.1).placed] at hres
  exact .inr ⟨hone, hnew, (Prod.mk.inj hres).2.symm⟩

/-- The directories stand for the private memories `mem`: what a space holds at a page and an
    offset. -/
structure Holds (s : State) (dirs : List Dir) (mem : Nat → Nat → Fin pageSize → UInt8) : Prop where
  spaces : Spaces Outside s dirs
  cow : Cow.Inv userPages (store s (dirs.map Dir.pml4)) mem

variable {mem : Nat → Nat → Fin pageSize → UInt8} {fr : Physmem.State}

theorem frameRefcount_eq (ha : InUse fr a) :
    physmemFrameRefcount fr a = fr.refcount (a / physmemFrameSize) := by
  obtain ⟨f, rfl, hlow, hlt, _⟩ := ha
  unfold physmemFrameRefcount
  rw [frameAddr_div, Physmem.frameAddr_mod,
    if_neg (by simp [Physmem.frameAddr_ne_zero hlow]), if_neg (by omega)]

/-- Frame `f` loses `dec f` references, or all it has; a frame that keeps one stays in use. -/
structure Gives (fr fr' : Physmem.State) (dec : Nat → Nat) : Prop where
  total : fr'.totalFrames = fr.totalFrames
  inv : fr'.Inv
  counted : ∀ f, fr'.refcount f = fr.refcount f - dec f
  kept : ∀ f, dec f = 0 ∨ dec f < fr.refcount f →
    fr'.marked f = fr.marked f ∧ fr'.refcount f = fr.refcount f - dec f

section

variable {fr fr' fr'' : Physmem.State} {dec dec' : Nat → Nat}

theorem Gives.refl (h : fr.Inv) : Gives fr fr fun _ => 0 := ⟨rfl, h, fun _ => rfl, fun _ _ => ⟨rfl, rfl⟩⟩

theorem Gives.congr (h : Gives fr fr' dec) (heq : ∀ f, dec' f = dec f) : Gives fr fr' dec' :=
  ⟨h.total, h.inv, fun f => by rw [heq]; exact h.counted f,
    fun f hf => by rw [heq] at hf ⊢; exact h.kept f hf⟩

theorem Gives.trans (h : Gives fr fr' dec) (h' : Gives fr' fr'' dec') :
    Gives fr fr'' fun f => dec f + dec' f := by
  refine ⟨h'.total.trans h.total, h'.inv, fun f => ?_, fun f hf => ?_⟩
  · rw [h'.counted, h.counted, Nat.sub_sub]
  obtain ⟨hmarked, hcount⟩ := h.kept f (by omega)
  obtain ⟨hmarked', hcount'⟩ := h'.kept f (by omega)
  exact ⟨hmarked'.trans hmarked, by omega⟩

/-- `physmem_unref_frame` gives up one reference. -/
theorem unrefFrame_gives (hfr : fr.Inv) {g : Nat} (hlow : lowFrames ≤ g) (hlt : g < fr.totalFrames) :
    Gives fr (physmemUnrefFrame fr (frameAddr g)) fun f => if f = g then 1 else 0 := by
  have htotal := Physmem.unrefFrame_totalFrames (s := fr) (frameAddr g)
  refine ⟨htotal, ⟨by rw [htotal]; exact hfr.total_lt, fun f h1 h2 => ?_⟩, fun f => ?_, fun f hf => ?_⟩
  · rw [(Physmem.unrefFrame_other (.inr h1)).1]
    exact hfr.low f h1 (by rwa [← htotal])
  · by_cases hfg : f = g
    · subst hfg
      rw [if_pos rfl]
      by_cases hzero : fr.refcount f = 0
      · rw [Physmem.unrefFrame_zero hzero, hzero]
      · exact (Physmem.unrefFrame_self hlow hlt hfr.total_lt hzero).1
    · rw [if_neg hfg]
      exact (Physmem.unrefFrame_other (.inl fun heq => hfg (frameAddr_inj heq).symm)).2
  · by_cases hfg : f = g
    · subst hfg
      rw [if_pos rfl] at hf ⊢
      obtain ⟨hcount, hmarked⟩ := Physmem.unrefFrame_self hlow hlt hfr.total_lt (by omega)
      rw [if_neg (by omega)] at hmarked
      exact ⟨hmarked, hcount⟩
    · rw [if_neg hfg]
      exact Physmem.unrefFrame_other (.inl fun heq => hfg (frameAddr_inj heq).symm)

end

/-- A frame that keeps a reference stays in use. -/
theorem Gives.inUse {fr' : Physmem.State} {dec : Nat → Nat} (h : Gives fr fr' dec) (ha : InUse fr a)
    (hdec : dec (a / physmemFrameSize) = 0 ∨ dec (a / physmemFrameSize) < fr.refcount (a / physmemFrameSize)) :
    InUse fr' a := by
  obtain ⟨f, rfl, hlow, hlt, hmarked⟩ := ha
  rw [frameAddr_div] at hdec
  exact ⟨f, rfl, hlow, by rwa [h.total], by rwa [(h.kept f hdec).1]⟩

/-- The free frames stay `ok` if only such frames are given up. -/
theorem FreeOk.gives {fr' : Physmem.State} {dec : Nat → Nat} (h : FreeOk ok fr) (hgives : Gives fr fr' dec)
    (hdec : ∀ f, dec f ≠ 0 → ok (frameAddr f)) : FreeOk ok fr' := by
  intro f hlt hfree
  by_cases hzero : dec f = 0
  · exact h f (by rwa [← hgives.total]) (by rwa [← (hgives.kept f (.inl hzero)).1])
  · exact hdec f hzero

/-- The frames after a copy: one is taken, and the old one loses a reference. -/
theorem copied_frames (hfr : s.frames.Inv) (huse : InUse s.frames a) (hnew : s.allocFrame.1 ≠ 0) (dst src : Nat) :
    ∃ old, a = frameAddr old ∧ Grows s.frames s.allocFrame.2.frames [s.allocFrame.1] (fun _ => 0) ∧
      Gives s.allocFrame.2.frames (copied s a dst src).frames fun f => if f = old then 1 else 0 := by
  have hgrows := allocFrame_grows hfr hnew
  obtain ⟨old, rfl, hlow, hlt, _⟩ := hgrows.inUse huse
  exact ⟨old, rfl, hgrows, unrefFrame_gives hgrows.inv hlow hlt⟩

/-- **A fault changes no memory.** -/
theorem cowResolve_holds (h : Holds s dirs mem) (hD : D ∈ dirs)
    (hres : cowResolve s D.pml4 va = (true, s')) : Holds s' dirs mem := by
  have hchain := h.spaces.chain D hD
  obtain ⟨hva, hpresent, hcow, hcase⟩ := cowResolve_true h.spaces hD hres
  have hp := (idx_user hva).2.2.2.2
  have hok := h.spaces.pages D hD _ hp hpresent
  generalize hpdef : pageNo va = p at *
  have hview : (stores s dirs).view D.pml4 p = _ := view_present hchain hp hpresent
  have hspace : D.pml4 ∈ (stores s dirs).spaces := List.mem_map_of_mem hD
  have hmapped : Cow.Mapped userPages (stores s dirs) (leaf s D p).phys :=
    Cow.count_pos hspace hp (Cow.maps_iff.mpr ⟨_, hview⟩)
  rw [frameRefcount_eq hok.inUse] at hcase
  rcases hcase with ⟨hone, rfl⟩ | ⟨hmany, hnew, rfl⟩
  · -- the last sharer: only the entry changes
    have hset := h.spaces.set hD hp (e := Pte.rw (leaf s D p).phys) ⟨hok.inUse, hok.placed, hok.no_table, rfl, rfl⟩
    refine ⟨hset, ?_⟩
    exact (h.spaces.remaps hD hp rfl rfl).upgrade_inv h.cow hview hone rfl rfl
  · -- the page moves to a fresh frame, and the old one has a reference left
    obtain ⟨old, hold, hgrows, hgives⟩ :=
      copied_frames h.spaces.frames hok.inUse hnew s.allocFrame.1 (leaf s D p).phys
    set t := copied s (leaf s D p).phys s.allocFrame.1 (leaf s D p).phys
    have hne : ∀ {a}, InUse s.frames a → a ≠ s.allocFrame.1 :=
      fun ha heq => hgrows.not_inUse (List.mem_singleton.mpr heq) ha
    have hother : ∀ a, InUse s.frames a → s.allocFrame.2.frames.refcount (a / physmemFrameSize)
          = s.frames.refcount (a / physmemFrameSize) := by
      intro a ha
      refine (allocFrame_same h.spaces.frames ?_).2
      rw [frameAddr_of_inUse ha]
      exact hne ha
    have hcount : s.frames.refcount ((leaf s D p).phys / physmemFrameSize)
      = Cow.count userPages (stores s dirs) (leaf s D p).phys := h.cow.counts _ hmapped
    have hpos : 0 < Cow.count userPages (stores s dirs) (leaf s D p).phys := hmapped
    have htwo : 2 ≤ s.allocFrame.2.frames.refcount ((leaf s D p).phys / physmemFrameSize) := by
      rw [hother _ hok.inUse]
      omega
    have hkeeps : ∀ a, InUse s.allocFrame.2.frames a → InUse t.frames a := by
      refine fun a ha => hgives.inUse ha ?_
      by_cases haold : a / physmemFrameSize = old
      · rw [hold, frameAddr_div] at htwo
        rw [if_pos haold, haold]
        exact .inr htwo
      · exact .inl (if_neg haold)
    have hrc : ∀ a, InUse s.frames a → t.frames.refcount (a / physmemFrameSize)
          = s.frames.refcount (a / physmemFrameSize) - if a / physmemFrameSize = old then 1 else 0 :=
      fun a ha => (hgives.counted _).trans (by rw [hother a ha])
    have hfree : FreeOk Outside t.frames := by
      refine (h.spaces.free.grows hgrows).gives hgives fun f hf => ?_
      have hfold : f = old := by_contra fun hne => hf (if_neg hne)
      rw [hfold, ← hold]
      exact hok.placed
    have hspaces : Spaces Outside t dirs :=
      h.spaces.mono rfl hgives.inv hfree fun a ha => hkeeps a (hgrows.inUse ha)
    have hnewUse : InUse s.allocFrame.2.frames s.allocFrame.1 :=
      hgrows.taken_inUse h.spaces.frames (List.mem_singleton_self _)
    have hpage : PageOk Outside t.frames dirs (Pte.rw s.allocFrame.1) :=
      ⟨hkeeps _ hnewUse, h.spaces.free.fresh h.spaces.frames hnew,
        fun hmem => hne (h.spaces.inUse _ hmem) rfl, rfl, rfl⟩
    refine ⟨hspaces.set hD hp hpage, ?_⟩
    refine (hspaces.remaps hD hp rfl (t := s) rfl).copy_inv h.cow hview
      (fun hfresh => hne (h.spaces.mapped hfresh) rfl) ?_ ?_ ?_ ?_ ?_
    · obtain ⟨g, hg, hhanded⟩ := hgrows.taken _ (List.mem_singleton_self _)
      refine (hgives.counted _).trans ?_
      rw [hg, frameAddr_div, if_neg fun heq => hne hok.inUse (by rw [hold, hg, heq])]
      exact hhanded.2.2
    · intro _
      refine (hrc _ hok.inUse).trans ?_
      rw [if_pos (by rw [hold, frameAddr_div])]
      rfl
    · intro a ha hane
      have hause := h.spaces.mapped ha
      refine (hrc a hause).trans ?_
      rw [if_neg fun heq => hane (by rw [← frameAddr_of_inUse hause, heq, hold])]
      rfl
    · exact update_self ..
    · intro a ha
      exact update_of_ne (hne (h.spaces.mapped ha)) ..

/-- A user access to a mapped page ends at the leaf of the page. -/
theorem walk_some (h : Chain s D) (hwalk : walk s D.pml4 va = some e) :
    inUser va ∧ e = leaf s D (pageNo va) ∧ e.present := by
  unfold walk at hwalk
  split at hwalk
  · rename_i hin
    obtain ⟨hva, _⟩ := Bool.and_eq_true_iff.mp hin
    rw [h.entry hva] at hwalk
    dsimp only at hwalk
    split at hwalk
    · rename_i hflags
      obtain rfl := Option.some.inj hwalk
      exact ⟨hva, rfl, (Bool.and_eq_true_iff.mp hflags).1⟩
    · cases hwalk
  · cases hwalk

theorem walk_eq (h : Chain s D) (hva : inUser va) (hpresent : (leaf s D (pageNo va)).present)
    (huser : (leaf s D (pageNo va)).user) : walk s D.pml4 va = some (leaf s D (pageNo va)) := by
  unfold walk
  rw [if_pos (by simp [hva, h.userPtFor_ne_zero hva]), h.entry hva]
  simp only [hpresent, huser, Bool.and_self, if_true]

/-- The private memories after a write. -/
def writeMem (mem : Nat → Nat → Fin pageSize → UInt8) (d va : Nat) (value : UInt8) :
    Nat → Nat → Fin pageSize → UInt8 :=
  update mem d (update (mem d) (pageNo va)
    (update (mem d (pageNo va)) (pageOffset va) value))

variable {value : UInt8}

/-- **A write through a writable page** changes the memory of its space only. -/
theorem userStore_holds (h : Holds s dirs mem) (hD : D ∈ dirs)
    (hstore : userStore s D.pml4 va value = some s') : Holds s' dirs (writeMem mem D.pml4 va value) := by
  have hchain := h.spaces.chain D hD
  unfold userStore at hstore
  split at hstore
  · cases hstore
  rename_i hwalk
  obtain ⟨hva, rfl, hpresent⟩ := walk_some hchain hwalk
  have hp := (idx_user hva).2.2.2.2
  split at hstore
  · rename_i hwritable
    obtain rfl := Option.some.inj hstore
    refine ⟨h.spaces.mono rfl h.spaces.frames h.spaces.free fun _ ha => ha, ?_⟩
    have hview : (stores s dirs).view D.pml4 (pageNo va) = _ := view_present hchain hp hpresent
    rw [hwritable] at hview
    have hspace : D.pml4 ∈ (stores s dirs).spaces := List.mem_map_of_mem hD
    have hcontent : s.bytes (leaf s D (pageNo va)).phys = mem D.pml4 (pageNo va) :=
      h.cow.content D.pml4 hspace _ hp _ _ hview
    have hwrite := Cow.write_inv (x := update (s.bytes (leaf s D (pageNo va)).phys)
      (pageOffset va) value) h.cow hspace hp hview
    rwa [writeMem, ← hcontent]
  · cases hstore

/-- A write is made at once, or after its fault. -/
theorem userWrite_cases (h : userWrite s pml4 va value = some s') :
    userStore s pml4 va value = some s' ∨
      ∃ t, cowResolve s pml4 va = (true, t) ∧ userStore t pml4 va value = some s' := by
  unfold userWrite at h
  split at h
  · rename_i hstore
    exact .inl (hstore.trans h)
  · split at h
    · rename_i hres
      exact .inr ⟨_, hres, h⟩
    · cases h

/-- A user write, with its fault. -/
theorem userWrite_holds (h : Holds s dirs mem) (hD : D ∈ dirs)
    (hwrite : userWrite s D.pml4 va value = some s') : Holds s' dirs (writeMem mem D.pml4 va value) := by
  rcases userWrite_cases hwrite with hstore | ⟨t, hres, hstore⟩
  · exact userStore_holds h hD hstore
  · exact userStore_holds (cowResolve_holds h hD hres) hD hstore

/-- A write that is made is to an address of the window, and changes bytes only. -/
theorem userStore_some (h : userStore s pml4 va value = some s') :
    inUser va ∧ s'.frames = s.frames ∧ s'.tables = s.tables := by
  unfold userStore at h
  split at h
  · cases h
  rename_i hwalk
  have hva : inUser va := by
    unfold walk at hwalk
    split at hwalk
    · rename_i hin
      exact (Bool.and_eq_true_iff.mp hin).1
    · cases hwalk
  split at h
  · obtain rfl := Option.some.inj h
    exact ⟨hva, rfl, rfl⟩
  · cases h

theorem userWrite_inUser (h : userWrite s pml4 va value = some s') :
    inUser va := by
  rcases userWrite_cases h with hstore | ⟨_, _, hstore⟩ <;> exact (userStore_some hstore).1

/-- What a write does to the frames: nothing, or one is taken and another one loses a reference. -/
def Moved (fr fr' : Physmem.State) : Prop :=
  fr' = fr ∨ ∃ mid new old, Grows fr mid [new] (fun _ => 0) ∧ InUse mid (frameAddr old) ∧
    Gives mid fr' fun f => if f = old then 1 else 0

section

variable {fr' : Physmem.State} (h : Moved fr fr')
include h

theorem Moved.below (hbelow : ∀ f, fr.refcount f < 255) (f : Nat) : fr'.refcount f < 255 := by
  rcases h with rfl | ⟨mid, new, old, hgrows, _, hgives⟩
  · exact hbelow f
  · rw [hgives.counted]
    exact Nat.lt_of_le_of_lt (Nat.sub_le _ _) (grows_below hgrows hbelow (by decide) f)

theorem Moved.hasFree (hfree : HasFree fr (k + 1)) : HasFree fr' k := by
  rcases h with rfl | ⟨mid, new, old, hgrows, ⟨g, hg, _, _, hmarked⟩, hgives⟩
  · obtain ⟨fs, hnodup, hlength, hfs⟩ := hfree
    exact ⟨fs, hnodup, by omega, hfs⟩
  · rw [Nat.add_comm] at hfree
    obtain ⟨fs, hnodup, hlength, hfs⟩ := HasFree.grows hfree hgrows
    refine ⟨fs, hnodup, hlength, fun f hf => ?_⟩
    obtain ⟨hlt, hunmarked⟩ := hfs f hf
    have hne : f ≠ old := by
      rintro rfl
      rw [frameAddr_inj hg, hmarked] at hunmarked
      cases hunmarked
    rw [hgives.total, (hgives.kept f (.inl (if_neg hne))).1]
    exact ⟨hlt, hunmarked⟩

end

/-- **What a write leaves of frames and pages**: a page that was present is so afterwards. -/
theorem userWrite_leaves (h : Spaces Outside s dirs) (hD : D ∈ dirs)
    (hwrite : userWrite s D.pml4 va value = some s') : Moved s.frames s'.frames ∧
      ∀ E ∈ dirs, ∀ q < userPages, (leaf s E q).present → (leaf s' E q).present := by
  rcases userWrite_cases hwrite with hstore | ⟨t, hres, hstore⟩
  · obtain ⟨_, hframes, htables⟩ := userStore_some hstore
    refine ⟨.inl hframes, fun E _ q _ hpresent => ?_⟩
    rwa [leaf, htables]
  obtain ⟨hva, hframes, htables⟩ := userStore_some hstore
  have hp := (idx_user hva).2.2.2.2
  obtain ⟨_, hpresent, _, hcase⟩ := cowResolve_true h hD hres
  have hset : ∀ a, ∀ E ∈ dirs, ∀ q < userPages, (leaf s E q).present →
      (leaf (setLeaf s D (pageNo va) (Pte.rw a)) E q).present := by
    intro a E hE q hq hpresent
    rw [h.leaf_setLeaf hD hE hp _ hq]
    split
    · rfl
    · exact hpresent
  rw [hframes]
  unfold leaf at hset ⊢
  rw [htables]
  rcases hcase with ⟨_, rfl⟩ | ⟨_, hnew, rfl⟩
  · exact ⟨.inl rfl, hset _⟩
  · have huse := (h.pages D hD _ hp hpresent).inUse
    obtain ⟨old, hold, hgrows, hgives⟩ := copied_frames h.frames huse hnew s.allocFrame.1 (leaf s D (pageNo va)).phys
    exact ⟨.inr ⟨_, _, old, hgrows, hold ▸ hgrows.inUse huse, hgives⟩, hset _⟩

/-- A fault on a present copy-on-write page is resolved if a frame is free. -/
theorem cowResolve_ok (h : Spaces Outside s dirs) (hD : D ∈ dirs) (hva : inUser va)
    (hpresent : (leaf s D (pageNo va)).present) (hcow : (leaf s D (pageNo va)).cow)
    (hfree : HasFree s.frames (k + 1)) :
    ∃ t a, cowResolve s D.pml4 va = (true, t) ∧ t.tables = (setLeaf s D (pageNo va) (Pte.rw a)).tables := by
  have hp := (idx_user hva).2.2.2.2
  rw [cowResolve_eq (h.chain D hD) hva, if_neg (by simp [hpresent, hcow])]
  by_cases hone : physmemFrameRefcount s.frames (leaf s D (pageNo va)).phys = 1
  · rw [if_pos hone]
    exact ⟨_, _, rfl, rfl⟩
  · have hnew : s.allocFrame.1 ≠ 0 := allocFrame_ne_zero h.frames hfree
    rw [if_neg hone, if_neg hnew, kernelFrame_outside (h.free.fresh h.frames hnew),
      kernelFrame_outside (h.pages D hD _ hp hpresent).placed]
    exact ⟨_, _, rfl, rfl⟩

/-- A write to a page that is there and writable. -/
theorem userStore_rw (h : Chain s D) (hva : inUser va) (hleaf : leaf s D (pageNo va) = Pte.rw a) :
    userStore s D.pml4 va value
      = some { s with bytes := update s.bytes a (update (s.bytes a) (pageOffset va) value) } := by
  rw [userStore, walk_eq h hva (by rw [hleaf]; rfl) (by rw [hleaf]; rfl), hleaf]
  rfl

/-- One to a read-only page faults. -/
theorem userStore_none (h : Chain s D) (hva : inUser va) (hpresent : (leaf s D (pageNo va)).present)
    (huser : (leaf s D (pageNo va)).user) (hwritable : ¬(leaf s D (pageNo va)).writable) :
    userStore s D.pml4 va value = none := by
  rw [userStore, walk_eq h hva hpresent huser]
  exact if_neg hwritable

/-- **A write to a present page is made** if a frame is free. -/
theorem userWrite_ok (value : UInt8) (h : Spaces Outside s dirs) (hD : D ∈ dirs) (hva : inUser va)
    (hpresent : (leaf s D (pageNo va)).present) (hfree : HasFree s.frames (k + 1)) :
    ∃ s', userWrite s D.pml4 va value = some s' := by
  have hp := (idx_user hva).2.2.2.2
  have hok := h.pages D hD _ hp hpresent
  unfold userWrite
  by_cases hwritable : (leaf s D (pageNo va)).writable
  · rw [userStore, walk_eq (h.chain D hD) hva hpresent hok.user]
    simp only [hwritable, if_true]
    exact ⟨_, rfl⟩
  · obtain ⟨t, a, hres, htables⟩ := cowResolve_ok h hD hva hpresent (by rw [hok.cow]; simpa using hwritable) hfree
    have hchain : Chain t D := chain_congr (h.chain_setLeaf hD hD (Pte.rw a)) fun _ _ _ => by rw [htables]
    have hleaf : leaf t D (pageNo va) = Pte.rw a := by
      rw [leaf, htables]
      exact (h.leaf_setLeaf hD hD hp _ hp).trans (if_pos ⟨rfl, rfl⟩)
    rw [userStore_none (h.chain D hD) hva hpresent hok.user hwritable, hres]
    exact ⟨_, userStore_rw hchain hva hleaf⟩

/-! ### A release drops a space -/

/-- The page is present and stands on frame `f`. -/
def onFrame (e : Pte) (f : Nat) : Bool := e.present && decide (e.phys = frameAddr f)

/-- The loop of a release over a page table after `k` rounds: the pages below `k` have been given up, those from it
    on are untouched. -/
structure Releasing (s : State) (pt k : Nat) (s' : State) : Prop where
  frames : Gives s.frames s'.frames fun f => (List.range k).countP fun p => onFrame (s.tables pt p) f
  bytes : s'.bytes = s.bytes
  rest : ∀ i, k ≤ i → s'.tables pt i = s.tables pt i
  others : ∀ t i, t ≠ pt → s'.tables t i = s.tables t i

theorem releasePages_spec (pt n : Nat) (hfr : s.frames.Inv)
    (hleaf : ∀ p < n, (s.tables pt p).present →
      ∃ g, (s.tables pt p).phys = frameAddr g ∧ lowFrames ≤ g ∧ g < s.frames.totalFrames) :
    Releasing s pt n (forRange 0 n (releasePage pt) s) := by
  refine forRange_inv (P := Releasing s pt) (Nat.zero_le _) ?_ ?_
  · exact ⟨(Gives.refl hfr).congr fun _ => rfl, rfl, fun _ _ => rfl, fun _ _ _ => rfl⟩
  rintro k s' _ hk ⟨hgives, hbytes, hrest, hother⟩
  have hcount : ∀ f, (List.range (k + 1)).countP (fun p => onFrame (s.tables pt p) f)
      = (List.range k).countP (fun p => onFrame (s.tables pt p) f)
        + if onFrame (s.tables pt k) f then 1 else 0 := by
    intro f
    rw [List.range_succ, List.countP_append, List.countP_singleton]
  unfold releasePage
  dsimp only
  rw [hrest k (Nat.le_refl _)]
  split
  · rename_i hpresent
    obtain ⟨g, hg, hlow, hlt⟩ := hleaf k hk hpresent
    have hunref := unrefFrame_gives hgives.inv hlow (by rwa [hgives.total])
    refine ⟨?_, hbytes, fun i hi => ?_, fun t i ht => ?_⟩
    · show Gives s.frames (physmemUnrefFrame s'.frames (s.tables pt k).phys) _
      rw [hg]
      refine (hgives.trans hunref).congr fun f => ?_
      rw [hcount, onFrame, hpresent, hg]
      by_cases hfg : f = g
      · rw [if_pos hfg, if_pos (by simp [hfg])]
      · rw [if_neg hfg, if_neg (by simpa using fun heq => hfg (frameAddr_inj heq).symm)]
    · rw [setEntry_tables, if_neg fun hc => by omega, unrefFrame_tables, hrest i (by omega)]
    · rw [setEntry_tables, if_neg fun hc => ht hc.1, unrefFrame_tables, hother t i ht]
  · rename_i habsent
    refine ⟨hgives.congr fun f => ?_, hbytes, fun i hi => hrest i (by omega), hother⟩
    rw [hcount, if_neg (by simp [onFrame, habsent]), Nat.add_zero]

/-- What the release of `D` leaves. -/
structure Released (s s' : State) (D : Dir) : Prop where
  frames : Gives s.frames s'.frames fun f => Cow.countIn userPages (view s D.pml4) (frameAddr f)
  bytes : s'.bytes = s.bytes
  others : ∀ t i, t ≠ D.pt0 → t ≠ D.pt1 → s'.tables t i = s.tables t i

/-- One round of the outer loop. -/
theorem releaseTable_eq (h : Chain s D) {ti : Nat} (hti : ti < userPdCount) :
    releaseTable D.pml4 ti s = forRange 0 entriesPerTable (releasePage (D.pt ti)) s := by
  have hva : inUser (pageVa ti 0) ∧ pageNo (pageVa ti 0) / entriesPerTable = ti := by
    refine ⟨Bool.and_eq_true_iff.mpr ⟨decide_eq_true ?_, decide_eq_true ?_⟩, ?_⟩ <;>
      simp only [pageNo, pageVa, userSize, pageSize, entriesPerTable, userPdCount] at * <;>
      omega
  unfold releaseTable
  rw [h.userPtFor hva.1, hva.2, if_neg (h.pt_ne_zero ti)]

/-- **A release as a whole.** -/
theorem releaseUserPages_released (hfr : s.frames.Inv) (hchain : Chain s D) (hD : OwnFrames s D) :
    Released s (releaseUserPages s D.pml4) D := by
  obtain ⟨-, -, h01⟩ := hD.ne
  have hframe : ∀ p < userPages, (leaf s D p).present →
      ∃ g, (leaf s D p).phys = frameAddr g ∧ lowFrames ≤ g ∧ g < s.frames.totalFrames := by
    intro p hp hpresent
    obtain ⟨g, hg, hlow, hlt, _⟩ := hD.pages p hp hpresent
    exact ⟨g, hg, hlow, hlt⟩
  obtain ⟨hgives₀, hbytes₀, -, hother₀⟩ := releasePages_spec D.pt0 entriesPerTable hfr
    fun p hp hpresent => by
      rw [← leaf_low hp] at hpresent ⊢
      exact hframe p (low_lt hp) hpresent
  have hfirst : releaseTable D.pml4 0 s = forRange 0 entriesPerTable (releasePage D.pt0) s :=
    releaseTable_eq hchain (by decide)
  have hrun : releaseUserPages s D.pml4 = releaseTable D.pml4 1 (releaseTable D.pml4 0 s) := by
    rw [releaseUserPages, if_neg hchain.upper_ne_zero.1]
    rfl
  rw [← hfirst] at hgives₀ hbytes₀ hother₀
  rw [hrun]
  generalize releaseTable D.pml4 0 s = s₁ at *
  have hchain₁ : Chain s₁ D :=
    chain_congr hchain fun t ht i => hother₀ t i (Dir.upper_ne_pt hD.nodup ht 0)
  have hpt1 : ∀ p, s₁.tables D.pt1 p = s.tables D.pt1 p := fun p => hother₀ _ p (Ne.symm h01)
  obtain ⟨hgives₁, hbytes₁, -, hother₁⟩ := releasePages_spec D.pt1 entriesPerTable hgives₀.inv
    fun p hp hpresent => by
      rw [hpt1, ← leaf_high hp] at hpresent ⊢
      rw [hgives₀.total]
      exact hframe _ (high_lt hp) hpresent
  have hsecond : releaseTable D.pml4 1 s₁ = forRange 0 entriesPerTable (releasePage D.pt1) s₁ :=
    releaseTable_eq hchain₁ (by decide)
  rw [← hsecond] at hgives₁ hbytes₁ hother₁
  simp only [hpt1] at hgives₁
  refine ⟨(hgives₀.trans hgives₁).congr fun f => ?_, hbytes₁.trans hbytes₀,
    fun t i h0 h1 => (hother₁ t i h1).trans (hother₀ t i h0)⟩
  rw [Cow.countIn, countP_userPages]
  congr 1
  · refine List.countP_congr fun p hp => ?_
    have hp := List.mem_range.mp hp
    rw [maps_view hchain (low_lt hp), leaf_low hp]
    rfl
  · refine List.countP_congr fun p hp => ?_
    have hp := List.mem_range.mp hp
    rw [maps_view hchain (high_lt hp), leaf_high hp]
    rfl

/-- The addresses of all directories but one. -/
theorem map_erase_pml4 (hinj : ∀ E ∈ dirs, E.pml4 = D.pml4 → E = D) :
    (dirs.erase D).map Dir.pml4 = (dirs.map Dir.pml4).erase D.pml4 := by
  induction dirs with
  | nil => rfl
  | cons E dirs ih =>
    have htail := ih fun E hE => hinj E (.tail _ hE)
    by_cases hED : E = D
    · subst hED
      rw [List.erase_cons_head, List.map_cons, List.erase_cons_head]
    · have hpml4 : E.pml4 ≠ D.pml4 := fun heq => hED (hinj E (.head _) heq)
      rw [List.erase_cons_tail (by simpa using hED), List.map_cons, List.map_cons,
        List.erase_cons_tail (by simpa using hpml4), htail]

/-- **A release drops the space**, and keeps the other directories apart. -/
theorem Released.holds (hrel : Released s s' D) (h : Holds s dirs mem) (hD : D ∈ dirs) :
    Holds s' (dirs.erase D) mem := by
  have hnodup : dirs.Nodup := by
    have hmap : (dirs.map Dir.pml4).Nodup := h.cow.nodup
    exact hmap.of_map _
  have hmem : ∀ {E}, E ∈ dirs.erase D → E ∈ dirs ∧ E ≠ D := by
    intro E hE
    obtain ⟨hne, hE⟩ := hnodup.mem_erase_iff.mp hE
    exact ⟨hE, hne⟩
  have htables : ∀ {a}, a ∈ tableFrames (dirs.erase D) → a ∈ tableFrames dirs := by
    intro a ha
    obtain ⟨E, hE, ha⟩ := List.mem_flatMap.mp ha
    exact mem_tableFrames (hmem hE).1 ha
  -- the other directories keep their tables
  have hother : ∀ {E}, E ∈ dirs.erase D → ∀ t ∈ E.frames, ∀ i, s'.tables t i = s.tables t i := by
    intro E hE t ht i
    have hpt := h.spaces.ne_pt (hmem hE).1 hD (hmem hE).2 ht
    exact hrel.others t i (hpt 0) (hpt 1)
  have hchain : ∀ E ∈ dirs.erase D, Chain s' E := by
    intro E hE
    refine chain_congr (h.spaces.chain E (hmem hE).1) fun t ht => hother hE t ?_
    exact List.mem_append_left [E.pt0, E.pt1] ht
  have hleaf : ∀ {E}, E ∈ dirs.erase D → ∀ p, leaf s' E p = leaf s E p :=
    fun hE p => hother hE _ (Dir.pt_mem _ _) _
  -- no page of `D` stands on a table
  have hnone : ∀ a ∈ tableFrames dirs, Cow.countIn userPages (view s D.pml4) a = 0 := by
    intro a ha
    refine List.countP_eq_zero.mpr fun p hp hmaps => ?_
    exact (h.spaces.maps hD (List.mem_range.mp hp) hmaps).2.2 ha
  have huse : ∀ a, InUse s.frames a → (Cow.countIn userPages (view s D.pml4) a = 0 ∨
      Cow.countIn userPages (view s D.pml4) a < s.frames.refcount (a / physmemFrameSize)) →
      InUse s'.frames a := by
    intro a ha hdec
    refine hrel.frames.inUse ha ?_
    rwa [frameAddr_of_inUse ha]
  have hspaces : Spaces Outside s' (dirs.erase D) := by
    refine ⟨hrel.frames.inv, ?_, hchain, ?_, fun a ha => ?_, fun a ha => h.spaces.placed a (htables ha),
      fun E hE p hp hpresent => ?_⟩
    · refine h.spaces.free.gives hrel.frames fun f hf => ?_
      obtain ⟨p, hp, hmaps⟩ := List.countP_pos_iff.mp (Nat.pos_of_ne_zero hf)
      exact (h.spaces.maps hD (List.mem_range.mp hp) hmaps).2.1
    · have hsub : (tableFrames (dirs.erase D)).Sublist (tableFrames dirs) :=
        List.Sublist.flatMap List.erase_sublist _
      exact hsub.nodup h.spaces.nodup
    · exact huse a (h.spaces.inUse a (htables ha)) (.inl (hnone a (htables ha)))
    rw [hleaf hE] at hpresent ⊢
    have hok := h.spaces.pages E (hmem hE).1 p hp hpresent
    refine ⟨huse _ hok.inUse (.inr ?_), hok.placed, fun hmem => hok.no_table (htables hmem), hok.user, hok.cow⟩
    -- a frame that another directory maps keeps a reference
    have hmaps : Cow.maps (view s E.pml4) (leaf s E p).phys p :=
      Cow.maps_iff.mpr ⟨_, view_present (h.spaces.chain E (hmem hE).1) hp hpresent⟩
    have hspaceE : E.pml4 ∈ (stores s dirs).spaces := List.mem_map_of_mem (hmem hE).1
    have hne : D.pml4 ≠ E.pml4 := fun heq => (hmem hE).2 (h.spaces.pml4_inj (hmem hE).1 hD heq.symm)
    have hless := Cow.countIn_lt_count h.cow.nodup (List.mem_map_of_mem hD) hspaceE hne hp hmaps
    exact Nat.lt_of_lt_of_eq hless (h.cow.counts _ (Cow.count_pos hspaceE hp hmaps)).symm
  have hdrops : Cow.Drops userPages (stores s dirs) (stores s' (dirs.erase D)) D.pml4 := by
    refine ⟨List.mem_map_of_mem hD, ?_, fun d hd hne p hp => ?_, fun a ha => ?_, fun a _ => congrFun hrel.bytes a⟩
    · exact map_erase_pml4 fun E hE heq => h.spaces.pml4_inj hE hD heq
    · obtain ⟨E, hE, rfl⟩ := List.mem_map.mp hd
      have hE' : E ∈ dirs.erase D := hnodup.mem_erase_iff.mpr ⟨fun heq => hne (by rw [heq]), hE⟩
      show view s' E.pml4 p = view s E.pml4 p
      rw [view_eq (hchain E hE') hp, view_eq (h.spaces.chain E hE) hp, hleaf hE']
    · have hcount := hrel.frames.counted (a / physmemFrameSize)
      rwa [frameAddr_of_inUse (hspaces.mapped ha)] at hcount
  exact ⟨hspaces, hdrops.inv h.cow⟩

end

/-! ## The abstract machine -/

/-- Spaces that share nothing: each has a memory of its own, by address. -/
structure Private where
  spaces : List Nat
  mem : Nat → Nat → UInt8

/-- The new space starts with a copy of the memory of the old one. -/
def Private.fork (m : Private) (d c : Nat) : Private :=
  { spaces := c :: m.spaces, mem := update m.mem c (m.mem d) }

def Private.write (m : Private) (d va : Nat) (value : UInt8) : Private :=
  { m with mem := update m.mem d (update (m.mem d) va value) }

def Private.release (m : Private) (d : Nat) : Private := { m with spaces := m.spaces.erase d }

/-- Memories by page and offset. -/
def byPage (mem : Nat → Nat → UInt8) (d p : Nat) (o : Fin pageSize) : UInt8 :=
  mem d (userBase + p * pageSize + o)

theorem byPage_update (mem : Nat → Nat → UInt8) (d : Nat) (row : Nat → UInt8) :
    byPage (update mem d row) = update (byPage mem) d fun p o => row (userBase + p * pageSize + o) :=
  comp_update (fun (row : Nat → UInt8) p (o : Fin pageSize) => row (userBase + p * pageSize + o)) mem d row

theorem byPage_fork (m : Private) (d c : Nat) :
    byPage (m.fork d c).mem = update (byPage m.mem) c (byPage m.mem d) := byPage_update ..

/-- An address of the window is given by its page and its offset. -/
theorem va_eq_iff (hva : inUser va) (p : Nat) (o : Fin pageSize) :
    userBase + p * pageSize + o = va ↔ p = pageNo va ∧ o = pageOffset va := by
  have hlo := of_decide_eq_true (Bool.and_eq_true_iff.mp hva).1
  rw [Fin.ext_iff]
  simp only [pageNo, pageOffset, userBase, pageSize] at *
  omega

theorem byPage_write (m : Private) (d : Nat) (hva : inUser va) (value : UInt8) :
    byPage (m.write d va value).mem = writeMem (byPage m.mem) d va value := by
  refine (byPage_update ..).trans (congrArg (update (byPage m.mem) d) ?_)
  funext p o
  have hsame := va_eq_iff hva p o
  by_cases hp : p = pageNo va
  · subst hp
    rw [update_self]
    by_cases ho : o = pageOffset va
    · rw [hsame.mpr ⟨rfl, ho⟩, ho, update_self, update_self]
    · rw [update_of_ne fun heq => ho (hsame.mp heq).2, update_of_ne ho]
      rfl
  · rw [update_of_ne fun heq => hp (hsame.mp heq).1, update_of_ne hp]
    rfl

/-! ## Runs -/

/-- The machine, and the private memories it should stand for. -/
structure World where
  sys : State
  spec : Private

inductive Call
  | clone (d : Nat)
  | write (d va : Nat) (value : UInt8)
  | release (d : Nat)

/-- The space a call is made for. -/
def Call.space : Call → Nat
  | clone d => d
  | write d _ _ => d
  | release d => d

/-- One call.  A write that faults for good changes nothing. -/
def step (w : World) : Call → Bool × World
  | .clone d =>
    if (cowClone w.sys d).1 = 0 then (false, { w with sys := (cowClone w.sys d).2 })
    else (true, { sys := (cowClone w.sys d).2, spec := w.spec.fork d (cowClone w.sys d).1 })
  | .write d va value =>
    match userWrite w.sys d va value with
    | some sys => (true, { sys, spec := w.spec.write d va value })
    | none => (false, w)
  | .release d => (true, { sys := releaseUserPages w.sys d, spec := w.spec.release d })

/-- Calls are made for spaces that exist, clones succeed, and bring no count to 255. -/
structure Legal (w : World) (c : Call) : Prop where
  space : c.space ∈ w.spec.spaces
  clones : ∀ d, c = .clone d → (cowClone w.sys d).1 ≠ 0 ∧ ∀ f, (cowClone w.sys d).2.frames.refcount f < 255

/-- A directory whose pages are private and writable.  Its frames, and the free ones, are `ok`. -/
structure Initial (ok : Nat → Prop) (s : State) (D : Dir) : Prop where
  spaces : Spaces ok s [D]
  writable : ∀ p < userPages, (leaf s D p).present → (leaf s D p).writable
  distinct : ∀ p < userPages, ∀ q < userPages, (leaf s D p).present →
    (leaf s D q).present → (leaf s D p).phys = (leaf s D q).phys → p = q
  counts : ∀ p < userPages, (leaf s D p).present →
    s.frames.refcount ((leaf s D p).phys / physmemFrameSize) = 1
  below : ∀ f, s.frames.refcount f < 255

/-- The start: one space, with the memory that its directory shows. -/
def start (s : State) (d : Nat) : World :=
  { sys := s, spec := { spaces := [d], mem := fun _ va => (userRead s d va).getD 0 } }

/-- The machine stands for its private memories. -/
structure Simulates (w : World) (dirs : List Dir) : Prop where
  spaces : w.spec.spaces = dirs.map Dir.pml4
  holds : Holds w.sys dirs (byPage w.spec.mem)
  below : ∀ f, w.sys.frames.refcount f < 255

section

variable {s s' : State} {D C : Dir} {dirs : List Dir} {w : World}

/-- A read of a present page. -/
theorem userRead_eq (h : Chain s D) (hva : inUser va)
    (hpresent : (leaf s D (pageNo va)).present) (huser : (leaf s D (pageNo va)).user) :
    userRead s D.pml4 va = some (s.bytes (leaf s D (pageNo va)).phys (pageOffset va)) := by
  rw [userRead, walk_eq h hva hpresent huser]
  rfl

/-- The addresses of a page of the window. -/
theorem window_va {p : Nat} (hp : p < userPages) (o : Fin pageSize) :
    inUser (userBase + p * pageSize + o) ∧ pageNo (userBase + p * pageSize + o) = p ∧
      pageOffset (userBase + p * pageSize + o) = o := by
  have hva : inUser (userBase + p * pageSize + o) := by
    refine Bool.and_eq_true_iff.mpr ⟨decide_eq_true ?_, decide_eq_true ?_⟩ <;>
      simp only [userPages, userSize, pageSize] at * <;> omega
  obtain ⟨hpage, hoffset⟩ := (va_eq_iff hva p o).mp rfl
  exact ⟨hva, hpage.symm, hoffset.symm⟩

/-- The initial directory stands for what it shows. -/
theorem Initial.simulates (h : Initial Outside s D) : Simulates (start s D.pml4) [D] := by
  have hD : D ∈ [D] := List.mem_singleton_self D
  have hchain := h.spaces.chain D hD
  refine ⟨rfl, ⟨h.spaces, Cow.Inv.single rfl ?_ ?_ ?_⟩, h.below⟩
  · intro p hp q hq a hpa hqa
    obtain ⟨hp1, hp2⟩ := leaf_of_maps hchain hp hpa
    obtain ⟨hq1, hq2⟩ := leaf_of_maps hchain hq hqa
    exact h.distinct p hp q hq hp1 hq1 (hp2.trans hq2.symm)
  · intro p hp a hpa
    obtain ⟨hpresent, rfl⟩ := leaf_of_maps hchain hp hpa
    exact h.counts p hp hpresent
  intro p hp a wr hview
  obtain ⟨hpresent, rfl⟩ := leaf_of_maps hchain hp (Cow.maps_iff.mpr ⟨wr, hview⟩)
  funext o
  -- the byte is the one that a read of its address shows
  obtain ⟨hva, hpage, hoffset⟩ := window_va hp o
  have hread := userRead_eq hchain hva (by rwa [hpage])
    (by rw [hpage]; exact (h.spaces.pages D hD p hp hpresent).user)
  rw [hpage, hoffset] at hread
  show s.bytes _ o = (userRead s D.pml4 (userBase + p * pageSize + o)).getD 0
  rw [hread]
  rfl

theorem step_clone (hne : (cowClone w.sys d).1 ≠ 0) : step w (.clone d)
    = (true, ⟨(cowClone w.sys d).2, w.spec.fork d (cowClone w.sys d).1⟩) := if_neg hne

theorem legal_write {value : UInt8} (hd : d ∈ w.spec.spaces) : Legal w (.write d va value) := ⟨hd, nofun⟩

theorem step_write {value : UInt8} (hwrite : userWrite w.sys d va value = some sys) :
    step w (.write d va value) = (true, ⟨sys, w.spec.write d va value⟩) := by
  rw [step, hwrite]

section

variable (h : Simulates w dirs)
include h

/-- A clone keeps that, with one more directory. -/
theorem clone_simulates (hD : D ∈ dirs)
    (hcloned : Cloned w.sys sys D C) (hcounts : ∀ f, sys.frames.refcount f < 255) :
    Simulates ⟨sys, w.spec.fork D.pml4 C.pml4⟩ (C :: dirs) := by
  refine ⟨?_, ⟨cloned_spaces_inv hcloned h.holds.spaces hD, ?_⟩, hcounts⟩
  · show C.pml4 :: w.spec.spaces = _
    rw [h.spaces]
    rfl
  · rw [byPage_fork]
    exact (cloned_forks hcloned h.holds.spaces hD h.below hcounts).inv h.holds.cow

/-- So does a write. -/
theorem write_simulates (hD : D ∈ dirs) {value : UInt8}
    (hwrite : userWrite w.sys D.pml4 va value = some sys) :
    Simulates ⟨sys, w.spec.write D.pml4 va value⟩ dirs := by
  refine ⟨h.spaces, ?_, (userWrite_leaves h.holds.spaces hD hwrite).1.below h.below⟩
  rw [byPage_write _ _ (userWrite_inUser hwrite)]
  exact userWrite_holds h.holds hD hwrite

/-- **A space may write its pages** as long as a frame is free. -/
theorem step_write_ok (hD : D ∈ dirs) (value : UInt8) (hva : inUser va)
    (hpresent : (leaf w.sys D (pageNo va)).present) (hfree : HasFree w.sys.frames (k + 1)) :
    ∃ w', step w (.write D.pml4 va value) = (true, w') ∧ w'.spec = w.spec.write D.pml4 va value ∧
      Simulates w' dirs ∧ HasFree w'.sys.frames k ∧
      ∀ E ∈ dirs, ∀ q < userPages, (leaf w.sys E q).present → (leaf w'.sys E q).present := by
  obtain ⟨sys, hwrite⟩ := userWrite_ok value h.holds.spaces hD hva hpresent hfree
  obtain ⟨hmoved, hkept⟩ := userWrite_leaves h.holds.spaces hD hwrite
  exact ⟨_, step_write hwrite, rfl, write_simulates h hD hwrite, hmoved.hasFree hfree, hkept⟩

/-- A call keeps that. -/
theorem step_simulates {c : Call} (hc : Legal w c) :
    ∃ dirs', Simulates (step w c).2 dirs' := by
  obtain ⟨D, hD, hspace⟩ : ∃ D ∈ dirs, D.pml4 = c.space := by
    have hmem := hc.space
    rw [h.spaces] at hmem
    exact List.mem_map.mp hmem
  cases c with
  | clone d =>
    obtain rfl : D.pml4 = d := hspace
    obtain ⟨hne, hcounts⟩ := hc.clones _ rfl
    obtain ⟨C, hC, hcloned⟩ := cowClone_cloned h.holds.spaces.frames (h.holds.spaces.chain D hD)
      (h.holds.spaces.own hD) hne
    rw [step_clone hne, ← hC]
    exact ⟨C :: dirs, clone_simulates h hD hcloned hcounts⟩
  | write d va value =>
    obtain rfl : D.pml4 = d := hspace
    cases hwrite : userWrite w.sys D.pml4 va value with
    | none =>
      have hstep : step w (.write D.pml4 va value) = (false, w) := by rw [step, hwrite]
      rw [hstep]
      exact ⟨dirs, h⟩
    | some sys =>
      rw [step_write hwrite]
      exact ⟨dirs, write_simulates h hD hwrite⟩
  | release d =>
    obtain rfl : D.pml4 = d := hspace
    have hreleased := releaseUserPages_released h.holds.spaces.frames (h.holds.spaces.chain D hD)
      (h.holds.spaces.own hD)
    refine ⟨dirs.erase D, ?_, hreleased.holds h.holds hD, fun f => ?_⟩
    · show w.spec.spaces.erase D.pml4 = _
      rw [h.spaces]
      exact (map_erase_pml4 fun E hE heq => h.holds.spaces.pml4_inj hE hD heq).symm
    · have hless := hreleased.frames.counted f
      have hbelow := h.below f
      show (releaseUserPages w.sys D.pml4).frames.refcount f < 255
      omega

/-- What a simulated machine shows. -/
theorem Simulates.read (hd : d ∈ w.spec.spaces) {byte : UInt8}
    (hread : userRead w.sys d va = some byte) : byte = w.spec.mem d va := by
  have hmem := hd
  rw [h.spaces] at hmem
  obtain ⟨D, hD, rfl⟩ := List.mem_map.mp hmem
  have hchain := h.holds.spaces.chain D hD
  obtain ⟨e, hwalk, hbyte⟩ := Option.map_eq_some_iff.mp hread
  obtain ⟨hva, rfl, hpresent⟩ := walk_some hchain hwalk
  have hp := (idx_user hva).2.2.2.2
  have hcontent : w.sys.bytes (leaf w.sys D (pageNo va)).phys = byPage w.spec.mem D.pml4 (pageNo va) :=
    h.holds.cow.content D.pml4 (List.mem_map_of_mem hD) _ hp _ _ (view_present hchain hp hpresent)
  rw [← hbyte, hcontent, byPage, (va_eq_iff hva _ _).mpr ⟨rfl, rfl⟩]

end

/-- A run of legal calls keeps it. -/
theorem exec_simulates (calls : List Call) (h : Simulates w dirs)
    (hlegal : Guarded step Legal w calls) : ∃ dirs', Simulates (exec step w calls).2 dirs' := by
  have hkept : ∀ w, (∃ dirs, Simulates w dirs) → Guarded step Legal w calls →
      ∃ dirs', Simulates (exec step w calls).2 dirs' :=
    exec_inv (fun w c ⟨_, hw⟩ hc => step_simulates hw hc) calls
  exact hkept w ⟨dirs, h⟩ hlegal

/-- The number of present user entries, over all surviving spaces, that map the frame at `a`. -/
def mappings (w : World) (a : Nat) : Nat := Cow.count userPages (store w.sys w.spec.spaces) a

/-- **Copy-on-write isolation.**  From one directory with private, writable pages, if neither it nor the free frames
    lie in the user window, after any legal calls: a mapped byte of a surviving space reads as in its private memory,
    and a frame that is still mapped has as its reference count the number of its mappings. -/
theorem cow_isolation (h : Initial Outside s D) (calls : List Call)
    (hlegal : Guarded step Legal (start s D.pml4) calls) {w : World}
    (hw : w = (exec step (start s D.pml4) calls).2) :
    (∀ d ∈ w.spec.spaces, ∀ va byte, userRead w.sys d va = some byte → byte = w.spec.mem d va) ∧
      ∀ a, 0 < mappings w a → w.sys.frames.refcount (a / physmemFrameSize) = mappings w a := by
  obtain ⟨dirs, hsim⟩ := exec_simulates calls h.simulates hlegal
  rw [← hw] at hsim
  constructor
  · exact fun d hd va byte hread => hsim.read hd hread
  · intro a hmapped
    unfold mappings at hmapped ⊢
    rw [hsim.spaces] at hmapped ⊢
    exact hsim.holds.cow.counts a hmapped

/-- The 4 MB region at `base` is in use, each frame with one reference: `physmem_alloc_region` handed it
    out. -/
def OwnRegion (fr : Physmem.State) (base : Nat) : Prop :=
  ∀ p < userPages, InUse fr (base + p * pageSize) ∧
    fr.refcount ((base + p * pageSize) / physmemFrameSize) = 1

/-- **A new directory over a region of its own** is one to start from. -/
theorem created_initial {base : Nat} (h : Created s s' base D) (hfr : s.frames.Inv)
    (hregion : OwnRegion s.frames base) (hbelow : ∀ f, s.frames.refcount f < 255) (hfree : FreeOk ok s.frames)
    (hplaced : ∀ p < userPages, ok (base + p * pageSize)) : Initial ok s' D := by
  have hpage : ∀ p < userPages, (leaf s' D p).present →
      leaf s' D p = Pte.rw (base + p * pageSize) := by
    intro p hp hpresent
    rw [h.pages p hp, initialEntry] at hpresent ⊢
    split at hpresent
    · cases hpresent
    · rename_i hguard
      rw [if_neg hguard]
  have hkept : ∀ f, frameAddr f ∉ D.frames → s'.frames.refcount f = s.frames.refcount f := by
    intro f hf
    have hcount := h.frames.counted f hf (Nat.le_of_lt (hbelow f))
    have hlt := hbelow f
    omega
  refine ⟨⟨h.frames.inv, hfree.grows h.frames, ?_, ?_, ?_, ?_, ?_⟩, ?_, ?_, ?_, ?_⟩
  · exact List.forall_mem_singleton.mpr h.chain
  · exact h.frames.nodup
  · exact fun a ha => h.frames.taken_inUse hfr ha
  · exact fun a ha => hfree.taken h.frames ha
  · intro E hE p hp hpresent
    obtain rfl := List.mem_singleton.mp hE
    rw [hpage p hp hpresent]
    refine ⟨h.frames.inUse (hregion p hp).1, hplaced p hp, ?_, rfl, rfl⟩
    exact fun hmem => h.frames.not_inUse hmem (hregion p hp).1
  · intro p hp hpresent
    rw [hpage p hp hpresent]
    rfl
  · intro p hp q hq hpresent hpresent' heq
    rw [hpage p hp hpresent, hpage q hq hpresent'] at heq
    simp only [Pte.rw_phys, pageSize] at heq
    omega
  · intro p hp hpresent
    obtain ⟨huse, hone⟩ := hregion p hp
    rw [hpage p hp hpresent, Pte.rw_phys, hkept, hone]
    rw [frameAddr_of_inUse huse]
    exact fun hmem => h.frames.not_inUse hmem huse
  · exact grows_below h.frames hbelow (by decide)

/-! ### Programs in memory -/

/-- A machine of 8192 frames: those from 1283 to 1299 are free, and each other one has one owner.  The kernel's
    tables stand on the three frames before; frame 5120 is full of 5s, all others are clear. -/
def booted : State where
  frames :=
    { marked := fun f => decide (f < 1283 ∨ 1300 ≤ f)
      refcount := fun f => if f < 1283 ∨ 1300 ≤ f then 1 else 0
      totalFrames := 8192
      freeFrames := 17
      highestAddress := 8192 * physmemFrameSize }
  tables := fun _ _ => Pte.zero
  bytes := fun a _ => if a = frameAddr 5120 then 5 else 0
  kernelPml4 := frameAddr 1280
  kernelPdpt := frameAddr 1281
  kernelPd0 := frameAddr 1282

theorem booted_inv : booted.frames.Inv := by
  refine ⟨by decide, fun f hf _ => ?_⟩
  simp only [lowFrames] at *
  exact decide_eq_true (by omega)

theorem booted_inUse (hlow : lowFrames ≤ f) (hf : f < 1283 ∨ 1300 ≤ f) (hlt : f < 8192) :
    InUse booted.frames (frameAddr f) := ⟨f, rfl, hlow, hlt, decide_eq_true hf⟩

/-- The free frames of the machine lie below the user window. -/
theorem booted_free : FreeOk Outside booted.frames := by
  intro f _ hfree
  have hf := of_decide_eq_false hfree
  refine Bool.and_eq_false_iff.mpr (.inl (decide_eq_false ?_))
  simp only [frameAddr, physmemFrameSize, userBase]
  omega

/-- Page `p` in parent and child when the program of the frames from `f` on has forked. -/
structure SharedPage (f p : Nat) (s s' : State) (D C : Dir) : Prop where
  before : leaf s D p = Pte.rw (frameAddr (f + p))
  parent : leaf s' D p = Pte.shared (frameAddr (f + p))
  child : leaf s' C p = Pte.shared (frameAddr (f + p))
  count : physmemFrameRefcount s'.frames (frameAddr (f + p)) ≠ 1

/-- The program gets its directory, and forks. -/
structure Forked (f : Nat) (s s' : State) (D C : Dir) : Prop where
  created : createUserDirectory booted (frameAddr f) = (D.pml4, s)
  bytes : s.bytes = booted.bytes
  clone : cowClone s D.pml4 = (C.pml4, s')
  legal : C.pml4 ≠ 0 ∧ ∀ g, s'.frames.refcount g < 255
  cloned : Cloned s s' D C
  pages : ∀ p ∈ [0, 512], SharedPage f p s s' D C
  free : HasFree s'.frames 2 ∧ FreeOk Outside s'.frames

/-- **A program forks**, wherever its 4 MB are. -/
theorem booted_forked (ok : Nat → Prop) (hf : f = 256 ∨ f = 4608) (hfree : FreeOk ok booted.frames)
    (hplaced : ∀ p < userPages, ok (frameAddr f + p * pageSize)) :
    ∃ s s' D C, Initial ok s D ∧ Forked f s s' D C := by
  have htwelve : HasFree booted.frames (5 + (5 + 2)) :=
    ⟨[1283, 1284, 1285, 1286, 1287, 1288, 1289, 1290, 1291, 1292, 1293, 1294], by decide, by decide, by decide⟩
  have hkernel : ∀ k ∈ [booted.kernelPml4, booted.kernelPdpt, booted.kernelPd0], InUse booted.frames k := by
    intro k hk
    simp only [List.mem_cons, List.not_mem_nil, or_false] at hk
    rcases hk with rfl | rfl | rfl <;> exact booted_inUse (by decide) (by decide) (by decide)
  have hpage : ∀ p, frameAddr f + p * pageSize = frameAddr (f + p) := by
    intro p
    unfold frameAddr physmemFrameSize pageSize
    omega
  have hone : ∀ g, booted.frames.refcount g < 2 := by
    intro g
    simp only [booted]
    split <;> decide
  -- the directory
  have hdir := createUserDirectory_ne_zero (frameAddr f) booted_inv (by decide) (htwelve.mono (by decide))
  obtain ⟨D, hD, hcreated⟩ := createUserDirectory_created booted_inv hkernel hdir
  generalize hs : (createUserDirectory booted (frameAddr f)).2 = s at hcreated
  have hinit : Initial ok s D := by
    refine created_initial hcreated booted_inv (fun p hp => ?_) (fun g => (hone g).trans (by decide)) hfree hplaced
    unfold userPages at hp
    rw [hpage, frameAddr_div]
    exact ⟨booted_inUse (by unfold lowFrames; omega) (by omega) (by omega), if_pos (by omega)⟩
  have hfive : HasFree s.frames (5 + 2) := HasFree.grows htwelve hcreated.frames
  -- the clone
  have hchain := hinit.spaces.chain D (.head _)
  have hown := hinit.spaces.own (.head _)
  have hne := cowClone_ne_zero hinit.spaces.frames hchain hown
    (by rw [← hs, createUserDirectory_kernelPml4 hdir]; decide) (hfive.mono (by decide))
  obtain ⟨C, hC, hcloned⟩ := cowClone_cloned hinit.spaces.frames hchain hown hne
  have hshared : ∀ g, sharedCount s D g ≤ 1 := sharedCount_le_one fun p hp q hq hpp hqp heq =>
    hinit.distinct p hp q hq (Bool.and_eq_true_iff.mp hpp).1 (Bool.and_eq_true_iff.mp hqp).1 heq
  refine ⟨s, _, D, C, hinit, by rw [hD, hs.symm], hcreated.bytes, by rw [hC], ⟨by rwa [hC], ?_⟩, hcloned,
    fun p hp => ?_, HasFree.grows hfive hcloned.frames, (booted_free.grows hcreated.frames).grows hcloned.frames⟩
  · refine grows_below hcloned.frames (fun g => ?_) (by decide)
    have hold := grows_below hcreated.frames hone (by decide) g
    have hnew := hshared g
    omega
  have hp : p < userPages ∧ pageVa 0 p ≠ userStackGuardBase ∧ inShm (pageVa 0 p) = false := by
    simp only [List.mem_cons, List.not_mem_nil, or_false] at hp
    rcases hp with rfl | rfl <;> decide +kernel
  have hleaf : leaf s D p = Pte.rw (frameAddr (f + p)) := by
    rw [hcreated.pages p hp.1, initialEntry, if_neg hp.2.1, hpage]
  have hpresent : (leaf s D p).present := by rw [hleaf]; rfl
  have hshares : shares (Pte.rw (frameAddr (f + p))) (pageVa 0 p) := by
    rw [shares, hp.2.2]
    rfl
  have huse : InUse s.frames (frameAddr (f + p)) := by
    have huse := hown.pages p hp.1 hpresent
    rwa [hleaf] at huse
  refine ⟨hleaf, ?_, ?_, ?_⟩
  · rw [hcloned.parent p hp.1, hleaf, parentEntry, if_pos hshares]
    rfl
  · rw [hcloned.child p hp.1, hleaf, childEntry, if_pos hshares]
    rfl
  · have hone := hinit.counts p hp.1 hpresent
    have hpos : 0 < sharedCount s D (f + p) :=
      List.countP_pos_iff.mpr ⟨p, List.mem_range.mpr hp.1, by rw [hleaf, sharesFrame, hshares]; simp⟩
    have hcount := hcloned.frames.counted (f + p) (fun hmem => hcloned.frames.not_inUse hmem huse)
      (Nat.le_of_lt (hinit.below _))
    rw [hleaf, Pte.rw_phys, frameAddr_div] at hone
    rw [frameRefcount_eq (hcloned.frames.inUse huse), frameAddr_div]
    omega

/-- The first step of the machine. -/
theorem Forked.step (h : Forked f s s' D C) : step (start s D.pml4) (.clone D.pml4)
    = (true, ⟨s', (start s D.pml4).spec.fork D.pml4 C.pml4⟩) := by
  have hclone := h.clone
  rw [step_clone (by rw [start, hclone]; exact h.legal.1), start, hclone]

theorem Forked.clone_legal (h : Forked f s s' D C) :
    Legal (start s D.pml4) (.clone D.pml4) := by
  refine ⟨List.mem_singleton_self _, fun d hd => ?_⟩
  obtain rfl := Call.clone.inj hd
  rw [start, h.clone]
  exact h.legal

/-- The program of the frames from 256 on forks, and parent and child write its first byte: the parent on a copy, the
    child in place. -/
theorem cow_isolation_two_writers : ∃ s d c w, createUserDirectory booted (frameAddr 256) = (d, s) ∧
    exec step (start s d) [.clone d, .write d userBase 7, .write c userBase 9] = ([true, true, true], w) ∧
    userRead w.sys d userBase = some 7 ∧ userRead w.sys c userBase = some 9 ∧
    ∀ a, 0 < mappings w a → w.sys.frames.refcount (a / physmemFrameSize) = mappings w a := by
  obtain ⟨s, s₁, D, C, hinit, h⟩ : ∃ s s' D C, Initial Outside s D ∧ Forked 256 s s' D C := by
    refine booted_forked _ (.inl rfl) booted_free fun p hp => ?_
    refine Bool.and_eq_false_iff.mpr (.inl (decide_eq_false ?_))
    simp only [frameAddr, physmemFrameSize, userBase, userPages, pageSize] at *
    omega
  have hsim₁ := clone_simulates hinit.simulates (List.mem_singleton_self D) h.cloned h.legal.2
  have hD : D ∈ [C, D] := .tail _ (.head _)
  have hC : C ∈ [C, D] := .head _
  have hne : C.pml4 ≠ D.pml4 := fun heq =>
    cloned_fresh h.cloned hinit.spaces (.head _) (heq ▸ .head _)
  have hpage : pageNo userBase = 0 := by decide
  have hfirst := h.pages 0 (.head _)
  obtain ⟨w₂, hstep₂, hspec₂, hsim₂, hfree₂, hkept₂⟩ := step_write_ok hsim₁ hD 7 (by decide : inUser userBase)
    (by rw [hpage, hfirst.parent]; rfl) h.free.1
  have hpresent₂ : (leaf w₂.sys C 0).present ∧ (leaf w₂.sys D 0).present :=
    ⟨hkept₂ C hC 0 (by decide) (by rw [hfirst.child]; rfl), hkept₂ D hD 0 (by decide) (by rw [hfirst.parent]; rfl)⟩
  obtain ⟨w, hstep₃, hspec, hsim, _, hkept⟩ := step_write_ok hsim₂ hC 9 (by decide : inUser userBase)
    (by rw [hpage]; exact hpresent₂.1) hfree₂
  have hrun : exec step (start s D.pml4) [.clone D.pml4, .write D.pml4 userBase 7, .write C.pml4 userBase 9]
      = ([true, true, true], w) := by
    simp only [exec_cons, exec_nil, h.step, hstep₂, hstep₃]
  have hiso := cow_isolation hinit [.clone D.pml4, .write D.pml4 userBase 7, .write C.pml4 userBase 9]
    ⟨h.clone_legal, by rw [h.step]; exact ⟨legal_write (.tail _ (.head _)), by
      rw [hstep₂]; exact ⟨legal_write (by rw [hspec₂]; exact .head _), trivial⟩⟩⟩ (congrArg Prod.snd hrun).symm
  have hread : ∀ E ∈ [C, D], (leaf w.sys E 0).present →
      userRead w.sys E.pml4 userBase = some (w.spec.mem E.pml4 userBase) := by
    intro E hE hpresent
    have heq := userRead_eq (hsim.holds.spaces.chain E hE) (by decide : inUser userBase) (by rwa [hpage])
      (by rw [hpage]; exact (hsim.holds.spaces.pages E hE 0 (by decide) hpresent).user)
    rw [heq, ← hiso.1 E.pml4 (hsim.spaces ▸ List.mem_map_of_mem hE) _ _ heq]
  refine ⟨s, D.pml4, C.pml4, w, h.created, hrun, ?_, ?_, hiso.2⟩
  · rw [hread D hD (hkept D hD 0 (by decide) hpresent₂.2), hspec, hspec₂]
    simp [Private.write, hne.symm]
  · rw [hread C hC (hkept C hC 0 (by decide) hpresent₂.1), hspec]
    simp [Private.write]

/-- The page of the child at 0x01000000 stands on frame 4608, which is at 0x01200000.  There the child has the page of
    frame 5120, and that is what a write to the first page copies. -/
theorem Forked.wrong_copy (h : Forked 4608 s s' D C) :
    ∃ r, userWrite s' C.pml4 userBase 9 = some r ∧ userRead r C.pml4 (userBase + 1) = some 5 := by
  have hfirst := h.pages 0 (.head _)
  have hchain := h.cloned.chain
  have hnodup := h.cloned.frames.nodup
  have hpage : pageNo userBase = 0 ∧ pageNo (userBase + 1) = 0 ∧ pageNo (frameAddr 4608) = 512 := by decide
  have hnew : s'.allocFrame.1 ≠ 0 := allocFrame_ne_zero h.cloned.frames.inv h.free.1
  have hthere : leaf s'.allocFrame.2 C (pageNo (frameAddr 4608)) = Pte.shared (frameAddr 5120) := by
    rw [hpage.2.2]
    exact (h.pages 512 (.tail _ (.head _))).child
  have hsrc := kernelFrame_page (s := s'.allocFrame.2) (a := frameAddr 4608)
    (chain_congr hchain fun _ _ _ => rfl) (by decide) (by rw [hthere]; rfl)
  rw [hthere, Pte.shared_phys] at hsrc
  obtain ⟨t, ht⟩ : ∃ t, t = setLeaf (copied s' (frameAddr 4608) s'.allocFrame.1 (frameAddr 5120)) C 0
    (Pte.rw s'.allocFrame.1) := ⟨_, rfl⟩
  have hres : cowResolve s' C.pml4 userBase = (true, t) := by
    rw [cowResolve_eq hchain (by decide), hpage.1, hfirst.child, if_neg (by decide), Pte.shared_phys,
      if_neg hfirst.count, if_neg hnew, kernelFrame_outside (h.free.2.fresh h.cloned.frames.inv hnew), hsrc, ht]
  have hbytes : t.bytes = update s'.bytes s'.allocFrame.1 (s'.bytes (frameAddr 5120)) := by rw [ht]; rfl
  have hleaf : leaf t C 0 = Pte.rw s'.allocFrame.1 := by
    rw [ht, leaf_setLeaf (by simp only [Dir.frames, List.nodup_cons, List.mem_cons] at hnodup; tauto) (by decide) _
      (by decide), if_pos rfl]
  have hchain' : Chain t C := chain_congr hchain fun u hu i => by
    rw [ht, setLeaf, setEntry_tables, if_neg fun e => Dir.upper_ne_pt hnodup hu _ e.1]
    rfl
  obtain ⟨r, hr⟩ : ∃ r, r = { t with
      bytes := update t.bytes s'.allocFrame.1 (update (t.bytes s'.allocFrame.1) (pageOffset userBase) 9) } := ⟨_, rfl⟩
  have hleaf' : leaf r C (pageNo (userBase + 1)) = Pte.rw s'.allocFrame.1 := by rw [hr, hpage.2.1]; exact hleaf
  refine ⟨r, ?_, ?_⟩
  · rw [userWrite, userStore_none hchain (by decide) (by rw [hpage.1, hfirst.child]; rfl)
      (by rw [hpage.1, hfirst.child]; rfl) (by rw [hpage.1, hfirst.child]; decide), hres, hr]
    exact userStore_rw hchain' (by decide) (by rw [hpage.1]; exact hleaf)
  · rw [userRead_eq (D := C) (chain_congr hchain' fun _ _ _ => by rw [hr]) (by decide) (by rw [hleaf']; rfl)
      (by rw [hleaf']; rfl), hleaf', hr]
    dsimp only
    rw [Pte.rw_phys, update_self, update_of_ne (by decide), hbytes, update_self, h.cloned.bytes, h.bytes]
    rfl

/-- The program of the frames from 4608 on forks, and the child writes its first byte.  The second one is then not
    the one it was forked with. -/
theorem window_page_copied_wrong : ∃ s D c w, createUserDirectory booted (frameAddr 4608) = (D.pml4, s) ∧
    Initial (fun _ => True) s D ∧ Guarded step Legal (start s D.pml4) [.clone D.pml4, .write c userBase 9] ∧
    exec step (start s D.pml4) [.clone D.pml4, .write c userBase 9] = ([true, true], w) ∧ c ∈ w.spec.spaces ∧
    userRead w.sys c (userBase + 1) = some 5 ∧ w.spec.mem c (userBase + 1) = 0 := by
  obtain ⟨s, s', D, C, hinit, h⟩ := booted_forked (fun _ => True) (.inr rfl) (fun _ _ _ => trivial)
    fun _ _ => trivial
  obtain ⟨r, hwrite, hread⟩ := h.wrong_copy
  have hsecond := step_write (w := ⟨s', (start s D.pml4).spec.fork D.pml4 C.pml4⟩) hwrite
  have hfirst := (h.pages 0 (.head _)).before
  have hpage : pageNo (userBase + 1) = 0 := by decide
  have hstart := userRead_eq (hinit.spaces.chain D (List.mem_singleton_self D)) (by decide : inUser (userBase + 1))
    (by rw [hpage, hfirst]; rfl) (by rw [hpage, hfirst]; rfl)
  rw [hpage, hfirst, h.bytes] at hstart
  refine ⟨s, D, C.pml4, _, h.created, hinit, ⟨h.clone_legal, by rw [h.step]; exact ⟨legal_write (.head _), trivial⟩⟩,
    by simp only [exec_cons, exec_nil, h.step, hsecond]; rfl, .head _, hread, ?_⟩
  simp only [Private.write, Private.fork, start, update_self]
  rw [update_of_ne (by decide), hstart]
  decide

end

end Lyth.CowIsolation
