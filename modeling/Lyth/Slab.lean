/-
  The slab allocator for small kernel objects (`kernel/mem/slab.c`).

  Eight caches hold objects of 16, 32, …, 2048 bytes.  A cache is backed by 4 KB pages; each page
  begins with a 32-byte header, and the rest is cut into equal objects whose free ones form a list.

    1. The program.   `slabAlloc` takes an object from the first page of the cache's partial list, or
       from a fresh page; `slabFree` rounds the pointer down to its page and pushes the object back.
       A page with no free object moves from the partial list to the full list, and back on a free.
    2. Specification.  `State.Inv`: every free object lies inside its page, behind the header; a page
       on a partial list belongs to that cache and has a free object.  So `slabAlloc` never follows
       the null end of a free list, and what it returns lies in one slab page (`slabAlloc_spec`).
    3. Crux.  A page leaves the partial list exactly when its free list becomes empty; the list has
       no page twice, so no other entry of it loses its free object.

  A page is known by its base address.  Frames come from `physmem_alloc_frame`; what that call answers
  is a parameter `frame` of `slabAlloc` (0: no frame).
-/
import Lyth.Lib.Table
import Lyth.Lib.Word

namespace Lyth.Slab

open Word Table Function

/-! ## The model -/

/-- `SLAB_MAX_OBJ`. -/
def slabMaxObj : Nat := 2048

/-- `SLAB_PAGE_SIZE`. -/
def slabPageSize : Nat := 4096

/-- `SLAB_NUM_CACHES`. -/
abbrev slabNumCaches : Nat := 8

/-- `sizeof(slab_page_t)`. -/
def sizeofSlabPage : Nat := 32

/-- `cache_sizes[]`. -/
def cacheSizes (ci : Fin slabNumCaches) : Nat := [16, 32, 64, 128, 256, 512, 1024, 2048].get ci

/-- A page header: the cache it belongs to and its free objects, head first.  `free_count` is the
    length of the list. -/
structure Page where
  cacheIdx : Fin slabNumCaches
  freeList : List Nat
deriving DecidableEq

/-- The state of `slab.c`: the page headers, by base address, and the two page lists per cache. -/
structure State where
  ready : Bool
  header : Nat → Option Page
  partialPages : Fin slabNumCaches → List Nat
  fullPages : Fin slabNumCaches → List Nat

/-- Before `slab_init`: nothing is a slab page. -/
def State.empty : State :=
  { ready := false, header := fun _ => none, partialPages := fun _ => [], fullPages := fun _ => [] }

/-- `slab_init()`. -/
def slabInit (s : State) : State :=
  { s with ready := true, partialPages := fun _ => [], fullPages := fun _ => [] }

/-- `cache_index_for_size(size)`: the first cache whose objects are large enough. -/
def cacheIndexForSize (size : Nat) : Option (Fin slabNumCaches) :=
  firstIdx fun ci => decide (size ≤ cacheSizes ci)

/-- `header_size_aligned(obj_size)`. -/
def headerSizeAligned (objSize : Nat) : Nat := alignUp sizeofSlabPage objSize

/-- The number of objects a page of the cache holds. -/
def capacity (ci : Fin slabNumCaches) : Nat :=
  (slabPageSize - headerSizeAligned (cacheSizes ci)) / cacheSizes ci

/-- The header `slab_page_create(ci)` writes on the frame at `base`.  Each object is pushed on the
    free list in turn, so the last one is its head. -/
def slabPageCreate (ci : Fin slabNumCaches) (base : Nat) : Page :=
  { cacheIdx := ci
    freeList := (List.range (capacity ci)).foldl
      (fun freeList i => (base + headerSizeAligned (cacheSizes ci) + i * cacheSizes ci) :: freeList) [] }

/-- Write the header at `base`. -/
def State.setHeader (s : State) (base : Nat) (page : Page) : State :=
  { s with header := update s.header base (some page) }

/-- Set the partial list of a cache. -/
def State.setPartial (s : State) (ci : Fin slabNumCaches) (pages : List Nat) : State :=
  { s with partialPages := update s.partialPages ci pages }

/-- Set the full list of a cache. -/
def State.setFull (s : State) (ci : Fin slabNumCaches) (pages : List Nat) : State :=
  { s with fullPages := update s.fullPages ci pages }

/-- The second half of `slab_alloc`: pop an object of the page at `base`, the head of the cache's
    partial list, and move the page to the full list if that was its last one.  A page without a
    free object would make the code follow a null pointer (`State.Inv.partial_page` excludes it). -/
def slabPop (s : State) (ci : Fin slabNumCaches) (base : Nat) : Nat × State :=
  match s.header base with
  | none => (0, s)
  | some page =>
    match page.freeList with
    | [] => (0, s)
    | obj :: rest =>
      let s' := s.setHeader base { page with freeList := rest }
      if rest = [] then
        (obj, (s'.setPartial ci (s.partialPages ci).tail).setFull ci (base :: s.fullPages ci))
      else (obj, s')

/-- `slab_alloc(size)`; 0 is the null pointer. -/
def slabAlloc (s : State) (size frame : Nat) : Nat × State :=
  if s.ready = false ∨ size = 0 ∨ size > slabMaxObj then (0, s)
  else
    match cacheIndexForSize size with
    | none => (0, s)
    | some ci =>
      match s.partialPages ci with
      | base :: _ => slabPop s ci base
      | [] =>
        -- no partial page: carve up a fresh frame
        if frame = 0 then (0, s)
        else slabPop ((s.setHeader frame (slabPageCreate ci frame)).setPartial ci [frame]) ci frame

/-- The page a pointer lies in: `ptr & ~(SLAB_PAGE_SIZE - 1)`. -/
def pageOf (ptr : Nat) : Nat := alignDown ptr slabPageSize

/-- `slab_free(ptr)` on a page whose header reads as `page`. -/
def slabFree (s : State) (ptr : Nat) (page : Page) : State :=
  let s' := s.setHeader (pageOf ptr) { page with freeList := ptr :: page.freeList }
  if page.freeList = [] then
    (s'.setFull page.cacheIdx ((s.fullPages page.cacheIdx).erase (pageOf ptr))).setPartial page.cacheIdx
      (pageOf ptr :: s.partialPages page.cacheIdx)
  else s'

section

variable (s : State) (base : Nat) (page : Page) (ci : Fin slabNumCaches) (pages : List Nat)

@[simp] theorem setHeader_header :
    (s.setHeader base page).header = update s.header base (some page) := rfl

@[simp] theorem setPartial_header : (s.setPartial ci pages).header = s.header := rfl

@[simp] theorem setPartial_partialPages :
    (s.setPartial ci pages).partialPages = update s.partialPages ci pages := rfl

end

/-! ## What a page holds -/

/-- An object of cache `ci` lies in the page at `base`, behind the header. -/
def ObjAt (base : Nat) (ci : Fin slabNumCaches) (obj : Nat) : Prop :=
  base + sizeofSlabPage ≤ obj ∧ obj + cacheSizes ci ≤ base + slabPageSize

/-- The header leaves room for at least one object of each cache, and objects are never empty. -/
theorem cache_layout (ci : Fin slabNumCaches) : sizeofSlabPage ≤ headerSizeAligned (cacheSizes ci) ∧
      headerSizeAligned (cacheSizes ci) ≤ slabPageSize ∧ 0 < cacheSizes ci ∧ 0 < capacity ci := by
  revert ci
  decide

variable {ci : Fin slabNumCaches}

/-- The last byte of an object is in the page. -/
theorem object_end {i : Nat} (hi : i < capacity ci) :
    i * cacheSizes ci + cacheSizes ci ≤ slabPageSize - headerSizeAligned (cacheSizes ci) := by
  rw [← Nat.succ_mul]
  exact (Nat.le_div_iff_mul_le (cache_layout ci).2.2.1).mp hi

/-- The chosen cache's objects have at least the size asked for. -/
theorem le_cacheSizes_of_cacheIndexForSize {size : Nat}
    (h : cacheIndexForSize size = some ci) : size ≤ cacheSizes ci :=
  of_decide_eq_true (firstIdx_some h)

/-- Pushing the values `f i` one after the other gives them all, and no others. -/
theorem mem_foldl_push {f : Nat → Nat} {x : Nat} (is acc : List Nat) :
    x ∈ is.foldl (fun l i => f i :: l) acc ↔ (∃ i ∈ is, f i = x) ∨ x ∈ acc := by
  induction is generalizing acc with
  | nil => simp
  | cons i is ih =>
    grind

variable {base : Nat}

/-- Every object of a fresh page lies in the page. -/
theorem slabPageCreate_objAt {obj : Nat}
    (h : obj ∈ (slabPageCreate ci base).freeList) : ObjAt base ci obj := by
  obtain ⟨i, hi, rfl⟩ : ∃ i ∈ List.range (capacity ci),
      base + headerSizeAligned (cacheSizes ci) + i * cacheSizes ci = obj := by
    simpa [slabPageCreate] using h
  obtain ⟨hhdr, hroom, _⟩ := cache_layout ci
  have hend := object_end (List.mem_range.mp hi)
  constructor <;> omega

/-- A fresh page has a free object. -/
theorem slabPageCreate_ne_nil (ci : Fin slabNumCaches) (base : Nat) :
    (slabPageCreate ci base).freeList ≠ [] := by
  have hfirst : base + headerSizeAligned (cacheSizes ci) + 0 * cacheSizes ci
      ∈ (slabPageCreate ci base).freeList :=
    (mem_foldl_push _ _).mpr (.inl ⟨0, List.mem_range.mpr (cache_layout ci).2.2.2, rfl⟩)
  exact List.ne_nil_of_mem hfirst

/-- A pointer into a page rounds down to the page. -/
theorem pageOf_objAt {obj : Nat} (h : ObjAt base ci obj)
    (haligned : base % slabPageSize = 0) (hbase : base < 2 ^ 32) : pageOf obj = base := by
  obtain ⟨hlo, hhi⟩ := h
  have hpos := (cache_layout ci).2.2.1
  rw [slabPageSize] at haligned hhi
  rw [pageOf, slabPageSize, alignDown_page (by omega)]
  omega

/-! ## The invariant -/

/-- The invariant of the slab allocator. -/
structure State.Inv (s : State) : Prop where
  page_aligned : ∀ base page, s.header base = some page →
    base % slabPageSize = 0 ∧ 0 < base ∧ base < 2 ^ 32
  free_objAt : ∀ base page, s.header base = some page →
    ∀ obj ∈ page.freeList, ObjAt base page.cacheIdx obj
  partial_page : ∀ ci, ∀ base ∈ s.partialPages ci,
    ∃ page, s.header base = some page ∧ page.cacheIdx = ci ∧ page.freeList ≠ []
  partial_nodup : ∀ ci, (s.partialPages ci).Nodup

/-- Slab pages stay slab pages of the same cache, and no page appears except possibly `fresh`. -/
structure Extends (s s' : State) (fresh : Nat) : Prop where
  keeps : ∀ base page, s.header base = some page →
    ∃ page', s'.header base = some page' ∧ page'.cacheIdx = page.cacheIdx
  only : ∀ base page, s'.header base = some page →
    (∃ page', s.header base = some page') ∨ (base = fresh ∧ fresh ≠ 0)

theorem Extends.refl (s : State) (fresh : Nat) : Extends s s fresh :=
  ⟨fun _ page h => ⟨page, h, rfl⟩, fun _ page h => .inl ⟨page, h⟩⟩

variable {s : State}

theorem Extends.trans {s' s'' : State} {fresh : Nat} (h : Extends s s' fresh)
    (h' : Extends s' s'' fresh) : Extends s s'' fresh := by
  constructor
  · intro base page hpage
    obtain ⟨page', hpage', hci⟩ := h.keeps base page hpage
    obtain ⟨page'', hpage'', hci'⟩ := h'.keeps base page' hpage'
    exact ⟨page'', hpage'', hci'.trans hci⟩
  · intro base page hpage
    rcases h'.only base page hpage with ⟨page', hpage'⟩ | hfresh
    · exact h.only base page' hpage'
    · exact .inr hfresh

/-- Only the headers matter. -/
theorem Extends.of_header_eq {s' s'' : State} {fresh : Nat} (h : Extends s s' fresh)
    (heq : s''.header = s'.header) : Extends s s'' fresh := by
  constructor
  · rw [heq]
    exact h.keeps
  · rw [heq]
    exact h.only

theorem slabInit_inv (h : s.header = fun _ => none) : (slabInit s).Inv := by
  have hnone : ∀ base page, (slabInit s).header base ≠ some page := by
    intro base page hpage
    rw [show (slabInit s).header = s.header from rfl, h] at hpage
    cases hpage
  constructor
  · intro base page hpage
    exact absurd hpage (hnone base page)
  · intro base page hpage
    exact absurd hpage (hnone base page)
  · intro ci base hbase
    exact absurd hbase List.not_mem_nil
  · intro ci
    exact List.nodup_nil

variable {page : Page}

/-- Writing a header keeps the invariant if the header is that of a page, and the lists that have the
    page may keep it. -/
theorem State.Inv.setHeader (hs : s.Inv)
    (hbase : base % slabPageSize = 0 ∧ 0 < base ∧ base < 2 ^ 32)
    (hfree : ∀ obj ∈ page.freeList, ObjAt base page.cacheIdx obj)
    (hpart : ∀ ci, base ∈ s.partialPages ci → page.cacheIdx = ci ∧ page.freeList ≠ []) :
    (s.setHeader base page).Inv := by
  constructor
  · exact forall_update_some hbase fun b p hp _ => hs.page_aligned b p hp
  · exact forall_update_some hfree fun b p hp _ => hs.free_objAt b p hp
  · intro ci b hb
    rw [setHeader_header]
    rcases eq_or_ne b base with rfl | hne
    · exact ⟨page, update_self .., hpart ci hb⟩
    · rw [update_of_ne hne]
      exact hs.partial_page ci b hb
  · exact hs.partial_nodup

/-- A page on a partial list is of that cache and has a free object. -/
theorem State.Inv.partial_of (hs : s.Inv)
    (hpage : s.header base = some page) :
    ∀ ci, base ∈ s.partialPages ci → page.cacheIdx = ci ∧ page.freeList ≠ [] := by
  intro ci hin
  obtain ⟨page', hpage', hci⟩ := hs.partial_page ci base hin
  rw [hpage] at hpage'
  obtain rfl := Option.some.inj hpage'
  exact hci

/-- Setting a partial list keeps the invariant if its pages are pages of the cache with a free
    object, each once. -/
theorem State.Inv.setPartial (hs : s.Inv) {pages : List Nat}
    (hpages : ∀ base ∈ pages, ∃ page, s.header base = some page ∧ page.cacheIdx = ci ∧ page.freeList ≠ [])
    (hnodup : pages.Nodup) : (s.setPartial ci pages).Inv := by
  refine ⟨hs.page_aligned, hs.free_objAt, fun ci' => ?_, fun ci' => ?_⟩ <;>
    rw [setPartial_partialPages] <;> rcases eq_or_ne ci' ci with rfl | hne
  · rwa [update_self]
  · rw [update_of_ne hne]
    exact hs.partial_page ci'
  · rwa [update_self]
  · rw [update_of_ne hne]
    exact hs.partial_nodup ci'

theorem State.Inv.setFull (hs : s.Inv) (ci : Fin slabNumCaches) (pages : List Nat) :
    (s.setFull ci pages).Inv :=
  { hs with }

/-- Rewriting the header of a page, for the same cache. -/
theorem Extends.setHeader {fresh : Nat} {page' : Page}
    (hpage : s.header base = some page) (hci : page'.cacheIdx = page.cacheIdx) :
    Extends s (s.setHeader base page') fresh := by
  constructor
  · intro b p hp
    rcases eq_or_ne b base with rfl | hne
    · obtain rfl := Option.some.inj (hpage.symm.trans hp)
      exact ⟨page', update_self .., hci⟩
    · exact ⟨p, (update_of_ne hne ..).trans hp, rfl⟩
  · intro b p hp
    rcases eq_or_ne b base with rfl | hne
    · exact .inl ⟨page, hpage⟩
    · exact .inl ⟨p, (update_of_ne hne ..).symm.trans hp⟩

/-- Writing the header of a fresh page. -/
theorem Extends.fresh {frame : Nat} (page : Page) (hnone : s.header frame = none)
    (hframe : frame ≠ 0) : Extends s (s.setHeader frame page) frame := by
  constructor
  · intro b p hp
    have hne : b ≠ frame := by
      rintro rfl
      rw [hnone] at hp
      cases hp
    exact ⟨p, (update_of_ne hne ..).trans hp, rfl⟩
  · intro b p hp
    rcases eq_or_ne b frame with rfl | hne
    · exact .inr ⟨rfl, hframe⟩
    · exact .inl ⟨p, (update_of_ne hne ..).symm.trans hp⟩

/-! ## Allocation -/

/-- `slabPop` on the head of a partial list: there is an object to pop, it lies in the page, and the
    page moves off the list exactly when that was its last one. -/
theorem slabPop_spec (hs : s.Inv) {rest : List Nat}
    (hpart : s.partialPages ci = base :: rest) (fresh : Nat) :
    (slabPop s ci base).2.Inv ∧ Extends s (slabPop s ci base).2 fresh ∧
      ObjAt base ci (slabPop s ci base).1 ∧
      ∃ page, (slabPop s ci base).2.header base = some page ∧ page.cacheIdx = ci := by
  have hmem : base ∈ s.partialPages ci := by rw [hpart]; exact .head _
  obtain ⟨page, hpage, rfl, hne⟩ := hs.partial_page ci base hmem
  obtain ⟨obj, others, hlist⟩ := List.exists_cons_of_ne_nil hne
  have hobj : ObjAt base page.cacheIdx obj :=
    hs.free_objAt base page hpage obj (by rw [hlist]; exact .head _)
  have hothers : ∀ o ∈ others, ObjAt base page.cacheIdx o := fun o ho =>
    hs.free_objAt base page hpage o (by rw [hlist]; exact .tail _ ho)
  have hpop : slabPop s page.cacheIdx base = if others = [] then
          (obj, (((s.setHeader base { page with freeList := others }).setPartial page.cacheIdx
            (s.partialPages page.cacheIdx).tail).setFull page.cacheIdx
            (base :: s.fullPages page.cacheIdx)))
        else (obj, s.setHeader base { page with freeList := others }) := by
    simp only [slabPop, hpage, hlist]
  have hext : Extends s (s.setHeader base { page with freeList := others }) fresh :=
    Extends.setHeader hpage rfl
  rw [hpop, hpart]
  by_cases hlast : others = []
  · rw [if_pos hlast]
    refine ⟨State.Inv.setFull ?_ _ _, hext.of_header_eq rfl, hobj, _, update_self .., rfl⟩
    -- take the page off the list first: with its last object gone it may no longer stand there
    have hnodup := hs.partial_nodup page.cacheIdx
    rw [hpart] at hnodup
    obtain ⟨hnotin, hrest⟩ := List.nodup_cons.mp hnodup
    have hoff : (s.setPartial page.cacheIdx rest).Inv :=
      hs.setPartial (fun b hb => hs.partial_page _ b (by rw [hpart]; exact .tail _ hb)) hrest
    refine State.Inv.setHeader hoff (hs.page_aligned base page hpage) hothers fun ci hin => ?_
    exfalso
    rw [setPartial_partialPages] at hin
    rcases eq_or_ne ci page.cacheIdx with rfl | hci
    · rw [update_self] at hin
      exact hnotin hin
    · rw [update_of_ne hci] at hin
      exact hci (hs.partial_of hpage ci hin).1.symm
  · rw [if_neg hlast]
    exact ⟨hs.setHeader (hs.page_aligned base page hpage) hothers fun ci hin =>
      ⟨(hs.partial_of hpage ci hin).1, hlast⟩, hext, hobj, _, update_self .., rfl⟩

/-- What the frame allocator promises for the frame it hands to `slab_alloc`: it is a frame below
    4 GB that is no slab page yet. -/
def FrameOk (s : State) (frame : Nat) : Prop :=
  frame ≠ 0 → frame % slabPageSize = 0 ∧ frame < 2 ^ 32 ∧ s.header frame = none

/-- **Allocation from a slab.** `slabAlloc` keeps the invariant and every slab page; a pointer it
    returns is an object of a slab page whose objects have at least the size asked for. -/
theorem slabAlloc_spec (hs : s.Inv) (size : Nat) {frame : Nat} (hframe : FrameOk s frame) :
    (slabAlloc s size frame).2.Inv ∧ Extends s (slabAlloc s size frame).2 frame ∧
      ((slabAlloc s size frame).1 ≠ 0 → ∃ base page, (slabAlloc s size frame).2.header base = some page ∧
        ObjAt base page.cacheIdx (slabAlloc s size frame).1 ∧ size ≤ cacheSizes page.cacheIdx) := by
  have hrefuse : ∀ r, r = (0, s) → r.2.Inv ∧ Extends s r.2 frame ∧
      (r.1 ≠ 0 → ∃ base page, r.2.header base = some page ∧ ObjAt base page.cacheIdx r.1 ∧
        size ≤ cacheSizes page.cacheIdx) := by
    rintro r rfl
    exact ⟨hs, Extends.refl s frame, fun h => absurd rfl h⟩
  unfold slabAlloc
  split
  · exact hrefuse _ rfl
  cases hci : cacheIndexForSize size with
  | none => exact hrefuse _ rfl
  | some ci =>
    have hsize := le_cacheSizes_of_cacheIndexForSize hci
    dsimp only
    cases hpart : s.partialPages ci with
    | cons base rest =>
      obtain ⟨hinv, hext, hobj, page, hpage, rfl⟩ := slabPop_spec hs hpart frame
      exact ⟨hinv, hext, fun _ => ⟨base, page, hpage, hobj, hsize⟩⟩
    | nil =>
      dsimp only
      split
      · exact hrefuse _ rfl
      rename_i hne
      obtain ⟨haligned, hlt, hnone⟩ := hframe hne
      have hpages : ((s.setHeader frame (slabPageCreate ci frame)).setPartial ci [frame]).Inv := by
        refine State.Inv.setPartial (hs.setHeader ⟨haligned, Nat.pos_of_ne_zero hne, hlt⟩
          (fun obj hobj => slabPageCreate_objAt hobj) fun ci' hin => ?_) ?_
          (List.nodup_singleton _)
        · obtain ⟨page, hpage, _⟩ := hs.partial_page ci' frame hin
          rw [hnone] at hpage
          cases hpage
        · intro base hbase
          obtain rfl := List.mem_singleton.mp hbase
          exact ⟨_, update_self .., rfl, slabPageCreate_ne_nil ci base⟩
      obtain ⟨hinv, hext, hobj, page, hpage, rfl⟩ := slabPop_spec hpages
          (show ((s.setHeader frame (slabPageCreate ci frame)).setPartial ci [frame]).partialPages ci
            = [frame] from update_self ..) frame
      have hfresh := Extends.fresh (slabPageCreate page.cacheIdx frame) hnone hne
      refine ⟨hinv, Extends.trans (hfresh.of_header_eq ?_) hext,
        fun _ => ⟨frame, page, hpage, hobj, hsize⟩⟩
      rfl

/-! ## Freeing -/

/-- **Freeing into a slab.** Pushing an object back on the page it lies in keeps the invariant and
    every slab page. -/
theorem slabFree_spec (hs : s.Inv) {ptr : Nat}
    (hpage : s.header base = some page) (hobj : ObjAt base page.cacheIdx ptr) :
    (slabFree s ptr page).Inv ∧ Extends s (slabFree s ptr page) 0 := by
  have hbase := hs.page_aligned base page hpage
  have hround : pageOf ptr = base := pageOf_objAt hobj hbase.1 hbase.2.2
  have hlists := hs.partial_of hpage
  have hpush : (s.setHeader base { page with freeList := ptr :: page.freeList }).Inv := by
    refine hs.setHeader hbase (fun obj hin => ?_) fun ci hin => ⟨(hlists ci hin).1, List.cons_ne_nil _ _⟩
    rcases List.mem_cons.mp hin with rfl | hin
    · exact hobj
    · exact hs.free_objAt base page hpage obj hin
  have hext : Extends s (s.setHeader base { page with freeList := ptr :: page.freeList }) 0 :=
    Extends.setHeader hpage rfl
  unfold slabFree
  rw [hround]
  by_cases hfull : page.freeList = []
  · -- a full page stands on no partial list, so putting it in front adds it once
    rw [if_pos hfull]
    refine ⟨State.Inv.setPartial (State.Inv.setFull hpush _ _) (fun b hb => ?_) ?_, hext.of_header_eq rfl⟩
    · rcases List.mem_cons.mp hb with rfl | hb
      · exact ⟨_, update_self .., rfl, List.cons_ne_nil _ _⟩
      · exact hpush.partial_page page.cacheIdx b hb
    · exact List.nodup_cons.mpr ⟨fun hin => (hlists _ hin).2 hfull, hs.partial_nodup _⟩
  · rw [if_neg hfull]
    exact ⟨hpush, hext⟩

end Lyth.Slab
