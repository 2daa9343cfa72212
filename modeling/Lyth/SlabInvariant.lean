/-
  What the slab allocator keeps true over every run (`kernel/mem/slab.c`).

    1. The program.   Any sequence of `slab_alloc`, `slab_free` of held objects, and stores of the callers
       into the bytes they asked for, from `slab_init` over memory with any contents.
    2. Specification.  `Consistent`, on the bytes: `free_count` is the length of the free list that the
       links thread; a page stands on the partial list of its cache if it counts a free object, on the
       full list otherwise; free objects are distinct objects of their page; held objects lie behind the
       header, have the size asked for, and meet neither each other nor a free object.
    3. Crux.  The bytes represent the lists of `Slab` (`SlabMemory`), and on the lists the accounts are
       exact (`SlabAccounting`).  Both are kept by each step; `Consistent` is read off them.
-/
import Lyth.Lib.Run
import Lyth.SlabMemory

namespace Lyth.SlabMemory

open Bytes Threaded Run Function
open Slab (slabNumCaches slabMaxObj slabPageSize sizeofSlabPage cacheSizes cacheIndexForSize pageOf
  pageOf_objAt OnGrid Held Accounted Page FrameOk)

/-! ## Runs -/

/-- The allocator, the objects its callers hold, and the frames it has cut up. -/
structure World where
  store : Store
  live : List Held
  pages : List Nat

/-- One call of the allocator, or a caller's store of a byte. -/
inductive Call
  | alloc (size : UInt32) (frame : Nat)
  | free (ptr : Nat)
  | store (ptr off : Nat) (v : UInt8)

/-- `slab_alloc(size)` cuts up the frame it is given. -/
def takesFrame (s : Store) (size frame : Nat) : Bool :=
  !(s.ready = false ∨ size = 0 ∨ size > slabMaxObj : Bool) &&
    match cacheIndexForSize size with
    | none => false
    | some ci => s.partialHead ci = 0 && frame ≠ 0

/-- One step: the pointer an allocation returns (0 for the others), and the world it leaves. -/
def step (w : World) : Call → Nat × World
  | .alloc size frame =>
    let r := slabAlloc w.store size.toNat frame
    (r.1, { store := r.2
            live := heldAfter w.live size.toNat r.1
            pages := if takesFrame w.store size.toNat frame then frame :: w.pages else w.pages })
  | .free ptr => (0, { w with store := slabFree w.store ptr, live := w.live.filter fun a => a.ptr ≠ ptr })
  | .store ptr off v => (0, { w with store := { w.store with mem := update w.store.mem (ptr + off) v } })

/-- After `slab_init()`, whatever memory holds. -/
def initial (m : Mem) : World := { store := slabInit m, live := [], pages := [] }

/-- Frames come from the frame allocator and are not in use; only held objects are freed; callers store
    into what they hold. -/
def Legal (w : World) : Call → Prop
  | .alloc _ frame => frame ≠ 0 → frame % slabPageSize = 0 ∧ frame < 2 ^ 32 ∧ frame ∉ w.pages
  | .free ptr => ∃ a ∈ w.live, a.ptr = ptr
  | .store ptr off _ => ∃ a ∈ w.live, a.ptr = ptr ∧ off < a.size

/-- The end of the object at `ptr`, from the header of its page. -/
def objectEnd (m : Mem) (ptr : Nat) : Nat := ptr + (readHeader m (pageOf ptr)).objSize

/-- **What the allocator keeps true**, of the lists of pages `part` and `full` that memory holds for each
    cache, and of the list of objects `free` that it holds for each page. -/
structure Consistent (w : World) (part full : Fin slabNumCaches → List Nat) (free : Nat → List Nat) : Prop where
  partial_list : ∀ ci : Fin slabNumCaches, Linked (pageNext w.store.mem) (w.store.partialHead ci) (part ci) ∧ (part ci).Nodup
  full_list : ∀ ci : Fin slabNumCaches, Linked (pageNext w.store.mem) (w.store.fullHead ci) (full ci) ∧ (full ci).Nodup
  free_list : ∀ base ∈ w.pages, Linked (link w.store.mem) (readHeader w.store.mem base).freeList (free base)
  free_count : ∀ base ∈ w.pages, (readHeader w.store.mem base).freeCount = (free base).length
  free_objects : ∀ base ∈ w.pages, (free base).Nodup ∧ ∃ ci : Fin slabNumCaches,
    (readHeader w.store.mem base).cacheIdx = ci ∧ (readHeader w.store.mem base).objSize = cacheSizes ci ∧
    ∀ obj ∈ free base, OnGrid base ci obj
  listed : ∀ base ∈ w.pages, ∀ ci : Fin slabNumCaches, (readHeader w.store.mem base).cacheIdx = ci →
    (base ∈ part ci ↔ 0 < (readHeader w.store.mem base).freeCount) ∧
    (base ∈ full ci ↔ ¬0 < (readHeader w.store.mem base).freeCount)
  in_page : ∀ a ∈ w.live, pageOf a.ptr ∈ w.pages ∧ pageOf a.ptr + sizeofSlabPage ≤ a.ptr ∧
    objectEnd w.store.mem a.ptr ≤ pageOf a.ptr + slabPageSize
  large_enough : ∀ a ∈ w.live, a.ptr + a.size ≤ objectEnd w.store.mem a.ptr
  disjoint : w.live.Pairwise fun a b =>
    objectEnd w.store.mem a.ptr ≤ b.ptr ∨ objectEnd w.store.mem b.ptr ≤ a.ptr
  disjoint_free : ∀ a ∈ w.live, ∀ base ∈ w.pages, ∀ obj ∈ free base,
    objectEnd w.store.mem a.ptr ≤ obj ∨ obj + (readHeader w.store.mem base).objSize ≤ a.ptr

/-! ## The invariant -/

/-- Memory represents lists whose accounts are exact, and the pages are the frames cut up. -/
def Inv (w : World) : Prop :=
  ∃ t, Represents w.store t ∧ Accounted t w.live ∧ ∀ base, base ∈ w.pages ↔ (t.header base).isSome

section

variable {w : World} {s : Store} {t : Slab.State} {page : Page}

/-- A pop changes a header and makes none. -/
theorem isSome_slabPop {ci : Fin slabNumCaches} {base : Nat} (b : Nat) :
    ((Slab.slabPop t ci base).2.header b).isSome = (t.header b).isSome := by
  cases hpage : t.header base with
  | none => rw [Slab.slabPop, hpage]
  | some page =>
    have hset : ∀ page', ((t.setHeader base page').header b).isSome = (t.header b).isSome := by
      intro page'
      rcases eq_or_ne b base with rfl | hne
      · rw [Slab.setHeader_header, update_self, hpage]
        rfl
      · rw [Slab.setHeader_header, update_of_ne hne]
    cases hfree : page.freeList with
    | nil =>
      rw [Slab.slabPop, hpage]
      dsimp only
      rw [hfree]
    | cons obj rest =>
      rw [Slab.slabPop_eq hpage hfree]
      split
      · exact hset _
      · exact hset _

/-- The pages after an allocation: one more exactly when the frame was cut up. -/
theorem isSome_slabAlloc (hr : Represents s t) {size frame : Nat} (b : Nat) :
    ((Slab.slabAlloc t size frame).2.header b).isSome
      = ((t.header b).isSome || (takesFrame s size frame && b = frame)) := by
  unfold Slab.slabAlloc takesFrame
  rw [hr.ready]
  by_cases hrefuse : t.ready = false ∨ size = 0 ∨ size > slabMaxObj
  · simp [hrefuse]
  rw [if_neg hrefuse]
  cases hci : cacheIndexForSize size with
  | none => simp
  | some ci =>
    have hlist := hr.parts ci
    dsimp only
    cases hpart : t.partialPages ci with
    | cons base others =>
      rw [hpart] at hlist
      obtain ⟨hhead, hne, _⟩ := hlist
      have hzero : s.partialHead ci ≠ 0 := by rwa [hhead]
      rw [isSome_slabPop]
      simp [hzero]
    | nil =>
      rw [hpart] at hlist
      have hzero := linked_nil.mp hlist
      by_cases hframe : frame = 0
      · simp [hframe]
      · rw [if_neg hframe, isSome_slabPop, Slab.setPartial_header, Slab.setHeader_header]
        rcases eq_or_ne b frame with rfl | hne
        · simp [hrefuse, hzero, hframe]
        · simp [hne]

/-- A free changes a header and makes none. -/
theorem isSome_slabFree {ptr : Nat} (hpage : t.header (pageOf ptr) = some page) (b : Nat) :
    ((Slab.slabFree t ptr page).header b).isSome = (t.header b).isSome := by
  have hset : (Slab.slabFree t ptr page).header
      = (t.setHeader (pageOf ptr) { page with freeList := ptr :: page.freeList }).header := by
    unfold Slab.slabFree
    split
    · rfl
    · rfl
  rw [hset, Slab.setHeader_header]
  rcases eq_or_ne b (pageOf ptr) with rfl | hne
  · rw [update_self, hpage]
    rfl
  · rw [update_of_ne hne]

/-- **Each step keeps the invariant.** -/
theorem step_inv (hw : Inv w) {c : Call} (hc : Legal w c) : Inv (step w c).2 := by
  obtain ⟨t, hr, ht, hpages⟩ := hw
  cases c with
  | alloc size frame =>
    have hframe : FrameOk t frame := by
      intro hne
      obtain ⟨haligned, hlt, hnew⟩ := hc hne
      refine ⟨haligned, hlt, ?_⟩
      rwa [hpages, Option.not_isSome_iff_eq_none] at hnew
    have hagrees : Agrees w.live size.toNat (slabAlloc w.store size.toNat frame) (Slab.slabAlloc t size.toNat frame) :=
      slabAlloc_agrees hr ht hframe
    obtain ⟨_, hrep, hacc⟩ := hagrees
    refine ⟨_, hrep, hacc, fun base => ?_⟩
    rw [isSome_slabAlloc hr]
    show base ∈ (if takesFrame w.store size.toNat frame then frame :: w.pages else w.pages) ↔ _
    split
    · rename_i htakes
      rw [List.mem_cons, hpages, htakes]
      simp [or_comm]
    · rename_i htakes
      rw [hpages]
      simp [htakes]
  | free ptr =>
    obtain ⟨a, ha, rfl⟩ := hc
    obtain ⟨page, hpage, hrep, -⟩ := slabFree_refines hr ht ha
    refine ⟨_, hrep, ht.push ha hpage, fun base => (hpages base).trans ?_⟩
    rw [isSome_slabFree hpage]
  | store ptr off v =>
    obtain ⟨a, ha, rfl, hoff⟩ := hc
    exact ⟨t, represents_store hr ht ha hoff v, ht, hpages⟩

theorem initial_inv (m : Mem) : Inv (initial m) := by
  refine ⟨Slab.slabInit Slab.State.empty, ⟨rfl, fun b p hp => ?_, fun _ => rfl, fun _ => rfl⟩,
    Slab.accounted_of_no_page (fun _ => rfl) (fun _ => rfl) fun _ => rfl, fun base => ?_⟩
  · cases hp
  · exact ⟨fun h => absurd h List.not_mem_nil, fun h => by cases h⟩

/-! ## What the invariant says of the bytes -/

/-- The free list of each page, as the lists have it. -/
def freeOf (t : Slab.State) (base : Nat) : List Nat :=
  match t.header base with
  | none => []
  | some page => page.freeList

/-- The end of a held object is that of its place on the grid. -/
theorem objectEnd_eq (hr : Represents w.store t) (ht : Accounted t w.live) {base ptr : Nat}
    (hpage : t.header base = some page) (hgrid : OnGrid base page.cacheIdx ptr) :
    pageOf ptr = base ∧ objectEnd w.store.mem ptr = ptr + cacheSizes page.cacheIdx := by
  obtain ⟨haligned, _, hlt⟩ := ht.aligned base page hpage
  have hround : pageOf ptr = base := pageOf_objAt hgrid.objAt haligned hlt
  refine ⟨hround, ?_⟩
  rw [objectEnd, hround, (hr.pages base page hpage).objSize]

/-- Two objects of the allocator are the same or do not overlap. -/
theorem objects_apart (ht : Accounted t w.live) {base base' a b : Nat} {page' : Page}
    (hpage : t.header base = some page) (hpage' : t.header base' = some page') (ha : OnGrid base page.cacheIdx a)
    (hb : OnGrid base' page'.cacheIdx b) (hne : a ≠ b) :
    a + cacheSizes page.cacheIdx ≤ b ∨ b + cacheSizes page'.cacheIdx ≤ a := by
  rcases eq_or_ne base base' with rfl | hbase
  · obtain rfl := Option.some.inj (hpage.symm.trans hpage')
    exact ha.apart hb hne
  · obtain ⟨hlo, hhi⟩ := ha.objAt
    obtain ⟨hlo', hhi'⟩ := hb.objAt
    rcases Slab.pages_apart (ht.aligned base page hpage).1 (ht.aligned base' page' hpage').1 hbase with h | h
    · exact .inl (by omega)
    · exact .inr (by omega)

theorem Inv.consistent (hw : Inv w) : ∃ part full free, Consistent w part full free := by
  obtain ⟨t, hr, ht, hpages⟩ := hw
  have hheader : ∀ base ∈ w.pages, ∃ page, t.header base = some page ∧ freeOf t base = page.freeList := by
    intro base hbase
    obtain ⟨page, hpage⟩ := Option.isSome_iff_exists.mp ((hpages base).mp hbase)
    exact ⟨page, hpage, by rw [freeOf, hpage]⟩
  refine ⟨t.partialPages, t.fullPages, freeOf t, ⟨fun ci => ⟨hr.parts ci, ht.lists.partial_nodup ci⟩,
    fun ci => ⟨hr.fulls ci, ht.lists.full_nodup ci⟩, ?_, ?_, ?_, ?_, ?_, ?_, ?_, ?_⟩⟩
  · intro base hbase
    obtain ⟨page, hpage, hfree⟩ := hheader base hbase
    rw [hfree]
    exact (hr.pages base page hpage).free
  · intro base hbase
    obtain ⟨page, hpage, hfree⟩ := hheader base hbase
    rw [hfree]
    exact (hr.pages base page hpage).count
  · intro base hbase
    obtain ⟨page, hpage, hfree⟩ := hheader base hbase
    rw [hfree]
    exact ⟨ht.nodup base page hpage, page.cacheIdx, (hr.pages base page hpage).cacheIdx,
      (hr.pages base page hpage).objSize, ht.grid base page hpage⟩
  · intro base hbase ci hci
    obtain ⟨page, hpage, _⟩ := hheader base hbase
    have hidx := (hr.pages base page hpage).cacheIdx
    obtain rfl : page.cacheIdx = ci := Fin.ext (hidx.symm.trans hci)
    rw [(hr.pages base page hpage).count, ht.lists.partial_iff, ht.lists.full_iff, List.length_pos_iff]
    simp [hpage]
  · intro a ha
    obtain ⟨base, page, hpage, hgrid, hsize, _⟩ := ht.held a ha
    obtain ⟨hround, hend⟩ := objectEnd_eq hr ht hpage hgrid
    obtain ⟨hlo, hhi⟩ := hgrid.objAt
    rw [hround, hend]
    exact ⟨(hpages base).mpr (by rw [hpage]; rfl), hlo, hhi⟩
  · intro a ha
    obtain ⟨base, page, hpage, hgrid, hsize, _⟩ := ht.held a ha
    rw [(objectEnd_eq hr ht hpage hgrid).2]
    omega
  · refine ht.distinct.imp_of_mem fun {a b} ha hb hne => ?_
    obtain ⟨base, page, hpage, hgrid, _⟩ := ht.held a ha
    obtain ⟨base', page', hpage', hgrid', _⟩ := ht.held b hb
    rw [(objectEnd_eq hr ht hpage hgrid).2, (objectEnd_eq hr ht hpage' hgrid').2]
    exact objects_apart ht hpage hpage' hgrid hgrid' hne
  · intro a ha base' hbase' obj hobj
    obtain ⟨base, page, hpage, hgrid, _⟩ := ht.held a ha
    obtain ⟨page', hpage', hfree⟩ := hheader base' hbase'
    rw [hfree] at hobj
    rw [(objectEnd_eq hr ht hpage hgrid).2, (hr.pages base' page' hpage').objSize]
    refine objects_apart ht hpage hpage' hgrid (ht.grid base' page' hpage' obj hobj) ?_
    rintro rfl
    exact ht.held_not_free ha hpage' hobj

end

/-- **The invariant of the slab allocator.** After `slab_init`, over memory with any contents, and any
    sequence of allocations, frees of held objects and stores of the callers into their objects, the
    lists that the bytes thread are consistent with the counters, with each other and with the objects
    the callers hold. -/
theorem slab_invariant (m : Mem) (calls : List Call) (hrun : Guarded step Legal (initial m) calls) :
    ∃ part full free, Consistent (exec step (initial m) calls).2 part full free := by
  have hkept : ∀ w, Inv w → Guarded step Legal w calls → Inv (exec step w calls).2 :=
    exec_inv (fun _ _ hw hc => step_inv hw hc) calls
  exact (hkept _ (initial_inv m) hrun).consistent

/-- Two objects of 2048 bytes use up a page each; one is written and freed again. -/
def freeingRun : List Call :=
  [.alloc 2000 0x100000, .alloc 2000 0x101000, .store 0x100800 1999 7, .free 0x100800]

/-- A run in which pages become full and one becomes partial again. -/
theorem slab_invariant_freeing : Guarded step Legal (initial fun _ => 0) freeingRun ∧
      ∃ part full free, Consistent (exec step (initial fun _ => 0) freeingRun).2 part full free := by
  have hrun : Guarded step Legal (initial fun _ => 0) freeingRun := by
    refine ⟨fun _ => ⟨by decide, by decide, by decide⟩, fun _ => ⟨by decide, by decide, by decide +kernel⟩,
      ⟨⟨0x100800, 2000⟩, by decide +kernel, rfl, by decide⟩, ⟨⟨0x100800, 2000⟩, by decide +kernel, rfl⟩, trivial⟩
  exact ⟨hrun, slab_invariant _ _ hrun⟩

end Lyth.SlabMemory
