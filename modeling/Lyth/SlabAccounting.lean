/-
  Which objects of the slab allocator are free and which are held (`kernel/mem/slab.c`).

    1. The program.   The page lists and free lists of `Slab`, together with the allocations that the
       callers hold.
    2. Specification.  `Accounted`: every object of a page lies on the page's GRID and is free or held
       or neither, never two of them; a page stands on its cache's partial list if it has a free object
       and on the full list otherwise, and on no list twice.
    3. Crux.  Two different objects of one grid are a whole object apart (`OnGrid.apart`), so that
       distinctness of addresses is all that allocation and freeing have to keep.
-/
import Lyth.Slab

namespace Lyth.Slab

open Word Table Function

/-! ## The grid of a page -/

/-- The address of the `i`-th object of a page. -/
def objectAt (base : Nat) (ci : Fin slabNumCaches) (i : Nat) : Nat :=
  base + headerSizeAligned (cacheSizes ci) + i * cacheSizes ci

/-- One of the objects a page is cut into. -/
def OnGrid (base : Nat) (ci : Fin slabNumCaches) (obj : Nat) : Prop :=
  ∃ i, i < capacity ci ∧ obj = objectAt base ci i

section

variable {base a b : Nat} {ci : Fin slabNumCaches}

theorem OnGrid.objAt (h : OnGrid base ci a) : ObjAt base ci a := by
  obtain ⟨i, hi, rfl⟩ := h
  obtain ⟨hhdr, hroom, _⟩ := cache_layout ci
  have hend := object_end hi
  unfold objectAt
  constructor
  · omega
  · omega

/-- **Two objects of a grid are the same or a whole object apart.** -/
theorem OnGrid.apart (ha : OnGrid base ci a) (hb : OnGrid base ci b) (hne : a ≠ b) :
    a + cacheSizes ci ≤ b ∨ b + cacheSizes ci ≤ a := by
  obtain ⟨i, _, rfl⟩ := ha
  obtain ⟨j, _, rfl⟩ := hb
  have hij : i ≠ j := fun h => hne (by rw [h])
  unfold objectAt
  rcases Nat.lt_or_gt_of_ne hij with h | h
  · have hmul := row_le h (cacheSizes ci)
    exact .inl (by omega)
  · have hmul := row_le h (cacheSizes ci)
    exact .inr (by omega)

/-- Two pages are the same or a page apart. -/
theorem pages_apart (ha : a % slabPageSize = 0) (hb : b % slabPageSize = 0) (hne : a ≠ b) :
    a + slabPageSize ≤ b ∨ b + slabPageSize ≤ a := by
  unfold slabPageSize at *
  omega

/-- The free list of a fresh page, from the last object to the first. -/
theorem slabPageCreate_freeList (ci : Fin slabNumCaches) (base : Nat) :
    (slabPageCreate ci base).freeList = ((List.range (capacity ci)).map (objectAt base ci)).reverse := by
  have hpush : ∀ (is acc : List Nat),
      is.foldl (fun l i => objectAt base ci i :: l) acc = (is.map (objectAt base ci)).reverse ++ acc := by
    intro is
    induction is with
    | nil => intro acc; rfl
    | cons i is ih =>
      intro acc
      rw [List.foldl_cons, ih, List.map_cons, List.reverse_cons, List.append_assoc]
      rfl
  exact (hpush _ []).trans (List.append_nil _)

theorem slabPageCreate_onGrid (h : a ∈ (slabPageCreate ci base).freeList) : OnGrid base ci a := by
  rw [slabPageCreate_freeList, List.mem_reverse] at h
  obtain ⟨i, hi, rfl⟩ := List.mem_map.mp h
  exact ⟨i, List.mem_range.mp hi, rfl⟩

theorem slabPageCreate_nodup (ci : Fin slabNumCaches) (base : Nat) :
    (slabPageCreate ci base).freeList.Nodup := by
  rw [slabPageCreate_freeList, List.nodup_reverse]
  refine List.Nodup.map_on (fun i _ j _ h => ?_) List.nodup_range
  have hpos := (cache_layout ci).2.2.1
  unfold objectAt at h
  exact Nat.eq_of_mul_eq_mul_right hpos (by omega)

end

/-! ## The accounting -/

/-- An object that a caller holds, and the size asked for. -/
structure Held where
  ptr : Nat
  size : Nat
deriving DecidableEq

/-- The object of `a` is a used one. -/
def Held.Object (a : Held) (s : State) : Prop :=
  ∃ base page, s.header base = some page ∧ OnGrid base page.cacheIdx a.ptr ∧
    a.size ≤ cacheSizes page.cacheIdx ∧ a.ptr ∉ page.freeList

/-- The pages of a cache with a free object are those on its partial list, the others those on its full
    list, and no page stands on a list twice. -/
structure Listed (s : State) : Prop where
  partial_iff : ∀ ci base, base ∈ s.partialPages ci ↔
    ∃ page, s.header base = some page ∧ page.cacheIdx = ci ∧ page.freeList ≠ []
  full_iff : ∀ ci base, base ∈ s.fullPages ci ↔
    ∃ page, s.header base = some page ∧ page.cacheIdx = ci ∧ page.freeList = []
  partial_nodup : ∀ ci, (s.partialPages ci).Nodup
  full_nodup : ∀ ci, (s.fullPages ci).Nodup

/-- The free lists, the page lists and the held objects agree. -/
structure Accounted (s : State) (live : List Held) : Prop where
  aligned : ∀ base page, s.header base = some page → base % slabPageSize = 0 ∧ 0 < base ∧ base < 2 ^ 32
  lists : Listed s
  grid : ∀ base page, s.header base = some page → ∀ obj ∈ page.freeList, OnGrid base page.cacheIdx obj
  nodup : ∀ base page, s.header base = some page → page.freeList.Nodup
  held : ∀ a ∈ live, a.Object s
  distinct : live.Pairwise fun a b => a.ptr ≠ b.ptr

section

variable {s : State} {live : List Held} {base : Nat} {page page' : Page} {ci : Fin slabNumCaches} {a : Held}

/-- What is true of every header but one, and of the one written, is true of every header. -/
theorem forall_setHeader {P : Nat → Page → Prop}
    (hold : ∀ b p, s.header b = some p → b ≠ base → P b p) (hnew : P base page') :
    ∀ b p, (s.setHeader base page').header b = some p → P b p := forall_update_some hnew hold

/-! ### The page lists -/

theorem nodup_update {pages : Fin slabNumCaches → List Nat} (h : ∀ ci, (pages ci).Nodup) {l : List Nat}
    (hl : l.Nodup) : ∀ ci', (update pages ci l ci').Nodup :=
  (forall_update_iff pages fun _ l => l.Nodup).mpr ⟨hl, fun ci' _ => h ci'⟩

section

variable (h : Listed s) (hpage : s.header base = some page) (hci : page'.cacheIdx = page.cacheIdx)
include h hpage hci

/-- A page whose free list changes but stays empty, or stays non-empty, stays on its list. -/
theorem Listed.setHeader (hempty : page'.freeList = [] ↔ page.freeList = []) : Listed (s.setHeader base page') := by
  refine ⟨fun ci b => (h.partial_iff ci b).trans ?_, fun ci b => (h.full_iff ci b).trans ?_,
    h.partial_nodup, h.full_nodup⟩ <;> rw [setHeader_header] <;> rcases eq_or_ne b base with rfl | hne
  · simp [hpage, hci, hempty]
  · rw [update_of_ne hne]
  · simp [hpage, hci, hempty]
  · rw [update_of_ne hne]

/-- A page that gave out its last object moves from the front of the partial list to the full list. -/
theorem Listed.toFull {others : List Nat} (hempty : page'.freeList = [])
    (hpart : s.partialPages page.cacheIdx = base :: others) :
    Listed (((s.setHeader base page').setPartial page.cacheIdx others).setFull page.cacheIdx
      (base :: s.fullPages page.cacheIdx)) := by
  have hnodup := h.partial_nodup page.cacheIdx
  have hiff := h.partial_iff page.cacheIdx
  rw [hpart] at hnodup hiff
  obtain ⟨hnotin, hothers⟩ := List.nodup_cons.mp hnodup
  obtain ⟨p, hp, _, hfree⟩ := (hiff base).mp (.head _)
  obtain rfl := Option.some.inj (hpage.symm.trans hp)
  have hfull : base ∉ s.fullPages page.cacheIdx := by
    intro hin
    obtain ⟨p', hp', _, hnil⟩ := (h.full_iff _ _).mp hin
    obtain rfl := Option.some.inj (hpage.symm.trans hp')
    exact hfree hnil
  refine ⟨fun ci b => ?_, fun ci b => ?_, ?_, ?_⟩
  · show b ∈ update s.partialPages page.cacheIdx others ci ↔ ∃ p, update s.header base _ b = _ ∧ _
    grind [Listed.partial_iff]
  · show b ∈ update s.fullPages page.cacheIdx _ ci ↔ ∃ p, update s.header base _ b = _ ∧ _
    grind [Listed.full_iff]
  · exact nodup_update h.partial_nodup hothers
  · exact nodup_update h.full_nodup (List.nodup_cons.mpr ⟨hfull, h.full_nodup _⟩)

/-- A full page that takes an object back moves to the front of the partial list. -/
theorem Listed.toPartial (hfree : page'.freeList ≠ []) (hfull : page.freeList = []) :
    Listed (((s.setHeader base page').setFull page.cacheIdx ((s.fullPages page.cacheIdx).erase base)).setPartial
      page.cacheIdx (base :: s.partialPages page.cacheIdx)) := by
  have hnodup := h.full_nodup page.cacheIdx
  have hnotin : base ∉ s.partialPages page.cacheIdx := by
    intro hin
    obtain ⟨p, hp, _, hne⟩ := (h.partial_iff _ _).mp hin
    obtain rfl := Option.some.inj (hpage.symm.trans hp)
    exact hne hfull
  refine ⟨fun ci b => ?_, fun ci b => ?_, ?_, ?_⟩
  · show b ∈ update s.partialPages page.cacheIdx _ ci ↔ ∃ p, update s.header base _ b = _ ∧ _
    grind [Listed.partial_iff]
  · show b ∈ update s.fullPages page.cacheIdx _ ci ↔ ∃ p, update s.header base _ b = _ ∧ _
    grind [Listed.full_iff]
  · exact nodup_update h.partial_nodup (List.nodup_cons.mpr ⟨hnotin, h.partial_nodup _⟩)
  · exact nodup_update h.full_nodup (hnodup.erase base)

end

/-- A fresh page is the only one on the partial list, if that was empty. -/
theorem Listed.fresh (h : Listed s) (hnone : s.header base = none) (hpart : s.partialPages page.cacheIdx = [])
    (hfree : page.freeList ≠ []) : Listed ((s.setHeader base page).setPartial page.cacheIdx [base]) := by
  refine ⟨fun ci b => ?_, fun ci b => ?_, ?_, h.full_nodup⟩
  · show b ∈ update s.partialPages page.cacheIdx _ ci ↔ ∃ p, update s.header base _ b = _ ∧ _
    grind [Listed.partial_iff]
  · show b ∈ s.fullPages ci ↔ ∃ p, update s.header base _ b = _ ∧ _
    grind [Listed.full_iff]
  · exact nodup_update h.partial_nodup (List.nodup_singleton _)

/-! ### Objects -/

/-- An object belongs to one page. -/
theorem Accounted.page_unique (hs : Accounted s live) {b obj : Nat} {p : Page} (hp : s.header b = some p)
    (hpage : s.header base = some page) (hobj : OnGrid b p.cacheIdx obj)
    (hobj' : OnGrid base page.cacheIdx obj) : b = base := by
  obtain ⟨hb, _, hblt⟩ := hs.aligned b p hp
  obtain ⟨hbase, _, hlt⟩ := hs.aligned base page hpage
  rw [← pageOf_objAt hobj.objAt hb hblt, pageOf_objAt hobj'.objAt hbase hlt]

/-- The used objects of other pages, and those of this page that are not in its new free list. -/
theorem Held.Object.setHeader (h : a.Object s) (hpage : s.header base = some page)
    (hci : page'.cacheIdx = page.cacheIdx)
    (hnew : OnGrid base page.cacheIdx a.ptr → a.ptr ∉ page.freeList → a.ptr ∉ page'.freeList) :
    a.Object (s.setHeader base page') := by
  obtain ⟨b, p, hp, hgrid, hsize, hfree⟩ := h
  rcases eq_or_ne b base with rfl | hne
  · obtain rfl := Option.some.inj (hpage.symm.trans hp)
    refine ⟨b, page', ?_, by rwa [hci], by rwa [hci], hnew hgrid hfree⟩
    rw [setHeader_header, update_self]
  · refine ⟨b, p, ?_, hgrid, hsize, hfree⟩
    rwa [setHeader_header, update_of_ne hne]

/-- Two held objects with the same address, one of them free, do not exist. -/
theorem Accounted.held_not_free (hs : Accounted s live) (ha : a ∈ live)
    (hpage : s.header base = some page) : a.ptr ∉ page.freeList := by
  intro hin
  obtain ⟨b, p, hp, hgrid, _, hfree⟩ := hs.held a ha
  obtain rfl := hs.page_unique hp hpage hgrid (hs.grid base page hpage _ hin)
  obtain rfl := Option.some.inj (hpage.symm.trans hp)
  exact hfree hin

/-- Changing the free list of one page to objects of its grid that are not held. -/
theorem Accounted.of_setHeader {s' : State} {live' : List Held} (hs : Accounted s live) (page' : Page)
    (hpage : s.header base = some page) (hci : page'.cacheIdx = page.cacheIdx)
    (hheader : s'.header = (s.setHeader base page').header) (hlists : Listed s')
    (hgrid : ∀ obj ∈ page'.freeList, OnGrid base page.cacheIdx obj) (hnodup : page'.freeList.Nodup)
    (hheld : ∀ a ∈ live', a.Object (s.setHeader base page'))
    (hdistinct : live'.Pairwise fun a b => a.ptr ≠ b.ptr) : Accounted s' live' := by
  refine ⟨?_, hlists, ?_, ?_, fun a ha => ?_, hdistinct⟩
  · rw [hheader]
    exact forall_setHeader (fun b p hp _ => hs.aligned b p hp) (hs.aligned base page hpage)
  · rw [hheader]
    refine forall_setHeader (fun b p hp _ => hs.grid b p hp) fun o ho => ?_
    rw [hci]
    exact hgrid o ho
  · rw [hheader]
    exact forall_setHeader (fun b p hp _ => hs.nodup b p hp) hnodup
  · obtain ⟨b, p, hp, hrest⟩ := hheld a ha
    exact ⟨b, p, by rwa [hheader], hrest⟩

/-! ## Allocation and freeing keep the accounts -/

/-- What `slabPop` does on a page with a free object. -/
theorem slabPop_eq {obj : Nat} {rest : List Nat} (hpage : s.header base = some page)
    (hfree : page.freeList = obj :: rest) :
    slabPop s ci base =
      if rest = [] then
        (obj, ((s.setHeader base { page with freeList := rest }).setPartial ci (s.partialPages ci).tail).setFull ci
          (base :: s.fullPages ci))
      else (obj, s.setHeader base { page with freeList := rest }) := by
  simp only [slabPop, hpage, hfree]

section

variable (hs : Accounted s live)
include hs

/-- **Popping an object** of the first partial page turns a free object into a held one. -/
theorem Accounted.pop {others : List Nat} {size : Nat}
    (hpart : s.partialPages ci = base :: others) (hsize : size ≤ cacheSizes ci) :
    Accounted (slabPop s ci base).2 (⟨(slabPop s ci base).1, size⟩ :: live) := by
  have hmem : base ∈ s.partialPages ci := by rw [hpart]; exact .head _
  obtain ⟨page, hpage, rfl, hne⟩ := (hs.lists.partial_iff ci base).mp hmem
  obtain ⟨obj, rest, hlist⟩ := List.exists_cons_of_ne_nil hne
  have hin : ∀ o ∈ rest, o ∈ page.freeList := fun o ho => by rw [hlist]; exact .tail _ ho
  have hobj : obj ∈ page.freeList := by rw [hlist]; exact .head _
  have hnodup := hs.nodup base page hpage
  rw [hlist] at hnodup
  obtain ⟨hnotin, hrest⟩ := List.nodup_cons.mp hnodup
  have hheld : ∀ a ∈ (⟨obj, size⟩ : Held) :: live,
      a.Object (s.setHeader base { page with freeList := rest }) := by
    intro a ha
    rcases List.mem_cons.mp ha with rfl | ha
    · exact ⟨base, { page with freeList := rest }, by rw [setHeader_header, update_self],
        hs.grid base page hpage obj hobj, hsize, hnotin⟩
    · exact (hs.held a ha).setHeader hpage rfl fun _ hfree hr => hfree (hin _ hr)
  have hdistinct : ((⟨obj, size⟩ : Held) :: live).Pairwise fun a b => a.ptr ≠ b.ptr := by
    refine List.Pairwise.cons (fun a ha heq => hs.held_not_free ha hpage ?_) hs.distinct
    rwa [← heq]
  rw [slabPop_eq hpage hlist]
  by_cases hlast : rest = []
  · rw [if_pos hlast, hpart]
    exact hs.of_setHeader { page with freeList := rest } hpage rfl rfl (hs.lists.toFull hpage (by rfl) hlast hpart)
      (fun o ho => hs.grid base page hpage o (hin o ho)) hrest hheld hdistinct
  · rw [if_neg hlast]
    exact hs.of_setHeader { page with freeList := rest } hpage rfl rfl (hs.lists.setHeader hpage rfl (by simp [hlist, hlast]))
      (fun o ho => hs.grid base page hpage o (hin o ho)) hrest hheld hdistinct

/-- **A fresh page**, cut up and put on the empty partial list of its cache. -/
theorem Accounted.fresh (hframe : FrameOk s base) (hne : base ≠ 0)
    (hpart : s.partialPages ci = []) :
    Accounted ((s.setHeader base (slabPageCreate ci base)).setPartial ci [base]) live := by
  obtain ⟨haligned, hlt, hnone⟩ := hframe hne
  refine ⟨?_, hs.lists.fresh hnone hpart (slabPageCreate_ne_nil ci base), ?_, ?_, fun a ha => ?_, hs.distinct⟩
  · exact forall_setHeader (fun b p hp _ => hs.aligned b p hp) ⟨haligned, Nat.pos_of_ne_zero hne, hlt⟩
  · exact forall_setHeader (fun b p hp _ => hs.grid b p hp) fun o ho => slabPageCreate_onGrid ho
  · exact forall_setHeader (fun b p hp _ => hs.nodup b p hp) (slabPageCreate_nodup ci base)
  obtain ⟨b, p, hp, hrest⟩ := hs.held a ha
  have hb : b ≠ base := by
    rintro rfl
    rw [hnone] at hp
    cases hp
  exact ⟨b, p, (update_of_ne hb ..).trans hp, hrest⟩

/-- **Freeing an object** turns a held object into a free one. -/
theorem Accounted.push (ha : a ∈ live) (hpage : s.header (pageOf a.ptr) = some page) :
    Accounted (slabFree s a.ptr page) (live.filter fun b => b.ptr ≠ a.ptr) := by
  obtain ⟨b, p, hp, hgrid, _, hfree⟩ := hs.held a ha
  obtain ⟨hb, _, hblt⟩ := hs.aligned b p hp
  obtain rfl := pageOf_objAt hgrid.objAt hb hblt
  obtain rfl := Option.some.inj (hpage.symm.trans hp)
  have hgrid' : ∀ o ∈ a.ptr :: page.freeList, OnGrid (pageOf a.ptr) page.cacheIdx o := by
    intro o ho
    rcases List.mem_cons.mp ho with rfl | ho
    · exact hgrid
    · exact hs.grid _ page hpage o ho
  have hheld : ∀ c ∈ live.filter fun c => c.ptr ≠ a.ptr,
      c.Object (s.setHeader (pageOf a.ptr) { page with freeList := a.ptr :: page.freeList }) := by
    intro c hc
    obtain ⟨hc, hne⟩ := List.mem_filter.mp hc
    refine (hs.held c hc).setHeader hpage rfl fun _ hold hin => ?_
    rcases List.mem_cons.mp hin with heq | hin
    · exact of_decide_eq_true hne heq
    · exact hold hin
  unfold slabFree
  by_cases hfull : page.freeList = []
  · rw [if_pos hfull]
    exact hs.of_setHeader { page with freeList := a.ptr :: page.freeList } hpage rfl rfl
      (hs.lists.toPartial hpage rfl (List.cons_ne_nil _ _) hfull) hgrid'
      (List.nodup_cons.mpr ⟨hfree, hs.nodup _ page hpage⟩) hheld (hs.distinct.filter _)
  · rw [if_neg hfull]
    exact hs.of_setHeader { page with freeList := a.ptr :: page.freeList } hpage rfl rfl
      (hs.lists.setHeader hpage rfl (by simp [hfull])) hgrid'
      (List.nodup_cons.mpr ⟨hfree, hs.nodup _ page hpage⟩) hheld (hs.distinct.filter _)

/-- Objects that are no longer spoken of. -/
theorem Accounted.filter (p : Held → Bool) : Accounted s (live.filter p) :=
  { hs with held := fun a ha => hs.held a (List.mem_of_mem_filter ha), distinct := hs.distinct.filter _ }

end

/-- Nothing is held where nothing is a page. -/
theorem accounted_of_no_page (hheader : ∀ base, s.header base = none) (hpart : ∀ ci, s.partialPages ci = [])
    (hfull : ∀ ci, s.fullPages ci = []) : Accounted s [] := by
  have hnone : ∀ base page, s.header base ≠ some page := fun b _ h => by
    rw [hheader b] at h
    cases h
  refine ⟨fun b p hp => absurd hp (hnone b p), ⟨fun ci b => ?_, fun ci b => ?_, fun ci => ?_, fun ci => ?_⟩,
    fun b p hp => absurd hp (hnone b p), fun b p hp => absurd hp (hnone b p), fun _ ha => absurd ha List.not_mem_nil,
    List.Pairwise.nil⟩
  · rw [hpart]
    exact ⟨fun h => absurd h List.not_mem_nil, fun ⟨p, hp, _⟩ => absurd hp (hnone b p)⟩
  · rw [hfull]
    exact ⟨fun h => absurd h List.not_mem_nil, fun ⟨p, hp, _⟩ => absurd hp (hnone b p)⟩
  · rw [hpart]
    exact List.nodup_nil
  · rw [hfull]
    exact List.nodup_nil

end

end Lyth.Slab
