/-
  The slab allocator on the bytes of memory (`kernel/mem/slab.c`).

  `Slab` speaks of pages with lists of free objects.  The code has neither: a page is 4 KB of memory
  whose first 32 bytes are read as a `slab_page_t`; its free list is a chain of pointers stored IN the
  free objects; the pages of a cache are chained through the `next` fields of their headers.

    1. The program.   `slabAlloc`, `slabFree`, `slabOwns` on a byte memory and the two list heads per
       cache, statement by statement.
    2. Specification.  `Represents`: from each list head the `next` fields lead through exactly the pages
       of the list of `Slab`, and from each header the links lead through exactly its free objects.  Each
       operation answers as its counterpart in `Slab` does and keeps that relation
       (`slabAlloc_agrees`, `slabFree_refines`), and so does a store of a caller into its object.
    3. Crux.  A store changes one page (`SameOutside`), so the headers, links and free objects of all
       other pages are kept; inside a page the header, the free objects and the held objects are apart,
       because they lie on one grid.
-/
import Lyth.Lib.Bytes
import Lyth.Lib.Threaded
import Lyth.SlabAccounting

namespace Lyth.SlabMemory

open Bytes Threaded Function
open Slab (slabNumCaches slabMaxObj slabPageSize sizeofSlabPage cacheSizes cacheIndexForSize capacity
  objectAt pageOf pageOf_objAt OnGrid ObjAt Held Accounted Page cache_layout FrameOk)

/-! ## The model -/

/-- `SLAB_MAGIC`. -/
def slabMagic : Nat := 0x534C4142

/-- `slab_page_t`. -/
structure Header where
  magic : Nat
  next : Nat
  objSize : Nat
  capacity : Nat
  freeCount : Nat
  cacheIdx : Nat
  freeList : Nat
deriving DecidableEq

/-- The 32 bytes at `page`, read as a header. -/
def readHeader (m : Mem) (page : Nat) : Header :=
  { magic := getLE m page 4
    next := getLE m (page + 8) 8
    objSize := getLE m (page + 16) 2
    capacity := getLE m (page + 18) 2
    freeCount := getLE m (page + 20) 2
    cacheIdx := getLE m (page + 22) 1
    freeList := getLE m (page + 24) 8 }

/-- `page->next = v`. -/
def setNext (m : Mem) (page v : Nat) : Mem := putLE m (page + 8) 8 v

/-- `page->free_count = v`. -/
def setFreeCount (m : Mem) (page v : Nat) : Mem := putLE m (page + 20) 2 v

/-- `page->free_list = v`. -/
def setFreeList (m : Mem) (page v : Nat) : Mem := putLE m (page + 24) 8 v

/-- `page->next`. -/
def pageNext (m : Mem) (page : Nat) : Nat := (readHeader m page).next

/-- `*(void**)obj`. -/
def link (m : Mem) (obj : Nat) : Nat := getLE m obj 8

/-- `*(void**)obj = v`. -/
def setLink (m : Mem) (obj v : Nat) : Mem := putLE m obj 8 v

/-- Memory, `slab_ready`, and the `partial` and `full` fields of `slab_caches[]`. -/
structure Store where
  mem : Mem
  ready : Bool
  partialHead : Nat → Nat
  fullHead : Nat → Nat

/-- `slab_init()`. -/
def slabInit (m : Mem) : Store :=
  { mem := m, ready := true, partialHead := fun _ => 0, fullHead := fun _ => 0 }

/-- The header that `slab_page_create` writes, with no object on the free list yet. -/
def writeHeader (m : Mem) (ci : Fin slabNumCaches) (page : Nat) : Mem :=
  let m := putLE m page 4 slabMagic
  let m := setNext m page 0
  let m := putLE m (page + 16) 2 (cacheSizes ci)
  let m := putLE m (page + 18) 2 (capacity ci)
  let m := setFreeCount m page (capacity ci)
  let m := putLE m (page + 22) 1 ci
  let m := putLE m (page + 23) 1 0
  setFreeList m page 0

/-- One round of its loop: the object is linked in front of the free list. -/
def pushObject (page obj : Nat) (m : Mem) : Mem :=
  setFreeList (setLink m obj (readHeader m page).freeList) page obj

/-- `slab_page_create(ci)` on the frame at `phys`. -/
def slabPageCreate (m : Mem) (ci : Fin slabNumCaches) (phys : Nat) : Mem :=
  (List.range (capacity ci)).foldl (fun m i => pushObject phys (objectAt phys ci i) m) (writeHeader m ci phys)

/-- The stores of `slab_alloc` that pop the object: the header takes over its link and counts down. -/
def takeObject (m : Mem) (page obj : Nat) : Mem :=
  let m := setFreeList m page (link m obj)
  setFreeCount m page (((readHeader m page).freeCount + 65535) % 65536)

/-- The second half of `slab_alloc`: pop an object of `page`, and move the page to the full list if that
    was its last one. -/
def slabPop (s : Store) (ci page : Nat) : Nat × Store :=
  let obj := (readHeader s.mem page).freeList
  let m := takeObject s.mem page obj
  if (readHeader m page).freeCount = 0 then
    (obj, { s with mem := setNext m page (s.fullHead ci)
                   partialHead := update s.partialHead ci (pageNext m page)
                   fullHead := update s.fullHead ci page })
  else (obj, { s with mem := m })

/-- `slab_alloc(size)`, when `physmem_alloc_frame` answers `frame` if it is called. -/
def slabAlloc (s : Store) (size frame : Nat) : Nat × Store :=
  if s.ready = false ∨ size = 0 ∨ size > slabMaxObj then (0, s)
  else
    match cacheIndexForSize size with
    | none => (0, s)
    | some ci =>
      if s.partialHead ci = 0 then
        if frame = 0 then (0, s)
        else
          slabPop { s with mem := slabPageCreate s.mem ci frame
                           partialHead := update s.partialHead ci frame } ci frame
      else slabPop s ci (s.partialHead ci)

/-- Rounds granted to the walk over a full list: there are no more frames than that. -/
def walkRounds : Nat := 2 ^ 20

/-- Unlinking `page` from the full list of a cache, as `slab_free` does it: `pp` runs from the head over
    the `next` fields until it points to the page. -/
def unlinkFull (s : Store) (ci page : Nat) : Store :=
  if s.fullHead ci = 0 then s
  else if s.fullHead ci = page then
    { s with fullHead := update s.fullHead ci (pageNext s.mem page) }
  else
    match pred (pageNext s.mem) page walkRounds (s.fullHead ci) with
    | none => s
    | some prev => { s with mem := setNext s.mem prev (pageNext s.mem page) }

/-- The stores of `slab_free` into the object and the header: the object goes in front of the free list. -/
def giveBack (m : Mem) (page ptr : Nat) : Mem :=
  let m := pushObject page ptr m
  setFreeCount m page (((readHeader m page).freeCount + 1) % 65536)

/-- `slab_free(ptr)`. -/
def slabFree (s : Store) (ptr : Nat) : Store :=
  if ptr = 0 ∨ (readHeader s.mem (pageOf ptr)).magic ≠ slabMagic then s
  else
    let page := pageOf ptr
    let ci := (readHeader s.mem page).cacheIdx
    let s' := { s with mem := giveBack s.mem page ptr }
    if (readHeader s.mem page).freeCount = 0 then
      let s'' := unlinkFull s' ci page
      { s'' with mem := setNext s''.mem page (s''.partialHead ci)
                 partialHead := update s''.partialHead ci page }
    else s'

/-- `slab_owns(ptr)`. -/
def slabOwns (m : Mem) (ptr : Nat) : Bool :=
  if ptr = 0 then false else decide ((readHeader m (pageOf ptr)).magic = slabMagic)

/-! ## What a store changes -/

/-- Only bytes of the page at `base` differ. -/
def SameOutside (base : Nat) (m m' : Mem) : Prop :=
  ∀ b, ¬(base ≤ b ∧ b < base + slabPageSize) → m' b = m b

variable {o b p k size : Nat}

section

variable {m m' m'' : Mem} {page base obj v : Nat}

theorem SameOutside.trans (h : SameOutside base m m') (h' : SameOutside base m' m'') : SameOutside base m m'' :=
  fun b hb => (h' b hb).trans (h b hb)

/-- A store into the page changes nothing outside it. -/
theorem sameOutside_putLE {a n : Nat} (hlo : base ≤ a) (hhi : a + n ≤ base + slabPageSize) :
    SameOutside base m (putLE m a n v) := by
  intro b hb
  apply putLE_of_not_mem
  omega

theorem sameOutside_setNext : SameOutside base m (setNext m base v) :=
  sameOutside_putLE (by omega) (by unfold slabPageSize; omega)

theorem sameOutside_setFreeCount : SameOutside base m (setFreeCount m base v) :=
  sameOutside_putLE (by omega) (by unfold slabPageSize; omega)

theorem sameOutside_setFreeList : SameOutside base m (setFreeList m base v) :=
  sameOutside_putLE (by omega) (by unfold slabPageSize; omega)

/-- The header is the 32 bytes it covers. -/
theorem readHeader_congr (h : ∀ b, page ≤ b → b < page + sizeofSlabPage → m b = m' b) :
    readHeader m page = readHeader m' page := by
  unfold sizeofSlabPage at h
  unfold readHeader
  have hfield : ∀ a n, page ≤ a → a + n ≤ page + 32 → getLE m a n = getLE m' a n :=
    fun a n hlo hhi => getLE_congr fun b h1 h2 => h b (by omega) (by omega)
  rw [hfield page 4 (by omega) (by omega), hfield (page + 8) 8 (by omega) (by omega),
    hfield (page + 16) 2 (by omega) (by omega), hfield (page + 18) 2 (by omega) (by omega),
    hfield (page + 20) 2 (by omega) (by omega), hfield (page + 22) 1 (by omega) (by omega),
    hfield (page + 24) 8 (by omega) (by omega)]

theorem readHeader_setNext (m : Mem) (page : Nat) (hv : v < 2 ^ 64) :
    readHeader (setNext m page v) page = { readHeader m page with next := v } := by
  have hself := getLE_putLE_self (m := m) (a := page + 8) (n := 8) hv
  simp (disch := unfold Apart; omega) only [readHeader, setNext, hself, getLE_putLE_of_apart]

theorem readHeader_setFreeCount (hv : v < 2 ^ 16) :
    readHeader (setFreeCount m page v) page = { readHeader m page with freeCount := v } := by
  have hself := getLE_putLE_self (m := m) (a := page + 20) (n := 2) hv
  simp (disch := unfold Apart; omega) only [readHeader, setFreeCount, hself, getLE_putLE_of_apart]

theorem readHeader_setFreeList (hv : v < 2 ^ 64) :
    readHeader (setFreeList m page v) page = { readHeader m page with freeList := v } := by
  have hself := getLE_putLE_self (m := m) (a := page + 24) (n := 8) hv
  simp (disch := unfold Apart; omega) only [readHeader, setFreeList, hself, getLE_putLE_of_apart]

/-- A store behind the header. -/
theorem readHeader_setLink (h : page + sizeofSlabPage ≤ obj) :
    readHeader (setLink m obj v) page = readHeader m page := by
  apply readHeader_congr
  intro b _ hb
  apply putLE_of_not_mem
  omega

/-- Stores into the header do not change a link. -/
theorem link_of_header (h : ∀ b, page + sizeofSlabPage ≤ b → m' b = m b)
    (ho : page + sizeofSlabPage ≤ o) : link m' o = link m o :=
  getLE_congr fun b hb _ => h b (by omega)

theorem link_lt : link m obj < 2 ^ 64 := getLE_lt m obj 8

end

/-! ## Memory represents pages and lists -/

/-- The memory at `base` is that of `page`: the fields of the header, and the links of the free objects. -/
structure PageAt (m : Mem) (base : Nat) (page : Page) : Prop where
  magic : (readHeader m base).magic = slabMagic
  objSize : (readHeader m base).objSize = cacheSizes page.cacheIdx
  count : (readHeader m base).freeCount = page.freeList.length
  cacheIdx : (readHeader m base).cacheIdx = page.cacheIdx
  free : Linked (link m) (readHeader m base).freeList page.freeList

/-- Memory and list heads are those of the pages and lists of `t`. -/
structure Represents (s : Store) (t : Slab.State) : Prop where
  ready : s.ready = t.ready
  pages : ∀ base page, t.header base = some page → PageAt s.mem base page
  parts : ∀ ci : Fin slabNumCaches, Linked (pageNext s.mem) (s.partialHead ci) (t.partialPages ci)
  fulls : ∀ ci : Fin slabNumCaches, Linked (pageNext s.mem) (s.fullHead ci) (t.fullPages ci)

section

variable {m m' : Mem} {s : Store} {t : Slab.State} {live : List Held} {base : Nat} {page : Page}
  {ci : Fin slabNumCaches}

theorem eight_le_cacheSizes (ci : Fin slabNumCaches) : 16 ≤ cacheSizes ci := by
  revert ci
  decide

/-- Stores that change the links of a page and, in its header, the list pointers and the count. -/
theorem PageAt.edit (h : PageAt m base page) {next k head : Nat} {free : List Nat}
    (hheader : readHeader m' base = { readHeader m base with next := next, freeCount := k, freeList := head })
    (hk : k = free.length) (hfree : Linked (link m') head free) : PageAt m' base { page with freeList := free } := by
  obtain ⟨hmagic, hsize, _, hidx, _⟩ := h
  constructor <;> rw [hheader] <;> assumption

/-- A page is the bytes it covers. -/
theorem PageAt.congr (h : PageAt m base page) (hgrid : ∀ obj ∈ page.freeList, OnGrid base page.cacheIdx obj)
    (hsame : ∀ b, base ≤ b → b < base + slabPageSize → m' b = m b) : PageAt m' base page := by
  have hheader : readHeader m' base = readHeader m base :=
    readHeader_congr fun b h1 h2 => hsame b h1 (by unfold sizeofSlabPage at h2; unfold slabPageSize; omega)
  refine h.edit hheader h.count (h.free.congr fun obj hobj => ?_)
  obtain ⟨hlo, hhi⟩ := (hgrid obj hobj).objAt
  have hroom := eight_le_cacheSizes page.cacheIdx
  exact getLE_congr fun b h1 h2 => hsame b (by omega) (by omega)

/-- Stores into one page keep the others. -/
theorem other_page (ht : Accounted t live) {p : Page} (hp : t.header b = some p)
    (hbase : base % slabPageSize = 0) (hne : b ≠ base) (hm : SameOutside base m m') (h : PageAt m b p) :
    PageAt m' b p := by
  refine h.congr (ht.grid b p hp) fun x h1 h2 => hm x ?_
  rcases Slab.pages_apart (ht.aligned b p hp).1 hbase hne with h | h <;> omega

theorem pageNext_of_outside (hb : b % slabPageSize = 0) (hbase : base % slabPageSize = 0) (hne : b ≠ base)
    (hm : SameOutside base m m') : pageNext m' b = pageNext m b := by
  have hheader : readHeader m' b = readHeader m b := by
    refine readHeader_congr fun x h1 h2 => hm x ?_
    unfold sizeofSlabPage at h2
    rcases Slab.pages_apart hb hbase hne with h | h <;> unfold slabPageSize at h ⊢ <;> omega
  rw [pageNext, pageNext, hheader]

/-- The pages on the lists have headers. -/
theorem listed (ht : Accounted t live) (hb : b ∈ t.partialPages ci ∨ b ∈ t.fullPages ci) :
    ∃ p, t.header b = some p := by
  rw [ht.lists.partial_iff, ht.lists.full_iff] at hb
  exact hb.elim (fun h => h.imp fun _ hp => hp.1) fun h => h.imp fun _ hp => hp.1

variable {l : List Nat}

/-- Addresses of pages. -/
def PageList (l : List Nat) : Prop := ∀ b ∈ l, b % slabPageSize = 0 ∧ b < 2 ^ 32

theorem pageList_of_listed (ht : Accounted t live) (hl : ∀ b ∈ l, b ∈ t.partialPages ci ∨ b ∈ t.fullPages ci) :
    PageList l := by
  intro b hb
  obtain ⟨p, hp⟩ := listed ht (hl b hb)
  exact ⟨(ht.aligned b p hp).1, (ht.aligned b p hp).2.2⟩

theorem partial_pageList (ht : Accounted t live) (ci : Fin slabNumCaches) : PageList (t.partialPages ci) :=
  pageList_of_listed ht fun _ => .inl

theorem full_pageList (ht : Accounted t live) (ci : Fin slabNumCaches) : PageList (t.fullPages ci) :=
  pageList_of_listed ht fun _ => .inr

/-- A list is kept by stores into a page that is not on it, or whose `next` field they leave alone. -/
theorem list_kept (hl : PageList l) (hbase : base % slabPageSize = 0) (hm : SameOutside base m m')
    (hnext : base ∈ l → pageNext m' base = pageNext m base) (h : Linked (pageNext m) p l) :
    Linked (pageNext m') p l := by
  refine h.congr fun b hb => ?_
  rcases eq_or_ne b base with rfl | hne
  · exact hnext hb
  · exact pageNext_of_outside (hl b hb).1 hbase hne hm

/-- So are all lists. -/
theorem Represents.lists (hr : Represents s t) (ht : Accounted t live) (hbase : base % slabPageSize = 0)
    (hm : SameOutside base s.mem m') (hnext : pageNext m' base = pageNext s.mem base) (ci : Fin slabNumCaches) :
    Linked (pageNext m') (s.partialHead ci) (t.partialPages ci) ∧
      Linked (pageNext m') (s.fullHead ci) (t.fullPages ci) :=
  ⟨list_kept (partial_pageList ht ci) hbase hm (fun _ => hnext) (hr.parts ci),
    list_kept (full_pageList ht ci) hbase hm (fun _ => hnext) (hr.fulls ci)⟩

/-- The list of one cache is replaced. -/
theorem linked_update {next heads : Nat → Nat} {lists : Fin slabNumCaches → List Nat} {head : Nat}
    (hself : Linked next head l) (hother : ∀ ci', ci' ≠ ci → Linked next (heads ci') (lists ci'))
    (ci' : Fin slabNumCaches) : Linked next (update heads ci head ci') (update lists ci l ci') := by
  rcases eq_or_ne ci' ci with rfl | hci
  · rwa [update_self, update_self]
  · rw [update_of_ne hci, update_of_ne (Fin.val_ne_of_ne hci)]
    exact hother ci' hci

/-- Addresses of objects fit a pointer. -/
theorem obj_lt (ht : Accounted t live) (hpage : t.header base = some page)
    (ho : OnGrid base page.cacheIdx o) : o < 2 ^ 64 ∧ o ≠ 0 := by
  obtain ⟨hlo, hhi⟩ := ho.objAt
  have hlt := (ht.aligned base page hpage).2.2
  unfold slabPageSize at hhi
  unfold sizeofSlabPage at hlo
  constructor <;> omega

/-! ## Popping -/

/-- The header after a pop, in a page that counts an object. -/
theorem readHeader_takeObject (obj : Nat) (hcount : (readHeader m base).freeCount = k + 1) :
    readHeader (takeObject m base obj) base
      = { readHeader m base with freeList := link m obj, freeCount := k } := by
  have hcap : (readHeader m base).freeCount < 2 ^ 16 := getLE_lt m (base + 20) 2
  have hmod : ((readHeader m base).freeCount + 65535) % 65536 = k := by omega
  rw [takeObject, readHeader_setFreeCount (by omega), readHeader_setFreeList link_lt]
  simp only [hmod]

variable {obj : Nat}

theorem takeObject_behind (hb : base + sizeofSlabPage ≤ b) : takeObject m base obj b = m b := by
  unfold sizeofSlabPage at hb
  rw [takeObject, setFreeCount, putLE_of_not_mem (by omega), setFreeList, putLE_of_not_mem (by omega)]

theorem sameOutside_takeObject : SameOutside base m (takeObject m base obj) :=
  sameOutside_setFreeList.trans sameOutside_setFreeCount

/-- The page after the stores of a pop. -/
theorem PageAt.takeObject (h : PageAt m base page) (hgrid : ∀ o ∈ page.freeList, OnGrid base page.cacheIdx o)
    {rest : List Nat} (hlist : page.freeList = obj :: rest) :
    PageAt (takeObject m base obj) base { page with freeList := rest } := by
  have hcount := h.count
  have hfree := h.free
  rw [hlist] at hfree hcount hgrid
  refine h.edit (readHeader_takeObject obj hcount) rfl (hfree.2.2.congr fun o ho => ?_)
  exact link_of_header (fun b hb => takeObject_behind hb) (hgrid o (.tail _ ho)).objAt.1

/-- Setting the `next` field keeps the page. -/
theorem PageAt.setNext (h : PageAt m base page) (hgrid : ∀ obj ∈ page.freeList, OnGrid base page.cacheIdx obj)
    {v : Nat} (hv : v < 2 ^ 64) : PageAt (setNext m base v) base page := by
  refine h.edit (readHeader_setNext m base hv) h.count (h.free.congr fun o ho => ?_)
  refine link_of_header (fun b hb => putLE_of_not_mem ?_) (hgrid o ho).objAt.1
  unfold sizeofSlabPage at hb
  omega

/-- The head of a list of pages fits a pointer. -/
theorem list_head_lt {next : Nat → Nat} (hl : PageList l) (h : Linked next p l) : p < 2 ^ 64 := by
  cases l with
  | nil =>
    rw [linked_nil.mp h]
    decide
  | cons a l =>
    have ha := (hl a (.head _)).2
    rw [h.1]
    omega

/-- A page is put in front of a list of other pages. -/
theorem push_page (hl : PageList l) (hbase : base % slabPageSize = 0) (hpos : 0 < base) (hnotin : base ∉ l)
    (h : Linked (pageNext m) p l) : Linked (pageNext (setNext m base p)) base (base :: l) := by
  refine h.push (Nat.ne_of_gt hpos) ?_ fun b hb => ?_
  · show (readHeader _ base).next = _
    rw [readHeader_setNext _ _ (list_head_lt hl h)]
  · exact pageNext_of_outside (hl b hb).1 hbase (fun heq => hnotin (heq ▸ hb)) sameOutside_setNext

/-- **A pop on memory is a pop on lists.** -/
theorem slabPop_refines (hr : Represents s t) (ht : Accounted t live) {others : List Nat}
    (hpart : t.partialPages ci = base :: others) :
    (slabPop s ci base).1 = (Slab.slabPop t ci base).1 ∧
      Represents (slabPop s ci base).2 (Slab.slabPop t ci base).2 := by
  have hmem : base ∈ t.partialPages ci := by rw [hpart]; exact .head _
  obtain ⟨page, hpage, rfl, hne⟩ := (ht.lists.partial_iff ci base).mp hmem
  obtain ⟨obj, rest, hlist⟩ := List.exists_cons_of_ne_nil hne
  have hat := hr.pages base page hpage
  have hgrid := ht.grid base page hpage
  have hat' := hat.takeObject hgrid hlist
  have hobj : (readHeader s.mem base).freeList = obj := by
    have hfree := hat.free
    rw [hlist] at hfree
    exact hfree.1
  have hcount : (readHeader s.mem base).freeCount = rest.length + 1 := by
    rw [hat.count, hlist, List.length_cons]
  have hheader := readHeader_takeObject obj hcount
  obtain ⟨haligned, hpos, _⟩ := ht.aligned base page hpage
  have hnext : pageNext (takeObject s.mem base obj) base = pageNext s.mem base := by
    rw [pageNext, pageNext, hheader]
  have hothers : ∀ b p, t.header b = some p → b ≠ base → PageAt (takeObject s.mem base obj) b p :=
    fun b p hp hb => other_page ht hp haligned hb sameOutside_takeObject (hr.pages b p hp)
  have hlists := hr.lists ht haligned sameOutside_takeObject hnext
  rw [Slab.slabPop_eq hpage hlist]
  unfold slabPop
  simp only [hobj, hheader, List.length_eq_zero_iff]
  by_cases hlast : rest = []
  · rw [if_pos hlast, if_pos hlast]
    have hfull : ∀ ci', base ∉ t.fullPages ci' := by
      intro ci' hin
      obtain ⟨p, hp, _, hnil⟩ := (ht.lists.full_iff ci' base).mp hin
      obtain rfl := Option.some.inj (hpage.symm.trans hp)
      exact hne hnil
    refine ⟨rfl, hr.ready, ?_, linked_update ?_ fun ci' hci => ?_, linked_update ?_ fun ci' _ => ?_⟩
    · refine Slab.forall_setHeader (fun b p hp hb => ?_) (hat'.setNext ?_ ?_)
      · exact other_page ht hp haligned hb sameOutside_setNext (hothers b p hp hb)
      · exact fun o ho => hgrid o (by rw [hlist]; exact .tail _ ho)
      · exact list_head_lt (full_pageList ht _) (hr.fulls _)
    · -- the rest of the partial list follows the link that the page had
      have hparts := (hlists page.cacheIdx).1
      have hnodup := ht.lists.partial_nodup page.cacheIdx
      have hpages := partial_pageList ht page.cacheIdx
      rw [hpart] at hparts hnodup hpages
      rw [hpart]
      exact list_kept (List.forall_mem_cons.mp hpages).2 haligned sameOutside_setNext
        (absurd · (List.nodup_cons.mp hnodup).1) hparts.2.2
    · refine list_kept (partial_pageList ht ci') haligned sameOutside_setNext (fun hin => ?_) (hlists ci').1
      obtain ⟨p, hp, hci', _⟩ := (ht.lists.partial_iff ci' base).mp hin
      obtain rfl := Option.some.inj (hpage.symm.trans hp)
      exact absurd hci'.symm hci
    · exact push_page (full_pageList ht _) haligned hpos (hfull _) (hlists _).2
    · exact list_kept (full_pageList ht ci') haligned sameOutside_setNext (absurd · (hfull ci')) (hlists ci').2
  · rw [if_neg hlast, if_neg hlast]
    exact ⟨rfl, hr.ready, Slab.forall_setHeader hothers hat', fun ci' => (hlists ci').1, fun ci' => (hlists ci').2⟩

/-! ## Pushing -/

theorem readHeader_pushObject (hobj : base + sizeofSlabPage ≤ obj) (hlt : obj < 2 ^ 64) :
    readHeader (pushObject base obj m) base = { readHeader m base with freeList := obj } := by
  rw [pushObject, readHeader_setFreeList hlt, readHeader_setLink hobj]

/-- The object goes in front of the free list, if it meets none of the objects there. -/
theorem linked_pushObject (h : Linked (link m) (readHeader m base).freeList l)
    (hobj : base + sizeofSlabPage ≤ obj) (hne : obj ≠ 0)
    (hl : ∀ o ∈ l, base + sizeofSlabPage ≤ o ∧ (obj + 8 ≤ o ∨ o + 8 ≤ obj)) :
    Linked (link (pushObject base obj m)) obj (obj :: l) := by
  have hheader : ∀ b, base + sizeofSlabPage ≤ b →
      pushObject base obj m b = setLink m obj (readHeader m base).freeList b := by
    intro b hb
    unfold sizeofSlabPage at hb
    exact putLE_of_not_mem (by omega)
  refine h.push hne ?_ fun o ho => ?_
  · rw [link_of_header hheader hobj]
    exact getLE_putLE_self (getLE_lt m (base + 24) 8)
  · rw [link_of_header hheader (hl o ho).1]
    exact getLE_putLE_of_apart (hl o ho).2

theorem sameOutside_pushObject (hlo : base ≤ obj) (hhi : obj + 8 ≤ base + slabPageSize) :
    SameOutside base m (pushObject base obj m) :=
  (sameOutside_putLE hlo hhi).trans sameOutside_setFreeList

/-! ## A fresh page -/

theorem capacity_lt (ci : Fin slabNumCaches) : cacheSizes ci < 256 ^ 2 ∧ capacity ci < 256 ^ 2 := by
  revert ci
  decide

theorem readHeader_writeHeader : readHeader (writeHeader m ci base) base =
      { magic := slabMagic, next := 0, objSize := cacheSizes ci, capacity := capacity ci,
        freeCount := capacity ci, cacheIdx := ci, freeList := 0 } := by
  obtain ⟨hsize, hcap⟩ := capacity_lt ci
  have hci : (ci : Nat) < 256 ^ 1 := Nat.lt_trans ci.isLt (by decide)
  have hself : ∀ {m : Mem} {a n v : Nat}, v < 256 ^ n → getLE (putLE m a n v) a n = v := getLE_putLE_self
  simp (disch := first | assumption | (unfold Apart; omega) | decide) only
    [readHeader, writeHeader, setNext, setFreeCount, setFreeList, hself, getLE_putLE_of_apart]

theorem sameOutside_writeHeader : SameOutside base m (writeHeader m ci base) := by
  intro b hb
  unfold slabPageSize at hb
  simp only [writeHeader, setNext, setFreeCount, setFreeList]
  iterate 8 rw [putLE_of_not_mem (by omega)]

/-- After `k` rounds the first `k` objects are on the free list, the last one in front. -/
theorem slabPageCreate_rounds (hbase : base ≠ 0) (hlt : base < 2 ^ 32) (hk : k ≤ capacity ci) :
    ∀ m', m' = (List.range k).foldl (fun m i => pushObject base (objectAt base ci i) m) (writeHeader m ci base) →
      SameOutside base m m' ∧
      (∃ head, readHeader m' base = { readHeader (writeHeader m ci base) base with freeList := head }) ∧
      Linked (link m') (readHeader m' base).freeList ((List.range k).map (objectAt base ci)).reverse := by
  induction k with
  | zero =>
    rintro _ rfl
    refine ⟨sameOutside_writeHeader, ⟨_, rfl⟩, ?_⟩
    rw [List.range_zero, List.foldl_nil, readHeader_writeHeader]
    rfl
  | succ k ih =>
    rintro _ rfl
    obtain ⟨hm, ⟨head, hheader⟩, hlinked⟩ := ih (Nat.le_of_succ_le hk) _ rfl
    have hgrid : OnGrid base ci (objectAt base ci k) := ⟨k, hk, rfl⟩
    obtain ⟨hlo, hhi⟩ := hgrid.objAt
    have hroom := eight_le_cacheSizes ci
    have hobj : objectAt base ci k < 2 ^ 64 := by
      unfold slabPageSize at hhi
      omega
    rw [List.range_succ, List.foldl_append, List.foldl_cons, List.foldl_nil, List.map_append, List.map_cons,
      List.map_nil, List.reverse_append]
    refine ⟨hm.trans (sameOutside_pushObject (by omega) (by omega)), ⟨objectAt base ci k, ?_⟩, ?_⟩
    · rw [readHeader_pushObject hlo hobj, hheader]
    rw [readHeader_pushObject hlo hobj]
    refine linked_pushObject hlinked hlo (by omega) fun o ho => ?_
    obtain ⟨i, hi, rfl⟩ := List.mem_map.mp (List.mem_reverse.mp ho)
    have hik := List.mem_range.mp hi
    have hgrid' : OnGrid base ci (objectAt base ci i) := ⟨i, by omega, rfl⟩
    have hne : objectAt base ci k ≠ objectAt base ci i := by
      have hmul := Word.row_le hik (cacheSizes ci)
      unfold objectAt
      omega
    refine ⟨hgrid'.objAt.1, ?_⟩
    rcases hgrid.apart hgrid' hne with h | h
    · exact .inl (by omega)
    · exact .inr (by omega)

/-- **A fresh page** is the page of `Slab`, with all its objects free. -/
theorem slabPageCreate_pageAt (m : Mem) (ci : Fin slabNumCaches) (hbase : base ≠ 0) (hlt : base < 2 ^ 32) :
    SameOutside base m (slabPageCreate m ci base) ∧
      PageAt (slabPageCreate m ci base) base (Slab.slabPageCreate ci base) ∧
      pageNext (slabPageCreate m ci base) base = 0 := by
  obtain ⟨hm, ⟨head, hheader⟩, hlinked⟩ :=
    slabPageCreate_rounds hbase hlt (Nat.le_refl (capacity ci)) _ rfl
  have hfree := Slab.slabPageCreate_freeList ci base
  rw [readHeader_writeHeader] at hheader
  unfold slabPageCreate
  refine ⟨hm, ⟨by rw [hheader], by rw [hheader]; rfl, ?_, by rw [hheader]; rfl, by rwa [hfree]⟩, ?_⟩
  · rw [hheader, hfree, List.length_reverse, List.length_map, List.length_range]
  · rw [pageNext, hheader]

/-- A fresh page as the partial list of its cache. -/
theorem represents_fresh (hr : Represents s t) (ht : Accounted t live) (hframe : FrameOk t base) (hne : base ≠ 0)
    (ci : Fin slabNumCaches) :
    Represents { s with mem := slabPageCreate s.mem ci base
                        partialHead := update s.partialHead ci base }
      ((t.setHeader base (Slab.slabPageCreate ci base)).setPartial ci [base]) := by
  obtain ⟨haligned, hlt, hnone⟩ := hframe hne
  obtain ⟨hm, hpage, hnext⟩ := slabPageCreate_pageAt s.mem ci hne hlt
  have hnew : ∀ ci', ¬(base ∈ t.partialPages ci' ∨ base ∈ t.fullPages ci') := by
    intro ci' hin
    obtain ⟨p, hp⟩ := listed ht hin
    rw [hnone] at hp
    cases hp
  refine ⟨hr.ready, ?_, linked_update ⟨rfl, hne, hnext⟩ fun ci' _ => ?_, fun ci' => ?_⟩
  · refine Slab.forall_setHeader (fun b p hp hb => ?_) hpage
    exact other_page ht hp haligned hb hm (hr.pages b p hp)
  · exact list_kept (partial_pageList ht ci') haligned hm (fun h => absurd (.inl h) (hnew ci')) (hr.parts ci')
  · exact list_kept (full_pageList ht ci') haligned hm (fun h => absurd (.inr h) (hnew ci')) (hr.fulls ci')

/-- The held objects after an allocation of `size` bytes that answered `ptr`. -/
def heldAfter (live : List Held) (size ptr : Nat) : List Held := if ptr = 0 then live else ⟨ptr, size⟩ :: live

/-- An allocation on memory and one on lists end alike. -/
structure Agrees (live : List Held) (size : Nat) (r : Nat × Store) (r' : Nat × Slab.State) : Prop where
  answer : r.1 = r'.1
  represents : Represents r.2 r'.2
  accounted : Accounted r'.2 (heldAfter live size r.1)

/-- A pop answers the address of an object, never null. -/
theorem slabPop_agrees (hr : Represents s t) (ht : Accounted t live) {others : List Nat}
    (hpart : t.partialPages ci = base :: others) (hsize : size ≤ cacheSizes ci) :
    Agrees live size (slabPop s ci base) (Slab.slabPop t ci base) := by
  obtain ⟨hans, hrep⟩ := slabPop_refines hr ht hpart
  have hacc := ht.pop hpart hsize
  refine ⟨hans, hrep, ?_⟩
  obtain ⟨b, p, hp, hgrid, _⟩ := hacc.held _ (.head _)
  rwa [hans, heldAfter, if_neg (obj_lt hacc hp hgrid).2]

/-- **Allocation on memory is allocation on lists**, and keeps the accounts. -/
theorem slabAlloc_agrees (hr : Represents s t) (ht : Accounted t live) {frame : Nat}
    (hframe : FrameOk t frame) : Agrees live size (slabAlloc s size frame) (Slab.slabAlloc t size frame) := by
  have hnull : Agrees live size (0, s) (0, t) := ⟨rfl, hr, ht⟩
  unfold slabAlloc Slab.slabAlloc
  rw [hr.ready]
  by_cases hrefuse : t.ready = false ∨ size = 0 ∨ size > slabMaxObj
  · rwa [if_pos hrefuse, if_pos hrefuse]
  rw [if_neg hrefuse, if_neg hrefuse]
  cases hci : cacheIndexForSize size with
  | none => exact hnull
  | some ci =>
    have hsize := Slab.le_cacheSizes_of_cacheIndexForSize hci
    have hlist := hr.parts ci
    dsimp only
    cases hpart : t.partialPages ci with
    | nil =>
      rw [hpart] at hlist
      rw [if_pos (linked_nil.mp hlist)]
      by_cases hzero : frame = 0
      · rwa [if_pos hzero, if_pos hzero]
      · rw [if_neg hzero, if_neg hzero]
        have hfresh := represents_fresh hr ht hframe hzero ci
        rw [hr.ready] at hfresh
        exact slabPop_agrees hfresh (ht.fresh hframe hzero hpart) (update_self ..) hsize
    | cons base others =>
      rw [hpart] at hlist
      obtain ⟨hhead, hne, _⟩ := hlist
      rw [hhead, if_neg hne]
      exact slabPop_agrees hr ht hpart hsize

/-! ## Freeing -/

/-- Not more objects are free than the page has. -/
theorem free_length_lt (hgrid : ∀ o ∈ l, OnGrid base ci o) (hnodup : l.Nodup) : l.length < 65536 := by
  have hsub : l ⊆ (List.range (capacity ci)).map (objectAt base ci) := by
    intro o ho
    obtain ⟨i, hi, rfl⟩ := hgrid o ho
    exact List.mem_map_of_mem (List.mem_range.mpr hi)
  have hle := (List.subperm_of_subset hnodup hsub).length_le
  rw [List.length_map, List.length_range] at hle
  have hcap := (capacity_lt ci).2
  omega

theorem readHeader_giveBack {ptr k : Nat} (hptr : base + sizeofSlabPage ≤ ptr) (hlt : ptr < 2 ^ 64)
    (hcount : (readHeader m base).freeCount = k) (hk : k + 1 < 65536) :
    readHeader (giveBack m base ptr) base = { readHeader m base with freeList := ptr, freeCount := k + 1 } := by
  rw [giveBack, readHeader_setFreeCount (by omega), readHeader_pushObject hptr hlt]
  have hmod : ((readHeader m base).freeCount + 1) % 65536 = k + 1 := by omega
  simp only [hmod]

/-- The page after the object was given back. -/
theorem pageAt_giveBack (ht : Accounted t live) (hpage : t.header base = some page) (h : PageAt m base page)
    {ptr : Nat} (hptr : OnGrid base page.cacheIdx ptr) (hfree : ptr ∉ page.freeList) :
    PageAt (giveBack m base ptr) base { page with freeList := ptr :: page.freeList } ∧
      SameOutside base m (giveBack m base ptr) ∧ pageNext (giveBack m base ptr) base = pageNext m base := by
  obtain ⟨hlo, hhi⟩ := hptr.objAt
  obtain ⟨hlt, hne⟩ := obj_lt ht hpage hptr
  have hroom := eight_le_cacheSizes page.cacheIdx
  have hgrid := ht.grid base page hpage
  have hgrid' : ∀ o ∈ ptr :: page.freeList, OnGrid base page.cacheIdx o := List.forall_mem_cons.mpr ⟨hptr, hgrid⟩
  have hk := free_length_lt hgrid' (List.nodup_cons.mpr ⟨hfree, ht.nodup base page hpage⟩)
  have hheader := readHeader_giveBack hlo hlt h.count hk
  have hbehind : ∀ b, base + sizeofSlabPage ≤ b → giveBack m base ptr b = pushObject base ptr m b := by
    intro b hb
    unfold sizeofSlabPage at hb
    exact putLE_of_not_mem (by omega)
  have hpush : Linked (link (pushObject base ptr m)) ptr (ptr :: page.freeList) := by
    refine linked_pushObject h.free hlo hne fun o ho => ⟨(hgrid o ho).objAt.1, ?_⟩
    have hdiff : ptr ≠ o := fun heq => hfree (by rwa [heq])
    rcases hptr.apart (hgrid o ho) hdiff with h | h
    · exact .inl (by omega)
    · exact .inr (by omega)
  refine ⟨h.edit hheader rfl (hpush.congr fun o ho => link_of_header hbehind (hgrid' o ho).objAt.1), ?_, ?_⟩
  · exact (sameOutside_pushObject (by omega) (by omega)).trans sameOutside_setFreeCount
  · rw [pageNext, pageNext, hheader]

/-- There are no more pages than frames. -/
theorem pages_length_le (hl : PageList l) (hnodup : l.Nodup) :
    l.length ≤ walkRounds := by
  have hsub : l ⊆ (List.range walkRounds).map (· * slabPageSize) := by
    intro b hb
    obtain ⟨haligned, hlt⟩ := hl b hb
    refine List.mem_map.mpr ⟨b / slabPageSize, List.mem_range.mpr ?_, ?_⟩
    · unfold slabPageSize walkRounds
      omega
    · unfold slabPageSize at *
      omega
  have hle := (List.subperm_of_subset hnodup hsub).length_le
  rwa [List.length_map, List.length_range] at hle

/-- **The page is unlinked**: the head moves on, or the predecessor bypasses the page. -/
theorem unlinkFull_spec (h : Linked (pageNext s.mem) (s.fullHead ci) l) (hin : base ∈ l)
    (hl : PageList l) (hnodup : l.Nodup) :
    (unlinkFull s ci base).ready = s.ready ∧ (unlinkFull s ci base).partialHead = s.partialHead ∧
      (∀ c, c ≠ (ci : Nat) → (unlinkFull s ci base).fullHead c = s.fullHead c) ∧
      Linked (pageNext (unlinkFull s ci base).mem) ((unlinkFull s ci base).fullHead ci) (l.erase base) ∧
      ∃ prev ∈ l, SameOutside prev s.mem (unlinkFull s ci base).mem ∧ ∀ page, PageAt s.mem prev page →
        (∀ o ∈ page.freeList, OnGrid prev page.cacheIdx o) → PageAt (unlinkFull s ci base).mem prev page := by
  cases l with
  | nil => cases hin
  | cons a l =>
    have hhead := h.1
    have ha := h.2.1
    unfold unlinkFull
    rw [hhead, if_neg ha]
    by_cases hab : a = base
    · -- the page heads the list
      subst hab
      rw [if_pos rfl, List.erase_cons_head]
      refine ⟨rfl, rfl, fun c hc => update_of_ne hc .., ?_, a, .head _, fun _ _ => rfl, fun _ h _ => h⟩
      show Linked _ (update s.fullHead ci _ ci) l
      rw [update_self]
      exact h.2.2
    · rw [if_neg hab]
      have hin' : base ∈ l := (List.mem_cons.mp hin).resolve_left fun heq => hab heq.symm
      have hrounds : l.length ≤ walkRounds := Nat.le_of_succ_le (pages_length_le hl hnodup)
      rw [hhead] at h
      obtain ⟨pre, prev, post, hlist, hpred⟩ := h.pred_spec hin' hrounds
      rw [hpred]
      have hprev : prev ∈ a :: l := by
        rw [hlist]
        exact List.mem_append_right _ (.head _)
      have hne : prev ≠ base := by
        rintro rfl
        rw [hlist] at hnodup
        exact (List.nodup_cons.mp (List.nodup_append.mp hnodup).2.1).1 (.head _)
      have hv : pageNext s.mem base < 2 ^ 64 := getLE_lt s.mem (base + 8) 8
      refine ⟨rfl, rfl, fun _ _ => rfl, ?_, prev, hprev, sameOutside_setNext, fun _ h hgrid => h.setNext hgrid hv⟩
      show Linked _ (s.fullHead ci) ((a :: l).erase base)
      have herase : (a :: l).erase base = pre ++ prev :: post := by
        rw [hlist] at hnodup ⊢
        have hpre : base ∉ pre := fun hmem =>
          (List.nodup_append.mp hnodup).2.2 base hmem base (.tail _ (.head _)) rfl
        rw [List.erase_append_right _ hpre, List.erase_cons_tail (by simpa using hne), List.erase_cons_head]
      rw [herase, hhead]
      rw [hlist] at h hnodup
      refine h.bypass hnodup ?_ fun b hb hbne => ?_
      · show (readHeader _ prev).next = _
        rw [readHeader_setNext _ _ hv]
      · rw [← hlist] at hb
        exact pageNext_of_outside (hl b hb).1 (hl prev hprev).1 hbne sameOutside_setNext

/-- A full page is on no other list. -/
theorem full_only (ht : Accounted t live) (hb : b ∈ t.fullPages ci) :
    (∀ ci', b ∉ t.partialPages ci') ∧ ∀ ci', ci' ≠ ci → b ∉ t.fullPages ci' := by
  obtain ⟨p, hp, hci, hnil⟩ := (ht.lists.full_iff ci b).mp hb
  constructor
  · intro ci' hin
    obtain ⟨p', hp', _, hfree⟩ := (ht.lists.partial_iff ci' b).mp hin
    obtain rfl := Option.some.inj (hp.symm.trans hp')
    exact hfree hnil
  · intro ci' hne hin
    obtain ⟨p', hp', hci', _⟩ := (ht.lists.full_iff ci' b).mp hin
    obtain rfl := Option.some.inj (hp.symm.trans hp')
    exact hne (hci'.symm.trans hci)

/-- The address is in none of the pages. -/
def OutsidePages (t : Slab.State) (x : Nat) : Prop :=
  ∀ base page, t.header base = some page → ¬(base ≤ x ∧ x < base + slabPageSize)

variable {a : Held}

/-- **Freeing on memory is freeing on lists**, and stores into pages only. -/
theorem slabFree_refines (hr : Represents s t) (ht : Accounted t live) (ha : a ∈ live) :
    ∃ page, t.header (pageOf a.ptr) = some page ∧ Represents (slabFree s a.ptr) (Slab.slabFree t a.ptr page) ∧
      ∀ x, OutsidePages t x → (slabFree s a.ptr).mem x = s.mem x := by
  obtain ⟨base, page, hpage, hgrid, _, hfree⟩ := ht.held a ha
  obtain ⟨haligned, hpos, hlt⟩ := ht.aligned base page hpage
  have hround : pageOf a.ptr = base := pageOf_objAt hgrid.objAt haligned hlt
  have hat := hr.pages base page hpage
  obtain ⟨hat', hm, hnext⟩ := pageAt_giveBack ht hpage hat hgrid hfree
  have hgrid' : ∀ o ∈ a.ptr :: page.freeList, OnGrid base page.cacheIdx o :=
    List.forall_mem_cons.mpr ⟨hgrid, ht.grid base page hpage⟩
  have hothers : ∀ b p, t.header b = some p → b ≠ base → PageAt (giveBack s.mem base a.ptr) b p :=
    fun b p hp hb => other_page ht hp haligned hb hm (hr.pages b p hp)
  have hlists := hr.lists ht haligned hm hnext
  refine ⟨page, by rw [hround]; exact hpage, ?_⟩
  unfold slabFree Slab.slabFree
  rw [hround, if_neg (not_or.mpr ⟨(obj_lt ht hpage hgrid).2, fun h => h hat.magic⟩)]
  dsimp only
  rw [hat.count, hat.cacheIdx]
  simp only [List.length_eq_zero_iff]
  by_cases hempty : page.freeList = []
  · rw [if_pos hempty, if_pos hempty]
    have hin : base ∈ t.fullPages page.cacheIdx := (ht.lists.full_iff _ _).mpr ⟨page, hpage, rfl, hempty⟩
    obtain ⟨hready, hphead, hfhead, hunlinked, prev, hprev, hm', hself⟩ :=
      unlinkFull_spec (s := { s with mem := giveBack s.mem base a.ptr }) (hlists page.cacheIdx).2 hin
        (full_pageList ht _) (ht.lists.full_nodup _)
    generalize unlinkFull { s with mem := giveBack s.mem base a.ptr } page.cacheIdx base = s'' at *
    -- what unlinking does to the pages and to the other lists
    have haligned' := (full_pageList ht _ prev hprev).1
    obtain ⟨q, hq⟩ := listed ht (.inr hprev)
    have hpages : ∀ b p, (∀ o ∈ p.freeList, OnGrid b p.cacheIdx o) → b % slabPageSize = 0 →
        PageAt (giveBack s.mem base a.ptr) b p → PageAt s''.mem b p := by
      intro b p hg hb h
      rcases eq_or_ne b prev with rfl | hne
      · exact hself p h hg
      · refine h.congr hg fun x h1 h2 => hm' x ?_
        rcases Slab.pages_apart hb haligned' hne with h | h <;> omega
    obtain ⟨hpart', hfull'⟩ := full_only ht hprev
    have hparts := fun ci' => list_kept (partial_pageList ht ci') haligned' hm' (absurd · (hpart' ci')) (hlists ci').1
    obtain ⟨hpart, hfull⟩ := full_only ht hin
    rw [hphead]
    refine ⟨⟨hready.trans hr.ready, ?_, linked_update ?_ fun ci' _ => ?_, fun ci' => ?_⟩, fun x hx => ?_⟩
    · refine Slab.forall_setHeader (fun b p hp hb => other_page ht hp haligned hb sameOutside_setNext ?_) ?_
      · exact hpages b p (ht.grid b p hp) (ht.aligned b p hp).1 (hothers b p hp hb)
      · exact (hpages base _ hgrid' haligned hat').setNext hgrid' (list_head_lt (partial_pageList ht _) (hr.parts _))
    · exact push_page (partial_pageList ht _) haligned hpos (hpart _) (hparts _)
    · exact list_kept (partial_pageList ht ci') haligned sameOutside_setNext (absurd · (hpart ci')) (hparts ci')
    · show Linked _ (s''.fullHead ci')
        (update t.fullPages page.cacheIdx ((t.fullPages page.cacheIdx).erase base) ci')
      rcases eq_or_ne ci' page.cacheIdx with rfl | hci
      · rw [update_self]
        refine list_kept (fun b hb => full_pageList ht _ b (List.mem_of_mem_erase hb)) haligned sameOutside_setNext
          (fun hmem => ?_) hunlinked
        exact absurd rfl ((ht.lists.full_nodup _).mem_erase_iff.mp hmem).1
      · rw [update_of_ne hci, hfhead _ (Fin.val_ne_of_ne hci)]
        have hpages' := full_pageList ht ci'
        exact list_kept hpages' haligned sameOutside_setNext (absurd · (hfull ci' hci))
          (list_kept hpages' haligned' hm' (absurd · (hfull' ci' hci)) (hlists ci').2)
    · have hx' := hx base page hpage
      exact (sameOutside_setNext x hx').trans ((hm' x (hx prev q hq)).trans (hm x hx'))
  · rw [if_neg hempty, if_neg hempty]
    refine ⟨⟨hr.ready, Slab.forall_setHeader hothers hat', fun ci' => (hlists ci').1,
      fun ci' => (hlists ci').2⟩, fun x hx => hm x (hx base page hpage)⟩

/-- **A caller's store into its own object** changes neither headers nor links. -/
theorem represents_store (hr : Represents s t) (ht : Accounted t live) (ha : a ∈ live) {off : Nat}
    (hoff : off < a.size) (v : UInt8) :
    Represents { s with mem := update s.mem (a.ptr + off) v } t := by
  obtain ⟨base, page, hpage, hgrid, hsize, hfree⟩ := ht.held a ha
  obtain ⟨hlo, hhi⟩ := hgrid.objAt
  have haligned := (ht.aligned base page hpage).1
  have hm : SameOutside base s.mem (update s.mem (a.ptr + off) v) := by
    intro b hb
    refine update_of_ne ?_ ..
    omega
  have hheader : readHeader (update s.mem (a.ptr + off) v) base = readHeader s.mem base := by
    refine readHeader_congr fun b _ hb => update_of_ne ?_ ..
    omega
  have hlists := hr.lists ht haligned hm (by rw [pageNext, pageNext, hheader])
  refine ⟨hr.ready, fun b p hp => ?_, fun ci => (hlists ci).1, fun ci => (hlists ci).2⟩
  rcases eq_or_ne b base with rfl | hne
  · obtain rfl := Option.some.inj (hpage.symm.trans hp)
    have hat := hr.pages b page hpage
    refine hat.edit hheader hat.count (hat.free.congr fun o ho => getLE_congr fun x h1 h2 => update_of_ne ?_ ..)
    -- the free object does not meet the held one
    have hdiff : a.ptr ≠ o := fun heq => hfree (by rwa [heq])
    have hroom := eight_le_cacheSizes page.cacheIdx
    rcases hgrid.apart (ht.grid b page hpage o ho) hdiff with h | h <;> omega
  · exact other_page ht hp haligned hne hm (hr.pages b p hp)

/-! ## The rest of memory -/

/-- Memory may change where no page is. -/
theorem Represents.congr (hr : Represents s t) (ht : Accounted t live) (hsame : ∀ x, ¬OutsidePages t x → m' x = s.mem x) :
    Represents { s with mem := m' } t := by
  have hin : ∀ base page, t.header base = some page → ∀ x, base ≤ x → x < base + slabPageSize → m' x = s.mem x :=
    fun base page hpage x h1 h2 => hsame x fun hout => hout base page hpage ⟨h1, h2⟩
  have hnext : ∀ {ci b}, b ∈ t.partialPages ci ∨ b ∈ t.fullPages ci → pageNext m' b = pageNext s.mem b := by
    intro ci b hb
    obtain ⟨page, hpage⟩ := listed ht hb
    have hheader : readHeader m' b = readHeader s.mem b := by
      refine readHeader_congr fun x h1 h2 => hin b page hpage x h1 ?_
      unfold sizeofSlabPage at h2
      unfold slabPageSize
      omega
    rw [pageNext, pageNext, hheader]
  exact ⟨hr.ready, fun b p hp => (hr.pages b p hp).congr (ht.grid b p hp) (hin b p hp),
    fun ci => (hr.parts ci).congr fun b hb => hnext (.inl hb), fun ci => (hr.fulls ci).congr fun b hb => hnext (.inr hb)⟩

theorem sameOutside_slabPop : SameOutside base s.mem (slabPop s ci base).2.mem := by
  unfold slabPop
  dsimp only
  split
  · exact sameOutside_takeObject.trans sameOutside_setNext
  · exact sameOutside_takeObject

/-- Allocation stores into pages, or into the frame it is given. -/
theorem slabAlloc_outside (hr : Represents s t) (ht : Accounted t live) {frame x : Nat}
    (hx : OutsidePages t x)
    (hframe : frame ≠ 0 → frame < 2 ^ 32 ∧ ¬(frame ≤ x ∧ x < frame + slabPageSize)) :
    (slabAlloc s size frame).2.mem x = s.mem x := by
  unfold slabAlloc
  split
  · rfl
  split
  · rfl
  rename_i ci _
  split
  · split
    · rfl
    · rename_i hne
      obtain ⟨hlt, hout⟩ := hframe hne
      exact (sameOutside_slabPop x hout).trans ((slabPageCreate_pageAt s.mem ci hne hlt).1 x hout)
  rename_i hne
  have hlist := hr.parts ci
  cases hpart : t.partialPages ci with
  | nil =>
    rw [hpart] at hlist
    exact absurd (linked_nil.mp hlist) hne
  | cons b others =>
    have hb : b ∈ t.partialPages ci := by rw [hpart]; exact .head _
    obtain ⟨page, hpage⟩ := listed ht (.inl hb)
    rw [hpart] at hlist
    rw [hlist.1]
    exact sameOutside_slabPop x (hx b page hpage)

end

end Lyth.SlabMemory
