/-
  THE USER HEAP (`kernel/syscall.c`): `user_heap_alloc` and `user_heap_free` run in the kernel on a
  list of block headers that lives in the calling task's own memory.

  1. THE PROGRAM.  A header is three 32-bit words (`size`, `free`, `next`) and the block's bytes
     follow it.  `userHeapAlloc` walks the list from the heap base to the first free block that is
     large enough and splits it; `userHeapFree` sets a flag and merges neighbours along the whole
     list.  The memory is raw bytes (`Lyth.Bytes.Mem`), so a user may write ANY headers: overlapping,
     cyclic, or pointing anywhere.  The loops of the source have no bound, so they take fuel here,
     and every header they dereference is recorded.  (`block->free` dereferences the header as a
     whole: its twelve bytes.)  Each page of the region is taken to be memory of its own.

  2. THE SPECIFICATION.  A call ends, dereferences only headers inside the user region, leaves every
     byte outside the region as it was, and what it returns is 0 or a block inside the heap range:
     both the bytes asked for and the bytes that the block's header records.

  3. THE CRUX.  `user_heap_free` validates the pointer it is given; nothing validates the `next`
     words, nor the `size` of the block that is handed out.  So containment is exactly a statement
     about the list that the user left in memory: `Leads m b l e` says that following `next` from
     `b` passes the headers `l` and arrives at `e`.  The search never writes, so for an allocation the
     condition is exact.  A merge rewrites the header it merges into; when no two headers of the list
     partly overlap, that only shortens the list (**forward**) and cannot free it from a trap: a set
     of headers that only lead to each other or out of the region (**backward**).
-/
import Lyth.Lib.Bytes
import Lyth.Paging

namespace Lyth.UserHeap

open Bytes
open Paging (userBase userSize pagingDirectoryUserBufferIsAccessible range_of_accessible)

/-! ## The task -/

/-- `sizeof(user_heap_block_t)`. -/
def headerSize : Nat := 12

/-- `USER_HEAP_ALIGNMENT`. -/
def alignment : UInt32 := 8

/-- `n` bytes from `a` inside the user region. -/
def InRegion (a n : Nat) : Prop := userBase ≤ a ∧ a + n ≤ userBase + userSize

instance (a n : Nat) : Decidable (InRegion a n) := inferInstanceAs (Decidable (_ ∧ _))

/-- What the calls read of the calling task: its heap range, and which pages its page tables let
    user code reach.  The loaders place the heap between the end of the program and the stack guard. -/
structure Task where
  heapBase : Nat
  heapSize : Nat
  page : Nat → Bool
  inRegion : heapBase ≠ 0 → InRegion heapBase heapSize

/-- `paging_user_buffer_is_accessible`. -/
def pagingUserBufferIsAccessible (t : Task) (buffer size : Nat) : Bool :=
  if buffer = 0 then false else pagingDirectoryUserBufferIsAccessible t.page buffer size

/-! ## Headers -/

/-- The memory and the headers dereferenced so far, the latest first. -/
structure State where
  mem : Mem
  derefs : List Nat

def State.deref (s : State) (b : Nat) : State := { s with derefs := b :: s.derefs }

def State.store (s : State) (m : Mem) : State := { s with mem := m }

/-- `block->size`. -/
def sizeAt (m : Mem) (b : Nat) : Nat := getLE m b 4

/-- `block->free`. -/
def freeAt (m : Mem) (b : Nat) : Nat := getLE m (b + 4) 4

/-- `block->next`. -/
def nextAt (m : Mem) (b : Nat) : Nat := getLE m (b + 8) 4

def putSize (m : Mem) (b v : Nat) : Mem := putLE m b 4 v

def putFree (m : Mem) (b v : Nat) : Mem := putLE m (b + 4) 4 v

def putNext (m : Mem) (b v : Nat) : Mem := putLE m (b + 8) 4 v

/-! ## The program -/

/-- `syscall_align_up`, in 32 bits. -/
def syscallAlignUp (size alignment : UInt32) : UInt32 :=
  (size + alignment - 1) &&& ~~~(alignment - 1)

/-- The part of `user_heap_head` that gives a heap of zeros its first block. -/
def initHead (t : Task) (m : Mem) : Mem :=
  if sizeAt m t.heapBase = 0 ∧ freeAt m t.heapBase = 0 ∧ nextAt m t.heapBase = 0 then
    putNext (putFree (putSize m t.heapBase (t.heapSize - headerSize)) t.heapBase 1) t.heapBase 0
  else m

/-- The task has a heap. -/
def HasHeap (t : Task) : Prop := t.heapBase ≠ 0 ∧ headerSize < t.heapSize

instance (t : Task) : Decidable (HasHeap t) := inferInstanceAs (Decidable (_ ∧ _))

/-- `user_heap_head`. -/
def userHeapHead (t : Task) (s : State) : Nat × State :=
  if HasHeap t then (t.heapBase, (s.deref t.heapBase).store (initHead t s.mem)) else (0, s)

/-- The test of `user_heap_split_block`, in the 64 bits of `sizeof`. -/
def Splits (m : Mem) (b size : Nat) : Prop := size + headerSize + alignment.toNat < sizeAt m b

instance (m : Mem) (b size : Nat) : Decidable (Splits m b size) :=
  inferInstanceAs (Decidable (_ < _))

/-- The header that a split makes. -/
def splitHeader (b size : Nat) : Nat := b + headerSize + size

/-- The memory after `user_heap_split_block` has split. -/
def splitMem (m : Mem) (b size : Nat) : Mem :=
  let nb := splitHeader b size
  let m1 := putSize m nb (sizeAt m b - size - headerSize)
  let m2 := putFree m1 nb 1
  let m3 := putNext m2 nb (nextAt m2 b)
  let m4 := putSize m3 b size
  putNext m4 b nb

/-- `user_heap_split_block`. -/
def userHeapSplitBlock (b size : Nat) (s : State) : State :=
  if Splits s.mem b size then (s.deref (splitHeader b size)).store (splitMem s.mem b size) else s

/-- The test of the search: free, and large enough. -/
def Fits (m : Mem) (size b : Nat) : Prop := freeAt m b ≠ 0 ∧ size ≤ sizeAt m b

instance (m : Mem) (size b : Nat) : Decidable (Fits m size b) := inferInstanceAs (Decidable (_ ∧ _))

/-- What `user_heap_alloc` does with the block it found. -/
def takeBlock (b size : Nat) (s : State) : State :=
  let s := userHeapSplitBlock b size s
  s.store (putFree s.mem b 0)

/-- The loop of `user_heap_alloc`; `none` when the fuel runs out. -/
def searchLoop (size : Nat) : Nat → Nat → State → Option (Nat × State)
  | 0, _, _ => none
  | fuel + 1, b, s =>
    if b = 0 then some (0, s)
    else
      let s := s.deref b
      if Fits s.mem size b then some (b + headerSize, takeBlock b size s)
      else searchLoop size fuel (nextAt s.mem b) s

/-- `user_heap_alloc`. -/
def userHeapAlloc (fuel : Nat) (t : Task) (size : UInt32) (s : State) : Option (Nat × State) :=
  if size = 0 then some (0, s)
  else
    let (head, s) := userHeapHead t s
    searchLoop (syscallAlignUp size alignment).toNat fuel head s

/-- `block` takes in the block after it. -/
def mergeMem (m : Mem) (b n : Nat) : Mem :=
  let m1 := putSize m b (sizeAt m b + (headerSize + sizeAt m n))
  putNext m1 b (nextAt m1 n)

/-- The loop of `user_heap_coalesce`; `none` when the fuel runs out. -/
def coalesceLoop : Nat → Nat → State → Option State
  | 0, _, _ => none
  | fuel + 1, b, s =>
    if b = 0 then some s
    else
      let s := s.deref b
      let n := nextAt s.mem b
      if n = 0 then some s
      else if freeAt s.mem b = 0 then coalesceLoop fuel n s
      else
        let s := s.deref n
        if freeAt s.mem n = 0 then coalesceLoop fuel n s
        else coalesceLoop fuel b (s.store (mergeMem s.mem b n))

/-- `user_heap_coalesce`. -/
def userHeapCoalesce (fuel : Nat) (t : Task) (s : State) : Option State :=
  let (head, s) := userHeapHead t s
  coalesceLoop fuel head s

/-- `user_heap_free` goes on with this pointer. -/
def Accepted (t : Task) (ptr : Nat) : Prop :=
  ptr ≠ 0 ∧ pagingUserBufferIsAccessible t ptr 1 ∧
    pagingUserBufferIsAccessible t (ptr - headerSize) headerSize

instance (t : Task) (ptr : Nat) : Decidable (Accepted t ptr) :=
  inferInstanceAs (Decidable (_ ∧ _ ∧ _))

/-- `user_heap_free`. -/
def userHeapFree (fuel : Nat) (t : Task) (ptr : Nat) (s : State) : Option State :=
  if Accepted t ptr then
    let b := ptr - headerSize
    userHeapCoalesce fuel t ((s.deref b).store (putFree s.mem b 1))
  else some s

/-! ## The specification -/

/-- Only headers inside the user region were dereferenced, and no byte outside it has changed. -/
structure Contained (m : Mem) (s : State) : Prop where
  derefs : ∀ b ∈ s.derefs, InRegion b headerSize
  frame : ∀ a, ¬InRegion a 1 → s.mem a = m a

/-- `n` bytes from `a` inside the heap range. -/
def InHeap (t : Task) (a n : Nat) : Prop := t.heapBase ≤ a ∧ a + n ≤ t.heapBase + t.heapSize

instance (t : Task) (a n : Nat) : Decidable (InHeap t a n) := inferInstanceAs (Decidable (_ ∧ _))

/-- `user_heap_alloc` ends, stays in the user region, and returns 0 or a block in the heap range. -/
def AllocContained (t : Task) (m : Mem) (size : UInt32) : Prop :=
  ∃ fuel r s, userHeapAlloc fuel t size ⟨m, []⟩ = some (r, s) ∧ Contained m s ∧
    (r = 0 ∨ InHeap t r size.toNat ∧ InHeap t r (sizeAt s.mem (r - headerSize)))

/-- `user_heap_free` ends and stays in the user region. -/
def FreeContained (t : Task) (m : Mem) (ptr : Nat) : Prop :=
  ∃ fuel s, userHeapFree fuel t ptr ⟨m, []⟩ = some s ∧ Contained m s

/-! ## The list in memory -/

/-- Following `next` from `b` passes the headers `l` and arrives at `e`. -/
def Leads (m : Mem) (b : Nat) : List Nat → Nat → Prop
  | [], e => b = e
  | a :: l, e => b = a ∧ a ≠ 0 ∧ Leads m (nextAt m a) l e

/-- `b` is a header that the links from `base` come to. -/
def Met (m : Mem) (base b : Nat) : Prop := b ≠ 0 ∧ ∃ l, Leads m base l b

/-- The block at `b` can be handed out: its header, and the one that a split makes, are in the
    region, and the bytes asked for and the bytes it will have are in the heap range. -/
structure Handed (t : Task) (m : Mem) (k size b : Nat) : Prop where
  fits : Fits m k b
  header : InRegion b headerSize
  split : Splits m b k → InRegion (splitHeader b k) headerSize
  asked : InHeap t (b + headerSize) size
  block : InHeap t (b + headerSize) (if Splits m b k then k else sizeAt m b)

/-- The list that a search for `size` bytes meets: headers in the region, none of which fits, up to
    the end of the list or a block that can be handed out. -/
def AllocSound (t : Task) (m : Mem) (size : UInt32) : Prop :=
  size ≠ 0 → HasHeap t →
    let k := (syscallAlignUp size alignment).toNat
    ∃ l e, Leads (initHead t m) t.heapBase l e ∧
      (∀ a ∈ l, InRegion a headerSize ∧ ¬Fits (initHead t m) k a) ∧
      (e = 0 ∨ Handed t (initHead t m) k size.toNat e)

/-- The memory in which `user_heap_coalesce` starts to walk. -/
def markedMem (t : Task) (m : Mem) (ptr : Nat) : Mem :=
  initHead t (putFree m (ptr - headerSize) 1)

/-- The list after the freed block is marked: it ends, and its headers are in the region. -/
def FreeSound (t : Task) (m : Mem) (ptr : Nat) : Prop :=
  Accepted t ptr → HasHeap t →
    ∃ l, Leads (markedMem t m ptr) t.heapBase l 0 ∧ ∀ a ∈ l, InRegion a headerSize

/-- No two headers of the list partly overlap. -/
def Untangled (t : Task) (m : Mem) (ptr : Nat) : Prop :=
  Accepted t ptr → HasHeap t →
    ∀ a b, Met (markedMem t m ptr) t.heapBase a → Met (markedMem t m ptr) t.heapBase b →
      a = b ∨ Apart a headerSize b headerSize

variable {b a e n v k fuel ptr : Nat} {m : Mem} {l l' log : List Nat}

theorem Leads.unique (h : Leads m b l 0) (h' : Leads m b l' 0) : l = l' := by
  induction l generalizing b l' with
  | nil =>
    cases l' with
    | nil => rfl
    | cons a l' => exact absurd (h'.1.symm.trans h) h'.2.1
  | cons a l ih =>
    cases l' with
    | nil => exact absurd (h.1.symm.trans h') h.2.1
    | cons a' l' =>
      have ha : a' = a := h'.1.symm.trans h.1
      subst ha
      rw [ih h.2.2 h'.2.2]

theorem Leads.append (h : Leads m b l a) (h' : Leads m a l' e) : Leads m b (l ++ l') e := by
  induction l generalizing b with
  | nil =>
    have hb : b = a := h
    subst hb
    exact h'
  | cons c l ih => exact ⟨h.1, h.2.1, ih h.2.2⟩

/-- A header on the way: what comes before it and what comes after. -/
theorem Leads.split (h : Leads m b (l ++ a :: l') e) : Leads m b l a ∧ Leads m a (a :: l') e := by
  induction l generalizing b with
  | nil =>
    have hb : b = a := h.1
    subst hb
    exact ⟨rfl, h⟩
  | cons c l ih =>
    obtain ⟨h1, h2⟩ := ih h.2.2
    exact ⟨⟨h.1, h.2.1, h1⟩, h2⟩

theorem Leads.met (h : Leads m b l e) (ha : a ∈ l) : Met m b a := by
  obtain ⟨l1, l2, rfl⟩ := List.append_of_mem ha
  obtain ⟨h1, h2⟩ := h.split
  exact ⟨h2.2.1, l1, h1⟩

/-- A list that ends passes no header twice. -/
theorem Leads.nodup (h : Leads m b l 0) : l.Nodup := by
  induction l generalizing b with
  | nil => exact List.nodup_nil
  | cons a l ih =>
    refine List.nodup_cons.mpr ⟨?_, ih h.2.2⟩
    intro hmem
    -- from the second visit on, the list would be the same one again
    obtain ⟨l1, l2, rfl⟩ := List.append_of_mem hmem
    have hagain : Leads m a (a :: l2) 0 := h.2.2.split.2
    have hfirst : Leads m a (a :: (l1 ++ a :: l2)) 0 := ⟨rfl, h.2⟩
    have heq := congrArg List.length (hfirst.unique hagain)
    simp only [List.length_cons, List.length_append] at heq
    omega

/-- Headers whose `next` is the same lead the same way. -/
theorem Leads.congr {m m' : Mem} (h : Leads m b l e)
    (hnext : ∀ a ∈ l, nextAt m' a = nextAt m a) : Leads m' b l e := by
  induction l generalizing b with
  | nil => exact h
  | cons a l ih =>
    refine ⟨h.1, h.2.1, ?_⟩
    rw [hnext a List.mem_cons_self]
    exact ih h.2.2 fun c hc => hnext c (.tail _ hc)

/-! ## Writing headers -/

/-- A store of one word of the header at `b` is seen by no header apart from it. -/
theorem nextAt_putLE_of_apart {i : Nat} (hi : i ≤ 8)
    (h : Apart b headerSize a headerSize) : nextAt (putLE m (b + i) 4 v) a = nextAt m a := by
  apply getLE_putLE_of_apart
  simp only [Apart, headerSize] at h ⊢
  omega

theorem mergeMem_next_of_apart (h : Apart b headerSize a headerSize) :
    nextAt (mergeMem m b n) a = nextAt m a := by
  rw [mergeMem, putNext, nextAt_putLE_of_apart (Nat.le_refl _) h]
  exact nextAt_putLE_of_apart (Nat.zero_le _) h

/-- A header that takes in the next one is linked as that one was. -/
theorem mergeMem_next_self (h : n = b ∨ Apart b headerSize n headerSize) :
    nextAt (mergeMem m b n) b = nextAt m n := by
  have hread : nextAt (putSize m b (sizeAt m b + (headerSize + sizeAt m n))) n = nextAt m n := by
    rcases h with rfl | h
    · exact getLE_putLE_of_apart (.inl (by omega))
    · exact nextAt_putLE_of_apart (Nat.zero_le _) h
  rw [mergeMem, hread]
  exact getLE_putLE_self (getLE_lt m (n + 8) 4)

/-- A store inside a header in the region leaves what is outside the region. -/
theorem putLE_frame {i : Nat} (hb : InRegion b headerSize) (hi : i ≤ 8)
    (ha : ¬InRegion a 1) : putLE m (b + i) 4 v a = m a := by
  apply putLE_of_not_mem
  simp only [InRegion, headerSize] at hb ha
  omega

section

variable (hb : InRegion b headerSize) (ha : ¬InRegion a 1)
include hb ha

theorem putSize_frame : putSize m b v a = m a := putLE_frame hb (Nat.zero_le _) ha

theorem putFree_frame : putFree m b v a = m a := putLE_frame hb (by omega) ha

theorem putNext_frame : putNext m b v a = m a := putLE_frame hb (Nat.le_refl _) ha

theorem mergeMem_frame : mergeMem m b n a = m a := by
  rw [mergeMem, putNext_frame hb ha, putSize_frame hb ha]

theorem splitMem_frame (hs : InRegion (splitHeader b k) headerSize) : splitMem m b k a = m a := by
  dsimp only [splitMem]
  rw [putNext_frame hb ha, putSize_frame hb ha, putNext_frame hs ha, putFree_frame hs ha,
    putSize_frame hs ha]

end

variable {t : Task}

/-- The heap base is a header in the region. -/
theorem heapBase_inRegion (h : HasHeap t) : InRegion t.heapBase headerSize := by
  have hin := t.inRegion h.1
  have hsize := h.2
  simp only [InRegion] at hin ⊢
  omega

theorem initHead_frame (h : HasHeap t) (ha : ¬InRegion a 1) : initHead t m a = m a := by
  have hb := heapBase_inRegion h
  unfold initHead
  split
  · rw [putNext_frame hb ha, putFree_frame hb ha, putSize_frame hb ha]
  · rfl

/-! ## The search -/

/-- One round of the search. -/
theorem searchLoop_succ (k fuel b : Nat) (m : Mem) (log : List Nat) :
    searchLoop k (fuel + 1) b ⟨m, log⟩ = if b = 0 then some (0, ⟨m, log⟩)
      else if Fits m k b then some (b + headerSize, takeBlock b k ⟨m, b :: log⟩)
      else searchLoop k fuel (nextAt m b) ⟨m, b :: log⟩ := rfl

/-- **The search walks the list.**  Headers that do not fit are passed one by one. -/
theorem searchLoop_leads (h : Leads m b l e) (hfit : ∀ a ∈ l, ¬Fits m k a) (fuel : Nat) (log : List Nat) :
    searchLoop k (l.length + fuel) b ⟨m, log⟩ = searchLoop k fuel e ⟨m, l.reverse ++ log⟩ := by
  induction l generalizing b log with
  | nil =>
    have hb : b = e := h
    subst hb
    show searchLoop k (0 + fuel) b _ = _
    rw [Nat.zero_add]
    rfl
  | cons a l ih =>
    obtain ⟨rfl, hne, hrest⟩ := h
    have hlen : (b :: l).length + fuel = (l.length + fuel) + 1 := by
      rw [List.length_cons]
      omega
    rw [hlen, searchLoop_succ, if_neg hne, if_neg (hfit b List.mem_cons_self),
      ih hrest fun c hc => hfit c (.tail _ hc)]
    rw [List.reverse_cons, List.append_assoc]
    rfl

/-- A search that ends has come to the end of the list or to a block that fits. -/
theorem searchLoop_ends {out : Nat × State} (h : searchLoop k fuel b ⟨m, log⟩ = some out) :
    ∃ l e, Leads m b l e ∧ (∀ a ∈ l, ¬Fits m k a) ∧
      (e = 0 ∧ out = (0, ⟨m, l.reverse ++ log⟩) ∨
        e ≠ 0 ∧ Fits m k e ∧
          out = (e + headerSize, takeBlock e k ⟨m, e :: (l.reverse ++ log)⟩)) := by
  induction fuel generalizing b log with
  | zero => cases h
  | succ fuel ih =>
    rw [searchLoop_succ] at h
    by_cases hb : b = 0
    · rw [if_pos hb] at h
      exact ⟨[], b, rfl, by simp, .inl ⟨hb, (Option.some.inj h).symm⟩⟩
    rw [if_neg hb] at h
    by_cases hfit : Fits m k b
    · rw [if_pos hfit] at h
      exact ⟨[], b, rfl, by simp, .inr ⟨hb, hfit, (Option.some.inj h).symm⟩⟩
    rw [if_neg hfit] at h
    obtain ⟨l, e, hl, hnf, hout⟩ := ih h
    refine ⟨b :: l, e, ⟨rfl, hb, hl⟩, List.forall_mem_cons.mpr ⟨hfit, hnf⟩, ?_⟩
    rwa [List.reverse_cons, List.append_assoc]

/-! ## The block handed out -/

/-- The headers dereferenced for the block found. -/
theorem takeBlock_derefs (b k : Nat) (s : State) : (takeBlock b k s).derefs
    = if Splits s.mem b k then splitHeader b k :: s.derefs else s.derefs := by
  unfold takeBlock userHeapSplitBlock
  split
  · rfl
  · rfl

theorem takeBlock_mem (b k : Nat) (s : State) : (takeBlock b k s).mem
    = putFree (if Splits s.mem b k then splitMem s.mem b k else s.mem) b 0 := by
  unfold takeBlock userHeapSplitBlock
  split
  · rfl
  · rfl

/-- The size that the header of a taken block records. -/
theorem takeBlock_size (hk : k < 2 ^ 32) (s : State) :
    sizeAt (takeBlock b k s).mem b = if Splits s.mem b k then k else sizeAt s.mem b := by
  rw [takeBlock_mem]
  have hfree : ∀ m, sizeAt (putFree m b 0) b = sizeAt m b :=
    fun m => getLE_putLE_of_apart (.inr (Nat.le_refl _))
  rw [hfree]
  split
  · -- the split stores `size` and then only `next`
    dsimp only [splitMem, sizeAt, putNext]
    rw [getLE_putLE_of_apart (.inr (by omega))]
    exact getLE_putLE_self (Nat.lt_of_lt_of_eq hk (by norm_num))
  · rfl

variable {s : State}

theorem takeBlock_frame (hb : InRegion b headerSize)
    (hs : Splits s.mem b k → InRegion (splitHeader b k) headerSize)
    (ha : ¬InRegion a 1) : (takeBlock b k s).mem a = s.mem a := by
  rw [takeBlock_mem, putFree_frame hb ha]
  split
  · rename_i hsplit
    exact splitMem_frame hb ha (hs hsplit)
  · rfl

variable {size : UInt32}

/-- The run of `user_heap_alloc` when there is a heap and something is asked for. -/
theorem userHeapAlloc_eq (hheap : HasHeap t) (hsize : size ≠ 0)
    (fuel : Nat) (m : Mem) : userHeapAlloc fuel t size ⟨m, []⟩
      = searchLoop (syscallAlignUp size alignment).toNat fuel t.heapBase
          ⟨initHead t m, [t.heapBase]⟩ := by
  rw [userHeapAlloc, if_neg hsize, userHeapHead, if_pos hheap]
  rfl

/-- A call that does nothing is contained. -/
theorem contained_refl (m : Mem) : Contained m ⟨m, []⟩ := ⟨List.forall_mem_nil _, fun _ _ => rfl⟩

/-- And so is one that goes on to look at a header in the region. -/
theorem Contained.deref {m0 : Mem} (h : Contained m0 ⟨m, log⟩) (hb : InRegion b headerSize) :
    Contained m0 ⟨m, b :: log⟩ :=
  ⟨List.forall_mem_cons.mpr ⟨hb, h.derefs⟩, h.frame⟩

theorem allocSound_of_contained (h : AllocContained t m size) : AllocSound t m size := by
  intro hsize hheap k
  obtain ⟨fuel, r, s, hrun, hin, hr⟩ := h
  rw [userHeapAlloc_eq hheap hsize] at hrun
  obtain ⟨l, e, hl, hnf, hout⟩ := searchLoop_ends hrun
  refine ⟨l, e, hl, ?_⟩
  rcases hout with ⟨he, hout⟩ | ⟨he, hfit, hout⟩
  · obtain ⟨-, rfl⟩ := Prod.mk.inj hout
    refine ⟨fun a ha => ⟨hin.derefs a ?_, hnf a ha⟩, .inl he⟩
    exact List.mem_append_left _ (List.mem_reverse.mpr ha)
  obtain ⟨rfl, rfl⟩ := Prod.mk.inj hout
  have hder := hin.derefs
  rw [takeBlock_derefs] at hder
  -- whether or not the block is split, the headers on the way are in the log
  have hlog : ∀ a ∈ e :: (l.reverse ++ [t.heapBase]), InRegion a headerSize := by
    intro a ha
    apply hder
    split
    · exact .tail _ ha
    · exact ha
  refine ⟨fun a ha => ⟨hlog a ?_, hnf a ha⟩, .inr ?_⟩
  · exact .tail _ (List.mem_append_left _ (List.mem_reverse.mpr ha))
  rcases hr with hr | ⟨hasked, hblock⟩
  · exact absurd hr (by simp [headerSize])
  rw [Nat.add_sub_cancel, takeBlock_size (UInt32.toNat_lt _)] at hblock
  refine ⟨hfit, hlog e (.head _), ?_, hasked, hblock⟩
  intro hsplit
  apply hder
  rw [if_pos hsplit]
  exact .head _

theorem allocContained_of_sound (h : AllocSound t m size) : AllocContained t m size := by
  by_cases hsize : size = 0
  · exact ⟨0, 0, ⟨m, []⟩, if_pos hsize, contained_refl m, .inl rfl⟩
  by_cases hheap : HasHeap t
  · obtain ⟨l, e, hl, hall, hend⟩ := h hsize hheap
    have hrun := searchLoop_leads hl (fun a ha => (hall a ha).2) 1 [t.heapBase]
    rw [← userHeapAlloc_eq hheap hsize] at hrun
    have hk : (syscallAlignUp size alignment).toNat < 2 ^ 32 := UInt32.toNat_lt _
    have hlog : ∀ a ∈ l.reverse ++ [t.heapBase], InRegion a headerSize :=
      List.forall_mem_append.mpr ⟨fun a ha => (hall a (List.mem_reverse.mp ha)).1,
        List.forall_mem_singleton.mpr (heapBase_inRegion hheap)⟩
    rcases hend with rfl | hgood
    · exact ⟨_, _, _, hrun, ⟨hlog, fun a ha => initHead_frame hheap ha⟩, .inl rfl⟩
    have hne : e ≠ 0 := by
      have hhead : 0x01000000 ≤ e := hgood.header.1
      omega
    rw [searchLoop_succ, if_neg hne, if_pos hgood.fits] at hrun
    refine ⟨_, _, _, hrun, Contained.mk ?_ ?_, .inr (And.intro hgood.asked ?_)⟩
    · have hderefs : ∀ b ∈ e :: (l.reverse ++ [t.heapBase]), InRegion b headerSize :=
        List.forall_mem_cons.mpr ⟨hgood.header, hlog⟩
      rw [takeBlock_derefs]
      split
      · rename_i hsplit
        exact List.forall_mem_cons.mpr ⟨hgood.split hsplit, hderefs⟩
      · exact hderefs
    · intro a ha
      refine (takeBlock_frame hgood.header ?_ ha).trans ?_
      · exact hgood.split
      · exact initHead_frame hheap ha
    · rw [Nat.add_sub_cancel, takeBlock_size hk]
      exact hgood.block
  · refine ⟨1, 0, ⟨m, []⟩, ?_, contained_refl m, .inl rfl⟩
    rw [userHeapAlloc, if_neg hsize, userHeapHead, if_neg hheap]
    rfl

/-! ## Merging along the list -/

/-- One round of the walk. -/
theorem coalesceLoop_succ (fuel b : Nat) (m : Mem) (log : List Nat) :
    coalesceLoop (fuel + 1) b ⟨m, log⟩ = if b = 0 then some ⟨m, log⟩
      else if nextAt m b = 0 then some ⟨m, b :: log⟩
      else if freeAt m b = 0 then coalesceLoop fuel (nextAt m b) ⟨m, b :: log⟩
      else if freeAt m (nextAt m b) = 0 then
        coalesceLoop fuel (nextAt m b) ⟨m, nextAt m b :: b :: log⟩
      else coalesceLoop fuel b ⟨mergeMem m b (nextAt m b), nextAt m b :: b :: log⟩ := rfl

/-- The walk only adds to the log. -/
theorem coalesceLoop_log (h : coalesceLoop fuel b ⟨m, log⟩ = some s) : ∀ a ∈ log, a ∈ s.derefs := by
  induction fuel generalizing b m log with
  | zero => cases h
  | succ fuel ih =>
    intro a ha
    have hdeep : a ∈ b :: log := .tail _ ha
    rw [coalesceLoop_succ] at h
    split at h
    · rwa [← Option.some.inj h]
    split at h
    · rwa [← Option.some.inj h]
    · split at h
      · exact ih h a hdeep
      · split at h
        · exact ih h a (.tail _ hdeep)
        · exact ih h a (.tail _ hdeep)

/-- Headers in the region, none of which overlaps another. -/
structure Sound (l : List Nat) : Prop where
  inRegion : ∀ a ∈ l, InRegion a headerSize
  apart : l.Pairwise fun a b => Apart a headerSize b headerSize

theorem Sound.tail (h : Sound (a :: l)) : Sound l :=
  ⟨fun b hb => h.inRegion b (.tail _ hb), (List.pairwise_cons.mp h.apart).2⟩

/-- Merging takes the second header out of the list. -/
theorem Sound.merged (h : Sound (a :: b :: l)) : Sound (a :: l) := by
  refine ⟨List.forall_mem_cons.mpr ⟨h.inRegion a (.head _), h.tail.tail.inRegion⟩,
    List.pairwise_cons.mpr ⟨fun c hc => ?_, h.tail.tail.apart⟩⟩
  exact (List.pairwise_cons.mp h.apart).1 c (.tail _ hc)

/-- The list that a merge leaves. -/
theorem mergeMem_leads (hs : Sound (b :: n :: l))
    (h : Leads m b (b :: n :: l) 0) : Leads (mergeMem m b n) b (b :: l) 0 := by
  have hapart := (List.pairwise_cons.mp hs.apart).1
  refine ⟨rfl, h.2.1, ?_⟩
  rw [mergeMem_next_self (.inr (hapart n List.mem_cons_self))]
  refine Leads.congr h.2.2.2.2 ?_
  intro a ha
  exact mergeMem_next_of_apart (hapart a (.tail _ ha))

/-- **Forward.**  A list that ends, of headers in the region that do not overlap, is walked to its
    end: each round makes the list that is left shorter by one header. -/
theorem coalesceLoop_contained (m0 : Mem)
    (hl : Leads m b l 0) (hs : Sound l) (hin : Contained m0 ⟨m, log⟩) :
    ∃ s, coalesceLoop (l.length + 1) b ⟨m, log⟩ = some s ∧ Contained m0 s := by
  obtain ⟨len, hlen⟩ : ∃ len, l.length = len := ⟨_, rfl⟩
  rw [hlen]
  induction len generalizing l m b log with
  | zero =>
    have hnil : l = [] := List.length_eq_zero_iff.mp hlen
    subst hnil
    have hb : b = 0 := hl
    exact ⟨⟨m, log⟩, by rw [coalesceLoop_succ, if_pos hb], hin⟩
  | succ len ih =>
    cases l with
    | nil => cases hlen
    | cons a l =>
      obtain ⟨rfl, hne, hrest⟩ := hl
      have hbin := hin.deref (hs.inRegion b (.head _))
      rw [coalesceLoop_succ, if_neg hne]
      cases l with
      | nil =>
        have hlast : nextAt m b = 0 := hrest
        rw [if_pos hlast]
        exact ⟨_, rfl, hbin⟩
      | cons n l =>
        have hnext : nextAt m b = n := hrest.1
        rw [hnext] at hrest
        rw [hnext, if_neg hrest.2.1]
        have hlen' : (n :: l).length = len := Nat.succ.inj hlen
        by_cases hfree : freeAt m b = 0
        · rw [if_pos hfree]
          exact ih hrest hs.tail hbin hlen'
        rw [if_neg hfree]
        have hnin := hbin.deref (hs.tail.inRegion n (.head _))
        by_cases hfree' : freeAt m n = 0
        · rw [if_pos hfree']
          exact ih hrest hs.tail hnin hlen'
        rw [if_neg hfree']
        have hchain : Leads m b (b :: n :: l) 0 := by
          refine ⟨rfl, hne, ?_⟩
          rwa [hnext]
        refine ih (mergeMem_leads hs hchain) hs.merged ⟨hnin.derefs, fun c hc => ?_⟩ hlen'
        show mergeMem m b n c = m0 c
        rw [mergeMem_frame (hs.inRegion b List.mem_cons_self) hc]
        exact hin.frame c hc

/-- Headers that only lead to each other or out of the region. -/
structure Trap (m : Mem) (R : Set Nat) : Prop where
  ne_zero : ∀ a ∈ R, a ≠ 0
  next : ∀ a ∈ R, InRegion a headerSize → nextAt m a ∈ R
  apart : ∀ a ∈ R, ∀ b ∈ R, a = b ∨ Apart a headerSize b headerSize

/-- A merge inside a trap leaves it a trap. -/
theorem Trap.merge {R : Set Nat} (h : Trap m R) (hb : b ∈ R) (hn : n ∈ R)
    (hin : InRegion n headerSize) : Trap (mergeMem m b n) R := by
  refine ⟨h.ne_zero, ?_, h.apart⟩
  intro a ha hain
  by_cases hab : a = b
  · subst hab
    rw [mergeMem_next_self ((h.apart n hn a ha).imp_right Apart.symm)]
    exact h.next n hn hin
  · rw [mergeMem_next_of_apart ((h.apart b hb a ha).resolve_left (Ne.symm hab))]
    exact h.next a ha hain

/-- **Backward.**  The walk never comes out of a trap: if it ends, it has left the region. -/
theorem coalesceLoop_trap {R : Set Nat}
    (htrap : Trap m R) (hb : b ∈ R) (h : coalesceLoop fuel b ⟨m, log⟩ = some s) :
    ∃ d ∈ s.derefs, ¬InRegion d headerSize := by
  induction fuel generalizing b m log with
  | zero => cases h
  | succ fuel ih =>
    rw [coalesceLoop_succ, if_neg (htrap.ne_zero b hb)] at h
    by_cases hbin : InRegion b headerSize
    · have hn := htrap.next b hb hbin
      rw [if_neg (htrap.ne_zero _ hn)] at h
      split at h
      · exact ih htrap hn h
      · split at h
        · exact ih htrap hn h
        · by_cases hnin : InRegion (nextAt m b) headerSize
          · exact ih (htrap.merge hb hn hnin) hb h
          · exact ⟨_, coalesceLoop_log h _ (.head _), hnin⟩
    · -- the header itself is outside, and it has just been dereferenced
      refine ⟨b, ?_, hbin⟩
      split at h
      · rw [← Option.some.inj h]
        exact .head _
      · split at h
        · exact coalesceLoop_log h b (.head _)
        · split at h
          · exact coalesceLoop_log h b (.tail _ (.head _))
          · exact coalesceLoop_log h b (.tail _ (.head _))

/-- What can be met and does not end inside the region is a trap. -/
theorem trap_of_not_ending {base : Nat}
    (hun : ∀ a b, Met m base a → Met m base b → a = b ∨ Apart a headerSize b headerSize) :
    Trap m {a | (∃ l, Leads m base l a) ∧
      ¬∃ l, Leads m a l 0 ∧ ∀ c ∈ l, InRegion c headerSize} := by
  have hne : ∀ a ∈ {a | (∃ l, Leads m base l a) ∧
      ¬∃ l, Leads m a l 0 ∧ ∀ c ∈ l, InRegion c headerSize}, a ≠ 0 := by
    rintro a ⟨-, hend⟩ rfl
    exact hend ⟨[], rfl, by simp⟩
  refine ⟨hne, ?_, ?_⟩
  · intro a ha hain
    have ha0 := hne a ha
    obtain ⟨⟨l, hl⟩, hend⟩ := ha
    constructor
    · exact ⟨l ++ [a], hl.append ⟨rfl, ha0, rfl⟩⟩
    rintro ⟨l', hl', hall⟩
    exact hend ⟨a :: l', ⟨rfl, ha0, hl'⟩, List.forall_mem_cons.mpr ⟨hain, hall⟩⟩
  · intro a ha b hb
    exact hun a b ⟨hne a ha, ha.1⟩ ⟨hne b hb, hb.1⟩

/-! ## Freeing -/

/-- An accepted pointer has its header in the region. -/
theorem Accepted.inRegion (h : Accepted t ptr) : InRegion (ptr - headerSize) headerSize := by
  have hacc := h.2.2
  unfold pagingUserBufferIsAccessible at hacc
  split at hacc
  · cases hacc
  · exact range_of_accessible (by decide) hacc

theorem userHeapFree_eq (hheap : HasHeap t) (hacc : Accepted t ptr)
    (fuel : Nat) (m : Mem) : userHeapFree fuel t ptr ⟨m, []⟩ = coalesceLoop fuel t.heapBase
          ⟨markedMem t m ptr, [t.heapBase, ptr - headerSize]⟩ := by
  rw [userHeapFree, if_pos hacc, userHeapCoalesce, userHeapHead, if_pos hheap]
  rfl

theorem freeContained_of_sound (hun : Untangled t m ptr)
    (h : FreeSound t m ptr) : FreeContained t m ptr := by
  by_cases hacc : Accepted t ptr
  · have hin := hacc.inRegion
    by_cases hheap : HasHeap t
    · obtain ⟨l, hl, hall⟩ := h hacc hheap
      have hsound : Sound l := by
        refine ⟨hall, hl.nodup.imp_of_mem ?_⟩
        intro a b ha hb hne
        exact (hun hacc hheap a b (hl.met ha) (hl.met hb)).resolve_left hne
      have hstart : Contained m ⟨markedMem t m ptr, [t.heapBase, ptr - headerSize]⟩ := by
        refine Contained.deref ⟨List.forall_mem_singleton.mpr hin, fun a ha => ?_⟩ (heapBase_inRegion hheap)
        show markedMem t m ptr a = m a
        rw [markedMem, initHead_frame hheap ha, putFree_frame hin ha]
      obtain ⟨s, hrun, hs⟩ := coalesceLoop_contained m hl hsound hstart
      rw [← userHeapFree_eq hheap hacc] at hrun
      exact ⟨_, s, hrun, hs⟩
    · refine ⟨1, ⟨putFree m (ptr - headerSize) 1, [ptr - headerSize]⟩, ?_, List.forall_mem_singleton.mpr hin,
        fun a ha => putFree_frame hin ha⟩
      rw [userHeapFree, if_pos hacc, userHeapCoalesce, userHeapHead, if_neg hheap]
      rfl
  · exact ⟨0, ⟨m, []⟩, if_neg hacc, contained_refl m⟩

theorem freeSound_of_contained (hun : Untangled t m ptr)
    (h : FreeContained t m ptr) : FreeSound t m ptr := by
  intro hacc hheap
  by_contra hend
  obtain ⟨fuel, s, hrun, hs⟩ := h
  rw [userHeapFree_eq hheap hacc] at hrun
  have htrap := trap_of_not_ending (hun hacc hheap)
  obtain ⟨d, hd, hout⟩ := coalesceLoop_trap htrap ⟨⟨[], rfl⟩, hend⟩ hrun
  exact hout (hs.derefs d hd)

/-- A task with a heap of one page. -/
def onePage : Task where
  heapBase := 0x01001000
  heapSize := 0x1000
  page := fun _ => true
  inRegion := fun _ => by decide

/-- A heap that was never used. -/
def zeros : Mem := fun _ => 0

def putHeader (m : Mem) (b size free next : Nat) : Mem := putNext (putFree (putSize m b size) b free) b next

/-- Two blocks of 16 bytes in use, and the rest of the heap as a free block. -/
def threeBlocks : Mem :=
  putHeader (putHeader (putHeader zeros 0x01001000 16 0 0x0100101C) 0x0100101C 16 0 0x01001038) 0x01001038 0xFBC 1 0

/-- A list that ends has only its own headers. -/
theorem Leads.mem_of_met (h : Leads m b l 0) (hmet : Met m b a) : a ∈ l := by
  obtain ⟨hne, l', hl'⟩ := hmet
  induction l generalizing b l' with
  | nil =>
    cases l' with
    | nil => exact absurd (hl'.symm.trans h) hne
    | cons c l' => exact absurd (hl'.1.symm.trans h) hl'.2.1
  | cons c l ih =>
    cases l' with
    | nil => exact hl'.symm.trans h.1 ▸ List.mem_cons_self
    | cons c' l' =>
      have hc : c' = c := hl'.1.symm.trans h.1
      subst hc
      exact .tail _ (ih h.2.2 l' hl'.2.2)

/-- A used first block that is its own successor. -/
def ring : Mem := putNext zeros onePage.heapBase onePage.heapBase

/-- A first block whose successor is in kernel memory. -/
def stray : Mem := putNext zeros onePage.heapBase 0x00100000

end Lyth.UserHeap
