/-
  THE TWO VALIDATORS OF USER POINTERS (`kernel/mem/paging.c`, `kernel/syscall.c`).

  1. **Program** — `paging_directory_user_buffer_is_accessible` checks the window and then walks the
     tables once per page (`pageLoop`); `paging_user_string_is_accessible` checks the window of each
     byte and READS it, until a NUL (`stringLoop`).

  2. **Specification** — for a buffer: accepted exactly if the range does not wrap, lies in the window,
     and the walk of every BYTE finds present and user bits on each level (`Walked`).  For a string: it
     agrees with the buffer check, and reads no byte that the buffer check would refuse.

  3. **The crux** — the first holds: the bytes of a page share their walk, the pages met from the
     rounded-down start are those with a byte in the buffer.  The second does not: the string check
     never looks at the tables.  It agrees exactly if every byte from the start up to the first NUL
     (within the limit and the window) happens to be mapped (`Spanned`).
-/
import Lyth.UserBuffer

namespace Lyth.UserBuffer

open Paging

/-! ## Buffers -/

/-- The page loop of `paging_directory_user_buffer_is_accessible`; `none` if the rounds allowed are not
    enough. -/
def pageLoop (page : Nat → Bool) (last : Nat) : Nat → Nat → Option Bool
  | 0, _ => none
  | rounds + 1, cursor =>
    if cursor < last then
      if !page cursor then some false else pageLoop page last rounds ((cursor + pageSize) % 2 ^ 64)
    else some true

/-- `paging_directory_user_buffer_is_accessible(pml4, address, size)`, with the loop as it stands in
    the source: from the page of the first byte, while `cursor < end`. -/
def userBufferIsAccessible (s : State) (pml4 : Nat) (address size : UInt64) : Option Bool :=
  if !pagingAddressIsUserAccessible address.toNat size.toNat then some false
  else pageLoop (pageIsUserAccessible s pml4) ((address.toNat + size.toNat) % 2 ^ 64) (userPages + 1)
    (address.toNat / pageSize * pageSize)

/-- The walk for one byte finds present and user bits on each level, down to a leaf. -/
def Walked (s : State) (pml4 va : Nat) : Prop :=
  pml4 ≠ 0 ∧ ∀ e ∈ entriesFor s pml4 va, e.present ∧ e.user

/-- The range does not wrap, lies in the user window, and every byte of it is walked. -/
structure Accessible (s : State) (pml4 address size : Nat) : Prop where
  no_wrap : address + size < 2 ^ 64
  low : userBase ≤ address
  high : address + size ≤ userBase + userSize
  walked : ∀ va, address ≤ va → va < address + size → Walked s pml4 va

section

variable {s : State} {pml4 va : Nat}

/-- The code's walk of one address of the window. -/
theorem pageIsUserAccessible_iff (hva : inUser va) :
    pageIsUserAccessible s pml4 va ↔ Walked s pml4 va := by
  constructor
  · intro h
    refine ⟨?_, entries_of_accessible h⟩
    rintro rfl
    cases h
  rintro ⟨hpml4, hentries⟩
  unfold entriesFor at hentries
  unfold pageIsUserAccessible
  rw [if_neg hpml4, hva]
  have hnot : ∀ {e : Pte}, e.present = true ∧ e.user = true → ¬(!e.present || !e.user) = true := by
    rintro e ⟨h1, h2⟩
    simp [h1, h2]
  rw [if_neg (by decide)]
  by_cases hps : (s.tables (s.tables (s.tables pml4 (pml4Idx va)).phys (pdptIdx va)).phys
      (pdIdx va)).ps
  · rw [if_pos hps] at hentries
    rw [if_neg (hnot (hentries _ (by simp))), if_neg (hnot (hentries _ (by simp))),
      if_neg (hnot (hentries _ (by simp))), if_pos hps]
  · rw [if_neg hps] at hentries
    rw [if_neg (hnot (hentries _ (by simp))), if_neg (hnot (hentries _ (by simp))),
      if_neg (hnot (hentries _ (by simp))), if_neg hps]
    exact Bool.and_eq_true_iff.mpr (hentries _ (by simp))

/-- The bytes of a page share their walk. -/
theorem walked_page (va : Nat) : Walked s pml4 (va / pageSize * pageSize) ↔ Walked s pml4 va := by
  unfold Walked
  rw [entriesFor_page]

/-- The window check, as a statement about numbers. -/
theorem pagingAddressIsUserAccessible_iff {address size : Nat} (haddress : address < 2 ^ 64)
    (hsize : size < 2 ^ 64) : pagingAddressIsUserAccessible address size ↔
      size ≠ 0 ∧ address + size < 2 ^ 64 ∧ userBase ≤ address ∧
        address + size ≤ userBase + userSize := by
  unfold pagingAddressIsUserAccessible
  by_cases hzero : size = 0
  · simp [hzero]
  rw [if_neg hzero]
  by_cases hwrap : (address + size) % 2 ^ 64 < address
  · rw [if_pos hwrap]
    have hlong : ¬address + size < 2 ^ 64 := by omega
    exact ⟨fun h => Bool.noConfusion h, fun h => absurd h.2.1 hlong⟩
  · rw [if_neg hwrap, Bool.and_eq_true_iff, decide_eq_true_iff, decide_eq_true_iff]
    -- a sum that wraps comes out below the address
    have hshort : address + size < 2 ^ 64 := by omega
    rw [Nat.mod_eq_of_lt hshort]
    exact ⟨fun h => ⟨hzero, hshort, h⟩, fun h => h.2.2⟩

/-- **The page loop**: it ends within the rounds, and says whether every page it meets passes. -/
theorem pageLoop_spec (page : Nat → Bool) {last : Nat} (hlast : last ≤ userBase + userSize) :
    ∀ rounds cursor, last ≤ cursor + rounds * pageSize →
      ∃ b, pageLoop page last (rounds + 1) cursor = some b ∧
        (b ↔ ∀ k, cursor + k * pageSize < last → page (cursor + k * pageSize)) := by
  have hdone : ∀ rounds cursor, ¬cursor < last → ∃ b, pageLoop page last (rounds + 1) cursor = some b ∧
      (b ↔ ∀ k, cursor + k * pageSize < last → page (cursor + k * pageSize)) := by
    intro rounds cursor hcursor
    refine ⟨true, by rw [pageLoop, if_neg hcursor], fun _ k hk => ?_, fun _ => rfl⟩
    omega
  intro rounds
  induction rounds with
  | zero => exact fun cursor hrounds => hdone 0 cursor (by omega)
  | succ rounds ih =>
    intro cursor hrounds
    by_cases hcursor : cursor < last
    · by_cases hpage : page cursor
      · -- the page passes; the next cursor is far from the end of the address space
        have hnext : (cursor + pageSize) % 2 ^ 64 = cursor + pageSize := by
          simp only [userBase, userSize] at hlast
          simp only [pageSize]
          omega
        have hk : ∀ k, cursor + (k + 1) * pageSize = cursor + pageSize + k * pageSize := by
          intro k
          rw [Nat.succ_mul]
          omega
        obtain ⟨b, hb, hall⟩ := ih (cursor + pageSize) (hk rounds ▸ hrounds)
        refine ⟨b, ?_, hall.trans ?_⟩
        · rw [pageLoop, if_pos hcursor, hpage, if_neg (by decide), hnext, hb]
        simp only [← hk]
        refine ⟨fun h k => ?_, fun h k => h (k + 1)⟩
        cases k with
        | zero => simpa using fun _ => hpage
        | succ k => exact h k
      · refine ⟨false, ?_, ?_⟩
        · rw [pageLoop, if_pos hcursor, if_pos (by simpa using hpage)]
        · refine ⟨fun h => (Bool.noConfusion h), fun h => absurd ?_ hpage⟩
          simpa using h 0 (by simpa using hcursor)
    · exact hdone _ cursor hcursor

/-- The pages from the rounded-down start are those with a byte in the range, and the bytes of a page
    share their walk. -/
theorem pages_walked {address size : Nat} (hsize : size ≠ 0) (hlow : userBase ≤ address)
    (hhigh : address + size ≤ userBase + userSize) :
    (∀ k, address / pageSize * pageSize + k * pageSize < address + size →
      pageIsUserAccessible s pml4 (address / pageSize * pageSize + k * pageSize)) ↔
      ∀ va, address ≤ va → va < address + size → Walked s pml4 va := by
  have hbase : userBase = 4096 * pageSize := by decide
  constructor
  · intro h va hlo hhi
    have hpage : address / pageSize * pageSize + (va / pageSize - address / pageSize) * pageSize =
        va / pageSize * pageSize := by
      rw [← Nat.add_mul, Nat.add_sub_cancel' (Nat.div_le_div_right hlo)]
    have hmet := h (va / pageSize - address / pageSize) (by rw [hpage]; unfold pageSize; omega)
    rw [hpage] at hmet
    have hin : inUser (va / pageSize * pageSize) := by
      unfold inUser
      simp only [Bool.and_eq_true, decide_eq_true_eq]
      unfold pageSize at *
      omega
    exact (walked_page va).mp ((pageIsUserAccessible_iff hin).mp hmet)
  · intro h k hk
    -- the first byte of the page, or of the range where that comes later
    have hpage : max address (address / pageSize * pageSize + k * pageSize) / pageSize * pageSize =
        address / pageSize * pageSize + k * pageSize := by
      unfold pageSize at *
      omega
    have hin : inUser (address / pageSize * pageSize + k * pageSize) := by
      unfold inUser
      simp only [Bool.and_eq_true, decide_eq_true_eq]
      unfold pageSize at *
      omega
    have hwalked := h (max address (address / pageSize * pageSize + k * pageSize))
      (Nat.le_max_left _ _) (by unfold pageSize at *; omega)
    rwa [pageIsUserAccessible_iff hin, ← hpage, walked_page]

/-- The check ends, and accepts the accessible ranges. -/
theorem userBufferIsAccessible_spec (s : State) (pml4 : Nat) (address size : UInt64) (hsize : size ≠ 0) :
    ∃ b, userBufferIsAccessible s pml4 address size = some b ∧
      (b ↔ Accessible s pml4 address.toNat size.toNat) := by
  have haddress : address.toNat < 2 ^ 64 := address.toNat_lt
  have hsize' : size.toNat < 2 ^ 64 := size.toNat_lt
  have hpositive : size.toNat ≠ 0 := fun h => hsize (UInt64.toNat_inj.mp h)
  have hwindow := pagingAddressIsUserAccessible_iff haddress hsize'
  unfold userBufferIsAccessible
  by_cases hin : pagingAddressIsUserAccessible address.toNat size.toNat
  · obtain ⟨-, hwrap, hlow, hhigh⟩ := hwindow.mp hin
    rw [hin, Nat.mod_eq_of_lt hwrap]
    have hrounds : address.toNat + size.toNat ≤
        address.toNat / pageSize * pageSize + userPages * pageSize := by
      simp only [userBase, userSize] at hlow hhigh
      simp only [pageSize, userPages]
      omega
    obtain ⟨b, hb, hall⟩ := pageLoop_spec (pageIsUserAccessible s pml4) hhigh userPages
      (address.toNat / pageSize * pageSize) hrounds
    refine ⟨b, hb, hall.trans ((pages_walked hpositive hlow hhigh).trans ?_)⟩
    exact ⟨fun h => ⟨hwrap, hlow, hhigh, h⟩, Accessible.walked⟩
  · rw [if_pos (by simpa using hin)]
    refine ⟨false, rfl, fun h => Bool.noConfusion h, fun h => absurd ?_ hin⟩
    exact hwindow.mpr ⟨hpositive, h.no_wrap, h.low, h.high⟩

/-- The loop and the check over the list of pages, which the rest of the development uses, are one. -/
theorem userBufferIsAccessible_eq (s : State) (pml4 : Nat) (address size : UInt64) :
    userBufferIsAccessible s pml4 address size = some (accepts s pml4 address size) := by
  have haddress : address.toNat < 2 ^ 64 := address.toNat_lt
  have hwindow := pagingAddressIsUserAccessible_iff haddress size.toNat_lt
  by_cases hin : pagingAddressIsUserAccessible address.toNat size.toNat
  · obtain ⟨hpositive, hwrap, hlow, hhigh⟩ := hwindow.mp hin
    have hsize : size ≠ 0 := by
      rintro rfl
      exact hpositive rfl
    obtain ⟨b, hb, hiff⟩ := userBufferIsAccessible_spec s pml4 address size hsize
    rw [hb, Option.some_inj, Bool.eq_iff_iff, hiff]
    constructor
    · intro h
      have hpages := (pages_walked hpositive hlow hhigh).mpr h.walked
      unfold accepts pagingDirectoryUserBufferIsAccessible
      rw [hin]
      refine List.all_eq_true.mpr fun page hpage => ?_
      obtain ⟨hfirst, hlast⟩ := List.mem_range'_1.mp hpage
      have heq : address.toNat / pageSize * pageSize + (page - address.toNat / pageSize) * pageSize =
          page * pageSize := by
        rw [← Nat.add_mul, Nat.add_sub_cancel' hfirst]
      have hmet := hpages (page - address.toNat / pageSize)
      rw [heq] at hmet
      refine hmet ?_
      unfold pageSize at *
      omega
    · intro h
      refine ⟨hwrap, hlow, hhigh, (pages_walked hpositive hlow hhigh).mp fun k hk => ?_⟩
      have heq : address.toNat / pageSize * pageSize + k * pageSize =
          (address.toNat / pageSize + k) * pageSize := by
        rw [Nat.add_mul]
      rw [heq] at hk ⊢
      unfold accepts pagingDirectoryUserBufferIsAccessible at h
      rw [hin] at h
      refine List.all_eq_true.mp h _ (List.mem_range'_1.mpr ⟨Nat.le_add_right _ _, ?_⟩)
      unfold pageSize at *
      omega
  · unfold userBufferIsAccessible accepts pagingDirectoryUserBufferIsAccessible
    have hout : (!pagingAddressIsUserAccessible address.toNat size.toNat) := by simpa using hin
    rw [if_pos hout, if_pos hout]

end

/-- **Buffer validation is exact.**  For any table contents, any 64-bit address and any size but 0, the
    loop ends; it accepts exactly if the range does not wrap, lies in the window, and the walk of every
    byte finds present and user bits on each level, and it refuses in every other case. -/
theorem user_buffer_exact (s : State) (pml4 : Nat) (address size : UInt64) (hsize : size ≠ 0) :
    (userBufferIsAccessible s pml4 address size = some true ↔
      Accessible s pml4 address.toNat size.toNat) ∧
    (userBufferIsAccessible s pml4 address size = some false ↔
      ¬Accessible s pml4 address.toNat size.toNat) := by
  obtain ⟨b, hb, hiff⟩ := userBufferIsAccessible_spec s pml4 address size hsize
  rw [hb, ← hiff]
  cases b <;> simp

/-- The current directory, four tables in a row; the page table holds `leaf`, wherever in the window. -/
def fourTables (leaf : Nat → Pte) : State :=
  { frames := { marked := fun _ => true, refcount := fun _ => 0, totalFrames := 0, freeFrames := 0,
                highestAddress := 0 },
    tables := fun table idx => if table = 0x4000 then leaf idx else Pte.rw (table + 0x1000),
    bytes := fun _ _ => 0, kernelPml4 := 0x1000, kernelPdpt := 0x2000, kernelPd0 := 0x3000 }

/-- Two bytes across a page boundary of a mapped directory. -/
theorem user_buffer_exact_across : userBufferIsAccessible (fourTables Pte.rw) 0x1000 0x01000FFF 2 = some true ∧
    Accessible (fourTables Pte.rw) 0x1000 0x01000FFF 2 := by
  have haccept : userBufferIsAccessible (fourTables Pte.rw) 0x1000 0x01000FFF 2 = some true := by
    decide +kernel
  exact ⟨haccept, (user_buffer_exact (fourTables Pte.rw) 0x1000 0x01000FFF 2 (by decide)).1.mp haccept⟩

/-! ## Strings -/

/-- How the string check ends: with the index of the NUL, with 0, or with a page fault of the kernel. -/
inductive Outcome where
  | accepted (nul : Nat)
  | refused
  | faulted
deriving DecidableEq

/-- A load of the kernel from `va`, where memory holds `contents`: it faults unless the entry is present
    on every level.  The user bit does not matter to the kernel. -/
def kernelLoad (s : State) (pml4 : Nat) (contents : Nat → UInt8) (va : Nat) : Option UInt8 :=
  if (entriesFor s pml4 va).all Pte.present then some (contents va) else none

/-- The loop of `paging_user_string_is_accessible` from index `i`, with `left` rounds to go, and the
    addresses it reads. -/
def stringLoop (load : Nat → Option UInt8) (address : Nat) : Nat → Nat → Outcome × List Nat
  | 0, _ => (.refused, [])
  | left + 1, i =>
    let cursor := (address + i) % 2 ^ 64
    if !pagingAddressIsUserAccessible cursor 1 then (.refused, [])
    else
      match load cursor with
      | none => (.faulted, [cursor])
      | some c =>
        if c = 0 then (.accepted i, [cursor])
        else ((stringLoop load address left (i + 1)).1, cursor :: (stringLoop load address left (i + 1)).2)

/-- `paging_user_string_is_accessible(text, max_length)`, and the addresses it reads. -/
def userStringIsAccessible (s : State) (pml4 : Nat) (contents : Nat → UInt8) (text maxLength : UInt64) :
    Outcome × List Nat :=
  if text = 0 ∨ maxLength = 0 then (.refused, [])
  else if !pagingAddressIsUserAccessible text.toNat 1 then (.refused, [])
  else stringLoop (kernelLoad s pml4 contents) text.toNat maxLength.toNat 0

/-- The string check agrees with the buffer check: what it accepts, NUL included, the buffer check
    accepts, and it reads no byte that the buffer check refuses. -/
structure Agrees (s : State) (pml4 : Nat) (contents : Nat → UInt8) (text maxLength : UInt64) : Prop where
  accepted : ∀ k, (userStringIsAccessible s pml4 contents text maxLength).1 = .accepted k →
    userBufferIsAccessible s pml4 text (UInt64.ofNat (k + 1)) = some true
  read : ∀ va ∈ (userStringIsAccessible s pml4 contents text maxLength).2,
    userBufferIsAccessible s pml4 (UInt64.ofNat va) 1 = some true

/-- The bytes of the string in the window: within the limit, with no NUL before them. -/
structure Spanned (contents : Nat → UInt8) (address length va : Nat) : Prop where
  lower : address ≤ va
  limit : va < address + length
  window : va < userBase + userSize
  running : ∀ w, address ≤ w → w < va → contents w ≠ 0

section

variable {s : State} {pml4 address va : Nat} {contents : Nat → UInt8}

/-- The window check of one byte. -/
theorem window_one (hva : va < 2 ^ 64) :
    pagingAddressIsUserAccessible va 1 ↔ userBase ≤ va ∧ va < userBase + userSize := by
  rw [pagingAddressIsUserAccessible_iff hva (by decide)]
  simp only [userBase, userSize]
  omega

/-- A walked byte can be loaded. -/
theorem kernelLoad_walked (h : Walked s pml4 va) :
    kernelLoad s pml4 contents va = some (contents va) := by
  unfold kernelLoad
  rw [if_pos (List.all_eq_true.mpr fun e he => (h.2 e he).1)]

/-- The buffer check of one byte. -/
theorem userBuffer_one (hva : va < 2 ^ 64) :
    userBufferIsAccessible s pml4 (UInt64.ofNat va) 1 = some true ↔
      userBase ≤ va ∧ va < userBase + userSize ∧ Walked s pml4 va := by
  obtain ⟨b, hb, hiff⟩ := userBufferIsAccessible_spec s pml4 (UInt64.ofNat va) 1 (by decide)
  rw [hb, Option.some_inj, hiff, UInt64.toNat_ofNat_of_lt' hva]
  constructor
  · intro h
    exact ⟨h.low, h.high, h.walked va (Nat.le_refl va) (Nat.lt_succ_self va)⟩
  rintro ⟨hlow, hhigh, hwalked⟩
  refine ⟨?_, hlow, hhigh, ?_⟩
  · have hend : userBase + userSize < 2 ^ 64 := by decide
    have hone : (1 : UInt64).toNat = 1 := rfl
    omega
  intro w hlo hhi
  have hw : w = va := by
    have hone : (1 : UInt64).toNat = 1 := rfl
    omega
  rwa [hw]

/-- **Enough**: where every byte of the string is walked, the loop reads walked bytes of the window only,
    and the NUL it stops at is one of them. -/
theorem stringLoop_walked {length : Nat}
    (hspan : ∀ va, Spanned contents address length va → Walked s pml4 va) :
    ∀ left i, left + i = length → address + i ≤ userBase + userSize →
      (∀ w, address ≤ w → w < address + i → contents w ≠ 0) →
      (∀ va ∈ (stringLoop (kernelLoad s pml4 contents) address left i).2,
        userBase ≤ va ∧ va < userBase + userSize ∧ Walked s pml4 va) ∧
      ∀ k, (stringLoop (kernelLoad s pml4 contents) address left i).1 = .accepted k →
        Spanned contents address length (address + k) := by
  have hend : userBase + userSize < 2 ^ 64 := by decide
  intro left
  induction left with
  | zero =>
    intro i _ _ _
    exact ⟨fun va hva => (List.not_mem_nil hva).elim, fun k hk => Outcome.noConfusion hk⟩
  | succ left ih =>
    intro i hlength hin hrun
    have hmod : (address + i) % 2 ^ 64 = address + i := Nat.mod_eq_of_lt (by omega)
    rw [stringLoop, hmod]
    by_cases hwindow : pagingAddressIsUserAccessible (address + i) 1
    · have hbounds := (window_one (by omega)).mp hwindow
      have hhere : Spanned contents address length (address + i) :=
        ⟨Nat.le_add_right _ _, by omega, hbounds.2, hrun⟩
      have hwalked := hspan _ hhere
      rw [hwindow, kernelLoad_walked hwalked]
      dsimp only
      by_cases hnul : contents (address + i) = 0
      · rw [if_pos hnul]
        refine ⟨fun va hva => ?_, fun k hk => ?_⟩
        · rw [List.mem_singleton.mp hva]
          exact ⟨hbounds.1, hbounds.2, hwalked⟩
        · cases hk
          exact hhere
      · rw [if_neg hnul]
        have hnext := ih (i + 1) (by omega) (by omega) fun w hlo hhi => by
          by_cases hw : w = address + i
          · rwa [hw]
          · exact hrun w hlo (by omega)
        refine ⟨fun va hva => ?_, hnext.2⟩
        rcases List.mem_cons.mp hva with rfl | hva
        · exact ⟨hbounds.1, hbounds.2, hwalked⟩
        · exact hnext.1 va hva
    · rw [if_pos (by simpa using hwindow)]
      exact ⟨fun va hva => (List.not_mem_nil hva).elim, fun k hk => Outcome.noConfusion hk⟩

/-- **Needed**: the loop reads its way through the string, so if what it reads is walked, the string is. -/
theorem walked_of_stringLoop {length : Nat} (hlow : userBase ≤ address) : ∀ left i, left + i = length →
      (∀ va ∈ (stringLoop (kernelLoad s pml4 contents) address left i).2, va < 2 ^ 64 → Walked s pml4 va) →
      ∀ va, address + i ≤ va → Spanned contents address length va → Walked s pml4 va := by
  have hend : userBase + userSize < 2 ^ 64 := by decide
  intro left
  induction left with
  | zero =>
    intro i hlength _ va hva hspan
    have := hspan.limit
    omega
  | succ left ih =>
    intro i hlength hread va hva hspan
    have hinside : address + i < userBase + userSize := Nat.lt_of_le_of_lt hva hspan.window
    have hmod : (address + i) % 2 ^ 64 = address + i := Nat.mod_eq_of_lt (by omega)
    have hwindow : pagingAddressIsUserAccessible (address + i) 1 :=
      (window_one (by omega)).mpr ⟨by omega, hinside⟩
    rw [stringLoop, hmod, hwindow, if_neg (by decide)] at hread
    -- whatever the load does, its address is among those read
    have hhere : Walked s pml4 (address + i) := by
      refine hread (address + i) ?_ (by omega)
      cases kernelLoad s pml4 contents (address + i) with
      | none => exact List.mem_singleton.mpr rfl
      | some c =>
        dsimp only
        split
        · exact List.mem_singleton.mpr rfl
        · exact .head _
    by_cases hfirst : va = address + i
    · rwa [hfirst]
    · have hrun : contents (address + i) ≠ 0 := hspan.running _ (Nat.le_add_right _ _) (by omega)
      rw [kernelLoad_walked hhere] at hread
      dsimp only at hread
      rw [if_neg hrun] at hread
      exact ih (i + 1) (by omega) (fun w hw => hread w (.tail _ hw)) va (by omega) hspan

end

/-- **String validation, and when it agrees with buffer validation.**  For any tables, contents, pointer
    and limit: exactly if every byte of the string, from a pointer into the window up to the NUL, the
    limit or the end of the window, is mapped for user code. -/
theorem user_string_agrees_iff (s : State) (pml4 : Nat) (contents : Nat → UInt8) (text maxLength : UInt64) :
    Agrees s pml4 contents text maxLength ↔ (userBase ≤ text.toNat →
        ∀ va, Spanned contents text.toNat maxLength.toNat va → Walked s pml4 va) := by
  have hend : userBase + userSize < 2 ^ 64 := by decide
  have htext : text.toNat < 2 ^ 64 := text.toNat_lt
  -- the loop is entered exactly for a pointer into the window and a limit that is not 0
  by_cases henter : pagingAddressIsUserAccessible text.toNat 1 ∧ maxLength ≠ 0
  · obtain ⟨hwindow, hlength⟩ := henter
    obtain ⟨hlow, hhigh⟩ := (window_one htext).mp hwindow
    have hnull : ¬(text = 0 ∨ maxLength = 0) := by
      rintro (rfl | h)
      · exact absurd hlow (by decide)
      · exact hlength h
    have hcode : userStringIsAccessible s pml4 contents text maxLength =
        stringLoop (kernelLoad s pml4 contents) text.toNat maxLength.toNat 0 := by
      unfold userStringIsAccessible
      rw [if_neg hnull, hwindow, if_neg (by decide)]
    constructor
    · rintro ⟨-, hread⟩ - va hspan
      rw [hcode] at hread
      refine walked_of_stringLoop hlow maxLength.toNat 0 rfl ?_ va hspan.lower hspan
      intro w hw hlt
      exact ((userBuffer_one hlt).mp (hread w hw)).2.2
    intro h
    have hloop := stringLoop_walked (h hlow) maxLength.toNat 0 rfl (by omega) fun w hlo hhi => by omega
    refine ⟨fun k hk => ?_, fun va hva => ?_⟩
    · rw [hcode] at hk
      have hspan := hloop.2 k hk
      have hwindow := hspan.window
      have hk : (UInt64.ofNat (k + 1)).toNat = k + 1 :=
        UInt64.toNat_ofNat_of_lt' (show k + 1 < 2 ^ 64 by omega)
      have hne : UInt64.ofNat (k + 1) ≠ 0 := by
        intro hzero
        rw [hzero] at hk
        exact absurd hk (by simp)
      obtain ⟨b, hb, hiff⟩ := userBufferIsAccessible_spec s pml4 text (UInt64.ofNat (k + 1)) hne
      rw [hb, Option.some_inj, hiff]
      refine ⟨by omega, hlow, by omega, fun va hlo hhi => h hlow va ?_⟩
      -- the bytes before the NUL are bytes of the string as well
      have hlimit := hspan.limit
      exact ⟨hlo, by omega, by omega, fun w hw hlt => hspan.running w hw (by omega)⟩
    · rw [hcode] at hva
      obtain ⟨hlo, hhi, hwalked⟩ := hloop.1 va hva
      exact (userBuffer_one (by omega)).mpr ⟨hlo, hhi, hwalked⟩
  · have hcode : userStringIsAccessible s pml4 contents text maxLength = (.refused, []) := by
      unfold userStringIsAccessible
      by_cases hnull : text = 0 ∨ maxLength = 0
      · rw [if_pos hnull]
      · rw [if_neg hnull, if_pos]
        have hwindow : ¬pagingAddressIsUserAccessible text.toNat 1 :=
          fun h => henter ⟨h, fun hz => hnull (.inr hz)⟩
        simpa using hwindow
    constructor
    · intro _ hlow va hspan
      refine absurd ⟨(window_one htext).mpr ⟨hlow, Nat.lt_of_le_of_lt hspan.lower hspan.window⟩, ?_⟩ henter
      rintro rfl
      have hlimit := hspan.limit
      have hlower := hspan.lower
      have hzero : (0 : UInt64).toNat = 0 := rfl
      omega
    · intro _
      refine ⟨fun k hk => ?_, fun va hva => ?_⟩
      · rw [hcode] at hk
        cases hk
      · rw [hcode] at hva
        exact (List.not_mem_nil hva).elim

/-- The tables of a new process leave the guard page below the stack out; the string check of a pointer to
    it faults.  And a page that is present for the kernel alone passes the string check, though not the
    buffer check. -/
theorem string_check_skips_tables :
    ¬Agrees (fourTables fun idx => if idx = ptIdx userStackGuardBase then Pte.zero else Pte.rw 0x8000) 0x1000
      (fun _ => 0) (UInt64.ofNat userStackGuardBase) 1 ∧
    (userStringIsAccessible (fourTables fun _ => { Pte.rw 0x8000 with user := false }) 0x1000 (fun _ => 0)
      0x01000000 1).1 = .accepted 0 ∧
    userBufferIsAccessible (fourTables fun _ => { Pte.rw 0x8000 with user := false }) 0x1000
      0x01000000 1 = some false := by
  refine ⟨fun h => ?_, by decide +kernel, by decide +kernel⟩
  have hread := h.read userStackGuardBase (by decide +kernel)
  exact absurd hread (by decide +kernel)

end Lyth.UserBuffer
