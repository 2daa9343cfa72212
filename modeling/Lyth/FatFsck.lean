/-
  THE CHAIN CHECK OF THE CONSISTENCY CHECKER (`fat16_validate_chain` of `fs/fat_fsck.c`).

    1. THE PROGRAM.  `fat16ValidateChain` follows the links of the FAT from a start cluster and counts its steps.  It
       knows a cycle only by having gone further than there are clusters.
    2. THE SPECIFICATION.  A chain `Ends` if its links stay in range until one is a mark, for the end of a chain or
       for a bad cluster.  It is `Cyclic` if they stay in range and come back to a cluster met before.
    3. THE CRUX.  More steps than clusters meet a cluster twice (`Orbit.exists_repeat`), and a walk that has done so
       comes to no mark (`Orbit.forall_of_repeat`): the bound on the steps is passed on cycles, and only there.
-/
import Mathlib.Order.Interval.Finset.Nat
import Lyth.Lib.Bytes
import Lyth.Lib.Orbit
import Lyth.Lib.Word

namespace Lyth.FatFsck

open Bytes Word

/-! ## The program -/

/-- A block device; the read of a sector may fail. -/
structure Disk where
  bytes : Mem
  readable : Nat → Bool
  blockSize : Nat
  blockCount : Nat

/-- `fsck_read_sector`. -/
def fsckReadSector (d : Disk) (lba : Nat) : Option Mem :=
  if d.readable lba then some fun k => d.bytes (lba * 512 + k) else none

/-- The fields of `fat16_fsck_ctx_t` that the chain check reads, with what `fat16_parse_ctx` has checked. -/
structure Ctx where
  fatLba : Nat
  totalClusters : Nat
  maxCluster : Nat
  fatLba_lt : fatLba < 2 ^ 16
  total_le : totalClusters ≤ 0xFFFD
  max_eq : maxCluster = totalClusters + 1

/-- `fsck_is_pow2_u8`. -/
def fsckIsPow2U8 (v : Nat) : Bool := decide (v ≠ 0) && decide (v &&& (v - 1) = 0)

/-- `fat16_parse_ctx`.  The fields of the boot sector are 8 and 16 bits wide, so that no sum of them wraps. -/
def fat16ParseCtx (d : Disk) : Option Ctx :=
  if d.blockSize ≠ 512 ∨ d.blockCount = 0 then none
  else
    match fsckReadSector d 0 with
    | none => none
    | some sec =>
      let sectorsPerCluster := getLE sec 13 1
      let reserved := getLE sec 14 2
      let fatCount := getLE sec 16 1
      let rootEntryCount := getLE sec 17 2
      let sectorsPerFat := getLE sec 22 2
      let totalSectors := if getLE sec 19 2 ≠ 0 then getLE sec 19 2 else getLE sec 32 4
      let rootLba := reserved + fatCount * sectorsPerFat
      let dataLba := rootLba + (rootEntryCount * 32 + 511) / 512
      let totalClusters := (totalSectors - dataLba) / sectorsPerCluster
      if sec 510 ≠ 0x55 ∨ sec 511 ≠ 0xAA then none
      else if getLE sec 11 2 ≠ 512 ∨ fsckIsPow2U8 sectorsPerCluster = false then none
      else if reserved = 0 ∨ fatCount = 0 ∨ sectorsPerFat = 0 ∨ rootEntryCount = 0 then none
      else if totalSectors = 0 ∨ d.blockCount < totalSectors ∨ totalSectors ≤ dataLba then none
      else if h : 1 ≤ totalClusters ∧ totalClusters ≤ 0xFFFD then
        some ⟨reserved, totalClusters, (totalClusters + 1) % 2 ^ 16, getLE_lt sec 14 2, h.2,
          Nat.mod_eq_of_lt (by omega)⟩
      else none

def fat16EocMin : Nat := 0xFFF8
def fat16BadCluster : Nat := 0xFFF7

/-- `fat16_get_entry`. -/
def fat16GetEntry (d : Disk) (ctx : Ctx) (cluster : Nat) : Nat :=
  let byteOff := cluster * 2
  let secOff := byteOff % 512
  if 512 ≤ secOff + 1 then 0xFFFF
  else
    match fsckReadSector d (u32 (ctx.fatLba + byteOff / 512)) with
    | none => 0xFFFF
    | some sec => getLE sec secOff 2

/-- The counters of `fat_fsck_report_t` that the chain check touches. -/
structure Report where
  errors : UInt32
  warnings : UInt32
  fatOutOfRange : UInt32
  fatBadClusters : UInt32
  fatLoops : UInt32
  invalidStartCluster : UInt32

def Report.outOfRange (r : Report) : Report :=
  { r with fatOutOfRange := r.fatOutOfRange + 1, errors := r.errors + 1 }

def Report.loop (r : Report) : Report := { r with fatLoops := r.fatLoops + 1, errors := r.errors + 1 }

/-- The loop of `fat16_validate_chain`.  It ends because `steps` grows up to its bound. -/
def validateLoop (d : Disk) (ctx : Ctx) (cur steps : Nat) (rep : Report) : Int × Report :=
  if 2 ≤ cur ∧ cur ≤ ctx.maxCluster then
    let nxt := fat16GetEntry d ctx cur
    if nxt = 0 ∨ nxt = 1 then (-1, rep.outOfRange)
    else if nxt = fat16BadCluster then
      (0, { rep with fatBadClusters := rep.fatBadClusters + 1, warnings := rep.warnings + 1 })
    else if fat16EocMin ≤ nxt then (0, rep)
    else if ctx.maxCluster < nxt then (-1, rep.outOfRange)
    else if ctx.totalClusters + 1 < steps + 1 then (-1, rep.loop)
    else validateLoop d ctx nxt (steps + 1) rep
  else (-1, rep.outOfRange)
termination_by ctx.totalClusters + 1 - steps

/-- `fat16_validate_chain`. -/
def fat16ValidateChain (d : Disk) (ctx : Ctx) (start : Nat) (rep : Report) : Int × Report :=
  if start < 2 ∨ ctx.maxCluster < start then
    (-1, { rep with invalidStartCluster := rep.invalidStartCluster + 1, errors := rep.errors + 1 })
  else validateLoop d ctx start 0 rep

/-! ## The specification -/

/-- The link of cluster `c`: entry `c` of the FAT. -/
def link (d : Disk) (ctx : Ctx) (c : Nat) : Nat := getLE d.bytes (ctx.fatLba * 512 + c * 2) 2

/-- The `k`-th cluster of the chain from `start`. -/
def chain (d : Disk) (ctx : Ctx) (start k : Nat) : Nat := (link d ctx)^[k] start

/-- A cluster of the volume. -/
def InRange (ctx : Ctx) (c : Nat) : Prop := 2 ≤ c ∧ c ≤ ctx.maxCluster

/-- The end of a chain, or a bad cluster. -/
def Mark (v : Nat) : Prop := v = fat16BadCluster ∨ fat16EocMin ≤ v

/-- The link of `c` leads to a cluster. -/
def Leads (d : Disk) (ctx : Ctx) (c : Nat) : Prop :=
  InRange ctx c ∧ InRange ctx (link d ctx c) ∧ ¬Mark (link d ctx c)

/-- The links from `start` stay in range until one is a mark. -/
def Ends (d : Disk) (ctx : Ctx) (start : Nat) : Prop :=
  ∃ k, (∀ j < k, Leads d ctx (chain d ctx start j)) ∧
    InRange ctx (chain d ctx start k) ∧ Mark (link d ctx (chain d ctx start k))

/-- The links from `start` stay in range and come back to a cluster. -/
def Cyclic (d : Disk) (ctx : Ctx) (start : Nat) : Prop :=
  ∃ i j, i < j ∧ chain d ctx start i = chain d ctx start j ∧
    ∀ k < j, Leads d ctx (chain d ctx start k)

/-- The sectors of the FAT can be read. -/
def Readable (d : Disk) (ctx : Ctx) : Prop :=
  ∀ c, InRange ctx c → d.readable (ctx.fatLba + c * 2 / 512)

/-! ## The loop -/

section

variable {d : Disk} {ctx : Ctx} {cur start m steps : Nat} {rep : Report}

section

variable (hread : Readable d ctx)
include hread

/-- The entry that is read is the entry of the FAT. -/
theorem fat16GetEntry_eq (hcur : InRange ctx cur) :
    fat16GetEntry d ctx cur = link d ctx cur := by
  have hlba := ctx.fatLba_lt
  have htotal := ctx.total_le
  have hle := ctx.max_eq ▸ hcur.2
  have haddr : (ctx.fatLba + cur * 2 / 512) * 512 + cur * 2 % 512 = ctx.fatLba * 512 + cur * 2 := by omega
  unfold fat16GetEntry fsckReadSector link
  rw [if_neg (by omega), u32_of_lt (by omega), hread cur hcur, if_pos rfl]
  dsimp only [getLE]
  rw [← Nat.add_assoc, haddr]

/-- A round on a cluster whose link leads on. -/
theorem validateLoop_leads (h : Leads d ctx cur) : validateLoop d ctx cur steps rep
    = if ctx.totalClusters + 1 < steps + 1 then (-1, rep.loop)
      else validateLoop d ctx (link d ctx cur) (steps + 1) rep := by
  obtain ⟨hcur, ⟨hlow, hhigh⟩, hmark⟩ := h
  obtain ⟨hbad, heoc⟩ := not_or.mp hmark
  rw [validateLoop, if_pos ⟨hcur.1, hcur.2⟩]
  rw [fat16GetEntry_eq hread hcur, if_neg (by omega), if_neg hbad, if_neg heoc, if_neg (Nat.not_lt.mpr hhigh)]

/-- A round on a cluster whose link does not: the answer is 0 for a mark. -/
theorem validateLoop_stops (hcur : InRange ctx cur) (h : ¬Leads d ctx cur) :
    ((validateLoop d ctx cur steps rep).1 = 0 ↔ Mark (link d ctx cur)) ∧
      (validateLoop d ctx cur steps rep).2.fatLoops = rep.fatLoops := by
  rw [validateLoop, if_pos ⟨hcur.1, hcur.2⟩]
  dsimp only
  rw [fat16GetEntry_eq hread hcur]
  split
  · refine ⟨⟨fun h0 => (by cases h0), fun hmark => ?_⟩, rfl⟩
    unfold Mark fat16BadCluster fat16EocMin at hmark
    omega
  split
  · rename_i hbad
    exact ⟨⟨fun _ => .inl hbad, fun _ => rfl⟩, rfl⟩
  split
  · rename_i heoc
    exact ⟨⟨fun _ => .inr heoc, fun _ => rfl⟩, rfl⟩
  rename_i hsmall hbad heoc
  have hmark : ¬Mark (link d ctx cur) := not_or.mpr ⟨hbad, heoc⟩
  split
  · exact ⟨⟨fun h0 => (by cases h0), fun hm => absurd hm hmark⟩, rfl⟩
  · rename_i hhigh
    exact absurd ⟨hcur, ⟨by omega, Nat.not_lt.mp hhigh⟩, hmark⟩ h

/-- **The verdict of the loop** with `m` steps left: they all lead on, or one of them does not. -/
theorem validateLoop_verdict (hcur : InRange ctx cur)
    (hm : steps + (m + 1) = ctx.totalClusters + 2) :
    ((∀ k < m + 1, Leads d ctx (chain d ctx cur k)) ∧ (validateLoop d ctx cur steps rep).1 = -1 ∧
        (validateLoop d ctx cur steps rep).2.fatLoops = rep.fatLoops + 1) ∨
      ∃ k, (∀ j < k, Leads d ctx (chain d ctx cur j)) ∧ InRange ctx (chain d ctx cur k) ∧
        ¬Leads d ctx (chain d ctx cur k) ∧
        ((validateLoop d ctx cur steps rep).1 = 0 ↔ Mark (link d ctx (chain d ctx cur k))) ∧
        (validateLoop d ctx cur steps rep).2.fatLoops = rep.fatLoops := by
  induction m using Nat.strong_induction_on generalizing cur steps with
  | _ m ih =>
    by_cases hstop : ¬Leads d ctx cur
    · exact .inr ⟨0, fun j hj => absurd hj (Nat.not_lt_zero j), hcur, hstop, validateLoop_stops hread hcur hstop⟩
    have hleads := not_not.mp hstop
    -- the chain from the link is the chain from here, one step on
    have hcons : ∀ {n}, (∀ j < n, Leads d ctx (chain d ctx (link d ctx cur) j)) →
        ∀ j < n + 1, Leads d ctx (chain d ctx cur j) := by
      intro n hn j hj
      cases j with
      | zero => exact hleads
      | succ j => exact hn j (by omega)
    rw [validateLoop_leads hread hleads]
    cases m with
    | zero =>
      rw [if_pos (by omega)]
      exact .inl ⟨hcons fun j hj => absurd hj (Nat.not_lt_zero j), rfl, rfl⟩
    | succ m =>
      rw [if_neg (by omega)]
      rcases @ih m (Nat.lt_succ_self m) _ (steps + 1) hleads.2.1 (by omega) with
        ⟨hall, hend⟩ | ⟨k, hbefore, hend⟩
      · exact .inl ⟨hcons hall, hend⟩
      · exact .inr ⟨k + 1, hcons hbefore, hend⟩

end

/-! ## Cycles -/

/-- More steps than clusters are a cycle. -/
theorem cyclic_of_long (h : ∀ k < ctx.totalClusters + 2, Leads d ctx (chain d ctx start k)) : Cyclic d ctx start := by
  have hmem : ∀ k < ctx.totalClusters + 2, chain d ctx start k ∈ Finset.Ico 2 (ctx.totalClusters + 2) := by
    intro k hk
    obtain ⟨hlow, hhigh⟩ := (h k hk).1
    rw [ctx.max_eq] at hhigh
    exact Finset.mem_Ico.mpr ⟨hlow, by omega⟩
  obtain ⟨i, j, hij, hj, heq⟩ := Orbit.exists_repeat (by rw [Nat.card_Ico]; omega) hmem
  exact ⟨i, j, hij, heq, fun k hk => h k (by omega)⟩

/-- A cycle has no end. -/
theorem Cyclic.leads (h : Cyclic d ctx start) (n : Nat) : Leads d ctx (chain d ctx start n) := by
  obtain ⟨i, j, hij, heq, hleads⟩ := h
  exact Orbit.forall_of_repeat (P := Leads d ctx) hij heq hleads n

/-- **The chain check is exact**, whatever the FAT holds: it answers 0 exactly if the links from the start cluster
    stay in range until a mark, and counts a loop exactly if they stay in range and are cyclic. -/
theorem fat16ValidateChain_exact (d : Disk) (ctx : Ctx) (start : Nat) (rep : Report) (hread : Readable d ctx) :
    ((fat16ValidateChain d ctx start rep).1 = 0 ↔ Ends d ctx start) ∧
      (Cyclic d ctx start → (fat16ValidateChain d ctx start rep).2.fatLoops = rep.fatLoops + 1) ∧
      (¬Cyclic d ctx start → (fat16ValidateChain d ctx start rep).2.fatLoops = rep.fatLoops) := by
  unfold fat16ValidateChain
  split
  · -- a start out of range is the start of no chain
    have hstart : ¬InRange ctx start := fun h => by have := h.1; have := h.2; omega
    refine ⟨⟨fun h0 => (by cases h0), ?_⟩, fun h => absurd (h.leads 0).1 hstart, fun _ => rfl⟩
    rintro ⟨k, hleads, hend, -⟩
    cases k with
    | zero => exact absurd hend hstart
    | succ k => exact absurd (hleads 0 (Nat.succ_pos k)).1 hstart
  have hstart : InRange ctx start := by
    unfold InRange
    omega
  rcases @validateLoop_verdict d ctx start (ctx.totalClusters + 1) 0 rep hread hstart (by omega) with
    ⟨hall, hanswer, hloops⟩ | ⟨k, hbefore, hrange, hstop, hanswer, hloops⟩
  · have hcyclic := cyclic_of_long hall
    refine ⟨⟨fun h0 => ?_, fun hends => ?_⟩, fun _ => hloops, fun h => absurd hcyclic h⟩
    · rw [hanswer] at h0
      cases h0
    · obtain ⟨k, -, -, hmark⟩ := hends
      exact absurd hmark (hcyclic.leads k).2.2
  · refine ⟨hanswer.trans ⟨fun hmark => ⟨k, hbefore, hrange, hmark⟩, fun hends => ?_⟩,
      fun h => absurd (h.leads k) hstop, fun _ => hloops⟩
    -- the chain ends where the loop stopped: not before, where links lead on, and not behind
    obtain ⟨k', hbefore', -, hmark⟩ := hends
    rcases Nat.lt_trichotomy k k' with hlt | rfl | hlt
    · exact absurd (hbefore' k hlt) hstop
    · exact hmark
    · exact absurd hmark (hbefore k' hlt).2.2

/-- Two clusters that name each other: 2 and 3 of a volume of three. -/
def twoLinked : Disk where
  bytes := fun b => if b = 516 then 3 else if b = 518 then 2 else 0
  readable := fun _ => true
  blockSize := 512
  blockCount := 100

def threeClusters : Ctx := ⟨1, 3, 4, by decide, by decide, rfl⟩

theorem fat16ValidateChain_exact_twoLinked : Readable twoLinked threeClusters ∧
    ∀ rep, (fat16ValidateChain twoLinked threeClusters 2 rep).2.fatLoops = rep.fatLoops + 1 := by
  have hread : Readable twoLinked threeClusters := fun _ _ => rfl
  refine ⟨hread, fun rep => (fat16ValidateChain_exact _ _ 2 rep hread).2.1 ⟨0, 2, by decide, by decide, ?_⟩⟩
  unfold Leads InRange Mark
  decide

end

end Lyth.FatFsck
