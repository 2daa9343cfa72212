/-
  WHERE THE BYTES GO: the effect of each FAT operation on the disk.

    1. The disk of a volume with `n` data clusters has three parts that do not meet: the copies of the FAT, the root
       region of FAT16 and the clusters.  `Geometry` is what a boot sector that makes sense gives.
    2. `writeFatEntry` changes one entry (of every copy), `writeCluster` the bytes of one cluster, and an entry of a
       directory is 32 bytes that no other entry shares.
    3. The ALLOCATOR looks at entries of the FAT and not at the size of the volume: it takes a data cluster as long as
       one is free, or as there is no entry behind those of the data clusters (`Enough`).
-/
import Mathlib.Data.Finset.Card
import Mathlib.Data.List.TakeWhile
import Lyth.Fat

namespace Lyth.Fat

open Bytes Word

/-! ## Geometry -/

/-- The end of the last copy of the FAT. -/
def Vol.fatEnd (v : Vol) : Nat := v.fatLba + v.fatCount * v.sectorsPerFat

/-- The first byte of a cluster. -/
def Vol.base (v : Vol) (c : Nat) : Nat := (v.dataLba + (c - 2) * v.sectorsPerCluster) * 512

/-- The parts of the disk follow each other, the FAT has an entry for each of the `n` clusters, sector numbers do not
    wrap, and no sector fails. -/
structure Geometry (v : Vol) (n : Nat) : Prop where
  kind : v.kind = fat16 ∨ v.kind = fat32
  cluster : 0 < v.sectorsPerCluster
  copies : 0 < v.fatCount
  boot : 0 < v.fatLba
  fat : v.fatEnd ≤ v.rootLba ∨ v.kind.rootRegion = false
  root : v.rootLba + (v.rootEntryCount * 32 + 511) / 512 ≤ v.dataLba ∨ v.kind.rootRegion = false
  fatData : v.fatEnd ≤ v.dataLba
  entries : n + 2 ≤ v.fatEntries
  numbers : n + 2 ≤ v.kind.eocMin
  sectors : v.dataLba + n * v.sectorsPerCluster ≤ 2 ^ 32
  io : v.io = .sound

/-- The cluster is one of the data clusters. -/
def IsData (n c : Nat) : Prop := 2 ≤ c ∧ c < n + 2

instance (n c : Nat) : Decidable (IsData n c) := inferInstanceAs (Decidable (_ ∧ _))

variable {v : Vol} {n c d : Nat} {m m' : Mem}

variable {copy val k : Nat}

section

variable (g : Geometry v n)

include g

theorem Geometry.canRead (lba : Nat) : v.canRead lba = true := by
  rw [Vol.canRead, g.io]
  rfl

theorem Geometry.canWrite (lba : Nat) : v.canWrite lba = true := by
  rw [Vol.canWrite, g.io]
  rfl

theorem Geometry.canChange (lba : Nat) : v.canChange lba = true := by
  rw [Vol.canChange, g.canRead, g.canWrite]
  rfl

theorem Geometry.clusterWritten (c : Nat) : clusterWritten v c = true :=
  List.all_eq_true.mpr fun _ _ => g.canWrite _

/-- Where no sector fails, every copy is written, and the link is read. -/
theorem Geometry.writeFatEntry_eq (val : Nat) : writeFatEntry v m c val = (List.range v.fatCount).foldl
    (fun m copy => putLE m (fatAddr v copy c) v.kind.entryBytes (val % v.kind.entryMod)) m := by
  rw [writeFatEntry, List.takeWhile_eq_self_iff.mpr fun copy _ => g.canChange _]

theorem Geometry.nextCluster_eq :
    nextCluster v m c = getLE m (fatAddr v 0 c) v.kind.entryBytes % v.kind.entryMod :=
  if_pos (g.canRead _)

theorem Geometry.entryBytes_pos : 0 < v.kind.entryBytes := by
  rcases g.kind with h | h
  · rw [h]; decide
  · rw [h]; decide

/-- The entry of a data cluster is in its copy of the FAT. -/
theorem Geometry.entry_lt (hc : c < n + 2) : c * v.kind.entryBytes + v.kind.entryBytes ≤ v.sectorsPerFat * 512 := by
  have h := g.entries
  unfold Vol.fatEntries Vol.entriesPerSector at h
  rcases g.kind with hk | hk
  · rw [hk] at h ⊢
    simp only [fat16] at h ⊢
    omega
  · rw [hk] at h ⊢
    simp only [fat32] at h ⊢
    omega

/-- The address of an entry. -/
theorem Geometry.fatAddr_eq (hc : c < n + 2) (hcopy : copy < v.fatCount) :
    fatAddr v copy c = (v.fatLba + copy * v.sectorsPerFat) * 512 + c * v.kind.entryBytes := by
  have hentry := g.entry_lt hc
  have hend : v.fatLba + v.fatCount * v.sectorsPerFat ≤ v.dataLba := g.fatData
  have hsectors := g.sectors
  have hcopy := row_le hcopy v.sectorsPerFat
  have hpos := g.entryBytes_pos
  have hoff : c * v.kind.entryBytes < 2 ^ 32 := by
    have hnum := g.numbers
    rcases g.kind with hk | hk
    · rw [hk] at hnum ⊢
      simp only [fat16] at hnum ⊢
      omega
    · rw [hk] at hnum ⊢
      simp only [fat32] at hnum ⊢
      omega
  unfold fatAddr fatSector
  rw [u32_of_lt hoff, u32_of_lt (by omega)]
  omega

/-- An entry lies in the copies of the FAT. -/
theorem Geometry.fatAddr_mem (hc : c < n + 2) (hcopy : copy < v.fatCount) :
    v.fatLba * 512 ≤ fatAddr v copy c ∧ fatAddr v copy c + v.kind.entryBytes ≤ v.fatEnd * 512 := by
  rw [g.fatAddr_eq hc hcopy]
  have hentry := g.entry_lt hc
  have hcopy := row_le hcopy v.sectorsPerFat
  unfold Vol.fatEnd
  omega

/-- Different entries do not meet, whatever the copies. -/
theorem Geometry.fatAddr_apart (hc : c < n + 2) (hd : d < n + 2) {copy' : Nat} (hcopy : copy < v.fatCount)
    (hcopy' : copy' < v.fatCount) (hne : c ≠ d ∨ copy ≠ copy') :
    Apart (fatAddr v copy c) v.kind.entryBytes (fatAddr v copy' d) v.kind.entryBytes := by
  rw [g.fatAddr_eq hc hcopy, g.fatAddr_eq hd hcopy']
  have hcEntry := g.entry_lt hc
  have hdEntry := g.entry_lt hd
  unfold Apart
  rcases Nat.lt_trichotomy copy copy' with hlt | rfl | hlt
  · have hmul := row_le hlt v.sectorsPerFat
    omega
  · have hcd : c ≠ d := hne.resolve_right (fun h => h rfl)
    rcases Nat.lt_or_gt_of_ne hcd with hlt | hlt
    · have hmul := row_le hlt v.kind.entryBytes
      omega
    · have hmul := row_le hlt v.kind.entryBytes
      omega
  · have hmul := row_le hlt v.sectorsPerFat
    omega

/-- The sectors of a data cluster. -/
theorem Geometry.clusterLba_eq (hc : IsData n c) {s : Nat} (hs : s < v.sectorsPerCluster) :
    clusterLba v c s = v.dataLba + (c - 2) * v.sectorsPerCluster + s := by
  have hsectors := g.sectors
  have hle : (c - 2 + 1) * v.sectorsPerCluster ≤ n * v.sectorsPerCluster :=
    Nat.mul_le_mul_right _ (by have := hc.2; have := hc.1; omega)
  have hcmod : u32 (c + 2 ^ 32 - 2) = c - 2 := by
    have h2 := hc.1
    have hlt : c - 2 < 2 ^ 32 := by
      have hn : n * 1 ≤ n * v.sectorsPerCluster := Nat.mul_le_mul_left _ g.cluster
      have := hc.2
      omega
    rw [show c + 2 ^ 32 - 2 = c - 2 + 2 ^ 32 by omega, u32, Nat.add_mod_right]
    exact Nat.mod_eq_of_lt hlt
  rw [Nat.add_mul] at hle
  unfold clusterLba
  rw [hcmod, u32_of_lt (by omega)]

/-- Clusters lie behind the FAT and the root region. -/
theorem Geometry.base_le (c : Nat) : v.fatEnd * 512 ≤ v.base c := by
  have h := g.fatData
  unfold Vol.base
  omega

end

/-! ## Effects on the FAT -/

/-- Storing at several addresses leaves the bytes outside alone. -/
theorem foldl_putLE_of_not_mem {addr : Nat → Nat} {w b : Nat} (copies : List Nat)
    (h : ∀ k ∈ copies, ¬(addr k ≤ b ∧ b < addr k + w)) :
    (copies.foldl (fun m k => putLE m (addr k) w val) m) b = m b := by
  induction copies generalizing m with
  | nil => rfl
  | cons k copies ih =>
    rw [List.foldl_cons, ih fun k' hk' => h k' (List.mem_cons_of_mem _ hk')]
    exact putLE_of_not_mem (h k (.head _))

section

variable (g : Geometry v n)
include g

section

variable (hc : c < n + 2)
include hc

/-- The other entries stay. -/
theorem entry_writeFatEntry_of_ne (hd : d < n + 2) (hne : d ≠ c) :
    getLE (writeFatEntry v m c val) (fatAddr v 0 d) v.kind.entryBytes =
      getLE m (fatAddr v 0 d) v.kind.entryBytes := by
  rw [g.writeFatEntry_eq]
  refine getLE_congr fun b hb hb' => foldl_putLE_of_not_mem _ fun k hk hin => ?_
  have hapart := g.fatAddr_apart hd hc g.copies (List.mem_range.mp hk) (.inl hne)
  unfold Apart at hapart
  omega

theorem next_writeFatEntry_of_ne (hd : d < n + 2) (hne : d ≠ c) :
    nextCluster v (writeFatEntry v m c val) d = nextCluster v m d := by
  rw [g.nextCluster_eq, g.nextCluster_eq, entry_writeFatEntry_of_ne g hc hd hne]

/-- **Writing an entry**, byte by byte: each copy gets the bytes of the value where the entry stands. -/
theorem writeFatEntry_apply (hcopy : copy < v.fatCount)
    (hk : k < v.sectorsPerFat * 512) :
    writeFatEntry v m c val ((v.fatLba + copy * v.sectorsPerFat) * 512 + k) =
      if c * v.kind.entryBytes ≤ k ∧ k < c * v.kind.entryBytes + v.kind.entryBytes then
        UInt8.ofNat (val % v.kind.entryMod / 256 ^ (k - c * v.kind.entryBytes))
      else m ((v.fatLba + copy * v.sectorsPerFat) * 512 + k) := by
  have hentry := g.entry_lt hc
  -- After `j` copies the bytes of these copies are in place.
  have hcopies : ∀ j ≤ v.fatCount, ((List.range j).foldl
      (fun m i => putLE m (fatAddr v i c) v.kind.entryBytes (val % v.kind.entryMod)) m)
        ((v.fatLba + copy * v.sectorsPerFat) * 512 + k) =
      if copy < j ∧ c * v.kind.entryBytes ≤ k ∧ k < c * v.kind.entryBytes + v.kind.entryBytes then
        UInt8.ofNat (val % v.kind.entryMod / 256 ^ (k - c * v.kind.entryBytes))
      else m ((v.fatLba + copy * v.sectorsPerFat) * 512 + k) := by
    intro j
    induction j with
    | zero =>
      intro _
      rfl
    | succ j ih =>
      intro hj
      rw [List.range_succ, List.foldl_append, List.foldl_cons, List.foldl_nil, g.fatAddr_eq hc (by omega)]
      rcases Nat.lt_trichotomy j copy with hlt | rfl | hlt
      · have hmul := row_le hlt v.sectorsPerFat
        rw [putLE_of_not_mem (by omega), ih (by omega), if_neg (by omega), if_neg (by omega)]
      · by_cases hin : c * v.kind.entryBytes ≤ k ∧ k < c * v.kind.entryBytes + v.kind.entryBytes
        · rw [putLE, if_pos (by omega), if_pos ⟨by omega, hin⟩]
          congr 3
          omega
        · rw [putLE_of_not_mem (by omega), ih (by omega), if_neg (by omega), if_neg fun h => hin h.2]
      · have hmul := row_le hlt v.sectorsPerFat
        rw [putLE_of_not_mem (by omega), ih (by omega)]
        by_cases hin : c * v.kind.entryBytes ≤ k ∧ k < c * v.kind.entryBytes + v.kind.entryBytes
        · rw [if_pos ⟨hlt, hin⟩, if_pos ⟨by omega, hin⟩]
        · rw [if_neg fun h => hin h.2, if_neg fun h => hin h.2]
  have hall := hcopies v.fatCount (Nat.le_refl _)
  rw [g.writeFatEntry_eq]
  by_cases hin : c * v.kind.entryBytes ≤ k ∧ k < c * v.kind.entryBytes + v.kind.entryBytes
  · rw [if_pos ⟨hcopy, hin⟩] at hall
    rwa [if_pos hin]
  · rw [if_neg fun h => hin h.2] at hall
    rwa [if_neg hin]

/-- The entry has the value, cut to the bits that count. -/
theorem entry_writeFatEntry :
    getLE (writeFatEntry v m c val) (fatAddr v 0 c) v.kind.entryBytes = val % v.kind.entryMod := by
  have hval : val % v.kind.entryMod < 256 ^ v.kind.entryBytes := by
    rcases g.kind with h | h
    · rw [h]
      exact Nat.mod_lt _ (by decide)
    · rw [h]
      exact Nat.lt_of_lt_of_le (Nat.mod_lt _ (by decide)) (by decide)
  have hentry := g.entry_lt hc
  rw [getLE_of_digits (v := val % v.kind.entryMod) fun i hi => ?_, Nat.mod_eq_of_lt hval]
  rw [g.fatAddr_eq hc g.copies, Nat.add_assoc, writeFatEntry_apply g hc g.copies (by omega), if_pos (by omega),
    Nat.add_sub_cancel_left]

theorem next_writeFatEntry :
    nextCluster v (writeFatEntry v m c val) c = val % v.kind.entryMod := by
  rw [g.nextCluster_eq, entry_writeFatEntry g hc, Nat.mod_mod]

/-- Bytes outside the FAT do not matter for the links. -/
theorem next_of_fat
    (h : ∀ b, v.fatLba * 512 ≤ b → b < v.fatEnd * 512 → m' b = m b) : nextCluster v m' c = nextCluster v m c := by
  have hmem := g.fatAddr_mem hc g.copies
  rw [g.nextCluster_eq, g.nextCluster_eq, getLE_congr fun b hb hb' => h b (by omega) (by omega)]

end

/-! ## Effects on clusters -/

/-- **Writing a cluster** replaces its bytes and no others. -/
theorem writeCluster_apply (hc : IsData n c) {buf : Nat → UInt8} (b : Nat) : writeCluster v m c buf b =
      if v.base c ≤ b ∧ b < v.base c + v.clusterSize then buf (b - v.base c) else m b := by
  -- After `k` sectors the bytes of these sectors are in place.
  have hsectors : ∀ k ≤ v.sectorsPerCluster,
      ((List.range k).foldl (fun m s => fill m (clusterLba v c s * 512) 512 fun i => buf (s * 512 + i)) m) b =
        if v.base c ≤ b ∧ b < v.base c + 512 * k then buf (b - v.base c) else m b := by
    intro k
    induction k with
    | zero =>
      intro _
      rw [if_neg (by omega)]
      rfl
    | succ k ih =>
      intro hk
      have hlba : clusterLba v c k * 512 = v.base c + 512 * k := by
        rw [g.clusterLba_eq hc (by omega)]
        unfold Vol.base
        omega
      rw [List.range_succ, List.foldl_append, List.foldl_cons, List.foldl_nil, hlba]
      by_cases hin : v.base c + 512 * k ≤ b ∧ b < v.base c + 512 * k + 512
      · have hin' : v.base c ≤ b ∧ b < v.base c + 512 * (k + 1) := by omega
        have hidx : k * 512 + (b - (v.base c + 512 * k)) = b - v.base c := by
          clear ih hlba hc
          omega
        rw [fill_of_mem hin, if_pos hin', hidx]
      · rw [fill_of_not_mem hin, ih (by omega)]
        by_cases hin' : v.base c ≤ b ∧ b < v.base c + 512 * k
        · rw [if_pos hin', if_pos (by omega)]
        · rw [if_neg hin', if_neg (by omega)]
  rw [writeCluster, List.takeWhile_eq_self_iff.mpr fun _ _ => g.canWrite _]
  exact hsectors v.sectorsPerCluster (Nat.le_refl _)

theorem writeCluster_of_not_mem (hc : IsData n c) {buf : Nat → UInt8} {b : Nat}
    (h : ¬(v.base c ≤ b ∧ b < v.base c + v.clusterSize)) : writeCluster v m c buf b = m b := by
  rw [writeCluster_apply g hc, if_neg h]

/-! ## Entries of directories -/

/-- The entries of a cluster stand in the cluster, at multiples of 32. -/
theorem mem_clusterSlots (hc : IsData n c) {a : Nat} :
    a ∈ clusterSlots v c ↔ ∃ i < 16 * v.sectorsPerCluster, a = v.base c + 32 * i := by
  unfold clusterSlots
  rw [List.mem_map]
  have haddr : ∀ i < 16 * v.sectorsPerCluster,
      clusterLba v c (i / 16) * 512 + i % 16 * 32 = v.base c + 32 * i := by
    intro i hi
    rw [g.clusterLba_eq hc (by omega)]
    unfold Vol.base
    omega
  constructor
  · rintro ⟨i, hi, rfl⟩
    exact ⟨i, List.mem_range.mp hi, haddr i (List.mem_range.mp hi)⟩
  · rintro ⟨i, hi, rfl⟩
    exact ⟨i, List.mem_range.mpr hi, haddr i hi⟩

theorem clusterSlots_bound (hc : IsData n c) {a : Nat} (ha : a ∈ clusterSlots v c) :
    v.base c ≤ a ∧ a + 32 ≤ v.base c + v.clusterSize ∧ a % 32 = 0 := by
  obtain ⟨i, hi, rfl⟩ := (mem_clusterSlots g hc).mp ha
  unfold Vol.clusterSize Vol.base
  omega

end

/-! ## Allocation -/

/-- The free data clusters. -/
def freeClusters (v : Vol) (n : Nat) (m : Mem) : Finset Nat :=
  (Finset.range (n + 2)).filter fun c => 2 ≤ c ∧ nextCluster v m c = 0

/-- The FAT has no free entry behind those of the data clusters. -/
def NoSpare (v : Vol) (n : Nat) (m : Mem) : Prop := ∀ k < v.fatEntries, n + 2 ≤ k → scanEntry v m k ≠ 0

/-- `k` clusters can be allocated, or a failure will be noticed. -/
def Enough (v : Vol) (n : Nat) (m : Mem) (k : Nat) : Prop := k ≤ (freeClusters v n m).card ∨ NoSpare v n m

theorem mem_freeClusters : c ∈ freeClusters v n m ↔ IsData n c ∧ nextCluster v m c = 0 := by
  unfold freeClusters
  rw [Finset.mem_filter, Finset.mem_range]
  constructor
  · rintro ⟨hlt, h2, h0⟩
    exact ⟨⟨h2, hlt⟩, h0⟩
  · rintro ⟨⟨h2, hlt⟩, h0⟩
    exact ⟨hlt, h2, h0⟩

variable (g : Geometry v n)
include g

/-- The allocator reads the first FAT. -/
theorem Geometry.scanAddr_eq (hk : k < v.fatEntries) :
    u32 (v.fatLba + k / v.entriesPerSector) * 512 + k % v.entriesPerSector * v.kind.entryBytes
      = v.fatLba * 512 + k * v.kind.entryBytes ∧ (k + 1) * v.kind.entryBytes ≤ v.sectorsPerFat * 512 := by
  have hend : v.fatLba + v.fatCount * v.sectorsPerFat ≤ v.dataLba := g.fatData
  have hone : 1 * v.sectorsPerFat ≤ v.fatCount * v.sectorsPerFat := Nat.mul_le_mul_right _ g.copies
  have hsectors := g.sectors
  unfold Vol.fatEntries at hk
  unfold Vol.entriesPerSector at hk ⊢
  rcases g.kind with h | h
  · rw [h] at hk ⊢
    simp only [fat16] at hk ⊢
    rw [u32_of_lt (by omega)]
    omega
  · rw [h] at hk ⊢
    simp only [fat32] at hk ⊢
    rw [u32_of_lt (by omega)]
    omega

theorem Geometry.scanEntry_eq (hc : c < n + 2) : scanEntry v m c = nextCluster v m c := by
  unfold scanEntry
  rw [g.nextCluster_eq, (g.scanAddr_eq (Nat.lt_of_lt_of_le hc g.entries)).1, g.fatAddr_eq hc g.copies, Nat.zero_mul, Nat.add_zero]

theorem Geometry.mod_eq (hc : c < n + 2) : c % v.kind.clusterMod = c ∧ c % v.kind.entryMod = c := by
  have hnum := g.numbers
  rcases g.kind with h | h
  · rw [h] at hnum ⊢
    simp only [fat16] at hnum ⊢
    omega
  · rw [h] at hnum ⊢
    simp only [fat32] at hnum ⊢
    omega

/-- **The allocator** takes a free data cluster, or says that there is none. -/
theorem allocCluster_cases (h : Enough v n m (k + 1)) :
    (∃ d, allocCluster v m = (some d, writeFatEntry v m d v.kind.eocMark) ∧ IsData n d ∧ nextCluster v m d = 0) ∨
      allocCluster v m = (none, m) := by
  unfold allocCluster
  cases hfree : freeEntry v m with
  | none => exact .inr rfl
  | some k =>
    unfold freeEntry at hfree
    rw [List.find?_range_eq_some] at hfree
    obtain ⟨hentry, hmem, hfirst⟩ := hfree
    have hk := List.mem_range.mp hmem
    rw [g.canRead, Bool.true_and, Bool.and_eq_true, decide_eq_true_eq, decide_eq_true_eq] at hentry
    -- The entry found is the first one, so a free data cluster is not behind it.
    have hlt : k < n + 2 := by
      by_contra hge
      rcases h with hcard | hspare
      · have hne : (freeClusters v n m).Nonempty := Finset.card_pos.mp (by omega)
        obtain ⟨c, hc⟩ := hne
        obtain ⟨hdata, hzero⟩ := mem_freeClusters.mp hc
        have hnot := hfirst c (by have := hdata.2; omega)
        rw [g.canRead, g.scanEntry_eq hdata.2, hzero, (g.mod_eq hdata.2).1] at hnot
        simp [hdata.1] at hnot
      · exact hspare k hk (by omega) hentry.1
    have hwritten : fatEntryWritten v k = true := List.all_eq_true.mpr fun _ _ => g.canChange _
    dsimp only
    rw [(g.mod_eq hlt).1] at hentry ⊢
    rw [g.scanEntry_eq hlt] at hentry
    rw [if_pos hwritten]
    exact .inl ⟨k, rfl, ⟨hentry.2, hlt⟩, hentry.1⟩

end Lyth.Fat
