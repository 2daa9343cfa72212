/-
  THE COPIES OF THE FAT (`fat32_write_fat_entry` and what calls it).

    1. THE PROGRAM.  A FAT32 volume keeps its table several times; every change goes through `write_fat_entry`, which
       reads, changes and writes the sector of the entry in each copy, and stops at a copy that fails.  The upper four
       bits of an entry are RESERVED: the drivers mask them when they read.
    2. THE SPECIFICATION.  `Mirrored`: the copies have the same bytes.  `reserved`: the upper bits of an entry.  Runs
       of `create`, `write` and `unlink` should keep both.
    3. THE CRUX is that a call changes the disk in two ways only, an entry of a cluster that the table has, or bytes
       behind the table (`Tidy.fat`, `Tidy.data`); the rest is that the cluster numbers which a call follows are
       in the table.

  `write_fat_entry` stores the 28-bit value with ZERO upper bits, so that a volume whose free entries have a
  reserved bit set loses it; and its callers ignore that it failed, so that a file is gone with one copy changed
  (`reserved_bits_lost`).  The runs of `fat_mirrored` start with no bit set, and no sector fails.
-/
import Lyth.FatEffects
import Lyth.Lib.Run

namespace Lyth.Fat

open Bytes Word Run

/-! ## Specification -/

/-- Byte `k` of a copy of the FAT. -/
def copyByte (v : Vol) (m : Mem) (copy k : Nat) : UInt8 := m ((v.fatLba + copy * v.sectorsPerFat) * 512 + k)

/-- The copies are the same, sector by sector. -/
def Mirrored (v : Vol) (m : Mem) : Prop :=
  ∀ copy < v.fatCount, ∀ k < v.sectorsPerFat * 512, copyByte v m copy k = copyByte v m 0 k

/-- The bits of an entry that the drivers mask. -/
def reserved (v : Vol) (m : Mem) (copy c : Nat) : Nat :=
  getLE m (fatAddr v copy c) v.kind.entryBytes / v.kind.entryMod

/-- A number that the table has an entry for, or that ends a chain. -/
def Ranged (v : Vol) (x : Nat) : Prop := x < v.fatEntries ∨ v.kind.eocMin ≤ x

instance (v : Vol) (x : Nat) : Decidable (Ranged v x) := inferInstanceAs (Decidable (_ ∨ _))

/-- The entries of the clusters link to clusters of the table and have no reserved bit set. -/
def Orderly (v : Vol) (m : Mem) : Prop :=
  ∀ c < v.fatEntries, 2 ≤ c → Ranged v (nextCluster v m c) ∧ reserved v m 0 c = 0

/-- The numbers that the call starts from are in the table: the cluster of the directory or file, the first cluster of
    the entry that is removed; and the entry of a file is behind the table. -/
def Request.Ranged (v : Vol) (m : Mem) : Request → Prop
  | .create dir _ _ _ => dir.firstCluster < v.fatEntries ∧ slotDir v dir.firstCluster < v.fatEntries
  | .write f _ _ _ _ => f.firstCluster < v.fatEntries ∧ (f.direntLba = 0 ∨ v.fatEnd ≤ f.direntLba)
  | .unlink dir name ok => dir.firstCluster < v.fatEntries ∧
      ∀ a ∈ findLoc v m ok dir.firstCluster name, Fat.Ranged v (direntFirst v m a)

/-- Besides, no sector fails while the call runs. -/
def Call.Ranged (v : Vol) (m : Mem) (call : Call) : Prop := call.io = .sound ∧ call.request.Ranged v m

/-! ## What a call keeps -/

/-- The table on the disk `m` is a mirrored one of the same reserved bits as on `m₀`, and its links stay in it. -/
structure Tidy (v : Vol) (m₀ m : Mem) : Prop where
  mirror : Mirrored v m
  orderly : Orderly v m
  low : ∀ k < 2 * v.kind.entryBytes, copyByte v m 0 k = copyByte v m₀ 0 k

section

variable {v : Vol} {n c : Nat} {m₀ m m' : Mem} (g : Geometry v n) (hn : v.fatEntries = n + 2) {f : Node}

/-- The bytes of an entry are bytes of its copy. -/
theorem reserved_congr (g : Geometry v n) (hc : c < n + 2) {copy copy' : Nat} (hcopy : copy < v.fatCount)
    (hcopy' : copy' < v.fatCount)
    (h : ∀ k < v.kind.entryBytes, copyByte v m' copy' (c * v.kind.entryBytes + k) =
      copyByte v m copy (c * v.kind.entryBytes + k)) : reserved v m' copy' c = reserved v m copy c := by
  have hbytes : ∀ w a b, (∀ k < w, m' (a + k) = m (b + k)) → getLE m' a w = getLE m b w := by
    intro w
    induction w with
    | zero => exact fun _ _ _ => rfl
    | succ w ih =>
      intro a b hab
      have hfirst := hab 0 (by omega)
      rw [Nat.add_zero, Nat.add_zero] at hfirst
      rw [getLE, getLE, hfirst, ih (a + 1) (b + 1) fun k hk => ?_]
      have hk := hab (k + 1) (by omega)
      rwa [Nat.add_comm k 1, ← Nat.add_assoc, ← Nat.add_assoc] at hk
  unfold reserved
  rw [hbytes v.kind.entryBytes (fatAddr v copy' c) (fatAddr v copy c) fun k hk => ?_]
  have hk := h k hk
  rwa [g.fatAddr_eq hc hcopy', g.fatAddr_eq hc hcopy, Nat.add_assoc, Nat.add_assoc]

/-- **The two halves of the claim follow.** -/
theorem Tidy.reserved_eq (g : Geometry v n) (hn : v.fatEntries = n + 2) (hmirror : Mirrored v m₀)
    (hinit : Orderly v m₀) (h : Tidy v m₀ m) {copy : Nat} (hcopy : copy < v.fatCount) (hc : c < v.fatEntries) :
    reserved v m copy c = reserved v m₀ copy c := by
  have hlt : c < n + 2 := by omega
  have hentry := g.entry_lt hlt
  have hfirst : ∀ {m : Mem}, Mirrored v m → reserved v m copy c = reserved v m 0 c := fun hm =>
    reserved_congr g hlt g.copies hcopy fun k hk => hm copy hcopy _ (by omega)
  rw [hfirst h.mirror, hfirst hmirror]
  by_cases h2 : 2 ≤ c
  · rw [(h.orderly c hc h2).2, (hinit c hc h2).2]
  · refine reserved_congr g hlt g.copies g.copies fun k hk => h.low _ ?_
    have hmul : c * v.kind.entryBytes ≤ 1 * v.kind.entryBytes := Nat.mul_le_mul_right _ (by omega)
    omega

section

variable (hn : v.fatEntries = n + 2)
include hn

theorem isData_of_isCluster (hc : v.isCluster c) (hr : Ranged v c) : IsData n c := by
  unfold Vol.isCluster at hc
  simp only [Bool.and_eq_true, decide_eq_true_eq] at hc
  refine ⟨hc.1, ?_⟩
  rcases hr with hr | hr
  · omega
  · omega

theorem Tidy.next (h : Tidy v m₀ m) (hc : IsData n c) : Ranged v (nextCluster v m c) :=
  (h.orderly c (by have := hc.2; omega) hc.1).1

/-- A loop that follows the table stays in it. -/
theorem Tidy.chainList (h : Tidy v m₀ m) (rounds : Nat) (hr : Ranged v c) :
    ∀ d ∈ chainList v m rounds c, IsData n d := by
  induction rounds generalizing c with
  | zero => exact fun d hd => nomatch hd
  | succ rounds ih =>
    intro d hd
    rw [Fat.chainList] at hd
    split at hd
    · rename_i hcluster
      have hc := isData_of_isCluster hn hcluster hr
      rcases List.mem_cons.mp hd with rfl | hd
      · exact hc
      · exact ih (h.next hn hc) d hd
    · cases hd

theorem Tidy.seekCluster (h : Tidy v m₀ m) (k : Nat) (hc : IsData n c) {d : Nat}
    (hd : seekCluster v m k c = some d) : IsData n d := by
  induction k generalizing c with
  | zero => exact Option.some.inj hd ▸ hc
  | succ k ih =>
    unfold Fat.seekCluster at hd
    split at hd
    · rename_i hcluster
      exact ih (isData_of_isCluster hn hcluster (h.next hn hc)) hd
    · cases hd

end

include g hn

section

variable (h : Tidy v m₀ m)
include h

/-- **An entry of a cluster** gets a number of the table. -/
theorem Tidy.fat (hc : IsData n c) {val : Nat} (hval : Ranged v (val % v.kind.entryMod)) :
    Tidy v m₀ (writeFatEntry v m c val) := by
  refine ⟨fun copy hcopy k hk => ?_, fun d hd h2 => ?_, fun k hk => ?_⟩
  · unfold copyByte
    rw [writeFatEntry_apply g hc.2 hcopy hk, writeFatEntry_apply g hc.2 g.copies hk]
    split
    · rfl
    · exact h.mirror copy hcopy k hk
  · by_cases hdc : d = c
    · subst hdc
      refine ⟨by rwa [next_writeFatEntry g hc.2], ?_⟩
      unfold reserved
      rw [entry_writeFatEntry g hc.2]
      have hpos : 0 < v.kind.entryMod := by
        rcases g.kind with hk | hk <;> rw [hk] <;> decide
      exact Nat.div_eq_of_lt (Nat.mod_lt _ hpos)
    · have hd' : d < n + 2 := by omega
      obtain ⟨hlink, hzero⟩ := h.orderly d hd h2
      refine ⟨by rwa [next_writeFatEntry_of_ne g hc.2 hd' hdc], ?_⟩
      unfold reserved
      rwa [entry_writeFatEntry_of_ne g hc.2 hd' hdc]
  · have hmul : 2 * v.kind.entryBytes ≤ c * v.kind.entryBytes := Nat.mul_le_mul_right _ hc.1
    have hentry := g.entry_lt hc.2
    rw [← h.low k hk]
    unfold copyByte
    rw [writeFatEntry_apply g hc.2 g.copies (by omega), if_neg (by omega)]

/-- **Bytes behind the table.** -/
theorem Tidy.data (hfat : ∀ b, b < v.fatEnd * 512 → m' b = m b) : Tidy v m₀ m' := by
  have hbyte : ∀ copy < v.fatCount, ∀ k < v.sectorsPerFat * 512, copyByte v m' copy k = copyByte v m copy k := by
    intro copy hcopy k hk
    refine hfat _ ?_
    have hmul := row_le hcopy v.sectorsPerFat
    unfold Vol.fatEnd
    omega
  refine ⟨fun copy hcopy k hk => ?_, fun d hd h2 => ?_, fun k hk => ?_⟩
  · rw [hbyte copy hcopy k hk, hbyte 0 g.copies k hk]
    exact h.mirror copy hcopy k hk
  · have hd' : d < n + 2 := by omega
    have hentry := g.entry_lt hd'
    obtain ⟨hlink, hzero⟩ := h.orderly d hd h2
    refine ⟨by rwa [next_of_fat g hd' fun b _ hb => hfat b hb], ?_⟩
    rwa [reserved_congr g hd' g.copies g.copies fun k hk => hbyte 0 g.copies _ (by omega)]
  · have hentry := g.entry_lt (show 1 < n + 2 by omega)
    rw [hbyte 0 g.copies k (by omega)]
    exact h.low k hk

theorem Tidy.writeCluster (hc : IsData n c) (buf : Nat → UInt8) : Tidy v m₀ (writeCluster v m c buf) := by
  refine h.data g hn fun b hb => writeCluster_of_not_mem g hc fun hin => ?_
  have hbase := g.base_le c
  omega

/-- Bytes of an entry of a directory. -/
theorem Tidy.fill {a k : Nat} (ha : v.fatEnd * 512 ≤ a) (f : Nat → UInt8) : Tidy v m₀ (fill m a k f) :=
  h.data g hn fun b hb => fill_of_not_mem (by omega)

/-- The allocator takes a cluster of the table, or none. -/
theorem Tidy.alloc :
    (∃ d m', allocCluster v m = (some d, m') ∧ IsData n d ∧ Tidy v m₀ m') ∨ allocCluster v m = (none, m) := by
  have hspare : NoSpare v n m := fun k hk hge => by omega
  rcases allocCluster_cases (k := 0) g (.inr hspare) with ⟨d, hd, hdata, -⟩ | hnone
  · refine .inl ⟨d, _, hd, hdata, h.fat g hn hdata (.inr ?_)⟩
    rcases g.kind with hk | hk <;> rw [hk] <;> decide
  · exact .inr hnone

/-! ### Chains and directories -/

theorem Tidy.growDir (hr : Ranged v (slotDir v c)) :
    Tidy v m₀ (growDir v m c).2 ∧ ∀ a ∈ (growDir v m c).1, v.fatEnd * 512 ≤ a := by
  unfold Fat.growDir
  split
  · exact ⟨h, fun a ha => nomatch ha⟩
  rename_i prev hprev
  have hdata := h.chainList hn _ hr prev (List.mem_of_getLast? hprev)
  rcases h.alloc g hn with ⟨d, m₁, halloc, hd, hm₁⟩ | hnone
  · rw [halloc]
    dsimp only
    rw [if_pos (g.clusterWritten d)]
    refine ⟨(hm₁.writeCluster g hn hd _).fat g hn hdata (.inl ?_), fun a ha => ?_⟩
    · rw [(g.mod_eq hd.2).2]
      have := hd.2
      omega
    · rw [← Option.some.inj (Option.mem_def.mp ha), g.clusterLba_eq hd g.cluster]
      exact g.base_le d
  · rw [hnone]
    exact ⟨h, fun a ha => nomatch ha⟩

theorem Tidy.freeClusterChain (rounds : Nat) (hr : Ranged v c) :
    Tidy v m₀ (freeClusterChain v rounds m c) := by
  induction rounds generalizing m c with
  | zero => exact h
  | succ rounds ih =>
    unfold Fat.freeClusterChain
    split
    · rename_i hcluster
      have hc := isData_of_isCluster hn hcluster hr
      refine ih (h.fat g hn hc (.inl ?_)) (h.next hn hc)
      rw [Nat.zero_mod]
      omega
    · exact h

theorem Tidy.extendChain (k : Nat) (hc : IsData n c) : Tidy v m₀ (extendChain v k m c).2 := by
  induction k generalizing m c with
  | zero => exact h
  | succ k ih =>
    unfold Fat.extendChain
    split
    · rename_i hcluster
      exact ih h (isData_of_isCluster hn hcluster (h.next hn hc))
    rcases h.alloc g hn with ⟨d, m₁, halloc, hd, hm₁⟩ | hnone
    · rw [halloc]
      refine ih ((hm₁.writeCluster g hn hd _).fat g hn hc (.inl ?_)) hd
      rw [(g.mod_eq hd.2).2]
      have := hd.2
      omega
    · rwa [hnone]

theorem Tidy.writeLoop (buf : Nat → UInt8) (size rounds : Nat) {off written : Nat}
    (hr : Ranged v c) : Tidy v m₀ (writeLoop v buf size rounds m c off written).2 := by
  induction rounds generalizing m c off written with
  | zero => exact h
  | succ rounds ih =>
    unfold Fat.writeLoop
    split
    · rename_i hgo
      have hc := isData_of_isCluster hn hgo.2 hr
      have hw := h.writeCluster g hn hc
      have hread : v.canReadCluster c = true := List.all_eq_true.mpr fun _ _ => g.canRead _
      dsimp only
      rw [hread, if_neg (fun h => nomatch h.2), if_pos (g.clusterWritten c)]
      exact ih (hw _) ((hw _).next hn hc)
    · exact h

variable (hroot : v.kind.rootRegion = false)
include hroot

/-- The entries of a directory are behind the table. -/
theorem Tidy.dirSlots {pick : (Nat → Bool) → List Nat → List Nat} (hpick : ∀ p l, pick p l ⊆ l)
    (hr : Ranged v c) {a : Nat} (ha : a ∈ dirSlots pick v m c) : v.fatEnd * 512 ≤ a := by
  unfold Fat.dirSlots isRootRegion at ha
  rw [hroot, Bool.false_and, if_neg Bool.false_ne_true, List.mem_flatMap] at ha
  obtain ⟨d, hd, ha⟩ := ha
  have hdata := h.chainList hn _ hr d (hpick _ _ hd)
  exact (g.base_le d).trans (clusterSlots_bound g hdata ha).1

theorem Tidy.findFreeSlot (hr : Ranged v (slotDir v c)) (ok : Bool) :
    Tidy v m₀ (findFreeSlot v m ok c).2 ∧ ∀ a ∈ (findFreeSlot v m ok c).1, v.fatEnd * 512 ≤ a := by
  unfold Fat.findFreeSlot isRootRegion
  rw [hroot, Bool.false_and, if_neg Bool.false_ne_true]
  split
  · split
    · rename_i ha
      refine ⟨h, fun b hb => ?_⟩
      rw [← Option.some.inj (Option.mem_def.mp hb)]
      exact h.dirSlots g hn hroot (fun _ => List.filter_subset_self) hr (List.mem_of_find?_eq_some ha)
    · exact h.growDir g hn hr
  · exact ⟨h, fun a ha => nomatch ha⟩

/-! ### The calls -/

theorem Tidy.addDirent (dir : Node)
    (hr : Ranged v (slotDir v dir.firstCluster)) (ok : Nat → Bool) (name : List UInt8 × List UInt8) (isDir : Bool)
    {first : Nat} (hfirst : first = 0 ∨ IsData n first) : Tidy v m₀ (addDirent v m ok dir name isDir first).2 := by
  obtain ⟨hslot, haddr⟩ := h.findFreeSlot g hn hroot hr (ok 2)
  unfold Fat.addDirent
  generalize Fat.findFreeSlot v m (ok 2) dir.firstCluster = r at hslot haddr
  obtain ⟨slot, m₁⟩ := r
  cases slot with
  | none =>
    dsimp only
    split
    · rename_i hne
      refine hslot.fat g hn (hfirst.resolve_left hne) (.inl ?_)
      rw [Nat.zero_mod]
      omega
    · exact hslot
  | some a =>
    dsimp only
    rw [if_pos (g.canChange _)]
    exact hslot.fill g hn (haddr a rfl) _

theorem Tidy.dirCreate (ok : Nat → Bool) (dir : Node)
    (hr : Ranged v (slotDir v dir.firstCluster)) (name : List UInt8) (isDir : Bool) :
    Tidy v m₀ (dirCreate v m ok dir name isDir).2 := by
  unfold Fat.dirCreate
  split
  · exact h
  split
  · exact h
  split
  · split
    · unfold newDirCluster
      rcases h.alloc g hn with ⟨d, m₁, halloc, hd, hm₁⟩ | hnone
      · rw [halloc]
        exact (hm₁.writeCluster g hn hd _).addDirent g hn hroot dir hr ok _ true (.inr hd)
      · rwa [hnone]
    · exact h
  · exact h.addDirent g hn hroot dir hr ok _ false (.inl rfl)

theorem Tidy.dirUnlink (ok : Nat → Bool) (dir : Node)
    (hdir : dir.firstCluster < v.fatEntries) (name : List UInt8)
    (hfound : ∀ a ∈ findLoc v m ok dir.firstCluster name, Ranged v (direntFirst v m a)) :
    Tidy v m₀ (dirUnlink v m ok dir name).2 := by
  unfold Fat.dirUnlink
  cases hfind : findLoc v m ok dir.firstCluster name with
  | none => exact h
  | some a =>
    have hslot : a ∈ Fat.dirSlots List.takeWhile v m dir.firstCluster := by
      unfold findLoc at hfind
      split at hfind
      · exact (walkDirLoc_some hfind).1
      · cases hfind
    have herase := h.fill g hn (k := 1) (h.dirSlots g hn hroot (fun p l => (List.takeWhile_prefix p).subset)
      (.inl hdir) hslot) fun _ => 0xE5
    dsimp only
    rw [if_pos (g.canChange _)]
    dsimp only
    split
    · exact herase.freeClusterChain g hn _ (hfound a hfind)
    · exact herase

/-- Where a file's entry is: behind the table, or (the node has none) nowhere. -/
def HasPlace (v : Vol) (f : Node) : Prop := f.direntLba = 0 ∨ v.fatEnd ≤ f.direntLba

theorem Tidy.updateDirent (hf : HasPlace v f) :
    Tidy v m₀ (updateDirent v m f) := by
  unfold Fat.updateDirent
  split
  · exact h
  · rename_i hplace
    have hlba : v.fatEnd ≤ f.direntLba := hf.resolve_left fun h0 => hplace (.inl ⟨hroot, h0⟩)
    refine h.data g hn fun b hb => ?_
    unfold Node.dirent
    rw [putLE_of_not_mem (by omega), putLE_of_not_mem (by omega), putLE_of_not_mem (by omega)]

theorem Tidy.firstBlock (hf : HasPlace v f)
    (hfirst : f.firstCluster < v.fatEntries) :
    Tidy v m₀ (firstBlock v m f).2 ∧ ∀ f' ∈ (firstBlock v m f).1, IsData n f'.firstCluster ∧ HasPlace v f' := by
  unfold Fat.firstBlock
  split
  · rcases h.alloc g hn with ⟨d, m₁, halloc, hd, hm₁⟩ | hnone
    · rw [halloc]
      dsimp only
      rw [if_pos (g.clusterWritten d)]
      refine ⟨(hm₁.writeCluster g hn hd _).updateDirent g hn hroot hf, fun f' hf' => ?_⟩
      rw [← Option.some.inj (Option.mem_def.mp hf')]
      exact ⟨hd, hf⟩
    · rw [hnone]
      exact ⟨h, fun f' hf' => nomatch hf'⟩
  · refine ⟨h, fun f' hf' => ?_⟩
    rw [← Option.some.inj (Option.mem_def.mp hf')]
    exact ⟨⟨by omega, by omega⟩, hf⟩

theorem Tidy.finishWrite (hf : HasPlace v f)
    (offset size : Nat) : Tidy v m₀ (finishWrite v m f offset size).2 := by
  refine h.updateDirent g hn hroot ?_
  split
  · exact hf
  · exact hf

theorem Tidy.fileWrite (hf : HasPlace v f)
    (hfirst : f.firstCluster < v.fatEntries) (ok : Nat → Bool) (offset size : Nat) (buf : Nat → UInt8) :
    Tidy v m₀ (fileWrite v m ok f offset size buf).2.2 := by
  have hblock := h.firstBlock g hn hroot hf hfirst
  have hextend := fun f' m' (hfb : Fat.firstBlock v m f = (some f', m')) =>
    (hfb ▸ hblock).1.extendChain g hn (clustersNeeded v offset size - 1) ((hfb ▸ hblock).2 f' rfl).1
  fun_cases Fat.fileWrite v m ok f offset size buf with
  | case1 => exact h
  | case2 => exact h
  | case3 _ _ m₁ hfb =>
    rw [hfb] at hblock
    exact hblock.1
  | case4 _ _ f' m₁ hfb m₂ hext =>
    have hm := hextend f' m₁ hfb
    rwa [hext] at hm
  | case5 _ _ f' m₁ hfb m₂ hext =>
    have hm := hextend f' m₁ hfb
    rwa [hext] at hm
  | case6 _ _ f' m₁ hfb m₂ hext d hseek =>
    have hm := hextend f' m₁ hfb
    rw [hext] at hm
    rw [hfb] at hblock
    obtain ⟨hdata, hplace⟩ := hblock.2 f' rfl
    have hd := hm.seekCluster hn _ hdata hseek
    have hr : Ranged v d := .inl (by have := hd.2; omega)
    exact (hm.writeLoop g hn buf size size hr).finishWrite g hn hroot hplace offset size

/-- **One call.** -/
theorem Tidy.step {call : Call} (hok : call.Ranged v m) :
    Tidy v m₀ (step v m call).2 := by
  obtain ⟨request, io⟩ := call
  obtain ⟨hio, hok⟩ := hok
  have hv : { v with io } = v := by
    rw [show io = v.io from hio.trans g.io.symm]
  rw [Fat.step, hv]
  cases request with
  | create dir name isDir ok => exact h.dirCreate g hn hroot ok dir (.inl hok.2) name isDir
  | write f offset size buf ok => exact h.fileWrite g hn hroot hok.2 hok.1 ok offset size buf
  | unlink dir name ok => exact h.dirUnlink g hn hroot ok dir hok.1 name hok.2

end

end

/-! ## Whole runs -/

/-- What `fat32_mount` accepts is a FAT32 volume. -/
theorem fat32Mount_kind {m : Mem} {v : Vol} (h : fat32Mount m = some v) : v.kind = fat32 := by
  unfold fat32Mount at h
  split at h
  · cases h
  · split at h
    · cases h
    · rw [← Option.some.inj h]

/-- **The copies stay the same.**  On a mounted FAT32 volume whose copies are the same and whose entries link to
    clusters of the table and have no reserved bit set, after every run of calls on clusters of the table the
    copies are the same, and the reserved bits of every entry are what they were. -/
theorem fat_mirrored {m : Mem} {v : Vol} (hmount : fat32Mount m = some v) (g : Geometry v (v.fatEntries - 2))
    (hmirror : Mirrored v m) (horderly : Orderly v m) {calls : List Call}
    (hok : Guarded (step v) (fun m call => call.Ranged v m) m calls) :
    Mirrored v (exec (step v) m calls).2 ∧
      ∀ copy < v.fatCount, ∀ c < v.fatEntries,
        reserved v (exec (step v) m calls).2 copy c = reserved v m copy c := by
  have hn : v.fatEntries = v.fatEntries - 2 + 2 := by
    have := g.entries
    omega
  have hroot : v.kind.rootRegion = false := by
    rw [fat32Mount_kind hmount]
    rfl
  have htidy₀ : Tidy v m m := ⟨hmirror, horderly, fun _ _ => rfl⟩
  have htidy : Tidy v m (exec (step v) m calls).2 :=
    exec_inv (fun _ _ h hcall => h.step g hn hroot hcall) calls m htidy₀ hok
  exact ⟨htidy.mirror, fun copy hcopy c hc => htidy.reserved_eq g hn hmirror horderly hcopy hc⟩

/-! ## A small volume -/

/-- A table for a root directory of one cluster; the fourth entry, of a free cluster, has the upper byte `high`. -/
def smallTable (high : UInt8) (k : Nat) : UInt8 :=
  if k < 12 then if k = 0 then 0xF8 else if k % 4 = 3 then 0x0F else 0xFF
  else if k = 15 then high
  else 0

/-- A boot sector, two copies of the table and empty clusters of one sector. -/
def smallDisk (high : UInt8) : Mem := fun b =>
  if b < 512 then
    match b with
    | 12 => 2
    | 13 => 1
    | 14 => 1
    | 16 => 2
    | 36 => 1
    | 44 => 2
    | 510 => 0x55
    | 511 => 0xAA
    | _ => 0
  else if b < 1536 then smallTable high (b % 512)
  else 0

def smallVol : Vol where
  kind := fat32
  sectorsPerCluster := 1
  fatCount := 2
  fatLba := 1
  sectorsPerFat := 1
  rootLba := 0
  rootEntryCount := 0
  dataLba := 3
  rootCluster := 2
  io := .sound

/-- The root directory's node. -/
def smallRoot : Node := ⟨true, 2, 0, 0, 0⟩

/-- Every allocation succeeds. -/
def plenty : Nat → Bool := fun _ => true

theorem smallVol_geometry : Geometry smallVol (smallVol.fatEntries - 2) where
  kind := .inr rfl
  cluster := by decide
  copies := by decide
  boot := by decide
  fat := .inr rfl
  root := .inr rfl
  fatData := by decide
  entries := by decide
  numbers := by decide
  sectors := by decide
  io := rfl

instance (v : Vol) (m : Mem) : Decidable (Mirrored v m) :=
  inferInstanceAs (Decidable (∀ copy < _, ∀ k < _, copyByte v m copy k = copyByte v m 0 k))

instance (v : Vol) (m : Mem) : Decidable (Orderly v m) :=
  inferInstanceAs (Decidable (∀ c < v.fatEntries, 2 ≤ c → _ ∧ _))

instance (v : Vol) (m : Mem) : (request : Request) → Decidable (request.Ranged v m)
  | .create .. => inferInstanceAs (Decidable (_ ∧ _))
  | .write .. => inferInstanceAs (Decidable (_ ∧ (_ ∨ _)))
  | .unlink dir name ok =>
    match h : findLoc v m ok dir.firstCluster name with
    | none => decidable_of_iff (dir.firstCluster < v.fatEntries)
        ⟨fun hd => ⟨hd, fun a ha => by rw [h] at ha; cases ha⟩, And.left⟩
    | some a => decidable_of_iff (dir.firstCluster < v.fatEntries ∧ Ranged v (direntFirst v m a))
        ⟨fun hd => ⟨hd.1, fun b hb => by rw [h] at hb; cases hb; exact hd.2⟩, fun hd => ⟨hd.1, hd.2 a h⟩⟩

instance (v : Vol) (m : Mem) (call : Call) : Decidable (call.Ranged v m) := inferInstanceAs (Decidable (_ ∧ _))

/-- The call on a device on which no sector fails. -/
def Request.sound (request : Request) : Call := ⟨request, .sound⟩

/-- A directory and a file are made, the file is written to and the directory removed. -/
def smallRun : List Call :=
  [(Request.create smallRoot [100] true plenty).sound, (Request.create smallRoot [102] false plenty).sound,
    (Request.write ⟨false, 0, 0, 3, 1⟩ 0 3 (fun k => UInt8.ofNat k) plenty).sound,
    (Request.unlink smallRoot [100] plenty).sound]

theorem fat_mirrored_smallRun :
    (fat32Mount (smallDisk 0) = some smallVol ∧ Mirrored smallVol (smallDisk 0) ∧ Orderly smallVol (smallDisk 0) ∧
      Guarded (step smallVol) (fun m call => call.Ranged smallVol m) (smallDisk 0) smallRun) ∧
    Mirrored smallVol (exec (step smallVol) (smallDisk 0) smallRun).2 := by
  have hmount : fat32Mount (smallDisk 0) = some smallVol := by decide +kernel
  have hmirror : Mirrored smallVol (smallDisk 0) := by decide +kernel
  have horderly : Orderly smallVol (smallDisk 0) := by decide +kernel
  have hok : Guarded (step smallVol) (fun m call => call.Ranged smallVol m) (smallDisk 0) smallRun := by
    decide +kernel
  exact ⟨⟨hmount, hmirror, horderly, hok⟩, (fat_mirrored hmount smallVol_geometry hmirror horderly hok).1⟩

/-- **A reserved bit is lost, and a copy is left behind.**  The entry of the free cluster 3 is `0xF0000000` in both
    copies; a new directory takes the cluster, and its entry is `0x0FFFFFFF` in both.  Where it is removed while the
    second copy, sector 2, cannot be written, the call succeeds, and the first copy alone is changed. -/
theorem reserved_bits_lost :
    fat32Mount (smallDisk 0xF0) = some smallVol ∧ Mirrored smallVol (smallDisk 0xF0) ∧
      (let r := exec (step smallVol) (smallDisk 0xF0) [(Request.create smallRoot [100] true plenty).sound]
      reserved smallVol (smallDisk 0xF0) 0 3 = 15 ∧ reserved smallVol r.2 0 3 = 0) ∧
      let m := (exec (step smallVol) (smallDisk 0) [(Request.create smallRoot [100] true plenty).sound]).2
      let r := step smallVol m ⟨.unlink smallRoot [100] plenty, ⟨[], [2]⟩⟩
      Mirrored smallVol m ∧ r.1 = .unlinked true ∧ ¬ Mirrored smallVol r.2 := by
  refine ⟨?_, ?_, ?_, ?_⟩ <;> decide +kernel

end Lyth.Fat
