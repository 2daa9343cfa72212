/-
  FAT16 AND FAT32 VOLUMES (`fs/fat16.c`, `fs/fat32.c`).

    1. THE PROGRAM.  The two drivers are the same text but for the width of a FAT entry, the marks for the end of a
       chain and the root directory, which is a fixed region on FAT16 and a chain of clusters on FAT32.  `Kind`
       holds these differences; every function below is the common text, and `fat16` and `fat32` are the two
       instances.
    2. THE DISK is a memory of bytes: byte `k` of sector `lba` is at `lba * 512 + k`.  Reading a sector, changing some
       bytes and writing it back changes these bytes in place, unless the read or the write FAILS: a call comes with
       the sectors that fail while it runs (`Io`), and every function goes on, gives up or frees what it has
       taken as the source does; `write_fat_entry` stops before the copy that fails.  `kmalloc` may fail too: the `n`-th
       one of a call succeeds when `ok n` says so.
    3. Sector numbers are `uint32_t` sums and wrap.  Loops that follow the FAT are bounded by its number of entries
       (`fatEntries`); a chain without a cycle is shorter.
-/
import Lyth.FatName
import Lyth.Lib.Word

namespace Lyth.Fat

open Bytes Word

/-! ## Volumes -/

/-- Where the two drivers differ: bytes of a FAT entry, the bits of it that count, the least value that ends a
    chain, the mark that the allocator writes, the type of a cluster number, and whether the root directory is a
    region of its own. -/
structure Kind where
  entryBytes : Nat
  entryMod : Nat
  eocMin : Nat
  eocMark : Nat
  clusterMod : Nat
  rootRegion : Bool
deriving DecidableEq

def fat16 : Kind := ⟨2, 2 ^ 16, 0xFFF8, 0xFFFF, 2 ^ 16, true⟩
def fat32 : Kind := ⟨4, 2 ^ 28, 0x0FFFFFF8, 0x0FFFFFFF, 2 ^ 32, false⟩

/-- The sectors that cannot be read, and those that cannot be written. -/
structure Io where
  unreadable : List Nat
  unwritable : List Nat
deriving DecidableEq

/-- Every sector can be read and written. -/
def Io.sound : Io := ⟨[], []⟩

/-- `fat16_vol_t` and `fat32_vol_t`, with the state of the device; sectors have 512 bytes.  A FAT32 volume has no root
    region, a FAT16 volume no root cluster. -/
structure Vol where
  kind : Kind
  sectorsPerCluster : Nat
  fatCount : Nat
  fatLba : Nat
  sectorsPerFat : Nat
  rootLba : Nat
  rootEntryCount : Nat
  dataLba : Nat
  rootCluster : Nat
  io : Io
deriving DecidableEq

/-- `read_sector` succeeds; so does reading a sector and writing it back. -/
def Vol.canRead (v : Vol) (lba : Nat) : Bool := decide (lba ∉ v.io.unreadable)
def Vol.canWrite (v : Vol) (lba : Nat) : Bool := decide (lba ∉ v.io.unwritable)
def Vol.canChange (v : Vol) (lba : Nat) : Bool := v.canRead lba && v.canWrite lba

/-- `cluster_size`. -/
def Vol.clusterSize (v : Vol) : Nat := 512 * v.sectorsPerCluster

/-- The entries in a sector of the FAT, and in the FAT. -/
def Vol.entriesPerSector (v : Vol) : Nat := 512 / v.kind.entryBytes
def Vol.fatEntries (v : Vol) : Nat := v.sectorsPerFat * v.entriesPerSector

/-- `cluster >= 2 && cluster < EOC_MIN`. -/
def Vol.isCluster (v : Vol) (c : Nat) : Bool := decide (2 ≤ c) && decide (c < v.kind.eocMin)

/-! ## The FAT -/

/-- The sector of the entry of cluster `c` in a copy of the FAT, and its address. -/
def fatSector (v : Vol) (copy c : Nat) : Nat :=
  u32 (v.fatLba + copy * v.sectorsPerFat + u32 (c * v.kind.entryBytes) / 512)

def fatAddr (v : Vol) (copy c : Nat) : Nat := fatSector v copy c * 512 + u32 (c * v.kind.entryBytes) % 512

/-- `next_cluster`: the end of the chain if the sector cannot be read. -/
def nextCluster (v : Vol) (m : Mem) (c : Nat) : Nat :=
  if v.canRead (fatSector v 0 c) then getLE m (fatAddr v 0 c) v.kind.entryBytes % v.kind.entryMod
  else if v.kind.rootRegion then v.kind.eocMark else v.kind.eocMin

/-- `write_fat_entry`: every copy gets the value, up to the first one whose sector fails.  The offset in the sector is
    a multiple of the width, so that the check on it does not fail. -/
def writeFatEntry (v : Vol) (m : Mem) (c val : Nat) : Mem :=
  ((List.range v.fatCount).takeWhile fun copy => v.canChange (fatSector v copy c)).foldl
    (fun m copy => putLE m (fatAddr v copy c) v.kind.entryBytes (val % v.kind.entryMod)) m

/-- Its result: no copy failed. -/
def fatEntryWritten (v : Vol) (c : Nat) : Bool :=
  (List.range v.fatCount).all fun copy => v.canChange (fatSector v copy c)

/-- The `k`-th entry of the first FAT, as the allocator reads it: entry `k % n` of sector `k / n`. -/
def scanEntry (v : Vol) (m : Mem) (k : Nat) : Nat :=
  getLE m (u32 (v.fatLba + k / v.entriesPerSector) * 512 + k % v.entriesPerSector * v.kind.entryBytes)
    v.kind.entryBytes % v.kind.entryMod

/-- The entry that the allocator takes; sectors that cannot be read are skipped. -/
def freeEntry (v : Vol) (m : Mem) : Option Nat :=
  (List.range v.fatEntries).find? fun k => v.canRead (u32 (v.fatLba + k / v.entriesPerSector)) &&
    (decide (scanEntry v m k = 0) && decide (2 ≤ k % v.kind.clusterMod))

/-- `alloc_cluster`: the cluster, marked as the end of a chain; `none` is 0. -/
def allocCluster (v : Vol) (m : Mem) : Option Nat × Mem :=
  match freeEntry v m with
  | none => (none, m)
  | some k =>
    let c := k % v.kind.clusterMod
    (if fatEntryWritten v c then some c else none, writeFatEntry v m c v.kind.eocMark)

/-- `free_cluster_chain`: the result of `write_fat_entry` is ignored. -/
def freeClusterChain (v : Vol) : Nat → Mem → Nat → Mem
  | 0, m, _ => m
  | rounds + 1, m, c =>
    if v.isCluster c then freeClusterChain v rounds (writeFatEntry v m c 0) (nextCluster v m c) else m

/-- The clusters that a loop which follows the FAT from `c` visits. -/
def chainList (v : Vol) (m : Mem) : Nat → Nat → List Nat
  | 0, _ => []
  | rounds + 1, c => if v.isCluster c then c :: chainList v m rounds (nextCluster v m c) else []

/-! ## Clusters -/

/-- Sector `s` of cluster `c`. -/
def clusterLba (v : Vol) (c s : Nat) : Nat :=
  u32 (v.dataLba + u32 (c + 2 ^ 32 - 2) * v.sectorsPerCluster + s)

/-- Byte `k` of cluster `c`. -/
def clusterAddr (v : Vol) (c k : Nat) : Nat := clusterLba v c (k / 512) * 512 + k % 512

/-- `read_cluster` succeeds. -/
def Vol.canReadCluster (v : Vol) (c : Nat) : Bool :=
  (List.range v.sectorsPerCluster).all fun s => v.canRead (clusterLba v c s)

/-- `write_cluster`: the sectors up to the first one that fails. -/
def writeCluster (v : Vol) (m : Mem) (c : Nat) (buf : Nat → UInt8) : Mem :=
  ((List.range v.sectorsPerCluster).takeWhile fun s => v.canWrite (clusterLba v c s)).foldl
    (fun m s => fill m (clusterLba v c s * 512) 512 fun k => buf (s * 512 + k)) m

/-- Its result: no sector failed. -/
def clusterWritten (v : Vol) (c : Nat) : Bool :=
  (List.range v.sectorsPerCluster).all fun s => v.canWrite (clusterLba v c s)

/-! ## Directory entries -/

/-- The first cluster in the entry at `a`. -/
def direntFirst (v : Vol) (m : Mem) (a : Nat) : Nat :=
  (getLE m (a + 26) 2 + 2 ^ 16 * getLE m (a + 20) 2) % v.kind.clusterMod

/-- `vfs_node_t` with its `priv_t`. -/
structure Node where
  isDir : Bool
  firstCluster : Nat
  size : Nat
  direntLba : Nat
  direntIdx : Nat
deriving DecidableEq

/-- The address of the node's entry. -/
def Node.dirent (n : Node) : Nat := n.direntLba * 512 + n.direntIdx * 32

/-- `update_dirent`, whose result nobody looks at; only FAT32 leaves a node without an entry alone. -/
def updateDirent (v : Vol) (m : Mem) (n : Node) : Mem :=
  if (v.kind.rootRegion = false ∧ n.direntLba = 0) ∨ v.canChange n.direntLba = false then m
  else
    putLE (putLE (putLE m (n.dirent + 26) 2 n.firstCluster) (n.dirent + 20) 2 (n.firstCluster / 2 ^ 16))
      (n.dirent + 28) 4 n.size

/-- The addresses of the entries of a cluster, and of the root region. -/
def clusterSlots (v : Vol) (c : Nat) : List Nat :=
  (List.range (16 * v.sectorsPerCluster)).map fun i => clusterLba v c (i / 16) * 512 + i % 16 * 32

def rootSlots (v : Vol) : List Nat :=
  (List.range ((v.rootEntryCount * 32 + 511) / 512 * 16)).map fun i => u32 (v.rootLba + i / 16) * 512 + i % 16 * 32

/-- The directory with the first cluster `d` is the root region. -/
def isRootRegion (v : Vol) (d : Nat) : Bool := v.kind.rootRegion && decide (d = 0)

/-- The entries of a directory, in the order in which they are visited.  `pick` says what happens at a sector of the
    root region or a cluster that cannot be read: the search stops there (`takeWhile`) or skips it (`filter`). -/
def dirSlots (pick : (Nat → Bool) → List Nat → List Nat) (v : Vol) (m : Mem) (d : Nat) : List Nat :=
  if isRootRegion v d then pick (fun a => v.canRead (a / 512)) (rootSlots v)
  else (pick v.canReadCluster (chainList v m v.fatEntries d)).flatMap (clusterSlots v)

/-- A free entry: never used, or deleted. -/
def isFreeSlot (m : Mem) (a : Nat) : Bool := decide (m a = 0) || decide (m a = 0xE5)

/-- `walk_dir_loc` with `finddir_loc_cb`.  The buffer for a cluster is the call's first allocation. -/
def findLoc (v : Vol) (m : Mem) (ok : Nat → Bool) (d : Nat) (name : List UInt8) : Option Nat :=
  if isRootRegion v d || ok 0 then walkDirLoc name m (dirSlots List.takeWhile v m d) .init else none

/-- The directory that `find_free_slot` looks into: on FAT32 a directory without a cluster is the root. -/
def slotDir (v : Vol) (d : Nat) : Nat := if v.kind.rootRegion || decide (2 ≤ d) then d else v.rootCluster

/-- The first free entry of a directory. -/
def freeSlot (v : Vol) (m : Mem) (d : Nat) : Option Nat :=
  (dirSlots List.filter v m (slotDir v d)).find? (isFreeSlot m)

/-- A directory without a free entry gets another cluster; whether the link to it was written is ignored. -/
def growDir (v : Vol) (m : Mem) (d : Nat) : Option Nat × Mem :=
  match (chainList v m v.fatEntries (slotDir v d)).getLast? with
  | none => (none, m)
  | some prev =>
    match allocCluster v m with
    | (none, m) => (none, m)
    | (some new, m) =>
      let m := writeCluster v m new fun _ => 0
      if clusterWritten v new then (some (clusterLba v new 0 * 512), writeFatEntry v m prev new)
      else (none, writeFatEntry v m new 0)

/-- `find_free_slot`. -/
def findFreeSlot (v : Vol) (m : Mem) (ok : Bool) (d : Nat) : Option Nat × Mem :=
  if isRootRegion v (slotDir v d) then (freeSlot v m d, m)
  else if ok then
    match freeSlot v m d with
    | some a => (some a, m)
    | none => growDir v m d
  else (none, m)

/-- Byte `k` of a new entry. -/
def direntByte (name8 ext3 : List UInt8) (attr : UInt8) (first k : Nat) : UInt8 :=
  if k < 8 then name8.getD k 32
  else if k < 11 then ext3.getD (k - 8) 32
  else if k = 11 then attr
  else if k = 20 then UInt8.ofNat (first / 2 ^ 16)
  else if k = 21 then UInt8.ofNat (first / 2 ^ 24)
  else if k = 26 then UInt8.ofNat first
  else if k = 27 then UInt8.ofNat (first / 2 ^ 8)
  else 0

/-- The cluster of a new directory: `.` and `..`, the rest empty. -/
def dotCluster (first parent k : Nat) : UInt8 :=
  if k < 32 then direntByte [46] [] 0x10 first k
  else if k < 64 then direntByte [46, 46] [] 0x10 parent (k - 32)
  else 0

/-- The first part of `dir_create` for a directory: its cluster. -/
def newDirCluster (v : Vol) (m : Mem) (dir : Node) : Option Nat × Mem :=
  match allocCluster v m with
  | (none, m) => (none, m)
  | (some first, m) => (some first, writeCluster v m first (dotCluster first (slotDir v dir.firstCluster)))

/-- The second part of `dir_create`: the entry, and the node for it. -/
def addDirent (v : Vol) (m : Mem) (ok : Nat → Bool) (dir : Node) (name : List UInt8 × List UInt8) (isDir : Bool)
    (first : Nat) : Option Node × Mem :=
  match findFreeSlot v m (ok 2) dir.firstCluster with
  | (none, m) => (none, if first ≠ 0 then writeFatEntry v m first 0 else m)
  | (some a, m) =>
    if v.canChange (a / 512) then
      let m := fill m a 32 (direntByte name.1 name.2 (if isDir then 0x10 else 0x20) first)
      (if ok 3 then some ⟨isDir, first, 0, a / 512, a % 512 / 32⟩ else none, m)
    else (none, if first ≠ 0 then writeFatEntry v m first 0 else m)

/-- `dir_create`. -/
def dirCreate (v : Vol) (m : Mem) (ok : Nat → Bool) (dir : Node) (name : List UInt8) (isDir : Bool) :
    Option Node × Mem :=
  match encode83 name with
  | none => (none, m)
  | some name83 =>
    if (findLoc v m ok dir.firstCluster name).isSome then (none, m)
    else if isDir then
      if ok 1 then
        match newDirCluster v m dir with
        | (none, m) => (none, m)
        | (some first, m) => addDirent v m ok dir name83 true first
      else (none, m)
    else addDirent v m ok dir name83 false 0

/-- `dir_unlink`: `true` is success. -/
def dirUnlink (v : Vol) (m : Mem) (ok : Nat → Bool) (dir : Node) (name : List UInt8) : Bool × Mem :=
  match findLoc v m ok dir.firstCluster name with
  | none => (false, m)
  | some a =>
    if v.canChange (a / 512) then
      let first := direntFirst v m a
      let m := fill m a 1 fun _ => 0xE5
      (true, if 2 ≤ first then freeClusterChain v v.fatEntries m first else m)
    else (false, m)

/-! ## File contents -/

/-- `for (…) { cluster = next_cluster(cluster); if (it is none) return; }` -/
def seekCluster (v : Vol) (m : Mem) : Nat → Nat → Option Nat
  | 0, c => some c
  | n + 1, c => if v.isCluster (nextCluster v m c) then seekCluster v m n (nextCluster v m c) else none

/-- The file gets its first cluster. -/
def firstBlock (v : Vol) (m : Mem) (f : Node) : Option Node × Mem :=
  if f.firstCluster < 2 then
    match allocCluster v m with
    | (none, m) => (none, m)
    | (some new, m) =>
      let m := writeCluster v m new fun _ => 0
      if clusterWritten v new then
        let f := { f with firstCluster := new }
        (some f, updateDirent v m f)
      else (none, writeFatEntry v m new 0)
  else (some f, m)

/-- The loop that makes the chain long enough: `n` clusters more behind `cur`, whether or not the new ones and the
    links to them could be written. -/
def extendChain (v : Vol) : Nat → Mem → Nat → Bool × Mem
  | 0, m, _ => (true, m)
  | n + 1, m, cur =>
    if v.isCluster (nextCluster v m cur) then extendChain v n m (nextCluster v m cur)
    else
      match allocCluster v m with
      | (none, m) => (false, m)
      | (some new, m) =>
        extendChain v n (writeFatEntry v (writeCluster v m new fun _ => 0) cur new) new

/-- The loop that writes the data from offset `off` of cluster `c` on: how much has been written, and the disk.  A
    cluster that is not filled is read before, so that its other bytes stay; an error ends the loop. -/
def writeLoop (v : Vol) (buf : Nat → UInt8) (size : Nat) : Nat → Mem → Nat → Nat → Nat → Nat × Mem
  | 0, m, _, _, written => (written, m)
  | rounds + 1, m, c, off, written =>
    if written < size ∧ v.isCluster c then
      let n := if size - written > v.clusterSize - off then v.clusterSize - off else size - written
      if (0 < off ∨ n < v.clusterSize) ∧ v.canReadCluster c = false then (written, m)
      else
        let m' := writeCluster v m c fun k =>
          if off ≤ k ∧ k < off + n then buf (written + (k - off)) else m (clusterAddr v c k)
        if clusterWritten v c then writeLoop v buf size rounds m' (nextCluster v m' c) 0 (written + n)
        else (written, m')
    else (written, m)

/-- `clusters_needed`. -/
def clustersNeeded (v : Vol) (offset size : Nat) : Nat :=
  u32 (u32 (offset + size) + v.clusterSize + 2 ^ 32 - 1) / v.clusterSize

/-- The last part of `file_write`: the size and the entry. -/
def finishWrite (v : Vol) (m : Mem) (f : Node) (offset size : Nat) : Node × Mem :=
  let f := if u32 (offset + size) > f.size then { f with size := u32 (offset + size) } else f
  (f, updateDirent v m f)

/-- `file_write`: the result (`none` is -1), the node and the disk. -/
def fileWrite (v : Vol) (m : Mem) (ok : Nat → Bool) (f : Node) (offset size : Nat) (buf : Nat → UInt8) :
    Option Nat × Node × Mem :=
  if size = 0 then (some 0, f, m)
  else if v.clusterSize = 0 ∨ ok 0 = false then (none, f, m)
  else
    match firstBlock v m f with
    | (none, m) => (none, f, m)
    | (some f, m) =>
      match extendChain v (clustersNeeded v offset size - 1) m f.firstCluster with
      | (false, m) => (none, f, m)
      | (true, m) =>
        match seekCluster v m (offset / v.clusterSize) f.firstCluster with
        | none => (none, f, m)
        | some c =>
          let r := writeLoop v buf size size m c (offset % v.clusterSize) 0
          let e := finishWrite v r.2 f offset size
          (some r.1, e.1, e.2)

/-! ## Mounting -/

/-- `fat32_mount`, as far as the volume goes: the boot sector is at address 0. -/
def fat32Mount (m : Mem) : Option Vol :=
  if m 510 ≠ 0x55 ∨ m 511 ≠ 0xAA then none
  else if getLE m 11 2 ≠ 512 ∨ m 13 = 0 ∨ m 16 = 0 ∨ getLE m 14 2 = 0 ∨ getLE m 22 2 ≠ 0 ∨
      getLE m 17 2 ≠ 0 ∨ getLE m 36 4 = 0 ∨ getLE m 44 4 < 2 then none
  else
    let fatLba := getLE m 14 2
    let dataLba := u32 (fatLba + (m 16).toNat * getLE m 36 4)
    some
      { kind := fat32, sectorsPerCluster := (m 13).toNat, fatCount := (m 16).toNat, fatLba,
        sectorsPerFat := u32 (dataLba + 2 ^ 32 - fatLba) / (m 16).toNat, rootLba := 0, rootEntryCount := 0,
        dataLba, rootCluster := getLE m 44 4, io := .sound }

/-- `fat16_mount`, as far as the volume goes. -/
def fat16Mount (m : Mem) : Option Vol :=
  if m 510 ≠ 0x55 ∨ m 511 ≠ 0xAA then none
  else if getLE m 11 2 ≠ 512 ∨ m 13 = 0 ∨ m 16 = 0 ∨ getLE m 22 2 = 0 ∨ getLE m 17 2 = 0 ∨
      getLE m 14 2 = 0 then none
  else
    let fatLba := getLE m 14 2
    let rootLba := fatLba + (m 16).toNat * getLE m 22 2
    some
      { kind := fat16, sectorsPerCluster := (m 13).toNat, fatCount := (m 16).toNat, fatLba,
        sectorsPerFat := getLE m 22 2, rootLba, rootEntryCount := getLE m 17 2,
        dataLba := rootLba + (getLE m 17 2 * 32 + 511) / 512, rootCluster := 0, io := .sound }

/-! ## Runs -/

/-- A call on a mounted volume: the nodes are the ones that the caller holds. -/
inductive Request
  | create (dir : Node) (name : List UInt8) (isDir : Bool) (ok : Nat → Bool)
  | write (f : Node) (offset size : Nat) (buf : Nat → UInt8) (ok : Nat → Bool)
  | unlink (dir : Node) (name : List UInt8) (ok : Nat → Bool)

/-- The request, and the state of the device while it is served. -/
structure Call where
  request : Request
  io : Io

/-- What the caller gets: the new node, the number of bytes with the node that was written to, or whether the entry
    is gone. -/
inductive Answer
  | created (node : Option Node)
  | wrote (count : Option Nat) (f : Node)
  | unlinked (done : Bool)
deriving DecidableEq

def serve (v : Vol) (m : Mem) : Request → Answer × Mem
  | .create dir name isDir ok =>
    let r := dirCreate v m ok dir name isDir
    (.created r.1, r.2)
  | .write f offset size buf ok =>
    let r := fileWrite v m ok f offset size buf
    (.wrote r.1 r.2.1, r.2.2)
  | .unlink dir name ok =>
    let r := dirUnlink v m ok dir name
    (.unlinked r.1, r.2)

def step (v : Vol) (m : Mem) (call : Call) : Answer × Mem := serve { v with io := call.io } m call.request

end Lyth.Fat
