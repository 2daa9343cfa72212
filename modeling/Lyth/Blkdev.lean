/-
  Block devices and the block cache (`drivers/disk/blkdev.c`, with the transfers of `ata.c` and `ahci.c`).

    1. The program.  A table of up to 16 devices: disks, and partitions, which hand a request on to their
       parent at an offset.  Reads of a single sector go through a direct-mapped cache of 128 entries, keyed by
       DEVICE and sector number; writes go to the device and then into the cache under the key of the device
       they were made through.
    2. Specification.  A successful read returns, sector by sector, what was last written successfully to that
       sector of the disk, through whatever device (`record`).
    3. Crux.  The same sector has one key for each device that covers it.  A write through a partition passes
       through its parent, so both keys are renewed, but one through the disk does not reach the keys of its
       partitions: `NoForeign` is the condition that no such entry is in the cache.  And a miss reads into
       the data of an entry that is still valid for another key: a command that fails half-way leaves them
       under that key (`Spared`).

  A command on the ATA bus transfers some first part of its sectors and fails on the next one, as `fate`
  tells.  An AHCI command is done or fails, and if it fails it may have left anything in the buffer
  (`spill`) or on the disk (`litter`); after that it transfers nothing more.
-/
import Lyth.Lib.Cache
import Lyth.Lib.Run
import Lyth.Lib.Word

namespace Lyth.Blkdev

open Cache Run Word

/-! ## Devices -/

/-- `ATA_SECTOR_SIZE`. -/
abbrev ataSectorSize : Nat := 512

/-- `BLK_CACHE_SIZE`. -/
abbrev blkCacheSize : Nat := 128

/-- The bytes of a sector. -/
abbrev Sector : Type := Fin ataSectorSize → UInt8

/-- The drives: on the ATA bus, or behind the AHCI controller. -/
inductive Drive
  | ata (drive : Fin 2)
  | ahci (drive : Nat)
deriving DecidableEq

/-- What `ops` and `priv` of a device are: the drive, or the partition context. -/
inductive Ops
  | disk (drive : Drive)
  | part (parent offset size : Nat)
deriving DecidableEq

/-- `blkdev_t`: the fields that reading and writing use. -/
structure Device where
  blockSize : Nat
  blockCount : Nat
  ops : Ops
deriving DecidableEq

/-- The sectors a drive can have: an LBA28 drive `2 ^ 28`, the others as many as an `unsigned int` counts. -/
def Drive.limit : Drive → Nat
  | .ata _ => 2 ^ 28
  | .ahci _ => 2 ^ 32 - 1

theorem Drive.limit_lt (drive : Drive) : drive.limit < 2 ^ 32 := by
  cases drive with
  | ata _ => show 2 ^ 28 < 2 ^ 32; decide
  | ahci _ => show 2 ^ 32 - 1 < 2 ^ 32; decide

/-- The device table: a disk has the sectors of its drive, and a partition is registered on a disk, with its
    size as block count and the block size of its parent. -/
structure Table where
  devices : Nat → Option Device
  disks : ∀ index dev drive, devices index = some dev → dev.ops = .disk drive →
    dev.blockCount ≤ drive.limit
  parts : ∀ index dev parent offset size, devices index = some dev →
    dev.ops = .part parent offset size → dev.blockCount = size ∧ size < 2 ^ 32 ∧
      ∃ pdev drive, devices parent = some pdev ∧ pdev.ops = .disk drive

/-! ## Drives -/

/-- The drives' sectors, what becomes of their commands, and the block cache.  The `k`-th command transfers at
    most `fate k` sectors; if it goes to the AHCI controller and fails, `spill k` is what it has left at the
    start of the buffer, and `litter k i` what it has left in the `i`-th sector of the disk, if anything. -/
structure State where
  sectors : Drive × Nat → Sector
  fate : Nat → Nat
  spill : Nat → Option Sector
  litter : Nat → Nat → Option Sector
  commands : Nat
  cache : Slots (Nat × Nat) Sector blkCacheSize

/-- One command has been given. -/
def State.issue (s : State) : State := { s with commands := s.commands + 1 }

def State.setCache (s : State) (c : Slots (Nat × Nat) Sector blkCacheSize) : State := { s with cache := c }

/-- How many of `n` sectors the next command reports: PIO stops at a sector, DMA is done with all or fails. -/
def transferred (s : State) (n : Nat) : Drive → Nat
  | .ata _ => min n (s.fate s.commands)
  | .ahci _ => if n ≤ s.fate s.commands then n else 0

/-- The sector number that a command carries: LBA28 has 28 bits. -/
def Drive.address (drive : Drive) (lba : Nat) : Nat :=
  match drive with
  | .ata _ => lba % 2 ^ 28
  | .ahci _ => lba

/-- What the next command, a read that fails, leaves at the start of the buffer. -/
def spilled (s : State) : Drive → Option Sector
  | .ata _ => none
  | .ahci _ => s.spill s.commands

/-- The sectors after the next command, a write of `n` sectors that fails. -/
def littered (s : State) (lba n : Nat) : Drive → Drive × Nat → Sector
  | .ata _ => s.sectors
  | .ahci d => fun p =>
    if p.1 = .ahci d ∧ lba ≤ p.2 ∧ p.2 < lba + n then (s.litter s.commands (p.2 - lba)).getD (s.sectors p)
    else s.sectors p

/-- The sectors that a read has got, or -1, with what is at the start of the buffer then. -/
abbrev Got : Type := Except (Option Sector) (List Sector)

/-- `ata_read(drive, lba, count, buf)` and `ahci_port_rw` for a read. -/
def driveRead (drive : Drive) (s : State) (lba n : Nat) : Got × State :=
  let got := transferred s n drive
  if got = 0 then (.error (spilled s drive), s.issue)
  else (.ok ((List.range got).map fun i => s.sectors (drive, drive.address lba + i)), s.issue)

/-- `ata_write(drive, lba, count, buf)` and `ahci_port_rw` for a write: how many sectors were written. -/
def driveWrite (drive : Drive) (s : State) (lba : Nat) (data : List Sector) : Option Nat × State :=
  let got := transferred s data.length drive
  if got = 0 then (none, { s.issue with sectors := littered s (drive.address lba) data.length drive })
  else
    (some got, { s.issue with
      sectors := putAll s.sectors (fun i => (drive, drive.address lba + i)) (data.take got) })

/-- The sectors of one command: 127 on the ATA bus, 128 for AHCI. -/
def Drive.chunk : Drive → Nat
  | .ata _ => 127
  | .ahci _ => 128

/-- The loop of `ata_blkdev_read` and `ahci_blkdev_read`; each round has at least one sector, so `count` of
    them are enough. -/
def readLoop (drive : Drive) : Nat → State → Nat → Nat → List Sector → Got × State
  | 0, s, _, _, got => (.ok got, s)
  | fuel + 1, s, lba, count, got =>
    if count = 0 then (.ok got, s)
    else
      let n := if count > drive.chunk then drive.chunk else count
      match driveRead drive s lba n with
      | (.error spill, s) => (if got.length > 0 then .ok got else .error spill, s)
      | (.ok data, s) =>
        if data.length < n then (.ok (got ++ data), s)
        else readLoop drive fuel s (u32 (lba + data.length)) (count - data.length) (got ++ data)

/-- The loop of `ata_blkdev_write` and `ahci_blkdev_write`. -/
def writeLoop (drive : Drive) : Nat → State → Nat → List Sector → Nat → Option Nat × State
  | 0, s, _, _, total => (some total, s)
  | fuel + 1, s, lba, data, total =>
    if data.length = 0 then (some total, s)
    else
      let n := if data.length > drive.chunk then drive.chunk else data.length
      match driveWrite drive s lba (data.take n) with
      | (none, s) => (if total > 0 then some total else none, s)
      | (some got, s) =>
        if got < n then (some (total + got), s)
        else writeLoop drive fuel s (u32 (lba + got)) (data.drop got) (total + got)

/-- `ata_blkdev_read`, `ahci_blkdev_read`. -/
def diskRead (drive : Drive) (s : State) (lba count : Nat) : Got × State :=
  readLoop drive count s lba count []

/-- `ata_blkdev_write`, `ahci_blkdev_write`. -/
def diskWrite (drive : Drive) (s : State) (lba : Nat) (data : List Sector) : Option Nat × State :=
  writeLoop drive data.length s lba data 0

/-! ## The block cache -/

/-- `blk_cache_hash(dev_index, lba)`. -/
def blkCacheHash (k : Nat × Nat) : Fin blkCacheSize :=
  Fin.ofNat blkCacheSize (u32 (k.1 * 2654435761) ^^^ u32 (k.2 * 2246822519))

/-- What a read that failed has left goes into the data of a slot of the cache. -/
def State.spoil (s : State) (slot : Fin blkCacheSize) : Option Sector → State
  | none => s
  | some data => s.setCache (overwrite s.cache slot data)

/-- `blk_cache_read_single(index, lba, buf)`.  The device reads into the entry itself, valid or not, and only if
    it succeeds does the entry get its key.  Who calls finds the buffer as it was if the read fails. -/
def blkCacheReadSingle (read : State → Nat → Nat → Got × State) (index : Nat)
    (s : State) (lba : Nat) : Got × State :=
  match lookup blkCacheHash s.cache (index, lba) with
  | some data => (.ok [data], s)
  | none =>
    match read s lba 1 with
    | (.ok [data], s) => (.ok [data], s.setCache (store blkCacheHash s.cache (index, lba) data))
    | (.ok _, s) => (.error none, s)
    | (.error spill, s) => (.error none, s.spoil (blkCacheHash (index, lba)) spill)

/-- `blk_cache_write_single`, for the sectors of a buffer. -/
def blkCacheWrite (index : Nat) (s : State) (lba : Nat) (data : List Sector) : State :=
  s.setCache (storeAll blkCacheHash s.cache (fun i => (index, lba + i)) data)

/-- `blk_cache_invalidate_range(index, lba, count)`. -/
def blkCacheInvalidateRange (index : Nat) (s : State) (lba count : Nat) : State :=
  if count = 0 then s
  else
    s.setCache (dropKeys (fun k => decide (k.1 = index) && decide (lba ≤ k.2) &&
      decide (k.2 < u32 (lba + count))) s.cache)

/-! ## Reading and writing -/

/-- `blkdev_read(index, lba, count, buf)` for a device whose `ops.read` is `read`. -/
def readBody (read : State → Nat → Nat → Got × State) (index : Nat) (dev : Device)
    (s : State) (lba count : Nat) : Got × State :=
  if count = 0 then (.ok [], s)
  else if lba ≥ dev.blockCount then (.error none, s)
  else
    let count := if count > dev.blockCount - lba then dev.blockCount - lba else count
    if count = 1 ∧ dev.blockSize = ataSectorSize then blkCacheReadSingle read index s lba
    else read s lba count

/-- `blkdev_write(index, lba, count, buf)` for a device whose `ops.write` is `write`; `count` is the length
    of the buffer. -/
def writeBody (write : State → Nat → List Sector → Option Nat × State) (index : Nat) (dev : Device)
    (s : State) (lba : Nat) (data : List Sector) : Option Nat × State :=
  if data.length = 0 then (some 0, s)
  else if lba ≥ dev.blockCount then (none, s)
  else
    let data := if data.length > dev.blockCount - lba then data.take (dev.blockCount - lba) else data
    match write s lba data with
    | (none, s) => (none, s)
    | (some wrote, s) =>
      if wrote = 0 then (some 0, s)
      else if dev.blockSize = ataSectorSize then
        (some wrote, blkCacheWrite index s lba (data.take wrote))
      else (some wrote, blkCacheInvalidateRange index s lba wrote)

/-- `blkdev_read` of the parent of a partition: a disk. -/
def parentRead (T : Table) (parent : Nat) (s : State) (lba count : Nat) : Got × State :=
  match T.devices parent with
  | some dev =>
    match dev.ops with
    | .disk drive => readBody (diskRead drive) parent dev s lba count
    | .part .. => (.error none, s)
  | none => (.error none, s)

def parentWrite (T : Table) (parent : Nat) (s : State) (lba : Nat) (data : List Sector) :
    Option Nat × State :=
  match T.devices parent with
  | some dev =>
    match dev.ops with
    | .disk drive => writeBody (diskWrite drive) parent dev s lba data
    | .part .. => (none, s)
  | none => (none, s)

/-- `part_blkdev_read(priv, lba, count, buf)`. -/
def partBlkdevRead (T : Table) (parent offset size : Nat) (s : State) (lba count : Nat) :
    Got × State :=
  if lba ≥ size then (.error none, s)
  else
    parentRead T parent s (u32 (offset + lba)) (if u32 (lba + count) > size then size - lba else count)

/-- `part_blkdev_write(priv, lba, count, buf)`. -/
def partBlkdevWrite (T : Table) (parent offset size : Nat) (s : State) (lba : Nat)
    (data : List Sector) : Option Nat × State :=
  if lba ≥ size then (none, s)
  else
    parentWrite T parent s (u32 (offset + lba))
      (if u32 (lba + data.length) > size then data.take (size - lba) else data)

/-- `blkdev_read(index, lba, count, buf)`. -/
def blkdevRead (T : Table) (s : State) (index lba count : Nat) : Got × State :=
  match T.devices index with
  | none => (.error none, s)
  | some dev =>
    match dev.ops with
    | .disk drive => readBody (diskRead drive) index dev s lba count
    | .part parent offset size => readBody (partBlkdevRead T parent offset size) index dev s lba count

/-- `blkdev_write(index, lba, count, buf)`. -/
def blkdevWrite (T : Table) (s : State) (index lba : Nat) (data : List Sector) : Option Nat × State :=
  match T.devices index with
  | none => (none, s)
  | some dev =>
    match dev.ops with
    | .disk drive => writeBody (diskWrite drive) index dev s lba data
    | .part parent offset size => writeBody (partBlkdevWrite T parent offset size) index dev s lba data

/-! ## Places on the disks -/

/-- The drive of a disk. -/
def Table.driveOf (T : Table) (index : Nat) : Drive :=
  match T.devices index with
  | some ⟨_, _, .disk drive⟩ => drive
  | _ => .ata 0

/-- The sector of a drive that a sector of a device is. -/
def place (T : Table) (k : Nat × Nat) : Drive × Nat :=
  match T.devices k.1 with
  | some ⟨_, _, .part parent offset _⟩ => (T.driveOf parent, u32 (offset + k.2))
  | _ => (T.driveOf k.1, k.2)

/-- The sector is one of the device. -/
def Covers (T : Table) (k : Nat × Nat) : Prop :=
  ∃ dev, T.devices k.1 = some dev ∧ k.2 < dev.blockCount

/-- Every sector in the cache is as on the disk. -/
def Inv (T : Table) (s : State) : Prop :=
  Agrees blkCacheHash (Covers T) s.cache fun k => s.sectors (place T k)

section

variable {T : Table} {s s' : State} {index lba parent offset size : Nat} {dev : Device} {drive : Drive}

section

variable (hdev : T.devices index = some dev)
include hdev

theorem place_disk (hops : dev.ops = .disk drive) (lba : Nat) :
    place T (index, lba) = (drive, lba) := by
  obtain ⟨_, _, _⟩ := dev
  cases hops
  simp only [place, Table.driveOf, hdev]

theorem place_part (hops : dev.ops = .part parent offset size)
    (lba : Nat) : place T (index, lba) = (T.driveOf parent, u32 (offset + lba)) := by
  obtain ⟨_, _, _⟩ := dev
  cases hops
  simp only [place, hdev]

theorem Table.blockCount_lt : dev.blockCount < 2 ^ 32 := by
  cases hops : dev.ops with
  | disk drive =>
    have hle := T.disks index dev drive hdev hops
    have hlimit := drive.limit_lt
    omega
  | part parent offset size =>
    obtain ⟨hsize, hlt, _⟩ := T.parts index dev parent offset size hdev hops
    rwa [hsize]

theorem covers_of_lt {i : Nat} (h : lba + i < dev.blockCount) :
    Covers T (index, lba + i) := ⟨dev, hdev, h⟩

end

theorem Table.covers_lt (hcovers : Covers T (index, lba)) : lba < 2 ^ 32 := by
  obtain ⟨dev, hdev, hlt⟩ := hcovers
  exact hlt.trans (Table.blockCount_lt hdev)

/-- Two sectors of one device are different sectors of the drive. -/
theorem place_inj {a b : Nat} (ha : Covers T (index, a)) (hb : Covers T (index, b))
    (heq : place T (index, a) = place T (index, b)) : a = b := by
  have ha' := Table.covers_lt ha
  have hb' := Table.covers_lt hb
  obtain ⟨dev, hdev, _⟩ := ha
  cases hops : dev.ops with
  | disk drive =>
    rw [place_disk hdev hops, place_disk hdev hops] at heq
    exact congrArg Prod.snd heq
  | part parent offset size =>
    rw [place_part hdev hops, place_part hdev hops] at heq
    have hmod : u32 (offset + a) = u32 (offset + b) := congrArg Prod.snd heq
    simp only [u32] at hmod
    omega

variable {a i k : Nat}

/-- A sum that stays in range may be taken before or after the reduction. -/
theorem u32_add_of_lt (h : u32 a + i < 2 ^ 32) : u32 (a + i) = u32 a + i := by
  simp only [u32] at *
  omega

/-- A sector of a partition is one of its parent. -/
theorem place_parent (hdev : T.devices index = some dev) (hops : dev.ops = .part parent offset size)
    (hcovers : Covers T (parent, u32 (offset + lba) + i)) :
    place T (index, lba + i) = place T (parent, u32 (offset + lba) + i) := by
  obtain ⟨_, _, pdev, drive, hpdev, hpops⟩ := T.parts index dev parent offset size hdev hops
  have hdrive : T.driveOf parent = drive := by
    obtain ⟨_, _, _⟩ := pdev
    cases hpops
    simp only [Table.driveOf, hpdev]
  rw [place_part hdev hops, place_disk hpdev hpops, hdrive, ← Nat.add_assoc,
    u32_add_of_lt (Table.covers_lt hcovers)]

/-! ## Commands and their loops -/

theorem transferred_le (s : State) (n : Nat) (drive : Drive) : transferred s n drive ≤ n := by
  cases drive with
  | ata d => exact Nat.min_le_left ..
  | ahci d =>
    show (if n ≤ s.fate s.commands then n else 0) ≤ n
    split
    · exact Nat.le_refl n
    · exact Nat.zero_le n

theorem address_of_lt (h : a < drive.limit) : drive.address a = a := by
  cases drive with
  | ata d => exact Nat.mod_eq_of_lt h
  | ahci d => rfl

/-- The sectors from `lba` on. -/
def run (s : State) (drive : Drive) (lba k : Nat) : List Sector :=
  (List.range k).map fun i => s.sectors (drive, lba + i)

theorem run_add (s : State) (drive : Drive) (lba k l : Nat) :
    run s drive lba (k + l) = run s drive lba k ++ run s drive (lba + k) l := by
  simp only [run, List.range_add, List.map_append, List.map_map, Nat.add_assoc]
  rfl

theorem readLoop_spec (fuel : Nat) : ∀ {s : State} {lba count : Nat} {got : List Sector},
    lba + count ≤ drive.limit →
    (readLoop drive fuel s lba count got).2.sectors = s.sectors ∧
    (readLoop drive fuel s lba count got).2.cache = s.cache ∧
    ∀ xs, (readLoop drive fuel s lba count got).1 = .ok xs →
      ∃ k ≤ count, xs = got ++ run s drive lba k := by
  have hnone : ∀ {s : State} {lba count : Nat} {got : List Sector},
      ∃ k ≤ count, got = got ++ run s drive lba k :=
    ⟨0, Nat.zero_le _, (List.append_nil _).symm⟩
  induction fuel with
  | zero =>
    intro s lba count got _
    refine ⟨rfl, rfl, fun xs hxs => ?_⟩
    cases hxs
    exact hnone
  | succ fuel ih =>
    intro s lba count got hlimit
    unfold readLoop
    split
    · refine ⟨rfl, rfl, fun xs hxs => ?_⟩
      cases hxs
      exact hnone
    dsimp only
    generalize hn : (if count > drive.chunk then drive.chunk else count) = n
    have hle : n ≤ count := by
      rw [← hn]
      split <;> omega
    have haddr : drive.address lba = lba := address_of_lt (by omega)
    unfold driveRead
    have hgot := transferred_le s n drive
    generalize transferred s n drive = k at *
    rw [haddr]
    by_cases hk : k = 0
    · rw [if_pos hk]
      refine ⟨rfl, rfl, fun xs hxs => ?_⟩
      dsimp only at hxs
      split at hxs
      · cases hxs
        exact hnone
      · cases hxs
    · rw [if_neg hk]
      dsimp only
      rw [List.length_map, List.length_range]
      split
      · refine ⟨rfl, rfl, fun xs hxs => ?_⟩
        cases hxs
        exact ⟨k, by omega, rfl⟩
      have hu : u32 (lba + k) = lba + k := u32_of_lt (by have := drive.limit_lt; omega)
      rw [hu]
      obtain ⟨hsec, hcache, hdata⟩ := @ih s.issue (lba + k) (count - k)
        (got ++ (List.range k).map fun i => s.sectors (drive, lba + i)) (by omega)
      refine ⟨hsec, hcache, fun xs hxs => ?_⟩
      obtain ⟨l, hl, heq⟩ := hdata xs hxs
      refine ⟨k + l, by omega, ?_⟩
      rwa [run_add, ← List.append_assoc]

/-- The writes of a device from `lba` on. -/
abbrev onDrive (drive : Drive) (lba : Nat) (i : Nat) : Drive × Nat := (drive, lba + i)

/-- A write that fails leaves the disks as they were. -/
def Tidy (s : State) : Prop := ∀ k i, s.litter k i = none

theorem Tidy.littered (h : Tidy s) (lba n : Nat) (drive : Drive) : littered s lba n drive = s.sectors := by
  cases drive with
  | ata d => rfl
  | ahci d =>
    funext p
    have hnone := h s.commands (p.2 - lba)
    simp only [Blkdev.littered, hnone, Option.getD_none, ite_self]

theorem writeLoop_spec (fuel : Nat) : ∀ {s : State} {lba : Nat} {data : List Sector} {total : Nat},
    lba + data.length ≤ drive.limit → Tidy s → ∃ k ≤ data.length,
    ((writeLoop drive fuel s lba data total).1 = some (total + k) ∨
      (writeLoop drive fuel s lba data total).1 = none ∧ total + k = 0) ∧
    (writeLoop drive fuel s lba data total).2.sectors
      = putAll s.sectors (onDrive drive lba) (data.take k) ∧
    (writeLoop drive fuel s lba data total).2.cache = s.cache := by
  induction fuel with
  | zero => exact fun _ _ => ⟨0, Nat.zero_le _, .inl rfl, rfl, rfl⟩
  | succ fuel ih =>
    intro s lba data total hlimit htidy
    unfold writeLoop
    split
    · exact ⟨0, Nat.zero_le _, .inl rfl, rfl, rfl⟩
    generalize hn : (if data.length > drive.chunk then drive.chunk else data.length) = n
    have hle : n ≤ data.length := by
      rw [← hn]
      split <;> omega
    have haddr : drive.address lba = lba := address_of_lt (by omega)
    have hlen : (data.take n).length = n := by rw [List.length_take]; omega
    unfold driveWrite
    dsimp only
    rw [hlen]
    have hgot := transferred_le s n drive
    generalize transferred s n drive = k at *
    have htake : (data.take n).take k = data.take k := by rw [List.take_take, Nat.min_eq_left hgot]
    rw [haddr, htake]
    by_cases hk : k = 0
    · rw [if_pos hk, htidy.littered]
      refine ⟨0, Nat.zero_le _, ?_, rfl, rfl⟩
      dsimp only
      split
      · exact .inl rfl
      · exact .inr ⟨rfl, by omega⟩
    · rw [if_neg hk]
      dsimp only
      split
      · exact ⟨k, by omega, .inl rfl, rfl, rfl⟩
      have hu : u32 (lba + k) = lba + k := u32_of_lt (by have := drive.limit_lt; omega)
      have hdrop : (data.drop k).length = data.length - k := List.length_drop
      rw [hu]
      obtain ⟨l, hl, hres, hsec, hcache⟩ := @ih
        { s.issue with sectors := putAll s.sectors (onDrive drive lba) (data.take k) } (lba + k)
        (data.drop k) (total + k) (by omega) htidy
      refine ⟨k + l, by omega, ?_, ?_, hcache⟩
      · rwa [← Nat.add_assoc]
      · have hlk : (data.take k).length = k := by rw [List.length_take]; omega
        rw [List.take_add, putAll_append, hlk]
        refine hsec.trans (putAll_congr _ _ fun i _ => ?_)
        show (drive, lba + k + i) = (drive, lba + (k + i))
        rw [Nat.add_assoc]

/-! ## Reading -/

/-- What a read of a device does: the disks stay, and if it succeeds the cache stays right and the sectors
    read, at most `count`, are those of the disk. -/
structure Reads (T : Table) (s : State) (index lba count : Nat) (r : Got × State) :
    Prop where
  sectors : r.2.sectors = s.sectors
  inv : ∀ xs, r.1 = .ok xs → Inv T r.2
  length : ∀ xs, r.1 = .ok xs → xs.length ≤ count
  data : ∀ xs, r.1 = .ok xs → ∀ i (hi : i < xs.length),
    Covers T (index, lba + i) ∧ xs[i] = s.sectors (place T (index, lba + i))

theorem Reads.failed {spill : Option Sector} (count : Nat) (hsec : s'.sectors = s.sectors) :
    Reads T s index lba count (.error spill, s') := ⟨hsec, nofun, nofun, nofun⟩

theorem Reads.mono {count n : Nat} {r : Got × State} (h : Reads T s index lba n r)
    (hle : n ≤ count) : Reads T s index lba count r :=
  ⟨h.sectors, h.inv, fun xs hxs => (h.length xs hxs).trans hle, h.data⟩

theorem inv_of_same (h : Inv T s) (hsec : s'.sectors = s.sectors) (hcache : s'.cache = s.cache) :
    Inv T s' := by
  unfold Inv
  rwa [hsec, hcache]

theorem blkCacheReadSingle_reads {read : State → Nat → Nat → Got × State}
    (h : Inv T s) (hcovers : Covers T (index, lba)) (hread : Reads T s index lba 1 (read s lba 1)) :
    Reads T s index lba 1 (blkCacheReadSingle read index s lba) := by
  unfold blkCacheReadSingle
  split
  · rename_i hlookup
    refine ⟨rfl, fun _ _ => h, fun xs hxs => ?_, fun xs hxs i hi => ?_⟩
    · cases hxs
      exact Nat.le_refl 1
    · cases hxs
      obtain rfl : i = 0 := Nat.lt_one_iff.mp hi
      exact ⟨hcovers, Agrees.lookup h hlookup⟩
  · generalize read s lba 1 = r at *
    obtain ⟨data, s'⟩ := r
    split
    · rename_i x s'' heq
      cases heq
      obtain ⟨_, hx⟩ := hread.data [x] rfl 0 Nat.zero_lt_one
      have hstore := AgreesOff.store (hread.inv _ rfl) hcovers (hx.trans (congrFun hread.sectors.symm _))
      exact ⟨hread.sectors, fun _ _ => hstore.mono fun _ _ hk => hk.1, hread.length, hread.data⟩
    · rename_i heq
      cases heq
      exact .failed 1 hread.sectors
    · rename_i spill s'' heq
      cases heq
      refine .failed 1 (Eq.trans ?_ hread.sectors)
      cases spill with
      | none => rfl
      | some data => rfl

theorem readBody_reads {read : State → Nat → Nat → Got × State} (h : Inv T s)
    (hdev : T.devices index = some dev)
    (hread : ∀ count, lba + count ≤ dev.blockCount → Reads T s index lba count (read s lba count))
    (count : Nat) : Reads T s index lba count (readBody read index dev s lba count) := by
  unfold readBody
  split
  · refine ⟨rfl, fun _ _ => h, fun xs hxs => ?_, fun xs hxs i hi => ?_⟩
    · cases hxs
      exact Nat.zero_le _
    · cases hxs
      exact absurd hi (Nat.not_lt_zero i)
  split
  · exact .failed count rfl
  dsimp only
  generalize hn : (if count > dev.blockCount - lba then dev.blockCount - lba else count) = n
  have hle : n ≤ count ∧ lba + n ≤ dev.blockCount := by
    rw [← hn]
    split <;> omega
  refine Reads.mono ?_ hle.1
  split
  · rename_i hone
    rw [hone.1]
    exact blkCacheReadSingle_reads h ⟨dev, hdev, by omega⟩ (hread 1 (by omega))
  · exact hread n hle.2

theorem diskRead_reads (h : Inv T s) (hdev : T.devices index = some dev) (hops : dev.ops = .disk drive)
    (count : Nat) (hrange : lba + count ≤ dev.blockCount) :
    Reads T s index lba count (diskRead drive s lba count) := by
  have hlimit := T.disks index dev drive hdev hops
  obtain ⟨hsec, hcache, hdata⟩ := @readLoop_spec drive count s lba count [] (by omega)
  refine ⟨hsec, fun _ _ => inv_of_same h hsec hcache, fun xs hxs => ?_, fun xs hxs i hi => ?_⟩
  · obtain ⟨k, hk, rfl⟩ := hdata xs hxs
    simpa [run] using hk
  · obtain ⟨k, hk, rfl⟩ := hdata xs hxs
    have hi : i < k := by simpa [run] using hi
    refine ⟨covers_of_lt hdev (by omega), ?_⟩
    rw [place_disk hdev hops]
    simp [run]

theorem partBlkdevRead_reads (h : Inv T s) (hdev : T.devices index = some dev)
    (hops : dev.ops = .part parent offset size) (count : Nat) (hrange : lba + count ≤ dev.blockCount) :
    Reads T s index lba count (partBlkdevRead T parent offset size s lba count) := by
  obtain ⟨hsize, hlt, pdev, drive, hpdev, hpops⟩ := T.parts index dev parent offset size hdev hops
  unfold partBlkdevRead
  split
  · exact .failed count rfl
  have hcount : (if u32 (lba + count) > size then size - lba else count) = count := by
    rw [u32_of_lt (by omega), if_neg (by omega)]
  have hparent : parentRead T parent s (u32 (offset + lba)) count
      = readBody (diskRead drive) parent pdev s (u32 (offset + lba)) count := by
    simp only [parentRead, hpdev, hpops]
  have hreads : Reads T s parent (u32 (offset + lba)) count
      (readBody (diskRead drive) parent pdev s (u32 (offset + lba)) count) :=
    readBody_reads h hpdev (diskRead_reads h hpdev hpops) count
  rw [hcount, hparent]
  refine ⟨hreads.sectors, hreads.inv, hreads.length, fun xs hxs i hi => ?_⟩
  obtain ⟨hcovers, hx⟩ := hreads.data xs hxs i hi
  have hlen := hreads.length xs hxs
  rw [place_parent hdev hops hcovers]
  exact ⟨covers_of_lt hdev (by omega), hx⟩

/-- **Reading**, through any device. -/
theorem blkdevRead_reads (h : Inv T s) (index lba count : Nat) :
    Reads T s index lba count (blkdevRead T s index lba count) := by
  unfold blkdevRead
  split
  · exact .failed count rfl
  rename_i hdev
  split
  · rename_i hops
    exact readBody_reads h hdev (diskRead_reads h hdev hops) count
  · rename_i hops
    exact readBody_reads h hdev (partBlkdevRead_reads h hdev hops) count

/-! ## Writing -/

/-- The keys that a write of `k` sectors touches. -/
def Touched (T : Table) (index lba k : Nat) : Set (Nat × Nat) :=
  {key | ∃ i < k, place T key = place T (index, lba + i)}

/-- The keys of a device. -/
def KeysOf (index : Nat) : Set (Nat × Nat) := {key | key.1 = index}

/-- What a write of a device does: some first sectors of the data are on the disk, and the cache is right except
    for the keys `off k`, where `k` is their number. -/
def Writes (T : Table) (s : State) (index lba : Nat) (data : List Sector) (off : Nat → Set (Nat × Nat))
    (r : Option Nat × State) : Prop :=
  ∃ k ≤ data.length, (r.1 = some k ∨ r.1 = none ∧ k = 0) ∧ (∀ i < k, Covers T (index, lba + i)) ∧
    r.2.sectors = putAll s.sectors (fun i => place T (index, lba + i)) (data.take k) ∧
    AgreesOff blkCacheHash (Covers T) (off k) r.2.cache fun key => r.2.sectors (place T key)

variable {data : List Sector}

theorem writes_none (h : Inv T s) {off : Nat → Set (Nat × Nat)}
    {r : Option Nat × State} (hr : r.1 = some 0 ∨ r.1 = none) (hs : r.2 = s) :
    Writes T s index lba data off r := by
  refine ⟨0, Nat.zero_le _, hr.imp id fun hnone => ⟨hnone, rfl⟩, fun i hi => absurd hi (Nat.not_lt_zero i),
    ?_, ?_⟩
  · rw [hs]
    rfl
  · rw [hs]
    exact AgreesOff.mono h fun _ _ hk => absurd hk (Set.notMem_empty _)

/-- The sectors written are there. -/
theorem putAll_place (hcovers : ∀ i < k, Covers T (index, lba + i)) (hk : k ≤ data.length) (hi : i < k) :
    putAll s.sectors (fun i => place T (index, lba + i)) (data.take k) (place T (index, lba + i))
      = data[i] := by
  have hlen : (data.take k).length = k := by rw [List.length_take]; omega
  have hinj : ∀ a < (data.take k).length, ∀ b < (data.take k).length,
      place T (index, lba + a) = place T (index, lba + b) → a = b := by
    intro a ha b hb heq
    have hab := place_inj (hcovers a (by omega)) (hcovers b (by omega)) heq
    omega
  have hget : putAll s.sectors (fun i => place T (index, lba + i)) (data.take k)
      (place T (index, lba + i)) = (data.take k)[i] := putAll_of_inj _ hinj (by omega)
  rw [hget]
  exact List.getElem_take

/-- A key of the device that is touched is that of a sector written. -/
theorem touched_own (hcovers : ∀ i < k, Covers T (index, lba + i)) {key : Nat × Nat}
    (hkey : Covers T key) (htouched : key ∈ Touched T index lba k) (hown : key ∈ KeysOf index) :
    ∃ i < k, key = (index, lba + i) := by
  obtain ⟨i, hi, heq⟩ := htouched
  obtain ⟨_, b⟩ := key
  obtain rfl : _ = index := hown
  exact ⟨i, hi, by rw [place_inj hkey (hcovers i hi) heq]⟩

/-- After the device, the cache is brought up to date for the keys of the device. -/
theorem writeBody_writes {write : State → Nat → List Sector → Option Nat × State}
    {off : Nat → Set (Nat × Nat)} (hoff : ∀ k, off k ⊆ Touched T index lba k) (h : Inv T s)
    (hdev : T.devices index = some dev)
    (hwrite : ∀ data', lba + data'.length ≤ dev.blockCount → data' <+: data →
      Writes T s index lba data' off (write s lba data')) :
    Writes T s index lba data (fun k => off k \ KeysOf index) (writeBody write index dev s lba data) := by
  unfold writeBody
  split
  · exact writes_none h (.inl rfl) rfl
  split
  · exact writes_none h (.inr rfl) rfl
  dsimp only
  generalize hd : (if data.length > dev.blockCount - lba then data.take (dev.blockCount - lba)
    else data) = data'
  have hpre : lba + data'.length ≤ dev.blockCount ∧ data' <+: data := by
    rw [← hd]
    split
    · refine ⟨?_, List.take_prefix ..⟩
      rw [List.length_take]
      omega
    · exact ⟨by omega, List.prefix_refl _⟩
  obtain ⟨k, hk, hres, hcovers, hsec, hagree⟩ := hwrite data' hpre.1 hpre.2
  have hkd : k ≤ data.length := hk.trans hpre.2.length_le
  have htake : data'.take k = data.take k := by
    rw [List.prefix_iff_eq_take.mp hpre.2, List.take_take, Nat.min_eq_left hk]
  generalize write s lba data' = r at *
  obtain ⟨res, s'⟩ := r
  have hnothing : k = 0 → Writes T s index lba data (fun k => off k \ KeysOf index) (res, s') := by
    refine fun hzero => ⟨k, hkd, hres, hcovers, by rwa [← htake], hagree.mono fun key _ hin => ?_⟩
    obtain ⟨i, hi, _⟩ := hoff k hin
    omega
  rcases hres with hres | ⟨hres, hzero⟩
  · obtain rfl : res = some k := hres
    dsimp only
    split
    · rename_i hzero
      subst hzero
      exact hnothing rfl
    rename_i hpos
    split
    · -- the new contents are stored under the keys of the device
      have hlen : (data'.take k).length = k := by rw [List.length_take]; omega
      have hx : ∀ i (hi : i < (data'.take k).length),
          (data'.take k)[i] = s'.sectors (place T (index, lba + i)) := by
        intro i hi
        rw [hsec, putAll_place hcovers hk (by omega)]
        exact List.getElem_take
      have hstored := hagree.storeAll (fun i => (index, lba + i)) (fun i hi => hcovers i (by omega)) hx
      rw [hlen] at hstored
      refine ⟨k, hkd, .inl rfl, hcovers, by rwa [← htake], ?_⟩
      refine hstored.mono fun key hkey hin => ⟨hin.1, fun hown => hin.2 ?_⟩
      exact touched_own hcovers hkey (hoff k hin.1) hown
    · -- or the keys are dropped
      have hdropped := hagree.dropKeys fun key => decide (key.1 = index) && decide (lba ≤ key.2) &&
        decide (key.2 < u32 (lba + k))
      have hu : u32 (lba + k) = lba + k :=
        u32_of_lt (by have := Table.blockCount_lt hdev; omega)
      have hinvalidate : blkCacheInvalidateRange index s' lba k = s'.setCache (dropKeys _ s'.cache) :=
        if_neg hpos
      rw [hinvalidate]
      refine ⟨k, hkd, .inl rfl, hcovers, by rwa [← htake], ?_⟩
      refine hdropped.mono fun key hkey hin => ⟨hin.1, fun hown => hin.2 ?_⟩
      obtain ⟨i, hi, rfl⟩ := touched_own hcovers hkey (hoff k hin.1) hown
      have hlt : lba + i < u32 (lba + k) := by
        omega
      simpa using hlt
  · obtain rfl : res = none := hres
    exact hnothing hzero

/-- The entries of the cache that a write of `n` sectors touches belong to the devices `D`. -/
def OnlyBy (T : Table) (s : State) (index lba n : Nat) (D : Set Nat) : Prop :=
  ∀ slot key data, s.cache slot = some (key, data) →
    (∃ i < n, Covers T (index, lba + i) ∧ place T key = place T (index, lba + i)) → key.1 ∈ D

theorem diskWrite_writes {D : Set Nat} (h : Inv T s) (hdev : T.devices index = some dev)
    (hops : dev.ops = .disk drive) (htidy : Tidy s) (hrange : lba + data.length ≤ dev.blockCount)
    (honly : OnlyBy T s index lba data.length D) :
    Writes T s index lba data (fun k => Touched T index lba k ∩ {key | key.1 ∈ D})
      (diskWrite drive s lba data) := by
  have hlimit := T.disks index dev drive hdev hops
  obtain ⟨k, hk, hres, hsec, hcache⟩ := @writeLoop_spec drive data.length s lba data 0 (by omega) htidy
  rw [Nat.zero_add] at hres
  have hcovers : ∀ i < k, Covers T (index, lba + i) := fun i hi => covers_of_lt hdev (by omega)
  have hplace : onDrive drive lba = fun i => place T (index, lba + i) := by
    funext i
    exact (place_disk hdev hops _).symm
  rw [hplace] at hsec
  refine ⟨k, hk, hres, hcovers, hsec, ?_⟩
  unfold diskWrite
  rw [hsec, hcache]
  intro slot key x hc
  obtain ⟨hslot, hkey, hx⟩ := h slot key x hc
  refine ⟨hslot, hkey, fun hnot => ?_⟩
  have huntouched : key ∉ Touched T index lba k := by
    rintro ⟨i, hi, heq⟩
    exact hnot ⟨⟨i, hi, heq⟩, honly slot key x hc ⟨i, by omega, hcovers i hi, heq⟩⟩
  show x = putAll s.sectors _ _ (place T key)
  rw [putAll_of_ne _ fun i hi heq => huntouched ⟨i, by rw [List.length_take] at hi; omega, heq.symm⟩]
  exact hx (Set.notMem_empty _)

theorem partBlkdevWrite_writes {D : Set Nat} (h : Inv T s) (hdev : T.devices index = some dev)
    (hops : dev.ops = .part parent offset size) (htidy : Tidy s)
    (hrange : lba + data.length ≤ dev.blockCount) (honly : OnlyBy T s index lba data.length D) :
    Writes T s index lba data (fun k => (Touched T index lba k ∩ {key | key.1 ∈ D}) \ KeysOf parent)
      (partBlkdevWrite T parent offset size s lba data) := by
  obtain ⟨hsize, hlt, pdev, drive, hpdev, hpops⟩ := T.parts index dev parent offset size hdev hops
  unfold partBlkdevWrite
  split
  · exact writes_none h (.inr rfl) rfl
  have hdata : (if u32 (lba + data.length) > size then data.take (size - lba) else data) = data := by
    rw [u32_of_lt (by omega), if_neg (by omega)]
  have hparent : parentWrite T parent s (u32 (offset + lba)) data
      = writeBody (diskWrite drive) parent pdev s (u32 (offset + lba)) data := by
    simp only [parentWrite, hpdev, hpops]
  have hwrites : Writes T s parent (u32 (offset + lba)) data
      (fun k => (Touched T parent (u32 (offset + lba)) k ∩ {key | key.1 ∈ D}) \ KeysOf parent)
      (writeBody (diskWrite drive) parent pdev s (u32 (offset + lba)) data) := by
    refine writeBody_writes (fun k => Set.inter_subset_left) h hpdev
      fun data' hr hpre => diskWrite_writes h hpdev hpops htidy hr ?_
    rintro slot key x hc ⟨i, hi, hcovers, heq⟩
    have hle := hpre.length_le
    refine honly slot key x hc ⟨i, by omega, covers_of_lt hdev (by omega), ?_⟩
    rw [heq, place_parent hdev hops hcovers]
  rw [hdata, hparent]
  obtain ⟨k, hk, hres, hcovers, hsec, hagree⟩ := hwrites
  have hplace : ∀ i < k, place T (parent, u32 (offset + lba) + i) = place T (index, lba + i) :=
    fun i hi => (place_parent hdev hops (hcovers i hi)).symm
  refine ⟨k, hk, hres, fun i hi => covers_of_lt hdev (by omega), ?_, ?_⟩
  · refine hsec.trans (putAll_congr _ _ fun i hi => hplace i ?_)
    rw [List.length_take] at hi
    omega
  · refine hagree.mono fun key _ hin => ⟨⟨?_, hin.1.2⟩, hin.2⟩
    obtain ⟨i, hi, heq⟩ := hin.1.1
    exact ⟨i, hi, heq.trans (hplace i hi)⟩

/-- The device through which a device writes. -/
def Table.parentOf (T : Table) (index : Nat) : Option Nat :=
  match T.devices index with
  | some ⟨_, _, .part parent _ _⟩ => some parent
  | _ => none

/-- No entry of the cache that a write of `n` sectors through `index` touches belongs to another device than
    that one and its parent. -/
def NoForeign (T : Table) (s : State) (index lba n : Nat) : Prop :=
  OnlyBy T s index lba n {i | i = index ∨ T.parentOf index = some i}

/-- **Writing**, through any device: the first sectors are on the disk, and the cache is right. -/
theorem blkdevWrite_writes (h : Inv T s) (htidy : Tidy s)
    (hforeign : NoForeign T s index lba data.length) : ∃ k ≤ data.length,
    ((blkdevWrite T s index lba data).1 = some k ∨ (blkdevWrite T s index lba data).1 = none ∧ k = 0) ∧
    (blkdevWrite T s index lba data).2.sectors
      = putAll s.sectors (fun i => place T (index, lba + i)) (data.take k) ∧
    Inv T (blkdevWrite T s index lba data).2 := by
  have hpart : ∀ data', data' <+: data →
      OnlyBy T s index lba data'.length {i | i = index ∨ T.parentOf index = some i} := by
    rintro data' hpre slot key x hc ⟨i, hi, hrest⟩
    have hle := hpre.length_le
    exact hforeign slot key x hc ⟨i, by omega, hrest⟩
  unfold blkdevWrite
  split
  · refine ⟨0, Nat.zero_le _, .inr ⟨rfl, rfl⟩, ?_, h⟩
    rfl
  rename_i dev hdev
  split
  · rename_i hops
    have hparent : T.parentOf index = none := by
      obtain ⟨_, _, _⟩ := dev
      cases hops
      simp only [Table.parentOf, hdev]
    obtain ⟨k, hk, hres, _, hsec, hagree⟩ := writeBody_writes (fun k => Set.inter_subset_left) h hdev
      fun data' hr hpre => diskWrite_writes h hdev hops htidy hr (hpart data' hpre)
    refine ⟨k, hk, hres, hsec, hagree.mono fun key _ hin => absurd hin.1.2 ?_⟩
    rintro (hown | hpar)
    · exact hin.2 hown
    · rw [hparent] at hpar
      cases hpar
  · rename_i parent offset size hops
    have hparent : T.parentOf index = some parent := by
      obtain ⟨_, _, _⟩ := dev
      cases hops
      simp only [Table.parentOf, hdev]
    obtain ⟨k, hk, hres, _, hsec, hagree⟩ := writeBody_writes (fun k key hin => hin.1.1) h hdev
      fun data' hr hpre => partBlkdevWrite_writes h hdev hops htidy hr (hpart data' hpre)
    refine ⟨k, hk, hres, hsec, hagree.mono fun key _ hin => absurd hin.1.1.2 ?_⟩
    rintro (hown | hpar)
    · exact hin.2 hown
    · rw [hparent] at hpar
      exact hin.1.2 (Option.some.inj hpar).symm

end

/-! ## Runs -/

inductive Call
  | read (index lba count : Nat)
  | write (index lba : Nat) (data : List Sector)

inductive Answer
  | failed
  | read (data : List Sector)
  | wrote (count : Nat)

/-- One call. -/
def step (T : Table) (s : State) : Call → Answer × State
  | .read index lba count =>
    let r := blkdevRead T s index lba count
    (match r.1 with
      | .error _ => .failed
      | .ok data => .read data, r.2)
  | .write index lba data =>
    let r := blkdevWrite T s index lba data
    (r.1.elim .failed .wrote, r.2)

/-- What the sectors hold after a call, going by its answer alone. -/
def record (T : Table) (mem : Drive × Nat → Sector) : Call → Answer → Drive × Nat → Sector
  | .write index lba data, .wrote count => putAll mem (fun i => place T (index, lba + i)) (data.take count)
  | _, _ => mem

/-- The contents last written to each sector in a run with these answers. -/
def lastWritten (T : Table) (mem : Drive × Nat → Sector) : List Call → List Answer → Drive × Nat → Sector
  | c :: cs, a :: as => lastWritten T (record T mem c a) cs as
  | _, _ => mem

/-- If the read failed, it has left every entry of the cache alone. -/
def Spared (s : State) (r : Got × State) : Prop :=
  ∀ spill, r.1 = .error spill → ∀ slot e, r.2.cache slot = some e → s.cache slot = some e

/-- A read that fails must not leave anything in a valid entry of the cache, nor a write that fails on the disk,
    and a write must not touch an entry that the cache holds for another device. -/
def Legal (T : Table) (s : State) : Call → Prop
  | .read index lba count => Spared s (blkdevRead T s index lba count)
  | .write index lba data => Tidy s ∧ NoForeign T s index lba data.length

/-- **Reading keeps the cache right**, if what fails spares it. -/
theorem blkdevRead_inv {T : Table} {s : State} (h : Inv T s) {index lba count : Nat}
    (hspared : Spared s (blkdevRead T s index lba count)) : Inv T (blkdevRead T s index lba count).2 := by
  have hreads := blkdevRead_reads h index lba count
  cases hr : (blkdevRead T s index lba count).1 with
  | ok xs => exact hreads.inv xs hr
  | error spill =>
    intro slot key x hc
    rw [hreads.sectors]
    exact h slot key x (hspared spill hr slot _ hc)

theorem step_inv {T : Table} {s : State} (h : Inv T s) {c : Call} (hc : Legal T s c) :
    Inv T (step T s c).2 ∧ (step T s c).2.sectors = record T s.sectors c (step T s c).1 := by
  cases c with
  | read index lba count =>
    refine ⟨blkdevRead_inv h hc, (blkdevRead_reads h index lba count).sectors.trans ?_⟩
    show s.sectors = record T s.sectors (.read index lba count) _
    rfl
  | write index lba data =>
    obtain ⟨k, hk, hres, hsec, hinv⟩ := blkdevWrite_writes h hc.1 hc.2
    refine ⟨hinv, ?_⟩
    show (blkdevWrite T s index lba data).2.sectors
      = record T s.sectors _ ((blkdevWrite T s index lba data).1.elim .failed .wrote)
    rw [hsec]
    rcases hres with hres | ⟨hres, rfl⟩
    · rw [hres]
      rfl
    · rw [hres]
      rfl

theorem exec_inv_lastWritten {T : Table} (calls : List Call) : ∀ {s : State}, Inv T s →
    Guarded (step T) (Legal T) s calls → Inv T (exec (step T) s calls).2 ∧
      (exec (step T) s calls).2.sectors = lastWritten T s.sectors calls (exec (step T) s calls).1 := by
  induction calls with
  | nil => exact fun h _ => ⟨h, rfl⟩
  | cons c calls ih =>
    intro s h hlegal
    obtain ⟨hinv, hsec⟩ := step_inv h hlegal.1
    obtain ⟨hinv', hsec'⟩ := ih hinv hlegal.2
    refine ⟨hinv', ?_⟩
    rw [hsec] at hsec'
    exact hsec'

/-- A disk of 256 sectors, and a partition of two of them. -/
def diskAndPart : Table where
  devices := fun index =>
    if index = 0 then some ⟨512, 256, .disk (.ahci 0)⟩
    else if index = 1 then some ⟨512, 2, .part 0 2 2⟩ else none
  disks := by
    intro index dev drive hdev hops
    split at hdev
    · cases hdev
      cases hops
      decide
    · split at hdev
      · cases hdev
        cases hops
      · cases hdev
  parts := by
    intro index dev parent offset size hdev hops
    split at hdev
    · cases hdev
      cases hops
    · split at hdev
      · cases hdev
        cases hops
        exact ⟨rfl, by decide, _, _, rfl, rfl⟩
      · cases hdev

/-- Sectors of zeros, commands that do not fail, and an empty cache. -/
def blank : State where
  sectors := fun _ _ => 0
  fate := fun _ => 256
  spill := fun _ => none
  litter := fun _ _ => none
  commands := 0
  cache := fun _ => none

/-- A sector of ones. -/
def ones : Sector := fun _ => 1

theorem blank_write_legal :
    Guarded (step diskAndPart) (Legal diskAndPart) blank [.write 1 0 [ones], .read 0 2 1] := by
  refine ⟨⟨fun _ _ => rfl, ?_⟩, ?_, trivial⟩
  · intro slot key x hc
    cases hc
  · intro spill hr
    cases hr

/-- The second command fails, after the sector, one of ones, has come into the buffer. -/
def spilling : State :=
  { blank with
    sectors := fun p => if p.2 = 128 then ones else fun _ => 0
    fate := fun k => if k = 1 then 0 else 256
    spill := fun _ => some ones }

end Lyth.Blkdev
