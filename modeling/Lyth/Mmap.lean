/-
  ANONYMOUS MAPPINGS (`kernel/mem/mmap.c`): a table of sixteen regions for each task.

  The pages of the user window are mapped from the start, so a mapping is only a record: `mmapAnonymous`
  scans downwards, a page at a time, for a gap between the regions recorded, and `mmapUnmap` clears the
  `used` flag of a region, which keeps its numbers.  Addresses are 64-bit.
-/
import Mathlib.Data.List.Basic

namespace Lyth.Mmap

/-- `MMAP_MAX_REGIONS`. -/
def maxRegions : Nat := 16

/-- `MMAP_PAGE_SIZE`. -/
def pageSize : UInt64 := 4096

/-- `mmap_region_t`. -/
structure Region where
  base : UInt64
  length : UInt64
  used : Bool
deriving DecidableEq

def Region.empty : Region := { base := 0, length := 0, used := false }

/-- `~(MMAP_PAGE_SIZE - 1U)`: an `unsigned int`, which an `&` with an address extends by zeros. -/
def pageMask : UInt64 := 0xFFFFF000

/-- `align_up_page`. -/
def alignUpPage (v : UInt64) : UInt64 := (v + pageSize - 1) &&& pageMask

/-- `align_down_page`. -/
def alignDownPage (v : UInt64) : UInt64 := v &&& pageMask

/-- The test of `overlaps_any` for one region. -/
def Region.overlaps (r : Region) (base len : UInt64) : Bool :=
  r.used && decide (base < r.base + r.length) && decide (r.base < base + len)

/-- `overlaps_any`. -/
def overlapsAny (regions : List Region) (base len : UInt64) : Bool :=
  regions.any fun r => r.overlaps base len

/-- `mmap_init_regions`. -/
def mmapInitRegions : List Region := List.replicate maxRegions Region.empty

/-- The scan of `mmap_anonymous` from `candidate` down: the gap found. -/
def scanDown (regions : List Region) (low len : UInt64) : Nat → UInt64 → Option UInt64
  | 0, _ => none
  | fuel + 1, candidate =>
    if candidate < low then none
    else if !overlapsAny regions candidate len then some candidate
    else if candidate < pageSize then none
    else scanDown regions low len fuel (candidate - pageSize)

/-- `mmap_anonymous`: the base of the new region, or 0.  Each round of the scan goes down a page, so
    that many rounds as there are pages below the top are enough. -/
def mmapAnonymous (regions : List Region) (top low length : UInt64) : UInt64 × List Region :=
  if length = 0 then (0, regions)
  else
    let len := alignUpPage length
    if len = 0 ∨ top - low < len then (0, regions)
    else
      match regions.findIdx? (fun r => !r.used) with
      | none => (0, regions)
      | some slot =>
        match scanDown regions low len (top.toNat / pageSize.toNat + 1)
            (alignDownPage (top - len)) with
        | none => (0, regions)
        | some base => (base, regions.set slot { base, length := len, used := true })

/-- The test of `mmap_unmap` for one region. -/
def Region.matches (r : Region) (addr len : UInt64) : Bool :=
  r.used && decide (r.base = addr) && (decide (len = 0) || decide (len = r.length))

/-- `mmap_unmap`: 0, or -1 when no region matches. -/
def mmapUnmap (regions : List Region) (addr length : UInt64) : Int × List Region :=
  if addr = 0 then (-1, regions)
  else
    match regions.findIdx? (fun r => r.matches addr (alignUpPage length)) with
    | none => (-1, regions)
    | some i => (0, regions.modify i fun r => { r with used := false })

/-- `mmap_clone_regions`. -/
def mmapCloneRegions (src : List Region) : List Region := src

end Lyth.Mmap
