/-
  Names in a FAT directory (`fat16.c` and `fat32.c`, which have the same text here).

  An entry is 32 bytes at an address: eight bytes of name, three of extension, the attributes at offset 11.  Entries
  with the attributes `0x0F` carry 13 characters each of a long name; they stand before the entry they belong to, the
  last part first, and `lfn_state_feed` puts them together.  A lookup compares, without regard to case, the long name
  if there is one and the short name in any case.
-/
import Lyth.Lib.Bytes

namespace Lyth.Fat

open Bytes

/-- The upper-case letter, as `encode_83` writes it. -/
def toUpper (c : UInt8) : UInt8 := if 97 ≤ c ∧ c ≤ 122 then c - 32 else c

/-! ## Long names -/

/-- `fat_lfn_state_t`: a buffer of 256 characters. -/
structure LfnState where
  buf : List UInt8
  valid : Bool

/-- `lfn_state_reset` of a buffer that has been used. -/
def LfnState.reset (st : LfnState) : LfnState := ⟨st.buf.set 0 0, false⟩

def LfnState.init : LfnState := ⟨List.replicate 256 0, false⟩

/-- Where the 13 characters of an entry stand: `name1`, `name2`, `name3`. -/
def lfnOffsets : List Nat := [1, 3, 5, 7, 9, 14, 16, 18, 20, 22, 24, 28, 30]

/-- `lfn_extract_13`: the characters at the given offsets go to position `pos` on, up to a terminator. -/
def lfnExtract (m : Mem) (a : Nat) : List Nat → Nat → List UInt8 → List UInt8
  | [], _, buf => buf
  | off :: rest, pos, buf =>
    if pos < 255 then
      let ch := getLE m (a + off) 2
      if ch = 0 ∨ ch = 0xFFFF then buf.set pos 0
      else lfnExtract m a rest (pos + 1) (buf.set pos (UInt8.ofNat (ch % 128)))
    else buf

/-- `lfn_state_feed`. -/
def LfnState.feed (st : LfnState) (m : Mem) (a : Nat) : LfnState :=
  let order := (m a).toNat % 64
  if order = 0 ∨ 20 < order then { st with valid := false }
  else
    let st := if (m a).toNat.testBit 6 then ⟨List.replicate 256 0, true⟩ else st
    if st.valid then { st with buf := lfnExtract m a lfnOffsets ((order - 1) * 13) st.buf } else st

/-! ## Short names -/

/-- The `n` bytes from `a` on. -/
def field (m : Mem) (a n : Nat) : List UInt8 := (List.range n).map fun i => m (a + i)

/-- The bytes up to the last one that is not a space. -/
def trimSpaces (l : List UInt8) : List UInt8 := (l.reverse.dropWhile (· = 32)).reverse

/-- `format_name`. -/
def formatName (name8 ext3 : List UInt8) : List UInt8 :=
  let ext := trimSpaces ext3
  (trimSpaces name8).map toLower ++ if ext = [] then [] else 46 :: ext.map toLower

/-- `name_match`. -/
def nameMatch (vfsName name8 ext3 : List UInt8) : Bool := strEqualsIgnoreCase vfsName (formatName name8 ext3)

/-- The last dot that is not the first character. -/
def lastDot (name : List UInt8) : Option Nat :=
  (List.range name.length).reverse.find? fun i => decide (0 < i) && decide (name.getD i 0 = 46)

/-- At most `n` characters in upper case, filled up with spaces. -/
def padUpper (n : Nat) (l : List UInt8) : List UInt8 :=
  (l.take n).map toUpper ++ List.replicate (n - l.length) 32

/-- `encode_83`: the name and the extension of an entry; `none` is -1. -/
def encode83 (name : List UInt8) : Option (List UInt8 × List UInt8) :=
  let name := cString name
  let name8 := padUpper 8 (match lastDot name with | none => name | some d => name.take d)
  let ext3 := padUpper 3 (match lastDot name with | none => [] | some d => name.drop (d + 1))
  if name8.headD 32 = 32 ∨ name8.headD 32 = 0 ∨ name8.headD 32 = 0xE5 then none else some (name8, ext3)

/-! ## The search of a directory -/

/-- The attribute byte. -/
def attrAt (m : Mem) (a : Nat) : UInt8 := m (a + 11)

/-- `finddir_loc_cb`: the long name if there is one, or the short name, is the target. -/
def entryMatches (target : List UInt8) (m : Mem) (lfn : LfnState) (a : Nat) : Bool :=
  (lfn.valid && decide (lfn.buf.headD 0 ≠ 0) && strEqualsIgnoreCase target lfn.buf) ||
    nameMatch target (field m a 8) (field m (a + 8) 3)

/-- `walk_dir_loc` with `finddir_loc_cb`, over the entries of the directory in order. -/
def walkDirLoc (target : List UInt8) (m : Mem) : List Nat → LfnState → Option Nat
  | [], _ => none
  | a :: rest, lfn =>
    if m a = 0 then none
    else if m a = 0xE5 then walkDirLoc target m rest lfn.reset
    else if attrAt m a = 0x0F then walkDirLoc target m rest (lfn.feed m a)
    else if attrAt m a &&& 8 ≠ 0 then walkDirLoc target m rest lfn.reset
    else if m a = 46 then walkDirLoc target m rest lfn.reset
    else if entryMatches target m lfn a then some a
    else walkDirLoc target m rest lfn.reset

/-- What a lookup finds is an entry of the directory that is neither free nor a label nor a dot entry. -/
theorem walkDirLoc_some {target : List UInt8} {m : Mem} {slots : List Nat} {lfn : LfnState} {a : Nat}
    (h : walkDirLoc target m slots lfn = some a) :
    a ∈ slots ∧ m a ≠ 0 ∧ m a ≠ 0xE5 ∧ attrAt m a &&& 8 = 0 ∧ m a ≠ 46 := by
  induction slots generalizing lfn with
  | nil => cases h
  | cons b rest ih =>
    have hrest : ∀ {lfn'}, walkDirLoc target m rest lfn' = some a →
        a ∈ b :: rest ∧ m a ≠ 0 ∧ m a ≠ 0xE5 ∧ attrAt m a &&& 8 = 0 ∧ m a ≠ 46 := fun h' =>
      ⟨.tail _ (ih h').1, (ih h').2⟩
    rw [walkDirLoc] at h
    by_cases hend : m b = 0
    · rw [if_pos hend] at h
      cases h
    rw [if_neg hend] at h
    by_cases hfree : m b = 0xE5
    · rw [if_pos hfree] at h
      exact hrest h
    rw [if_neg hfree] at h
    by_cases hlfn : attrAt m b = 0x0F
    · rw [if_pos hlfn] at h
      exact hrest h
    rw [if_neg hlfn] at h
    by_cases hlabel : attrAt m b &&& 8 ≠ 0
    · rw [if_pos hlabel] at h
      exact hrest h
    rw [if_neg hlabel] at h
    by_cases hdot : m b = 46
    · rw [if_pos hdot] at h
      exact hrest h
    rw [if_neg hdot] at h
    by_cases hmatch : entryMatches target m lfn b
    · rw [if_pos hmatch] at h
      obtain rfl := Option.some.inj h
      exact ⟨(.head _), hend, hfree, not_not.mp hlabel, hdot⟩
    · rw [if_neg hmatch] at h
      exact hrest h

end Lyth.Fat
