/-
  THE RAM FILE SYSTEM (`fs/ramfs.c` over `fs/fs.c`) — and what its files are through descriptors.

  1. **Program** — the flat store of `fs.c` (32 writable files over a read-only table), the virtual
     directories of `ramfs.c`, and the operation tables of both as a `Vfs.Driver`.

  2. **Specification** — a file is a byte array: seeking to `o` and writing `d` returns `|d|` and
     replaces the bytes from `o` on (`splice`), whatever was there, and no other file changes.

  3. **The crux** — `fs_write` can only REPLACE the whole contents or APPEND, `ramfs_file_write`
     picks by `offset > 0`, and an append answers with the new SIZE.  So a write is the byte array's
     only if it is empty, or starts at 0 and covers the old contents (`spliced_iff`); two writes
     through a fresh descriptor of an empty file still store the concatenation.

  Allocation always succeeds here; `Lyth.FlatStore` is about `fs_write` when it does not.
-/
import Lyth.Lib.Word
import Lyth.Vfs

namespace Lyth.Ramfs

open Table Vfs Word Function

/-! ## The flat store (`fs.c`) -/

/-- `fs_writable_entry_t` in use; `data` is `none` for the null pointer of an empty file. -/
structure Wfile where
  name : Text
  data : Option (List UInt8)
deriving DecidableEq

/-- `ramfs_vdir_t`. -/
structure Vdir where
  used : Bool
  name : Text
deriving DecidableEq

/-- `writable[]` and `ramfs_vdirs[]`. -/
structure Store where
  writable : Fin 32 → Option Wfile
  vdirs : Fin 16 → Vdir

/-- The writable entry `i` is (re)written. -/
def Store.put (st : Store) (i : Fin 32) (w : Wfile) : Store :=
  { st with writable := update st.writable i (some w) }

variable (files : List (Text × List UInt8))

/-- The writable entry of `name`. -/
def writableAt (st : Store) (name : Text) : Option (Fin 32) :=
  firstIdx fun i => (st.writable i).any (·.name = name)

/-- The bytes of a writable entry. -/
def bytesAt (st : Store) (i : Fin 32) : List UInt8 := ((st.writable i).bind Wfile.data).getD []

/-- What is stored under `name`: writable entries override the read-only table `files`. -/
def contents (st : Store) (name : Text) : Option (List UInt8) :=
  match writableAt st name with
  | some i => some (bytesAt st i)
  | none => files.lookup name

/-- `fs_size`. -/
def fsSize (st : Store) (name : Text) : Nat := ((contents files st name).map List.length).getD 0

/-- `fs_exists`. -/
def fsExists (st : Store) (name : Text) : Bool := (contents files st name).isSome

/-- `fs_read_bytes`. -/
def fsReadBytes (st : Store) (name : Text) (size : Nat) : Option (List UInt8) :=
  if size = 0 then none else (contents files st name).map (List.take size)

/-- `FS_WRITE_NAME_MAX`. -/
def writeNameMax : Nat := 64

/-- The entry `fs_write` works on: the one of `name`, else, unless it appends, a new one. -/
def writeSlot (st : Store) (name : Text) (append : Bool) : Option (Fin 32 × Wfile) :=
  match writableAt st name with
  | some i => (st.writable i).map fun w => (i, w)
  | none =>
    if append then none
    else (firstIdx fun i => (st.writable i).isNone).map fun i => (i, ⟨name.take (writeNameMax - 1), none⟩)

/-- `fs_write`: its result and the new store, for sizes with a sum that is an `unsigned int`. -/
def fsWrite (st : Store) (name : Text) (data : List UInt8) (append : Bool) : Int × Store :=
  if name = [] then (-1, st) else
  match writeSlot st name append with
  | none => (-1, st)
  | some (i, w) =>
    match append, w.data with
    | true, some old => (int32 (old ++ data).length, st.put i ⟨w.name, some (old ++ data)⟩)
    | _, _ =>
      if data = [] then (0, st.put i ⟨w.name, none⟩)
      else (int32 data.length, st.put i ⟨w.name, some data⟩)

/-- `fs_delete`. -/
def fsDelete (st : Store) (name : Text) : Bool × Store :=
  if name = [] then (false, st) else
  match writableAt st name with
  | none => (false, st)
  | some i => (true, { st with writable := update st.writable i none })

/-! ## Nodes and directories (`ramfs.c`) -/

/-- What a ramfs node is: the root, a virtual directory (a pointer into `ramfs_vdirs`), or a file
    with the key in `node->name`. -/
inductive Obj where
  | root
  | vdir (slot : Fin 16)
  | file (name : Text)
deriving DecidableEq

/-- `make_file_node`: the node keeps 63 bytes of the key. -/
def makeFileNode (st : Store) (key : Text) : Child Obj :=
  .dynamic ⟨true, false, true, fsSize files st key, 0, .file (key.take (nameMax - 1))⟩

/-- `make_vdir_node`. -/
def makeVdirNode (slot : Fin 16) : Child Obj := .dynamic ⟨false, true, true, 0, 0, .vdir slot⟩

/-- The used virtual directory called `name`. -/
def vdirAt (st : Store) (name : Text) : Option (Fin 16) :=
  firstIdx fun i => (st.vdirs i).used && (st.vdirs i).name = name

/-- `build_key`. -/
def buildKey (dir tail : Text) : Text :=
  (dir.take (pathMax - 2) ++ slash :: tail).take (pathMax - 1)

/-- `ramfs_dir_finddir` and `ramfs_vdir_finddir`: the root looks for a file first, a virtual
    directory for a nested directory first. -/
def finddir (st : Store) : Obj → Text → Option (Child Obj)
  | .root, name =>
    if fsExists files st name then some (makeFileNode files st name)
    else (vdirAt st name).map makeVdirNode
  | .vdir d, name =>
    let key := buildKey (st.vdirs d).name name
    match vdirAt st key with
    | some i => some (makeVdirNode i)
    | none => if fsExists files st key then some (makeFileNode files st key) else none
  | .file _, _ => none

/-- The creation of a virtual directory or of an empty file under `key`. -/
def createKey (st : Store) (key : Text) (dir : Bool) : Option (Child Obj) × Store :=
  if dir then
    match vdirAt st key with
    | some i => (some (makeVdirNode i), st)
    | none =>
      match firstIdx fun i => !(st.vdirs i).used with
      | none => (none, st)
      | some i =>
        (some (makeVdirNode i), { st with
          vdirs := update st.vdirs i ⟨true, key.take (nameMax - 1)⟩ })
  else
    let r := fsWrite st key [] false
    if r.1 < 0 then (none, r.2) else (some (makeFileNode files r.2 key), r.2)

/-- `ramfs_dir_create` and `ramfs_vdir_create`. -/
def create (st : Store) : Obj → Text → Bool → Option (Child Obj) × Store
  | .root, name, dir => createKey files st name dir
  | .vdir d, name, dir => createKey files st (buildKey (st.vdirs d).name name) dir
  | .file _, _, _ => (none, st)

/-- A used virtual directory is given up; its name stays in the slot. -/
def dropVdir (st : Store) (key : Text) : Bool × Store :=
  match vdirAt st key with
  | none => (false, st)
  | some i => (true, { st with vdirs := update st.vdirs i { st.vdirs i with used := false } })

/-- `ramfs_dir_unlink` and `ramfs_vdir_unlink`. -/
def unlink (st : Store) : Obj → Text → Bool × Store
  | .root, name => if fsExists files st name then fsDelete st name else dropVdir st name
  | .vdir d, name =>
    let key := buildKey (st.vdirs d).name name
    if (vdirAt st key).isSome then dropVdir st key else fsDelete st key
  | .file _, _ => (false, st)

/-- `ramfs_file_read`: directly from the start, through a copy of the whole file elsewhere. -/
def fileRead (st : Store) (name : Text) (offset size : Nat) : Option (List UInt8) :=
  let total := fsSize files st name
  if total = 0 ∨ total ≤ offset then some [] else
  let toRead := min (total - offset) size
  if offset = 0 then fsReadBytes files st name toRead
  else (fsReadBytes files st name total).map fun tmp => (tmp.drop offset).take toRead

/-- `ramfs_file_write`: any offset but 0 means append. -/
def fileWrite (st : Store) (name : Text) (offset : Nat) (data : List UInt8) : Written Store :=
  let r := fsWrite st name data (0 < offset)
  ⟨r.1, if 0 ≤ r.1 then some (fsSize files r.2 name) else none, r.2⟩

/-- `ramfs_dir_ops`, `ramfs_vdir_ops` and `ramfs_file_ops`. -/
def driver : Driver Obj Store where
  finddir := finddir files
  create := create files
  unlink := unlink files
  read st o offset size :=
    match o with
    | .file name => (fileRead files st name offset size, st)
    | _ => (none, st)
  write st o offset data :=
    match o with
    | .file name => fileWrite files st name offset data
    | _ => ⟨-1, none, st⟩
  openHook st _ := (true, st)
  closeHook st _ := st

/-! ## What the store does to its files -/

section

variable {files} {st : Store} {name : Text}

theorem firstIdx_congr {n : Nat} {p q : Fin n → Bool} (h : ∀ i, p i = q i) :
    firstIdx p = firstIdx q := by rw [funext h]

variable {i : Fin 32} {w : Wfile}

/-- The entry found for a name holds it. -/
theorem writableAt_some (h : writableAt st name = some i) : ∃ v, st.writable i = some v ∧ v.name = name := by
  have hmatch := firstIdx_some h
  cases hv : st.writable i with
  | none => simp [hv] at hmatch
  | some v => exact ⟨v, rfl, by simpa [hv] using hmatch⟩

/-- Writing entry `i`, which was free or already that of `name`, changes no other file. -/
theorem contents_put_other (hname : w.name = name)
    (hi : ∀ v, st.writable i = some v → v.name = name) {other : Text} (hne : other ≠ name) :
    contents files (st.put i w) other = contents files st other := by
  have hself : (st.put i w).writable i = some w := update_self ..
  have hrest : ∀ j, j ≠ i → (st.put i w).writable j = st.writable j := fun j hj => update_of_ne hj _ _
  have hat : writableAt (st.put i w) other = writableAt st other := by
    refine firstIdx_congr fun j => ?_
    rcases eq_or_ne j i with rfl | hj
    · rw [hself]
      cases hv : st.writable j with
      | none => simp [hname, hne.symm]
      | some v => simp [hname, hi v hv]
    · rw [hrest j hj]
  unfold contents
  rw [hat]
  cases hj : writableAt st other with
  | none => rfl
  | some j =>
    have hji : j ≠ i := by
      rintro rfl
      obtain ⟨v, hv, hmatch⟩ := writableAt_some hj
      exact hne (hmatch.symm.trans (hi v hv))
    simp only [bytesAt, hrest j hji]

/-- The entry that was written is the one found for its name. -/
theorem writableAt_put (hname : w.name = name)
    (hi : writableAt st name = some i ∨ writableAt st name = none) :
    writableAt (st.put i w) name = some i := by
  have hself : (st.put i w).writable i = some w := update_self ..
  rcases hi with hi | hi
  · rw [← hi]
    refine firstIdx_congr fun j => ?_
    rcases eq_or_ne j i with rfl | hj
    · have hmatch := firstIdx_some hi
      rw [hself, hmatch]
      simpa using hname
    · rw [show (st.put i w).writable j = st.writable j from update_of_ne hj _ _]
  · refine firstIdx_unique (by simpa [hself] using hname) fun j hj => ?_
    by_contra hne
    rw [show (st.put i w).writable j = st.writable j from update_of_ne hne _ _,
      firstIdx_eq_none.mp hi j] at hj
    cases hj

theorem contents_put_self (hname : w.name = name)
    (hi : writableAt st name = some i ∨ writableAt st name = none) :
    contents files (st.put i w) name = some (w.data.getD []) := by
  have hself : (st.put i w).writable i = some w := update_self ..
  simp only [contents, writableAt_put hname hi, bytesAt, hself, Option.bind_some]

/-- Whether `fs_write` finds a place for `name`: its entry, or a free one. -/
def HasRoom (st : Store) (name : Text) : Prop :=
  (writableAt st name).isSome ∨ ∃ i, st.writable i = none

instance (st : Store) (name : Text) : Decidable (HasRoom st name) :=
  inferInstanceAs (Decidable (_ ∨ _))

/-- The entry that `fs_write` rewrites: the file's own, or a free one under the same name. -/
theorem writeSlot_replace (hlen : name.length < writeNameMax) (hroom : HasRoom st name) :
    ∃ i w, writeSlot st name false = some (i, w) ∧ w.name = name ∧
      (∀ v, st.writable i = some v → v.name = name) ∧
      (writableAt st name = some i ∨ writableAt st name = none) := by
  cases hat : writableAt st name with
  | some i =>
    obtain ⟨v, hv, hmatch⟩ := writableAt_some hat
    refine ⟨i, v, by simp [writeSlot, hat, hv], hmatch, ?_, .inl rfl⟩
    intro v' hv'
    rw [hv] at hv'
    rwa [← Option.some.inj hv']
  | none =>
    have hfree : ∃ i, st.writable i = none := by
      rcases hroom with h | h
      · simp [hat] at h
      · exact h
    cases hi : firstIdx fun i => (st.writable i).isNone with
    | none =>
      obtain ⟨i, hnone⟩ := hfree
      have := firstIdx_eq_none.mp hi i
      simp [hnone] at this
    | some i =>
      have hnone : st.writable i = none := by simpa using firstIdx_some hi
      refine ⟨i, ⟨name.take (writeNameMax - 1), none⟩, by simp [writeSlot, hat, hi], ?_, ?_, .inr rfl⟩
      · exact List.take_of_length_le (by omega)
      · intro v hv
        rw [hnone] at hv
        cases hv

/-- **Replace**: with room, the file holds `data` and the result is its length. -/
theorem fsWrite_replace (files : List (Text × List UInt8)) (hne : name ≠ []) (hlen : name.length < writeNameMax)
    (hroom : HasRoom st name) {data : List UInt8} (hdata : data ≠ []) :
    (fsWrite st name data false).1 = int32 data.length ∧
    contents files (fsWrite st name data false).2 name = some data ∧
    (writableAt (fsWrite st name data false).2 name).isSome ∧
    ∀ other, other ≠ name →
      contents files (fsWrite st name data false).2 other = contents files st other := by
  obtain ⟨i, w, hslot, hname, hown, hat⟩ := writeSlot_replace hlen hroom
  have hrun : fsWrite st name data false = (int32 data.length, st.put i ⟨w.name, some data⟩) := by
    simp [fsWrite, hne, hslot, hdata]
  rw [hrun]
  dsimp only
  refine ⟨rfl, contents_put_self hname hat, ?_, ?_⟩
  · have hput : writableAt (st.put i ⟨w.name, some data⟩) name = some i := writableAt_put hname hat
    show (writableAt (st.put i ⟨w.name, some data⟩) name).isSome
    rw [hput]
    rfl
  exact fun other hother => contents_put_other (w := ⟨w.name, some data⟩) hname hown hother

/-- Without room nothing is written. -/
theorem fsWrite_full (hroom : ¬ HasRoom st name) (data : List UInt8) :
    fsWrite st name data false = (-1, st) := by
  have hat : writableAt st name = none := by
    cases h : writableAt st name with
    | none => rfl
    | some i => exact absurd (.inl (by simp [h])) hroom
  have hfree : firstIdx (fun i => (st.writable i).isNone) = none := by
    refine firstIdx_eq_none.mpr fun i => ?_
    cases h : st.writable i with
    | none => exact absurd (.inr ⟨i, h⟩) hroom
    | some w => rfl
  simp [fsWrite, writeSlot, hat, hfree]

variable {c : List UInt8}

/-- The writable entry of a file that is not empty. -/
theorem entry_of_contents (hat : writableAt st name = some i)
    (hc : contents files st name = some c) (hpos : c ≠ []) :
    st.writable i = some ⟨name, some c⟩ := by
  have hbytes : bytesAt st i = c := by simpa [contents, hat] using hc
  obtain ⟨w, hv, hmatch⟩ := writableAt_some hat
  cases hd : w.data with
  | none => simp [bytesAt, hv, hd] at hbytes; exact absurd hbytes hpos
  | some old =>
    have hold : old = c := by simpa [bytesAt, hv, hd] using hbytes
    rw [hv, ← hmatch, ← hold, ← hd]

/-- **Append**: the data goes behind the contents, and the answer is the new size. -/
theorem fsWrite_append (hne : name ≠ [])
    (hat : writableAt st name = some i) (hc : contents files st name = some c) (hpos : c ≠ [])
    (data : List UInt8) :
    fsWrite st name data true = (int32 (c ++ data).length, st.put i ⟨name, some (c ++ data)⟩) := by
  simp only [fsWrite, if_neg hne, writeSlot, hat, entry_of_contents hat hc hpos, Option.map_some]

/-- An append to a file that is not empty never answers with the number of bytes written. -/
theorem fsWrite_append_ne {data : List UInt8} (hne : name ≠ [])
    (hc : contents files st name = some c) (hpos : c ≠ []) (hsize : c.length + data.length < 2 ^ 31) :
    (fsWrite st name data true).1 ≠ data.length := by
  cases hat : writableAt st name with
  | none =>
    simp only [fsWrite, if_neg hne, writeSlot, hat, if_true]
    omega
  | some i =>
    rw [fsWrite_append hne hat hc hpos, List.length_append, int32_of_lt hsize]
    have := List.length_pos_of_ne_nil hpos
    omega

/-- Reading a file from its start. -/
theorem fileRead_zero (hc : contents files st name = some c) (n : Nat)
    (hn : 0 < n) : fileRead files st name 0 n = some (c.take n) := by
  have hsize : fsSize files st name = c.length := by simp [fsSize, hc]
  unfold fileRead
  rw [hsize]
  by_cases hnil : c = []
  · rw [if_pos (.inl (by simp [hnil])), hnil, List.take_nil]
  · have hpos := List.length_pos_of_ne_nil hnil
    rw [if_neg (by omega), if_pos rfl, fsReadBytes, if_neg (by omega), hc]
    simp only [Option.map_some, Nat.sub_zero]
    rw [Nat.min_comm, ← List.take_take, List.take_length]

end

/-! ## Through a descriptor -/

section

variable {files} {T : Nat} {s : State T Obj Store}

/-- `fd` is open for reading and writing, without `VFS_O_APPEND`, on the regular file `name`, and its
    offset is `o`. -/
def OpenedAt (s : State T Obj Store) (fd : Int) (name : Text) (o : Nat) : Prop :=
  ∃ i f, slot fd = some i ∧ s.fds (s.current, i) = some f ∧ f.offset = o ∧
    has f.flags oRdonly ∧ has f.flags oWronly ∧ has f.flags oAppend = false ∧
    (s.nodes f.node).impl = .file name ∧ name ≠ [] ∧ name.length < nameMax

def Opened (s : State T Obj Store) (fd : Int) (name : Text) : Prop := ∃ o, OpenedAt s fd name o

/-- `vfs_seek(fd, o, VFS_SEEK_SET)` and then `vfs_write(fd, d)`. -/
def seekWrite (E : Env Obj Store) (fd o : Int) (d : List UInt8) : Vm T Obj Store Int := do
  let _ ← seek fd o .set
  write E fd d

/-- The first `n` bytes of the file, read through `fd`. -/
def readFromStart (E : Env Obj Store) (fd : Int) (n : Nat) : Vm T Obj Store (Option (List UInt8)) := do
  let _ ← seek fd 0 .set
  read E fd n

/-- `c` with the bytes from `o` on replaced by `d`, extended if need be. -/
def splice (c : List UInt8) (o : Nat) (d : List UInt8) : List UInt8 :=
  c.take o ++ d ++ c.drop (o + d.length)

variable {E : Env Obj Store} (hE : E.driver = driver files) {fd : Int} {name : Text}
  {c d : List UInt8} {o : Nat}

theorem Opened.named (h : Opened s fd name) : name ≠ [] ∧ name.length < writeNameMax := by
  obtain ⟨o, i, f, -, -, -, -, -, -, -, hne, hlen⟩ := h
  exact ⟨hne, hlen⟩

/-- A seek moves the offset and nothing else. -/
theorem Opened.seek (h : Opened s fd name) (ho : o < 2 ^ 31) :
    OpenedAt (Vfs.seek fd o .set s).2 fd name o ∧ (Vfs.seek fd o .set s).2.fs = s.fs := by
  obtain ⟨o', i, f, hslot, hfd, -, hr, hw, ha, hobj, hne, hlen⟩ := h
  rw [seek_run hslot hfd (by omega)]
  exact ⟨⟨i, { f with offset := o }, hslot, update_self .., rfl, hr, hw, ha, hobj, hne, hlen⟩, rfl⟩

include hE in
/-- Reading from the start through an open descriptor reads the file. -/
theorem Opened.read (h : Opened s fd name) (hc : contents files s.fs name = some c) {n : Nat}
    (hn : 0 < n) : (readFromStart E fd n s).1 = some (c.take n) := by
  obtain ⟨⟨i, f, hslot, hfd, hoff, hr, -, -, hobj, -, -⟩, hfs⟩ := h.seek (o := 0) (by decide)
  calc (readFromStart E fd n s).1
      = (Vfs.read E fd n (Vfs.seek fd (0 : Nat) .set s).2).1 := rfl
    _ = (E.driver.read (Vfs.seek fd (0 : Nat) .set s).2.fs
          ((Vfs.seek fd (0 : Nat) .set s).2.nodes f.node).impl f.offset n).1 :=
        read_run E hslot hfd hr (by omega)
    _ = fileRead files s.fs name 0 n := by
        rw [hfs, hobj, hoff, hE]
        rfl
    _ = some (c.take n) := fileRead_zero hc n hn

/-- An empty write is nothing at all. -/
theorem OpenedAt.write_nil (h : OpenedAt s fd name o) : write E fd [] s = (0, s) := by
  obtain ⟨i, f, hslot, -⟩ := h
  simp only [Vfs.write, hslot, if_true, Hoare.pure_run]

include hE in
/-- A write hands the data to `fs_write`, which appends unless the offset is 0, and moves the offset
    by what `fs_write` answers. -/
theorem OpenedAt.write (h : OpenedAt s fd name o) (hd : d ≠ []) :
    (Vfs.write E fd d s).1 = (fsWrite s.fs name d (0 < o)).1 ∧
    (Vfs.write E fd d s).2.fs = (fsWrite s.fs name d (0 < o)).2 ∧
    Opened (Vfs.write E fd d s).2 fd name ∧
    (0 < (fsWrite s.fs name d (0 < o)).1 → OpenedAt (Vfs.write E fd d s).2 fd name
      (o + (fsWrite s.fs name d (0 < o)).1.toNat)) := by
  obtain ⟨i, f, hslot, hfd, rfl, hr, hw, ha, hobj, hne, hlen⟩ := h
  obtain ⟨offset, size, hoffset, hrun⟩ := write_run E hslot hfd hw ha hd
  have hdrv : E.driver.write s.fs (s.nodes f.node).impl f.offset d
      = fileWrite files s.fs name f.offset d := by rw [hobj, hE]; rfl
  rw [hdrv] at hoffset hrun
  have hopen : OpenedAt (Vfs.write E fd d s).2 fd name offset := by
    rw [hrun]
    refine ⟨i, { f with offset }, hslot, update_self .., rfl, hr, hw, ha, ?_, hne, hlen⟩
    show (update s.nodes f.node _ f.node).impl = .file name
    rwa [update_self]
  refine ⟨by rw [hrun]; rfl, by rw [hrun]; rfl, ⟨offset, hopen⟩, ?_⟩
  intro hpos
  rwa [show f.offset + (fsWrite s.fs name d (0 < f.offset)).1.toNat = offset from (hoffset hpos).symm]

include hE in
/-- Seeking and writing. -/
theorem Opened.seekWrite (h : Opened s fd name) (ho : o < 2 ^ 31) (hd : d ≠ []) :
    (seekWrite E fd o d s).1 = (fsWrite s.fs name d (0 < o)).1 ∧
    (seekWrite E fd o d s).2.fs = (fsWrite s.fs name d (0 < o)).2 ∧
    Opened (seekWrite E fd o d s).2 fd name := by
  obtain ⟨hat, hfs⟩ := h.seek ho
  obtain ⟨hres, hstore, hopen, -⟩ := hat.write hE hd
  rw [hfs] at hres hstore
  exact ⟨hres, hstore, hopen⟩

theorem Opened.seekWrite_nil (h : Opened s fd name) (ho : o < 2 ^ 31) :
    (Ramfs.seekWrite E fd o [] s).1 = 0 ∧ (Ramfs.seekWrite E fd o [] s).2.fs = s.fs ∧
    Opened (Ramfs.seekWrite E fd o [] s).2 fd name := by
  obtain ⟨hat, hfs⟩ := h.seek ho
  have hrun : Ramfs.seekWrite E fd o [] s = (0, (Vfs.seek fd o .set s).2) := hat.write_nil
  rw [hrun]
  exact ⟨rfl, hfs, o, hat⟩

/-- What a byte array does under a write of `d` at `o`: the count is returned, reading the file gives
    the spliced bytes, no other file has changed. -/
def Spliced (files : List (Text × List UInt8)) (E : Env Obj Store) (s : State T Obj Store) (fd : Int)
    (name : Text) (c : List UInt8) (o : Nat) (d : List UInt8) : Prop :=
  (Ramfs.seekWrite E fd o d s).1 = d.length ∧
  (∀ n, 0 < n → (readFromStart E fd n (Ramfs.seekWrite E fd o d s).2).1 = some ((splice c o d).take n)) ∧
  ∀ other, other ≠ name → contents files (Ramfs.seekWrite E fd o d s).2.fs other
    = contents files s.fs other

theorem splice_zero (c d : List UInt8) : splice c 0 d = d ++ c.drop d.length := by
  simp [splice]

/-- Bytes that agree on every positive number of bytes from the start are the same. -/
theorem eq_of_take {x y : List UInt8} (h : ∀ n, 0 < n → x.take n = y.take n) : x = y := by
  have hx := h (x.length + y.length + 1) (by omega)
  rwa [List.take_of_length_le (by omega), List.take_of_length_le (by omega)] at hx

include hE in
/-- **A write is a byte array's write exactly when** it is empty, or starts at 0, covers all of the
    old contents and finds an entry. -/
theorem spliced_iff (h : Opened s fd name) (hc : contents files s.fs name = some c)
    (ho : o ≤ c.length) (hsize : c.length + d.length < 2 ^ 31) :
    Spliced files E s fd name c o d ↔ d = [] ∨ (o = 0 ∧ c.length ≤ d.length ∧ HasRoom s.fs name) := by
  have hnames := h.named
  have hint : o < 2 ^ 31 := by omega
  by_cases hd : d = []
  · subst hd
    obtain ⟨hres, hfs, hopen⟩ := h.seekWrite_nil (E := E) hint
    refine ⟨fun _ => .inl rfl, fun _ => ⟨hres, ?_, ?_⟩⟩
    · intro n hn
      rw [show splice c o [] = c by simp [splice]]
      exact hopen.read hE (by rwa [hfs]) hn
    · intro other _
      rw [hfs]
  obtain ⟨hres, hfs, hopen⟩ := h.seekWrite hE hint hd
  constructor
  · rintro ⟨hcount, hread, -⟩
    rw [hres] at hcount
    rcases Nat.eq_zero_or_pos o with rfl | hpos
    · -- From the start the contents are replaced.
      by_cases hroom : HasRoom s.fs name
      · obtain ⟨-, hself, -, -⟩ := fsWrite_replace files hnames.1 hnames.2 hroom hd
        refine .inr ⟨rfl, ?_, hroom⟩
        have hsame : d = splice c 0 d := eq_of_take fun n hn => by
          have hnow := hopen.read hE (c := d) (by rwa [hfs]) hn
          rw [hread n hn] at hnow
          exact (Option.some.inj hnow).symm
        rw [splice_zero] at hsame
        have hlen := congrArg List.length hsame
        rw [List.length_append, List.length_drop] at hlen
        omega
      · rw [show decide (0 < 0) = false from rfl, fsWrite_full hroom] at hcount
        simp only at hcount
        omega
    · -- Elsewhere they are appended to, and the result is the new size.
      have hne : c ≠ [] := by
        rintro rfl
        simp only [List.length_nil] at ho
        omega
      rw [decide_eq_true hpos] at hcount
      exact absurd hcount (fsWrite_append_ne hnames.1 hc hne hsize)
  · rintro (hnil | ⟨rfl, hcover, hroom⟩)
    · exact absurd hnil hd
    obtain ⟨hlen, hself, -, hother⟩ := fsWrite_replace files hnames.1 hnames.2 hroom hd
    refine ⟨hres.trans (hlen.trans (int32_of_lt (by omega))), ?_, ?_⟩
    · intro n hn
      rw [splice_zero, List.drop_eq_nil_of_le hcover, List.append_nil]
      exact hopen.read hE (by rwa [hfs]) hn
    · intro other hne
      rw [hfs]
      exact hother other hne

/-- Two `vfs_write` calls through a descriptor at the start of the file. -/
def writeTwice (E : Env Obj Store) (fd : Int) (d₁ d₂ : List UInt8) : Vm T Obj Store Int := do
  let _ ← seek fd 0 .set
  let _ ← write E fd d₁
  write E fd d₂

include hE in
/-- The first write replaces an empty file, the second one appends: the concatenation. -/
theorem writeTwice_contents (h : Opened s fd name) (hc : contents files s.fs name = some [])
    (hroom : HasRoom s.fs name) {d₁ d₂ : List UInt8} (hsize : d₁.length + d₂.length < 2 ^ 31) :
    contents files (writeTwice E fd d₁ d₂ s).2.fs name = some (d₁ ++ d₂) := by
  obtain ⟨hat, hfs⟩ := h.seek (o := 0) (by decide)
  have hnames := h.named
  have hrun : writeTwice E fd d₁ d₂ s
      = write E fd d₂ (write E fd d₁ (Vfs.seek fd (0 : Nat) .set s).2).2 := rfl
  generalize (Vfs.seek fd (0 : Nat) .set s).2 = s₁ at hat hfs hrun
  rw [← hfs] at hc hroom
  rw [hrun]
  -- A write from the start leaves exactly its data, also when there is none.
  have hreplace : ∀ d, contents files (write E fd d s₁).2.fs name = some d := by
    intro d
    by_cases hd : d = []
    · rwa [hd, hat.write_nil]
    · obtain ⟨-, hself, -, -⟩ := fsWrite_replace files hnames.1 hnames.2 hroom hd
      rwa [(hat.write hE hd).2.1]
  by_cases hd₁ : d₁ = []
  · rw [hd₁, hat.write_nil, List.nil_append]
    exact hreplace d₂
  obtain ⟨hlen, hself, hentry, -⟩ := fsWrite_replace files hnames.1 hnames.2 hroom hd₁
  obtain ⟨-, hstore, -, hmoved⟩ := hat.write hE hd₁
  have hpos := List.length_pos_of_ne_nil hd₁
  rw [show decide (0 < 0) = false from rfl] at hstore hmoved
  rw [hlen, int32_of_lt (by omega)] at hmoved
  have hat₁ := hmoved (by omega)
  by_cases hd₂ : d₂ = []
  · rw [hd₂, hat₁.write_nil, List.append_nil]
    exact hreplace d₁
  · rw [(hat₁.write hE hd₂).2.1, hstore, decide_eq_true (by omega)]
    obtain ⟨i, hi⟩ := Option.isSome_iff_exists.mp hentry
    rw [fsWrite_append hnames.1 hi hself hd₁]
    exact contents_put_self rfl (.inl hi)

include hE in
/-- **Ramfs files through descriptors.**  Writing `d` at `o` behaves as on a byte array exactly when
    nothing is written, or the write starts at 0, covers the old contents and finds an entry; and two
    writes through a descriptor at the start of an empty file store the concatenation. -/
theorem byte_array_iff (h : Opened s fd name) (hc : contents files s.fs name = some c)
    (ho : o ≤ c.length) (hsize : c.length + d.length < 2 ^ 31) :
    (Spliced files E s fd name c o d ↔ d = [] ∨ (o = 0 ∧ c.length ≤ d.length ∧ HasRoom s.fs name)) ∧
    (c = [] → HasRoom s.fs name → ∀ d₁ d₂ : List UInt8, d₁.length + d₂.length < 2 ^ 31 →
      contents files (writeTwice E fd d₁ d₂ s).2.fs name = some (d₁ ++ d₂)) := by
  refine ⟨spliced_iff hE h hc ho hsize, ?_⟩
  rintro rfl hroom d₁ d₂ hsize
  exact writeTwice_contents hE h hc hroom hsize

end

/-! ## A booted system with ramfs at the root -/

/-- Ramfs with an empty read-only table, under an allocator that returns the address above all in
    use, so that an address freed last is the next one returned. -/
def plain : Env Obj Store :=
  ⟨driver [], fun inUse _ => some (inUse.foldr max 0 + 1), fun _ => false, true⟩

/-- The state after `vfs_init`, for uid 0, with the root node of ramfs at address 1. -/
def boot (T : Nat) [NeZero T] : State T Obj Store where
  mounts := []
  perms _ := none
  vnodes _ := none
  vnodeTick := 1
  dentries _ := none
  dentryTick := 1
  dentryGen := 1
  nodes _ := ⟨false, true, false, 0, 0, .root⟩
  heap := [1]
  clock := 0
  fds _ := none
  current := 0
  creds := ⟨0, 0, []⟩
  fs := ⟨fun _ => none, fun _ => ⟨false, []⟩⟩
  log := []

/-- Ramfs mounted at `/`. -/
def mounted (T : Nat) [NeZero T] : State T Obj Store := (mount [slash] 1 (boot T)).2

/-- The empty file `/a` open for reading and writing as descriptor 0. -/
def opened : State 1 Obj Store := (openFlags plain [slash, 97] (oRdwr ||| oCreat) (mounted 1)).2

theorem opened_zero : Opened opened 0 [97] :=
  ⟨0, 0, ⟨2, 0, oRdwr ||| oCreat⟩, by decide, by decide +kernel, rfl, by decide, by decide,
    by decide, by decide +kernel, by decide, by decide⟩

/-- The same file once `[1, 2, 3]` was written to it. -/
def filled : State 1 Obj Store := (write plain 0 [1, 2, 3] opened).2

theorem filled_zero : Opened filled 0 [97] :=
  ⟨3, 0, ⟨2, 3, oRdwr ||| oCreat⟩, by decide, by decide +kernel, rfl, by decide, by decide,
    by decide, by decide +kernel, by decide, by decide⟩

/-- Four bytes replace the three of `/a`; two writes to it when it was empty give their concatenation. -/
theorem byte_array_replacing_write : Spliced [] plain filled 0 [97] [1, 2, 3] 0 [4, 5, 6, 7] ∧
    contents [] (writeTwice plain 0 [1] [2, 3] opened).2.fs [97] = some [1, 2, 3] :=
  ⟨(byte_array_iff rfl filled_zero (by decide +kernel) (by decide) (by decide)).1.mpr
      (.inr ⟨rfl, by decide, by decide +kernel⟩),
    (byte_array_iff (o := 0) (d := []) rfl opened_zero (by decide +kernel) (by decide) (by decide)).2 rfl
      (by decide +kernel) [1] [2, 3] (by decide)⟩

/-- Replacing the second byte of `/a` appends the byte and answers with the new size. -/
theorem patch_appends : Opened filled 0 [97] ∧ contents [] filled.fs [97] = some [1, 2, 3] ∧
    (seekWrite plain 0 1 [9] filled).1 = 4 ∧
    contents [] (seekWrite plain 0 1 [9] filled).2.fs [97] = some [1, 2, 3, 9] ∧
    ¬ Spliced [] plain filled 0 [97] [1, 2, 3] 1 [9] := by
  have hres : (seekWrite plain 0 1 [9] filled).1 = 4 := by decide +kernel
  refine ⟨filled_zero, by decide +kernel, hres, by decide +kernel, ?_⟩
  rintro ⟨hcount, -, -⟩
  have : (seekWrite plain 0 1 [9] filled).1 = 1 := hcount
  rw [hres] at this
  cases this

end Lyth.Ramfs
