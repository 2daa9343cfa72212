/-
  THE VIRTUAL FILE SYSTEM (`fs/vfs.c`) — mounts, permissions, the two caches, descriptors.

  1. **Program** — one definition per function of `vfs.c`, as a program over the state of the layer:
     the mount table, the permission table (keyed by PATH STRINGS), the vnode cache (path string to
     node), the dentry cache (address of the parent node and component to node), the descriptor
     tables of the tasks, and the heap of nodes.  The file systems below are a PARAMETER: a `Driver`
     has the operation table of `vfs.h`, over a state `δ` and over what a node stands for, `ω`.

  2. **Nodes are memory.**  A lookup answers with the address of a static node or with a node made
     for this lookup (`VFS_FLAG_DYNAMIC`), which the caller frees.  `Env.kmalloc` chooses its
     address, any one not in use, or fails: so two nodes that are never alive together may share an
     address, and the dentry cache, keyed by addresses, can tell.  `Env.fails` says when a driver
     cannot look a name up (an I/O error, no memory): the layer hears what it hears of a missing name.

  3. **One lookup per component** — `walk`, with the dentry cache in front of the driver.
     `Env.cached` switches the cache's lookups off: the comparison program of a transparency
     statement.  `log` is a ghost that no function reads: what the drivers answered to lookups, and
     when the caches were emptied.  `clock` tells `Env` the time: it counts components and nodes made.

  Not modelled: the mountpoint redirection (no file system sets `mountpoint`), `readdir`, the
  standard descriptors of a new task.  Path strings have no byte 0.
-/
import Lyth.Lib.Table
import Lyth.Lib.Hoare

namespace Lyth.Vfs

open Table Function

/-! ## Names, nodes and drivers -/

/-- A C string without its terminator. -/
abbrev Text := List UInt8

/-- An address of a `vfs_node_t`. -/
abbrev Addr := Nat

/-- The byte `'/'`. -/
def slash : UInt8 := 47

/-- `VFS_NAME_MAX`, `VFS_PATH_MAX`. -/
def nameMax : Nat := 64
def pathMax : Nat := 256

/-- A `vfs_node_t`: its three flags, its size, its reference count, and in `impl` what its driver
    knows it by (`name`, `impl` and `ops`). -/
structure Node (ω : Type) where
  isFile : Bool
  isDir : Bool
  dynamic : Bool
  size : Nat
  refCount : Nat
  impl : ω
deriving DecidableEq

/-- What `finddir` and `create` answer: the address of a static node, or a node just made. -/
inductive Child (ω : Type) where
  | static (a : Addr)
  | dynamic (n : Node ω)

/-- What a driver's `write` does: its `int` result, the size it stores in the node if it does, and
    its new state. -/
structure Written (δ : Type) where
  result : Int
  size : Option Nat
  fs : δ

/-- `vfs_ops_t`.  An operation that a node does not have is one that answers with the error. -/
structure Driver (ω δ : Type) where
  finddir : δ → ω → Text → Option (Child ω)
  create : δ → ω → Text → Bool → Option (Child ω) × δ
  unlink : δ → ω → Text → Bool × δ
  read : δ → ω → Nat → Nat → Option (List UInt8) × δ
  write : δ → ω → Nat → List UInt8 → Written δ
  openHook : δ → ω → Bool × δ
  closeHook : δ → ω → δ

/-- The drivers, the allocator's choice of an address (given the addresses in use and the time), the
    times at which a lookup fails, and whether the dentry cache is consulted. -/
structure Env (ω δ : Type) where
  driver : Driver ω δ
  kmalloc : List Addr → Nat → Option Addr
  fails : Nat → Bool
  cached : Bool

/-- The same system with the dentry cache's lookups removed. -/
def Env.uncached {ω δ : Type} (E : Env ω δ) : Env ω δ := { E with cached := false }

/-! ## The state -/

/-- `vfs_perm_entry_t`. -/
structure Perm where
  path : Text
  mode : UInt32
  uid : UInt32
  gid : UInt32
deriving DecidableEq

/-- `vfs_vnode_cache_entry_t`. -/
structure Vnode where
  age : UInt32
  path : Text
  node : Addr
deriving DecidableEq

/-- `vfs_dentry_cache_entry_t`; `node` is `none` in a cached miss. -/
structure Dentry where
  age : UInt32
  gen : UInt32
  parent : Addr
  name : Text
  node : Option Addr
deriving DecidableEq

/-- `vfs_fd_entry_t` of an entry in use. -/
structure Fd where
  node : Addr
  offset : Nat
  flags : UInt32
deriving DecidableEq

/-- A lookup of `name` in the node at `dir` with its answer (`none` for a node just made, `some r` for
    one that may be cached), or `vfs_cache_invalidate_all`. -/
inductive Event where
  | lookup (dir : Addr) (name : Text) (answer : Option (Option Addr))
  | invalidated
deriving DecidableEq

/-- The credentials of the running task. -/
structure Creds where
  euid : UInt32
  egid : UInt32
  groups : List UInt32

/-- `task_in_group`. -/
def Creds.inGroup (me : Creds) (gid : UInt32) : Bool := me.egid = gid || gid ∈ me.groups

/-- The state of the layer, with `T` descriptor tables of which `current` is in force. -/
structure State (T : Nat) (ω δ : Type) where
  mounts : List (Text × Addr)
  perms : Fin 256 → Option Perm
  vnodes : Fin 64 → Option Vnode
  vnodeTick : UInt32
  dentries : Fin 128 → Option Dentry
  dentryTick : UInt32
  dentryGen : UInt32
  nodes : Addr → Node ω
  heap : List Addr
  clock : Nat
  fds : Fin T × Fin 32 → Option Fd
  current : Fin T
  creds : Creds
  fs : δ
  log : List Event

/-- A function of the layer. -/
abbrev Vm (T : Nat) (ω δ : Type) := StateM (State T ω δ)

variable {T : Nat} {ω δ : Type} (E : Env ω δ) (path : Text)

/-! ## The heap of nodes -/

def node (a : Addr) : Vm T ω δ (Node ω) := fun s => (s.nodes a, s)

def setNode (a : Addr) (n : Node ω) : Vm T ω δ Unit :=
  fun s => ((), { s with nodes := update s.nodes a n })

/-- A driver's `kmalloc` of a node with the contents `n`. -/
def allocNode (n : Node ω) : Vm T ω δ (Option Addr) := fun s =>
  match E.kmalloc s.heap s.clock with
  | none => (none, s)
  | some a =>
    (some a, { s with
      nodes := update s.nodes a { n with dynamic := true }
      heap := a :: s.heap
      clock := s.clock + 1 })

/-- The address of the node in a driver's answer. -/
def adopt : Option (Child ω) → Vm T ω δ (Option Addr)
  | none => pure none
  | some (.static a) => pure (some a)
  | some (.dynamic n) => allocNode E n

def kfree (a : Addr) : Vm T ω δ Unit :=
  fun s => ((), { s with heap := s.heap.filter (· ≠ a) })

/-- `if (node->flags & VFS_FLAG_DYNAMIC) kfree(node)`. -/
def freeDynamic (a : Addr) : Vm T ω δ Unit := do
  let n ← node a
  if n.dynamic then kfree a else pure ()

/-- `if (dynamic_node && node->ref_count == 0U) kfree(node)`. -/
def release (a : Addr) : Vm T ω δ Unit := do
  let n ← node a
  if n.dynamic ∧ n.refCount = 0 then kfree a else pure ()

/-! ## Calls into the drivers -/

def callFinddir (o : ω) (name : Text) : Vm T ω δ (Option (Child ω)) :=
  fun s => (if E.fails s.clock then none else E.driver.finddir s.fs o name, s)

/-- A call `g` into the drivers. -/
def callDriver {α : Type} (g : δ → α × δ) : Vm T ω δ α :=
  fun s => ((g s.fs).1, { s with fs := (g s.fs).2 })

def callCreate (o : ω) (name : Text) (dir : Bool) : Vm T ω δ (Option (Child ω)) :=
  callDriver fun fs => E.driver.create fs o name dir

def callUnlink (o : ω) (name : Text) : Vm T ω δ Bool :=
  callDriver fun fs => E.driver.unlink fs o name

def callRead (o : ω) (offset size : Nat) : Vm T ω δ (Option (List UInt8)) :=
  callDriver fun fs => E.driver.read fs o offset size

def callWrite (o : ω) (offset : Nat) (data : List UInt8) : Vm T ω δ (Written δ) :=
  callDriver fun fs =>
    let r := E.driver.write fs o offset data
    (r, r.fs)

def callOpen (o : ω) : Vm T ω δ Bool :=
  callDriver fun fs => E.driver.openHook fs o

def callClose (o : ω) : Vm T ω δ Unit :=
  callDriver fun fs => ((), E.driver.closeHook fs o)

/-- The ghost's entry for a lookup. -/
def note (a : Addr) (name : Text) (found : Option Addr) : Vm T ω δ Unit := fun s =>
  let answer := if found.any fun b => (s.nodes b).dynamic then none else some found
  ((), { s with log := .lookup a name answer :: s.log })

/-- `vfs_node_finddir`, `vfs_node_create` and `vfs_node_unlink`. -/
def nodeFinddir (a : Addr) (name : Text) : Vm T ω δ (Option Addr) := do
  let n ← node a
  let found ← callFinddir E n.impl name
  let found ← adopt E found
  note a name found
  pure found

def nodeCreate (a : Addr) (name : Text) (dir : Bool) : Vm T ω δ (Option Addr) := do
  let n ← node a
  let made ← callCreate E n.impl name dir
  adopt E made

def nodeUnlink (a : Addr) (name : Text) : Vm T ω δ Bool := do
  let n ← node a
  callUnlink E n.impl name

/-! ## The two caches -/

/-- The next value of a cache's clock, which skips 0. -/
def tick (t : UInt32) : UInt32 := if t + 1 = 0 then 1 else t + 1

/-- The slot a new entry goes to: the first free one, else the first of the least recently used
    (`free` and `age` of each slot). -/
def victim {n : Nat} (free : Fin n → Bool) (age : Fin n → UInt32) : Option (Fin n) :=
  match firstIdx free with
  | some i => some i
  | none =>
    ((List.finRange n).foldl (fun (best : UInt32 × Option (Fin n)) i =>
      if age i < best.1 then (age i, some i) else best) (0xFFFFFFFF, none)).2

/-- `vfs_vnode_cache_lookup`. -/
def vnodeLookup (path : Text) : Vm T ω δ (Option Addr) := fun s =>
  match firstIdx fun i => (s.vnodes i).any (·.path = path) with
  | none => (none, s)
  | some i =>
    match s.vnodes i with
    | none => (none, s)
    | some v =>
      (some v.node, { s with
        vnodes := update s.vnodes i (some { v with age := s.vnodeTick })
        vnodeTick := tick s.vnodeTick })

/-- `vfs_vnode_cache_insert`. -/
def vnodeInsert (path : Text) (a : Addr) : Vm T ω δ Unit := fun s =>
  if path = [] then ((), s) else
  match firstIdx fun i => (s.vnodes i).any (·.path = path) with
  | some i =>
    ((), { s with
      vnodes := update s.vnodes i (some ⟨s.vnodeTick, path, a⟩)
      vnodeTick := tick s.vnodeTick })
  | none =>
    match victim (fun i => (s.vnodes i).isNone) (fun i => ((s.vnodes i).map Vnode.age).getD 0) with
    | none => ((), s)
    | some i =>
      ((), { s with
        vnodes := update s.vnodes i (some ⟨s.vnodeTick, path.take (pathMax - 1), a⟩)
        vnodeTick := tick s.vnodeTick })

/-- `vfs_vnode_cache_remove_node`. -/
def vnodeRemoveNode (a : Addr) : Vm T ω δ Unit := fun s =>
  ((), { s with vnodes := fun i => (s.vnodes i).filter (·.node ≠ a) })

/-- An entry of the present generation for `name` under the node at `parent`. -/
def Dentry.for (gen : UInt32) (parent : Addr) (name : Text) (d : Dentry) : Bool :=
  d.gen = gen ∧ d.parent = parent ∧ d.name = name

/-- `vfs_dentry_cache_lookup`: nothing cached, a cached miss, or a cached node. -/
def dentryLookup (parent : Addr) (name : Text) : Vm T ω δ (Option (Option Addr)) := fun s =>
  let s := { s with clock := s.clock + 1 }
  if E.cached then
    match firstIdx fun i => (s.dentries i).any (Dentry.for s.dentryGen parent name) with
    | none => (none, s)
    | some i =>
      match s.dentries i with
      | none => (none, s)
      | some d =>
        (some d.node, { s with
          dentries := update s.dentries i (some { d with age := s.dentryTick })
          dentryTick := tick s.dentryTick })
  else (none, s)

/-- `vfs_dentry_cache_insert`. -/
def dentryInsert (parent : Addr) (name : Text) (child : Option Addr) : Vm T ω δ Unit := fun s =>
  if name = [] then ((), s) else
  match firstIdx fun i => (s.dentries i).any (Dentry.for s.dentryGen parent name) with
  | some i =>
    ((), { s with
      dentries := update s.dentries i (some ⟨s.dentryTick, s.dentryGen, parent, name, child⟩)
      dentryTick := tick s.dentryTick })
  | none =>
    match victim (fun i => !(s.dentries i).any (·.gen = s.dentryGen))
        (fun i => ((s.dentries i).map Dentry.age).getD 0) with
    | none => ((), s)
    | some i =>
      ((), { s with
        dentries := update s.dentries i
          (some ⟨s.dentryTick, s.dentryGen, parent, name.take (nameMax - 1), child⟩)
        dentryTick := tick s.dentryTick })

/-- `vfs_cache_invalidate_all`. -/
def invalidateAll : Vm T ω δ Unit := fun s =>
  ((), { s with
    vnodes := fun _ => none
    dentryGen := tick s.dentryGen
    dentries := fun _ => none
    log := .invalidated :: s.log })

/-! What the allocator and the cache operations can do to the state, once for all proofs. -/

section

variable {s : State T ω δ}

theorem allocNode_cases (n : Node ω) : allocNode E n s = (none, s) ∨
    ∃ a, E.kmalloc s.heap s.clock = some a ∧ allocNode E n s = (some a, { s with
      nodes := update s.nodes a { n with dynamic := true }
      heap := a :: s.heap
      clock := s.clock + 1 }) := by
  cases ha : E.kmalloc s.heap s.clock with
  | none => exact .inl (by simp only [allocNode, ha])
  | some a => exact .inr ⟨a, rfl, by simp only [allocNode, ha]⟩

theorem vnodeLookup_cases :
    vnodeLookup path s = (none, s) ∨ ∃ i v, s.vnodes i = some v ∧ v.path = path ∧
      vnodeLookup path s = (some v.node, { s with
        vnodes := update s.vnodes i (some { v with age := s.vnodeTick })
        vnodeTick := tick s.vnodeTick }) := by
  cases hi : firstIdx fun i => (s.vnodes i).any (·.path = path) with
  | none => exact .inl (by simp only [vnodeLookup, hi])
  | some i =>
    cases hv : s.vnodes i with
    | none => exact .inl (by simp only [vnodeLookup, hi, hv])
    | some v =>
      have hpath := firstIdx_some hi
      rw [hv] at hpath
      exact .inr ⟨i, v, hv, by simpa using hpath, by simp only [vnodeLookup, hi, hv]⟩

theorem vnodeInsert_cases (a : Addr) :
    (vnodeInsert path a s).2 = s ∨ ∃ i path', (path' = path ∨ path' = path.take (pathMax - 1)) ∧
      (vnodeInsert path a s).2 = { s with
        vnodes := update s.vnodes i (some ⟨s.vnodeTick, path', a⟩)
        vnodeTick := tick s.vnodeTick } := by
  by_cases hnil : path = []
  · exact .inl (by simp only [vnodeInsert, if_pos hnil])
  cases hi : firstIdx fun i => (s.vnodes i).any (·.path = path) with
  | some i => exact .inr ⟨i, path, .inl rfl, by simp only [vnodeInsert, if_neg hnil, hi]⟩
  | none =>
    cases hv : victim (fun i => (s.vnodes i).isNone) (fun i => ((s.vnodes i).map Vnode.age).getD 0) with
    | none => exact .inl (by simp only [vnodeInsert, if_neg hnil, hi, hv])
    | some i => exact .inr ⟨i, _, .inr rfl, by simp only [vnodeInsert, if_neg hnil, hi, hv]⟩

theorem dentryLookup_cases (parent : Addr) (name : Text) :
    dentryLookup E parent name s = (none, { s with clock := s.clock + 1 }) ∨
    ∃ i d, E.cached ∧ s.dentries i = some d ∧ d.gen = s.dentryGen ∧ d.parent = parent ∧ d.name = name ∧
      dentryLookup E parent name s = (some d.node, { s with
        dentries := update s.dentries i (some { d with age := s.dentryTick })
        dentryTick := tick s.dentryTick
        clock := s.clock + 1 }) := by
  by_cases hc : E.cached
  swap
  · exact .inl (by simp only [dentryLookup, if_neg hc])
  cases hi : firstIdx fun i => (s.dentries i).any (Dentry.for s.dentryGen parent name) with
  | none => exact .inl (by simp only [dentryLookup, if_pos hc, hi])
  | some i =>
    cases hd : s.dentries i with
    | none => exact .inl (by simp only [dentryLookup, if_pos hc, hi, hd])
    | some d =>
      have hfor := firstIdx_some hi
      simp only [hd, Option.any_some, Dentry.for, decide_eq_true_eq] at hfor
      exact .inr ⟨i, d, hc, hd, hfor.1, hfor.2.1, hfor.2.2, by
        simp only [dentryLookup, if_pos hc, hi, hd]⟩

theorem dentryInsert_cases (parent : Addr) (name : Text) (child : Option Addr) :
    (dentryInsert parent name child s).2 = s ∨
      ∃ i name', (name' = name ∨ name' = name.take (nameMax - 1)) ∧
        (dentryInsert parent name child s).2 = { s with
          dentries := update s.dentries i
            (some ⟨s.dentryTick, s.dentryGen, parent, name', child⟩)
          dentryTick := tick s.dentryTick } := by
  by_cases hnil : name = []
  · exact .inl (by simp only [dentryInsert, if_pos hnil])
  cases hi : firstIdx fun i => (s.dentries i).any (Dentry.for s.dentryGen parent name) with
  | some i => exact .inr ⟨i, name, .inl rfl, by simp only [dentryInsert, if_neg hnil, hi]⟩
  | none =>
    cases hv : victim (fun i => !(s.dentries i).any (·.gen = s.dentryGen))
        (fun i => ((s.dentries i).map Dentry.age).getD 0) with
    | none => exact .inl (by simp only [dentryInsert, if_neg hnil, hi, hv])
    | some i => exact .inr ⟨i, _, .inr rfl, by simp only [dentryInsert, if_neg hnil, hi, hv]⟩

end

/-! ## Path resolution -/

/-- Whether the mount at `mp` governs `path`: `mp` is a prefix that ends at a separator or at the
    end of `path`. -/
def covers (mp path : Text) : Bool :=
  mp.isPrefixOf path && ((path.drop mp.length).head?.all (· = slash))

/-- One iteration of `vfs_find_mount`: the mount `m` against the best root and length so far. -/
def betterMount (path : Text) (best : Option Addr × Nat) (m : Text × Addr) : Option Addr × Nat :=
  if m.1 = [slash] then
    if path.head? = some slash ∧ best.2 = 0 then (some m.2, 1) else best
  else if covers m.1 path ∧ best.2 < m.1.length then (some m.2, m.1.length)
  else best

/-- `vfs_find_mount`: the root and the length of the deepest mount that governs `path`. -/
def findMount (mounts : List (Text × Addr)) (path : Text) : Option Addr × Nat :=
  mounts.foldl (betterMount path) (none, 0)

theorem betterMount_root {path : Text} {best : Option Addr × Nat} {m : Text × Addr} {root : Addr}
    (h : (betterMount path best m).1 = some root) : m.2 = root ∨ best.1 = some root := by
  unfold betterMount at h
  split at h
  · split at h
    · exact .inl (Option.some.inj h)
    · exact .inr h
  · split at h
    · exact .inl (Option.some.inj h)
    · exact .inr h

/-- The root found is that of one of the mounts. -/
theorem findMount_mem {mounts : List (Text × Addr)} {path : Text} {root : Addr}
    (h : (findMount mounts path).1 = some root) : ∃ m ∈ mounts, m.2 = root := by
  have hfold : ∀ (ms : List (Text × Addr)) (best : Option Addr × Nat),
      (ms.foldl (betterMount path) best).1 = some root → best.1 = some root ∨ ∃ m ∈ ms, m.2 = root := by
    intro ms
    induction ms with
    | nil => exact fun best hbest => .inl hbest
    | cons m ms ih =>
      intro best hfold
      rcases ih _ hfold with hbest | ⟨m', hm', hroot⟩
      · rcases betterMount_root hbest with hroot | hbest
        · exact .inr ⟨m, (.head _), hroot⟩
        · exact .inl hbest
      · exact .inr ⟨m', .tail _ hm', hroot⟩
  rcases hfold mounts (none, 0) h with hnone | hmem
  · cases hnone
  · exact hmem

/-- A leading separator is skipped. -/
def skipSlash : Text → Text
  | [] => []
  | c :: rest => if c = slash then rest else c :: rest

/-- The components of `rest` in the order the walk meets them: up to a separator or 63 bytes, the
    empty ones dropped.  `fuel` bounds the iterations; each eats a byte. -/
def componentsFrom : Nat → Text → List Text
  | 0, _ => []
  | fuel + 1, rest =>
    if rest = [] then [] else
    let comp := (rest.takeWhile (· ≠ slash)).take (nameMax - 1)
    let rest' := skipSlash (rest.drop comp.length)
    if comp = [] then componentsFrom fuel rest' else comp :: componentsFrom fuel rest'

def components (rest : Text) : List Text := componentsFrom rest.length rest

/-- The answer of the driver is cached unless it is a dynamic node. -/
def remember (current : Addr) (comp : Text) (next : Addr) : Vm T ω δ Unit := do
  let n ← node next
  if n.dynamic then pure () else dentryInsert current comp (some next)

/-- The walk of `vfs_resolve` from the node at `current`: each node made on the way is freed once
    its successor is known. -/
def walk : Addr → List Text → Vm T ω δ (Option Addr)
  | current, [] => pure (some current)
  | current, comp :: rest => do
    let hit ← dentryLookup E current comp
    match hit with
    | some none => do
      freeDynamic current
      pure none
    | some (some next) => do
      freeDynamic current
      walk next rest
    | none => do
      let found ← nodeFinddir E current comp
      match found with
      | none => do
        dentryInsert current comp none
        freeDynamic current
        pure none
      | some next => do
        remember current comp next
        freeDynamic current
        walk next rest

def mountFor (path : Text) : Vm T ω δ (Option Addr × Nat) := fun s => (findMount s.mounts path, s)

/-- `vfs_resolve`. -/
def resolve (path : Text) : Vm T ω δ (Option Addr) := do
  let best ← mountFor path
  match best.1 with
  | none => pure none
  | some root => walk E root (components (skipSlash (path.drop best.2)))

/-- `split_path`: the parent directory and the last component.  The component keeps any trailing
    separators of `path`. -/
def splitPath (path : Text) : Option (Text × Text) :=
  if path.head? ≠ some slash then none else
  let len := (path.reverse.dropWhile (· = slash)).length
  -- The first byte is never stripped.
  let len := if len = 0 then 1 else len
  -- The last separator among the bytes that are left.
  let last := len - 1 - ((path.take len).reverse.takeWhile (· ≠ slash)).length
  let src := path.drop (last + 1)
  if src = [] then none else
  some (if last = 0 then [slash] else path.take (min last (pathMax - 1)), src.take (nameMax - 1))

/-! ## Permissions -/

/-- Why a call returns `-1`.  The code does not say: `denied` marks the returns taken because of the
    mode bits, `failed` all others. -/
inductive Refusal where
  | denied
  | failed
deriving DecidableEq

/-- `VFS_MODE_FILE_DEFAULT`, `VFS_MODE_DIR_DEFAULT`, `VFS_MODE_ROOT_DEFAULT`. -/
def fileDefault : UInt32 := 0x1A4
def dirDefault : UInt32 := 0x1ED
def rootDefault : UInt32 := 0x1FF

/-- `vfs_default_mode_for_path`. -/
def defaultMode (path : Text) (dir : Bool) : UInt32 :=
  if path = [slash] then rootDefault else if dir then dirDefault else fileDefault

/-- The record `vfs_perm_find` finds under the string `path`. -/
def permFind (perms : Fin 256 → Option Perm) (path : Text) : Option (Fin 256) :=
  firstIdx fun i => (perms i).any (·.path = path)

/-- The record kept under the string `path`. -/
def permRecord (perms : Fin 256 → Option Perm) (path : Text) : Option Perm :=
  (permFind perms path).bind perms

def permGet (path : Text) : Vm T ω δ (Option Perm) := fun s => (permRecord s.perms path, s)

/-- `vfs_perm_set`; `false` when the table is full. -/
def permSet (path : Text) (mode uid gid : UInt32) : Vm T ω δ Bool := fun s =>
  match permFind s.perms path with
  | some i =>
    (true, { s with perms := update s.perms i (some ⟨path, mode &&& 0x1FF, uid, gid⟩) })
  | none =>
    match firstIdx fun i => (s.perms i).isNone with
    | none => (false, s)
    | some i =>
      (true, { s with perms := update s.perms i (some ⟨path.take (pathMax - 1), mode &&& 0x1FF, uid, gid⟩) })

/-- `vfs_perm_remove`. -/
def permRemove (path : Text) : Vm T ω δ Unit := fun s =>
  match permFind s.perms path with
  | none => ((), s)
  | some i => ((), { s with perms := update s.perms i none })

/-- Storing a record changes the permission table alone. -/
theorem permSet_cases {s : State T ω δ} (mode uid gid : UInt32) :
    permSet path mode uid gid s = (false, s) ∨
      ∃ perms, permSet path mode uid gid s = (true, { s with perms }) := by
  cases hi : permFind s.perms path with
  | some i => exact .inr ⟨_, by simp only [permSet, hi]; rfl⟩
  | none =>
    cases hf : firstIdx fun i => (s.perms i).isNone with
    | none => exact .inl (by simp only [permSet, hi, hf])
    | some i => exact .inr ⟨_, by simp only [permSet, hi, hf]; rfl⟩

theorem permRemove_eq {s : State T ω δ} :
    ∃ perms, (permRemove path s).2 = { s with perms } := by
  cases hi : permFind s.perms path with
  | none => exact ⟨s.perms, by simp only [permRemove, hi]⟩
  | some i => exact ⟨_, by simp only [permRemove, hi]; rfl⟩

/-- `vfs_mode_check_read`, `_write` and `_exec`: the bit of the owner, of the group or of the
    others; none of them binds uid 0. -/
def modeCheck (usr grp oth : UInt32) (me : Creds) (p : Perm) : Bool :=
  if me.euid = 0 then true
  else if me.euid = p.uid then p.mode &&& usr ≠ 0
  else if me.inGroup p.gid then p.mode &&& grp ≠ 0
  else p.mode &&& oth ≠ 0

def modeCheckRead : Creds → Perm → Bool := modeCheck 0x100 0x20 0x4
def modeCheckWrite : Creds → Perm → Bool := modeCheck 0x80 0x10 0x2
def modeCheckExec : Creds → Perm → Bool := modeCheck 0x40 0x8 0x1

def creds : Vm T ω δ Creds := fun s => (s.creds, s)

/-- `vfs_get_mode`: a path without a record gets the default of its node. -/
def getMode (path : Text) : Vm T ω δ (Option UInt32) := do
  let rec? ← permGet path
  match rec? with
  | some p => pure (some p.mode)
  | none => do
    let found ← resolve E path
    match found with
    | none => pure none
    | some a => do
      let n ← node a
      let stored ← permSet path (defaultMode path n.isDir) 0 0
      release a
      pure (if stored then some (defaultMode path n.isDir) else none)

/-- The record of `path`, made first if there is none. -/
def ownerRecord (path : Text) : Vm T ω δ (Option Perm) := do
  let rec? ← permGet path
  match rec? with
  | some p => pure (some p)
  | none => do
    let mode ← getMode E path
    match mode with
    | none => pure none
    | some _ => permGet path

/-- `vfs_get_owner`. -/
def getOwner (path : Text) : Vm T ω δ (Option (UInt32 × UInt32)) := do
  let p ← ownerRecord E path
  pure (p.map fun p => (p.uid, p.gid))

/-- Whether the running task may change the directory `dir`: the check that `vfs_create`,
    `vfs_delete` and `vfs_rename` make on the string of the directory. -/
def mayChange (dir : Text) : Vm T ω δ (Except Refusal Unit) := do
  let mode ← getMode E dir
  match mode with
  | none => pure (.error .failed)
  | some mode => do
    let owner ← getOwner E dir
    match owner with
    | none => pure (.error .failed)
    | some owner => do
      let me ← creds
      let p : Perm := ⟨dir, mode, owner.1, owner.2⟩
      pure (if modeCheckWrite me p ∧ modeCheckExec me p then .ok () else .error .denied)

/-! ## Mount, create, delete -/

/-- The first free entry of the mount table; `false` when it is full. -/
def addMount (path : Text) (root : Addr) : Vm T ω δ Bool := fun s =>
  if s.mounts.length < 16 then (true, { s with mounts := s.mounts ++ [(path, root)] })
  else (false, s)

/-- `vfs_mount`. -/
def mount (path : Text) (root : Addr) : Vm T ω δ Bool := do
  let path := path.take (pathMax - 1)
  let added ← addMount path root
  if added then do
    let n ← node root
    let _ ← permSet path (defaultMode path n.isDir) 0 0
    invalidateAll
    pure true
  else pure false

/-- `vfs_create`; `dir` for `VFS_FLAG_DIR`. -/
def create (path : Text) (dir : Bool) : Vm T ω δ (Except Refusal Unit) :=
  match splitPath path with
  | none => pure (.error .failed)
  | some (parent, name) => do
    let allowed ← mayChange E parent
    match allowed with
    | .error r => pure (.error r)
    | .ok () => do
      let found ← resolve E parent
      match found with
      | none => pure (.error .failed)
      | some d => do
        let made ← nodeCreate E d name dir
        freeDynamic d
        match made with
        | none => pure (.error .failed)
        | some a => do
          let me ← creds
          let _ ← permSet path (if dir then dirDefault else fileDefault) me.euid me.egid
          freeDynamic a
          invalidateAll
          pure (.ok ())

/-- `vfs_delete`. -/
def delete (path : Text) : Vm T ω δ (Except Refusal Unit) :=
  match splitPath path with
  | none => pure (.error .failed)
  | some (parent, name) => do
    let allowed ← mayChange E parent
    match allowed with
    | .error r => pure (.error r)
    | .ok () => do
      let found ← resolve E parent
      match found with
      | none => pure (.error .failed)
      | some d => do
        let gone ← nodeUnlink E d name
        freeDynamic d
        if gone then do
          permRemove path
          invalidateAll
          pure (.ok ())
        else pure (.error .failed)

/-! ## Descriptors -/

/-- `vfs_node_ref`, and the initialisation of a fresh node's count in `vfs_open_flags`. -/
def ref (a : Addr) : Vm T ω δ Unit := do
  let n ← node a
  setNode a { n with refCount := n.refCount + 1 }

/-- `vfs_node_unref`: the last reference calls the close hook and frees a dynamic node. -/
def unref (a : Addr) : Vm T ω δ Unit := do
  let n ← node a
  setNode a { n with refCount := n.refCount - 1 }
  if n.refCount - 1 = 0 then do
    vnodeRemoveNode a
    callClose E n.impl
    freeDynamic a
  else pure ()

/-- `VFS_O_RDONLY`, `VFS_O_WRONLY` and so on. -/
def oRdonly : UInt32 := 0x1
def oWronly : UInt32 := 0x2
def oRdwr : UInt32 := 0x3
def oAppend : UInt32 := 0x10
def oCreat : UInt32 := 0x20
def oTrunc : UInt32 := 0x40
def oExcl : UInt32 := 0x80
def oDirectory : UInt32 := 0x100

/-- `flags & bit`. -/
def has (flags bit : UInt32) : Bool := flags &&& bit ≠ 0

/-- `vfs_open_sanitize_flags`. -/
def sanitize (flags : UInt32) : UInt32 := if flags &&& oRdwr = 0 then flags ||| oRdwr else flags

/-- The node `vfs_open_flags` starts from: the vnode cache's, else the one resolution finds. -/
def openLookup (path : Text) : Vm T ω δ (Option Addr) := do
  let hit ← vnodeLookup path
  match hit with
  | some a => pure (some a)
  | none => resolve E path

/-- The refusals of `vfs_open_flags` that depend on the record and the node, in the code's order. -/
def openVerdict (flags : UInt32) (me : Creds) (p : Perm) (n : Node ω) : Option Refusal :=
  let needWrite := has flags oWronly || has flags (oTrunc ||| oAppend)
  if has flags oRdonly ∧ ¬ modeCheckRead me p then some .denied
  else if needWrite ∧ ¬ modeCheckWrite me p then some .denied
  else if n.isDir ∧ ¬ modeCheckExec me p then some .denied
  else if has flags oDirectory ∧ ¬ n.isDir then some .failed
  else if n.isDir ∧ flags &&& oRdwr = oWronly then some .failed
  else none

/-- The checks of `vfs_open_flags` on the node it found; `none` when it goes on. -/
def openChecks (path : Text) (flags : UInt32) (a : Addr) : Vm T ω δ (Option Refusal) := do
  let mode ← getMode E path
  match mode with
  | none => pure (some .failed)
  | some mode => do
    let owner ← getOwner E path
    match owner with
    | none => pure (some .failed)
    | some owner => do
      let n ← node a
      let me ← creds
      pure (openVerdict flags me ⟨path, mode, owner.1, owner.2⟩ n)

def currentTable : Vm T ω δ (Fin T) := fun s => (s.current, s)

def fdAt (p : Fin T × Fin 32) : Vm T ω δ (Option Fd) := fun s => (s.fds p, s)

def setFd (p : Fin T × Fin 32) (f : Option Fd) : Vm T ω δ Unit :=
  fun s => ((), { s with fds := update s.fds p f })

/-- The first free slot of a table. -/
def freeSlot (t : Fin T) : Vm T ω δ (Option (Fin 32)) :=
  fun s => (firstIdx fun i => (s.fds (t, i)).isNone, s)

/-- A free slot of the current table takes the node; without one the reference is dropped. -/
def installFd (a : Addr) (offset : Nat) (flags : UInt32) :
    Vm T ω δ (Except Refusal (Fin 32)) := do
  let t ← currentTable
  let free ← freeSlot t
  match free with
  | some i => do
    setFd (t, i) (some ⟨a, offset, flags⟩)
    pure (.ok i)
  | none => do
    unref E a
    pure (.error .failed)

/-- The end of `vfs_open_flags`: the open hook, the reference, the vnode cache, the slot. -/
def openInstall (path : Text) (flags : UInt32) (a : Addr) :
    Vm T ω δ (Except Refusal (Fin 32)) := do
  let n ← node a
  let opened ← callOpen E n.impl
  if opened then do
    ref a
    vnodeInsert path a
    let n ← node a
    installFd E a (if has flags oAppend then n.size else 0) flags
  else do
    release a
    pure (.error .failed)

/-- `VFS_O_TRUNC`: the file is deleted and created anew. -/
def recreate (path : Text) : Vm T ω δ (Except Refusal Addr) := do
  let gone ← delete E path
  match gone with
  | .error r => pure (.error r)
  | .ok () => do
    let made ← create E path false
    match made with
    | .error r => pure (.error r)
    | .ok () => do
      let found ← resolve E path
      pure (found.elim (.error .failed) .ok)

/-- `vfs_open_flags` from the node it found. -/
def openFound (path : Text) (flags : UInt32) (a : Addr) : Vm T ω δ (Except Refusal (Fin 32)) := do
  let verdict ← openChecks E path flags a
  match verdict with
  | some r => do
    release a
    pure (.error r)
  | none => do
    let n ← node a
    if has flags oTrunc ∧ has flags oWronly ∧ n.isFile then do
      release a
      let fresh ← recreate E path
      match fresh with
      | .error r => pure (.error r)
      | .ok b => openInstall E path flags b
    else openInstall E path flags a

/-- `vfs_open_flags`. -/
def openFlags (path : Text) (flags : UInt32) : Vm T ω δ (Except Refusal (Fin 32)) := do
  let flags := sanitize flags
  let found ← openLookup E path
  match found with
  | some a =>
    if has flags oCreat ∧ has flags oExcl then do
      release a
      pure (.error .failed)
    else openFound E path flags a
  | none =>
    if has flags oCreat then do
      let made ← create E path false
      match made with
      | .error r => pure (.error r)
      | .ok () => do
        let found ← resolve E path
        match found with
        | none => pure (.error .failed)
        | some a => openFound E path flags a
    else pure (.error .failed)

/-- `vfs_fd_install_node`. -/
def fdInstallNode (a : Addr) (flags : UInt32) : Vm T ω δ (Except Refusal (Fin 32)) := do
  ref a
  installFd E a 0 flags

/-- A descriptor number as a slot. -/
def slot (fd : Int) : Option (Fin 32) :=
  if h : 0 ≤ fd ∧ fd < 32 then some ⟨fd.toNat, by omega⟩ else none

/-- One entry of a table is closed. -/
def closeSlot (p : Fin T × Fin 32) : Vm T ω δ Unit := do
  let f ← fdAt p
  match f with
  | none => pure ()
  | some f => do
    unref E f.node
    setFd p none

/-- `vfs_close`. -/
def close (fd : Int) : Vm T ω δ Unit :=
  match slot fd with
  | none => pure ()
  | some i => do
    let t ← currentTable
    closeSlot E (t, i)

/-- `vfs_task_fd_close_all`, over the slots still to be closed. -/
def closeSlots (t : Fin T) : List (Fin 32) → Vm T ω δ Unit
  | [] => pure ()
  | i :: is => do
    closeSlot E (t, i)
    closeSlots t is

def closeAll (t : Fin T) : Vm T ω δ Unit := closeSlots E t (List.finRange 32)

/-- `vfs_task_fd_inherit`, over the slots still to be copied. -/
def inheritSlots (dst src : Fin T) : List (Fin 32) → Vm T ω δ Unit
  | [] => pure ()
  | i :: is => do
    let f ← fdAt (src, i)
    setFd (dst, i) f
    match f with
    | none => inheritSlots dst src is
    | some f => do
      ref f.node
      inheritSlots dst src is

def inherit (dst src : Fin T) : Vm T ω δ Unit := inheritSlots dst src (List.finRange 32)

/-! ## Reading, writing, seeking -/

/-- `vfs_read`: the bytes read, or `none` for `-1`. -/
def read (fd : Int) (size : Nat) : Vm T ω δ (Option (List UInt8)) :=
  match slot fd with
  | none => pure none
  | some i =>
    if size = 0 then pure (some []) else do
    let t ← currentTable
    let f ← fdAt (t, i)
    match f with
    | none => pure none
    | some f =>
      if has f.flags oRdonly then do
        let n ← node f.node
        let got ← callRead E n.impl f.offset size
        match got with
        | none => pure none
        | some bytes => do
          setFd (t, i) (some { f with offset := f.offset + bytes.length })
          pure (some bytes)
      else pure none

/-- `vfs_write`. -/
def write (fd : Int) (data : List UInt8) : Vm T ω δ Int :=
  match slot fd with
  | none => pure (-1)
  | some i =>
    if data = [] then pure 0 else do
    let t ← currentTable
    let f ← fdAt (t, i)
    match f with
    | none => pure (-1)
    | some f =>
      if has f.flags oWronly then do
        let n ← node f.node
        let pos := if has f.flags oAppend then n.size else f.offset
        let r ← callWrite E n.impl pos data
        let size := r.size.getD n.size
        if 0 < r.result then do
          let offset := pos + r.result.toNat
          setFd (t, i) (some { f with offset })
          setNode f.node { n with size := max offset size }
          pure r.result
        else do
          setFd (t, i) (some { f with offset := pos })
          setNode f.node { n with size }
          pure r.result
      else pure (-1)

/-- `whence` of `vfs_seek`. -/
inductive Whence where
  | set
  | cur
  | fromEnd

/-- The end of `vfs_seek`: the offset is stored, 32 bits wide. -/
def moveTo (p : Fin T × Fin 32) (f : Fd) (target : Int) : Vm T ω δ (Option Nat) := do
  setFd p (some { f with offset := (target % 2 ^ 32).toNat })
  pure (some (target % 2 ^ 32).toNat)

/-- `vfs_seek`: the new offset, or `none` for `-1`. -/
def seek (fd : Int) (offset : Int) (whence : Whence) : Vm T ω δ (Option Nat) :=
  match slot fd with
  | none => pure none
  | some i => do
    let t ← currentTable
    let f ← fdAt (t, i)
    match f with
    | none => pure none
    | some f => do
      let n ← node f.node
      match whence with
      | .set => if offset < 0 then pure none else moveTo (t, i) f offset
      | .cur => moveTo (t, i) f (f.offset + offset)
      | .fromEnd => moveTo (t, i) f (n.size + offset)

/-! The three calls on an open descriptor. -/

section

variable {s : State T ω δ} {fd : Int} {i : Fin 32} {f : Fd}

theorem seek_run (hslot : slot fd = some i) (hfd : s.fds (s.current, i) = some f) {o : Nat}
    (ho : o < 2 ^ 32) : seek fd o .set s = (some o, { s with
      fds := update s.fds (s.current, i) (some { f with offset := o }) }) := by
  have hnonneg : ¬ ((o : Int) < 0) := by omega
  have hmod : ((o : Int) % 2 ^ 32).toNat = o := by omega
  simp only [seek, hslot, Hoare.bind_run, currentTable, fdAt, hfd, node, if_neg hnonneg, moveTo,
    hmod, setFd, Hoare.pure_run]

theorem read_run (hslot : slot fd = some i) (hfd : s.fds (s.current, i) = some f)
    (hr : has f.flags oRdonly) {size : Nat} (hsize : size ≠ 0) :
    (read E fd size s).1 = (E.driver.read s.fs (s.nodes f.node).impl f.offset size).1 := by
  simp only [read, hslot, if_neg hsize, Hoare.bind_run, currentTable, fdAt, hfd, node, if_pos hr,
    callRead, callDriver]
  cases (E.driver.read s.fs (s.nodes f.node).impl f.offset size).1 with
  | none => rfl
  | some bytes => rfl

/-- The state after a write: the driver's, with a new offset in the descriptor and a new size in the
    node. -/
def wrote (s : State T ω δ) (p : Fin T × Fin 32) (f : Fd) (fs : δ) (offset size : Nat) :
    State T ω δ :=
  { s with
    fs
    fds := update s.fds p (some { f with offset })
    nodes := update s.nodes f.node { s.nodes f.node with size } }

/-- A write that is not an append goes to the driver at the descriptor's offset. -/
theorem write_run (hslot : slot fd = some i) (hfd : s.fds (s.current, i) = some f)
    (hw : has f.flags oWronly) (happ : has f.flags oAppend = false) {data : List UInt8}
    (hdata : data ≠ []) :
    ∃ offset size, (0 < (E.driver.write s.fs (s.nodes f.node).impl f.offset data).result → offset
        = f.offset + (E.driver.write s.fs (s.nodes f.node).impl f.offset data).result.toNat) ∧
      write E fd data s = ((E.driver.write s.fs (s.nodes f.node).impl f.offset data).result,
        wrote s (s.current, i) f (E.driver.write s.fs (s.nodes f.node).impl f.offset data).fs
          offset size) := by
  simp only [write, hslot, if_neg hdata, Hoare.bind_run, currentTable, fdAt, hfd, node, if_pos hw,
    happ, Bool.false_eq_true, if_false]
  by_cases hpos : 0 < (callWrite E (s.nodes f.node).impl f.offset data s).1.result
  · rw [if_pos hpos]
    exact ⟨_, _, fun _ => rfl, rfl⟩
  · rw [if_neg hpos]
    exact ⟨_, _, fun h => absurd h hpos, rfl⟩

end

/-! ## Rename -/

/-- How the copy loop of `vfs_rename` ends: the source is exhausted (and was it empty?), a read or a
    write fell short, or the iterations allowed were not enough. -/
inductive Copied where
  | all (some : Bool)
  | short
  | cut
deriving DecidableEq

/-- The copy loop of `vfs_rename`; `any` is `copied_any`. -/
def copyLoop (src dst : Int) : Nat → Bool → Vm T ω δ Copied
  | 0, _ => pure .cut
  | fuel + 1, any => do
    let got ← read E src 512
    match got with
    | none => pure .short
    | some [] => pure (.all any)
    | some (b :: bytes) => do
      let n ← write E dst (b :: bytes)
      if n = (b :: bytes).length then copyLoop src dst fuel true else pure .short

/-- The target of a rename is made anew: if it cannot be created it is deleted first. -/
def makeTarget (path : Text) : Vm T ω δ Bool := do
  let made ← create E path false
  match made with
  | .ok () => pure true
  | .error _ => do
    let gone ← delete E path
    match gone with
    | .error _ => pure false
    | .ok () => do
      let made ← create E path false
      pure (made.toOption.isSome)

/-- The part of `vfs_rename` from the open source on: make the target, copy, close both.  After an
    empty source the target is opened and closed once more. -/
def copyTo (fuel : Nat) (src : Fin 32) (new : Text) : Vm T ω δ Copied := do
  let ready ← makeTarget E new
  if ready then do
    let dst ← openFlags E new oRdwr
    match dst with
    | .error _ => do
      close E src.val
      pure .short
    | .ok dst => do
      let copied ← copyLoop E src.val dst.val fuel false
      close E dst.val
      close E src.val
      if copied = .all false then do
        let again ← openFlags E new oRdwr
        match again with
        | .error _ => pure copied
        | .ok fd => do
          close E fd.val
          pure copied
      else pure copied
  else do
    close E src.val
    pure .short

/-- The end of `vfs_rename`: the old name goes, then the new one takes the mode, with the owner that
    is on record for the OLD PATH at that moment. -/
def finishRename (old new : Text) (mode : UInt32) : Vm T ω δ Bool := do
  let gone ← delete E old
  match gone with
  | .error _ => pure false
  | .ok () =>
    if mode ≠ 0 then do
      let p ← permGet old
      let owner := (p.map fun p => (p.uid, p.gid)).getD (0, 0)
      let _ ← permSet new mode owner.1 owner.2
      invalidateAll
      pure true
    else do
      invalidateAll
      pure true

/-- `vfs_rename`; `none` when the copy loop was cut short by `fuel`. -/
def rename (fuel : Nat) (old new : Text) : Vm T ω δ (Option Bool) :=
  if old = new then pure (some true) else
  match splitPath old, splitPath new with
  | some (oldDir, _), some (newDir, _) => do
    let fromOld ← mayChange E oldDir
    match fromOld with
    | .error _ => pure (some false)
    | .ok () => do
      let toNew ← mayChange E newDir
      match toNew with
      | .error _ => pure (some false)
      | .ok () => do
        let mode ← getMode E old
        let src ← openFlags E old oRdwr
        match src with
        | .error _ => pure (some false)
        | .ok src => do
          let t ← currentTable
          let f ← fdAt (t, src)
          let n ← node ((f.map Fd.node).getD 0)
          if n.isDir then do
            close E src.val
            pure (some false)
          else do
            let copied ← copyTo E fuel src new
            match copied with
            | .cut => pure none
            | .short => pure (some false)
            | .all _ => do
              let done ← finishRename E old new (mode.getD 0)
              pure (some done)
  | _, _ => pure (some false)

end Lyth.Vfs
