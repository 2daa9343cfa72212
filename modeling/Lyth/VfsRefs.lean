/-
  REFERENCE COUNTS OF OPEN NODES.

  1. **Program** — the descriptor calls of `fs/vfs.c` (`openFlags`, `close`, `inherit`,
     `fdInstallNode`, `closeAll`) on any number of descriptor tables.

  2. **Specification** — `refs s a` counts the open descriptor entries, over all tables, that refer
     to the node at `a`.  A dynamic node in use has `ref_count = refs`; a static node has in addition
     the reference its driver gave it at boot (`base`: 1 for the terminal and the devices, "permanent
     system reference — never freed").  A dynamic node leaves the heap in the call that closes its
     last descriptor, and not before.

  3. **The crux (`Quiet`)** — everything that `openFlags` does before it takes its reference
     (resolution, permission records, creating and deleting) makes and frees nodes, but only nodes
     that did not exist when it started.  `Quiet s₀ s` says so about the state `s` in the middle of
     such a computation that began in `s₀`, and is carried through the functions one by one.
-/
import Mathlib.Data.Fintype.Prod
import Lyth.Ramfs
import Lyth.Lib.Run

namespace Lyth.Vfs

open Table Hoare Run Function

variable {T : Nat} {ω δ : Type} {current : Addr}

/-! ## Counting descriptors -/

/-- How many open descriptor entries, over all tables, refer to the node at `a`. -/
def refs (s : State T ω δ) (a : Addr) : Nat := used fun p => (s.fds p).any (·.node = a)

variable {s' s : State T ω δ}

theorem refs_congr (h : s'.fds = s.fds) (a : Addr) : refs s' a = refs s a := by
  rw [refs, refs, h]

theorem any_update (fds : Fin T × Fin 32 → Option Fd) (p : Fin T × Fin 32) (o : Option Fd)
    (a : Addr) : (fun q => (update fds p o q).any (·.node = a))
      = update (fun q => (fds q).any (·.node = a)) p (o.any (·.node = a)) := by
  funext q
  rcases eq_or_ne q p with rfl | hq
  · simp
  · simp [hq]

variable {f : Fd} {p : Fin T × Fin 32}

/-- A free entry is taken by a descriptor of the node `f.node`. -/
theorem refs_open (hfree : s.fds p = none) (h : s'.fds = update s.fds p (some f)) :
    refs s' = update (refs s) f.node (refs s f.node + 1) := by
  funext a
  rw [refs, h, any_update]
  rcases eq_or_ne a f.node with rfl | ha
  · have htrue : (some f).any (·.node = f.node) := by simp
    rw [htrue, used_update_true (by simp [hfree]), update_self]
    rfl
  · have hfalse : (some f).any (·.node = a) = (s.fds p).any (·.node = a) := by simp [hfree, ha.symm]
    rw [hfalse, update_eq_self, update_of_ne ha]
    rfl

/-- An open entry is cleared. -/
theorem refs_close (hopen : s.fds p = some f)
    (h : s'.fds = update s.fds p none) : refs s' = update (refs s) f.node (refs s f.node - 1) := by
  have hback : s.fds = update s'.fds p (some f) := by
    rw [h, update_idem, ← hopen, update_eq_self]
  rw [refs_open (by rw [h]; simp) hback, update_self, update_idem, Nat.add_sub_cancel, update_eq_self]

theorem le_update_succ (held : Addr → Nat) (a b : Addr) : held b ≤ update held a (held a + 1) b := by
  rcases eq_or_ne b a with rfl | hne
  · rw [update_self]
    exact Nat.le_succ _
  · rw [update_of_ne hne]

/-! ## The invariant -/

/-- What the drivers and the allocator promise: an allocated address is not in use; a static node a
    driver hands out is one of `statics`; a node it makes has `ref_count = 0`. -/
structure Lawful (E : Env ω δ) (statics : Addr → Prop) : Prop where
  fresh : ∀ inUse time a, E.kmalloc inUse time = some a → a ∉ inUse
  finddir_static : ∀ d o name b, E.driver.finddir d o name = some (.static b) → statics b
  create_static : ∀ d o name dir b, (E.driver.create d o name dir).1 = some (.static b) → statics b
  finddir_zero : ∀ d o name n, E.driver.finddir d o name = some (.dynamic n) → n.refCount = 0
  create_zero : ∀ d o name dir n, (E.driver.create d o name dir).1 = some (.dynamic n) → n.refCount = 0

/-- The reference a node has besides its descriptors: the driver's own one on a static node. -/
def permanent (base : Addr → Nat) (n : Node ω) (a : Addr) : Nat := if n.dynamic then 0 else base a

/-- **The counts are right**, `held a` being the references to the node at `a`: `ref_count` is the
    permanent reference and those; what is referenced is allocated; a cached node is static or
    referenced; static nodes stay where they are. -/
structure Counts (base : Addr → Nat) (statics : Addr → Prop) (held : Addr → Nat)
    (s : State T ω δ) : Prop where
  count : ∀ a ∈ s.heap, (s.nodes a).refCount = permanent base (s.nodes a) a + held a
  open_live : ∀ a, 0 < held a → a ∈ s.heap
  vnode_live : ∀ i v, s.vnodes i = some v →
    v.node ∈ s.heap ∧ ((s.nodes v.node).dynamic → 0 < held v.node)
  static_live : ∀ a, statics a → a ∈ s.heap ∧ (s.nodes a).dynamic = false
  root_static : ∀ m ∈ s.mounts, statics m.2
  dentry_static : ∀ i d b, s.dentries i = some d → d.node = some b → statics b

/-- Between calls the references are the open descriptors. -/
abbrev Counted (base : Addr → Nat) (statics : Addr → Prop) (s : State T ω δ) : Prop :=
  Counts base statics (refs s) s

section

variable {base held : Addr → Nat} {statics : Addr → Prop} {s₀ s s' : State T ω δ}

/-- The fields that the counts do not depend on may change. -/
theorem Counts.congr (h : Counts base statics held s) (hheap : s'.heap = s.heap)
    (hnodes : s'.nodes = s.nodes) (hmounts : s'.mounts = s.mounts)
    (hvnodes : ∀ i v, s'.vnodes i = some v → ∃ j w, s.vnodes j = some w ∧ w.node = v.node)
    (hdentries : ∀ i d b, s'.dentries i = some d → d.node = some b → statics b) :
    Counts base statics held s' := by
  refine ⟨?_, ?_, ?_, ?_, ?_, hdentries⟩
  · rw [hheap, hnodes]
    exact h.count
  · rw [hheap]
    exact h.open_live
  · intro i v hv
    obtain ⟨j, w, hw, hnode⟩ := hvnodes i v hv
    rw [hheap, hnodes, ← hnode]
    exact h.vnode_live j w hw
  · rw [hheap, hnodes]
    exact h.static_live
  · rw [hmounts]
    exact h.root_static

/-- Clearing or keeping entries of the vnode cache needs no more than this. -/
theorem vnodes_same {t : State T ω δ} (h : t.vnodes = s.vnodes) (i : Fin 64) (v : Vnode)
    (hv : t.vnodes i = some v) : ∃ j w, s.vnodes j = some w ∧ w.node = v.node :=
  ⟨i, v, h ▸ hv, rfl⟩

variable {a : Addr}

theorem mem_kfree {b : Addr} (hb : b ∈ s.heap) (hne : b ≠ a) : b ∈ (Vfs.kfree a s).2.heap :=
  List.mem_filter.mpr ⟨hb, by simpa using hne⟩

/-- An unreferenced dynamic node may be freed. -/
theorem Counts.kfree (h : Counts base statics held s)
    (hdyn : (s.nodes a).dynamic) (hheld : held a = 0) :
    Counts base statics held (Vfs.kfree a s).2 := by
  refine ⟨?_, ?_, ?_, ?_, h.root_static, h.dentry_static⟩
  · intro b hb
    exact h.count b (List.mem_filter.mp hb).1
  · intro b hb
    refine mem_kfree (h.open_live b hb) ?_
    rintro rfl
    omega
  · intro i v hv
    obtain ⟨hlive, hopen⟩ := h.vnode_live i v hv
    refine ⟨mem_kfree hlive fun heq => ?_, hopen⟩
    have := hopen (heq ▸ hdyn)
    rw [heq] at this
    omega
  · intro b hb
    obtain ⟨hlive, hstatic⟩ := h.static_live b hb
    refine ⟨mem_kfree hlive ?_, hstatic⟩
    rintro rfl
    rw [hdyn] at hstatic
    cases hstatic

/-- A node with count 0 is made at an unused address. -/
theorem Counts.allocNode {E : Env ω δ} (hE : Lawful E statics) (h : Counts base statics held s)
    {n : Node ω} (hn : n.refCount = 0) : Counts base statics held (Vfs.allocNode E n s).2 := by
  rcases allocNode_cases E (s := s) n with heq | ⟨c, hc, heq⟩
  · rwa [heq]
  have hfresh := hE.fresh _ _ _ hc
  have hheld : held c = 0 := by
    by_contra hpos
    exact hfresh (h.open_live _ (Nat.pos_of_ne_zero hpos))
  rw [heq]
  have hold : ∀ b ∈ s.heap, update s.nodes c { n with dynamic := true } b = s.nodes b := by
    intro b hb
    refine update_of_ne ?_ _ _
    rintro rfl
    exact hfresh hb
  refine ⟨?_, ?_, ?_, ?_, h.root_static, h.dentry_static⟩
  · intro b hb
    rcases List.mem_cons.mp hb with rfl | hb
    · dsimp only
      rwa [update_self, hheld]
    · dsimp only
      rw [hold b hb]
      exact h.count b hb
  · intro b hb
    exact .tail _ (h.open_live b hb)
  · intro i v hv
    obtain ⟨hlive, hopen⟩ := h.vnode_live i v hv
    dsimp only
    rw [hold _ hlive]
    exact ⟨.tail _ hlive, hopen⟩
  · intro b hb
    obtain ⟨hlive, hstatic⟩ := h.static_live b hb
    dsimp only
    rw [hold _ hlive]
    exact ⟨.tail _ hlive, hstatic⟩

/-- The count of one live node moves with its references. -/
theorem Counts.setCount (h : Counts base statics held s) {n : Nat} (hlive : a ∈ s.heap)
    (hcached : ∀ i v, s.vnodes i = some v → v.node = a → (s.nodes a).dynamic → 0 < n) :
    Counts base statics (update held a n)
      (setNode a { s.nodes a with refCount := permanent base (s.nodes a) a + n } s).2 := by
  have hself : (setNode a { s.nodes a with refCount := permanent base (s.nodes a) a + n } s).2.nodes
      a = { s.nodes a with refCount := permanent base (s.nodes a) a + n } := update_self ..
  have hother : ∀ b, b ≠ a → (setNode a { s.nodes a with
      refCount := permanent base (s.nodes a) a + n } s).2.nodes b = s.nodes b :=
    fun b hb => update_of_ne hb _ _
  refine ⟨?_, ?_, ?_, ?_, h.root_static, h.dentry_static⟩
  · intro b hb
    rcases eq_or_ne b a with rfl | hne
    · rw [hself, update_self]
      rfl
    · rw [hother b hne, update_of_ne hne]
      exact h.count b hb
  · intro b hb
    rcases eq_or_ne b a with rfl | hne
    · exact hlive
    · rw [update_of_ne hne] at hb
      exact h.open_live b hb
  · intro i v hv
    obtain ⟨hvlive, hopen⟩ := h.vnode_live i v hv
    refine ⟨hvlive, ?_⟩
    rcases eq_or_ne v.node a with heq | hne
    · rw [heq, hself, update_self]
      exact hcached i v hv heq
    · rwa [hother _ hne, update_of_ne hne]
  · intro b hb
    obtain ⟨hblive, hstatic⟩ := h.static_live b hb
    refine ⟨hblive, ?_⟩
    rcases eq_or_ne b a with rfl | hne
    · rwa [hself]
    · rwa [hother _ hne]

/-! ## Quiet computations -/

/-- The state `s`, in a computation that began in `s₀`: the counts are right, every node that was
    alive is still there and unchanged, and no descriptor has moved. -/
structure Quiet (base : Addr → Nat) (statics : Addr → Prop) (s₀ s : State T ω δ) : Prop where
  start : Counted base statics s₀
  inv : Counted base statics s
  alive : ∀ a ∈ s₀.heap, a ∈ s.heap ∧ s.nodes a = s₀.nodes a
  fds : s.fds = s₀.fds
  current : s.current = s₀.current

theorem Quiet.refl (h : Counted base statics s) : Quiet base statics s s :=
  ⟨h, h, fun _ ha => ⟨ha, rfl⟩, rfl, rfl⟩

section

variable (h : Quiet base statics s₀ s) (hheap : s'.heap = s.heap) (hnodes : s'.nodes = s.nodes)
  (hfds : s'.fds = s.fds) (hcurrent : s'.current = s.current) (hmounts : s'.mounts = s.mounts)
include h hheap hnodes hfds hcurrent hmounts

theorem Quiet.congr
    (hvnodes : ∀ i v, s'.vnodes i = some v → ∃ j w, s.vnodes j = some w ∧ w.node = v.node)
    (hdentries : ∀ i d b, s'.dentries i = some d → d.node = some b → statics b) :
    Quiet base statics s₀ s' := by
  have hrefs : refs s' = refs s := funext (refs_congr hfds)
  refine ⟨h.start, ?_, ?_, hfds.trans h.fds, hcurrent.trans h.current⟩
  · have hinv := h.inv.congr hheap hnodes hmounts hvnodes hdentries
    rwa [← hrefs] at hinv
  · rw [hheap, hnodes]
    exact h.alive

/-- Nothing that the counts depend on has changed. -/
theorem Quiet.same (hvnodes : s'.vnodes = s.vnodes) (hdentries : s'.dentries = s.dentries) :
    Quiet base statics s₀ s' :=
  h.congr hheap hnodes hfds hcurrent hmounts (vnodes_same hvnodes)
    (by rw [hdentries]; exact h.inv.dentry_static)

end

/-- The node at `a` is static, or was made by this computation. -/
def Temp (statics : Addr → Prop) (s₀ s : State T ω δ) (a : Addr) : Prop :=
  statics a ∨ (a ∈ s.heap ∧ a ∉ s₀.heap)

/-- The computation stands on a temporary. -/
def Stands (base : Addr → Nat) (statics : Addr → Prop) (s₀ : State T ω δ) (a : Addr) (s : State T ω δ) : Prop :=
  Quiet base statics s₀ s ∧ Temp statics s₀ s a

/-- The computation has answered with a temporary, or with nothing. -/
def Found (base : Addr → Nat) (statics : Addr → Prop) (s₀ : State T ω δ) (r : Option Addr) (s : State T ω δ) : Prop :=
  Quiet base statics s₀ s ∧ ∀ a, r = some a → Temp statics s₀ s a

theorem Quiet.found_none (h : Quiet base statics s₀ s) : Found base statics s₀ none s :=
  ⟨h, fun _ ha => nomatch ha⟩

theorem Temp.live (h : Temp statics s₀ s a) (hq : Quiet base statics s₀ s) : a ∈ s.heap :=
  h.elim (fun hs => (hq.inv.static_live a hs).1) And.left

theorem Temp.mono (h : Temp statics s₀ s a) (hheap : ∀ b ∈ s.heap, b ∈ s'.heap) : Temp statics s₀ s' a :=
  h.imp_right fun hnew => ⟨hheap a hnew.1, hnew.2⟩

theorem Quiet.kfree (h : Quiet base statics s₀ s) (ha : a ∉ s₀.heap)
    (hdyn : (s.nodes a).dynamic) : Quiet base statics s₀ (Vfs.kfree a s).2 := by
  have hclosed : refs s a = 0 := by
    rw [refs_congr h.fds]
    by_contra hpos
    exact ha (h.start.open_live a (Nat.pos_of_ne_zero hpos))
  refine ⟨h.start, h.inv.kfree hdyn hclosed, ?_, h.fds, h.current⟩
  intro b hb
  obtain ⟨hlive, hnode⟩ := h.alive b hb
  refine ⟨mem_kfree hlive ?_, hnode⟩
  rintro rfl
  exact ha hb

variable {E : Env ω δ}

theorem Quiet.allocNode (hE : Lawful E statics) (h : Quiet base statics s₀ s) {n : Node ω}
    (hn : n.refCount = 0) : Quiet base statics s₀ (Vfs.allocNode E n s).2 := by
  have hinv := h.inv.allocNode hE hn
  rcases allocNode_cases E (s := s) n with heq | ⟨c, hc, heq⟩
  · rwa [heq]
  rw [heq] at hinv ⊢
  refine ⟨h.start, hinv, ?_, h.fds, h.current⟩
  intro b hb
  obtain ⟨hlive, hnode⟩ := h.alive b hb
  refine ⟨.tail _ hlive, ?_⟩
  rw [← hnode]
  refine update_of_ne ?_ _ _
  rintro rfl
  exact hE.fresh _ _ _ hc hlive

theorem freeDynamic_cases (a : Addr) (s : State T ω δ) :
    (s.nodes a).dynamic ∧ freeDynamic a s = Vfs.kfree a s ∨ freeDynamic a s = ((), s) := by
  have hrun : freeDynamic a s = (if (s.nodes a).dynamic then Vfs.kfree a else pure ()) s := rfl
  rw [hrun]
  by_cases hdyn : (s.nodes a).dynamic
  · exact .inl ⟨hdyn, by rw [if_pos hdyn]⟩
  · exact .inr (by rw [if_neg hdyn]; rfl)

theorem release_cases (a : Addr) (s : State T ω δ) :
    ((s.nodes a).dynamic ∧ (s.nodes a).refCount = 0) ∧ release a s = Vfs.kfree a s ∨
      release a s = ((), s) := by
  have hrun : release a s = (if (s.nodes a).dynamic ∧ (s.nodes a).refCount = 0
    then Vfs.kfree a else pure ()) s := rfl
  rw [hrun]
  by_cases hfree : (s.nodes a).dynamic ∧ (s.nodes a).refCount = 0
  · exact .inl ⟨hfree, by rw [if_pos hfree]⟩
  · exact .inr (by rw [if_neg hfree]; rfl)

theorem Quiet.free_temp (hs : Quiet base statics s₀ s) (htemp : Temp statics s₀ s a)
    (hdyn : (s.nodes a).dynamic) : Quiet base statics s₀ (Vfs.kfree a s).2 := by
  rcases htemp with hstatic | ⟨-, hnew⟩
  · rw [(hs.inv.static_live a hstatic).2] at hdyn
    cases hdyn
  · exact hs.kfree hnew hdyn

/-- A temporary that is dynamic is freed, a static node is left. -/
theorem freeDynamic_quiet :
    Triple (Stands base statics s₀ a) (freeDynamic (T := T) a) fun _ => Quiet base statics s₀ := by
  rintro s ⟨hs, htemp⟩
  rcases freeDynamic_cases a s with ⟨hdyn, heq⟩ | heq
  · rw [heq]
    exact hs.free_temp htemp hdyn
  · rwa [heq]

theorem release_quiet : Triple (Stands base statics s₀ a) (release (T := T) a) fun _ => Quiet base statics s₀ := by
  rintro s ⟨hs, htemp⟩
  rcases release_cases a s with ⟨hfree, heq⟩ | heq
  · rw [heq]
    exact hs.free_temp htemp hfree.1
  · rwa [heq]

/-- What the walk knows of the node at `next` it is about to enter from `current`. -/
structure Next (statics : Addr → Prop) (s₀ s : State T ω δ) (current next : Addr) : Prop where
  temp : Temp statics s₀ s next
  other : statics next ∨ next ≠ current
  static : (s.nodes next).dynamic = false → statics next

theorem Next.of_static {next : Addr} (h : statics next) : Next statics s₀ s current next :=
  ⟨.inl h, .inl h, fun _ => h⟩

/-- The same while another temporary `b` is kept. -/
theorem freeDynamic_other {a b : Addr} :
    Triple (fun s => Stands base statics s₀ a s ∧ Next statics s₀ s a b) (freeDynamic (T := T) a)
      fun _ => Stands base statics s₀ b := by
  rintro s ⟨hs, hb, hne, -⟩
  refine ⟨freeDynamic_quiet s hs, ?_⟩
  rcases hne with hstatic | hne
  · exact .inl hstatic
  rcases hb with hstatic | ⟨hlive, hnew⟩
  · exact .inl hstatic
  refine .inr ⟨?_, hnew⟩
  rcases freeDynamic_cases a s with ⟨-, heq⟩ | heq
  · rw [heq]
    exact mem_kfree hlive hne
  · rwa [heq]

/-! ### The primitive operations -/

/-- Storing a record keeps what does not speak of the permission table. -/
theorem permSet_keeps {I : State T ω δ → Prop} (hI : ∀ s perms, I s → I { s with perms })
    (path : Text) (mode uid gid : UInt32) : Keeps I (permSet path mode uid gid) := by
  intro s hs
  rcases permSet_cases path mode uid gid with h | ⟨perms, h⟩
  · rw [h]; exact hs
  · rw [h]; exact hI s perms hs

theorem permSet_quiet (path : Text) (mode uid gid : UInt32) :
    Keeps (Stands (T := T) (ω := ω) (δ := δ) base statics s₀ a) (permSet path mode uid gid) :=
  permSet_keeps (fun _ _ hs => ⟨hs.1.same rfl rfl rfl rfl rfl rfl rfl, hs.2⟩) path mode uid gid

theorem permRemove_keeps (path : Text) : Keeps (Quiet base statics s₀) (permRemove (T := T) path) := by
  intro s hs
  obtain ⟨perms, h⟩ := permRemove_eq path
  rw [h]
  exact hs.same rfl rfl rfl rfl rfl rfl rfl

theorem invalidateAll_keeps : Keeps (Quiet base statics s₀) (invalidateAll (T := T)) := by
  intro s hs
  refine hs.congr rfl rfl rfl rfl rfl ?_ ?_
  · intro i v hv
    cases hv
  · intro i d b hd
    cases hd

/-- Looking a path up in the vnode cache finds a live node. -/
theorem vnodeLookup_quiet (path : Text) :
    Triple (Quiet base statics s₀) (vnodeLookup (T := T) path)
      fun r s => Quiet base statics s₀ s ∧ ∀ a, r = some a → a ∈ s.heap := by
  intro s hs
  rcases vnodeLookup_cases path with h | ⟨i, v, hv, -, h⟩
  · rw [h]
    exact ⟨hs, fun a ha => nomatch ha⟩
  rw [h]
  refine ⟨hs.congr rfl rfl rfl rfl rfl ?_ hs.inv.dentry_static, ?_⟩
  · exact forall_update_some ⟨i, v, hv, rfl⟩ fun j w hw _ => ⟨j, w, hw, rfl⟩
  · rintro a ha
    obtain rfl := Option.some.inj ha
    exact (hs.inv.vnode_live i v hv).1

/-- A hit of the dentry cache is a static node; the heap is left as it is. -/
theorem dentryLookup_quiet (parent : Addr) (name : Text) :
    Triple (Stands base statics s₀ parent) (dentryLookup (T := T) E parent name)
      fun r s => Stands base statics s₀ parent s ∧ ∀ b, r = some (some b) → statics b := by
  rintro s ⟨hs, htemp⟩
  rcases dentryLookup_cases E parent name with h | ⟨i, d, -, hd, -, -, -, h⟩
  · rw [h]
    exact ⟨⟨hs.same rfl rfl rfl rfl rfl rfl rfl, htemp⟩, fun b hb => nomatch hb⟩
  rw [h]
  refine ⟨⟨hs.congr rfl rfl rfl rfl rfl (vnodes_same rfl) ?_, htemp⟩, ?_⟩
  · exact fun j e b he => forall_update_some
      (hs.inv.dentry_static i d b hd) (fun j e he _ => hs.inv.dentry_static j e b he) j e he
  · intro b hb
    exact hs.inv.dentry_static i d b hd (Option.some.inj hb)

/-- Only static nodes enter the dentry cache. -/
theorem dentryInsert_quiet (parent : Addr) (name : Text) {child : Option Addr}
    (hchild : ∀ b, child = some b → statics b) :
    Keeps (Stands (T := T) (ω := ω) (δ := δ) base statics s₀ a) (dentryInsert parent name child) := by
  rintro s ⟨hs, htemp⟩
  rcases dentryInsert_cases parent name child with h | ⟨i, name', -, h⟩
  · rw [h]
    exact ⟨hs, htemp⟩
  · rw [h]
    refine ⟨hs.congr rfl rfl rfl rfl rfl (vnodes_same rfl) ?_, htemp⟩
    exact fun j e b he => forall_update_some (hchild b)
      (fun j e he _ => hs.inv.dentry_static j e b he) j e he

/-- A call into the drivers. -/
theorem callDriver_quiet {α : Type} (g : δ → α × δ) :
    Triple (Stands (T := T) (ω := ω) base statics s₀ a) (callDriver g)
      fun r s => Stands base statics s₀ a s ∧ ∃ fs, r = (g fs).1 :=
  fun s hs => ⟨⟨hs.1.same rfl rfl rfl rfl rfl rfl rfl, hs.2⟩, s.fs, rfl⟩

/-! ### Resolution and the calls before the reference is taken -/

/-- What a driver was asked for in `current`, if it was found. -/
def Asked (base : Addr → Nat) (statics : Addr → Prop) (s₀ : State T ω δ) (current : Addr) (found : Option Addr)
    (s : State T ω δ) : Prop :=
  Stands base statics s₀ current s ∧ ∀ b, found = some b → Next statics s₀ s current b

/-- A driver's answer becomes a temporary, other than `current`. -/
theorem adopt_quiet (hE : Lawful E statics) {r : Option (Child ω)}
    (hstatic : ∀ b, r = some (.static b) → statics b)
    (hzero : ∀ n, r = some (.dynamic n) → n.refCount = 0) :
    Triple (Stands base statics s₀ current) (adopt (T := T) E r) (Asked base statics s₀ current) := by
  intro s hs
  match r with
  | none => exact ⟨hs, fun b hb => nomatch hb⟩
  | some (.static c) =>
    refine ⟨hs, ?_⟩
    intro b hb
    obtain rfl := Option.some.inj hb
    exact .of_static (hstatic c rfl)
  | some (.dynamic n) =>
    have hlive := hs.2.live hs.1
    have hquiet := hs.1.allocNode hE (hzero n rfl)
    show Asked base statics s₀ current (allocNode E n s).1 (allocNode E n s).2
    rcases allocNode_cases E (s := s) n with heq | ⟨c, hc, heq⟩
    · rw [heq]
      exact ⟨hs, fun b hb => nomatch hb⟩
    have hfresh := hE.fresh _ _ _ hc
    rw [heq] at hquiet ⊢
    refine ⟨⟨hquiet, hs.2.mono fun _ => .tail _⟩, ?_⟩
    rintro b hb
    obtain rfl := Option.some.inj hb
    refine ⟨.inr ⟨.head _, fun hin => hfresh (hs.1.alive _ hin).1⟩, .inr ?_, ?_⟩
    · rintro rfl
      exact hfresh hlive
    · intro hdyn
      simp at hdyn

/-- What a lookup finds; the ghost is not looked at. -/
theorem nodeFinddir_quiet (hE : Lawful E statics) (name : Text) :
    Triple (Stands base statics s₀ current) (nodeFinddir (T := T) E current name)
      (Asked base statics s₀ current) := by
  refine .bind (Q := fun _ => Stands base statics s₀ current) (fun s hs => hs) fun n => ?_
  refine .bind (Q := fun r s => Stands base statics s₀ current s ∧
    (r = none ∨ ∃ fs, r = E.driver.finddir fs n.impl name)) (fun s hs => ⟨hs, ?_⟩) fun r => ?_
  · unfold callFinddir
    split
    · exact .inl rfl
    · exact .inr ⟨s.fs, rfl⟩
  refine .bind (Q := Asked base statics s₀ current) (fun s hs => ?_) fun found s hs => ?_
  · refine adopt_quiet hE (fun b hb => ?_) (fun n hn => ?_) s hs.1
    all_goals rcases hs.2 with rfl | ⟨fs, rfl⟩
    · cases hb
    · exact hE.finddir_static _ _ _ b hb
    · cases hn
    · exact hE.finddir_zero _ _ _ n hn
  · exact ⟨⟨hs.1.1.same rfl rfl rfl rfl rfl rfl rfl, hs.1.2⟩,
      fun b hb => ⟨(hs.2 b hb).temp, (hs.2 b hb).other, (hs.2 b hb).static⟩⟩

/-- The answer is cached only if it is a static node. -/
theorem remember_quiet {next : Addr} (comp : Text) :
    Keeps (fun s => Stands base statics s₀ current s ∧ Next statics s₀ s current next)
      (remember (T := T) current comp next) := by
  intro s hs
  have hrun : remember current comp next s = (if (s.nodes next).dynamic then pure ()
    else dentryInsert current comp (some next)) s := rfl
  rw [hrun]
  by_cases hdyn : (s.nodes next).dynamic
  · rwa [if_pos hdyn]
  rw [if_neg hdyn]
  have hstatic := hs.2.static (by simpa using hdyn)
  exact ⟨dentryInsert_quiet current comp (fun b hb => Option.some.inj hb ▸ hstatic) s hs.1, .of_static hstatic⟩

/-- **The walk** leaves behind only the node it answers with. -/
theorem walk_quiet (hE : Lawful E statics) (comps : List Text) : ∀ current,
    Triple (Stands base statics s₀ current) (walk (T := T) E current comps) (Found base statics s₀) := by
  induction comps with
  | nil => exact fun current s hs => ⟨hs.1, fun a ha => Option.some.inj ha ▸ hs.2⟩
  | cons comp rest ih =>
    intro current
    refine .bind (dentryLookup_quiet current comp) ?_
    rintro (_ | _ | next)
    · -- Nothing cached: the driver is asked.
      refine .bind (Q := Asked base statics s₀ current) (fun s hs => ?_) ?_
      · exact nodeFinddir_quiet hE comp s hs.1
      rintro (_ | next)
      · refine .bind (fun s hs => dentryInsert_quiet current comp ?_ s hs.1) fun _ =>
          Triple.bind freeDynamic_quiet fun _ => Triple.pure fun s hs => hs.found_none
        intro b hb
        cases hb
      · refine .bind (Q := fun _ s => Stands base statics s₀ current s ∧ Next statics s₀ s current next)
          (fun s hs => ?_) fun _ => Triple.bind freeDynamic_other fun _ => ih next
        exact remember_quiet comp s ⟨hs.1, hs.2 next rfl⟩
    · -- A cached miss.
      exact .bind (Q := fun _ => Quiet base statics s₀) (fun s hs => freeDynamic_quiet s hs.1) fun _ =>
        Triple.pure fun s hs => hs.found_none
    · -- A cached node, which is static.
      refine .bind (fun s hs => ?_) fun _ => ih next
      exact freeDynamic_other s ⟨hs.1, .of_static (hs.2 next rfl)⟩

/-- **Resolution is quiet**, and answers with a temporary. -/
theorem resolve_quiet (hE : Lawful E statics) (path : Text) :
    Triple (Quiet base statics s₀) (resolve (T := T) E path) (Found base statics s₀) := by
  intro s hs
  rcases hbest : findMount s.mounts path with ⟨_ | root, n⟩
  · rw [resolve, bind_of (Prod.ext hbest rfl : mountFor path s = ((none, n), s))]
    exact hs.found_none
  · rw [resolve, bind_of (Prod.ext hbest rfl : mountFor path s = ((some root, n), s))]
    obtain ⟨m, hm, rfl⟩ := findMount_mem (congrArg Prod.fst hbest)
    exact walk_quiet hE _ _ s ⟨hs, .inl (hs.inv.root_static m hm)⟩

section

variable (hE : Lawful E statics) (path : Text)

include hE

theorem getMode_quiet : Keeps (Quiet base statics s₀) (getMode (T := T) E path) := by
  refine Keeps.bind (fun s hs => hs) ?_
  rintro (_ | p)
  · refine Triple.bind (resolve_quiet hE path) ?_
    rintro (_ | a)
    · exact Triple.pure fun s hs => hs.1
    · refine Triple.bind (Q := fun _ => Stands base statics s₀ a) (fun s hs => ⟨hs.1, hs.2 a rfl⟩) fun n => ?_
      exact .bind (permSet_quiet _ _ _ _) fun stored => .bind release_quiet fun _ => Keeps.pure _
  · exact Keeps.pure _

theorem ownerRecord_quiet :
    Keeps (Quiet base statics s₀) (ownerRecord (T := T) E path) := by
  refine .bind (fun s hs => hs) ?_
  rintro (_ | p)
  · refine .bind (getMode_quiet hE path) ?_
    rintro (_ | mode)
    · exact .pure _
    · exact fun s hs => hs
  · exact .pure _

theorem getOwner_quiet :
    Keeps (Quiet base statics s₀) (getOwner (T := T) E path) :=
  Keeps.bind (ownerRecord_quiet hE path) fun _ => Keeps.pure _

theorem mayChange_quiet (dir : Text) : Keeps (Quiet base statics s₀) (mayChange (T := T) E dir) := by
  refine .bind (getMode_quiet hE dir) ?_
  rintro (_ | mode)
  · exact .pure _
  · refine .bind (getOwner_quiet hE dir) ?_
    rintro (_ | owner)
    · exact .pure _
    · exact Keeps.bind (fun s hs => hs) fun _ => Keeps.pure _

theorem create_quiet (dir : Bool) :
    Keeps (Quiet base statics s₀) (create (T := T) E path dir) := by
  unfold create
  cases splitPath path with
  | none => exact Keeps.pure _
  | some parts =>
    refine .bind (mayChange_quiet hE parts.1) ?_
    rintro (r | _)
    · exact .pure _
    refine Triple.bind (resolve_quiet hE parts.1) ?_
    rintro (_ | d)
    · exact Triple.pure fun s hs => hs.1
    refine Triple.bind (Q := Asked base statics s₀ d) ?_ fun made => ?_
    · refine .bind (Q := fun _ => Stands base statics s₀ d) (fun s hs => ⟨hs.1, hs.2 d rfl⟩) fun n =>
        Triple.bind (callDriver_quiet _) fun r => ?_
      rintro s ⟨hs, fs, rfl⟩
      exact adopt_quiet hE (fun b => hE.create_static _ _ _ _ b) (fun n => hE.create_zero _ _ _ _ n) s hs
    cases made with
    | none => exact fun s hs => freeDynamic_quiet s hs.1
    | some a =>
      refine .bind (Q := fun _ => Stands base statics s₀ a) (fun s hs => ?_) fun _ => ?_
      · exact freeDynamic_other s ⟨hs.1, hs.2 a rfl⟩
      refine .bind (Q := fun _ => Stands base statics s₀ a) (fun s hs => hs) fun me => ?_
      refine .bind (permSet_quiet _ _ _ _) fun _ => .bind freeDynamic_quiet fun _ => ?_
      exact Keeps.bind invalidateAll_keeps fun _ => Keeps.pure _

theorem delete_quiet : Keeps (Quiet base statics s₀) (delete (T := T) E path) := by
  unfold delete
  cases splitPath path with
  | none => exact .pure _
  | some parts =>
    refine .bind (mayChange_quiet hE parts.1) ?_
    rintro (r | _)
    · exact .pure _
    refine Triple.bind (resolve_quiet hE parts.1) ?_
    rintro (_ | d)
    · exact Triple.pure fun s hs => hs.1
    refine Triple.bind (Q := fun _ => Stands base statics s₀ d) ?_
      fun gone => Triple.bind freeDynamic_quiet fun _ => ?_
    · refine .bind (Q := fun _ => Stands base statics s₀ d) (fun s hs => ⟨hs.1, hs.2 d rfl⟩) fun n => ?_
      exact (callDriver_quiet _).conseq (fun _ h => h) fun _ _ h => h.1
    refine Keeps.ite ?_ (Keeps.pure _)
    exact Keeps.bind (permRemove_keeps path) fun _ =>
      Keeps.bind invalidateAll_keeps fun _ => Keeps.pure _

/-- The node that an open starts from is alive. -/
theorem openLookup_quiet :
    Triple (Quiet base statics s₀) (openLookup (T := T) E path)
      fun r s => Quiet base statics s₀ s ∧ ∀ a, r = some a → a ∈ s.heap := by
  refine .bind (vnodeLookup_quiet path) ?_
  rintro (_ | a)
  · refine ((resolve_quiet hE path).conseq (fun s hs => hs.1) ?_)
    exact fun r s hs => ⟨hs.1, fun a ha => (hs.2 a ha).live hs.1⟩
  · exact .pure fun s hs => ⟨hs.1, fun b hb => hs.2 b hb⟩

theorem openChecks_quiet (flags : UInt32) (a : Addr) :
    Keeps (Quiet base statics s₀) (openChecks (T := T) E path flags a) := by
  refine .bind (getMode_quiet hE path) ?_
  rintro (_ | mode)
  · exact .pure _
  · refine .bind (getOwner_quiet hE path) ?_
    rintro (_ | owner)
    · exact .pure _
    · exact .bind (fun s hs => hs) fun _ => Keeps.bind (fun s hs => hs) fun _ => Keeps.pure _

/-- Deleting and creating anew is quiet and answers with a live node. -/
theorem recreate_quiet :
    Triple (Quiet base statics s₀) (recreate (T := T) E path)
      fun r s => Quiet base statics s₀ s ∧ ∀ a, r = .ok a → a ∈ s.heap := by
  refine .bind (delete_quiet hE path) ?_
  rintro (r | _)
  · exact .pure fun s hs => ⟨hs, fun a ha => nomatch ha⟩
  refine .bind (create_quiet hE path false) ?_
  rintro (r | _)
  · exact .pure fun s hs => ⟨hs, fun a ha => nomatch ha⟩
  refine .bind (resolve_quiet hE path) ?_
  rintro (_ | b)
  · exact .pure fun s hs => ⟨hs.1, fun a ha => nomatch ha⟩
  · refine .pure fun s hs => ⟨hs.1, fun a ha => ?_⟩
    obtain rfl := Except.ok.inj ha
    exact (hs.2 b rfl).live hs.1

end

/-! ## Taking and dropping references -/

theorem ref_counts (h : Counts base statics held s) (hlive : a ∈ s.heap) :
    Counts base statics (update held a (held a + 1)) (ref a s).2 := by
  have hset := h.setCount (n := held a + 1) hlive fun _ _ _ _ _ => Nat.succ_pos _
  have hcount : (s.nodes a).refCount + 1 = permanent base (s.nodes a) a + (held a + 1) := by
    rw [h.count a hlive, Nat.add_assoc]
  rwa [← hcount] at hset

/-- A referenced node may enter the vnode cache. -/
theorem vnodeInsert_counts (h : Counts base statics held s) (path : Text)
    (hheld : 0 < held a) : Counts base statics held (vnodeInsert path a s).2 := by
  rcases vnodeInsert_cases path a with heq | ⟨i, path', -, heq⟩
  · rwa [heq]
  · rw [heq]
    exact { h with
      vnode_live := forall_update_some ⟨h.open_live a hheld, fun _ => hheld⟩ fun j v hv _ => h.vnode_live j v hv }

theorem vnodeInsert_fds (path : Text) (a : Addr) : (vnodeInsert path a s).2.fds = s.fds := by
  rcases vnodeInsert_cases path a with heq | ⟨i, path', -, heq⟩
  · rw [heq]
  · rw [heq]

/-- The state in which `unref` drops the last reference, before a dynamic node is freed. -/
def unlinked (E : Env ω δ) (a : Addr) (s : State T ω δ) : State T ω δ :=
  { s with
    fs := E.driver.closeHook s.fs (s.nodes a).impl
    nodes := update s.nodes a { s.nodes a with refCount := (s.nodes a).refCount - 1 }
    vnodes := fun i => (s.vnodes i).filter (·.node ≠ a) }

/-- What `unref` does: only the count moves, or the node is unlinked and, if dynamic, freed. -/
theorem unref_cases (a : Addr) : ((s.nodes a).refCount - 1 ≠ 0 ∧ (unref E a s).2
      = (setNode a { s.nodes a with refCount := (s.nodes a).refCount - 1 } s).2) ∨
    ((s.nodes a).refCount - 1 = 0 ∧ (s.nodes a).dynamic = false ∧
      (unref E a s).2 = unlinked E a s) ∨
    ((s.nodes a).refCount - 1 = 0 ∧ (s.nodes a).dynamic ∧
      (unref E a s).2 = (Vfs.kfree a (unlinked E a s)).2) := by
  have hrun : unref E a s = (if (s.nodes a).refCount - 1 = 0 then do
      vnodeRemoveNode a
      callClose E (s.nodes a).impl
      freeDynamic a
    else pure ()) (setNode a { s.nodes a with refCount := (s.nodes a).refCount - 1 } s).2 := rfl
  rw [hrun]
  by_cases hzero : (s.nodes a).refCount - 1 = 0
  swap
  · rw [if_neg hzero]
    exact .inl ⟨hzero, rfl⟩
  rw [if_pos hzero]
  have hself : ((unlinked E a s).nodes a).dynamic = (s.nodes a).dynamic := by
    simp [unlinked]
  have hfree : (do
      vnodeRemoveNode a
      callClose E (s.nodes a).impl
      freeDynamic a : Vm T ω δ Unit)
        (setNode a { s.nodes a with refCount := (s.nodes a).refCount - 1 } s).2
      = (if ((unlinked E a s).nodes a).dynamic then Vfs.kfree a else pure ()) (unlinked E a s) := rfl
  rw [hfree, hself]
  by_cases hdyn : (s.nodes a).dynamic
  · rw [if_pos hdyn]
    exact .inr (.inr ⟨hzero, hdyn, rfl⟩)
  · rw [if_neg hdyn]
    exact .inr (.inl ⟨hzero, by simpa using hdyn, rfl⟩)

theorem unlinked_counts (h : Counts base statics held s) {n : Nat} (hlive : a ∈ s.heap)
    (hn : (s.nodes a).refCount - 1 = permanent base (s.nodes a) a + n) :
    Counts base statics (update held a n) (unlinked E a s) := by
  have hfilter : Counts base statics held { s with
      vnodes := fun i => (s.vnodes i).filter (·.node ≠ a) } := by
    refine h.congr rfl rfl rfl ?_ h.dentry_static
    intro i v hv
    exact ⟨i, v, (Option.filter_eq_some_iff.mp hv).1, rfl⟩
  have hset := hfilter.setCount (n := n) hlive ?_
  · rw [← hn] at hset
    exact hset.congr rfl rfl rfl (vnodes_same rfl) h.dentry_static
  · intro i v hv hnode
    have := (Option.filter_eq_some_iff.mp hv).2
    simp [hnode] at this

/-- One reference is dropped. -/
theorem unref_counts (h : Counts base statics held s) (hheld : 0 < held a) :
    Counts base statics (update held a (held a - 1)) (unref E a s).2 := by
  have hlive := h.open_live a hheld
  have hcount := h.count a hlive
  have hn : (s.nodes a).refCount - 1 = permanent base (s.nodes a) a + (held a - 1) := by omega
  rcases unref_cases a with ⟨hne, heq⟩ | ⟨-, -, heq⟩ | ⟨hzero, hdyn, heq⟩
  · rw [heq, hn]
    refine h.setCount hlive fun _ _ _ _ hdyn => ?_
    rw [hn, permanent, if_pos hdyn] at hne
    omega
  · rw [heq]
    exact unlinked_counts h hlive hn
  · rw [heq]
    refine (unlinked_counts h hlive hn).kfree (by simpa [unlinked] using hdyn) ?_
    rw [update_self]
    omega

/-- The descriptor tables are not touched, no node is made, and no node changes its kind. -/
theorem unref_frame (a : Addr) : (unref E a s).2.fds = s.fds ∧ (unref E a s).2.current = s.current ∧
    (∀ b ∈ (unref E a s).2.heap, b ∈ s.heap) ∧
    ∀ b, ((unref E a s).2.nodes b).dynamic = (s.nodes b).dynamic := by
  have hkind : ∀ b, (update s.nodes a { s.nodes a with
      refCount := (s.nodes a).refCount - 1 } b).dynamic = (s.nodes b).dynamic := by
    intro b
    rcases eq_or_ne b a with rfl | hb
    · rw [update_self]
    · rw [update_of_ne hb]
  rcases unref_cases a with ⟨-, heq⟩ | ⟨-, -, heq⟩ | ⟨-, -, heq⟩
  · rw [heq]
    exact ⟨rfl, rfl, fun b hb => hb, hkind⟩
  · rw [heq]
    exact ⟨rfl, rfl, fun b hb => hb, hkind⟩
  · rw [heq]
    exact ⟨rfl, rfl, fun b hb => (List.mem_filter.mp hb).1, hkind⟩

/-- **The last reference frees a dynamic node.** -/
theorem unref_frees (h : Counts base statics held s) (hheld : held a = 1)
    (hdyn : (s.nodes a).dynamic) : a ∉ (unref E a s).2.heap := by
  have hcount := h.count a (h.open_live a (by omega))
  rw [permanent, if_pos hdyn] at hcount
  rcases unref_cases (s := s) a with ⟨hne, -⟩ | ⟨-, hstatic, -⟩ | ⟨-, -, heq⟩
  · omega
  · rw [hdyn] at hstatic
    cases hstatic
  · rw [heq]
    intro hin
    have := (List.mem_filter.mp hin).2
    simp at this

/-! ## The descriptor calls -/

/-- What closing descriptors does: nodes go away only when their last descriptor does, and then
    they do if they are dynamic. -/
structure Closes (s s' : State T ω δ) : Prop where
  heap : ∀ a ∈ s'.heap, a ∈ s.heap
  kind : ∀ a, (s'.nodes a).dynamic = (s.nodes a).dynamic
  frees : ∀ a, (s.nodes a).dynamic → 0 < refs s a → refs s' a = 0 → a ∉ s'.heap

theorem Closes.refl (s : State T ω δ) : Closes s s :=
  ⟨fun _ h => h, fun _ => rfl, fun _ _ hpos hzero => by omega⟩

theorem Closes.trans {t : State T ω δ} (h : Closes s s') (h' : Closes s' t) : Closes s t := by
  refine ⟨fun a ha => h.heap a (h'.heap a ha), fun a => (h'.kind a).trans (h.kind a), ?_⟩
  intro a hdyn hpos hzero hin
  by_cases hmid : refs s' a = 0
  · exact h.frees a hdyn hpos hmid (h'.heap a hin)
  · exact h'.frees a ((h.kind a).trans hdyn) (Nat.pos_of_ne_zero hmid) hzero hin

/-- An open entry is one of the references to its node. -/
theorem refs_pos (h : s.fds p = some f) : 0 < refs s f.node := by
  by_contra hzero
  have hfalse := used_eq_zero.mp (Nat.eq_zero_of_not_pos hzero) p
  simp [h] at hfalse

theorem closeSlot_counts (h : Counted base statics s) (p : Fin T × Fin 32) :
    Counted base statics (closeSlot E p s).2 ∧ Closes s (closeSlot E p s).2 := by
  cases hp : s.fds p with
  | none =>
    rw [closeSlot, bind_of (Prod.ext hp rfl : fdAt p s = (none, s))]
    exact ⟨h, Closes.refl s⟩
  | some f =>
    rw [closeSlot, bind_of (Prod.ext hp rfl : fdAt p s = (some f, s))]
    have hpos := refs_pos hp
    obtain ⟨hfds, -, hheap, hkind⟩ := unref_frame (s := s) f.node
    have hset : (setFd p none (unref E f.node s).2).2.fds = update s.fds p none := by
      rw [← hfds]; rfl
    have hrefs := refs_close hp hset
    show Counted base statics (setFd p none (unref E f.node s).2).2 ∧
      Closes s (setFd p none (unref E f.node s).2).2
    refine ⟨?_, hheap, hkind, ?_⟩
    · have hunref := unref_counts (E := E) h hpos
      rw [← hrefs] at hunref
      exact hunref.congr rfl rfl rfl (vnodes_same rfl) hunref.dentry_static
    intro a hdyn hposa hzero
    rw [hrefs] at hzero
    rcases eq_or_ne a f.node with rfl | hne
    · rw [update_self] at hzero
      exact unref_frees h (by omega) hdyn
    · rw [update_of_ne hne] at hzero
      omega

theorem closeSlots_counts (t : Fin T) (is : List (Fin 32)) : ∀ s, Counted base statics s →
      Counted base statics (closeSlots E t is s).2 ∧ Closes s (closeSlots E t is s).2 := by
  induction is with
  | nil => exact fun s h => ⟨h, Closes.refl s⟩
  | cons i is ih =>
    intro s h
    obtain ⟨hone, hcloses⟩ := closeSlot_counts h (t, i)
    obtain ⟨hrest, hcloses'⟩ := ih _ hone
    exact ⟨hrest, hcloses.trans hcloses'⟩

theorem close_counts (h : Counted base statics s) (fd : Int) :
    Counted base statics (close E fd s).2 ∧ Closes s (close E fd s).2 := by
  unfold close
  cases slot fd with
  | none => exact ⟨h, Closes.refl s⟩
  | some i => exact closeSlot_counts h (s.current, i)

/-- The reference just taken is moved into a free slot, or dropped again. -/
theorem installFd_counts (hheld : held = update (refs s) a (refs s a + 1))
    (h : Counts base statics held s) (offset : Nat) (flags : UInt32) :
    Counted base statics (installFd E a offset flags s).2 ∧
      ∀ b, refs s b ≤ refs (installFd E a offset flags s).2 b := by
  rw [installFd, bind_of (rfl : currentTable s = (s.current, s))]
  cases hslot : firstIdx fun i => (s.fds (s.current, i)).isNone with
  | some i =>
    rw [bind_of (Prod.ext hslot rfl : freeSlot s.current s = (some i, s))]
    have hfree : s.fds (s.current, i) = none := by simpa using firstIdx_some hslot
    have hrefs : refs (setFd (s.current, i) (some ⟨a, offset, flags⟩) s).2 = held :=
      (refs_open hfree rfl).trans hheld.symm
    refine ⟨?_, fun b => ?_⟩
    · rw [← hrefs] at h
      exact h.congr rfl rfl rfl (vnodes_same rfl) h.dentry_static
    · show refs s b ≤ refs (setFd (s.current, i) (some ⟨a, offset, flags⟩) s).2 b
      rw [hrefs, hheld]
      exact le_update_succ _ _ b
  | none =>
    rw [bind_of (Prod.ext hslot rfl : freeSlot s.current s = (none, s))]
    obtain ⟨hfds, -, -, -⟩ := unref_frame a
    have hheld' : held a = refs s a + 1 := by rw [hheld, update_self]
    have hcounts := unref_counts (E := E) h (a := a) (by omega)
    have hback : update held a (held a - 1) = refs (unref E a s).2 := by
      rw [hheld', hheld, update_idem, Nat.add_sub_cancel, update_eq_self]
      exact funext fun b => (refs_congr hfds b).symm
    rw [hback] at hcounts
    exact ⟨hcounts, fun b => (refs_congr hfds b).ge⟩

/-- A live node without references is given back; descriptors stay. -/
theorem release_counts (h : Counts base statics held s) (hlive : a ∈ s.heap) :
    Counts base statics held (release a s).2 ∧ (release a s).2.fds = s.fds := by
  rcases release_cases a s with ⟨hfree, heq⟩ | heq
  · rw [heq]
    have hcount := h.count a hlive
    exact ⟨h.kfree hfree.1 (by omega), rfl⟩
  · rw [heq]
    exact ⟨h, rfl⟩

/-- What an open does to the descriptors: none goes away. -/
def Opens (base : Addr → Nat) (statics : Addr → Prop) (s₀ s : State T ω δ) : Prop :=
  Counted base statics s ∧ ∀ b, refs s₀ b ≤ refs s b

theorem Quiet.opens (h : Quiet base statics s₀ s) (h' : Opens base statics s s') :
    Opens base statics s₀ s' :=
  ⟨h'.1, fun b => (refs_congr h.fds b).ge.trans (h'.2 b)⟩

theorem Quiet.opens_self (h : Quiet base statics s₀ s) : Opens base statics s₀ s :=
  ⟨h.inv, fun b => (refs_congr h.fds b).ge⟩

theorem release_opens (h : Counted base statics s) (hlive : a ∈ s.heap) :
    Opens base statics s (release a s).2 := by
  obtain ⟨hcounts, hfds⟩ := release_counts h hlive
  have hrefs : refs (release a s).2 = refs s := funext (refs_congr hfds)
  rw [← hrefs] at hcounts
  exact ⟨hcounts, fun b => (refs_congr hfds b).ge⟩

theorem openInstall_opens (h : Counted base statics s) (path : Text) (flags : UInt32)
    (hlive : a ∈ s.heap) : Opens base statics s (openInstall E path flags a s).2 := by
  let s₁ : State T ω δ := { s with fs := (E.driver.openHook s.fs (s.nodes a).impl).2 }
  have h₁ : Counted base statics s₁ := h.congr rfl rfl rfl (vnodes_same rfl) h.dentry_static
  have hrun : openInstall E path flags a s = (if (E.driver.openHook s.fs (s.nodes a).impl).1 then do
        ref a
        vnodeInsert path a
        let n ← node a
        installFd E a (if has flags oAppend then n.size else 0) flags
      else do
        release a
        pure (Except.error Refusal.failed)) s₁ := rfl
  rw [hrun]
  split
  · have href := ref_counts h₁ hlive
    have hins := vnodeInsert_counts href path (by rw [update_self]; omega)
    have hfds : (vnodeInsert path a (ref a s₁).2).2.fds = s.fds := vnodeInsert_fds path a
    have hrefs : refs s₁ = refs (vnodeInsert path a (ref a s₁).2).2 :=
      funext fun b => (refs_congr hfds b).symm
    rw [hrefs] at hins
    have hfd := installFd_counts rfl hins (E := E) (if has flags oAppend then
      ((vnodeInsert path a (ref a s₁).2).2.nodes a).size else 0) flags
    rwa [← hrefs] at hfd
  · exact release_opens h₁ hlive

section

variable (hE : Lawful E statics)

include hE

/-- `vfs_open_flags` from a live node on. -/
theorem openFound_opens (path : Text) (flags : UInt32) (a : Addr) :
    Triple (fun s => Quiet base statics s₀ s ∧ a ∈ s.heap) (openFound (T := T) E path flags a)
      fun _ s => Opens base statics s₀ s := by
  rintro s ⟨hs, hlive⟩
  -- The checks are quiet from here, so the node is still alive after them.
  have hq := openChecks_quiet hE path flags a s (Quiet.refl hs.inv)
  have hlive₁ := (hq.alive a hlive).1
  refine hs.opens (hq.opens ?_)
  rcases hchecks : openChecks E path flags a s with ⟨verdict, s₁⟩
  rw [hchecks] at hq hlive₁
  rw [openFound, bind_of hchecks]
  cases verdict with
  | some r => exact release_opens hq.inv hlive₁
  | none =>
    show Opens base statics s₁ ((if has flags oTrunc ∧ has flags oWronly ∧ (s₁.nodes a).isFile
      then _ else _ : Vm T ω δ (Except Refusal (Fin 32))) s₁).2
    split
    · obtain ⟨hcounted, hge⟩ := release_opens hq.inv hlive₁
      obtain ⟨hre, hnew⟩ := recreate_quiet hE path (release a s₁).2 (Quiet.refl hcounted)
      rcases hfresh : recreate E path (release a s₁).2 with ⟨fresh, s₂⟩
      rw [hfresh] at hre hnew
      rw [bind_run, bind_of hfresh]
      cases fresh with
      | error r => exact ⟨hre.opens_self.1, fun b => (hge b).trans (hre.opens_self.2 b)⟩
      | ok b =>
        have hopens := hre.opens (openInstall_opens (E := E) hre.inv path flags (hnew b rfl))
        exact ⟨hopens.1, fun b => (hge b).trans (hopens.2 b)⟩
    · exact openInstall_opens hq.inv path flags hlive₁

/-- **`vfs_open_flags`** keeps the counts right and no descriptor goes away. -/
theorem openFlags_opens (h : Counted base statics s) (path : Text) (flags : UInt32) :
    Opens base statics s (openFlags E path flags s).2 := by
  have hgo : Triple (Quiet base statics s) (openFlags E path flags)
      fun _ s' => Opens base statics s s' := by
    refine .bind (openLookup_quiet hE path) ?_
    rintro (_ | a)
    · refine .ite (fun _ => ?_) fun _ => Triple.pure fun s' hs => hs.1.opens_self
      refine .bind (Q := fun _ => Quiet base statics s)
        (fun s' hs => create_quiet hE path false s' hs.1) ?_
      rintro (r | _)
      · exact .pure fun s' hs => hs.opens_self
      refine .bind (resolve_quiet hE path) ?_
      rintro (_ | a)
      · exact .pure fun s' hs => hs.1.opens_self
      · exact fun s' hs => openFound_opens hE path _ a s' ⟨hs.1, (hs.2 a rfl).live hs.1⟩
    · refine .ite (fun _ => ?_) fun _ => ?_
      · exact fun s' hs => hs.1.opens (release_opens hs.1.inv (hs.2 a rfl))
      · exact fun s' hs => openFound_opens hE path _ a s' ⟨hs.1, hs.2 a rfl⟩
  exact hgo s (Quiet.refl h)

end

theorem fdInstallNode_opens (h : Counted base statics s) (hlive : a ∈ s.heap)
    (flags : UInt32) : Opens base statics s (fdInstallNode E a flags s).2 := by
  have href := ref_counts h hlive
  exact installFd_counts rfl href 0 flags

/-- One entry is copied and, if open, referenced. -/
theorem inheritSlot_opens (h : Counted base statics s) {dst src : Fin T} {i : Fin 32}
    (hfree : s.fds (dst, i) = none) (hf : s.fds (src, i) = some f) :
    Opens base statics s (ref f.node (setFd (dst, i) (some f) s).2).2 := by
  have hrefs : refs (ref f.node (setFd (dst, i) (some f) s).2).2
      = update (refs s) f.node (refs s f.node + 1) := refs_open hfree rfl
  have hset : Counts base statics (refs s) (setFd (dst, i) (some f) s).2 :=
    h.congr rfl rfl rfl (vnodes_same rfl) h.dentry_static
  have href := ref_counts hset (h.open_live _ (refs_pos hf))
  rw [← hrefs] at href
  exact ⟨href, fun b => hrefs ▸ le_update_succ _ _ b⟩

theorem inheritSlots_opens (dst src : Fin T) (is : List (Fin 32)) (hnodup : is.Nodup) :
    ∀ s : State T ω δ, Counted base statics s → (∀ i ∈ is, s.fds (dst, i) = none) →
      Opens base statics s (inheritSlots dst src is s).2 := by
  induction is with
  | nil => exact fun s h _ => ⟨h, fun _ => le_rfl⟩
  | cons i is ih =>
    intro s h hfree
    obtain ⟨hi, hnodup⟩ := List.nodup_cons.mp hnodup
    -- The slots of `dst` still to come are other ones.
    have hrest : ∀ o (j : Fin 32), j ∈ is → update s.fds (dst, i) o (dst, j) = none := by
      intro o j hj
      rw [update_of_ne]
      · exact hfree j (.tail _ hj)
      · intro heq
        exact hi ((Prod.mk.injEq .. ▸ heq).2 ▸ hj)
    cases hf : s.fds (src, i) with
    | none =>
      have hsame : update s.fds (dst, i) none = s.fds := by
        rw [← hfree i List.mem_cons_self, update_eq_self]
      have hset : (setFd (dst, i) none s).2 = s := by
        show { s with fds := update s.fds (dst, i) none } = s
        rw [hsame]
      rw [inheritSlots, bind_of (Prod.ext hf rfl : fdAt (src, i) s = (none, s)), bind_run, hset]
      exact ih hnodup s h fun j hj => hfree j (.tail _ hj)
    | some f =>
      rw [inheritSlots, bind_of (Prod.ext hf rfl : fdAt (src, i) s = (some f, s))]
      have hone := inheritSlot_opens h (hfree i (.head _)) hf
      have hall := ih hnodup _ hone.1 fun j hj => hrest (some f) j hj
      exact ⟨hall.1, fun b => (hone.2 b).trans (hall.2 b)⟩

end

/-! ## Whole histories -/

/-- A call on the descriptors, a node that a driver makes for `vfs_fd_install_node`, or a switch to
    another task. -/
inductive RefCall (T : Nat) (ω : Type) where
  | openFlags (path : Text) (flags : UInt32)
  | close (fd : Int)
  | inherit (dst src : Fin T)
  | installNode (a : Addr) (flags : UInt32)
  | closeAll (t : Fin T)
  | newNode (n : Node ω)
  | switch (t : Fin T) (me : Creds)

/-- One call. -/
def refStep (E : Env ω δ) (s : State T ω δ) : RefCall T ω → Unit × State T ω δ
  | .openFlags path flags => ((), (openFlags E path flags s).2)
  | .close fd => close E fd s
  | .inherit dst src => inherit dst src s
  | .installNode a flags => ((), (fdInstallNode E a flags s).2)
  | .closeAll t => closeAll E t s
  | .newNode n => ((), (allocNode E n s).2)
  | .switch t me => ((), { s with current := t, creds := me })

/-- What the callers promise: a table that inherits has nothing open (it is that of a new task), the
    node installed is alive, and a node made for installation has `ref_count = 0`. -/
def RefLegal (s : State T ω δ) : RefCall T ω → Prop
  | .inherit dst _ => ∀ i, s.fds (dst, i) = none
  | .installNode a _ => a ∈ s.heap
  | .newNode n => n.refCount = 0
  | _ => True

/-- After `vfs_init` and the mounts: only static nodes, each with the reference of its driver, nothing
    open and nothing cached. -/
structure RefBoot (base : Addr → Nat) (statics : Addr → Prop) (s : State T ω δ) : Prop where
  fds : ∀ p, s.fds p = none
  vnodes : ∀ i, s.vnodes i = none
  dentries : ∀ i, s.dentries i = none
  nodes : ∀ a ∈ s.heap, (s.nodes a).dynamic = false ∧ (s.nodes a).refCount = base a
  alive : ∀ a, statics a → a ∈ s.heap
  roots : ∀ m ∈ s.mounts, statics m.2

section

variable {base : Addr → Nat} {statics : Addr → Prop} {E : Env ω δ}

theorem RefBoot.counted (h : RefBoot base statics s) : Counted base statics s := by
  have hrefs : ∀ a, refs s a = 0 := fun a => used_eq_zero.mpr fun p => by simp [h.fds p]
  refine ⟨?_, ?_, ?_, fun a ha => ⟨h.alive a ha, (h.nodes a (h.alive a ha)).1⟩, h.roots, ?_⟩
  · intro a ha
    obtain ⟨hstatic, hcount⟩ := h.nodes a ha
    rw [hrefs a, hcount, permanent, hstatic]
    rfl
  · intro a ha
    rw [hrefs a] at ha
    omega
  · intro i v hv
    rw [h.vnodes i] at hv
    cases hv
  · intro i d b hd
    rw [h.dentries i] at hd
    cases hd

/-- **One call** keeps the counts right, and frees the dynamic nodes whose last descriptor it
    closes. -/
theorem refStep_counted (hE : Lawful E statics) (h : Counted base statics s) {c : RefCall T ω}
    (hc : RefLegal s c) :
    Counted base statics (refStep E s c).2 ∧
      ∀ a, (s.nodes a).dynamic → 0 < refs s a → refs (refStep E s c).2 a = 0 →
        a ∉ (refStep E s c).2.heap := by
  -- Most calls close nothing.
  have hopens : ∀ s', Opens base statics s s' → Counted base statics s' ∧
      ∀ a, (s.nodes a).dynamic → 0 < refs s a → refs s' a = 0 → a ∉ s'.heap := by
    intro s' hs'
    refine ⟨hs'.1, fun a _ hpos hzero => ?_⟩
    have := hs'.2 a
    omega
  cases c with
  | openFlags path flags => exact hopens _ (openFlags_opens hE h path flags)
  | close fd =>
    obtain ⟨hcounted, hcloses⟩ := close_counts h fd
    exact ⟨hcounted, hcloses.frees⟩
  | inherit dst src =>
    exact hopens (inherit dst src s).2
      (inheritSlots_opens dst src _ (List.nodup_finRange 32) s h fun i _ => hc i)
  | installNode a flags => exact hopens _ (fdInstallNode_opens h hc flags)
  | closeAll t =>
    rw [refStep, closeAll]
    obtain ⟨hcounted, hcloses⟩ := closeSlots_counts t _ s h
    exact ⟨hcounted, hcloses.frees⟩
  | newNode n =>
    have hquiet := (Quiet.refl h).allocNode hE hc
    exact hopens _ ⟨hquiet.inv, fun a => (refs_congr hquiet.fds a).ge⟩
  | switch t me =>
    exact hopens _ ⟨h.congr rfl rfl rfl (vnodes_same rfl) h.dentry_static, fun _ => le_rfl⟩

end

/-! ## Ramfs and devfs -/

theorem lt_above {inUse : List Nat} {a : Nat} (h : a ∈ inUse) : a < inUse.foldr max 0 + 1 := by
  induction inUse with
  | nil => cases h
  | cons b inUse ih =>
    rw [List.foldr_cons]
    rcases List.mem_cons.mp h with rfl | h
    · omega
    · have := ih h
      omega

/-- Ramfs makes every node that a lookup finds, with `ref_count = 0`. -/
theorem ramfs_finddir_dynamic {d : Ramfs.Store} {o : Ramfs.Obj} {name : Text} {c : Child Ramfs.Obj}
    (h : Ramfs.finddir [] d o name = some c) : ∃ n, c = .dynamic n ∧ n.refCount = 0 := by
  cases o with
  | root =>
    rw [Ramfs.finddir] at h
    split at h
    · exact ⟨_, (Option.some.inj h).symm, rfl⟩
    · obtain ⟨i, -, hi⟩ := Option.map_eq_some_iff.mp h
      exact ⟨_, hi.symm, rfl⟩
  | vdir i =>
    simp only [Ramfs.finddir] at h
    split at h
    · exact ⟨_, (Option.some.inj h).symm, rfl⟩
    · split at h
      · exact ⟨_, (Option.some.inj h).symm, rfl⟩
      · cases h
  | file key => cases h

/-- Ramfs makes every node it answers with, with `ref_count = 0`. -/
theorem ramfs_lawful : Lawful Ramfs.plain (· = 1) := by
  have hkey : ∀ st key dir c, (Ramfs.createKey [] st key dir).1 = some c →
      ∃ n, c = .dynamic n ∧ n.refCount = 0 := by
    intro st key dir c h
    simp only [Ramfs.createKey] at h
    split at h
    · split at h
      · exact ⟨_, (Option.some.inj h).symm, rfl⟩
      · split at h
        · cases h
        · exact ⟨_, (Option.some.inj h).symm, rfl⟩
    · split at h
      · cases h
      · exact ⟨_, (Option.some.inj h).symm, rfl⟩
  have hcreate : ∀ d o name dir c, (Ramfs.create [] d o name dir).1 = some c →
      ∃ n, c = .dynamic n ∧ n.refCount = 0 := by
    intro d o name dir c h
    cases o with
    | root => exact hkey _ _ _ _ h
    | vdir i => exact hkey _ _ _ _ h
    | file key => cases h
  refine ⟨fun inUse _ a ha h => absurd (lt_above h) (Option.some.inj ha ▸ lt_irrefl _), ?_, ?_, ?_, ?_⟩
  · intro d o name b h
    obtain ⟨n, hn, -⟩ := ramfs_finddir_dynamic h
    cases hn
  · intro d o name dir b h
    obtain ⟨n, hn, -⟩ := hcreate _ _ _ _ _ h
    cases hn
  · intro d o name n h
    obtain ⟨m, hm, hzero⟩ := ramfs_finddir_dynamic h
    cases hm
    exact hzero
  · intro d o name dir n h
    obtain ⟨m, hm, hzero⟩ := hcreate _ _ _ _ _ h
    cases hm
    exact hzero

theorem ramfs_boot : RefBoot (fun _ => 0) (· = 1) (Ramfs.mounted 2) := by
  refine ⟨fun _ => rfl, fun _ => rfl, fun _ => rfl, ?_, ?_, ?_⟩
  · intro a _
    exact ⟨rfl, rfl⟩
  · rintro a rfl
    decide +kernel
  · decide +kernel

/-- The nodes of `devfs.c` that need no hardware. -/
inductive Dev where
  | root
  | null
  | zero
deriving DecidableEq

/-- `devfs_dir_ops`, `dev_null_ops` and `dev_zero_ops`; the nodes `null` and `zero` are static, here
    at the addresses 3 and 4. -/
def devfs : Driver Dev Unit where
  finddir _ o name :=
    match o with
    | .root =>
      if name = [110, 117, 108, 108] then some (.static 3)
      else if name = [122, 101, 114, 111] then some (.static 4)
      else none
    | _ => none
  create d _ _ _ := (none, d)
  unlink d _ _ := (false, d)
  read d o _ size :=
    match o with
    | .root => (none, d)
    | .null => (some [], d)
    | .zero => (some (List.replicate size 0), d)
  write d o _ data :=
    match o with
    | .root => ⟨-1, none, d⟩
    | _ => ⟨data.length, none, d⟩
  openHook d _ := (true, d)
  closeHook d _ := d

/-- Devfs mounted at `/dev`: its root at address 2, and `ref_count = 1` in each of its nodes. -/
def devMounted : State 1 Dev Unit := (mount [slash, 100, 101, 118] 2 {
  mounts := []
  perms := fun _ => none
  vnodes := fun _ => none
  vnodeTick := 1
  dentries := fun _ => none
  dentryTick := 1
  dentryGen := 1
  nodes := fun a => if a = 2 then ⟨false, true, false, 0, 1, .root⟩
    else ⟨true, false, false, 0, 1, if a = 3 then .null else .zero⟩
  heap := [2, 3, 4]
  clock := 0
  fds := fun _ => none
  current := 0
  creds := ⟨0, 0, []⟩
  fs := ()
  log := [] }).2

end Lyth.Vfs
