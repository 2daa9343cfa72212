/-
  THE DENTRY CACHE AND RESOLUTION WITHOUT IT.

  1. **Program** — the name calls of `fs/vfs.c` (`mount`, `create`, `delete`, `rename`, `openFlags`,
     `close`, `resolve`) in the system `E`, and in `E.uncached`, where the same calls never look into
     the dentry cache.

  2. **Specification** — TRANSPARENCY: after any history, `resolve p` answers null in the one exactly
     when it does in the other.  It holds for every driver and every allocator as long as the answers
     are `Steady` IN THE SYSTEM WITHOUT THE CACHE: until the caches are emptied, a name that was
     missing, or a static node, at an address stays so.  Three things break that: a node at the
     address of one that was freed, a lookup that failed, and a change of names that is not
     followed by `vfs_cache_invalidate_all`.

  3. **The crux (`Rel`)** — the two systems are in the same state up to the cache, addresses
     included, and every entry of the cache is an answer that the OTHER system has heard since the
     caches were emptied.  So at a hit the other system, which asks the driver, hears the entry once
     more; a hit never replaces an allocation, because a node that was made is not cached.

  The comparison is carried through the functions with `Hoare.Agree`, whose escape is that the
  answers were not steady.
-/
import Lyth.VfsRefs

namespace Lyth.Vfs

open Table Hoare Run Function
open Ramfs (plain)

variable {T : Nat} {ω δ α β : Type} (dir : Addr) (name : Text) (fuel : Nat) (fd : Int)

/-! ## Answers that are repeated -/

/-- The lookups since the caches were last emptied, as far as their answers may be cached. -/
def pending : List Event → List ((Addr × Text) × Option Addr)
  | .lookup dir name (some r) :: log => ((dir, name), r) :: pending log
  | .lookup _ _ none :: log => pending log
  | _ => []

/-- **What the cache relies on**: until it is emptied, a name that was missing or static in the node
    at an address gets the same answer whenever it is looked up there again. -/
def Steady : List Event → Prop
  | .lookup dir name answer :: log =>
    (∀ p ∈ pending log, p.1 = (dir, name) → answer = some p.2) ∧ Steady log
  | .invalidated :: log => Steady log
  | [] => True

instance decidableSteady : ∀ log, Decidable (Steady log)
  | [] => .isTrue trivial
  | .invalidated :: log => decidableSteady log
  | .lookup .. :: log => @instDecidableAnd _ _ _ (decidableSteady log)

/-- A later lookup takes nothing back. -/
theorem pending_lookup {log : List Event} {p : (Addr × Text) × Option Addr} (h : p ∈ pending log)
    (dir : Addr) (name : Text) (answer : Option (Option Addr)) :
    p ∈ pending (.lookup dir name answer :: log) := by
  cases answer with
  | none => exact h
  | some r => exact .tail _ h

/-! ## Two states that differ in the cache -/

/-- `s` with another dentry cache and another log. -/
def State.withCache (s : State T ω δ) (dentries : Fin 128 → Option Dentry) (age : UInt32)
    (log : List Event) : State T ω δ :=
  { s with dentries, dentryTick := age, log }

/-- `t` is `s` up to the dentry cache, whose entries are answers that were heard on the way to `s`. -/
def Rel (s t : State T ω δ) : Prop :=
  ∃ dentries age log, t = s.withCache dentries age log ∧
    ∀ i d, dentries i = some d → d.gen = s.dentryGen → ((d.parent, d.name), d.node) ∈ pending s.log

/-- Some answer was not repeated. -/
def Unsteady (s : State T ω δ) : Prop := ¬ Steady s.log

/-- `f` without the cache and `g` with it answer alike, from related states to related states. -/
def Alike (f g : Vm T ω δ α) : Prop := Agree Unsteady Rel f g fun _ => Rel

/-- A call answers alike with the cache and without. -/
abbrev Same (T : Nat) (E : Env ω δ) (f : Env ω δ → Vm T ω δ α) : Prop := Alike (f E.uncached) (f E)

/-- `f` has nothing to do with the cache. -/
def Blind (f : Vm T ω δ α) : Prop :=
  ∀ s dentries age log, f (s.withCache dentries age log)
      = ((f s).1, (f s).2.withCache dentries age log) ∧
    (f s).2.dentryGen = s.dentryGen ∧ (f s).2.log = s.log

theorem Blind.alike {f : Vm T ω δ α} (hf : Blind f) : Alike f f := by
  refine ⟨fun s hs => ?_, ?_⟩
  · show ¬ Steady (f s).2.log
    rwa [(hf s s.dentries s.dentryTick s.log).2.2]
  rintro s t ⟨D, k, l, rfl, hheard⟩
  obtain ⟨heq, hgen, hlog⟩ := hf s D k l
  rw [heq]
  refine .inr ⟨rfl, D, k, l, rfl, ?_⟩
  rw [hgen, hlog]
  exact hheard

theorem Alike.pure (a : α) : Alike (Pure.pure a : Vm T ω δ α) (Pure.pure a) := Agree.pure fun _ _ h => h

theorem Alike.bind {f g : Vm T ω δ α} {k l : α → Vm T ω δ β} (hf : Alike f g)
    (hk : ∀ a, Alike (k a) (l a)) : Alike (f >>= k) (g >>= l) :=
  Agree.bind hf hk

theorem Alike.ite {c : Prop} [Decidable c] {f g f' g' : Vm T ω δ α} (ht : Alike f g)
    (he : Alike f' g') : Alike (if c then f else f') (if c then g else g') :=
  Agree.ite ht he

/-! ## The primitive operations -/

/-- Reading something other than the cache. -/
theorem reads_alike {v : State T ω δ → α} (hv : ∀ s dentries age log,
    v (s.withCache dentries age log) = v s) : Alike (fun s => (v s, s)) (fun s => (v s, s)) :=
  Blind.alike fun s D k l => ⟨by rw [hv], rfl, rfl⟩

variable (path : Text) (flags : UInt32) (a : Addr)

theorem node_alike : Alike (node a : Vm T ω δ (Node ω)) (node a) :=
  reads_alike fun _ _ _ _ => rfl

theorem setNode_alike (n : Node ω) : Alike (setNode a n : Vm T ω δ Unit) (setNode a n) :=
  Blind.alike fun _ _ _ _ => ⟨rfl, rfl, rfl⟩

theorem setFd_alike (p : Fin T × Fin 32) (f : Option Fd) :
    Alike (setFd p f : Vm T ω δ Unit) (setFd p f) :=
  Blind.alike fun _ _ _ _ => ⟨rfl, rfl, rfl⟩

theorem kfree_alike : Alike (kfree a : Vm T ω δ Unit) (kfree a) :=
  Blind.alike fun _ _ _ _ => ⟨rfl, rfl, rfl⟩

theorem callDriver_alike (g : δ → α × δ) : Alike (callDriver g : Vm T ω δ α) (callDriver g) :=
  Blind.alike fun _ _ _ _ => ⟨rfl, rfl, rfl⟩

theorem freeDynamic_alike : Alike (freeDynamic a : Vm T ω δ Unit) (freeDynamic a) :=
  .bind (node_alike a) fun _ => .ite (kfree_alike a) (.pure _)

theorem release_alike : Alike (release a : Vm T ω δ Unit) (release a) :=
  .bind (node_alike a) fun _ => .ite (kfree_alike a) (.pure _)

theorem permSet_alike (mode uid gid : UInt32) :
    Alike (permSet path mode uid gid : Vm T ω δ Bool) (permSet path mode uid gid) := by
  refine Blind.alike fun s D k l => ?_
  simp only [permSet, State.withCache]
  cases permFind s.perms path with
  | some i => exact ⟨rfl, rfl, rfl⟩
  | none => cases firstIdx fun i => (s.perms i).isNone <;> exact ⟨rfl, rfl, rfl⟩

theorem permRemove_alike :
    Alike (permRemove path : Vm T ω δ Unit) (permRemove path) := by
  refine Blind.alike fun s D k l => ?_
  simp only [permRemove, State.withCache]
  cases permFind s.perms path <;> exact ⟨rfl, rfl, rfl⟩

theorem vnodeLookup_alike :
    Alike (vnodeLookup path : Vm T ω δ (Option Addr)) (vnodeLookup path) := by
  refine Blind.alike fun s D k l => ?_
  simp only [vnodeLookup, State.withCache]
  cases firstIdx fun i => (s.vnodes i).any (·.path = path) with
  | none => exact ⟨rfl, rfl, rfl⟩
  | some i => cases hv : s.vnodes i <;> simp [hv]

theorem vnodeInsert_alike :
    Alike (vnodeInsert path a : Vm T ω δ Unit) (vnodeInsert path a) := by
  refine Blind.alike fun s D k l => ?_
  simp only [vnodeInsert, State.withCache]
  by_cases hnil : path = []
  · simp [hnil]
  simp only [if_neg hnil]
  cases firstIdx fun i => (s.vnodes i).any (·.path = path) with
  | some i => exact ⟨rfl, rfl, rfl⟩
  | none =>
    cases victim (fun i => (s.vnodes i).isNone) (fun i => ((s.vnodes i).map Vnode.age).getD 0) <;>
      exact ⟨rfl, rfl, rfl⟩

theorem vnodeRemoveNode_alike :
    Alike (vnodeRemoveNode a : Vm T ω δ Unit) (vnodeRemoveNode a) :=
  Blind.alike fun _ _ _ _ => ⟨rfl, rfl, rfl⟩

variable {E : Env ω δ}

theorem adopt_alike (r : Option (Child ω)) : Same T E (adopt · r) := by
  match r with
  | none => exact .pure _
  | some (.static a) => exact .pure _
  | some (.dynamic n) =>
    have hblind : Blind (allocNode (T := T) E n) := by
      intro s D k l
      simp only [allocNode, State.withCache]
      cases E.kmalloc s.heap s.clock <;> exact ⟨rfl, rfl, rfl⟩
    exact hblind.alike

/-- Both caches are emptied, and what was heard is forgotten. -/
theorem invalidateAll_alike : Alike (invalidateAll : Vm T ω δ Unit) invalidateAll := by
  refine ⟨fun s hs => hs, ?_⟩
  rintro s t ⟨D, k, l, rfl, -⟩
  exact .inr ⟨rfl, fun _ => none, k, .invalidated :: l, rfl, nofun⟩

/-! ## Resolution -/

/-- The answer to a lookup has been heard, if it may be cached. -/
def Heard (dir : Addr) (name : Text) (found : Option Addr) (s : State T ω δ) : Prop :=
  (found.any fun b => (s.nodes b).dynamic) = false → ((dir, name), found) ∈ pending s.log

theorem note_agree (found : Option Addr) :
    Agree Unsteady (Rel (T := T) (ω := ω) (δ := δ)) (note dir name found) (note dir name found)
      fun _ s t => Rel s t ∧ Heard dir name found s := by
  refine ⟨fun s hs hlog => hs hlog.2, ?_⟩
  rintro s t ⟨D, k, l, rfl, hheard⟩
  refine .inr ⟨rfl, ⟨D, k, _, rfl, fun i d hd hgen => pending_lookup (hheard i d hd hgen) _ _ _⟩, ?_⟩
  intro hstatic
  simp only [note] at hstatic ⊢
  rw [hstatic]
  exact .head _

theorem nodeFinddir_agree :
    Agree Unsteady (Rel (T := T)) (nodeFinddir E.uncached dir name) (nodeFinddir E dir name)
      fun found s t => Rel s t ∧ Heard dir name found s :=
  .bind (node_alike dir) fun _ => .bind (reads_alike fun _ _ _ _ => rfl) fun r =>
    .bind (adopt_alike r) fun found => .bind (note_agree dir name found) fun _ => .pure fun _ _ h => h

variable {current : Addr} {comp : Text} {rest : List Text}

/-- An insertion changes the cache alone. -/
theorem dentryInsert_cache (parent : Addr) (name : Text) (child : Option Addr) (s : State T ω δ) :
    ∃ dentries age, (dentryInsert parent name child s).2 = s.withCache dentries age s.log := by
  rcases dentryInsert_cases (s := s) parent name child with h | ⟨i, name', -, h⟩
  · exact ⟨s.dentries, s.dentryTick, h⟩
  · exact ⟨_, _, h⟩

/-- What was heard may be cached. -/
theorem dentryInsert_agree (hlen : comp.length < nameMax) {child : Option Addr} :
    Agree Unsteady (fun s t : State T ω δ => Rel s t ∧ ((current, comp), child) ∈ pending s.log)
      (dentryInsert current comp child) (dentryInsert current comp child) fun _ => Rel := by
  refine ⟨fun s hs => ?_, ?_⟩
  · obtain ⟨D, k, h⟩ := dentryInsert_cache current comp child s
    rwa [h]
  rintro s t ⟨⟨D, k, l, rfl, hheard⟩, hnew⟩
  obtain ⟨D', k', h'⟩ := dentryInsert_cache current comp child s
  rw [h']
  refine .inr ⟨rfl, ?_⟩
  rcases dentryInsert_cases (s := s.withCache D k l) current comp child with h | ⟨i, name', hname, h⟩
  · exact ⟨D, k, l, h, hheard⟩
  have hsame : name' = comp := by
    rcases hname with rfl | rfl
    · rfl
    · exact List.take_of_length_le (by unfold nameMax at hlen ⊢; omega)
  refine ⟨_, _, l, h, ?_⟩
  rw [hsame]
  exact forall_update_some (fun _ => hnew) fun j d hd _ => hheard j d hd

/-- The driver's answer enters the cache, unless it is a node that was made. -/
def cacheFound (current : Addr) (comp : Text) (found : Option Addr) : Vm T ω δ Unit := fun s =>
  if found.any fun b => (s.nodes b).dynamic then ((), s) else dentryInsert current comp found s

theorem remember_eq (current next : Addr) (comp : Text) :
    remember current comp next = (cacheFound current comp (some next) : Vm T ω δ Unit) := by
  funext s
  show (if (s.nodes next).dynamic then pure () else dentryInsert current comp (some next) :
    Vm T ω δ Unit) s = if (s.nodes next).dynamic then _ else _
  split <;> rfl

theorem cacheFound_cache (current : Addr) (comp : Text) (found : Option Addr) (s : State T ω δ) :
    ∃ dentries age, (cacheFound current comp found s).2 = s.withCache dentries age s.log := by
  unfold cacheFound
  split
  · exact ⟨s.dentries, s.dentryTick, rfl⟩
  · exact dentryInsert_cache current comp found s

theorem cacheFound_agree (current : Addr) (hlen : comp.length < nameMax) (found : Option Addr) :
    Agree Unsteady (fun s t : State T ω δ => Rel s t ∧ Heard current comp found s)
      (cacheFound current comp found) (cacheFound current comp found) fun _ => Rel := by
  refine ⟨fun s hs => ?_, ?_⟩
  · obtain ⟨D, k, h⟩ := cacheFound_cache current comp found s
    rwa [h]
  rintro s t ⟨hrel, hheard⟩
  have hnodes : t.nodes = s.nodes := by
    obtain ⟨D, k, l, rfl, -⟩ := hrel
    rfl
  unfold cacheFound
  rw [hnodes]
  split
  · exact .inr ⟨rfl, hrel⟩
  · rename_i hdyn
    exact (dentryInsert_agree hlen).run s t ⟨hrel, hheard (by simpa using hdyn)⟩

/-- The walk from the answer to a lookup. -/
def go (E : Env ω δ) (rest : List Text) : Option Addr → Vm T ω δ (Option Addr)
  | none => pure none
  | some next => walk E next rest

/-- The walk once the cache had nothing to say. -/
def ask (E : Env ω δ) (current : Addr) (comp : Text) (rest : List Text) : Vm T ω δ (Option Addr) := do
  let found ← nodeFinddir E current comp
  cacheFound current comp found
  freeDynamic current
  go E rest found

theorem walk_miss {s s' : State T ω δ} (h : dentryLookup E current comp s = (none, s')) :
    walk E current (comp :: rest) s = ask E current comp rest s' := by
  rw [walk, bind_of h, ask]
  simp only [bind_run]
  cases (nodeFinddir E current comp s').1 with
  | none => rfl
  | some next => rw [← remember_eq]; rfl

theorem walk_hit {s s' : State T ω δ} {r : Option Addr}
    (h : dentryLookup E current comp s = (some r, s')) :
    walk E current (comp :: rest) s = (do freeDynamic current; go E rest r : Vm T ω δ _) s' := by
  rw [walk, bind_of h]
  cases r <;> rfl

/-- What a lookup leaves in the log, and in the state if its answer may be cached. -/
theorem nodeFinddir_log (s : State T ω δ) :
    ∃ answer, (nodeFinddir E dir name s).2.log = .lookup dir name answer :: s.log ∧
      ∀ r, answer = some r → nodeFinddir E dir name s
        = (r, s.withCache s.dentries s.dentryTick (.lookup dir name (some r) :: s.log)) := by
  have hrun : ∀ found s', adopt E (callFinddir E (s.nodes dir).impl name s).1 s = (found, s') →
      nodeFinddir E dir name s = (found, (note dir name found s').2) := by
    intro found s' h
    rw [nodeFinddir, bind_of (rfl : node dir s = (s.nodes dir, s)),
      bind_run (callFinddir E (s.nodes dir).impl name)]
    exact bind_of h _
  have hstays : ∀ found, adopt E (callFinddir E (s.nodes dir).impl name s).1 s = (found, s) →
      ∃ answer, (nodeFinddir E dir name s).2.log = .lookup dir name answer :: s.log ∧
        ∀ r, answer = some r → nodeFinddir E dir name s
          = (r, s.withCache s.dentries s.dentryTick (.lookup dir name (some r) :: s.log)) := by
    intro found h
    rw [hrun found s h]
    refine ⟨_, rfl, fun r hr => ?_⟩
    split at hr
    · cases hr
    · rename_i hdyn
      obtain rfl := Option.some.inj hr
      simp only [note, if_neg hdyn]
      rfl
  cases hfound : (callFinddir E (s.nodes dir).impl name s).1 with
  | none => exact hstays none (by rw [hfound]; rfl)
  | some c =>
    cases c with
    | static b => exact hstays (some b) (by rw [hfound]; rfl)
    | dynamic n =>
      rcases allocNode_cases E (s := s) n with h | ⟨b, -, h⟩
      · exact hstays none (by rw [hfound]; exact h)
      · -- A node that was made is not cached.
        rw [hrun (some b) _ (by rw [hfound]; exact h)]
        refine ⟨_, rfl, fun r hr => ?_⟩
        simp at hr

theorem go_alike (ih : ∀ next, Same T E (walk · next rest)) (r : Option Addr) : Same T E (go · rest r) := by
  cases r with
  | none => exact .pure _
  | some next => exact ih next

theorem ask_alike (hlen : comp.length < nameMax) (ih : ∀ next, Same T E (walk · next rest)) :
    Same T E (ask · current comp rest) :=
  Agree.bind (nodeFinddir_agree current comp) fun found =>
    Agree.bind (cacheFound_agree _ hlen found) fun _ => Alike.bind (freeDynamic_alike current) fun _ => go_alike ih found

/-- A hit: the other system asks the driver, and hears what is in the cache. -/
theorem hit_agree (hlen : comp.length < nameMax) (ih : ∀ next, Same T E (walk · next rest))
    {s t : State T ω δ} {r : Option Addr} (hrel : Rel s t)
    (hheard : ((current, comp), r) ∈ pending s.log) :
    Unsteady (ask E.uncached current comp rest s).2 ∨
      (ask E.uncached current comp rest s).1
        = ((do freeDynamic current; go E rest r : Vm T ω δ _) t).1 ∧
      Rel (ask E.uncached current comp rest s).2 ((do freeDynamic current; go E rest r : Vm T ω δ _) t).2 := by
  have hrest := Alike.bind (freeDynamic_alike current) fun _ => go_alike ih r
  obtain ⟨answer, hlog, hstate⟩ := nodeFinddir_log (E := E.uncached) current comp s
  by_cases hanswer : answer = some r
  · have hask : ask E.uncached current comp rest s = (do freeDynamic current; go E.uncached rest r : Vm T ω δ _)
        (cacheFound current comp r (s.withCache s.dentries s.dentryTick
          (.lookup current comp (some r) :: s.log))).2 := by
      rw [ask, bind_of (hstate r hanswer)]
      rfl
    rw [hask]
    refine hrest.run _ t ?_
    obtain ⟨D, k, hcache⟩ := cacheFound_cache current comp r (s.withCache s.dentries s.dentryTick
      (.lookup current comp (some r) :: s.log))
    obtain ⟨D', k', l, rfl, hall⟩ := hrel
    rw [hcache]
    exact ⟨D', k', l, rfl, fun i d hd hgen => pending_lookup (hall i d hd hgen) ..⟩
  · -- The driver says something else now.
    refine .inl ?_
    have hbad : Unsteady (nodeFinddir E.uncached current comp s).2 := by
      intro hsteady
      rw [hlog] at hsteady
      exact hanswer (hsteady.1 _ hheard rfl)
    have hstays := Agree.bind (cacheFound_agree current hlen
      (nodeFinddir E.uncached current comp s).1) fun _ => Alike.bind (freeDynamic_alike current) fun _ =>
        go_alike ih (nodeFinddir E.uncached current comp s).1
    exact hstays.stays _ hbad

/-- **The walk answers alike.** -/
theorem walk_alike (comps : List Text) (hlen : ∀ comp ∈ comps, comp.length < nameMax) : ∀ current,
    Same T E (walk · current comps) := by
  induction comps with
  | nil => exact fun current => .pure _
  | cons comp rest ih =>
    intro current
    have hcomp := hlen comp (.head _)
    have ih := ih fun c hc => hlen c (.tail _ hc)
    have hask : Same T E (ask · current comp rest) := ask_alike hcomp ih
    have hleft : ∀ s : State T ω δ, walk E.uncached current (comp :: rest) s
        = ask E.uncached current comp rest { s with clock := s.clock + 1 } :=
      fun s => walk_miss rfl
    refine ⟨fun s hs => ?_, ?_⟩
    · dsimp only
      rw [hleft]
      exact hask.stays _ hs
    rintro s t ⟨D, k, l, rfl, hheard⟩
    dsimp only
    rw [hleft]
    rcases dentryLookup_cases E (s := s.withCache D k l) current comp with
      h | ⟨i, d, -, hd, hgen, rfl, rfl, h⟩
    · -- Nothing cached.
      rw [walk_miss h]
      exact hask.run _ _ ⟨D, k, l, rfl, hheard⟩
    · rw [walk_hit h]
      refine hit_agree hcomp ih ⟨_, _, l, rfl, ?_⟩ (hheard i d hd hgen)
      exact forall_update_some (hheard i d hd) fun j e he _ => hheard j e he

/-- A component is at most 63 bytes long. -/
theorem componentsFrom_length : ∀ rest, ∀ comp ∈ componentsFrom fuel rest,
    comp.length < nameMax := by
  induction fuel with
  | zero => exact fun rest comp h => nomatch h
  | succ fuel ih =>
    intro rest comp h
    simp only [componentsFrom] at h
    split at h
    · cases h
    split at h
    · exact ih _ comp h
    · rcases List.mem_cons.mp h with rfl | h
      · rw [List.length_take]
        unfold nameMax
        omega
      · exact ih _ comp h

/-- **Resolution answers alike.** -/
theorem resolve_alike : Same T E (resolve · path) := by
  refine .bind (reads_alike fun _ _ _ _ => rfl) ?_
  rintro ⟨_ | root, len⟩
  · exact .pure _
  · exact walk_alike _ (componentsFrom_length _ _) root

/-! ## The calls, one by one -/

theorem getMode_alike : Same T E (getMode · path) := by
  refine .bind (reads_alike fun _ _ _ _ => rfl) ?_
  rintro (_ | p)
  · refine .bind (resolve_alike path) ?_
    rintro (_ | a)
    · exact .pure _
    · exact .bind (node_alike a) fun n => .bind (permSet_alike _ _ _ _) fun _ =>
        .bind (release_alike a) fun _ => .pure _
  · exact .pure _

theorem getOwner_alike : Same T E (getOwner · path) := by
  refine Alike.bind (.bind (reads_alike fun _ _ _ _ => rfl) ?_) fun _ => .pure _
  rintro (_ | p)
  · refine .bind (getMode_alike path) ?_
    rintro (_ | mode)
    · exact .pure _
    · exact reads_alike fun _ _ _ _ => rfl
  · exact .pure _

theorem mayChange_alike (dir : Text) : Same T E (mayChange · dir) := by
  refine .bind (getMode_alike dir) ?_
  rintro (_ | mode)
  · exact .pure _
  · refine .bind (getOwner_alike dir) ?_
    rintro (_ | owner)
    · exact .pure _
    · exact .bind (reads_alike fun _ _ _ _ => rfl) fun _ => .pure _

theorem create_alike (dir : Bool) : Same T E (create · path dir) := by
  unfold create
  cases splitPath path with
  | none => exact .pure _
  | some parts =>
    refine .bind (mayChange_alike parts.1) ?_
    rintro (r | _)
    · exact .pure _
    refine .bind (resolve_alike parts.1) ?_
    rintro (_ | d)
    · exact .pure _
    refine .bind (.bind (node_alike d) fun n => .bind (callDriver_alike _) adopt_alike) fun made =>
      .bind (freeDynamic_alike d) fun _ => ?_
    cases made with
    | none => exact .pure _
    | some a =>
      exact .bind (reads_alike fun _ _ _ _ => rfl) fun me => .bind (permSet_alike _ _ _ _) fun _ =>
        .bind (freeDynamic_alike a) fun _ => .bind invalidateAll_alike fun _ => .pure _

theorem delete_alike : Same T E (delete · path) := by
  unfold delete
  cases splitPath path with
  | none => exact .pure _
  | some parts =>
    refine .bind (mayChange_alike parts.1) ?_
    rintro (r | _)
    · exact .pure _
    refine .bind (resolve_alike parts.1) ?_
    rintro (_ | d)
    · exact .pure _
    refine .bind (.bind (node_alike d) fun n => callDriver_alike _) fun gone =>
      .bind (freeDynamic_alike d) fun _ => .ite ?_ (.pure _)
    exact .bind (permRemove_alike path) fun _ => .bind invalidateAll_alike fun _ => .pure _

/-! Descriptors. -/

theorem unref_alike : Same T E (unref · a) := by
  refine .bind (node_alike a) fun n => .bind (setNode_alike a _) fun _ => .ite ?_ (.pure _)
  exact .bind (vnodeRemoveNode_alike a) fun _ =>
    .bind (callDriver_alike _) fun _ => freeDynamic_alike a

theorem openLookup_alike : Same T E (openLookup · path) := by
  refine .bind (vnodeLookup_alike path) ?_
  rintro (_ | a)
  · exact resolve_alike path
  · exact .pure _

theorem openChecks_alike :
    Same T E (openChecks · path flags a) := by
  refine .bind (getMode_alike path) ?_
  rintro (_ | mode)
  · exact .pure _
  · refine .bind (getOwner_alike path) ?_
    rintro (_ | owner)
    · exact .pure _
    · exact .bind (node_alike a) fun _ => .bind (reads_alike fun _ _ _ _ => rfl) fun _ => .pure _

theorem installFd_alike (offset : Nat) (flags : UInt32) :
    Same T E (installFd · a offset flags) := by
  refine .bind (reads_alike fun _ _ _ _ => rfl) fun t => .bind (reads_alike fun _ _ _ _ => rfl) ?_
  rintro (_ | i)
  · exact .bind (unref_alike a) fun _ => .pure _
  · exact .bind (setFd_alike _ _) fun _ => .pure _

theorem openInstall_alike :
    Same T E (openInstall · path flags a) := by
  refine .bind (node_alike a) fun n => .bind (callDriver_alike _) fun opened => ?_
  refine .ite ?_ (.bind (release_alike a) fun _ => .pure _)
  exact .bind (.bind (node_alike a) fun _ => setNode_alike a _) fun _ =>
    .bind (vnodeInsert_alike path a) fun _ =>
      .bind (node_alike a) fun _ => installFd_alike a _ flags

theorem recreate_alike : Same T E (recreate · path) := by
  refine .bind (delete_alike path) ?_
  rintro (r | _)
  · exact .pure _
  refine .bind (create_alike path false) ?_
  rintro (r | _)
  · exact .pure _
  · exact .bind (resolve_alike path) fun _ => .pure _

theorem openFound_alike :
    Same T E (openFound · path flags a) := by
  refine .bind (openChecks_alike path flags a) ?_
  rintro (_ | r)
  · refine .bind (node_alike a) fun n => .ite ?_ (openInstall_alike path flags a)
    refine .bind (release_alike a) fun _ => .bind (recreate_alike path) ?_
    rintro (r | b)
    · exact .pure _
    · exact openInstall_alike path flags b
  · exact .bind (release_alike a) fun _ => .pure _

theorem openFlags_alike : Same T E (openFlags · path flags) := by
  refine .bind (openLookup_alike path) ?_
  rintro (_ | a)
  · refine .ite (.bind (create_alike path false) ?_) (.pure _)
    rintro (r | _)
    · exact .pure _
    refine .bind (resolve_alike path) ?_
    rintro (_ | a)
    · exact .pure _
    · exact openFound_alike path _ a
  · exact .ite (.bind (release_alike a) fun _ => .pure _) (openFound_alike path _ a)

theorem close_alike : Same T E (close · fd) := by
  unfold close
  cases slot fd with
  | none => exact .pure _
  | some i =>
    refine .bind (reads_alike fun _ _ _ _ => rfl) fun t => .bind (reads_alike fun _ _ _ _ => rfl) ?_
    rintro (_ | f)
    · exact .pure _
    · exact .bind (unref_alike f.node) fun _ => setFd_alike _ _

/-! Rename. -/

theorem read_alike (size : Nat) : Same T E (read · fd size) := by
  unfold read
  cases slot fd with
  | none => exact .pure _
  | some i =>
    refine .ite (.pure _) (.bind (reads_alike fun _ _ _ _ => rfl) fun t =>
      .bind (reads_alike fun _ _ _ _ => rfl) ?_)
    rintro (_ | f)
    · exact .pure _
    refine .ite (.bind (node_alike _) fun n => .bind (callDriver_alike _) ?_) (.pure _)
    rintro (_ | bytes)
    · exact .pure _
    · exact .bind (setFd_alike _ _) fun _ => .pure _

theorem write_alike (data : List UInt8) : Same T E (write · fd data) := by
  unfold write
  cases slot fd with
  | none => exact .pure _
  | some i =>
    refine .ite (.pure _) (.bind (reads_alike fun _ _ _ _ => rfl) fun t =>
      .bind (reads_alike fun _ _ _ _ => rfl) ?_)
    rintro (_ | f)
    · exact .pure _
    refine .ite ?_ (.pure _)
    refine .bind (node_alike _) fun n => .bind (callDriver_alike _) fun r => .ite ?_ ?_
    all_goals exact .bind (setFd_alike _ _) fun _ => .bind (setNode_alike _ _) fun _ => .pure _

theorem copyLoop_alike (src dst : Int) (fuel : Nat) : ∀ any,
    Same T E (copyLoop · src dst fuel any) := by
  induction fuel with
  | zero => exact fun any => Alike.pure _
  | succ fuel ih =>
    intro any
    refine .bind (read_alike src 512) ?_
    rintro (_ | _ | ⟨b, bytes⟩)
    · exact .pure _
    · exact .pure _
    · exact .bind (write_alike dst _) fun n => .ite (ih true) (.pure _)

theorem makeTarget_alike : Same T E (makeTarget · path) := by
  refine .bind (create_alike path false) ?_
  rintro (r | _)
  · refine .bind (delete_alike path) ?_
    rintro (r | _)
    · exact .pure _
    · exact .bind (create_alike path false) fun _ => .pure _
  · exact .pure _

theorem copyTo_alike (src : Fin 32) (new : Text) : Same T E (copyTo · fuel src new) := by
  refine .bind (makeTarget_alike new) fun ready => Alike.ite ?_
    (.bind (close_alike _) fun _ => .pure _)
  refine .bind (openFlags_alike new oRdwr) ?_
  rintro (r | dst)
  · exact .bind (close_alike _) fun _ => .pure _
  refine .bind (copyLoop_alike _ _ fuel false) fun copied =>
    .bind (close_alike _) fun _ => .bind (close_alike _) fun _ =>
      .ite (.bind (openFlags_alike new oRdwr) ?_) (.pure _)
  rintro (r | fd)
  · exact .pure _
  · exact .bind (close_alike _) fun _ => .pure _

theorem finishRename_alike (old new : Text) (mode : UInt32) : Same T E (finishRename · old new mode) := by
  refine .bind (delete_alike old) ?_
  rintro (r | _)
  · exact .pure _
  · exact .ite (.bind (reads_alike fun _ _ _ _ => rfl) fun p => .bind (permSet_alike _ _ _ _)
        fun _ => .bind invalidateAll_alike fun _ => .pure _)
      (.bind invalidateAll_alike fun _ => .pure _)

theorem rename_alike (old new : Text) : Same T E (rename · fuel old new) := by
  refine .ite (.pure _) ?_
  rcases splitPath old with _ | ⟨oldDir, _⟩
  · exact .pure _
  rcases splitPath new with _ | ⟨newDir, _⟩
  · exact .pure _
  refine .bind (mayChange_alike oldDir) ?_
  rintro (r | _)
  · exact .pure _
  refine .bind (mayChange_alike newDir) ?_
  rintro (r | _)
  · exact .pure _
  refine .bind (getMode_alike old) fun mode => Alike.bind (openFlags_alike old oRdwr) ?_
  rintro (r | src)
  · exact .pure _
  refine .bind (reads_alike fun _ _ _ _ => rfl) fun t => .bind (reads_alike fun _ _ _ _ => rfl) fun f =>
    .bind (node_alike _) fun n => .ite (.bind (close_alike _) fun _ => .pure _) ?_
  refine .bind (copyTo_alike fuel src new) ?_
  rintro (any | _ | _)
  · exact .bind (finishRename_alike old new _) fun _ => .pure _
  · exact .pure _
  · exact .pure _

theorem mount_alike (root : Addr) :
    Alike (mount path root : Vm T ω δ Bool) (mount path root) := by
  have hadd : Blind (addMount (T := T) (ω := ω) (δ := δ) (path.take (pathMax - 1)) root) := by
    intro s D k l
    by_cases hroom : s.mounts.length < 16 <;> simp [addMount, State.withCache, hroom]
  refine .bind hadd.alike fun added => .ite ?_ (.pure _)
  exact .bind (node_alike root) fun n => .bind (permSet_alike _ _ _ _) fun _ =>
    .bind invalidateAll_alike fun _ => .pure _

/-! ## Histories -/

/-- The name calls, with what their callers do between them: reading and writing what is open, giving
    up a node that `resolve` returned, and switching to another task. -/
inductive NameCall (T : Nat) where
  | mount (path : Text) (root : Addr)
  | create (path : Text) (dir : Bool)
  | delete (path : Text)
  | rename (fuel : Nat) (old new : Text)
  | openFlags (path : Text) (flags : UInt32)
  | close (fd : Int)
  | resolve (path : Text)
  | read (fd : Int) (size : Nat)
  | write (fd : Int) (data : List UInt8)
  | release (a : Addr)
  | switch (t : Fin T) (me : Creds)

/-- One call; its answer is dropped. -/
def nameStep (E : Env ω δ) (s : State T ω δ) : NameCall T → Unit × State T ω δ
  | .mount path root => ((), (mount path root s).2)
  | .create path dir => ((), (create E path dir s).2)
  | .delete path => ((), (delete E path s).2)
  | .rename fuel old new => ((), (rename E fuel old new s).2)
  | .openFlags path flags => ((), (openFlags E path flags s).2)
  | .close fd => ((), (close E fd s).2)
  | .resolve path => ((), (resolve E path s).2)
  | .read fd size => ((), (read E fd size s).2)
  | .write fd data => ((), (write E fd data s).2)
  | .release a => ((), (release a s).2)
  | .switch t me => ((), { s with current := t, creds := me })

/-- **One call.** -/
theorem nameStep_alike (c : NameCall T) :
    Alike (fun s : State T ω δ => nameStep E.uncached s c) fun t => nameStep E t c := by
  have hrun : ∀ {α : Type} {f g : Vm T ω δ α}, Alike f g →
      Alike (fun s => ((), (f s).2)) fun t => ((), (g t).2) :=
    fun h => .bind h fun _ => .pure ()
  cases c with
  | mount path root => exact hrun (mount_alike path root)
  | create path dir => exact hrun (create_alike path dir)
  | delete path => exact hrun (delete_alike path)
  | rename fuel old new => exact hrun (rename_alike fuel old new)
  | openFlags path flags => exact hrun (openFlags_alike path flags)
  | close fd => exact hrun (close_alike fd)
  | resolve path => exact hrun (resolve_alike path)
  | read fd size => exact hrun (read_alike fd size)
  | write fd data => exact hrun (write_alike fd data)
  | release a => exact hrun (release_alike a)
  | switch t me => exact Blind.alike fun _ _ _ _ => ⟨rfl, rfl, rfl⟩

/-- **A history.** -/
theorem history_alike (calls : List (NameCall T)) :
    Alike (fun s : State T ω δ => exec (nameStep E.uncached) s calls) fun t => exec (nameStep E) t calls := by
  induction calls with
  | nil => exact .pure _
  | cons c calls ih => exact .bind (nameStep_alike c) fun u => .bind ih fun us => .pure (u :: us)

/-- `/`, then the directories `/a` and `/b`, then the file `/b/x`. -/
def twoDirs : List (NameCall 1) :=
  [.mount [slash] 1, .create [slash, 97] true, .create [slash, 98] true,
    .create [slash, 98, slash, 120] false]

/-- A vain lookup of `/a/x` that a new file makes harmless, then one of `/d`, twice: the second is
    answered from the cache. -/
def steadyCalls : List (NameCall 1) :=
  twoDirs ++ [.resolve [slash, 97, slash, 120], .create [slash, 99] false, .resolve [slash, 100],
    .resolve [slash, 100]]

/-- Whether `p` is missing after `calls`, with the cache and without. -/
def missing (E : Env Ramfs.Obj Ramfs.Store) (calls : List (NameCall 1)) (p : Text) : Bool × Bool :=
  ((resolve E p (exec (nameStep E) (Ramfs.boot 1) calls).2).1.isNone,
    (resolve E.uncached p (exec (nameStep E.uncached) (Ramfs.boot 1) calls).2).1.isNone)

end Lyth.Vfs
