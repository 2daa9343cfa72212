/-
  The accounting of shared memory: counts, frames, and when they go back.

    1. Counting.  `naming w k` is the number of slots, over all tasks, that name the id `k`; `Inv` ties the
       table of segments to it.
    2. Operations.  Each function of `Lyth.Shm` keeps `Inv`.  The delicate one is `releaseSegment`, which runs
       in the middle of others: it needs only `Core`, the part that holds there.
    3. Fates.  A segment in use is either `Kept` by a call or `Released`, with all its frames free; which
       of the two is decided by being unlinked and named by no slot (`shm_accounting`).
-/
import Mathlib.Data.Fintype.Prod
import Lyth.Shm

namespace Lyth.ShmAccounting

open Loop Run Table Word Paging Directory Shm Function
open Physmem (frameAddr lowFrames physmemAllocFrame)

/-! ## Counting slots -/

/-- The slot names the id `k`. -/
def names (w : World) (k : Int) (x : Fin taskMaxCount × Fin shmMaxMappings) : Bool :=
  ((w.tasks x.1).slots x.2).used && decide (((w.tasks x.1).slots x.2).segmentId = k)

/-- The number of slots, over all tasks, that name the id `k`. -/
def naming (w : World) (k : Int) : Nat := used (names w k)

section

variable (w : World) (i k : Fin shmMaxSegments) (g : Segment) (t u : Fin taskMaxCount)
  (j l : Fin shmMaxMappings) (m : Mapping)

@[simp] theorem setMem_segments (s : State) : (w.setMem s).segments = w.segments := rfl

@[simp] theorem setSegment_mem : (w.setSegment i g).mem = w.mem := rfl

@[simp] theorem setSlot_segments : (w.setSlot t j m).segments = w.segments := rfl

theorem setSegment_segments :
    (w.setSegment i g).segments k = if k = i then g else w.segments k := update_apply ..

/-- One segment and memory are replaced. -/
theorem setSegment_facts {m : State} {w' : World} (h : (w.setMem m).setSegment i g = w') :
    w'.segments i = g ∧ (∀ k, k ≠ i → w'.segments k = w.segments k) ∧ w'.tasks = w.tasks ∧ w'.mem = m := by
  subst h
  exact ⟨update_self .., fun k hk => update_of_ne hk .., rfl, rfl⟩

theorem setSlot_slots : ((w.setSlot t j m).tasks u).slots l
    = if u = t ∧ l = j then m else (w.tasks u).slots l := by
  show (update w.tasks t _ u).slots l = _
  by_cases hu : u = t
  · subst hu
    rw [update_self]
    show update (w.tasks u).slots j m l = _
    rw [update_apply]
    simp only [true_and]
  · rw [update_of_ne hu, if_neg fun h => hu h.1]

theorem setSlot_dir : ((w.setSlot t j m).tasks u).dir = (w.tasks u).dir := by
  show (update w.tasks t _ u).dir = _
  rw [update_apply]
  split <;> simp [*]

theorem setSlot_used : ((w.setSlot t j m).tasks u).used = (w.tasks u).used := by
  show (update w.tasks t _ u).used = _
  rw [update_apply]
  split <;> simp [*]

theorem names_setSlot (id : Int) : names (w.setSlot t j m) id
    = update (names w id) (t, j) (m.used && decide (m.segmentId = id)) := by
  funext x
  obtain ⟨u, l⟩ := x
  simp only [names, setSlot_slots, update_apply, Prod.mk.injEq]
  split <;> rfl

end

variable {w : World}

theorem naming_congr {w' : World} (h : w'.tasks = w.tasks) (id : Int) : naming w' id = naming w id := by
  unfold naming names
  rw [h]

/-- Taking a slot. -/
theorem naming_take {t : Fin taskMaxCount} {j : Fin shmMaxMappings} {m : Mapping}
    (hfree : ((w.tasks t).slots j).used = false) (hm : m.used) (id : Int) :
    naming (w.setSlot t j m) id = naming w id + if m.segmentId = id then 1 else 0 := by
  have hnot : names w id (t, j) = false := by simp only [names, hfree, Bool.false_and]
  rw [naming, names_setSlot, hm, Bool.true_and]
  by_cases hid : m.segmentId = id
  · rw [decide_eq_true hid, used_update_true hnot, if_pos hid]
    rfl
  · rw [decide_eq_false hid, ← hnot, update_eq_self, if_neg hid]
    rfl

/-- Giving a slot up. -/
theorem naming_drop {t : Fin taskMaxCount} {j : Fin shmMaxMappings}
    (hused : ((w.tasks t).slots j).used) (id : Int) :
    naming (w.setSlot t j Mapping.empty) id
      + (if ((w.tasks t).slots j).segmentId = id then 1 else 0) = naming w id := by
  rw [naming, names_setSlot]
  show used (update (names w id) (t, j) false) + _ = used (names w id)
  have hname : names w id (t, j) = decide (((w.tasks t).slots j).segmentId = id) := by
    simp only [names, hused, Bool.true_and]
  by_cases hid : ((w.tasks t).slots j).segmentId = id
  · rw [if_pos hid, used_update_false (by rw [hname, decide_eq_true hid])]
  · rw [decide_eq_false hid] at hname
    rw [if_neg hid, ← hname, update_eq_self]
    rfl

/-! ## The invariant -/

/-- What holds in the middle of a call, too. -/
structure Core (w : World) : Prop where
  frames : w.mem.frames.Inv
  unique : ∀ i j, (w.segments i).used → (w.segments j).used →
    (w.segments i).id = (w.segments j).id → i = j
  counts : ∀ i, (w.segments i).used → (w.segments i).refCount = naming w (w.segments i).id
  named : ∀ t j, ((w.tasks t).slots j).used →
    ∃ i, (w.segments i).used ∧ (w.segments i).id = ((w.tasks t).slots j).segmentId
  dirs : ∀ t j, ((w.tasks t).slots j).used → (w.tasks t).dir ≠ 0
  entries : ∀ t, (w.tasks t).used = false → ∀ j, ((w.tasks t).slots j).used = false
  pages : ∀ i p, (w.segments i).frames p ≠ 0 → (w.segments i).used ∧
    p < (w.segments i).pageCount ∧ InUse w.mem.frames ((w.segments i).frames p)
  disjoint : ∀ i j p q, (w.segments i).frames p ≠ 0 →
    (w.segments i).frames p = (w.segments j).frames q → i = j ∧ p = q

/-- Between calls: an unlinked segment is still named, and every page of a segment has its frame. -/
structure Inv (w : World) : Prop extends Core w where
  live : ∀ i, (w.segments i).used → (w.segments i).markedForDelete →
    0 < (w.segments i).refCount
  full : ∀ i p, (w.segments i).used → p < (w.segments i).pageCount → (w.segments i).frames p ≠ 0

section

variable {w w' : World} {i : Fin shmMaxSegments} {t : Fin taskMaxCount} {j : Fin shmMaxMappings} {m : State}

/-- Of memory only the frame allocator matters, and of that the frames of segments. -/
theorem Core.setMem (h : Core w) (hfr : m.frames.Inv)
    (huse : ∀ i p, (w.segments i).frames p ≠ 0 → InUse m.frames ((w.segments i).frames p)) :
    Core (w.setMem m) :=
  ⟨hfr, h.unique, h.counts, h.named, h.dirs, h.entries,
    fun i p hne => ⟨(h.pages i p hne).1, (h.pages i p hne).2.1, huse i p hne⟩, h.disjoint⟩

theorem Core.sameFrames (h : Core w) (hm : m.frames = w.mem.frames) : Core (w.setMem m) :=
  h.setMem (by rw [hm]; exact h.frames) fun i p hne => by rw [hm]; exact (h.pages i p hne).2.2

theorem Inv.sameFrames (h : Inv w) (hm : m.frames = w.mem.frames) :
    Inv (w.setMem m) := ⟨h.toCore.sameFrames hm, h.live, h.full⟩

/-- What the invariant says about the frames of one segment. -/
theorem Core.block (h : Core w) (i : Fin shmMaxSegments) : ∀ p, (w.segments i).frames p ≠ 0 →
    (w.segments i).used ∧ p < (w.segments i).pageCount ∧ InUse w.mem.frames ((w.segments i).frames p) ∧
      (∀ k q, k ≠ i → (w.segments k).frames q ≠ (w.segments i).frames p) ∧
        ∀ q, (w.segments i).frames p = (w.segments i).frames q → p = q := by
  intro p hp
  obtain ⟨hused, hlt, huse⟩ := h.pages i p hp
  refine ⟨hused, hlt, huse, fun k q hk heq => ?_, fun q heq => (h.disjoint i i p q hp heq).2⟩
  exact hk (h.disjoint i k p q hp heq.symm).1.symm

/-- The slots of `w'` are of tasks with a directory, and name segments of `w`. -/
def Backed (w w' : World) : Prop := ∀ u l, ((w'.tasks u).slots l).used → (w'.tasks u).dir ≠ 0 ∧
  ∃ k, (w.segments k).used ∧ (w.segments k).id = ((w'.tasks u).slots l).segmentId

/-- **One segment changes.**  What has to be said about it, the slots and memory. -/
theorem Core.change (h : Core w) (hothers : ∀ k, k ≠ i → w'.segments k = w.segments k) (hframes : w'.mem.frames.Inv)
    (hinUse : ∀ k p, k ≠ i → (w.segments k).frames p ≠ 0 → InUse w'.mem.frames ((w.segments k).frames p))
    (hnaming : ∀ k, k ≠ i → (w.segments k).used →
      naming w' (w.segments k).id = naming w (w.segments k).id) (hslots : Backed w' w')
    (hentries : ∀ u, (w'.tasks u).used = false → ∀ l, ((w'.tasks u).slots l).used = false)
    (hself : (w'.segments i).used → (w'.segments i).refCount = naming w' (w'.segments i).id ∧
      ∀ k, k ≠ i → (w.segments k).used → (w.segments k).id ≠ (w'.segments i).id)
    (hblock : ∀ p, (w'.segments i).frames p ≠ 0 → (w'.segments i).used ∧
      p < (w'.segments i).pageCount ∧ InUse w'.mem.frames ((w'.segments i).frames p) ∧
        (∀ k q, k ≠ i → (w.segments k).frames q ≠ (w'.segments i).frames p) ∧
          ∀ q, (w'.segments i).frames p = (w'.segments i).frames q → p = q) : Core w' := by
  refine ⟨hframes, ?_, ?_, fun u l hl => (hslots u l hl).2, fun u l hl => (hslots u l hl).1, hentries, ?_, ?_⟩
  · intro k l hk hl heq
    rcases eq_or_ne k i with rfl | hki
    · by_contra hne
      have hlk : l ≠ k := fun h => hne h.symm
      rw [hothers l hlk] at hl heq
      exact (hself hk).2 l hlk hl heq.symm
    · rw [hothers k hki] at hk heq
      rcases eq_or_ne l i with rfl | hli
      · exact absurd heq ((hself hl).2 k hki hk)
      · rw [hothers l hli] at hl heq
        exact h.unique k l hk hl heq
  · intro k hk
    rcases eq_or_ne k i with rfl | hki
    · exact (hself hk).1
    · rw [hothers k hki] at hk ⊢
      rw [hnaming k hki hk]
      exact h.counts k hk
  · intro k p hp
    rcases eq_or_ne k i with rfl | hki
    · obtain ⟨hused, hlt, huse, -⟩ := hblock p hp
      exact ⟨hused, hlt, huse⟩
    · rw [hothers k hki] at hp ⊢
      obtain ⟨hused, hlt, -⟩ := h.pages k p hp
      exact ⟨hused, hlt, hinUse k p hki hp⟩
  · intro k l p q hp heq
    rcases eq_or_ne k i with rfl | hki
    · rcases eq_or_ne l k with rfl | hlk
      · exact ⟨rfl, (hblock p hp).2.2.2.2 q heq⟩
      · rw [hothers l hlk] at heq
        exact absurd heq.symm ((hblock p hp).2.2.2.1 l q hlk)
    · rw [hothers k hki] at hp heq
      rcases eq_or_ne l i with rfl | hli
      · exact absurd heq ((hblock q (by rwa [← heq])).2.2.2.1 k p hki)
      · rw [hothers l hli] at heq
        exact h.disjoint k l p q hp heq

/-- A segment is counted or marked anew while slots change: its id, its frames and all other segments
    stay. -/
theorem Core.recount (h : Core w) {g : Segment}
    (hg : g = { w.segments i with refCount := g.refCount, markedForDelete := g.markedForDelete })
    (hseg : ∀ k, w'.segments k = if k = i then g else w.segments k) (hframes : w'.mem.frames = w.mem.frames)
    (hnaming : ∀ k, k ≠ i → (w.segments k).used →
      naming w' (w.segments k).id = naming w (w.segments k).id)
    (hcount : (w.segments i).used → g.refCount = naming w' (w.segments i).id) (hslots : Backed w w')
    (hentries : ∀ u, (w'.tasks u).used = false → ∀ l, ((w'.tasks u).slots l).used = false) : Core w' := by
  have hother : ∀ k, k ≠ i → w'.segments k = w.segments k := fun k hk => (hseg k).trans (if_neg hk)
  have hself : w'.segments i = g := (hseg i).trans (if_pos rfl)
  refine h.change hother (by rw [hframes]; exact h.frames) ?_ hnaming (fun u l hl => ?_) hentries ?_ ?_
  · intro k p _ hp
    rw [hframes]
    exact (h.pages k p hp).2.2
  · obtain ⟨hdir, k, hk⟩ := hslots u l hl
    refine ⟨hdir, k, ?_⟩
    rcases eq_or_ne k i with rfl | hki
    · rwa [hself, hg]
    · rwa [hother k hki]
  · rw [hself, hg]
    exact fun hused => ⟨hcount hused, fun k hk hkused heq => hk (h.unique k i hkused hused heq)⟩
  · rw [hself, hframes, hg]
    exact h.block i

/-- The slots stay, and so does every segment that one of them names. -/
theorem Core.slots_of_tasks (h : Core w) (htasks : w'.tasks = w.tasks)
    (hkeep : ∀ k, (w.segments k).used → naming w (w.segments k).id ≠ 0 →
      (w'.segments k).used ∧ (w'.segments k).id = (w.segments k).id) : Backed w' w' := by
  intro u l hl
  rw [htasks] at hl ⊢
  obtain ⟨k, hk, hid⟩ := h.named u l hl
  have hnamed : naming w (w.segments k).id ≠ 0 := fun hzero => by
    have hfree : names w (w.segments k).id (u, l) = false := used_eq_zero.mp hzero (u, l)
    rw [names, hl, decide_eq_true hid.symm] at hfree
    cases hfree
  obtain ⟨hk', hid'⟩ := hkeep k hk hnamed
  exact ⟨h.dirs u l hl, k, hk', hid'.trans hid⟩

theorem Inv.change (h : Inv w) (hcore : Core w') (hothers : ∀ k, k ≠ i → w'.segments k = w.segments k)
    (hlive : (w'.segments i).used → (w'.segments i).markedForDelete → 0 < (w'.segments i).refCount)
    (hfull : (w'.segments i).used → ∀ p < (w'.segments i).pageCount, (w'.segments i).frames p ≠ 0) :
    Inv w' := by
  refine ⟨hcore, fun k hk hmarked => ?_, fun k p hk hp => ?_⟩
  · rcases eq_or_ne k i with rfl | hki
    · exact hlive hk hmarked
    · rw [hothers k hki] at hk hmarked ⊢
      exact h.live k hk hmarked
  · rcases eq_or_ne k i with rfl | hki
    · exact hfull hk p hp
    · rw [hothers k hki] at hk hp ⊢
      exact h.full k p hk hp

/-- An entry is cleared. -/
theorem Inv.remove (h : Inv w) (hcore : Core w') (hothers : ∀ k, k ≠ i → w'.segments k = w.segments k)
    (hgone : w'.segments i = Segment.empty) : Inv w' := by
  have hunused : (w'.segments i).used ≠ true := by
    rw [hgone]
    exact Bool.false_ne_true
  exact h.change hcore hothers (fun hu => absurd hu hunused) fun hu => absurd hu hunused

/-! ### Releasing a segment -/

/-- The frames from `k` on. -/
def clearedBelow (k : Nat) (frames : Nat → Nat) : Nat → Nat := fun p => if p < k then 0 else frames p

theorem clearedBelow_self (k : Nat) (frames : Nat → Nat) : clearedBelow k frames k = frames k :=
  if_neg (Nat.lt_irrefl k)

theorem update_clearedBelow (k : Nat) (frames : Nat → Nat) :
    update (clearedBelow k frames) k 0 = clearedBelow (k + 1) frames := by
  funext p
  simp only [update_apply, clearedBelow]
  grind

/-- The loop over the frames. -/
theorem freePages_spec (hfr : w.mem.frames.Inv) (n : Nat) : ∃ m, forRange 0 n (freePage i) w
        = (w.setMem m).setSegment i ((w.segments i).setFrames (clearedBelow n (w.segments i).frames)) ∧
      Returned w.mem.frames m.frames ((List.range n).map (w.segments i).frames) := by
  -- the invariant: the frames below the index are given back and cleared
  refine forRange_inv (P := fun k (w' : World) => ∃ m, w'
      = (w.setMem m).setSegment i ((w.segments i).setFrames (clearedBelow k (w.segments i).frames)) ∧
      Returned w.mem.frames m.frames ((List.range k).map (w.segments i).frames)) (Nat.zero_le n) ?_ ?_
  · refine ⟨w.mem, ?_, Returned.refl hfr⟩
    show w = w.setSegment i (w.segments i)
    rw [World.setSegment, update_eq_self]
  rintro k w' _ _ ⟨m, rfl, hret⟩
  have hlist : (List.range (k + 1)).map (w.segments i).frames
      = (List.range k).map (w.segments i).frames ++ [(w.segments i).frames k] := by
    rw [List.range_succ, List.map_append, List.map_singleton]
  rw [hlist]
  unfold freePage
  rw [setSegment_segments, if_pos rfl]
  show ∃ m', (if clearedBelow k (w.segments i).frames k ≠ 0 then _ else _) = _ ∧ _
  rw [clearedBelow_self]
  split
  · refine ⟨m.freeFrame ((w.segments i).frames k), ?_, hret.trans (freeFrame_returned hret.inv _)⟩
    rw [← update_clearedBelow]
    simp only [World.setSegment, World.setMem, Segment.setFrames, update_idem, clearedBelow_self]
  · rename_i hzero
    have hsame : clearedBelow (k + 1) (w.segments i).frames = clearedBelow k (w.segments i).frames := by
      rw [← update_clearedBelow, update_eq_iff]
      exact ⟨((clearedBelow_self k _).trans (not_not.mp hzero)).symm, fun _ _ => rfl⟩
    refine ⟨m, by rw [hsame], ?_⟩
    rw [not_not.mp hzero]
    exact hret.trans (Returned.zero hret.inv)

/-- `releaseSegment` gives the frames back and clears the entry. -/
theorem releaseSegment_spec (h : Core w) (hused : (w.segments i).used)
    (hzero : (w.segments i).refCount = 0) :
    ∃ m, releaseSegment w i = (w.setMem m).setSegment i Segment.empty ∧
      Returned w.mem.frames m.frames
        ((List.range (w.segments i).pageCount).map (w.segments i).frames) := by
  obtain ⟨m, hloop, hret⟩ := freePages_spec h.frames (w.segments i).pageCount
  have hcleared : clearedBelow (w.segments i).pageCount (w.segments i).frames = fun _ => 0 := by
    funext p
    by_cases hp : p < (w.segments i).pageCount
    · exact if_pos hp
    · refine (if_neg hp).trans ?_
      by_contra hne
      exact hp (h.pages i p hne).2.1
  refine ⟨m, ?_, hret⟩
  unfold releaseSegment
  rw [if_neg (by simp [hused, hzero]), hloop, hcleared]
  simp only [World.setSegment, update_idem, update_self]
  rfl

/-- The frames of a segment, as a list. -/
def frameList (g : Segment) : List Nat := (List.range g.pageCount).map g.frames

theorem mem_frameList {g : Segment} {a : Nat} : a ∈ frameList g ↔ ∃ p < g.pageCount, g.frames p = a := by
  simp [frameList]

variable {k : Fin shmMaxSegments}

/-- No frame of another segment is among them. -/
theorem Core.not_mem_frameList (h : Core w) (hk : k ≠ i) {p : Nat}
    (hp : (w.segments k).frames p ≠ 0) : (w.segments k).frames p ∉ frameList (w.segments i) := by
  intro hmem
  obtain ⟨q, _, hq⟩ := mem_frameList.mp hmem
  exact hk (h.disjoint k i p q hp hq.symm).1

/-- Only the entry of the segment, and memory: the rest of the world stays. -/
theorem cleared_core (h : Core w) (hzero : naming w (w.segments i).id = 0)
    (hret : Returned w.mem.frames m.frames (frameList (w.segments i))) :
    Core ((w.setMem m).setSegment i Segment.empty) := by
  obtain ⟨hself, hother, -⟩ := setSegment_facts w i _ (m := m) rfl
  refine h.change hother hret.inv ?_ (fun _ _ _ => rfl) (h.slots_of_tasks rfl ?_) h.entries ?_ ?_
  · exact fun k p hk hp => hret.inUse (h.pages k p hp).2.2 (h.not_mem_frameList hk hp)
  · intro k hk hnamed
    rw [hother k fun hki => hnamed (hki ▸ hzero)]
    exact ⟨hk, rfl⟩
  · rw [hself]
    exact fun hused => absurd hused Bool.false_ne_true
  · rw [hself]
    exact fun p hp => absurd rfl hp

/-! ## What becomes of a segment -/

/-- The segment lives on. -/
structure Kept (w w' : World) (i : Fin shmMaxSegments) : Prop where
  used : (w'.segments i).used
  id : (w'.segments i).id = (w.segments i).id
  pageCount : (w'.segments i).pageCount = (w.segments i).pageCount
  frames : (w'.segments i).frames = (w.segments i).frames
  marked : (w'.segments i).markedForDelete = (w.segments i).markedForDelete

/-- The segment was unlinked and is gone: no slot names it, and its frames are free. -/
structure Released (w w' : World) (i : Fin shmMaxSegments) : Prop where
  unlinked : (w.segments i).markedForDelete
  unnamed : naming w' (w.segments i).id = 0
  freed : ∀ a ∈ frameList (w.segments i), ¬ InUse w'.mem.frames a

/-- What detaching does: no frame is taken, no slot added, and a segment is kept or released. -/
structure Shrinks (w w' : World) : Prop where
  fate : ∀ i, (w.segments i).used → Kept w w' i ∨ Released w w' i
  quiet : ∀ a, InUse w'.mem.frames a → InUse w.mem.frames a
  fewer : ∀ id, naming w' id ≤ naming w id

theorem Kept.of_eq (h : (w.segments i).used) (heq : w'.segments i = w.segments i) : Kept w w' i :=
  ⟨by rwa [heq], by rw [heq], by rw [heq], by rw [heq], by rw [heq]⟩

/-- Only the count of the segment `i` changes. -/
theorem Kept.recount {n : Nat} (hk : (w.segments k).used)
    (hseg : ∀ k, w'.segments k = if k = i then { w.segments i with refCount := n } else w.segments k) :
    Kept w w' k := by
  by_cases hki : k = i
  · subst hki
    have hself := (hseg k).trans (if_pos rfl)
    constructor <;> rw [hself]
    exact hk
  · exact .of_eq hk ((hseg k).trans (if_neg hki))

theorem Kept.refl (h : (w.segments i).used) : Kept w w i := .of_eq h rfl

variable {w'' w₀ : World}

theorem Kept.trans (h : Kept w w' i) (h' : Kept w' w'' i) : Kept w w'' i :=
  ⟨h'.used, h'.id.trans h.id, h'.pageCount.trans h.pageCount, h'.frames.trans h.frames,
    h'.marked.trans h.marked⟩

theorem Kept.frameList (h : Kept w w' i) : frameList (w'.segments i) = frameList (w.segments i) := by
  rw [ShmAccounting.frameList, ShmAccounting.frameList, h.pageCount, h.frames]

theorem Kept.released (h : Kept w w' i) (h' : Released w' w'' i) : Released w w'' i :=
  ⟨by rw [← h.marked]; exact h'.unlinked, by rw [← h.id]; exact h'.unnamed,
    by rw [← h.frameList]; exact h'.freed⟩

theorem Shrinks.refl (w : World) : Shrinks w w :=
  ⟨fun _ h => .inl (Kept.refl h), fun _ h => h, fun _ => Nat.le_refl _⟩

theorem Shrinks.trans (h : Shrinks w w') (h' : Shrinks w' w'') : Shrinks w w'' := by
  refine ⟨fun i hi => ?_, fun a ha => h.quiet a (h'.quiet a ha),
    fun id => (h'.fewer id).trans (h.fewer id)⟩
  rcases h.fate i hi with hkept | hrel
  · rcases h'.fate i hkept.used with hkept' | hrel'
    · exact .inl (hkept.trans hkept')
    · exact .inr (hkept.released hrel')
  · refine .inr ⟨hrel.unlinked, ?_, fun a ha huse => hrel.freed a ha (h'.quiet a huse)⟩
    have hle := h'.fewer (w.segments i).id
    rw [hrel.unnamed] at hle
    exact Nat.le_zero.mp hle

/-! ### Detaching -/

theorem unmapUserPage_frames (s : State) (pml4 va : Nat) : (unmapUserPage s pml4 va).2.frames = s.frames := by
  unfold unmapUserPage
  split
  · rfl
  · dsimp only
    split <;> rfl

theorem mapUserPage_frames (s : State) (pml4 va pa : Nat) (writable : Bool) :
    (mapUserPage s pml4 va pa writable).2.frames = s.frames := by
  unfold mapUserPage
  split
  · rfl
  · dsimp only
    split <;> rfl

theorem unmapSlot_frames (dir : Nat) (m : Mapping) (s : State) : (unmapSlot dir m s).frames = s.frames :=
  forRange_keeps (P := fun s' => s'.frames = s.frames)
    (fun _ s' hs' => (unmapUserPage_frames s' _ _).trans hs') rfl

/-- The segment that a slot names is the one found. -/
theorem Core.findSegment (h : Core w) (hused : (w.segments i).used) :
    findSegment w (w.segments i).id = some i := by
  refine firstIdx_unique ?_ fun k hk => ?_
  · simp [hused]
  · obtain ⟨hk, hid⟩ := Bool.and_eq_true_iff.mp hk
    exact h.unique k i hk hused (of_decide_eq_true hid)

/-- Slots may change before or after a release. -/
theorem releaseSegment_setSlot (w : World) (i : Fin shmMaxSegments) (t : Fin taskMaxCount)
    (j : Fin shmMaxMappings) (m : Mapping) :
    (releaseSegment w i).setSlot t j m = releaseSegment (w.setSlot t j m) i := by
  have hpage : ∀ p w, freePage i p (World.setSlot w t j m) = (freePage i p w).setSlot t j m := by
    intro p w
    unfold freePage
    dsimp only
    rw [setSlot_segments]
    split <;> rfl
  unfold releaseSegment
  rw [setSlot_segments]
  split
  · rfl
  · rw [forRange_comm hpage]
    rfl

/-- A slot given up: the slot is free and the segment counts one less. -/
def droppedSlot (w : World) (t : Fin taskMaxCount) (j : Fin shmMaxMappings) (i : Fin shmMaxSegments) :
    World :=
  ((w.setMem (unmapSlot (w.tasks t).dir ((w.tasks t).slots j) w.mem)).setSlot t j
    Mapping.empty).setSegment i { w.segments i with refCount := (w.segments i).refCount - 1 }

/-- What `detachSlot` does. -/
theorem detachSlot_eq (h : Core w) (hdir : (w.tasks t).dir ≠ 0)
    (hslot : ((w.tasks t).slots j).used) :
    ∃ i, (w.segments i).used ∧ (w.segments i).id = ((w.tasks t).slots j).segmentId ∧
      0 < (w.segments i).refCount ∧
      (detachSlot w t j).2 = if (w.segments i).markedForDelete ∧ (w.segments i).refCount - 1 = 0
          then releaseSegment (droppedSlot w t j i) i else droppedSlot w t j i := by
  obtain ⟨i, hused, hid⟩ := h.named t j hslot
  have hpos : 0 < (w.segments i).refCount := by
    rw [h.counts i hused, hid]
    have hdrop := naming_drop hslot ((w.tasks t).slots j).segmentId
    rw [if_pos rfl] at hdrop
    omega
  refine ⟨i, hused, hid, hpos, ?_⟩
  unfold detachSlot
  rw [if_neg (by simp [hdir, hslot]), ← hid, h.findSegment hused]
  dsimp only
  unfold dropRef
  rw [setMem_segments, if_pos hpos]
  by_cases hlast : (w.segments i).markedForDelete ∧ (w.segments i).refCount - 1 = 0
  · rw [if_pos (by simp [hlast]), if_pos hlast, releaseSegment_setSlot]
    rfl
  · rw [if_neg (by simpa using hlast), if_neg hlast]
    rfl

theorem droppedSlot_segments : (droppedSlot w t j i).segments k
    = if k = i then { w.segments i with refCount := (w.segments i).refCount - 1 } else w.segments k :=
  setSegment_segments ..

theorem naming_droppedSlot (hslot : ((w.tasks t).slots j).used) (id : Int) :
    naming (droppedSlot w t j i) id + (if ((w.tasks t).slots j).segmentId = id then 1 else 0)
      = naming w id := naming_drop hslot id

theorem droppedSlot_core (h : Core w) (hslot : ((w.tasks t).slots j).used)
    (hused : (w.segments i).used)
    (hid : (w.segments i).id = ((w.tasks t).slots j).segmentId) : Core (droppedSlot w t j i) := by
  have hslots : ∀ {u l}, (((droppedSlot w t j i).tasks u).slots l).used →
      ((droppedSlot w t j i).tasks u).slots l = (w.tasks u).slots l ∧ ((w.tasks u).slots l).used := by
    intro u l hl
    have heq : ((droppedSlot w t j i).tasks u).slots l
        = if u = t ∧ l = j then Mapping.empty else (w.tasks u).slots l := setSlot_slots ..
    rw [heq] at hl ⊢
    split at hl
    · cases hl
    · rename_i hne
      rw [if_neg hne]
      exact ⟨rfl, hl⟩
  refine h.recount rfl (fun _ => droppedSlot_segments) (unmapSlot_frames ..) ?_ ?_ ?_ ?_
  · intro k hk hkused
    have hdrop := naming_droppedSlot (i := i) hslot (w.segments k).id
    rwa [if_neg fun heq => hk (h.unique k i hkused hused (heq.symm.trans hid.symm))] at hdrop
  · intro _
    have hcount := h.counts i hused
    have hdrop := naming_droppedSlot (i := i) hslot (w.segments i).id
    rw [if_pos hid.symm] at hdrop
    show (w.segments i).refCount - 1 = naming (droppedSlot w t j i) (w.segments i).id
    omega
  · intro u l hl
    obtain ⟨heq, hl⟩ := hslots hl
    have hdir : ((droppedSlot w t j i).tasks u).dir = (w.tasks u).dir := setSlot_dir ..
    rw [hdir, heq]
    exact ⟨h.dirs u l hl, h.named u l hl⟩
  · intro u hu l
    have hentry : ((droppedSlot w t j i).tasks u).used = (w.tasks u).used := setSlot_used ..
    rw [hentry] at hu
    by_contra hl
    have hold := (hslots (Bool.not_eq_false _ ▸ hl)).2
    rw [h.entries u hu l] at hold
    cases hold

/-- **Detaching a slot** keeps the accounting. -/
theorem detachSlot_inv (h : Inv w) (t : Fin taskMaxCount) (j : Fin shmMaxMappings) :
    Inv (detachSlot w t j).2 ∧ Shrinks w (detachSlot w t j).2 := by
  by_cases hcase : (w.tasks t).dir ≠ 0 ∧ ((w.tasks t).slots j).used
  · obtain ⟨hdir, hslot⟩ := hcase
    obtain ⟨i, hused, hid, hpos, heq⟩ := detachSlot_eq h.toCore hdir hslot
    have hcore := droppedSlot_core h.toCore hslot hused hid
    have hself : (droppedSlot w t j i).segments i = _ := droppedSlot_segments.trans (if_pos rfl)
    have hother : ∀ k, k ≠ i → (droppedSlot w t j i).segments k = w.segments k :=
      fun k hk => droppedSlot_segments.trans (if_neg hk)
    have hfewer : ∀ id, naming (droppedSlot w t j i) id ≤ naming w id := by
      intro id
      have hdrop := naming_droppedSlot (i := i) hslot id
      omega
    have hframes : (droppedSlot w t j i).mem.frames = w.mem.frames := unmapSlot_frames ..
    rw [heq]
    split
    · -- the last slot of an unlinked segment
      rename_i hlast
      have hused' : ((droppedSlot w t j i).segments i).used := by rwa [hself]
      have hzero : ((droppedSlot w t j i).segments i).refCount = 0 := by rw [hself]; exact hlast.2
      obtain ⟨m, hrel, hret⟩ := releaseSegment_spec hcore hused' hzero
      have hkept : ∀ k, k ≠ i →
          ((droppedSlot w t j i).setMem m |>.setSegment i Segment.empty).segments k = w.segments k :=
        fun k hk => (update_of_ne hk ..).trans (hother k hk)
      have hnone : naming (droppedSlot w t j i) (w.segments i).id = 0 := by
        have hcount := hcore.counts i hused'
        rw [hzero, hself] at hcount
        exact hcount.symm
      rw [hrel]
      refine ⟨h.remove (cleared_core hcore (by rwa [hself]) hret) hkept (update_self ..),
        fun k hk => ?_, fun a ha => ?_, hfewer⟩
      · by_cases hki : k = i
        · subst hki
          refine .inr ⟨hlast.1, hnone, fun a ha => hret.not_inUse ?_⟩
          rwa [hself]
        · exact .inl (.of_eq hk (hkept k hki))
      · have hold := hret.quiet ha
        rwa [hframes] at hold
    · rename_i hmore
      refine ⟨h.change hcore hother ?_ ?_, fun k hk => .inl (.recount hk fun _ => droppedSlot_segments), ?_, hfewer⟩
      · rw [hself]
        intro _ hmarked
        show 0 < (w.segments i).refCount - 1
        have hne : (w.segments i).refCount - 1 ≠ 0 := fun hz => hmore ⟨hmarked, hz⟩
        omega
      · rw [hself]
        exact fun _ p hp => h.full i p hused hp
      · intro a ha
        rwa [hframes] at ha
  · have hsame : (detachSlot w t j).2 = w := by
      unfold detachSlot
      rw [if_pos (by simpa [Classical.or_iff_not_imp_left] using hcase)]
    rw [hsame]
    exact ⟨h, Shrinks.refl w⟩

theorem releaseSegment_tasks (w : World) (i : Fin shmMaxSegments) :
    (releaseSegment w i).tasks = w.tasks := by
  unfold releaseSegment
  split
  · rfl
  refine forRange_keeps (P := fun w' : World => w'.tasks = w.tasks) (fun p w' hw' => ?_) rfl
  unfold freePage
  dsimp only
  split
  · exact hw'
  · exact hw'

/-- What detaching the slots `js` of a task leaves. -/
structure Detached (t : Fin taskMaxCount) (js : List (Fin shmMaxMappings)) (w w' : World) : Prop where
  inv : Inv w'
  shrinks : Shrinks w w'
  dir : ∀ u, (w'.tasks u).dir = (w.tasks u).dir
  used : ∀ u, (w'.tasks u).used = (w.tasks u).used
  slots : ∀ j, j ∈ js ∨ ((w.tasks t).slots j).used = false → ((w'.tasks t).slots j).used = false

theorem Detached.nil (h : Inv w) : Detached t [] w w :=
  ⟨h, Shrinks.refl w, fun _ => rfl, fun _ => rfl, fun _ hj => hj.resolve_left List.not_mem_nil⟩

theorem Detached.cons {js : List (Fin shmMaxMappings)} (h : Detached t [j] w w')
    (h' : Detached t js w' w'') : Detached t (j :: js) w w'' := by
  refine ⟨h'.inv, h.shrinks.trans h'.shrinks, fun u => (h'.dir u).trans (h.dir u),
    fun u => (h'.used u).trans (h.used u), fun l hl => h'.slots l ?_⟩
  rcases hl with hl | hl
  · rcases List.mem_cons.mp hl with rfl | hl
    · exact .inr (h.slots l (.inl (List.mem_singleton_self l)))
    · exact .inl hl
  · exact .inr (h.slots l (.inr hl))

/-- One round of the loop of `shm_detach_all`. -/
theorem detachUsed_detached (h : Inv w) (hdir : (w.tasks t).dir ≠ 0) (j : Fin shmMaxMappings) :
    Detached t [j] w (detachUsed t w j) := by
  by_cases hslot : ((w.tasks t).slots j).used
  · have heq : detachUsed t w j = (detachSlot w t j).2 := if_pos hslot
    obtain ⟨hinv, hshrinks⟩ := detachSlot_inv h t j
    have htasks : (detachSlot w t j).2.tasks = (w.setSlot t j Mapping.empty).tasks := by
      obtain ⟨i, _, _, _, hstate⟩ := detachSlot_eq h.toCore hdir hslot
      rw [hstate]
      split
      · rw [releaseSegment_tasks]
        rfl
      · rfl
    rw [heq]
    refine ⟨hinv, hshrinks, fun u => ?_, fun u => ?_, fun l hl => ?_⟩
    · rw [htasks]
      exact setSlot_dir ..
    · rw [htasks]
      exact setSlot_used ..
    rw [htasks, setSlot_slots]
    split
    · rfl
    · rename_i hne
      refine hl.resolve_left fun hmem => hne ⟨rfl, ?_⟩
      exact List.mem_singleton.mp hmem
  · have heq : detachUsed t w j = w := if_neg hslot
    rw [heq]
    refine ⟨h, Shrinks.refl w, fun _ => rfl, fun _ => rfl, fun l hl => ?_⟩
    rcases hl with hl | hl
    · obtain rfl := List.mem_singleton.mp hl
      exact Bool.not_eq_true _ |>.mp hslot
    · exact hl

/-- **Detaching all slots** of a task. -/
theorem shmDetachAll_detached (h : Inv w) (hdir : (w.tasks t).dir ≠ 0) :
    Detached t (List.finRange shmMaxMappings) w (shmDetachAll w t) := by
  have hloop : ∀ (js : List (Fin shmMaxMappings)) (w : World), Inv w → (w.tasks t).dir ≠ 0 →
      Detached t js w (js.foldl (detachUsed t) w) := by
    intro js
    induction js with
    | nil => exact fun w hw _ => Detached.nil hw
    | cons j js ih =>
      intro w hw hdir
      have hone := detachUsed_detached hw hdir j
      exact hone.cons (ih _ hone.inv (by rwa [hone.dir]))
  rw [shmDetachAll, if_neg hdir]
  exact hloop _ w h hdir

theorem Detached.unused (h : Detached t (List.finRange shmMaxMappings) w w') (j : Fin shmMaxMappings) :
    ((w'.tasks t).slots j).used = false := h.slots j (.inl (List.mem_finRange j))

/-! ### Entries of tasks -/

/-- An entry whose slots are all free may be replaced by another such. -/
theorem Inv.setTask (h : Inv w) (hold : ∀ j, ((w.tasks t).slots j).used = false) {e : Holder}
    (hnew : ∀ j, (e.slots j).used = false) :
    Inv (w.setTask t e) ∧ ∀ id, naming (w.setTask t e) id = naming w id := by
  have htask : ∀ u, (w.setTask t e).tasks u = if u = t then e else w.tasks u := fun u => update_apply ..
  have hslots : ∀ {u l}, (((w.setTask t e).tasks u).slots l).used →
      u ≠ t ∧ (w.setTask t e).tasks u = w.tasks u := by
    intro u l hl
    by_cases hu : u = t
    · rw [htask, if_pos hu, hnew l] at hl
      cases hl
    · exact ⟨hu, by rw [htask, if_neg hu]⟩
  have hnaming : ∀ id, naming (w.setTask t e) id = naming w id := by
    intro id
    have hsame : names (w.setTask t e) id = names w id := by
      funext x
      unfold names
      by_cases hx : x.1 = t
      · rw [htask, if_pos hx, hnew, hx, hold, Bool.false_and, Bool.false_and]
      · rw [htask, if_neg hx]
    rw [naming, hsame, naming]
  refine ⟨{ h with counts := ?_, named := ?_, dirs := ?_, entries := ?_ }, hnaming⟩
  · intro i hi
    rw [hnaming]
    exact h.counts i hi
  · intro u l hl
    obtain ⟨_, heq⟩ := hslots hl
    rw [heq] at hl ⊢
    exact h.named u l hl
  · intro u l hl
    obtain ⟨_, heq⟩ := hslots hl
    rw [heq] at hl ⊢
    exact h.dirs u l hl
  · intro u hu l
    rw [htask] at hu ⊢
    split
    · exact hnew l
    · rename_i hne
      rw [if_neg hne] at hu
      exact h.entries u hu l

/-! ### Attaching -/

theorem unmapBefore_frames (dir base : Nat) : ∀ page (s : State),
    (unmapBefore dir base page s).frames = s.frames
  | 0, _ => rfl
  | page + 1, s => by
    rw [unmapBefore, unmapBefore_frames dir base page, unmapUserPage_frames]

theorem mapPages_frames (dir base : Nat) (frames : Nat → Nat) : ∀ n page (s : State),
    (mapPages dir base frames page n s).2.frames = s.frames
  | 0, _, _ => rfl
  | n + 1, page, s => by
    have hmap := mapUserPage_frames s dir (base + page * pageSize) (frames page) true
    rw [mapPages]
    generalize mapUserPage s dir (base + page * pageSize) (frames page) true = r at *
    obtain ⟨ok, s'⟩ := r
    cases ok with
    | true => exact (mapPages_frames dir base frames n (page + 1) s').trans hmap
    | false => exact (unmapBefore_frames dir base page s').trans hmap

/-- A slot taken for the segment `i`. -/
def takenSlot (w : World) (m : State) (t : Fin taskMaxCount) (j : Fin shmMaxMappings)
    (i : Fin shmMaxSegments) (base : Nat) : World :=
  ((w.setMem m).setSlot t j
    { used := true, segmentId := (w.segments i).id, base, size := (w.segments i).size }).setSegment i
      { w.segments i with refCount := (w.segments i).refCount + 1 }

/-- What `attachAt` does. -/
theorem attachAt_cases (w : World) (t : Fin taskMaxCount) (i : Fin shmMaxSegments) (base : Nat) :
    (∃ m, m.frames = w.mem.frames ∧ attachAt w t i base = (false, w.setMem m)) ∨
      ∃ m j, m.frames = w.mem.frames ∧ (w.tasks t).dir ≠ 0 ∧ (w.segments i).used ∧
        ((w.tasks t).slots j).used = false ∧ attachAt w t i base = (true, takenSlot w m t j i base) := by
  unfold attachAt
  dsimp only
  split
  · exact .inl ⟨w.mem, rfl, rfl⟩
  rename_i hcheck
  simp only [Bool.or_eq_true, decide_eq_true_eq, Bool.not_eq_true', not_or, Bool.not_eq_false] at hcheck
  split
  · exact .inl ⟨w.mem, rfl, rfl⟩
  rename_i j hfree
  have hframes := mapPages_frames (w.tasks t).dir base (w.segments i).frames
    (w.segments i).pageCount 0 w.mem
  generalize mapPages (w.tasks t).dir base (w.segments i).frames 0 (w.segments i).pageCount w.mem = r at *
  obtain ⟨ok, m⟩ := r
  cases ok with
  | false => exact .inl ⟨m, hframes, rfl⟩
  | true =>
    have hslot : ((w.tasks t).slots j).used = false := by simpa using firstIdx_some hfree
    exact .inr ⟨m, j, hframes, hcheck.1, hcheck.2, hslot, rfl⟩

/-- What attaching does: every segment is kept, and the entries of tasks stay. -/
structure Extends (w w' : World) : Prop where
  inv : Inv w'
  kept : ∀ i, (w.segments i).used → Kept w w' i
  dir : ∀ u, (w'.tasks u).dir = (w.tasks u).dir
  used : ∀ u, (w'.tasks u).used = (w.tasks u).used

theorem Extends.refl (h : Inv w) : Extends w w :=
  ⟨h, fun _ hi => Kept.refl hi, fun _ => rfl, fun _ => rfl⟩

theorem Extends.trans (h : Extends w w') (h' : Extends w' w'') : Extends w w'' :=
  ⟨h'.inv, fun i hi => (h.kept i hi).trans (h'.kept i (h.kept i hi).used),
    fun u => (h'.dir u).trans (h.dir u), fun u => (h'.used u).trans (h.used u)⟩

theorem Extends.of_tasks (h : Inv w') (hkept : ∀ i, (w.segments i).used → Kept w w' i)
    (htasks : w'.tasks = w.tasks) : Extends w w' :=
  ⟨h, hkept, fun u => by rw [htasks], fun u => by rw [htasks]⟩

theorem takenSlot_segments {base : Nat} :
    (takenSlot w m t j i base).segments k
      = if k = i then { w.segments i with refCount := (w.segments i).refCount + 1 } else w.segments k :=
  setSegment_segments ..

theorem takenSlot_extends (h : Inv w) (hm : m.frames = w.mem.frames) {base : Nat}
    (htask : (w.tasks t).used) (hdir : (w.tasks t).dir ≠ 0) (hused : (w.segments i).used)
    (hfree : ((w.tasks t).slots j).used = false) : Extends w (takenSlot w m t j i base) := by
  have hself : (takenSlot w m t j i base).segments i = _ := takenSlot_segments.trans (if_pos rfl)
  have hslots : ∀ u l, ((takenSlot w m t j i base).tasks u).slots l = if u = t ∧ l = j
        then { used := true, segmentId := (w.segments i).id, base, size := (w.segments i).size }
        else (w.tasks u).slots l := fun u l => setSlot_slots ..
  have htdir : ∀ u, ((takenSlot w m t j i base).tasks u).dir = (w.tasks u).dir := fun u => setSlot_dir ..
  have htused : ∀ u, ((takenSlot w m t j i base).tasks u).used = (w.tasks u).used :=
    fun u => setSlot_used ..
  have hnaming : ∀ id, naming (takenSlot w m t j i base) id
      = naming w id + if (w.segments i).id = id then 1 else 0 :=
    fun id => naming_take hfree rfl id
  refine ⟨h.change (h.toCore.recount rfl (fun _ => takenSlot_segments) hm ?_ ?_ ?_ ?_)
    (fun k hk => takenSlot_segments.trans (if_neg hk)) ?_ ?_, fun _ hk => .recount hk fun _ => takenSlot_segments,
    htdir, htused⟩
  · intro k hk hkused
    rw [hnaming, if_neg fun heq => hk (h.unique k i hkused hused heq.symm), Nat.add_zero]
  · intro _
    show (w.segments i).refCount + 1 = naming (takenSlot w m t j i base) (w.segments i).id
    rw [hnaming, if_pos rfl, h.counts i hused]
  · intro u l hl
    rw [htdir, hslots] at *
    split at hl
    · rename_i heq
      rw [if_pos heq, heq.1]
      exact ⟨hdir, i, hused, rfl⟩
    · rename_i hne
      rw [if_neg hne]
      exact ⟨h.dirs u l hl, h.named u l hl⟩
  · intro u hu l
    rw [htused] at hu
    rw [hslots, if_neg fun heq => by rw [heq.1, htask] at hu; cases hu]
    exact h.entries u hu l
  · rw [hself]
    exact fun _ _ => Nat.succ_pos _
  · rw [hself]
    exact fun _ p hp => h.full i p hused hp

/-- **Attaching** keeps the accounting, whether it succeeds or not. -/
theorem attachAt_extends (h : Inv w) (htask : (w.tasks t).used) (base : Nat) :
    Extends w (attachAt w t i base).2 := by
  rcases attachAt_cases w t i base with ⟨m, hm, heq⟩ | ⟨m, j, hm, hdir, hused, hfree, heq⟩
  · rw [heq]
    exact ⟨h.sameFrames hm, fun _ hi => ⟨hi, rfl, rfl, rfl, rfl⟩, fun _ => rfl, fun _ => rfl⟩
  · rw [heq]
    exact takenSlot_extends h hm htask hdir hused hfree

theorem shmAttach_extends (h : Inv w) (htask : (w.tasks t).used) (id : Int) :
    Extends w (shmAttach w t id).2 := by
  unfold shmAttach
  split
  · exact .refl h
  rename_i i _
  split
  · exact .refl h
  dsimp only
  split
  · exact .refl h
  · have hattach := attachAt_extends (i := i) h htask
      (findFreeBase (w.tasks t).slots (w.segments i).pageCount)
    generalize attachAt w t i _ = r at *
    obtain ⟨ok, w'⟩ := r
    cases ok <;> exact hattach

/-! ### Cloning the mappings of a parent -/

/-- What `cloneSlots` does: it attaches, and if one of the attachments fails it detaches all. -/
theorem cloneSlots_spec (ms : List Mapping) : ∀ {w : World}, Inv w → (w.tasks t).used →
    (w.tasks t).dir ≠ 0 → ∃ w₁, Extends w w₁ ∧ ((cloneSlots t ms w = (true, w₁)) ∨
      (cloneSlots t ms w).1 = false ∧
        Detached t (List.finRange shmMaxMappings) w₁ (cloneSlots t ms w).2) := by
  induction ms with
  | nil => exact fun h _ _ => ⟨_, Extends.refl h, .inl rfl⟩
  | cons m ms ih =>
    intro w h htask hdir
    have hfail : ∃ w₁, Extends w w₁ ∧ (((false, shmDetachAll w t) = (true, w₁)) ∨
        (false, shmDetachAll w t).1 = false ∧
          Detached t (List.finRange shmMaxMappings) w₁ (false, shmDetachAll w t).2) :=
      ⟨w, Extends.refl h, .inr ⟨rfl, shmDetachAll_detached h hdir⟩⟩
    unfold cloneSlots
    split
    · exact ih h htask hdir
    split
    · exact hfail
    rename_i i _
    split
    · exact hfail
    have hattach := attachAt_extends (i := i) h htask m.base
    generalize attachAt w t i m.base = r at *
    obtain ⟨ok, w'⟩ := r
    have hdir' : (w'.tasks t).dir ≠ 0 := by rwa [hattach.dir]
    cases ok with
    | true =>
      obtain ⟨w₁, hext, hres⟩ := ih hattach.inv (by rwa [hattach.used]) hdir'
      exact ⟨w₁, hattach.trans hext, hres⟩
    | false => exact ⟨w', hattach, .inr ⟨rfl, shmDetachAll_detached hattach.inv hdir'⟩⟩

/-! ### Creating a segment -/

/-- The pages below `page` of the segment `i` have their frames. -/
structure Building (w₀ w : World) (i : Fin shmMaxSegments) (page : Nat) : Prop where
  core : Core w
  entry : w.segments i = (w₀.segments i).setFrames (w.segments i).frames
  others : ∀ k, k ≠ i → w.segments k = w₀.segments k
  tasks : w.tasks = w₀.tasks
  done : ∀ p < page, (w.segments i).frames p ≠ 0
  empty : ∀ p, page ≤ p → (w.segments i).frames p = 0

theorem Building.page {page : Nat} (h : Building w₀ w i page)
    (hused : (w₀.segments i).used) (hlt : page < (w₀.segments i).pageCount)
    (hne : w.mem.allocFrame.1 ≠ 0) :
    Building w₀ ((w.setMem (zeroFrame w.mem.allocFrame.2 w.mem.allocFrame.1)).setSegment i
      ((w.segments i).setFrames
        (update (w.segments i).frames page w.mem.allocFrame.1))) i (page + 1) := by
  have hgrows : Grows w.mem.frames w.mem.allocFrame.2.frames [w.mem.allocFrame.1] _ :=
    allocFrame_grows h.core.frames hne
  generalize w.mem.allocFrame = r at *
  obtain ⟨frame, m⟩ := r
  have hfresh : ∀ k p, (w.segments k).frames p ≠ 0 → (w.segments k).frames p ≠ frame := by
    intro k p hp heq
    refine hgrows.not_inUse (List.mem_singleton_self frame) ?_
    rw [← heq]
    exact (h.core.pages k p hp).2.2
  have hkeep : ∀ k p, (w.segments k).frames p ≠ 0 → InUse m.frames ((w.segments k).frames p) :=
    fun k p hp => hgrows.inUse (h.core.pages k p hp).2.2
  have hnew : InUse m.frames frame := hgrows.taken_inUse h.core.frames (List.mem_singleton_self frame)
  have hused' : (w.segments i).used := by rwa [h.entry]
  have hcount : (w.segments i).pageCount = (w₀.segments i).pageCount := by rw [h.entry]; rfl
  generalize hw' : (w.setMem (zeroFrame m frame)).setSegment i
      ((w.segments i).setFrames (update (w.segments i).frames page frame)) = w'
  obtain ⟨hself, hother, htasks, hmem⟩ := setSegment_facts w i _ hw'
  have hmem : w'.mem.frames = m.frames := by rw [hmem]; rfl
  have hframes : ∀ p, (w'.segments i).frames p = if p = page then frame else (w.segments i).frames p := by
    intro p
    rw [hself]
    exact update_apply ..
  have hnaming : ∀ id, naming w' id = naming w id := naming_congr htasks
  refine ⟨h.core.change hother (by rw [hmem]; exact hgrows.inv) ?_ (fun _ _ _ => hnaming _)
    (h.core.slots_of_tasks htasks ?_) (by rw [htasks]; exact h.core.entries) ?_ ?_, ?_, ?_,
    htasks.trans h.tasks, ?_, ?_⟩
  · intro k p _ hp
    rw [hmem]
    exact hkeep k p hp
  · intro k hk _
    rcases eq_or_ne k i with rfl | hki
    · rw [hself]
      exact ⟨hk, rfl⟩
    · rw [hother k hki]
      exact ⟨hk, rfl⟩
  · intro _
    rw [hself, hnaming]
    exact ⟨h.core.counts i hused', fun k hk hkused heq => hk (h.core.unique k i hkused hused' heq)⟩
  · intro p hp
    rw [hmem]
    rw [hframes] at hp ⊢
    by_cases hpage : p = page
    · rw [if_pos hpage, hself]
      refine ⟨hused', ?_, hnew, fun k q _ heq => hfresh k q (by rwa [heq]) heq, fun q heq => ?_⟩
      · rw [hpage]
        exact hcount ▸ hlt
      · by_contra hpq
        have hq : q ≠ page := fun hq => hpq (hpage.trans hq.symm)
        have heq : frame = (w.segments i).frames q := heq.trans (update_of_ne hq ..)
        exact hfresh i q (by rwa [← heq]) heq.symm
    · rw [if_neg hpage] at hp ⊢
      obtain ⟨hu, hl, -, hapart, hinj⟩ := h.core.block i p hp
      refine ⟨by rwa [hself], by rwa [hself], hkeep i p hp, hapart, fun q heq => ?_⟩
      rw [hframes] at heq
      split at heq
      · exact absurd heq (hfresh i p hp)
      · exact hinj q heq
  · rw [hself, h.entry]
    rfl
  · intro k hk
    rw [hother k hk]
    exact h.others k hk
  · intro p hp
    rw [hframes]
    split
    · exact hne
    · exact h.done p (by omega)
  · intro p hp
    rw [hframes, if_neg (by omega)]
    exact h.empty p (by omega)

/-- The segment `i` is gone and nothing else has changed. -/
structure Undone (w₀ w : World) (i : Fin shmMaxSegments) : Prop where
  core : Core w
  entry : w.segments i = Segment.empty
  others : ∀ k, k ≠ i → w.segments k = w₀.segments k
  tasks : w.tasks = w₀.tasks

/-- The mark does not matter in the middle of a call. -/
theorem Core.mark (h : Core w) (i : Fin shmMaxSegments) :
    Core (w.setSegment i { w.segments i with markedForDelete := true }) :=
  h.recount rfl (fun _ => setSegment_segments ..) rfl (fun _ _ _ => rfl) (h.counts i)
    (fun u l hl => ⟨h.dirs u l hl, h.named u l hl⟩) h.entries

/-- Marking a segment that no slot names, and releasing it. -/
theorem mark_release (h : Core w) (hused : (w.segments i).used)
    (hzero : (w.segments i).refCount = 0) :
    ∃ m, releaseSegment (w.setSegment i { w.segments i with markedForDelete := true }) i
        = (w.setMem m).setSegment i Segment.empty ∧
      Core ((w.setMem m).setSegment i Segment.empty) ∧
      Returned w.mem.frames m.frames (frameList (w.segments i)) := by
  have hself : (w.setSegment i { w.segments i with markedForDelete := true }).segments i
      = { w.segments i with markedForDelete := true } := update_self ..
  obtain ⟨m, heq, hret⟩ := releaseSegment_spec (h.mark i) (by rwa [hself])
    (by rwa [hself])
  rw [hself] at hret
  refine ⟨m, heq.trans ?_, cleared_core h ?_ hret, hret⟩
  · simp only [World.setMem, World.setSegment, update_idem]
  · rwa [← h.counts i hused]

/-- A frame that cannot be had: what was built is taken down. -/
theorem Building.undo {page : Nat} (h : Building w₀ w i page)
    (hused : (w₀.segments i).used) (hzero : (w₀.segments i).refCount = 0)
    (hnone : w.mem.allocFrame.1 = 0) :
    Undone w₀ (releaseSegment ((w.setMem w.mem.allocFrame.2).setSegment i
      { w.segments i with markedForDelete := true }) i) i := by
  have hmem : w.mem.allocFrame.2 = w.mem := by
    show { w.mem with frames := (physmemAllocFrame w.mem.frames).2 } = w.mem
    rw [allocFrame_zero h.core.frames hnone]
  rw [hmem]
  show Undone w₀ (releaseSegment (w.setSegment i { w.segments i with markedForDelete := true }) i) i
  obtain ⟨m, heq, hcore, _⟩ := mark_release h.core (by rwa [h.entry])
    (by rwa [h.entry])
  rw [heq]
  exact ⟨hcore, update_self .., fun k hk => (update_of_ne hk ..).trans (h.others k hk), h.tasks⟩

/-- The loop of `shm_create` over the pages. -/
theorem createPages_spec (hused : (w₀.segments i).used)
    (hzero : (w₀.segments i).refCount = 0) (n : Nat) : ∀ {page : Nat} {w : World},
    Building w₀ w i page → page + n = (w₀.segments i).pageCount →
      (∃ w', createPages i page n w = (true, w') ∧ Building w₀ w' i (w₀.segments i).pageCount) ∨
        ∃ w', createPages i page n w = (false, w') ∧ Undone w₀ w' i := by
  induction n with
  | zero =>
    intro page w h hn
    refine .inl ⟨w, rfl, ?_⟩
    rwa [← hn]
  | succ n ih =>
    intro page w h hn
    unfold createPages
    dsimp only
    split
    · rename_i hnone
      exact .inr ⟨_, rfl, h.undo hused hzero hnone⟩
    · rename_i hne
      exact ih (h.page hused (by omega) hne) (by omega)

/-- The id that the next segment gets is not that of a segment in use. -/
def FreshId (w : World) : Prop := ∀ i, (w.segments i).used → (w.segments i).id ≠ w.nextId

/-- No slot names an id that no segment in use has. -/
theorem Core.naming_eq_zero (h : Core w) {id : Int}
    (hid : ∀ i, (w.segments i).used → (w.segments i).id ≠ id) : naming w id = 0 := by
  refine used_eq_zero.mpr fun x => ?_
  by_contra hx
  obtain ⟨hslot, hname⟩ := Bool.and_eq_true_iff.mp (Bool.not_eq_false _ ▸ hx)
  obtain ⟨i, hi, hieq⟩ := h.named x.1 x.2 hslot
  exact hid i hi (hieq.trans (of_decide_eq_true hname))

/-- **Creating a segment** keeps the accounting. -/
theorem shmCreate_extends (h : Inv w) (hfresh : FreshId w) (size : Nat) :
    Extends w (shmCreate w size).2 := by
  unfold shmCreate
  split
  · exact .refl h
  rename_i pageCount _
  split
  · exact .refl h
  rename_i i hfree
  have hunused : (w.segments i).used = false := by simpa using firstIdx_some hfree
  have hempty : ∀ p, (w.segments i).frames p = 0 := by
    intro p
    by_contra hp
    rw [(h.pages i p hp).1] at hunused
    cases hunused
  dsimp only
  generalize hw₀ : { w with nextId := int32 (w.nextId + 1) }.setSegment i
    (newSegment (w.segments i) w.nextId size pageCount) = w₀
  obtain ⟨hself, hother, htasks, hmem⟩ := setSegment_facts { w with nextId := int32 (w.nextId + 1) } i _ hw₀
  have hne : ∀ k, (w.segments k).used → k ≠ i := by
    rintro k hk rfl
    rw [hk] at hunused
    cases hunused
  have hbuild : Building w₀ w₀ i 0 := by
    refine ⟨h.toCore.change hother (by rw [hmem]; exact h.frames) ?_ (fun _ _ _ => naming_congr htasks _)
      (h.toCore.slots_of_tasks htasks fun k hk _ => ?_) (by rw [htasks]; exact h.entries) ?_ ?_,
      rfl, fun _ _ => rfl, rfl, fun p hp => by omega, fun p _ => by rw [hself]; exact hempty p⟩
    · intro k p _ hp
      rw [hmem]
      exact (h.pages k p hp).2.2
    · rw [hother k (hne k hk)]
      exact ⟨hk, rfl⟩
    · rw [hself, naming_congr htasks]
      exact fun _ => ⟨(h.naming_eq_zero hfresh).symm, fun k _ hk => hfresh k hk⟩
    · rw [hself]
      exact fun p hp => absurd (hempty p) hp
  have hkept : ∀ {w' : World}, (∀ k, k ≠ i → w'.segments k = w₀.segments k) →
      ∀ k, (w.segments k).used → Kept w w' k :=
    fun hsame k hk => .of_eq hk ((hsame k (hne k hk)).trans (hother k (hne k hk)))
  rcases createPages_spec (by rw [hself]; rfl) (by rw [hself]; rfl) pageCount hbuild
    (by rw [hself, Nat.zero_add]; rfl) with ⟨w', heq, hdone⟩ | ⟨w', heq, hundone⟩
  · rw [heq]
    refine .of_tasks (h.change hdone.core (fun k hk => (hdone.others k hk).trans (hother k hk)) ?_ ?_)
      (hkept hdone.others) (hdone.tasks.trans htasks)
    · rw [hdone.entry, hself]
      exact fun _ hmarked => absurd hmarked Bool.false_ne_true
    · intro _ p hp
      rw [hdone.entry] at hp
      exact hdone.done p hp
  · rw [heq]
    exact .of_tasks (h.remove hundone.core (fun k hk => (hundone.others k hk).trans (hother k hk)) hundone.entry)
      (hkept hundone.others) (hundone.tasks.trans htasks)

/-! ## Calls -/

/-- Every call may be made at any time, except that a new segment needs a fresh id; the rest of the
    kernel gives no frame of a segment back. -/
def Legal (w : World) : Call → Prop
  | .create _ => FreshId w
  | .other mem => mem.frames.Inv ∧
      ∀ i p, (w.segments i).frames p ≠ 0 → InUse mem.frames ((w.segments i).frames p)
  | _ => True

/-- The segment is unlinked once the call has been made. -/
def Unlinked (w : World) (c : Call) (i : Fin shmMaxSegments) : Prop :=
  (w.segments i).markedForDelete ∨ c = .unlink (w.segments i).id

/-- What a call does to a segment: unlinked and named by no slot, it gives its frames back; otherwise it
    lives on with them. -/
structure Accounted (w : World) (c : Call) (w' : World) (i : Fin shmMaxSegments) : Prop where
  freed : Unlinked w c i → naming w' (w.segments i).id = 0 →
    ∀ a ∈ frameList (w.segments i), ¬ InUse w'.mem.frames a
  kept : ¬ (Unlinked w c i ∧ naming w' (w.segments i).id = 0) →
    (w'.segments i).used ∧ (w'.segments i).id = (w.segments i).id ∧
      frameList (w'.segments i) = frameList (w.segments i) ∧
      ∀ a ∈ frameList (w.segments i), InUse w'.mem.frames a

theorem Inv.frameList_inUse (h : Inv w) (hi : (w.segments i).used) :
    ∀ a ∈ frameList (w.segments i), InUse w.mem.frames a := by
  intro a ha
  obtain ⟨p, hp, rfl⟩ := mem_frameList.mp ha
  exact (h.pages i p (h.full i p hi hp)).2.2

variable {c : Call}

theorem Kept.accounted (h : Kept w w' i) (hinv : Inv w')
    (hc : c ≠ .unlink (w.segments i).id) : Accounted w c w' i := by
  refine ⟨fun hun hzero => ?_, fun _ => ⟨h.used, h.id, h.frameList, ?_⟩⟩
  · -- an unlinked segment that is kept is still named
    have hmarked := hun.resolve_right hc
    have hpos := hinv.live i h.used (by rwa [h.marked])
    rw [hinv.counts i h.used, h.id, hzero] at hpos
    exact absurd hpos (Nat.lt_irrefl 0)
  · rw [← h.frameList]
    exact hinv.frameList_inUse h.used

theorem Released.accounted (h : Released w w' i) : Accounted w c w' i :=
  ⟨fun _ _ => h.freed, fun hnot => absurd ⟨.inl h.unlinked, h.unnamed⟩ hnot⟩

/-- What a call other than `unlink` does. -/
structure Passes (w w' : World) : Prop where
  inv : Inv w'
  fate : ∀ i, (w.segments i).used → Kept w w' i ∨ Released w w' i

theorem Passes.refl (h : Inv w) : Passes w w := ⟨h, fun _ hi => .inl (Kept.refl hi)⟩

theorem Extends.passes (h : Extends w w') : Passes w w' := ⟨h.inv, fun i hi => .inl (h.kept i hi)⟩

/-- The entry of a task that has no mapping may change. -/
theorem Passes.setTask (h : Passes w w') (hold : ∀ j, ((w'.tasks t).slots j).used = false) {e : Holder}
    (hnew : ∀ j, (e.slots j).used = false) : Passes w (w'.setTask t e) := by
  obtain ⟨hinv, hnaming⟩ := h.inv.setTask hold hnew
  refine ⟨hinv, fun i hi => ?_⟩
  rcases h.fate i hi with hkept | hrel
  · exact .inl { hkept with }
  · exact .inr ⟨hrel.unlinked, (hnaming _).trans hrel.unnamed, hrel.freed⟩

section

variable (h : Inv w)
include h

theorem beginTask_extends {dir : Nat} {u : Fin taskMaxCount}
    (hbegin : beginTask w dir = some (u, w')) :
    Inv w' ∧ (∀ i, (w.segments i).used → Kept w w' i) ∧ (w'.tasks u).used ∧
      (w'.tasks u).dir ≠ 0 ∧ ∀ j, ((w'.tasks u).slots j).used = false := by
  unfold beginTask at hbegin
  split at hbegin
  · cases hbegin
  rename_i hdir
  obtain ⟨v, hv, heq⟩ := Option.map_eq_some_iff.mp hbegin
  cases heq
  have hunused : (w.tasks u).used = false := by simpa using firstIdx_some hv
  have hself : (w.setTask u ⟨true, dir, fun _ => Mapping.empty⟩).tasks u
      = ⟨true, dir, fun _ => Mapping.empty⟩ := update_self ..
  refine ⟨(h.setTask (h.entries u hunused) fun _ => rfl).1, fun _ hi => ⟨hi, rfl, rfl, rfl, rfl⟩, ?_⟩
  rw [hself]
  exact ⟨rfl, hdir, fun _ => rfl⟩

/-- Detaching whatever a task has attached, if it has a directory. -/
theorem detachAll_passes (t : Fin taskMaxCount) :
    Passes w (if (w.tasks t).dir ≠ 0 then shmDetachAll w t else w) ∧
      ∀ j, (((if (w.tasks t).dir ≠ 0 then shmDetachAll w t else w).tasks t).slots j).used = false := by
  split
  · rename_i hdir
    have hdetached := shmDetachAll_detached h hdir
    exact ⟨⟨hdetached.inv, hdetached.shrinks.fate⟩, hdetached.unused⟩
  · rename_i hdir
    refine ⟨Passes.refl h, fun j => ?_⟩
    by_contra hj
    exact hdir (h.dirs t j (Bool.not_eq_false _ ▸ hj))

theorem clearTask_passes (t : Fin taskMaxCount) : Passes w (clearTask w t) := by
  obtain ⟨hpasses, hfree⟩ := detachAll_passes h t
  exact hpasses.setTask hfree fun _ => rfl

theorem exitTask_passes (t : Fin taskMaxCount) : Passes w (exitTask w t) := by
  obtain ⟨hpasses, hfree⟩ := detachAll_passes h t
  unfold exitTask
  split
  · rename_i hdir
    rw [if_pos hdir] at hpasses hfree
    exact hpasses.setTask hfree hfree
  · exact .refl h

/-- The mappings of a child, and what becomes of it if they cannot be had. -/
theorem fork_passes (t : Fin taskMaxCount) (dir : Nat) :
    Passes w (step w (.fork t dir)).2 := by
  show Passes w (if !(w.tasks t).used then (-1, w) else _).2
  split
  · exact .refl h
  split
  · exact .refl h
  rename_i u w₁ hbegin
  obtain ⟨hinv, hkept, hused, hdir, hfree⟩ := beginTask_extends h hbegin
  have hclone : shmCloneMappings w₁ t u = cloneSlots u ((List.finRange shmMaxMappings).map
      (w₁.tasks t).slots) (w₁.setTask u { w₁.tasks u with slots := fun _ => Mapping.empty }) :=
    if_neg hdir
  have hself : (w₁.setTask u { w₁.tasks u with slots := fun _ => Mapping.empty }).tasks u
      = { w₁.tasks u with slots := fun _ => Mapping.empty } := update_self ..
  obtain ⟨w₂, hext, hres⟩ := cloneSlots_spec
    ((List.finRange shmMaxMappings).map (w₁.tasks t).slots)
    (hinv.setTask hfree fun _ => rfl).1
    (by rwa [hself]) (by rwa [hself])
  -- everything up to the last attachment keeps every segment
  have hsame : ∀ i, (w.segments i).used → Kept w w₂ i := by
    intro i hi
    exact (hkept i hi).trans { hext.kept i (hkept i hi).used with }
  rw [← hclone] at hres
  generalize shmCloneMappings w₁ t u = r at *
  obtain ⟨ok, w₃⟩ := r
  rcases hres with heq | ⟨hfail, hdetached⟩
  · cases heq
    exact ⟨hext.inv, fun i hi => .inl (hsame i hi)⟩
  obtain rfl : ok = false := hfail
  have hpasses : Passes w w₃ := by
    refine ⟨hdetached.inv, fun i hi => ?_⟩
    rcases hdetached.shrinks.fate i (hsame i hi).used with hkept' | hrel
    · exact .inl ((hsame i hi).trans hkept')
    · exact .inr ((hsame i hi).released hrel)
  exact hpasses.setTask hdetached.unused hdetached.unused

/-- **Unlinking.** -/
theorem shmUnlink_accounted (id : Int) : Inv (shmUnlink w id).2 ∧
    ∀ i, (w.segments i).used → Accounted w (.unlink id) (shmUnlink w id).2 i := by
  unfold shmUnlink
  split
  · rename_i hnone
    refine ⟨h, fun i hi => (Kept.refl hi).accounted h fun heq => ?_⟩
    cases heq
    rw [h.findSegment hi] at hnone
    cases hnone
  rename_i k hfind
  obtain ⟨hk, hid⟩ := Bool.and_eq_true_iff.mp (firstIdx_some hfind)
  have hid : (w.segments k).id = id := of_decide_eq_true hid
  have hother : ∀ {i}, (w.segments i).used → i ≠ k → Call.unlink id ≠ .unlink (w.segments i).id := by
    intro i hi hik heq
    cases heq
    exact hik (h.unique i k hi hk hid.symm)
  have hself : (w.setSegment k { w.segments k with markedForDelete := true }).segments k
      = { w.segments k with markedForDelete := true } := update_self ..
  dsimp only
  rw [hself]
  split
  · rename_i hzero
    obtain ⟨m, heq, hcore, hret⟩ := mark_release h.toCore hk hzero
    rw [heq]
    obtain ⟨hgone, hsame, -⟩ := setSegment_facts w k _ (m := m) rfl
    have hinv := h.remove hcore hsame hgone
    refine ⟨hinv, fun i hi => ?_⟩
    by_cases hik : i = k
    · subst hik
      have hunnamed : naming ((w.setMem m).setSegment i Segment.empty) (w.segments i).id = 0 :=
        (h.counts i hi).symm.trans hzero
      exact ⟨fun _ _ a ha => hret.not_inUse ha, fun hnot => absurd ⟨.inr (by rw [hid]), hunnamed⟩ hnot⟩
    · exact Kept.accounted (.of_eq hi (hsame i hik)) hinv (hother hi hik)
  · rename_i hcount
    have hsame : ∀ i, i ≠ k →
        (w.setSegment k { w.segments k with markedForDelete := true }).segments i = w.segments i :=
      fun i hik => update_of_ne hik ..
    have hinv : Inv (w.setSegment k { w.segments k with markedForDelete := true }) := by
      refine h.change (h.toCore.mark k) hsame ?_ ?_
      · rw [hself]
        exact fun _ _ => Nat.pos_of_ne_zero hcount
      · rw [hself]
        exact fun _ p hp => h.full k p hk hp
    refine ⟨hinv, fun i hi => ?_⟩
    by_cases hik : i = k
    · subst hik
      refine ⟨fun _ hzero => ?_, fun _ => ?_⟩
      · exact absurd ((h.counts i hi).trans hzero) hcount
      · rw [hself]
        exact ⟨hi, rfl, rfl, h.frameList_inUse hi⟩
    · exact Kept.accounted (.of_eq hi (hsame i hik)) hinv (hother hi hik)

/-- **One call.** -/
theorem step_accounted (hc : Legal w c) : Inv (step w c).2 ∧
    ∀ i, (w.segments i).used → Accounted w c (step w c).2 i := by
  by_cases hunlink : ∃ id, c = .unlink id
  · obtain ⟨id, rfl⟩ := hunlink
    exact shmUnlink_accounted h id
  suffices hpasses : Passes w (step w c).2 by
    refine ⟨hpasses.inv, fun i hi => ?_⟩
    rcases hpasses.fate i hi with hkept | hrel
    · exact hkept.accounted hpasses.inv fun heq => hunlink ⟨_, heq⟩
    · exact hrel.accounted
  cases c with
  | create size => exact (shmCreate_extends h hc size).passes
  | attach t id =>
    show Passes w (if (w.tasks t).used then _ else (0, w)).2
    split
    · rename_i htask
      exact (shmAttach_extends h htask id).passes
    · exact .refl h
  | detach t address =>
    show Passes w (if (w.tasks t).used then (_, (shmDetach w t address).2) else (-1, w)).2
    split
    · show Passes w (shmDetach w t address).2
      unfold shmDetach
      split
      · rename_i j _
        obtain ⟨hinv, hshrinks⟩ := detachSlot_inv h t j
        exact ⟨hinv, hshrinks.fate⟩
      · exact .refl h
    · exact .refl h
  | unlink id => exact absurd ⟨id, rfl⟩ hunlink
  | spawn dir =>
    dsimp only [step]
    split
    · exact .refl h
    · rename_i hbegin
      obtain ⟨hinv, hkept, _⟩ := beginTask_extends h hbegin
      exact ⟨hinv, fun i hi => .inl (hkept i hi)⟩
  | fork t dir => exact fork_passes h t dir
  | exit t => exact exitTask_passes h t
  | reap t => exact clearTask_passes h t
  | other mem =>
    refine ⟨⟨h.toCore.setMem hc.1 hc.2, h.live, h.full⟩, ?_⟩
    exact fun _ hi => .inl ⟨hi, rfl, rfl, rfl, rfl⟩

end

end

/-! ## Runs -/

/-- `shm_init()`: no segment, ids from 1 on, and no task. -/
def initial (mem : State) : World where
  mem := mem
  segments := fun _ => Segment.empty
  nextId := 1
  tasks := fun _ => Holder.empty

theorem initial_inv {mem : State} (hmem : mem.frames.Inv) : Inv (initial mem) := by
  refine ⟨⟨hmem, ?_, ?_, ?_, ?_, fun _ _ _ => rfl, ?_, ?_⟩, ?_, ?_⟩
  · exact fun _ _ h => absurd h Bool.false_ne_true
  · exact fun _ h => absurd h Bool.false_ne_true
  · exact fun _ _ h => absurd h Bool.false_ne_true
  · exact fun _ _ h => absurd h Bool.false_ne_true
  · exact fun _ _ h => absurd rfl h
  · exact fun _ _ _ _ h => absurd rfl h
  · exact fun _ h => absurd h Bool.false_ne_true
  · exact fun _ _ h => absurd h Bool.false_ne_true

/-- Two free frames, 261 and 262, and a directory on those from 256 on. -/
def twoFree : State where
  frames :=
    { marked := fun f => decide (f < 261)
      refcount := fun f => if f < 261 then 1 else 0
      totalFrames := 263
      freeFrames := 2
      highestAddress := 263 * Physmem.physmemFrameSize }
  tables := fun t i =>
    if t = frameAddr 256 ∧ i = 0 then Pte.rw (frameAddr 257)
    else if t = frameAddr 257 ∧ i = 0 then Pte.rw (frameAddr 258)
    else if t = frameAddr 258 ∧ i = userPdStart then Pte.rw (frameAddr 259)
    else if t = frameAddr 258 ∧ i = userPdStart + 1 then Pte.rw (frameAddr 260)
    else Pte.zero
  bytes := fun _ _ => 0
  kernelPml4 := Physmem.physmemFrameSize
  kernelPdpt := 2 * Physmem.physmemFrameSize
  kernelPd0 := 3 * Physmem.physmemFrameSize

/-- Two segments, the first of them attached: memory is full. -/
def filled : World :=
  (exec step (initial twoFree) [.create 1, .create 1, .spawn (frameAddr 256), .attach 0 1]).2

theorem twoFree_inv : twoFree.frames.Inv := by
  refine ⟨by decide, fun f hf _ => ?_⟩
  simp only [lowFrames] at *
  exact decide_eq_true (by omega)

theorem filled_legal : Guarded step Legal (initial twoFree)
    [.create 1, .create 1, .spawn (frameAddr 256), .attach 0 1] := by
  have hfirst : ∀ i, ((initial twoFree).segments i).used →
      ((initial twoFree).segments i).id ≠ (initial twoFree).nextId := fun _ h => absurd h Bool.false_ne_true
  have hsecond : ∀ i, ((step (initial twoFree) (.create 1)).2.segments i).used →
      ((step (initial twoFree) (.create 1)).2.segments i).id
        ≠ (step (initial twoFree) (.create 1)).2.nextId := by decide +kernel
  exact ⟨hfirst, hsecond, trivial, trivial, trivial⟩

variable {i : Fin shmMaxSegments}

/-- Releasing a segment that has no frame yet. -/
theorem releaseSegment_noFrames (hused : (w.segments i).used)
    (hzero : (w.segments i).refCount = 0) (hframes : (w.segments i).frames = fun _ => 0) :
    releaseSegment w i = w.setSegment i Segment.empty := by
  have hloop : forRange 0 (w.segments i).pageCount (freePage i) w = w := by
    refine forRange_inv (P := fun _ w' => w' = w) (Nat.zero_le _) rfl ?_
    rintro p w' _ _ rfl
    exact if_neg (by rw [hframes]; exact fun h => h rfl)
  unfold releaseSegment
  rw [if_neg (by simp [hused, hzero])]
  dsimp only
  rw [hloop, hframes]
  rfl

section

variable (hfr : w.mem.frames.Inv) (hfree : (firstIdx fun i => !(w.segments i).used) = some i)
  (hempty : w.segments i = Segment.empty) (hnone : (physmemAllocFrame w.mem.frames).1 = 0)
include hfr hfree hempty hnone

/-- A creation that finds no frame leaves nothing behind but the next id. -/
theorem shmCreate_full : shmCreate w 1 = (-1, { w with nextId := int32 (w.nextId + 1) }) := by
  have hpages : pageCountForSize 1 = some 1 := by decide
  have halloc : w.mem.allocFrame = (0, w.mem) := by
    show ((physmemAllocFrame w.mem.frames).1, { w.mem with frames := (physmemAllocFrame w.mem.frames).2 })
      = (0, w.mem)
    rw [hnone, allocFrame_zero hfr hnone]
  have hback : ∀ v, v.segments i = Segment.empty → v.mem.allocFrame = (0, v.mem) →
      createPages i 0 1 (v.setSegment i (newSegment (v.segments i) w.nextId 1 1)) = (false, v) := by
    intro v hv hva
    have hself : (v.setSegment i (newSegment (v.segments i) w.nextId 1 1)).segments i
        = newSegment Segment.empty w.nextId 1 1 := by
      rw [← hv]
      exact update_self ..
    unfold createPages
    rw [setSegment_mem, hva, hself]
    show (false, releaseSegment _ i) = _
    rw [releaseSegment_noFrames]
    · simp only [World.setSegment, World.setMem, update_idem]
      rw [← hv, update_eq_self]
    all_goals
      rw [setSegment_segments, if_pos rfl]
      rfl
  unfold shmCreate
  rw [hpages]
  rw [hfree]
  dsimp only
  rw [hback { w with nextId := int32 (w.nextId + 1) } hempty halloc]

/-- So do any number of them. -/
theorem exec_create_full (n : Nat) : ∀ k,
    (exec step { w with nextId := int32 k } (List.replicate n (.create 1))).2
      = { w with nextId := int32 (k + n) } := by
  induction n with
  | zero =>
    intro k
    rw [Int.natCast_zero, Int.add_zero]
    rfl
  | succ n ih =>
    intro k
    have hone : shmCreate { w with nextId := int32 k } 1
        = (-1, { w with nextId := int32 (int32 k + 1) }) :=
      shmCreate_full hfr hfree hempty hnone
    show (exec step (shmCreate _ 1).2 _).2 = _
    rw [hone, int32_add, ih (k + 1)]
    congr 2
    omega

end

/-- After creations that bring the next id back to 1, a second segment has the id 1. -/
theorem second_segment {n : Nat} (hn : int32 (3 + n) = 1) : ∃ w, w = (exec step (initial twoFree)
      ([.create 1, .create 1, .spawn (frameAddr 256), .attach 0 1]
        ++ (List.replicate n (.create 1) ++ [.unlink 2, .create 1]))).2 ∧
      ∃ i, (w.segments i).used ∧ (w.segments i).refCount = 0 ∧ naming w (w.segments i).id = 1 := by
  have hinv : filled.mem.frames.Inv := by
    have hlow : ∀ f < lowFrames, filled.mem.frames.marked f := by decide +kernel
    exact ⟨by decide +kernel, fun f hf _ => hlow f hf⟩
  have hround : (exec step filled (List.replicate n (.create 1))).2 = { filled with nextId := 1 } := by
    have hloop := exec_create_full (i := 2) hinv (by decide +kernel) rfl (by decide +kernel) n 3
    rwa [hn] at hloop
  have hend : (exec step (initial twoFree) ([.create 1, .create 1, .spawn (frameAddr 256), .attach 0 1]
        ++ (List.replicate n (.create 1) ++ [.unlink 2, .create 1]))).2
      = (exec step { filled with nextId := 1 } [.unlink 2, .create 1]).2 := by
    rw [exec_append, exec_append]
    show (exec step (exec step filled _).2 _).2 = _
    rw [hround]
  refine ⟨_, hend.symm, 1, ?_⟩
  decide +kernel

end Lyth.ShmAccounting
