/-
  What the directory operations of `kernel/mem/paging.c` do to frames and tables.

  `Lyth.Paging` is the code.  Here its loops are read as what they do to each table entry, and the
  operations as what they do as a whole.

    1. Frames.  `Grows` says what taking frames and counting references does to the frame allocator; the
       operations are built from `allocFrame_grows` and `refFrame_grows` by `Grows.trans`.
    2. Tables.  `cowTable_spec` is the inner loop of a clone.
    3. Clones.  `cowClone_cloned`: a successful clone leaves a directory of its own on five fresh frames,
       shares the pages of the parent read-only, and changes nothing else.
    4. New directories.  `createUserDirectory_created`: the window of a new directory is the region it was
       given, without the guard page.

  The crux is that the frames taken were free, and the tables of directories stand on frames in use, so a
  table written is never one that another directory uses.
-/
import Mathlib.Data.List.Perm.Subperm
import Lyth.Paging

namespace Lyth.Directory

open Loop Run Paging
open Physmem (physmemAllocFrame physmemFreeFrame physmemRefFrame physmemUnrefFrame physmemFrameRefcount
  physmemFrameSize frameAddr lowFrames HandedOut SameFrame frameAddr_ne_zero)

/-! ## Frames taken and references counted -/

/-- The frame at `a` is above the low megabyte and in use. -/
def InUse (fr : Physmem.State) (a : Nat) : Prop :=
  ∃ f, a = frameAddr f ∧ lowFrames ≤ f ∧ f < fr.totalFrames ∧ fr.marked f

/-- The frames `as`, free before, are handed out, and frame `f` gets `inc f` more references; the
    count is a byte that stops at 255. -/
structure Grows (fr fr' : Physmem.State) (as : List Nat) (inc : Nat → Nat) : Prop where
  total : fr'.totalFrames = fr.totalFrames
  inv : fr'.Inv
  nodup : as.Nodup
  taken : ∀ a ∈ as, ∃ f, a = frameAddr f ∧ HandedOut f fr fr'
  marked : ∀ f, frameAddr f ∉ as → fr'.marked f = fr.marked f
  counted : ∀ f, frameAddr f ∉ as → fr.refcount f ≤ 255 → fr'.refcount f = min 255 (fr.refcount f + inc f)

theorem frameAddr_inj {f g : Nat} (h : frameAddr f = frameAddr g) : f = g := by
  rw [← Physmem.frameAddr_div f, h, Physmem.frameAddr_div]

variable {a f p pml4 pdpt pd base newPd k : Nat} {s₁ : State}

section

variable {fr fr' fr'' : Physmem.State} {as bs : List Nat} {inc inc' : Nat → Nat}

theorem Grows.refl (h : fr.Inv) : Grows fr fr [] fun _ => 0 := by
  refine ⟨rfl, h, List.nodup_nil, fun _ ha => absurd ha List.not_mem_nil, fun _ _ => rfl, ?_⟩
  intro f _ hle
  omega

theorem Grows.congr (h : Grows fr fr' as inc) (heq : ∀ f, inc' f = inc f) : Grows fr fr' as inc' :=
  { h with counted := fun f hf hle => by rw [heq]; exact h.counted f hf hle }

/-- A frame taken was not in use. -/
theorem Grows.not_inUse (h : Grows fr fr' as inc) (ha : a ∈ as) : ¬ InUse fr a := by
  obtain ⟨f, rfl, ⟨hfree, _⟩, _⟩ := h.taken a ha
  rintro ⟨g, hg, _, _, hmarked⟩
  rw [← frameAddr_inj hg, hfree] at hmarked
  cases hmarked

/-- A frame in use stays in use. -/
theorem Grows.inUse (h : Grows fr fr' as inc) (ha : InUse fr a) : InUse fr' a := by
  obtain ⟨f, rfl, hlow, hlt, hmarked⟩ := ha
  have hnot : frameAddr f ∉ as := fun hin => h.not_inUse hin ⟨f, rfl, hlow, hlt, hmarked⟩
  exact ⟨f, rfl, hlow, by rwa [h.total], by rwa [h.marked f hnot]⟩

/-- A frame taken is in use afterwards. -/
theorem Grows.taken_inUse (hfr : fr.Inv) (h : Grows fr fr' as inc) (ha : a ∈ as) : InUse fr' a := by
  obtain ⟨f, rfl, ⟨hfree, hlt⟩, hmarked, _⟩ := h.taken a ha
  exact ⟨f, rfl, hfr.le_of_free hlt hfree, by rwa [h.total], hmarked⟩

theorem Grows.taken_ne_zero (hfr : fr.Inv) (h : Grows fr fr' as inc) (ha : a ∈ as) : a ≠ 0 := by
  obtain ⟨f, rfl, hlow, _⟩ := h.taken_inUse hfr ha
  exact frameAddr_ne_zero hlow

/-- One after the other.  References of the second part are to frames that were in use before. -/
theorem Grows.trans (h : Grows fr fr' as inc) (h' : Grows fr' fr'' bs inc')
    (hold : ∀ f, frameAddr f ∈ as → inc' f = 0) :
    Grows fr fr'' (as ++ bs) fun f => inc f + inc' f := by
  have hdisj : ∀ a ∈ as, a ∉ bs := by
    intro a ha hb
    obtain ⟨f, rfl, _, hmarked, _⟩ := h.taken a ha
    obtain ⟨g, hg, ⟨hfree, _⟩, _⟩ := h'.taken _ hb
    rw [← frameAddr_inj hg, hmarked] at hfree
    cases hfree
  constructor
  · exact h'.total.trans h.total
  · exact h'.inv
  · exact List.nodup_append.mpr ⟨h.nodup, h'.nodup, fun a ha b hb heq => hdisj a ha (heq ▸ hb)⟩
  · intro a ha
    rcases List.mem_append.mp ha with ha | hb
    · obtain ⟨f, rfl, hfree, hmarked, hone⟩ := h.taken a ha
      refine ⟨f, rfl, hfree, ?_, ?_⟩
      · rw [h'.marked f (hdisj _ ha), hmarked]
      · rw [h'.counted f (hdisj _ ha) (by omega), hone, hold f ha]
        rfl
    · obtain ⟨f, rfl, ⟨hfree, hlt⟩, hafter⟩ := h'.taken a hb
      have hnot : frameAddr f ∉ as := fun hin => hdisj _ hin hb
      exact ⟨f, rfl, ⟨by rwa [← h.marked f hnot], by rwa [← h.total]⟩, hafter⟩
  · intro f hf
    obtain ⟨hfa, hfb⟩ := not_or.mp fun hin => hf (List.mem_append.mpr hin)
    rw [h'.marked f hfb, h.marked f hfa]
  · intro f hf hle
    obtain ⟨hfa, hfb⟩ := not_or.mp fun hin => hf (List.mem_append.mpr hin)
    have hmid := h.counted f hfa hle
    rw [h'.counted f hfb (by omega)]
    omega

/-- `physmem_alloc_frame` leaves every other frame alone. -/
theorem allocFrame_same (hfr : fr.Inv) (hf : frameAddr f ≠ (physmemAllocFrame fr).1) :
    SameFrame f fr (physmemAllocFrame fr).2 := by
  rcases Physmem.allocFrame_frame hfr f with ⟨_, heq, _⟩ | ⟨_, hsame⟩
  · exact absurd heq.symm hf
  · exact hsame

/-- `physmem_alloc_frame` takes one frame. -/
theorem allocFrame_grows (hfr : fr.Inv) (hne : (physmemAllocFrame fr).1 ≠ 0) :
    Grows fr (physmemAllocFrame fr).2 [(physmemAllocFrame fr).1] fun _ => 0 := by
  have hsome : ∃ f, (physmemAllocFrame fr).1 = frameAddr f := by
    unfold physmemAllocFrame at hne ⊢
    split
    · exact ⟨_, rfl⟩
    · rename_i hnone
      rw [hnone] at hne
      exact absurd rfl hne
  have hother : ∀ f, frameAddr f ∉ [(physmemAllocFrame fr).1] → SameFrame f fr (physmemAllocFrame fr).2 :=
    fun f hf => allocFrame_same hfr fun heq => hf (List.mem_singleton.mpr heq)
  refine ⟨Physmem.allocFrame_totalFrames, Physmem.step_inv hfr .allocFrame, List.nodup_singleton _,
    ?_, fun f hf => (hother f hf).1, fun f hf hle => ?_⟩
  · intro a ha
    obtain rfl := List.mem_singleton.mp ha
    obtain ⟨f, hf⟩ := hsome
    refine ⟨f, hf, ?_⟩
    rcases Physmem.allocFrame_frame hfr f with ⟨_, _, hhanded⟩ | ⟨hnot, _⟩
    · exact hhanded
    · exact absurd ⟨hne, hf⟩ hnot
  · rw [(hother f hf).2]
    omega

/-- At least `k` frames are free. -/
def HasFree (fr : Physmem.State) (k : Nat) : Prop :=
  ∃ fs : List Nat, fs.Nodup ∧ k ≤ fs.length ∧ ∀ f ∈ fs, f < fr.totalFrames ∧ fr.marked f = false

theorem HasFree.mono {n : Nat} (h : HasFree fr n) (hle : k ≤ n) : HasFree fr k := by
  obtain ⟨fs, hnodup, hlength, hfs⟩ := h
  exact ⟨fs, hnodup, hle.trans hlength, hfs⟩

/-- Frames taken are frames lost. -/
theorem HasFree.grows (hfree : HasFree fr (as.length + k)) (h : Grows fr fr' as inc) :
    HasFree fr' k := by
  obtain ⟨fs, hnodup, hlength, hfs⟩ := hfree
  refine ⟨fs.filter fun f => frameAddr f ∉ as, hnodup.filter _, ?_, fun f hf => ?_⟩
  · -- the free frames among `as` are at most `as.length`
    have htaken : (fs.filter fun f => frameAddr f ∈ as).length ≤ as.length := by
      have hmap : ((fs.filter fun f => frameAddr f ∈ as).map frameAddr).Nodup :=
        (hnodup.filter _).map fun _ _ => frameAddr_inj
      have hsub : ((fs.filter fun f => frameAddr f ∈ as).map frameAddr) ⊆ as := by
        intro a ha
        obtain ⟨f, hf, rfl⟩ := List.mem_map.mp ha
        exact of_decide_eq_true (List.mem_filter.mp hf).2
      have hle := (hmap.subperm hsub).length_le
      rwa [List.length_map] at hle
    have hsplit := List.length_eq_length_filter_add (l := fs) fun f => decide (frameAddr f ∈ as)
    simp only [decide_not] at hsplit ⊢
    omega
  · obtain ⟨hmem, hnot⟩ := List.mem_filter.mp hf
    obtain ⟨hlt, hunmarked⟩ := hfs f hmem
    exact ⟨by rwa [h.total], by rwa [h.marked f (of_decide_eq_true hnot)]⟩

/-- If no frame can be had, nothing changes. -/
theorem allocFrame_zero (hfr : fr.Inv) (hzero : (physmemAllocFrame fr).1 = 0) :
    (physmemAllocFrame fr).2 = fr := by
  unfold physmemAllocFrame at hzero ⊢
  split
  · rename_i hfirst
    rw [hfirst] at hzero
    obtain ⟨_, hlt, hfree⟩ := firstIn_some hfirst
    have hlow := hfr.le_of_free hlt (by simpa using hfree)
    simp only [physmemFrameSize, lowFrames] at hzero hlow
    omega
  · rfl

/-- `physmem_alloc_frame` fails only if no frame is free. -/
theorem allocFrame_ne_zero (hfr : fr.Inv) (hfree : HasFree fr (k + 1)) :
    (physmemAllocFrame fr).1 ≠ 0 := by
  obtain ⟨fs, _, hlength, hfs⟩ := hfree
  obtain ⟨f, hf⟩ := List.exists_mem_of_length_pos (l := fs) (by omega)
  obtain ⟨hlt, hunmarked⟩ := hfs f hf
  unfold physmemAllocFrame
  split
  · rename_i hsome
    obtain ⟨_, hg, hfound⟩ := firstIn_some hsome
    exact frameAddr_ne_zero (hfr.le_of_free hg (by simpa using hfound))
  · rename_i hnone
    have hall := firstIn_none hnone (Nat.zero_le f) hlt
    rw [hunmarked] at hall
    cases hall

/-- `physmem_ref_frame` counts one reference. -/
theorem refFrame_grows (hfr : fr.Inv) {g : Nat} (hlow : lowFrames ≤ g) (hlt : g < fr.totalFrames) :
    Grows fr (physmemRefFrame fr (frameAddr g)) [] fun f => if f = g then 1 else 0 := by
  have hmarked : (physmemRefFrame fr (frameAddr g)).marked = fr.marked := Physmem.refFrame_marked _
  have htotal := Physmem.refFrame_totalFrames (s := fr) (frameAddr g)
  refine ⟨htotal, ⟨by rw [htotal]; exact hfr.total_lt, fun f h1 h2 => ?_⟩, List.nodup_nil,
    fun _ ha => absurd ha List.not_mem_nil, fun f _ => by rw [hmarked], fun f _ hle => ?_⟩
  · rw [hmarked]
    exact hfr.low f h1 (by rwa [← htotal])
  by_cases hfg : f = g
  · subst hfg
    rw [if_pos rfl]
    by_cases hsat : fr.refcount f < 255
    · rw [Physmem.refFrame_self hlow hlt hsat]
      omega
    · rw [Physmem.refFrame_full (by omega)]
      omega
  · rw [if_neg hfg, (Physmem.refFrame_other fun heq => hfg (frameAddr_inj heq).symm).2]
    omega

end

/-! ## Frames given back -/

/-- The frames `as` are free afterwards, and every other one is as it was. -/
structure Returned (fr fr' : Physmem.State) (as : List Nat) : Prop where
  total : fr'.totalFrames = fr.totalFrames
  inv : fr'.Inv
  freed : ∀ f, frameAddr f ∈ as → lowFrames ≤ f → f < fr.totalFrames → fr'.marked f = false
  kept : ∀ f, frameAddr f ∉ as → SameFrame f fr fr'

section

variable {fr fr' fr'' : Physmem.State} {as bs : List Nat}

theorem Returned.refl (h : fr.Inv) : Returned fr fr [] :=
  ⟨rfl, h, fun _ ha => absurd ha List.not_mem_nil, fun _ _ => ⟨rfl, rfl⟩⟩

/-- Address 0 is no frame that is ever given back. -/
theorem Returned.zero (h : fr.Inv) : Returned fr fr [0] := by
  refine ⟨rfl, h, fun f hf hlow _ => ?_, fun _ _ => ⟨rfl, rfl⟩⟩
  exact absurd (List.mem_singleton.mp hf) (frameAddr_ne_zero hlow)

theorem Returned.trans (h : Returned fr fr' as) (h' : Returned fr' fr'' bs) :
    Returned fr fr'' (as ++ bs) := by
  refine ⟨h'.total.trans h.total, h'.inv, fun f hf hlow hlt => ?_, fun f hf => ?_⟩
  · by_cases hb : frameAddr f ∈ bs
    · exact h'.freed f hb hlow (by rwa [h.total])
    · have ha : frameAddr f ∈ as := (List.mem_append.mp hf).resolve_right hb
      rw [(h'.kept f hb).1]
      exact h.freed f ha hlow hlt
  · obtain ⟨hfa, hfb⟩ := not_or.mp fun hin => hf (List.mem_append.mpr hin)
    have hfirst := h.kept f hfa
    have hsecond := h'.kept f hfb
    exact ⟨hsecond.1.trans hfirst.1, hsecond.2.trans hfirst.2⟩

/-- `physmem_free_frame` gives one frame back. -/
theorem freeFrame_returned (hfr : fr.Inv) (a : Nat) : Returned fr (physmemFreeFrame fr a) [a] := by
  have htotal := Physmem.freeFrame_totalFrames (s := fr) a
  refine ⟨htotal, ⟨by rw [htotal]; exact hfr.total_lt, fun f h1 h2 => ?_⟩, fun f hf hlow hlt => ?_,
    fun f hf => ?_⟩
  · rw [(Physmem.freeFrame_other (.inr h1)).1]
    exact hfr.low f h1 (by rwa [← htotal])
  · rw [← List.mem_singleton.mp hf]
    exact Physmem.freeFrame_self hfr hlow hlt
  · exact Physmem.freeFrame_other (.inl fun heq => hf (List.mem_singleton.mpr heq.symm))

/-- A frame that is not given back stays in use. -/
theorem Returned.inUse (h : Returned fr fr' as) (ha : InUse fr a) (hnot : a ∉ as) : InUse fr' a := by
  obtain ⟨f, rfl, hlow, hlt, hmarked⟩ := ha
  exact ⟨f, rfl, hlow, by rwa [h.total], by rwa [(h.kept f hnot).1]⟩

/-- Giving back takes no frame. -/
theorem Returned.quiet (h : Returned fr fr' as) (ha : InUse fr' a) : InUse fr a := by
  obtain ⟨f, rfl, hlow, hlt, hmarked⟩ := ha
  rw [h.total] at hlt
  by_cases hmem : frameAddr f ∈ as
  · rw [h.freed f hmem hlow hlt] at hmarked
    cases hmarked
  · exact ⟨f, rfl, hlow, hlt, by rwa [← (h.kept f hmem).1]⟩

/-- A frame given back is in use no more. -/
theorem Returned.not_inUse (h : Returned fr fr' as) (ha : a ∈ as) : ¬ InUse fr' a := by
  rintro ⟨f, rfl, hlow, hlt, hmarked⟩
  rw [h.freed f ha hlow (by rwa [← h.total])] at hmarked
  cases hmarked

end

/-! ## The loops of a clone -/

/-- A present page outside the shared-memory window: a clone shares it. -/
def shares (e : Pte) (va : Nat) : Bool := e.present && !inShm va

/-- What the clone leaves in the parent's table, and writes in the child's. -/
def parentEntry (e : Pte) (va : Nat) : Pte := if shares e va then Pte.shared e.phys else e

def childEntry (e : Pte) (va : Nat) : Pte := if shares e va then Pte.shared e.phys else Pte.zero

/-- The page is shared and stands on frame `f`. -/
def sharesFrame (e : Pte) (va f : Nat) : Bool := shares e va && decide (e.phys = frameAddr f)

variable {D : Dir} {s' : State}

section

variable {s : State} {parentPt : Nat}

/-- One entry: both tables get what the clone writes, and a shared frame one more reference. -/
theorem cowPage_spec (ti p : Nat) {childPt : Nat} (hne : parentPt ≠ childPt) (hfr : s.frames.Inv)
    (hleaf : (s.tables parentPt p).present → InUse s.frames (s.tables parentPt p).phys) :
    Grows s.frames (cowPage ti parentPt childPt p s).frames []
      (fun f => if sharesFrame (s.tables parentPt p) (pageVa ti p) f then 1 else 0) ∧
    (cowPage ti parentPt childPt p s).bytes = s.bytes ∧
    ∀ t i, (cowPage ti parentPt childPt p s).tables t i
      = if t = parentPt ∧ i = p then parentEntry (s.tables parentPt p) (pageVa ti p)
        else if t = childPt ∧ i = p then childEntry (s.tables parentPt p) (pageVa ti p)
        else s.tables t i := by
  by_cases hshares : shares (s.tables parentPt p) (pageVa ti p)
  · obtain ⟨hpresent, hshm⟩ := Bool.and_eq_true_iff.mp hshares
    have hpage : cowPage ti parentPt childPt p s
        = ((s.setEntry parentPt p (Pte.shared (s.tables parentPt p).phys)).setEntry childPt p
            (Pte.shared (s.tables parentPt p).phys)).refFrame (s.tables parentPt p).phys := by
      unfold cowPage
      dsimp only
      rw [hpresent, if_neg (by decide), if_neg (by simpa using hshm)]
    obtain ⟨g, hg, hlow, hlt, _⟩ := hleaf hpresent
    rw [hpage]
    refine ⟨?_, rfl, fun t i => ?_⟩
    · rw [hg]
      refine (refFrame_grows hfr hlow hlt).congr fun f => ?_
      simp only [sharesFrame, hshares, Bool.true_and, hg, decide_eq_true_eq]
      by_cases hfg : f = g
      · rw [if_pos hfg, if_pos (by rw [hfg])]
      · rw [if_neg hfg, if_neg fun heq => hfg (frameAddr_inj heq).symm]
    · rw [refFrame_tables, setEntry_tables, setEntry_tables, parentEntry, childEntry]
      grind
  · have hpage : cowPage ti parentPt childPt p s = s.setEntry childPt p Pte.zero := by
      unfold cowPage
      dsimp only
      by_cases hpresent : (s.tables parentPt p).present
      · have hshm : inShm (pageVa ti p) := by simpa [shares, hpresent] using hshares
        rw [hpresent, if_neg (by decide), if_pos hshm]
      · rw [if_pos (by simpa using hpresent)]
    rw [hpage]
    refine ⟨?_, rfl, fun t i => ?_⟩
    · refine (Grows.refl hfr).congr fun f => ?_
      simp [sharesFrame, hshares]
    · rw [setEntry_tables, parentEntry, childEntry]
      grind

/-- The loop over a page table. -/
theorem cowTable_spec (ti n : Nat) {childPt : Nat} (hne : parentPt ≠ childPt)
    (hfr : s.frames.Inv)
    (hleaf : ∀ p < n, (s.tables parentPt p).present → InUse s.frames (s.tables parentPt p).phys) :
    Grows s.frames (forRange 0 n (cowPage ti parentPt childPt) s).frames []
      (fun f => (List.range n).countP fun p => sharesFrame (s.tables parentPt p) (pageVa ti p) f) ∧
    (forRange 0 n (cowPage ti parentPt childPt) s).bytes = s.bytes ∧
    ∀ t i, (forRange 0 n (cowPage ti parentPt childPt) s).tables t i
      = if t = parentPt ∧ i < n then parentEntry (s.tables parentPt i) (pageVa ti i)
        else if t = childPt ∧ i < n then childEntry (s.tables parentPt i) (pageVa ti i)
        else s.tables t i := by
  -- the invariant: entries below the index are done, and their references are counted
  refine forRange_inv (P := fun k (s' : State) =>
    Grows s.frames s'.frames []
      (fun f => (List.range k).countP fun p => sharesFrame (s.tables parentPt p) (pageVa ti p) f) ∧
    s'.bytes = s.bytes ∧
    ∀ t i, s'.tables t i = if t = parentPt ∧ i < k then parentEntry (s.tables parentPt i) (pageVa ti i)
        else if t = childPt ∧ i < k then childEntry (s.tables parentPt i) (pageVa ti i)
        else s.tables t i) (Nat.zero_le _) ?_ ?_
  · refine ⟨(Grows.refl hfr).congr fun _ => rfl, rfl, fun t i => ?_⟩
    rw [if_neg fun h => Nat.not_lt_zero _ h.2, if_neg fun h => Nat.not_lt_zero _ h.2]
  rintro k s' _ hk ⟨hgrows, hbytes, htables⟩
  have hsame : s'.tables parentPt k = s.tables parentPt k := by
    rw [htables, if_neg fun h => Nat.lt_irrefl _ h.2, if_neg fun h => hne h.1]
  obtain ⟨hgrows', hbytes', htables'⟩ := cowPage_spec ti k hne hgrows.inv
    (by rw [hsame]; exact fun hp => hgrows.inUse (hleaf k hk hp))
  rw [hsame] at hgrows' htables'
  refine ⟨?_, hbytes'.trans hbytes, fun t i => ?_⟩
  · refine (hgrows.trans hgrows' fun f hf => absurd hf List.not_mem_nil).congr fun f => ?_
    rw [List.range_succ, List.countP_append, List.countP_singleton]
  · grind

/-- An entry of a PD that leads to a page table, not to nothing or to a 2 MB page. -/
def isTable (e : Pte) : Bool := e.present && !e.ps

/-- The entry leads to the page table `pt`. -/
def PointsTo (e : Pte) (pt : Nat) : Prop := isTable e ∧ e.phys = pt

/-- `cloneTable` skips an entry without a page table, fails without a frame, or clones. -/
theorem cloneTable_eq (parentPd newPd ti : Nat) (s : State) : cloneTable parentPd newPd ti s
    = if isTable (s.tables parentPd (userPdStart + ti)) then
        if s.allocFrame.1 = 0 then (false, s.allocFrame.2)
        else (true, (forRange 0 entriesPerTable
          (cowPage ti (s.tables parentPd (userPdStart + ti)).phys s.allocFrame.1) s.allocFrame.2).setEntry
            newPd (userPdStart + ti) (Pte.rw s.allocFrame.1))
      else (true, s.setEntry newPd (userPdStart + ti) Pte.zero) := by
  unfold cloneTable isTable
  dsimp only
  cases (s.tables parentPd (userPdStart + ti)).present <;>
    cases (s.tables parentPd (userPdStart + ti)).ps <;> rfl

theorem PointsTo.of_rw {e : Pte} {pt : Nat} (h : e = Pte.rw pt) : PointsTo e pt := by
  rw [h]
  exact ⟨rfl, rfl⟩

variable {parentPd : Nat}

/-- The pages of a table stand on frames in use. -/
def PagesInUse (s : State) (pt : Nat) : Prop :=
  ∀ p < entriesPerTable, (s.tables pt p).present → InUse s.frames (s.tables pt p).phys

/-- The pages of a table that a clone shares on frame `f`. -/
def tableShares (s : State) (pt ti f : Nat) : Nat :=
  (List.range entriesPerTable).countP fun p => sharesFrame (s.tables pt p) (pageVa ti p) f

/-- None is on a frame that is not in use. -/
theorem tableShares_zero {pt : Nat} (h : PagesInUse s pt) (ti : Nat)
    (hf : ¬InUse s.frames (frameAddr f)) : tableShares s pt ti f = 0 := by
  refine List.countP_eq_zero.mpr fun p hp hshares => hf ?_
  obtain ⟨hshares, hphys⟩ := Bool.and_eq_true_iff.mp hshares
  rw [← of_decide_eq_true hphys]
  exact h p (List.mem_range.mp hp) (Bool.and_eq_true_iff.mp hshares).1

/-- A page table cloned: the child's table stands on a fresh frame, linked in the child's PD. -/
theorem cloneTable_spec (ti : Nat) (hfr : s.frames.Inv)
    (hpde : PointsTo (s.tables parentPd (userPdStart + ti)) parentPt) (hpt : InUse s.frames parentPt)
    (hleaf : PagesInUse s parentPt) (hok : cloneTable parentPd newPd ti s = (true, s')) :
    ∃ childPt, Grows s.frames s'.frames [childPt] (tableShares s parentPt ti) ∧ s'.bytes = s.bytes ∧
      ∀ t i, s'.tables t i
        = if t = newPd ∧ i = userPdStart + ti then Pte.rw childPt
          else if t = parentPt ∧ i < entriesPerTable then parentEntry (s.tables parentPt i) (pageVa ti i)
          else if t = childPt ∧ i < entriesPerTable then childEntry (s.tables parentPt i) (pageVa ti i)
          else s.tables t i := by
  obtain ⟨htable, hphys⟩ := hpde
  rw [cloneTable_eq, if_pos htable, hphys] at hok
  have hsome : s.allocFrame.1 ≠ 0 := by
    intro hzero
    rw [if_pos hzero] at hok
    cases hok
  rw [if_neg hsome] at hok
  obtain rfl := (Prod.mk.inj hok).2
  have htaken := allocFrame_grows hfr hsome
  obtain ⟨hgrows, hbytes, htables⟩ := cowTable_spec (s := s.allocFrame.2) ti entriesPerTable
    (fun heq : _ = s.allocFrame.1 => htaken.not_inUse (List.mem_singleton.mpr heq) hpt) htaken.inv
    fun p hp hpresent => htaken.inUse (hleaf p hp hpresent)
  refine ⟨s.allocFrame.1, ?_, hbytes, fun t i => ?_⟩
  · -- the references are to frames in use before, so none is to the fresh table
    refine (htaken.trans hgrows fun f hf => ?_).congr fun f => by rw [Nat.zero_add]; rfl
    exact tableShares_zero hleaf ti (htaken.not_inUse hf)
  · rw [setEntry_tables, htables]
    rfl

/-- A clone under way: it has taken the frames `as` and counted the references `inc`; the other tables
    hold the entries `entry`. -/
structure Underway (s s₁ : State) (as : List Nat) (inc : Nat → Nat) (entry : Nat → Nat → Pte) : Prop where
  frames : Grows s.frames s₁.frames as inc
  counts : ∀ f, ¬InUse s.frames (frameAddr f) → inc f = 0
  bytes : s₁.bytes = s.bytes
  others : ∀ t i, t ∉ as → s₁.tables t i = entry t i

/-- The entries of the parent's tables when the page table `pt` has been shared. -/
def sharedEntries (s : State) (pt ti : Nat) (entry : Nat → Nat → Pte) (t i : Nat) : Pte :=
  if t = pt ∧ i < entriesPerTable then parentEntry (s.tables t i) (pageVa ti i) else entry t i

/-- **One round**: a page table that is not yet shared. -/
theorem Underway.cloneTable {as : List Nat} {inc : Nat → Nat} {entry : Nat → Nat → Pte}
    {ti : Nat} (h : Underway s s₁ as inc entry) (hnew : newPd ∈ as) (hpd : InUse s.frames parentPd)
    (hpde : PointsTo (entry parentPd (userPdStart + ti)) parentPt) (hpt : InUse s.frames parentPt)
    (hsame : ∀ i, entry parentPt i = s.tables parentPt i) (hleaf : PagesInUse s parentPt)
    (hok : cloneTable parentPd newPd ti s₁ = (true, s')) :
    ∃ childPt, Underway s s' (as ++ [childPt]) (fun f => inc f + tableShares s parentPt ti f)
        (sharedEntries s parentPt ti entry) ∧
      s'.tables newPd (userPdStart + ti) = Pte.rw childPt ∧
      (∀ p < entriesPerTable, s'.tables childPt p = childEntry (s.tables parentPt p) (pageVa ti p)) ∧
      ∀ t ∈ as, ∀ i, ¬(t = newPd ∧ i = userPdStart + ti) → s'.tables t i = s₁.tables t i := by
  have hold : ∀ {t}, InUse s.frames t → ∀ i, s₁.tables t i = entry t i :=
    fun ht i => h.others _ i fun hmem => h.frames.not_inUse hmem ht
  have hparent : s₁.tables parentPt = s.tables parentPt := funext fun i => (hold hpt i).trans (hsame i)
  obtain ⟨childPt, hgrows, hbytes, htables⟩ := cloneTable_spec ti h.frames.inv (by rwa [hold hpd])
    (h.frames.inUse hpt) (fun p hp => by rw [hparent]; exact fun hpr => h.frames.inUse (hleaf p hp hpr)) hok
  rw [hparent] at htables
  have hshares : tableShares s₁ parentPt ti = tableShares s parentPt ti := by
    unfold tableShares
    rw [hparent]
  rw [hshares] at hgrows
  have hall := h.frames.trans hgrows fun f hf => tableShares_zero hleaf ti (h.frames.not_inUse hf)
  obtain ⟨-, -, hdisj⟩ := List.nodup_append.mp hall.nodup
  have hchild : ∀ t ∈ as, t ≠ childPt := fun t ht => hdisj t ht childPt (List.mem_singleton_self _)
  have hparent : ∀ t ∈ as ++ [childPt], t ≠ parentPt := fun t ht heq => hall.not_inUse ht (heq ▸ hpt)
  refine ⟨childPt, ⟨hall, fun f hf => ?_, hbytes.trans h.bytes, fun t i ht => ?_⟩, ?_, fun p hp => ?_,
    fun t ht i hi => ?_⟩
  · rw [h.counts f hf, tableShares_zero hleaf ti hf]
  · obtain ⟨hnot, hne⟩ := not_or.mp fun hmem => ht (List.mem_append.mpr hmem)
    have hnewPd : t ≠ newPd := fun heq => hnot (heq ▸ hnew)
    rw [htables, if_neg fun e => hnewPd e.1, sharedEntries]
    by_cases hfirst : t = parentPt ∧ i < entriesPerTable
    · rw [if_pos hfirst, if_pos hfirst, hfirst.1]
    · rw [if_neg hfirst, if_neg hfirst, if_neg fun e => hne (List.mem_singleton.mpr e.1), h.others t i hnot]
  · rw [htables, if_pos ⟨rfl, rfl⟩]
  · rw [htables, if_neg fun e => (hchild _ hnew).symm e.1, if_neg fun e => hparent _ (by simp) e.1,
      if_pos ⟨rfl, hp⟩]
  · rw [htables, if_neg hi, if_neg fun e => hparent t (List.mem_append_left _ ht) e.1,
      if_neg fun e => hchild t ht e.1]

/-! ## A clone as a whole -/

/-- Frames asked for in a row: nothing but the frame allocator changes. -/
theorem allocFrames_same (n : Nat) : ∀ s : State, (s.allocFrames n).1.length = n ∧
    (s.allocFrames n).2.tables = s.tables ∧ (s.allocFrames n).2.bytes = s.bytes ∧
    (s.allocFrames n).2.kernelPml4 = s.kernelPml4 ∧ (s.allocFrames n).2.kernelPdpt = s.kernelPdpt ∧
    (s.allocFrames n).2.kernelPd0 = s.kernelPd0 := by
  induction n with
  | zero => exact fun s => ⟨rfl, rfl, rfl, rfl, rfl, rfl⟩
  | succ n ih =>
    intro s
    obtain ⟨hlength, hsame⟩ := ih s.allocFrame.2
    exact ⟨congrArg Nat.succ hlength, hsame⟩

/-- If no call fails they take that many frames. -/
theorem allocFrames_grows (n : Nat) : ∀ s : State, s.frames.Inv → 0 ∉ (s.allocFrames n).1 →
    Grows s.frames (s.allocFrames n).2.frames (s.allocFrames n).1 fun _ => 0 := by
  induction n with
  | zero => exact fun s hfr _ => Grows.refl hfr
  | succ n ih =>
    intro s hfr hzero
    obtain ⟨hhead, htail⟩ := not_or.mp fun hin => hzero (List.mem_cons.mpr hin)
    have hfirst := allocFrame_grows hfr (Ne.symm hhead)
    exact hfirst.trans (ih s.allocFrame.2 hfirst.inv htail) fun _ _ => rfl

/-- Copying a table onto a fresh frame and linking it. -/
theorem copyLink_spec {src dst : Nat} (hne : src ≠ dst) (entry : Pte)
    (hs' : s' = (s.copyTable src dst).setEntry dst 0 entry) :
    s'.frames = s.frames ∧ s'.bytes = s.bytes ∧ s'.tables dst 0 = entry ∧
      ∀ t i, t ≠ dst → s'.tables t i = s.tables t i := by
  obtain ⟨hframes, hbytes, _, htables⟩ := copyTable_spec s hne
  rw [hs', setEntry_frames, setEntry_bytes]
  refine ⟨hframes, hbytes, ?_, fun t i ht => ?_⟩
  · rw [setEntry_tables, if_pos ⟨rfl, rfl⟩]
  · rw [setEntry_tables, if_neg fun h => ht h.1, htables, if_neg fun h => ht h.1]

/-- The upper tables of a clone: linked to each other, and the PD with the parent's entries. -/
theorem linkClone_spec {parent parentPdpt : Nat}
    (hnew : [pml4, pdpt, pd].Nodup) (hold : ∀ a ∈ [parent, parentPdpt, parentPd], a ∉ [pml4, pdpt, pd])
    (hs' : s' = linkClone s parent parentPdpt parentPd pml4 pdpt pd) :
    s'.frames = s.frames ∧ s'.bytes = s.bytes ∧ s'.tables pml4 0 = Pte.rw pdpt ∧
      s'.tables pdpt 0 = Pte.rw pd ∧
      (∀ i < entriesPerTable, s'.tables pd i = s.tables parentPd i) ∧
      ∀ t i, t ∉ [pml4, pdpt, pd] → s'.tables t i = s.tables t i := by
  simp only [List.nodup_cons, List.mem_cons, List.not_mem_nil, or_false, not_or, not_false_iff,
    List.nodup_nil, and_true, forall_eq_or_imp, forall_eq] at hnew hold
  obtain ⟨⟨h12, h13⟩, h23⟩ := hnew
  obtain ⟨⟨hp1, hp2, hp3⟩, ⟨hq1, hq2, hq3⟩, hr1, hr2, hr3⟩ := hold
  obtain ⟨s₁, hs₁⟩ : ∃ s₁, s₁ = (s.copyTable parent pml4).setEntry pml4 0 (Pte.rw pdpt) := ⟨_, rfl⟩
  obtain ⟨s₂, hs₂⟩ : ∃ s₂, s₂ = (s₁.copyTable parentPdpt pdpt).setEntry pdpt 0 (Pte.rw pd) := ⟨_, rfl⟩
  have hs₃ : s' = s₂.copyTable parentPd pd := by rw [hs', hs₂, hs₁]; rfl
  obtain ⟨hf1, hb1, hl1, ht1⟩ := copyLink_spec hp1 _ hs₁
  obtain ⟨hf2, hb2, hl2, ht2⟩ := copyLink_spec hq2 _ hs₂
  obtain ⟨hf3, hb3, _, ht3⟩ := copyTable_spec s₂ hr3
  rw [← hs₃] at hf3 hb3 ht3
  refine ⟨by rw [hf3, hf2, hf1], by rw [hb3, hb2, hb1], ?_, ?_, fun i hi => ?_, fun t i ht => ?_⟩
  · rw [ht3, if_neg fun h => h13 h.1, ht2 _ _ h12, hl1]
  · rw [ht3, if_neg fun h => h23 h.1, hl2]
  · rw [ht3, if_pos ⟨rfl, hi⟩, ht2 _ _ hr2, ht1 _ _ hr1]
  · simp only [List.mem_cons, List.not_mem_nil, or_false, not_or] at ht
    rw [ht3, if_neg fun h => ht.2.2 h.1, ht2 _ _ ht.2.1, ht1 _ _ ht.1]

/-- The pages of a directory that a clone shares on frame `f`. -/
def sharedCount (s : State) (D : Dir) (f : Nat) : Nat :=
  (List.range userPages).countP fun p => sharesFrame (leaf s D p) (pageVa 0 p) f

/-- It is at most one if no two of them stand on one frame. -/
theorem sharedCount_le_one (hdistinct : ∀ p < userPages, ∀ q < userPages, shares (leaf s D p) (pageVa 0 p) →
    shares (leaf s D q) (pageVa 0 q) → (leaf s D p).phys = (leaf s D q).phys → p = q) (f : Nat) :
    sharedCount s D f ≤ 1 := by
  by_cases hany : ∃ q < userPages, sharesFrame (leaf s D q) (pageVa 0 q) f
  · obtain ⟨q, hq, hshares⟩ := hany
    obtain ⟨hqs, hqf⟩ := Bool.and_eq_true_iff.mp hshares
    have hmono : sharedCount s D f ≤ (List.range userPages).count q := by
      refine List.countP_mono_left fun p hp hpshares => beq_iff_eq.mpr ?_
      obtain ⟨hps, hpf⟩ := Bool.and_eq_true_iff.mp hpshares
      exact hdistinct p (List.mem_range.mp hp) q hq hps hqs ((of_decide_eq_true hpf).trans (of_decide_eq_true hqf).symm)
    exact hmono.trans (List.nodup_iff_count_le_one.mp List.nodup_range q)
  · rw [sharedCount, List.countP_eq_zero.mpr fun p hp hshares => hany ⟨p, List.mem_range.mp hp, hshares⟩]
    exact Nat.zero_le 1

/-- What a successful clone of `D` leaves: the directory `C` on fresh frames, the shared pages
    read-only in both, a reference for each, and nothing else changed. -/
structure Cloned (s s' : State) (D C : Dir) : Prop where
  frames : Grows s.frames s'.frames C.frames (sharedCount s D)
  chain : Chain s' C
  parent : ∀ p < userPages, leaf s' D p = parentEntry (leaf s D p) (pageVa 0 p)
  child : ∀ p < userPages, leaf s' C p = childEntry (leaf s D p) (pageVa 0 p)
  others : ∀ t i, t ∉ C.frames → t ≠ D.pt0 → t ≠ D.pt1 → s'.tables t i = s.tables t i
  bytes : s'.bytes = s.bytes

/-- The pages of the window, table by table. -/
theorem countP_userPages (q : Nat → Bool) : (List.range userPages).countP q
    = (List.range entriesPerTable).countP q
      + (List.range entriesPerTable).countP fun p => q (entriesPerTable + p) := by
  have hsum : userPages = entriesPerTable + entriesPerTable := by unfold userPages entriesPerTable; rfl
  rw [hsum, List.range_add, List.countP_append, List.countP_map]
  rfl

theorem leaf_low (hp : p < entriesPerTable) : leaf s D p = s.tables D.pt0 p := by
  rw [leaf, Nat.div_eq_of_lt hp, Nat.mod_eq_of_lt hp]
  rfl

theorem leaf_high (hp : p < entriesPerTable) : leaf s D (entriesPerTable + p) = s.tables D.pt1 p := by
  have hpos : 0 < entriesPerTable := by omega
  rw [leaf, Nat.add_div_left p hpos, Nat.div_eq_of_lt hp, Nat.add_mod_left, Nat.mod_eq_of_lt hp]
  rfl

/-- A page of the window is a page of one of the two tables. -/
theorem userPages_cases (hp : p < userPages) :
    p < entriesPerTable ∨ ∃ q < entriesPerTable, p = entriesPerTable + q := by
  simp only [userPages, entriesPerTable] at *
  by_cases h : p < 512
  · exact .inl h
  · exact .inr ⟨p - 512, by omega, by omega⟩

theorem pageVa_high (p : Nat) : pageVa 0 (entriesPerTable + p) = pageVa 1 p := by
  simp only [pageVa, Nat.zero_mul, Nat.one_mul, Nat.zero_add]

/-- The two rounds of the outer loop.  If the second one fails, the table of the first one is given back. -/
theorem cloneTables_cases (parentPd newPd : Nat) (s : State) :
    (∃ s₁, cloneTable parentPd newPd 0 s = (false, s₁) ∧
      cloneTables parentPd newPd (List.range userPdCount) s = (false, s₁)) ∨
    ∃ s₁ ok s₂, cloneTable parentPd newPd 0 s = (true, s₁) ∧ cloneTable parentPd newPd 1 s₁ = (ok, s₂) ∧
      cloneTables parentPd newPd (List.range userPdCount) s
        = (ok, if ok then s₂ else freeClonedTable newPd 0 s₂) := by
  rw [show List.range userPdCount = [0, 1] from rfl, cloneTables]
  generalize cloneTable parentPd newPd 0 s = r
  obtain ⟨_ | _, s₁⟩ := r
  · exact .inl ⟨s₁, rfl, rfl⟩
  dsimp only
  rw [cloneTables]
  generalize hr : cloneTable parentPd newPd 1 s₁ = r
  obtain ⟨_ | _, s₂⟩ := r
  · exact .inr ⟨s₁, false, s₂, rfl, hr, rfl⟩
  · exact .inr ⟨s₁, true, s₂, rfl, hr, rfl⟩

theorem cloneTables_true (h : cloneTables parentPd newPd (List.range userPdCount) s = (true, s')) :
    ∃ s₁, cloneTable parentPd newPd 0 s = (true, s₁) ∧ cloneTable parentPd newPd 1 s₁ = (true, s') := by
  rcases cloneTables_cases parentPd newPd s with ⟨_, -, heq⟩ | ⟨s₁, ok, s₂, h₀, h₁, heq⟩
  · cases heq.symm.trans h
  · cases heq.symm.trans h
    exact ⟨s₁, h₀, h₁⟩

/-- What `cowClone` does before it clones page tables. -/
theorem cowClone_some (hchain : Chain s D) (hne : (cowClone s D.pml4).1 ≠ 0) :
    ∃ pml4 pdpt pd s₀ s₁, s.allocFrames 3 = ([pml4, pdpt, pd], s₀) ∧ 0 ∉ [pml4, pdpt, pd] ∧
      cloneTables D.pd pd (List.range userPdCount) (linkClone s₀ D.pml4 D.pdpt D.pd pml4 pdpt pd) = (true, s₁) ∧
      cowClone s D.pml4 = (pml4, s₁) := by
  obtain ⟨-, hpdpt, hpd⟩ := hchain.upper_ne_zero
  unfold cowClone at hne ⊢
  simp only [hchain.pml4, hchain.pdpt, Pte.rw_present, Pte.rw_phys, hpdpt, hpd, Bool.not_true,
    decide_false, Bool.or_self, Bool.false_eq_true, if_false] at hne ⊢
  split at hne
  · exact absurd rfl hne
  rename_i hkernel
  rw [if_neg hkernel]
  split at hne
  · rename_i pml4 pdpt pd s₀ halloc
    split at hne
    · exact absurd rfl hne
    rename_i hzero
    rw [if_neg hzero]
    split at hne
    · rename_i s₁ hok
      exact ⟨pml4, pdpt, pd, s₀, s₁, halloc, hzero, hok, rfl⟩
    · exact absurd rfl hne
  · exact absurd rfl hne

/-- The frames of a directory are different, in use, and none of its pages stands on one. -/
structure OwnFrames (s : State) (D : Dir) : Prop where
  nodup : D.frames.Nodup
  inUse : ∀ a ∈ D.frames, InUse s.frames a
  pages : ∀ p < userPages, (leaf s D p).present → InUse s.frames (leaf s D p).phys

theorem OwnFrames.upper (hD : OwnFrames s D) : ∀ a ∈ [D.pml4, D.pdpt, D.pd], InUse s.frames a :=
  fun a ha => hD.inUse a (List.mem_append_left [D.pt0, D.pt1] ha)

/-- The upper tables of a clone stand on fresh frames and are linked. -/
structure Linked (s s₁ : State) (pml4 pdpt pd : Nat) : Prop where
  frames : Grows s.frames s₁.frames [pml4, pdpt, pd] fun _ => 0
  bytes : s₁.bytes = s.bytes
  link_pml4 : s₁.tables pml4 0 = Pte.rw pdpt
  link_pdpt : s₁.tables pdpt 0 = Pte.rw pd
  others : ∀ t i, t ∉ [pml4, pdpt, pd] → s₁.tables t i = s.tables t i

theorem linkClone_linked {s₀ : State} {parent parentPdpt : Nat}
    (hfr : s.frames.Inv) (huse : ∀ a ∈ [parent, parentPdpt, parentPd], InUse s.frames a)
    (halloc : s.allocFrames 3 = ([pml4, pdpt, pd], s₀)) (hzero : 0 ∉ [pml4, pdpt, pd]) :
    Linked s (linkClone s₀ parent parentPdpt parentPd pml4 pdpt pd) pml4 pdpt pd := by
  obtain ⟨_, htables, hbytes, _⟩ := allocFrames_same 3 s
  have hgrows := allocFrames_grows 3 s hfr (by rwa [halloc])
  rw [halloc] at htables hbytes hgrows
  have hold : ∀ a ∈ [parent, parentPdpt, parentPd], a ∉ [pml4, pdpt, pd] :=
    fun a ha hmem => hgrows.not_inUse hmem (huse a ha)
  obtain ⟨hframes, hbytes', hpml4, hpdpt, _, hothers⟩ := linkClone_spec hgrows.nodup hold rfl
  rw [htables] at hothers
  exact ⟨by rwa [hframes], hbytes'.trans hbytes, hpml4, hpdpt, hothers⟩

theorem low_lt (hp : p < entriesPerTable) : p < userPages := by
  simp only [entriesPerTable, userPages] at *
  omega

theorem high_lt (hp : p < entriesPerTable) : entriesPerTable + p < userPages := by
  simp only [entriesPerTable, userPages] at *
  omega

/-- The references counted for the two tables are those of the shared pages. -/
theorem sharedCount_split (s : State) (D : Dir) (f : Nat) :
    sharedCount s D f = tableShares s (D.pt 0) 0 f + tableShares s (D.pt 1) 1 f := by
  rw [sharedCount, countP_userPages]
  congr 1
  · exact List.countP_congr fun p hp => by rw [leaf_low (List.mem_range.mp hp)]; rfl
  · exact List.countP_congr fun p hp => by rw [leaf_high (List.mem_range.mp hp), pageVa_high]; rfl

/-- The frames of a directory are different. -/
theorem OwnFrames.ne (hD : OwnFrames s D) : D.pd ≠ D.pt0 ∧ D.pd ≠ D.pt1 ∧ D.pt0 ≠ D.pt1 := by
  have hnodup := hD.nodup
  simp only [Dir.frames, List.nodup_cons, List.mem_cons, List.not_mem_nil, or_false, not_or] at hnodup
  exact ⟨hnodup.2.2.1.1, hnodup.2.2.1.2, hnodup.2.2.2.1⟩

theorem OwnFrames.pt (hD : OwnFrames s D) (ti : Nat) : InUse s.frames (D.pt ti) :=
  hD.inUse _ (Dir.pt_mem _ _)

theorem OwnFrames.pagesInUse (hD : OwnFrames s D) : PagesInUse s D.pt0 ∧ PagesInUse s D.pt1 := by
  refine ⟨fun p hp hpresent => ?_, fun p hp hpresent => ?_⟩
  · rw [← leaf_low hp] at hpresent ⊢
    exact hD.pages p (low_lt hp) hpresent
  · rw [← leaf_high hp] at hpresent ⊢
    exact hD.pages _ (high_lt hp) hpresent

theorem Linked.underway (h : Linked s s₁ pml4 pdpt pd) :
    Underway s s₁ [pml4, pdpt, pd] (fun _ => 0) s.tables :=
  ⟨h.frames, fun _ _ => rfl, h.bytes, h.others⟩

/-- The page tables of a clone, on top of linked upper tables. -/
theorem Linked.cloned (h : Linked s s₁ pml4 pdpt pd)
    (hfr : s.frames.Inv) (hchain : Chain s D) (hD : OwnFrames s D)
    (hok : cloneTables D.pd pd (List.range userPdCount) s₁ = (true, s')) : ∃ C, C.pml4 = pml4 ∧ Cloned s s' D C := by
  obtain ⟨s₂, hok₀, hok₁⟩ := cloneTables_true hok
  have hpd : InUse s.frames D.pd := hD.upper _ (by simp)
  obtain ⟨hne0, -, h01⟩ := hD.ne
  obtain ⟨hleaf₀, hleaf₁⟩ := hD.pagesInUse
  -- the first page table, on the frame `pt0`
  obtain ⟨pt0, h₀, hlink₀, hchild₀, hkept₀⟩ := h.underway.cloneTable (by simp) hpd
    (.of_rw (hchain.pd 0 (by decide))) (hD.pt 0) (fun _ => rfl) hleaf₀ hok₀
  -- the second one, on the frame `pt1`
  obtain ⟨pt1, h₁, hlink₁, hchild₁, hkept₁⟩ := h₀.cloneTable (by simp) hpd
    (.of_rw ((if_neg fun e => hne0 e.1).trans (hchain.pd 1 (by decide)))) (hD.pt 1)
    (fun _ => if_neg fun e => h01.symm e.1) hleaf₁ hok₁
  have hnodup := h.frames.nodup
  simp only [List.nodup_cons, List.mem_cons, List.not_mem_nil, or_false, not_or] at hnodup
  have hupper : ∀ t ∈ [pml4, pdpt], t ≠ pd → s'.tables t 0 = s₁.tables t 0 := by
    intro t ht hne
    have hmem : t ∈ [pml4, pdpt, pd] := List.mem_append_left [pd] ht
    rw [hkept₁ t (List.mem_append_left _ hmem) 0 fun e => hne e.1, hkept₀ t hmem 0 fun e => hne e.1]
  refine ⟨⟨pml4, pdpt, pd, pt0, pt1⟩, rfl, ?_, ⟨?_, ?_, ?_, ?_⟩, ?_, ?_, ?_, h₁.bytes⟩
  · exact h₁.frames.congr fun f => by rw [sharedCount_split, Nat.zero_add]
  · exact (hupper pml4 (by simp) hnodup.1.2).trans h.link_pml4
  · exact (hupper pdpt (by simp) hnodup.2.1).trans h.link_pdpt
  · intro ti hti
    rcases (show ti = 0 ∨ ti = 1 by unfold userPdCount at hti; omega) with rfl | rfl
    · exact (hkept₁ pd (by simp) _ fun e => absurd e.2 (by decide)).trans hlink₀
    · exact hlink₁
  · exact fun hmem => h₁.frames.taken_ne_zero hfr hmem rfl
  · intro p hp
    have hold : ∀ {t}, InUse s.frames t → ∀ i, s'.tables t i = _ :=
      fun ht i => h₁.others _ i fun hmem => h₁.frames.not_inUse hmem ht
    rcases userPages_cases hp with hlow | ⟨q, hq, rfl⟩
    · rw [leaf_low hlow, leaf_low hlow]
      exact (hold (hD.pt 0) p).trans ((if_neg fun e => h01 e.1).trans (if_pos ⟨rfl, hlow⟩))
    · rw [leaf_high hq, leaf_high hq, pageVa_high]
      exact (hold (hD.pt 1) q).trans (if_pos ⟨rfl, hq⟩)
  · intro p hp
    rcases userPages_cases hp with hlow | ⟨q, hq, rfl⟩
    · rw [leaf_low hlow, leaf_low hlow]
      refine (hkept₁ pt0 (by simp) p fun e => ?_).trans (hchild₀ p hlow)
      exact (List.nodup_append.mp h₀.frames.nodup).2.2 pd (by simp) pt0 (by simp) e.1.symm
    · rw [leaf_high hq, leaf_high hq, pageVa_high]
      exact hchild₁ q hq
  · intro t i ht ht0 ht1
    exact (h₁.others t i ht).trans ((if_neg fun e => ht1 e.1).trans (if_neg fun e => ht0 e.1))

/-- **A clone as a whole.** -/
theorem cowClone_cloned (hfr : s.frames.Inv) (hchain : Chain s D) (hD : OwnFrames s D)
    (hne : (cowClone s D.pml4).1 ≠ 0) :
    ∃ C, C.pml4 = (cowClone s D.pml4).1 ∧ Cloned s (cowClone s D.pml4).2 D C := by
  obtain ⟨pml4, pdpt, pd, s₀, _, halloc, hzero, hok, heq⟩ := cowClone_some hchain hne
  obtain ⟨C, hC, hcloned⟩ := (linkClone_linked hfr hD.upper halloc hzero).cloned hfr hchain hD hok
  rw [heq]
  exact ⟨C, hC, hcloned⟩

/-- Calls that find enough free frames all succeed. -/
theorem allocFrames_ne_zero (n k : Nat) : ∀ s : State, s.frames.Inv → HasFree s.frames (n + k) →
    0 ∉ (s.allocFrames n).1 := by
  induction n with
  | zero => exact fun s _ _ => List.not_mem_nil
  | succ n ih =>
    intro s hfr hfree hmem
    have hfirst : s.allocFrame.1 ≠ 0 :=
      allocFrame_ne_zero (k := n + k) hfr (by rwa [Nat.add_right_comm] at hfree)
    rcases List.mem_cons.mp hmem with hzero | htail
    · exact hfirst hzero.symm
    · have hgrows := allocFrame_grows hfr hfirst
      have hrest : HasFree s.allocFrame.2.frames (n + k) :=
        HasFree.grows (by rwa [List.length_singleton, ← Nat.add_assoc, Nat.add_comm 1 n]) hgrows
      exact ih s.allocFrame.2 hgrows.inv hrest htail

/-- A page table is cloned if there is a frame for it. -/
theorem cloneTable_true {ti : Nat} (newPd : Nat)
    (hpde : s.tables parentPd (userPdStart + ti) = Pte.rw parentPt) (hsome : s.allocFrame.1 ≠ 0) :
    ∃ s', cloneTable parentPd newPd ti s = (true, s') := by
  rw [cloneTable_eq, if_pos (PointsTo.of_rw hpde).1, if_neg hsome]
  exact ⟨_, rfl⟩

/-- The two page tables of a clone are made if there were five frames. -/
theorem Linked.cloneTables_ok
    (h : Linked s s₁ pml4 pdpt pd) (hchain : Chain s D) (hD : OwnFrames s D)
    (hfree : HasFree s.frames 5) : ∃ s', cloneTables D.pd pd (List.range userPdCount) s₁ = (true, s') := by
  have hpd : InUse s.frames D.pd := hD.upper _ (by simp)
  have hpde : s.tables D.pd (userPdStart + 0) = Pte.rw D.pt0 := hchain.pd 0 (by decide)
  have hpde₁ : s₁.tables D.pd (userPdStart + 0) = Pte.rw D.pt0 :=
    (h.others _ _ fun hmem => h.frames.not_inUse hmem hpd).trans hpde
  have hsome := allocFrame_ne_zero (k := 1) h.frames.inv (HasFree.grows hfree h.frames)
  obtain ⟨s₂, hok₀⟩ := cloneTable_true pd hpde₁ hsome
  obtain ⟨pt0, h₀, -⟩ := h.underway.cloneTable (by simp) hpd (.of_rw hpde) (hD.pt 0) (fun _ => rfl)
    hD.pagesInUse.1 hok₀
  have hpde₂ : s₂.tables D.pd (userPdStart + 1) = Pte.rw D.pt1 :=
    (h₀.others _ _ fun hmem => h₀.frames.not_inUse hmem hpd).trans
      ((if_neg fun e => hD.ne.1 e.1).trans (hchain.pd 1 (by decide)))
  obtain ⟨s₃, hok₁⟩ := cloneTable_true pd hpde₂
    (allocFrame_ne_zero (k := 0) h₀.frames.inv (HasFree.grows hfree h₀.frames))
  refine ⟨s₃, ?_⟩
  rw [show List.range userPdCount = [0, 1] from rfl, cloneTables, hok₀]
  dsimp only
  rw [cloneTables, hok₁]
  rfl

/-- **A clone fails only for lack of frames**: it takes five. -/
theorem cowClone_ne_zero (hfr : s.frames.Inv) (hchain : Chain s D) (hD : OwnFrames s D)
    (hkernel : s.kernelPml4 ≠ 0) (hfree : HasFree s.frames 5) : (cowClone s D.pml4).1 ≠ 0 := by
  have hzero := allocFrames_ne_zero 3 2 s hfr hfree
  obtain ⟨pml4, pdpt, pd, s₀, halloc⟩ : ∃ pml4 pdpt pd s₀, s.allocFrames 3 = ([pml4, pdpt, pd], s₀) :=
    ⟨_, _, _, _, rfl⟩
  rw [halloc] at hzero
  have hlinked := linkClone_linked hfr hD.upper halloc hzero
  obtain ⟨hpml4, hpdpt, hpd⟩ := hchain.upper_ne_zero
  obtain ⟨s₁, hok⟩ := hlinked.cloneTables_ok hchain hD hfree
  unfold cowClone
  simp only [hchain.pml4, hchain.pdpt, Pte.rw_present, Pte.rw_phys, hpml4, hpdpt, hpd, hkernel,
    Bool.not_true, decide_false, Bool.or_self, Bool.false_eq_true, if_false, or_self, halloc, hzero, hok]
  show pml4 ≠ 0
  exact fun heq => hzero (by simp [heq])

end

/-! ## New directories -/

/-- Write the entry of page `p` of a directory. -/
def setLeaf (s : State) (D : Dir) (p : Nat) (e : Pte) : State :=
  s.setEntry (D.pt (p / entriesPerTable)) (p % entriesPerTable) e

/-- One page changes, and no other one of the directory. -/
theorem leaf_setLeaf {s : State} (h01 : D.pt0 ≠ D.pt1) {p q : Nat} (hp : p < userPages)
    (e : Pte) (hq : q < userPages) : leaf (setLeaf s D p e) D q = if q = p then e else leaf s D q := by
  unfold leaf setLeaf
  rw [setEntry_tables]
  have hpt : D.pt (q / entriesPerTable) = D.pt (p / entriesPerTable) ↔
      (p / entriesPerTable = 0 ↔ q / entriesPerTable = 0) := by
    unfold Dir.pt
    by_cases h1 : q / entriesPerTable = 0 <;> by_cases h2 : p / entriesPerTable = 0 <;>
      simp [h1, h2, h01, Ne.symm h01]
  by_cases hqp : q = p
  · subst hqp
    rw [if_pos ⟨rfl, rfl⟩, if_pos rfl]
  · have hne : ¬(_ ∧ q % entriesPerTable = p % entriesPerTable) := fun hc => hqp <| by
      have hdiv := hpt.mp hc.1
      simp only [entriesPerTable, userPages] at *
      omega
    rw [if_neg hne, if_neg hqp]

section

variable {s : State}

/-- The entry of page `p` of a new directory: the page of the region, or nothing at the guard page. -/
def initialEntry (base p : Nat) : Pte :=
  if pageVa 0 p = userStackGuardBase then Pte.zero else Pte.rw (base + p * pageSize)

/-- What a successful `createUserDirectory` leaves. -/
structure Created (s s' : State) (base : Nat) (D : Dir) : Prop where
  frames : Grows s.frames s'.frames D.frames fun _ => 0
  chain : Chain s' D
  pages : ∀ p < userPages, leaf s' D p = initialEntry base p
  others : ∀ t i, t ∉ D.frames → s'.tables t i = s.tables t i
  bytes : s'.bytes = s.bytes

/-- The tables of a new directory are linked. -/
theorem linkUserDirectory_spec (hnodup : D.frames.Nodup)
    (hkernel : ∀ k ∈ [s.kernelPml4, s.kernelPdpt, s.kernelPd0], k ∉ D.frames)
    (hs' : s' = linkUserDirectory s D.pml4 D.pdpt D.pd D.pt0 D.pt1) :
    s'.frames = s.frames ∧ s'.bytes = s.bytes ∧ s'.tables D.pml4 0 = Pte.rw D.pdpt ∧
      s'.tables D.pdpt 0 = Pte.rw D.pd ∧
      (∀ ti < userPdCount, s'.tables D.pd (userPdStart + ti) = Pte.rw (D.pt ti)) ∧
      ∀ t i, t ∉ D.frames → s'.tables t i = s.tables t i := by
  -- the upper tables are made like those of a clone of the kernel's
  have hnew : [D.pml4, D.pdpt, D.pd].Nodup := (List.sublist_append_left _ [D.pt0, D.pt1]).nodup hnodup
  obtain ⟨hframes, hbytes, hpml4, hpdpt, -, hrest⟩ := linkClone_spec hnew
    (fun k hk hmem => hkernel k hk (List.mem_append_left [D.pt0, D.pt1] hmem)) rfl
  have hlink : s' = ((linkClone s s.kernelPml4 s.kernelPdpt s.kernelPd0 D.pml4 D.pdpt D.pd).setEntry D.pd
      userPdStart (Pte.rw D.pt0)).setEntry D.pd (userPdStart + 1) (Pte.rw D.pt1) := hs'
  generalize linkClone s s.kernelPml4 s.kernelPdpt s.kernelPd0 D.pml4 D.pdpt D.pd = s₀ at *
  have hother : ∀ t i, t ≠ D.pd → s'.tables t i = s₀.tables t i := by
    intro t i ht
    rw [hlink, setEntry_tables, if_neg fun h => ht h.1, setEntry_tables, if_neg fun h => ht h.1]
  simp only [List.nodup_cons, List.mem_cons, List.not_mem_nil, or_false, not_or] at hnew
  refine ⟨?_, ?_, (hother _ _ hnew.1.2).trans hpml4, (hother _ _ hnew.2.1).trans hpdpt, fun ti hti => ?_,
    fun t i ht => ?_⟩
  · rw [hlink, setEntry_frames, setEntry_frames, hframes]
  · rw [hlink, setEntry_bytes, setEntry_bytes, hbytes]
  · rcases (show ti = 0 ∨ ti = 1 by unfold userPdCount at hti; omega) with rfl | rfl
    · rw [hlink, setEntry_tables, if_neg fun h => absurd h.2 (by decide), setEntry_tables,
        if_pos ⟨rfl, rfl⟩]
      rfl
    · rw [hlink, setEntry_tables, if_pos ⟨rfl, rfl⟩]
      rfl
  · have hnot : t ∉ [D.pml4, D.pdpt, D.pd] := fun hmem => ht (List.mem_append_left [D.pt0, D.pt1] hmem)
    rw [hother t i fun heq => hnot (by simp [heq]), hrest t i hnot]

/-- One page: its entry is written, unless it is the guard page. -/
theorem mapInitialPage_eq (hp : p < userPages) : mapInitialPage base D.pt0 D.pt1 p s
      = if pageVa 0 p = userStackGuardBase then s else setLeaf s D p (Pte.rw (base + p * pageSize)) := by
  have hva : userBase + p * pageSize = pageVa 0 p := by rw [pageVa, Nat.zero_mul, Nat.zero_add]
  unfold mapInitialPage setLeaf
  rw [hva]
  split
  · rfl
  rcases userPages_cases hp with hlow | ⟨q, hq, rfl⟩
  · rw [if_neg (Nat.not_le_of_lt hlow), Nat.div_eq_of_lt hlow, Nat.mod_eq_of_lt hlow]
    rfl
  · have hpos : 0 < entriesPerTable := Nat.zero_lt_of_lt hq
    rw [if_pos (Nat.le_add_right _ _), Nat.add_sub_cancel_left, Nat.add_div_left q hpos,
      Nat.div_eq_of_lt hq, Nat.add_mod_left, Nat.mod_eq_of_lt hq]
    rfl

/-- The loop that fills the page tables. -/
theorem fillUserPages_spec (h01 : D.pt0 ≠ D.pt1) (base : Nat) :
    (fillUserPages s base D.pt0 D.pt1).frames = s.frames ∧
      (fillUserPages s base D.pt0 D.pt1).bytes = s.bytes ∧
      (∀ p < userPages, leaf (fillUserPages s base D.pt0 D.pt1) D p = initialEntry base p) ∧
      ∀ t i, t ≠ D.pt0 → t ≠ D.pt1 → (fillUserPages s base D.pt0 D.pt1).tables t i = s.tables t i := by
  obtain ⟨hf0, hb0, ht0⟩ := clearTable_spec s D.pt0
  obtain ⟨hf1, hb1, ht1⟩ := clearTable_spec (s.clearTable D.pt0) D.pt1
  unfold fillUserPages
  generalize s.clearTable D.pt0 = s₀ at *
  generalize s₀.clearTable D.pt1 = s₁ at *
  have hsize : userSize / pageSize = userPages := by decide
  rw [hsize]
  -- the invariant: pages below the index have their entry, the others are clear
  let P : Nat → State → Prop := fun k s' => s'.frames = s.frames ∧ s'.bytes = s.bytes ∧
    (∀ p < userPages, leaf s' D p = if p < k then initialEntry base p else Pte.zero) ∧
    ∀ t i, t ≠ D.pt0 → t ≠ D.pt1 → s'.tables t i = s.tables t i
  have hstart : P 0 s₁ := by
    refine ⟨hf1.trans hf0, hb1.trans hb0, fun p hp => ?_, fun t i h0 h1 => ?_⟩
    · rw [if_neg (Nat.not_lt_zero p)]
      rcases userPages_cases hp with hlow | ⟨q, hq, rfl⟩
      · rw [leaf_low hlow, ht1, if_neg fun h => h01 h.1, ht0, if_pos ⟨rfl, hlow⟩]
      · rw [leaf_high hq, ht1, if_pos ⟨rfl, hq⟩]
    · rw [ht1, if_neg fun h => h1 h.1, ht0, if_neg fun h => h0 h.1]
  have hstep : ∀ k s', 0 ≤ k → k < userPages → P k s' → P (k + 1) (mapInitialPage base D.pt0 D.pt1 k s') := by
    rintro k s' _ hk ⟨hframes, hbytes, hpages, hother⟩
    rw [mapInitialPage_eq hk]
    split
    · rename_i hguard
      have hentry : initialEntry base k = Pte.zero := if_pos hguard
      grind
    rename_i hguard
    have hentry : initialEntry base k = Pte.rw (base + k * pageSize) := if_neg hguard
    refine ⟨hframes, hbytes, fun p hp => ?_, fun t i h0 h1 => ?_⟩
    · rw [leaf_setLeaf h01 hk _ hp, hpages p hp, ← hentry]
      grind
    have hpt : t ≠ D.pt (k / entriesPerTable) := by
      unfold Dir.pt
      split
      · exact h0
      · exact h1
    rw [setLeaf, setEntry_tables, if_neg fun hc => hpt hc.1, hother t i h0 h1]
  obtain ⟨hframes, hbytes, hpages, hother⟩ := forRange_inv (P := P) (Nat.zero_le userPages) hstart hstep
  exact ⟨hframes, hbytes, fun p hp => (hpages p hp).trans (if_pos hp), hother⟩

/-- What `createUserDirectory` does when it succeeds. -/
theorem createUserDirectory_some (hne : (createUserDirectory s base).1 ≠ 0) :
    ∃ pml4 pdpt pd pt0 pt1 s₀, s.allocFrames 5 = ([pml4, pdpt, pd, pt0, pt1], s₀) ∧
      0 ∉ [pml4, pdpt, pd, pt0, pt1] ∧
      createUserDirectory s base
        = (pml4, fillUserPages (linkUserDirectory s₀ pml4 pdpt pd pt0 pt1) base pt0 pt1) := by
  unfold createUserDirectory at hne ⊢
  split at hne
  · exact absurd rfl hne
  rename_i hkernel
  rw [if_neg hkernel]
  split at hne
  · rename_i pml4 pdpt pd pt0 pt1 s₀ halloc
    split at hne
    · exact absurd rfl hne
    · rename_i hzero
      exact ⟨pml4, pdpt, pd, pt0, pt1, s₀, halloc, hzero, by rw [if_neg hzero]⟩
  · exact absurd rfl hne

/-- The tables of a new directory, once its frames are taken. -/
theorem filled_created {s₀ : State} (hfr : s.frames.Inv)
    (hgrows : Grows s.frames s₀.frames D.frames fun _ => 0) (htables : s₀.tables = s.tables)
    (hbytes : s₀.bytes = s.bytes)
    (hkernel : ∀ k ∈ [s₀.kernelPml4, s₀.kernelPdpt, s₀.kernelPd0], k ∉ D.frames) :
    Created s (fillUserPages (linkUserDirectory s₀ D.pml4 D.pdpt D.pd D.pt0 D.pt1) base D.pt0 D.pt1)
      base D := by
  obtain ⟨hframes₁, hbytes₁, hpml4, hpdpt, hpd, hother₁⟩ :=
    linkUserDirectory_spec hgrows.nodup hkernel rfl
  have hsep := hgrows.nodup
  simp only [Dir.frames, List.nodup_cons, List.mem_cons, List.not_mem_nil, or_false, not_or] at hsep
  obtain ⟨⟨_, _, h14, h15⟩, ⟨_, h24, h25⟩, ⟨h34, h35⟩, h45, _⟩ := hsep
  obtain ⟨hframes₂, hbytes₂, hpages, hother₂⟩ :=
    fillUserPages_spec (s := linkUserDirectory s₀ D.pml4 D.pdpt D.pd D.pt0 D.pt1) h45 base
  constructor
  · rwa [hframes₂, hframes₁]
  · refine ⟨?_, ?_, fun ti hti => ?_, fun hmem => hgrows.taken_ne_zero hfr hmem rfl⟩
    · rw [hother₂ _ _ h14 h15, hpml4]
    · rw [hother₂ _ _ h24 h25, hpdpt]
    · rw [hother₂ _ _ h34 h35, hpd ti hti]
  · exact hpages
  · intro t i ht
    have hnot := ht
    simp only [Dir.frames, List.mem_cons, List.not_mem_nil, or_false, not_or] at hnot
    rw [hother₂ t i hnot.2.2.2.1 hnot.2.2.2.2, hother₁ t i ht, htables]
  · rw [hbytes₂, hbytes₁, hbytes]

/-- **A new directory as a whole.**  The kernel's tables are in use, so no new table overwrites one. -/
theorem createUserDirectory_created (hfr : s.frames.Inv)
    (hkernel : ∀ k ∈ [s.kernelPml4, s.kernelPdpt, s.kernelPd0], InUse s.frames k)
    (hne : (createUserDirectory s base).1 ≠ 0) :
    ∃ D, D.pml4 = (createUserDirectory s base).1 ∧ Created s (createUserDirectory s base).2 base D := by
  obtain ⟨pml4, pdpt, pd, pt0, pt1, s₀, halloc, hzero, heq⟩ := createUserDirectory_some hne
  obtain ⟨_, htables, hbytes, hk1, hk2, hk3⟩ := allocFrames_same 5 s
  have hgrows := allocFrames_grows 5 s hfr (by rwa [halloc])
  rw [halloc] at htables hbytes hk1 hk2 hk3 hgrows
  rw [heq]
  dsimp only
  refine ⟨⟨pml4, pdpt, pd, pt0, pt1⟩, rfl,
    filled_created (D := ⟨pml4, pdpt, pd, pt0, pt1⟩) hfr hgrows htables hbytes ?_⟩
  rw [hk1, hk2, hk3]
  exact fun k hk hmem => hgrows.not_inUse hmem (hkernel k hk)

/-- A directory is made if there are five frames. -/
theorem createUserDirectory_ne_zero (base : Nat) (hfr : s.frames.Inv)
    (hkernel : ¬(s.kernelPml4 = 0 ∨ s.kernelPdpt = 0 ∨ s.kernelPd0 = 0)) (hfree : HasFree s.frames 5) :
    (createUserDirectory s base).1 ≠ 0 := by
  have hzero := allocFrames_ne_zero 5 0 s hfr hfree
  obtain ⟨pml4, pdpt, pd, pt0, pt1, s₀, halloc⟩ :
      ∃ pml4 pdpt pd pt0 pt1 s₀, s.allocFrames 5 = ([pml4, pdpt, pd, pt0, pt1], s₀) := ⟨_, _, _, _, _, _, rfl⟩
  rw [halloc] at hzero
  unfold createUserDirectory
  rw [if_neg hkernel, halloc]
  dsimp only
  rw [if_neg hzero]
  intro heq
  exact hzero (by simp [show pml4 = 0 from heq])

theorem forRange_kernelPml4 {lo hi : Nat} {body : Nat → State → State}
    (hbody : ∀ i s, (body i s).kernelPml4 = s.kernelPml4) (s : State) :
    (forRange lo hi body s).kernelPml4 = s.kernelPml4 :=
  forRange_keeps (P := fun s' : State => s'.kernelPml4 = s.kernelPml4) (fun i s' h => (hbody i s').trans h) rfl

theorem setEntry_kernelPml4 (s : State) (table idx : Nat) (e : Pte) :
    (s.setEntry table idx e).kernelPml4 = s.kernelPml4 := (rfl)

theorem copyTable_kernelPml4 (s : State) (src dst : Nat) : (s.copyTable src dst).kernelPml4 = s.kernelPml4 :=
  forRange_kernelPml4 (fun _ s => setEntry_kernelPml4 s _ _ _) s

theorem fillUserPages_kernelPml4 (s : State) (base pt0 pt1 : Nat) :
    (fillUserPages s base pt0 pt1).kernelPml4 = s.kernelPml4 := by
  have hclear : ∀ (s : State) table, (s.clearTable table).kernelPml4 = s.kernelPml4 :=
    fun s _ => forRange_kernelPml4 (fun _ s => setEntry_kernelPml4 s _ _ _) s
  unfold fillUserPages
  rw [forRange_kernelPml4, hclear, hclear]
  intro page s
  unfold mapInitialPage
  split
  · rfl
  · split <;> rfl

theorem createUserDirectory_kernelPml4 (hne : (createUserDirectory s base).1 ≠ 0) :
    (createUserDirectory s base).2.kernelPml4 = s.kernelPml4 := by
  obtain ⟨pml4, pdpt, pd, pt0, pt1, s₀, halloc, _, heq⟩ := createUserDirectory_some hne
  have hsame := (allocFrames_same 5 s).2.2.2.1
  rw [halloc] at hsame
  have hsecond := congrArg Prod.snd heq
  dsimp only at hsame hsecond
  simp only [hsecond, fillUserPages_kernelPml4, linkUserDirectory, setEntry_kernelPml4, copyTable_kernelPml4, hsame]

end

end Lyth.Directory
