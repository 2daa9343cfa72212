/-
  Shared frames with reference counts, and the private memories they stand for.

  A `Store` has a list of spaces; each maps some of `n` pages to frames, writable or not, and each
  frame has a reference count and contents.  Several pages may map one frame.

  1. **Operations** — what a manager with copy-on-write may do, each as a relation between the store
     before and after, which says nothing about frames no page maps: `Forks` (a new space shares the
     pages of an old one, read-only on both sides), `Remaps` (a page becomes writable, in place or on a
     frame of its own) and `Drops` (a space goes away); and a write through a writable page.

  2. **Specification** — `Inv n s spec`: each page of a space `d` holds what `spec d` says, where `spec`
     are memories that share NOTHING; the count of a mapped frame is the number of its mappings; and
     a writable page is the only one of its frame.

  3. **The crux** — the count of a frame splits into the mappings at one page and those elsewhere
     (`count_split`), so each operation changes it by what it does to one page or one space; and two
     different mappings of a frame make the count at least 2 (`two_le_count`), which is why a write
     through a writable page is seen through no other one.
-/
import Mathlib.Algebra.Order.Ring.Nat
import Mathlib.Algebra.BigOperators.Group.List.Lemmas
import Mathlib.Data.List.Count

namespace Lyth.Cow

open Function

variable {ι φ β : Type} [DecidableEq φ] {w : Bool}

/-- Where a space's pages are: a frame, and whether it may be written through this page. -/
abbrev View (φ : Type) := Nat → Option (φ × Bool)

/-- Spaces that share frames. -/
structure Store (ι φ β : Type) where
  spaces : List ι
  view : ι → View φ
  rc : φ → Nat
  mem : φ → β

/-- Page `p` is mapped to frame `f`. -/
def maps (v : View φ) (f : φ) (p : Nat) : Bool := decide ((v p).map Prod.fst = some f)

/-- The number of pages of a space that map `f`. -/
def countIn (n : Nat) (v : View φ) (f : φ) : Nat := (List.range n).countP (maps v f)

/-- The number of pages of all spaces that map `f`. -/
def count (n : Nat) (s : Store ι φ β) (f : φ) : Nat :=
  (s.spaces.map fun d => countIn n (s.view d) f).sum

/-- The store stands for the private memories `spec`. -/
structure Inv (n : Nat) (s : Store ι φ β) (spec : ι → Nat → β) : Prop where
  nodup : s.spaces.Nodup
  counts : ∀ f, 0 < count n s f → s.rc f = count n s f
  exclusive : ∀ d ∈ s.spaces, ∀ p < n, ∀ f, s.view d p = some (f, true) → count n s f = 1
  content : ∀ d ∈ s.spaces, ∀ p < n, ∀ f w, s.view d p = some (f, w) → s.mem f = spec d p

/-! ## Counting mappings -/

section

variable {n p q : Nat} {v v' : View φ} {f : φ} {s s' : Store ι φ β} {d e : ι}

theorem maps_iff : maps v f p ↔ ∃ w, v p = some (f, w) := by
  rw [maps, decide_eq_true_iff, Option.map_eq_some_iff]
  constructor
  · rintro ⟨⟨g, w⟩, hv, rfl⟩
    exact ⟨w, hv⟩
  · rintro ⟨w, hv⟩
    exact ⟨(f, w), hv, rfl⟩

/-- The mappings of a frame: at one page, and at the others. -/
theorem countIn_split (hp : p < n) :
    countIn n v f = (if maps v f p then 1 else 0) + ((List.range n).erase p).countP (maps v f) := by
  have hperm := List.perm_cons_erase (List.mem_range.mpr hp)
  rw [countIn, hperm.countP_eq, List.countP_cons, Nat.add_comm]

theorem countIn_congr (h : ∀ q < n, maps v' f q = maps v f q) : countIn n v' f = countIn n v f :=
  List.countP_congr fun q hq => by rw [h q (List.mem_range.mp hq)]

theorem countIn_pos (hp : p < n) (h : maps v f p) : 0 < countIn n v f :=
  List.countP_pos_iff.mpr ⟨p, List.mem_range.mpr hp, h⟩

/-- A page that differs at `p` only. -/
theorem countIn_update (hp : p < n) (h : ∀ q < n, q ≠ p → v' q = v q) :
    countIn n v' f + (if maps v f p then 1 else 0) = countIn n v f + (if maps v' f p then 1 else 0) := by
  have hrest : ((List.range n).erase p).countP (maps v' f) = ((List.range n).erase p).countP (maps v f) := by
    refine List.countP_congr fun q hq => ?_
    obtain ⟨hne, hmem⟩ := (List.nodup_range.mem_erase_iff).mp hq
    rw [maps, maps, h q (List.mem_range.mp hmem) hne]
  rw [countIn_split hp, countIn_split hp]
  omega

variable [DecidableEq ι]

/-- The mappings of a frame: in one space, and in the others. -/
theorem count_split (hd : d ∈ s.spaces) : count n s f = countIn n (s.view d) f
      + ((s.spaces.erase d).map fun e => countIn n (s.view e) f).sum :=
  (List.sum_map_erase (fun e => countIn n (s.view e) f) hd).symm

/-- The mappings outside `d` do not change if the other spaces do not. -/
theorem rest_congr (hnodup : s.spaces.Nodup)
    (h : ∀ e ∈ s.spaces, e ≠ d → ∀ q < n, s'.view e q = s.view e q) :
    ((s.spaces.erase d).map fun e => countIn n (s'.view e) f).sum
      = ((s.spaces.erase d).map fun e => countIn n (s.view e) f).sum := by
  refine congrArg List.sum (List.map_congr_left fun e he => ?_)
  obtain ⟨hne, hmem⟩ := hnodup.mem_erase_iff.mp he
  exact countIn_congr fun q hq => by rw [maps, maps, h e hmem hne q hq]

theorem count_pos (hd : d ∈ s.spaces) (hp : p < n) (h : maps (s.view d) f p) : 0 < count n s f :=
  (countIn_pos hp h).trans_le (by rw [count_split hd]; exact Nat.le_add_right _ _)

/-- A mapping in another space counts on top. -/
theorem countIn_lt_count (hnodup : s.spaces.Nodup) (hd : d ∈ s.spaces) (he : e ∈ s.spaces)
    (hne : d ≠ e) (hq : q < n) (h : maps (s.view e) f q) :
    countIn n (s.view d) f < count n s f := by
  have hmem : e ∈ s.spaces.erase d := hnodup.mem_erase_iff.mpr ⟨Ne.symm hne, he⟩
  have hpos : 0 < countIn n (s.view e) f := countIn_pos hq h
  have hrest := List.sum_map_erase (fun e => countIn n (s.view e) f) hmem
  rw [count_split hd]
  omega

/-- **Two mappings count twice.** -/
theorem two_le_count (hnodup : s.spaces.Nodup) (hd : d ∈ s.spaces) (he : e ∈ s.spaces) (hp : p < n)
    (hq : q < n) (hne : d ≠ e ∨ p ≠ q) (h : maps (s.view d) f p)
    (h' : maps (s.view e) f q) : 2 ≤ count n s f := by
  by_cases hde : d = e
  · subst hde
    have hqp : q ≠ p := fun heq => (hne.resolve_left fun h => h rfl) heq.symm
    have hmem : q ∈ (List.range n).erase p :=
      (List.nodup_range.mem_erase_iff).mpr ⟨hqp, List.mem_range.mpr hq⟩
    have hrest : 0 < ((List.range n).erase p).countP (maps (s.view d) f) :=
      List.countP_pos_iff.mpr ⟨q, hmem, h'⟩
    rw [count_split hd, countIn_split hp, if_pos h]
    omega
  · have hone : 0 < countIn n (s.view d) f := countIn_pos hp h
    have hmore := countIn_lt_count hnodup hd he hde hq h'
    omega

/-- A frame counted once has one mapping. -/
theorem unique_of_count (hnodup : s.spaces.Nodup) (hone : count n s f = 1) (hd : d ∈ s.spaces)
    (he : e ∈ s.spaces) (hp : p < n) (hq : q < n) (h : maps (s.view d) f p)
    (h' : maps (s.view e) f q) : d = e ∧ p = q := by
  by_contra hne
  have htwo := two_le_count hnodup hd he hp hq (not_and_or.mp hne) h h'
  omega

end

/-! ## Operations -/

section

variable {n p : Nat} {s s' : Store ι φ β} {spec : ι → Nat → β} {d c : ι} {f g : φ}

/-- The frame is mapped somewhere. -/
def Mapped (n : Nat) (s : Store ι φ β) (f : φ) : Prop := 0 < count n s f

/-- A mapped frame has a page. -/
theorem Mapped.exists_page (h : Mapped n s f) : ∃ d ∈ s.spaces, ∃ p < n, maps (s.view d) f p := by
  by_contra hnone
  refine Nat.lt_irrefl 0 (Nat.lt_of_lt_of_eq h (List.sum_eq_zero fun k hk => ?_))
  obtain ⟨d, hd, rfl⟩ := List.mem_map.mp hk
  exact List.countP_eq_zero.mpr fun p hp hmaps => hnone ⟨d, hd, p, List.mem_range.mp hp, hmaps⟩

/-- **One space with private frames.**  Each frame has one page and is counted once. -/
theorem Inv.single (hspaces : s.spaces = [d])
    (hinj : ∀ p < n, ∀ q < n, ∀ f, maps (s.view d) f p → maps (s.view d) f q → p = q)
    (hrc : ∀ p < n, ∀ f, maps (s.view d) f p → s.rc f = 1)
    (hcontent : ∀ p < n, ∀ f w, s.view d p = some (f, w) → s.mem f = spec d p) : Inv n s spec := by
  have hcount : ∀ f, count n s f = countIn n (s.view d) f := by
    intro f
    rw [count, hspaces, List.map_singleton, List.sum_singleton]
  have hone : ∀ p < n, ∀ f, maps (s.view d) f p → count n s f = 1 := by
    intro p hp f hmaps
    have hrest : ((List.range n).erase p).countP (maps (s.view d) f) = 0 := by
      refine List.countP_eq_zero.mpr fun q hq hmaps' => ?_
      obtain ⟨hne, hq⟩ := List.nodup_range.mem_erase_iff.mp hq
      exact hne (hinj q (List.mem_range.mp hq) p hp f hmaps' hmaps)
    rw [hcount, countIn_split hp, if_pos hmaps, hrest]
  have hmem : ∀ e ∈ s.spaces, e = d := by
    rw [hspaces]
    exact fun e he => List.mem_singleton.mp he
  constructor
  · rw [hspaces]
    exact List.nodup_singleton d
  · intro f hpos
    obtain ⟨e, he, p, hp, hmaps⟩ := Mapped.exists_page hpos
    obtain rfl := hmem e he
    rw [hrc p hp f hmaps, hone p hp f hmaps]
  · intro e he p hp f hview
    obtain rfl := hmem e he
    exact hone p hp f (maps_iff.mpr ⟨true, hview⟩)
  · intro e he p hp f w hview
    obtain rfl := hmem e he
    exact hcontent p hp f w hview

/-- The pages of `d` that are `shared` become read-only and are mapped by the new space `c` too; it
    has no others. -/
structure Forks (n : Nat) (s s' : Store ι φ β) (d c : ι) (shared : Nat → Bool) : Prop where
  parent_mem : d ∈ s.spaces
  child_new : c ∉ s.spaces
  spaces : s'.spaces = c :: s.spaces
  parent : ∀ p < n, s'.view d p = if shared p then (s.view d p).map fun m => (m.1, false) else s.view d p
  child : ∀ p < n, s'.view c p = if shared p then (s.view d p).map fun m => (m.1, false) else none
  others : ∀ e ∈ s.spaces, e ≠ d → ∀ p < n, s'.view e p = s.view e p
  rc : ∀ f, Mapped n s f → s'.rc f = s.rc f + countIn n (s'.view c) f
  mem : ∀ f, Mapped n s f → s'.mem f = s.mem f

variable {shared : Nat → Bool}

theorem Forks.child_maps (h : Forks n s s' d c shared) (hp : p < n)
    (hmaps : maps (s'.view c) f p) : shared p ∧ maps (s.view d) f p := by
  rw [maps, h.child p hp] at hmaps
  by_cases hs : shared p
  · rw [if_pos hs, Option.map_map, decide_eq_true_iff] at hmaps
    exact ⟨hs, decide_eq_true hmaps⟩
  · rw [if_neg hs] at hmaps
    cases hmaps

theorem Forks.parent_maps (h : Forks n s s' d c shared) (hp : p < n) :
    maps (s'.view d) f p = maps (s.view d) f p := by
  rw [maps, h.parent p hp]
  split
  · rw [Option.map_map]
    rfl
  · rfl

variable [DecidableEq ι]

/-- The child's mappings come on top of the ones there were. -/
theorem Forks.count (h : Forks n s s' d c shared) (hnodup : s.spaces.Nodup)
    (f : φ) : count n s' f = countIn n (s'.view c) f + count n s f := by
  have hold : (s.spaces.map fun e => countIn n (s'.view e) f).sum = Cow.count n s f := by
    rw [count_split h.parent_mem, ← List.sum_map_erase _ h.parent_mem,
      rest_congr hnodup fun e he hne => h.others e he hne,
      countIn_congr fun q hq => h.parent_maps hq]
  rw [Cow.count, h.spaces, List.map_cons, List.sum_cons, hold]

theorem Forks.mapped (h : Forks n s s' d c shared) (hnodup : s.spaces.Nodup)
    (hf : Mapped n s' f) : Mapped n s f := by
  rw [Mapped, h.count hnodup] at hf
  by_cases hchild : 0 < countIn n (s'.view c) f
  · obtain ⟨p, hp, hmaps⟩ := List.countP_pos_iff.mp hchild
    exact count_pos h.parent_mem (List.mem_range.mp hp) (h.child_maps (List.mem_range.mp hp) hmaps).2
  · rw [Mapped]
    omega

/-- **A fork copies the memory.** -/
theorem Forks.inv (h : Forks n s s' d c shared) (hs : Inv n s spec) :
    Inv n s' (update spec c (spec d)) := by
  constructor
  · rw [h.spaces]
    exact List.nodup_cons.mpr ⟨h.child_new, hs.nodup⟩
  · intro f hf
    have hmapped := h.mapped hs.nodup hf
    rw [h.rc f hmapped, hs.counts f hmapped, h.count hs.nodup]
    omega
  · -- a page still writable was not shared, so the child has no page of its frame
    intro e he p hp f hview
    have hne : e ≠ c := by
      rintro rfl
      rw [h.child p hp] at hview
      split at hview
      · obtain ⟨m, _, hm⟩ := Option.map_eq_some_iff.mp hview
        cases hm
      · cases hview
    have he' : e ∈ s.spaces := by
      rw [h.spaces] at he
      exact (List.mem_cons.mp he).resolve_left hne
    have hold : s.view e p = some (f, true) ∧ (e = d → shared p = false) := by
      by_cases hed : e = d
      · subst hed
        rw [h.parent p hp] at hview
        cases hs : shared p with
        | false => exact ⟨by simpa [hs] using hview, fun _ => rfl⟩
        | true =>
          rw [if_pos hs] at hview
          obtain ⟨m, _, hm⟩ := Option.map_eq_some_iff.mp hview
          cases hm
      · exact ⟨(h.others e he' hed p hp).symm.trans hview, fun heq => absurd heq hed⟩
    have hone := hs.exclusive e he' p hp f hold.1
    have hchild : countIn n (s'.view c) f = 0 := by
      refine List.countP_eq_zero.mpr fun q hq hmaps => ?_
      have hq := List.mem_range.mp hq
      obtain ⟨hshared, hparent⟩ := h.child_maps hq hmaps
      obtain ⟨hde, hpq⟩ := unique_of_count hs.nodup hone h.parent_mem he' hq hp hparent
        (maps_iff.mpr ⟨true, hold.1⟩)
      rw [hpq, hold.2 hde.symm] at hshared
      cases hshared
    rw [h.count hs.nodup, hchild, hone]
  · intro e he p hp f w hview
    have hmapped : Mapped n s f := h.mapped hs.nodup (count_pos he hp (maps_iff.mpr ⟨w, hview⟩))
    rw [h.mem f hmapped]
    by_cases hec : e = c
    · subst hec
      obtain ⟨_, hmaps⟩ := h.child_maps hp (maps_iff.mpr ⟨w, hview⟩)
      obtain ⟨w', hview'⟩ := maps_iff.mp hmaps
      rw [update_self]
      exact hs.content d h.parent_mem p hp f w' hview'
    rw [update_of_ne hec]
    rw [h.spaces] at he
    have he' := (List.mem_cons.mp he).resolve_left hec
    by_cases hed : e = d
    · subst hed
      have hmaps : maps (s.view e) f p := by
        rw [← h.parent_maps hp]
        exact maps_iff.mpr ⟨w, hview⟩
      obtain ⟨w', hview'⟩ := maps_iff.mp hmaps
      exact hs.content e he' p hp f w' hview'
    · exact hs.content e he' p hp f w ((h.others e he' hed p hp).symm.trans hview)

/-- Page `p` of space `d` changes to `m`; every other page stays. -/
structure Remaps (n : Nat) (s s' : Store ι φ β) (d : ι) (p : Nat) (m : φ × Bool) : Prop where
  mem_spaces : d ∈ s.spaces
  lt : p < n
  spaces : s'.spaces = s.spaces
  view : s'.view d p = some m
  pages : ∀ q < n, q ≠ p → s'.view d q = s.view d q
  others : ∀ e ∈ s.spaces, e ≠ d → ∀ q < n, s'.view e q = s.view e q

/-- The count of each frame changes by what the page maps before and after. -/
theorem Remaps.count {m : φ × Bool} (h : Remaps n s s' d p m) (hnodup : s.spaces.Nodup)
    (hview : s.view d p = some (f, w)) (a : φ) :
    count n s' a + (if f = a then 1 else 0) = Cow.count n s a + (if m.1 = a then 1 else 0) := by
  have hd' : d ∈ s'.spaces := by rw [h.spaces]; exact h.mem_spaces
  have hpage := countIn_update (f := a) h.lt h.pages
  have hmaps : ∀ {v : View φ} {m : φ × Bool}, v p = some m → maps v a p = decide (m.1 = a) := by
    intro v m hv
    rw [maps, hv]
    simp
  rw [hmaps h.view, hmaps hview] at hpage
  rw [count_split h.mem_spaces, count_split hd', h.spaces,
    rest_congr hnodup fun e he hne => h.others e he hne]
  simp only [decide_eq_true_eq] at hpage
  omega

omit [DecidableEq φ] in
/-- A page of the store after is the changed one or a page of the store before. -/
theorem Remaps.cases {m m' : φ × Bool} (h : Remaps n s s' d p m) {e : ι} {q : Nat}
    (he : e ∈ s'.spaces) (hq : q < n) (hview : s'.view e q = some m') :
    (e = d ∧ q = p ∧ m' = m) ∨ ((e ≠ d ∨ q ≠ p) ∧ e ∈ s.spaces ∧ s.view e q = some m') := by
  rw [h.spaces] at he
  by_cases hed : e = d
  · subst hed
    by_cases hqp : q = p
    · subst hqp
      exact .inl ⟨rfl, rfl, (Option.some.inj (h.view.symm.trans hview)).symm⟩
    · exact .inr ⟨.inr hqp, he, (h.pages q hq hqp).symm.trans hview⟩
  · exact .inr ⟨.inl hed, he, (h.others e he hed q hq).symm.trans hview⟩

/-- **The last sharer may write.** The only mapping of a frame becomes writable. -/
theorem Remaps.upgrade_inv (h : Remaps n s s' d p (f, true)) (hs : Inv n s spec)
    (hview : s.view d p = some (f, w)) (hrc : s.rc f = 1) (hrc' : s'.rc = s.rc)
    (hmem' : s'.mem = s.mem) : Inv n s' spec := by
  have hmaps : maps (s.view d) f p := maps_iff.mpr ⟨w, hview⟩
  have hcount : ∀ g, Cow.count n s' g = Cow.count n s g :=
    fun g => Nat.add_right_cancel (h.count hs.nodup hview g)
  have hone : Cow.count n s f = 1 := by
    rw [← hs.counts f (count_pos h.mem_spaces h.lt hmaps), hrc]
  constructor
  · rw [h.spaces]
    exact hs.nodup
  · intro g hg
    rw [hcount] at hg ⊢
    rw [hrc']
    exact hs.counts g hg
  · intro e he q hq g hg
    rw [hcount]
    rcases h.cases he hq hg with ⟨_, _, heq⟩ | ⟨_, he', hold⟩
    · cases heq
      exact hone
    · exact hs.exclusive e he' q hq g hold
  · intro e he q hq g w' hg
    rw [hmem']
    rcases h.cases he hq hg with ⟨rfl, rfl, heq⟩ | ⟨_, he', hold⟩
    · cases heq
      exact hs.content e h.mem_spaces q hq f w hview
    · exact hs.content e he' q hq g w' hold

/-- **A page moves to a copy.** The frame `g`, which no page maps, gets the contents and the page. -/
theorem Remaps.copy_inv (h : Remaps n s s' d p (g, true)) (hs : Inv n s spec)
    (hview : s.view d p = some (f, w)) (hfresh : ¬ Mapped n s g) (hrcg : s'.rc g = 1)
    (hrcf : Mapped n s' f → s'.rc f = s.rc f - 1)
    (hrc : ∀ a, Mapped n s a → a ≠ f → s'.rc a = s.rc a) (hmemg : s'.mem g = s.mem f)
    (hmem : ∀ a, Mapped n s a → s'.mem a = s.mem a) : Inv n s' spec := by
  have hmaps : maps (s.view d) f p := maps_iff.mpr ⟨w, hview⟩
  have hmapped : Mapped n s f := count_pos h.mem_spaces h.lt hmaps
  have hne : g ≠ f := fun heq => hfresh (heq ▸ hmapped)
  have hzero : Cow.count n s g = 0 := Nat.eq_zero_of_not_pos hfresh
  have hcount : ∀ a, Cow.count n s' a + (if f = a then 1 else 0)
      = Cow.count n s a + (if g = a then 1 else 0) := h.count hs.nodup hview
  have hcountg : Cow.count n s' g = 1 := by
    have hg := hcount g
    rw [if_neg (Ne.symm hne), if_pos rfl] at hg
    omega
  have hcountf : Cow.count n s' f + 1 = Cow.count n s f := by
    have hf := hcount f
    rw [if_pos rfl, if_neg hne] at hf
    omega
  have hsame : ∀ a, a ≠ f → a ≠ g → Cow.count n s' a = Cow.count n s a := by
    intro a haf hag
    have ha := hcount a
    rw [if_neg (Ne.symm haf), if_neg (Ne.symm hag)] at ha
    omega
  constructor
  · rw [h.spaces]
    exact hs.nodup
  · intro a ha
    by_cases hag : a = g
    · rw [hag, hrcg, hcountg]
    by_cases haf : a = f
    · subst haf
      rw [hrcf ha, hs.counts a hmapped]
      omega
    · have ha' : Mapped n s a := by rwa [Mapped, ← hsame a haf hag]
      rw [hrc a ha' haf, hs.counts a ha', hsame a haf hag]
  · intro e he q hq a ha
    rcases h.cases he hq ha with ⟨_, _, heq⟩ | ⟨hother, he', hold⟩
    · cases heq
      exact hcountg
    have hone := hs.exclusive e he' q hq a hold
    have hmaps' : maps (s.view e) a q := maps_iff.mpr ⟨true, hold⟩
    have hag : a ≠ g := fun heq => hfresh (heq ▸ count_pos he' hq hmaps')
    -- another page of `f` that is writable would be its only one
    have haf : a ≠ f := by
      rintro rfl
      obtain ⟨hed, hqp⟩ := unique_of_count hs.nodup hone he' h.mem_spaces hq h.lt hmaps' hmaps
      exact hother.elim (fun hne => hne hed) fun hne => hne hqp
    rw [hsame a haf hag, hone]
  · intro e he q hq a w' ha
    rcases h.cases he hq ha with ⟨rfl, rfl, heq⟩ | ⟨_, he', hold⟩
    · cases heq
      rw [hmemg]
      exact hs.content e h.mem_spaces q hq f w hview
    · rw [hmem a (count_pos he' hq (maps_iff.mpr ⟨w', hold⟩))]
      exact hs.content e he' q hq a w' hold

/-- **A write is private.** Contents written through a writable page appear at that page only. -/
theorem write_inv {x : β} (hs : Inv n s spec) (hd : d ∈ s.spaces) (hp : p < n)
    (hview : s.view d p = some (f, true)) :
    Inv n { s with mem := update s.mem f x } (update spec d (update (spec d) p x)) := by
  refine ⟨hs.nodup, hs.counts, hs.exclusive, fun e he q hq a w ha => ?_⟩
  have hone := hs.exclusive d hd p hp f hview
  have hmaps : maps (s.view d) f p := maps_iff.mpr ⟨true, hview⟩
  have hmaps' : maps (s.view e) a q := maps_iff.mpr ⟨w, ha⟩
  show update s.mem f x a = _
  by_cases haf : a = f
  · subst haf
    obtain ⟨rfl, rfl⟩ := unique_of_count hs.nodup hone hd he hp hq hmaps hmaps'
    rw [update_self, update_self, update_self]
  rw [update_of_ne haf, hs.content e he q hq a w ha]
  by_cases hed : e = d
  · subst hed
    rw [update_self]
    by_cases hqp : q = p
    · subst hqp
      exact absurd (congrArg Prod.fst (Option.some.inj (ha.symm.trans hview))) haf
    · rw [update_of_ne hqp]
  · rw [update_of_ne hed]

/-- Space `d` goes away, and each frame still mapped loses its mappings. -/
structure Drops (n : Nat) (s s' : Store ι φ β) (d : ι) : Prop where
  mem_spaces : d ∈ s.spaces
  spaces : s'.spaces = s.spaces.erase d
  others : ∀ e ∈ s.spaces, e ≠ d → ∀ p < n, s'.view e p = s.view e p
  rc : ∀ f, Mapped n s' f → s'.rc f = s.rc f - countIn n (s.view d) f
  mem : ∀ f, Mapped n s' f → s'.mem f = s.mem f

theorem Drops.count (h : Drops n s s' d) (hnodup : s.spaces.Nodup) (f : φ) :
    countIn n (s.view d) f + count n s' f = Cow.count n s f := by
  rw [count_split h.mem_spaces, Cow.count, h.spaces, rest_congr hnodup fun e he hne => h.others e he hne]

/-- **Dropping a space** leaves the others. -/
theorem Drops.inv (h : Drops n s s' d) (hs : Inv n s spec) : Inv n s' spec := by
  have hold : ∀ {e : ι}, e ∈ s'.spaces → e ∈ s.spaces ∧ e ≠ d := by
    intro e he
    rw [h.spaces] at he
    obtain ⟨hne, hmem⟩ := hs.nodup.mem_erase_iff.mp he
    exact ⟨hmem, hne⟩
  constructor
  · rw [h.spaces]
    exact hs.nodup.erase d
  · intro f hf
    have hcount := h.count hs.nodup f
    have hmapped : Mapped n s f := Nat.lt_of_lt_of_le hf (by omega)
    rw [h.rc f hf, hs.counts f hmapped]
    omega
  · intro e he p hp f hview
    obtain ⟨he', hne⟩ := hold he
    have hview' := (h.others e he' hne p hp).symm.trans hview
    have hone := hs.exclusive e he' p hp f hview'
    have hcount := h.count hs.nodup f
    have hpos : 0 < Cow.count n s' f := count_pos he hp (maps_iff.mpr ⟨true, hview⟩)
    omega
  · intro e he p hp f w hview
    obtain ⟨he', hne⟩ := hold he
    rw [h.mem f (count_pos he hp (maps_iff.mpr ⟨w, hview⟩))]
    exact hs.content e he' p hp f w ((h.others e he' hne p hp).symm.trans hview)

end

end Lyth.Cow
