/-
  Lists of pieces that tile a sequence of intervals.

  A memory manager keeps a list of blocks; each block is a piece `lo b .. hi b` of the address space,
  and the list covers a sequence of regions, each exactly, one after the other.  `Tiles lo hi pos stop
  rs bs` says that the pieces `bs` cover first the rest `pos .. stop` of a current interval and then
  the intervals `rs` in turn.  An interval ends exactly where its last piece does, so the pieces of
  two intervals are never one piece, even if the intervals touch.

  The lemmas are the moves of such a manager: cut a piece in two (`Tiles.cut`), change pieces behind
  a first part of the list (`Tiles.append_congr`), add an interval at the end (`Tiles.snoc`), and what a tiling means
  for its pieces: each lies in one interval (`Tiles.mem`), and no two overlap (`Tiles.pairwise`).
-/
import Mathlib.Data.List.Basic

namespace Lyth.Tiling

/-- A half-open interval of addresses. -/
structure Interval where
  start : Nat
  stop : Nat
deriving DecidableEq

/-- Two half-open ranges do not overlap. -/
def Apart (lo hi lo' hi' : Nat) : Prop := hi ≤ lo' ∨ hi' ≤ lo

instance (lo hi lo' hi' : Nat) : Decidable (Apart lo hi lo' hi') :=
  inferInstanceAs (Decidable (_ ∨ _))

theorem Apart.symm {lo hi lo' hi' : Nat} (h : Apart lo hi lo' hi') : Apart lo' hi' lo hi := Or.symm h

/-- Parts of ranges that do not overlap do not overlap. -/
theorem Apart.mono {lo hi lo' hi' a b a' b' : Nat} (h : Apart lo hi lo' hi') (ha : lo ≤ a)
    (hb : b ≤ hi) (ha' : lo' ≤ a') (hb' : b' ≤ hi') : Apart a b a' b' := by
  rcases h with h | h
  · exact .inl (by omega)
  · exact .inr (by omega)

/-- Two intervals do not overlap. -/
def Interval.Apart (r r' : Interval) : Prop := Tiling.Apart r.start r.stop r'.start r'.stop

section

variable {α : Type} (lo hi : α → Nat)

/-- The pieces cover `pos .. stop`, and then each of the intervals in turn. -/
inductive Tiles : Nat → Nat → List Interval → List α → Prop
  | done {stop : Nat} : Tiles stop stop [] []
  | piece {pos stop : Nat} {rs : List Interval} {b : α} {bs : List α} :
      lo b = pos → pos < hi b → hi b ≤ stop → Tiles (hi b) stop rs bs → Tiles pos stop rs (b :: bs)
  | next {stop : Nat} {r : Interval} {rs : List Interval} {bs : List α} :
      r.start < r.stop → Tiles r.start r.stop rs bs → Tiles stop stop (r :: rs) bs

end

section

variable {α : Type} {lo hi : α → Nat} {pos stop : Nat} {rs : List Interval} {bs : List α} {b : α}

/-- In an interval with room left, the first piece begins where the room does. -/
theorem Tiles.uncons (h : Tiles lo hi pos stop rs (b :: bs)) (hlt : pos < stop) :
    lo b = pos ∧ hi b ≤ stop ∧ Tiles lo hi (hi b) stop rs bs := by
  cases h with
  | piece hlo _ hle hrest => exact ⟨hlo, hle, hrest⟩
  | next _ _ => omega

/-- Each piece lies in the current interval or in one of the later ones. -/
theorem Tiles.mem (h : Tiles lo hi pos stop rs bs) (hb : b ∈ bs) :
    lo b < hi b ∧ ((pos ≤ lo b ∧ hi b ≤ stop) ∨ ∃ r ∈ rs, r.start ≤ lo b ∧ hi b ≤ r.stop) := by
  induction h with
  | done => cases hb
  | piece hlo hlt hle hrest ih =>
    rcases List.mem_cons.mp hb with rfl | hb
    · exact ⟨by omega, .inl ⟨by omega, hle⟩⟩
    · obtain ⟨hne, ⟨h1, h2⟩ | hr⟩ := ih hb
      · exact ⟨hne, .inl ⟨by omega, h2⟩⟩
      · exact ⟨hne, .inr hr⟩
  | next hr hrest ih =>
    obtain ⟨hne, ⟨h1, h2⟩ | ⟨r', hr', hin⟩⟩ := ih hb
    · exact ⟨hne, .inr ⟨_, .head _, h1, h2⟩⟩
    · exact ⟨hne, .inr ⟨r', .tail _ hr', hin⟩⟩

/-- Pieces that tile intervals which do not overlap do not overlap. -/
theorem Tiles.pairwise (h : Tiles lo hi pos stop rs bs)
    (hcur : ∀ r ∈ rs, Apart pos stop r.start r.stop) (hrs : rs.Pairwise Interval.Apart) :
    bs.Pairwise fun a b => Apart (lo a) (hi a) (lo b) (hi b) := by
  induction h with
  | done => exact List.Pairwise.nil
  | piece hlo hlt hle hrest ih =>
    refine List.Pairwise.cons (fun b hb => ?_) (ih (fun r hr => ?_) hrs)
    · rcases (hrest.mem hb).2 with ⟨h1, _⟩ | ⟨r, hr, h1, h2⟩
      · exact .inl h1
      · exact (hcur r hr).mono (by omega) hle h1 h2
    · exact (hcur r hr).mono (by omega) (Nat.le_refl _) (Nat.le_refl _) (Nat.le_refl _)
  | next hr hrest ih =>
    obtain ⟨hfirst, hpair⟩ := List.pairwise_cons.mp hrs
    exact ih (fun r' hr' => hfirst r' hr') hpair

/-- Replacing the pieces by others with the same bounds. -/
theorem Tiles.map (h : Tiles lo hi pos stop rs bs) {f : α → α} (hlo : ∀ b, lo (f b) = lo b)
    (hhi : ∀ b, hi (f b) = hi b) : Tiles lo hi pos stop rs (bs.map f) := by
  induction h with
  | done => exact .done
  | piece h1 h2 h3 _ ih =>
    refine .piece ((hlo _).trans h1) (by rwa [hhi]) (by rwa [hhi]) ?_
    rwa [hhi]
  | next hr _ ih => exact .next hr ih

/-- The pieces behind some first ones may be replaced by any others that cover the same. -/
theorem Tiles.append_congr {pre l l' : List α} (h : Tiles lo hi pos stop rs (pre ++ l))
    (hl : ∀ {pos stop : Nat} {rs : List Interval}, Tiles lo hi pos stop rs l → Tiles lo hi pos stop rs l') :
    Tiles lo hi pos stop rs (pre ++ l') := by
  obtain ⟨bs, hbs⟩ : ∃ bs, pre ++ l = bs := ⟨_, rfl⟩
  rw [hbs] at h
  induction h generalizing pre with
  | done =>
    obtain ⟨rfl, rfl⟩ := List.append_eq_nil_iff.mp hbs
    exact hl .done
  | piece h1 h2 h3 hrest ih =>
    rcases pre with _ | ⟨c, pre⟩
    · subst hbs
      exact hl (.piece h1 h2 h3 hrest)
    · obtain ⟨rfl, htail⟩ := List.cons.inj hbs
      exact .piece h1 h2 h3 (ih htail)
  | next hr _ ih => exact .next hr (ih hbs)

/-- Replacing the first piece by one with the same bounds. -/
theorem Tiles.head_congr {c : α} (h : Tiles lo hi pos stop rs (b :: bs)) (hlo : lo c = lo b)
    (hhi : hi c = hi b) : Tiles lo hi pos stop rs (c :: bs) := by
  obtain ⟨l, hl⟩ : ∃ l, b :: bs = l := ⟨_, rfl⟩
  rw [hl] at h
  induction h with
  | done => cases hl
  | piece h1 h2 h3 hrest _ =>
    cases hl
    refine .piece (by omega) (by omega) (by omega) ?_
    rwa [hhi]
  | next hr _ ih => exact .next hr (ih hl)

/-- Cutting the first piece in two. -/
theorem Tiles.cut {b₁ b₂ : α} (h : Tiles lo hi pos stop rs (b :: bs)) (h₁ : lo b₁ = lo b)
    (hm : hi b₁ = lo b₂) (h₂ : hi b₂ = hi b) (hne₁ : lo b₁ < hi b₁) (hne₂ : lo b₂ < hi b₂) :
    Tiles lo hi pos stop rs (b₁ :: b₂ :: bs) := by
  obtain ⟨l, hl⟩ : ∃ l, b :: bs = l := ⟨_, rfl⟩
  rw [hl] at h
  induction h with
  | done => cases hl
  | piece hlo hlt hle hrest _ =>
    cases hl
    refine .piece (by omega) (by omega) (by omega) (.piece (by omega) (by omega) (by omega) ?_)
    rwa [h₂]
  | next hr _ ih => exact .next hr (ih hl)

/-- One more interval at the end, covered by one piece. -/
theorem Tiles.snoc (h : Tiles lo hi pos stop rs bs) {r : Interval} (hlt : r.start < r.stop)
    (hlo : lo b = r.start) (hhi : hi b = r.stop) : Tiles lo hi pos stop (rs ++ [r]) (bs ++ [b]) := by
  induction h with
  | done => exact .next hlt (.piece hlo (by omega) (by omega) (by rw [hhi]; exact .done))
  | piece h1 h2 h3 _ ih => exact .piece h1 h2 h3 ih
  | next hr _ ih => exact .next hr ih

end

end Lyth.Tiling
