/-
  THE DIRTY LIST (`gui/compositor.c`).

    1. The program.  `gui_dirty_add` clips a rectangle to the screen, merges it into the FIRST listed one that it
       overlaps, or else appends it; when the list is full, the whole screen takes the place of everything.
       For coordinates and sizes below 2^29 no sum leaves an `int` (`clipAxis_isInt`, `Fits.isInt`).
    2. Specification.  `Good`: the list is no longer than `GUI_MAX_DIRTY`, and its rectangles are not empty and lie
       on the screen.  What was passed to a call and is on the screen is covered from then on.
    3. Crux.  No case uncovers a pixel: the union covers both, and the whole screen covers what is on it.
-/
import Lyth.Lib.Run
import Lyth.Lib.Word
import Mathlib.Algebra.Order.Ring.Int

namespace Lyth.Dirty

open Run Word

def guiMaxDirty : Nat := 64

/-- `gui_dirty_rect_t`. -/
structure Rect where
  x : Int
  y : Int
  w : Int
  h : Int

/-- `dirty_list`, of `dirty_count` entries, and `need_compose`, for a screen of `scr_w` by `scr_h`. -/
structure State where
  scrW : Int
  scrH : Int
  list : List Rect
  needCompose : Bool

/-- One axis of `rect_clip`. -/
def clipAxis (scr x w : Int) : Int × Int :=
  let w := if x < 0 then w + x else w
  let x := if x < 0 then 0 else x
  let w := if x + w > scr then scr - x else w
  (x, if w < 0 then 0 else w)

def rectClip (s : State) (r : Rect) : Rect where
  x := (clipAxis s.scrW r.x r.w).1
  y := (clipAxis s.scrH r.y r.h).1
  w := (clipAxis s.scrW r.x r.w).2
  h := (clipAxis s.scrH r.y r.h).2

def rectsOverlap (a b : Rect) : Bool :=
  !(a.x + a.w ≤ b.x || b.x + b.w ≤ a.x || a.y + a.h ≤ b.y || b.y + b.h ≤ a.y)

def rectUnion (a b : Rect) : Rect where
  x := if a.x < b.x then a.x else b.x
  y := if a.y < b.y then a.y else b.y
  w := (if a.x + a.w > b.x + b.w then a.x + a.w else b.x + b.w) - if a.x < b.x then a.x else b.x
  h := (if a.y + a.h > b.y + b.h then a.y + a.h else b.y + b.h) - if a.y < b.y then a.y else b.y

/-- The merge loop: the list with the first rectangle that overlaps `r` replaced. -/
def merge (r : Rect) : List Rect → Option (List Rect)
  | [] => none
  | a :: l => if rectsOverlap a r then some (rectUnion a r :: l) else (merge r l).map (a :: ·)

/-- `gui_dirty_add`. -/
def guiDirtyAdd (s : State) (r : Rect) : State :=
  let r := rectClip s r
  if r.w ≤ 0 ∨ r.h ≤ 0 then s
  else
    match merge r s.list with
    | some list => { s with list, needCompose := true }
    | none =>
      if s.list.length < guiMaxDirty then { s with list := s.list ++ [r], needCompose := true }
      else { s with list := [⟨0, 0, s.scrW, s.scrH⟩], needCompose := true }

def step (s : State) (r : Rect) : Unit × State := ((), guiDirtyAdd s r)

/-- The pixel lies in the rectangle. -/
def Rect.Has (r : Rect) (px py : Int) : Prop := r.x ≤ px ∧ px < r.x + r.w ∧ r.y ≤ py ∧ py < r.y + r.h

def State.OnScreen (s : State) (px py : Int) : Prop := 0 ≤ px ∧ px < s.scrW ∧ 0 ≤ py ∧ py < s.scrH

def Covers (l : List Rect) (px py : Int) : Prop := ∃ r ∈ l, r.Has px py

/-- Not empty, and on the screen. -/
def State.Fits (s : State) (r : Rect) : Prop :=
  0 < r.w ∧ 0 < r.h ∧ 0 ≤ r.x ∧ r.x + r.w ≤ s.scrW ∧ 0 ≤ r.y ∧ r.y + r.h ≤ s.scrH

structure Good (s : State) : Prop where
  short : s.list.length ≤ guiMaxDirty
  fits : ∀ r ∈ s.list, s.Fits r

section

variable {s : State} {r : Rect}

theorem clipAxis_spec (scr x w : Int) : (0 < (clipAxis scr x w).2 → 0 ≤ (clipAxis scr x w).1 ∧
    (clipAxis scr x w).1 + (clipAxis scr x w).2 ≤ scr) ∧ ∀ p, x ≤ p ∧ p < x + w → 0 ≤ p ∧ p < scr →
      (clipAxis scr x w).1 ≤ p ∧ p < (clipAxis scr x w).1 + (clipAxis scr x w).2 := by
  unfold clipAxis
  dsimp only
  split_ifs <;> exact ⟨by omega, fun p => by omega⟩

/-- The sums of `rect_clip`: `r.w += r.x`, `x1` and what is left of the screen. -/
theorem clipAxis_isInt {scr x w : Int} (hscr : scr.natAbs < 2 ^ 29) (hx : x.natAbs < 2 ^ 29)
    (hw : w.natAbs < 2 ^ 29) : IsInt (w + x) ∧ IsInt ((clipAxis scr x w).1 + if x < 0 then w + x else w) ∧
      IsInt (scr - (clipAxis scr x w).1) := by
  unfold IsInt clipAxis
  dsimp only
  split_ifs <;> omega

/-- The sums of `rects_overlap` and `rect_union`; the differences are sides of the union. -/
theorem State.Fits.isInt (h : s.Fits r) (hscr : s.scrW < 2 ^ 29 ∧ s.scrH < 2 ^ 29) :
    (IsInt (r.x + r.w) ∧ IsInt (r.y + r.h)) ∧ IsInt r.w ∧ IsInt r.h := by
  unfold State.Fits at h
  unfold IsInt
  omega

/-- The union covers both, and fits where both do. -/
theorem rectUnion_spec {a : Rect} (ha : s.Fits a) (hr : s.Fits r) : s.Fits (rectUnion a r) ∧
    ∀ px py, a.Has px py ∨ r.Has px py → (rectUnion a r).Has px py := by
  unfold State.Fits rectUnion Rect.Has at *
  dsimp only
  split_ifs <;> exact ⟨by omega, fun px py => by omega⟩

/-- The new list fits, and covers what the old one and the rectangle cover. -/
structure Extends (s : State) (r : Rect) (l l' : List Rect) : Prop where
  fits : ∀ a ∈ l', s.Fits a
  covers : ∀ px py, s.OnScreen px py → Covers l px py ∨ r.Has px py → Covers l' px py

theorem merge_spec (hr : s.Fits r) : ∀ {l l' : List Rect}, (∀ a ∈ l, s.Fits a) → merge r l = some l' →
    l'.length = l.length ∧ Extends s r l l' := by
  intro l
  induction l with
  | nil => exact fun _ h => absurd h (Option.some_ne_none _).symm
  | cons a l ih =>
    intro l' hl h
    rw [List.forall_mem_cons] at hl
    unfold merge at h
    split at h
    · obtain ⟨hfits, hhas⟩ := rectUnion_spec hl.1 hr
      cases h
      refine ⟨rfl, List.forall_mem_cons.mpr ⟨hfits, hl.2⟩, ?_⟩
      intro px py _ hp
      rw [Covers, List.exists_mem_cons_iff, or_right_comm] at hp
      exact (List.exists_mem_cons_iff ..).mpr (hp.imp_left (hhas px py))
    · obtain ⟨m, hm, rfl⟩ := Option.map_eq_some_iff.mp h
      obtain ⟨hlen, hext⟩ := ih hl.2 hm
      refine ⟨congrArg (· + 1) hlen, List.forall_mem_cons.mpr ⟨hl.1, hext.fits⟩, ?_⟩
      rintro px py hon hp
      by_cases ha : a.Has px py
      · exact ⟨a, .head _, ha⟩
      rw [Covers, List.exists_mem_cons_iff, or_iff_right ha] at hp
      exact List.exists_mem_cons_of_exists (hext.covers px py hon hp)

/-- **One call.** -/
theorem guiDirtyAdd_spec (h : Good s) (r : Rect) : Good (guiDirtyAdd s r) ∧ ∀ px py, s.OnScreen px py →
    (guiDirtyAdd s r).OnScreen px py ∧ (Covers s.list px py ∨ r.Has px py → Covers (guiDirtyAdd s r).list px py) := by
  have hx := clipAxis_spec s.scrW r.x r.w
  have hy := clipAxis_spec s.scrH r.y r.h
  have hclip : ∀ px py, s.OnScreen px py → r.Has px py → (rectClip s r).Has px py := by
    rintro px py ⟨h0, hw, h0', hh⟩ ⟨h1, h2, h3, h4⟩
    obtain ⟨h5, h6⟩ := hx.2 px ⟨h1, h2⟩ ⟨h0, hw⟩
    exact ⟨h5, h6, hy.2 py ⟨h3, h4⟩ ⟨h0', hh⟩⟩
  unfold guiDirtyAdd
  dsimp only
  split
  · rename_i hempty
    refine ⟨h, fun px py hon => ⟨hon, fun hp => hp.resolve_right fun hr => ?_⟩⟩
    obtain ⟨h1, h2, h3, h4⟩ := hclip px py hon hr
    omega
  rename_i hne
  rw [not_or, Int.not_le, Int.not_le] at hne
  have hfits : s.Fits (rectClip s r) := ⟨hne.1, hne.2, (hx.1 hne.1).1, (hx.1 hne.1).2, hy.1 hne.2⟩
  split
  · rename_i hmerge
    obtain ⟨hlen, hext⟩ := merge_spec hfits h.fits hmerge
    exact ⟨⟨hlen ▸ h.short, hext.fits⟩, fun px py hon =>
      ⟨hon, fun hp => hext.covers px py hon (hp.imp_right (hclip px py hon))⟩⟩
  split
  · rename_i hlen
    refine ⟨⟨?_, ?_⟩, fun px py hon => ⟨hon, ?_⟩⟩
    · exact List.length_append.trans_le hlen
    · exact List.forall_mem_append.mpr ⟨h.fits, List.forall_mem_singleton.mpr hfits⟩
    · rintro (⟨a, ha, hap⟩ | hrp)
      · exact ⟨a, List.mem_append_left _ ha, hap⟩
      · exact ⟨_, List.mem_append_right _ (.head _), hclip px py hon hrp⟩
  · -- the whole screen
    unfold State.Fits at hfits
    refine ⟨⟨show 1 ≤ guiMaxDirty by decide, fun a ha => ?_⟩, fun px py hon => ⟨hon, fun _ => ⟨_, .head _, ?_⟩⟩⟩
    · rw [List.mem_singleton.mp ha]
      unfold State.Fits
      dsimp only
      omega
    · unfold State.OnScreen at hon
      unfold Rect.Has
      dsimp only
      omega

end

/-- **Dirty-region coverage.**  After every sequence of calls from an empty list, the list is good, and the pixels on
    the screen of every rectangle passed lie in a listed one. -/
theorem dirty_covered (scrW scrH : Int) (b : Bool) (calls : List Rect) :
    Good (exec step ⟨scrW, scrH, [], b⟩ calls).2 ∧ ∀ r ∈ calls, ∀ px py, r.Has px py → 0 ≤ px → px < scrW → 0 ≤ py →
      py < scrH → Covers (exec step ⟨scrW, scrH, [], b⟩ calls).2.list px py := by
  have hrun : ∀ calls s, Good s → Good (exec step s calls).2 ∧ ∀ px py, s.OnScreen px py →
      (Covers s.list px py ∨ ∃ r ∈ calls, r.Has px py) → Covers (exec step s calls).2.list px py := by
    intro calls
    induction calls with
    | nil => exact fun s h => ⟨h, fun px py _ hp => hp.resolve_right (by simp)⟩
    | cons r calls ih =>
      intro s h
      obtain ⟨hgood, hcov⟩ := guiDirtyAdd_spec h r
      obtain ⟨hgood', hcov'⟩ := ih _ hgood
      refine ⟨hgood', fun px py hon hp => hcov' px py (hcov px py hon).1 ?_⟩
      rw [List.exists_mem_cons_iff, ← or_assoc] at hp
      exact hp.imp_left (hcov px py hon).2
  obtain ⟨hgood, hcov⟩ := hrun calls ⟨scrW, scrH, [], b⟩ ⟨Nat.zero_le _, List.forall_mem_nil _⟩
  exact ⟨hgood, fun r hr px py hp h0 hw h0' hh => hcov px py ⟨h0, hw, h0', hh⟩ (.inr ⟨r, hr, hp⟩)⟩

end Lyth.Dirty
