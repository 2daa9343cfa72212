/-
  WHERE A SEGMENT IS MAPPED (`shm_find_free_base`).

    1. THE PROGRAM makes a map of the pages of the window that the slots take, in the order of the slots, and looks
       for the first run of free pages.  When it meets a taken page it goes on behind that page.
    2. THE SPECIFICATION is about bytes: `Fits` says that a base is page aligned, that its pages are in the window
       and that no used mapping has a byte there.
    3. THE CRUX is the jump: a start between the old one and the taken page would have the taken page in its run, so
       none that is skipped could have worked (`searchBase_complete`).

  The map counts the pages of a mapping from the page of its base, so that a mapping which begins in the middle of
  a page takes one page more than the map says (`unaligned_mapping_met`).  `shm_attach_at` gets its bases from here
  or from another task's slot, and they are page aligned.
-/
import Lyth.Shm

namespace Lyth.Shm

open Loop Table Word Paging Function

/-! ## Specification -/

/-- The mapping has the byte at the address. -/
def Mapping.Takes (m : Mapping) (x : Nat) : Prop := m.used ∧ m.base ≤ x ∧ x < m.base + m.size

/-- The mapping lies in the window. -/
def Mapping.InWindow (m : Mapping) : Prop :=
  userShmBase ≤ m.base ∧ m.base + m.size ≤ userShmBase + userShmSize

/-- The mapping begins with a page. -/
def Mapping.OnPage (m : Mapping) : Prop := m.base % pageSize = 0

/-- `pageCount` pages can be mapped at the base. -/
structure Fits (slots : Fin shmMaxMappings → Mapping) (pageCount base : Nat) : Prop where
  aligned : base % pageSize = 0
  low : userShmBase ≤ base
  high : base + pageCount * pageSize ≤ userShmBase + userShmSize
  free : ∀ j x, (slots j).Takes x → ¬(base ≤ x ∧ x < base + pageCount * pageSize)

/-! ## The map of the pages -/

/-- The numbers of the window. -/
theorem window_eq : userShmBase = 0x013EE000 ∧ userShmSize = 0x10000 ∧ pageSize = 4096 ∧ shmMaxPages = 16 :=
  ⟨rfl, rfl, rfl, rfl⟩

/-- The pages that the map has for a mapping. -/
def Mapping.Marks (m : Mapping) (p : Nat) : Prop :=
  m.used ∧ m.size ≠ 0 ∧ userShmBase ≤ m.base ∧ m.base < userShmBase + userShmSize ∧
    (m.base - userShmBase) / pageSize ≤ p ∧
    p < (m.base - userShmBase) / pageSize + alignUp m.size pageSize / pageSize ∧ p < shmMaxPages

theorem markSlot_iff (m : Mapping) (u : Nat → Bool) (p : Nat) :
    markSlot m u p ↔ u p ∨ m.Marks p := by
  unfold markSlot Mapping.Marks
  by_cases hused : (!m.used || decide (m.size = 0)) = true
  · rw [if_pos hused]
    simp only [Bool.or_eq_true, Bool.not_eq_true', decide_eq_true_eq] at hused
    refine ⟨.inl, fun h => h.resolve_right fun hm => ?_⟩
    rcases hused with h | h
    · exact Bool.noConfusion (h.symm.trans hm.1)
    · exact hm.2.1 h
  rw [if_neg hused]
  simp only [Bool.or_eq_true, Bool.not_eq_true', decide_eq_true_eq, not_or, Bool.not_eq_false] at hused
  by_cases hout : (decide (m.base < userShmBase) || decide (m.base ≥ userShmBase + userShmSize)) = true
  · rw [if_pos hout]
    simp only [Bool.or_eq_true, decide_eq_true_eq] at hout
    refine ⟨.inl, fun h => h.resolve_right fun hm => ?_⟩
    omega
  rw [if_neg hout]
  simp only [Bool.or_eq_true, decide_eq_true_eq, not_or, not_lt, not_le] at hout
  generalize (m.base - userShmBase) / pageSize = first
  generalize alignUp m.size pageSize / pageSize = count
  -- after `i` rounds the first `i` pages of the mapping are marked
  have hloop : ∀ q, (forRange 0 count (fun page u => if first + page < shmMaxPages
      then update u (first + page) true else u) u) q ↔
        u q ∨ (first ≤ q ∧ q < first + count ∧ q < shmMaxPages) := by
    refine forRange_inv (P := fun i (u' : Nat → Bool) => ∀ q, u' q ↔
      u q ∨ (first ≤ q ∧ q < first + i ∧ q < shmMaxPages)) (Nat.zero_le _) (fun q => ?_)
      fun i u' _ hi h q => ?_
    · constructor
      · exact .inl
      · intro h
        exact h.resolve_right fun hq => by omega
    by_cases hin : first + i < shmMaxPages
    · rw [if_pos hin]
      by_cases hq : q = first + i
      · rw [hq, update_self]
        exact ⟨fun _ => .inr ⟨by omega, by omega, hin⟩, fun _ => rfl⟩
      · rw [update_of_ne hq, h q]
        exact or_congr_right ⟨fun hr => ⟨hr.1, by omega, hr.2.2⟩, fun hr => ⟨hr.1, by omega, hr.2.2⟩⟩
    · rw [if_neg hin, h q]
      exact or_congr_right ⟨fun hr => ⟨hr.1, by omega, hr.2.2⟩, fun hr => ⟨hr.1, by omega, hr.2.2⟩⟩
  rw [hloop p]
  exact or_congr_right ⟨fun h => ⟨hused.1, hused.2, hout.1, hout.2, h⟩, fun h => h.2.2.2.2⟩

/-- The pages taken, as the search sees them. -/
def usedPages (slots : Fin shmMaxMappings → Mapping) : Nat → Bool :=
  (List.finRange shmMaxMappings).foldl (fun u j => markSlot (slots j) u) fun _ => false

theorem usedPages_iff (slots : Fin shmMaxMappings → Mapping) (p : Nat) :
    usedPages slots p ↔ ∃ j, (slots j).Marks p := by
  have hfold : ∀ (l : List (Fin shmMaxMappings)) (u : Nat → Bool),
      (l.foldl (fun u j => markSlot (slots j) u) u) p ↔ u p ∨ ∃ j ∈ l, (slots j).Marks p := by
    intro l
    induction l with
    | nil => exact fun u => ⟨.inl, fun h => h.resolve_right fun ⟨_, hj, _⟩ => nomatch hj⟩
    | cons i l ih =>
      intro u
      rw [List.foldl_cons, ih, markSlot_iff, or_assoc, List.exists_mem_cons_iff]
  unfold usedPages
  rw [hfold]
  constructor
  · rintro (h | ⟨j, -, hj⟩)
    · cases h
    · exact ⟨j, hj⟩
  · rintro ⟨j, hj⟩
    exact .inr ⟨j, List.mem_finRange j, hj⟩

/-- A mapping on a page marks the pages in which it has a byte. -/
theorem Mapping.marks_iff {m : Mapping} (hin : m.used → m.InWindow) (hpage : m.used → m.OnPage)
    {p : Nat} (hp : p < shmMaxPages) :
    m.Marks p ↔ ∃ x, m.Takes x ∧ userShmBase + p * pageSize ≤ x ∧ x < userShmBase + p * pageSize + pageSize := by
  obtain ⟨hbase, hsize, hps, hmax⟩ := window_eq
  -- what a used mapping of the table is, in numbers
  have hused_in : m.used → 0x013EE000 ≤ m.base ∧ m.base + m.size ≤ 0x013EE000 + 0x10000 ∧
      m.base % 4096 = 0 := by
    intro h
    have hwin := hin h
    have hmod := hpage h
    exact ⟨hwin.1, hwin.2, hmod⟩
  unfold Marks
  rw [hbase, hsize, hps, hmax, alignUp_div]
  constructor
  · rintro ⟨hused, hsz, -, -, hlo, hhi, -⟩
    have hwin := hused_in hused
    rw [u32_of_lt (by omega)] at hhi
    exact ⟨0x013EE000 + p * 4096, ⟨hused, by omega, by omega⟩, by omega, by omega⟩
  · rintro ⟨x, ⟨hused, hx1, hx2⟩, hx3, hx4⟩
    have hwin := hused_in hused
    rw [u32_of_lt (by omega)]
    exact ⟨hused, by omega, by omega, by omega, by omega, by omega, hp⟩

/-! ## The search -/

section

variable {u : Nat → Bool} {pageCount : Nat}

/-- What it finds is a run of free pages. -/
theorem searchBase_sound (fuel : Nat) {first : Nat} (h : searchBase u pageCount fuel first ≠ 0) :
    ∃ p, searchBase u pageCount fuel first = userShmBase + p * pageSize ∧ p + pageCount ≤ shmMaxPages ∧
      ∀ i < pageCount, u (p + i) = false := by
  induction fuel generalizing first with
  | zero => exact absurd rfl h
  | succ fuel ih =>
    rw [searchBase] at h ⊢
    by_cases hle : first + pageCount ≤ shmMaxPages
    · rw [if_pos hle] at h ⊢
      cases hfind : firstIn 0 pageCount fun page => u (first + page) with
      | some page =>
        rw [hfind] at h
        exact ih h
      | none => exact ⟨first, rfl, hle, fun i hi => firstIn_none hfind (Nat.zero_le _) hi⟩
    · rw [if_neg hle] at h
      exact absurd rfl h

/-- **The jump loses nothing**: when nothing is found, every run from the start on has a taken page. -/
theorem searchBase_complete (fuel : Nat) {first : Nat} (hfuel : shmMaxPages < fuel + first)
    (h : searchBase u pageCount fuel first = 0) {p : Nat} (hp : first ≤ p) (hle : p + pageCount ≤ shmMaxPages) :
    ∃ i < pageCount, u (p + i) := by
  induction fuel generalizing first with
  | zero => omega
  | succ fuel ih =>
    rw [searchBase, if_pos (by omega)] at h
    cases hfind : firstIn 0 pageCount fun page => u (first + page) with
    | some page =>
      rw [hfind] at h
      obtain ⟨-, hlt, htaken⟩ := firstIn_some hfind
      by_cases hnear : p ≤ first + page
      · -- the start was skipped: the taken page is in its run
        refine ⟨first + page - p, by omega, ?_⟩
        rwa [Nat.add_sub_cancel' hnear]
      · exact ih (by omega) h (by omega)
    | none =>
      rw [hfind] at h
      have hpos : 0 < userShmBase := by decide
      dsimp only at h
      omega

end

/-! ## The result -/

section

variable {slots : Fin shmMaxMappings → Mapping} {pageCount : Nat}

/-- The page of a byte in a run of pages. -/
theorem page_of_byte {b p n x : Nat} (h : b + p * 4096 ≤ x ∧ x < b + p * 4096 + n * 4096) :
    ∃ q < n, b + (p + q) * 4096 ≤ x ∧ x < b + (p + q) * 4096 + 4096 :=
  ⟨(x - (b + p * 4096)) / 4096, by omega, by omega, by omega⟩

/-- A run of pages fits exactly if none of its pages is taken. -/
theorem fits_iff (hslots : ∀ j, (slots j).used → (slots j).InWindow ∧ (slots j).OnPage) {p : Nat}
    (hp : p + pageCount ≤ shmMaxPages) :
    Fits slots pageCount (userShmBase + p * pageSize) ↔ ∀ i < pageCount, usedPages slots (p + i) = false := by
  obtain ⟨hbase, hsize, hps, hmax⟩ := window_eq
  have hmarks := fun j q (hq : q < shmMaxPages) =>
    Mapping.marks_iff (m := slots j) (fun h => (hslots j h).1) (fun h => (hslots j h).2) hq
  constructor
  · intro h i hi
    refine Bool.eq_false_iff.mpr fun htaken => ?_
    obtain ⟨j, hj⟩ := (usedPages_iff slots (p + i)).mp htaken
    obtain ⟨x, hx, hx1, hx2⟩ := (hmarks j (p + i) (by omega)).mp hj
    refine h.free j x hx ?_
    rw [hps] at *
    omega
  · intro h
    refine ⟨?_, ?_, ?_, fun j x hx hin => ?_⟩
    · rw [hbase, hps]
      omega
    · omega
    · rw [hsize, hps]
      omega
    -- the page of the byte would be marked
    obtain ⟨q, hlt, hq⟩ := page_of_byte hin
    have hmarked : usedPages slots (p + q) := by
      refine (usedPages_iff slots _).mpr ⟨j, (hmarks j _ (by omega)).mpr ⟨x, hx, ?_⟩⟩
      rwa [hps]
    rw [h q hlt] at hmarked
    cases hmarked

/-- **The base is a good one, and there is none only if there is none.** -/
theorem find_free_base_sound_complete
    (hslots : ∀ j, (slots j).used = true → (slots j).InWindow ∧ (slots j).OnPage) (hpos : 1 ≤ pageCount) :
    (findFreeBase slots pageCount ≠ 0 → Fits slots pageCount (findFreeBase slots pageCount)) ∧
      (findFreeBase slots pageCount = 0 → ∀ base, ¬Fits slots pageCount base) := by
  obtain ⟨hbase, hsize, hps, hmax⟩ := window_eq
  by_cases hmany : pageCount > shmMaxPages
  · have hzero : findFreeBase slots pageCount = 0 := if_pos (.inr hmany)
    refine ⟨fun h => absurd hzero h, fun _ base hfits => ?_⟩
    have hlow := hfits.low
    have hhigh := hfits.high
    rw [hps, hsize] at hhigh
    omega
  · have hsearch : findFreeBase slots pageCount = searchBase (usedPages slots) pageCount (shmMaxPages + 1) 0 :=
      if_neg (by omega)
    rw [hsearch]
    refine ⟨fun h => ?_, fun h base hfits => ?_⟩
    · obtain ⟨p, hp, hle, hfree⟩ := searchBase_sound (shmMaxPages + 1) h
      rw [hp]
      exact (fits_iff hslots hle).mpr hfree
    -- the base is the one of a page
    have hlow := hfits.low
    have hhigh := hfits.high
    have haligned := hfits.aligned
    obtain ⟨p, hp⟩ : ∃ p, base = userShmBase + p * pageSize := by
      refine ⟨(base - userShmBase) / pageSize, ?_⟩
      rw [hps] at haligned ⊢
      omega
    have hle : p + pageCount ≤ shmMaxPages := by
      rw [hp, hps, hsize] at hhigh
      omega
    rw [hp] at hfits
    obtain ⟨i, hi, htaken⟩ := searchBase_complete (shmMaxPages + 1) (by omega) h (Nat.zero_le p) hle
    rw [(fits_iff hslots hle).mp hfits i hi] at htaken
    cases htaken

end

/-- Two mappings in the window, of one page and of two, with a hole between them. -/
def twoMapped : Fin shmMaxMappings → Mapping := fun j =>
  if j = 0 then ⟨true, 1, userShmBase + 2 * pageSize, 2 * pageSize⟩
  else if j = 3 then ⟨true, 2, userShmBase, pageSize⟩
  else Mapping.empty

instance (m : Mapping) : Decidable m.InWindow := inferInstanceAs (Decidable (_ ∧ _))
instance (m : Mapping) : Decidable m.OnPage := inferInstanceAs (Decidable (_ = _))

theorem find_free_base_twoMapped :
    findFreeBase twoMapped 2 = userShmBase + 4 * pageSize ∧ Fits twoMapped 2 (userShmBase + 4 * pageSize) := by
  have hslots : ∀ j, (twoMapped j).used → (twoMapped j).InWindow ∧ (twoMapped j).OnPage := by decide
  have hbase : findFreeBase twoMapped 2 = userShmBase + 4 * pageSize := by decide +kernel
  have hsound := (find_free_base_sound_complete hslots (show 1 ≤ 2 by decide)).1
  exact ⟨hbase, hsound (by decide)⟩

/-- A page mapped from the middle of the first page of the window on. -/
def middleMapped : Fin shmMaxMappings → Mapping := fun j =>
  if j = 0 then ⟨true, 1, userShmBase + 2048, pageSize⟩ else Mapping.empty

/-- **A mapping that does not begin with a page is met.**  It lies in the window, and the base found is in it. -/
theorem unaligned_mapping_met : (∀ j, (middleMapped j).used = true → (middleMapped j).InWindow) ∧
      findFreeBase middleMapped 1 = userShmBase + pageSize ∧
      ¬Fits middleMapped 1 (findFreeBase middleMapped 1) := by
  have hbase : findFreeBase middleMapped 1 = userShmBase + pageSize := by decide +kernel
  refine ⟨by decide, hbase, fun h => ?_⟩
  exact h.free 0 (userShmBase + pageSize) ⟨rfl, by decide, by decide⟩ ⟨by decide, by decide⟩

end Lyth.Shm
