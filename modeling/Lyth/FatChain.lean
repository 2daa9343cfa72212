/-
  FREEING A CHAIN (`fat16_free_cluster_chain`).

    1. THE PROGRAM.  The loop reads the link of a cluster, sets its entry to 0 in every copy of the FAT
       and goes on with the link, as long as that is the number of a cluster.
    2. THE SPECIFICATION.  On ANY table, cyclic or not, the loop ends, and the entries it sets to 0 are
       those of the clusters that are `Reached` from the first one.
    3. THE CRUX.  The loop changes the graph that it walks.  A cluster is left with the link 0, so a
       cycle ends where it began; and what is reachable behind a cluster is the same before and after
       that cluster has lost its link, but for the cluster itself (`Reached.cut`).
-/
import Mathlib.Order.Interval.Finset.Nat
import Lyth.FatMirror

namespace Lyth.Fat

open Bytes Word Relation

/-! ## Reachable clusters -/

/-- The FAT links the cluster `a` to `b`. -/
def Link (v : Vol) (m : Mem) (a b : Nat) : Prop := v.isCluster a ∧ nextCluster v m a = b

/-- The cluster `d` is met when the links are followed from `c`. -/
def Reached (v : Vol) (m : Mem) (c d : Nat) : Prop := v.isCluster d ∧ ReflTransGen (Link v m) c d

/-- Entry `d` of a copy of a FAT16. -/
def fatEntry (v : Vol) (m : Mem) (copy d : Nat) : Nat :=
  (copyByte v m copy (2 * d)).toNat + 256 * (copyByte v m copy (2 * d + 1)).toNat

/-- The loop of `free_cluster_chain` comes to its end within so many rounds. -/
def FreeEnds (v : Vol) : Nat → Mem → Nat → Prop
  | 0, _, c => v.isCluster c = false
  | rounds + 1, m, c => v.isCluster c → FreeEnds v rounds (writeFatEntry v m c 0) (nextCluster v m c)

/-- What the loop is for: within `k` rounds it ends, and it has set the entries of the clusters reached
    from `c` to 0 in every copy of the FAT, and no other entry. -/
def Freed (v : Vol) (k : Nat) (m : Mem) (c : Nat) : Prop :=
  FreeEnds v k m c ∧ ∀ rounds ≥ k, ∀ copy < v.fatCount, ∀ d < v.fatEntries,
    (Reached v m c d → fatEntry v (freeClusterChain v rounds m c) copy d = 0) ∧
      (¬Reached v m c d → fatEntry v (freeClusterChain v rounds m c) copy d = fatEntry v m copy d)

section

variable {v : Vol} {n c d : Nat} {m : Mem}

theorem isCluster_iff : v.isCluster c ↔ 2 ≤ c ∧ c < v.kind.eocMin := by
  rw [Vol.isCluster, Bool.and_eq_true, decide_eq_true_iff, decide_eq_true_iff]

/-- Where there is no link, nothing else is reached. -/
theorem reflTransGen_of_not_cluster (h : v.isCluster c = false) (hr : ReflTransGen (Link v m) c d) : d = c := by
  induction hr with
  | refl => rfl
  | tail _ hlink ih =>
    rw [ih] at hlink
    exact absurd (h.symm.trans hlink.1) Bool.noConfusion

/-- The loop does nothing where there is no cluster. -/
theorem free_none (h : v.isCluster c = false) (rounds : Nat) : freeClusterChain v rounds m c = m := by
  cases rounds with
  | zero => rfl
  | succ rounds => rw [freeClusterChain, if_neg (by rw [h]; exact Bool.noConfusion)]

/-- **Cutting a link.**  Behind the cluster `c` the same clusters are reached before and after it lost
    its link, but for `c` itself. -/
theorem Reached.cut (g : Geometry v n) (hc : c < n + 2) (hcl : v.isCluster c)
    (hin : ∀ d, Reached v m c d → d < n + 2) :
    (∀ d, Reached v m c d ↔ d = c ∨ Reached v (writeFatEntry v m c 0) (nextCluster v m c) d) ∧
      ∀ d, Reached v (writeFatEntry v m c 0) (nextCluster v m c) d → d < n + 2 := by
  have hfirst : Link v m c (nextCluster v m c) := ⟨hcl, rfl⟩
  have hzero : nextCluster v (writeFatEntry v m c 0) c = 0 := by
    rw [next_writeFatEntry g hc, Nat.zero_mod]
  -- a path on the cut table does not use the link of `c`
  have hback : ∀ d, v.isCluster d →
      ReflTransGen (Link v (writeFatEntry v m c 0)) (nextCluster v m c) d →
        ReflTransGen (Link v m) c d := by
    intro d hd hr
    induction hr with
    | refl => exact .single hfirst
    | @tail a d _ hlink ih =>
      have ha := ih hlink.1
      have hne : a ≠ c := by
        rintro rfl
        rw [← hlink.2, hzero] at hd
        cases hd
      refine ha.tail ⟨hlink.1, ?_⟩
      rw [← next_writeFatEntry_of_ne g hc (hin a ⟨hlink.1, ha⟩) hne]
      exact hlink.2
  -- a path that comes back to `c` starts again
  have hforth : ∀ d, ReflTransGen (Link v m) c d →
      d = c ∨ ReflTransGen (Link v (writeFatEntry v m c 0)) (nextCluster v m c) d := by
    intro d hr
    induction hr with
    | refl => exact .inl rfl
    | @tail a d hca hlink ih =>
      by_cases hac : a = c
      · refine .inr ?_
        rw [← hlink.2, hac]
      · refine .inr ((ih.resolve_left hac).tail ⟨hlink.1, ?_⟩)
        rw [next_writeFatEntry_of_ne g hc (hin a ⟨hlink.1, hca⟩) hac]
        exact hlink.2
  refine ⟨fun d => ⟨fun h => ?_, ?_⟩, fun d h => hin d ⟨h.1, hback d h.1 h.2⟩⟩
  · exact (hforth d h.2).imp_right fun hr => ⟨h.1, hr⟩
  · rintro (rfl | h)
    · exact ⟨hcl, .refl⟩
    · exact ⟨h.1, hback d h.1 h.2⟩

/-- The clusters with a link. -/
def linked (v : Vol) (n : Nat) (m : Mem) : Finset Nat :=
  (Finset.range (n + 2)).filter fun d => 2 ≤ d ∧ nextCluster v m d ≠ 0

theorem linked_card_le (v : Vol) (n : Nat) (m : Mem) : (linked v n m).card ≤ n := by
  have hsub : linked v n m ⊆ Finset.Ico 2 (n + 2) := fun d hd => by
    obtain ⟨hlt, h2, -⟩ := Finset.mem_filter.mp hd
    exact Finset.mem_Ico.mpr ⟨h2, Finset.mem_range.mp hlt⟩
  have hle := Finset.card_le_card hsub
  rwa [Nat.card_Ico, Nat.add_sub_cancel] at hle

/-- A round leaves one cluster less with a link. -/
theorem linked_card_write (g : Geometry v n) (hc : IsData n c) (hnext : nextCluster v m c ≠ 0) :
    (linked v n (writeFatEntry v m c 0)).card < (linked v n m).card := by
  refine Finset.card_lt_card (Finset.ssubset_iff_of_subset (fun d hd => ?_) |>.mpr ⟨c, ?_, ?_⟩)
  · obtain ⟨hlt, h2, hd0⟩ := Finset.mem_filter.mp hd
    refine Finset.mem_filter.mpr ⟨hlt, h2, fun h => hd0 ?_⟩
    by_cases hdc : d = c
    · rw [hdc, next_writeFatEntry g hc.2, Nat.zero_mod]
    · rwa [next_writeFatEntry_of_ne g hc.2 (Finset.mem_range.mp hlt) hdc]
  · exact Finset.mem_filter.mpr ⟨Finset.mem_range.mpr hc.2, hc.1, hnext⟩
  · intro hmem
    refine (Finset.mem_filter.mp hmem).2.2 ?_
    rw [next_writeFatEntry g hc.2, Nat.zero_mod]

/-- One entry of every copy is 0 now. -/
theorem fatEntry_write (g : Geometry v n) (hk : v.kind = fat16) (hc : c < n + 2) {copy : Nat}
    (hcopy : copy < v.fatCount) (hd : d < v.fatEntries) :
    fatEntry v (writeFatEntry v m c 0) copy d = if d = c then 0 else fatEntry v m copy d := by
  have hbytes : v.kind.entryBytes = 2 := by rw [hk]; rfl
  have hd' : 2 * d + 1 < v.sectorsPerFat * 512 := by
    unfold Vol.fatEntries Vol.entriesPerSector at hd
    rw [hbytes] at hd
    omega
  have hbyte : ∀ k < v.sectorsPerFat * 512, copyByte v (writeFatEntry v m c 0) copy k =
      if 2 * c ≤ k ∧ k < 2 * c + 2 then 0 else copyByte v m copy k := by
    intro k hk
    rw [copyByte, writeFatEntry_apply g hc hcopy hk, hbytes, Nat.mul_comm c 2, Nat.zero_mod, Nat.zero_div]
    rfl
  unfold fatEntry
  rw [hbyte _ (by omega), hbyte _ hd']
  by_cases hdc : d = c
  · rw [if_pos (by omega), if_pos (by omega), if_pos hdc]
    rfl
  · rw [if_neg (by omega), if_neg (by omega), if_neg hdc]

/-- Nothing to free. -/
theorem freed_of_not_cluster (hc : v.isCluster c = false) (k : Nat) : Freed v k m c := by
  have hends : FreeEnds v k m c := by
    cases k with
    | zero => exact hc
    | succ k => exact fun h => absurd (hc.symm.trans h) Bool.noConfusion
  refine ⟨hends, fun rounds _ copy _ d _ => ⟨fun h => ?_, fun _ => by rw [free_none hc]⟩⟩
  rw [reflTransGen_of_not_cluster hc h.2] at h
  exact absurd (hc.symm.trans h.1) Bool.noConfusion

/-- One round, and the rest of the chain. -/
theorem freed_round (g : Geometry v n) (hk : v.kind = fat16) (hcl : v.isCluster c)
    (hin : ∀ d, Reached v m c d → d < n + 2) {k : Nat}
    (hrest : Freed v k (writeFatEntry v m c 0) (nextCluster v m c)) : Freed v (k + 1) m c := by
  have hc := hin c ⟨hcl, .refl⟩
  refine ⟨fun _ => hrest.1, fun rounds hrounds copy hcopy d hd => ?_⟩
  obtain ⟨rounds, rfl⟩ : ∃ r, rounds = r + 1 := ⟨rounds - 1, by omega⟩
  obtain ⟨hfreed, hkept⟩ := hrest.2 rounds (by omega) copy hcopy d hd
  rw [freeClusterChain, if_pos hcl, (Reached.cut g hc hcl hin).1 d]
  rw [fatEntry_write g hk hc hcopy hd] at hkept
  by_cases hr : Reached v (writeFatEntry v m c 0) (nextCluster v m c) d
  · exact ⟨fun _ => hfreed hr, fun h => absurd (.inr hr) h⟩
  · refine ⟨?_, fun h => ?_⟩
    · rintro (rfl | h)
      · rw [hkept hr, if_pos rfl]
      · exact absurd h hr
    · rw [hkept hr, if_neg fun hdc => h (.inl hdc)]

/-- **The loop**, by induction on a bound for the number of clusters that still have a link. -/
theorem freed_of_linked (g : Geometry v n) (hk : v.kind = fat16) (k : Nat) :
    ∀ m c, (linked v n m).card < k → (∀ d, Reached v m c d → d < n + 2) → Freed v k m c := by
  induction k with
  | zero => exact fun m c hcard _ => absurd hcard (Nat.not_lt_zero _)
  | succ k ih =>
    intro m c hcard hin
    by_cases hcl : v.isCluster c
    · refine freed_round g hk hcl hin ?_
      have hc := hin c ⟨hcl, .refl⟩
      by_cases hnext : nextCluster v m c = 0
      · -- the link of a cluster that was visited before
        exact freed_of_not_cluster (by rw [hnext]; rfl) k
      · have hlt := linked_card_write g ⟨(isCluster_iff.mp hcl).1, hc⟩ hnext
        exact ih _ _ (by omega) (Reached.cut g hc hcl hin).2
    · exact freed_of_not_cluster (Bool.eq_false_iff.mpr hcl) (k + 1)

end

/-! ## Volumes -/

/-- A FAT16 that was mounted has sound geometry, whatever the boot sector says: its fields are too small
    for a sector number to wrap. -/
theorem fat16Mount_geometry {b : Mem} {v : Vol} (h : fat16Mount b = some v) :
    v.kind = fat16 ∧ Geometry v (min v.fatEntries 0xFFF8 - 2) := by
  unfold fat16Mount at h
  split at h
  · cases h
  split at h
  · cases h
  rename_i hcheck
  obtain ⟨-, hcluster, hcount, hspf, -, hreserved⟩ := by simpa only [not_or] using hcheck
  have h13 : (b 13).toNat < 256 := (b 13).toNat_lt
  have h16 : (b 16).toNat < 256 := (b 16).toNat_lt
  have h13' : 0 < (b 13).toNat := Nat.pos_of_ne_zero fun h0 => hcluster (UInt8.toNat_inj.mp h0)
  have h16' : 0 < (b 16).toNat := Nat.pos_of_ne_zero fun h0 => hcount (UInt8.toNat_inj.mp h0)
  have hspfLt : getLE b 22 2 < 256 ^ 2 := getLE_lt b 22 2
  have hrootLt : getLE b 17 2 < 256 ^ 2 := getLE_lt b 17 2
  have hfatLt : getLE b 14 2 < 256 ^ 2 := getLE_lt b 14 2
  generalize (b 13).toNat = spc at *
  generalize (b 16).toNat = copies at *
  generalize getLE b 22 2 = spf at *
  cases h
  have hcopies : copies * spf ≤ 255 * 65535 := Nat.mul_le_mul (by omega) (by omega)
  have hdata : (min (spf * 256) 0xFFF8 - 2) * spc ≤ 65534 * 255 := Nat.mul_le_mul (by omega) (by omega)
  refine ⟨rfl, .inl rfl, h13', h16', Nat.pos_of_ne_zero hreserved, .inl le_rfl, .inl le_rfl, ?_, ?_, ?_, ?_, rfl⟩
  · exact Nat.le_add_right _ _
  all_goals simp only [Vol.fatEntries, Vol.entriesPerSector, fat16, Nat.reduceDiv]
  all_goals omega

/-- **Freeing a chain** on any FAT16: whatever the table holds, the loop comes to its end, and it has
    set to 0 the entries of the clusters reached from the first one and no other entry of any copy. -/
theorem free_cluster_chain_exact {b : Mem} {v : Vol} (hv : fat16Mount b = some v) (m : Mem) (c : Nat)
    (hin : ∀ d, Reached v m c d → d < v.fatEntries) : Freed v v.fatEntries m c := by
  obtain ⟨hk, g⟩ := fat16Mount_geometry hv
  have hentries := g.entries
  have hle := linked_card_le v (min v.fatEntries 0xFFF8 - 2) m
  refine freed_of_linked g hk _ m c (by omega) fun d hd => ?_
  have hlt := hin d hd
  have heoc : d < 0xFFF8 := by
    have h := (isCluster_iff.mp hd.1).2
    rwa [hk] at h
  omega

/-- A boot sector: one sector in a cluster, two copies of a FAT of one sector, 16 entries in the root. -/
def bootSector : Mem := fun k =>
  match k with
  | 510 => 0x55
  | 511 => 0xAA
  | 12 => 2
  | 13 => 1
  | 14 => 1
  | 16 => 2
  | 17 => 16
  | 22 => 1
  | _ => 0

def bootVol : Vol where
  kind := fat16
  sectorsPerCluster := 1
  fatCount := 2
  fatLba := 1
  sectorsPerFat := 1
  rootLba := 3
  rootEntryCount := 16
  dataLba := 4
  rootCluster := 0
  io := .sound

/-- A table with a cycle: 2 is linked to 3 and 3 to 2. -/
def cyclicTable : Mem := fun k =>
  match k with
  | 516 => 3
  | 518 => 2
  | _ => 0

theorem cyclicTable_reached {d : Nat} (h : ReflTransGen (Link bootVol cyclicTable) 2 d) : d = 2 ∨ d = 3 := by
  induction h with
  | refl => exact .inl rfl
  | tail _ hlink ih =>
    rcases ih with rfl | rfl
    · exact .inr (hlink.2.symm.trans rfl)
    · exact .inl (hlink.2.symm.trans rfl)

theorem free_cluster_chain_exact_cycle :
    fat16Mount bootSector = some bootVol ∧ (∀ d, Reached bootVol cyclicTable 2 d → d < bootVol.fatEntries) ∧
      Freed bootVol bootVol.fatEntries cyclicTable 2 := by
  have hmount : fat16Mount bootSector = some bootVol := by decide
  have hin : ∀ d, Reached bootVol cyclicTable 2 d → d < bootVol.fatEntries := by
    intro d hd
    rcases cyclicTable_reached hd.2 with rfl | rfl
    · decide
    · decide
  exact ⟨hmount, hin, free_cluster_chain_exact hmount cyclicTable 2 hin⟩

end Lyth.Fat
