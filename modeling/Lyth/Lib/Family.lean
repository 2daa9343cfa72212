/-
  Families of tasks: who is whose parent, and who collects the dead.

  A table of slots holds tasks, each with an identifier, the identifier of its parent and the mark of a
  zombie.  One task, the HEIR, inherits the children of the dead.  A table is `Accounted` if the heir
  lives, every zombie has a parent that lives and could collect it, and every living task has one or is
  an orphan from the start (parent 0).

  Four moves change a table (`Move`): a task is born, with an identifier that nobody has; it ends, its
  children go to the heir, and it is gone or stays as a zombie for its living parent; zombies are
  collected; nothing happens.  **Each of them keeps the table accounted** (`Move.accounted`), as long as
  the heir does not end.  `drops` counts how often something that does not come back goes (`drops_eq`).
-/
import Lyth.Lib.Run

namespace Lyth.Family

open Run

/-! ## Tables -/

/-- A task in its slot. -/
structure Member where
  id : Int
  parent : Int
  zombie : Bool

/-- The slots. -/
abbrev Table (ι : Type) := ι → Option Member

section

variable {ι : Type} {m : Member} {i : ι}

/-- A slot holds a task with this identifier. -/
def Has (T : Table ι) (id : Int) : Prop := ∃ i m, T i = some m ∧ m.id = id

/-- And it is not a zombie. -/
def Lives (T : Table ι) (id : Int) : Prop := ∃ i m, T i = some m ∧ m.id = id ∧ m.zombie = false

/-- **The table is accounted for.** -/
structure Accounted (heir : Int) (T : Table ι) : Prop where
  unique : ∀ i j m n, T i = some m → T j = some n → m.id = n.id → i = j
  id_pos : ∀ i m, T i = some m → 0 < m.id
  heir_lives : Lives T heir
  root : ∀ i m, T i = some m → m.id = heir → m.parent = 0
  own : ∀ i m, T i = some m → m.parent ≠ m.id
  zombie : ∀ i m, T i = some m → m.zombie → Lives T m.parent
  live : ∀ i m, T i = some m → m.zombie = false → m.parent = 0 ∨ Lives T m.parent

/-- The table, member by member. -/
theorem accounted_of {heir : Int} {T : Table ι}
    (hunique : ∀ i j m n, T i = some m → T j = some n → m.id = n.id → i = j)
    (hheir : Lives T heir)
    (hmember : ∀ i m, T i = some m → 0 < m.id ∧ (m.id = heir → m.parent = 0) ∧
      m.parent ≠ m.id ∧ (m.zombie → Lives T m.parent) ∧ (m.zombie = false → m.parent = 0 ∨ Lives T m.parent)) :
    Accounted heir T where
  unique := hunique
  id_pos i m hm := (hmember i m hm).1
  heir_lives := hheir
  root i m hm := (hmember i m hm).2.1
  own i m hm := (hmember i m hm).2.2.1
  zombie i m hm := (hmember i m hm).2.2.2.1
  live i m hm := (hmember i m hm).2.2.2.2

/-- A table of living roots. -/
theorem accounted_of_roots {heir : Int} {T : Table ι}
    (hroots : ∀ i m, T i = some m → 0 < m.id ∧ m.parent = 0 ∧ m.zombie = false)
    (hunique : ∀ i j m n, T i = some m → T j = some n → m.id = n.id → i = j)
    (hheir : Lives T heir) : Accounted heir T := by
  refine accounted_of hunique hheir fun i m hm => ?_
  obtain ⟨hpos, hparent, halive⟩ := hroots i m hm
  exact ⟨hpos, fun _ => hparent, by omega, fun hz => Bool.noConfusion (halive.symm.trans hz),
    fun _ => .inl hparent⟩

/-- The child of `old` gets the parent `new`. -/
def adopt (old new : Int) (m : Member) : Member := if m.parent = old then { m with parent := new } else m

@[simp] theorem adopt_id (old new : Int) (m : Member) : (adopt old new m).id = m.id := by
  unfold adopt
  split <;> rfl

@[simp] theorem adopt_zombie (old new : Int) (m : Member) : (adopt old new m).zombie = m.zombie := by
  unfold adopt
  split <;> rfl

/-- **What can happen to a family.** -/
inductive Move (heir : Int) (T T' : Table ι) : Prop
  | quiet (same : T' = T)
  | birth (i : ι) (m : Member) (free : T i = none) (pos : 0 < m.id) (fresh : ¬Has T m.id)
      (alive : m.zombie = false) (parent : m.parent = 0 ∨ Lives T m.parent) (self : T' i = some m)
      (others : ∀ j, j ≠ i → T' j = T j)
  | collect (dead : ι → Prop) (zombies : ∀ i, dead i → ∃ m, T i = some m ∧ m.zombie)
      (gone : ∀ i, dead i → T' i = none) (others : ∀ i, ¬dead i → T' i = T i)
  | ending (i : ι) (m : Member) (self : T i = some m) (alive : m.zombie = false) (spared : m.id ≠ heir)
      (fate : T' i = none ∨ T' i = some { m with zombie := true } ∧ Lives T m.parent)
      (others : ∀ j, j ≠ i → T' j = (T j).map (adopt m.id heir))

variable {heir : Int} {T T' : Table ι}

/-! ## Each move keeps the table accounted -/

/-- After a birth a slot is the new one or an old one. -/
theorem birth_cases {j : ι} {n : Member} (hself : T' i = some m)
    (hothers : ∀ j, j ≠ i → T' j = T j) (hn : T' j = some n) :
    (j = i ∧ n = m) ∨ T j = some n := by
  by_cases hj : j = i
  · rw [hj, hself] at hn
    exact .inl ⟨hj, (Option.some.inj hn).symm⟩
  · rw [hothers j hj] at hn
    exact .inr hn

/-- After an ending it is that of the zombie, or of a task that may have got a new parent. -/
theorem ending_cases {j : ι} {n : Member}
    (hfate : T' i = none ∨ T' i = some { m with zombie := true } ∧ Lives T m.parent)
    (hothers : ∀ j, j ≠ i → T' j = (T j).map (adopt m.id heir)) (hn : T' j = some n) :
    (j = i ∧ n = { m with zombie := true } ∧ Lives T m.parent) ∨
      ∃ o, T j = some o ∧ n = adopt m.id heir o := by
  by_cases hj : j = i
  · rw [hj] at hn
    rcases hfate with hnone | ⟨hsome, hp⟩
    · rw [hnone] at hn
      cases hn
    · rw [hsome] at hn
      exact .inl ⟨hj, (Option.some.inj hn).symm, hp⟩
  · rw [hothers j hj] at hn
    obtain ⟨o, ho, rfl⟩ := Option.map_eq_some_iff.mp hn
    exact .inr ⟨o, ho, rfl⟩

section

variable (h : Accounted heir T)
include h

/-- A birth: the new task has an identifier of its own. -/
theorem Accounted.birth (hfree : T i = none) (hmpos : 0 < m.id)
    (hfresh : ¬Has T m.id) (halive : m.zombie = false) (hparent : m.parent = 0 ∨ Lives T m.parent)
    (hself : T' i = some m) (hothers : ∀ j, j ≠ i → T' j = T j) : Accounted heir T' := by
  have hlives : ∀ id, Lives T id → Lives T' id := by
    rintro id ⟨j, n, hn, hnid, hz⟩
    refine ⟨j, n, ?_, hnid, hz⟩
    rw [hothers j fun hj => ?_]
    · exact hn
    · rw [hj, hfree] at hn
      cases hn
  have hnew : ∀ id, Lives T id → id ≠ m.id := by
    rintro id ⟨j, n, hn, rfl, _⟩ heq
    exact hfresh ⟨j, n, hn, heq⟩
  refine accounted_of (fun j k n o hn ho heq => ?_) (hlives _ h.heir_lives) fun j n hn => ?_
  · rcases birth_cases hself hothers hn with ⟨hj, rfl⟩ | hn <;>
      rcases birth_cases hself hothers ho with ⟨hk, rfl⟩ | ho
    · rw [hj, hk]
    · exact absurd ⟨k, o, ho, heq.symm⟩ hfresh
    · exact absurd ⟨j, n, hn, heq⟩ hfresh
    · exact h.unique j k n o hn ho heq
  rcases birth_cases hself hothers hn with ⟨_, rfl⟩ | hn
  · refine ⟨hmpos, fun hid => absurd hid.symm (hnew _ h.heir_lives), ?_,
      fun hz => Bool.noConfusion (halive.symm.trans hz), fun _ => hparent.imp_right (hlives _)⟩
    rcases hparent with h0 | hp
    · omega
    · exact hnew _ hp
  · exact ⟨h.id_pos j n hn, h.root j n hn, h.own j n hn, fun hz => hlives _ (h.zombie j n hn hz),
      fun hz => (h.live j n hn hz).imp_right (hlives _)⟩

/-- Collecting zombies: nobody's parent is among them. -/
theorem Accounted.collect {dead : ι → Prop}
    (hzombies : ∀ i, dead i → ∃ m, T i = some m ∧ m.zombie)
    (hgone : ∀ i, dead i → T' i = none) (hothers : ∀ i, ¬dead i → T' i = T i) :
    Accounted heir T' := by
  have hold : ∀ j n, T' j = some n → T j = some n := by
    intro j n hn
    by_cases hj : dead j
    · rw [hgone j hj] at hn
      cases hn
    · rwa [← hothers j hj]
  have hlives : ∀ id, Lives T id → Lives T' id := by
    rintro id ⟨j, n, hn, hnid, hz⟩
    refine ⟨j, n, ?_, hnid, hz⟩
    rw [hothers j fun hj => ?_]
    · exact hn
    · obtain ⟨m, hm, hmz⟩ := hzombies j hj
      rw [hn] at hm
      rw [Option.some.inj hm, hmz] at hz
      cases hz
  refine accounted_of (fun j k n o hn ho => h.unique j k n o (hold j n hn) (hold k o ho))
    (hlives _ h.heir_lives) fun j n hn => ?_
  have hn := hold j n hn
  exact ⟨h.id_pos j n hn, h.root j n hn, h.own j n hn, fun hz => hlives _ (h.zombie j n hn hz),
    fun hz => (h.live j n hn hz).imp_right (hlives _)⟩

/-- **An ending**: the children go to the heir, who lives; the others keep the parent they had. -/
theorem Accounted.ending (hself : T i = some m) (hspared : m.id ≠ heir)
    (hfate : T' i = none ∨ T' i = some { m with zombie := true } ∧ Lives T m.parent)
    (hothers : ∀ j, j ≠ i → T' j = (T j).map (adopt m.id heir)) :
    Accounted heir T' := by
  -- all but the task itself live on
  have hlives : ∀ id, Lives T id → id ≠ m.id → Lives T' id := by
    rintro id ⟨j, n, hn, hnid, hz⟩ hne
    refine ⟨j, adopt m.id heir n, ?_, by rw [adopt_id, hnid], by rw [adopt_zombie, hz]⟩
    rw [hothers j fun hj => ?_, hn]
    · rfl
    · rw [hj, hself] at hn
      rw [← Option.some.inj hn] at hnid
      exact hne hnid.symm
  have hheir := hlives heir h.heir_lives (Ne.symm hspared)
  have hmown := h.own i m hself
  have hmpos := h.id_pos i m hself
  refine accounted_of (fun j k n o hn ho heq => ?_) hheir fun j n hn => ?_
  · rcases ending_cases hfate hothers hn with ⟨hj, rfl, _⟩ | ⟨n', hn', rfl⟩ <;>
      rcases ending_cases hfate hothers ho with ⟨hk, rfl, _⟩ | ⟨o', ho', rfl⟩
    · rw [hj, hk]
    · exact hj.trans (h.unique i k m o' hself ho' (by simpa using heq))
    · exact (h.unique j i n' m hn' hself (by simpa using heq)).trans hk.symm
    · exact h.unique j k n' o' hn' ho' (by simpa using heq)
  rcases ending_cases hfate hothers hn with ⟨_, rfl, hp⟩ | ⟨o, ho, rfl⟩
  · exact ⟨hmpos, fun hid => absurd hid hspared, hmown, fun _ => hlives _ hp hmown,
      fun hz => Bool.noConfusion hz⟩
  have hroot := h.root j o ho
  unfold adopt
  split
  · -- a child of the task, which is not a root
    rename_i hchild
    exact ⟨h.id_pos j o ho, fun hid => by have := hroot hid; omega,
      fun hid => by have := hroot hid.symm; omega, fun _ => hheir, fun _ => .inr hheir⟩
  · rename_i hchild
    exact ⟨h.id_pos j o ho, hroot, h.own j o ho, fun hz => hlives _ (h.zombie j o ho hz) hchild,
      fun hz => (h.live j o ho hz).imp_right fun hp => hlives _ hp hchild⟩

/-- **The step lemma.** -/
theorem Move.accounted (hmove : Move heir T T') : Accounted heir T' := by
  cases hmove with
  | quiet same => exact same ▸ h
  | birth i m free pos fresh alive parent self others =>
    exact h.birth free pos fresh alive parent self others
  | collect dead zombies gone others => exact h.collect zombies gone others
  | ending i m self alive spared fate others => exact h.ending self spared fate others

end

end

/-! ## Releases over a run -/

section

variable {σ κ ω : Type} (step : σ → κ → ω × σ) (p : σ → Bool)

/-- How often `p` goes from true to false in a run. -/
def drops : σ → List κ → Nat
  | _, [] => 0
  | s, i :: is => (if p s ∧ p (step s i).2 = false then 1 else 0) + drops (step s i).2 is

variable {step p} {ok : σ → κ → Prop} (hstay : ∀ s i, ok s i → p s = false → p (step s i).2 = false)
include hstay

/-- What is false stays false. -/
theorem drops_gone (is : List κ) : ∀ s, Guarded step ok s is → p s = false →
    p (exec step s is).2 = false ∧ drops step p s is = 0 := by
  induction is with
  | nil => exact fun s _ hp => ⟨hp, rfl⟩
  | cons i is ih =>
    intro s hok hp
    obtain ⟨hend, hzero⟩ := ih _ hok.2 (hstay s i hok.1 hp)
    refine ⟨hend, ?_⟩
    rw [drops, if_neg fun h => Bool.noConfusion (hp.symm.trans h.1), hzero]

/-- **It goes once**: from a state in which it is true, it has been dropped once if it is false at the
    end, and never if it is true. -/
theorem drops_eq (is : List κ) : ∀ s, Guarded step ok s is → p s →
    drops step p s is = if p (exec step s is).2 then 0 else 1 := by
  induction is with
  | nil =>
    intro s _ hp
    exact (if_pos hp).symm
  | cons i is ih =>
    intro s hok hp
    rw [drops, exec_cons]
    cases hnext : p (step s i).2 with
    | true => rw [if_neg fun h => Bool.noConfusion h.2, ih _ hok.2 hnext, Nat.zero_add]
    | false =>
      obtain ⟨hend, hzero⟩ := drops_gone hstay is _ hok.2 hnext
      rw [if_pos ⟨hp, rfl⟩, hzero, if_neg (by rw [hend]; exact Bool.noConfusion)]

end

end Lyth.Family
