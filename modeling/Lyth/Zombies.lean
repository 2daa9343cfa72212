/-
  Verified ACCOUNTING OF ZOMBIES (`complete_task`, `reparent_children`, `task_reap_zombies_for`,
  `task_wait_id`, `task_waitpid`, with `init_start` of `init.c`).

  1. The PROGRAM is the one of `Lyth.Task`: a task that ends gives its children to init, and leaves a
     zombie if its parent is there to collect it, or else a free slot.  `initStart` is what the kernel
     does before the first switch: it spawns init and registers its identifier.

  2. The SPECIFICATION is about the table as a FAMILY (`Lib/Family.lean`): who is the parent of whom,
     and who is a zombie.  `ParentsLive` says that a zombie's parent lives, and that a living task's
     parent is the kernel (0) or lives; `releases` counts how often a task's slot is given back.

  3. The CRUX is that every call is one MOVE of the family (`step_goes`): nothing, a birth, a
     collection of zombies, or an end in which init adopts the children.  Each move keeps the family
     accounted for, and an identifier that was released comes back only when `next_task_id`, which
     wraps, hands it out again.

  Adoption needs an heir.  NOTHING PROTECTS INIT: `task_queue_signal_locked` refuses to kill the idle
  task only, and `reparent_children(init, init)` then leaves init's children with a parent in a free
  slot (`killed_init_leaves_orphan`).  The runs of `zombie_accounting` do not end init, and their new
  tasks get identifiers that are positive and unused (`Sound`).
-/
import Lyth.Idents
import Lyth.Lib.Family

namespace Lyth.Task

open Run Family

/-! ## The family of a task table -/

/-- What a slot is to the others. -/
def Entry.member (t : Entry) : Option Member :=
  if t.used then some { id := t.id, parent := t.parentId, zombie := t.isZombie } else none

/-- The task table as a family. -/
def State.family (s : State) : Family.Table Slot := fun i => (s.tasks i).member

/-- In use and no zombie. -/
def Entry.Alive (t : Entry) : Prop := t.used ∧ t.state ≠ .zombie

instance (t : Entry) : Decidable t.Alive := inferInstanceAs (Decidable (_ ∧ _))

section

variable {t u : Entry}

theorem member_congr (hused : u.used = t.used) (hid : u.id = t.id) (hparent : u.parentId = t.parentId)
    (hzombie : u.isZombie = t.isZombie) : u.member = t.member := by
  unfold Entry.member
  rw [hused, hid, hparent, hzombie]

theorem Entry.Alive.not_zombie (h : t.Alive) : t.isZombie = false := decide_eq_false h.2

/-- Two living entries of one task. -/
theorem Entry.Alive.member_eq (ht : t.Alive) (hu : u.Alive) (hid : u.id = t.id)
    (hparent : u.parentId = t.parentId) : u.member = t.member :=
  member_congr (hu.1.trans ht.1.symm) hid hparent (hu.not_zombie.trans ht.not_zombie.symm)

theorem Entry.Alive.member (h : t.Alive) :
    t.member = some { id := t.id, parent := t.parentId, zombie := false } := by
  rw [Entry.member, if_pos h.1, h.not_zombie]

theorem member_some {m : Member} (h : t.member = some m) :
    t.used ∧ m.id = t.id ∧ m.parent = t.parentId ∧ m.zombie = t.isZombie := by
  unfold Entry.member at h
  split at h
  · rename_i hused
    cases h
    exact ⟨hused, rfl, rfl, rfl⟩
  · cases h

theorem member_free (h : t.used = false) : t.member = none := by
  rw [Entry.member, h]
  rfl

theorem alive_of_member {m : Member} (h : t.member = some m) (hz : m.zombie = false) : t.Alive := by
  obtain ⟨hused, _, _, hzombie⟩ := member_some h
  exact ⟨hused, of_decide_eq_false (hzombie.symm.trans hz)⟩

theorem alive_of_member_eq (h : u.member = t.member) (ht : t.Alive) : u.Alive :=
  alive_of_member (h.trans ht.member) rfl

end

variable {s : State} {call : Call} {id : Int}

/-- A task lives in the family exactly if a living entry has its identifier. -/
theorem lives_family :
    Lives s.family id ↔ ∃ i, (s.tasks i).Alive ∧ (s.tasks i).id = id := by
  constructor
  · rintro ⟨i, m, hm, rfl, hz⟩
    exact ⟨i, alive_of_member hm hz, (member_some hm).2.1.symm⟩
  · rintro ⟨i, halive, hid⟩
    exact ⟨i, _, halive.member, hid, rfl⟩

/-! ## What leaves the family alone -/

/-- The running task is the same, and so is init. -/
structure Steady (s s' : State) : Prop where
  current : s'.current = s.current
  sysInitPid : s'.sysInitPid = s.sysInitPid

theorem Steady.trans {s' s'' : State} (h : Steady s s') (h' : Steady s' s'') : Steady s s'' :=
  ⟨h'.current.trans h.current, h'.sysInitPid.trans h.sysInitPid⟩

/-- No task is born, ends or changes its parent. -/
structure Still (s s' : State) : Prop extends Steady s s' where
  members : ∀ j, (s'.tasks j).member = (s.tasks j).member

section

variable {s s' s'' : State} {i : Slot} {f : Entry → Entry}

theorem Still.refl (s : State) : Still s s := ⟨⟨rfl, rfl⟩, fun _ => rfl⟩

theorem Still.trans (h : Still s s') (h' : Still s' s'') : Still s s'' :=
  ⟨h.toSteady.trans h'.toSteady, fun j => (h'.members j).trans (h.members j)⟩

theorem Still.used_id (h : Still s s') (hused : (s.tasks i).used) :
    (s'.tasks i).used ∧ (s'.tasks i).id = (s.tasks i).id := by
  obtain ⟨hused', hid, _⟩ := member_some ((h.members i).trans (if_pos hused))
  exact ⟨hused', hid.symm⟩

theorem still_modify (h : (f (s.tasks i)).member = (s.tasks i).member) : Still s (s.modify i f) :=
  ⟨⟨rfl, rfl⟩, modify_field Entry.member h⟩

theorem still_setPhys (s : State) (m : Bytes.Mem) : Still s (s.setPhys m) := ⟨⟨rfl, rfl⟩, fun _ => rfl⟩

/-- Waking and signalling change nothing of the family. -/
theorem Nudged.still (h : Nudged s s') : Still s s' := by
  refine ⟨⟨h.current, h.sysInitPid⟩, fun j => ?_⟩
  have hkin := h.entries j id
  refine member_congr hkin.used hkin.id (h.parentId j) ?_
  unfold Entry.isZombie
  rcases hkin.state with heq | ⟨-, hstop, hready⟩
  · rw [heq]
  · rw [hready]
    rcases hstop with h | h <;> rw [h] <;> rfl

theorem Relinked.still (h : Relinked s s') : Still s s' := h.nudged.still

end

/-! ## The end of a task -/

/-- A loop that treats every slot alike. -/
theorem forSlots_each (g : Entry → Entry) (s : State) :
    forSlots (fun i s => s.modify i g) s = { s with tasks := fun j => g (s.tasks j) } := by
  have hloop : ∀ (l : List Slot) (s : State), l.Nodup → l.foldl (fun s i => s.modify i g) s =
      { s with tasks := fun j => if j ∈ l then g (s.tasks j) else s.tasks j } := by
    intro l
    induction l with
    | nil => exact fun s _ => rfl
    | cons i l ih =>
      intro s hnodup
      obtain ⟨hi, hl⟩ := List.nodup_cons.mp hnodup
      rw [List.foldl_cons, ih _ hl]
      have htasks : (fun j => if j ∈ l then g ((s.modify i g).tasks j) else (s.modify i g).tasks j) =
          fun j => if j ∈ i :: l then g (s.tasks j) else s.tasks j := by
        funext j
        rw [modify_tasks]
        by_cases hj : j = i
        · rw [hj, if_neg hi, if_pos rfl, if_pos List.mem_cons_self]
        · rw [if_neg hj]
          simp only [List.mem_cons, hj, false_or]
      rw [htasks]
      rfl
  unfold forSlots
  rw [hloop _ s (List.nodup_finRange _)]
  simp only [List.mem_finRange, if_true]

/-- **`reparent_children` is adoption.** -/
theorem reparentChildren_member {old : Int} (hold : 0 < old) (new : Int) (s : State) (j : Slot) :
    ((reparentChildren old new s).tasks j).member = (s.tasks j).member.map (adopt old new) := by
  have hbody : (fun (i : Slot) (s : State) => if (s.tasks i).used ∧ (s.tasks i).parentId = old then
      s.modify i (fun t => { t with parentId := new }) else s) = fun i s => s.modify i fun t =>
        if t.used ∧ t.parentId = old then { t with parentId := new } else t := by
    funext i s
    unfold State.modify
    dsimp only
    split
    · rfl
    · rw [Function.update_eq_self]
  unfold reparentChildren
  rw [if_neg (by omega), hbody, forSlots_each]
  dsimp only
  by_cases hused : (s.tasks j).used
  · by_cases hchild : (s.tasks j).parentId = old
    · rw [if_pos ⟨hused, hchild⟩]
      simp only [Entry.member, if_pos hused, Option.map_some, adopt, if_pos hchild]
      rfl
    · rw [if_neg fun h => hchild h.2]
      simp only [Entry.member, if_pos hused, Option.map_some, adopt, if_neg hchild]
  · rw [if_neg fun h => hused h.1, member_free (Bool.not_eq_true _ |>.mp hused)]
    rfl

/-- The slot `i` comes to hold `m`, and nothing else changes. -/
structure Sets (i : Slot) (m : Option Member) (s s' : State) : Prop extends Steady s s' where
  self : (s'.tasks i).member = m
  others : ∀ j, j ≠ i → (s'.tasks j).member = (s.tasks j).member

section

variable {i : Slot} {m : Option Member} {s' s'' : State}

theorem Sets.after (h : Still s s') (h' : Sets i m s' s'') : Sets i m s s'' :=
  ⟨h.toSteady.trans h'.toSteady, h'.self, fun j hj => (h'.others j hj).trans (h.members j)⟩

theorem Sets.then (h : Sets i m s s') (h' : Still s' s'') : Sets i m s s'' :=
  ⟨h.toSteady.trans h'.toSteady, (h'.members i).trans h.self, fun j hj => (h'.members j).trans (h.others j hj)⟩

end

/-- The slot `i` is released. -/
abbrev Frees (i : Slot) (s s' : State) : Prop := Sets i none s s'

theorem clearTask_frees (i : Slot) (s : State) : Frees i s (clearTask i s) := by
  have hlink := (schedRemoveFromReady_relinked i s).still
  refine ⟨⟨hlink.current, hlink.sysInitPid⟩, ?_, fun j hj => ?_⟩
  · rw [clearTask_self]
    rfl
  · unfold clearTask
    rw [modify_ne hj]
    exact hlink.members j

variable {i : Slot} {s' : State}

theorem reapForParent_frees (i p : Slot) (s : State) : Frees i s (reapForParent i p s) := by
  obtain ⟨m, f, u, heq⟩ := reapForParent_eq i p s
  have hanswer : Still s ((s.setPhys m).modify p fun t =>
      { t with frame := f, waitpidStatusUptr := u }) := (still_setPhys s m).trans (still_modify rfl)
  rw [heq]
  exact .after (hanswer.trans (taskSignalEvent_nudged ..).still) (clearTask_frees i _)

/-- The slot `i` becomes a zombie. -/
abbrev Lingers (i : Slot) (s s' : State) : Prop := Sets i (some ⟨(s.tasks i).id, (s.tasks i).parentId, true⟩) s s'

theorem zombifyTask_lingers (hused : (s.tasks i).used) :
    Lingers i s (zombifyTask i s) := by
  have hlink := schedRemoveFromReady_relinked i s
  refine ⟨⟨hlink.still.current, hlink.still.sysInitPid⟩, ?_, fun j hj => ?_⟩
  · rw [zombifyTask, modify_self, hlink.entries i]
    exact if_pos hused
  · unfold zombifyTask
    rw [modify_ne hj]
    exact hlink.still.members j

/-- The end of `complete_task`: the slot is released, or the parent lives and it is left for it. -/
theorem settleWithParent_settles (hused : (s.tasks i).used)
    (parent : Option Slot) (parentId : Int) :
    Frees i s (settleWithParent i parent parentId s) ∨
      ∃ p, parent = some p ∧ (s.tasks p).state ≠ .zombie ∧
        Lingers i s (settleWithParent i parent parentId s) := by
  unfold settleWithParent
  cases parent with
  | none => exact .inl (clearTask_frees i s)
  | some p =>
    dsimp only
    split
    · exact .inl (reapForParent_frees i p s)
    split
    · rename_i hzombie
      exact .inr ⟨p, rfl, hzombie, (zombifyTask_lingers hused).then (taskSignalEvent_nudged ..).still⟩
    · exact .inl (clearTask_frees i s)

/-- The end of the task in slot `i`: its children go to init; it is gone, or stays as a zombie for a
    parent that lives. -/
structure Departs (i : Slot) (s s' : State) : Prop extends Steady s s' where
  fate : (s'.tasks i).member = none ∨
    (s'.tasks i).member = some ⟨(s.tasks i).id, (s.tasks i).parentId, true⟩ ∧
      Lives s.family (s.tasks i).parentId
  others : ∀ j, j ≠ i → (s'.tasks j).member = (s.tasks j).member.map (adopt (s.tasks i).id s.sysInitPid)

/-- The state in which `complete_task` settles with the parent: the children have been adopted. -/
structure Adopted (i : Slot) (s s' : State) : Prop extends Steady s s' where
  members : ∀ j, (s'.tasks j).member = (s.tasks j).member.map (adopt (s.tasks i).id s.sysInitPid)

theorem Adopted.then {s'' : State} (h : Adopted i s s') (h' : Still s' s'') : Adopted i s s'' :=
  ⟨h.toSteady.trans h'.toSteady, fun j => (h'.members j).trans (h.members j)⟩

/-- Who lives then lived before. -/
theorem Adopted.lives {p : Slot} (h : Adopted i s s') (hp : (s'.tasks p).Alive) :
    Lives s.family (s'.tasks p).id := by
  obtain ⟨m, hm, heq⟩ := Option.map_eq_some_iff.mp ((h.members p).symm.trans hp.member)
  refine ⟨p, m, hm, ?_, ?_⟩
  · rw [← adopt_id (s.tasks i).id s.sysInitPid m, heq]
  · rw [← adopt_zombie (s.tasks i).id s.sysInitPid m, heq]

theorem Still.adopted (h : Still s s') (hpos : 0 < (s.tasks i).id) :
    Adopted i s (reparentChildren (s.tasks i).id s.sysInitPid s') := by
  have hglobals := reparentChildren_stirred (s.tasks i).id s.sysInitPid s'
  refine ⟨h.toSteady.trans ⟨hglobals.current, hglobals.sysInitPid⟩, fun j => ?_⟩
  rw [reparentChildren_member hpos, h.members]

/-- **`complete_task`**, unless it is the idle task. -/
theorem completeTask_departs (halive : (s.tasks i).Alive)
    (hidle : (s.tasks i).id ≠ s.idleTaskId) (hpos : 0 < (s.tasks i).id)
    (hown : (s.tasks i).parentId ≠ (s.tasks i).id) : Departs i s (completeTask i s) := by
  obtain ⟨fg, heq⟩ := completeTask_eq halive.1 hidle
  have hfg := (schedRemoveFromReady_relinked i s).nudged.trans (nudged_setForeground _ fg)
  have hadopt : Adopted i s (announceEnd i fg s) :=
    (hfg.still.adopted hpos).then (taskSignalEvent_nudged ..).still
  rw [heq, closeEnd]
  generalize announceEnd i fg s = s₄ at hadopt
  generalize hparent : parentSlot s₄ (s.tasks i).parentId = parent
  have hnotify := (notifyEnd_nudged (s.tasks i).id parent s₄).still
  have hdone := hadopt.then hnotify
  generalize notifyEnd (s.tasks i).id parent s₄ = s₅ at hnotify hdone
  -- the task itself is no child of its own
  obtain ⟨hused, hid, hpar, _⟩ : (s₅.tasks i).used ∧ (s.tasks i).id = (s₅.tasks i).id ∧
      (s.tasks i).parentId = (s₅.tasks i).parentId ∧ false = (s₅.tasks i).isZombie := by
    refine member_some (m := ⟨(s.tasks i).id, (s.tasks i).parentId, false⟩) ?_
    rw [hdone.members i, halive.member, Option.map_some, adopt, if_neg hown]
  rcases settleWithParent_settles hused parent (s.tasks i).parentId with hfrees | ⟨p, hp, hzombie, hlingers⟩
  · exact ⟨hdone.toSteady.trans hfrees.toSteady, .inl hfrees.self,
      fun j hj => (hfrees.others j hj).trans (hdone.members j)⟩
  have hfound : (s₄.tasks p).used ∧ (s₄.tasks p).id = (s.tasks i).parentId := by
    rw [hp, parentSlot] at hparent
    split at hparent
    · exact findTaskById_some hparent
    · cases hparent
  obtain ⟨hused₅, hid₅⟩ := hnotify.used_id hfound.1
  have hlives := hdone.lives ⟨hused₅, hzombie⟩
  rw [hid₅, hfound.2] at hlives
  refine ⟨hdone.toSteady.trans hlingers.toSteady, .inr ⟨?_, hlives⟩,
    fun j hj => (hlingers.others j hj).trans (hdone.members j)⟩
  rw [hlingers.self, hid, hpar]

/-! ## What a call does to the family -/

/-- The table is accounted for, and the running task lives. -/
structure Tended (s : State) : Prop where
  accounted : Accounted s.sysInitPid s.family
  running : ∀ x, s.current = some x → (s.tasks x).Alive

/-- A call is a move of the family, and leaves the running task alive. -/
structure Goes (s s' : State) : Prop where
  move : Move s.sysInitPid s.family s'.family
  sysInitPid : s'.sysInitPid = s.sysInitPid
  running : ∀ x, s'.current = some x → (s'.tasks x).Alive

section

variable {s s' s'' : State} {c i : Slot}

theorem Goes.tended (hs : Tended s) (h : Goes s s') : Tended s' := by
  refine ⟨?_, h.running⟩
  rw [h.sysInitPid]
  exact h.move.accounted hs.accounted

theorem Still.family (h : Still s s') : s'.family = s.family := funext h.members

/-- Nobody is born or ends. -/
theorem Still.goes (h : Still s s') (hs : Tended s) : Goes s s' := by
  refine ⟨.quiet h.family, h.sysInitPid, fun x hx => ?_⟩
  rw [h.current] at hx
  exact alive_of_member_eq (h.members x) (hs.running x hx)

theorem Tended.still (hs : Tended s) (h : Still s s') : Tended s' := (h.goes hs).tended hs

/-- What does nothing to the family can come before … -/
theorem Goes.after (h : Still s s') (h' : Goes s' s'') : Goes s s'' := by
  refine ⟨?_, h'.sysInitPid.trans h.sysInitPid, h'.running⟩
  rw [← h.family, ← h.sysInitPid]
  exact h'.move

/-- … and behind. -/
theorem Goes.before (h : Goes s s') (h' : Still s' s'') : Goes s s'' := by
  refine ⟨?_, h'.sysInitPid.trans h.sysInitPid, fun x hx => ?_⟩
  · rw [h'.family]
    exact h.move
  · rw [h'.current] at hx
    exact alive_of_member_eq (h'.members x) (h.running x hx)

/-- The running task changes its own entry. -/
theorem still_own {f : Entry → Entry} (hs : Tended s) (hcur : s.current = some c)
    (hid : (f (s.tasks c)).id = (s.tasks c).id) (hparent : (f (s.tasks c)).parentId = (s.tasks c).parentId)
    (hused : (f (s.tasks c)).used = (s.tasks c).used)
    (hstate : (f (s.tasks c)).state = (s.tasks c).state ∨ (f (s.tasks c)).state ≠ .zombie) :
    Still s (s.modify c f) := by
  have halive := hs.running c hcur
  refine still_modify (halive.member_eq ⟨hused.trans halive.1, ?_⟩ hid hparent)
  rcases hstate with h | h
  · rw [h]
    exact halive.2
  · exact h

theorem still_onCurrent {f : Entry → Entry} (hs : Tended s)
    (hf : ∀ t, (f t).id = t.id ∧ (f t).parentId = t.parentId ∧ (f t).used = t.used ∧
      ((f t).state = t.state ∨ (f t).state ≠ .zombie)) : Still s (s.onCurrent f) := by
  unfold State.onCurrent
  split
  · exact .refl s
  · rename_i c hcur
    obtain ⟨hid, hparent, hused, hstate⟩ := hf (s.tasks c)
    exact still_own hs hcur hid hparent hused hstate

/-! ### Ends and collections -/

/-- **A task ends.**  It is not init, and if it was the running one then nobody runs now. -/
theorem Departs.goes (hs : Tended s) (h : Departs i s s') (halive : (s.tasks i).Alive)
    (hspared : (s.tasks i).id ≠ s.sysInitPid) (hrun : s.current ≠ some i) : Goes s s' := by
  refine ⟨.ending i _ halive.member rfl hspared h.fate h.others, h.sysInitPid, fun x hx => ?_⟩
  rw [h.current] at hx
  have hne : x ≠ i := fun hxi => hrun (hxi ▸ hx)
  refine alive_of_member (m := adopt (s.tasks i).id s.sysInitPid ⟨(s.tasks x).id, (s.tasks x).parentId, false⟩)
    ?_ (adopt_zombie ..)
  rw [h.others x hne, (hs.running x hx).member]
  rfl

/-- **A zombie is collected.** -/
theorem Frees.goes (hs : Tended s) (h : Frees i s s') (hused : (s.tasks i).used)
    (hzombie : (s.tasks i).isZombie) : Goes s s' := by
  refine ⟨.collect (fun j => j = i) ?_ ?_ h.others, h.sysInitPid, fun x hx => ?_⟩
  · rintro j rfl
    exact ⟨_, if_pos hused, hzombie⟩
  · rintro j rfl
    exact h.self
  rw [h.current] at hx
  have halive := hs.running x hx
  have hne : x ≠ i := by
    rintro rfl
    exact halive.2 (of_decide_eq_true hzombie)
  exact alive_of_member_eq (h.others x hne) halive

/-- `task_reap_zombies_for`. -/
theorem taskReapZombiesFor_goes (hs : Tended s) (parent : Int) : Goes s (taskReapZombiesFor parent s) := by
  -- the slots that have been collected so far
  let P : State → Prop := fun s' => ∃ dead : Slot → Prop,
    (∀ j, dead j → (s.tasks j).used ∧ (s.tasks j).isZombie ∧ (s'.tasks j).member = none) ∧
    (∀ j, ¬dead j → (s'.tasks j).member = (s.tasks j).member) ∧ Steady s s'
  have hstart : P s := ⟨fun _ => False, fun _ h => h.elim, fun _ _ => rfl, rfl, rfl⟩
  obtain ⟨dead, hdead, hothers, hcur, hinit⟩ : P (taskReapZombiesFor parent s) := by
    refine forSlots_inv hstart fun j s' h => ?_
    split
    · rename_i hz
      obtain ⟨dead, hdead, hothers, hsteady⟩ := h
      have hfrees := clearTask_frees j s'
      have hlive : ¬dead j := by
        intro hj
        have hnone := (hdead j hj).2.2
        rw [Entry.member, if_pos hz.1] at hnone
        cases hnone
      obtain ⟨hused, _, _, hzombie⟩ := member_some ((hothers j hlive).symm.trans (if_pos hz.1))
      refine ⟨fun x => dead x ∨ x = j, ?_, fun x hx => ?_, hsteady.trans hfrees.toSteady⟩
      · rintro x (hx | rfl)
        · have hxj : x ≠ j := fun heq => hlive (heq ▸ hx)
          exact ⟨(hdead x hx).1, (hdead x hx).2.1, (hfrees.others x hxj).trans (hdead x hx).2.2⟩
        · exact ⟨hused, hzombie.symm.trans (decide_eq_true hz.2.1), hfrees.self⟩
      · exact (hfrees.others x fun heq => hx (.inr heq)).trans (hothers x fun h => hx (.inl h))
    · exact h
  refine ⟨.collect dead (fun j hj => ?_) (fun j hj => (hdead j hj).2.2) hothers, hinit, fun x hx => ?_⟩
  · exact ⟨_, if_pos (hdead j hj).1, (hdead j hj).2.1⟩
  · rw [hcur] at hx
    have halive := hs.running x hx
    exact alive_of_member_eq (hothers x fun hx => halive.2 (of_decide_eq_true (hdead x hx).2.1)) halive

/-! ### Births -/

/-- The slot `i`, free in `s`, holds a new task. -/
abbrev Bears (i : Slot) (s s' : State) : Prop := Sets i (some ⟨s.nextTaskId, inheritedParent s, false⟩) s s'

/-- The parent of a new task is 0 or lives. -/
theorem Tended.inherited (hs : Tended s) : inheritedParent s = 0 ∨ Lives s.family (inheritedParent s) := by
  unfold inheritedParent
  split
  · exact .inl rfl
  · rename_i c hcur
    exact .inr (lives_family.mpr ⟨c, hs.running c hcur, rfl⟩)

/-- **A task is born.** -/
theorem Bears.goes (hs : Tended s) (hfree : findFreeSlot s = some i) (hpos : 0 < s.nextTaskId)
    (hfresh : ∀ j, (s.tasks j).used → (s.tasks j).id ≠ s.nextTaskId) (h : Bears i s s') : Goes s s' := by
  refine ⟨.birth i ⟨s.nextTaskId, inheritedParent s, false⟩ (member_free (findFreeSlot_unused hfree)) hpos ?_
    rfl hs.inherited h.self h.others, h.sysInitPid, fun x hx => ?_⟩
  · rintro ⟨j, m, hm, heq⟩
    obtain ⟨hused, hid, _⟩ := member_some hm
    exact hfresh j hused (hid.symm.trans heq)
  rw [h.current] at hx
  have hne : x ≠ i := by
    rintro rfl
    exact Bool.noConfusion ((hs.running x hx).1.symm.trans (findFreeSlot_unused hfree))
  exact alive_of_member_eq (h.others x hne) (hs.running x hx)

theorem Newborn.member {b : Entry} (hb : Newborn s b) :
    b.member = some ⟨s.nextTaskId, inheritedParent s, false⟩ := by
  rw [Entry.member, if_pos hb.used, hb.id, hb.parentId, Entry.isZombie, hb.state]
  rfl

/-- What a fork takes from its parent is nothing to the family. -/
theorem Parted.still (h : Parted s call s') : Still s s' := by
  cases h with
  | same => exact .refl s
  | fork e p hcur => exact still_modify rfl

/-- A new task is filled in, and put into its queue. -/
theorem Parted.bears {b : Entry} (h : Parted s call s') (hb : Newborn s b) (fg : Int) :
    Bears i s (schedEnqueueReady i ((s'.fill i b).setForeground fg)) := by
  have hstill := h.still
  refine .then ?_ (schedEnqueueReady_relinked i ((s'.fill i b).setForeground fg)).still
  refine ⟨⟨hstill.current, hstill.sysInitPid⟩, ?_, fun j hj => ?_⟩
  · rw [setForeground_tasks, fill_self]
    exact hb.member
  · rw [setForeground_tasks, fill_ne hj]
    exact hstill.members j

theorem Creation.goes {r : Int × State} (hnew : Creation s call r) (hs : Tended s)
    (hfresh : FreshId s call) : Goes s r.2 := by
  cases hnew with
  | refused h₀ => exact h₀.still.goes hs
  | born h₀ i hfree b hb fg =>
    obtain ⟨hpos, hunused⟩ := hfresh hb.creates
    exact (h₀.bears hb.newborn fg).goes hs hfree hpos hunused
  -- a birth that fails: the slot is free again
  | aborted i hfree b hused hb =>
    have hfrees := clearTask_frees i (s.fill i b)
    refine Still.goes ⟨⟨hfrees.current, hfrees.sysInitPid⟩, fun j => ?_⟩ hs
    by_cases hj : j = i
    · rw [hj, hfrees.self, member_free (findFreeSlot_unused hfree)]
    · rw [hfrees.others j hj, fill_ne hj]
  | unforked h₀ i hfree b hb =>
    have hstill := h₀.still
    refine Still.goes ⟨⟨hstill.current, hstill.sysInitPid⟩, fun j => ?_⟩ hs
    by_cases hj : j = i
    · rw [hj, fill_self, member_free hb.unused, member_free (findFreeSlot_unused hfree)]
    · rw [fill_ne hj]
      exact hstill.members j

/-! ### Switches and signals -/

/-- Nobody runs, or another task that lives. -/
theorem Still.switch (h : Still s s') {x : Option Slot} (hx : ∀ i, x = some i → (s'.tasks i).Alive) :
    Goes s (s'.setCurrent x) :=
  ⟨.quiet h.family, h.sysInitPid, hx⟩

theorem Still.parks (h : Still s s') : Goes s (s'.setCurrent none) := h.switch nofun

/-- The running task ends, and nobody runs. -/
theorem Departs.parks (h : Departs i s s') (halive : (s.tasks i).Alive)
    (hspared : (s.tasks i).id ≠ s.sysInitPid) : Goes s (s'.setCurrent none) :=
  ⟨.ending i _ halive.member rfl hspared h.fate h.others, h.sysInitPid, nofun⟩

/-- A switch or a signal to a living task. -/
theorem Switches.still (h : Switches i s s') (halive : (s.tasks i).Alive) : Still s s' := by
  have hself := h.self
  have hmember : (s'.tasks i).member = (s.tasks i).member := by
    refine halive.member_eq ⟨h.self.used.trans halive.1, ?_⟩ h.self.id (by rw [hself])
    rcases h.alive with heq | hne
    · rw [heq]
      exact halive.2
    · exact hne
  rw [← h.eq]
  exact (still_setPhys s _).trans (still_modify hmember)

/-- `schedule_back_to_idle`. -/
theorem scheduleBackToIdle_goes (hs : Tended s) (hcur : s.current = some c) (esp : Nat)
    (hspared : (s.tasks c).state = .finished ∨ (s.tasks c).state = .cancelled →
      (s.tasks c).id ≠ s.sysInitPid) : Goes s (scheduleBackToIdle esp s) := by
  have hsave : Still s (s.modify c fun t => { t with savedRsp := esp }) := still_modify rfl
  have hself : (s.modify c fun t => { t with savedRsp := esp }).tasks c
      = { s.tasks c with savedRsp := esp } := modify_self ..
  have halive := hs.running c hcur
  rcases scheduleBackToIdle_cases hcur esp with ⟨heq, -⟩ | ⟨heq, -, hend, hidle⟩ | ⟨heq, -⟩
  · have hset : Still (s.modify c fun t => { t with savedRsp := esp })
        ((s.modify c fun t => { t with savedRsp := esp }).modify c fun t => { t with state := .ready }) :=
      still_own (hs.still hsave) hcur rfl rfl rfl (.inr TaskState.noConfusion)
    rw [heq]
    exact ((hsave.trans hset).trans (schedEnqueueReady_relinked ..).still).parks
  · have halive₁ := alive_of_member_eq (hsave.members c) halive
    have hmember := halive₁.member
    have hacc := (hs.still hsave).accounted
    rw [heq]
    refine .after hsave (Departs.parks (completeTask_departs halive₁ ?_ (hacc.id_pos c _ hmember)
      (hacc.own c _ hmember)) halive₁ ?_)
    · rwa [hself]
    · rw [hself]
      exact hspared hend
  · rw [heq]
    exact hsave.parks

/-- `schedule_from_idle`, to a task that lives. -/
theorem scheduleFromIdle_goes (hs : Tended s)
    (hsel : ∀ i, selectNextReadyTask s = some i → (s.tasks i).Alive) : Goes s (scheduleFromIdle s) := by
  unfold scheduleFromIdle
  cases hnext : selectNextReadyTask s with
  | none => exact (Still.refl s).goes hs
  | some i =>
    have hlink := (schedDequeueReady_relinked (s.tasks i).priority s).still
    have halive := alive_of_member_eq (hlink.members i) (hsel i hnext)
    dsimp only
    generalize schedDequeueReady (s.tasks i).priority s = s₁ at hlink halive
    have hgo : Goes s (s₁.setCurrent (some i)) := hlink.switch fun x hx => by rwa [← Option.some.inj hx]
    exact hgo.before (still_modify (halive.member_eq ⟨halive.1, TaskState.noConfusion⟩ rfl rfl))

/-- `SIGKILL` to a task that is not running. -/
theorem slain_goes (hs : Tended s) (htarget : signalTarget s i sigkill)
    (hspared : (s.tasks i).id ≠ s.sysInitPid) (hcur : s.current ≠ some i) :
    Goes s (completeTask i (s.modify i fun t => t.killed sigkill)) := by
  simp only [signalTarget, Bool.and_eq_true, decide_eq_true_eq] at htarget
  have halive : (s.tasks i).Alive := ⟨htarget.1.1.1, htarget.1.2⟩
  have hmark := (switches_killed i sigkill s).still halive
  have hself : (s.modify i fun t => t.killed sigkill).tasks i = (s.tasks i).killed sigkill := modify_self ..
  have halive₁ := alive_of_member_eq (hmark.members i) halive
  have hacc := (hs.still hmark).accounted
  refine .after hmark (Departs.goes (hs.still hmark) (completeTask_departs halive₁ ?_
    (hacc.id_pos i _ halive₁.member) (hacc.own i _ halive₁.member)) halive₁ ?_ hcur)
  · rw [hself]
    exact htarget.2
  · rwa [hself]

end

/-! ## Whole runs -/

/-- Whom `SIGKILL` is sent to. -/
def Call.victim : Call → Option Int
  | .sendSignal id signum => if signum = sigkill then some id else none
  | _ => none

/-- `task_schedule_on_timer`, the one that picks a task. -/
def Call.picks : Call → Bool
  | .scheduleOnTimer _ => true
  | _ => false

/-- `task_set_init_pid`. -/
def Call.registers : Call → Bool
  | .setInitPid _ => true
  | _ => false

/-- The call kills the task in slot `i` at once, since it is not in the state `RUNNING`. -/
def Kills (s : State) (i : Slot) (c : Call) : Prop :=
  c.victim.bind (findTaskById s) = some i ∧ (s.tasks i).state ≠ .running

/-- The call is a switch away from the task in slot `i`, which has exited or dies of a signal. -/
def Leaves (s : State) (i : Slot) (c : Call) : Prop :=
  c.switches ∧ s.current = some i ∧ (((deliverSignals i s).tasks i).state = .finished ∨
    ((deliverSignals i s).tasks i).state = .cancelled)

/-- The call is a switch to the task in slot `i`. -/
def Selects (s : State) (i : Slot) (c : Call) : Prop :=
  c.picks ∧ s.current = none ∧ selectNextReadyTask s = some i

/-- **What a call must not do**: end init, register another one, kill the task that is being switched
    away from, switch to a slot with no living task in it, or make a task with an identifier that is
    not positive or in use. -/
structure Sound (s : State) (c : Call) : Prop where
  init : ∀ i, (s.tasks i).id = s.sysInitPid → ¬Kills s i c ∧ ¬Leaves s i c
  running : ∀ i, s.current = some i → ¬Kills s i c
  selected : ∀ i, Selects s i c → (s.tasks i).Alive
  registered : c.registers = false
  fresh : FreshId s c

/-- **One call.** -/
theorem step_goes {c : Call} (hs : Tended s) (hok : Sound s c) : Goes s (step s c).2 := by
  have hsame : Goes s s := (Still.refl s).goes hs
  have hkills : ∀ i id, c = .sendSignal id sigkill → findTaskById s id = some i →
      (s.tasks i).state ≠ .running → Kills s i c := by
    rintro i id rfl hfind hrun
    exact ⟨hfind, hrun⟩
  have hout := step_outcome s c
  generalize (step s c).2 = s' at hout
  cases hout with
  | same => exact hsame
  | nudged hc h => exact h.still.goes hs
  | ticked hc =>
    have hticks : Still s { s with ticks := s.ticks + 1 } := ⟨⟨rfl, rfl⟩, fun _ => rfl⟩
    exact (hticks.trans (taskOnTick_nudged _).still).goes hs
  | own i hc hcur f h => exact (still_own hs hcur h.id h.parentId h.used h.alive).goes hs
  | dispatched esp hc hcur =>
    exact scheduleFromIdle_goes hs fun i hi => hok.selected i ⟨by rw [hc]; rfl, hcur, hi⟩
  | left i esp hc hcur =>
    have hstill := (deliverSignals_switches i s).still (hs.running i hcur)
    refine .after hstill (scheduleBackToIdle_goes (hs.still hstill) (hstill.current.trans hcur) esp ?_)
    intro hends
    rw [(hstill.used_id (hs.running i hcur).1).2, hstill.sysInitPid]
    exact fun hid => (hok.init i hid).2 ⟨hc, hcur, hends⟩
  | stayed i hc hcur => exact ((deliverSignals_switches i s).still (hs.running i hcur)).goes hs
  | marked i id hc hfind htarget hrun =>
    simp only [signalTarget, Bool.and_eq_true, decide_eq_true_eq] at htarget
    exact ((switches_killed i sigkill s).still ⟨htarget.1.1.1, htarget.1.2⟩).goes hs
  | slain i id hc hfind htarget hrun =>
    have hkill := hkills i id hc hfind hrun
    exact slain_goes hs htarget (fun hid => (hok.init i hid).1 hkill) fun hcur => hok.running i hcur hkill
  | reaped k hused hz => exact (clearTask_frees k s).goes hs hused hz
  | collected k hc hused hz m r =>
    have hgo := (clearTask_frees k s).goes hs hused hz
    have hmem := hgo.before (still_setPhys _ m)
    exact hmem.before (still_onCurrent (hmem.tended hs) fun _ => ⟨rfl, rfl, rfl, .inl rfl⟩)
  | swept parent => exact taskReapZombiesFor_goes hs parent
  | created h => exact h.goes hs hok.fresh
  | registered pid hc =>
    rw [hc] at hok
    exact absurd hok.registered Bool.noConfusion
  | machine pages phys =>
    have hmachine : Still s { s with pages, phys } := ⟨⟨rfl, rfl⟩, fun _ => rfl⟩
    exact hmachine.goes hs

/-! ### The start -/

/-- `init_start`, with what `task_spawn` is given and gets. -/
def initStart (a : SpawnArgs) (s : State) : State :=
  let (pid, s) := taskSpawn a s
  if 0 < pid then
    let s := (taskSetPriority pid .normal s).2
    let s := taskSetOutputVc pid (-1) s
    { s with sysInitPid := pid }
  else s

/-- The kernel starts init: the idle task is the only one, and nobody runs. -/
structure OnlyIdle (s : State) : Prop where
  idle : (s.tasks 0).member = some ⟨1, 0, false⟩
  others : ∀ j, j ≠ 0 → (s.tasks j).member = none
  nextTaskId : s.nextTaskId = 2
  current : s.current = none

/-- `task_system_init` leaves such a table. -/
theorem taskSystemInit_onlyIdle (b : Boot) : OnlyIdle (taskSystemInit b) := by
  have hrelinked := schedEnqueueReady_relinked 0 (((blankState b).modify 0 (idleEntry b)).takeId)
  have hlink := hrelinked.still
  refine ⟨(hlink.members 0).trans ?_, fun j hj => (hlink.members j).trans ?_, hrelinked.stirred.nextTaskId,
    hlink.current⟩
  · rfl
  · rw [takeId_tasks, modify_ne hj]
    rfl

/-- A spawn that succeeds. -/
theorem taskSpawn_bears {a : SpawnArgs} (hok : 0 < (taskSpawn a s).1) :
    ∃ i, findFreeSlot s = some i ∧ Bears i s (taskSpawn a s).2 ∧ (taskSpawn a s).1 = s.nextTaskId := by
  obtain ⟨i, b, fg, hfree, hb, heq⟩ := (taskSpawn_creation (s := s) a).made (fun _ h => by cases h) (by omega)
  rw [heq]
  exact ⟨i, hfree, Parted.bears (.same (.spawn a)) hb.newborn fg, rfl⟩

/-- **The start**: once init is registered, the table is accounted for. -/
theorem initStart_tended (h : OnlyIdle s) {a : SpawnArgs} (hok : 0 < (taskSpawn a s).1) :
    Tended (initStart a s) := by
  obtain ⟨i, hfree, hborn, hpid⟩ := taskSpawn_bears hok
  have hself := hborn.self
  rw [h.nextTaskId, inheritedParent, h.current] at hself
  have hpid₂ : (taskSpawn a s).1 = 2 := hpid.trans h.nextTaskId
  unfold initStart
  dsimp only
  rw [if_pos hok]
  have hstill := (taskSetPriority_nudged (s := (taskSpawn a s).2) (taskSpawn a s).1 .normal).still.trans
    (taskSetOutputVc_nudged (taskSpawn a s).1 (-1)).still
  generalize taskSetOutputVc (taskSpawn a s).1 (-1)
    (taskSetPriority (taskSpawn a s).1 .normal (taskSpawn a s).2).2 = s₁ at hstill
  have hall := hborn.then hstill
  have hi : i ≠ 0 := by
    rintro rfl
    have hnone := member_free (findFreeSlot_unused hfree)
    rw [h.idle] at hnone
    cases hnone
  -- the table holds the idle task and init
  have hidle : (s₁.tasks 0).member = some ⟨1, 0, false⟩ := (hall.others 0 hi.symm).trans h.idle
  have hinit : (s₁.tasks i).member = some ⟨2, 0, false⟩ := (hstill.members i).trans hself
  have htwo : ∀ j m, (s₁.tasks j).member = some m → j = 0 ∧ m = ⟨1, 0, false⟩ ∨ j = i ∧ m = ⟨2, 0, false⟩ := by
    intro j m hm
    by_cases hj : j = i
    · subst hj
      exact .inr ⟨rfl, Option.some.inj (hm.symm.trans hinit)⟩
    · by_cases hj₀ : j = 0
      · subst hj₀
        exact .inl ⟨rfl, Option.some.inj (hm.symm.trans hidle)⟩
      · rw [hall.others j hj, h.others j hj₀] at hm
        cases hm
  refine ⟨?_, fun x hx => ?_⟩
  · show Accounted (taskSpawn a s).1 s₁.family
    rw [hpid₂]
    refine accounted_of_roots (fun j m hm => ?_) (fun j k m n hm hn hid => ?_) ⟨i, _, hinit, rfl, rfl⟩
    · rcases htwo j m hm with ⟨_, rfl⟩ | ⟨_, rfl⟩
      · exact ⟨by decide, rfl, rfl⟩
      · exact ⟨by decide, rfl, rfl⟩
    · rcases htwo j m hm with ⟨hj, rfl⟩ | ⟨hj, rfl⟩ <;> rcases htwo k n hn with ⟨hk, rfl⟩ | ⟨hk, rfl⟩
      · rw [hj, hk]
      · cases hid
      · cases hid
      · rw [hj, hk]
  · have hnone : s₁.current = none := hall.current.trans h.current
    exact absurd (hx.symm.trans hnone) (Option.some_ne_none _)

/-! ### The result -/

/-- **The accounting of zombies**: a zombie has a living parent, and so does a living task unless the
    kernel is its parent. -/
structure ParentsLive (s : State) : Prop where
  zombie : ∀ j, (s.tasks j).used → (s.tasks j).state = .zombie →
    ∃ p, (s.tasks p).Alive ∧ (s.tasks p).id = (s.tasks j).parentId
  living : ∀ j, (s.tasks j).Alive → (s.tasks j).parentId ≠ 0 →
    ∃ p, (s.tasks p).Alive ∧ (s.tasks p).id = (s.tasks j).parentId

/-- The task `id` has a slot. -/
def hasSlot (id : Int) (s : State) : Bool := (findTaskById s id).isSome

/-- How often the slot of the task `id` is released in a run. -/
def releases (id : Int) (s : State) (calls : List Call) : Nat := drops step (hasSlot id) s calls

theorem Tended.parentsLive (hs : Tended s) : ParentsLive s := by
  refine ⟨fun j hused hz => ?_, fun j halive hne => ?_⟩
  · exact lives_family.mp (hs.accounted.zombie j _ (if_pos hused) (decide_eq_true hz))
  · rcases hs.accounted.live j _ halive.member rfl with h | h
    · exact absurd h hne
    · exact lives_family.mp h

theorem hasSlot_iff : hasSlot id s ↔ ∃ i, (s.tasks i).used ∧ (s.tasks i).id = id := by
  constructor
  · intro h
    obtain ⟨i, hi⟩ := Option.isSome_iff_exists.mp h
    exact ⟨i, findTaskById_some hi⟩
  · rintro ⟨i, hused, hid⟩
    refine List.find?_isSome.mpr ⟨i, List.mem_finRange i, ?_⟩
    rw [hused, hid]
    exact decide_eq_true rfl

/-- No task is made with the identifier `id`. -/
def LeavesId (id : Int) (s : State) (c : Call) : Prop := c.creates → s.nextTaskId ≠ id

/-- A task that has no slot any more gets none until its identifier is handed out again. -/
theorem step_gone {c : Call} (hc : LeavesId id s c) (h : hasSlot id s = false) :
    hasSlot id (step s c).2 = false := by
  refine Bool.eq_false_iff.mpr fun h' => ?_
  obtain ⟨j, hused, hid⟩ := hasSlot_iff.mp h'
  rcases step_id hused with ⟨hu, heq⟩ | ⟨-, heq, hnew⟩
  · exact Bool.noConfusion (h.symm.trans (hasSlot_iff.mpr ⟨j, hu, heq.symm.trans hid⟩))
  · exact hc hnew (heq.symm.trans hid)

/-- **Zombies are accounted for.**  Once init is registered, in every run of sound calls every zombie and
    every task with a parent has a living one.  From any moment on at which a task has a slot, and as long
    as its identifier is not handed out again, the slot is released exactly once, unless the task is
    still there. -/
theorem zombie_accounting {s : State} (hs : OnlyIdle s) {a : SpawnArgs} (hinit : 0 < (taskSpawn a s).1)
    {calls : List Call} (hok : Guarded step Sound (initStart a s) calls) :
    ParentsLive (exec step (initStart a s) calls).2 ∧
      ∀ before after id, calls = before ++ after → hasSlot id (exec step (initStart a s) before).2 = true →
        Guarded step (LeavesId id) (exec step (initStart a s) before).2 after →
        releases id (exec step (initStart a s) before).2 after =
          if hasSlot id (exec step (initStart a s) calls).2 = true then 0 else 1 := by
  have hstep : ∀ s c, Tended s → Sound s c → Tended (step s c).2 :=
    fun _ _ hs hok => (step_goes hs hok).tended hs
  refine ⟨(exec_inv hstep calls _ (initStart_tended hs hinit) hok).parentsLive, ?_⟩
  rintro before after id rfl hborn hleaves
  rw [exec_append]
  exact drops_eq (fun _ _ => step_gone) after _ hleaves hborn

/-! ## Concrete runs -/

instance (s : State) (i : Slot) (c : Call) : Decidable (Kills s i c) := inferInstanceAs (Decidable (_ ∧ _))

instance (s : State) (i : Slot) (c : Call) : Decidable (Leaves s i c) :=
  inferInstanceAs (Decidable (_ ∧ _ ∧ _))

instance (s : State) (i : Slot) (c : Call) : Decidable (Selects s i c) :=
  inferInstanceAs (Decidable (_ ∧ _ ∧ _))

instance (id : Int) (s : State) (c : Call) : Decidable (LeavesId id s c) :=
  inferInstanceAs (Decidable (_ → _))

instance (s : State) (c : Call) : Decidable (Sound s c) :=
  decidable_of_iff ((∀ i, (s.tasks i).id = s.sysInitPid → ¬Kills s i c ∧ ¬Leaves s i c) ∧
      (∀ i, s.current = some i → ¬Kills s i c) ∧ (∀ i, Selects s i c → (s.tasks i).Alive) ∧
      c.registers = false ∧ FreshId s c)
    ⟨fun h => ⟨h.1, h.2.1, h.2.2.1, h.2.2.2.1, h.2.2.2.2⟩,
      fun h => ⟨h.init, h.running, h.selected, h.registered, h.fresh⟩⟩

instance (s : State) : Decidable (ParentsLive s) :=
  decidable_of_iff ((∀ j, (s.tasks j).used = true → (s.tasks j).state = .zombie →
      ∃ p, (s.tasks p).Alive ∧ (s.tasks p).id = (s.tasks j).parentId) ∧
      ∀ j, (s.tasks j).Alive → (s.tasks j).parentId ≠ 0 →
        ∃ p, (s.tasks p).Alive ∧ (s.tasks p).id = (s.tasks j).parentId)
    ⟨fun h => ⟨h.1, h.2⟩, fun h => ⟨h.zombie, h.living⟩⟩

/-- What `init_start` gives to `task_spawn`. -/
def initArgs : SpawnArgs where
  name := "init".toList
  step := 1
  dataSize := 0
  foreground := false
  stack := 0x30000
  data := 0

/-- Init starts a program and waits for it; the program starts another one and exits; init, which has
    adopted the other one, looks for zombies. -/
def orphanedProgram : List Call :=
  [.scheduleOnTimer 0, .spawnUser quietProgram, .waitId (-1), .scheduleOnSyscall 0, .scheduleOnTimer 0,
    .spawnUser quietProgram, .exit 7, .scheduleOnSyscall 0, .scheduleOnTimer 0, .reapZombiesFor 2]

/-- The machine after init was started and the calls were made. -/
def afterInit (calls : List Call) : State := (exec step (initStart initArgs (taskSystemInit quietBoot)) calls).2

theorem zombie_accounting_orphan :
    (Guarded step Sound (afterInit []) orphanedProgram ∧ hasSlot 3 (afterInit (orphanedProgram.take 2)) = true) ∧
      ParentsLive (afterInit orphanedProgram) ∧
      releases 3 (afterInit (orphanedProgram.take 2)) (orphanedProgram.drop 2) = 1 := by
  have hok : Guarded step Sound (afterInit []) orphanedProgram := by decide +kernel
  have hborn : hasSlot 3 (afterInit (orphanedProgram.take 2)) := by decide +kernel
  have hleaves : Guarded step (LeavesId 3) (afterInit (orphanedProgram.take 2)) (orphanedProgram.drop 2) := by
    decide +kernel
  obtain ⟨hlive, hone⟩ := zombie_accounting (taskSystemInit_onlyIdle quietBoot)
    (show 0 < (taskSpawn initArgs (taskSystemInit quietBoot)).1 by decide +kernel) hok
  refine ⟨⟨hok, hborn⟩, hlive, ?_⟩
  -- no slot holds the task at the end
  exact (hone _ _ 3 (List.take_append_drop ..).symm hborn hleaves).trans (by decide +kernel)

/-- Init starts a program and waits for it; the program sends `SIGKILL` to init. -/
def killedInit : List Call :=
  [.scheduleOnTimer 0, .spawnUser quietProgram, .waitId (-1), .scheduleOnSyscall 0, .scheduleOnTimer 0,
    .sendSignal 2 9]

/-- **A task whose parent is a free slot.**  The program lives and has the parent 2, and no slot holds a
    task 2 any more. -/
theorem killed_init_leaves_orphan :
    ¬ParentsLive (afterInit killedInit) ∧ ((afterInit killedInit).tasks 2).Alive ∧
      ((afterInit killedInit).tasks 2).parentId = 2 ∧ hasSlot 2 (afterInit killedInit) = false := by
  refine ⟨?_, ?_, ?_, ?_⟩ <;> decide +kernel

end Lyth.Task
