/-
  NO PRIVILEGE GAIN (`kernel/task/task.c`): what a task without privilege, and all tasks that descend
  from it, can become.

  1. THE PROGRAM is the task table of `Lyth.Task`, with every call in every order and by every task.

  2. THE SPECIFICATION.  A family is one task and its descendants: a slot that a spawn or a fork of a
     member fills is a member for as long as it is in use.  If the first member has neither `uid` nor
     `euid` 0, then in every run no member ever has, and no member has a group, effective group or
     supplementary group that the first one did not have.

  3. THE CRUX.  `Within c₀ c` (neither identifier is root's, and all groups are groups of `c₀`) is kept
     by the setters, because a task that is not root may only choose among what it has, and it passes
     from the running task to what it creates.  `task_force_identity` is the kernel's own path for
     logging in and is not one of the calls a task can make.
-/
import Lyth.TaskEffects

namespace Lyth.Task

open Run

/-- The groups of a task: real, effective and supplementary. -/
def groups (c : Creds) : List UInt32 := c.gid :: c.egid :: c.suppGroups.take c.suppGroupCount

/-- No more than `c₀`: not root, and no group that `c₀` does not have. -/
structure Within (c₀ c : Creds) : Prop where
  uid : c.uid ≠ 0
  euid : c.euid ≠ 0
  groups : ∀ g ∈ groups c, g ∈ Task.groups c₀

variable {c c₀ : Creds}

/-- A group that the test of `task_set_current_gid` accepts is one of the task's groups. -/
theorem mem_groups_of_test {gid : UInt32} (h : gid = c.gid ∨ hasGroup c gid) : gid ∈ groups c := by
  rcases h with rfl | h
  · exact .head _
  · simp only [hasGroup, Bool.or_eq_true, decide_eq_true_eq, List.contains_iff_mem] at h
    rcases h with rfl | h
    · exact .tail _ (.head _)
    · exact .tail _ (.tail _ h)

variable {call : Call}

/-- **The setters choose among what the task has.** -/
theorem Within.after (h : Within c₀ c)
    (hcall : ∀ uid gid, call ≠ .forceIdentity uid gid) : Within c₀ (credsAfter c call) := by
  cases call with
  | setUid uid =>
    rw [credsAfter, if_neg h.euid]
    split
    · rename_i huid
      exact ⟨h.uid, huid ▸ h.uid, h.groups⟩
    · exact h
  | setGid gid =>
    rw [credsAfter, if_neg h.euid]
    split
    · rename_i hgid
      refine ⟨h.uid, h.euid, ?_⟩
      intro g hg
      rcases List.mem_cons.mp hg with rfl | hg
      · exact h.groups _ (.head _)
      · rcases List.mem_cons.mp hg with rfl | hg
        · exact h.groups _ (mem_groups_of_test hgid)
        · exact h.groups _ (.tail _ (.tail _ hg))
    · exact h
  | setGroups gids count =>
    rwa [credsAfter, if_pos (.inr (.inr h.euid))]
  | forceIdentity uid gid => exact absurd rfl (hcall uid gid)
  | _ => exact h

/-! ## Families -/

/-- The machine, with one family marked. -/
structure World where
  state : State
  family : Slot → Bool

/-- The running task is a member. -/
def World.memberRuns (w : World) : Bool :=
  match w.state.current with
  | none => false
  | some c => w.family c

/-- A slot in use stays in or out of the family; one that a call fills belongs to the family of the
    running task. -/
def World.descend (w : World) (s' : State) : World where
  state := s'
  family j := (s'.tasks j).used && (if (w.state.tasks j).used then w.family j else w.memberRuns)

def worldStep (w : World) (c : Call) : Int × World :=
  ((step w.state c).1, w.descend (step w.state c).2)

/-- A member makes only the calls that tasks can make. -/
def NoForce (w : World) (c : Call) : Prop :=
  w.memberRuns → ∀ uid gid, c ≠ .forceIdentity uid gid

/-- Every member is within `c₀`. -/
def Confined (c₀ : Creds) (w : World) : Prop :=
  ∀ j, w.family j → Within c₀ (w.state.tasks j).creds

/-- A task at its end keeps its identity for as long as its slot is in use. -/
theorem Ended.creds {t t' : Entry} (h : Ended t t') (hused : t'.used) : t'.creds = t.creds := by
  obtain ⟨u, hu, hk | hk⟩ := h
  · exact absurd (hk.used.symm.trans hused) Bool.noConfusion
  · rw [hk.creds, ← hu.creds]
    rfl

/-- A new task has the identity of the running one. -/
theorem Born.creds {s : State} {old b : Entry} (h : Born s old call b) {p : Slot}
    (hp : s.current = some p) : b.creds = (s.tasks p).creds := by
  rw [h.inherits.2, inheritedCreds, hp]

/-- **One call keeps the family confined.** -/
theorem worldStep_confined {w : World} (h : Confined c₀ w)
    (hok : NoForce w call) : Confined c₀ (worldStep w call).2 := by
  intro j hj
  have hboth : (w.descend (step w.state call).2).family j := hj
  simp only [World.descend, Bool.and_eq_true] at hboth
  obtain ⟨hused', hmember⟩ := hboth
  show Within c₀ ((step w.state call).2.tasks j).creds
  have hchange := step_change w.state call j
  by_cases hused : (w.state.tasks j).used
  · -- the slot was in use: its task is a member
    rw [if_pos hused] at hmember
    have hw := h j hmember
    cases hchange with
    | kept hk => rwa [hk.creds]
    | own hcur hact =>
      rw [hact.creds]
      refine hw.after (hok ?_)
      rwa [World.memberRuns, hcur]
    | killed _ hsw =>
      rwa [hsw.creds]
    | dispatched _ n heq =>
      rwa [heq]
    | ended _ u hu hend =>
      rwa [hend.creds hused', hu.creds]
    | born hfree => exact absurd (hused.symm.trans (findFreeSlot_unused hfree)) Bool.noConfusion
    | aborted hfree => exact absurd (hused.symm.trans (findFreeSlot_unused hfree)) Bool.noConfusion
  · -- the slot was free: only a creation can have filled it
    rw [if_neg hused] at hmember
    cases hchange with
    | kept hk => exact absurd (hk.used ▸ hused') hused
    | own hcur hact => exact absurd (hact.used ▸ hused') hused
    | killed _ hsw => exact absurd (hsw.used ▸ hused') hused
    | dispatched _ n heq => exact absurd (by rw [heq] at hused'; exact hused') hused
    | ended hu => exact absurd hu hused
    | born hfree b n hb heq =>
      unfold World.memberRuns at hmember
      split at hmember
      · cases hmember
      · rename_i p hp
        rw [heq]
        show Within c₀ b.creds
        rw [hb.creds hp]
        exact h p hmember
    | aborted hfree hab => exact absurd (hab.unused.symm.trans hused') Bool.noConfusion

/-- The family of one task, before it has descendants. -/
def World.start (s : State) (i : Slot) : World := ⟨s, fun j => decide (j = i)⟩

/-- **No privilege gain.**  From any state, in every run, no descendant of a task that is not root
    becomes root or gets a group that the task did not have. -/
theorem no_privilege_gain (s : State) (i : Slot) (huid : (s.tasks i).creds.uid ≠ 0)
    (heuid : (s.tasks i).creds.euid ≠ 0) (calls : List Call)
    (hok : Guarded worldStep NoForce (World.start s i) calls) (j : Slot)
    (hj : (exec worldStep (World.start s i) calls).2.family j = true) :
    Within (s.tasks i).creds ((exec worldStep (World.start s i) calls).2.state.tasks j).creds := by
  have hstart : Confined (s.tasks i).creds (World.start s i) := by
    intro k hk
    have hki : k = i := of_decide_eq_true hk
    rw [hki]
    exact ⟨huid, heuid, fun _ hg => hg⟩
  have hstep : ∀ w (c : Call), Confined (s.tasks i).creds w → NoForce w c →
      Confined (s.tasks i).creds (worldStep w c).2 := fun w c h hc => worldStep_confined h hc
  exact exec_inv hstep calls _ hstart hok j hj

/-- A machine on which user 1000 has logged in and runs a program in slot 1. -/
def loggedIn : State :=
  (exec step (taskSystemInit quietBoot)
    [.spawnUser quietProgram, .scheduleOnTimer 0, .forceIdentity 1000 1000]).2

/-- The program tries to become root, to join groups, and forks. -/
def climbs : List Call :=
  [.setUid 0, .setGid 0, .setGroups [0] 1, .fork quietFork, .setGid 1000]

theorem no_privilege_gain_climbs : (loggedIn.tasks 1).creds.uid ≠ 0 ∧ (loggedIn.tasks 1).creds.euid ≠ 0 ∧
      Guarded worldStep NoForce (World.start loggedIn 1) climbs ∧
      (exec worldStep (World.start loggedIn 1) climbs).2.family 2 = true ∧
      Within (loggedIn.tasks 1).creds
        ((exec worldStep (World.start loggedIn 1) climbs).2.state.tasks 2).creds := by
  have huid : (loggedIn.tasks 1).creds.uid ≠ 0 := by decide +kernel
  have heuid : (loggedIn.tasks 1).creds.euid ≠ 0 := by decide +kernel
  have hok : Guarded worldStep NoForce (World.start loggedIn 1) climbs := by
    refine ⟨?_, ?_, ?_, ?_, ?_, trivial⟩
    all_goals
      intro _ uid gid heq
      cases heq
  have hchild : (exec worldStep (World.start loggedIn 1) climbs).2.family 2 := by
    decide +kernel
  exact ⟨huid, heuid, hok, hchild, no_privilege_gain loggedIn 1 huid heuid climbs hok 2 hchild⟩

end Lyth.Task
