/-
  IDENTIFIERS OF TASKS (`kernel/task/task.c`).

  A new task takes the value of `next_task_id`, an `int` that counts up and wraps, and `clear_task` is
  the only place that takes an identifier away.  So as long as no task is made while another one in use
  still has the value of the counter, the tasks in use have DISTINCT identifiers: `findTaskById` finds
  the task it is asked for, and a task that was reaped is not found.
-/
import Lyth.TaskEffects

namespace Lyth.Task

open Run

/-! ## The idle task -/

section

variable {s s' : State} {c : Call}

theorem Switches.idleTaskId {i : Slot} (h : Switches i s s') : s'.idleTaskId = s.idleTaskId := by
  rw [h.globals]

theorem scheduleBackToIdle_idleTaskId {i : Slot} (hcur : s.current = some i) (esp : Nat) :
    (scheduleBackToIdle esp s).idleTaskId = s.idleTaskId := by
  rcases scheduleBackToIdle_cases hcur esp with ⟨heq, -⟩ | ⟨heq, hused, -, hidle⟩ | ⟨heq, -⟩
  · rw [heq]
    exact (schedEnqueueReady_relinked i _).stirred.idleTaskId
  · have hends : Ends i (s.modify i fun t => { t with savedRsp := esp })
        (completeTask i (s.modify i fun t => { t with savedRsp := esp })) := by
      refine completeTask_ends ?_ ?_
      · rwa [modify_self]
      · rwa [modify_self]
    rw [heq]
    exact hends.others.idleTaskId
  · rw [heq]
    rfl

theorem scheduleFromIdle_idleTaskId (s : State) : (scheduleFromIdle s).idleTaskId = s.idleTaskId := by
  unfold scheduleFromIdle
  split
  · rfl
  · exact (schedDequeueReady_relinked _ s).stirred.idleTaskId

theorem Parted.idleTaskId (h : Parted s c s') : s'.idleTaskId = s.idleTaskId := by
  cases h with
  | same => rfl
  | fork e p hcur => rfl

theorem Creation.idleTaskId {r : Int × State} (h : Creation s c r) : r.2.idleTaskId = s.idleTaskId := by
  cases h with
  | refused h₀ => exact h₀.idleTaskId
  | born h₀ i hfree b hb fg =>
    exact (schedEnqueueReady_relinked ..).stirred.idleTaskId.trans h₀.idleTaskId
  | aborted i hfree b hused hb => exact (clearTask_stirred i _).idleTaskId
  | unforked h₀ i hfree b hb => exact h₀.idleTaskId

/-- `idle_task_id` stays what the start of the machine made it. -/
theorem step_idleTaskId (s : State) (c : Call) : (step s c).2.idleTaskId = s.idleTaskId := by
  have hout := step_outcome s c
  generalize (step s c).2 = s' at hout ⊢
  cases hout with
  | nudged hc h => exact h.idleTaskId
  | ticked hc => exact (taskOnTick_nudged { s with ticks := s.ticks + 1 }).idleTaskId
  | dispatched esp hc hcur => exact scheduleFromIdle_idleTaskId s
  | left i esp hc hcur =>
    have hdel := deliverSignals_switches i s
    exact (scheduleBackToIdle_idleTaskId (hdel.current.trans hcur) esp).trans hdel.idleTaskId
  | stayed i hc hcur => exact (deliverSignals_switches i s).idleTaskId
  | slain i id hc hfind htarget hrun =>
    simp only [signalTarget, Bool.and_eq_true, decide_eq_true_eq] at htarget
    refine (completeTask_ends ?_ ?_).others.idleTaskId.trans (switches_killed i sigkill s).idleTaskId
    · rw [modify_self]
      exact htarget.1.1.1
    · rw [modify_self]
      exact htarget.2
  | reaped k hused hz => exact (clearTask_stirred k s).idleTaskId
  | collected k hc hused hz m r =>
    exact ((stirred_setPhys _ m).trans (stirred_answer _ r)).idleTaskId.trans
      (clearTask_stirred k s).idleTaskId
  | swept parent =>
    refine forSlots_inv (P := fun s' => s'.idleTaskId = s.idleTaskId) rfl fun i s' h => ?_
    split
    · exact (clearTask_stirred i s').idleTaskId.trans h
    · exact h
  | created h => exact h.idleTaskId
  | _ => rfl

end

variable {s : State}

/-! ## Distinct identifiers -/

/-- The call makes tasks. -/
def Call.creates : Call → Bool
  | .spawn _ | .spawnUser _ | .fork _ => true
  | _ => false

/-- Whoever makes a task finds `next_task_id` positive and at a value that no task in use has. -/
def FreshId (s : State) (c : Call) : Prop :=
  c.creates → 0 < s.nextTaskId ∧ ∀ j, (s.tasks j).used → (s.tasks j).id ≠ s.nextTaskId

instance (s : State) (c : Call) : Decidable (FreshId s c) := inferInstanceAs (Decidable (_ → _))

/-- The tasks in use have distinct identifiers. -/
def Distinct (s : State) : Prop :=
  ∀ j k, (s.tasks j).used → (s.tasks k).used → (s.tasks j).id = (s.tasks k).id → j = k

theorem Born.creates {c : Call} {old b : Entry} (hb : Born s old c b) : c.creates := by
  cases hb with
  | spawn a => rfl
  | spawnUser a => rfl
  | fork e p hp => rfl

/-- What a call does to the identifier of a slot that is in use afterwards: it is the old one, or the
    slot was free and it is new. -/
theorem step_id {c : Call} {j : Slot} (hused : ((step s c).2.tasks j).used) :
    (s.tasks j).used ∧ ((step s c).2.tasks j).id = (s.tasks j).id ∨
      findFreeSlot s = some j ∧ ((step s c).2.tasks j).id = s.nextTaskId ∧ c.creates := by
  cases step_change s c j with
  | kept h => exact .inl ⟨h.used.symm.trans hused, h.id⟩
  | own _ h => exact .inl ⟨h.used.symm.trans hused, h.id⟩
  | killed _ h => exact .inl ⟨(Switched.used h).symm.trans hused, Switched.id h⟩
  | dispatched _ n h =>
    rw [h] at hused ⊢
    exact .inl ⟨hused, rfl⟩
  | ended hu u hsw hend =>
    obtain ⟨v, hv, hend | hend⟩ := hend
    · exact absurd (hend.used.symm.trans hused) Bool.noConfusion
    · exact .inl ⟨hu, hend.id.trans (hv.id.trans hsw.id)⟩
  | born hfree b n hb heq =>
    refine .inr ⟨hfree, ?_, hb.creates⟩
    rw [heq]
    exact hb.newborn.id
  | aborted _ hab => exact absurd (hab.unused.symm.trans hused) Bool.noConfusion

/-- **The step lemma.** -/
theorem step_distinct (h : Distinct s) {c : Call} (hc : FreshId s c) : Distinct (step s c).2 := by
  intro j k hj hk heq
  rcases step_id hj with ⟨hu, hid⟩ | ⟨hfree, hid, hnew⟩
  · rcases step_id hk with ⟨hu', hid'⟩ | ⟨-, hid', hnew⟩
    · exact h j k hu hu' (hid.symm.trans (heq.trans hid'))
    · exact absurd (hid.symm.trans (heq.trans hid')) ((hc hnew).2 j hu)
  · rcases step_id hk with ⟨hu', hid'⟩ | ⟨hfree', -, -⟩
    · exact absurd (hid'.symm.trans (heq.symm.trans hid)) ((hc hnew).2 k hu')
    · exact Option.some.inj (hfree.symm.trans hfree')

/-- The machine starts with one task, the idle one. -/
theorem distinct_init (b : Boot) : Distinct (taskSystemInit b) := by
  have hlink := schedEnqueueReady_relinked 0 ((blankState b).modify 0 (idleEntry b)).takeId
  have hentry : ∀ j, ((taskSystemInit b).tasks j).used → j = 0 := by
    intro j hj
    have heq : (taskSystemInit b).tasks j = (((blankState b).modify 0 (idleEntry b)).tasks j).setNext
            ((taskSystemInit b).tasks j).schedNext := hlink.entries j
    rw [heq, modify_tasks] at hj
    by_contra hj0
    rw [if_neg hj0] at hj
    cases hj
  intro j k hj hk _
  rw [hentry j hj, hentry k hk]

/-- **Identifiers are distinct in every state of every run** whose new tasks get fresh ones. -/
theorem exec_distinct {b : Boot} {calls : List Call} (h : Guarded step FreshId (taskSystemInit b) calls) :
    Distinct (exec step (taskSystemInit b) calls).2 := by
  have hstep : ∀ s c, Distinct s → FreshId s c → Distinct (step s c).2 :=
    fun _ _ hd hc => step_distinct hd hc
  exact exec_inv hstep calls _ (distinct_init b) h

/-- A task in use is found by its identifier. -/
theorem Distinct.find (h : Distinct s) {i : Slot} (hused : (s.tasks i).used) :
    findTaskById s (s.tasks i).id = some i := by
  cases hfind : findTaskById s (s.tasks i).id with
  | none =>
    have hno := List.find?_eq_none.mp hfind i (List.mem_finRange i)
    simp [hused] at hno
  | some j =>
    obtain ⟨hj, hid⟩ := findTaskById_some hfind
    rw [h j i hj hused hid]

/-- No task in use has an identifier that is not found. -/
theorem findTaskById_none {id : Int}
    (h : ∀ j, (s.tasks j).used → (s.tasks j).id ≠ id) : findTaskById s id = none := by
  cases hfind : findTaskById s id with
  | none => rfl
  | some j =>
    obtain ⟨hj, hid⟩ := findTaskById_some hfind
    exact absurd hid (h j hj)

end Lyth.Task
