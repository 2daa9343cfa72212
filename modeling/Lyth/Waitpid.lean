/-
  WAITING FOR A CHILD (`task_waitpid` and `complete_task` of `kernel/task/task.c`).

  1. THE SPECIFICATION.  A parent calls `waitpid(child, &status)`.  When it runs again, `rax` is the
     identifier of the child, the child is in the table no more, and the word at `&status`, read
     through the page tables of the parent, says how the child ended (`Delivered`).

  2. THE PROGRAM has two ways to get there.  A child that has ended already is collected by
     `task_waitpid` itself.  For a child that still lives the parent is blocked, and a comment says
     that `complete_task` will fill in `rax` and the status.

  3. THE CRUX.  `complete_task` looks whether the parent is BLOCKED, but only after it has woken it: by
     the event of the child, and by `SIGCHLD`.  So the second way is never taken (`step_rests`): a
     parent that had to wait finds in `rax` the 0 it was blocked with.  The first way stores the status
     through the contiguous region of the parent, which a fork takes away, and decodes exit codes from
     128 on as signals.  `waitpid_delivers_iff` puts the three together.
-/
import Lyth.Idents

namespace Lyth.Task

open Run Bytes
open Paging (userBase userSize pageSize pagingDirectoryUserBufferIsAccessible range_of_accessible)

/-! ## The specification -/

/-- How a task ends: `task_exit(code)`, or by a signal. -/
inductive ExitPath
  | exit (code : Nat)
  | signal (signum : Nat)
deriving DecidableEq

/-- Codes of a byte, signals that exist. -/
def ExitPath.Valid : ExitPath → Prop
  | .exit code => code ≤ 255
  | .signal signum => 1 ≤ signum ∧ signum ≤ signalMax

instance : (e : ExitPath) → Decidable e.Valid
  | .exit code => inferInstanceAs (Decidable (code ≤ 255))
  | .signal signum => inferInstanceAs (Decidable (1 ≤ signum ∧ signum ≤ signalMax))

/-- What the end of a task leaves in its `exit_code`. -/
def ExitPath.recorded : ExitPath → Int
  | .exit code => code
  | .signal signum => 128 + signum

/-- The status that the parent is to see. -/
def ExitPath.status : ExitPath → Nat
  | .exit code => code * 256
  | .signal signum => signum

/-- Memory as user code sees it through a directory. -/
def userView (s : State) (dir : Nat) : Mem := fun va =>
  match s.pages dir (va / pageSize) with
  | some frame => s.phys (frame + va % pageSize)
  | none => 0

/-- The parent `c` has been given what it waited for. -/
structure Delivered (s : State) (c : Slot) (child : Int) (status : Nat) (e : ExitPath) : Prop where
  answer : (s.tasks c).frame.rax = UInt64.ofInt child
  reaped : findTaskById s child = none
  word : getLE (userView s (s.tasks c).pageDirectory) status 4 = e.status

/-- The user task `c` runs, and is about to wait for its child `i` with a valid status address. -/
structure Waits (s : State) (c i : Slot) (status : Nat) : Prop where
  current : s.current = some c
  parentUsed : (s.tasks c).used
  parentRuns : (s.tasks c).state = .running
  parentUser : (s.tasks c).userMode
  parentDir : (s.tasks c).pageDirectory ≠ 0
  notIdle : (s.tasks c).id ≠ s.idleTaskId
  childUsed : (s.tasks i).used
  child : (s.tasks i).parentId = (s.tasks c).id
  other : i ≠ c
  pidPos : 0 < (s.tasks i).id
  pidInt : (s.tasks i).id < 2 ^ 31
  statusSet : status ≠ 0
  statusValid : validateUserBuffer s status 4
  frames : ∀ page frame, s.pages (s.tasks c).pageDirectory page = some frame → frame % pageSize = 0
  region : (s.tasks c).userPhysicalBase % pageSize = 0

/-- While the parent waits, the only thing done in its name is the switch away from it, it is not
    killed, and new tasks get fresh identifiers. -/
structure Absent (c : Slot) (s : State) (call : Call) : Prop where
  away : s.current = some c → (s.tasks c).state = .blocked ∧ ∃ esp, call = .scheduleOnSyscall esp
  spared : call ≠ .sendSignal (s.tasks c).id sigkill
  fresh : FreshId s call

/-- After these calls the parent runs again, for the first time. -/
structure Resumes (c : Slot) (s : State) (calls : List Call) : Prop where
  absent : Guarded step (Absent c) s calls
  current : (exec step s calls).2.current = some c
  runs : ((exec step s calls).2.tasks c).state = .running

/-- The four bytes of the status lie where the contiguous region of the parent has them. -/
def StatusInRegion (s : State) (c : Slot) (status : Nat) : Prop :=
  ∀ k, k < 4 → ∃ frame, s.pages (s.tasks c).pageDirectory ((status + k) / pageSize) = some frame ∧
    frame + (status + k) % pageSize = (s.tasks c).userPhysicalBase + (status + k - userBase)

/-! ## The end of a child -/

theorem clearTask_frame (i : Slot) (s : State) (c : Slot) :
    ((clearTask i s).tasks c).frame = (s.tasks c).frame :=
  Eq.trans (modify_field Entry.frame rfl c) ((schedRemoveFromReady_relinked i s).nudged.frame c)

theorem zombifyTask_frame (i : Slot) (s : State) (c : Slot) :
    ((zombifyTask i s).tasks c).frame = (s.tasks c).frame :=
  Eq.trans (modify_field Entry.frame rfl c) ((schedRemoveFromReady_relinked i s).nudged.frame c)

theorem announceEnd_frame (i : Slot) (fg : Int) (s : State) (c : Slot) :
    ((announceEnd i fg s).tasks c).frame = (s.tasks c).frame := by
  have hreparent : ∀ old new (s : State),
      ((reparentChildren old new s).tasks c).frame = (s.tasks c).frame := by
    intro old new s
    unfold reparentChildren
    split
    · rfl
    · refine forSlots_inv (P := fun s' => (s'.tasks c).frame = (s.tasks c).frame) rfl (fun i s' h => ?_)
      split
      · exact Eq.trans (modify_field Entry.frame rfl c) h
      · exact h
  unfold announceEnd
  rw [(taskSignalEvent_nudged ..).frame c, hreparent]
  exact (schedRemoveFromReady_relinked i s).nudged.frame c

variable {c : Slot}

/-- The result goes into the trap frame of the parent only. -/
theorem reapForParent_frame {i p : Slot} (hc : c ≠ p) (s : State) :
    ((reapForParent i p s).tasks c).frame = (s.tasks c).frame := by
  obtain ⟨m, f, u, heq⟩ := reapForParent_eq i p s
  rw [heq, clearTask_frame, (taskSignalEvent_nudged ..).frame c, modify_ne hc, setPhys_tasks]

variable {s : State}

theorem settleWithParent_frame {i : Slot} {parent : Option Slot} (parentId : Int)
    (hno : parent = some c → ¬(s.tasks c).WaitsForChild (s.tasks i).id) :
    ((settleWithParent i parent parentId s).tasks c).frame = (s.tasks c).frame := by
  fun_cases settleWithParent i parent parentId s with
  | case2 p hwait => exact reapForParent_frame (fun hcp : c = p => hno (hcp ▸ rfl) (hcp ▸ hwait)) s
  | case3 => exact ((taskSignalEvent_nudged ..).frame c).trans (zombifyTask_frame i s c)
  | _ => exact clearTask_frame i s c

/-- **A parent that was told of the end of its child is not blocked any more.** -/
theorem queuePending_unblocks (hused : (s.tasks c).used)
    (hidle : (s.tasks c).id ≠ s.idleTaskId) :
    ((queuePending c sigchld s).tasks c).state ≠ .blocked := by
  unfold queuePending
  by_cases hz : (s.tasks c).state = .zombie
  · rw [if_neg (by simp [signalTarget, hz]), hz]
    decide
  have htarget : signalTarget s c sigchld := by
    simp only [signalTarget, hused, hz, hidle, Bool.and_eq_true, decide_eq_true_eq, ne_eq,
      not_false_eq_true, and_true, true_and]
    decide
  rw [if_pos htarget]
  unfold wakeStopped
  split
  · rw [(schedEnqueueReady_relinked ..).entries c, modify_self]
    exact fun h => TaskState.noConfusion h
  · rename_i hstop
    exact fun hb => hstop (.inr hb)

/-- **The end of a task leaves the registers of every other task alone**: the branch of
    `complete_task` that would fill them in finds no parent blocked. -/
theorem completeTask_frame {i : Slot} (hused : (s.tasks i).used)
    (hstate : (s.tasks i).state = .finished ∨ (s.tasks i).state = .cancelled)
    (hidle : (s.tasks c).id ≠ s.idleTaskId)
    (hdistinct : c ≠ i → (s.tasks c).id ≠ (s.tasks i).id) :
    ((completeTask i s).tasks c).frame = (s.tasks c).frame := by
  by_cases hself : (s.tasks i).id = s.idleTaskId
  · rw [completeTask_idle hused hself]
    exact ((schedEnqueueReady_relinked ..).nudged.frame c).trans (modify_field Entry.frame rfl c)
  have hstop : ¬(s.tasks i).Stopped := by
    rintro (hs | hs) <;> rw [hs] at hstate <;> rcases hstate with h | h <;> cases h
  obtain ⟨fg, heq⟩ := completeTask_eq hused hself
  have hkin := announceEnd_stirred i fg s
  have hframe := announceEnd_frame i fg s c
  rw [heq]
  generalize announceEnd i fg s = s₁ at hkin hframe
  have hnotify := notifyEnd_nudged (s.tasks i).id (parentSlot s₁ (s.tasks i).parentId) s₁
  refine (settleWithParent_frame _ ?_).trans ((hnotify.frame c).trans hframe)
  intro hparent hwait
  by_cases hci : c = i
  · -- a task that is its own parent has ended, and is not blocked
    subst hci
    have hst := ((hkin.trans hnotify.toStirred).entries c fun h => h).state_of_not_stopped hstop
    exact hstop (.inr (hst.symm.trans hwait.1))
  have hc := hkin.entries c fun h => h
  have hcused : (s₁.tasks c).used := by
    unfold parentSlot at hparent
    split at hparent
    · exact (findTaskById_some hparent).1
    · cases hparent
  have hcid : (s₁.tasks c).id ≠ (s.tasks i).id := by
    rw [hc.id]
    exact hdistinct hci
  have hcidle : (s₁.tasks c).id ≠ s₁.idleTaskId := by
    rwa [hc.id, hkin.idleTaskId]
  have hstate₁ := hwait.1
  have htold : notifyEnd (s.tasks i).id (some c) s₁ = queuePending c sigchld s₁ := if_pos hcid
  rw [hparent, htold] at hstate₁
  exact queuePending_unblocks hcused hcidle hstate₁

/-! ## A task that rests -/

/-- What stays of a task that waits while others run. -/
structure Rests (t t' : Entry) : Prop where
  used : t'.used = t.used
  id : t'.id = t.id
  frame : t'.frame = t.frame
  alive : t.state ≠ .zombie → t'.state ≠ .zombie

section

variable {t t' t'' : Entry}

theorem Rests.refl (t : Entry) : Rests t t := ⟨rfl, rfl, rfl, fun h => h⟩

theorem Rests.of_eq (h : t' = t) : Rests t t' := by
  rw [h]
  exact .refl t

theorem Rests.trans (h : Rests t t') (h' : Rests t' t'') : Rests t t'' :=
  ⟨h'.used.trans h.used, h'.id.trans h.id, h'.frame.trans h.frame, fun hz => h'.alive (h.alive hz)⟩

theorem Kin.rests (h : Kin t t') (hf : t'.frame = t.frame) : Rests t t' := by
  refine ⟨h.used, h.id, hf, fun hz => ?_⟩
  rcases h.state with heq | ⟨-, -, hready⟩
  · rwa [heq]
  · rw [hready]
    exact fun h => TaskState.noConfusion h

end

variable {call : Call}

section

variable {s s' : State} {c i : Slot}

theorem Nudged.rests (h : Nudged s s') : Rests (s.tasks c) (s'.tasks c) :=
  (h.entries c fun h => h).rests (h.frame c)

theorem rests_modify (hci : c ≠ i) (f : Entry → Entry) :
    Rests (s.tasks c) ((s.modify i f).tasks c) := .of_eq (modify_ne hci s f)

theorem ne_of_zombie {k : Slot} (hz : (s.tasks c).state ≠ .zombie)
    (hk : (s.tasks k).state = .zombie) : c ≠ k := fun heq => hz (heq ▸ hk)

theorem clearTask_rests (hci : c ≠ i) (s : State) : Rests (s.tasks c) ((clearTask i s).tasks c) :=
  ((clearTask_stirred i s).entries c hci).rests (clearTask_frame i s c)

theorem completeTask_rests (hci : c ≠ i) (hused : (s.tasks i).used)
    (hstate : (s.tasks i).state = .finished ∨ (s.tasks i).state = .cancelled)
    (hidle : (s.tasks c).id ≠ s.idleTaskId) (hids : (s.tasks c).id ≠ (s.tasks i).id) :
    Rests (s.tasks c) ((completeTask i s).tasks c) := by
  have hframe := completeTask_frame hused hstate hidle fun _ => hids
  by_cases hself : (s.tasks i).id = s.idleTaskId
  · rw [completeTask_idle hused hself]
    exact (rests_modify hci _).trans (schedEnqueueReady_relinked ..).nudged.rests
  · exact ((completeTask_ends hused hself).others.entries c hci).rests hframe

/-- A switch away from a task, for the others and for itself if it is blocked. -/
theorem scheduleBackToIdle_rests (hcur : s.current = some i) (hidle : (s.tasks c).id ≠ s.idleTaskId)
    (hids : c ≠ i → (s.tasks i).used → (s.tasks c).id ≠ (s.tasks i).id)
    (hself : c = i → (s.tasks c).state = .blocked) (esp : Nat) :
    Rests (s.tasks c) ((scheduleBackToIdle esp s).tasks c) := by
  have hsave : Rests (s.tasks c) ((s.modify i fun t => { t with savedRsp := esp }).tasks c) := by
    rw [modify_tasks]
    split
    · exact ⟨rfl, rfl, rfl, fun h => h⟩
    · exact .refl _
  have hentry : (s.modify i fun t => { t with savedRsp := esp }).tasks i
      = { s.tasks i with savedRsp := esp } := modify_self ..
  rcases scheduleBackToIdle_cases hcur esp with ⟨heq, hback⟩ | ⟨heq, hused, hend, -⟩ | ⟨heq, -⟩
  · -- a blocked task does not go back to its queue
    have hci : c ≠ i := by
      rintro rfl
      rw [hself rfl] at hback
      rcases hback with h | h | h
      · cases h
      · cases h
      · exact hidle h.1
    rw [heq]
    exact hsave.trans ((rests_modify hci _).trans (schedEnqueueReady_relinked ..).nudged.rests)
  · have hci : c ≠ i := by
      rintro rfl
      rw [hself rfl] at hend
      rcases hend with h | h <;> cases h
    rw [heq]
    refine hsave.trans (completeTask_rests hci ?_ ?_ ?_ ?_)
    · rwa [hentry]
    · rwa [hentry]
    · rwa [hsave.id]
    · rw [hsave.id, hentry]
      exact hids hci hused
  · rwa [heq]

theorem scheduleFromIdle_rests (s : State) (c : Slot) :
    Rests (s.tasks c) ((scheduleFromIdle s).tasks c) := by
  unfold scheduleFromIdle
  split
  · exact .refl _
  rename_i i _
  refine (schedDequeueReady_relinked (s.tasks i).priority s).nudged.rests.trans ?_
  rw [modify_tasks]
  split
  · exact ⟨rfl, rfl, rfl, fun _ h => TaskState.noConfusion h⟩
  · exact .refl _

/-- A blocked task gets no signal delivered. -/
theorem deliverSignals_blocked (hb : (s.tasks c).state = .blocked) : deliverSignals c s = s := by
  unfold deliverSignals
  rw [if_pos (.inr (.inr (by rw [hb]; decide)))]

/-- A task that waits is not the one that makes another. -/
theorem Creation.rests {r : Int × State} (h : Creation s call r) (hc : (s.tasks c).used)
    (hcur : call.switches = false → s.current ≠ some c) : Rests (s.tasks c) (r.2.tasks c) := by
  have hparted : ∀ {s₀}, Parted s call s₀ → Rests (s.tasks c) (s₀.tasks c) := by
    intro s₀ h₀
    cases h₀ with
    | same => exact .refl _
    | fork e p hp => exact rests_modify (fun heq : c = p => hcur rfl (heq ▸ hp)) _
  have hfill : ∀ {s₀}, Parted s call s₀ → ∀ i, findFreeSlot s = some i → ∀ b,
      c ≠ i ∧ Rests (s.tasks c) ((s₀.fill i b).tasks c) := by
    intro s₀ h₀ i hfree b
    have hci : c ≠ i := fun heq =>
      absurd ((findFreeSlot_unused hfree).symm.trans (heq ▸ hc)) Bool.noConfusion
    refine ⟨hci, ?_⟩
    rw [fill_ne hci]
    exact hparted h₀
  cases h with
  | refused h₀ => exact hparted h₀
  | born h₀ i hfree b hb fg =>
    exact (hfill h₀ i hfree b).2.trans
      ((nudged_setForeground _ fg).trans (schedEnqueueReady_relinked ..).nudged).rests
  | aborted i hfree b hused hb =>
    obtain ⟨hci, hrest⟩ := hfill (.same call) i hfree b
    exact hrest.trans (clearTask_rests hci _)
  | unforked h₀ i hfree b hb => exact (hfill h₀ i hfree b).2

end

/-- **While a task waits, its registers stay**, whatever the others do. -/
theorem step_rests (hd : Distinct s)
    (hc : (s.tasks c).used) (hz : (s.tasks c).state ≠ .zombie)
    (hidle : (s.tasks c).id ≠ s.idleTaskId) (ha : Absent c s call) :
    Rests (s.tasks c) ((step s call).2.tasks c) := by
  have hcur : call.switches = false → s.current ≠ some c := by
    intro hsw heq
    obtain ⟨-, esp, he⟩ := ha.away heq
    rw [he] at hsw
    cases hsw
  have hself : ∀ i, s.current = some i → c = i → (s.tasks c).state = .blocked :=
    fun i hi heq => (ha.away (heq ▸ hi)).1
  -- who is killed is another one
  have hspared : ∀ i id, call = .sendSignal id sigkill → findTaskById s id = some i → c ≠ i := by
    rintro i id rfl hi rfl
    exact ha.spared (by rw [(findTaskById_some hi).2])
  have hout := step_outcome s call
  generalize (step s call).2 = s' at hout
  cases hout with
  | nudged hn h => exact h.rests
  | ticked hn => exact (taskOnTick_nudged { s with ticks := s.ticks + 1 }).rests
  | own i hsw hi f => exact rests_modify (fun heq : c = i => hcur hsw (heq ▸ hi)) f
  | dispatched esp hn hi => exact scheduleFromIdle_rests s c
  | left i esp hsw hi =>
    have hdel := deliverSignals_switches i s
    by_cases hci : c = i
    · subst hci
      rw [deliverSignals_blocked (hself c hi rfl)]
      exact scheduleBackToIdle_rests hi hidle (fun h => absurd rfl h) (fun _ => hself c hi rfl) esp
    have heq := hdel.others c hci
    rw [← heq]
    refine scheduleBackToIdle_rests (hdel.current.trans hi) ?_ ?_ (fun h => absurd h hci) esp
    · rwa [heq, hdel.idleTaskId]
    · intro _ hused
      rw [heq, hdel.self.id]
      exact fun hids => hci (hd c i hc (hdel.self.used.symm.trans hused) hids)
  | stayed i hsw hi hrun =>
    by_cases hci : c = i
    · subst hci
      rw [deliverSignals_blocked (hself c hi rfl)]
      exact .refl _
    · exact .of_eq ((deliverSignals_switches i s).others c hci)
  | marked i id hn hi htarget hrun => exact rests_modify (hspared i id hn hi) _
  | slain i id hn hi htarget hrun =>
    have hci := hspared i id hn hi
    have hkill := switches_killed i sigkill s
    have heq := hkill.others c hci
    rw [← heq]
    refine completeTask_rests hci ?_ ?_ ?_ ?_
    · rw [modify_self]
      exact (findTaskById_some hi).1
    · rw [modify_self]
      exact .inr rfl
    · rwa [heq]
    · rw [heq, modify_self]
      exact fun hids => hci (hd c i hc (findTaskById_some hi).1 hids)
  | reaped k hused hzk => exact clearTask_rests (ne_of_zombie hz (of_decide_eq_true hzk)) s
  | collected k hsw hused hzk m r =>
    refine (clearTask_rests (ne_of_zombie hz (of_decide_eq_true hzk)) s).trans ?_
    unfold State.answer State.onCurrent
    split
    · exact .refl _
    · rename_i i hi
      rw [setPhys_current, (clearTask_stirred k s).current] at hi
      exact rests_modify (s := (clearTask k s).setPhys m) (fun heq : c = i => hcur hsw (heq ▸ hi)) _
  | swept parent =>
    refine forSlots_inv (P := fun s' => Rests (s.tasks c) (s'.tasks c)) (Rests.refl _) fun i s' h => ?_
    split
    · rename_i hreap
      exact h.trans (clearTask_rests (ne_of_zombie (h.alive hz) hreap.2.1) s')
    · exact h
  | created h => exact h.rests hc hcur
  | _ => exact .refl _

/-! ## A child that still lives -/

/-- The parent as it was blocked. -/
structure Waiting (c : Slot) (f : Frame) (s : State) : Prop where
  distinct : Distinct s
  used : (s.tasks c).used
  alive : (s.tasks c).state ≠ .zombie
  notIdle : (s.tasks c).id ≠ s.idleTaskId
  frame : (s.tasks c).frame = f

theorem waiting_step {f : Frame} (h : Waiting c f s)
    (ha : Absent c s call) : Waiting c f (step s call).2 := by
  have hrest := step_rests h.distinct h.used h.alive h.notIdle ha
  refine ⟨step_distinct h.distinct ha.fresh, hrest.used.trans h.used, hrest.alive h.alive, ?_,
    hrest.frame.trans h.frame⟩
  rw [hrest.id, step_idleTaskId]
  exact h.notIdle

section

variable {c i : Slot} {status : Nat}

section

variable (h : Waits s c i status)
include h

/-- The system call itself refuses nothing. -/
theorem Waits.syscall : (step s (.waitpid (s.tasks i).id status)).2
      = (taskWaitpid (s.tasks i).id status s).2.answer (taskWaitpid (s.tasks i).id status s).1 := by
  show (syscallWaitpid (s.tasks i).id status s).2 = _
  unfold syscallWaitpid
  rw [if_neg fun hno => absurd (h.statusValid.symm.trans hno.2) Bool.noConfusion]

/-- The two outcomes of the call, for a child that is in the table. -/
theorem Waits.taskWaitpid (hd : Distinct s) : taskWaitpid (s.tasks i).id status s
      = if (s.tasks i).isZombie then collect c i status s
        else (0, s.modify c fun t => (t.setStatusUptr status).blockFor (s.tasks i).id) := by
  have hpos := h.pidPos
  have hne : (s.tasks i).id ≠ -1 := by omega
  have hle : ¬(s.tasks i).id ≤ 0 := by omega
  unfold Task.taskWaitpid
  rw [h.current]
  dsimp only
  rw [if_neg hne, if_neg hle, hd.find h.childUsed]
  dsimp only
  rw [if_neg fun hno => hno h.child]

theorem Waits.blocks (hd : Distinct s) (hlive : (s.tasks i).state ≠ .zombie) :
    (step s (.waitpid (s.tasks i).id status)).2
      = (s.modify c fun t => (t.setStatusUptr status).blockFor (s.tasks i).id).modify c
          (fun t => { t with frame := { t.frame with rax := 0 } }) := by
  have hz : ¬(s.tasks i).isZombie := fun hz => hlive (of_decide_eq_true hz)
  rw [h.syscall, h.taskWaitpid hd, if_neg hz]
  show (s.modify c _).onCurrent _ = _
  unfold State.onCurrent
  rw [modify_current, h.current]
  rfl

/-- **A parent that had to wait finds 0**, not the identifier of the child. -/
theorem Waits.not_delivered (hd : Distinct s) (hlive : (s.tasks i).state ≠ .zombie) {calls : List Call}
    (hres : Resumes c (step s (.waitpid (s.tasks i).id status)).2 calls) (e : ExitPath) :
    ¬Delivered (exec step s (.waitpid (s.tasks i).id status :: calls)).2 c (s.tasks i).id status
      e := by
  have hblocks := h.blocks hd hlive
  have hwaiting : Waiting c { (s.tasks c).frame with rax := 0 }
      (step s (.waitpid (s.tasks i).id status)).2 := by
    refine ⟨step_distinct hd nofun, ?_, ?_, ?_, ?_⟩
    all_goals rw [hblocks, modify_self, modify_self]
    · exact h.parentUsed
    · exact fun h => TaskState.noConfusion h
    · exact h.notIdle
    · rfl
  intro hdel
  have hrax := hdel.answer
  rw [exec_cons] at hrax
  rw [(exec_inv (fun _ _ h ha => waiting_step h ha) _ _ hwaiting hres.absent).frame] at hrax
  have hpos := h.pidPos
  have hint := h.pidInt
  obtain ⟨n, hn⟩ := Int.eq_ofNat_of_zero_le hpos.le
  rw [hn] at hrax hpos hint
  have hval : (UInt64.ofInt (n : Int)).toNat = n := by
    rw [UInt64.ofInt, UInt64.toNat_ofNat']
    omega
  have hzero : (0 : UInt64).toNat = n := (congrArg UInt64.toNat hrax).trans hval
  have hnat : 0 = n := hzero
  omega

end

end

/-! ## A child that has ended -/

theorem accessible_page {page : Nat → Bool} {address size k : Nat} (hk : k < size)
    (h : pagingDirectoryUserBufferIsAccessible page address size) :
    page ((address + k) / pageSize) := by
  unfold pagingDirectoryUserBufferIsAccessible at h
  split at h
  · cases h
  · refine List.all_eq_true.mp h _ (List.mem_range'_1.mpr ?_)
    simp only [pageSize]
    omega

theorem clearTask_memory (i : Slot) (s : State) :
    (clearTask i s).pages = s.pages ∧ (clearTask i s).phys = s.phys ∧
      (clearTask i s).current = s.current := by
  have hlink := (schedRemoveFromReady_relinked i s).globals
  refine ⟨?_, ?_, (clearTask_stirred i s).current⟩
  · show (schedRemoveFromReady i s).pages = s.pages
    rw [hlink]
  · show (schedRemoveFromReady i s).phys = s.phys
    rw [hlink]

/-- What the parent is told about a child that has ended: memory with the status stored through the
    contiguous region, if there is one. -/
structure Collected (s s' : State) (c i : Slot) (status : Nat) : Prop where
  rax : (s'.tasks c).frame.rax = UInt64.ofInt (s.tasks i).id
  dir : (s'.tasks c).pageDirectory = (s.tasks c).pageDirectory
  runs : (s'.tasks c).state = .running
  current : s'.current = some c
  reaped : findTaskById s' (s.tasks i).id = none
  pages : s'.pages = s.pages
  phys : s'.phys = if (s.tasks c).userPhysicalBase = 0 then s.phys
    else putLE s.phys ((s.tasks c).userPhysicalBase + (status - userBase)) 4
      (encodeChildStatus (s.tasks i) % 2 ^ 32).toNat

variable {k : Nat} {e : ExitPath}

section

variable {c i : Slot} {status : Nat}

section

variable (h : Waits s c i status)
include h

theorem Waits.accessible :
    pagingDirectoryUserBufferIsAccessible (s.reachable (s.tasks c).pageDirectory) status 4 := by
  have hvalid := h.statusValid
  unfold validateUserBuffer at hvalid
  rw [h.current] at hvalid
  dsimp only at hvalid
  rwa [if_neg (by rw [h.parentUser]; exact Bool.noConfusion)] at hvalid

/-- The store of the status, after the child was cleared. -/
theorem Waits.stores (value : Int) : writeUserInt32 c status value (clearTask i s)
      = (clearTask i s).setPhys (if (s.tasks c).userPhysicalBase = 0 then s.phys
        else putLE s.phys ((s.tasks c).userPhysicalBase + (status - userBase)) 4
          (value % 2 ^ 32).toNat) := by
  have hkept := ((clearTask_stirred i s).entries c (Ne.symm h.other)).kept
  have hbase : ((clearTask i s).tasks c).userPhysicalBase = (s.tasks c).userPhysicalBase := by
    rw [hkept]
  have hdir : ((clearTask i s).tasks c).pageDirectory = (s.tasks c).pageDirectory := by rw [hkept]
  obtain ⟨hpages, hphys, -⟩ := clearTask_memory i s
  have hreach : (clearTask i s).reachable = s.reachable := by
    funext dir page
    rw [State.reachable, State.reachable, hpages]
  obtain ⟨hlow, hhigh⟩ := range_of_accessible (by decide) h.accessible
  unfold writeUserInt32
  dsimp only
  rw [hbase, hdir, hreach]
  by_cases hb : (s.tasks c).userPhysicalBase = 0
  · rw [if_pos (.inl hb), if_pos hb, ← hphys]
    rfl
  · have hrange : ¬(status < userBase ∨ userBase + userSize < status + 4) := by omega
    have haccess : ¬((s.tasks c).pageDirectory ≠ 0 ∧ pagingDirectoryUserBufferIsAccessible
        (s.reachable (s.tasks c).pageDirectory) status 4 = false) :=
      fun hno => absurd (h.accessible.symm.trans hno.2) Bool.noConfusion
    rw [if_neg fun hno => hno.elim hb h.statusSet, if_neg hrange, if_neg haccess, if_neg hb, hphys]

/-- **The first way**: `task_waitpid` collects a child that has ended. -/
theorem Waits.collected (hd : Distinct s) (hzombie : (s.tasks i).state = .zombie) :
    Collected s (step s (.waitpid (s.tasks i).id status)).2 c i status := by
  have hz : (s.tasks i).isZombie := decide_eq_true hzombie
  have hci : c ≠ i := Ne.symm h.other
  have hkin := (clearTask_stirred i s).entries c hci
  obtain ⟨hpages, -, hcurrent⟩ := clearTask_memory i s
  have hstep : (step s (.waitpid (s.tasks i).id status)).2
      = (writeUserInt32 c status (encodeChildStatus (s.tasks i)) (clearTask i s)).answer
          (s.tasks i).id := by
    rw [h.syscall, h.taskWaitpid hd, if_pos hz, collect]
    rw [if_pos h.statusSet]
  rw [h.stores] at hstep
  generalize hm : (if (s.tasks c).userPhysicalBase = 0 then s.phys
        else putLE s.phys ((s.tasks c).userPhysicalBase + (status - userBase)) 4
          (encodeChildStatus (s.tasks i) % 2 ^ 32).toNat) = m at hstep
  have hanswer : ((clearTask i s).setPhys m).answer (s.tasks i).id
      = ((clearTask i s).setPhys m).modify c (fun t =>
          { t with frame := { t.frame with rax := UInt64.ofInt (s.tasks i).id } }) := by
    unfold State.answer State.onCurrent
    rw [setPhys_current, hcurrent, h.current]
  rw [hstep, hanswer]
  refine ⟨?_, ?_, ?_, hcurrent.trans h.current, ?_, hpages, hm.symm⟩
  · rw [modify_self]
  · rw [modify_self, setPhys_tasks, hkin.kept]
  · rw [modify_self]
    exact hkin.running h.parentRuns
  refine findTaskById_none fun j hj heq => ?_
  have hj' : ((clearTask i s).tasks j).used :=
    (modify_field (s := State.setPhys _ m) Entry.used (by rfl) j).symm.trans hj
  have hji : j ≠ i := by
    rintro rfl
    rw [clearTask_self] at hj'
    cases hj'
  have hkinj := (clearTask_stirred i s).entries j hji
  refine hji (hd j i (hkinj.used.symm.trans hj') h.childUsed (hkinj.id.symm.trans ?_))
  exact (modify_field (s := State.setPhys _ m) Entry.id (by rfl) j).symm.trans heq

/-! ### The word that the parent reads -/

/-- The physical address behind a byte of the parent. -/
def place (s : State) (c : Slot) (va : Nat) : Nat :=
  match s.pages (s.tasks c).pageDirectory (va / pageSize) with
  | some frame => frame + va % pageSize
  | none => 0

/-- The bytes of the status are mapped. -/
theorem Waits.mapped (hk : k < 4) :
    ∃ frame, s.pages (s.tasks c).pageDirectory ((status + k) / pageSize) = some frame ∧
      place s c (status + k) = frame + (status + k) % pageSize := by
  have hpage := accessible_page hk h.accessible
  obtain ⟨frame, hframe⟩ := Option.isSome_iff_exists.mp hpage
  refine ⟨frame, hframe, ?_⟩
  rw [place, hframe]

theorem Waits.inRegion_iff : StatusInRegion s c status ↔ ∀ k, k < 4 →
      place s c (status + k) = (s.tasks c).userPhysicalBase + (status + k - userBase) := by
  constructor
  · intro hin k hk
    obtain ⟨frame, hframe, hplace⟩ := h.mapped hk
    obtain ⟨frame', hframe', hat⟩ := hin k hk
    rw [hframe] at hframe'
    cases hframe'
    rw [hplace, hat]
  · intro hin k hk
    obtain ⟨frame, hframe, hplace⟩ := h.mapped hk
    exact ⟨frame, hframe, hplace.symm.trans (hin k hk)⟩

/-- A byte that is not where the region has it is nowhere in the stored word. -/
theorem Waits.outside (hk : k < 4)
    (hne : place s c (status + k) ≠ (s.tasks c).userPhysicalBase + (status + k - userBase)) :
    ¬((s.tasks c).userPhysicalBase + (status - userBase) ≤ place s c (status + k) ∧
      place s c (status + k) < (s.tasks c).userPhysicalBase + (status - userBase) + 4) := by
  obtain ⟨frame, hframe, hplace⟩ := h.mapped hk
  have haligned := h.frames _ _ hframe
  have hregion := h.region
  obtain ⟨hlow, -⟩ := range_of_accessible (by decide) h.accessible
  simp only [pageSize, userBase] at *
  omega

theorem Collected.byte {s' : State} (hcol : Collected s s' c i status) (hk : k < 4) :
    userView s' (s'.tasks c).pageDirectory (status + k) = s'.phys (place s c (status + k)) := by
  obtain ⟨frame, hframe, hplace⟩ := h.mapped hk
  rw [userView, hcol.dir, hcol.pages, hframe, hplace]

end

/-- The status that is stored. -/
def ExitPath.stored : ExitPath → Nat
  | .exit code => if code < 128 then code * 256 else code - 128
  | .signal signum => signum

theorem stored_eq {t : Entry} (he : e.Valid) (ht : t.exitCode = e.recorded) :
    (encodeChildStatus t % 2 ^ 32).toNat = e.stored := by
  cases e with
  | exit code =>
    have hcode : code ≤ 255 := he
    have hrec : t.exitCode = code := ht
    rw [encodeChildStatus, ExitPath.stored]
    by_cases hlt : code < 128
    · rw [if_pos hlt]
      omega
    · rw [if_neg hlt]
      omega
  | signal signum =>
    have hsig : 1 ≤ signum ∧ signum ≤ 31 := he
    have hrec : t.exitCode = 128 + signum := ht
    rw [encodeChildStatus, ExitPath.stored]
    omega

theorem stored_eq_status_iff (he : e.Valid) :
    e.stored = e.status ↔ ∀ code, e = .exit code → code < 128 := by
  cases e with
  | exit code =>
    simp only [ExitPath.stored, ExitPath.status, ExitPath.exit.injEq, forall_eq']
    split
    · rename_i h
      exact ⟨fun _ => h, fun _ => rfl⟩
    · rename_i h
      exact ⟨fun heq => by omega, fun hlt => absurd hlt h⟩
  | signal signum =>
    exact ⟨fun _ code h => (by cases h), fun _ => rfl⟩

theorem stored_lt (he : e.Valid) : e.stored < 256 ^ 4 := by
  cases e with
  | exit code =>
    have hcode : code ≤ 255 := he
    simp only [ExitPath.stored]
    split
    · omega
    · omega
  | signal signum =>
    have hsig : 1 ≤ signum ∧ signum ≤ 31 := he
    simp only [ExitPath.stored]
    omega

/-- With the status in the region, the parent reads what was stored. -/
theorem Collected.word {s' : State} (h : Waits s c i status) (hcol : Collected s s' c i status)
    (hbase : (s.tasks c).userPhysicalBase ≠ 0) (hin : StatusInRegion s c status)
    (he : e.Valid) (hdied : (s.tasks i).exitCode = e.recorded) :
    getLE (userView s' (s'.tasks c).pageDirectory) status 4 = e.stored := by
  obtain ⟨hlow, -⟩ := range_of_accessible (by decide) h.accessible
  have hplaces := h.inRegion_iff.mp hin
  have hdigits : getLE (userView s' (s'.tasks c).pageDirectory) status 4 = e.stored % 256 ^ 4 := by
    apply getLE_of_digits
    intro k hk
    have hoff : (s.tasks c).userPhysicalBase + (status + k - userBase)
        - ((s.tasks c).userPhysicalBase + (status - userBase)) = k := by omega
    rw [hcol.byte h hk, hplaces k hk, hcol.phys, if_neg hbase, stored_eq he hdied, putLE,
      if_pos ⟨by omega, by omega⟩, hoff]
  rw [hdigits, Nat.mod_eq_of_lt (stored_lt he)]

/-- A byte that the store does not reach can hold anything. -/
theorem exists_other_byte (n : Nat) : ∃ b : UInt8, b.toNat ≠ n % 256 := by
  refine ⟨UInt8.ofNat (n + 1), ?_⟩
  have hval : (UInt8.ofNat (n + 1)).toNat = (n + 1) % 256 := UInt8.toNat_ofNat'
  omega

end

section

variable {c i : Slot} {status : Nat}

/-- Memory does not matter to who waits for whom. -/
theorem Waits.setPhys (h : Waits s c i status) (m : Mem) : Waits (s.setPhys m) c i status :=
  { h with }

theorem Distinct.setPhys (h : Distinct s) (m : Mem) : Distinct (s.setPhys m) := h

variable (h : Waits s c i status) (hd : Distinct s) (hzombie : (s.tasks i).state = .zombie)
include h hd hzombie

/-- A byte of the status that the store does not reach decides what the parent reads. -/
theorem Waits.unstored (hk : k < 4)
    (hout : (s.tasks c).userPhysicalBase = 0 ∨
      place s c (status + k) ≠ (s.tasks c).userPhysicalBase + (status + k - userBase)) (n : Nat) :
    ∃ m, ∀ s', s' = (step (s.setPhys m) (.waitpid (s.tasks i).id status)).2 →
      getLE (userView s' (s'.tasks c).pageDirectory) status 4 ≠ n := by
  obtain ⟨b, hb⟩ := exists_other_byte (n / 256 ^ k)
  refine ⟨fun _ => b, ?_⟩
  rintro s' rfl hword
  have hcol := (h.setPhys fun _ => b).collected (hd.setPhys _) hzombie
  have hbyte := byte_of_getLE (userView (step (s.setPhys fun _ => b)
    (.waitpid (s.tasks i).id status)).2 ((step (s.setPhys fun _ => b)
      (.waitpid (s.tasks i).id status)).2.tasks c).pageDirectory) status hk
  have hview := hcol.byte (h.setPhys _) hk
  have hphys := hcol.phys
  rw [setPhys_tasks] at hview hphys
  rw [hword, hview, hphys] at hbyte
  refine hb (Eq.trans ?_ hbyte)
  split
  · rfl
  · rename_i hbase
    have hne := hout.resolve_left hbase
    have hplace : place (s.setPhys fun _ => b) c (status + k) = place s c (status + k) := rfl
    rw [putLE_of_not_mem (by rw [hplace]; exact h.outside hk hne)]
    rfl

/-- **What the parent reads of a child that has ended**: the right status, whatever memory held, exactly
    if the parent has its region, the status lies in it, and the exit code is below 128. -/
theorem Waits.word_iff (he : e.Valid) (hdied : (s.tasks i).exitCode = e.recorded) :
    (∀ m, Delivered (step (s.setPhys m) (.waitpid (s.tasks i).id status)).2 c (s.tasks i).id
        status e) ↔
      (s.tasks c).userPhysicalBase ≠ 0 ∧ StatusInRegion s c status ∧
        ∀ code, e = .exit code → code < 128 := by
  have hcol : ∀ m, Collected (s.setPhys m)
      (step (s.setPhys m) (.waitpid (s.tasks i).id status)).2 c i status :=
    fun m => (h.setPhys m).collected (hd.setPhys m) hzombie
  constructor
  · intro hall
    have hbase : (s.tasks c).userPhysicalBase ≠ 0 := by
      intro hzero
      obtain ⟨m, hm⟩ := h.unstored hd hzombie (show 0 < 4 by decide) (.inl hzero) e.status
      exact hm _ rfl (hall m).word
    have hin : StatusInRegion s c status := by
      rw [h.inRegion_iff]
      intro k hk
      by_contra hne
      obtain ⟨m, hm⟩ := h.unstored hd hzombie hk (.inr hne) e.status
      exact hm _ rfl (hall m).word
    refine ⟨hbase, hin, (stored_eq_status_iff he).mp ?_⟩
    have hword := (hcol s.phys).word (h.setPhys _) hbase hin he hdied
    exact hword.symm.trans (hall s.phys).word
  · rintro ⟨hbase, hin, hcode⟩ m
    refine ⟨(hcol m).rax, (hcol m).reaped, ?_⟩
    rw [(hcol m).word (h.setPhys m) hbase hin he hdied]
    exact (stored_eq_status_iff he).mpr hcode

end

/-! ## The theorem -/

/-- **`waitpid` delivers exactly in this case.**  In any state of any run whose tasks got fresh
    identifiers, whether the child has ended before the call or ends after it, however it ends and whatever the others do until the parent runs
    again: the parent gets the identifier and the status of the child, and the child is reaped, exactly
    if the child had ended already, the parent still has its contiguous region, the status lies in it,
    and the child was not ended by an exit code from 128 on. -/
theorem waitpid_delivers_iff (b : Boot) (before : List Call) (s : State)
    (hs : s = (exec step (taskSystemInit b) before).2)
    (hfresh : Guarded step FreshId (taskSystemInit b) before) (c i : Slot) (status : Nat)
    (h : Waits s c i status) (e : ExitPath) (he : e.Valid)
    (hdied : (s.tasks i).state = .zombie → (s.tasks i).exitCode = e.recorded) (calls : List Call)
    (hres : Resumes c (step s (.waitpid (s.tasks i).id status)).2 calls) :
    (∀ m : Mem, Delivered (exec step (s.setPhys m) (.waitpid (s.tasks i).id status :: calls)).2 c
        (s.tasks i).id status e) ↔
      (s.tasks i).state = .zombie ∧ (s.tasks c).userPhysicalBase ≠ 0 ∧ StatusInRegion s c status ∧
        ∀ code, e = .exit code → code < 128 := by
  have hd : Distinct s := hs ▸ exec_distinct hfresh
  by_cases hzombie : (s.tasks i).state = .zombie
  · -- the parent goes on at once
    have hcol := h.collected hd hzombie
    have hnil : calls = [] := by
      cases calls with
      | nil => rfl
      | cons call rest =>
        obtain ⟨hblocked, -⟩ := hres.absent.1.away hcol.current
        exact absurd (hcol.runs.symm.trans hblocked) (by decide)
    subst hnil
    have hiff := h.word_iff hd hzombie he (hdied hzombie)
    exact ⟨fun hall => ⟨hzombie, hiff.mp hall⟩, fun hcond => hiff.mpr hcond.2⟩
  · refine ⟨fun hall => ?_, fun hcond => absurd hcond.1 hzombie⟩
    exact absurd (hall s.phys) (h.not_delivered hd hzombie hres e)

/-! ## Concrete histories -/

/-- The directory of `quietProgram` maps its window to its region. -/
def regionPages : Nat → Nat → Option Nat := fun dir page =>
  if dir = 0x40000 ∧ userBase / pageSize ≤ page then
    some (0x02000000 + (page - userBase / pageSize) * pageSize)
  else none

/-- The address of the status. -/
def statusAddress : Nat := userBase + 0x2000

/-- A program starts another one. -/
def parentAndChild : List Call :=
  [.spawnUser quietProgram, .scheduleOnTimer 0, .spawnUser quietProgram]

/-- The parent sleeps, the child runs and ends with this code, the parent runs again. -/
def childExits (code : Int) : List Call :=
  [.sleep 1, .scheduleOnSyscall 0, .scheduleOnTimer 0, .exit code, .scheduleOnSyscall 0,
    .scheduleOnTimer 0]

/-- The machine after a history, with the page tables of the two programs. -/
def regionState (calls : List Call) : State :=
  (step (exec step (taskSystemInit quietBoot) calls).2 (.resolvePages regionPages)).2

theorem regionState_eq (calls : List Call) : regionState calls
    = (exec step (taskSystemInit quietBoot) (calls ++ [.resolvePages regionPages])).2 := by
  rw [exec_append]
  rfl

/-- The child has exited with 3. -/
def childExited : State := regionState (parentAndChild ++ childExits 3)

theorem childExited_pages : childExited.pages = regionPages := rfl

theorem waits_childExits : Waits childExited 1 2 statusAddress := by
  refine ⟨?_, ?_, ?_, ?_, ?_, ?_, ?_, ?_, ?_, ?_, ?_, ?_, ?_, fun page frame hp => ?_, ?_⟩
  case refine_14 =>
    rw [childExited_pages, regionPages] at hp
    split at hp
    · rw [← Option.some.inj hp, pageSize]
      omega
    · cases hp
  all_goals decide +kernel

theorem waitpid_delivers_iff_childExits :
    Waits childExited 1 2 statusAddress ∧ ∀ m : Mem,
    Delivered (exec step (childExited.setPhys m) [.waitpid (childExited.tasks 2).id statusAddress]).2 1
      (childExited.tasks 2).id statusAddress (.exit 3) := by
  have hres : Resumes 1 (step childExited (.waitpid (childExited.tasks 2).id statusAddress)).2 [] := by
    refine ⟨trivial, ?_, ?_⟩
    all_goals decide +kernel
  have hfresh : Guarded step FreshId (taskSystemInit quietBoot)
      (parentAndChild ++ childExits 3 ++ [.resolvePages regionPages]) := by decide +kernel
  have hin : StatusInRegion childExited 1 statusAddress := by
    have hdir : (childExited.tasks 1).pageDirectory = 0x40000 := by decide +kernel
    have hbase : (childExited.tasks 1).userPhysicalBase = 0x02000000 := by decide +kernel
    have hplaces : ∀ k, k < 4 → regionPages 0x40000 ((statusAddress + k) / pageSize) = some 0x02002000 ∧
        0x02002000 + (statusAddress + k) % pageSize = 0x02000000 + (statusAddress + k - userBase) := by
      decide +kernel
    intro k hk
    rw [hdir, hbase]
    exact ⟨0x02002000, hplaces k hk⟩
  refine ⟨waits_childExits, (waitpid_delivers_iff quietBoot _ _ (regionState_eq _) hfresh 1 2 statusAddress
    waits_childExits (.exit 3) (by decide) (fun _ => by decide +kernel) [] hres).mpr ⟨?_, ?_, hin, ?_⟩⟩
  · decide +kernel
  · decide +kernel
  · rintro code h
    cases h
    decide

/-- The program forks; the child has the directory `0x50000`. -/
def parentForks : List Call := [.spawnUser quietProgram, .scheduleOnTimer 0, .fork quietFork]

/-- What the parent reads at the address of the status. -/
def statusRead (s : State) : Nat := getLE (userView s (s.tasks 1).pageDirectory) statusAddress 4

/-- The parent waits, and the child exits with 3. -/
def exitAwaited : State :=
  (exec step (regionState parentAndChild) [.waitpid 3 statusAddress, .scheduleOnSyscall 0, .scheduleOnTimer 0,
    .exit 3, .scheduleOnSyscall 0, .scheduleOnTimer 0]).2

/-- **Three ways to be told wrong.**  The child exits with 3 while the parent waits: the answer is 0, and
    the child is left a zombie.  The parent has forked: no status is stored.  The child exits with 200:
    the status says signal 72. -/
theorem waitpid_misses :
    ((exitAwaited.tasks 1).state = .running ∧ (exitAwaited.tasks 1).frame.rax = 0 ∧
        (exitAwaited.tasks 2).state = .zombie) ∧
      ((step (regionState (parentForks ++ childExits 3)) (.waitpid 3 statusAddress)).1 = 3 ∧
        statusRead (step (regionState (parentForks ++ childExits 3)) (.waitpid 3 statusAddress)).2 = 0) ∧
      (step (regionState (parentAndChild ++ childExits 200)) (.waitpid 3 statusAddress)).1 = 3 ∧
        statusRead (step (regionState (parentAndChild ++ childExits 200)) (.waitpid 3 statusAddress)).2 = 72 := by
  decide +kernel

end Lyth.Task
