/-
  WHAT A CALL OF THE TASK CODE CAN DO TO A SLOT.

  The forty calls of `Lyth.Task` are composed of a few moves: links of the ready queues are changed, a
  stopped task is made ready, a task is completed, a free slot is filled.  ONE inversion theorem
  (`step_outcome`) says which of them a call can have made, and every invariant of whole runs is proved
  once per move.  What the moves leave of a single slot is `step_change`:

    * `kept`        the task did nothing; others may have woken it, signalled it or given it a parent;
    * `own`         it is the running task, and acted;
    * `killed`      it was marked to die at the next switch;
    * `dispatched`  it was selected to run;
    * `ended`       it was completed or reaped: the entry is cleared or a zombie;
    * `born`        a spawn or a fork filled the free slot;
    * `aborted`     a spawn or a fork filled it and failed.

  Everything about whole runs (`Lyth.Creds`, `Lyth.SlotReuse`, `Lyth.Sched`, `Lyth.Waitpid`,
  `Lyth.Zombies`) follows from the two by induction.
-/
import Lyth.Task

namespace Lyth.Task

open Function

open Mmap (Region mmapCloneRegions)

/-! ## Changing one slot -/

@[simp] theorem modify_self (s : State) (i : Slot) (f : Entry → Entry) :
    (s.modify i f).tasks i = f (s.tasks i) := update_self ..

theorem modify_modify (s : State) (i : Slot) (f g : Entry → Entry) :
    (s.modify i f).modify i g = s.modify i (fun t => g (f t)) := by
  simp only [State.modify, update_self, update_idem]

variable {i : Slot} (target : Int)

theorem modify_ne {j : Slot} (h : j ≠ i) (s : State) (f : Entry → Entry) :
    (s.modify i f).tasks j = s.tasks j := update_of_ne h ..

/-- A slot after another, or the same one, was changed. -/
theorem modify_tasks (s : State) (i j : Slot) (f : Entry → Entry) :
    (s.modify i f).tasks j = if j = i then f (s.tasks j) else s.tasks j := by
  split
  · rename_i h
    rw [h]
    exact modify_self s i f
  · rename_i h
    exact modify_ne h s f

/-- A field that the change leaves alone. -/
theorem modify_field {α : Type} {s : State} {f : Entry → Entry} (g : Entry → α)
    (h : g (f (s.tasks i)) = g (s.tasks i)) (j : Slot) : g ((s.modify i f).tasks j) = g (s.tasks j) := by
  rw [modify_tasks]
  split
  · rename_i hj
    rwa [hj]
  · rfl

section

variable (s : State) (i : Slot) (f : Entry → Entry) (p : Priority) (x : Option Slot) (id : Int)
  (m : Bytes.Mem)

@[simp] theorem modify_current : (s.modify i f).current = s.current := rfl
@[simp] theorem setCurrent_tasks : (s.setCurrent x).tasks = s.tasks := rfl
@[simp] theorem setForeground_tasks : (s.setForeground id).tasks = s.tasks := rfl
@[simp] theorem setPhys_tasks : (s.setPhys m).tasks = s.tasks := rfl
@[simp] theorem setPhys_current : (s.setPhys m).current = s.current := rfl
@[simp] theorem takeId_tasks : s.takeId.tasks = s.tasks := rfl
end

variable {s : State} {f : Entry → Entry}

/-- **The slot loop.**  What each round keeps, the loop keeps. -/
theorem forSlots_inv {P : State → Prop} {body : Slot → State → State} (h : P s)
    (hstep : ∀ i s, P s → P (body i s)) : P (forSlots body s) := by
  unfold forSlots
  generalize List.finRange taskMaxCount = is
  induction is generalizing s with
  | nil => exact h
  | cons i is ih => exact ih (hstep i s h)

theorem firstSlot_some {p : Slot → Bool} (h : firstSlot p = some i) : p i :=
  List.find?_some h

theorem findFreeSlot_unused (h : findFreeSlot s = some i) :
    (s.tasks i).used = false := by
  have hp := firstSlot_some h
  simpa using hp

theorem findTaskById_some {id : Int} (h : findTaskById s id = some i) :
    (s.tasks i).used ∧ (s.tasks i).id = id := by
  have hp := firstSlot_some h
  simpa using hp

/-! ## Entries that others act on -/

/-- What stays of an entry whose task does nothing itself: all but its links and parent, the signals
    and deadlines that others change, what a waker and a reaper change.  Its state stays, or it was
    stopped and is ready now. -/
structure Kin (t t' : Entry) : Prop where
  kept : t' = { t with
    schedNext := t'.schedNext
    parentId := t'.parentId
    pendingSignals := t'.pendingSignals
    blockedEventId := t'.blockedEventId
    wakeTick := t'.wakeTick
    alarmTick := t'.alarmTick
    state := t'.state
    cancelRequested := t'.cancelRequested
    waitpidStatusUptr := t'.waitpidStatusUptr
    priority := t'.priority
    foreground := t'.foreground
    outputVc := t'.outputVc
    frame := t'.frame }
  state : t'.state = t.state ∨ t.used ∧ t.Stopped ∧ t'.state = .ready
  alarm : t'.alarmTick = t.alarmTick ∨ t.used

theorem Kin.refl (t : Entry) : Kin t t := ⟨rfl, .inl rfl, .inl rfl⟩

section

variable {t u v : Entry}

section

variable (h : Kin t u)
include h

theorem Kin.used : u.used = t.used := by rw [h.kept]
theorem Kin.id : u.id = t.id := by rw [h.kept]
theorem Kin.creds : u.creds = t.creds := by rw [h.kept]
theorem Kin.trans (h' : Kin u v) : Kin t v := by
  refine ⟨?_, ?_, ?_⟩
  · rw [h'.kept, h.kept]
  · rcases h'.state with heq | ⟨hused, hstop, hready⟩
    · rw [heq]
      exact h.state
    rcases h.state with heq | ⟨-, -, hready'⟩
    · refine .inr ⟨h.used ▸ hused, ?_, hready⟩
      rwa [Entry.Stopped, ← heq]
    · rw [Entry.Stopped, hready'] at hstop
      rcases hstop with h | h <;> cases h
  · rcases h'.alarm with heq | hused
    · rw [heq]
      exact h.alarm
    · exact .inr (h.used ▸ hused)

/-- A task that is not stopped keeps its state. -/
theorem Kin.state_of_not_stopped (hstop : ¬t.Stopped) : u.state = t.state := by
  rcases h.state with heq | ⟨-, hs, -⟩
  · exact heq
  · exact absurd hs hstop

theorem Kin.running (hrun : t.state = .running) : u.state = .running := by
  refine (h.state_of_not_stopped ?_).trans hrun
  rw [Entry.Stopped, hrun]
  decide

end

end

/-- All slots but those of `X` are kin to what they were; of the globals only the queues, the
    foreground task and memory may differ. -/
structure Stirred (X : Slot → Prop) (s s' : State) : Prop where
  entries : ∀ j, ¬X j → Kin (s.tasks j) (s'.tasks j)
  globals : s' = { s with
    tasks := s'.tasks
    head := s'.head
    tail := s'.tail
    foregroundTaskId := s'.foregroundTaskId
    phys := s'.phys }

/-- No slot is left out. -/
def Nobody : Slot → Prop := fun _ => False

/-- One slot is left out. -/
def Only (i : Slot) : Slot → Prop := fun j => j = i

/-- The others only woke or signalled tasks: nobody was adopted, and no trap frame was written to. -/
structure Nudged (s s' : State) : Prop extends Stirred Nobody s s' where
  parentId : ∀ j, (s'.tasks j).parentId = (s.tasks j).parentId
  frame : ∀ j, (s'.tasks j).frame = (s.tasks j).frame

section

variable {X : Slot → Prop} {s s' s'' : State}

theorem Stirred.refl (s : State) : Stirred X s s := ⟨fun j _ => Kin.refl (s.tasks j), rfl⟩

section

variable (h : Stirred X s s')
include h

theorem Stirred.trans (h' : Stirred X s' s'') : Stirred X s s'' where
  entries j hj := (h.entries j hj).trans (h'.entries j hj)
  globals := by rw [h'.globals, h.globals]

theorem Stirred.current : s'.current = s.current := by rw [h.globals]
theorem Stirred.nextTaskId : s'.nextTaskId = s.nextTaskId := by rw [h.globals]
theorem Stirred.idleTaskId : s'.idleTaskId = s.idleTaskId := by rw [h.globals]
theorem Stirred.sysInitPid : s'.sysInitPid = s.sysInitPid := by rw [h.globals]

end

/-- Nobody left out: any slots may be. -/
theorem Stirred.off (h : Stirred Nobody s s') : Stirred X s s' := ⟨fun j _ => h.entries j id, h.globals⟩

/-- Changing one slot into a kin of it. -/
theorem stirred_modify (h : Kin (s.tasks i) (f (s.tasks i))) :
    Stirred Nobody s (s.modify i f) := by
  refine ⟨fun j _ => ?_, rfl⟩
  rw [modify_tasks]
  split
  · rename_i hj
    rwa [hj]
  · exact .refl _

/-- Changing a slot that is left out. -/
theorem stirred_modify_only (i : Slot) (f : Entry → Entry) : Stirred (Only i) s (s.modify i f) := by
  refine ⟨fun j hj => ?_, rfl⟩
  rw [modify_ne hj]
  exact .refl _

theorem Nudged.refl (s : State) : Nudged s s := ⟨Stirred.refl s, fun _ => rfl, fun _ => rfl⟩

theorem Nudged.trans (h : Nudged s s') (h' : Nudged s' s'') : Nudged s s'' :=
  ⟨h.toStirred.trans h'.toStirred, fun j => (h'.parentId j).trans (h.parentId j),
    fun j => (h'.frame j).trans (h.frame j)⟩

theorem nudged_modify (h : Kin (s.tasks i) (f (s.tasks i)))
    (hparent : (f (s.tasks i)).parentId = (s.tasks i).parentId)
    (hframe : (f (s.tasks i)).frame = (s.tasks i).frame) : Nudged s (s.modify i f) :=
  ⟨stirred_modify h, modify_field Entry.parentId hparent, modify_field Entry.frame hframe⟩

theorem nudged_setForeground (s : State) (id : Int) : Nudged s (s.setForeground id) :=
  ⟨⟨fun _ _ => Kin.refl _, rfl⟩, fun _ => rfl, fun _ => rfl⟩

end

/-! ## The ready queues -/

/-- Only the links of the ready queues differ. -/
structure Relinked (s s' : State) : Prop where
  globals : s' = { s with tasks := s'.tasks, head := s'.head, tail := s'.tail }
  entries : ∀ j, s'.tasks j = (s.tasks j).setNext (s'.tasks j).schedNext

section

variable {s s' s'' : State}

theorem Relinked.refl (s : State) : Relinked s s := ⟨rfl, fun _ => rfl⟩

theorem Relinked.trans (h : Relinked s s') (h' : Relinked s' s'') : Relinked s s'' := by
  refine ⟨?_, fun j => ?_⟩
  · rw [h'.globals, h.globals]
  · rw [h'.entries j, h.entries j]
    rfl

theorem relinked_modify (s : State) (i : Slot) (n : Option Slot) :
    Relinked s (s.modify i fun t => t.setNext n) := by
  refine ⟨rfl, fun j => ?_⟩
  rw [modify_tasks]
  split
  · rfl
  · rfl

theorem relinked_setHead (s : State) (p : Priority) (h : Option Slot) :
    Relinked s (s.setHead p h) := ⟨rfl, fun _ => rfl⟩

theorem relinked_setTail (s : State) (p : Priority) (t : Option Slot) :
    Relinked s (s.setTail p t) := ⟨rfl, fun _ => rfl⟩

theorem kin_setNext (t : Entry) (n : Option Slot) : Kin t (t.setNext n) := ⟨rfl, .inl rfl, .inl rfl⟩

theorem Relinked.nudged (h : Relinked s s') : Nudged s s' := by
  refine ⟨⟨fun j _ => ?_, ?_⟩, fun j => ?_, fun j => ?_⟩
  · rw [h.entries j]
    exact kin_setNext _ _
  · rw [h.globals]
  · rw [h.entries j]
    rfl
  · rw [h.entries j]
    rfl

theorem Relinked.stirred (h : Relinked s s') : Stirred Nobody s s' := h.nudged.toStirred

end

theorem schedEnqueueReady_relinked (i : Slot) (s : State) : Relinked s (schedEnqueueReady i s) := by
  unfold schedEnqueueReady
  dsimp only
  split
  · exact .refl s
  split
  · exact .refl s
  · have h := relinked_modify s i none
    split
    · exact (h.trans (relinked_setHead ..)).trans (relinked_setTail ..)
    · exact (h.trans (relinked_modify ..)).trans (relinked_setTail ..)

theorem schedDequeueReady_relinked (p : Priority) (s : State) : Relinked s (schedDequeueReady p s) := by
  unfold schedDequeueReady
  split
  · exact .refl s
  · split
    · exact ((relinked_setHead ..).trans (relinked_setTail ..)).trans (relinked_modify ..)
    · exact (relinked_setHead ..).trans (relinked_modify ..)

theorem schedRemoveFromReady_relinked (i : Slot) (s : State) : Relinked s (schedRemoveFromReady i s) := by
  unfold schedRemoveFromReady
  dsimp only
  split
  · exact .refl s
  split
  · exact relinked_modify ..
  rename_i prev _
  refine .trans ?_ (relinked_modify ..)
  cases prev with
  | none =>
    dsimp only
    split
    · exact (relinked_setHead ..).trans (relinked_setTail ..)
    · exact relinked_setHead ..
  | some b =>
    dsimp only
    split
    · exact (relinked_modify ..).trans (relinked_setTail ..)
    · exact relinked_modify ..

/-! ## Waking and signalling -/

/-- A change that makes a stopped task ready and puts it into its queue. -/
theorem nudged_wake (hused : (s.tasks i).used)
    (hstop : (s.tasks i).Stopped) (e : Entry → Int) (w : Entry → UInt32) :
    Nudged s (schedEnqueueReady i (s.modify i fun t =>
      { t with blockedEventId := e t, wakeTick := w t, state := .ready })) := by
  refine .trans (nudged_modify ?_ rfl rfl) (schedEnqueueReady_relinked ..).nudged
  exact ⟨rfl, .inr ⟨hused, hstop, rfl⟩, .inl rfl⟩

theorem taskSignalEvent_nudged (event : Int) (s : State) : Nudged s (taskSignalEvent event s) := by
  unfold taskSignalEvent
  split
  · exact .refl s
  refine forSlots_inv (Nudged.refl s) fun i s' h => h.trans ?_
  unfold signalSlot
  split
  · rename_i hwaits
    exact nudged_wake hwaits.1 (.inr hwaits.2.1) (fun _ => -1) fun _ => 0
  · exact .refl s'

theorem wakeStopped_nudged (hused : (s.tasks i).used) :
    Nudged s (wakeStopped i s) := by
  unfold wakeStopped
  split
  · rename_i hstop
    exact nudged_wake hused hstop (fun _ => -1) Entry.wakeTick
  · exact .refl s

/-- A change that others may make, of a task that is then woken. -/
theorem nudged_then_wake (h : Nudged s (s.modify i f))
    (hused : (s.tasks i).used) : Nudged s (wakeStopped i (s.modify i f)) :=
  h.trans (wakeStopped_nudged ((h.entries i id).used.trans hused))

theorem queuePending_nudged (i : Slot) (signum : Nat) (s : State) :
    Nudged s (queuePending i signum s) := by
  unfold queuePending
  split
  · rename_i h
    simp only [signalTarget, Bool.and_eq_true] at h
    exact nudged_then_wake (nudged_modify ⟨rfl, .inl rfl, .inl rfl⟩ rfl rfl) h.1.1.1
  · exact .refl s

theorem notifyEnd_nudged (id : Int) (parent : Option Slot) (s : State) :
    Nudged s (notifyEnd id parent s) := by
  fun_cases notifyEnd id parent s with
  | case2 p => exact queuePending_nudged p sigchld s
  | _ => exact .refl s

theorem reparentChildren_stirred (oldParent newParent : Int) (s : State) :
    Stirred Nobody s (reparentChildren oldParent newParent s) := by
  unfold reparentChildren
  split
  · exact .refl s
  · refine forSlots_inv (Stirred.refl s) (fun i s' h => h.trans ?_)
    split
    · exact stirred_modify ⟨rfl, .inl rfl, .inl rfl⟩
    · exact .refl s'

section

variable (hused : (s.tasks i).used = true) (now : UInt32)
include hused

theorem tickSleep_nudged : Nudged s (tickSleep now i s) := by
  unfold tickSleep
  split
  · rename_i h
    exact nudged_wake hused (.inl h.1) Entry.blockedEventId fun _ => 0
  · exact .refl s

theorem tickTimeout_nudged : Nudged s (tickTimeout now i s) := by
  unfold tickTimeout
  split
  · rename_i h
    exact nudged_wake hused (.inr h.1) (fun _ => -1) fun _ => 0
  · exact .refl s

theorem tickAlarm_nudged : Nudged s (tickAlarm now i s) := by
  unfold tickAlarm
  split
  · exact nudged_then_wake (nudged_modify ⟨rfl, .inl rfl, .inr hused⟩ rfl rfl) hused
  · exact .refl s

end

theorem tickSlot_nudged (now : UInt32) (i : Slot) (s : State) : Nudged s (tickSlot now i s) := by
  unfold tickSlot
  split
  · exact .refl s
  · rename_i h
    have hused : (s.tasks i).used := by simpa using h
    have h₁ := tickSleep_nudged hused now
    have h₂ := h₁.trans (tickTimeout_nudged ((h₁.entries i id).used.trans hused) now)
    exact h₂.trans (tickAlarm_nudged ((h₂.entries i id).used.trans hused) now)

theorem taskOnTick_nudged (s : State) : Nudged s (taskOnTick s) :=
  forSlots_inv (Nudged.refl s) fun i s' h => h.trans (tickSlot_nudged _ i s')

theorem cancelSlot_nudged (hused : (s.tasks i).used) :
    Nudged s (cancelSlot i s) :=
  nudged_then_wake (nudged_modify ⟨rfl, .inl rfl, .inl rfl⟩ rfl rfl) hused

theorem taskClearCancel_nudged : Nudged s (taskClearCancel s) := by
  unfold taskClearCancel
  dsimp only
  split
  · exact .refl s
  · exact nudged_modify ⟨rfl, .inl rfl, .inl rfl⟩ rfl rfl

theorem taskSetOutputVc_nudged (id vc : Int) : Nudged s (taskSetOutputVc id vc s) := by
  unfold taskSetOutputVc
  split
  · exact .refl s
  · exact nudged_modify ⟨rfl, .inl rfl, .inl rfl⟩ rfl rfl

theorem taskSetPriority_nudged (id : Int) (priority : Priority) :
    Nudged s (taskSetPriority id priority s).2 := by
  have hset : ∀ s (i : Slot), Nudged s (s.modify i fun t => { t with priority }) :=
    fun s i => nudged_modify ⟨rfl, .inl rfl, .inl rfl⟩ rfl rfl
  fun_cases taskSetPriority id priority s with
  | case5 _ i =>
    exact ((schedRemoveFromReady_relinked i s).nudged.trans (hset _ i)).trans
      (schedEnqueueReady_relinked ..).nudged
  | case6 _ i => exact hset s i
  | _ => exact .refl s

theorem taskSetForeground_nudged (id : Int) : Nudged s (taskSetForeground id s).2 := by
  have hmark : ∀ s (i : Slot) (b : Bool) (id : Int), Nudged s
      ((s.modify i fun t => { t with foreground := b }).setForeground id) := by
    intro s i b id
    refine .trans ?_ (nudged_setForeground _ id)
    exact nudged_modify ⟨rfl, .inl rfl, .inl rfl⟩ rfl rfl
  have hclear : Nudged s (clearForeground s) := by
    unfold clearForeground
    split
    · exact .refl s
    · split
      · exact nudged_setForeground s (-1)
      · exact hmark s _ false (-1)
  refine hclear.trans ?_
  fun_cases taskSetForeground id s with
  | case3 _ _ i => exact hmark _ i true id
  | _ => exact .refl _

/-- A store into the memory of a task changes no entry. -/
theorem writeUserInt32_eq (i : Slot) (vaddr : Nat) (value : Int) (s : State) :
    ∃ m, writeUserInt32 i vaddr value s = s.setPhys m := by
  fun_cases writeUserInt32 i vaddr value s with
  | case4 => exact ⟨_, rfl⟩
  | _ => exact ⟨s.phys, rfl⟩

theorem stirred_setPhys (s : State) (m : Bytes.Mem) : Stirred Nobody s (s.setPhys m) :=
  ⟨fun _ _ => Kin.refl _, rfl⟩

/-! ## The end of a task -/

/-- The entry of a cleared task, whatever its link was. -/
theorem clearTask_self (i : Slot) : (clearTask i s).tasks i = (s.tasks i).cleared := by
  rw [clearTask, modify_self, (schedRemoveFromReady_relinked i s).entries i]
  rfl

theorem clearTask_stirred (i : Slot) (s : State) : Stirred (Only i) s (clearTask i s) :=
  (schedRemoveFromReady_relinked i s).stirred.off.trans (stirred_modify_only i _)

theorem zombifyTask_self (i : Slot) : Kin (s.tasks i).zombified ((zombifyTask i s).tasks i) := by
  rw [zombifyTask, modify_self, (schedRemoveFromReady_relinked i s).entries i]
  exact ⟨rfl, .inl rfl, .inl rfl⟩

/-- What the end of a task leaves of its entry: it is cleared, or a zombie. -/
def Ended (t t' : Entry) : Prop := ∃ u, Kin t u ∧ (Kin u.cleared t' ∨ Kin u.zombified t')

/-- The task of a slot comes to its end; others are only stirred. -/
structure Ends (i : Slot) (s s' : State) : Prop where
  others : Stirred (Only i) s s'
  self : Ended (s.tasks i) (s'.tasks i)

section

variable {s s' s'' : State}

theorem Ends.after (h : Stirred Nobody s s') (h' : Ends i s' s'') : Ends i s s'' := by
  obtain ⟨u, hu, hend⟩ := h'.self
  exact ⟨h.off.trans h'.others, u, (h.entries i id).trans hu, hend⟩

theorem Ended.stirred {t t' t'' : Entry} (h : Ended t t') (h' : Kin t' t'') : Ended t t'' := by
  obtain ⟨u, hu, hend⟩ := h
  exact ⟨u, hu, hend.imp (fun hk => hk.trans h') fun hk => hk.trans h'⟩

theorem Ends.then (h : Ends i s s') (h' : Stirred Nobody s' s'') : Ends i s s'' :=
  ⟨h.others.trans h'.off, h.self.stirred (h'.entries i id)⟩

theorem clearTask_ends (i : Slot) (s : State) : Ends i s (clearTask i s) := by
  refine ⟨clearTask_stirred i s, s.tasks i, Kin.refl _, .inl ?_⟩
  rw [clearTask_self]
  exact .refl _

/-- The parent gets its answer, is woken by the event it waits for, and the task is cleared. -/
theorem reapForParent_eq (i p : Slot) (s : State) : ∃ m f u, reapForParent i p s
    = clearTask i (taskSignalEvent (s.tasks p).blockedEventId ((s.setPhys m).modify p
        (fun t => { t with frame := f, waitpidStatusUptr := u }))) := by
  obtain ⟨f, hf⟩ : ∃ f, (if (s.tasks p).savedRsp ≠ 0 then
      s.modify p (fun t => { t with frame := { t.frame with
        rax := UInt64.ofNat ((s.tasks i).id % 2 ^ 32).toNat } }) else s)
        = s.modify p (fun t => { t with frame := f }) := by
    split
    · exact ⟨_, rfl⟩
    · refine ⟨(s.tasks p).frame, ?_⟩
      rw [State.modify, update_eq_self]
  unfold reapForParent
  rw [hf]
  dsimp only
  split
  · obtain ⟨m, hm⟩ := writeUserInt32_eq p
      ((s.modify p fun t => { t with frame := f }).tasks p).waitpidStatusUptr
      (encodeChildStatus ((s.modify p fun t => { t with frame := f }).tasks i))
      (s.modify p fun t => { t with frame := f })
    refine ⟨m, f, 0, ?_⟩
    rw [hm]
    simp only [State.modify, State.setPhys, update_self, update_idem]
  · refine ⟨s.phys, f, (s.tasks p).waitpidStatusUptr, ?_⟩
    rw [modify_self]
    rfl

theorem reapForParent_ends (i p : Slot) : Ends i s (reapForParent i p s) := by
  obtain ⟨m, f, u, heq⟩ := reapForParent_eq i p s
  rw [heq]
  refine Ends.after (Stirred.trans ?_ (taskSignalEvent_nudged ..).toStirred) (clearTask_ends i _)
  exact (stirred_setPhys s m).trans (stirred_modify ⟨rfl, .inl rfl, .inl rfl⟩)

theorem settleWithParent_ends (i : Slot) (parent : Option Slot) (parentId : Int) :
    Ends i s (settleWithParent i parent parentId s) := by
  fun_cases settleWithParent i parent parentId s with
  | case2 p => exact reapForParent_ends i p
  | case3 =>
    -- the event of the parent finds no task in the zombie's slot
    have hwake := (taskSignalEvent_nudged parentId (zombifyTask i s)).toStirred
    have hself := (schedRemoveFromReady_relinked i s).stirred.off.trans (stirred_modify_only i Entry.zombified)
    refine ⟨hself.trans hwake.off, s.tasks i, Kin.refl _, .inr ?_⟩
    exact (zombifyTask_self i).trans (hwake.entries i id)
  | _ => exact clearTask_ends i s

/-- The first half of `complete_task`, with what becomes of the foreground: the task leaves its queue,
    its children go to init, and those who wait for it are woken. -/
def announceEnd (i : Slot) (fg : Int) (s : State) : State :=
  taskSignalEvent (s.tasks i).id
    (reparentChildren (s.tasks i).id s.sysInitPid ((schedRemoveFromReady i s).setForeground fg))

/-- The second half: the parent is told, and settled with. -/
def closeEnd (i : Slot) (parentId id : Int) (s : State) : State :=
  settleWithParent i (parentSlot s parentId) parentId (notifyEnd id (parentSlot s parentId) s)

theorem completeTask_eq (hused : (s.tasks i).used) (hidle : (s.tasks i).id ≠ s.idleTaskId) :
    ∃ fg, completeTask i s = closeEnd i (s.tasks i).parentId (s.tasks i).id (announceEnd i fg s) := by
  have hpid : (schedRemoveFromReady i s).sysInitPid = s.sysInitPid :=
    (schedRemoveFromReady_relinked i s).stirred.sysInitPid
  unfold completeTask
  rw [if_neg (by rw [hused]; exact Bool.noConfusion), if_neg hidle]
  dsimp only
  split
  · refine ⟨-1, ?_⟩
    rw [show ((schedRemoveFromReady i s).setForeground (-1)).sysInitPid = s.sysInitPid from hpid]
    rfl
  · refine ⟨(schedRemoveFromReady i s).foregroundTaskId, ?_⟩
    rw [hpid]
    rfl

/-- The idle task only goes back to its queue. -/
theorem completeTask_idle (hused : (s.tasks i).used) (hidle : (s.tasks i).id = s.idleTaskId) :
    completeTask i s = schedEnqueueReady i (s.modify i fun t => { t with state := .ready }) := by
  rw [completeTask, if_neg (by rw [hused]; exact Bool.noConfusion), if_pos hidle]

theorem announceEnd_stirred (i : Slot) (fg : Int) (s : State) : Stirred Nobody s (announceEnd i fg s) :=
  (((schedRemoveFromReady_relinked i s).stirred.trans (nudged_setForeground _ fg).toStirred).trans
    (reparentChildren_stirred ..)).trans (taskSignalEvent_nudged ..).toStirred

/-- **The end of a task**, unless it is the idle task. -/
theorem completeTask_ends (hused : (s.tasks i).used)
    (hidle : (s.tasks i).id ≠ s.idleTaskId) : Ends i s (completeTask i s) := by
  obtain ⟨fg, heq⟩ := completeTask_eq hused hidle
  rw [heq]
  exact Ends.after ((announceEnd_stirred i fg s).trans (notifyEnd_nudged ..).toStirred)
    (settleWithParent_ends ..)

end

/-! ## Acting, switching, being born -/

/-- The identity that the running task has after a call. -/
def credsAfter (c : Creds) : Call → Creds
  | .setUid uid =>
    if c.euid = 0 then { c with uid, euid := uid }
    else if uid = c.uid then { c with euid := uid } else c
  | .setGid gid =>
    if c.euid = 0 then { c with gid, egid := gid }
    else if gid = c.gid ∨ hasGroup c gid then { c with egid := gid } else c
  | .setGroups gids count =>
    if count < 0 ∨ (maxSuppGroups : Int) < count ∨ c.euid ≠ 0 then c
    else { c with
      suppGroups := (List.range maxSuppGroups).map fun k =>
        if k < count.toNat then gids.getD k 0 else 0
      suppGroupCount := count.toNat }
  | .forceIdentity uid gid => { Creds.root with uid, gid, euid := uid, egid := gid }
  | _ => c

/-- What a task keeps in its own calls. -/
structure Acted (c : Call) (t t' : Entry) : Prop where
  used : t'.used = t.used := by rfl
  id : t'.id = t.id := by rfl
  parentId : t'.parentId = t.parentId := by rfl
  creds : t'.creds = credsAfter t.creds c := by rfl
  alive : t'.state = t.state ∨ t'.state ≠ .zombie := by exact .inl rfl

/-- What a task keeps on its way to its end: the switch, the delivery of a signal and a kill change
    no more than this. -/
def Switched (t u : Entry) : Prop :=
  u = { t with
    savedRsp := u.savedRsp
    state := u.state
    pendingSignals := u.pendingSignals
    exitCode := u.exitCode
    cancelRequested := u.cancelRequested
    frame := u.frame
    schedNext := u.schedNext }

theorem Switched.refl (t : Entry) : Switched t t := rfl

variable {t u : Entry}

section

variable (h : Switched t u)
include h

theorem Switched.trans {v : Entry} (h' : Switched u v) : Switched t v := by
  rw [Switched] at h h' ⊢
  rw [h', h]

theorem Switched.creds : u.creds = t.creds := by rw [h]
theorem Switched.used : u.used = t.used := by rw [h]
theorem Switched.id : u.id = t.id := by rw [h]

end

/-- The data address that a new kernel task keeps. -/
def spawned (s : State) (a : SpawnArgs) (old : Entry) : Entry :=
  initializeTaskStack s.bootstrap
    { spawnEntry s a old with data := if 0 < a.dataSize then a.data else 0 }

/-- A new user task, before its shared segment is attached. -/
def spawnedUserBare (s : State) (a : SpawnUserArgs) (old : Entry) : Entry :=
  installSignalTrampoline { spawnUserEntry s a old with userStack := userStackBottom }

/-- A new user task. -/
def spawnedUser (s : State) (a : SpawnUserArgs) (old : Entry) : Entry :=
  let t := spawnedUserBare s a old
  initializeTaskStack s.bootstrap (match a.attached with
    | some ms => if 0 < a.shmSegmentId then { t with shmMappings := ms } else t
    | none => t)

/-- The parent of a fork once its pages are shared. -/
def shared (t : Entry) : Entry := { t with userPhysicalBase := 0 }

/-- A new forked task. -/
def forked (s : State) (parent : Entry) (e : ForkEnv) (old : Entry) : Entry :=
  forkDone (shared parent) e (forkEntry s (shared parent) e old)

/-- The trampoline is one field. -/
theorem installSignalTrampoline_eq (t : Entry) : ∃ va,
    installSignalTrampoline t = { t with signalTrampolineVa := va } := by
  unfold installSignalTrampoline
  split
  · exact ⟨_, rfl⟩
  · exact ⟨_, rfl⟩

/-- The entry that a call puts into a free slot that held `old`. -/
inductive Born (s : State) (old : Entry) : Call → Entry → Prop
  | spawn (a : SpawnArgs) : Born s old (.spawn a) (spawned s a old)
  | spawnUser (a : SpawnUserArgs) : Born s old (.spawnUser a) (spawnedUser s a old)
  | fork (e : ForkEnv) (p : Slot) (hp : s.current = some p) :
      Born s old (.fork e) (forked s (s.tasks p) e old)

/-- What a new task has from the call that made it, whatever the slot held. -/
structure Newborn (s : State) (b : Entry) : Prop where
  used : b.used
  id : b.id = s.nextTaskId
  parentId : b.parentId = inheritedParent s
  creds : b.creds = inheritedCreds s
  state : b.state = .ready

theorem Newborn.trampoline {b : Entry} (h : Newborn s b) :
    Newborn s (installSignalTrampoline b) := by
  obtain ⟨va, hva⟩ := installSignalTrampoline_eq b
  rw [hva]
  exact { h with }

variable {c : Call}

theorem Born.newborn {old b : Entry} (h : Born s old c b) : Newborn s b := by
  cases h with
  | spawn a => exact ⟨rfl, rfl, rfl, rfl, rfl⟩
  | spawnUser a =>
    have hbare : Newborn s (spawnedUserBare s a old) := Newborn.trampoline ⟨rfl, rfl, rfl, rfl, rfl⟩
    unfold spawnedUser
    dsimp only [initializeTaskStack]
    repeat' split
    all_goals exact ⟨hbare.used, hbare.id, hbare.parentId, hbare.creds, hbare.state⟩
  | fork e p hp =>
    unfold forked
    refine Newborn.trampoline ⟨rfl, rfl, ?_, ?_, rfl⟩
    · rw [inheritedParent, hp]
      rfl
    · rw [inheritedCreds, hp]
      rfl

theorem Born.inherits {old b : Entry} (h : Born s old c b) :
    b.used ∧ b.creds = inheritedCreds s := ⟨h.newborn.used, h.newborn.creds⟩

/-- What a failed spawn or fork leaves in the slot. -/
inductive Aborted (s : State) (old : Entry) : Call → Entry → Prop
  | spawn (a : SpawnArgs) : Aborted s old (.spawn a) (spawnEntry s a old).cleared
  | spawnUser (a : SpawnUserArgs) : Aborted s old (.spawnUser a) (spawnUserEntry s a old).cleared
  | attach (a : SpawnUserArgs) : Aborted s old (.spawnUser a) (spawnedUserBare s a old).cleared
  | fork (e : ForkEnv) (p : Slot) (hp : s.current = some p) (hdir : e.childDir ≠ 0)
      (hstack : e.childKstack ≠ 0) (he : e.shmCloned = false) :
      Aborted s old (.fork e) { forkEntry s (shared (s.tasks p)) e old with used := false }

theorem Aborted.unused {old : Entry} {call : Call} (h : Aborted s old call t) :
    t.used = false := by
  cases h with
  | spawn | spawnUser | attach | fork => rfl

/-- One task is switched, signalled or marked to die; no other entry changes. -/
structure Switches (i : Slot) (s s' : State) : Prop where
  self : Switched (s.tasks i) (s'.tasks i)
  alive : (s'.tasks i).state = (s.tasks i).state ∨ (s'.tasks i).state ≠ .zombie
  others : ∀ j, j ≠ i → s'.tasks j = s.tasks j
  globals : s' = { s with tasks := s'.tasks, phys := s'.phys }

section

variable {s s' s'' : State}

theorem Switches.refl (s : State) : Switches i s s := ⟨Switched.refl _, .inl rfl, fun _ _ => rfl, rfl⟩

theorem Switches.trans (h : Switches i s s') (h' : Switches i s' s'') : Switches i s s'' := by
  refine ⟨h.self.trans h'.self, ?_, fun j hj => (h'.others j hj).trans (h.others j hj), ?_⟩
  · rcases h'.alive with heq | hne
    · rw [heq]
      exact h.alive
    · exact .inr hne
  · rw [h'.globals, h.globals]

theorem Switches.current (h : Switches i s s') : s'.current = s.current := by rw [h.globals]

/-- Only the entry of the task and memory differ. -/
theorem Switches.eq (h : Switches i s s') : (s.setPhys s'.phys).modify i (fun _ => s'.tasks i) = s' := by
  have htasks : update s.tasks i (s'.tasks i) = s'.tasks := by
    funext j
    by_cases hj : j = i
    · rw [hj, update_self]
    · rw [update_of_ne hj, h.others j hj]
  conv_rhs => rw [h.globals, ← htasks]
  rfl

theorem Switches.acted (h : Switches i s s')
    (hc : credsAfter (s.tasks i).creds c = (s.tasks i).creds) : Acted c (s.tasks i) (s'.tasks i) := by
  refine ⟨h.self.used, h.self.id, ?_, h.self.creds.trans hc.symm, h.alive⟩
  rw [h.self]

theorem switches_modify (hf : ∀ t, Switched t (f t))
    (halive : ∀ t, (f t).state = t.state ∨ (f t).state ≠ .zombie) : Switches i s (s.modify i f) := by
  refine ⟨?_, ?_, fun j hj => modify_ne hj s f, rfl⟩
  · rw [modify_self]
    exact hf _
  · rw [modify_self]
    exact halive _

theorem switches_setPhys (s : State) (m : Bytes.Mem) : Switches i s (s.setPhys m) :=
  ⟨Switched.refl _, .inl rfl, fun _ _ => rfl, rfl⟩

/-- The task is marked to die. -/
theorem switches_killed (i : Slot) (signum : Nat) (s : State) :
    Switches i s (s.modify i fun t => t.killed signum) :=
  switches_modify (fun _ => rfl) fun _ => .inr TaskState.noConfusion

theorem pushUserSignalFrame_switches {handler signum : Nat}
    (h : pushUserSignalFrame i handler signum s = some s') : Switches i s s' := by
  revert h
  fun_cases pushUserSignalFrame i handler signum s with
  | case5 =>
    intro h
    rw [← Option.some.inj h]
    exact (switches_setPhys s _).trans (switches_modify (fun _ => rfl) fun _ => .inl rfl)
  | _ => exact fun h => nomatch h

/-- The delivery of a signal changes the running task only, as a switch may. -/
theorem deliverSignals_switches (i : Slot) (s : State) : Switches i s (deliverSignals i s) := by
  have hpop : Switches i s (s.modify i fun t => { t with
      pendingSignals := t.pendingSignals &&& ~~~(signalBit (popPendingSignal (s.tasks i))) }) :=
    switches_modify (fun _ => rfl) fun _ => .inl rfl
  fun_cases deliverSignals i s with
  | case1 | case2 => exact .refl s
  | case3 | case4 | case6 => exact hpop
  | case5 | case7 => exact hpop.trans (switches_killed ..)
  | case8 => exact hpop.trans (pushUserSignalFrame_switches (by assumption))

/-- **The three ends of a switch**: the task goes back to its queue, is completed, or is left as it is. -/
theorem scheduleBackToIdle_cases (hcur : s.current = some i) (esp : Nat) :
    (scheduleBackToIdle esp s = (schedEnqueueReady i ((s.modify i fun t =>
          { t with savedRsp := esp }).modify i fun t => { t with state := .ready })).setCurrent none ∧
        ((s.tasks i).state = .running ∨ (s.tasks i).state = .ready ∨
          (s.tasks i).id = s.idleTaskId ∧
            ((s.tasks i).state = .finished ∨ (s.tasks i).state = .cancelled))) ∨
      (scheduleBackToIdle esp s = (completeTask i (s.modify i fun t =>
          { t with savedRsp := esp })).setCurrent none ∧ (s.tasks i).used ∧
        ((s.tasks i).state = .finished ∨ (s.tasks i).state = .cancelled) ∧
          (s.tasks i).id ≠ s.idleTaskId) ∨
      scheduleBackToIdle esp s = (s.modify i fun t => { t with savedRsp := esp }).setCurrent none ∧
        (s.tasks i).state ≠ .ready := by
  have hself : (s.modify i fun t => { t with savedRsp := esp }).tasks i
      = { s.tasks i with savedRsp := esp } := modify_self ..
  have hback : ((schedEnqueueReady i ((s.modify i fun t => { t with savedRsp := esp }).modify i
      (fun t => { t with state := .ready }))).tasks i).state = .ready := by
    rw [(schedEnqueueReady_relinked ..).entries i, modify_self]
    rfl
  unfold scheduleBackToIdle
  rw [hcur]
  dsimp only
  rw [hself]
  by_cases hready : (s.tasks i).state = .running ∨ (s.tasks i).state = .ready
  · rw [if_pos hready, if_neg fun hend => by rw [hback] at hend; rcases hend.2 with h | h <;> cases h]
    exact .inl ⟨rfl, hready.imp_right .inl⟩
  rw [if_neg hready, hself]
  by_cases hend : (s.tasks i).used ∧
      ((s.tasks i).state = .finished ∨ (s.tasks i).state = .cancelled)
  · rw [if_pos hend]
    by_cases hidle : (s.tasks i).id = s.idleTaskId
    · rw [completeTask_idle (by rw [hself]; exact hend.1) (by rwa [hself])]
      exact .inl ⟨rfl, .inr (.inr ⟨hidle, hend.2⟩)⟩
    · exact .inr (.inl ⟨rfl, hend.1, hend.2, hidle⟩)
  · rw [if_neg hend]
    exact .inr (.inr ⟨rfl, fun h => hready (.inr h)⟩)

end

/-! ## What a call can do -/

/-- A new task in the slot `i`. -/
def State.fill (s : State) (i : Slot) (b : Entry) : State := (s.modify i fun _ => b).takeId

/-- The two entries of the scheduler. -/
def Call.switches : Call → Bool
  | .scheduleOnTimer _ | .scheduleOnSyscall _ => true
  | _ => false

/-- The calls that only wake and signal, or set what nobody else reads. -/
def Call.nudges : Call → Bool
  | .signalEvent _ | .requestCancel | .requestForegroundCancel | .clearCancel => true
  | .setPriority .. | .setOutputVc .. | .setForeground _ => true
  | .sendSignal _ signum => decide (signum ≠ sigkill)
  | _ => false

/-- The state in which a call makes a task: a fork has taken the region of the parent. -/
inductive Parted (s : State) : Call → State → Prop
  | same (c : Call) : Parted s c s
  | fork (e : ForkEnv) (p : Slot) (hcur : s.current = some p) :
      Parted s (.fork e) (s.modify p shared)

/-- What a spawn or a fork can have answered and done: refused, made a task, or failed half way. -/
inductive Creation (s : State) (c : Call) : Int × State → Prop
  | refused {s₀ : State} (h₀ : Parted s c s₀) : Creation s c (-1, s₀)
  | born {s₀ : State} (h₀ : Parted s c s₀) (i : Slot) (hfree : findFreeSlot s = some i) (b : Entry)
      (hb : Born s (s.tasks i) c b) (fg : Int) :
      Creation s c (s.nextTaskId, schedEnqueueReady i ((s₀.fill i b).setForeground fg))
  | aborted (i : Slot) (hfree : findFreeSlot s = some i) (b : Entry) (hused : b.used)
      (hb : Aborted s (s.tasks i) c b.cleared) : Creation s c (-1, clearTask i (s.fill i b))
  | unforked {s₀ : State} (h₀ : Parted s c s₀) (i : Slot) (hfree : findFreeSlot s = some i)
      (b : Entry) (hb : Aborted s (s.tasks i) c b) : Creation s c (-1, s₀.fill i b)

/-- **What a call can have made of the machine.** -/
inductive Outcome (s : State) (c : Call) : State → Prop
  | same : Outcome s c s
  | nudged {s' : State} (hc : c.nudges) (h : Nudged s s') : Outcome s c s'
  | ticked (hc : c = .tick) : Outcome s c (timerHandleInterrupt s)
  | own (i : Slot) (hc : c.switches = false) (hcur : s.current = some i) (f : Entry → Entry)
      (h : Acted c (s.tasks i) (f (s.tasks i))) : Outcome s c (s.modify i f)
  | dispatched (esp : Nat) (hc : c = .scheduleOnTimer esp) (hcur : s.current = none) :
      Outcome s c (scheduleFromIdle s)
  | left (i : Slot) (esp : Nat) (hc : c.switches) (hcur : s.current = some i) :
      Outcome s c (scheduleBackToIdle esp (deliverSignals i s))
  | stayed (i : Slot) (hc : c.switches) (hcur : s.current = some i)
      (hrun : ((deliverSignals i s).tasks i).state = .running) : Outcome s c (deliverSignals i s)
  | marked (i : Slot) (id : Int) (hc : c = .sendSignal id sigkill) (hfind : findTaskById s id = some i)
      (htarget : signalTarget s i sigkill) (hrun : (s.tasks i).state = .running) :
      Outcome s c (s.modify i fun t => t.killed sigkill)
  | slain (i : Slot) (id : Int) (hc : c = .sendSignal id sigkill) (hfind : findTaskById s id = some i)
      (htarget : signalTarget s i sigkill) (hrun : (s.tasks i).state ≠ .running) :
      Outcome s c (completeTask i (s.modify i fun t => t.killed sigkill))
  | reaped (k : Slot) (hused : (s.tasks k).used) (hz : (s.tasks k).isZombie) :
      Outcome s c (clearTask k s)
  | collected (k : Slot) (hc : c.switches = false) (hused : (s.tasks k).used)
      (hz : (s.tasks k).isZombie) (m : Bytes.Mem) (r : Int) : Outcome s c (((clearTask k s).setPhys m).answer r)
  | swept (parent : Int) : Outcome s c (taskReapZombiesFor parent s)
  | created {r : Int × State} (h : Creation s c r) : Outcome s c r.2
  | registered (pid : Int) (hc : c = .setInitPid pid) : Outcome s c { s with sysInitPid := pid }
  | machine (pages : Nat → Nat → Option Nat) (phys : Bytes.Mem) :
      Outcome s c { s with pages, phys }

/-- The running task changes its own entry, and the call answers something. -/
theorem Outcome.returned {r : Int} (hc : c.switches = false)
    (hcur : s.current = some i) (h : Acted c (s.tasks i) (f (s.tasks i))) :
    Outcome s c (r, s.modify i f).2 := .own i hc hcur f h

theorem Outcome.of_onCurrent (hc : c.switches = false)
    (h : ∀ t, Acted c t (f t)) : Outcome s c (s.onCurrent f) := by
  unfold State.onCurrent
  split
  · exact .same
  · rename_i i hcur
    exact .own i hc hcur f (h _)

/-! ### Calls that a task makes for itself -/

theorem Acted.trampoline (h : Acted c t u) :
    Acted c t (installSignalTrampoline u) := by
  obtain ⟨va, hva⟩ := installSignalTrampoline_eq u
  rw [hva]
  exact { h with }

theorem taskExec_outcome (a : ExecArgs) : Outcome s (.exec a) (taskExec a s).2 := by
  fun_cases taskExec a s with
  | case5 i hcur =>
    refine .returned rfl hcur (Acted.trampoline ?_)
    split
    · exact { alive := .inr TaskState.noConfusion }
    · exact { alive := .inr TaskState.noConfusion }
  | _ => exact .same

theorem taskSetCurrentUid_outcome (uid : UInt32) : Outcome s (.setUid uid) (taskSetCurrentUid uid s).2 := by
  fun_cases taskSetCurrentUid uid s with
  | case2 i hcur c hroot =>
    refine .returned rfl hcur { creds := ?_ }
    rw [credsAfter, if_pos hroot]
    rfl
  | case3 i hcur c hroot huid =>
    refine .returned rfl hcur { creds := ?_ }
    rw [credsAfter, if_neg hroot, if_pos huid]
    rfl
  | _ => exact .same

theorem taskSetCurrentGid_outcome (gid : UInt32) : Outcome s (.setGid gid) (taskSetCurrentGid gid s).2 := by
  fun_cases taskSetCurrentGid gid s with
  | case2 i hcur c hroot =>
    refine .returned rfl hcur { creds := ?_ }
    rw [credsAfter, if_pos hroot]
    rfl
  | case3 i hcur c hroot hgid =>
    refine .returned rfl hcur { creds := ?_ }
    rw [credsAfter, if_neg hroot, if_pos hgid]
    rfl
  | _ => exact .same

theorem taskSetGroups_outcome (gids : List UInt32) (count : Int) :
    Outcome s (.setGroups gids count) (taskSetGroups gids count s).2 := by
  fun_cases taskSetGroups gids count s with
  | case4 i hcur c hcount hroot =>
    refine .returned rfl hcur { creds := ?_ }
    rw [credsAfter, if_neg]
    · rfl
    · rintro (h | h | h)
      · exact hcount (.inl h)
      · exact hcount (.inr h)
      · exact hroot h
  | _ => exact .same

/-- The calls that a task makes for itself only. -/
def Call.isOwn : Call → Bool
  | .exec _ | .exit _ | .sleep _ | .yield | .waitEvent _ | .waitEventTimeout .. => true
  | .setSignalHandler .. | .sigprocmask .. | .alarm _ | .setitimer .. | .setErrno _ => true
  | .setFdRlimit .. | .setUid _ | .setGid _ | .setGroups .. | .forceIdentity .. => true
  | .mmap _ | .munmap .. | .fds _ | .shm _ => true
  | _ => false

theorem own_outcome (hc : c.isOwn) : Outcome s c (step s c).2 := by
  cases c with
  | exec a => exact taskExec_outcome a
  | exit code => exact .of_onCurrent rfl fun _ => { alive := .inr TaskState.noConfusion }
  | sleep ticks =>
    show Outcome s _ (taskSleep ticks s)
    unfold taskSleep
    split
    · exact .of_onCurrent rfl fun _ => { alive := .inr TaskState.noConfusion }
    · exact .of_onCurrent rfl fun _ => { alive := .inr TaskState.noConfusion }
  | yield =>
    refine .of_onCurrent rfl fun t => ?_
    split
    · exact { alive := .inr TaskState.noConfusion }
    · exact {}
  | waitEvent event =>
    show Outcome s _ (taskWaitEvent event s)
    unfold taskWaitEvent
    split
    · exact .same
    · exact .of_onCurrent rfl fun _ => { alive := .inr TaskState.noConfusion }
  | waitEventTimeout event timeout =>
    show Outcome s _ (taskWaitEventTimeout event timeout s)
    unfold taskWaitEventTimeout taskWaitEvent
    split
    · split
      · exact .same
      · exact .of_onCurrent rfl fun _ => { alive := .inr TaskState.noConfusion }
    · split
      · exact .same
      · exact .of_onCurrent rfl fun _ => { alive := .inr TaskState.noConfusion }
  | setSignalHandler signum handler =>
    show Outcome s _ (taskSetSignalHandler signum handler s).2
    fun_cases taskSetSignalHandler signum handler s with
    | case3 i hcur => exact .returned rfl hcur {}
    | _ => exact .same
  | sigprocmask how mask =>
    show Outcome s _ (taskSigprocmask how mask s).2
    unfold taskSigprocmask
    split
    · exact .same
    rename_i hcur
    split
    · exact .returned rfl hcur {}
    · split
      · exact .returned rfl hcur {}
      · split
        · exact .returned rfl hcur {}
        · exact .same
  | alarm seconds =>
    show Outcome s _ (taskAlarm seconds s).2
    fun_cases taskAlarm seconds s with
    | case1 => exact .same
    | case2 i hcur => exact .returned rfl hcur {}
  | setitimer valueUs intervalUs =>
    show Outcome s _ (taskSetitimer valueUs intervalUs s).2
    fun_cases taskSetitimer valueUs intervalUs s with
    | case2 i hcur | case4 i hcur => exact .returned rfl hcur {}
    | _ => exact .same
  | setFdRlimit soft hard =>
    show Outcome s _ (taskSetFdRlimit soft hard s).2
    fun_cases taskSetFdRlimit soft hard s with
    | case3 i hcur => exact .returned rfl hcur {}
    | _ => exact .same
  | setUid uid => exact taskSetCurrentUid_outcome uid
  | setGid gid => exact taskSetCurrentGid_outcome gid
  | setGroups gids count => exact taskSetGroups_outcome gids count
  | mmap length =>
    show Outcome s _ (taskMmap length s).2
    fun_cases taskMmap length s with
    | case3 i hcur => exact .returned rfl hcur {}
    | _ => exact .same
  | munmap addr length =>
    show Outcome s _ (taskMunmap addr length s).2
    fun_cases taskMunmap addr length s with
    | case1 => exact .same
    | case2 i hcur => exact .returned rfl hcur {}
  | setErrno | forceIdentity | fds | shm => exact .of_onCurrent rfl fun _ => {}
  | _ => cases hc

/-! ### Requests, signals and waits -/

theorem taskRequestCancel_outcome : Outcome s .requestCancel (taskRequestCancel s) := by
  unfold taskRequestCancel
  split
  · exact .same
  rename_i i hcur
  by_cases hused : (s.tasks i).used
  · exact .nudged rfl (cancelSlot_nudged hused)
  -- a free slot is put into no queue
  unfold cancelSlot wakeStopped
  split
  · rw [modify_modify, schedEnqueueReady, if_pos (by simpa using hused)]
    exact .own i rfl hcur _ { alive := .inr TaskState.noConfusion }
  · exact .own i rfl hcur _ {}

theorem taskSendSignal_outcome (id : Int) (signum : Nat) :
    Outcome s (.sendSignal id signum) (taskSendSignal id signum s).2 := by
  fun_cases taskSendSignal id signum s with
  | case2 hvalid i hfind =>
    fun_cases taskQueueSignalLocked i signum s with
    | case1 htarget hsig running =>
      subst hsig
      exact .marked i id rfl hfind htarget (of_decide_eq_true (by assumption))
    | case2 htarget hsig running =>
      subst hsig
      exact .slain i id rfl hfind htarget fun h => ‹¬running = true› (decide_eq_true h)
    | case3 _ hsig => exact .nudged (decide_eq_true hsig) (queuePending_nudged i signum s)
    | case4 => exact .same
  | _ => exact .same

theorem findChild_used {parent : Int} {p : Entry → Bool}
    (h : findChild s parent p = some i) : (s.tasks i).used ∧ p (s.tasks i) := by
  have hp := firstSlot_some h
  simp only [Bool.and_eq_true] at hp
  exact ⟨hp.1.1, hp.2⟩

theorem taskWaitId_outcome : Outcome s (.waitId target) (taskWaitId target s) := by
  have hblock : ∀ i (e : Int), s.current = some i →
      Outcome s (.waitId target) (s.modify i fun t => t.blockFor e) :=
    fun i e hcur => .own i rfl hcur _ { alive := .inr TaskState.noConfusion }
  fun_cases taskWaitId target s with
  | case2 i hcur self htarget k hk => exact .reaped k (findChild_used hk).1 (findChild_used hk).2
  | case3 i hcur => exact hblock i _ hcur
  | case7 i hcur self hne hneg k hk hz => exact .reaped k (findTaskById_some hk).1 hz
  | case9 i hcur => exact hblock i _ hcur
  | _ => exact .same

/-- What `task_waitpid` does before its answer goes into the trap frame. -/
inductive Waited (s : State) (c : Call) : State → Prop
  | own (i : Slot) (hcur : s.current = some i) (f : Entry → Entry)
      (h : ∀ t, Acted c t (f t)) : Waited s c (s.modify i f)
  | collected (k : Slot) (hused : (s.tasks k).used) (hz : (s.tasks k).isZombie)
      (m : Bytes.Mem) : Waited s c ((clearTask k s).setPhys m)

theorem collect_waited {k : Slot} (hused : (s.tasks k).used)
    (hz : (s.tasks k).isZombie) (status : Nat) : Waited s c (collect i k status s).2 := by
  unfold collect
  dsimp only
  split
  · obtain ⟨m, hm⟩ := writeUserInt32_eq i status (encodeChildStatus (s.tasks k)) (clearTask k s)
    rw [hm]
    exact .collected k hused hz m
  · exact .collected k hused hz (clearTask k s).phys

theorem taskWaitpid_waited (status : Nat) :
    s.current = none ∧ (taskWaitpid target status s).2 = s ∨
      Waited s (.waitpid target status) (taskWaitpid target status s).2 := by
  have hacts : ∀ i (r : Int) (f : Entry → Entry), s.current = some i →
      (∀ t, Acted (.waitpid target status) t (f t)) →
      Waited s (.waitpid target status) (r, s.modify i f).2 :=
    fun i r f hcur hf => .own i hcur f hf
  fun_cases taskWaitpid target status s with
  | case1 hcur => exact .inl ⟨hcur, rfl⟩
  | case2 i hcur self htarget k hk =>
    exact .inr (collect_waited (findChild_used hk).1 (findChild_used hk).2 status)
  | case8 i hcur self hne hpos k hk hchild hz =>
    exact .inr (collect_waited (findTaskById_some hk).1 hz status)
  | case3 i hcur | case9 i hcur =>
    exact .inr (hacts i _ _ hcur fun _ => { alive := .inr TaskState.noConfusion })
  | _ i hcur => exact .inr (hacts i _ _ hcur fun _ => {})

/-- The answer is one more change of the running task, or follows the collection. -/
theorem Waited.outcome {s' : State} (hc : c.switches = false) (h : Waited s c s') (r : Int) :
    Outcome s c (s'.answer r) := by
  cases h with
  | own i hcur f hf =>
    unfold State.answer State.onCurrent
    rw [modify_current, hcur]
    dsimp only
    rw [modify_modify]
    obtain ⟨hused, hid, hparent, hcreds, halive⟩ := hf (s.tasks i)
    exact .own i hc hcur _ ⟨hused, hid, hparent, hcreds, halive⟩
  | collected k hused hz m => exact .collected k hc hused hz m r

theorem syscallWaitpid_outcome (status : Nat) :
    Outcome s (.waitpid target status) (syscallWaitpid target status s).2 := by
  have hnone : s.current = none → ∀ r, s.answer r = s := by
    intro hcur r
    unfold State.answer State.onCurrent
    rw [hcur]
  unfold syscallWaitpid
  dsimp only
  split
  · unfold State.onCurrent
    split
    · rename_i hcur
      rw [hnone hcur]
      exact .same
    · rename_i i hcur
      exact Waited.outcome rfl
        (.own i hcur (fun t => t.setErrno 14) fun _ => {}) _
  · rcases taskWaitpid_waited target status with ⟨hcur, heq⟩ | hwait
    · rw [heq, hnone hcur]
      exact .same
    · exact hwait.outcome rfl _

/-! ### Creation -/

section

variable {i j : Slot} {b : Entry}

@[simp] theorem fill_self : (s.fill i b).tasks i = b := modify_self s i fun _ => b

theorem fill_ne (hj : j ≠ i) : (s.fill i b).tasks j = s.tasks j := modify_ne hj s fun _ => b

theorem fill_modify (f : Entry → Entry) : (s.fill i b).modify i f = s.fill i (f b) :=
  congrArg State.takeId (modify_modify s i (fun _ => b) f)

theorem initializeTaskStack_id (boot : UInt64) : (initializeTaskStack boot b).id = b.id := by
  dsimp only [initializeTaskStack]

theorem launch_fill (foreground : Bool) : ∃ fg, launch i foreground (s.fill i b)
    = (b.id, schedEnqueueReady i ((s.fill i (initializeTaskStack s.bootstrap b)).setForeground fg)) := by
  have hid : ∀ fg, ((schedEnqueueReady i ((s.fill i (initializeTaskStack s.bootstrap b)).setForeground
      fg)).tasks i).id = b.id := by
    intro fg
    rw [(schedEnqueueReady_relinked ..).entries i, setForeground_tasks, fill_self]
    dsimp only [Entry.setNext, initializeTaskStack]
  unfold launch
  rw [fill_modify]
  split
  · exact ⟨_, Prod.ext (hid _) rfl⟩
  · exact ⟨s.foregroundTaskId, Prod.ext (hid _) rfl⟩

/-- The end of a spawn that succeeds. -/
theorem Creation.of_launch (hfree : findFreeSlot s = some i) (foreground : Bool)
    (hb : Born s (s.tasks i) c (initializeTaskStack s.bootstrap b)) :
    Creation s c (launch i foreground (s.fill i b)) := by
  obtain ⟨fg, heq⟩ := launch_fill foreground
  have hid : b.id = s.nextTaskId := (initializeTaskStack_id _).symm.trans hb.newborn.id
  rw [heq, hid]
  exact .born (.same c) i hfree _ hb fg

end

theorem taskSpawn_creation (a : SpawnArgs) : Creation s (.spawn a) (taskSpawn a s) := by
  fun_cases taskSpawn a s with
  | case4 _ _ i hfree | case5 _ _ i hfree => exact .aborted i hfree (spawnEntry s a (s.tasks i)) rfl (.spawn a)
  | case6 _ _ i hfree s₁ =>
    have hdata : s₁.modify i (fun t => { t with data := if 0 < a.dataSize then a.data else 0 })
        = s.fill i { spawnEntry s a (s.tasks i) with data := if 0 < a.dataSize then a.data else 0 } :=
      fill_modify ..
    rw [hdata]
    exact .of_launch hfree a.foreground (.spawn a)
  | _ => exact .refused (.same _)

theorem taskSpawnUser_creation (a : SpawnUserArgs) : Creation s (.spawnUser a) (taskSpawnUser a s) := by
  have hbare : ∀ i, (s.modify i (spawnUserEntry s a)).takeId.modify i (fun t =>
      installSignalTrampoline { t with userStack := userStackBottom })
        = s.fill i (spawnedUserBare s a (s.tasks i)) := fun i => fill_modify ..
  have hused : ∀ old, (spawnedUserBare s a old).used := by
    intro old
    obtain ⟨va, hva⟩ := installSignalTrampoline_eq
      { spawnUserEntry s a old with userStack := userStackBottom }
    rw [spawnedUserBare, hva]
    rfl
  have hborn : ∀ i, Born s (s.tasks i) (.spawnUser a) (spawnedUser s a (s.tasks i)) :=
    fun i => .spawnUser a
  fun_cases taskSpawnUser a s with
  | case4 _ _ i hfree => exact .aborted i hfree (spawnUserEntry s a (s.tasks i)) rfl (.spawnUser a)
  | case5 _ _ i hfree s₁ hstack s₂ =>
    rw [show s₂ = _ from hbare i]
    exact .aborted i hfree _ (hused _) (.attach a)
  | case6 _ _ i hfree s₁ hstack s₂ hseg ms hms =>
    have hb := hborn i
    rw [spawnedUser, hms] at hb
    dsimp only at hb
    rw [if_pos hseg] at hb
    rw [show s₂ = _ from hbare i, fill_modify]
    exact .of_launch hfree a.foreground hb
  | case7 _ _ i hfree s₁ hstack s₂ hseg =>
    have hb := hborn i
    unfold spawnedUser at hb
    dsimp only at hb
    rw [show s₂ = _ from hbare i]
    refine .of_launch hfree a.foreground ?_
    split at hb
    · rwa [if_neg hseg] at hb
    · exact hb
  | _ => exact .refused (.same _)

theorem taskForkFromFrame_creation (e : ForkEnv) : Creation s (.fork e) (taskForkFromFrame e s) := by
  -- whatever the free slot held, its region is 0
  have hfill : ∀ p i, forkEntry (s.modify p shared) (shared (s.tasks p)) e
      ((s.modify p shared).tasks i) = forkEntry s (shared (s.tasks p)) e (s.tasks i) := by
    intro p i
    rw [modify_tasks]
    split
    · rfl
    · rfl
  have hstate : ∀ p i, ((s.modify p shared).modify i
      (forkEntry (s.modify p shared) ((s.modify p shared).tasks p) e)).takeId
        = (s.modify p shared).fill i (forkEntry s (shared (s.tasks p)) e (s.tasks i)) := by
    intro p i
    rw [modify_self, ← hfill]
    rfl
  fun_cases taskForkFromFrame e s with
  | case5 p hcur => exact .refused (.fork e p hcur)
  | case6 p hcur _ i hfree hdir s₁ hstack _ s₂ hclone =>
    have h : s₂ = _ := hstate p i
    rw [h, fill_modify]
    exact .unforked (.fork e p hcur) i hfree _ (.fork e p hcur hdir hstack hclone)
  | case7 p hcur _ i hfree hdir s₁ hstack parent s₂ hclone s₃ s₄ =>
    have hb : Born s (s.tasks i) (.fork e) (forked s (s.tasks p) e (s.tasks i)) := .fork e p hcur
    have h₃ : s₃ = (s.modify p shared).fill i (forked s (s.tasks p) e (s.tasks i)) := by
      have hparent : parent = shared (s.tasks p) := modify_self s p shared
      show s₂.modify i (forkDone parent e) = _
      rw [show s₂ = _ from hstate p i, hparent, fill_modify]
      rfl
    have hid : (s₄.tasks i).id = s.nextTaskId := by
      show ((schedEnqueueReady i s₃).tasks i).id = _
      rw [(schedEnqueueReady_relinked ..).entries i, h₃, fill_self]
      exact hb.newborn.id
    rw [hid, show s₄ = schedEnqueueReady i s₃ from rfl, h₃]
    exact .born (.fork e p hcur) i hfree _ hb s.foregroundTaskId
  | _ => exact .refused (.same _)

/-- A spawn that answers an identifier has put the new task into the free slot. -/
theorem Creation.made {r : Int × State} (h : Creation s c r)
    (hc : ∀ e, c ≠ .fork e) (hok : r.1 ≠ -1) : ∃ i b fg, findFreeSlot s = some i ∧
      Born s (s.tasks i) c b ∧
      r = (s.nextTaskId, schedEnqueueReady i ((s.fill i b).setForeground fg)) := by
  cases h with
  | born h₀ i hfree b hb fg =>
    cases h₀ with
    | same => exact ⟨i, b, fg, hfree, hb, rfl⟩
    | fork e => exact absurd rfl (hc e)
  | _ => exact absurd rfl hok

/-- **The inversion theorem**: what any call can have made of the machine. -/
theorem step_outcome (s : State) (c : Call) : Outcome s c (step s c).2 := by
  by_cases hown : c.isOwn
  · exact own_outcome hown
  cases c with
  | tick => exact .ticked rfl
  | scheduleOnTimer esp =>
    show Outcome s _ (taskScheduleOnTimer esp s)
    unfold taskScheduleOnTimer
    split
    · exact .dispatched esp rfl (by assumption)
    · exact .left _ esp rfl (by assumption)
  | scheduleOnSyscall esp =>
    show Outcome s _ (taskScheduleOnSyscall esp s)
    unfold taskScheduleOnSyscall
    split
    · exact .same
    rename_i i hcur
    dsimp only
    split
    · exact .left i esp rfl hcur
    · rename_i hrun
      exact .stayed i rfl hcur (not_not.mp hrun)
  | spawn a => exact .created (taskSpawn_creation a)
  | spawnUser a => exact .created (taskSpawnUser_creation a)
  | fork e => exact .created (taskForkFromFrame_creation e)
  | signalEvent event => exact .nudged rfl (taskSignalEvent_nudged event s)
  | requestCancel => exact taskRequestCancel_outcome
  | requestForegroundCancel =>
    show Outcome s _ (taskRequestForegroundCancel s)
    fun_cases taskRequestForegroundCancel s with
    | case3 _ i hfind => exact .nudged rfl (cancelSlot_nudged (findTaskById_some hfind).1)
    | _ => exact .same
  | clearCancel => exact .nudged rfl (taskClearCancel_nudged)
  | setPriority id priority => exact .nudged rfl (taskSetPriority_nudged id priority)
  | setOutputVc id vc => exact .nudged rfl (taskSetOutputVc_nudged id vc)
  | setForeground id => exact .nudged rfl (taskSetForeground_nudged id)
  | sendSignal id signum => exact taskSendSignal_outcome id signum
  | waitId target => exact taskWaitId_outcome target
  | waitpid target status => exact syscallWaitpid_outcome target status
  | reapZombiesFor parent => exact .swept parent
  | setInitPid pid => exact .registered pid rfl
  | resolvePages pages => exact .machine pages s.phys
  | store phys => exact .machine s.pages phys
  | _ => exact absurd rfl hown

/-! ## What a call can do to a slot -/

/-- What a call can have done to the slot `j`. -/
inductive Change (s : State) (c : Call) (j : Slot) (t' : Entry) : Prop
  | kept (h : Kin (s.tasks j) t')
  | own (hcur : s.current = some j) (h : Acted c (s.tasks j) t')
  | killed (hrun : (s.tasks j).state = .running) (h : Switched (s.tasks j) t')
  | dispatched (hcur : s.current = none) (n : Option Slot)
      (h : t' = { s.tasks j with schedNext := n, state := .running })
  | ended (hused : (s.tasks j).used) (u : Entry) (hu : Switched (s.tasks j) u)
      (h : Ended u t')
  | born (hfree : findFreeSlot s = some j) (b : Entry) (n : Option Slot)
      (hb : Born s (s.tasks j) c b) (h : t' = b.setNext n)
  | aborted (hfree : findFreeSlot s = some j) (h : Aborted s (s.tasks j) c t')

section

variable {s s' : State} {j : Slot}

theorem Change.of_stirred (h : Stirred Nobody s s') : Change s c j (s'.tasks j) := .kept (h.entries j id)

theorem Change.refl : Change s c j (s.tasks j) := .kept (Kin.refl _)

/-- The running task changes its own entry. -/
theorem Change.of_modify (hcur : s.current = some i)
    (hf : Acted c (s.tasks i) (f (s.tasks i))) : Change s c j ((s.modify i f).tasks j) := by
  rw [modify_tasks]
  split
  · rename_i hj
    subst hj
    exact .own hcur hf
  · exact .refl

end

/-- The end of a task, as a change of each slot. -/
theorem Change.of_ends {s₁ s' : State} {j : Slot} (hused : (s.tasks i).used)
    (hself : Switched (s.tasks i) (s₁.tasks i)) (hothers : ∀ j, j ≠ i → s₁.tasks j = s.tasks j)
    (h : Ends i s₁ s') : Change s c j (s'.tasks j) := by
  by_cases hj : j = i
  · subst hj
    exact .ended hused _ hself h.self
  · exact .kept (hothers j hj ▸ h.others.entries j hj)

/-- The running task is put back into its queue, completed or left as it is. -/
theorem scheduleBackToIdle_change {s₁ : State} (hcur : s.current = some i)
    (hcreds : credsAfter (s.tasks i).creds c = (s.tasks i).creds) (h₁ : Switches i s s₁) (esp : Nat)
    (j : Slot) : Change s c j ((scheduleBackToIdle esp s₁).tasks j) := by
  have hsave : Switches i s (s₁.modify i fun t => { t with savedRsp := esp }) :=
    h₁.trans (switches_modify (fun _ => rfl) fun _ => .inl rfl)
  rcases scheduleBackToIdle_cases (h₁.current.trans hcur) esp with ⟨heq, -⟩ | ⟨heq, hused, -, hidle⟩ |
    ⟨heq, -⟩
  · have hset := hsave.trans (switches_modify (f := fun t => { t with state := .ready }) (fun _ => rfl)
      (fun _ => .inr TaskState.noConfusion))
    have hlink := schedEnqueueReady_relinked i ((s₁.modify i fun t => { t with savedRsp := esp }).modify
      i fun t => { t with state := .ready })
    rw [heq, setCurrent_tasks, hlink.entries j]
    by_cases hj : j = i
    · subst hj
      exact .own hcur { hset.acted hcreds with }
    · rw [hset.others j hj]
      exact .kept (kin_setNext _ _)
  · rw [heq, setCurrent_tasks]
    refine .of_ends (h₁.self.used.symm.trans hused) hsave.self hsave.others (completeTask_ends ?_ ?_)
    · rwa [modify_self]
    · rwa [modify_self]
  · rw [heq, setCurrent_tasks]
    by_cases hj : j = i
    · subst hj
      exact .own hcur (hsave.acted hcreds)
    · rw [hsave.others j hj]
      exact .refl

theorem scheduleFromIdle_change (hcur : s.current = none) (j : Slot) :
    Change s c j ((scheduleFromIdle s).tasks j) := by
  unfold scheduleFromIdle
  split
  · exact .refl
  rename_i i hsel
  have hlink := schedDequeueReady_relinked (s.tasks i).priority s
  rw [modify_tasks, setCurrent_tasks]
  split
  · rename_i hj
    subst hj
    refine .dispatched hcur ((schedDequeueReady (s.tasks j).priority s).tasks j).schedNext ?_
    rw [hlink.entries j]
    rfl
  · exact .of_stirred hlink.stirred

theorem stirred_answer (s : State) (r : Int) : Stirred Nobody s (s.answer r) := by
  unfold State.answer State.onCurrent
  split
  · exact .refl s
  · exact stirred_modify ⟨rfl, .inl rfl, .inl rfl⟩

theorem taskReapZombiesFor_change (parent : Int) (j : Slot) :
    Change s c j ((taskReapZombiesFor parent s).tasks j) := by
  -- a slot is kin to what it was until it is reaped; then it is free, and only stirred
  let P : State → Prop := fun s' => ∀ j, Kin (s.tasks j) (s'.tasks j) ∨
    (s.tasks j).used ∧ (s'.tasks j).used = false ∧ Ended (s.tasks j) (s'.tasks j)
  have hstart : P s := fun j => .inl (Kin.refl _)
  have hloop : P (taskReapZombiesFor parent s) := by
    refine forSlots_inv hstart fun i s' h j => ?_
    split
    · rename_i hz
      by_cases hj : j = i
      · subst hj
        rcases h j with hk | ⟨-, hfree, -⟩
        · refine .inr ⟨hk.used ▸ hz.1, ?_, s'.tasks j, hk, .inl ?_⟩
          · rw [clearTask_self]
            rfl
          · rw [clearTask_self]
            exact .refl _
        · exact absurd (hfree.symm.trans hz.1) Bool.noConfusion
      · have hk := (clearTask_stirred i s').entries j hj
        exact (h j).imp (fun h => h.trans hk) fun h => ⟨h.1, hk.used.trans h.2.1, h.2.2.stirred hk⟩
    · exact h j
  rcases hloop j with hk | ⟨hused, -, hend⟩
  · exact .kept hk
  · exact .ended hused _ (Switched.refl _) hend

/-- The state in which a task is made, slot by slot and up to links. -/
theorem Parted.change {s₀ : State} (h : Parted s c s₀) (j : Slot) (n : Option Slot) :
    Change s c j ((s₀.tasks j).setNext n) := by
  cases h with
  | fork e p hcur =>
    rw [modify_tasks]
    split
    · rename_i hj
      subst hj
      exact .own hcur {}
    · exact .kept (kin_setNext _ _)
  | same => exact .kept (kin_setNext _ _)

theorem Creation.change {r : Int × State} (h : Creation s c r) (j : Slot) :
    Change s c j (r.2.tasks j) := by
  cases h with
  | refused h₀ => exact h₀.change j _
  | born h₀ i hfree b hb fg =>
    rw [(schedEnqueueReady_relinked ..).entries j]
    by_cases hj : j = i
    · subst hj
      exact .born hfree b _ hb (congrArg (fun t : Entry => t.setNext _) fill_self)
    · rw [setForeground_tasks, fill_ne hj]
      exact h₀.change j _
  | aborted i hfree b hused hb =>
    by_cases hj : j = i
    · subst hj
      rw [clearTask_self, fill_self]
      exact .aborted hfree hb
    · have hk := (clearTask_stirred i (s.fill i b)).entries j hj
      rw [fill_ne hj] at hk
      exact .kept hk
  | unforked h₀ i hfree b hb =>
    by_cases hj : j = i
    · subst hj
      rw [fill_self]
      exact .aborted hfree hb
    · rw [fill_ne hj]
      exact h₀.change j _

/-- **What a call can do to a slot.** -/
theorem step_change (s : State) (c : Call) (j : Slot) : Change s c j ((step s c).2.tasks j) := by
  have hkilled : ∀ i, Switches i s (s.modify i fun t => t.killed sigkill) :=
    fun i => switches_killed i sigkill s
  have hout := step_outcome s c
  generalize (step s c).2 = s' at hout
  cases hout with
  | same => exact .refl
  | nudged hc h => exact .of_stirred h.toStirred
  | ticked hc => exact .kept ((taskOnTick_nudged { s with ticks := s.ticks + 1 }).entries j id)
  | own i hc hcur f h => exact .of_modify hcur h
  | dispatched esp hc hcur => exact scheduleFromIdle_change hcur j
  | left i esp hc hcur =>
    refine scheduleBackToIdle_change hcur ?_ (deliverSignals_switches i s) esp j
    cases c <;> first | rfl | cases hc
  | stayed i hc hcur =>
    have hdel := deliverSignals_switches i s
    by_cases hj : j = i
    · subst hj
      refine .own hcur (hdel.acted ?_)
      cases c <;> first | rfl | cases hc
    · rw [hdel.others j hj]
      exact .refl
  | marked i id hc hfind htarget hrun =>
    by_cases hj : j = i
    · subst hj
      exact .killed hrun (hkilled j).self
    · rw [(hkilled i).others j hj]
      exact .refl
  | slain i id hc hfind htarget hrun =>
    obtain ⟨hused, -⟩ := findTaskById_some hfind
    simp only [signalTarget, Bool.and_eq_true, decide_eq_true_eq] at htarget
    refine .of_ends hused (hkilled i).self (hkilled i).others (completeTask_ends ?_ ?_)
    · rwa [modify_self]
    · rw [modify_self]
      exact htarget.2
  | reaped k hused hz =>
    exact .of_ends hused (Switched.refl _) (fun _ _ => rfl) (clearTask_ends k s)
  | collected k hc hused hz m r =>
    exact .of_ends hused (Switched.refl _) (fun _ _ => rfl) ((clearTask_ends k s).then
      ((stirred_setPhys _ m).trans (stirred_answer _ r)))
  | swept parent => exact taskReapZombiesFor_change parent j
  | created h => exact h.change j
  | registered pid hc => exact .refl
  | machine pages phys => exact .refl

end Lyth.Task
