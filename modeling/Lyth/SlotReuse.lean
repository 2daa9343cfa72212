/-
  SLOT REUSE (`kernel/task/task.c`): what a new task inherits from the slot it is put into.

  1. THE PROGRAM.  `task_spawn` and `task_spawn_user_common` assign most fields of the slot, one by
     one, over what the last occupant left; `clear_task` resets most fields of the occupant.

  2. THE SPECIFICATION is about TWO runs: whatever happened before, a spawn with the same arguments, by
     the same parent, that gets the same addresses, identifier and console, makes the same task, field
     by field (`Entry.seen`: the link of the ready queue apart, and regions that are not in use).

  3. THE CRUX.  Neither spawn function assigns the fields of `Clean`, so the new task is the same
     exactly because every free slot is `Clean`.  `clear_task` does not reset the table of mappings,
     and a fork that fails to clone its shared mappings frees the slot by its `used` flag alone: the
     runs in which free slots stay clean are those without either.
-/
import Lyth.Creds

namespace Lyth.Task

open Run Mmap

/-- The regions that a table has in use. -/
def mapped (regions : List Region) : List Region := regions.filter fun r => r.used

/-- What the kernel later reads of an entry: the numbers of a region that is not in use are not
    read, and the link is that of the ready queue. -/
def Entry.seen (t : Entry) : Entry :=
  { t with schedNext := none, mmapRegions := mapped t.mmapRegions }

/-- The fields that a spawn does not assign, as a task expects them. -/
structure Clean (t : Entry) : Prop where
  userPhysicalBase : t.userPhysicalBase = 0
  userHeapBase : t.userHeapBase = 0
  userHeapSize : t.userHeapSize = 0
  userInitialEsp : t.userInitialEsp = 0
  pageDirectory : t.pageDirectory = 0
  kErrno : t.kErrno = 0
  mmapRegions : mapped t.mmapRegions = []
  alarmTick : t.alarmTick = 0
  itimerIntervalTicks : t.itimerIntervalTicks = 0

/-! ## New tasks -/

variable {old t u : Entry}

/-- A new kernel task in a clean slot. -/
theorem spawned_seen (h : Clean old) (s : State) (a : SpawnArgs) :
    (spawned s a old).seen = (spawned s a Entry.zero).seen := by
  have hfields : (spawned s a old).seen = { (spawned s a Entry.zero).seen with
      userPhysicalBase := old.userPhysicalBase
      userHeapBase := old.userHeapBase
      userHeapSize := old.userHeapSize
      userInitialEsp := old.userInitialEsp
      pageDirectory := old.pageDirectory
      kErrno := old.kErrno
      mmapRegions := mapped old.mmapRegions
      alarmTick := old.alarmTick
      itimerIntervalTicks := old.itimerIntervalTicks } := rfl
  rw [hfields, h.userPhysicalBase, h.userHeapBase, h.userHeapSize, h.userInitialEsp,
    h.pageDirectory, h.kErrno, h.mmapRegions, h.alarmTick, h.itimerIntervalTicks]
  rfl

/-- The fields that a user spawn does not assign either, as the slot held them. -/
def Entry.residue (t old : Entry) : Entry :=
  { t with
    kErrno := old.kErrno
    mmapRegions := old.mmapRegions
    alarmTick := old.alarmTick
    itimerIntervalTicks := old.itimerIntervalTicks }

theorem Entry.residue_seen (h : Clean old) : (t.residue old).seen = (t.residue Entry.zero).seen := by
  have hfields : (t.residue old).seen = { (t.residue Entry.zero).seen with
      kErrno := old.kErrno
      mmapRegions := mapped old.mmapRegions
      alarmTick := old.alarmTick
      itimerIntervalTicks := old.itimerIntervalTicks } := rfl
  rw [hfields, h.kErrno, h.mmapRegions, h.alarmTick, h.itimerIntervalTicks]
  rfl

/-- The trampoline does not depend on these fields. -/
theorem installSignalTrampoline_residue (t old : Entry) (f : Frame) :
    installSignalTrampoline { t.residue old with frame := f }
      = { (installSignalTrampoline t).residue old with frame := f } := by
  unfold installSignalTrampoline
  by_cases h : t.userMode = false ∨ t.userPhysicalBase = 0
  · rw [if_pos h, if_pos (show (t.residue old).userMode = false ∨
      (t.residue old).userPhysicalBase = 0 from h)]
    rfl
  · rw [if_neg h, if_neg (show ¬((t.residue old).userMode = false ∨
      (t.residue old).userPhysicalBase = 0) from h)]
    rfl

theorem spawnedUserBare_residue (s : State) (a : SpawnUserArgs) (old : Entry) : spawnedUserBare s a old
      = { (spawnedUserBare s a Entry.zero).residue old with frame := old.frame } :=
  installSignalTrampoline_residue
    { spawnUserEntry s a Entry.zero with userStack := userStackBottom } old old.frame

/-- The frame is built anew, so only the residue is left of what the slot held. -/
theorem spawnedUser_residue (s : State) (a : SpawnUserArgs) (old : Entry) :
    spawnedUser s a old = (spawnedUser s a Entry.zero).residue old := by
  unfold spawnedUser
  rw [spawnedUserBare_residue]
  cases a.attached with
  | none => rfl
  | some ms =>
    dsimp only
    split
    · rfl
    · rfl

/-! ## Free slots -/

/-- The steps after which free slots are clean: the running task has its slot, no fork fails when it
    clones its shared mappings, and a task whose slot is freed has no region mapped. -/
structure Tidy (s : State) (c : Call) : Prop where
  running : ∀ p, s.current = some p → (s.tasks p).used
  forks : ∀ e, c = .fork e → e.childDir ≠ 0 → e.childKstack ≠ 0 → e.shmCloned
  freed : ∀ j, (s.tasks j).used → ((step s c).2.tasks j).used = false →
    mapped (s.tasks j).mmapRegions = []

/-- Every free slot is clean. -/
def FreeClean (s : State) : Prop := ∀ j, (s.tasks j).used = false → Clean (s.tasks j)

theorem Kin.clean {t t' : Entry} (h : Kin t t') (hused : t.used = false) (hc : Clean t) : Clean t' := by
  have halarm : t'.alarmTick = t.alarmTick := by
    rcases h.alarm with heq | hu
    · exact heq
    · exact absurd (hused.symm.trans hu) Bool.noConfusion
  have hkept := h.kept
  constructor
  · rw [hkept]; exact hc.userPhysicalBase
  · rw [hkept]; exact hc.userHeapBase
  · rw [hkept]; exact hc.userHeapSize
  · rw [hkept]; exact hc.userInitialEsp
  · rw [hkept]; exact hc.pageDirectory
  · rw [hkept]; exact hc.kErrno
  · rw [hkept]; exact hc.mmapRegions
  · rw [halarm]; exact hc.alarmTick
  · rw [hkept]; exact hc.itimerIntervalTicks

theorem Switched.clean (h : Switched t u) (hc : Clean t) : Clean u := by
  rw [h]
  exact { hc with }

/-- **What `clear_task` leaves** is clean but for the regions. -/
theorem clean_cleared (h : mapped t.mmapRegions = []) : Clean t.cleared :=
  ⟨rfl, rfl, rfl, rfl, rfl, rfl, h, rfl, rfl⟩

variable {c : Call} {s s₁ s₂ : State}

theorem Aborted.clean (h : Aborted s old c t)
    (hc : Clean old) (hforks : ∀ e, c = .fork e → e.childDir ≠ 0 → e.childKstack ≠ 0 →
      e.shmCloned) : Clean t := by
  cases h with
  | spawn a => exact clean_cleared hc.mmapRegions
  | spawnUser a => exact clean_cleared hc.mmapRegions
  | attach a =>
    refine clean_cleared ?_
    rw [spawnedUserBare_residue]
    exact hc.mmapRegions
  | fork e p hp hdir hstack he =>
    exact absurd ((hforks e rfl hdir hstack).symm.trans he) Bool.noConfusion

/-- The regions of a task on its way to its end. -/
theorem Switched.regions (h : Switched t u) : u.mmapRegions = t.mmapRegions := by
  rw [h]

theorem Kin.regions (h : Kin t u) : u.mmapRegions = t.mmapRegions := by
  rw [h.kept]

/-- **One step keeps free slots clean.** -/
theorem step_freeClean (h : FreeClean s) (hok : Tidy s c) : FreeClean (step s c).2 := by
  intro j hfree'
  have hfreed := hok.freed j
  have hchange := step_change s c j
  generalize (step s c).2.tasks j = t' at hchange hfree' hfreed ⊢
  by_cases hused : (s.tasks j).used
  · have hunmapped := hfreed hused hfree'
    have hkeeps : t'.used = (s.tasks j).used → Clean t' := fun heq =>
      absurd ((hfree'.symm.trans heq).trans hused) Bool.noConfusion
    cases hchange with
    | kept hk => exact hkeeps hk.used
    | own hcur hact => exact hkeeps hact.used
    | killed _ hsw => exact hkeeps hsw.used
    | dispatched _ n heq => exact hkeeps (by rw [heq])
    | ended _ u hu hend =>
      obtain ⟨v, hv, hk | hk⟩ := hend
      · refine hk.clean rfl (clean_cleared ?_)
        rwa [hv.regions, hu.regions]
      · have hz : t'.used = (s.tasks j).used := by
          rw [hk.used, ← hu.used, ← hv.used]
          rfl
        exact hkeeps hz
    | born hf => exact absurd (hused.symm.trans (findFreeSlot_unused hf)) Bool.noConfusion
    | aborted hf => exact absurd (hused.symm.trans (findFreeSlot_unused hf)) Bool.noConfusion
  · have hfree : (s.tasks j).used = false := by simpa using hused
    have hc := h j hfree
    cases hchange with
    | kept hk => exact hk.clean hfree hc
    | own hcur _ => exact absurd (hok.running j hcur) hused
    | killed _ hsw => exact hsw.clean hc
    | dispatched _ n heq =>
      rw [heq]
      exact { hc with }
    | ended hu => exact absurd hu hused
    | born _ b n hb heq =>
      rw [heq] at hfree'
      exact absurd (hfree'.symm.trans hb.inherits.1) Bool.noConfusion
    | aborted _ hab => exact hab.clean hc hok.forks

/-! ## Runs -/

theorem freeClean_init (b : Boot) : FreeClean (taskSystemInit b) := by
  intro j hfree
  have hlink := schedEnqueueReady_relinked 0 ((blankState b).modify 0 (idleEntry b)).takeId
  have hentry : ∃ n, (taskSystemInit b).tasks j
      = (((blankState b).modify 0 (idleEntry b)).tasks j).setNext n := ⟨_, hlink.entries j⟩
  obtain ⟨n, hn⟩ := hentry
  rw [hn, modify_tasks] at hfree ⊢
  by_cases hj : j = 0
  · rw [if_pos hj] at hfree
    exact absurd hfree Bool.noConfusion
  · rw [if_neg hj]
    exact ⟨rfl, rfl, rfl, rfl, rfl, rfl, rfl, rfl, rfl⟩

/-- What a spawn takes from the machine besides its arguments: the fresh identifier, the console and
    terminal, the code of the bootstrap, and the parent's identifier and identity. -/
structure Inputs where
  nextTaskId : Int
  activeVc : Int
  ttyNode : Nat
  bootstrap : UInt64
  parent : Int
  creds : Creds
deriving DecidableEq

def inputs (s : State) : Inputs where
  nextTaskId := s.nextTaskId
  activeVc := s.activeVc
  ttyNode := s.ttyNode
  bootstrap := s.bootstrap
  parent := inheritedParent s
  creds := inheritedCreds s

/-- The shared assignments of a spawn, as a function of its inputs. -/
theorem spawnFields_congr (h : inputs s₁ = inputs s₂) (name : List Char)
    (foreground : Bool) (old : Entry) :
    spawnFields s₁ name foreground old = spawnFields s₂ name foreground old := by
  have h1 : s₁.nextTaskId = s₂.nextTaskId := congrArg Inputs.nextTaskId h
  have h2 : s₁.activeVc = s₂.activeVc := congrArg Inputs.activeVc h
  have h3 : s₁.ttyNode = s₂.ttyNode := congrArg Inputs.ttyNode h
  have h4 : inheritedParent s₁ = inheritedParent s₂ := congrArg Inputs.parent h
  have h5 : inheritedCreds s₁ = inheritedCreds s₂ := congrArg Inputs.creds h
  rw [spawnFields, spawnFields, h1, h2, h3, h4, h5]

theorem spawned_congr (h : inputs s₁ = inputs s₂) (a : SpawnArgs) (old : Entry) :
    spawned s₁ a old = spawned s₂ a old := by
  have hboot : s₁.bootstrap = s₂.bootstrap := congrArg Inputs.bootstrap h
  rw [spawned, spawned, spawnEntry, spawnEntry, spawnFields_congr h, hboot]

theorem spawnedUser_congr (h : inputs s₁ = inputs s₂) (a : SpawnUserArgs)
    (old : Entry) : spawnedUser s₁ a old = spawnedUser s₂ a old := by
  have hboot : s₁.bootstrap = s₂.bootstrap := congrArg Inputs.bootstrap h
  rw [spawnedUser, spawnedUser, spawnedUserBare, spawnedUserBare, spawnUserEntry, spawnUserEntry,
    spawnFields_congr h, hboot]

/-- One of the two spawn functions. -/
def IsSpawn (c : Call) : Prop := (∃ a, c = .spawn a) ∨ ∃ a, c = .spawnUser a

/-- The call fills this slot. -/
def Fills (s : State) (c : Call) (j : Slot) : Prop :=
  (s.tasks j).used = false ∧ ((step s c).2.tasks j).used

/-- A slot that is filled holds a new task. -/
theorem Fills.born {j : Slot} (h : Fills s c j) :
    ∃ b n, Born s (s.tasks j) c b ∧ (step s c).2.tasks j = b.setNext n := by
  obtain ⟨hfree, hused⟩ := h
  have hsame : ((step s c).2.tasks j).used = (s.tasks j).used → False := fun heq =>
    absurd ((hused.symm.trans heq).trans hfree) Bool.noConfusion
  cases step_change s c j with
  | kept hk => exact (hsame hk.used).elim
  | own _ hact => exact (hsame hact.used).elim
  | killed _ hsw => exact (hsame hsw.used).elim
  | dispatched _ n heq => exact (hsame (by rw [heq])).elim
  | ended hu => exact absurd (hfree.symm.trans hu) Bool.noConfusion
  | born _ b n hb heq => exact ⟨b, n, hb, heq⟩
  | aborted _ hab => exact absurd (hab.unused.symm.trans hused) Bool.noConfusion

theorem seen_setNext (t : Entry) (n : Option Slot) : (t.setNext n).seen = t.seen := rfl

/-- The state of a new task is a function of the arguments and inputs of its spawn. -/
theorem new_task_seen (hclean : FreeClean s) {j : Slot} (h : Fills s c j) :
    (∀ a, c = .spawn a → ((step s c).2.tasks j).seen = (spawned s a Entry.zero).seen) ∧
      ∀ a, c = .spawnUser a → ((step s c).2.tasks j).seen = (spawnedUser s a Entry.zero).seen := by
  obtain ⟨b, n, hb, heq⟩ := h.born
  have hc := hclean j h.1
  rw [heq, seen_setNext]
  constructor
  · rintro a rfl
    cases hb
    exact spawned_seen hc s a
  · rintro a rfl
    cases hb
    show (spawnedUser s a (s.tasks j)).seen = _
    rw [spawnedUser_residue, Entry.residue_seen hc, ← spawnedUser_residue]

/-- **Slot reuse leaks nothing.**  After any two tidy histories, spawns with the same arguments and
    inputs make the same task, whichever slots they fill. -/
theorem slot_reuse_leaks_nothing (b₁ b₂ : Boot) (calls₁ calls₂ : List Call)
    (h₁ : Guarded step Tidy (taskSystemInit b₁) calls₁)
    (h₂ : Guarded step Tidy (taskSystemInit b₂) calls₂) (s₁ s₂ : State)
    (hs₁ : s₁ = (exec step (taskSystemInit b₁) calls₁).2)
    (hs₂ : s₂ = (exec step (taskSystemInit b₂) calls₂).2) (hin : inputs s₁ = inputs s₂) (c : Call)
    (hc : IsSpawn c) (j₁ j₂ : Slot) (hj₁ : Fills s₁ c j₁) (hj₂ : Fills s₂ c j₂) :
    ((step s₁ c).2.tasks j₁).seen = ((step s₂ c).2.tasks j₂).seen := by
  have hstep : ∀ s (c : Call), FreeClean s → Tidy s c → FreeClean (step s c).2 :=
    fun s c h hok => step_freeClean h hok
  have hclean₁ : FreeClean s₁ := hs₁ ▸ exec_inv hstep calls₁ _ (freeClean_init b₁) h₁
  have hclean₂ : FreeClean s₂ := hs₂ ▸ exec_inv hstep calls₂ _ (freeClean_init b₂) h₂
  obtain ⟨hk₁, hu₁⟩ := new_task_seen hclean₁ hj₁
  obtain ⟨hk₂, hu₂⟩ := new_task_seen hclean₂ hj₂
  rcases hc with ⟨a, ha⟩ | ⟨a, ha⟩
  · rw [hk₁ a ha, hk₂ a ha, spawned_congr hin]
  · rw [hu₁ a ha, hu₂ a ha, spawnedUser_congr hin]

/-! ## Concrete histories -/

/-- A kernel task. -/
def quietKernelTask : SpawnArgs where
  name := ['k']
  step := 1
  dataSize := 0
  foreground := false
  stack := 0x60000
  data := 0

/-- A kernel task starts and ends. -/
def served : List Call :=
  [.spawn quietKernelTask, .scheduleOnTimer 0, .exit 0, .scheduleOnSyscall 0]

/-- A program starts and ends. -/
def rested : List Call :=
  [.spawnUser quietProgram, .scheduleOnTimer 0, .exit 0, .scheduleOnSyscall 0]

/-- A program starts, maps a page and ends. -/
def worked : List Call :=
  [.spawnUser quietProgram, .scheduleOnTimer 0, .mmap 4096, .exit 0, .scheduleOnSyscall 0]

/-- The machine after a history. -/
def after (calls : List Call) : State := (exec step (taskSystemInit quietBoot) calls).2

instance (s : State) (c : Call) (j : Slot) : Decidable (Fills s c j) :=
  inferInstanceAs (Decidable (_ ∧ _))

theorem tidy_of_checks (hrun : ∀ p, s.current = some p →
      (s.tasks p).used) (hfork : ∀ e, c ≠ .fork e)
    (hfreed : ∀ j, (s.tasks j).used → ((step s c).2.tasks j).used = false →
      mapped (s.tasks j).mmapRegions = []) : Tidy s c :=
  ⟨hrun, fun e he => absurd he (hfork e), hfreed⟩

theorem slot_reuse_leaks_nothing_rested : Guarded step Tidy (taskSystemInit quietBoot) served ∧
      Guarded step Tidy (taskSystemInit quietBoot) rested ∧
      ((step (after served) (.spawnUser quietProgram)).2.tasks 1).seen
        = ((step (after rested) (.spawnUser quietProgram)).2.tasks 1).seen := by
  have hserved : Guarded step Tidy (taskSystemInit quietBoot) served := by
    refine ⟨?_, ?_, ?_, ?_, trivial⟩
    all_goals
      refine tidy_of_checks ?_ (fun e he => by cases he) ?_
      · decide +kernel
      · decide +kernel
  have hrested : Guarded step Tidy (taskSystemInit quietBoot) rested := by
    refine ⟨?_, ?_, ?_, ?_, trivial⟩
    all_goals
      refine tidy_of_checks ?_ (fun e he => by cases he) ?_
      · decide +kernel
      · decide +kernel
  have hfills : Fills (after served) (.spawnUser quietProgram) 1 ∧
      Fills (after rested) (.spawnUser quietProgram) 1 := by decide +kernel
  have hin : inputs (after served) = inputs (after rested) := by decide +kernel
  exact ⟨hserved, hrested, slot_reuse_leaks_nothing quietBoot quietBoot served rested hserved hrested
    (after served) (after rested) (by rw [after]) (by rw [after]) hin (.spawnUser quietProgram)
    (.inr ⟨_, rfl⟩) 1 1 hfills.1 hfills.2⟩

/-- **What is left behind.**  Two histories that differ in a mapping of a dead task give the next task
    different regions; after a fork that could not clone its shared mappings, a new kernel task has
    the page directory that the fork gave up. -/
theorem slot_reuse_leaks : inputs (after worked) = inputs (after rested) ∧
      Fills (after worked) (.spawnUser quietProgram) 1 ∧
      Fills (after rested) (.spawnUser quietProgram) 1 ∧
      mapped ((step (after worked) (.spawnUser quietProgram)).2.tasks 1).mmapRegions
        ≠ mapped ((step (after rested) (.spawnUser quietProgram)).2.tasks 1).mmapRegions ∧
      ((step (after [.spawnUser quietProgram, .scheduleOnTimer 0,
          .fork { quietFork with shmCloned := false }]) (.spawn quietKernelTask)).2.tasks
        2).pageDirectory = quietFork.childDir := by
  all_goals decide +kernel

end Lyth.Task
