/-
  THE TASK TABLE (`kernel/task/task.c`): sixteen slots, their life cycle, scheduling and signals.

  1. THE PROGRAM.  Each function of the source is a function on `State`: the slots, the running task,
     the ready queues (threaded through `sched_next`), the timer and the identifiers.  What the task
     code gets from other parts of the kernel (an address from `kmalloc`, a cloned page directory, a
     cloned table of shared mappings) is an argument of the call, 0 or `false` where that part fails;
     what it gives back to them (frames, directories, buffers, references) is not followed here.

  2. A RUN is a list of `Call`s.  One call is one function of the source, executed with interrupts
     off; `tick` is the timer interrupt's `timer_ticks++` and `task_on_tick`, and the two `schedule`
     calls are the switches at the end of a timer interrupt and of a system call.

  3. READING THE MODEL.  `Option Slot` stands for an index that is -1 when there is none.  The trap
     frame of a task lies on its own kernel stack, so it is a field of the task; only the registers
     that the code changes are in it.  `phys` is physical memory, byte by byte, and `pages` the page
     tables: the frame that a directory maps a page of the user window to, if user code may reach it.
     The texts that are printed, the console a task prints to and the loaded directory are left out.
-/
import Lyth.Lib.Bytes
import Lyth.Lib.Fifo
import Lyth.Lib.Word
import Lyth.Mmap
import Lyth.Shm

namespace Lyth.Task

open Bytes Function
open Mmap (Region mmapInitRegions mmapAnonymous mmapUnmap mmapCloneRegions)
open Paging (userBase userSize pageSize pagingDirectoryUserBufferIsAccessible userShmBase)
open Shm (Mapping)
open Word (int32)

export Shm (taskMaxCount shmMaxMappings)

/-! ## Constants -/

/-- An index into `tasks`. -/
abbrev Slot := Fin taskMaxCount

/-- `TASK_NAME_MAX`. -/
def taskNameMax : Nat := 24

/-- `TASK_STACK_SIZE`. -/
def taskStackSize : Nat := 16384

/-- `TASK_USER_STACK_SIZE`. -/
def taskUserStackSize : Nat := 4096

/-- `sizeof(task_stack_frame_t)`: 22 registers. -/
def frameSize : Nat := 176

/-- `PAGING_USER_STACK_TOP`. -/
def userStackTop : Nat := userBase + userSize

/-- `PAGING_USER_STACK_BOTTOM`. -/
def userStackBottom : Nat := userBase + userSize - 0x1000

/-- `PAGING_USER_SIGNAL_TRAMPOLINE_SIZE`. -/
def signalTrampolineSize : Nat := 16

/-- `TASK_MAX_SUPP_GROUPS`. -/
def maxSuppGroups : Nat := 8

/-- `VFS_MAX_FD`. -/
def vfsMaxFd : Nat := 32

/-- `RLIM_NOFILE_DEFAULT`. -/
def rlimNofileDefault : Nat := 32

/-- `RLIM_NOFILE_HARD_MAX`. -/
def rlimNofileHardMax : Nat := 32

/-- `LYTH_SIGNAL_MAX`. -/
def signalMax : Nat := 31

/-- `LYTH_SIGKILL`. -/
def sigkill : Nat := 9

/-- `LYTH_SIGALRM`. -/
def sigalrm : Nat := 14

/-- `LYTH_SIGCHLD`. -/
def sigchld : Nat := 17

/-- `LYTH_SIG_DFL`. -/
def sigDfl : Nat := 0

/-- `LYTH_SIG_IGN`. -/
def sigIgn : Nat := 1

/-! ## Data -/

/-- `task_state_t`. -/
inductive TaskState
  | free | ready | running | sleeping | blocked | finished | zombie | cancelled
deriving DecidableEq

/-- `task_priority_t`. -/
inductive Priority
  | high | normal | low | idle
deriving DecidableEq

/-- `vfs_fd_entry_t`. -/
structure FdEntry where
  node : Nat
  offset : Nat
  openFlags : Nat
  used : Bool
deriving DecidableEq

def FdEntry.empty : FdEntry := { node := 0, offset := 0, openFlags := 0, used := false }

/-- The registers of a trap frame that the task code changes. -/
structure Frame where
  rax : UInt64
  rdi : UInt64
  rip : UInt64
  rsp : UInt64
deriving DecidableEq

/-- The identity of a task: what decides its permissions. -/
structure Creds where
  uid : UInt32
  gid : UInt32
  euid : UInt32
  egid : UInt32
  suppGroups : List UInt32
  suppGroupCount : Nat
deriving DecidableEq

/-- The identity of root, without supplementary groups. -/
def Creds.root : Creds where
  uid := 0
  gid := 0
  euid := 0
  egid := 0
  suppGroups := List.replicate maxSuppGroups 0
  suppGroupCount := 0

/-- `task_entry_t`. -/
structure Entry where
  used : Bool
  id : Int
  name : List Char
  state : TaskState
  foreground : Bool
  cancelRequested : Bool
  wakeTick : UInt32
  blockedEventId : Int
  priority : Priority
  step : Nat
  data : Nat
  dataSize : Nat
  exitCode : Int
  savedRsp : Nat
  stack : Nat
  userStack : Nat
  userEntry : Nat
  userMode : Bool
  userPhysicalBase : Nat
  userHeapBase : Nat
  userHeapSize : Nat
  userInitialEsp : Nat
  pageDirectory : Nat
  fdTable : List FdEntry
  fdLimitSoft : Nat
  fdLimitHard : Nat
  kErrno : Int
  parentId : Int
  pendingSignals : UInt32
  signalMask : UInt32
  signalHandlers : List Nat
  signalTrampolineVa : Nat
  waitpidStatusUptr : Nat
  schedNext : Option Slot
  creds : Creds
  shmMappings : List Mapping
  mmapRegions : List Region
  alarmTick : UInt32
  itimerIntervalTicks : UInt32
  outputVc : Int
  frame : Frame
deriving DecidableEq

/-- The globals of `task.c`, and what the calls read of the rest of the machine. -/
structure State where
  tasks : Slot → Entry
  current : Option Slot
  nextTaskId : Int
  foregroundTaskId : Int
  head : Priority → Option Slot
  tail : Priority → Option Slot
  idleTaskId : Int
  sysInitPid : Int
  ticks : UInt32
  frequency : UInt32
  activeVc : Int
  ttyNode : Nat
  bootstrap : UInt64
  pages : Nat → Nat → Option Nat
  phys : Mem

/-- Change one slot. -/
def State.modify (s : State) (i : Slot) (f : Entry → Entry) : State :=
  { s with tasks := update s.tasks i (f (s.tasks i)) }

def State.setHead (s : State) (p : Priority) (h : Option Slot) : State :=
  { s with head := update s.head p h }

def State.setTail (s : State) (p : Priority) (t : Option Slot) : State :=
  { s with tail := update s.tail p t }

def State.setForeground (s : State) (id : Int) : State := { s with foregroundTaskId := id }

def State.setCurrent (s : State) (c : Option Slot) : State := { s with current := c }

def State.setPhys (s : State) (m : Mem) : State := { s with phys := m }

/-- `for (i = 0; i < TASK_MAX_COUNT; i++) body`. -/
def forSlots (body : Slot → State → State) (s : State) : State :=
  (List.finRange taskMaxCount).foldl (fun s i => body i s) s

/-- The first slot that passes a test. -/
def firstSlot (p : Slot → Bool) : Option Slot := (List.finRange taskMaxCount).find? p

/-! ## Small helpers of the source -/

/-- `copy_text`, into a name of `TASK_NAME_MAX` characters. -/
def copyText (src : List Char) : List Char :=
  (src.takeWhile fun c => c ≠ Char.ofNat 0).take (taskNameMax - 1)

/-- `task_reset_shm_mappings`. -/
def resetShmMappings : List Mapping := List.replicate shmMaxMappings Mapping.empty

/-- What `shm_detach_all` leaves of a table of mappings. -/
def detachMappings (ms : List Mapping) : List Mapping :=
  ms.map fun m => if m.used then Mapping.empty else m

/-- What `vfs_task_fd_close_all` leaves of a table of descriptors. -/
def closeAll (table : List FdEntry) : List FdEntry :=
  table.map fun e => if e.used then FdEntry.empty else e

/-- `VFS_O_RDONLY` for the first descriptor and `VFS_O_WRONLY` for the next two. -/
def stdioFlags : List Nat := [1, 2, 2]

/-- `vfs_task_fd_init`: an empty table with the terminal, if there is one, on the first three. -/
def fdInit (ttyNode : Nat) : List FdEntry :=
  let blank := List.replicate vfsMaxFd FdEntry.empty
  if ttyNode = 0 then blank
  else
    stdioFlags.map (fun f => { node := ttyNode, offset := 0, openFlags := f, used := true })
      ++ blank.drop stdioFlags.length

/-- `(int)(now - deadline) >= 0`. -/
def due (now deadline : UInt32) : Bool := decide ((now - deadline).toNat < 2 ^ 31)

/-- `encode_child_status`. -/
def encodeChildStatus (t : Entry) : Int :=
  if 128 ≤ t.exitCode then (t.exitCode - 128) % 128 else t.exitCode % 256 * 256

/-- The pages of a directory that user code may reach. -/
def State.reachable (s : State) (dir page : Nat) : Bool := (s.pages dir page).isSome

/-- `write_user_int32`: through the contiguous region of the task. -/
def writeUserInt32 (i : Slot) (vaddr : Nat) (value : Int) (s : State) : State :=
  let t := s.tasks i
  if t.userPhysicalBase = 0 ∨ vaddr = 0 then s
  else if vaddr < userBase ∨ userBase + userSize < vaddr + 4 then s
  else if t.pageDirectory ≠ 0 ∧
      pagingDirectoryUserBufferIsAccessible (s.reachable t.pageDirectory) vaddr 4 = false then s
  else s.setPhys (putLE s.phys (t.userPhysicalBase + (vaddr - userBase)) 4 (value % 2 ^ 32).toNat)

/-- `signal_is_valid`. -/
def signalIsValid (signum : Nat) : Bool := decide (0 < signum) && decide (signum ≤ signalMax)

/-- `signal_bit`. -/
def signalBit (signum : Nat) : UInt32 :=
  if signalIsValid signum then (1 : UInt32) <<< UInt32.ofNat signum else 0

/-- `signal_mask_sanitize`. -/
def signalMaskSanitize (mask : UInt32) : UInt32 := mask &&& ~~~(signalBit sigkill)

/-- `signal_is_blocked`. -/
def signalIsBlocked (t : Entry) (signum : Nat) : Bool :=
  if signum = sigkill then false
  else decide (signalBit signum ≠ 0) && decide (t.signalMask &&& signalBit signum ≠ 0)

/-- `signal_default_is_ignore`. -/
def signalDefaultIsIgnore (signum : Nat) : Bool := decide (signum = sigchld)

/-- `signal_is_fatal_by_default`. -/
def signalIsFatalByDefault (signum : Nat) : Bool := decide (signum ≠ sigchld)

/-- `task_install_signal_trampoline`. -/
def installSignalTrampoline (t : Entry) : Entry :=
  if t.userMode = false ∨ t.userPhysicalBase = 0 then { t with signalTrampolineVa := 0 }
  else { t with signalTrampolineVa := userStackTop - signalTrampolineSize }

/-- `task_signal_handlers_init`. -/
def signalHandlersInit (t : Entry) : Entry :=
  { t with
    pendingSignals := 0
    signalMask := 0
    signalHandlers := List.replicate (signalMax + 1) sigDfl
    signalTrampolineVa := 0 }

/-- `task_signal_handlers_copy`. -/
def signalHandlersCopy (dst src : Entry) : Entry :=
  { dst with
    pendingSignals := 0
    signalMask := signalMaskSanitize src.signalMask
    signalHandlers := src.signalHandlers.set sigkill sigDfl
    signalTrampolineVa := src.signalTrampolineVa }

/-- `find_task_by_id`. -/
def findTaskById (s : State) (id : Int) : Option Slot :=
  firstSlot fun i => (s.tasks i).used && decide ((s.tasks i).id = id)

/-- The loop for a free slot. -/
def findFreeSlot (s : State) : Option Slot := firstSlot fun i => !(s.tasks i).used

/-! ## Ready queues -/

/-- The links of the queues. -/
def State.next (s : State) (i : Slot) : Option Slot := (s.tasks i).schedNext

def Entry.setNext (t : Entry) (n : Option Slot) : Entry := { t with schedNext := n }

/-- `sched_is_queued`.  A queue of distinct slots has at most `TASK_MAX_COUNT`. -/
def schedIsQueued (s : State) (i : Slot) (p : Priority) : Bool :=
  Fifo.queued s.next i (taskMaxCount + 1) (s.head p)

/-- `sched_enqueue_ready`. -/
def schedEnqueueReady (i : Slot) (s : State) : State :=
  let p := (s.tasks i).priority
  if (s.tasks i).used = false then s
  else if schedIsQueued s i p then s
  else
    let s := s.modify i fun t => t.setNext none
    match s.tail p with
    | none => (s.setHead p (some i)).setTail p (some i)
    | some b => (s.modify b fun t => t.setNext (some i)).setTail p (some i)

/-- `sched_dequeue_ready`. -/
def schedDequeueReady (p : Priority) (s : State) : State :=
  match s.head p with
  | none => s
  | some i =>
    let s' := s.setHead p (s.next i)
    let s' := if s.next i = none then s'.setTail p none else s'
    s'.modify i fun t => t.setNext none

/-- `sched_remove_from_ready`. -/
def schedRemoveFromReady (i : Slot) (s : State) : State :=
  let p := (s.tasks i).priority
  if (s.tasks i).used = false then s
  else
    match Fifo.before s.next i (taskMaxCount + 1) none (s.head p) with
    | none => s.modify i fun t => t.setNext none
    | some prev =>
      let after := s.next i
      let s := match prev with
        | none => s.setHead p after
        | some b => s.modify b fun t => t.setNext after
      let s := if s.tail p = some i then s.setTail p prev else s
      s.modify i fun t => t.setNext none

/-! ## The end of a task -/

/-- The fields that `clear_task` resets, after it has released what the task held.  The name, the
    limits on descriptors, the console and the table of mappings keep what the task left in them. -/
def Entry.cleared (t : Entry) : Entry :=
  { t with
    used := false
    id := 0
    name := []
    state := .free
    foreground := false
    cancelRequested := false
    wakeTick := 0
    blockedEventId := -1
    priority := .normal
    step := 0
    data := 0
    dataSize := 0
    exitCode := 0
    savedRsp := 0
    stack := 0
    userStack := 0
    userEntry := 0
    userMode := false
    userPhysicalBase := 0
    userHeapBase := 0
    userHeapSize := 0
    userInitialEsp := 0
    pageDirectory := 0
    fdTable := closeAll t.fdTable
    kErrno := 0
    parentId := 0
    waitpidStatusUptr := 0
    schedNext := none
    pendingSignals := 0
    signalMask := 0
    signalTrampolineVa := 0
    creds := Creds.root
    signalHandlers := List.replicate (signalMax + 1) sigDfl
    alarmTick := 0
    itimerIntervalTicks := 0
    shmMappings := resetShmMappings }

/-- `clear_task`. -/
def clearTask (i : Slot) (s : State) : State :=
  (schedRemoveFromReady i s).modify i Entry.cleared

/-- The fields that `zombify_task` changes. -/
def Entry.zombified (t : Entry) : Entry :=
  { t with
    fdTable := closeAll t.fdTable
    data := 0
    stack := 0
    userStack := if t.userMode then t.userStack else 0
    shmMappings := if t.pageDirectory = 0 then t.shmMappings else detachMappings t.shmMappings
    pageDirectory := 0
    userPhysicalBase := 0
    state := .zombie }

/-- `zombify_task`. -/
def zombifyTask (i : Slot) (s : State) : State :=
  (schedRemoveFromReady i s).modify i Entry.zombified

/-- `reparent_children`. -/
def reparentChildren (oldParent newParent : Int) (s : State) : State :=
  if oldParent ≤ 0 then s
  else forSlots (fun i s =>
    if (s.tasks i).used ∧ (s.tasks i).parentId = oldParent then
      s.modify i fun t => { t with parentId := newParent }
    else s) s

/-! ## Events and signals -/

/-- A task waits for this event. -/
def Entry.WaitsFor (t : Entry) (event : Int) : Prop :=
  t.used ∧ t.state = .blocked ∧ t.blockedEventId = event

instance (t : Entry) (event : Int) : Decidable (t.WaitsFor event) :=
  inferInstanceAs (Decidable (_ ∧ _ ∧ _))

/-- The round of `task_signal_event` for one slot. -/
def signalSlot (event : Int) (i : Slot) (s : State) : State :=
  if (s.tasks i).WaitsFor event then
    schedEnqueueReady i (s.modify i fun t =>
      { t with blockedEventId := -1, wakeTick := 0, state := .ready })
  else s

/-- `task_signal_event`. -/
def taskSignalEvent (event : Int) (s : State) : State :=
  if event < 0 then s else forSlots (signalSlot event) s

/-- Asleep or blocked. -/
def Entry.Stopped (t : Entry) : Prop := t.state = .sleeping ∨ t.state = .blocked

instance (t : Entry) : Decidable t.Stopped := inferInstanceAs (Decidable (_ ∨ _))

/-- A stopped task is made ready, and waits for nothing any more. -/
def wakeStopped (i : Slot) (s : State) : State :=
  if (s.tasks i).Stopped then
    schedEnqueueReady i (s.modify i fun t => { t with blockedEventId := -1, state := .ready })
  else s

/-- A signal may be queued for this task. -/
def signalTarget (s : State) (i : Slot) (signum : Nat) : Bool :=
  (s.tasks i).used && signalIsValid signum && decide ((s.tasks i).state ≠ .zombie) &&
    decide ((s.tasks i).id ≠ s.idleTaskId)

/-- `task_queue_signal_locked` for a signal other than `SIGKILL`. -/
def queuePending (i : Slot) (signum : Nat) (s : State) : State :=
  if signalTarget s i signum then
    wakeStopped i (s.modify i fun t =>
      { t with pendingSignals := t.pendingSignals ||| signalBit signum })
  else s

/-- The branch of `complete_task` for a parent that is waiting: the result goes into its trap frame
    and its memory, it is woken, and the task is cleared. -/
def reapForParent (i p : Slot) (s : State) : State :=
  let s := if (s.tasks p).savedRsp ≠ 0 then
      s.modify p fun t => { t with frame := { t.frame with
        rax := UInt64.ofNat ((s.tasks i).id % 2 ^ 32).toNat } }
    else s
  let s := if (s.tasks p).waitpidStatusUptr ≠ 0 then
      (writeUserInt32 p (s.tasks p).waitpidStatusUptr (encodeChildStatus (s.tasks i)) s).modify p
        (fun t => { t with waitpidStatusUptr := 0 })
    else s
  clearTask i (taskSignalEvent (s.tasks p).blockedEventId s)

/-- The parent is waiting for this task, or for any child. -/
def Entry.WaitsForChild (t : Entry) (child : Int) : Prop :=
  t.state = .blocked ∧ (t.blockedEventId = child ∨ t.blockedEventId = t.id)

instance (t : Entry) (child : Int) : Decidable (t.WaitsForChild child) :=
  inferInstanceAs (Decidable (_ ∧ _))

/-- The end of `complete_task`: reap for a waiting parent, leave a zombie for a living one, clear. -/
def settleWithParent (i : Slot) (parent : Option Slot) (parentId : Int) (s : State) : State :=
  match parent with
  | none => clearTask i s
  | some p =>
    if (s.tasks p).WaitsForChild (s.tasks i).id then reapForParent i p s
    else if (s.tasks p).state ≠ .zombie then taskSignalEvent parentId (zombifyTask i s)
    else clearTask i s

/-- The notifications of `complete_task`: the children go to init, those who wait for the task are
    woken, and the parent gets `SIGCHLD`. -/
def notifyEnd (id : Int) (parent : Option Slot) (s : State) : State :=
  match parent with
  | none => s
  | some p => if (s.tasks p).id ≠ id then queuePending p sigchld s else s

/-- The parent of a task, by its recorded identifier. -/
def parentSlot (s : State) (parentId : Int) : Option Slot :=
  if 0 < parentId then findTaskById s parentId else none

/-- `complete_task`. -/
def completeTask (i : Slot) (s : State) : State :=
  let t := s.tasks i
  if t.used = false then s
  else if t.id = s.idleTaskId then
    schedEnqueueReady i (s.modify i fun t => { t with state := .ready })
  else
    let s := schedRemoveFromReady i s
    let s := if t.foreground ∧ s.foregroundTaskId = t.id then s.setForeground (-1) else s
    let s := reparentChildren t.id s.sysInitPid s
    let s := taskSignalEvent t.id s
    let parent := parentSlot s t.parentId
    settleWithParent i parent t.parentId (notifyEnd t.id parent s)

/-- `task_queue_signal_locked`: 1 if the signal was taken. -/
def taskQueueSignalLocked (i : Slot) (signum : Nat) (s : State) : Int × State :=
  if signalTarget s i signum then
    if signum = sigkill then
      let running := decide ((s.tasks i).state = .running)
      let s := s.modify i fun t =>
        { t with cancelRequested := true, exitCode := 128 + signum, state := .cancelled }
      if running then (1, s) else (1, completeTask i s)
    else (1, queuePending i signum s)
  else (0, s)

/-- `task_pop_pending_signal`: the lowest pending signal that is not blocked. -/
def popPendingSignal (t : Entry) : Nat :=
  ((List.range' 1 signalMax).find? fun signum =>
    decide (t.pendingSignals &&& signalBit signum ≠ 0) && !signalIsBlocked t signum).getD 0

/-- The task dies of a signal at the next switch. -/
def Entry.killed (t : Entry) (signum : Nat) : Entry :=
  { t with cancelRequested := true, exitCode := 128 + signum, state := .cancelled }

/-- `task_push_user_signal_frame`: the interrupted `rip` goes on the user stack, through the
    contiguous region of the task; `none` where the source returns 0. -/
def pushUserSignalFrame (i : Slot) (handler signum : Nat) (s : State) : Option State :=
  let t := s.tasks i
  if handler ≤ sigIgn ∨ t.signalTrampolineVa = 0 then none
  else if t.frame.rsp.toNat < userStackBottom + 16 ∨ userStackTop < t.frame.rsp.toNat then none
  else
    let rsp := (t.frame.rsp &&& ~~~15) - 8
    if rsp.toNat < userStackBottom then none
    else if userSize < rsp.toNat - userBase + 8 then none
    else
      some ((s.setPhys (putLE s.phys (t.userPhysicalBase + (rsp.toNat - userBase)) 8
          t.frame.rip.toNat)).modify i fun t => { t with
            frame := { t.frame with rsp, rdi := UInt64.ofNat signum,
                                    rip := UInt64.ofNat handler } })

/-- `task_deliver_signals_current`. -/
def deliverSignals (i : Slot) (s : State) : State :=
  let t := s.tasks i
  if t.used = false ∨ t.userMode = false ∨ t.state ≠ .running then s
  else
    let signum := popPendingSignal t
    if signum = 0 then s
    else
      let s := s.modify i fun t =>
        { t with pendingSignals := t.pendingSignals &&& ~~~(signalBit signum) }
      let handler := t.signalHandlers.getD signum sigDfl
      if handler = sigIgn then s
      else if handler = sigDfl ∨ signum = sigkill then
        if signalDefaultIsIgnore signum then s
        else if signalIsFatalByDefault signum ∨ signum = sigkill then
          s.modify i fun t => t.killed signum
        else s
      else
        match pushUserSignalFrame i handler signum s with
        | none => s.modify i fun t => t.killed signum
        | some s => s

/-! ## Switches -/

/-- `select_next_ready_task`. -/
def selectNextReadyTask (s : State) : Option Slot :=
  [Priority.high, .normal, .low, .idle].findSome? s.head

/-- `schedule_from_idle`. -/
def scheduleFromIdle (s : State) : State :=
  match selectNextReadyTask s with
  | none => s
  | some i =>
    ((schedDequeueReady (s.tasks i).priority s).setCurrent (some i)).modify i
      (fun t => { t with state := .running })

/-- `schedule_back_to_idle`. -/
def scheduleBackToIdle (esp : Nat) (s : State) : State :=
  match s.current with
  | none => s
  | some c =>
    let s := s.modify c fun t => { t with savedRsp := esp }
    let s := if (s.tasks c).state = .running ∨ (s.tasks c).state = .ready then
        schedEnqueueReady c (s.modify c fun t => { t with state := .ready })
      else s
    let s := if (s.tasks c).used ∧
        ((s.tasks c).state = .finished ∨ (s.tasks c).state = .cancelled) then completeTask c s
      else s
    s.setCurrent none

/-- `task_schedule_on_timer`. -/
def taskScheduleOnTimer (esp : Nat) (s : State) : State :=
  match s.current with
  | none => scheduleFromIdle s
  | some c => scheduleBackToIdle esp (deliverSignals c s)

/-- `task_schedule_on_syscall`. -/
def taskScheduleOnSyscall (esp : Nat) (s : State) : State :=
  match s.current with
  | none => s
  | some c =>
    let s := deliverSignals c s
    if (s.tasks c).state ≠ .running then scheduleBackToIdle esp s else s

/-! ## The timer -/

/-- The sleeper's deadline. -/
def Entry.SleepDue (t : Entry) (now : UInt32) : Prop :=
  t.state = .sleeping ∧ due now t.wakeTick

/-- The deadline of a wait with a timeout. -/
def Entry.TimeoutDue (t : Entry) (now : UInt32) : Prop :=
  t.state = .blocked ∧ t.wakeTick ≠ 0 ∧ due now t.wakeTick

/-- The deadline of the interval timer. -/
def Entry.AlarmDue (t : Entry) (now : UInt32) : Prop :=
  t.alarmTick ≠ 0 ∧ due now t.alarmTick

instance (t : Entry) (now : UInt32) : Decidable (t.SleepDue now) :=
  inferInstanceAs (Decidable (_ ∧ _))

instance (t : Entry) (now : UInt32) : Decidable (t.TimeoutDue now) :=
  inferInstanceAs (Decidable (_ ∧ _ ∧ _))

instance (t : Entry) (now : UInt32) : Decidable (t.AlarmDue now) :=
  inferInstanceAs (Decidable (_ ∧ _))

/-- The three tests of `task_on_tick` for one slot, one after the other. -/
def tickSleep (now : UInt32) (i : Slot) (s : State) : State :=
  if (s.tasks i).SleepDue now then
    schedEnqueueReady i (s.modify i fun t => { t with wakeTick := 0, state := .ready })
  else s

@[inherit_doc tickSleep]
def tickTimeout (now : UInt32) (i : Slot) (s : State) : State :=
  if (s.tasks i).TimeoutDue now then
    schedEnqueueReady i (s.modify i fun t =>
      { t with wakeTick := 0, blockedEventId := -1, state := .ready })
  else s

@[inherit_doc tickSleep]
def tickAlarm (now : UInt32) (i : Slot) (s : State) : State :=
  if (s.tasks i).AlarmDue now then
    wakeStopped i (s.modify i fun t =>
      { t with
        alarmTick := if t.itimerIntervalTicks ≠ 0 then now + t.itimerIntervalTicks else 0
        pendingSignals := t.pendingSignals ||| (1 <<< UInt32.ofNat sigalrm) })
  else s

/-- The round of `task_on_tick` for one slot. -/
def tickSlot (now : UInt32) (i : Slot) (s : State) : State :=
  if (s.tasks i).used = false then s else tickAlarm now i (tickTimeout now i (tickSleep now i s))

/-- `task_on_tick`. -/
def taskOnTick (s : State) : State := forSlots (tickSlot s.ticks) s

/-- `timer_handle_interrupt`. -/
def timerHandleInterrupt (s : State) : State := taskOnTick { s with ticks := s.ticks + 1 }

/-! ## What the running task does -/

/-- Change the entry of the running task, if there is one. -/
def State.onCurrent (s : State) (f : Entry → Entry) : State :=
  match s.current with
  | none => s
  | some c => s.modify c f

/-- `task_sleep`. -/
def taskSleep (ticks : UInt32) (s : State) : State :=
  if ticks = 0 then s.onCurrent fun t => { t with state := .ready }
  else s.onCurrent fun t =>
    { t with wakeTick := s.ticks + ticks, blockedEventId := -1, state := .sleeping }

/-- A zombie with this identifier is in the table. -/
def hasZombie (s : State) (id : Int) : Bool :=
  (firstSlot fun i => (s.tasks i).used && decide ((s.tasks i).id = id) &&
    decide ((s.tasks i).state = .zombie)).isSome

/-- `task_wait_event`. -/
def taskWaitEvent (event : Int) (s : State) : State :=
  if event < 0 ∨ hasZombie s event then s
  else s.onCurrent fun t => { t with blockedEventId := event, wakeTick := 0, state := .blocked }

/-- `task_wait_event_timeout`. -/
def taskWaitEventTimeout (event : Int) (timeout : UInt32) (s : State) : State :=
  if timeout = 0 then taskWaitEvent event s
  else if event < 0 ∨ hasZombie s event then s
  else s.onCurrent fun t =>
    { t with blockedEventId := event, wakeTick := s.ticks + timeout, state := .blocked }

/-- `task_yield`. -/
def taskYield (s : State) : State :=
  s.onCurrent fun t => if t.state = .running then { t with state := .ready } else t

/-- `task_exit`. -/
def taskExit (code : Int) (s : State) : State :=
  s.onCurrent fun t => { t with exitCode := code, state := .finished }

/-- The common part of the two cancel requests. -/
def cancelSlot (i : Slot) (s : State) : State :=
  wakeStopped i (s.modify i fun t => { t with cancelRequested := true })

/-- `task_request_cancel`. -/
def taskRequestCancel (s : State) : State :=
  match s.current with
  | none => s
  | some c => cancelSlot c s

/-- `task_request_foreground_cancel`. -/
def taskRequestForegroundCancel (s : State) : State :=
  if s.foregroundTaskId = -1 then s
  else match findTaskById s s.foregroundTaskId with
    | none => s
    | some i => cancelSlot i s

/-- `task_clear_cancel`. -/
def taskClearCancel (s : State) : State :=
  let target := match s.current with
    | some c => some c
    | none => if s.foregroundTaskId = -1 then none else findTaskById s s.foregroundTaskId
  match target with
  | none => s
  | some i => s.modify i fun t => { t with cancelRequested := false }

/-- `task_set_priority`: the idle level is not offered. -/
def taskSetPriority (id : Int) (priority : Priority) (s : State) : Int × State :=
  if priority = .idle then (0, s)
  else match findTaskById s id with
    | none => (0, s)
    | some i =>
      if (s.tasks i).id = s.idleTaskId then (0, s)
      else if (s.tasks i).priority = priority then (1, s)
      else if (s.tasks i).state = .ready then
        (1, schedEnqueueReady i ((schedRemoveFromReady i s).modify i
          (fun t => { t with priority })))
      else (1, s.modify i fun t => { t with priority })

/-- `task_set_output_vc`. -/
def taskSetOutputVc (id vc : Int) (s : State) : State :=
  match findTaskById s id with
  | none => s
  | some i => s.modify i fun t => { t with outputVc := vc }

/-- `task_alarm`: the seconds that were left. -/
def taskAlarm (seconds : UInt32) (s : State) : Int × State :=
  match s.current with
  | none => (0, s)
  | some c =>
    let t := s.tasks c
    let left := t.alarmTick - s.ticks
    let remaining := if t.alarmTick ≠ 0 ∧ 0 < s.frequency then
      (left + s.frequency - 1) / s.frequency else 0
    (remaining.toNat, s.modify c fun t =>
      { t with
        alarmTick := if seconds = 0 then 0 else s.ticks + seconds * s.frequency
        itimerIntervalTicks := 0 })

/-- `task_setitimer`. -/
def taskSetitimer (valueUs intervalUs : UInt32) (s : State) : Int × State :=
  match s.current with
  | none => (-1, s)
  | some c =>
    let usPerTick := if 0 < s.frequency then 1000000 / s.frequency else 0
    if valueUs = 0 then
      (0, s.modify c fun t => { t with alarmTick := 0, itimerIntervalTicks := 0 })
    else if usPerTick = 0 then (-1, s)
    else
      let valueTicks := (valueUs + usPerTick - 1) / usPerTick
      let valueTicks := if valueTicks = 0 then 1 else valueTicks
      (0, s.modify c fun t =>
        { t with alarmTick := s.ticks + valueTicks, itimerIntervalTicks := intervalUs / usPerTick })

/-- A task that may become the foreground task. -/
def mayForeground (t : Entry) : Bool :=
  decide (t.state ≠ .free) && decide (t.state ≠ .finished) && decide (t.state ≠ .zombie) &&
    decide (t.state ≠ .cancelled)

/-- The part of `task_set_foreground` that clears the old foreground task. -/
def clearForeground (s : State) : State :=
  if s.foregroundTaskId = -1 then s
  else
    let s' := match findTaskById s s.foregroundTaskId with
      | none => s
      | some i => s.modify i fun t => { t with foreground := false }
    s'.setForeground (-1)

/-- `task_set_foreground`. -/
def taskSetForeground (id : Int) (s : State) : Int × State :=
  let s := clearForeground s
  if id < 0 then (1, s)
  else match findTaskById s id with
    | none => (0, s)
    | some i =>
      if mayForeground (s.tasks i) then
        (1, (s.modify i fun t => { t with foreground := true }).setForeground id)
      else (0, s)

/-- `task_send_signal` (`task_kill` sends `SIGTERM`). -/
def taskSendSignal (id : Int) (signum : Nat) (s : State) : Int × State :=
  if signalIsValid signum then
    match findTaskById s id with
    | none => (0, s)
    | some i => taskQueueSignalLocked i signum s
  else (0, s)

/-- `task_set_signal_handler`. -/
def taskSetSignalHandler (signum handler : Nat) (s : State) : Int × State :=
  match s.current with
  | none => (0, s)
  | some c =>
    if signalIsValid signum = false ∨ signum = sigkill ∨ (s.tasks c).userMode = false then (0, s)
    else (1, s.modify c fun t => { t with signalHandlers := t.signalHandlers.set signum handler })

/-- `task_sigprocmask`, by `how`: block, unblock, set. -/
def taskSigprocmask (how : Nat) (mask : UInt32) (s : State) : Int × State :=
  match s.current with
  | none => (0, s)
  | some c =>
    let mask := signalMaskSanitize mask
    let set (f : UInt32 → UInt32) : Int × State :=
      (1, s.modify c fun t => { t with signalMask := signalMaskSanitize (f t.signalMask) })
    if how = 0 then set fun old => old ||| mask
    else if how = 1 then set fun old => old &&& ~~~mask
    else if how = 2 then set fun _ => mask
    else (0, s)

/-! ## Identity -/

/-- `task_has_group_locked`. -/
def hasGroup (c : Creds) (gid : UInt32) : Bool :=
  decide (c.egid = gid) || (c.suppGroups.take c.suppGroupCount).contains gid

def Entry.setCreds (t : Entry) (c : Creds) : Entry := { t with creds := c }

/-- `task_set_current_uid`. -/
def taskSetCurrentUid (uid : UInt32) (s : State) : Int × State :=
  match s.current with
  | none => (-1, s)
  | some i =>
    let c := (s.tasks i).creds
    if c.euid = 0 then (0, s.modify i fun t => t.setCreds { c with uid, euid := uid })
    else if uid = c.uid then (0, s.modify i fun t => t.setCreds { c with euid := uid })
    else (-1, s)

/-- `task_set_current_gid`. -/
def taskSetCurrentGid (gid : UInt32) (s : State) : Int × State :=
  match s.current with
  | none => (-1, s)
  | some i =>
    let c := (s.tasks i).creds
    if c.euid = 0 then (0, s.modify i fun t => t.setCreds { c with gid, egid := gid })
    else if gid = c.gid ∨ hasGroup c gid then
      (0, s.modify i fun t => t.setCreds { c with egid := gid })
    else (-1, s)

/-- `task_force_identity`. -/
def taskForceIdentity (uid gid : UInt32) (s : State) : State :=
  s.onCurrent fun t => t.setCreds
    { Creds.root with uid, gid, euid := uid, egid := gid }

/-- `task_set_groups`; `gids` is the array of the caller, 0 beyond it. -/
def taskSetGroups (gids : List UInt32) (count : Int) (s : State) : Int × State :=
  match s.current with
  | none => (-1, s)
  | some i =>
    let c := (s.tasks i).creds
    if count < 0 ∨ (maxSuppGroups : Int) < count then (-1, s)
    else if c.euid ≠ 0 then (-1, s)
    else
      let groups := (List.range maxSuppGroups).map fun k =>
        if k < count.toNat then gids.getD k 0 else 0
      (0, s.modify i fun t => t.setCreds
        { c with suppGroups := groups, suppGroupCount := count.toNat })

/-! ## Creation -/

/-- `initialize_task_stack`. -/
def initializeTaskStack (bootstrap : UInt64) (t : Entry) : Entry :=
  let top := t.stack + taskStackSize
  let rsp := if t.userInitialEsp ≠ 0 then t.userInitialEsp
    else t.userStack + taskUserStackSize - signalTrampolineSize
  { t with
    frame := if t.userMode then
        { rax := 0, rdi := 0, rip := UInt64.ofNat t.userEntry, rsp := UInt64.ofNat rsp }
      else { rax := 0, rdi := 0, rip := bootstrap, rsp := UInt64.ofNat top }
    savedRsp := top - frameSize }

/-- The arguments of `task_spawn`, and the two addresses it gets from `kmalloc`. -/
structure SpawnArgs where
  name : List Char
  step : Nat
  dataSize : Nat
  foreground : Bool
  stack : Nat
  data : Nat

/-- The arguments of `task_spawn_user_common`, the stack it gets from `kmalloc` and what `shm_attach`
    answers for the segment, if one is asked for. -/
structure SpawnUserArgs where
  name : List Char
  entryPoint : Nat
  userPhysicalBase : Nat
  userHeapBase : Nat
  userHeapSize : Nat
  pageDirectory : Nat
  initialUserEsp : Nat
  shmSegmentId : Int
  foreground : Bool
  stack : Nat
  attached : Option (List Mapping)

/-- The identity and the identifier that a new task gets from the running one. -/
def inheritedCreds (s : State) : Creds :=
  match s.current with
  | none => Creds.root
  | some c => (s.tasks c).creds

@[inherit_doc inheritedCreds]
def inheritedParent (s : State) : Int :=
  match s.current with
  | none => 0
  | some c => (s.tasks c).id

/-- `foreground ? TASK_PRIORITY_NORMAL : TASK_PRIORITY_LOW`. -/
def spawnPriority (foreground : Bool) : Priority := if foreground then .normal else .low

/-- The assignments that the two spawn functions share, over what the slot held. -/
def spawnFields (s : State) (name : List Char) (foreground : Bool) (old : Entry) : Entry :=
  { old with
    used := true
    id := s.nextTaskId
    name := copyText name
    state := .ready
    foreground
    cancelRequested := false
    wakeTick := 0
    blockedEventId := -1
    priority := spawnPriority foreground
    exitCode := 0
    outputVc := s.activeVc
    savedRsp := 0
    userStack := 0
    parentId := inheritedParent s
    waitpidStatusUptr := 0
    schedNext := none
    fdLimitSoft := rlimNofileDefault
    fdLimitHard := rlimNofileDefault
    creds := inheritedCreds s
    shmMappings := resetShmMappings
    fdTable := fdInit s.ttyNode }

/-- The assignments of `task_spawn`, in the slot as it was. -/
def spawnEntry (s : State) (a : SpawnArgs) (old : Entry) : Entry :=
  signalHandlersInit { spawnFields s a.name a.foreground old with
    step := a.step
    data := 0
    dataSize := a.dataSize
    stack := a.stack
    userEntry := 0
    userMode := false }

/-- The assignments of `task_spawn_user_common`, in the slot as it was. -/
def spawnUserEntry (s : State) (a : SpawnUserArgs) (old : Entry) : Entry :=
  signalHandlersInit { spawnFields s a.name a.foreground old with
    step := 0
    data := 0
    dataSize := 0
    stack := a.stack
    userEntry := a.entryPoint
    userMode := true
    userPhysicalBase := a.userPhysicalBase
    userHeapBase := a.userHeapBase
    userHeapSize := a.userHeapSize
    pageDirectory := a.pageDirectory
    userInitialEsp := a.initialUserEsp }

/-- `next_task_id++`, of an `int`. -/
def State.takeId (s : State) : State := { s with nextTaskId := int32 (s.nextTaskId + 1) }

/-- The end of both spawn functions. -/
def launch (i : Slot) (foreground : Bool) (s : State) : Int × State :=
  let s := s.modify i (initializeTaskStack s.bootstrap)
  let s := if foreground then s.setForeground (s.tasks i).id else s
  let s := schedEnqueueReady i s
  ((s.tasks i).id, s)

/-- `task_spawn`. -/
def taskSpawn (a : SpawnArgs) (s : State) : Int × State :=
  if a.step = 0 then (-1, s)
  else if a.foreground ∧ s.foregroundTaskId ≠ -1 then (-1, s)
  else match findFreeSlot s with
    | none => (-1, s)
    | some i =>
      let s := (s.modify i (spawnEntry s a)).takeId
      if a.stack = 0 then (-1, clearTask i s)
      else if 0 < a.dataSize ∧ a.data = 0 then (-1, clearTask i s)
      else
        launch i a.foreground (s.modify i fun t =>
          { t with data := if 0 < a.dataSize then a.data else 0 })

/-- `task_spawn_user_common`. -/
def taskSpawnUser (a : SpawnUserArgs) (s : State) : Int × State :=
  if a.entryPoint = 0 ∨ a.userPhysicalBase = 0 ∨ a.pageDirectory = 0 then (-1, s)
  else if a.foreground ∧ s.foregroundTaskId ≠ -1 then (-1, s)
  else match findFreeSlot s with
    | none => (-1, s)
    | some i =>
      let s := (s.modify i (spawnUserEntry s a)).takeId
      if a.stack = 0 then (-1, clearTask i s)
      else
        let s := s.modify i fun t =>
          installSignalTrampoline { t with userStack := userStackBottom }
        if 0 < a.shmSegmentId then
          match a.attached with
          | none => (-1, clearTask i s)
          | some ms => launch i a.foreground (s.modify i fun t => { t with shmMappings := ms })
        else launch i a.foreground s

/-- What `task_fork_from_frame` gets from the memory code: the cloned directory and the kernel stack
    (0 when there is none), the cloned shared mappings, and whether all could be cloned. -/
structure ForkEnv where
  childDir : Nat
  childKstack : Nat
  shmMappings : List Mapping
  shmCloned : Bool

/-- The assignments of `task_fork_from_frame` up to the clone of the shared mappings. -/
def forkEntry (s : State) (parent : Entry) (e : ForkEnv) (old : Entry) : Entry :=
  signalHandlersCopy
    { old with
      used := true
      id := s.nextTaskId
      name := copyText parent.name
      state := .ready
      foreground := false
      cancelRequested := false
      wakeTick := 0
      blockedEventId := -1
      priority := parent.priority
      step := 0
      data := 0
      dataSize := 0
      exitCode := 0
      outputVc := parent.outputVc
      stack := e.childKstack
      userStack := parent.userStack
      userEntry := parent.userEntry
      userMode := true
      userPhysicalBase := 0
      userHeapBase := parent.userHeapBase
      userHeapSize := parent.userHeapSize
      pageDirectory := e.childDir
      kErrno := 0
      parentId := parent.id
      schedNext := none
      fdLimitSoft := parent.fdLimitSoft
      fdLimitHard := parent.fdLimitHard
      creds := parent.creds
      alarmTick := 0
      itimerIntervalTicks := 0
      shmMappings := e.shmMappings } parent

/-- The assignments of a fork that succeeds, after the shared mappings. -/
def forkDone (parent : Entry) (e : ForkEnv) (t : Entry) : Entry :=
  installSignalTrampoline { t with
    mmapRegions := mmapCloneRegions parent.mmapRegions
    fdTable := parent.fdTable
    frame := { parent.frame with rax := 0 }
    savedRsp := e.childKstack + taskStackSize - frameSize }

/-- `task_fork_from_frame`. -/
def taskForkFromFrame (e : ForkEnv) (s : State) : Int × State :=
  match s.current with
  | none => (-1, s)
  | some c =>
    if (s.tasks c).userMode = false then (-1, s)
    else match findFreeSlot s with
      | none => (-1, s)
      | some i =>
        if e.childDir = 0 then (-1, s)
        else
          let s := s.modify c fun t => { t with userPhysicalBase := 0 }
          if e.childKstack = 0 then (-1, s)
          else
            let parent := s.tasks c
            let s := (s.modify i (forkEntry s parent e)).takeId
            if e.shmCloned = false then (-1, s.modify i fun t => { t with used := false })
            else
              let s := s.modify i (forkDone parent e)
              let s := schedEnqueueReady i s
              ((s.tasks i).id, s)

/-- The arguments of `task_exec_current_user_from_frame`. -/
structure ExecArgs where
  name : Option (List Char)
  entryPoint : Nat
  userPhysicalBase : Nat
  userHeapBase : Nat
  userHeapSize : Nat
  pageDirectory : Nat
  initialUserEsp : Nat

/-- The stack pointer that `exec` gives the program: the top of the stack if none is asked for. -/
def execEsp (a : ExecArgs) : Nat :=
  if a.initialUserEsp = 0 then userStackTop - signalTrampolineSize else a.initialUserEsp

/-- The assignments of `task_exec_current_user_from_frame`. -/
def execEntry (a : ExecArgs) (t : Entry) : Entry :=
  let shared := if t.pageDirectory = 0 then t else
    { t with shmMappings := resetShmMappings, mmapRegions := mmapInitRegions }
  installSignalTrampoline { shared with
    name := match a.name with
      | none => t.name
      | some n => copyText n
    data := 0
    state := .running
    cancelRequested := false
    wakeTick := 0
    blockedEventId := -1
    step := 0
    dataSize := 0
    exitCode := 0
    userEntry := a.entryPoint
    userMode := true
    userPhysicalBase := a.userPhysicalBase
    userHeapBase := a.userHeapBase
    userHeapSize := a.userHeapSize
    pageDirectory := a.pageDirectory
    userStack := userStackBottom
    userInitialEsp := execEsp a
    kErrno := 0
    pendingSignals := 0
    alarmTick := 0
    itimerIntervalTicks := 0
    signalHandlers := t.signalHandlers.mapIdx fun k h =>
      if 0 < k ∧ sigIgn < h then sigDfl else h
    frame := { t.frame with
      rax := 0, rip := UInt64.ofNat a.entryPoint, rsp := UInt64.ofNat (execEsp a) } }

/-- `task_exec_current_user_from_frame`. -/
def taskExec (a : ExecArgs) (s : State) : Int × State :=
  match s.current with
  | none => (0, s)
  | some c =>
    if a.entryPoint = 0 ∨ a.userPhysicalBase = 0 ∨ a.pageDirectory = 0 then (0, s)
    else if (s.tasks c).used = false ∨ (s.tasks c).userMode = false then (0, s)
    else if execEsp a < userStackBottom ∨ userStackTop - signalTrampolineSize < execEsp a then
      (0, s)
    else (1, s.modify c (execEntry a))

/-! ## Waiting for children -/

/-- The first child of a task, in the state asked for. -/
def findChild (s : State) (parent : Int) (p : Entry → Bool) : Option Slot :=
  firstSlot fun i => (s.tasks i).used && decide ((s.tasks i).parentId = parent) && p (s.tasks i)

def Entry.isZombie (t : Entry) : Bool := decide (t.state = .zombie)

/-- Block the running task for an event, its status address recorded. -/
def Entry.blockFor (t : Entry) (event : Int) : Entry :=
  { t with blockedEventId := event, state := .blocked }

/-- `task_wait_id`. -/
def taskWaitId (target : Int) (s : State) : State :=
  match s.current with
  | none => s
  | some c =>
    let self := (s.tasks c).id
    if target = -1 then
      match findChild s self Entry.isZombie with
      | some i => clearTask i s
      | none =>
        if (findChild s self fun _ => true).isSome then s.modify c fun t => t.blockFor self
        else s
    else if target < 0 then s
    else match findTaskById s target with
      | none => s
      | some i =>
        if (s.tasks i).isZombie then
          if (s.tasks i).parentId = self then clearTask i s else s
        else s.modify c fun t => t.blockFor target

def Entry.setErrno (t : Entry) (e : Int) : Entry := { t with kErrno := e }

def Entry.setStatusUptr (t : Entry) (a : Nat) : Entry := { t with waitpidStatusUptr := a }

/-- A zombie child is collected: cleared, and its status stored. -/
def collect (c i : Slot) (status : Nat) (s : State) : Int × State :=
  let pid := (s.tasks i).id
  let stat := encodeChildStatus (s.tasks i)
  let s := clearTask i s
  (pid, if status ≠ 0 then writeUserInt32 c status stat s else s)

/-- `task_waitpid`. -/
def taskWaitpid (target : Int) (status : Nat) (s : State) : Int × State :=
  match s.current with
  | none => (-1, s)
  | some c =>
    let self := (s.tasks c).id
    if target = -1 then
      match findChild s self Entry.isZombie with
      | some i => collect c i status s
      | none =>
        if (findChild s self fun _ => true).isSome then
          (0, s.modify c fun t => (t.setStatusUptr status).blockFor self)
        else (-1, s.modify c fun t => t.setErrno 10)
    else if target ≤ 0 then (-1, s.modify c fun t => t.setErrno 22)
    else match findTaskById s target with
      | none => (-1, s.modify c fun t => t.setErrno 10)
      | some i =>
        if (s.tasks i).parentId ≠ self then (-1, s.modify c fun t => t.setErrno 10)
        else if (s.tasks i).isZombie then collect c i status s
        else (0, s.modify c fun t => (t.setStatusUptr status).blockFor target)

/-- The answer of a system call goes into the trap frame of the running task. -/
def State.answer (s : State) (r : Int) : State :=
  s.onCurrent fun t => { t with frame := { t.frame with rax := UInt64.ofInt r } }

/-- `syscall_validate_user_buffer`, for a task in user mode through its own directory. -/
def validateUserBuffer (s : State) (address size : Nat) : Bool :=
  match s.current with
  | none => decide (address ≠ 0)
  | some c =>
    let t := s.tasks c
    if t.userMode = false then decide (address ≠ 0)
    else pagingDirectoryUserBufferIsAccessible (s.reachable t.pageDirectory) address size

/-- `SYSCALL_WAITPID`: the call, and its answer in the trap frame. -/
def syscallWaitpid (target : Int) (status : Nat) (s : State) : Int × State :=
  let r := if status ≠ 0 ∧ validateUserBuffer s status 4 = false then
      (-1, s.onCurrent fun t => t.setErrno 14)
    else taskWaitpid target status s
  (r.1, r.2.answer r.1)

/-- `task_reap_zombies_for`. -/
def taskReapZombiesFor (parent : Int) (s : State) : State :=
  forSlots (fun i s =>
    if (s.tasks i).used ∧ (s.tasks i).state = .zombie ∧ (s.tasks i).parentId = parent then
      clearTask i s
    else s) s

/-! ## Memory of the running task -/

/-- The low end of the arena of `task_mmap`: half way into the heap range, on a page. -/
def mmapLow (t : Entry) : UInt64 :=
  Mmap.alignUpPage (UInt64.ofNat (t.userHeapBase + t.userHeapSize / 2))

/-- `task_mmap`: the base of the mapping, or 0. -/
def taskMmap (length : UInt64) (s : State) : Int × State :=
  match s.current with
  | none => (0, s)
  | some c =>
    let t := s.tasks c
    let top := UInt64.ofNat userShmBase
    if t.userMode = false ∨ top ≤ mmapLow t then (0, s)
    else
      let r := mmapAnonymous t.mmapRegions top (mmapLow t) length
      (r.1.toNat, s.modify c fun t => { t with mmapRegions := r.2 })

/-- `task_munmap`. -/
def taskMunmap (addr length : UInt64) (s : State) : Int × State :=
  match s.current with
  | none => (-1, s)
  | some c =>
    let r := mmapUnmap (s.tasks c).mmapRegions addr length
    (r.1, s.modify c fun t => { t with mmapRegions := r.2 })

/-- `task_set_fd_rlimit`. -/
def taskSetFdRlimit (soft hard : Nat) (s : State) : Int × State :=
  match s.current with
  | none => (-1, s)
  | some c =>
    if (s.tasks c).fdLimitHard < hard ∨ rlimNofileHardMax < hard ∨ hard < soft ∨ soft < 3 then
      (-1, s)
    else (0, s.modify c fun t => { t with fdLimitSoft := soft, fdLimitHard := hard })

/-! ## Start -/

/-- A slot of the table before `task_system_init`: static memory, all zero. -/
def Entry.zero : Entry where
  used := false
  id := 0
  name := []
  state := .free
  foreground := false
  cancelRequested := false
  wakeTick := 0
  blockedEventId := 0
  priority := .high
  step := 0
  data := 0
  dataSize := 0
  exitCode := 0
  savedRsp := 0
  stack := 0
  userStack := 0
  userEntry := 0
  userMode := false
  userPhysicalBase := 0
  userHeapBase := 0
  userHeapSize := 0
  userInitialEsp := 0
  pageDirectory := 0
  fdTable := List.replicate vfsMaxFd FdEntry.empty
  fdLimitSoft := 0
  fdLimitHard := 0
  kErrno := 0
  parentId := 0
  pendingSignals := 0
  signalMask := 0
  signalHandlers := List.replicate (signalMax + 1) sigDfl
  signalTrampolineVa := 0
  waitpidStatusUptr := 0
  schedNext := none
  creds := Creds.root
  shmMappings := resetShmMappings
  mmapRegions := mmapInitRegions
  alarmTick := 0
  itimerIntervalTicks := 0
  outputVc := 0
  frame := { rax := 0, rdi := 0, rip := 0, rsp := 0 }

/-- What the machine provides at start. -/
structure Boot where
  frequency : UInt32
  activeVc : Int
  ttyNode : Nat
  bootstrap : UInt64
  idleStep : Nat
  idleStack : Nat
  pages : Nat → Nat → Option Nat
  phys : Mem

/-- The tables as `task_system_init` clears them. -/
def blankState (b : Boot) : State where
  tasks := fun _ => { Entry.zero with fdTable := fdInit b.ttyNode }
  current := none
  nextTaskId := 1
  foregroundTaskId := -1
  head := fun _ => none
  tail := fun _ => none
  idleTaskId := -1
  sysInitPid := -1
  ticks := 0
  frequency := b.frequency
  activeVc := b.activeVc
  ttyNode := b.ttyNode
  bootstrap := b.bootstrap
  pages := b.pages
  phys := b.phys

/-- The entry of the idle task. -/
def idleEntry (b : Boot) (old : Entry) : Entry :=
  initializeTaskStack b.bootstrap (signalHandlersInit { old with
    used := true
    id := 1
    name := copyText "[idle]".toList
    state := .ready
    blockedEventId := -1
    priority := .idle
    step := b.idleStep
    outputVc := -1
    fdTable := fdInit b.ttyNode
    stack := b.idleStack })

/-- `task_system_init`, whose last assertion requires that the idle task got its stack. -/
def taskSystemInit (b : Boot) : State :=
  let s := ((blankState b).modify 0 (idleEntry b)).takeId
  { schedEnqueueReady 0 s with idleTaskId := 1 }

/-! ## Runs -/

/-- One function of the task code; the last five calls are what other parts of the machine do to the
    running task (its descriptors, its shared mappings), to page tables and to memory. -/
inductive Call
  | tick
  | scheduleOnTimer (esp : Nat)
  | scheduleOnSyscall (esp : Nat)
  | spawn (a : SpawnArgs)
  | spawnUser (a : SpawnUserArgs)
  | fork (e : ForkEnv)
  | exec (a : ExecArgs)
  | exit (code : Int)
  | sleep (ticks : UInt32)
  | yield
  | waitEvent (event : Int)
  | waitEventTimeout (event : Int) (timeout : UInt32)
  | signalEvent (event : Int)
  | requestCancel
  | requestForegroundCancel
  | clearCancel
  | setPriority (id : Int) (priority : Priority)
  | setOutputVc (id vc : Int)
  | setForeground (id : Int)
  | sendSignal (id : Int) (signum : Nat)
  | setSignalHandler (signum handler : Nat)
  | sigprocmask (how : Nat) (mask : UInt32)
  | alarm (seconds : UInt32)
  | setitimer (valueUs intervalUs : UInt32)
  | setErrno (e : Int)
  | setFdRlimit (soft hard : Nat)
  | setUid (uid : UInt32)
  | setGid (gid : UInt32)
  | setGroups (gids : List UInt32) (count : Int)
  | forceIdentity (uid gid : UInt32)
  | waitId (target : Int)
  | waitpid (target : Int) (status : Nat)
  | reapZombiesFor (parent : Int)
  | setInitPid (pid : Int)
  | mmap (length : UInt64)
  | munmap (addr length : UInt64)
  | fds (table : List FdEntry)
  | shm (mappings : List Mapping)
  | resolvePages (pages : Nat → Nat → Option Nat)
  | store (phys : Mem)

/-- What a call answers (0 where the source function returns nothing), and the state it leaves. -/
def step (s : State) : Call → Int × State
  | .tick => (0, timerHandleInterrupt s)
  | .scheduleOnTimer esp => (0, taskScheduleOnTimer esp s)
  | .scheduleOnSyscall esp => (0, taskScheduleOnSyscall esp s)
  | .spawn a => taskSpawn a s
  | .spawnUser a => taskSpawnUser a s
  | .fork e => taskForkFromFrame e s
  | .exec a => taskExec a s
  | .exit code => (0, taskExit code s)
  | .sleep ticks => (0, taskSleep ticks s)
  | .yield => (0, taskYield s)
  | .waitEvent event => (0, taskWaitEvent event s)
  | .waitEventTimeout event timeout => (0, taskWaitEventTimeout event timeout s)
  | .signalEvent event => (0, taskSignalEvent event s)
  | .requestCancel => (0, taskRequestCancel s)
  | .requestForegroundCancel => (0, taskRequestForegroundCancel s)
  | .clearCancel => (0, taskClearCancel s)
  | .setPriority id priority => taskSetPriority id priority s
  | .setOutputVc id vc => (0, taskSetOutputVc id vc s)
  | .setForeground id => taskSetForeground id s
  | .sendSignal id signum => taskSendSignal id signum s
  | .setSignalHandler signum handler => taskSetSignalHandler signum handler s
  | .sigprocmask how mask => taskSigprocmask how mask s
  | .alarm seconds => taskAlarm seconds s
  | .setitimer valueUs intervalUs => taskSetitimer valueUs intervalUs s
  | .setErrno e => (0, s.onCurrent fun t => t.setErrno e)
  | .setFdRlimit soft hard => taskSetFdRlimit soft hard s
  | .setUid uid => taskSetCurrentUid uid s
  | .setGid gid => taskSetCurrentGid gid s
  | .setGroups gids count => taskSetGroups gids count s
  | .forceIdentity uid gid => (0, taskForceIdentity uid gid s)
  | .waitId target => (0, taskWaitId target s)
  | .waitpid target status => syscallWaitpid target status s
  | .reapZombiesFor parent => (0, taskReapZombiesFor parent s)
  | .setInitPid pid => (0, { s with sysInitPid := pid })
  | .mmap length => taskMmap length s
  | .munmap addr length => taskMunmap addr length s
  | .fds table => (0, s.onCurrent fun t => { t with fdTable := table })
  | .shm mappings => (0, s.onCurrent fun t => { t with shmMappings := mappings })
  | .resolvePages pages => (0, { s with pages })
  | .store phys => (0, { s with phys })

/-! ## A small machine, for concrete runs -/

def quietBoot : Boot where
  frequency := 100
  activeVc := 0
  ttyNode := 0
  bootstrap := 0
  idleStep := 1
  idleStack := 0x10000
  pages := fun _ _ => none
  phys := fun _ => 0

/-- A program in the background, on a region of its own. -/
def quietProgram : SpawnUserArgs where
  name := ['a']
  entryPoint := 0x01000000
  userPhysicalBase := 0x02000000
  userHeapBase := 0x01001000
  userHeapSize := 0x100000
  pageDirectory := 0x40000
  initialUserEsp := 0
  shmSegmentId := -1
  foreground := false
  stack := 0x20000
  attached := none

/-- A fork for which everything can be had. -/
def quietFork : ForkEnv where
  childDir := 0x50000
  childKstack := 0x30000
  shmMappings := resetShmMappings
  shmCloned := true

end Lyth.Task
