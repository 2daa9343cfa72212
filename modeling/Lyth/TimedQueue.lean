/-
  TIMED QUEUE OPERATIONS (`task_mq_send_timed` and `task_mq_receive_timed` of `kernel/task/task.c`).

  1. THE PROGRAM (`timedLoop`) tries the operation, and as long as the queue refuses calls `task_sleep(1)`
     and tries again, `timeout` times.  It counts ROUNDS: `task_sleep` only marks the entry of the caller
     as sleeping and comes back at once.

  2. THE SPECIFICATION (`Honours`).  However the ticks of the timer fall, the timeout error comes only
     after `timeout` of them, and the caller is left in the state it had.

  3. THE CRUX.  A system call runs with interrupts off, so there may be no tick at all, and then the rounds
     are over at once (`refused_returns`).  What is left are the calls that the queue does not refuse: they
     return in the first round.
-/
import Lyth.Mqueue
import Lyth.TaskEffects

namespace Lyth.TimedQueue

open Mqueue Word
open Lyth.Task (Slot taskSleep taskSignalEvent timerHandleInterrupt)

/-! ## The program -/

def mqETimeout : Int := -4

/-- The state of `task.c` and that of `mqueue.c`. -/
structure World where
  task : Task.State
  mq : Mqueue.State

/-- The timer interrupts `n` times. -/
def World.ticked (w : World) (n : Nat) : World := { w with task := timerHandleInterrupt^[n] w.task }

/-- `mqueue_event_id_for(mqueue_find(queue_id), offset)`. -/
def mqueueEventId (s : Mqueue.State) (queueId offset : Int) : Int :=
  match mqueueFind s queueId with
  | none => -1
  | some i => if (s.queues i).id ≤ 0 then -1 else int32 (0x40000000 + (s.queues i).id * 2 + offset)

/-- A queue operation and, after `n` ticks, the event it signals if it succeeded. -/
def operate (op : Mqueue.State → Answer × Mqueue.State) (queueId offset : Int) (n : Nat) (w : World) :
    Answer × World :=
  let r := op w.mq
  let event := if r.1.value = 0 then mqueueEventId r.2 queueId offset else -1
  let w' : World := { w.ticked n with mq := r.2 }
  (r.1, if r.1.value = 0 ∧ 0 ≤ event then { w' with task := taskSignalEvent event w'.task } else w')

/-- `task_mq_send`. -/
def taskMqSend (queueId : Int) (message : Option (Nat → UInt8)) (size : Nat) : Nat → World → Answer × World :=
  operate (fun s => mqueueSend s queueId message size) queueId 0

/-- `task_mq_receive`. -/
def taskMqReceive (queueId : Int) (buffer : Bool) (bufferSize : Nat) (sizeOut : Bool) :
    Nat → World → Answer × World :=
  operate (fun s => mqueueReceive s queueId buffer bufferSize sizeOut) queueId 1

/-- The ticks of one round of the loop: before the attempt, before its event, and after it. -/
structure Ticks where
  entry : Nat := 0
  event : Nat := 0
  leave : Nat := 0

/-- The loop of the timed operations, for at most `fuel` rounds; no tick falls past the end of `rounds`. -/
def timedLoop (attempt : Nat → World → Answer × World) (refusal : Int) (timeout : UInt32) :
    Nat → UInt32 → List Ticks → World → Option (Answer × World)
  | 0, _, _, _ => none
  | fuel + 1, waited, rounds, w =>
    let n := rounds.headD {}
    let r := attempt n.event (w.ticked n.entry)
    let w' := r.2.ticked n.leave
    if r.1.value ≠ refusal then some (r.1, w')
    else if timeout = 0 then some (.code mqETimeout, w')
    else if timeout ≠ 0xFFFFFFFF ∧ timeout ≤ waited then some (.code mqETimeout, w')
    else timedLoop attempt refusal timeout fuel (if timeout ≠ 0xFFFFFFFF then waited + 1 else waited)
      rounds.tail { w' with task := taskSleep 1 w'.task }

/-- `task_mq_send_timed`. -/
def taskMqSendTimed (queueId : Int) (message : Option (Nat → UInt8)) (size : Nat) (timeout : UInt32)
    (fuel : Nat) (rounds : List Ticks) (w : World) : Option (Answer × World) :=
  timedLoop (taskMqSend queueId message size) mqEFull timeout fuel 0 rounds w

/-- `task_mq_receive_timed`. -/
def taskMqReceiveTimed (queueId : Int) (buffer : Bool) (bufferSize : Nat) (sizeOut : Bool) (timeout : UInt32)
    (fuel : Nat) (rounds : List Ticks) (w : World) : Option (Answer × World) :=
  timedLoop (taskMqReceive queueId buffer bufferSize sizeOut) mqEEmpty timeout fuel 0 rounds w

/-! ## Specification -/

/-- Whenever the call returns, a timeout error means that the tick counter has advanced by `timeout`, and
    the caller is in the state it had. -/
def Honours (call : Nat → List Ticks → World → Option (Answer × World)) (timeout : UInt32) (w : World) :
    Prop :=
  ∀ fuel rounds r, call fuel rounds w = some r →
    (r.1.value = mqETimeout → timeout.toNat ≤ (r.2.task.ticks - w.task.ticks).toNat) ∧
    ∀ c, w.task.current = some c → (r.2.task.tasks c).state = (w.task.tasks c).state

/-- The message fits the queue, and the queue has no room. -/
def Full (s : Mqueue.State) (queueId : Int) (message : Option (Nat → UInt8)) (size : Nat) : Prop :=
  message.isSome ∧ size ≠ 0 ∧ ∃ i, mqueueFind s queueId = some i ∧ (s.queues i).storage.isSome ∧
    size ≤ (s.queues i).msgSize ∧ (s.queues i).maxMessages ≤ (s.queues i).count

/-- There is a buffer for a message, and the queue has none. -/
def Empty (s : Mqueue.State) (queueId : Int) (buffer : Bool) : Prop :=
  buffer ∧ ∃ i, mqueueFind s queueId = some i ∧ (s.queues i).storage.isSome ∧ (s.queues i).count = 0

/-! ## The ticks -/

section

variable {w : World} {c : Slot}

theorem ticked_running (hrun : (w.task.tasks c).state = .running) (n : Nat) :
    ((w.ticked n).task.tasks c).state = .running := by
  induction n with
  | zero => exact hrun
  | succ n ih =>
    show ((timerHandleInterrupt^[n + 1] w.task).tasks c).state = .running
    rw [Function.iterate_succ_apply']
    exact ((Task.taskOnTick_nudged _).entries c id).running ih

variable {op : Mqueue.State → Answer × Mqueue.State} {queueId offset refusal : Int} {timeout : UInt32}

theorem operate_running (hrun : (w.task.tasks c).state = .running) (n : Nat) :
    ((operate op queueId offset n w).2.task.tasks c).state = .running := by
  dsimp only [operate]
  generalize (if (op w.mq).1.value = 0 then mqueueEventId (op w.mq).2 queueId offset else -1) = event
  split
  · exact ((Task.taskSignalEvent_nudged _ _).entries c id).running (ticked_running hrun n)
  · exact ticked_running hrun n

/-! ## The loop -/

/-- A round that is refused, with no tick in it. -/
theorem refused_round (h0 : timeout ≠ 0) (hne : refusal ≠ 0) (hop : (op w.mq).1.value = refusal)
    (hsame : (op w.mq).2 = w.mq) (fuel : Nat) (waited : UInt32) :
    timedLoop (operate op queueId offset) refusal timeout (fuel + 1) waited [] w =
      if timeout ≠ 0xFFFFFFFF ∧ timeout ≤ waited then some (.code mqETimeout, w)
      else timedLoop (operate op queueId offset) refusal timeout fuel
        (if timeout ≠ 0xFFFFFFFF then waited + 1 else waited) [] { w with task := taskSleep 1 w.task } := by
  simp [timedLoop, operate, World.ticked, hop, hne, hsame, h0]

/-- **No tick.**  A queue that refuses makes the call time out, and the clock stands. -/
theorem refused_returns (h0 : timeout ≠ 0) (hmax : timeout ≠ 0xFFFFFFFF) (hne : refusal ≠ 0)
    {mq : Mqueue.State} (hop : (op mq).1.value = refusal) (hsame : (op mq).2 = mq) (n : Nat) :
    ∀ waited (w : World), w.mq = mq → waited.toNat + n = timeout.toNat →
      ∃ w', timedLoop (operate op queueId offset) refusal timeout (n + 1) waited [] w =
        some (.code mqETimeout, w') ∧ w'.task.ticks = w.task.ticks := by
  -- By the rounds that are left: each is refused, sleeps, and finds the queue as it was.
  induction n with
  | zero =>
    rintro waited w rfl hn
    have hover : timeout ≤ waited := UInt32.le_iff_toNat_le.mpr (by omega)
    refine ⟨w, ?_, rfl⟩
    rw [refused_round h0 hne hop hsame, if_pos ⟨hmax, hover⟩]
  | succ n ih =>
    rintro waited w rfl hn
    have hleft : ¬ timeout ≤ waited := fun hle => by
      have := UInt32.le_iff_toNat_le.mp hle
      omega
    have hnext : (waited + 1).toNat + n = timeout.toNat := by
      have := timeout.toNat_lt
      rw [UInt32.toNat_add, UInt32.toNat_one]
      omega
    obtain ⟨w', hrun, hticks⟩ := ih (waited + 1) { w with task := taskSleep 1 w.task } rfl hnext
    refine ⟨w', ?_, hticks.trans ?_⟩
    · rwa [refused_round h0 hne hop hsame, if_neg fun h => hleft h.2, if_pos hmax]
    · show (taskSleep 1 w.task).ticks = _
      unfold taskSleep Task.State.onCurrent
      split <;> split <;> rfl

/-- **The loop honours its timeout exactly where it does not need it.** -/
theorem honours_iff (h0 : 0 < timeout) (hmax : timeout < 0xFFFFFFFF)
    (hrun : ∀ c, w.task.current = some c → (w.task.tasks c).state = .running) (hne : refusal ≠ 0)
    (hvalue : (op w.mq).1.value ≠ mqETimeout) (hsame : (op w.mq).1.value = refusal → (op w.mq).2 = w.mq) :
    Honours (fun fuel => timedLoop (operate op queueId offset) refusal timeout fuel 0) timeout w ↔
      (op w.mq).1.value ≠ refusal := by
  have hpos : timeout ≠ 0 := (UInt32.ne_of_lt h0).symm
  refine ⟨fun hall hop => ?_, fun hop fuel rounds r hr => ?_⟩
  · obtain ⟨w', hret, hticks⟩ := refused_returns hpos (UInt32.ne_of_lt hmax) hne hop (hsame hop)
      timeout.toNat 0 w rfl (Nat.zero_add _)
    have hle := (hall _ _ _ hret).1 rfl
    rw [hticks, UInt32.sub_self] at hle
    exact hpos (UInt32.toNat_inj.mp (Nat.le_zero.mp hle))
  cases fuel with
  | zero => cases hr
  | succ fuel =>
    -- The ticks before the attempt leave the queue as it is, so its answer is that of `w`.
    cases (if_pos (show (op w.mq).1.value ≠ refusal from hop)).symm.trans hr
    refine ⟨fun htimeout => absurd htimeout hvalue, fun c hc => ?_⟩
    rw [hrun c hc]
    exact ticked_running (operate_running (ticked_running (hrun c hc) _) _) _

end

/-! ## The operations -/

/-- What `mqueue_send` answers: never a timeout, and the refusal of a full queue, which it leaves as it
    was. -/
theorem mqueueSend_value (s : Mqueue.State) (queueId : Int) (message : Option (Nat → UInt8)) (size : Nat) :
    (mqueueSend s queueId message size).1.value ≠ mqETimeout ∧
    ((mqueueSend s queueId message size).1.value = mqEFull ↔ Full s queueId message size) ∧
    ((mqueueSend s queueId message size).1.value = mqEFull → (mqueueSend s queueId message size).2 = s) := by
  fun_cases mqueueSend s queueId message size with
  | case1 | case2 | case3 => simp_all [Full, Answer.code, mqETimeout, mqEFull]
  | case4 _ _ _ _ q | case5 _ _ _ _ q | case6 _ _ _ _ q | case7 _ _ _ _ q =>
    simp_all [Full, Answer.code, mqETimeout, mqEFull, q]

@[inherit_doc mqueueSend_value]
theorem mqueueReceive_value (s : Mqueue.State) (queueId : Int) (buffer : Bool) (bufferSize : Nat)
    (sizeOut : Bool) :
    (mqueueReceive s queueId buffer bufferSize sizeOut).1.value ≠ mqETimeout ∧
    ((mqueueReceive s queueId buffer bufferSize sizeOut).1.value = mqEEmpty ↔ Empty s queueId buffer) ∧
    ((mqueueReceive s queueId buffer bufferSize sizeOut).1.value = mqEEmpty →
      (mqueueReceive s queueId buffer bufferSize sizeOut).2 = s) := by
  fun_cases mqueueReceive s queueId buffer bufferSize sizeOut with
  | case1 | case2 => simp_all [Empty, Answer.code, mqETimeout, mqEEmpty]
  | case3 _ _ _ q | case4 _ _ _ q | case5 _ _ _ q | case6 _ _ _ q =>
    simp_all [Empty, Answer.code, mqETimeout, mqEEmpty, q]

/-- **The timed operations honour their timeout** exactly where the queue does not refuse the first attempt:
    a send to a queue with room, a receive from one with a message, or arguments that are wrong. -/
theorem timed_calls_honour_timeout_iff {timeout : UInt32} {w : World} (h0 : 0 < timeout)
    (hmax : timeout < 0xFFFFFFFF) (hrun : ∀ c, w.task.current = some c → (w.task.tasks c).state = .running) :
    (∀ queueId message size, Honours (taskMqSendTimed queueId message size timeout) timeout w ↔
      ¬ Full w.mq queueId message size) ∧
    ∀ queueId buffer bufferSize sizeOut,
      Honours (taskMqReceiveTimed queueId buffer bufferSize sizeOut timeout) timeout w ↔
        ¬ Empty w.mq queueId buffer := by
  refine ⟨fun queueId message size => ?_, fun queueId buffer bufferSize sizeOut => ?_⟩
  · obtain ⟨hvalue, hfull, hsame⟩ := mqueueSend_value w.mq queueId message size
    rw [← hfull]
    exact honours_iff h0 hmax hrun (by decide) hvalue hsame
  · obtain ⟨hvalue, hempty, hsame⟩ := mqueueReceive_value w.mq queueId buffer bufferSize sizeOut
    rw [← hempty]
    exact honours_iff h0 hmax hrun (by decide) hvalue hsame

/-- A running program, and an empty queue with the id 1 for one message of one byte. -/
def oneSlot : World where
  task := (Run.exec Task.step (Task.taskSystemInit Task.quietBoot)
    [.spawnUser Task.quietProgram, .scheduleOnTimer 0]).2
  mq := (mqueueCreate mqueueInit 1 1 (some fun _ => 0)).2

theorem timed_calls_honour_timeout_iff_oneSlot :
    ¬ Full oneSlot.mq 1 (some fun _ => 7) 1 ∧ Honours (taskMqSendTimed 1 (some fun _ => 7) 1 5) 5 oneSlot := by
  have hroom : ¬ Full oneSlot.mq 1 (some fun _ => 7) 1 := fun h =>
    absurd ((mqueueSend_value _ _ _ _).2.1.mpr h) (by decide +kernel)
  exact ⟨hroom, ((timed_calls_honour_timeout_iff (by decide) (by decide) (by decide +kernel)).1 1 _ 1).mpr hroom⟩

/-- With no tick at all, a receive with a timeout of 5 ticks times out and leaves its caller asleep; so does
    a send after another has filled the queue. -/
theorem timed_calls_time_out_early : ((taskMqReceiveTimed 1 true 1 true 5 6 [] oneSlot).map fun r =>
      (r.1.value, r.2.task.ticks, (r.2.task.tasks 1).state)) = some (-4, oneSlot.task.ticks, .sleeping) ∧
    ((taskMqSendTimed 1 (some fun _ => 7) 1 5 6 [] (taskMqSend 1 (some fun _ => 7) 1 0 oneSlot).2).map fun r =>
      (r.1.value, r.2.task.ticks, (r.2.task.tasks 1).state)) = some (-4, oneSlot.task.ticks, .sleeping) := by
  decide +kernel

end Lyth.TimedQueue
