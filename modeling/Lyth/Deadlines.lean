/-
  SLEEPS AND TIMEOUTS (`kernel/task/task.c`): when `task_on_tick` wakes a task that stopped itself.

  1. THE PROGRAM is the task table of `Lyth.Task`: `task_sleep` and `task_wait_event_timeout` store the
     deadline `now + n` modulo `2 ^ 32`, and every tick compares it with the clock as a SIGNED difference.
     A stored 0 means that a wait has no timeout.

  2. THE SPECIFICATION (`OnTime`).  In every run that leaves the task alone between the ticks, it stays
     stopped for `n` ticks and is ready after the `n`-th.

  3. THE CRUX.  `timers_tick`: of the rounds of one tick only the task's own touches its deadlines, and
     does what `Timers.tick` says.  The rest is arithmetic (`due_iff`): `k` ticks after the call the
     deadline is over exactly if `k = n` or more than `2 ^ 31` ticks are left.  So two kinds of `n` fail:
     those beyond `2 ^ 31 + 1`, whose sleep ends at the first tick, and, for a wait, the one that makes
     the deadline 0, which never comes.
-/
import Lyth.TaskEffects

namespace Lyth.Task

open Run

/-! ## A tick, slot by slot -/

/-- What the clock reads and writes of an entry. -/
structure Timers where
  used : Bool
  state : TaskState
  wakeTick : UInt32
  alarmTick : UInt32
  interval : UInt32

def Entry.timers (t : Entry) : Timers :=
  ⟨t.used, t.state, t.wakeTick, t.alarmTick, t.itimerIntervalTicks⟩

/-- A deadline of a stopped task is over. -/
def Timers.Over (now : UInt32) (c : Timers) : Prop :=
  (c.state = .sleeping ∨ c.state = .blocked ∧ c.wakeTick ≠ 0) ∧ due now c.wakeTick

instance (now : UInt32) (c : Timers) : Decidable (c.Over now) := inferInstanceAs (Decidable (_ ∧ _))

/-- The interval timer fires. -/
def Timers.Rings (now : UInt32) (c : Timers) : Prop := c.alarmTick ≠ 0 ∧ due now c.alarmTick

instance (now : UInt32) (c : Timers) : Decidable (c.Rings now) := inferInstanceAs (Decidable (_ ∧ _))

/-- A tick, for a task in use: its deadline, then its timer. -/
def Timers.tick (now : UInt32) (c : Timers) : Timers :=
  let c := if c.Over now then { c with wakeTick := 0, state := .ready } else c
  if c.Rings now then
    { c with
      alarmTick := if c.interval ≠ 0 then now + c.interval else 0
      state := if c.state = .sleeping ∨ c.state = .blocked then .ready else c.state }
  else c

theorem Timers.tick_still {now : UInt32} {c : Timers} (hover : ¬c.Over now) (hquiet : ¬c.Rings now) :
    c.tick now = c := by
  simp only [Timers.tick, if_neg hover, if_neg hquiet]

theorem Timers.tick_over {now : UInt32} {c : Timers} (hover : c.Over now) : (c.tick now).state = .ready := by
  simp only [Timers.tick, if_pos hover]
  split
  · rfl
  · rfl

section

variable {s : State} {i j : Slot}

theorem timers_enqueue (j : Slot) (s : State) (i : Slot) :
    ((schedEnqueueReady j s).tasks i).timers = (s.tasks i).timers := by
  rw [(schedEnqueueReady_relinked j s).entries i]
  rfl

/-- The round of another slot. -/
theorem timers_tickSlot_ne (now : UInt32) (h : i ≠ j) (s : State) :
    ((tickSlot now j s).tasks i).timers = (s.tasks i).timers := by
  fun_cases tickSlot now j s with
  | case1 => rfl
  | case2 =>
    have hstep : ∀ (s : State) (f : Entry → Entry),
        ((schedEnqueueReady j (s.modify j f)).tasks i).timers = (s.tasks i).timers := by
      intro s f
      rw [timers_enqueue, modify_ne h]
    unfold tickAlarm wakeStopped tickTimeout tickSleep
    split_ifs <;> simp only [hstep, modify_ne h]

/-- The round of the slot itself. -/
theorem timers_tickSlot (now : UInt32) (hused : (s.tasks i).used) :
    ((tickSlot now i s).tasks i).timers = (s.tasks i).timers.tick now := by
  have hstep : ∀ (s : State) (f : Entry → Entry),
      ((schedEnqueueReady i (s.modify i f)).tasks i).timers = (f (s.tasks i)).timers := by
    intro s f
    rw [timers_enqueue, modify_self]
  rw [tickSlot, if_neg (by simp [hused])]
  generalize hc : (s.tasks i).timers = c
  -- First the deadline; a task woken by it is not stopped any more.
  have hwake : ((tickTimeout now i (tickSleep now i s)).tasks i).timers
      = if c.Over now then { c with wakeTick := 0, state := .ready } else c := by
    subst hc
    by_cases hs : (s.tasks i).SleepDue now
    · have hstate : ((tickSleep now i s).tasks i).timers
          = { (s.tasks i).timers with wakeTick := 0, state := .ready } := by
        rw [tickSleep, if_pos hs, hstep]
        rfl
      have hno : ¬((tickSleep now i s).tasks i).TimeoutDue now := fun ht =>
        TaskState.noConfusion (ht.1.symm.trans (congrArg Timers.state hstate))
      rw [tickTimeout, if_neg hno, hstate, if_pos ⟨.inl hs.1, hs.2⟩]
    · rw [tickSleep, if_neg hs, tickTimeout]
      by_cases ht : (s.tasks i).TimeoutDue now
      · rw [if_pos ht, hstep, if_pos ⟨.inr ⟨ht.1, ht.2.1⟩, ht.2.2⟩]
        rfl
      · rw [if_neg ht, if_neg]
        rintro ⟨h | h, hdue⟩
        · exact hs ⟨h, hdue⟩
        · exact ht ⟨h.1, h.2, hdue⟩
  rw [Timers.tick, ← hwake]
  generalize tickTimeout now i (tickSleep now i s) = s
  have hring : ∀ s, ((wakeStopped i s).tasks i).timers = { (s.tasks i).timers with
      state := if (s.tasks i).Stopped then .ready else (s.tasks i).state } := by
    intro s
    unfold wakeStopped
    split
    · exact hstep s _
    · rfl
  by_cases ha : (s.tasks i).timers.Rings now
  · rw [tickAlarm, if_pos (show (s.tasks i).AlarmDue now from ha), if_pos ha, hring, modify_self]
    rfl
  · rw [tickAlarm, if_neg (show ¬(s.tasks i).AlarmDue now from ha), if_neg ha]

/-- **A tick.** -/
theorem timers_tick (hused : (s.tasks i).used) :
    ((timerHandleInterrupt s).tasks i).timers = (s.tasks i).timers.tick (s.ticks + 1) := by
  -- The rounds before and after that of `i` leave its entry alone.
  have hrounds : ∀ (is : List Slot) (s : State) (now : UInt32), (s.tasks i).used → is.Nodup →
      ((is.foldl (fun s j => tickSlot now j s) s).tasks i).timers
        = if i ∈ is then (s.tasks i).timers.tick now else (s.tasks i).timers := by
    intro is
    induction is with
    | nil => exact fun _ _ _ _ => rfl
    | cons j is ih =>
      intro s now hused hnodup
      have hstay : ((tickSlot now j s).tasks i).used := by
        rw [((tickSlot_nudged now j s).entries i id).used, hused]
      rw [List.foldl_cons, ih _ now hstay (List.nodup_cons.mp hnodup).2]
      rcases eq_or_ne i j with rfl | hij
      · rw [if_neg (List.nodup_cons.mp hnodup).1, if_pos (.head _), timers_tickSlot now hused]
      · simp only [timers_tickSlot_ne now hij, List.mem_cons, hij, false_or]
  have h := hrounds (List.finRange taskMaxCount) { s with ticks := s.ticks + 1 } (s.ticks + 1) hused
    (List.nodup_finRange _)
  rwa [if_pos (List.mem_finRange i)] at h

end

/-! ## Deadlines -/

/-- The deadline set `n` ticks ahead at the time `a`, after `k` of them. -/
theorem due_iff {a n : UInt32} {k : Nat} (hk : k ≤ n.toNat) :
    due (a + UInt32.ofNat k) (a + n) ↔ k = n.toNat ∨ 2 ^ 31 < n.toNat - k := by
  have hn := n.toNat_lt
  rw [due, decide_eq_true_iff]
  simp only [UInt32.toNat_sub, UInt32.toNat_add, UInt32.toNat_ofNat']
  omega

def Call.isTick : Call → Bool
  | .tick => true
  | _ => false

/-- The clock stands, and the task in the slot `i` is left alone: no signal, no event. -/
def Undisturbed (i : Slot) (s s' : State) : Prop :=
  s'.ticks = s.ticks ∧ (s'.tasks i).timers = (s.tasks i).timers

/-- Between the ticks the task is left alone. -/
def LeavesAlone (i : Slot) (s : State) (c : Call) : Prop :=
  c.isTick = false → Undisturbed i s (step s c).2

/-- From `s₀` on the task in the slot `i` stays stopped for `n` ticks and is ready after the `n`-th. -/
def OnTime (i : Slot) (n : UInt32) (s₀ : State) : Prop :=
  ∀ calls, Guarded step (LeavesAlone i) s₀ calls → (calls.countP Call.isTick < n.toNat →
      ((exec step s₀ calls).2.tasks i).state = (s₀.tasks i).state) ∧
    (calls.countP Call.isTick + 1 = n.toNat →
      ((step (exec step s₀ calls).2 .tick).2.tasks i).state = .ready)

section

variable {i : Slot} {s₀ : State} {c : Timers}

/-- While no deadline is over and no alarm rings, only the clock moves. -/
theorem timers_wait (hused : c.used) (calls : List Call) :
    ∀ s, (s.tasks i).timers = c → Guarded step (LeavesAlone i) s calls →
      (∀ j < calls.countP Call.isTick, ¬ c.Over (s.ticks + UInt32.ofNat (j + 1)) ∧
        ¬ c.Rings (s.ticks + UInt32.ofNat (j + 1))) →
      ((exec step s calls).2.tasks i).timers = c ∧
        (exec step s calls).2.ticks = s.ticks + UInt32.ofNat (calls.countP Call.isTick) := by
  induction calls with
  | nil => exact fun s hs _ _ => ⟨hs, (UInt32.add_zero _).symm⟩
  | cons call calls ih =>
    intro s hs hg hover
    have hnext : ∀ k, s.ticks + 1 + UInt32.ofNat k = s.ticks + UInt32.ofNat (k + 1) := fun k => by
      rw [UInt32.ofNat_add, UInt32.add_assoc, UInt32.add_comm 1]
      rfl
    cases hc : call.isTick with
    | false =>
      rw [List.countP_cons_of_neg (by simp [hc])] at hover ⊢
      obtain ⟨hticks, htimers⟩ := hg.1 hc
      have h := ih _ (htimers.trans hs) hg.2 (by rwa [hticks])
      rwa [hticks] at h
    | true =>
      obtain rfl : call = .tick := by cases call <;> first | rfl | cases hc
      rw [List.countP_cons_of_pos rfl] at hover ⊢
      have hticks : (step s .tick).2.ticks = s.ticks + 1 := by
        rw [show (step s .tick).2 = taskOnTick { s with ticks := s.ticks + 1 } from rfl,
          (taskOnTick_nudged _).globals]
      have htick : ((step s .tick).2.tasks i).timers = c := by
        refine (timers_tick (congrArg Timers.used hs |>.trans hused)).trans ?_
        rw [hs]
        exact Timers.tick_still (hover 0 (Nat.succ_pos _)).1 (hover 0 (Nat.succ_pos _)).2
      have h := ih _ htick hg.2 fun j hj => by
        rw [hticks, hnext]
        exact hover (j + 1) (Nat.succ_lt_succ hj)
      rwa [hticks, hnext] at h

theorem ticks_guarded (i : Slot) (m : Nat) :
    ∀ s, Guarded step (LeavesAlone i) s (List.replicate m .tick) := by
  induction m with
  | zero => exact fun _ => trivial
  | succ m ih => exact fun s => ⟨nofun, ih _⟩

/-- The alarm of the slot `i` does not ring in the next `n` ticks. -/
def NoAlarm (i : Slot) (n : UInt32) (s : State) : Prop :=
  ∀ k ≤ n.toNat, ¬ (s.tasks i).timers.Rings (s.ticks + UInt32.ofNat k)

/-- A task with a deadline `n` ticks ahead, and no alarm before it. -/
structure Stops (i : Slot) (n : UInt32) (s₀ : State) : Prop where
  used : (s₀.tasks i).used
  stopped : (s₀.tasks i).Stopped
  deadline : (s₀.tasks i).wakeTick = s₀.ticks + n
  quiet : NoAlarm i n s₀

variable {n : UInt32}

/-- The current task stops itself. -/
theorem Stops.of_modify {s : State} (hused : (s.tasks i).used) (hquiet : NoAlarm i n s)
    {f : Entry → Entry} {st : TaskState} (hst : st = .sleeping ∨ st = .blocked)
    (hf : (f (s.tasks i)).timers = { (s.tasks i).timers with wakeTick := s.ticks + n, state := st }) :
    Stops i n (s.modify i f) := by
  have htimers : ((s.modify i f).tasks i).timers
      = { (s.tasks i).timers with wakeTick := s.ticks + n, state := st } := by
    rw [modify_self, hf]
  have hstate := congrArg Timers.state htimers
  refine ⟨(congrArg Timers.used htimers).trans hused, hst.imp hstate.trans hstate.trans,
    congrArg Timers.wakeTick htimers, fun k hk => ?_⟩
  rw [htimers]
  exact hquiet k hk

theorem Stops.over_iff (h : Stops i n s₀) {k : Nat} (hk : k ≤ n.toNat) :
    (s₀.tasks i).timers.Over (s₀.ticks + UInt32.ofNat k) ↔
      ((s₀.tasks i).state = .blocked → s₀.ticks + n ≠ 0) ∧ (k = n.toNat ∨ 2 ^ 31 < n.toNat - k) := by
  rw [Timers.Over, show (s₀.tasks i).timers.wakeTick = s₀.ticks + n from h.deadline, due_iff hk]
  rcases h.stopped with hst | hst
  · simp [Entry.timers, hst]
  · simp [Entry.timers, hst]

/-- The tick that follows a run without one at which the deadline is over. -/
theorem Stops.next (h : Stops i n s₀) {calls : List Call}
    (hg : Guarded step (LeavesAlone i) s₀ calls) (hlt : calls.countP Call.isTick < n.toNat)
    (hwait : ∀ j < calls.countP Call.isTick, ¬ (s₀.tasks i).timers.Over (s₀.ticks + UInt32.ofNat (j + 1))) :
    ((step (exec step s₀ calls).2 .tick).2.tasks i).timers
      = (s₀.tasks i).timers.tick (s₀.ticks + UInt32.ofNat (calls.countP Call.isTick + 1)) := by
  obtain ⟨htimers, hticks⟩ := timers_wait h.used calls s₀ rfl hg fun j hj =>
    ⟨hwait j hj, h.quiet _ (by omega)⟩
  refine (timers_tick (congrArg Timers.used htimers |>.trans h.used)).trans ?_
  rw [htimers, hticks, UInt32.ofNat_add, UInt32.add_assoc]
  rfl

/-- **Deadlines.**  A deadline is met exactly when it is at most `2 ^ 31 + 1` ticks away and, for a
    task that waits, is not the tick 0, which means none. -/
theorem Stops.onTime_iff (h : Stops i n s₀) (hn : n ≠ 0) : OnTime i n s₀ ↔
    n.toNat ≤ 2 ^ 31 + 1 ∧ ((s₀.tasks i).state = .blocked → s₀.ticks + n ≠ 0) := by
  have hpos : 0 < n.toNat := Nat.pos_of_ne_zero fun h0 => hn (UInt32.toNat_inj.mp h0)
  have hready : (s₀.tasks i).state ≠ .ready := fun hr => by
    rcases h.stopped with hst | hst <;> exact TaskState.noConfusion (hst.symm.trans hr)
  refine ⟨fun hot => ?_, fun ⟨hle, hzero⟩ calls hg => ⟨fun hlt => ?_, fun heq => ?_⟩⟩
  · have hzero : (s₀.tasks i).state = .blocked → s₀.ticks + n ≠ 0 := by
      -- The deadline 0 never passes, at the `n`-th tick as at the others.
      by_contra hz
      have hnot : ∀ k ≤ n.toNat, ¬ (s₀.tasks i).timers.Over (s₀.ticks + UInt32.ofNat k) :=
        fun k hk hov => hz ((h.over_iff hk).mp hov).1
      have hcount : (List.replicate (n.toNat - 1) Call.tick).countP Call.isTick + 1 = n.toNat := by
        rw [List.countP_replicate]
        simp only [Call.isTick, if_true]
        omega
      have hg := ticks_guarded i (n.toNat - 1) s₀
      have hlast := congrArg Timers.state (h.next hg (by omega) fun j hj => hnot _ (by omega))
      rw [hcount, Timers.tick_still (hnot _ le_rfl) (h.quiet _ le_rfl)] at hlast
      exact hready (hlast.symm.trans ((hot _ hg).2 hcount))
    refine ⟨?_, hzero⟩
    by_contra hlong
    have hover := (h.over_iff (k := 1) hpos).mpr ⟨hzero, .inr (by omega)⟩
    have hstay := (hot [.tick] ⟨nofun, trivial⟩).1 (by simp [Call.isTick]; omega)
    have hrung := congrArg Timers.state (h.next (show Guarded step (LeavesAlone i) s₀ [] from trivial) hpos nofun)
    exact hready (hstay.symm.trans (hrung.trans (Timers.tick_over hover)))
  · refine congrArg Timers.state (timers_wait h.used calls s₀ rfl hg fun j hj =>
      ⟨fun hov => ?_, h.quiet _ (by omega)⟩).1
    have := ((h.over_iff (by omega)).mp hov).2
    omega
  · refine (congrArg Timers.state (h.next hg (by omega) fun j hj hov => ?_)).trans ?_
    · have := ((h.over_iff (by omega)).mp hov).2
      omega
    · rw [heq]
      exact Timers.tick_over ((h.over_iff le_rfl).mpr ⟨hzero, .inl rfl⟩)

end

/-- **Sleeps and timeouts**, for every time `s.ticks` and every `n`, of a task that gets no signal. -/
theorem deadlines_met_iff {s : State} {i : Slot} (hcur : s.current = some i)
    (hused : (s.tasks i).used = true) {n : UInt32} (hn : n ≠ 0) (hquiet : NoAlarm i n s) :
    (OnTime i n (step s (.sleep n)).2 ↔ n.toNat ≤ 2 ^ 31 + 1) ∧
    ∀ event, 0 ≤ event → hasZombie s event = false → (OnTime i n (step s (.waitEventTimeout event n)).2 ↔
        n.toNat ≤ 2 ^ 31 + 1 ∧ s.ticks + n ≠ 0) := by
  refine ⟨?_, fun event hevent hzombie => ?_⟩
  · have hstep : (step s (.sleep n)).2 = s.modify i (fun t =>
        { t with wakeTick := s.ticks + n, blockedEventId := -1, state := .sleeping }) := by
      simp only [step, taskSleep, if_neg hn, State.onCurrent, hcur]
    rw [hstep, (Stops.of_modify hused hquiet (.inl rfl) rfl).onTime_iff hn]
    simp
  · have hstep : (step s (.waitEventTimeout event n)).2 = s.modify i (fun t =>
        { t with blockedEventId := event, wakeTick := s.ticks + n, state := .blocked }) := by
      simp only [step, taskWaitEventTimeout, if_neg hn, State.onCurrent, hcur, hzombie,
        not_lt.mpr hevent, Bool.false_eq_true, or_self, if_false]
    rw [hstep, (Stops.of_modify hused hquiet (.inr rfl) rfl).onTime_iff hn]
    simp [State.modify]

/-- A user program in the slot 1, two ticks before the clock wraps. -/
def lateProgram : State :=
  { (exec step (taskSystemInit quietBoot) [.spawnUser quietProgram, .scheduleOnTimer 0]).2 with
    ticks := 0xFFFFFFFE }

theorem deadlines_met_iff_lateProgram : OnTime 1 5 (step lateProgram (.sleep 5)).2 :=
  (deadlines_met_iff (by decide +kernel) (by decide +kernel) (by decide)
    (fun _ _ h => h.1 (by decide +kernel))).1.mpr (by decide)

/-- A sleep of `2 ^ 31 + 2` ticks is over at the first of them; a timeout of 2 ticks that falls on the
    tick 0 is not over at the second. -/
theorem deadlines_missed : ((exec step lateProgram [.sleep 0x80000002, .tick]).2.tasks 1).state = .ready ∧
    ((exec step lateProgram [.waitEventTimeout 7 2, .tick, .tick]).2.tasks 1).state = .blocked := by
  decide +kernel

end Lyth.Task
