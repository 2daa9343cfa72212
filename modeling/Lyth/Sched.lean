/-
  THE READY QUEUES OF THE SCHEDULER (`kernel/task/task.c`).

  1. THE SPECIFICATION.  One queue per priority.  `Consistent s` says that each is a finite list that
     ends at its tail, with no task in it twice, and that a task is in the queue of its priority
     exactly when it is in use, READY and not the one that runs.

  2. THE CRUX.  No function of the source changes a state and a link at once: a waker writes READY and
     then links, a kill writes CANCELLED and then unlinks.  So every intermediate state has ONE slot
     that is not where it belongs.  `Queued y s q E` is the invariant with the slots `E` left out, and
     with the running task `y` as an argument of its own: a switch links the task that still runs and
     only then lets go of it, which is the invariant for `y = none` all along.

  3. THE DEFECT.  The running task may stop (sleep, wait for an event) and still be the running one
     until the next switch.  Whatever wakes it in between links it; if it then stops again, a task
     that is not READY stays in a ready queue, and the next switch runs it.  `Legal` says that no
     call reaches the running task like that; under it every run keeps `Consistent`.
-/
import Lyth.TaskEffects

namespace Lyth.Task

open Run Fifo Function

/-! ## The invariant -/

/-- In use, ready, and not the running task `y`. -/
def Runnable (y : Option Slot) (s : State) (i : Slot) : Prop :=
  (s.tasks i).used ∧ (s.tasks i).state = .ready ∧ y ≠ some i

/-- The queues hold the lists `q`, each task in the list of its priority; with `y` running, the slots
    outside `E` are linked exactly if they are runnable. -/
structure Queued (y : Option Slot) (s : State) (q : Priority → List Slot) (E : Slot → Prop) :
    Prop where
  holds : ∀ p, Holds s.next (s.head p) (s.tail p) (q p)
  level : ∀ p i, i ∈ q p → (s.tasks i).priority = p
  linked : ∀ i, ¬E i → (i ∈ q (s.tasks i).priority ↔ Runnable y s i)

/-- The invariant, but for the slots `E`. -/
def Queues (y : Option Slot) (s : State) (E : Slot → Prop) : Prop := ∃ q, Queued y s q E

/-- The invariant, but for the slot `i`, which is in no queue. -/
def Unlinked (y : Option Slot) (s : State) (i : Slot) : Prop :=
  ∃ q, Queued y s q (Only i) ∧ ∀ p, i ∉ q p

/-- **The ready queues are consistent.** -/
def Consistent (s : State) : Prop := Queues s.current s Nobody

section

variable {y : Option Slot} {s s' : State} {q : Priority → List Slot} {E : Slot → Prop} {i : Slot}

theorem Queues.but (h : Queues y s Nobody) (i : Slot) : Queues y s (Only i) := by
  obtain ⟨q, hq⟩ := h
  exact ⟨q, hq.holds, hq.level, fun j _ => hq.linked j id⟩

theorem Unlinked.queues (h : Unlinked y s i) : Queues y s (Only i) := by
  obtain ⟨q, hq, -⟩ := h
  exact ⟨q, hq⟩

/-- The only queue that can hold a task is that of its priority. -/
theorem Queued.unlinked (hq : Queued y s q (Only i)) (hi : i ∉ q (s.tasks i).priority) : Unlinked y s i :=
  ⟨q, hq, fun p hmem => hi ((hq.level p i hmem).symm ▸ hmem)⟩

/-- The task that was left out is where it belongs. -/
theorem Queued.settle (hq : Queued y s q (Only i)) (hi : i ∈ q (s.tasks i).priority ↔ Runnable y s i) :
    Queues y s Nobody := by
  refine ⟨q, hq.holds, hq.level, fun j _ => ?_⟩
  by_cases hj : j = i
  · rwa [hj]
  · exact hq.linked j hj

/-- A task that is not runnable is in no queue. -/
theorem Queues.unlinked (h : Queues y s Nobody) (hi : ¬Runnable y s i) : Unlinked y s i := by
  obtain ⟨q, hq⟩ := h
  exact Queued.unlinked ⟨hq.holds, hq.level, fun j _ => hq.linked j id⟩ fun hmem =>
    hi ((hq.linked i id).mp hmem)

/-- An unlinked task that is not runnable is where it belongs. -/
theorem Unlinked.settle (h : Unlinked y s i) (hi : ¬Runnable y s i) : Queues y s Nobody := by
  obtain ⟨q, hq, hout⟩ := h
  exact hq.settle (iff_of_false (hout _) hi)

/-- The entry of an unlinked task does not matter. -/
theorem Unlinked.modify (h : Unlinked y s i) (f : Entry → Entry) : Unlinked y (s.modify i f) i := by
  obtain ⟨q, hq, hout⟩ := h
  have hsame : ∀ j, j ≠ i → (s.modify i f).tasks j = s.tasks j := fun j hj => modify_ne hj s f
  have hmem : ∀ p j, j ∈ q p → j ≠ i := fun p j hj heq => hout p (heq ▸ hj)
  refine ⟨q, ⟨fun p => (hq.holds p).congr ?_, fun p j hj => ?_, fun j hj => ?_⟩, hout⟩
  · intro a ha
    rw [State.next, State.next, hsame a (hmem p a ha)]
  · rw [hsame j (hmem p j hj)]
    exact hq.level p j hj
  · rw [Runnable, hsame j hj]
    exact hq.linked j hj

/-- Whether the task that is left out runs does not matter to the others. -/
theorem runnable_of_running {j : Slot} (hj : j ≠ i) : Runnable (some i) s j ↔ Runnable none s j := by
  have hne : some i ≠ some j := fun heq => hj (Option.some.inj heq).symm
  exact ⟨fun h => ⟨h.1, h.2.1, (Option.some_ne_none j).symm⟩, fun h => ⟨h.1, h.2.1, hne⟩⟩

theorem Unlinked.stops (h : Unlinked (some i) s i) : Unlinked none s i := by
  obtain ⟨q, hq, hout⟩ := h
  exact ⟨q, ⟨hq.holds, hq.level, fun j hj => (hq.linked j hj).trans (runnable_of_running hj)⟩, hout⟩

theorem Unlinked.starts (h : Unlinked none s i) : Unlinked (some i) s i := by
  obtain ⟨q, hq, hout⟩ := h
  exact ⟨q, ⟨hq.holds, hq.level, fun j hj => (hq.linked j hj).trans (runnable_of_running hj).symm⟩, hout⟩

theorem Unlinked.setCurrent (h : Unlinked y s i) (c : Option Slot) : Unlinked y (s.setCurrent c) i := by
  obtain ⟨q, hq, hout⟩ := h
  exact ⟨q, ⟨hq.holds, hq.level, hq.linked⟩, hout⟩

theorem Queues.setCurrent (h : Queues y s E) (c : Option Slot) : Queues y (s.setCurrent c) E := by
  obtain ⟨q, hq⟩ := h
  exact ⟨q, hq.holds, hq.level, hq.linked⟩

theorem Unlinked.takeId (h : Unlinked y s i) : Unlinked y s.takeId i := by
  obtain ⟨q, hq, hout⟩ := h
  exact ⟨q, ⟨hq.holds, hq.level, hq.linked⟩, hout⟩

/-- The running task changes its own entry. -/
theorem Queues.modify_running (h : Queues (some i) s Nobody) (f : Entry → Entry) :
    Queues (some i) (s.modify i f) Nobody :=
  ((h.unlinked fun hr => hr.2.2 rfl).modify f).settle fun hr => hr.2.2 rfl

end

/-! ## Changes that the queues do not see -/

/-- Nothing that the invariant reads differs. -/
structure Quiet (s s' : State) : Prop where
  head : s'.head = s.head
  tail : s'.tail = s.tail
  current : s'.current = s.current
  used : ∀ i, (s'.tasks i).used = (s.tasks i).used
  state : ∀ i, (s'.tasks i).state = (s.tasks i).state
  priority : ∀ i, (s'.tasks i).priority = (s.tasks i).priority
  next : s'.next = s.next

variable {f : Entry → Entry}

section

variable {y : Option Slot} {s s' s'' : State} {E : Slot → Prop} {i : Slot}

theorem Quiet.refl (s : State) : Quiet s s :=
  ⟨rfl, rfl, rfl, fun _ => rfl, fun _ => rfl, fun _ => rfl, rfl⟩

theorem Quiet.trans (h : Quiet s s') (h' : Quiet s' s'') : Quiet s s'' where
  head := h'.head.trans h.head
  tail := h'.tail.trans h.tail
  current := h'.current.trans h.current
  used i := (h'.used i).trans (h.used i)
  state i := (h'.state i).trans (h.state i)
  priority i := (h'.priority i).trans (h.priority i)
  next := h'.next.trans h.next

theorem quiet_modify (hused : (f (s.tasks i)).used = (s.tasks i).used)
    (hstate : (f (s.tasks i)).state = (s.tasks i).state)
    (hprio : (f (s.tasks i)).priority = (s.tasks i).priority)
    (hnext : (f (s.tasks i)).schedNext = (s.tasks i).schedNext) : Quiet s (s.modify i f) :=
  ⟨rfl, rfl, rfl, modify_field Entry.used hused, modify_field Entry.state hstate,
    modify_field Entry.priority hprio, funext (modify_field Entry.schedNext hnext)⟩

theorem quiet_setForeground (s : State) (id : Int) : Quiet s (s.setForeground id) :=
  ⟨rfl, rfl, rfl, fun _ => rfl, fun _ => rfl, fun _ => rfl, rfl⟩

theorem quiet_setPhys (s : State) (m : Bytes.Mem) : Quiet s (s.setPhys m) :=
  ⟨rfl, rfl, rfl, fun _ => rfl, fun _ => rfl, fun _ => rfl, rfl⟩

theorem Queues.quiet (hq : Queues y s E) (h : Quiet s s') : Queues y s' E := by
  obtain ⟨q, hq⟩ := hq
  refine ⟨q, fun p => ?_, fun p j hj => ?_, fun j hj => ?_⟩
  · rw [h.next, h.head, h.tail]
    exact hq.holds p
  · rw [h.priority]
    exact hq.level p j hj
  · rw [h.priority, Runnable, h.used, h.state]
    exact hq.linked j hj

theorem Consistent.quiet (hq : Consistent s) (h : Quiet s s') : Consistent s' := by
  rw [Consistent, h.current]
  exact Queues.quiet hq h

end

/-! ## The operations of the queues -/

/-- The walks have fuel for every queue. -/
theorem holds_length {next : Slot → Option Slot} {h t : Option Slot} {l : List Slot}
    (hq : Holds next h t l) : l.length < taskMaxCount + 1 := by
  have hcard : l.length ≤ Fintype.card Slot := hq.nodup.length_le_card
  exact Nat.lt_succ_of_le hcard

/-- What `sched_enqueue_ready` writes for a task that is not queued. -/
structure Enqueued (i : Slot) (p : Priority) (s s' : State) : Prop where
  relinked : Relinked s s'
  head : s'.head = update s.head p (if s.tail p = none then some i else s.head p)
  tail : s'.tail = update s.tail p (some i)
  nextNew : s'.next i = none
  nextLast : ∀ b, s.tail p = some b → s'.next b = some i
  nextRest : ∀ b, b ≠ i → s.tail p ≠ some b → s'.next b = s.next b

variable {s : State} {i : Slot}

theorem schedEnqueueReady_enqueued (hused : (s.tasks i).used)
    (hq : schedIsQueued s i (s.tasks i).priority = false)
    (htail : s.tail (s.tasks i).priority ≠ some i) :
    Enqueued i (s.tasks i).priority s (schedEnqueueReady i s) := by
  have hrel := schedEnqueueReady_relinked i s
  unfold schedEnqueueReady at hrel ⊢
  dsimp only at hrel ⊢
  rw [if_neg (by rw [hused]; exact Bool.noConfusion), if_neg (by rw [hq]; exact Bool.noConfusion)]
    at hrel ⊢
  have ht : (s.modify i fun t => t.setNext none).tail (s.tasks i).priority
      = s.tail (s.tasks i).priority := rfl
  rw [ht] at hrel ⊢
  generalize hp : (s.tasks i).priority = p at htail hrel
  cases hlast : s.tail p with
  | none =>
    rw [hlast] at hrel
    refine ⟨hrel, ?_, rfl, ?_, fun b hb => ?_, fun b hb _ => ?_⟩
    · rw [if_pos hlast]
      rfl
    · show ((s.modify i fun t => t.setNext none).tasks i).schedNext = none
      rw [modify_self]
      rfl
    · rw [hlast] at hb
      cases hb
    · show ((s.modify i fun t => t.setNext none).tasks b).schedNext = (s.tasks b).schedNext
      rw [modify_ne hb]
  | some last =>
    rw [hlast] at hrel htail
    have hne : i ≠ last := fun heq => htail (heq ▸ rfl)
    refine ⟨hrel, ?_, rfl, ?_, fun b hb => ?_, fun b hb hbl => ?_⟩
    · rw [if_neg (by rw [hlast]; exact Option.some_ne_none _), update_eq_self]
      rfl
    · show (((s.modify i fun t => t.setNext none).modify last
        (fun t => t.setNext (some i))).tasks i).schedNext = none
      rw [modify_ne hne, modify_self]
      rfl
    · rw [hlast] at hb
      cases hb
      show (((s.modify i fun t => t.setNext none).modify last
        (fun t => t.setNext (some i))).tasks last).schedNext = some i
      rw [modify_self]
      rfl
    · have hbl' : b ≠ last := fun heq => hbl (by rw [hlast, heq])
      show (((s.modify i fun t => t.setNext none).modify last
        (fun t => t.setNext (some i))).tasks b).schedNext = (s.tasks b).schedNext
      rw [modify_ne hbl', modify_ne hb]

section

variable {y : Option Slot} {s s' : State} {q : Priority → List Slot} {p : Priority}

theorem Relinked.runnable (h : Relinked s s') (j : Slot) : Runnable y s' j ↔ Runnable y s j := by
  rw [Runnable, h.entries j]
  exact Iff.rfl

theorem Relinked.priority (h : Relinked s s') (j : Slot) :
    (s'.tasks j).priority = (s.tasks j).priority := by
  rw [h.entries j]
  rfl

/-- The queues after the task `i` was put into its queue or taken out of it, which is `l` now. -/
theorem Queued.put {h t : Option Slot} {l : List Slot} (hq : Queued y s q (Only i)) (hrel : Relinked s s')
    (hp : (s.tasks i).priority = p) (hhead : s'.head = update s.head p h) (htail : s'.tail = update s.tail p t)
    (hnext : ∀ a, (s.tasks a).priority ≠ p → s'.next a = s.next a) (hl : Holds s'.next h t l)
    (hmem : ∀ j, j ≠ i → (j ∈ l ↔ j ∈ q p)) : Queued y s' (update q p l) (Only i) := by
  refine ⟨fun p' => ?_, fun p' j hj => ?_, fun j hj => ?_⟩
  · rw [hhead, htail]
    by_cases hpp : p' = p
    · subst hpp
      rwa [update_self, update_self, update_self]
    · rw [update_of_ne hpp, update_of_ne hpp, update_of_ne hpp]
      exact (hq.holds p').congr fun a ha => hnext a (by rwa [hq.level p' a ha])
  · rw [hrel.priority]
    by_cases hpp : p' = p
    · subst hpp
      rw [update_self] at hj
      by_cases hji : j = i
      · rwa [hji]
      · exact hq.level p' j ((hmem j hji).mp hj)
    · rw [update_of_ne hpp] at hj
      exact hq.level p' j hj
  · rw [hrel.priority, hrel.runnable, ← hq.linked j hj]
    by_cases hpj : (s.tasks j).priority = p
    · rw [hpj, update_self, hmem j hj]
    · rw [update_of_ne hpj]

/-- **Linking a task** that should be linked. -/
theorem Unlinked.enqueue (h : Unlinked y s i) (hi : Runnable y s i) :
    Queues y (schedEnqueueReady i s) Nobody := by
  obtain ⟨q, hq, hout⟩ := h
  have hqueued : schedIsQueued s i (s.tasks i).priority = false := by
    rw [schedIsQueued, queued_chain (hq.holds _).chain (holds_length (hq.holds _))]
    exact decide_eq_false (hout _)
  have htail : s.tail (s.tasks i).priority ≠ some i := by
    rw [(hq.holds _).last]
    exact fun heq => hout _ (List.mem_of_getLast? heq)
  have henq := schedEnqueueReady_enqueued hi.1 hqueued htail
  generalize hp : (s.tasks i).priority = p at henq
  -- the last task of the queue gets a new link, but it is in no other queue
  have hput := hq.put henq.relinked hp henq.head henq.tail (fun a ha => henq.nextRest a
    (fun heq => ha (heq ▸ hp)) fun hlast => ha (hq.level p a (List.mem_of_getLast?
      ((hq.holds p).last.symm.trans hlast))))
    ((hq.holds p).push (hout p) henq.nextNew henq.nextLast henq.nextRest) fun j hj => by simp [hj]
  refine hput.settle (iff_of_true ?_ ((henq.relinked.runnable i).mpr hi))
  rw [henq.relinked.priority, hp, update_self]
  exact List.mem_append_right _ (List.mem_singleton.mpr rfl)

end

/-- What `sched_remove_from_ready` writes for a queued task with `prev` before it. -/
structure Removed (i : Slot) (p : Priority) (prev : Option Slot) (s s' : State) : Prop where
  relinked : Relinked s s'
  head : s'.head = update s.head p (if prev = none then s.next i else s.head p)
  tail : s'.tail = update s.tail p (if s.tail p = some i then prev else s.tail p)
  nextPrev : ∀ b, prev = some b → s'.next b = s.next i
  nextRest : ∀ b, b ≠ i → prev ≠ some b → s'.next b = s.next b

/-- The end of the removal: the tail moves back if the task was the last, and its link goes. -/
theorem Removed.of_unlink {p : Priority} {prev : Option Slot} {s₁ s₂ : State}
    (hprev : prev ≠ some i) (hrel : Relinked s s₁)
    (hhead : s₁.head = update s.head p (if prev = none then s.next i else s.head p))
    (htail : s₁.tail = s.tail)
    (hnextPrev : ∀ b, prev = some b → s₁.next b = s.next i)
    (hnextRest : ∀ b, prev ≠ some b → s₁.next b = s.next b)
    (hs₂ : s₂ = if s₁.tail p = some i then s₁.setTail p prev else s₁) :
    Removed i p prev s (s₂.modify i fun t => t.setNext none) := by
  have hrel₂ : Relinked s₁ s₂ := by
    rw [hs₂]
    split
    · exact relinked_setTail ..
    · exact .refl s₁
  have htasks : s₂.tasks = s₁.tasks := by
    rw [hs₂]
    split
    · rfl
    · rfl
  have hnext : ∀ b, b ≠ i → (s₂.modify i fun t => t.setNext none).next b = s₁.next b := by
    intro b hb
    rw [State.next, State.next, modify_ne hb, htasks]
  refine ⟨(hrel.trans hrel₂).trans (relinked_modify ..), ?_, ?_, fun b hb => ?_, fun b hb hpb => ?_⟩
  · show s₂.head = _
    rw [← hhead, hs₂]
    split
    · rfl
    · rfl
  · show s₂.tail = _
    rw [hs₂, htail]
    split
    · show update s₁.tail p prev = _
      rw [htail]
    · rw [htail, update_eq_self]
  · rw [hnext b fun heq => hprev (heq ▸ hb), hnextPrev b hb]
  · rw [hnext b hb, hnextRest b hpb]

theorem schedRemoveFromReady_removed {prev : Option Slot}
    (hused : (s.tasks i).used) (hprev : prev ≠ some i)
    (hbefore : before s.next i (taskMaxCount + 1) none (s.head (s.tasks i).priority) = some prev) :
    Removed i (s.tasks i).priority prev s (schedRemoveFromReady i s) := by
  unfold schedRemoveFromReady
  rw [if_neg (by rw [hused]; exact Bool.noConfusion), hbefore]
  cases prev with
  | none =>
    refine Removed.of_unlink hprev (relinked_setHead ..) ?_ rfl (fun b hb => ?_) (fun b _ => rfl) rfl
    · rfl
    · cases hb
  | some b =>
    refine Removed.of_unlink hprev (relinked_modify ..) ?_ rfl (fun c hc => ?_) (fun c hc => ?_) rfl
    · rw [if_neg (Option.some_ne_none b), update_eq_self]
      rfl
    · cases hc
      rw [State.next, modify_self]
      rfl
    · have hne : c ≠ b := fun heq => hc (heq ▸ rfl)
      rw [State.next, modify_ne hne]
      rfl

section

variable {y : Option Slot} {s s' : State} {q : Priority → List Slot} {p : Priority}

/-- **Unlinking a task**, wherever it was. -/
theorem Queues.remove (h : Queues y s (Only i)) (hused : (s.tasks i).used) :
    Unlinked y (schedRemoveFromReady i s) i := by
  obtain ⟨q, hq⟩ := h
  generalize hp : (s.tasks i).priority = p
  have hqp := hq.holds p
  by_cases hi : i ∈ q p
  · obtain ⟨l₁, l₂, hsplit⟩ := List.append_of_mem hi
    rw [hsplit] at hqp
    have hnodup := List.nodup_append.mp hqp.nodup
    have hi₁ : i ∉ l₁ := fun hmem => hnodup.2.2 i hmem i (.head _) rfl
    have hi₂ : i ∉ l₂ := (List.nodup_cons.mp hnodup.2.1).1
    have hlen : l₁.length < taskMaxCount + 1 := by
      have := holds_length hqp
      rw [List.length_append] at this
      omega
    have hbefore := before_chain (p := none) hqp.chain hi₁ hlen
    rw [Option.or_none, ← hp] at hbefore
    have hprev : l₁.getLast? ≠ some i := fun heq => hi₁ (List.mem_of_getLast? heq)
    have hrem := schedRemoveFromReady_removed hused hprev hbefore
    rw [hp] at hrem
    -- neither the task nor the one before it is in another queue
    refine (hq.put hrem.relinked hp hrem.head hrem.tail (fun a ha => hrem.nextRest a
      (fun heq => ha (heq ▸ hp)) fun heq => ha (hq.level p a (hsplit ▸ List.mem_append_left _
        (List.mem_of_getLast? heq)))) (hqp.erase rfl hrem.nextPrev hrem.nextRest) fun j hj => ?_).unlinked ?_
    · rw [hsplit]
      simp [hj]
    · rw [hrem.relinked.priority, hp, update_self]
      simp [hi₁, hi₂]
  · rw [schedRemoveFromReady]
    rw [if_neg (by rw [hused]; exact Bool.noConfusion), hp, before_none _ hqp.chain hi]
    exact (hq.unlinked (hp ▸ hi)).modify _

/-- **The first task of a queue is taken.** -/
theorem Queues.dequeue (h : Queues y s Nobody) (hhead : s.head p = some i) :
    Unlinked y (schedDequeueReady p s) i ∧ (s.tasks i).priority = p := by
  obtain ⟨q, hq⟩ := h.but i
  have hqp := hq.holds p
  obtain ⟨l, hl⟩ := List.head?_eq_some_iff.mp (hqp.head_eq.symm.trans hhead)
  have hmemi : i ∈ q p := hl ▸ (.head _)
  have hp := hq.level p i hmemi
  refine ⟨?_, hp⟩
  rw [hl] at hqp
  have hi : i ∉ l := (List.nodup_cons.mp hqp.nodup).1
  have hrel := schedDequeueReady_relinked p s
  have hnext : ∀ b, b ≠ i → (schedDequeueReady p s).next b = s.next b := by
    intro b hb
    rw [schedDequeueReady, hhead]
    rw [State.next, modify_ne hb]
    split
    · rfl
    · rfl
  have hheads : (schedDequeueReady p s).head = update s.head p (s.next i) := by
    rw [schedDequeueReady, hhead]
    dsimp only
    split
    · rfl
    · rfl
  have htails : (schedDequeueReady p s).tail
      = update s.tail p (if s.next i = none then none else s.tail p) := by
    rw [schedDequeueReady, hhead]
    dsimp only
    split
    · rfl
    · rw [update_eq_self]
      rfl
  refine (hq.put hrel hp hheads htails (fun a ha => hnext a fun heq => ha (heq ▸ hp)) (hqp.pop hnext)
    fun j hj => ?_).unlinked ?_
  · rw [hl, List.mem_cons, or_iff_right hj]
  · rwa [hrel.priority, hp, update_self]

end

/-! ## Waking -/

/-- The queues are consistent with `y` running, and its entry satisfies `D`: what keeps a call from
    reaching it. -/
structure Calm (y : Option Slot) (D : Entry → Prop) (s : State) : Prop where
  queues : Queues y s Nobody
  spared : ∀ x, y = some x → D (s.tasks x)

/-- The links do not matter to a predicate. -/
def Linkless (D : Entry → Prop) : Prop := ∀ t n, D t → D (t.setNext n)

variable {t : Entry}

section

variable {y : Option Slot} {D : Entry → Prop} {s s' : State}

theorem Calm.quiet (h : Calm y D s) (hq : Quiet s s')
    (hD : ∀ x, D (s.tasks x) → D (s'.tasks x)) : Calm y D s' :=
  ⟨h.queues.quiet hq, fun x hx => hD x (h.spared x hx)⟩

/-- A change of fields that neither the queues nor `D` read. -/
theorem Calm.modify (h : Calm y D s) (hq : Quiet s (s.modify i f))
    (hD : ∀ t, D t → D (f t)) : Calm y D (s.modify i f) := by
  refine h.quiet hq fun x hx => ?_
  rw [modify_tasks]
  split
  · exact hD _ hx
  · exact hx

/-- **A stopped task is woken**: made ready, then linked. -/
theorem Calm.wake (hD : Linkless D) (h : Calm y D s) (hy : y ≠ some i)
    (hstate : (s.tasks i).state ≠ .ready) (hfused : (f (s.tasks i)).used)
    (hfstate : (f (s.tasks i)).state = .ready) :
    Calm y D (schedEnqueueReady i (s.modify i f)) := by
  have hout : Unlinked y (s.modify i f) i := (h.queues.unlinked fun hr => hstate hr.2.1).modify f
  have hrun : Runnable y (s.modify i f) i := by
    rw [Runnable, modify_self]
    exact ⟨hfused, hfstate, hy⟩
  refine ⟨hout.enqueue hrun, fun x hx => ?_⟩
  have hxi : x ≠ i := fun heq => hy (heq ▸ hx)
  rw [(schedEnqueueReady_relinked i (s.modify i f)).entries x, modify_ne hxi]
  exact hD _ _ (h.spared x hx)

theorem Entry.Stopped.not_ready (h : t.Stopped) : t.state ≠ .ready := by
  intro hr
  rw [Entry.Stopped, hr] at h
  rcases h with h | h
  · cases h
  · cases h

variable (hD : Linkless D) (h : Calm y D s)
include hD h

theorem Calm.signalEvent {event : Int}
    (hno : ∀ t, D t → ¬t.WaitsFor event) : Calm y D (taskSignalEvent event s) := by
  unfold taskSignalEvent
  split
  · exact h
  refine forSlots_inv h fun i s' h => ?_
  unfold signalSlot
  split
  · rename_i hw
    have hy : y ≠ some i := fun hy => hno _ (h.spared i hy) hw
    exact h.wake hD hy (Entry.Stopped.not_ready (.inr hw.2.1)) hw.1 rfl
  · exact h

theorem Calm.wakeStopped (hused : (s.tasks i).used)
    (hno : y = some i → ¬(s.tasks i).Stopped) : Calm y D (wakeStopped i s) := by
  unfold Task.wakeStopped
  split
  · rename_i hw
    exact h.wake hD (fun hy => hno hy hw) hw.not_ready hused rfl
  · exact h

/-- A signal other than `SIGKILL` is queued. -/
theorem Calm.queuePending {signum : Nat}
    (hpend : ∀ t m, D t → D { t with pendingSignals := m })
    (hno : y = some i → ¬(s.tasks i).Stopped) : Calm y D (queuePending i signum s) := by
  unfold Task.queuePending
  split
  · rename_i htarget
    have hused : (s.tasks i).used := by
      simp only [signalTarget, Bool.and_eq_true] at htarget
      exact htarget.1.1.1
    refine Calm.wakeStopped hD (h.modify (quiet_modify rfl rfl rfl rfl) fun t ht => hpend t _ ht) ?_ fun hy => ?_
    · rwa [modify_self]
    · rw [modify_self]
      exact hno hy
  · exact h

end

/-! ### The timer -/

/-- The timer has nothing to wake this task for. -/
def NotDue (now : UInt32) (t : Entry) : Prop :=
  ¬t.SleepDue now ∧ ¬t.TimeoutDue now ∧ ¬(t.AlarmDue now ∧ t.Stopped)

theorem notDue_linkless (now : UInt32) : Linkless (NotDue now) := fun _ _ h => h

section

variable {y : Option Slot} {now : UInt32}

section

variable (h : Calm y (NotDue now) s) (hused : (s.tasks i).used)
include h hused

theorem Calm.tickSleep : Calm y (NotDue now) (tickSleep now i s) := by
  unfold Task.tickSleep
  split
  · rename_i hdue
    have hy : y ≠ some i := fun hy => (h.spared i hy).1 hdue
    exact h.wake (notDue_linkless now) hy (Entry.Stopped.not_ready (.inl hdue.1)) hused rfl
  · exact h

theorem Calm.tickTimeout : Calm y (NotDue now) (tickTimeout now i s) := by
  unfold Task.tickTimeout
  split
  · rename_i hdue
    have hy : y ≠ some i := fun hy => (h.spared i hy).2.1 hdue
    exact h.wake (notDue_linkless now) hy (Entry.Stopped.not_ready (.inr hdue.1)) hused rfl
  · exact h

theorem Calm.tickAlarm : Calm y (NotDue now) (tickAlarm now i s) := by
  unfold Task.tickAlarm
  split
  · rename_i hdue
    have hno : y = some i → ¬(s.tasks i).Stopped := fun hy hstop => (h.spared i hy).2.2 ⟨hdue, hstop⟩
    refine Calm.wakeStopped (notDue_linkless now) ⟨?_, fun x hx => ?_⟩ ?_ fun hy => ?_
    · exact h.queues.quiet (quiet_modify rfl rfl rfl rfl)
    · rw [modify_tasks]
      split
      · -- the running task had its alarm, and is not stopped
        rename_i hxi
        subst hxi
        obtain ⟨hsleep, htimeout, -⟩ := h.spared x hx
        exact ⟨hsleep, htimeout, fun hstop => hno hx hstop.2⟩
      · exact h.spared x hx
    · rwa [modify_self]
    · rw [modify_self]
      exact hno hy
  · exact h

end

theorem Calm.onTick (h : Calm y (NotDue s.ticks) s) : Queues y (taskOnTick s) Nobody := by
  refine Calm.queues (forSlots_inv h fun i s' h => ?_)
  unfold tickSlot
  split
  · exact h
  rename_i hu
  have hused : (s'.tasks i).used := by simpa using hu
  have h₁ := tickSleep_nudged hused s.ticks
  have hused₁ := (h₁.entries i id).used.trans hused
  have h₂ := tickTimeout_nudged hused₁ s.ticks
  have hused₂ := (h₂.entries i id).used.trans hused₁
  exact ((h.tickSleep hused).tickTimeout hused₁).tickAlarm hused₂

end

/-! ## The end of a task -/

/-- The end of the task `id`, a child of `parentId`, wakes this task neither by an event nor by
    `SIGCHLD`. -/
structure Spared (id parentId : Int) (t : Entry) : Prop where
  child : ¬t.WaitsFor id
  parent : ¬t.WaitsFor parentId
  signal : t.id = parentId → ¬t.Stopped

theorem spared_linkless (id parentId : Int) : Linkless (Spared id parentId) :=
  fun _ _ h => ⟨h.child, h.parent, h.signal⟩

/-- A task that is not stopped is spared. -/
theorem spared_of_not_stopped (h : ¬t.Stopped) (id parentId : Int) : Spared id parentId t :=
  ⟨fun hw => h (.inr hw.2.1), fun hw => h (.inr hw.2.1), fun _ => h⟩

theorem Entry.not_stopped {st : TaskState} (h : t.state = st) (h₁ : st ≠ .sleeping)
    (h₂ : st ≠ .blocked) : ¬t.Stopped := by
  rintro (hs | hs)
  · exact h₁ (h.symm.trans hs)
  · exact h₂ (h.symm.trans hs)

/-- Clearing a slot, whatever the state of its task. -/
theorem Queues.clear {y : Option Slot} (h : Queues y s (Only i))
    (hused : (s.tasks i).used) : Queues y (clearTask i s) Nobody := by
  refine ((h.remove hused).modify _).settle fun hr => ?_
  have hunused := hr.1
  rw [modify_self] at hunused
  cases hunused

section

variable {y : Option Slot} {id parentId : Int}

section

variable (h : Calm y (Spared id parentId) s)
include h

theorem Calm.clear (hused : (s.tasks i).used) :
    Queues y (clearTask i s) Nobody := (h.queues.but i).clear hused

theorem Calm.zombify (hused : (s.tasks i).used) :
    Calm y (Spared id parentId) (zombifyTask i s) := by
  refine ⟨(((h.queues.but i).remove hused).modify _).settle fun hr => ?_, fun x hx => ?_⟩
  · have hstate := hr.2.1
    rw [modify_self] at hstate
    cases hstate
  rw [zombifyTask, modify_tasks, (schedRemoveFromReady_relinked i s).entries x]
  split
  · have hz : ((s.tasks x).setNext
        ((schedRemoveFromReady i s).tasks x).schedNext).zombified.state = .zombie := rfl
    exact spared_of_not_stopped (Entry.not_stopped hz (by decide) (by decide)) _ _
  · exact spared_linkless _ _ _ _ (h.spared x hx)

theorem Calm.reparent (oldParent newParent : Int) :
    Calm y (Spared id parentId) (reparentChildren oldParent newParent s) := by
  unfold reparentChildren
  split
  · exact h
  · refine forSlots_inv h (fun j s' h => ?_)
    split
    · exact h.modify (quiet_modify rfl rfl rfl rfl) fun t ht => ⟨ht.child, ht.parent, ht.signal⟩
    · exact h

theorem Calm.notify {parent : Option Slot} (hparent : ∀ p, parent = some p → (s.tasks p).id = parentId) :
    Calm y (Spared id parentId) (notifyEnd id parent s) := by
  unfold notifyEnd
  split
  · exact h
  · rename_i p
    split
    · refine h.queuePending (spared_linkless _ _) (fun t m ht => ⟨ht.child, ht.parent, ht.signal⟩) ?_
      exact fun hy => (h.spared p hy).signal (hparent p rfl)
    · exact h

/-- The event of the task or of its parent wakes nobody who is spared. -/
theorem Calm.endEvent {event : Int}
    (he : event = id ∨ event = parentId) : Calm y (Spared id parentId) (taskSignalEvent event s) := by
  refine h.signalEvent (spared_linkless _ _) fun t ht => ?_
  rcases he with rfl | rfl
  · exact ht.child
  · exact ht.parent

theorem Calm.reapForParent {p : Slot} (hused : (s.tasks i).used)
    (hevent : (s.tasks p).blockedEventId = id ∨ (s.tasks p).blockedEventId = parentId) :
    Queues y (reapForParent i p s) Nobody := by
  obtain ⟨m, f, u, heq⟩ := reapForParent_eq i p s
  have hphys : Calm y (Spared id parentId) (s.setPhys m) := h.quiet (quiet_setPhys s m) fun _ hx => hx
  have hanswer : Calm y (Spared id parentId) ((s.setPhys m).modify p
      (fun t => { t with frame := f, waitpidStatusUptr := u })) :=
    hphys.modify (quiet_modify rfl rfl rfl rfl) fun t ht => ⟨ht.child, ht.parent, ht.signal⟩
  rw [heq]
  refine (hanswer.endEvent hevent).clear ?_
  rw [((taskSignalEvent_nudged ..).entries i fun h => h).used, modify_tasks]
  split
  · exact hused
  · exact hused

theorem Calm.settle {parent : Option Slot} (hused : (s.tasks i).used) (hid : (s.tasks i).id = id)
    (hparent : ∀ p, parent = some p → (s.tasks p).id = parentId) :
    Queues y (settleWithParent i parent parentId s) Nobody := by
  unfold settleWithParent
  split
  · exact h.clear hused
  rename_i p
  split
  · rename_i hwait
    refine h.reapForParent hused ?_
    rw [← hid, ← hparent p rfl]
    exact hwait.2
  · split
    · exact ((h.zombify hused).endEvent (.inr rfl)).queues
    · exact h.clear hused

end

/-- **The end of a task** leaves the queues consistent, if the running task is spared. -/
theorem completeTask_queues (h : Queues y s (Only i)) (hused : (s.tasks i).used)
    (hidle : (s.tasks i).id ≠ s.idleTaskId)
    (hstate : (s.tasks i).state = .finished ∨ (s.tasks i).state = .cancelled)
    (hspared : ∀ x, y = some x → x ≠ i → Spared (s.tasks i).id (s.tasks i).parentId (s.tasks x)) :
    Queues y (completeTask i s) Nobody := by
  have hstop : ¬(s.tasks i).Stopped := by
    rcases hstate with hs | hs
    · exact Entry.not_stopped hs (by decide) (by decide)
    · exact Entry.not_stopped hs (by decide) (by decide)
  have hready : (s.tasks i).state ≠ .ready := by
    rcases hstate with hs | hs
    · rw [hs]; decide
    · rw [hs]; decide
  have hlink := schedRemoveFromReady_relinked i s
  have hcalm : Calm y (Spared (s.tasks i).id (s.tasks i).parentId) (schedRemoveFromReady i s) := by
    refine ⟨(h.remove hused).settle fun hr => hready ((hlink.runnable i).mp hr).2.1, ?_⟩
    intro x hx
    rw [hlink.entries x]
    refine spared_linkless _ _ _ _ ?_
    by_cases hxi : x = i
    · rw [hxi]
      exact spared_of_not_stopped hstop _ _
    · exact hspared x hx hxi
  obtain ⟨fg, heq⟩ := completeTask_eq hused hidle
  have hfg : Calm y (Spared (s.tasks i).id (s.tasks i).parentId)
      ((schedRemoveFromReady i s).setForeground fg) :=
    hcalm.quiet (quiet_setForeground _ fg) fun _ hx => hx
  have htold : Calm y (Spared (s.tasks i).id (s.tasks i).parentId) (announceEnd i fg s) :=
    (hfg.reparent _ _).endEvent (.inl rfl)
  have hkin := announceEnd_stirred i fg s
  rw [heq]
  generalize announceEnd i fg s = s₁ at htold hkin
  have hparent : ∀ p, parentSlot s₁ (s.tasks i).parentId = some p →
      (s₁.tasks p).id = (s.tasks i).parentId := by
    intro p hp
    unfold parentSlot at hp
    split at hp
    · exact (findTaskById_some hp).2
    · cases hp
  have hnotify := (notifyEnd_nudged (s.tasks i).id (parentSlot s₁ (s.tasks i).parentId) s₁).toStirred
  have hself := (hkin.trans hnotify).entries i fun h => h
  refine (htold.notify hparent).settle (hself.used.trans hused) hself.id ?_
  intro p hp
  exact (hnotify.entries p fun h => h).id.trans (hparent p hp)

end

/-! ## Switches -/

/-- What a switch or a signal writes into the running task, the queues do not see. -/
theorem Queues.switches {s' : State} {c : Slot} (h : Queues (some c) s Nobody)
    (hs : Switches c s s') : Queues (some c) s' Nobody := by
  have h' := (h.quiet (quiet_setPhys s s'.phys)).modify_running fun _ => s'.tasks c
  rwa [hs.eq] at h'

/-- **The running task is left.**  The whole switch is made as if it did not run any more. -/
theorem scheduleBackToIdle_queues {c : Slot} (hcur : s.current = some c)
    (hused : (s.tasks c).used) (h : Queues (some c) s Nobody) (esp : Nat) :
    Consistent (scheduleBackToIdle esp s) := by
  have hout : Unlinked none (s.modify c fun t => { t with savedRsp := esp }) c :=
    ((h.unlinked fun hr => hr.2.2 rfl).modify _).stops
  have hself : (s.modify c fun t => { t with savedRsp := esp }).tasks c
      = { s.tasks c with savedRsp := esp } := modify_self ..
  rcases scheduleBackToIdle_cases hcur esp with ⟨heq, -⟩ | ⟨heq, -, hend, hidle⟩ | ⟨heq, hready⟩
  · rw [heq]
    refine Queues.setCurrent ((hout.modify _).enqueue ?_) none
    rw [Runnable, modify_self, hself]
    exact ⟨hused, rfl, (Option.some_ne_none c).symm⟩
  · rw [heq]
    refine Queues.setCurrent (completeTask_queues hout.queues ?_ ?_ ?_ fun x hx => by cases hx) none
    · rwa [hself]
    · rwa [hself]
    · rwa [hself]
  · rw [heq]
    refine Queues.setCurrent (hout.settle fun hr => hready ?_) none
    rw [Runnable, hself] at hr
    exact hr.2.1

/-- **The next task is taken.** -/
theorem scheduleFromIdle_queues (hcur : s.current = none) (h : Consistent s) :
    Consistent (scheduleFromIdle s) := by
  unfold scheduleFromIdle
  split
  · exact h
  rename_i i hsel
  rw [Consistent, hcur] at h
  obtain ⟨p, -, hp⟩ := List.exists_of_findSome?_eq_some hsel
  obtain ⟨hout, hlevel⟩ := h.dequeue hp
  rw [hlevel]
  have hstart := (hout.starts.setCurrent (some i)).modify fun t => { t with state := .running }
  exact hstart.settle fun hr => hr.2.2 rfl

/-! ## Signals, priorities and cancel requests -/

/-- A signal other than `SIGKILL`. -/
theorem taskSendSignal_queues (h : Consistent s) (id : Int) {signum : Nat}
    (hsig : signum ≠ sigkill)
    (hterm : ∀ i, s.current = some i → findTaskById s id = some i → ¬(s.tasks i).Stopped) :
    Consistent (taskSendSignal id signum s).2 := by
  have hpend : ∀ i, findTaskById s id = some i → Consistent (queuePending i signum s) := by
    intro i hi
    have hcalm : Calm s.current (fun _ => True) s := ⟨h, fun _ _ => trivial⟩
    rw [Consistent, (queuePending_nudged i signum s).current]
    exact (hcalm.queuePending (fun _ _ _ => trivial) (fun _ _ _ => trivial)
      (fun hc => hterm i hc hi)).queues
  fun_cases taskSendSignal id signum s with
  | case2 hvalid i hi =>
    unfold taskQueueSignalLocked
    split
    · exact hpend i hi
    · exact h
  | _ => exact h

/-- The mark of a kill leaves the task linked where it was, and no longer ready. -/
theorem killed_queues (h : Consistent s) (i : Slot) (signum : Nat) :
    Queues s.current (s.modify i fun t => t.killed signum) (Only i) := by
  obtain ⟨q, hq⟩ := h.but i
  refine ⟨q, fun p => (hq.holds p).congr fun a _ => modify_field Entry.schedNext rfl a,
    fun p j hj => (modify_field Entry.priority rfl j).trans (hq.level p j hj), fun j hj => ?_⟩
  rw [Runnable, modify_ne hj]
  exact hq.linked j hj

/-- `SIGKILL` to a task that is not running. -/
theorem slain_queues (h : Consistent s) (htarget : signalTarget s i sigkill)
    (hspared : ∀ x, s.current = some x → x ≠ i → Spared (s.tasks i).id (s.tasks i).parentId (s.tasks x)) :
    Consistent (completeTask i (s.modify i fun t => t.killed sigkill)) := by
  simp only [signalTarget, Bool.and_eq_true, decide_eq_true_eq] at htarget
  have hself : (s.modify i fun t => t.killed sigkill).tasks i = (s.tasks i).killed sigkill :=
    modify_self ..
  have hused : ((s.modify i fun t => t.killed sigkill).tasks i).used := by
    rw [hself]
    exact htarget.1.1.1
  have hidle : ((s.modify i fun t => t.killed sigkill).tasks i).id
      ≠ (s.modify i fun t => t.killed sigkill).idleTaskId := by
    rw [hself]
    exact htarget.2
  rw [Consistent, (completeTask_ends hused hidle).others.current]
  refine completeTask_queues (killed_queues h i sigkill) hused hidle ?_ fun x hx hxi => ?_
  · rw [hself]
    exact .inr rfl
  · rw [hself, modify_ne hxi]
    exact hspared x hx hxi

theorem cancelSlot_queues (h : Consistent s)
    (hused : (s.tasks i).used) (hno : s.current = some i → ¬(s.tasks i).Stopped) :
    Consistent (cancelSlot i s) := by
  rw [Consistent, (cancelSlot_nudged hused).current]
  have hcalm : Calm s.current (fun _ => True)
      (s.modify i fun t => { t with cancelRequested := true }) :=
    ⟨Queues.quiet h (quiet_modify rfl rfl rfl rfl), fun _ _ => trivial⟩
  refine (hcalm.wakeStopped (fun _ _ _ => trivial) ?_ fun hy => ?_).queues
  · rwa [modify_self]
  · rw [modify_self]
    exact hno hy

theorem taskSetPriority_queues (h : Consistent s) (id : Int) (priority : Priority)
    (hno : ∀ i, s.current = some i → findTaskById s id = some i → (s.tasks i).priority ≠ priority →
      (s.tasks i).state ≠ .ready) :
    Consistent (taskSetPriority id priority s).2 := by
  fun_cases taskSetPriority id priority s with
  | case5 _ i hi _ hprio hready =>
    have hused := (findTaskById_some hi).1
    have hlink := schedRemoveFromReady_relinked i s
    show Consistent (schedEnqueueReady i ((schedRemoveFromReady i s).modify i
      (fun t => { t with priority })))
    rw [Consistent, (schedEnqueueReady_relinked ..).stirred.current, modify_current,
      hlink.stirred.current]
    refine (((Queues.but h i).remove hused).modify _).enqueue ?_
    rw [Runnable, modify_self, hlink.entries i]
    exact ⟨hused, hready, fun hc => hno i hc hi hprio hready⟩
  | case6 _ i hi _ hprio hready =>
    have hout : Unlinked s.current s i := h.unlinked fun hr => hready hr.2.1
    have hlevel : Queues s.current (s.modify i fun t => { t with priority }) Nobody := by
      refine (hout.modify _).settle fun hr => ?_
      rw [Runnable, modify_self] at hr
      exact hready hr.2.1
    exact hlevel
  | _ => exact h

/-! ## Creation -/

theorem Unlinked.fill {y : Option Slot} (h : Unlinked y s i) (b : Entry) :
    Unlinked y (s.fill i b) i := (h.modify fun _ => b).takeId

variable {c : Call}

/-- What a fork takes from the running task, the queues do not see. -/
theorem Parted.consistent {s₀ : State} (h₀ : Parted s c s₀) (h : Consistent s) :
    Consistent s₀ ∧ s₀.current = s.current := by
  cases h₀ with
  | same => exact ⟨h, rfl⟩
  | fork e p hcur =>
    refine ⟨?_, rfl⟩
    rw [Consistent, modify_current, hcur]
    rw [Consistent, hcur] at h
    exact h.modify_running _

theorem Creation.consistent {r : Int × State} (hnew : Creation s c r) (h : Consistent s)
    (halive : ∀ x, s.current = some x → (s.tasks x).used) : Consistent r.2 := by
  have hother : ∀ i, findFreeSlot s = some i → s.current ≠ some i := fun i hfree hc =>
    absurd ((findFreeSlot_unused hfree).symm.trans (halive i hc)) Bool.noConfusion
  have hout : ∀ {s₀}, Parted s c s₀ → ∀ i, findFreeSlot s = some i → ∀ b,
      Unlinked s.current (s₀.fill i b) i := by
    intro s₀ h₀ i hfree b
    obtain ⟨hs₀, hcur⟩ := h₀.consistent h
    have hfree₀ : ¬Runnable s.current s₀ i := fun hr => by
      have hused := hr.1
      cases h₀ with
      | same => exact absurd ((findFreeSlot_unused hfree).symm.trans hused) Bool.noConfusion
      | fork e p hp =>
        rw [modify_ne fun heq : i = p => hother i hfree (heq ▸ hp)] at hused
        exact absurd ((findFreeSlot_unused hfree).symm.trans hused) Bool.noConfusion
    rw [Consistent, hcur] at hs₀
    exact (hs₀.unlinked hfree₀).fill b
  have hcurrent : ∀ {s₀}, Parted s c s₀ → ∀ i b, (s₀.fill i b).current = s.current :=
    fun h₀ i b => (h₀.consistent h).2
  cases hnew with
  | refused h₀ => exact (h₀.consistent h).1
  | @born s₀ h₀ i hfree b hb fg =>
    have hlinked : Queues s.current (schedEnqueueReady i ((s₀.fill i b).setForeground fg)) Nobody := by
      obtain ⟨q, hq, hno⟩ := hout h₀ i hfree b
      refine Unlinked.enqueue ⟨q, ⟨hq.holds, hq.level, hq.linked⟩, hno⟩ ?_
      rw [Runnable, setForeground_tasks, fill_self]
      exact ⟨hb.newborn.used, hb.newborn.state, hother i hfree⟩
    rw [Consistent, (schedEnqueueReady_relinked ..).stirred.current]
    exact (hcurrent h₀ i b).symm ▸ hlinked
  | aborted i hfree b hused hb =>
    rw [Consistent, (clearTask_stirred i _).current]
    refine (hout (.same c) i hfree b).queues.clear ?_
    rwa [fill_self]
  | unforked h₀ i hfree b hb =>
    rw [Consistent, hcurrent h₀]
    refine (hout h₀ i hfree b).settle fun hr => ?_
    rw [Runnable, fill_self, hb.unused] at hr
    cases hr.1

/-! ## Waits and reaping -/

theorem Consistent.clear (h : Consistent s)
    (hused : (s.tasks i).used) : Consistent (clearTask i s) := by
  rw [Consistent, (clearTask_stirred i s).current]
  exact (Queues.but h i).clear hused

/-- The running task changes its own entry. -/
theorem Consistent.modify (h : Consistent s) {c : Slot} (hcur : s.current = some c)
    (f : Entry → Entry) : Consistent (s.modify c f) := by
  rw [Consistent, hcur] at h
  rw [Consistent, modify_current, hcur]
  exact h.modify_running f

theorem Consistent.onCurrent (h : Consistent s) (f : Entry → Entry) :
    Consistent (s.onCurrent f) := by
  unfold State.onCurrent
  split
  · exact h
  · rename_i hcur
    exact h.modify hcur f

/-! ## Runs -/

/-- The call would make the running task `x` ready again, before the switch that leaves it. -/
def Reaches (s : State) (x : Slot) : Call → Prop
  | .tick => ¬NotDue (s.ticks + 1) (s.tasks x)
  | .signalEvent event => (s.tasks x).WaitsFor event
  | .requestCancel => (s.tasks x).Stopped
  | .requestForegroundCancel =>
    findTaskById s s.foregroundTaskId = some x ∧ (s.tasks x).Stopped
  | .setPriority id priority =>
    findTaskById s id = some x ∧ (s.tasks x).priority ≠ priority ∧ (s.tasks x).state = .ready
  | .sendSignal id signum =>
    ∃ i, findTaskById s id = some i ∧
      if signum = sigkill then
        x ≠ i ∧ (s.tasks i).state ≠ .running ∧
          ¬Spared (s.tasks i).id (s.tasks i).parentId (s.tasks x)
      else x = i ∧ (s.tasks x).Stopped
  | _ => False

/-- The running task has its slot, and the call does not reach it. -/
structure Legal (s : State) (c : Call) : Prop where
  alive : ∀ x, s.current = some x → (s.tasks x).used
  unreached : ∀ x, s.current = some x → ¬Reaches s x c

theorem taskSetForeground_quiet (id : Int) (s : State) : Quiet s (taskSetForeground id s).2 := by
  have hclear : Quiet s (clearForeground s) := by
    unfold clearForeground
    split
    · exact .refl s
    · split
      · exact quiet_setForeground ..
      · exact (quiet_modify rfl rfl rfl rfl).trans (quiet_setForeground ..)
  refine hclear.trans ?_
  fun_cases taskSetForeground id s with
  | case3 => exact (quiet_modify rfl rfl rfl rfl).trans (quiet_setForeground ..)
  | _ => exact .refl _

theorem taskClearCancel_quiet (s : State) : Quiet s (taskClearCancel s) := by
  unfold taskClearCancel
  dsimp only
  split
  · exact .refl s
  · exact quiet_modify rfl rfl rfl rfl

theorem taskSetOutputVc_quiet (id vc : Int) (s : State) : Quiet s (taskSetOutputVc id vc s) := by
  unfold taskSetOutputVc
  split
  · exact .refl s
  · exact quiet_modify rfl rfl rfl rfl

/-- The calls that wake and signal. -/
theorem nudge_consistent (hc : c.nudges) (h : Consistent s)
    (hl : Legal s c) : Consistent (step s c).2 := by
  cases c with
  | signalEvent event =>
    show Consistent (taskSignalEvent event s)
    rw [Consistent, (taskSignalEvent_nudged event s).current]
    have hcalm : Calm s.current (fun t => ¬t.WaitsFor event) s := ⟨h, fun x hx => hl.unreached x hx⟩
    exact (hcalm.signalEvent (fun _ _ ht => ht) fun _ ht => ht).queues
  | requestCancel =>
    show Consistent (taskRequestCancel s)
    unfold taskRequestCancel
    split
    · exact h
    · rename_i i hcur
      exact cancelSlot_queues h (hl.alive i hcur) fun hc => hl.unreached i hc
  | requestForegroundCancel =>
    show Consistent (taskRequestForegroundCancel s)
    fun_cases taskRequestForegroundCancel s with
    | case3 _ i hfind =>
      exact cancelSlot_queues h (findTaskById_some hfind).1
        (fun hc hstop => hl.unreached i hc ⟨hfind, hstop⟩)
    | _ => exact h
  | clearCancel => exact h.quiet (taskClearCancel_quiet s)
  | setPriority id priority =>
    exact taskSetPriority_queues h id priority
      (fun i hc hi hp hready => hl.unreached i hc ⟨hi, hp, hready⟩)
  | setOutputVc id vc => exact h.quiet (taskSetOutputVc_quiet id vc s)
  | setForeground id => exact h.quiet (taskSetForeground_quiet id s)
  | sendSignal id signum =>
    have hsig : signum ≠ sigkill := of_decide_eq_true hc
    refine taskSendSignal_queues h id hsig fun i hc hi hstop => hl.unreached i hc ⟨i, hi, ?_⟩
    rw [if_neg hsig]
    exact ⟨rfl, hstop⟩
  | _ => cases hc

/-- **The step lemma.** -/
theorem step_consistent (h : Consistent s) (hl : Legal s c) : Consistent (step s c).2 := by
  by_cases hnudge : c.nudges
  · exact nudge_consistent hnudge h hl
  -- what a switch away from the running task starts from
  have hswitch : ∀ i, s.current = some i → ((deliverSignals i s).tasks i).used ∧
      (deliverSignals i s).current = some i ∧ Queues (some i) (deliverSignals i s) Nobody := by
    intro i hcur
    have hdel := deliverSignals_switches i s
    rw [Consistent, hcur] at h
    exact ⟨hdel.self.used.trans (hl.alive i hcur), hdel.current.trans hcur, h.switches hdel⟩
  have hout := step_outcome s c
  generalize (step s c).2 = s' at hout
  cases hout with
  | same => exact h
  | nudged hc => exact absurd hc hnudge
  | ticked hc =>
    rw [hc] at hl
    show Consistent (taskOnTick { s with ticks := s.ticks + 1 })
    rw [Consistent, (taskOnTick_nudged _).current]
    refine Calm.onTick ⟨?_, fun x hx => ?_⟩
    · exact Queues.quiet h ⟨rfl, rfl, rfl, fun _ => rfl, fun _ => rfl, fun _ => rfl, rfl⟩
    · exact Classical.not_not.mp (hl.unreached x hx)
  | own i hc hcur f => exact h.modify hcur f
  | dispatched esp hc hcur => exact scheduleFromIdle_queues hcur h
  | left i esp hc hcur =>
    obtain ⟨hused, hcur', hqueues⟩ := hswitch i hcur
    exact scheduleBackToIdle_queues hcur' hused hqueues esp
  | stayed i hc hcur =>
    obtain ⟨-, hcur', hqueues⟩ := hswitch i hcur
    rwa [Consistent, hcur']
  | marked i id hc hfind htarget hrun =>
    -- the running task is in no queue
    have hout : Unlinked s.current s i := h.unlinked fun hr => by
      rw [Runnable, hrun] at hr
      cases hr.2.1
    refine (hout.modify _).settle fun hr => ?_
    rw [Runnable, modify_self] at hr
    cases hr.2.1
  | slain i id hc hfind htarget hrun =>
    rw [hc] at hl
    refine slain_queues h htarget fun x hx hxi => ?_
    refine Classical.not_not.mp fun hno => hl.unreached x hx ⟨i, hfind, ?_⟩
    exact ⟨hxi, hrun, hno⟩
  | reaped k hused => exact h.clear hused
  | collected k hc hused hz m r => exact ((h.clear hused).quiet (quiet_setPhys _ m)).onCurrent _
  | swept parent =>
    refine forSlots_inv h fun i s' h => ?_
    split
    · rename_i hz
      exact h.clear hz.1
    · exact h
  | created hnew => exact hnew.consistent h hl.alive
  | registered pid => exact h.quiet ⟨rfl, rfl, rfl, fun _ => rfl, fun _ => rfl, fun _ => rfl, rfl⟩
  | machine pages phys =>
    exact h.quiet ⟨rfl, rfl, rfl, fun _ => rfl, fun _ => rfl, fun _ => rfl, rfl⟩

theorem consistent_init (b : Boot) : Consistent (taskSystemInit b) := by
  have hblank : Unlinked none ((blankState b).modify 0 (idleEntry b)).takeId 0 := by
    have hempty : Queues none (blankState b) Nobody :=
      ⟨fun _ => [], fun _ => holds_nil _, fun _ _ hmem => absurd hmem List.not_mem_nil,
        fun _ _ => ⟨fun hmem => absurd hmem List.not_mem_nil, fun hr => by cases hr.1⟩⟩
    exact ((hempty.unlinked fun hr => by cases hr.1).modify _).takeId
  have hrun : Runnable none ((blankState b).modify 0 (idleEntry b)).takeId 0 := by
    exact ⟨rfl, rfl, (Option.some_ne_none _).symm⟩
  obtain ⟨q, hq⟩ := hblank.enqueue hrun
  exact ⟨q, hq.holds, hq.level, hq.linked⟩

/-- **The ready-queue invariant.**  In every run whose calls do not reach a running task that has
    stopped, the ready queues are consistent in every state. -/
theorem ready_queues_consistent (b : Boot) (calls : List Call)
    (hok : Guarded step Legal (taskSystemInit b) calls) :
    Consistent (exec step (taskSystemInit b) calls).2 := by
  have hstep : ∀ s (c : Call), Consistent s → Legal s c → Consistent (step s c).2 :=
    fun s c h hl => step_consistent h hl
  exact exec_inv hstep calls _ (consistent_init b) hok

/-- What a consistent queue offers to the next switch. -/
theorem Consistent.head_runnable {p : Priority} (h : Consistent s)
    (hhead : s.head p = some i) : Runnable s.current s i := by
  obtain ⟨q, hq⟩ := h
  have hmem : i ∈ q p := List.mem_of_mem_head? ((hq.holds p).head_eq.symm.trans hhead)
  rw [← hq.level p i hmem] at hmem
  exact (hq.linked i id).mp hmem

/-- The queue of a runnable task is not empty. -/
theorem Consistent.head_ne_none (h : Consistent s) (hi : Runnable s.current s i) :
    s.head (s.tasks i).priority ≠ none := by
  intro hhead
  obtain ⟨q, hq⟩ := h
  have hmem := (hq.linked i id).mpr hi
  rw [List.head?_eq_none_iff.mp ((hq.holds _).head_eq.symm.trans hhead)] at hmem
  cases hmem

/-- **The next task.**  In every state of such a run in which a task `j` is runnable, the scheduler selects a task, one
    that is runnable and has a priority at least as high. -/
theorem next_task_highest (b : Boot) (calls : List Call) (hok : Guarded step Legal (taskSystemInit b) calls)
    (hs : (exec step (taskSystemInit b) calls).2 = s) (j : Slot) (hj : Runnable s.current s j) :
    ∃ i, selectNextReadyTask s = some i ∧ Runnable s.current s i ∧
      (s.tasks i).priority.ctorIdx ≤ (s.tasks j).priority.ctorIdx := by
  have h : Consistent s := hs ▸ exec_inv (fun _ _ h hl => step_consistent h hl) calls _ (consistent_init b) hok
  have hmem : (s.tasks j).priority ∈ [Priority.high, .normal, .low, .idle] := by
    cases (s.tasks j).priority <;> decide
  cases hselect : selectNextReadyTask s with
  | none => exact absurd (List.findSome?_eq_none_iff.mp hselect _ hmem) (h.head_ne_none hj)
  | some i =>
    obtain ⟨before, p, behind, hsplit, hhead, hempty⟩ := List.findSome?_eq_some_iff.mp hselect
    refine ⟨i, rfl, h.head_runnable hhead, ?_⟩
    have hsorted : [Priority.high, .normal, .low, .idle].Pairwise (·.ctorIdx ≤ ·.ctorIdx) := by decide
    rw [hsplit] at hmem hsorted
    obtain ⟨q, hq⟩ := id h
    rw [hq.level p i (List.mem_of_mem_head? ((hq.holds p).head_eq.symm.trans hhead))]
    -- the queues before that of `i` are empty, so `j` is in none of them
    rcases List.mem_append.mp hmem with hbefore | hrest
    · exact absurd (hempty _ hbefore) (h.head_ne_none hj)
    · rcases List.mem_cons.mp hrest with heq | hbehind
      · rw [heq]
      · exact (List.pairwise_cons.mp (List.pairwise_append.mp hsorted).2.1).1 _ hbehind

/-! ## Concrete runs -/

instance (id parentId : Int) (t : Entry) : Decidable (Spared id parentId t) :=
  decidable_of_iff (¬t.WaitsFor id ∧ ¬t.WaitsFor parentId ∧ (t.id = parentId → ¬t.Stopped))
    ⟨fun h => ⟨h.1, h.2.1, h.2.2⟩, fun h => ⟨h.child, h.parent, h.signal⟩⟩

instance (now : UInt32) (t : Entry) : Decidable (NotDue now t) :=
  inferInstanceAs (Decidable (_ ∧ _ ∧ _))

instance (s : State) (x : Slot) : (c : Call) → Decidable (Reaches s x c)
  | .tick => inferInstanceAs (Decidable (¬NotDue (s.ticks + 1) (s.tasks x)))
  | .signalEvent event => inferInstanceAs (Decidable ((s.tasks x).WaitsFor event))
  | .requestCancel => inferInstanceAs (Decidable (s.tasks x).Stopped)
  | .requestForegroundCancel => inferInstanceAs (Decidable (_ ∧ _))
  | .setPriority _ _ => inferInstanceAs (Decidable (_ ∧ _ ∧ _))
  | .sendSignal id signum => inferInstanceAs (Decidable (∃ i, findTaskById s id = some i ∧
      if signum = sigkill then
        x ≠ i ∧ (s.tasks i).state ≠ .running ∧
          ¬Spared (s.tasks i).id (s.tasks i).parentId (s.tasks x)
      else x = i ∧ (s.tasks x).Stopped))
  | .scheduleOnTimer _ | .scheduleOnSyscall _ | .spawn _ | .spawnUser _ | .fork _ => .isFalse id
  | .exec _ => .isFalse id
  | .exit _ | .sleep _ | .yield | .waitEvent _ | .waitEventTimeout .. | .clearCancel => .isFalse id
  | .setOutputVc .. | .setForeground _ | .setSignalHandler .. | .sigprocmask .. => .isFalse id
  | .alarm _ | .setitimer .. | .setErrno _ | .setFdRlimit .. | .setUid _ | .setGid _ => .isFalse id
  | .setGroups .. | .forceIdentity .. | .waitId _ | .waitpid .. | .reapZombiesFor _ => .isFalse id
  | .setInitPid _ | .mmap _ | .munmap .. | .fds _ | .shm _ => .isFalse id
  | .resolvePages _ | .store _ => .isFalse id

instance (s : State) (c : Call) : Decidable (Legal s c) :=
  decidable_of_iff ((∀ x, s.current = some x → (s.tasks x).used = true) ∧
      ∀ x, s.current = some x → ¬Reaches s x c)
    ⟨fun h => ⟨h.1, h.2⟩, fun h => ⟨h.alive, h.unreached⟩⟩

/-- A job in the foreground. -/
def quietJob : SpawnArgs where
  name := ['j']
  step := 1
  dataSize := 0
  foreground := true
  stack := 0x60000
  data := 0

/-- The machine runs a program and a job, which sleeps, is woken by the timer, is given another
    priority and is killed. -/
def ordinaryDay : List Call :=
  [.spawnUser quietProgram, .spawn quietJob, .scheduleOnTimer 0, .sleep 2, .scheduleOnSyscall 0,
    .scheduleOnTimer 0, .tick, .tick, .setPriority 3 .high, .scheduleOnTimer 0, .sendSignal 3 9]

theorem ready_queues_consistent_ordinaryDay : Guarded step Legal (taskSystemInit quietBoot) ordinaryDay ∧
      Consistent (exec step (taskSystemInit quietBoot) ordinaryDay).2 := by
  have hok : Guarded step Legal (taskSystemInit quietBoot) ordinaryDay := by decide +kernel
  exact ⟨hok, ready_queues_consistent quietBoot ordinaryDay hok⟩

instance (y : Option Slot) (s : State) (i : Slot) : Decidable (Runnable y s i) :=
  inferInstanceAs (Decidable (_ ∧ _ ∧ _))

/-- Before the job is killed it is ready, with the higher priority, and so are the program and the idle task. -/
theorem next_task_highest_ordinaryDay : Guarded step Legal (taskSystemInit quietBoot) (ordinaryDay.take 10) ∧
    let s := (exec step (taskSystemInit quietBoot) (ordinaryDay.take 10)).2
    (Runnable s.current s 0 ∧ Runnable s.current s 1) ∧ ∃ i, selectNextReadyTask s = some i ∧ i = 2 ∧
      Runnable s.current s i ∧ (s.tasks i).priority.ctorIdx ≤ (s.tasks 1).priority.ctorIdx := by
  have hok : Guarded step Legal (taskSystemInit quietBoot) (ordinaryDay.take 10) := by decide +kernel
  have hselect : selectNextReadyTask (exec step (taskSystemInit quietBoot) (ordinaryDay.take 10)).2 = some 2 := by
    decide +kernel
  refine ⟨hok, by decide +kernel, ?_⟩
  obtain ⟨i, hi, hrest⟩ := next_task_highest quietBoot _ hok rfl 1 (by decide +kernel)
  exact ⟨i, hi, Option.some.inj (hi.symm.trans hselect), hrest⟩

/-- A job waits for an event; before the switch Ctrl-C wakes it, and it goes to sleep. -/
def interruptedWait : List Call :=
  [.spawn quietJob, .scheduleOnTimer 0, .waitEvent 7, .requestForegroundCancel, .sleep 100,
    .scheduleOnSyscall 0]

/-- **A sleeping task in a ready queue.**  After `interruptedWait` the job is asleep for a hundred
    ticks and first in the queue of its priority; the next switch runs it, with no tick passed. -/
theorem ready_queue_holds_sleeper : ¬Consistent (exec step (taskSystemInit quietBoot) interruptedWait).2 ∧
      ((exec step (taskSystemInit quietBoot) interruptedWait).2.tasks 1).state = .sleeping ∧
      (exec step (taskSystemInit quietBoot) interruptedWait).2.head .normal = some 1 ∧
      ((exec step (taskSystemInit quietBoot) (interruptedWait ++ [.scheduleOnTimer 0])).2.tasks
        1).state = .running := by
  have hasleep : ((exec step (taskSystemInit quietBoot) interruptedWait).2.tasks 1).state
      = .sleeping := by decide +kernel
  have hhead : (exec step (taskSystemInit quietBoot) interruptedWait).2.head .normal = some 1 := by
    decide +kernel
  refine ⟨fun h => ?_, hasleep, hhead, by decide +kernel⟩
  exact absurd (hasleep.symm.trans (h.head_runnable hhead).2.1) (by decide)

end Lyth.Task
