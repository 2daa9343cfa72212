/-
  Kernel message queues (`kernel/mqueue.c`).

  A table of `MQ_MAX_QUEUES` slots.  A used slot has an id, drawn from one counter, and a ring of at
  most `max_messages` messages kept in one flat block of `max_messages * msg_size` bytes; message `i`
  of the ring is the first `lengths[i]` bytes of its `msg_size`-byte cell.

  1. **Program** — `mqueueCreate`, `mqueueSend`, `mqueueReceive`, `mqueueUnlink`, over the table and
     the counter.  `kmalloc`'s answer is an argument of `mqueueCreate`.

  2. **Specification** (`Spec`) — a map from ids to bounded FIFOs of byte strings.

  3. **Refinement** — `contents` reads the FIFO of an id off the table.  THE CATCH is that the id of
     a new queue is `next_queue_id++` on a 32-bit `int`: ids are unique only as long as the counter
     does not come round to one still in use, and `mqueue_find` takes the first slot that matches.
     `FreshId` is the condition that it has not; runs that meet it refine the specification
     (`mqueue_refines_fifos`), and a run that does not loses a message (`mqueue_id_wraps`).
-/
import Lyth.Lib.Ring
import Lyth.Lib.Run
import Lyth.Lib.Table
import Lyth.Lib.Word

namespace Lyth.Mqueue

open Run Lyth.Ring Table Word Function

/-! ## The data of `mqueue.c` -/

abbrev mqMaxQueues : Nat := 16
def mqMaxMessages : Nat := 32
def mqMaxMessageSize : Nat := 256
def mqEFull : Int := -2
def mqEEmpty : Int := -3

/-- `mqueue_t`; `storage` is `none` for the null pointer. -/
structure Queue where
  used : Bool
  id : Int
  maxMessages : Nat
  msgSize : Nat
  head : Nat
  tail : Nat
  count : Nat
  lengths : Nat → Nat
  storage : Option (Nat → UInt8)

/-- The two static variables of `mqueue.c`. -/
structure State where
  queues : Fin mqMaxQueues → Queue
  nextQueueId : Int

/-- A slot as `mqueue_init` leaves it. -/
def emptySlot : Queue where
  used := false
  id := 0
  maxMessages := 0
  msgSize := 0
  head := 0
  tail := 0
  count := 0
  lengths := fun _ => 0
  storage := none

/-- `mqueue_init`. -/
def mqueueInit : State := { queues := fun _ => emptySlot, nextQueueId := 1 }

def State.setQueue (s : State) (i : Fin mqMaxQueues) (q : Queue) : State :=
  { s with queues := update s.queues i q }

/-- What a call answers: its return value, the bytes stored in the caller's buffer, and what it wrote
    to `received_size_out`. -/
structure Answer where
  value : Int
  bytes : List UInt8
  sizeOut : Option Nat
deriving DecidableEq

/-- An answer that is a return value only. -/
def Answer.code (value : Int) : Answer := { value, bytes := [], sizeOut := none }

/-! ## The operations -/

/-- `mqueue_zero_memory` on the `size` bytes at `off`. -/
def mqueueZeroMemory (mem : Nat → UInt8) (off : Nat) : Nat → (Nat → UInt8)
  | 0 => mem
  | size + 1 => update (mqueueZeroMemory mem off size) (off + size) 0

/-- `mqueue_copy_memory` of `size` bytes of `src` to `off`. -/
def mqueueCopyMemory (mem : Nat → UInt8) (off : Nat) (src : Nat → UInt8) : Nat → (Nat → UInt8)
  | 0 => mem
  | size + 1 => update (mqueueCopyMemory mem off src size) (off + size) (src size)

/-- `mqueue_find`: the first used slot with the id. -/
def mqueueFind (s : State) (queueId : Int) : Option (Fin mqMaxQueues) :=
  firstIdx fun i => (s.queues i).used && (s.queues i).id = queueId

/-- The slot `mqueue_create` fills in; `old` keeps the lengths past `max_messages`. -/
def newQueue (old : Queue) (id : Int) (maxMessages msgSize : Nat) (block : Nat → UInt8) : Queue where
  used := true
  id := id
  maxMessages := maxMessages
  msgSize := msgSize
  head := 0
  tail := 0
  count := 0
  lengths := fun i => if i < maxMessages then 0 else old.lengths i
  storage := some (mqueueZeroMemory block 0 (u32 (maxMessages * msgSize)))

/-- The queue `mqueue_send` leaves when it accepts a message. -/
def Queue.push (q : Queue) (mem src : Nat → UInt8) (size : Nat) : Queue :=
  { q with
    storage := some (mqueueCopyMemory (mqueueZeroMemory mem (q.head * q.msgSize) q.msgSize)
      (q.head * q.msgSize) src size)
    lengths := update q.lengths q.head size
    head := (q.head + 1) % q.maxMessages
    count := q.count + 1 }

/-- The queue `mqueue_receive` leaves when it delivers a message. -/
def Queue.pop (q : Queue) : Queue :=
  { q with
    lengths := update q.lengths q.tail 0
    tail := (q.tail + 1) % q.maxMessages
    count := q.count - 1 }

/-- `mqueue_create`; `storage` is `kmalloc`'s answer, the block with what it holds. -/
def mqueueCreate (s : State) (maxMessages msgSize : Nat) (storage : Option (Nat → UInt8)) :
    Answer × State :=
  if maxMessages = 0 || maxMessages > mqMaxMessages || msgSize = 0 || msgSize > mqMaxMessageSize then
    (.code (-1), s)
  else
    let bytes := u32 (maxMessages * msgSize)
    if bytes / msgSize ≠ maxMessages then (.code (-1), s)
    else
      match firstIdx fun i => !(s.queues i).used with
      | none => (.code (-1), s)
      | some slot =>
        match storage with
        | none => (.code (-1), s)
        | some block =>
          let q := newQueue (s.queues slot) s.nextQueueId maxMessages msgSize block
          (.code s.nextQueueId,
            { s.setQueue slot q with nextQueueId := int32 (s.nextQueueId + 1) })

/-- `mqueue_send`; `none` is a null message. -/
def mqueueSend (s : State) (queueId : Int) (message : Option (Nat → UInt8)) (size : Nat) :
    Answer × State :=
  match message with
  | none => (.code (-1), s)
  | some src =>
    if size = 0 then (.code (-1), s)
    else
      match mqueueFind s queueId with
      | none => (.code (-1), s)
      | some i =>
        let queue := s.queues i
        match queue.storage with
        | none => (.code (-1), s)
        | some mem =>
          if size > queue.msgSize then (.code (-1), s)
          else if queue.count ≥ queue.maxMessages then (.code mqEFull, s)
          else
            (.code 0, s.setQueue i (queue.push mem src size))

/-- `mqueue_receive`; `buffer` and `sizeOut` say whether the two pointers are non-null. -/
def mqueueReceive (s : State) (queueId : Int) (buffer : Bool) (bufferSize : Nat) (sizeOut : Bool) :
    Answer × State :=
  if !buffer then (.code (-1), s)
  else
    match mqueueFind s queueId with
    | none => (.code (-1), s)
    | some i =>
      let queue := s.queues i
      match queue.storage with
      | none => (.code (-1), s)
      | some mem =>
        if queue.count = 0 then (.code mqEEmpty, s)
        else
          let size := queue.lengths queue.tail
          if bufferSize < size then (.code (-1), s)
          else
            let slot := queue.tail * queue.msgSize
            ({ value := 0
               bytes := (List.range size).map fun j => mem (slot + j)
               sizeOut := if sizeOut then some size else none },
             s.setQueue i queue.pop)

/-- `mqueue_unlink`. -/
def mqueueUnlink (s : State) (queueId : Int) : Answer × State :=
  match mqueueFind s queueId with
  | none => (.code (-1), s)
  | some i =>
    (.code 0, s.setQueue i
      { emptySlot with
        lengths := fun j => if j < mqMaxMessages then 0 else (s.queues i).lengths j })

/-! ## Runs -/

inductive Call
  | create (maxMessages msgSize : Nat) (storage : Option (Nat → UInt8))
  | send (queueId : Int) (message : Option (Nat → UInt8)) (size : Nat)
  | receive (queueId : Int) (buffer : Bool) (bufferSize : Nat) (sizeOut : Bool)
  | unlink (queueId : Int)

def step (s : State) : Call → Answer × State
  | .create maxMessages msgSize storage => mqueueCreate s maxMessages msgSize storage
  | .send queueId message size => mqueueSend s queueId message size
  | .receive queueId buffer bufferSize sizeOut => mqueueReceive s queueId buffer bufferSize sizeOut
  | .unlink queueId => mqueueUnlink s queueId

/-- No used queue has the id the counter would give to a new one. -/
def FreshId (s : State) (c : Call) : Prop :=
  match c with
  | .create .. => ∀ i, (s.queues i).used → (s.queues i).id ≠ s.nextQueueId
  | _ => True

/-! ## The specification: a map from ids to bounded FIFOs -/

/-- A bounded FIFO of byte strings. -/
structure Fifo where
  maxMessages : Nat
  msgSize : Nat
  messages : List (List UInt8)
deriving DecidableEq

/-- The abstract state: the FIFO of each id, how many ids have one, and the next id. -/
structure Spec where
  fifo : Int → Option Fifo
  size : Nat
  nextId : Int

namespace Spec

def init : Spec := { fifo := fun _ => none, size := 0, nextId := 1 }

/-- Give the next id an empty FIFO, unless the arguments are out of range, `mqMaxQueues` ids have one
    already or there is no memory. -/
def create (t : Spec) (maxMessages msgSize : Nat) (memory : Bool) : Answer × Spec :=
  if (0 < maxMessages ∧ maxMessages ≤ mqMaxMessages) ∧ (0 < msgSize ∧ msgSize ≤ mqMaxMessageSize) ∧
      t.size < mqMaxQueues ∧ memory then
    (.code t.nextId,
      { fifo := update t.fifo t.nextId (some ⟨maxMessages, msgSize, []⟩)
        size := t.size + 1
        nextId := int32 (t.nextId + 1) })
  else (.code (-1), t)

/-- Append a non-empty message that fits to the FIFO of the id. -/
def send (t : Spec) (id : Int) (message : Option (List UInt8)) : Answer × Spec :=
  match message, t.fifo id with
  | some m, some f =>
    if m = [] ∨ f.msgSize < m.length then (.code (-1), t)
    else if f.messages.length < f.maxMessages then
      (.code 0, { t with fifo := update t.fifo id
                                  (some { f with messages := f.messages ++ [m] }) })
    else (.code mqEFull, t)
  | _, _ => (.code (-1), t)

/-- Take the oldest message of the id, if the caller's buffer holds it. -/
def receive (t : Spec) (id : Int) (buffer : Bool) (bufferSize : Nat) (sizeOut : Bool) :
    Answer × Spec :=
  match buffer, t.fifo id with
  | true, some f =>
    match f.messages with
    | [] => (.code mqEEmpty, t)
    | m :: rest =>
      if bufferSize < m.length then (.code (-1), t)
      else ({ value := 0, bytes := m, sizeOut := if sizeOut then some m.length else none },
        { t with fifo := update t.fifo id (some { f with messages := rest }) })
  | _, _ => (.code (-1), t)

/-- Drop the FIFO of the id. -/
def unlink (t : Spec) (id : Int) : Answer × Spec :=
  match t.fifo id with
  | none => (.code (-1), t)
  | some _ => (.code 0, { t with fifo := update t.fifo id none, size := t.size - 1 })

def step (t : Spec) : Call → Answer × Spec
  | .create maxMessages msgSize storage => create t maxMessages msgSize storage.isSome
  | .send id message size => send t id (message.map fun src => (List.range size).map src)
  | .receive id buffer bufferSize sizeOut => receive t id buffer bufferSize sizeOut
  | .unlink id => unlink t id

end Spec

/-! ## The abstraction function -/

/-- The bytes of cell `i` of a queue's block. -/
def cell (q : Queue) (mem : Nat → UInt8) (i : Nat) : List UInt8 :=
  (List.range (q.lengths i)).map fun j => mem (i * q.msgSize + j)

/-- The FIFO a slot holds. -/
def Queue.fifo (q : Queue) : Fifo :=
  ⟨q.maxMessages, q.msgSize, window (cell q (q.storage.getD fun _ => 0)) q.maxMessages q.tail q.count⟩

/-- The FIFO the table holds for an id. -/
def contents (s : State) (queueId : Int) : Option Fifo :=
  (mqueueFind s queueId).map fun i => (s.queues i).fifo

/-! ## The block of bytes -/

theorem mqueueCopyMemory_apply (mem : Nat → UInt8) (off : Nat) (src : Nat → UInt8) (a : Nat) :
    ∀ size, mqueueCopyMemory mem off src size a
      = if off ≤ a ∧ a < off + size then src (a - off) else mem a := by
  intro size
  induction size with
  | zero => rw [if_neg (by omega)]; rfl
  | succ size ih =>
    rw [mqueueCopyMemory]
    by_cases ha : a = off + size
    · rw [ha, update_self, if_pos (by omega), Nat.add_sub_cancel_left]
    · rw [update_of_ne ha, ih]
      by_cases hin : off ≤ a ∧ a < off + size
      · rw [if_pos hin, if_pos (by omega)]
      · rw [if_neg hin, if_neg (by omega)]

/-- Clearing is copying zeros. -/
theorem mqueueZeroMemory_eq (mem : Nat → UInt8) (off : Nat) : ∀ size,
    mqueueZeroMemory mem off size = mqueueCopyMemory mem off (fun _ => 0) size
  | 0 => rfl
  | size + 1 => by rw [mqueueZeroMemory, mqueueCopyMemory, mqueueZeroMemory_eq]

/-- Distinct cells do not overlap. -/
theorem cell_disjoint {i j m k : Nat} (hij : i ≠ j) (hk : k < m) :
    ¬ (j * m ≤ i * m + k ∧ i * m + k < j * m + m) := by
  rcases Nat.lt_or_gt_of_ne hij with h | h
  · have hle := row_le h m
    omega
  · have hle := row_le h m
    omega

/-! ## One queue -/

/-- What a used slot keeps. -/
structure Queue.Wf (q : Queue) : Prop where
  storage : q.storage.isSome
  tail_lt : q.tail < q.maxMessages
  count_le : q.count ≤ q.maxMessages
  head_eq : q.head = (q.tail + q.count) % q.maxMessages
  lengths_le : ∀ i, i < q.maxMessages → q.lengths i ≤ q.msgSize

section

variable {q : Queue} {mem : Nat → UInt8}

theorem length_messages (q : Queue) : q.fifo.messages.length = q.count := length_window ..

theorem newQueue_wf (old : Queue) (id : Int) {maxMessages : Nat} (hm : 0 < maxMessages)
    (msgSize : Nat) (block : Nat → UInt8) : (newQueue old id maxMessages msgSize block).Wf where
  storage := rfl
  tail_lt := hm
  count_le := Nat.zero_le _
  head_eq := (Nat.zero_mod _).symm
  lengths_le := by
    intro i hi
    change i < maxMessages at hi
    show (if i < maxMessages then 0 else old.lengths i) ≤ msgSize
    rw [if_pos hi]
    exact Nat.zero_le _

theorem Queue.Wf.push (h : q.Wf) (src : Nat → UInt8) {size : Nat}
    (hsize : size ≤ q.msgSize) (hroom : q.count < q.maxMessages) : (q.push mem src size).Wf where
  storage := rfl
  tail_lt := h.tail_lt
  count_le := hroom
  head_eq := by
    show (q.head + 1) % q.maxMessages = (q.tail + (q.count + 1)) % q.maxMessages
    rw [h.head_eq, Nat.mod_add_mod, Nat.add_assoc]
  lengths_le := by
    intro i hi
    show update q.lengths q.head size i ≤ q.msgSize
    by_cases hih : i = q.head
    · rw [hih, update_self]; exact hsize
    · rw [update_of_ne hih]; exact h.lengths_le i hi

/-- A send appends the sender's bytes. -/
theorem fifo_push (h : q.Wf) (hmem : q.storage = some mem) (src : Nat → UInt8) {size : Nat}
    (hsize : size ≤ q.msgSize) (hroom : q.count < q.maxMessages) :
    (q.push mem src size).fifo
      = { q.fifo with messages := q.fifo.messages ++ [(List.range size).map src] } := by
  unfold Queue.fifo
  rw [hmem]
  congr 1
  refine window_push _ _ _ h.tail_lt hroom ?_ ?_
  · -- the written cell holds the message
    show cell (q.push mem src size) _ ((q.tail + q.count) % q.maxMessages) = _
    rw [← h.head_eq]
    simp only [cell, Queue.push, Option.getD_some, update_self]
    refine List.map_congr_left fun j hj => ?_
    have hj' : j < size := List.mem_range.mp hj
    rw [mqueueCopyMemory_apply, if_pos (by omega), Nat.add_sub_cancel_left]
  · -- every other cell keeps its length and its bytes
    intro i hi hne
    change i ≠ (q.tail + q.count) % q.maxMessages at hne
    rw [← h.head_eq] at hne
    simp only [cell, Queue.push, Option.getD_some, update_of_ne hne]
    refine List.map_congr_left fun j hj => ?_
    have hj' : j < q.msgSize := Nat.lt_of_lt_of_le (List.mem_range.mp hj) (h.lengths_le i hi)
    have hout := cell_disjoint hne hj'
    rw [mqueueCopyMemory_apply, if_neg (by omega), mqueueZeroMemory_eq, mqueueCopyMemory_apply,
      if_neg hout]

theorem Queue.Wf.pop (h : q.Wf) (hne : q.count ≠ 0) : q.pop.Wf where
  storage := h.storage
  tail_lt := Nat.mod_lt _ (Nat.lt_of_le_of_lt (Nat.zero_le _) h.tail_lt)
  count_le := Nat.le_trans (Nat.sub_le _ _) h.count_le
  head_eq := by
    show q.head = ((q.tail + 1) % q.maxMessages + (q.count - 1)) % q.maxMessages
    rw [mod_add_mod_right, h.head_eq, Nat.sub_add_cancel (Nat.one_le_iff_ne_zero.mpr hne)]
  lengths_le := by
    intro i hi
    show update q.lengths q.tail 0 i ≤ q.msgSize
    by_cases hit : i = q.tail
    · rw [hit, update_self]; exact Nat.zero_le _
    · rw [update_of_ne hit]; exact h.lengths_le i hi

/-- A receive takes the oldest message: the cell at `tail`. -/
theorem fifo_pop (h : q.Wf) (hmem : q.storage = some mem) (hne : q.count ≠ 0) :
    q.fifo.messages = cell q mem q.tail :: q.pop.fifo.messages := by
  obtain ⟨n, hn⟩ := Nat.exists_eq_succ_of_ne_zero hne
  have hcap : 0 < q.maxMessages := Nat.lt_of_le_of_lt (Nat.zero_le _) h.tail_lt
  have hle := h.count_le
  simp only [Queue.fifo, Queue.pop, hmem, Option.getD_some, hn, Nat.succ_eq_add_one,
    Nat.add_sub_cancel, window_succ]
  congr 1
  -- clearing the length at `tail` touches none of the cells that remain
  refine window_congr n _ (Nat.mod_lt _ hcap) fun k hk => ?_
  have hother : ((q.tail + 1) % q.maxMessages + k) % q.maxMessages ≠ q.tail := by
    rw [mod_add_mod_right]
    have hd : (q.tail + (k + 1)) % q.maxMessages ≠ (q.tail + 0) % q.maxMessages :=
      add_mod_ne (by omega) hcap (Nat.succ_ne_zero k)
    rwa [Nat.add_zero q.tail, Nat.mod_eq_of_lt h.tail_lt] at hd
  simp only [cell, update_of_ne hother]

end

/-! ## The table -/

/-- The invariant of the table: used slots are well formed and have distinct ids. -/
structure State.Inv (s : State) : Prop where
  wf : ∀ i, (s.queues i).used → (s.queues i).Wf
  ids : ∀ i j, (s.queues i).used → (s.queues j).used →
    (s.queues i).id = (s.queues j).id → i = j

theorem mqueueInit_inv : mqueueInit.Inv :=
  ⟨fun _ h => absurd h Bool.false_ne_true, fun _ _ h => absurd h Bool.false_ne_true⟩

section

variable {s : State} {i : Fin mqMaxQueues} {q : Queue} {id : Int}

@[simp] theorem setQueue_self : (s.setQueue i q).queues i = q := update_self ..

theorem setQueue_ne {j : Fin mqMaxQueues} (h : j ≠ i) : (s.setQueue i q).queues j = s.queues j :=
  update_of_ne h ..

theorem find_some (h : mqueueFind s id = some i) : (s.queues i).used ∧ (s.queues i).id = id := by
  simpa using firstIdx_some h

/-- The search for an id sees only the used flags and ids. -/
theorem find_congr {s' : State} (h : ∀ j, ((s'.queues j).used ∧ (s'.queues j).id = id)
      ↔ ((s.queues j).used ∧ (s.queues j).id = id)) : mqueueFind s' id = mqueueFind s id := by
  unfold mqueueFind
  congr 1
  funext j
  rw [Bool.eq_iff_iff]
  simpa only [Bool.and_eq_true, decide_eq_true_eq] using h j

theorem contents_some (h : mqueueFind s id = some i) :
    contents s id = some (s.queues i).fifo := by rw [contents, h, Option.map_some]

theorem contents_none (h : mqueueFind s id = none) : contents s id = none := by
  rw [contents, h, Option.map_none]

/-- An id whose search ends at the same, unchanged slot keeps its contents. -/
theorem contents_congr {s' : State} (hfind : mqueueFind s' id = mqueueFind s id)
    (hq : ∀ j, mqueueFind s id = some j → s'.queues j = s.queues j) :
    contents s' id = contents s id := by
  cases hf : mqueueFind s id with
  | none => rw [contents_none hf, contents_none (hfind.trans hf)]
  | some j => rw [contents_some hf, contents_some (hfind.trans hf), hq j hf]

/-- Under the invariant a found slot is the only one of its id. -/
theorem find_only (hs : s.Inv) (h : mqueueFind s id = some i) :
    ∀ j, j ≠ i → (s.queues j).used → (s.queues j).id ≠ id := by
  obtain ⟨hui, hidi⟩ := find_some h
  exact fun j hji huj hidj => hji (hs.ids j i huj hui (hidj.trans hidi.symm))

/-- Writing a slot that alone may hold the id `id`, before and after, changes the contents of `id`
    alone. -/
theorem contents_setQueue (honly : ∀ j, j ≠ i → (s.queues j).used → (s.queues j).id ≠ id)
    (hold : (s.queues i).used → (s.queues i).id = id) (hid : q.used → q.id = id) :
    contents (s.setQueue i q) = update (contents s) id (if q.used then some q.fifo else none) := by
  have hothers : ∀ j, ((s.setQueue i q).queues j).used → ((s.setQueue i q).queues j).id = id →
      j = i := by
    intro j huj hidj
    by_contra hji
    rw [setQueue_ne hji] at huj hidj
    exact honly j hji huj hidj
  funext id'
  by_cases hid' : id' = id
  · rw [hid', update_self]
    by_cases hu : q.used
    · have hfind : mqueueFind (s.setQueue i q) id = some i := by
        refine firstIdx_unique (by simp [hu, hid hu]) fun j hj => ?_
        simp only [Bool.and_eq_true, decide_eq_true_eq] at hj
        exact hothers j hj.1 hj.2
      rw [contents_some hfind, setQueue_self, if_pos hu]
    · rw [if_neg hu]
      refine contents_none (firstIdx_eq_none.mpr fun j => ?_)
      rw [Bool.and_eq_false_imp]
      intro huj
      rw [decide_eq_false_iff_not]
      intro hidj
      rw [hothers j huj hidj, setQueue_self] at huj
      exact hu huj
  · -- neither the old nor the new slot is found under another id
    rw [update_of_ne hid']
    refine contents_congr (find_congr fun j => ?_) fun j hf => setQueue_ne fun e => hid' ?_
    · by_cases hji : j = i
      · rw [hji, setQueue_self]
        exact ⟨fun hc => absurd (hc.2.symm.trans (hid hc.1)) hid',
          fun hc => absurd (hc.2.symm.trans (hold hc.1)) hid'⟩
      · rw [setQueue_ne hji]
    · obtain ⟨huj, hidj⟩ := find_some hf
      subst e
      exact hidj.symm.trans (hold huj)

/-- A well-formed queue whose id no other slot has, or a free slot, keeps the invariant. -/
theorem Inv_setQueue (hs : s.Inv) (hq : q.used → q.Wf)
    (honly : q.used → ∀ j, j ≠ i → (s.queues j).used → (s.queues j).id ≠ q.id) :
    (s.setQueue i q).Inv := by
  refine ⟨fun j hj => ?_, fun j k hj hk hjk => ?_⟩
  · by_cases hji : j = i
    · rw [hji, setQueue_self] at hj ⊢; exact hq hj
    · rw [setQueue_ne hji] at hj ⊢; exact hs.wf j hj
  -- two used slots with one id: neither or both are the written one
  by_cases hji : j = i <;> by_cases hki : k = i
  · rw [hji, hki]
  · rw [hji, setQueue_self] at hj hjk
    rw [setQueue_ne hki] at hk hjk
    exact absurd hjk.symm (honly hj k hki hk)
  · rw [hki, setQueue_self] at hk hjk
    rw [setQueue_ne hji] at hj hjk
    exact absurd hjk (honly hk j hji hj)
  · rw [setQueue_ne hji] at hj hjk
    rw [setQueue_ne hki] at hk hjk
    exact hs.ids j k hj hk hjk

/-- How many slots are in use. -/
def State.inUse (s : State) : Nat := used fun i => (s.queues i).used

theorem used_setQueue : (fun j => ((s.setQueue i q).queues j).used)
    = update (fun j => (s.queues j).used) i q.used := by
  funext j
  by_cases hj : j = i
  · rw [hj, setQueue_self, update_self]
  · rw [setQueue_ne hj, update_of_ne hj]

theorem inUse_setQueue_same (h : (s.queues i).used = q.used) : (s.setQueue i q).inUse = s.inUse := by
  unfold State.inUse
  rw [used_setQueue, ← h]
  exact congrArg used (update_eq_self i _)

end

/-! ## Each operation refines its specification -/

/-- The table `s` represents the abstract state `t`. -/
structure Refines (s : State) (t : Spec) : Prop where
  inv : s.Inv
  fifo : contents s = t.fifo
  size : s.inUse = t.size
  next : s.nextQueueId = t.nextId

theorem Refines.fifo_none {s : State} {t : Spec} {id : Int} (h : Refines s t) (hfind : mqueueFind s id = none) :
    t.fifo id = none := by rw [← h.fifo, contents_none hfind]

theorem Refines.fifo_some {s : State} {t : Spec} {id : Int} {i} (h : Refines s t)
    (hfind : mqueueFind s id = some i) : t.fifo id = some (s.queues i).fifo := by
  rw [← h.fifo, contents_some hfind]

/-- One call answers as specified and leads to a table that represents the specified state. -/
def Simulates (r : Answer × State) (a : Answer × Spec) : Prop := r.1 = a.1 ∧ Refines r.2 a.2

theorem mqueueInit_refines : Refines mqueueInit Spec.init :=
  ⟨mqueueInit_inv, by funext id; exact contents_none (firstIdx_eq_none.mpr fun _ => rfl), by decide, rfl⟩

section

variable {s : State} {t : Spec}

/-- `bytes / msg_size != max_messages` never holds for arguments in range. -/
theorem bytes_div {maxMessages msgSize : Nat} (hm : maxMessages ≤ mqMaxMessages)
    (hs0 : 0 < msgSize) (hs : msgSize ≤ mqMaxMessageSize) :
    u32 (maxMessages * msgSize) / msgSize = maxMessages := by
  have hle : maxMessages * msgSize ≤ 32 * 256 := Nat.mul_le_mul hm hs
  rw [u32_of_lt (by omega), Nat.mul_div_cancel _ hs0]

section

variable (h : Refines s t)
include h

theorem create_refines (maxMessages msgSize : Nat) (storage : Option (Nat → UInt8))
    (hfresh : ∀ i, (s.queues i).used → (s.queues i).id ≠ s.nextQueueId) :
    Simulates (mqueueCreate s maxMessages msgSize storage)
      (t.create maxMessages msgSize storage.isSome) := by
  unfold mqueueCreate Spec.create
  by_cases hr : (0 < maxMessages ∧ maxMessages ≤ mqMaxMessages) ∧
      (0 < msgSize ∧ msgSize ≤ mqMaxMessageSize)
  · obtain ⟨⟨hm0, hm⟩, hs0, hs⟩ := hr
    rw [if_neg (by simp; omega)]
    simp only [bytes_div hm hs0 hs, ne_eq, not_true_eq_false, if_false]
    split
    · -- every slot is used
      rename_i hnone
      have hfull : t.size = mqMaxQueues := by
        rw [← h.size]; exact (firstIdx_not_eq_none_iff _).mp hnone
      rw [if_neg (by omega)]
      exact ⟨rfl, h⟩
    · rename_i slot hslot
      have hfree : (s.queues slot).used = false := by simpa using firstIdx_some hslot
      have hroom : t.size < mqMaxQueues := by
        rw [← h.size]
        refine Nat.lt_of_le_of_ne (used_le _) fun hfull => ?_
        rw [(firstIdx_not_eq_none_iff _).mpr hfull] at hslot
        cases hslot
      cases storage with
      | none => rw [if_neg (by simp)]; exact ⟨rfl, h⟩
      | some block =>
        rw [if_pos ⟨⟨hm0, hm⟩, ⟨hs0, hs⟩, hroom, rfl⟩]
        dsimp only
        generalize hq : newQueue (s.queues slot) s.nextQueueId maxMessages msgSize block = q
        have hu : q.used := by rw [← hq]; rfl
        have hid : q.id = s.nextQueueId := by rw [← hq]; rfl
        have hfifo : q.fifo = ⟨maxMessages, msgSize, []⟩ := by rw [← hq]; rfl
        have hwf : q.Wf := by rw [← hq]; exact newQueue_wf _ _ hm0 _ _
        have honly : ∀ j, j ≠ slot → (s.queues j).used → (s.queues j).id ≠ q.id :=
          fun j _ huj => hid ▸ hfresh j huj
        have hinv := Inv_setQueue h.inv (fun _ => hwf) fun _ => honly
        refine ⟨by rw [h.next], ⟨hinv.wf, hinv.ids⟩, ?_, ?_, ?_⟩
        · show contents (s.setQueue slot q) = _
          rw [contents_setQueue honly (fun huj => absurd (hfree.symm.trans huj) Bool.false_ne_true)
            fun _ => rfl, if_pos hu, h.fifo, hid, h.next, hfifo]
        · show (s.setQueue slot q).inUse = t.size + 1
          rw [← h.size]
          unfold State.inUse
          rw [used_setQueue, hu]
          exact used_update_true hfree
        · show int32 (s.nextQueueId + 1) = int32 (t.nextId + 1)
          rw [h.next]
  · rw [if_pos (by simp; omega), if_neg fun hc => hr ⟨hc.1, hc.2.1⟩]
    exact ⟨rfl, h⟩

/-- Replacing the slot of an id simulates replacing its FIFO. -/
theorem Refines.replace {id : Int} {i : Fin mqMaxQueues} {q : Queue} {f : Fifo}
    (hfind : mqueueFind s id = some i) (hu : q.used) (hid : q.id = id) (hq : q.Wf)
    (hf : q.fifo = f) :
    Refines (s.setQueue i q) { t with fifo := update t.fifo id (some f) } where
  inv := Inv_setQueue h.inv (fun _ => hq) fun _ => hid ▸ find_only h.inv hfind
  fifo := by
    rw [contents_setQueue (find_only h.inv hfind) (fun _ => (find_some hfind).2) fun _ => hid,
      if_pos hu, h.fifo, hf]
  size := (inUse_setQueue_same ((find_some hfind).1.trans hu.symm)).trans h.size
  next := h.next

theorem send_refines (id : Int) (message : Option (Nat → UInt8)) (size : Nat) :
    Simulates (mqueueSend s id message size)
      (t.send id (message.map fun src => (List.range size).map src)) := by
  unfold mqueueSend Spec.send
  cases message with
  | none => exact ⟨rfl, h⟩
  | some src =>
    have hnil : (List.range size).map src = [] ↔ size = 0 := by simp
    have hlen : ((List.range size).map src).length = size := by simp
    cases hfind : mqueueFind s id with
    | none =>
      simp only [h.fifo_none hfind]
      split <;> exact ⟨rfl, h⟩
    | some i =>
      obtain ⟨hu, hid⟩ := find_some hfind
      have hwf := h.inv.wf i hu
      obtain ⟨mem, hmem⟩ := Option.isSome_iff_exists.mp hwf.storage
      simp only [Option.map_some, h.fifo_some hfind, hmem, hnil, hlen, length_messages]
      change Simulates _ (if size = 0 ∨ size > (s.queues i).msgSize then _ else
        if (s.queues i).count < (s.queues i).maxMessages then _ else _)
      by_cases h0 : size = 0
      · rw [if_pos h0, if_pos (.inl h0)]; exact ⟨rfl, h⟩
      rw [if_neg h0]
      by_cases hbig : size > (s.queues i).msgSize
      · rw [if_pos hbig, if_pos (.inr hbig)]; exact ⟨rfl, h⟩
      rw [if_neg hbig, if_neg (not_or.mpr ⟨h0, hbig⟩)]
      by_cases hfull : (s.queues i).count ≥ (s.queues i).maxMessages
      · rw [if_pos hfull, if_neg (Nat.not_lt.mpr hfull)]; exact ⟨rfl, h⟩
      · rw [if_neg hfull, if_pos (Nat.not_le.mp hfull)]
        have hsize := Nat.not_lt.mp hbig
        have hroom := Nat.not_le.mp hfull
        exact ⟨rfl, h.replace hfind hu hid (hwf.push src hsize hroom)
          (fifo_push hwf hmem src hsize hroom)⟩

theorem receive_refines (id : Int) (buffer : Bool) (bufferSize : Nat) (sizeOut : Bool) :
    Simulates (mqueueReceive s id buffer bufferSize sizeOut)
      (t.receive id buffer bufferSize sizeOut) := by
  unfold mqueueReceive Spec.receive
  cases buffer with
  | false => exact ⟨rfl, h⟩
  | true =>
    cases hfind : mqueueFind s id with
    | none =>
      rw [h.fifo_none hfind]
      exact ⟨rfl, h⟩
    | some i =>
      rw [h.fifo_some hfind]
      obtain ⟨hu, hid⟩ := find_some hfind
      have hwf := h.inv.wf i hu
      obtain ⟨mem, hmem⟩ := Option.isSome_iff_exists.mp hwf.storage
      simp only [hmem]
      by_cases h0 : (s.queues i).count = 0
      · have hnil : (s.queues i).fifo.messages = [] := by
          rw [← List.length_eq_zero_iff, length_messages, h0]
        rw [if_pos h0, hnil]
        exact ⟨rfl, h⟩
      have hpop := fifo_pop hwf hmem h0
      have hlen : (cell (s.queues i) mem (s.queues i).tail).length
          = (s.queues i).lengths (s.queues i).tail := by simp [cell]
      rw [if_neg h0, hpop]
      simp only [hlen]
      by_cases hbuf : bufferSize < (s.queues i).lengths (s.queues i).tail
      · rw [if_pos hbuf, if_pos hbuf]; exact ⟨rfl, h⟩
      · rw [if_neg hbuf, if_neg hbuf]
        exact ⟨rfl, h.replace hfind hu hid (hwf.pop h0) rfl⟩

theorem unlink_refines (id : Int) : Simulates (mqueueUnlink s id) (t.unlink id) := by
  unfold mqueueUnlink Spec.unlink
  cases hfind : mqueueFind s id with
  | none =>
    rw [h.fifo_none hfind]
    exact ⟨rfl, h⟩
  | some i =>
    rw [h.fifo_some hfind]
    refine ⟨rfl, Inv_setQueue h.inv (fun hu => Bool.noConfusion hu) fun hu => Bool.noConfusion hu,
      ?_, ?_, h.next⟩
    · show contents (s.setQueue i _) = update t.fifo id none
      rw [contents_setQueue (find_only h.inv hfind) (fun _ => (find_some hfind).2)
        fun hu => Bool.noConfusion hu, h.fifo]
      rfl
    show State.inUse (s.setQueue i _) = t.size - 1
    have hless := used_update_false (p := fun j => (s.queues j).used) (find_some hfind).1
    rw [← h.size]
    unfold State.inUse
    rw [used_setQueue]
    exact Nat.eq_sub_of_add_eq hless

/-- **One call refines the specification**, as long as the counter has not come round to an id in
    use. -/
theorem step_refines (c : Call) (hok : FreshId s c) :
    Simulates (step s c) (t.step c) := by
  cases c with
  | create maxMessages msgSize storage => exact create_refines h maxMessages msgSize storage hok
  | send id message size => exact send_refines h id message size
  | receive id buffer bufferSize sizeOut => exact receive_refines h id buffer bufferSize sizeOut
  | unlink id => exact unlink_refines h id

end

end

/-! ## Whole runs -/

instance FreshId.decidable (s : State) : ∀ c, Decidable (FreshId s c)
  | .create .. => inferInstanceAs
      (Decidable (∀ i, (s.queues i).used = true → (s.queues i).id ≠ s.nextQueueId))
  | .send .. => inferInstanceAs (Decidable True)
  | .receive .. => inferInstanceAs (Decidable True)
  | .unlink .. => inferInstanceAs (Decidable True)

/-- The id a call works on: the one it names, or the one a new queue gets. -/
def Call.target (s : State) : Call → Int
  | .create .. => s.nextQueueId
  | .send id .. => id
  | .receive id .. => id
  | .unlink id => id

/-- A call that sends or receives. -/
def Call.isTransfer : Call → Bool
  | .send .. => true
  | .receive .. => true
  | _ => false

/-- A send or receive answers 0 or leaves the table alone, in every state. -/
theorem transfer_cases (s : State) {c : Call} (hc : c.isTransfer) :
    (step s c).1.value = 0 ∨ (step s c).2 = s := by
  cases c with
  | send | receive =>
    simp only [step, mqueueSend, mqueueReceive]
    repeat' split
    all_goals first
      | exact .inr rfl
      | exact .inl rfl
  | create | unlink => cases hc

/-- The specification changes the FIFO of the target id alone. -/
theorem spec_frame (t : Spec) (c : Call) {s : State} (hnext : s.nextQueueId = t.nextId) {id : Int}
    (hid : id ≠ c.target s) : (t.step c).2.fifo id = t.fifo id := by
  cases c with
  | create maxMessages msgSize storage =>
    rw [Call.target, hnext] at hid
    simp only [Spec.step, Spec.create]
    split
    · exact update_of_ne hid ..
    · rfl
  | send | receive | unlink =>
    simp only [Spec.step, Spec.send, Spec.receive, Spec.unlink]
    repeat' split
    all_goals first
      | rfl
      | exact update_of_ne hid ..

/-- A specified receive that succeeds hands out the head of the FIFO. -/
theorem spec_receive_ok {t : Spec} {id : Int} {buffer : Bool} {bufferSize : Nat} {sizeOut : Bool}
    (h : (t.receive id buffer bufferSize sizeOut).1.value = 0) :
    ∃ f m rest, t.fifo id = some f ∧ f.messages = m :: rest ∧
      (t.receive id buffer bufferSize sizeOut).1
        = { value := 0, bytes := m, sizeOut := if sizeOut then some m.length else none } ∧
      (t.receive id buffer bufferSize sizeOut).2.fifo id = some { f with messages := rest } := by
  unfold Spec.receive at h ⊢
  split at h
  · rename_i f hf
    cases hm : f.messages with
    | nil => simp [hm, Answer.code, mqEEmpty] at h
    | cons m rest =>
      simp only [hm] at h ⊢
      split at h
      · cases h
      · rename_i hfit
        exact ⟨f, m, rest, hf, hm, by rw [if_neg hfit], by rw [if_neg hfit]; exact update_self ..⟩
  · cases h

/-- **Message queues are a map from ids to bounded FIFOs**, over every run in which the id counter
    never comes round to an id in use.  Answers and contents are those of the specification; a
    receive that succeeds delivers the oldest message of the id and removes it; a send or receive
    that fails changes nothing; and no call touches the contents of an id it is not about. -/
theorem mqueue_refines_fifos (calls : List Call) (hg : Guarded step FreshId mqueueInit calls) :
    let s := (exec step mqueueInit calls).2
    let t := (exec Spec.step Spec.init calls).2
    (exec step mqueueInit calls).1 = (exec Spec.step Spec.init calls).1 ∧
    contents s = t.fifo ∧
    (∀ id buffer bufferSize sizeOut, (mqueueReceive s id buffer bufferSize sizeOut).1.value = 0 →
      ∃ f m rest, t.fifo id = some f ∧ f.messages = m :: rest ∧
        (mqueueReceive s id buffer bufferSize sizeOut).1
          = { value := 0, bytes := m, sizeOut := if sizeOut then some m.length else none } ∧
        contents (mqueueReceive s id buffer bufferSize sizeOut).2 id = some { f with messages := rest }) ∧
    (∀ c, c.isTransfer = true → (step s c).1.value ≠ 0 → (step s c).2 = s) ∧
    (∀ c id, FreshId s c → id ≠ c.target s → contents (step s c).2 id = contents s id) := by
  intro s t
  obtain ⟨hans, hR⟩ := exec_refines (R := Refines)
    (fun s t c h hok => step_refines h c hok) calls _ _ mqueueInit_refines hg
  refine ⟨hans, hR.fifo, ?_, fun c hc herr => (transfer_cases s hc).resolve_left herr, ?_⟩
  · intro id buffer bufferSize sizeOut hok
    obtain ⟨heq, hR'⟩ := receive_refines hR id buffer bufferSize sizeOut
    rw [heq] at hok ⊢
    rw [hR'.fifo]
    exact spec_receive_ok hok
  · intro c id hok hid
    rw [(step_refines hR c hok).2.fifo, hR.fifo]
    exact spec_frame t c hR.next hid

/-- Two messages through one queue, with a second queue unlinked in between. -/
theorem mqueue_refines_fifos_two_queues :
    let calls : List Call := [.create 2 4 (some fun _ => 0), .create 1 1 (some fun _ => 0),
      .send 1 (some fun _ => 7) 3, .unlink 2, .send 1 (some fun _ => 8) 1, .receive 1 true 4 true]
    Guarded step FreshId mqueueInit calls ∧
      contents (exec step mqueueInit calls).2 = (exec Spec.step Spec.init calls).2.fifo ∧
      contents (exec step mqueueInit calls).2 1 = some ⟨2, 4, [[8]]⟩ :=
  ⟨by decide, (mqueue_refines_fifos _ (by decide)).2.1, by decide⟩

/-! ## When the counter comes round -/

/-- `n` times: create a queue, which gets id `id`, `id + 1`, …, and unlink it. -/
def churn : Nat → Int → List Call
  | 0, _ => []
  | n + 1, id => .create 1 1 (some fun _ => 0) :: .unlink id :: churn n (int32 (id + 1))

/-- The queue with id 2 that holds the message `x`. -/
def holder : Queue :=
  (newQueue emptySlot 2 1 1 fun _ => 0).push (mqueueZeroMemory (fun _ => 0) 0 (u32 (1 * 1)))
    (fun _ => 0x78) 1

/-- That queue in slot 1, everything else free, and the counter at `id`. -/
def held (id : Int) : State :=
  { queues := update (fun _ => emptySlot) 1 holder, nextQueueId := id }

/-- The slot `mqueue_unlink` leaves is the initial one again. -/
theorem unlinked_eq {old : Queue} (h : ∀ j, old.lengths j = 0) :
    { emptySlot with lengths := fun j => if j < mqMaxMessages then 0 else old.lengths j }
      = emptySlot := by
  simp only [emptySlot, h, ite_self]

/-- A create and unlink of a queue in slot 0 only moves the counter. -/
theorem churn_once (id : Int) :
    (exec step (held id) [.create 1 1 (some fun _ => 0), .unlink id]).2 = held (int32 (id + 1)) := by
  have hcreate : (step (held id) (.create 1 1 (some fun _ => 0))).2
      = { (held id).setQueue 0 (newQueue emptySlot id 1 1 fun _ => 0) with
          nextQueueId := int32 (id + 1) } := by
    rfl
  have hfind : mqueueFind { (held id).setQueue 0 (newQueue emptySlot id 1 1 fun _ => 0) with
      nextQueueId := int32 (id + 1) } id = some 0 :=
    firstIdx_zero (by simp [newQueue])
  simp only [exec_cons, exec_nil, hcreate]
  simp only [step, mqueueUnlink, hfind]
  rw [unlinked_eq fun j => by simp [newQueue, emptySlot]]
  simp only [State.setQueue, held, State.mk.injEq, and_true]
  rw [update_idem]
  exact update_eq_self 0 (held id).queues

theorem exec_churn (n : Nat) : ∀ id,
    (exec step (held (int32 id)) (churn n (int32 id))).2 = held (int32 (id + n)) := by
  induction n with
  | zero => intro id; simp [churn]
  | succ n ih =>
    intro id
    have hsplit : churn (n + 1) (int32 id)
        = [.create 1 1 (some fun _ => 0), .unlink (int32 id)] ++ churn n (int32 (id + 1)) := by
      rw [churn, int32_add]; rfl
    rw [hsplit, exec_append, churn_once, int32_add, ih (id + 1)]
    congr 2
    omega

/-- Create queues 1 and 2, send `x` to 2 and unlink 1. -/
def holdRun : List Call :=
  [.create 1 1 (some fun _ => 0), .create 1 1 (some fun _ => 0), .send 2 (some fun _ => 0x78) 1,
    .unlink 1]

theorem exec_holdRun : (exec step mqueueInit holdRun).2 = held (int32 3) := by
  let first := newQueue emptySlot 1 1 1 fun _ => 0
  let second := newQueue emptySlot 2 1 1 fun _ => 0
  let free : Fin mqMaxQueues → Queue := fun _ => emptySlot
  have hsend : (exec step mqueueInit (holdRun.take 3)).2
      = ⟨update (update (update free 0 first) 1 second) 1 holder, 3⟩ :=
    rfl
  have hunlink : (exec step mqueueInit holdRun).2
      = (step (exec step mqueueInit (holdRun.take 3)).2 (.unlink 1)).2 := rfl
  rw [hunlink, hsend, update_idem]
  have hfind : mqueueFind ⟨update (update free 0 first) 1 holder, 3⟩ 1 = some 0 := firstIdx_zero rfl
  simp only [step, mqueueUnlink, hfind]
  rw [unlinked_eq fun j => by
    rw [update_of_ne (by decide)]; simp [first, newQueue, emptySlot]]
  -- slot 0 is free again, and slot 1 is not touched by freeing it
  show State.mk (update (update (update free 0 first) 1 holder) 0
    emptySlot) 3 = State.mk (update free 1 holder) 3
  rw [update_comm (by decide), update_idem,
    show update free 0 emptySlot = free from update_eq_self 0 free]

/-- **A queue id can be given out twice.**  With `x` waiting under id 2 and the counter back at 2, a
    new queue gets id 2 in a lower slot and hides the old one: what is sent to 2 next overtakes
    `x`. -/
theorem mqueue_id_wraps : ∃ calls : List Call,
      contents (exec step mqueueInit calls).2 2 = some ⟨1, 1, [[0x78]]⟩ ∧
      (exec step (exec step mqueueInit calls).2 [.create 1 1 (some fun _ => 0),
          .send 2 (some fun _ => 0x79) 1, .receive 2 true 1 true]).1
        = [.code 2, .code 0, { value := 0, bytes := [0x79], sizeOut := some 1 }] := by
  obtain ⟨n, hn⟩ : ∃ n : Nat, int32 (3 + n) = 2 := ⟨2 ^ 32 - 1, by decide⟩
  refine ⟨holdRun ++ churn n (int32 3), ?_⟩
  rw [exec_append, exec_holdRun, exec_churn, hn]
  exact ⟨by decide, by decide⟩

end Lyth.Mqueue
