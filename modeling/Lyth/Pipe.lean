/-
  Anonymous pipes (`fs/pipe.c`).

  A pipe is one shared ring buffer of `PIPE_BUFFER_SIZE` bytes and two end nodes that point at it.

  1. **Program** — `pipe_read_op` and `pipe_write_op` are loops whose body runs with interrupts
     off; an iteration either answers or sleeps one tick and tries again.  ONE ITERATION is
     therefore the atomic step, and a blocked call is a step that answers `slept`, followed later by
     a `resumeRead` or `resumeWrite` step that re-enters the loop without the checks the source
     makes once, before the loop.  A resumed call uses the end record it fetched at entry.  If
     that end was closed meanwhile, the source has freed the record and the model reads its last
     state; the VFS excludes this, as the blocked task's descriptor is a reference to the end's node,
     and a node is closed with its last one.

  2. **Specification** — a byte stream: what reads returned, followed by what is still buffered, is
     what writes reported as accepted.

  3. **The crux** (`step_stream`) — for one step, bytes returned ++ window after = window before ++
     bytes accepted.  The run statement is this equation summed over the calls.
-/
import Mathlib.Data.List.Flatten
import Lyth.Lib.Run
import Lyth.Lib.Ring

namespace Lyth.Pipe

open Run Lyth.Ring Function

/-! ## The data of `pipe.c` -/

def pipeBufferSize : Nat := 4096
def pipeEWouldBlock : Int := -2
def pipeEBroken : Int := -3
def pipeFlagNonblock : Nat := 0x1

/-- `pipe_shared_t`. -/
structure PipeShared where
  buffer : Nat → UInt8
  head : Nat
  tail : Nat
  count : Nat
  readersOpen : Bool
  writersOpen : Bool

/-- `pipe_end_t`; its `shared` pointer is the one `PipeShared` of the pipe. -/
structure PipeEnd where
  isReadEnd : Bool
  nonblock : Bool
deriving DecidableEq

/-- An end's node.  `implSet` is `node->impl != 0`; the record stays readable after the close because
    a call asleep on the end holds its own pointer to it. -/
structure EndNode where
  pipeEnd : PipeEnd
  implSet : Bool
deriving DecidableEq

/-- A pipe: the shared ring, whether it was given back to the heap, and the two nodes. -/
structure State where
  shared : PipeShared
  sharedFreed : Bool
  readNode : EndNode
  writeNode : EndNode

/-- Which of the two nodes a call is made on. -/
inductive Side
  | rd
  | wr
deriving DecidableEq

def State.node (p : State) : Side → EndNode
  | .rd => p.readNode
  | .wr => p.writeNode

/-- What one step answers: a return value with the bytes stored in the caller's buffer, or a
    tick of sleep. -/
inductive Answer
  | ret (value : Int) (bytes : List UInt8)
  | slept
  | closed
deriving DecidableEq

/-! ## The copy loops -/

/-- The loop of `pipe_read_op`: `take` bytes out of the ring, and the new `tail`. -/
def copyOut (buffer : Nat → UInt8) : Nat → Nat → List UInt8 × Nat
  | 0, tail => ([], tail)
  | take + 1, tail =>
    let rest := copyOut buffer take ((tail + 1) % pipeBufferSize)
    (buffer tail :: rest.1, rest.2)

/-- The loop of `pipe_write_op`: bytes `src i, …, src (i + put - 1)` into the ring at `head`. -/
def copyIn (src : Nat → UInt8) : Nat → Nat → (Nat → UInt8) → Nat → (Nat → UInt8) × Nat
  | 0, _, buffer, head => (buffer, head)
  | put + 1, i, buffer, head =>
    copyIn src put (i + 1) (update buffer head (src i)) ((head + 1) % pipeBufferSize)

/-! ## One iteration of each operation -/

/-- The body of the `for (;;)` of `pipe_read_op`. -/
def readPass (nonblock : Bool) (size : Nat) (sh : PipeShared) : Answer × PipeShared :=
  if 0 < sh.count then
    let take := if size < sh.count then size else sh.count
    let out := copyOut sh.buffer take sh.tail
    (.ret take out.1, { sh with tail := out.2, count := sh.count - take })
  else if !sh.writersOpen then (.ret 0 [], sh)
  else if nonblock then (.ret pipeEWouldBlock [], sh)
  else (.slept, sh)

/-- The body of the `for (;;)` of `pipe_write_op`.  The source's `written` is 0 whenever an iteration
    starts: the iteration that stores bytes returns. -/
def writePass (nonblock : Bool) (size : Nat) (src : Nat → UInt8) (sh : PipeShared) :
    Answer × PipeShared :=
  if !sh.readersOpen then (.ret pipeEBroken [], sh)
  else if sh.count < pipeBufferSize then
    let space := pipeBufferSize - sh.count
    let put := if size < space then size else space
    let out := copyIn src put 0 sh.buffer sh.head
    (.ret put [], { sh with buffer := out.1, head := out.2, count := sh.count + put })
  else if nonblock then (.ret pipeEWouldBlock [], sh)
  else (.slept, sh)

/-- Run one iteration on the shared ring. -/
def State.onShared (p : State) (r : Answer × PipeShared) : Answer × State :=
  (r.1, { p with shared := r.2 })

/-- `pipe_read_op`, up to the first sleep. -/
def pipeReadOp (p : State) (side : Side) (size : Nat) (buf : Bool) : Answer × State :=
  if !buf || size = 0 then (.ret (-1) [], p)
  else if !(p.node side).implSet || !(p.node side).pipeEnd.isReadEnd then (.ret (-1) [], p)
  else p.onShared (readPass (p.node side).pipeEnd.nonblock size p.shared)

/-- `pipe_write_op`, up to the first sleep; `none` is a null buffer. -/
def pipeWriteOp (p : State) (side : Side) (size : Nat) (buf : Option (Nat → UInt8)) :
    Answer × State :=
  match buf with
  | none => (.ret 0 [], p)
  | some src =>
    if size = 0 then (.ret 0 [], p)
    else if !(p.node side).implSet || (p.node side).pipeEnd.isReadEnd then (.ret (-1) [], p)
    else p.onShared (writePass (p.node side).pipeEnd.nonblock size src p.shared)

/-- `pipe_close_op`. -/
def pipeCloseOp (p : State) (side : Side) : State :=
  if !(p.node side).implSet then p
  else
    let sh := if (p.node side).pipeEnd.isReadEnd then { p.shared with readersOpen := false }
      else { p.shared with writersOpen := false }
    let freed := p.sharedFreed || (!sh.readersOpen && !sh.writersOpen)
    match side with
    | .rd => { p with shared := sh, sharedFreed := freed,
                      readNode := { p.readNode with implSet := false } }
    | .wr => { p with shared := sh, sharedFreed := freed,
                      writeNode := { p.writeNode with implSet := false } }

/-- The pipe that `pipe_create` builds; `garbage` is what the fresh buffer holds. -/
def freshPipe (garbage : Nat → UInt8) (nonblock : Bool) : State where
  shared := { buffer := garbage, head := 0, tail := 0, count := 0,
              readersOpen := true, writersOpen := true }
  sharedFreed := false
  readNode := { pipeEnd := { isReadEnd := true, nonblock }, implSet := true }
  writeNode := { pipeEnd := { isReadEnd := false, nonblock }, implSet := true }

/-- `pipe_make_end_node` succeeds when both its allocations do. -/
def pipeMakeEndNode (node pipeEnd : Bool) : Bool := node && pipeEnd

/-- `pipe_create`.  `kmalloc i` says whether the `i`-th allocation succeeds (the shared ring, then
    node and end record of the read end, then those of the write end); `none` is the answer -1. -/
def pipeCreate (garbage : Nat → UInt8) (kmalloc : Fin 5 → Bool) (outs : Bool) (flags : Nat) :
    Option State :=
  if !outs then none
  else if !kmalloc 0 then none
  else if !pipeMakeEndNode (kmalloc 1) (kmalloc 2) then none
  else if !pipeMakeEndNode (kmalloc 3) (kmalloc 4) then none
  else some (freshPipe garbage (flags &&& pipeFlagNonblock != 0))

/-! ## Runs -/

/-- The steps of a run.  The `resume` steps are later iterations of a call that slept. -/
inductive Call
  | read (side : Side) (size : Nat) (buf : Bool)
  | resumeRead (size : Nat)
  | write (side : Side) (size : Nat) (buf : Option (Nat → UInt8))
  | resumeWrite (size : Nat) (src : Nat → UInt8)
  | close (side : Side)

def step (p : State) : Call → Answer × State
  | .read side size buf => pipeReadOp p side size buf
  | .resumeRead size => p.onShared (readPass p.readNode.pipeEnd.nonblock size p.shared)
  | .write side size buf => pipeWriteOp p side size buf
  | .resumeWrite size src => p.onShared (writePass p.writeNode.pipeEnd.nonblock size src p.shared)
  | .close side => (.closed, pipeCloseOp p side)

/-- The bytes a step handed to a reader. -/
def Answer.bytes : Answer → List UInt8
  | .ret _ bytes => bytes
  | _ => []

/-- The return value, if the call returned. -/
def Answer.value : Answer → Option Int
  | .ret value _ => some value
  | _ => none

/-- The size a read step asks for. -/
def Call.readSize : Call → Option Nat
  | .read _ size _ => some size
  | .resumeRead size => some size
  | _ => none

/-- The first `n` bytes of a caller's buffer. -/
def takeBytes (src : Nat → UInt8) (n : Nat) : List UInt8 := (List.range n).map src

/-- The bytes a step reported as accepted: as many of the writer's buffer as its answer says. -/
def accepted : Call → Answer → List UInt8
  | .write _ _ (some src), .ret value _ => takeBytes src value.toNat
  | .resumeWrite _ src, .ret value _ => takeBytes src value.toNat
  | _, _ => []

/-- The bytes in the ring, oldest first. -/
def PipeShared.buffered (sh : PipeShared) : List UInt8 :=
  window sh.buffer pipeBufferSize sh.tail sh.count


/-! ## The ring invariant -/

/-- What `head`, `tail` and `count` keep to one another. -/
structure PipeShared.Wf (sh : PipeShared) : Prop where
  tail_lt : sh.tail < pipeBufferSize
  count_le : sh.count ≤ pipeBufferSize
  head_eq : sh.head = (sh.tail + sh.count) % pipeBufferSize

theorem pipeBufferSize_pos : 0 < pipeBufferSize := by decide

/-- Taking bytes out returns the front of the window and moves `tail` past it. -/
theorem copyOut_eq (buffer : Nat → UInt8) : ∀ take tail, tail < pipeBufferSize →
    copyOut buffer take tail
      = (window buffer pipeBufferSize tail take, (tail + take) % pipeBufferSize) := by
  intro take
  induction take with
  | zero => intro tail ht; rw [Nat.add_zero, Nat.mod_eq_of_lt ht]; rfl
  | succ take ih =>
    intro tail ht
    simp only [copyOut, ih _ (Nat.mod_lt _ pipeBufferSize_pos), window_succ, mod_add_mod_right]

/-- Putting bytes in, from source index `i` on, appends them to the window. -/
theorem copyIn_spec (src : Nat → UInt8) {tail : Nat} (ht : tail < pipeBufferSize) :
    ∀ put i n (buffer : Nat → UInt8), n + put ≤ pipeBufferSize →
    let out := copyIn src put i buffer ((tail + n) % pipeBufferSize)
    out.2 = (tail + (n + put)) % pipeBufferSize ∧
    window out.1 pipeBufferSize tail (n + put)
      = window buffer pipeBufferSize tail n ++ (List.range put).map (fun k => src (i + k)) := by
  intro put
  induction put with
  | zero => intro i n buffer _; simp [copyIn]
  | succ put ih =>
    intro i n buffer hn
    -- one store: the window grows by `src i`, and the head is where `n + 1` elements end
    have hhead : ((tail + n) % pipeBufferSize + 1) % pipeBufferSize
        = (tail + (n + 1)) % pipeBufferSize := by rw [Nat.mod_add_mod, Nat.add_assoc]
    have hwin := window_update buffer (src i) ht (show n < pipeBufferSize by omega)
    obtain ⟨h2, hw⟩ := ih (i + 1) (n + 1)
      (update buffer ((tail + n) % pipeBufferSize) (src i)) (by omega)
    simp only [copyIn, hhead]
    rw [← Nat.add_assoc n put 1, Nat.add_right_comm n put 1]
    refine ⟨h2, ?_⟩
    rw [hw, hwin, List.range_succ_eq_map]
    simp [Nat.add_comm, Nat.add_left_comm]

/-! ## What one iteration does to the stream -/

/-- The stream equation of one step on the ring, with the invariant. -/
def StreamStep (sh sh' : PipeShared) (out inn : List UInt8) : Prop :=
  sh'.Wf ∧ out ++ sh'.buffered = sh.buffered ++ inn

variable {sh : PipeShared}

theorem StreamStep.refl (h : sh.Wf) : StreamStep sh sh [] [] :=
  ⟨h, by rw [List.nil_append, List.append_nil]⟩

theorem readPass_stream (h : sh.Wf) (nonblock : Bool) (size : Nat) :
    StreamStep sh (readPass nonblock size sh).2 (readPass nonblock size sh).1.bytes [] := by
  unfold readPass
  split
  · generalize htake : (if size < sh.count then size else sh.count) = take
    have hle : take ≤ sh.count := by split at htake <;> omega
    simp only [copyOut_eq _ _ _ h.tail_lt]
    refine ⟨⟨Nat.mod_lt _ pipeBufferSize_pos, ?_, ?_⟩, ?_⟩
    · exact Nat.le_trans (Nat.sub_le _ _) h.count_le
    · show sh.head = ((sh.tail + take) % pipeBufferSize + (sh.count - take)) % pipeBufferSize
      rw [h.head_eq, Nat.mod_add_mod, Nat.add_assoc, Nat.add_sub_cancel' hle]
    · have hsplit := window_split sh.buffer pipeBufferSize (sh.count - take) take sh.tail h.tail_lt
      rw [Nat.add_sub_cancel' hle] at hsplit
      rw [List.append_nil]
      exact hsplit.symm
  · -- the other branches answer without touching the ring
    split
    · exact .refl h
    · split <;> exact .refl h

theorem writePass_stream (h : sh.Wf) (nonblock : Bool) (size : Nat) (src : Nat → UInt8) :
    StreamStep sh (writePass nonblock size src sh).2 (writePass nonblock size src sh).1.bytes
      (accepted (.resumeWrite size src) (writePass nonblock size src sh).1) := by
  unfold writePass
  split
  · exact .refl h
  split
  · dsimp only
    generalize hput : (if size < pipeBufferSize - sh.count then size
      else pipeBufferSize - sh.count) = put
    have hle : sh.count + put ≤ pipeBufferSize := by split at hput <;> omega
    obtain ⟨hhead, hwin⟩ := copyIn_spec src h.tail_lt put 0 sh.count sh.buffer hle
    rw [← h.head_eq] at hhead hwin
    refine ⟨⟨h.tail_lt, hle, hhead⟩, ?_⟩
    simpa [PipeShared.buffered, Answer.bytes, accepted, takeBytes] using hwin
  · split <;> exact .refl h

/-- A read iteration that answers 0 for a non-zero request met an empty ring without a writer. -/
theorem readPass_eof {nonblock : Bool} {size : Nat} (hsize : size ≠ 0)
    (h : (readPass nonblock size sh).1.value = some 0) :
    sh.count = 0 ∧ sh.writersOpen = false := by
  unfold readPass at h
  split at h
  · simp only [Answer.value, Option.some.injEq] at h
    split at h <;> omega
  · split at h
    · rename_i hw
      exact ⟨by omega, by simpa using hw⟩
    · split at h <;> simp [Answer.value, pipeEWouldBlock] at h

/-! ## One step -/

/-- The invariant of a pipe: the ring's own, and the open flags agree with the two nodes. -/
structure State.Inv (p : State) : Prop where
  wf : p.shared.Wf
  writers : p.shared.writersOpen = p.writeNode.implSet
  readEnd : p.readNode.pipeEnd.isReadEnd
  writeEnd : p.writeNode.pipeEnd.isReadEnd = false

/-- An iteration changes the ring's bytes and indices only. -/
theorem readPass_writersOpen (nonblock : Bool) (size : Nat) (sh : PipeShared) :
    (readPass nonblock size sh).2.writersOpen = sh.writersOpen := by
  unfold readPass
  repeat' split
  all_goals rfl

theorem writePass_writersOpen (nonblock : Bool) (size : Nat) (src : Nat → UInt8)
    (sh : PipeShared) : (writePass nonblock size src sh).2.writersOpen = sh.writersOpen := by
  unfold writePass
  repeat' split
  all_goals rfl

/-- The stream equation of a step of the pipe, with the invariant. -/
def StepOk (p : State) (r : Answer × State) (inn : List UInt8) : Prop :=
  r.2.Inv ∧ r.1.bytes ++ r.2.shared.buffered = p.shared.buffered ++ inn

variable {p : State}

/-- A step that answers without touching the pipe. -/
theorem StepOk.unchanged (h : p.Inv) (value : Int) : StepOk p (.ret value [], p) [] :=
  ⟨h, by simp [Answer.bytes]⟩

/-- A step that only runs an iteration on the ring. -/
theorem StepOk.onShared (h : p.Inv) {r : Answer × PipeShared} {inn : List UInt8}
    (hw : r.2.writersOpen = p.shared.writersOpen)
    (hr : StreamStep p.shared r.2 r.1.bytes inn) : StepOk p (p.onShared r) inn :=
  ⟨⟨hr.1, hw.trans h.writers, h.readEnd, h.writeEnd⟩, hr.2⟩

theorem pipeReadOp_ok (h : p.Inv) (side : Side) (size : Nat) (buf : Bool) :
    StepOk p (pipeReadOp p side size buf) [] := by
  unfold pipeReadOp
  split
  · exact .unchanged h _
  · split
    · exact .unchanged h _
    · exact .onShared h (readPass_writersOpen ..) (readPass_stream h.wf ..)

/-- A write accepts what its iterations do. -/
theorem accepted_write (side : Side) (size : Nat) (src : Nat → UInt8) (a : Answer) :
    accepted (.write side size (some src)) a = accepted (.resumeWrite size src) a := by
  cases a <;> rfl

theorem pipeWriteOp_ok (h : p.Inv) (side : Side) (size : Nat) (buf : Option (Nat → UInt8)) :
    StepOk p (pipeWriteOp p side size buf)
      (accepted (.write side size buf) (pipeWriteOp p side size buf).1) := by
  cases buf with
  | none => exact .unchanged h 0
  | some src =>
    simp only [pipeWriteOp]
    split
    · exact .unchanged h 0
    · split
      · exact .unchanged h (-1)
      · rw [accepted_write]
        exact .onShared h (writePass_writersOpen ..) (writePass_stream h.wf ..)

/-- A close moves no byte, and clears `writers_open` exactly when it closes the write end. -/
theorem pipeCloseOp_ok (h : p.Inv) (side : Side) : StepOk p (.closed, pipeCloseOp p side) [] := by
  unfold pipeCloseOp
  cases side with
  | rd =>
    simp only [State.node, h.readEnd]
    split
    · exact ⟨h, by simp [Answer.bytes]⟩
    · exact ⟨⟨⟨h.wf.tail_lt, h.wf.count_le, h.wf.head_eq⟩, h.writers, h.readEnd, h.writeEnd⟩,
        by simp [Answer.bytes, PipeShared.buffered]⟩
  | wr =>
    simp only [State.node, h.writeEnd]
    split
    · exact ⟨h, by simp [Answer.bytes]⟩
    · exact ⟨⟨⟨h.wf.tail_lt, h.wf.count_le, h.wf.head_eq⟩, rfl, h.readEnd, h.writeEnd⟩,
        by simp [Answer.bytes, PipeShared.buffered]⟩

/-- **The stream equation of one step.** -/
theorem step_stream (h : p.Inv) (c : Call) : StepOk p (step p c) (accepted c (step p c).1) := by
  cases c with
  | read side size buf => exact pipeReadOp_ok h side size buf
  | resumeRead size =>
    exact .onShared h (readPass_writersOpen ..) (readPass_stream h.wf ..)
  | write side size buf => exact pipeWriteOp_ok h side size buf
  | resumeWrite size src =>
    exact .onShared h (writePass_writersOpen ..) (writePass_stream h.wf ..)
  | close side => exact pipeCloseOp_ok h side

/-- A read that answers 0 for a non-zero request met an empty ring, and the write end was closed. -/
theorem step_eof (h : p.Inv) {c : Call} {size : Nat} (hc : c.readSize = some size)
    (hsize : size ≠ 0) (h0 : (step p c).1.value = some 0) :
    p.shared.count = 0 ∧ p.shared.writersOpen = false ∧ p.writeNode.implSet = false := by
  suffices hempty : p.shared.count = 0 ∧ p.shared.writersOpen = false from
    ⟨hempty.1, hempty.2, h.writers ▸ hempty.2⟩
  cases c with
  | read side size' buf =>
    simp only [Call.readSize, Option.some.injEq] at hc
    subst hc
    simp only [step, pipeReadOp] at h0
    split at h0
    · simp [Answer.value] at h0
    · split at h0
      · simp [Answer.value] at h0
      · exact readPass_eof hsize h0
  | resumeRead size' =>
    simp only [Call.readSize, Option.some.injEq] at hc
    subst hc
    exact readPass_eof hsize h0
  | write | resumeWrite | close => simp [Call.readSize] at hc

/-! ## Whole runs -/

/-- All bytes the reads of a run returned. -/
def returnedBytes (answers : List Answer) : List UInt8 := answers.flatMap Answer.bytes

/-- All bytes the writes of a run reported as accepted. -/
def acceptedBytes (calls : List Call) (answers : List Answer) : List UInt8 :=
  (List.zipWith accepted calls answers).flatten

theorem exec_stream (calls : List Call) : ∀ p, p.Inv → (exec step p calls).2.Inv ∧
    returnedBytes (exec step p calls).1 ++ (exec step p calls).2.shared.buffered
      = p.shared.buffered ++ acceptedBytes calls (exec step p calls).1 := by
  induction calls with
  | nil => intro p h; exact ⟨h, by simp [returnedBytes, acceptedBytes]⟩
  | cons c calls ih =>
    intro p h
    obtain ⟨h', heq⟩ := step_stream h c
    obtain ⟨hinv, hrest⟩ := ih _ h'
    refine ⟨hinv, ?_⟩
    simp only [exec_cons, returnedBytes, acceptedBytes, List.flatMap_cons, List.zipWith_cons_cons,
      List.flatten_cons] at hrest ⊢
    rw [List.append_assoc, hrest, ← List.append_assoc, heq, List.append_assoc]

theorem pipeCreate_inv {garbage : Nat → UInt8} {kmalloc : Fin 5 → Bool} {outs : Bool} {flags : Nat}
    (h : pipeCreate garbage kmalloc outs flags = some p) :
    p.Inv ∧ p.shared.buffered = [] := by
  unfold pipeCreate at h
  -- each of the four early exits answers -1
  iterate 4 (split at h; · cases h)
  cases h
  exact ⟨⟨⟨pipeBufferSize_pos, Nat.zero_le _, rfl⟩, rfl, rfl, rfl⟩, rfl⟩

/-- **Pipe stream integrity.**  After any steps on a fresh pipe, the bytes reads returned followed by
    the bytes still buffered are the bytes writes reported as accepted; `count` is the number of
    bytes accepted and not yet returned, within the capacity, and the distance from `tail` to
    `head`; and a read step that then answers 0 to a non-zero request meets an empty buffer and a
    closed write end. -/
theorem pipe_stream_integrity (garbage : Nat → UInt8) (kmalloc : Fin 5 → Bool) (outs : Bool)
    (flags : Nat) (p : State) (hp : pipeCreate garbage kmalloc outs flags = some p)
    (calls : List Call) :
    let r := exec step p calls
    let sh := r.2.shared
    returnedBytes r.1 ++ sh.buffered = acceptedBytes calls r.1 ∧
    (acceptedBytes calls r.1).length = (returnedBytes r.1).length + sh.count ∧
    sh.head = (sh.tail + sh.count) % pipeBufferSize ∧
    sh.count ≤ pipeBufferSize ∧
    ∀ c size, c.readSize = some size → size ≠ 0 → (step r.2 c).1.value = some 0 →
      sh.count = 0 ∧ sh.writersOpen = false ∧ r.2.writeNode.implSet = false := by
  obtain ⟨hinv, hempty⟩ := pipeCreate_inv hp
  obtain ⟨hinv', hstream⟩ := exec_stream calls p hinv
  rw [hempty, List.nil_append] at hstream
  refine ⟨hstream, ?_, hinv'.wf.head_eq, hinv'.wf.count_le, fun c size hc hsize h0 => ?_⟩
  · rw [← hstream, List.length_append, PipeShared.buffered, length_window]
  · exact step_eof hinv' hc hsize h0

/-- Two writes, a partial read and a close of the write end, on a pipe that was really created. -/
theorem pipe_stream_integrity_partial_read :
    ∃ p, pipeCreate (fun _ => 0) (fun _ => true) true 0 = some p ∧
      let calls : List Call := [.write .wr 2 (some fun i => if i = 0 then 7 else 8), .read .rd 1 true,
        .write .wr 1 (some fun _ => 9), .close .wr]
      returnedBytes (exec step p calls).1 = [7] ∧
      returnedBytes (exec step p calls).1 ++ (exec step p calls).2.shared.buffered
        = acceptedBytes calls (exec step p calls).1 :=
  ⟨_, rfl, by decide, (pipe_stream_integrity _ (fun _ => true) true 0 _ rfl _).1⟩

end Lyth.Pipe
