/-
  READINESS (`syscall_poll_scan`): what `poll` reports, and what a read or a write then does.

    1. THE PROGRAM.  The scan asks `mqueue.c` and `pipe.c` whether a descriptor is ready; `vfs_read`
       and `vfs_write` call the operations of the same files.  A `Pass` is what an operation does up
       to its first sleep: it answers, it would have to wait and says so (`O_NONBLOCK`), or it sleeps.
    2. THE SPECIFICATION: what is reported ready is `done` at the first pass.
    3. THE CRUX.  The tests are written twice, in the readiness functions and in the operations, over
       the same state: each operation waits only where its readiness function has said no.
-/
import Lyth.Mqueue
import Lyth.Pipe

namespace Lyth.Poll

open Mqueue (mqueueFind mqueueReceive mqueueSend mqEEmpty mqEFull)
open Pipe (Side pipeBufferSize pipeEWouldBlock pipeReadOp pipeWriteOp readPass writePass)

/-! ## Constants -/

def vfsMaxFd : Int := 32
def vfsORdonly : Nat := 0x1
def vfsOWronly : Nat := 0x2
def vfsONonblock : Nat := 0x200
def vfsFlagDir : Nat := 0x2
def syscallPollin : Nat := 0x1
def syscallPollout : Nat := 0x4
def syscallPollerr : Nat := 0x8

/-! ## Descriptors -/

/-- `mqueue_fd_t`. -/
structure MqueueFd where
  queueId : Int
  openFlags : Nat

/-- A node, by its `ops`; the `impl` of a queue's node may be null. -/
inductive Node
  | queue (impl : Option MqueueFd)
  | pipe (pipe : Nat) (side : Side)
  | other (flags size : Nat)

/-- `vfs_fd_entry_t`. -/
structure FdEntry where
  used : Bool
  node : Option Node
  offset : Nat
  openFlags : Nat

/-- The queues, the pipes and the table of descriptors, if there is one. -/
structure World where
  queues : Mqueue.State
  pipes : Nat → Pipe.State
  table : Option (Int → FdEntry)

/-- The descriptor, if it is in range and used. -/
def World.entry (w : World) (fd : Int) : Option FdEntry :=
  match w.table with
  | none => none
  | some table => if fd < 0 ∨ fd ≥ vfsMaxFd ∨ (table fd).used = false then none else some (table fd)

/-! ## The scan -/

/-- `mqueue_endpoint_queue_id`. -/
def mqueueEndpointQueueId (impl : Option MqueueFd) : Int := (impl.map MqueueFd.queueId).getD (-1)

/-- `mqueue_fd_read_ready`. -/
def mqueueFdReadReady (s : Mqueue.State) (impl : Option MqueueFd) : Bool :=
  match mqueueFind s (mqueueEndpointQueueId impl) with
  | none => false
  | some i => decide (0 < (s.queues i).count)

/-- `mqueue_fd_write_ready`. -/
def mqueueFdWriteReady (s : Mqueue.State) (impl : Option MqueueFd) : Bool :=
  match mqueueFind s (mqueueEndpointQueueId impl) with
  | none => false
  | some i => decide ((s.queues i).count < (s.queues i).maxMessages)

/-- `pipe_read_ready`. -/
def pipeReadReady (p : Pipe.State) (side : Side) : Bool :=
  (p.node side).implSet && (p.node side).pipeEnd.isReadEnd && (decide (0 < p.shared.count) || !p.shared.writersOpen)

/-- `pipe_write_ready`. -/
def pipeWriteReady (p : Pipe.State) (side : Side) : Bool :=
  (p.node side).implSet && !(p.node side).pipeEnd.isReadEnd &&
    (p.shared.readersOpen && decide (p.shared.count < pipeBufferSize))

/-- `syscall_fd_read_ready`. -/
def syscallFdReadReady (w : World) (e : FdEntry) : Bool :=
  match e.node with
  | none => false
  | some (.queue impl) => mqueueFdReadReady w.queues impl
  | some (.pipe p side) => pipeReadReady (w.pipes p) side
  | some (.other flags size) =>
    if e.openFlags &&& vfsORdonly = 0 then false
    else if flags &&& vfsFlagDir ≠ 0 then true else decide (e.offset < size)

/-- `syscall_fd_write_ready`. -/
def syscallFdWriteReady (w : World) (e : FdEntry) : Bool :=
  match e.node with
  | none => false
  | some (.queue impl) => mqueueFdWriteReady w.queues impl
  | some (.pipe p side) => pipeWriteReady (w.pipes p) side
  | some (.other flags _) => decide (e.openFlags &&& vfsOWronly ≠ 0) && decide (flags &&& vfsFlagDir = 0)

/-- The node is one of a queue that is gone. -/
def FdEntry.isStale (e : FdEntry) (w : World) : Bool :=
  match e.node with
  | some (.queue impl) => (mqueueFind w.queues (mqueueEndpointQueueId impl)).isNone
  | _ => false

/-- `syscall_pollfd_t`. -/
structure PollFd where
  fd : Int
  events : Nat
  revents : Nat

/-- The round of `syscall_poll_scan` for one descriptor. -/
def scanOne (w : World) (p : PollFd) : PollFd :=
  { p with revents :=
      match w.entry p.fd with
      | none => syscallPollerr
      | some e =>
        (if e.isStale w then syscallPollerr else 0) |||
          (if p.events &&& syscallPollin ≠ 0 ∧ syscallFdReadReady w e = true then syscallPollin else 0) |||
          (if p.events &&& syscallPollout ≠ 0 ∧ syscallFdWriteReady w e = true then syscallPollout else 0) }

/-- `syscall_poll_scan`: how many are ready, and the array with the answers. -/
def syscallPollScan (w : World) (pfds : List PollFd) : Nat × List PollFd :=
  let scanned := pfds.map (scanOne w)
  (scanned.countP fun p => p.revents ≠ 0, scanned)

/-! ## The operations -/

/-- What an operation does up to its first sleep. -/
inductive Pass
  | done (value : Int)
  | wouldBlock
  | sleeps

def Pass.Completes (p : Pass) : Prop := ∃ value, p = .done value

/-- The end of a round of `mqueue_read_op` and of `mqueue_write_op`: `wait` is the answer that makes it wait. -/
def mqueuePass (e : MqueueFd) (rc wait value : Int) : Pass :=
  if rc = 0 then .done value
  else if rc ≠ wait then .done (-1)
  else if e.openFlags &&& vfsONonblock ≠ 0 then .wouldBlock
  else .sleeps

/-- `mqueue_read_op`. -/
def mqueueReadOp (s : Mqueue.State) (impl : Option MqueueFd) (size : Nat) : Pass :=
  match impl with
  | none => .done (-1)
  | some e =>
    if mqueueFind s e.queueId = none then .done (-1)
    else
      let r := (mqueueReceive s e.queueId true size true).1
      mqueuePass e r.value mqEEmpty (r.sizeOut.getD 0)

/-- `mqueue_write_op`. -/
def mqueueWriteOp (s : Mqueue.State) (impl : Option MqueueFd) (size : Nat) (src : Nat → UInt8) : Pass :=
  match impl with
  | none => .done (-1)
  | some e =>
    if mqueueFind s e.queueId = none then .done (-1)
    else mqueuePass e (mqueueSend s e.queueId (some src) size).1.value mqEFull size

/-- The answer of a pipe's operation. -/
def Pass.ofPipe : Pipe.Answer → Pass
  | .ret value _ => if value = pipeEWouldBlock then .wouldBlock else .done value
  | .slept => .sleeps
  | .closed => .done 0

/-- `vfs_read`; `other` is what the driver of another node answers. -/
def vfsRead (w : World) (fd : Int) (size : Nat) (other : Int) : Pass :=
  if fd < 0 ∨ fd ≥ vfsMaxFd then .done (-1)
  else if size = 0 then .done 0
  else match w.entry fd with
  | none => .done (-1)
  | some e =>
    if e.openFlags &&& vfsORdonly = 0 then .done (-1)
    else match e.node with
      | none => .done (-1)
      | some (.queue impl) => mqueueReadOp w.queues impl size
      | some (.pipe p side) => .ofPipe (pipeReadOp (w.pipes p) side size true).1
      | some (.other _ _) => .done other

/-- `vfs_write`. -/
def vfsWrite (w : World) (fd : Int) (size : Nat) (src : Nat → UInt8) (other : Int) : Pass :=
  if fd < 0 ∨ fd ≥ vfsMaxFd then .done (-1)
  else if size = 0 then .done 0
  else match w.entry fd with
  | none => .done (-1)
  | some e =>
    if e.openFlags &&& vfsOWronly = 0 then .done (-1)
    else match e.node with
      | none => .done (-1)
      | some (.queue impl) => mqueueWriteOp w.queues impl size src
      | some (.pipe p side) => .ofPipe (pipeWriteOp (w.pipes p) side size (some src)).1
      | some (.other _ _) => .done other

/-! ## Ready means done -/

theorem Pass.Completes.done (value : Int) : (Pass.done value).Completes := ⟨value, rfl⟩

/-- An answer that does not make the operation wait. -/
theorem mqueuePass_completes {e : MqueueFd} {rc wait value : Int} (h : rc ≠ wait) :
    (mqueuePass e rc wait value).Completes := by
  unfold mqueuePass
  split
  · exact .done value
  · exact .done (-1)

theorem mqueueReadOp_completes {s : Mqueue.State} {impl : Option MqueueFd} (h : mqueueFdReadReady s impl)
    (size : Nat) : (mqueueReadOp s impl size).Completes := by
  cases impl with
  | none => exact .done (-1)
  | some e =>
    unfold mqueueReadOp
    dsimp only
    split
    · exact .done (-1)
    refine mqueuePass_completes ?_
    rw [mqueueFdReadReady, mqueueEndpointQueueId, Option.map_some, Option.getD_some] at h
    have herror : (-1 : Int) ≠ mqEEmpty := by decide
    unfold mqueueReceive
    simp only [Bool.not_true, Bool.false_eq_true, if_false]
    cases hfind : mqueueFind s e.queueId with
    | none => exact herror
    | some i =>
      rw [hfind] at h
      have hcount : (s.queues i).count ≠ 0 := Nat.ne_of_gt (of_decide_eq_true h)
      dsimp only
      cases (s.queues i).storage with
      | none => exact herror
      | some mem =>
        dsimp only
        rw [if_neg hcount]
        split
        · exact herror
        · exact (by decide : (0 : Int) ≠ mqEEmpty)

theorem mqueueWriteOp_completes {s : Mqueue.State} {impl : Option MqueueFd} (h : mqueueFdWriteReady s impl)
    (size : Nat) (src : Nat → UInt8) : (mqueueWriteOp s impl size src).Completes := by
  cases impl with
  | none => exact .done (-1)
  | some e =>
    unfold mqueueWriteOp
    dsimp only
    split
    · exact .done (-1)
    refine mqueuePass_completes ?_
    rw [mqueueFdWriteReady, mqueueEndpointQueueId, Option.map_some, Option.getD_some] at h
    have herror : (-1 : Int) ≠ mqEFull := by decide
    unfold mqueueSend
    dsimp only
    split
    · exact herror
    cases hfind : mqueueFind s e.queueId with
    | none => exact herror
    | some i =>
      rw [hfind] at h
      have hcount := of_decide_eq_true h
      dsimp only
      cases (s.queues i).storage with
      | none => exact herror
      | some mem =>
        dsimp only
        split
        · exact herror
        · rw [if_neg (Nat.not_le.mpr hcount)]
          exact (by decide : (0 : Int) ≠ mqEFull)

theorem Pass.Completes.ofPipe {value : Int} {bytes : List UInt8} (h : value ≠ pipeEWouldBlock) :
    (Pass.ofPipe (.ret value bytes)).Completes := by
  rw [Pass.ofPipe, if_neg h]
  exact .done value

theorem natCast_ne_wouldBlock (n : Nat) : (n : Int) ≠ pipeEWouldBlock := by
  rw [pipeEWouldBlock]
  omega

theorem pipeReadOp_completes {p : Pipe.State} {side : Side} (h : pipeReadReady p side) (size : Nat) :
    (Pass.ofPipe (pipeReadOp p side size true).1).Completes := by
  simp only [pipeReadReady, Bool.and_eq_true, Bool.or_eq_true, decide_eq_true_eq] at h
  obtain ⟨⟨himpl, hend⟩, hready⟩ := h
  unfold pipeReadOp
  rw [himpl, hend]
  split
  · exact .ofPipe (by decide)
  show (Pass.ofPipe (readPass _ size p.shared).1).Completes
  unfold readPass
  split
  · exact .ofPipe (natCast_ne_wouldBlock _)
  · rename_i hempty
    rw [hready.resolve_left hempty, if_pos (by rfl)]
    exact .ofPipe (by decide)

theorem pipeWriteOp_completes {p : Pipe.State} {side : Side} (h : pipeWriteReady p side) (size : Nat)
    (src : Nat → UInt8) : (Pass.ofPipe (pipeWriteOp p side size (some src)).1).Completes := by
  simp only [pipeWriteReady, Bool.and_eq_true, decide_eq_true_eq, Bool.not_eq_true'] at h
  obtain ⟨⟨himpl, hend⟩, hopen, hroom⟩ := h
  unfold pipeWriteOp
  dsimp only
  rw [himpl, hend]
  split
  · exact .ofPipe (by decide)
  · show (Pass.ofPipe (writePass _ size src p.shared).1).Completes
    rw [writePass, hopen, if_neg (by decide), if_pos hroom]
    exact .ofPipe (natCast_ne_wouldBlock _)

/-! ## The result -/

/-- A bit that the scan reports is the answer of the readiness function. -/
theorem scanOne_ready {w : World} {p : PollFd} {e : FdEntry} (he : w.entry p.fd = some e) :
    ((scanOne w p).revents &&& syscallPollin ≠ 0 → syscallFdReadReady w e = true) ∧
      ((scanOne w p).revents &&& syscallPollout ≠ 0 → syscallFdWriteReady w e = true) := by
  rw [scanOne, he]
  dsimp only
  constructor
  · intro h
    by_contra hno
    rw [if_neg (c := p.events &&& syscallPollin ≠ 0 ∧ _) fun hc => hno hc.2] at h
    revert h
    split <;> split <;> decide
  · intro h
    by_contra hno
    rw [if_neg (c := p.events &&& syscallPollout ≠ 0 ∧ _) fun hc => hno hc.2] at h
    revert h
    split <;> split <;> decide

/-- The descriptor is a pipe or a queue. -/
def Node.IsChannel : Node → Prop
  | .other _ _ => False
  | _ => True

/-- **What `poll` reports ready is done at once**, whatever the size. -/
theorem poll_truthful (w : World) (pfds : List PollFd) {p : PollFd} (hp : p ∈ (syscallPollScan w pfds).2)
    {e : FdEntry} {node : Node} (he : w.entry p.fd = some e) (hnode : e.node = some node)
    (hchannel : node.IsChannel) :
    (p.revents &&& syscallPollin ≠ 0 → ∀ size other, (vfsRead w p.fd size other).Completes) ∧
      (p.revents &&& syscallPollout ≠ 0 → ∀ size src other, (vfsWrite w p.fd size src other).Completes) := by
  obtain ⟨p', -, rfl⟩ := List.mem_map.mp hp
  obtain ⟨hread, hwrite⟩ := scanOne_ready (p := p') he
  constructor
  · intro hin size other
    have hready := hread hin
    rw [syscallFdReadReady, hnode] at hready
    unfold vfsRead
    split
    · exact .done (-1)
    split
    · exact .done 0
    rw [he]
    dsimp only
    split
    · exact .done (-1)
    rw [hnode]
    cases node with
    | queue impl => exact mqueueReadOp_completes hready size
    | pipe p side => exact pipeReadOp_completes hready size
    | other flags size => exact hchannel.elim
  · intro hout size src other
    have hready := hwrite hout
    rw [syscallFdWriteReady, hnode] at hready
    unfold vfsWrite
    split
    · exact .done (-1)
    split
    · exact .done 0
    rw [he]
    dsimp only
    split
    · exact .done (-1)
    rw [hnode]
    cases node with
    | queue impl => exact mqueueWriteOp_completes hready size src
    | pipe p side => exact pipeWriteOp_completes hready size src
    | other flags size => exact hchannel.elim

/-- A new pipe on the first two descriptors. -/
def onePipe : World where
  queues := Mqueue.mqueueInit
  pipes _ := Pipe.freshPipe (fun _ => 0) false
  table := some fun fd => ⟨true, some (.pipe 0 (if fd = 0 then .rd else .wr)), 0, 3⟩

theorem poll_truthful_onePipe : (scanOne onePipe ⟨1, 5, 0⟩).revents = syscallPollout ∧
    (vfsWrite onePipe 1 1 (fun _ => 7) 0).Completes := by
  have hp : scanOne onePipe ⟨1, 5, 0⟩ ∈ (syscallPollScan onePipe [⟨1, 5, 0⟩]).2 := (.head _)
  have hout : (scanOne onePipe ⟨1, 5, 0⟩).revents = syscallPollout := by decide
  have hready := poll_truthful onePipe [⟨1, 5, 0⟩] hp rfl rfl trivial
  exact ⟨hout, hready.2 (by rw [hout]; decide) 1 (fun _ => 7) 0⟩

end Lyth.Poll
