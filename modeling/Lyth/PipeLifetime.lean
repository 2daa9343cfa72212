/-
  THE LIFE OF A PIPE'S OBJECTS (`pipe_create`, `pipe_close_op`).

  1. THE PROGRAM.  A call of `pipe_create` makes up to five objects with `kmalloc`: the shared ring and, for each end,
     a node and an end record.  Its pointers lead from a node to its record and from there to the ring, and are never
     changed but for the one that `pipe_close_op` clears; so the objects of a call are a record of their own.  To
     read, write or free an object that is not there is a FAULT (`none`): a run without a fault uses no freed
     object and frees none twice.
  2. THE SPECIFICATION is a ledger with a line for each call: whether it made a pipe, and which ends are open.
     `Line.objects` says what there should be: a record for each open end, and the ring while one of them is open.
  3. THE DEFECT.  When the write end cannot be made, the read end is taken down by `pipe_close_op`, which leaves
     the ring to the other end; but there is no other end (`failed_create_keeps_ring`).
-/
import Lyth.Pipe

namespace Lyth.PipeLife

open Run Function
open Pipe (Side pipeFlagNonblock)

/-! ## The program -/

/-- What there is of the five objects of a call: of the ring the two flags, of a node whether its `impl` is set, of an
    end record whether it is `nonblock`. -/
structure Objects where
  shared : Option (Bool × Bool)
  rdNode : Option Bool
  rdEnd : Option Bool
  wrNode : Option Bool
  wrEnd : Option Bool
deriving DecidableEq

def Objects.none : Objects := ⟨.none, .none, .none, .none, .none⟩

def Objects.node (o : Objects) : Side → Option Bool
  | .rd => o.rdNode
  | .wr => o.wrNode

def Objects.pipeEnd (o : Objects) : Side → Option Bool
  | .rd => o.rdEnd
  | .wr => o.wrEnd

def Objects.setShared (o : Objects) (x : Option (Bool × Bool)) : Objects := { o with shared := x }

def Objects.setNode (o : Objects) (x : Option Bool) : Side → Objects
  | .rd => { o with rdNode := x }
  | .wr => { o with wrNode := x }

def Objects.setEnd (o : Objects) (x : Option Bool) : Side → Objects
  | .rd => { o with rdEnd := x }
  | .wr => { o with wrEnd := x }

/-- `kfree` of the ring, of a node and of an end record. -/
def Objects.freeShared (o : Objects) : Option Objects := o.shared.map fun _ => o.setShared .none

@[inherit_doc Objects.freeShared]
def Objects.freeNode (o : Objects) (side : Side) : Option Objects := (o.node side).map fun _ => o.setNode .none side

@[inherit_doc Objects.freeShared]
def Objects.freeEnd (o : Objects) (side : Side) : Option Objects := (o.pipeEnd side).map fun _ => o.setEnd .none side

/-- `pipe_close_op`, on the node of a side. -/
def pipeCloseOp (o : Objects) (side : Side) : Option Objects := do
  let impl ← o.node side
  if !impl then some o
  else
    let _ ← o.pipeEnd side
    let (readersOpen, writersOpen) ← o.shared
    let readersOpen := if side = .rd then false else readersOpen
    let writersOpen := if side = .rd then writersOpen else false
    let o := o.setShared (some (readersOpen, writersOpen))
    let o ← if !readersOpen && !writersOpen then o.freeShared else some o
    let o ← o.freeEnd side
    some (o.setNode (some false) side)

/-- Which allocations of a call succeed. -/
structure Kmalloc where
  shared : Bool
  node : Side → Bool
  pipeEnd : Side → Bool

/-- `pipe_make_end_node`: whether both objects could be made. -/
def pipeMakeEndNode (k : Kmalloc) (side : Side) (nonblock : Bool) (o : Objects) : Option (Bool × Objects) :=
  if !k.node side then some (false, o)
  else
    let o := o.setNode (some false) side
    if !k.pipeEnd side then (o.freeNode side).map fun o => (false, o)
    else some (true, (o.setNode (some true) side).setEnd (some nonblock) side)

/-- `pipe_create`. -/
def pipeCreate (k : Kmalloc) (outs : Bool) (flags : Nat) : Option Objects :=
  if !outs || !k.shared then some .none
  else do
    let o := Objects.none.setShared (some (true, true))
    let nonblock := flags &&& pipeFlagNonblock != 0
    let (rd, o) ← pipeMakeEndNode k .rd nonblock o
    if !rd then o.freeShared
    else
      let (wr, o) ← pipeMakeEndNode k .wr nonblock o
      if !wr then (pipeCloseOp o .rd).bind fun o => o.freeNode .rd
      else some o

/-! ## Runs -/

inductive Call
  | create (k : Kmalloc) (outs : Bool) (flags : Nat)
  | close (n : Nat) (side : Side)

/-- The objects of the `n`-th call of `pipe_create`, and how often it was called. -/
structure World where
  objects : Nat → Objects
  calls : Nat

/-- One call; a close is of a node that a caller got from the `n`-th call. -/
def World.step (w : World) : Call → Option World
  | .create k outs flags =>
    (pipeCreate k outs flags).map fun o => ⟨update w.objects w.calls o, w.calls + 1⟩
  | .close n side =>
    if (w.objects n).node side = none then some w
    else (pipeCloseOp (w.objects n) side).map fun o => { w with objects := update w.objects n o }

/-- After a fault there is nothing to say. -/
def step (w : Option World) (c : Call) : Unit × Option World := ((), w.bind fun w => w.step c)

def start : Option World := some ⟨fun _ => .none, 0⟩

/-! ## The specification -/

/-- A call of `pipe_create`: no pipe, or one with the ends that are open. -/
inductive Line
  | failed
  | made (rd wr nonblock : Bool)
deriving DecidableEq

/-- **The objects there should be.** -/
def Line.objects : Line → Objects
  | .failed => .none
  | .made rd wr nonblock =>
    { shared := if rd || wr then some (rd, wr) else none
      rdNode := some rd
      rdEnd := if rd then some nonblock else none
      wrNode := some wr
      wrEnd := if wr then some nonblock else none }

def Line.create (k : Kmalloc) (outs : Bool) (flags : Nat) : Line :=
  if outs && k.shared && k.node .rd && k.pipeEnd .rd && k.node .wr && k.pipeEnd .wr then
    .made true true (flags &&& pipeFlagNonblock != 0)
  else .failed

def Line.close : Line → Side → Line
  | .failed, _ => .failed
  | .made _ wr nonblock, .rd => .made false wr nonblock
  | .made rd _ nonblock, .wr => .made rd false nonblock

/-- The lines of the calls made so far. -/
structure Ledger where
  lines : Nat → Line
  calls : Nat

def Ledger.empty : Ledger := ⟨fun _ => .failed, 0⟩

/-- The world with the objects of the lines. -/
def Ledger.world (l : Ledger) : World := ⟨fun n => (l.lines n).objects, l.calls⟩

def Ledger.step (l : Ledger) : Call → Unit × Ledger
  | .create k outs flags => ((), ⟨update l.lines l.calls (.create k outs flags), l.calls + 1⟩)
  | .close n side => ((), { l with lines := update l.lines n ((l.lines n).close side) })

/-- A pipe whose read end was made gets its write end. -/
def Whole (_ : Option World) : Call → Prop
  | .create k outs _ => outs → k.shared → k.node .rd → k.pipeEnd .rd →
      k.node .wr ∧ k.pipeEnd .wr
  | .close _ _ => True

/-! ## The result -/

/-- **Closing an end**: its record goes, and with the second end the ring. -/
theorem pipeCloseOp_made (rd wr nonblock : Bool) (side : Side) :
    pipeCloseOp (Line.made rd wr nonblock).objects side = some ((Line.made rd wr nonblock).close side).objects := by
  cases side with
  | rd =>
    cases rd with
    | false => rfl
    | true => cases wr <;> rfl
  | wr =>
    cases wr with
    | false => cases rd <;> rfl
    | true => cases rd <;> rfl

/-- Making an end: both its objects, or none. -/
theorem pipeMakeEndNode_eq (k : Kmalloc) {side : Side} (nonblock : Bool) {o : Objects} (hnew : o.node side = none) :
    pipeMakeEndNode k side nonblock o = some (if k.node side && k.pipeEnd side then
      (true, (o.setNode (some true) side).setEnd (some nonblock) side) else (false, o)) := by
  unfold pipeMakeEndNode
  cases k.node side with
  | false => rfl
  | true =>
    cases side with
    | rd =>
      obtain ⟨sh, rdNode, rdEnd, wrNode, wrEnd⟩ := o
      cases hnew
      cases k.pipeEnd .rd <;> rfl
    | wr =>
      obtain ⟨sh, rdNode, rdEnd, wrNode, wrEnd⟩ := o
      cases hnew
      cases k.pipeEnd .wr <;> rfl

/-- **Making a pipe**: all its objects, or none. -/
theorem pipeCreate_eq {k : Kmalloc} {outs : Bool} {flags : Nat} (hwhole : Whole none (.create k outs flags)) :
    pipeCreate k outs flags = some (Line.create k outs flags).objects := by
  unfold pipeCreate Line.create
  generalize (flags &&& pipeFlagNonblock != 0) = nonblock
  dsimp only
  rw [pipeMakeEndNode_eq k nonblock rfl]
  cases houts : outs with
  | false => rfl
  | true =>
    cases hshared : k.shared with
    | false => rfl
    | true =>
      cases hnode : k.node .rd with
      | false => rfl
      | true =>
        cases hend : k.pipeEnd .rd with
        | false => rfl
        | true =>
          -- the read end was made, and so is the write end
          obtain ⟨hnode', hend'⟩ := hwhole houts hshared hnode hend
          simp only [Bool.not_true, Bool.or_self, Bool.false_eq_true, if_false, Bool.and_self, if_true,
            Option.bind_eq_bind, Option.bind_some]
          rw [pipeMakeEndNode_eq k nonblock rfl, hnode', hend']
          rfl

/-- One call keeps the ledger. -/
theorem step_accounts (w : Option World) (l : Ledger) (c : Call) (h : w = some l.world) (hwhole : Whole w c) :
    (step w c).1 = (l.step c).1 ∧ (step w c).2 = some (l.step c).2.world := by
  refine ⟨rfl, ?_⟩
  have hupdate : ∀ n x calls, Ledger.world ⟨update l.lines n x, calls⟩
      = ⟨update l.world.objects n x.objects, calls⟩ := by
    intro n x calls
    rw [Ledger.world, World.mk.injEq]
    refine ⟨funext fun m => ?_, rfl⟩
    dsimp only
    by_cases hm : m = n
    · rw [hm, update_self, update_self]
    · rw [update_of_ne hm, update_of_ne hm]
      rfl
  subst h
  cases c with
  | create k outs flags =>
    show (pipeCreate k outs flags).map _ = some (Ledger.world ⟨update l.lines _ _, _⟩)
    rw [pipeCreate_eq hwhole, hupdate]
    rfl
  | close n side =>
    show World.step l.world (.close n side) = some (Ledger.world ⟨update l.lines _ _, _⟩)
    rw [hupdate, World.step]
    have hobj : l.world.objects n = (l.lines n).objects := rfl
    cases hline : l.lines n with
    | failed =>
      rw [hline] at hobj
      have hnode : Line.failed.objects.node side = none := by cases side <;> rfl
      rw [hobj, if_pos hnode, Line.close, ← hobj, update_eq_self]
      rfl
    | made rd wr nonblock =>
      rw [hline] at hobj
      have hnode : (Line.made rd wr nonblock).objects.node side ≠ none := by
        cases side <;> exact Option.some_ne_none _
      rw [hobj, if_neg hnode, pipeCloseOp_made]
      rfl

/-- **Objects are released exactly once**: no run faults, and the objects there are at its end are
    those of the ledger: a record for each open end, and the ring of a pipe with an open end. -/
theorem pipe_objects_released (calls : List Call) (hwhole : Guarded step Whole start calls) :
    (exec step start calls).2 = some (exec Ledger.step .empty calls).2.world :=
  (exec_refines (R := fun w l => w = some (Ledger.world l)) step_accounts calls start .empty rfl hwhole).2

/-- A pipe is made, a second one fails for want of its first end record, and the first is closed at both ends. -/
def twoCreates : List Call :=
  [.create ⟨true, fun _ => true, fun _ => true⟩ true 0, .create ⟨true, fun _ => true, fun _ => false⟩ true 0,
    .close 0 .wr, .close 0 .rd]

theorem pipe_objects_released_two :
    ((exec step start twoCreates).2.bind fun w => (w.objects 0).shared) = none ∧
      ((exec step start twoCreates).2.bind fun w => (w.objects 1).rdNode) = none := by
  have hwhole : Guarded step Whole start twoCreates :=
    ⟨fun _ _ _ _ => ⟨rfl, rfl⟩, fun _ _ _ h => absurd h (by decide), trivial, trivial, trivial⟩
  rw [pipe_objects_released twoCreates hwhole]
  exact ⟨by decide, by decide⟩

/-- The write end's record cannot be allocated. -/
def noWriteEnd : Kmalloc := ⟨true, fun _ => true, fun side => side = .rd⟩

/-- **A failed `pipe_create` keeps the ring**: no pipe was made, and the ring is still there. -/
theorem failed_create_keeps_ring :
    ((exec step start [.create noWriteEnd true 0]).2.bind fun w => (w.objects 0).shared) = some (false, true) ∧
      (exec Ledger.step .empty [.create noWriteEnd true 0]).2.lines 0 = .failed :=
  ⟨by decide, by decide⟩

end Lyth.PipeLife
