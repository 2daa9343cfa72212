/-
  COMMANDS TO A VIRTIO DEVICE (`drivers/virtio/virtio.c`).

    1. The program.  A call puts one or two chains into the available ring and polls `used->idx`, which the device
       advances by one for each chain that it completes, in any order and at any time.  Chains are numbered as they are
       made available.  What the descriptors hold is left out: the device decides by itself.
    2. Specification.  A call that returns 0 has had every chain of its own completed.
    3. Crux.  If the queue is `Idle` when a call is made, the index can only move by the call's own chains (`During`).
    4. The defect.  A call that timed out leaves its chain behind.  `virtio_send_cmd` returns 0 for ANY completion
       since the last one it saw, also for that of the chain left behind.
-/
import Lyth.Lib.Run

namespace Lyth.Virtio

open Function Run

/-- The queue: how many chains have been made available (`avail->idx` modulo 2^16) and how many completed
    (`used->idx`), which of them, and `last_used_idx`. -/
structure Queue where
  avail : Nat
  used : Nat
  done : Nat → Bool
  lastUsedIdx : Nat

def Queue.usedIdx (q : Queue) : Nat := q.used % 2 ^ 16

/-- The device completes a chain, once and after it was made available. -/
def Queue.complete (q : Queue) (n : Nat) : Queue :=
  if n < q.avail ∧ q.done n = false then { q with used := q.used + 1, done := update q.done n true } else q

/-- What the device does between two reads of `used->idx`. -/
def Queue.device (q : Queue) (ns : List Nat) : Queue := ns.foldl Queue.complete q

/-- The poll loop, with what the device does before each read. -/
def poll (ready : Queue → Bool) (dev : Nat → List Nat) : Nat → Queue → Bool × Queue
  | 0, q => (false, q)
  | timeout + 1, q =>
    if ready (q.device (dev (timeout + 1))) then (true, q.device (dev (timeout + 1)))
    else poll ready dev timeout (q.device (dev (timeout + 1)))

def pollTimeout : Nat := 10000000

/-- `virtio_send_cmd`.  After the loop it reads `used->idx` once more. -/
def virtioSendCmd (dev : Nat → List Nat) (q : Queue) : Int × Queue :=
  match poll (fun q => q.usedIdx ≠ q.lastUsedIdx) dev pollTimeout { q with avail := q.avail + 1 } with
  | (false, q) => (-1, q)
  | (true, q) =>
    let q := q.device (dev 0)
    (0, { q with lastUsedIdx := q.usedIdx })

/-- `virtio_send_cmd_pair`. -/
def virtioSendCmdPair (dev : Nat → List Nat) (q : Queue) : Int × Queue :=
  let target := (q.lastUsedIdx + 2) % 2 ^ 16
  match poll (fun q => q.usedIdx = target) dev pollTimeout { q with avail := q.avail + 2 } with
  | (false, q) =>
    let q := q.device (dev 0)
    (-1, { q with lastUsedIdx := q.usedIdx })
  | (true, q) => (0, { q with lastUsedIdx := target })

/-- A call, with what the device does meanwhile; what it did since the call before is part of it. -/
inductive Call
  | cmd (dev : Nat → List Nat)
  | pair (dev : Nat → List Nat)

def step (q : Queue) : Call → Int × Queue
  | .cmd dev => virtioSendCmd dev q
  | .pair dev => virtioSendCmdPair dev q

/-- Every chain made available is completed, and the driver has seen it. -/
structure Idle (q : Queue) : Prop where
  seen : q.lastUsedIdx = q.usedIdx
  done : ∀ n < q.avail, q.done n
  fresh : ∀ n, q.avail ≤ n → q.done n = false

/-- If the call returned 0, the chains it made available in `q` are completed, and the queue is idle. -/
def Completed (q : Queue) (r : Int × Queue) : Prop :=
  r.1 = 0 → (∀ n, q.avail ≤ n → n < r.2.avail → r.2.done n) ∧ Idle r.2

/-- A call that made `k` chains available in the queue `q₀` is under way. -/
structure During (q₀ : Queue) (k : Nat) (q : Queue) : Prop where
  avail : q.avail = q₀.avail + k
  seen : q.lastUsedIdx = q₀.lastUsedIdx
  old : ∀ n < q₀.avail, q.done n
  fresh : ∀ n, q₀.avail + k ≤ n → q.done n = false
  used : q.used = q₀.used + (q.done q₀.avail).toNat + (q.done (q₀.avail + 1)).toNat

section

variable {q₀ q : Queue} {k : Nat}

theorem Idle.during (h : Idle q₀) (k : Nat) : During q₀ k { q₀ with avail := q₀.avail + k } := by
  refine ⟨rfl, rfl, h.done, fun n hn => h.fresh n (by omega), ?_⟩
  rw [h.fresh _ (Nat.le_refl _), h.fresh _ (Nat.le_succ _)]
  rfl

theorem During.complete (hk : k ≤ 2) (h : During q₀ k q) (n : Nat) : During q₀ k (q.complete n) := by
  unfold Queue.complete
  split
  · rename_i hn
    rw [h.avail] at hn
    have hge : q₀.avail ≤ n := by
      by_contra hlt
      rw [h.old n (by omega)] at hn
      exact Bool.noConfusion hn.2
    refine ⟨h.avail, h.seen, fun m hm => ?_, fun m hm => ?_, ?_⟩
    · exact (update_of_ne (by omega) ..).trans (h.old m hm)
    · exact (update_of_ne (by omega) ..).trans (h.fresh m hm)
    · -- it is one of the call's own
      have hused := h.used
      dsimp only
      by_cases heq : n = q₀.avail
      · subst heq
        rw [hn.2] at hused
        rw [update_self, update_of_ne (by omega), hused]
        simp only [Bool.toNat_true, Bool.toNat_false]
        omega
      · obtain rfl : n = q₀.avail + 1 := by omega
        rw [hn.2] at hused
        rw [update_self, update_of_ne (by omega), hused]
        rfl
  · exact h

theorem During.device (hk : k ≤ 2) (ns : List Nat) (h : During q₀ k q) : During q₀ k (q.device ns) := by
  unfold Queue.device
  induction ns generalizing q with
  | nil => exact h
  | cons n ns ih => exact ih (h.complete hk n)

/-- What is completed stays so. -/
theorem device_done {n : Nat} (ns : List Nat) (h : q.done n) : (q.device ns).done n := by
  unfold Queue.device
  induction ns generalizing q with
  | nil => exact h
  | cons m ns ih =>
    refine ih ?_
    unfold Queue.complete
    split
    · by_cases heq : n = m
      · exact heq ▸ update_self ..
      · exact (update_of_ne heq ..).trans h
    · exact h

/-- **The poll loop.** -/
theorem During.poll (hk : k ≤ 2) (ready : Queue → Bool) (dev : Nat → List Nat) (timeout : Nat) (h : During q₀ k q) :
    During q₀ k (poll ready dev timeout q).2 ∧ ((poll ready dev timeout q).1 → ready (poll ready dev timeout q).2) := by
  induction timeout generalizing q with
  | zero => exact ⟨h, Bool.noConfusion⟩
  | succ timeout ih =>
    have hnext := h.device hk (dev (timeout + 1))
    unfold Virtio.poll
    split
    · exact ⟨hnext, fun _ => by assumption⟩
    · exact ih hnext

/-- The call's own chains are completed, and the driver has seen it. -/
theorem During.finished (h : During q₀ k q) (hown : ∀ n, q₀.avail ≤ n → n < q₀.avail + k → q.done n) {idx : Nat}
    (hidx : idx = q.usedIdx) (answer : Int) : Completed q₀ (answer, { q with lastUsedIdx := idx }) := by
  rw [← h.avail] at hown
  refine fun _ => ⟨hown, hidx, fun n hn => ?_, fun n hn => h.fresh n (h.avail ▸ hn)⟩
  by_cases hold : n < q₀.avail
  · exact h.old n hold
  · exact hown n (by omega) hn

theorem Idle.sendCmd (h : Idle q) (dev : Nat → List Nat) : Completed q (virtioSendCmd dev q) := by
  have hpoll := (h.during 1).poll (by decide) (fun q => q.usedIdx ≠ q.lastUsedIdx) dev pollTimeout
  unfold virtioSendCmd
  generalize Virtio.poll _ dev pollTimeout _ = r at hpoll ⊢
  obtain ⟨ok, q₁⟩ := r
  obtain ⟨hduring, hready⟩ := hpoll
  dsimp only at hduring hready
  cases ok with
  | false => exact fun hok => absurd hok (by decide : (-1 : Int) ≠ 0)
  | true =>
    refine (hduring.device (by decide) (dev 0)).finished (fun n hlo hhi => device_done _ ?_) rfl 0
    obtain rfl : n = q.avail := by omega
    by_contra hnot
    -- without a completion the index does not move
    have hused := hduring.used
    rw [Bool.eq_false_of_not_eq_true hnot, hduring.fresh _ (Nat.le_refl _)] at hused
    refine of_decide_eq_true (hready rfl) ?_
    rw [hduring.seen, h.seen, Queue.usedIdx, Queue.usedIdx, hused]
    rfl

theorem Idle.sendCmdPair (h : Idle q) (dev : Nat → List Nat) : Completed q (virtioSendCmdPair dev q) := by
  have hpoll := (h.during 2).poll (by decide) (fun q' => q'.usedIdx = (q.lastUsedIdx + 2) % 2 ^ 16) dev pollTimeout
  unfold virtioSendCmdPair
  dsimp only
  generalize Virtio.poll _ dev pollTimeout _ = r at hpoll ⊢
  obtain ⟨ok, q₁⟩ := r
  obtain ⟨hduring, hready⟩ := hpoll
  dsimp only at hduring hready
  cases ok with
  | false => exact fun hok => absurd hok (by decide : (-1 : Int) ≠ 0)
  | true =>
    have htarget := of_decide_eq_true (hready rfl)
    refine hduring.finished (fun n hlo hhi => ?_) htarget.symm 0
    -- the index has moved by both
    have hused := hduring.used
    rw [h.seen, Queue.usedIdx, Queue.usedIdx] at htarget
    have hle := Bool.toNat_le (q₁.done q.avail)
    have hle' := Bool.toNat_le (q₁.done (q.avail + 1))
    obtain rfl | rfl : n = q.avail ∨ n = q.avail + 1 := by omega
    · exact Bool.toNat_eq_one.mp (by omega)
    · exact Bool.toNat_eq_one.mp (by omega)

end

/-- **Command completion.**  In every run in which the queue is idle whenever a call is made, a call returns 0 only
    when the device has completed the chains of the call; and the queue is then idle again. -/
theorem completion_matches (q : Queue) (calls : List Call) (h : Guarded step (fun q _ => Idle q) q calls) :
    Guarded step (fun q c => Completed q (step q c)) q calls := by
  induction calls generalizing q with
  | nil => trivial
  | cons c calls ih =>
    refine ⟨?_, ih _ h.2⟩
    cases c with
    | cmd dev => exact h.1.sendCmd dev
    | pair dev => exact h.1.sendCmdPair dev

/-- A new queue. -/
def fresh : Queue := ⟨0, 0, fun _ => false, 0⟩

/-- A device that does nothing. -/
def silent : Nat → List Nat := fun _ => []

/-- A command, a pair whose second chain is completed first, and another command. -/
def threeCalls : List Call :=
  [.cmd fun _ => [0], .pair fun timeout => if timeout = pollTimeout then [2] else [1], .cmd fun _ => [3]]

theorem completion_matches_three : (exec step fresh threeCalls).1 = [0, 0, 0] ∧
    ∀ n < 4, (exec step fresh threeCalls).2.done n := by
  have hfresh : Idle fresh := ⟨rfl, fun _ h => absurd h (Nat.not_lt_zero _), fun _ _ => rfl⟩
  have hfirst := (hfresh.sendCmd (fun _ => [0]) rfl).2
  have hpair := (hfirst.sendCmdPair (fun timeout => if timeout = pollTimeout then [2] else [1]) rfl).2
  have hall := completion_matches fresh threeCalls ⟨hfresh, hfirst, hpair, trivial⟩
  exact ⟨rfl, (hall.2.2.1 rfl).2.done⟩

theorem poll_silent {ready : Queue → Bool} {q : Queue} (h : ready q = false) (timeout : Nat) :
    poll ready silent timeout q = (false, q) := by
  induction timeout with
  | zero => rfl
  | succ timeout ih =>
    unfold poll
    rw [show q.device (silent (timeout + 1)) = q from rfl, h]
    exact ih

theorem virtioSendCmd_silent {q : Queue} (h : q.usedIdx = q.lastUsedIdx) :
    virtioSendCmd silent q = (-1, { q with avail := q.avail + 1 }) := by
  unfold virtioSendCmd
  rw [poll_silent (decide_eq_false (not_not_intro h))]

/-- A command times out and is completed later: the next one returns 0 at once. -/
theorem late_completion_taken : ∃ q, virtioSendCmd silent fresh = (-1, q) ∧
    (virtioSendCmd silent (q.device [0])).1 = 0 ∧ (virtioSendCmd silent (q.device [0])).2.done 1 = false :=
  ⟨_, virtioSendCmd_silent rfl, rfl, rfl⟩

end Lyth.Virtio
