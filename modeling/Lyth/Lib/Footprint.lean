/-
  Readers: computations over a memory that say which bytes they look at.

  A parser of a buffer `buf[0 .. len)` in a language without bounds checks reads whatever the fields of the
  buffer tell it to read.  A `Reader` runs on a memory that goes on behind the buffer and returns, beside its
  value, the TRACE of the spans it touched: bytes read, and ranges handed to a callee as "this much is yours".

    1. The record cannot lie.  `truthful` is a field: two memories that agree on the bytes the trace names
       give the same trace and the same value, so a read that is not recorded cannot be built.
    2. `Fits len m x`: every span of the run of `x` on `m` lies in the first `len` bytes.
    3. Crux.  A reader is deterministic, so `Fits` of a sequence is the conjunction of `Fits` of its parts AT THE
       VALUES READ (`fits_bind`).  The bounds of a whole parser are thus computed by `simp`, exactly, and what
       is left is arithmetic.
-/
import Mathlib.Data.List.Basic
import Lyth.Lib.Bytes

namespace Lyth.Footprint

open Bytes (Mem getLE getLE_congr)

/-- Bytes read, or a range handed to a callee. -/
inductive Use
  | read
  | lend
deriving DecidableEq

/-- `count` bytes from `start` on. -/
structure Span where
  use : Use
  start : Nat
  count : Nat
deriving DecidableEq

/-- The count is not more than the bytes that remain in a buffer of `len` bytes. -/
def Span.Inside (len : Nat) (p : Span) : Prop := p.count ≤ len - p.start

instance (len : Nat) (p : Span) : Decidable (p.Inside len) := inferInstanceAs (Decidable (_ ≤ _))

/-- The memories hold the same bytes where the trace says they were read. -/
def Agree (trace : List Span) (m m' : Mem) : Prop :=
  ∀ p ∈ trace, p.use = .read → ∀ i < p.count, m (p.start + i) = m' (p.start + i)

/-- A computation over a memory, with the trace of the spans it touches. -/
structure Reader (α : Type) where
  run : Mem → List Span × α
  truthful : ∀ m m', Agree (run m).1 m m' → run m' = run m

variable {α β : Type} {len : Nat} {m : Mem} (a n : Nat)

def Reader.trace (x : Reader α) (m : Mem) : List Span := (x.run m).1

def Reader.value (x : Reader α) (m : Mem) : α := (x.run m).2

/-- The spans of a run lie in the buffer. -/
def Fits (len : Nat) (m : Mem) (x : Reader α) : Prop := ∀ p ∈ x.trace m, p.Inside len

instance (len : Nat) (m : Mem) (x : Reader α) : Decidable (Fits len m x) :=
  inferInstanceAs (Decidable (∀ p ∈ x.trace m, p.Inside len))

/-! ## Sequences -/

protected def Reader.pure (a : α) : Reader α where
  run _ := ([], a)
  truthful _ _ _ := rfl

protected def Reader.bind (x : Reader α) (f : α → Reader β) : Reader β where
  run m := ((x.run m).1 ++ ((f (x.run m).2).run m).1, ((f (x.run m).2).run m).2)
  truthful m m' h := by
    -- The first part reads the same, so the second part is the same reader, and reads the same.
    have hx : x.run m' = x.run m := x.truthful m m' fun p hp => h p (List.mem_append_left _ hp)
    have hf : (f (x.run m).2).run m' = (f (x.run m).2).run m :=
      (f (x.run m).2).truthful m m' fun p hp => h p (List.mem_append_right _ hp)
    rw [hx, hf]

instance : Monad Reader where
  pure := Reader.pure
  bind := Reader.bind

@[simp] theorem fits_pure (a : α) : Fits len m (pure a : Reader α) ↔ True :=
  ⟨fun _ => trivial, fun _ _ hp => nomatch hp⟩

/-- **The sequence rule.**  A sequence stays inside exactly when its first part does and the rest does, at the
    value the first part has read. -/
@[simp] theorem fits_bind (x : Reader α) (f : α → Reader β) :
    Fits len m (x >>= f) ↔ Fits len m x ∧ Fits len m (f (x.value m)) := by
  constructor
  · intro h
    exact ⟨fun p hp => h p (List.mem_append_left _ hp), fun p hp => h p (List.mem_append_right _ hp)⟩
  · rintro ⟨hx, hf⟩ p hp
    rcases List.mem_append.mp hp with hp | hp
    · exact hx p hp
    · exact hf p hp

@[simp] theorem fits_ite (c : Prop) [Decidable c] (x y : Reader α) :
    Fits len m (if c then x else y) ↔ (c → Fits len m x) ∧ (¬c → Fits len m y) := by
  by_cases hc : c
  · simp [hc]
  · simp [hc]

/-! ## Reads -/

/-- Two bytes in network order. -/
def be16At (m : Mem) (a : Nat) : Nat := (m a).toNat * 256 + (m (a + 1)).toNat

/-- Four bytes in network order. -/
def be32At (m : Mem) (a : Nat) : Nat := be16At m a * 65536 + be16At m (a + 2)

/-- Four bytes as a little-endian word. -/
def wordAt (m : Mem) (a : Nat) : UInt32 := UInt32.ofNat (getLE m a 4)

/-- The `n` bytes from `a` on. -/
def bytesAt (m : Mem) (a n : Nat) : List UInt8 := (List.range n).map fun i => m (a + i)

theorem be16At_lt (m : Mem) (a : Nat) : be16At m a < 2 ^ 16 := by
  have h0 := (m a).toNat_lt
  have h1 := (m (a + 1)).toNat_lt
  unfold be16At
  omega

/-- Reads the bytes `[a, a + n)` and decodes them; the decoder looks at no others. -/
def readWith (a n : Nat) (decode : Mem → α)
    (hdecode : ∀ m m' : Mem, (∀ i < n, m (a + i) = m' (a + i)) → decode m = decode m') : Reader α where
  run m := ([⟨.read, a, n⟩], decode m)
  truthful m m' h := by
    have hbytes : decode m = decode m' := hdecode m m' (h ⟨.read, a, n⟩ (List.mem_singleton.mpr rfl) rfl)
    rw [hbytes]

theorem fits_readWith {a n : Nat} {decode : Mem → α} {hdecode} :
    Fits len m (readWith a n decode hdecode) ↔ n ≤ len - a :=
  List.forall_mem_singleton

def byte (a : Nat) : Reader UInt8 := readWith a 1 (fun m => m a) fun _ _ h => h 0 Nat.one_pos

def be16 (a : Nat) : Reader Nat :=
  readWith a 2 (fun m => be16At m a) fun m m' h => by
    have h0 : m a = m' a := h 0 (by omega)
    rw [be16At, be16At, h0, h 1 (by omega)]

def be32 (a : Nat) : Reader Nat :=
  readWith a 4 (fun m => be32At m a) fun m m' h => by
    have h0 : m a = m' a := h 0 (by omega)
    rw [be32At, be32At, be16At, be16At, be16At, be16At, h0, h 1 (by omega), h 2 (by omega),
      show m (a + 2 + 1) = m' (a + 2 + 1) from h 3 (by omega)]

def word (a : Nat) : Reader UInt32 :=
  readWith a 4 (fun m => wordAt m a) fun m m' h => by
    have hfield : getLE m a 4 = getLE m' a 4 := getLE_congr fun b hab hb => by
      have hi := h (b - a) (by omega)
      rwa [Nat.add_sub_cancel' hab] at hi
    rw [wordAt, wordAt, hfield]

def copy (a n : Nat) : Reader (List UInt8) :=
  readWith a n (fun m => bytesAt m a n) fun _ _ h =>
    List.map_congr_left fun i hi => h i (List.mem_range.mp hi)

/-- Hands `n` bytes from `a` on to a callee. -/
def lend (a n : Nat) : Reader Unit where
  run _ := ([⟨.lend, a, n⟩], ())
  truthful _ _ _ := rfl

@[simp] theorem fits_byte : Fits len m (byte a) ↔ 1 ≤ len - a := fits_readWith
@[simp] theorem fits_be16 : Fits len m (be16 a) ↔ 2 ≤ len - a := fits_readWith
@[simp] theorem fits_be32 : Fits len m (be32 a) ↔ 4 ≤ len - a := fits_readWith
@[simp] theorem fits_word : Fits len m (word a) ↔ 4 ≤ len - a := fits_readWith
@[simp] theorem fits_copy : Fits len m (copy a n) ↔ n ≤ len - a := fits_readWith
@[simp] theorem fits_lend : Fits len m (lend a n) ↔ n ≤ len - a := List.forall_mem_singleton

-- Rewriting a value inside a condition has to rewrite its `Decidable` instance too, so these are not used as
-- definitional equations: hence the parentheses.
@[simp] theorem value_byte : (byte a).value m = m a := (rfl)
@[simp] theorem value_be16 : (be16 a).value m = be16At m a := (rfl)
@[simp] theorem value_be32 : (be32 a).value m = be32At m a := (rfl)
@[simp] theorem value_word : (word a).value m = wordAt m a := (rfl)
@[simp] theorem value_copy : (copy a n).value m = bytesAt m a n := (rfl)

end Lyth.Footprint
