/-
  LITTLE-ENDIAN FIELDS OF A BYTE MEMORY.

  A memory is a byte for every address.  `getLE m a n` reads the `n` bytes from `a` as a number,
  lowest byte first; `putLE m a n v` stores the low `n` bytes of `v` there.

  The two rules that programs need: a field read back after it was stored (`getLE_putLE_self`),
  and a field that does not meet the one stored (`getLE_putLE_of_apart`).  The last section has the functions on
  C strings that several programs use.
-/
import Mathlib.Tactic.Ring

namespace Lyth.Bytes

/-- A byte for every address. -/
abbrev Mem := Nat → UInt8

/-- The number in the `n` bytes from `a`, lowest byte first. -/
def getLE (m : Mem) (a : Nat) : Nat → Nat
  | 0 => 0
  | n + 1 => (m a).toNat + 256 * getLE m (a + 1) n

/-- The low `n` bytes of `v`, stored from `a`. -/
def putLE (m : Mem) (a n v : Nat) : Mem := fun b =>
  if a ≤ b ∧ b < a + n then UInt8.ofNat (v / 256 ^ (b - a)) else m b

/-- `n` bytes from `a` and `k` bytes from `b` have none in common. -/
def Apart (a n b k : Nat) : Prop := a + n ≤ b ∨ b + k ≤ a

instance (a n b k : Nat) : Decidable (Apart a n b k) :=
  inferInstanceAs (Decidable (_ ∨ _))

theorem Apart.symm {a n b k : Nat} (h : Apart a n b k) : Apart b k a n := Or.symm h

variable {m : Mem} {a n v b : Nat}

theorem putLE_of_not_mem (h : ¬(a ≤ b ∧ b < a + n)) : putLE m a n v b = m b := if_neg h

/-- A field is the bytes it covers. -/
theorem getLE_congr {m m' : Mem} (h : ∀ b, a ≤ b → b < a + n → m b = m' b) :
    getLE m a n = getLE m' a n := by
  induction n generalizing a with
  | zero => rfl
  | succ n ih =>
    rw [getLE, getLE, h a (Nat.le_refl _) (by omega)]
    rw [ih fun b h1 h2 => h b (by omega) (by omega)]

theorem getLE_lt (m : Mem) (a n : Nat) : getLE m a n < 256 ^ n := by
  induction n generalizing a with
  | zero => exact Nat.one_pos
  | succ n ih =>
    have hbyte : (m a).toNat < 256 := (m a).toNat_lt
    have hrest := ih (a + 1)
    rw [getLE, Nat.pow_succ]
    omega

/-- Bytes that are the digits of `v` read as `v`, cut to the width of the field. -/
theorem getLE_of_digits
    (h : ∀ i, i < n → m (a + i) = UInt8.ofNat (v / 256 ^ i)) : getLE m a n = v % 256 ^ n := by
  induction n generalizing a v with
  | zero => rw [getLE, Nat.pow_zero, Nat.mod_one]
  | succ n ih =>
    have hlow : (m a).toNat = v % 256 := by
      have h0 := h 0 (by omega)
      rw [Nat.add_zero, Nat.pow_zero, Nat.div_one] at h0
      rw [h0]
      rfl
    have hrest : getLE m (a + 1) n = v / 256 % 256 ^ n := by
      apply ih
      intro i hi
      have hd := h (i + 1) (by omega)
      rw [Nat.div_div_eq_div_mul, ← Nat.pow_succ']
      rw [← hd]
      congr 1
      omega
    rw [getLE, hlow, hrest, Nat.pow_succ', Nat.mod_mul]

/-- Each byte of a field is a digit of it. -/
theorem byte_of_getLE (m : Mem) (a : Nat) {n i : Nat} (hi : i < n) :
    (m (a + i)).toNat = getLE m a n / 256 ^ i % 256 := by
  induction n generalizing a i with
  | zero => cases hi
  | succ n ih =>
    have hbyte : (m a).toNat < 256 := (m a).toNat_lt
    rw [getLE]
    cases i with
    | zero =>
      rw [Nat.add_zero, Nat.pow_zero, Nat.div_one]
      omega
    | succ i =>
      have hshift : ((m a).toNat + 256 * getLE m (a + 1) n) / 256 = getLE m (a + 1) n := by omega
      rw [Nat.pow_succ', ← Nat.div_div_eq_div_mul, hshift, ← ih (a + 1) (by omega)]
      congr 2
      omega

/-- **A field read back.** -/
theorem getLE_putLE_self (hv : v < 256 ^ n) : getLE (putLE m a n v) a n = v := by
  have hdigits : getLE (putLE m a n v) a n = v % 256 ^ n := by
    apply getLE_of_digits
    intro i hi
    rw [putLE, if_pos ⟨by omega, by omega⟩, Nat.add_sub_cancel_left]
  rw [hdigits, Nat.mod_eq_of_lt hv]

/-- **A field that does not meet the one stored.** -/
theorem getLE_putLE_of_apart {k : Nat} (h : Apart a n b k) :
    getLE (putLE m a n v) b k = getLE m b k := by
  apply getLE_congr
  intro c hc1 hc2
  apply putLE_of_not_mem
  rcases h with h | h
  · omega
  · omega

/-! ## Ranges -/

/-- The `n` bytes from `a` replaced by `f 0`, `f 1`, … -/
def fill (m : Mem) (a n : Nat) (f : Nat → UInt8) : Mem := fun b =>
  if a ≤ b ∧ b < a + n then f (b - a) else m b

theorem fill_of_mem {f : Nat → UInt8} (h : a ≤ b ∧ b < a + n) : fill m a n f b = f (b - a) := if_pos h

theorem fill_of_not_mem {f : Nat → UInt8} (h : ¬(a ≤ b ∧ b < a + n)) : fill m a n f b = m b := if_neg h

/-! ## C strings -/

/-- The characters of a C string in a buffer. -/
def cString (buf : List UInt8) : List UInt8 := buf.takeWhile (· ≠ 0)

def isDigit (c : UInt8) : Bool := decide (48 ≤ c ∧ c ≤ 57)

/-- The lower-case letter of an ASCII letter. -/
def toLower (c : UInt8) : UInt8 := if 65 ≤ c ∧ c ≤ 90 then c + 32 else c

/-- Two C strings are the same but for the case of letters. -/
def strEqualsIgnoreCase (a b : List UInt8) : Bool :=
  decide ((cString a).map toLower = (cString b).map toLower)

end Lyth.Bytes
