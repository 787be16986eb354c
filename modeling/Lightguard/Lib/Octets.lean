import Mathlib.Algebra.Order.Ring.Nat
import Mathlib.Data.List.Induction

/-!
# Numbers as octets

Numbers in network byte order: the most significant octet comes first.

* `readBe_be`, `be_readBe`: what is written is read, and the other way round.
* `readLsb_lsb`, `lsb_readLsb`: the same for numbers whose last octet comes first.
-/

namespace Lib

/-- The last `k` octets of `n`. -/
def be : ℕ → ℕ → List UInt8
  | 0, _ => []
  | k + 1, n => be k (n / 256) ++ [UInt8.ofNat n]

/-- The number that the octets stand for. -/
def readBe (l : List UInt8) : ℕ := l.foldl (fun n b => n * 256 + b.toNat) 0

@[simp] theorem length_be (k n : ℕ) : (be k n).length = k := by
  induction k generalizing n with
  | zero => rfl
  | succ k ih => simp [be, ih]

@[simp] theorem readBe_nil : readBe [] = 0 := rfl

theorem readBe_concat (l : List UInt8) (b : UInt8) : readBe (l ++ [b]) = readBe l * 256 + b.toNat := by
  simp [readBe]

/-- The octets of a number stand for it, as far as there is room. -/
theorem readBe_be_mod (k n : ℕ) : readBe (be k n) = n % 256 ^ k := by
  induction k generalizing n with
  | zero => simp [be, Nat.mod_one]
  | succ k ih =>
    have hsplit : n % 256 ^ (k + 1) = n % 256 + 256 * (n / 256 % 256 ^ k) := by
      rw [pow_succ', Nat.mod_mul]
    rw [be, readBe_concat, ih, UInt8.toNat_ofNat', hsplit]
    omega

/-- **What is written is read.** -/
theorem readBe_be {k n : ℕ} (h : n < 256 ^ k) : readBe (be k n) = n := by
  rw [readBe_be_mod, Nat.mod_eq_of_lt h]

/-- **What is read is written.** -/
theorem be_readBe (l : List UInt8) : be l.length (readBe l) = l := by
  induction l using List.reverseRecOn with
  | nil => rfl
  | append_singleton l b ih =>
    have hb := b.toNat_lt
    have hdiv : (readBe l * 256 + b.toNat) / 256 = readBe l := by omega
    have hlast : UInt8.ofNat (readBe l * 256 + b.toNat) = b := by
      apply UInt8.toNat_inj.1
      rw [UInt8.toNat_ofNat']
      omega
    rw [List.length_append, List.length_singleton, be, readBe_concat, hdiv, ih, hlast]

theorem readBe_lt (l : List UInt8) : readBe l < 256 ^ l.length := by
  rw [← be_readBe l, readBe_be_mod, length_be]
  exact Nat.mod_lt _ (Nat.pow_pos (by decide))

theorem readBe_inj {a b : List UInt8} (hlen : a.length = b.length) (h : readBe a = readBe b) : a = b := by
  rw [← be_readBe a, ← be_readBe b, hlen, h]

/-! ## The least significant octet first -/

/-- The last `k` octets of `n`, the least significant one first. -/
def lsb (k n : ℕ) : List UInt8 := (be k n).reverse

/-- The number that the octets stand for, the least significant one first. -/
def readLsb (l : List UInt8) : ℕ := readBe l.reverse

@[simp] theorem length_lsb (k n : ℕ) : (lsb k n).length = k := by rw [lsb, List.length_reverse, length_be]

theorem readLsb_lsb {k n : ℕ} (h : n < 256 ^ k) : readLsb (lsb k n) = n := by
  rw [readLsb, lsb, List.reverse_reverse, readBe_be h]

theorem lsb_readLsb (l : List UInt8) : lsb l.length (readLsb l) = l := by
  have hbe := be_readBe l.reverse
  rw [List.length_reverse] at hbe
  rw [lsb, readLsb, hbe, List.reverse_reverse]

theorem readLsb_lt (l : List UInt8) : readLsb l < 256 ^ l.length := by
  have hlt := readBe_lt l.reverse
  rwa [List.length_reverse] at hlt

end Lib
