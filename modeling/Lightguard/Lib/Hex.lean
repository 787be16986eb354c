import Mathlib.Data.List.GetD

/-!
# Hexadecimal text

* `hexlify`: two lower case digits for each octet.
* `mem_hexlify`: nothing but digits.
-/

namespace Lib

/-- The lower case digits. -/
def hexDigits : List Char :=
  ['0', '1', '2', '3', '4', '5', '6', '7', '8', '9', 'a', 'b', 'c', 'd', 'e', 'f']

def hexDigit (n : ℕ) : Char := hexDigits.getD n '0'

/-- Two lower case digits for each octet. -/
def hexlify (b : List UInt8) : List Char :=
  b.flatMap fun x => [hexDigit (x.toNat / 16), hexDigit (x.toNat % 16)]

theorem hexDigit_mem (n : ℕ) : hexDigit n ∈ hexDigits := by
  unfold hexDigit
  rcases Nat.lt_or_ge n hexDigits.length with h | h
  · rw [List.getD_eq_getElem _ _ h]; exact List.getElem_mem h
  · rw [List.getD_eq_default _ _ h]; decide

theorem exists_hexDigit {c : Char} (h : c ∈ hexDigits) : ∃ d < 16, c = hexDigit d := by
  obtain ⟨d, hd, rfl⟩ := List.getElem_of_mem h
  exact ⟨d, hd, (List.getD_eq_getElem _ _ hd).symm⟩

theorem mem_hexlify {b : List UInt8} {c : Char} (h : c ∈ hexlify b) : c ∈ hexDigits := by
  simp only [hexlify, List.mem_flatMap, List.mem_cons, List.not_mem_nil, or_false] at h
  obtain ⟨x, -, rfl | rfl⟩ := h <;> exact hexDigit_mem _

theorem length_hexlify (b : List UInt8) : (hexlify b).length = 2 * b.length := by
  induction b with
  | nil => rfl
  | cons x b ih =>
    rw [hexlify, List.flatMap_cons, List.length_append, ← hexlify, ih]
    simp only [List.length_cons, List.length_nil]; omega

theorem hexlify_take (b : List UInt8) (n : ℕ) : hexlify (b.take n) = (hexlify b).take (2 * n) := by
  induction n generalizing b with
  | zero => rfl
  | succ n ih =>
    cases b with
    | nil => rfl
    | cons x b =>
      have hcons : ∀ t, hexlify (x :: t) = [hexDigit (x.toNat / 16), hexDigit (x.toNat % 16)] ++ hexlify t :=
        fun t => rfl
      rw [List.take_succ_cons, hcons, hcons, ih, Nat.mul_succ]
      rfl

end Lib
