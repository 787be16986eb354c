import Mathlib.Data.List.Basic
import Mathlib.Data.Nat.Bitwise

/-!
# Flags in a number

A set of small numbers as the number with their bits. A question of the kind `x & BIT(i)` is a test of one bit,
one of the kind `x & y` asks whether the sets meet.

* `testBit_flags`: what is in the set.
* `and_ne_zero_iff`: two sets meet when they have a bit in common.
* `pick_eq_some`: the first one of a list of preferences that is in the set.
-/

namespace Lib

/-- The number with the bits of the list. -/
def flags (l : List ℕ) : ℕ := l.foldr (fun i m => 2 ^ i ||| m) 0

variable {l : List ℕ} {a b i : ℕ}

@[simp] theorem testBit_flags : (flags l).testBit i = true ↔ i ∈ l := by
  induction l with
  | nil => simp [flags]
  | cons j l ih =>
    have hcons : flags (j :: l) = 2 ^ j ||| flags l := rfl
    rw [hcons, Nat.testBit_or, Bool.or_eq_true, ih, Nat.testBit_two_pow, List.mem_cons, decide_eq_true_eq]
    exact or_congr eq_comm Iff.rfl

theorem and_ne_zero_iff : a &&& b ≠ 0 ↔ ∃ i, a.testBit i = true ∧ b.testBit i = true := by
  constructor
  · intro h
    obtain ⟨i, hi⟩ := Nat.exists_testBit_of_ne_zero h
    rw [Nat.testBit_and, Bool.and_eq_true] at hi
    exact ⟨i, hi⟩
  · rintro ⟨i, ha, hb⟩ h
    have hand : (a &&& b).testBit i = true := by rw [Nat.testBit_and, ha, hb]; rfl
    rw [h, Nat.zero_testBit] at hand
    exact Bool.false_ne_true hand

theorem and_two_pow_ne_zero_iff : a &&& 2 ^ i ≠ 0 ↔ a.testBit i = true := by
  rw [and_ne_zero_iff]
  constructor
  · rintro ⟨j, ha, hj⟩
    rw [Nat.testBit_two_pow, decide_eq_true_eq] at hj
    exact hj ▸ ha
  · intro ha
    exact ⟨i, ha, Nat.testBit_two_pow_self⟩

theorem two_pow_testBit : (2 ^ i).testBit b = true ↔ i = b := by
  rw [Nat.testBit_two_pow, decide_eq_true_eq]

/-! ## Preferences -/

variable {α : Type*} {bit : α → ℕ} {prefs : List α} {m : ℕ} {x : α}

/-- The first one of the preferences whose bit is set. -/
def pick (bit : α → ℕ) (prefs : List α) (m : ℕ) : Option α := prefs.find? (m.testBit <| bit ·)

theorem pick_eq_some (h : pick bit prefs m = some x) : x ∈ prefs ∧ m.testBit (bit x) = true := by
  have hbit := List.find?_some h
  exact ⟨List.mem_of_find?_eq_some h, hbit⟩

theorem pick_eq_none : pick bit prefs m = none ↔ ∀ x ∈ prefs, m.testBit (bit x) = false := by
  simp [pick]

/-- Whatever else is in the set comes later. -/
theorem pick_first [DecidableEq α] {y : α} (h : pick bit prefs m = some x) (hy : y ∈ prefs)
    (hbit : m.testBit (bit y) = true) : prefs.idxOf x ≤ prefs.idxOf y := by
  induction prefs with
  | nil => cases hy
  | cons z prefs ih =>
    have hx := (pick_eq_some h).2
    by_cases hz : m.testBit (bit z) = true
    · have hfound : pick bit (z :: prefs) m = some z := List.find?_cons_of_pos hz
      obtain rfl : z = x := Option.some.inj (hfound.symm.trans h)
      rw [List.idxOf_cons_self]
      exact Nat.zero_le _
    · have hxz : z ≠ x := fun heq => hz (heq ▸ hx)
      have hyz : z ≠ y := fun heq => hz (heq ▸ hbit)
      have hskip : pick bit (z :: prefs) m = pick bit prefs m := List.find?_cons_of_neg hz
      have hy' : y ∈ prefs := List.mem_of_ne_of_mem hyz.symm hy
      have hrest := ih (hskip.symm.trans h) hy'
      rw [List.idxOf_cons_ne _ hxz, List.idxOf_cons_ne _ hyz]
      exact Nat.succ_le_succ hrest

/-- A set with one element leaves no choice. -/
theorem pick_two_pow (hinj : Function.Injective bit) (hx : x ∈ prefs) : pick bit prefs (2 ^ bit x) = some x := by
  have hsome : (pick bit prefs (2 ^ bit x)).isSome := by
    rw [Option.isSome_iff_ne_none]
    intro hnone
    have hfalse := pick_eq_none.1 hnone x hx
    rw [Nat.testBit_two_pow_self] at hfalse
    exact Bool.false_ne_true hfalse.symm
  obtain ⟨y, hy⟩ := Option.isSome_iff_exists.1 hsome
  have hbit := two_pow_testBit.1 (pick_eq_some hy).2
  rw [hy, hinj hbit]

end Lib
