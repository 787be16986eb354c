import Mathlib.Data.Nat.Notation
import Mathlib.Tactic.TypeStar

/-!
# Key wrapping

The key wrap of RFC 3394 over any block cipher. A block is a pair of half blocks; the first half
runs through all blocks of the key six times, mixed with a counter, and in the end tells whether the
unwrapped key is the one that was wrapped.

* `unwrap_wrap`: what was wrapped is unwrapped.
* `unwrap_eq_some_iff`: nothing else is.
-/

namespace Lib.KeyWrap

variable {α : Type*}

/-- A block cipher under some key, and how a half block is mixed with a counter. -/
structure Cipher (α : Type*) where
  enc : α × α → α × α
  dec : α × α → α × α
  mix : ℕ → α → α
  dec_enc : ∀ b, dec (enc b) = b
  enc_dec : ∀ b, enc (dec b) = b
  mix_mix : ∀ t a, mix t (mix t a) = a

variable (c : Cipher α)

/-- The register `a` runs through the blocks, from the first to the last; `t` counts. -/
def pass (t : ℕ) (a : α) : List α → α × List α
  | [] => (a, [])
  | r :: l =>
    let b := c.enc (a, r)
    let q := pass (t + 1) (c.mix t b.1) l
    (q.1, b.2 :: q.2)

/-- The register runs back, from the last block to the first. -/
def unpass (t : ℕ) (a : α) : List α → α × List α
  | [] => (a, [])
  | r :: l =>
    let q := unpass (t + 1) a l
    let b := c.dec (c.mix t q.1, r)
    (b.1, b.2 :: q.2)

/-- `k` passes; the counter goes on from one to the next. -/
def passes : ℕ → α × List α → α × List α
  | 0, s => s
  | k + 1, s => let s := passes k s; pass c (s.2.length * k + 1) s.1 s.2

/-- `k` passes backwards. -/
def unpasses : ℕ → α × List α → α × List α
  | 0, s => s
  | k + 1, s => unpasses k (unpass c (s.2.length * k + 1) s.1 s.2)

/-- Wraps the key `l`. -/
def wrap (iv : α) (l : List α) : α × List α := passes c 6 (iv, l)

/-- Unwraps a key, when it has been wrapped with `iv`. -/
def unwrap [DecidableEq α] (iv : α) (w : α × List α) : Option (List α) :=
  if (unpasses c 6 w).1 = iv then some (unpasses c 6 w).2 else none

variable {c} {t k : ℕ} {a : α} {l : List α} {s : α × List α}

@[simp] theorem length_pass : (pass c t a l).2.length = l.length := by
  induction l generalizing t a with
  | nil => rfl
  | cons r l ih => simp [pass, ih]

@[simp] theorem length_unpass : (unpass c t a l).2.length = l.length := by
  induction l generalizing t with
  | nil => rfl
  | cons r l ih => simp [unpass, ih]

@[simp] theorem length_passes : (passes c k s).2.length = s.2.length := by
  induction k with
  | zero => rfl
  | succ k ih => simp [passes, ih]

/-- **One pass** is undone. -/
theorem unpass_pass : unpass c t (pass c t a l).1 (pass c t a l).2 = (a, l) := by
  induction l generalizing t a with
  | nil => rfl
  | cons r l ih => simp [pass, unpass, ih, c.mix_mix, c.dec_enc]

theorem pass_unpass : pass c t (unpass c t a l).1 (unpass c t a l).2 = (a, l) := by
  induction l generalizing t a with
  | nil => rfl
  | cons r l ih => simp [pass, unpass, c.enc_dec, c.mix_mix, ih]

theorem unpasses_passes : unpasses c k (passes c k s) = s := by
  induction k with
  | zero => rfl
  | succ k ih => simp only [passes, unpasses, length_pass, unpass_pass, ih]

theorem passes_unpasses : passes c k (unpasses c k s) = s := by
  induction k generalizing s with
  | zero => rfl
  | succ k ih => simp only [passes, unpasses, ih, length_unpass, pass_unpass]

@[simp] theorem length_wrap (iv : α) (l : List α) : (wrap c iv l).2.length = l.length := length_passes

variable [DecidableEq α] {iv : α} {w : α × List α}

/-- **What was wrapped is unwrapped.** -/
theorem unwrap_wrap : unwrap c iv (wrap c iv l) = some l := by
  simp [unwrap, wrap, unpasses_passes]

/-- **Nothing else is unwrapped.** -/
theorem unwrap_eq_some_iff : unwrap c iv w = some l ↔ w = wrap c iv l := by
  refine ⟨fun h => ?_, fun h => h ▸ unwrap_wrap⟩
  unfold unwrap at h
  split at h
  · rename_i hiv
    have hw : unpasses c 6 w = (iv, l) := Prod.ext hiv (Option.some.inj h)
    rw [wrap, ← hw, passes_unpasses]
  · cases h

end Lib.KeyWrap
