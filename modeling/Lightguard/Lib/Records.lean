import Mathlib.Data.List.Basic

/-!
# Records of one length

A list that is cut into records of `k` elements each.

* `records_flatten`: the records are put together again.
* `records_append`: records that have been put together are found.
-/

namespace Lib

variable {α : Type*} {k n : ℕ} {l rest r : List α} {rs : List (List α)}

/-- The first `n` records. -/
def records (k : ℕ) : ℕ → List α → List (List α)
  | 0, _ => []
  | n + 1, l => l.take k :: records k n (l.drop k)

@[simp] theorem length_records (k n : ℕ) (l : List α) : (records k n l).length = n := by
  induction n generalizing l with
  | zero => rfl
  | succ n ih => simp [records, ih]

/-- **What has been cut is put together again.** -/
theorem records_flatten (k n : ℕ) (l : List α) : (records k n l).flatten ++ l.drop (k * n) = l := by
  induction n generalizing l with
  | zero => simp [records]
  | succ n ih =>
    have hdrop : l.drop (k * (n + 1)) = (l.drop k).drop (k * n) := by
      rw [List.drop_drop, Nat.mul_succ, Nat.add_comm]
    rw [records, List.flatten_cons, hdrop, List.append_assoc, ih, List.take_append_drop]

theorem length_of_mem_records (h : k * n ≤ l.length) (hr : r ∈ records k n l) : r.length = k := by
  induction n generalizing l with
  | zero => cases hr
  | succ n ih =>
    rw [Nat.mul_succ] at h
    rcases List.mem_cons.1 hr with rfl | hr
    · rw [List.length_take]
      omega
    · apply ih _ hr
      rw [List.length_drop]
      omega

/-- **What has been put together is found.** -/
theorem records_append (h : ∀ r ∈ rs, r.length = k) (rest : List α) :
    records k rs.length (rs.flatten ++ rest) = rs := by
  induction rs with
  | nil => rfl
  | cons r rs ih =>
    have hr : r.length = k := h r List.mem_cons_self
    have hrs : ∀ x ∈ rs, x.length = k := fun x hx => h x (List.mem_cons_of_mem r hx)
    rw [List.length_cons, records, List.flatten_cons, List.append_assoc, List.take_left' hr, List.drop_left' hr,
      ih hrs]

theorem length_flatten_of_length (h : ∀ r ∈ rs, r.length = k) : rs.flatten.length = k * rs.length := by
  induction rs with
  | nil => rfl
  | cons r rs ih =>
    have hr : r.length = k := h r List.mem_cons_self
    have hrs : ∀ x ∈ rs, x.length = k := fun x hx => h x (List.mem_cons_of_mem r hx)
    rw [List.flatten_cons, List.length_append, hr, ih hrs, List.length_cons, Nat.mul_succ, Nat.add_comm]

end Lib
