import Mathlib.Data.List.Sort
import Mathlib.Order.Lattice

/-!
# Lists in the order of deadlines

A list whose items are due one after the other. A new item is filed behind everything that is due
no later, so that items of one deadline keep the order in which they came.

* `enqueue`: filing an item; `InOrder.enqueue`.
* `enqueue_behind`: what is filed does not come before anything that is due no later.
* `InOrder.takeWhile_eq`: what is due at the front is all that is due.
-/

namespace Lib

variable {α κ : Type*} [LinearOrder κ] {due : α → κ} {a b : α} {l p q : List α}

/-- The items are due one after the other. -/
def InOrder (due : α → κ) (l : List α) : Prop := l.Pairwise (due · ≤ due ·)

/-- Files `a` behind everything that is due no later. -/
def enqueue (due : α → κ) (a : α) (l : List α) : List α := l.orderedInsert (due · < due ·) a

@[simp] theorem enqueue_nil : enqueue due a [] = [a] := rfl

theorem enqueue_cons :
    enqueue due a (b :: l) = if due a < due b then a :: b :: l else b :: enqueue due a l := rfl

theorem enqueue_perm (due : α → κ) (a : α) (l : List α) : (enqueue due a l).Perm (a :: l) :=
  List.perm_orderedInsert _ a l

@[simp] theorem mem_enqueue {x : α} : x ∈ enqueue due a l ↔ x = a ∨ x ∈ l := List.mem_orderedInsert _

@[simp] theorem length_enqueue : (enqueue due a l).length = l.length + 1 := List.orderedInsert_length _ l a

/-- The other items stay as they are. -/
theorem filter_enqueue_of_neg {f : α → Bool} (hf : f a = false) :
    (enqueue due a l).filter f = l.filter f := by
  induction l with
  | nil => simp [hf]
  | cons b l ih =>
    rw [enqueue_cons]
    split
    · rw [List.filter_cons_of_neg (by simp [hf])]
    · rw [List.filter_cons, List.filter_cons, ih]

theorem InOrder.enqueue (h : InOrder due l) : InOrder due (enqueue due a l) := by
  induction l with
  | nil => exact List.pairwise_singleton _ a
  | cons b l ih =>
    obtain ⟨hb, hl⟩ := List.pairwise_cons.1 h
    rw [enqueue_cons]
    split
    · rename_i hab
      refine List.pairwise_cons.2 ⟨fun x hx => ?_, h⟩
      rcases List.mem_cons.1 hx with rfl | hx
      · exact hab.le
      · exact hab.le.trans (hb x hx)
    · rename_i hab
      refine List.pairwise_cons.2 ⟨fun x hx => ?_, ih hl⟩
      rcases mem_enqueue.1 hx with rfl | hx
      · exact not_lt.1 hab
      · exact hb x hx

theorem InOrder.sublist (h : InOrder due l) (hs : p.Sublist l) : InOrder due p := List.Pairwise.sublist hs h

/-- The first item is due first. -/
theorem InOrder.head_le (h : InOrder due (a :: l)) (hb : b ∈ a :: l) : due a ≤ due b := by
  rcases List.mem_cons.1 hb with rfl | hb
  · exact le_rfl
  · exact (List.pairwise_cons.1 h).1 b hb

/-- **A new item waits** behind what is due no later. -/
theorem enqueue_behind (h : InOrder due (p ++ b :: q)) (hab : due b ≤ due a) :
    enqueue due a (p ++ b :: q) = p ++ b :: enqueue due a q := by
  induction p with
  | nil => exact if_neg (not_lt.2 hab)
  | cons x p ih =>
    have hx : due x ≤ due b := h.head_le (by simp)
    rw [List.cons_append, enqueue_cons, if_neg (not_lt.2 (hx.trans hab)), ih h.of_cons]
    rfl

/-- **What is due** comes first. -/
theorem InOrder.takeWhile_eq (h : InOrder due l) (t : κ) : l.takeWhile (due · ≤ t) = l.filter (due · ≤ t) := by
  induction l with
  | nil => rfl
  | cons b l ih =>
    obtain ⟨hb, hl⟩ := List.pairwise_cons.1 h
    by_cases hbt : due b ≤ t
    · rw [List.takeWhile_cons_of_pos (by simpa using hbt), ih hl, List.filter_cons_of_pos (by simpa using hbt)]
    · rw [List.takeWhile_cons_of_neg (by simpa using hbt), List.filter_cons_of_neg (by simpa using hbt)]
      refine (List.filter_eq_nil_iff.2 fun x hx => ?_).symm
      simpa using (not_le.1 hbt).trans_le (hb x hx)

end Lib
