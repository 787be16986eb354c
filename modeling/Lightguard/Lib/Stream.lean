import Mathlib.Data.List.Infix

/-!
# One direction of a byte stream connection

What one side has written so far and how much of it the other side has read. A read
returns any nonempty part of what is next, up to its buffer size: writes are neither
kept apart nor kept together.

* `recv_iff_segmentOf`: what a read may return.
* `first_at`: where a letter first occurs in two readings of one text.
-/

namespace Lib

/-- The history of one direction: everything written and how many items are read. -/
structure Stream (α : Type*) where
  sent : List α
  read : ℕ
deriving DecidableEq

namespace Stream

variable {α : Type*} {s s' : Stream α} {chunk t : List α} {max n : ℕ}

/-- Nothing written yet. -/
def empty : Stream α := ⟨[], 0⟩

/-- Append to what is written. -/
def send (t : List α) (s : Stream α) : Stream α := { s with sent := s.sent ++ t }

/-- What is written and not read. -/
def unread (s : Stream α) : List α := s.sent.drop s.read

/-- A read into a buffer of `max` items that happens to return `n`. -/
def recv (max n : ℕ) (s : Stream α) : Option (List α × Stream α) :=
  if 0 < n ∧ n ≤ max ∧ n ≤ s.unread.length then
    some (s.unread.take n, { s with read := s.read + n })
  else none

@[simp] theorem send_sent : (s.send t).sent = s.sent ++ t := rfl
@[simp] theorem send_read : (s.send t).read = s.read := rfl
@[simp] theorem empty_sent : (empty : Stream α).sent = [] := rfl
@[simp] theorem empty_read : (empty : Stream α).read = 0 := rfl

/-- What a read returns and what it changes. -/
theorem recv_eq (h : s.recv max n = some (chunk, s')) :
    chunk = (s.sent.drop s.read).take n ∧ chunk ≠ [] ∧ s'.sent = s.sent ∧
      s'.read = s.read + n ∧ s.read + n ≤ s.sent.length := by
  unfold recv at h
  split at h
  · rename_i hn
    simp only [Option.some.injEq, Prod.mk.injEq] at h
    obtain ⟨rfl, rfl⟩ := h
    simp only [unread, List.length_drop] at hn
    refine ⟨rfl, ?_, rfl, rfl, by omega⟩
    intro h0
    have := congrArg List.length h0
    simp only [unread, List.length_take, List.length_drop, List.length_nil] at this
    omega
  · cases h

/-- What a read into a buffer of `max` items may return of what is next: all beginnings, from one item
on. -/
def segmentOf (max n : ℕ) (t : List α) : List α := t.take (min (n + 1) max)

/-- **The results of a read** are the segments of what is written and not read. -/
theorem recv_iff_segmentOf (hmax : 0 < max) (hne : s.unread ≠ []) :
    (∃ k s', s.recv max k = some (chunk, s')) ↔ ∃ n, chunk = segmentOf max n s.unread := by
  have hlen : 0 < s.unread.length := List.length_pos_iff.2 hne
  constructor
  · rintro ⟨k, s', h⟩
    unfold recv at h
    split at h
    · rename_i hk
      simp only [Option.some.injEq, Prod.mk.injEq] at h
      refine ⟨k - 1, ?_⟩
      rw [← h.1, segmentOf, show min (k - 1 + 1) max = k by omega]
    · cases h
  · rintro ⟨n, rfl⟩
    have hk : 0 < min (min (n + 1) max) s.unread.length := by omega
    exact ⟨min (min (n + 1) max) s.unread.length, _, by
      rw [recv, if_pos ⟨hk, by omega, by omega⟩, segmentOf, ← List.take_eq_take_min]⟩

theorem recv_sub (h : s.recv max n = some (chunk, s')) : chunk ⊆ s.sent := by
  rw [(recv_eq h).1]
  exact fun x hx => List.mem_of_mem_drop (List.mem_of_mem_take hx)

end Stream

/-- Two readings of one text up to a letter that neither prefix has. -/
theorem first_at {α : Type*} {a x r r' : List α} {c : α} (ha : c ∉ a) (hx : c ∉ x)
    (h : a ++ c :: r <+: x ++ c :: r') : a = x := by
  induction a generalizing x with
  | nil =>
    cases x with
    | nil => rfl
    | cons y x =>
      simp only [List.nil_append, List.cons_append, List.cons_prefix_cons] at h
      exact absurd (List.mem_cons.2 (.inl h.1)) hx
  | cons b a ih =>
    cases x with
    | nil =>
      simp only [List.cons_append, List.nil_append, List.cons_prefix_cons] at h
      exact absurd (List.mem_cons.2 (.inl h.1.symm)) ha
    | cons y x =>
      simp only [List.cons_append, List.cons_prefix_cons] at h
      rw [h.1, ih (fun hm => ha (List.mem_cons_of_mem _ hm))
        (fun hm => hx (List.mem_cons_of_mem _ hm)) h.2]

end Lib
