import Mathlib.Data.List.DropRight
import Mathlib.Data.List.Infix

/-!
# Trimming and splitting lists

Lists over any alphabet, cut at the elements that satisfy a predicate.

* `strip`: the list without its leading and trailing `p`s.
* `strtok`: the next token between delimiters, and what follows it.
* `strip_split`: what `strip` takes away is all `p`.
* `strtok_token`: a token followed by a delimiter is read back whole.
* `strtok_iff`: what `strtok` reads, without its recipe.
-/

namespace Lib

variable {α : Type*} {p : α → Bool} {l m : List α}

/-- The list without its leading and trailing elements that satisfy `p`. -/
def strip (p : α → Bool) (l : List α) : List α :=
  (l.dropWhile p).rdropWhile p

/-- `strtok`: skip leading delimiters, take the token up to the next delimiter and
drop that one delimiter. No token is left when only delimiters are. -/
def strtok (d : α → Bool) (l : List α) : Option (List α × List α) :=
  match l.dropWhile d with
  | [] => none
  | c :: r => some ((c :: r).takeWhile (fun c => !d c), ((c :: r).dropWhile fun c => !d c).tail)

@[simp] theorem strip_nil : strip p [] = [] := by simp [strip]

/-- What `strip` takes away on either side satisfies `p`. -/
theorem strip_split (p : α → Bool) (l : List α) :
    ∃ a b, l = a ++ strip p l ++ b ∧ (∀ c ∈ a, p c) ∧ ∀ c ∈ b, p c := by
  refine ⟨l.takeWhile p, (l.dropWhile p).rtakeWhile p, ?_, ?_, ?_⟩
  · rw [strip, List.append_assoc, List.rdropWhile_append_rtakeWhile,
      List.takeWhile_append_dropWhile]
  · exact fun c hc => List.mem_takeWhile_imp hc
  · exact fun c hc => List.mem_rtakeWhile_imp hc

theorem strip_within (p : α → Bool) (l : List α) : strip p l <:+: l := by
  obtain ⟨a, b, h, -, -⟩ := strip_split p l
  exact ⟨a, b, h.symm⟩

theorem length_strip_le (p : α → Bool) (l : List α) : (strip p l).length ≤ l.length :=
  (strip_within p l).length_le

theorem mem_of_mem_strip {c : α} (h : c ∈ strip p l) : c ∈ l :=
  (strip_within p l).subset h

theorem mem_strip {c : α} (h : c ∈ l) (hc : p c = false) : c ∈ strip p l := by
  obtain ⟨a, b, hl, ha, hb⟩ := strip_split p l
  rw [hl, List.append_assoc] at h
  rcases List.mem_append.1 h with hin | hin
  · exact absurd (ha c hin) (by simp [hc])
  · rcases List.mem_append.1 hin with hin | hin
    · exact hin
    · exact absurd (hb c hin) (by simp [hc])

/-- A list stays as it is when neither end satisfies `p`. -/
theorem strip_eq_self_iff : strip p l = l ↔
    (∀ h : l ≠ [], ¬ p (l.head h)) ∧ ∀ h : l ≠ [], ¬ p (l.getLast h) := by
  constructor
  · intro h
    have hd : l.dropWhile p = l := by
      refine (List.dropWhile_suffix p).eq_of_length_le ?_
      calc l.length = (strip p l).length := by rw [h]
        _ ≤ (l.dropWhile p).length := (List.rdropWhile_prefix p _).length_le
    refine ⟨?_, ?_⟩
    · intro hl hp
      cases l with
      | nil => exact hl rfl
      | cons c r =>
        have := congrArg List.length hd
        rw [List.dropWhile_cons_of_pos (by simpa using hp)] at this
        have hle := (List.dropWhile_suffix (l := r) p).length_le
        simp only [List.length_cons] at this; omega
    · rw [strip, hd] at h
      exact List.rdropWhile_eq_self_iff.1 h
  · rintro ⟨hh, ht⟩
    have hd : l.dropWhile p = l := by
      cases l with
      | nil => rfl
      | cons c r => exact List.dropWhile_cons_of_neg (by simpa using hh (by simp))
    rw [strip, hd]
    exact List.rdropWhile_eq_self_iff.2 ht

/-- A list that begins with no `p` loses its end only. -/
theorem strip_of_head (h : ∀ h : l ≠ [], ¬ p (l.head h)) : strip p l <+: l := by
  have hd : l.dropWhile p = l := by
    cases l with
    | nil => rfl
    | cons c r => exact List.dropWhile_cons_of_neg (by simpa using h (by simp))
  rw [strip, hd]
  exact List.rdropWhile_prefix p l

theorem strip_strip (p : α → Bool) (l : List α) : strip p (strip p l) = strip p l := by
  refine strip_eq_self_iff.2 ⟨?_, ?_⟩
  · intro h hp
    have hd : l.dropWhile p ≠ [] := by
      intro hn; exact h (by simp [strip, hn])
    have hpre : strip p l <+: l.dropWhile p := List.rdropWhile_prefix p _
    have hnot := List.head_dropWhile_not p hd
    rw [hpre.head h] at hp
    rw [hp] at hnot; cases hnot
  · exact fun h => List.rdropWhile_last_not p _ h

theorem rdropWhile_append_of_all (h : ∀ c ∈ m, p c) : (l ++ m).rdropWhile p = l.rdropWhile p := by
  induction m using List.reverseRecOn with
  | nil => rw [List.append_nil]
  | append_singleton m c ih =>
    rw [← List.append_assoc, List.rdropWhile_concat_pos _ _ _ (h c (by simp))]
    exact ih fun d hd => h d (by simp [hd])

/-- Trailing `p`s are invisible to `strip`. -/
theorem strip_append_of_all (h : ∀ c ∈ m, p c) : strip p (l ++ m) = strip p l := by
  induction m using List.reverseRecOn with
  | nil => simp
  | append_singleton m c ih =>
    have hc : p c := h c (by simp)
    rw [← List.append_assoc, ← ih fun d hd => h d (by simp [hd])]
    simp only [strip]
    by_cases hl : ∀ d ∈ l ++ m, p d
    · rw [List.dropWhile_eq_nil_iff.2 hl, List.dropWhile_eq_nil_iff.2]
      intro d hd
      rcases List.mem_append.1 hd with hd | hd
      · exact hl d hd
      · simp only [List.mem_singleton] at hd; subst hd; exact hc
    · have hne : (l ++ m).dropWhile p ≠ [] := fun hn => hl (List.dropWhile_eq_nil_iff.1 hn)
      rw [List.dropWhile_append, if_neg (by simpa [List.isEmpty_iff] using hne)]
      exact List.rdropWhile_concat_pos p _ _ hc

/-- A token without delimiters, after any delimiters and before another one, is
read back whole. -/
theorem strtok_token {d : α → Bool} {a t r : List α} {c : α} (ha : ∀ x ∈ a, d x) (ht : t ≠ [])
    (hd : ∀ x ∈ t, d x = false) (hc : d c) :
    strtok d (a ++ t ++ c :: r) = some (t, r) := by
  obtain ⟨x, t', rfl⟩ := List.exists_cons_of_ne_nil ht
  have hdrop : (a ++ x :: t' ++ c :: r).dropWhile d = x :: t' ++ c :: r := by
    rw [List.append_assoc, List.dropWhile_append_of_pos ha]
    exact List.dropWhile_cons_of_neg (by simp [hd x (by simp)])
  have hp : ∀ y ∈ x :: t', (!d y) = true := fun y hy => by simp [hd y hy]
  simp only [strtok, hdrop, List.cons_append]
  rw [← List.cons_append, List.takeWhile_append_of_pos hp, List.dropWhile_append_of_pos hp]
  simp [hc]

/-- A text that starts with no delimiter, before a delimiter: its token ends at its own
first delimiter. -/
theorem strtok_first {d : α → Bool} {c x : α} {t : List α} (hc : d c = false) (hx : d x) :
    ∃ r, strtok d (c :: t ++ [x]) = some ((c :: t).takeWhile (fun c => !d c), r) := by
  have happ : ∀ l : List α, (l ++ [x]).takeWhile (fun c => !d c) = l.takeWhile fun c => !d c := by
    intro l
    induction l with
    | nil => simp [hx]
    | cons y l ih => by_cases hy : d y <;> simp [hy, ih]
  refine ⟨((c :: t ++ [x]).dropWhile fun c => !d c).tail, ?_⟩
  rw [← happ, strtok, List.cons_append, List.dropWhile_cons_of_neg (by simp [hc])]

/-- A token is a run without delimiters. -/
theorem strtok_mem {d : α → Bool} {t r : List α} (h : strtok d l = some (t, r)) :
    ∀ x ∈ t, d x = false := by
  unfold strtok at h
  split at h
  · cases h
  · simp only [Option.some.injEq, Prod.mk.injEq] at h
    obtain ⟨rfl, -⟩ := h
    exact fun x hx => by simpa using List.mem_takeWhile_imp hx

/-- **What `strtok` reads**: delimiters, a token without any, and then the end or one delimiter more. -/
theorem strtok_iff {d : α → Bool} {t r : List α} : strtok d l = some (t, r) ↔
    ∃ a e, l = a ++ t ++ e ∧ (∀ x ∈ a, d x = true) ∧ t ≠ [] ∧ (∀ x ∈ t, d x = false) ∧
      (e = [] ∧ r = [] ∨ ∃ c, d c = true ∧ e = c :: r) := by
  constructor
  · intro h
    have hmem := strtok_mem h
    unfold strtok at h
    split at h
    · cases h
    · rename_i c s hdrop
      simp only [Option.some.injEq, Prod.mk.injEq] at h
      obtain ⟨ht, hr⟩ := h
      have hc : d c = false := by
        have hhead := List.head_dropWhile_not d (l := l) (by simp [hdrop])
        simpa [hdrop] using hhead
      refine ⟨l.takeWhile d, (c :: s).dropWhile fun c => !d c, ?_, ?_, ?_, hmem, ?_⟩
      · rw [← ht, List.append_assoc, List.takeWhile_append_dropWhile, ← hdrop,
          List.takeWhile_append_dropWhile]
      · exact fun x hx => List.mem_takeWhile_imp hx
      · rw [← ht, List.takeWhile_cons_of_pos (by simp [hc])]
        exact List.cons_ne_nil _ _
      · -- where the token stops there is nothing, or a delimiter
        cases he : (c :: s).dropWhile (fun c => !d c) with
        | nil => exact .inl ⟨rfl, by rw [← hr, he]; rfl⟩
        | cons x e =>
          have hhead := List.head_dropWhile_not (fun c => !d c) (l := c :: s) (by simp [he])
          exact .inr ⟨x, by simpa [he] using hhead, by rw [← hr, he]; rfl⟩
  · rintro ⟨a, e, rfl, ha, ht, hd, ⟨rfl, rfl⟩ | ⟨c, hc, rfl⟩⟩
    · obtain ⟨x, t, rfl⟩ := List.exists_cons_of_ne_nil ht
      have hdrop : (a ++ x :: t ++ []).dropWhile d = x :: t := by
        rw [List.append_nil, List.dropWhile_append_of_pos ha]
        exact List.dropWhile_cons_of_neg (by simp [hd x])
      have hp : ∀ y ∈ x :: t, (!d y) = true := fun y hy => by simp [hd y hy]
      rw [strtok, hdrop]
      simp only
      rw [List.takeWhile_eq_self_iff.2 hp, List.dropWhile_eq_nil_iff.2 hp, List.tail_nil]
    · exact strtok_token ha ht hd hc

end Lib
