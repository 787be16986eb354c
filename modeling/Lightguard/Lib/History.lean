import Mathlib.Data.List.Basic

/-!
# Histories

A history is a list of entries, the newest first. Two operators of past time temporal
logic on it:

* `Always Q`: every entry meets `Q` with what came before it.
* `Since r o`: `o` has happened after the last entry that meets `r`.
* `always_iff`, `since_iff`: both in terms of cuts of the history.

`latest f` is the newest value `f` reads off an entry. `notes` is the history that the steps of a
run leave, and `notes_inv` the invariant rule for it.
-/

namespace Lib

variable {α β : Type*}

/-- Every entry meets `Q` with the history before it. -/
def Always (Q : α → List α → Prop) : List α → Prop
  | [] => True
  | o :: t => Q o t ∧ Always Q t

/-- `o` is in the history, and no entry after it meets `r`. -/
def Since (r : α → Prop) (o : α) : List α → Prop
  | [] => False
  | x :: t => x = o ∨ ¬ r x ∧ Since r o t

/-- The newest value `f` reads off an entry. -/
def latest (f : α → Option β) (l : List α) : Option β := l.findSome? f

/-- The history of a run that starts with the history `t`: a step leaves the entries `note`. The history
ends where an event is not enabled. -/
def notes {σ ε : Type*} (step : σ → ε → Option σ) (note : σ → ε → List α) : σ → List α → List ε → List α
  | _, t, [] => t
  | s, t, e :: es =>
    match step s e with
    | none => t
    | some s' => notes step note s' (note s e ++ t) es

variable {Q : α → List α → Prop} {r : α → Prop} {f : α → Option β} {o : α} {l t : List α}

theorem always_append (hl : ∀ o ∈ l, ∀ t, Q o t) (ht : Always Q t) : Always Q (l ++ t) := by
  induction l with
  | nil => exact ht
  | cons x l ih =>
    exact ⟨hl x List.mem_cons_self _, ih fun o ho => hl o (List.mem_cons_of_mem _ ho)⟩

theorem always_iff : Always Q l ↔ ∀ new o old, l = new ++ o :: old → Q o old := by
  induction l with
  | nil => simp [Always]
  | cons x l ih =>
    constructor
    · rintro ⟨h1, h2⟩ new o old h
      cases new with
      | nil =>
        obtain ⟨rfl, rfl⟩ := List.cons_eq_cons.1 h
        exact h1
      | cons y new =>
        rw [List.cons_append] at h
        exact ih.1 h2 new o old (List.cons_eq_cons.1 h).2
    · intro h
      refine ⟨h [] x l rfl, ih.2 fun new o old heq => h (x :: new) o old ?_⟩
      rw [heq, List.cons_append]

theorem Always.mono {R : α → List α → Prop} (hQ : ∀ o t, Q o t → R o t) (h : Always Q l) : Always R l := by
  induction l with
  | nil => trivial
  | cons x l ih => exact ⟨hQ x l h.1, ih h.2⟩

theorem since_append (hl : ∀ x ∈ l, ¬ r x) (ht : Since r o t) : Since r o (l ++ t) := by
  induction l with
  | nil => exact ht
  | cons x l ih =>
    exact .inr ⟨hl x List.mem_cons_self, ih fun y hy => hl y (List.mem_cons_of_mem _ hy)⟩

theorem since_iff : Since r o l ↔ ∃ new old, l = new ++ o :: old ∧ ∀ x ∈ new, ¬ r x := by
  induction l with
  | nil => simp [Since]
  | cons x l ih =>
    constructor
    · rintro (rfl | ⟨h1, h2⟩)
      · exact ⟨[], l, rfl, by simp⟩
      · obtain ⟨new, old, rfl, h⟩ := ih.1 h2
        refine ⟨x :: new, old, rfl, ?_⟩
        intro y hy
        rcases List.mem_cons.1 hy with rfl | hy
        · exact h1
        · exact h y hy
    · rintro ⟨new, old, h, hn⟩
      cases new with
      | nil => exact .inl (List.cons_eq_cons.1 h).1
      | cons y new =>
        rw [List.cons_append] at h
        obtain ⟨rfl, h'⟩ := List.cons_eq_cons.1 h
        exact .inr ⟨hn x List.mem_cons_self,
          ih.2 ⟨new, old, h', fun y hy => hn y (List.mem_cons_of_mem _ hy)⟩⟩

theorem Since.mem (h : Since r o l) : o ∈ l := by
  obtain ⟨new, old, rfl, -⟩ := since_iff.1 h
  simp

theorem latest_append (hl : ∀ x ∈ l, f x = none) : latest f (l ++ t) = latest f t := by
  rw [latest, List.findSome?_append, List.findSome?_eq_none_iff.2 hl]; rfl

/-- **Invariant rule for histories.** What every step keeps, every run keeps. -/
theorem notes_inv {σ ε : Type*} {step : σ → ε → Option σ} {note : σ → ε → List α} {I : σ → List α → Prop}
    (hI : ∀ s t e s', I s t → step s e = some s' → I s' (note s e ++ t)) {s : σ} (es : List ε)
    (hs : I s t) : ∃ s', I s' (notes step note s t es) := by
  induction es generalizing s t with
  | nil => exact ⟨s, hs⟩
  | cons e es ih =>
    unfold notes
    split
    · exact ⟨s, hs⟩
    · rename_i s' h
      exact ih (hI s t e s' hs h)

theorem latest_mem {b : β} (h : latest f l = some b) : ∃ x ∈ l, f x = some b :=
  List.exists_of_findSome?_eq_some h

end Lib
