import Mathlib.Logic.Basic

/-!
# Runs of a state machine

A machine is a partial step function `σ → ε → Option σ`: an event that is not
enabled in a state has no step.

* `run`: the events one after the other.
* `Along`: every step of a run meets a condition on the state before it and on its
  event; `along_iff`.
* `run_inv`, `run_inv_mem`, `along_inv`: what one step keeps, a whole run keeps.
* `Throughout`: every state of a run meets a condition; `along_throughout`.
* `throughout_iff_along`: the exact condition on the steps that keeps a property.
* `run_append`: a run cut in two.
* `pairStep`: two machines side by side, each with events of its own; `run_fst`, `run_snd`:
  what one of them does is a run of it.
-/

namespace Lib

variable {σ ε : Type*} {step : σ → ε → Option σ}

/-- The events one after the other; `none` as soon as one is not enabled. -/
def run (step : σ → ε → Option σ) : σ → List ε → Option σ
  | s, [] => some s
  | s, e :: es => (step s e).bind fun s' => run step s' es

/-- Every event of the run is taken in a state that meets `C`. -/
def Along (step : σ → ε → Option σ) (C : σ → ε → Prop) : σ → List ε → Prop
  | _, [] => True
  | s, e :: es => C s e ∧ ∀ s' ∈ step s e, Along step C s' es

@[simp] theorem run_nil (s : σ) : run step s [] = some s := rfl

theorem run_cons {s s' : σ} {e : ε} {es : List ε} :
    run step s (e :: es) = some s' ↔ ∃ s₁, step s e = some s₁ ∧ run step s₁ es = some s' := by
  simp [run, Option.bind_eq_some_iff]

theorem run_append {s s' : σ} {es es' : List ε} :
    run step s (es ++ es') = some s' ↔
      ∃ s₁, run step s es = some s₁ ∧ run step s₁ es' = some s' := by
  induction es generalizing s with
  | nil => simp
  | cons e es ih =>
    simp only [List.cons_append, run_cons, ih]
    constructor
    · rintro ⟨s₁, h1, s₂, h2, h3⟩; exact ⟨s₂, ⟨s₁, h1, h2⟩, h3⟩
    · rintro ⟨s₂, ⟨s₁, h1, h2⟩, h3⟩; exact ⟨s₁, h1, s₂, h2, h3⟩

/-- **Conditional invariant rule.** What every step that meets `C` keeps, a run
whose steps all meet `C` keeps. -/
theorem along_inv {C : σ → ε → Prop} {I : σ → Prop}
    (hI : ∀ s e s', I s → C s e → step s e = some s' → I s') {s s' : σ} {es : List ε}
    (hs : I s) (hC : Along step C s es) (hr : run step s es = some s') : I s' := by
  induction es generalizing s with
  | nil =>
    simp only [run_nil, Option.some.injEq] at hr
    subst hr; exact hs
  | cons e es ih =>
    obtain ⟨s₁, h1, h2⟩ := run_cons.1 hr
    exact ih (hI s e s₁ hs hC.1 h1) (hC.2 s₁ h1) h2

theorem Along.cons {C : σ → ε → Prop} {s s' : σ} {e : ε} {es : List ε} (h : step s e = some s')
    (hC : C s e) (hA : Along step C s' es) : Along step C s (e :: es) := by
  refine ⟨hC, fun t ht => ?_⟩
  obtain rfl := Option.some.inj (h.symm.trans ht)
  exact hA

theorem along_true (s : σ) (es : List ε) : Along step (fun _ _ => True) s es := by
  induction es generalizing s with
  | nil => trivial
  | cons e es ih => exact ⟨trivial, fun s' _ => ih s'⟩

/-- **Invariant rule.** What every step keeps, every run keeps. -/
theorem run_inv {I : σ → Prop} (hI : ∀ s e s', I s → step s e = some s' → I s') {s s' : σ}
    {es : List ε} (hs : I s) (hr : run step s es = some s') : I s' :=
  along_inv (fun s e s' h _ => hI s e s' h) hs (along_true s es) hr

/-- A condition on the steps in terms of cuts of the run. -/
theorem along_iff {C : σ → ε → Prop} {s : σ} {es : List ε} : Along step C s es ↔
    ∀ pre e post, es = pre ++ e :: post → ∀ s' ∈ run step s pre, C s' e := by
  induction es generalizing s with
  | nil => simp [Along]
  | cons x es ih =>
    constructor
    · rintro ⟨hC, hA⟩ pre e post heq s' hs'
      cases pre with
      | nil =>
        obtain ⟨rfl, rfl⟩ := List.cons_eq_cons.1 heq
        obtain rfl := Option.some.inj hs'
        exact hC
      | cons y pre =>
        rw [List.cons_append] at heq
        obtain ⟨rfl, htail⟩ := List.cons_eq_cons.1 heq
        obtain ⟨s₁, h1, h2⟩ := run_cons.1 hs'
        exact ih.1 (hA s₁ h1) pre e post htail s' h2
    · intro h
      refine ⟨h [] x es rfl s rfl, fun s₁ h1 => ih.2 fun pre e post heq s' hs' => ?_⟩
      refine h (x :: pre) e post ?_ s' (run_cons.2 ⟨s₁, h1, hs'⟩)
      rw [heq, List.cons_append]

theorem along_mem (s : σ) {es es' : List ε} (h : ∀ e ∈ es', e ∈ es) :
    Along step (fun _ e => e ∈ es) s es' := by
  induction es' generalizing s with
  | nil => trivial
  | cons e es' ih =>
    exact ⟨h e List.mem_cons_self, fun s' _ => ih s' fun x hx => h x (List.mem_cons_of_mem _ hx)⟩

/-- The invariant rule for events that are among those of the run. -/
theorem run_inv_mem {I : σ → Prop} {s s' : σ} {es : List ε}
    (hI : ∀ s, ∀ e ∈ es, ∀ s', I s → step s e = some s' → I s') (hs : I s)
    (hr : run step s es = some s') : I s' :=
  along_inv (fun s e s' h he => hI s e he s' h) hs (along_mem s fun _ h => h) hr

theorem Along.and {C D : σ → ε → Prop} {s : σ} {es : List ε} (hC : Along step C s es)
    (hD : Along step D s es) : Along step (fun s e => C s e ∧ D s e) s es := by
  induction es generalizing s with
  | nil => trivial
  | cons e es ih => exact ⟨⟨hC.1, hD.1⟩, fun s' hs' => ih (hC.2 s' hs') (hD.2 s' hs')⟩

/-- The conditional rule for events that are among those of the run. -/
theorem along_inv_mem {C : σ → ε → Prop} {I : σ → Prop} {s s' : σ} {es : List ε}
    (hI : ∀ s, ∀ e ∈ es, ∀ s', I s → C s e → step s e = some s' → I s') (hs : I s)
    (hC : Along step C s es) (hr : run step s es = some s') : I s' :=
  along_inv (fun s e s' h he => hI s e he.2 s' h he.1) hs (hC.and (along_mem s fun _ h => h)) hr

theorem Along.mono {C D : σ → ε → Prop} (h : ∀ s e, C s e → D s e) {s : σ} {es : List ε}
    (hC : Along step C s es) : Along step D s es := by
  induction es generalizing s with
  | nil => trivial
  | cons e es ih => exact ⟨h s e hC.1, fun s' hs' => ih (hC.2 s' hs')⟩

instance Along.decidable (C : σ → ε → Prop) [∀ s e, Decidable (C s e)] :
    ∀ (s : σ) (es : List ε), Decidable (Along step C s es)
  | _, [] => isTrue trivial
  | s, e :: es =>
    match h : step s e with
    | none => decidable_of_iff (C s e) ⟨fun hc => ⟨hc, by simp [h]⟩, And.left⟩
    | some s₁ =>
      haveI := Along.decidable C s₁ es
      decidable_of_iff (C s e ∧ Along step C s₁ es)
        ⟨fun hc => ⟨hc.1, by simpa [h] using hc.2⟩, fun hc => ⟨hc.1, hc.2 s₁ h⟩⟩

/-- Two conditions on the steps that are the same where `J` holds, when the first of them keeps
`J`. -/
theorem along_congr {C D : σ → ε → Prop} {J : σ → Prop}
    (hJ : ∀ s e s', J s → C s e → step s e = some s' → J s') (h : ∀ s e, J s → (C s e ↔ D s e))
    {s : σ} {es : List ε} (hj : J s) : Along step C s es ↔ Along step D s es := by
  induction es generalizing s with
  | nil => exact Iff.rfl
  | cons e es ih =>
    constructor
    · rintro ⟨hc, ha⟩
      exact ⟨(h s e hj).1 hc, fun s' hs' => (ih (hJ s e s' hj hc hs')).1 (ha s' hs')⟩
    · rintro ⟨hd, ha⟩
      have hc := (h s e hj).2 hd
      exact ⟨hc, fun s' hs' => (ih (hJ s e s' hj hc hs')).2 (ha s' hs')⟩

/-- Every state of the run meets `I`. -/
def Throughout (step : σ → ε → Option σ) (I : σ → Prop) : σ → List ε → Prop
  | s, [] => I s
  | s, e :: es => I s ∧ ∀ s' ∈ step s e, Throughout step I s' es

theorem Throughout.head {I : σ → Prop} {s : σ} {es : List ε} (h : Throughout step I s es) : I s := by
  cases es with
  | nil => exact h
  | cons e es => exact h.1

/-- What every step that meets `C` keeps holds throughout a run whose steps all meet `C`. -/
theorem along_throughout {C : σ → ε → Prop} {I : σ → Prop}
    (hI : ∀ s e s', I s → C s e → step s e = some s' → I s') {s : σ} {es : List ε}
    (hs : I s) (hC : Along step C s es) : Throughout step I s es := by
  induction es generalizing s with
  | nil => exact hs
  | cons e es ih => exact ⟨hs, fun s' hs' => ih (hI s e s' hs hC.1 hs') (hC.2 s' hs')⟩

theorem Throughout.mono {I J : σ → Prop} (h : ∀ s, I s → J s) {s : σ} {es : List ε}
    (hI : Throughout step I s es) : Throughout step J s es := by
  induction es generalizing s with
  | nil => exact h s hI
  | cons e es ih => exact ⟨h s hI.1, fun s' hs' => ih (hI.2 s' hs')⟩

/-- A condition on the steps that follows from what holds throughout a run. -/
theorem Throughout.along {C : σ → ε → Prop} {I J : σ → Prop}
    (hJ : ∀ s e s', J s → step s e = some s' → J s') (hC : ∀ s e, J s → I s → C s e) {s : σ}
    {es : List ε} (hj : J s) (hI : Throughout step I s es) : Along step C s es := by
  induction es generalizing s with
  | nil => trivial
  | cons e es ih =>
    exact ⟨hC s e hj hI.1, fun s' hs' => ih (hJ s e s' hj hs') (hI.2 s' hs')⟩

instance Throughout.decidable (I : σ → Prop) [DecidablePred I] :
    ∀ (s : σ) (es : List ε), Decidable (Throughout step I s es)
  | s, [] => inferInstanceAs (Decidable (I s))
  | s, e :: es =>
    match h : step s e with
    | none => decidable_of_iff (I s) ⟨fun hi => ⟨hi, by simp [h]⟩, And.left⟩
    | some s₁ =>
      haveI := Throughout.decidable I s₁ es
      decidable_of_iff (I s ∧ Throughout step I s₁ es)
        ⟨fun hi => ⟨hi.1, by simpa [h] using hi.2⟩, fun hi => ⟨hi.1, hi.2 s₁ h⟩⟩

/-- **Exact condition rule.** Where the invariant `J` holds, a step keeps `I` if and only if it
meets `C`. Then a run has `I` throughout if and only if all its steps meet `C`. -/
theorem throughout_iff_along {C : σ → ε → Prop} {I J : σ → Prop}
    (hJ : ∀ s e s', J s → step s e = some s' → J s')
    (hC : ∀ s e s', J s → I s → step s e = some s' → (I s' ↔ C s e)) {s s' : σ} {es : List ε}
    (hj : J s) (hi : I s) (hr : run step s es = some s') :
    Throughout step I s es ↔ Along step C s es := by
  induction es generalizing s with
  | nil => exact iff_of_true hi trivial
  | cons e es ih =>
    obtain ⟨s₁, h1, h2⟩ := run_cons.1 hr
    have hiff := hC s e s₁ hj hi h1
    simp only [Throughout, Along, h1, Option.mem_some_iff, forall_eq']
    constructor
    · rintro ⟨-, ht⟩
      exact ⟨hiff.1 ht.head, (ih (hJ s e s₁ hj h1) ht.head h2).1 ht⟩
    · rintro ⟨hc, ha⟩
      exact ⟨hi, (ih (hJ s e s₁ hj h1) (hiff.2 hc) h2).2 ha⟩

/-! ## Two machines -/

section Pair

variable {σ' ε' : Type*} {step' : σ' → ε' → Option σ'}

/-- Two machines side by side: an event is an event of one of them. -/
def pairStep (step : σ → ε → Option σ) (step' : σ' → ε' → Option σ') (w : σ × σ') :
    ε ⊕ ε' → Option (σ × σ')
  | .inl e => (step w.1 e).map (·, w.2)
  | .inr e => (step' w.2 e).map (w.1, ·)

variable {w w' : σ × σ'}

/-- What the first machine does is a run of it. -/
theorem run_fst {es : List (ε ⊕ ε')} (h : run (pairStep step step') w es = some w') :
    run step w.1 (es.filterMap Sum.getLeft?) = some w'.1 := by
  induction es generalizing w with
  | nil =>
    obtain rfl : w = w' := by simpa using h
    rfl
  | cons e es ih =>
    obtain ⟨w₁, h1, h2⟩ := run_cons.1 h
    cases e with
    | inl e =>
      simp only [pairStep, Option.map_eq_some_iff] at h1
      obtain ⟨s, hs, rfl⟩ := h1
      exact run_cons.2 ⟨s, hs, ih h2⟩
    | inr e =>
      simp only [pairStep, Option.map_eq_some_iff] at h1
      obtain ⟨s, hs, rfl⟩ := h1
      have := ih h2
      exact this

/-- What the second machine does is a run of it. -/
theorem run_snd {es : List (ε ⊕ ε')} (h : run (pairStep step step') w es = some w') :
    run step' w.2 (es.filterMap Sum.getRight?) = some w'.2 := by
  induction es generalizing w with
  | nil =>
    obtain rfl : w = w' := by simpa using h
    rfl
  | cons e es ih =>
    obtain ⟨w₁, h1, h2⟩ := run_cons.1 h
    cases e with
    | inl e =>
      simp only [pairStep, Option.map_eq_some_iff] at h1
      obtain ⟨s, hs, rfl⟩ := h1
      have := ih h2
      exact this
    | inr e =>
      simp only [pairStep, Option.map_eq_some_iff] at h1
      obtain ⟨s, hs, rfl⟩ := h1
      exact run_cons.2 ⟨s, hs, ih h2⟩

end Pair

end Lib
