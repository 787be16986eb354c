import Mathlib.Order.Lattice
import Lightguard.Lib.Run

/-!
# Watermarks

A machine keeps a mark that no step lowers. What a step emits lies above the mark before it and is
reached by the mark after it.

* `emitted`: what the steps of a run emit, in their order.
* `Watermark.keep_run`, `Watermark.emitted_reached`: what was reached stays so, over runs.
* `Watermark.emitted_sorted`: no two steps of a run emit the same, and a later one emits more.
-/

namespace Lib

variable {σ ε ι : Type*} {step : σ → ε → Option σ} {out : σ → ε → List ι} {ok : σ → ε → Prop}
  {Inv : σ → Prop} {Reached : ι → σ → Prop} {s t : σ} {es : List ε} {x y : ι}

/-- What the steps of a run emit, in their order. -/
def emitted (step : σ → ε → Option σ) (out : σ → ε → List ι) : σ → List ε → List ι
  | _, [] => []
  | s, e :: es => out s e ++ (step s e).elim [] fun t => emitted step out t es

/-- What one step does to the mark, for steps that keep it and states with the invariant. -/
structure Watermark [LinearOrder ι] (step : σ → ε → Option σ) (out : σ → ε → List ι) (ok : σ → ε → Prop)
    (Inv : σ → Prop) (Reached : ι → σ → Prop) : Prop where
  inv : ∀ {s e t}, ok s e → step s e = some t → Inv s → Inv t
  down : ∀ {x y s}, x ≤ y → Reached y s → Reached x s
  keep : ∀ {x s e t}, ok s e → step s e = some t → Reached x s → Reached x t
  fresh : ∀ {x s e}, Inv s → x ∈ out s e → ¬ Reached x s
  noted : ∀ {x s e t}, Inv s → step s e = some t → x ∈ out s e → Reached x t
  sorted : ∀ s e, (out s e).Pairwise (· < ·)

namespace Watermark

variable [LinearOrder ι]

/-- **What has been reached** stays so. -/
theorem keep_run (h : Watermark step out ok Inv Reached) (hr : run step s es = some t) (hes : Along step ok s es)
    (hx : Reached x s) : Reached x t :=
  along_inv (fun _ _ _ hs hok hstep => h.keep hok hstep hs) hx hes hr

/-- What has been reached is not emitted any more. -/
theorem not_emitted (h : Watermark step out ok Inv Reached) (hs : Inv s) (hes : Along step ok s es)
    (hx : Reached x s) : x ∉ emitted step out s es := by
  induction es generalizing s with
  | nil => exact List.not_mem_nil
  | cons e es ih =>
    obtain ⟨hok, hes'⟩ := hes
    intro hmem
    rcases List.mem_append.1 hmem with hnow | hlater
    · exact h.fresh hs hnow hx
    · cases hstep : step s e with
      | none => exact List.not_mem_nil (hstep ▸ hlater)
      | some u =>
        rw [hstep] at hlater
        exact ih (h.inv hok hstep hs) (hes' u hstep) (h.keep hok hstep hx) hlater

/-- **What has been emitted** is reached at the end. -/
theorem emitted_reached (h : Watermark step out ok Inv Reached) (hs : Inv s) (hr : run step s es = some t)
    (hes : Along step ok s es) (hx : x ∈ emitted step out s es) : Reached x t := by
  induction es generalizing s with
  | nil => exact absurd hx List.not_mem_nil
  | cons e es ih =>
    obtain ⟨u, hstep, hr'⟩ := run_cons.1 hr
    obtain ⟨hok, hes'⟩ := hes
    rcases List.mem_append.1 hx with hnow | hlater
    · exact h.keep_run hr' (hes' u hstep) (h.noted hs hstep hnow)
    · rw [hstep] at hlater
      exact ih (h.inv hok hstep hs) hr' (hes' u hstep) hlater

/-- **A run emits in order**, and nothing twice. -/
theorem emitted_sorted (h : Watermark step out ok Inv Reached) (hs : Inv s) (hes : Along step ok s es) :
    (emitted step out s es).Pairwise (· < ·) := by
  induction es generalizing s with
  | nil => exact .nil
  | cons e es ih =>
    obtain ⟨hok, hes'⟩ := hes
    unfold emitted
    cases hstep : step s e with
    | none => simpa using h.sorted s e
    | some u =>
      have hu : Inv u := h.inv hok hstep hs
      refine List.pairwise_append.2 ⟨h.sorted s e, ih hu (hes' u hstep), fun x hx y hy => ?_⟩
      -- what is not above `x` has been reached with it
      by_contra hlt
      exact h.not_emitted hu (hes' u hstep) (h.down (not_lt.1 hlt) (h.noted hs hstep hx)) hy

end Watermark

end Lib
