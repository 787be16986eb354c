import Lightguard.Auth.Slots

/-!
# The PTK rekey timer

The WiFi copy's `wpa_rekey_ptk` writes the test PTK over `sm->PTK` before it knows whether the
driver will take it.

* `wpaSmStep_own`: what `wpa_sm_step` adds to the trace is not of the fork's install sites.
* `expiry_keys`, `expiries_keys`: what one expiry and what any number of them leave.
-/

namespace Lightguard.Auth

open Wpa

variable {c : Conf} {ev : Event} {e : Env} {s s' t : Sm} {l l' : List Out}

/-! ## `wpa_sm_step` and the fork's install sites -/

/-- Entries of the fork's install sites. -/
def Out.fork : Out → Bool
  | .newPtk .fork _ | .setKey .fastPath _ _ _ | .setKey .rekeyPtk _ _ _ | .setKey .ptkTcp _ _ _ => true
  | _ => false

/-- A transition with entries of its own only. -/
structure Own (s t : Sm) : Prop where
  neg : t.neg = s.neg
  trace : ∃ l, t.trace = l ++ s.trace ∧ ∀ o ∈ l, o.fork = false

protected theorem Own.refl (s : Sm) : Own s s := ⟨rfl, [], rfl, by simp⟩

protected theorem Own.trans (h : Own s s') (h' : Own s' t) : Own s t := by
  obtain ⟨l, hl, hq⟩ := h.trace
  obtain ⟨l', hl', hq'⟩ := h'.trace
  refine ⟨h'.neg.trans h.neg, l' ++ l, by rw [hl', hl, List.append_assoc], ?_⟩
  intro o ho
  rcases List.mem_append.1 ho with ho | ho
  · exact hq' o ho
  · exact hq o ho

theorem fork_quiet {o : Out} {b : Bool} (h : o.quiet b = true) : o.fork = false := by
  cases o with
  | setKey site => cases site <;> simp_all [Out.quiet, Out.fork]
  | _ => simp_all [Out.quiet, Out.fork]

theorem Plain.own (h : Plain e s t) : Own s t := by
  obtain ⟨l, hl, hq, -⟩ := h.trace
  exact ⟨h.neg, l, hl, fun o ho => fork_quiet (hq o ho)⟩

theorem looked_fork (h : ∀ o ∈ l, o.looked = true) : ∀ o ∈ l, o.fork = false := by
  intro o ho
  have := h o ho
  cases o <;> simp_all [Out.looked, Out.fork]

theorem openPort_own (site : Site) (s : Sm) : Own s (openPort site s) := by
  refine ⟨rfl, portCalls site s.neg, rfl, ?_⟩
  unfold portCalls
  split <;> simp [Out.fork]

theorem PtkStep.own (h : PtkStep c e s t) : Own s t := by
  cases h with
  | rest => exact .refl s
  | plain h => exact h.own
  | search =>
    rcases enterPtkcalcnegotiating_cases c e s with ⟨pmk, ptk, -, -, heq⟩ | ⟨-, hp⟩
    · rw [heq]
      refine ⟨rfl, .newPtk (.derived pmk s.aNonce s.sNonce) ptk :: searchOut (calcSearch c e s),
        rfl, ?_⟩
      intro o ho
      rcases List.mem_cons.1 ho with rfl | ho
      · rfl
      · exact looked_fork calcSearch_looked o ho
    · have h1 : Own s (calcSearched c e s) := ⟨rfl, _, rfl, looked_fork calcSearch_looked⟩
      exact h1.trans hp.own
  | done =>
    have hd : Own s (doneEntered e s) := by
      rcases doneEntered_keys e s with htr | ⟨-, htr⟩
      · exact ⟨rfl, [_], htr, by simp [Out.fork]⟩
      · exact ⟨rfl, [_, _], htr, by simp [Out.fork]⟩
    rcases enterPtkinitdone_cases c e s with ⟨-, -, heq⟩ | ⟨-, heq⟩ | ⟨-, -, hp⟩
    · rw [heq]
      have h1 : Own s ({ doneEntered e s with pairwiseSet := true }.setPtkRekeyTimer c) :=
        ⟨hd.neg, hd.trace⟩
      exact h1.trans (openPort_own _ _)
    · rw [heq]
      exact hd.trans ⟨rfl, [_], rfl, by simp [Out.fork]⟩
    · exact hd.trans hp.own

theorem wpaSmStep_own (h : wpaSmStep c e s = some t) : Own s t := by
  have hround : ∀ u, Own s u → Own s (smRound c e u) := by
    intro u hu
    have h1 : Own u u.unchanged := ⟨rfl, [], rfl, by simp⟩
    exact ((hu.trans h1).trans (smStepPtk_step _).own).trans (smStepPtkGroup_plain _).own
  exact smLoop_inv hround (.refl s) h

/-! ## Expiries -/

/-- Entries that tell of a disconnection or of a 4-way handshake that has got as far as a key. -/
def Out.disturbs : Out → Bool
  | .disconnect | .portClosed | .delKey _ _ | .ptkCleared => true
  | .newPtk (.derived ..) _ | .micVerified _ | .ptkinitdone _ => true
  | .setKey .ptkinitnegotiating _ _ _ | .setKey .ptkinitdone _ _ _ => true
  | _ => false

/-- Neither a disconnection nor a 4-way handshake between two states. -/
def Undisturbed (s t : Sm) : Prop := ∃ l, t.trace = l ++ s.trace ∧ ∀ o ∈ l, o.disturbs = false

theorem Undisturbed.cut (h : Undisturbed s t) (h1 : ∃ l, s'.trace = l ++ s.trace)
    (h2 : ∃ l, t.trace = l ++ s'.trace) : Undisturbed s s' ∧ Undisturbed s' t := by
  obtain ⟨l, hl, hq⟩ := h
  obtain ⟨l₁, hl₁⟩ := h1
  obtain ⟨l₂, hl₂⟩ := h2
  have heq : l = l₂ ++ l₁ := by
    rw [hl₂, hl₁, ← List.append_assoc] at hl
    exact (List.append_cancel_right hl).symm
  subst heq
  exact ⟨⟨l₁, hl₁, fun o ho => hq o (List.mem_append_right _ ho)⟩,
    ⟨l₂, hl₂, fun o ho => hq o (List.mem_append_left _ ho)⟩⟩

/-- What `wpa_rekey_ptk` has done when it does not fall back to the 4-way handshake, or before
it does. -/
def rekeyed (c : Conf) (e : Env) (s : Sm) : Sm :=
  (tryInstall c e .rekeyPtk customTestPtk { s with rekeyTimer := false }).2

theorem rekeyed_keys (c : Conf) (e : Env) (s : Sm) :
    (rekeyed c e s).ptk = customTestPtk ∧ (rekeyed c e s).neg = s.neg ∧
      (∃ l, (rekeyed c e s).trace = l ++ s.trace) ∧
      driverTk (rekeyed c e s).trace =
        if e.setKey = true ∧ s.neg.pairwise.keyLen = 16 then some customTestPtk.tk
        else driverTk s.trace := by
  unfold rekeyed
  rcases tryInstall_cases c e .rekeyPtk customTestPtk { s with rekeyTimer := false } with
    ⟨hlen, heq⟩ | ⟨hlen, ⟨hk, heq⟩ | ⟨hk, heq⟩⟩ <;> rw [heq]
  · refine ⟨rfl, rfl, ⟨[_], rfl⟩, ?_⟩
    have hne : ¬ s.neg.pairwise.keyLen = 16 := by
      intro h16
      apply hlen
      rw [show ({ s with rekeyTimer := false } : Sm).neg = s.neg from rfl, h16]
      exact ⟨by decide, rfl⟩
    rw [if_neg fun h => hne h.2]
    rfl
  · refine ⟨rfl, rfl, ⟨[_, _], rfl⟩, ?_⟩
    rw [if_neg fun h => by rw [h.1] at hk; cases hk]
    rfl
  · refine ⟨rfl, rfl, ⟨[_, _], rfl⟩, ?_⟩
    rw [if_pos ⟨hk, hlen.2⟩]
    rfl

/-- An expiry of the timer, and the fallback after it. -/
theorem expiry_own (hl : c.link = .wifi) (hv : s.neg.pairwise ≠ .none)
    (h : step c s (.rekeyPtk, e) = some s') : Own (rekeyed c e s) s' := by
  have hvalid : s.neg.pairwise.validPairwise = true := by simpa [Cipher.validPairwise] using hv
  simp only [step] at h
  split at h
  · unfold wpaRekeyPtk at h
    simp only [hl, hvalid, and_self, if_true] at h
    split at h
    · obtain rfl := Option.some.inj h
      exact .refl _
    · exact (wpaRequestNewPtk_plain (c := c) (e := e) _).own.trans (wpaSmStep_own h)
  · cases h

/-- **One expiry** writes the test PTK over `sm->PTK`; the driver gets its TK when the cipher
has one of that length. -/
theorem expiry_keys (hl : c.link = .wifi) (hr : Rest s) (hs : StoredOK s)
    (hv : s.neg.pairwise ≠ .none) (h : step c s (.rekeyPtk, e) = some s') (hu : Undisturbed s s') :
    s'.ptk = customTestPtk ∧ driverTk s'.trace =
      if e.setKey = true ∧ s.neg.pairwise.keyLen = 16 then some customTestPtk.tk
      else driverTk s.trace := by
  obtain ⟨hacts, -⟩ := step_acts hr h
  have hstored : StoredOK s' := acts_stored hs hacts
  have hown := expiry_own hl hv h
  obtain ⟨hk, -, hext, htk⟩ := rekeyed_keys c e s
  have hoff : StoredOK { s with rekeyTimer := false } := hs.congr rfl rfl
  have hr' : StoredOK (rekeyed c e s) := hoff.tryInstall .rekeyPtk customTestPtk
  obtain ⟨l, hl', hf⟩ := hown.trace
  obtain ⟨l₀, hl₀, hq⟩ := (hu.cut hext ⟨l, hl'⟩).2
  obtain rfl : l₀ = l := List.append_cancel_right (hl₀.symm.trans hl')
  -- the fallback has neither written `sm->PTK` nor handed a key over
  have hkeep : ∀ o ∈ l₀, o.keepsPtk = true := by
    intro o ho
    have h1 := hf o ho
    have h2 := hq o ho
    cases o with
    | newPtk src => cases src <;> simp_all [Out.fork, Out.disturbs]
    | _ => simp_all [Out.disturbs, Out.keepsPtk]
  have hnone : ∀ site idx key, Out.setKey site idx key true ∉ l₀ := by
    intro site idx key ho
    have h1 := hf _ ho
    have h2 := hq _ ho
    cases site <;> simp_all [Out.fork, Out.disturbs]
  refine ⟨?_, ?_⟩
  · rw [← hstored.ptk, hl', storedPtk_keeps hkeep, hr'.ptk, hk]
  · rw [hl', driverTk_keeps hkeep hnone, htk]

theorem expiries_grow (hl : c.link = .wifi) (hv : s.neg.pairwise ≠ .none) {envs : List Env}
    (h : run c s (envs.map (.rekeyPtk, ·)) = some s') : ∃ l, s'.trace = l ++ s.trace := by
  induction envs generalizing s with
  | nil =>
    obtain rfl : s = s' := by simpa using h
    exact ⟨[], rfl⟩
  | cons e envs ih =>
    obtain ⟨s₁, h1, h2⟩ := Lib.run_cons.1 h
    have hown := expiry_own hl hv h1
    obtain ⟨-, hneg, ⟨l₁, hl₁⟩, -⟩ := rekeyed_keys c e s
    obtain ⟨l₂, hl₂, -⟩ := hown.trace
    obtain ⟨l₃, hl₃⟩ := ih (by rw [hown.neg, hneg]; exact hv) h2
    exact ⟨l₃ ++ l₂ ++ l₁, by rw [hl₃, hl₂, hl₁]; simp⟩

/-- **Any number of expiries.** -/
theorem expiries_keys (hl : c.link = .wifi) (hr : Rest s) (hs : StoredOK s)
    (hv : s.neg.pairwise ≠ .none) {envs : List Env} (h : run c s (envs.map (.rekeyPtk, ·)) = some s')
    (hu : Undisturbed s s') :
    s'.ptk = (if envs = [] then s.ptk else customTestPtk) ∧ driverTk s'.trace =
      if (∃ e ∈ envs, e.setKey = true) ∧ s.neg.pairwise.keyLen = 16 then some customTestPtk.tk
      else driverTk s.trace := by
  induction envs generalizing s with
  | nil =>
    obtain rfl : s = s' := by simpa using h
    simp
  | cons e envs ih =>
    obtain ⟨s₁, h1, h2⟩ := Lib.run_cons.1 h
    obtain ⟨hacts, hr₁⟩ := step_acts hr h1
    have hs₁ : StoredOK s₁ := acts_stored hs hacts
    have hown := expiry_own hl hv h1
    obtain ⟨-, hneg, ⟨l₁, hl₁⟩, -⟩ := rekeyed_keys c e s
    obtain ⟨l₂, hl₂, -⟩ := hown.trace
    have hneg₁ : s₁.neg = s.neg := hown.neg.trans hneg
    have hv₁ : s₁.neg.pairwise ≠ .none := by rwa [hneg₁]
    obtain ⟨hu₁, hu₂⟩ := hu.cut ⟨l₂ ++ l₁, by rw [hl₂, hl₁]; simp⟩ (expiries_grow hl hv₁ h2)
    obtain ⟨hk, htk⟩ := expiry_keys hl hr hs hv h1 hu₁
    obtain ⟨hk', htk'⟩ := ih hr₁ hs₁ hv₁ h2 hu₂
    refine ⟨?_, ?_⟩
    · rw [hk', hk, ite_self, if_neg (List.cons_ne_nil e envs)]
    · rw [htk', htk, hneg₁]
      by_cases h16 : s.neg.pairwise.keyLen = 16
      · by_cases he : e.setKey = true
        · simp [h16, he]
        · simp [h16, he]
      · simp [h16]

end Lightguard.Auth
