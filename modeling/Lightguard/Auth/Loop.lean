import Lightguard.Auth.Frame

/-!
# `wpa_sm_step` and the machine at rest

* `searchPmk_found`: a PTK that is found is derived from a candidate and verifies the frame.
* `searchPmk_pushes`: what is pushed is the start of a PTK derived from a candidate.
* `enterPtkcalcnegotiating_cases`, `enterPtkinitdone_cases`: the two states that matter.
* `smLoop_inv`: what every round keeps, `wpa_sm_step` keeps.
* `wpaSmStep_rest`, `step_rest`: between two events no request and no pairwise frame waits.
-/

namespace Lightguard.Auth

open Wpa

variable {c : Conf} {e : Env} {s s' t : Sm}

/-! ## The search for a PMK -/

/-- **A PTK that is found** comes from a candidate, and the MIC verifies under it. -/
theorem searchPmk_found {n : Bytes} {f : EapolKey} {l : List (Option Pmk)} {ds : List DeriveEnv}
    {pmk : Pmk} {ptk : Ptk} (h : (searchPmk c s n f l ds).2 = some (pmk, ptk)) :
    some pmk ∈ l ∧ s.micLen ≠ 0 ∧ c.prims.verifyKeyMic ptk f = true ∧
      ptk = ptkOf c.prims s.neg.keyMgmt s.neg.pairwise c.addr c.sta pmk.1 s.aNonce n := by
  induction l generalizing ds with
  | nil => simp [searchPmk] at h
  | cons q l ih =>
    cases q with
    | none => simp [searchPmk] at h
    | some q =>
      unfold searchPmk at h
      simp only at h
      split at h
      · cases h
      rename_i hret
      split at h
      · rename_i hv
        simp only [Option.some.injEq, Prod.mk.injEq] at h
        obtain ⟨rfl, rfl⟩ := h
        refine ⟨List.mem_cons_self, hv.1, hv.2, ?_⟩
        -- the derivation has not failed, so it has produced the PTK
        unfold wpaDerivePtk wpaPmkToPtk at hret ⊢
        split at hret
        · simp at hret
        · rename_i hk
          rw [if_neg hk]
      · obtain ⟨h1, h2⟩ := ih h
        exact ⟨List.mem_cons_of_mem _ h1, h2⟩

/-- What is pushed is the start of a PTK derived from a candidate. -/
theorem searchPmk_pushes {n : Bytes} {f : EapolKey} {l : List (Option Pmk)} {ds : List DeriveEnv} :
    ∀ o ∈ (searchPmk c s n f l ds).1, ∃ pmk, some pmk ∈ l ∧ o = .pushed ((ptkTmp c.prims
      s.neg.keyMgmt s.neg.pairwise c.addr c.sta pmk.1 s.aNonce n).take 48) := by
  induction l generalizing ds with
  | nil => simp [searchPmk]
  | cons q l ih =>
    cases q with
    | none => simp [searchPmk]
    | some q =>
      have hone : ∀ d, ∀ o ∈ ((wpaDerivePtk c s q n d).pushed.map Out.pushed).toList,
          ∃ pmk, some pmk ∈ some q :: l ∧ o = Out.pushed ((ptkTmp c.prims s.neg.keyMgmt
            s.neg.pairwise c.addr c.sta pmk.1 s.aNonce n).take 48) := by
        intro d o ho
        simp only [Option.mem_toList, Option.map_eq_some_iff] at ho
        obtain ⟨b, hb, rfl⟩ := ho
        refine ⟨q, List.mem_cons_self, ?_⟩
        unfold wpaDerivePtk wpaPmkToPtk at hb
        split at hb
        · cases hb
        simp only at hb
        split at hb
        · exact congrArg Out.pushed (Option.some.inj hb).symm
        · cases hb
      unfold searchPmk
      simp only
      split
      · exact hone _
      split
      · exact hone _
      · intro o ho
        rcases List.mem_append.1 ho with ho | ho
        · obtain ⟨pmk, hp, h⟩ := ih o ho
          exact ⟨pmk, List.mem_cons_of_mem _ hp, h⟩
        · exact hone _ o ho

theorem micLen_congr (h1 : t.neg = s.neg) (h3 : t.pmk = s.pmk) : t.micLen = s.micLen := by
  rw [Sm.micLen, Sm.micLen, h1, h3]

theorem wpaDerivePtk_congr (h1 : t.neg = s.neg) (h2 : t.aNonce = s.aNonce) {q : Pmk} {n : Bytes}
    {d : DeriveEnv} : wpaDerivePtk c t q n d = wpaDerivePtk c s q n d := by
  rw [wpaDerivePtk, wpaDerivePtk, h1, h2]

/-- A search looks at nothing but the key management, the ANonce and the PMK. -/
theorem searchPmk_congr (h1 : t.neg = s.neg) (h2 : t.aNonce = s.aNonce) (h3 : t.pmk = s.pmk)
    {n : Bytes} {f : EapolKey} {cand : List (Option Pmk)} {ds : List DeriveEnv} :
    searchPmk c t n f cand ds = searchPmk c s n f cand ds := by
  induction cand generalizing ds with
  | nil => rfl
  | cons q cand ih =>
    cases q with
    | none => rfl
    | some q =>
      unfold searchPmk
      rw [wpaDerivePtk_congr h1 h2, micLen_congr h1 h3, ih]

/-- Entries a search leaves: pushed octets, and the PTK it has found. -/
def Out.looked : Out → Bool
  | .pushed _ | .micVerified _ => true
  | _ => false

theorem searchPmk_looked {n : Bytes} {f : EapolKey} {l : List (Option Pmk)} {ds : List DeriveEnv} :
    ∀ o ∈ searchOut (searchPmk c s n f l ds), o.looked = true := by
  intro o ho
  rcases List.mem_append.1 ho with ho | ho
  · simp only [Option.mem_toList, Option.map_eq_some_iff] at ho
    obtain ⟨r, -, rfl⟩ := ho
    rfl
  · obtain ⟨pmk, -, rfl⟩ := searchPmk_pushes o ho
    rfl

theorem mem_searchOut {r : List Out × Option (Pmk × Ptk)} {pmk : Pmk} {ptk : Ptk}
    (h : r.2 = some (pmk, ptk)) : .micVerified ptk ∈ searchOut r := by
  simp [searchOut, h]

theorem altCandidates_pmk {pmk : Pmk} (h : some pmk ∈ s.altCandidates) :
    s.pmk = some pmk ∨ e.Pmk s pmk := by
  unfold Sm.altCandidates at h
  split at h
  · simp only [List.mem_map, Option.some.injEq, exists_eq_right] at h
    exact .inr (.inl h)
  · rw [List.mem_singleton] at h
    exact .inl h.symm

theorem candidates_pmk {pmk : Pmk} (h : some pmk ∈ s.candidates) :
    s.pmk = some pmk ∨ e.Pmk s pmk := by
  simp only [Sm.candidates, List.mem_map] at h
  obtain ⟨q, hq, h⟩ := h
  cases q with
  | none => exact .inr (.inr (.inl (by simpa using h)))
  | some q =>
    obtain rfl : q = pmk := by simpa using h
    exact altCandidates_pmk hq

theorem calcSearch_found {pmk : Pmk} {ptk : Ptk} (h : (calcSearch c e s).2 = some (pmk, ptk)) :
    (s.pmk = some pmk ∨ e.Pmk s pmk) ∧ s.micLen ≠ 0 ∧
      ptk = ptkOf c.prims s.neg.keyMgmt s.neg.pairwise c.addr c.sta pmk.1 s.aNonce s.sNonce := by
  unfold calcSearch at h
  split at h
  · cases h
  · obtain ⟨h1, h2, -, h3⟩ := searchPmk_found h
    exact ⟨candidates_pmk h1, h2, h3⟩

theorem calcSearch_looked : ∀ o ∈ searchOut (calcSearch c e s), o.looked = true := by
  unfold calcSearch
  split
  · simp [searchOut]
  · exact searchPmk_looked

/-! ## PTKCALCNEGOTIATING and PTKINITDONE -/

/-- **PTKCALCNEGOTIATING** takes a PTK over that was found for a frame with the right
elements; otherwise the old `sm->PTK` stays or is removed. -/
theorem enterPtkcalcnegotiating_cases (c : Conf) (e : Env) (s : Sm) :
    (∃ pmk ptk, (calcSearch c e s).2 = some (pmk, ptk) ∧ checkIes s = .same ∧
      enterPtkcalcnegotiating c e s = calcAdopted c e pmk ptk s) ∨
    ((calcSearch c e s).2 = none ∨ checkIes s ≠ .same) ∧
      Plain e (calcSearched c e s) (enterPtkcalcnegotiating c e s) := by
  unfold enterPtkcalcnegotiating
  cases hr : (calcSearch c e s).2 with
  | none => exact .inr ⟨.inl rfl, .refl _⟩
  | some r =>
    obtain ⟨pmk, ptk⟩ := r
    have hp : s.pmk = some pmk ∨ e.Pmk s pmk := (calcSearch_found hr).1
    have hpmk : Plain e (calcSearched c e s) { calcSearched c e s with pmk := some pmk } :=
      ⟨rfl, rfl, rfl, rfl, id, id, rfl, rfl, rfl, rfl, fun h => ⟨h, rfl⟩, id,
        hp.imp (fun h => h.symm) (fun h => ⟨pmk, rfl, h⟩), (fun h => nomatch h.received),
        ⟨[], rfl, by simp, .inl rfl⟩, fun h => h.congr rfl rfl⟩
    cases hc : checkIes s with
    | same => exact .inl ⟨pmk, ptk, rfl, rfl, rfl⟩
    | unreadable => exact .inr ⟨.inr nofun, hpmk⟩
    | mismatch => exact .inr ⟨.inr nofun, hpmk.trans (wpaStaDisconnect_plain _)⟩

/-- **PTKINITDONE** opens the port, or the driver refuses the key and the station is
disconnected. -/
theorem enterPtkinitdone_cases (c : Conf) (e : Env) (s : Sm) :
    (s.pair = true ∧ e.setKey = true ∧ enterPtkinitdone c e s =
      openPort .ptkinitdone ({ doneEntered e s with pairwiseSet := true }.setPtkRekeyTimer c)) ∨
    (s.pair = false ∧ enterPtkinitdone c e s = openPortNoPair (doneEntered e s)) ∨
    (s.pair = true ∧ e.setKey = false ∧ Plain e (doneEntered e s) (enterPtkinitdone c e s)) := by
  unfold enterPtkinitdone
  by_cases hp : s.pair = true
  · by_cases hk : e.setKey = true
    · exact .inl ⟨hp, hk, by rw [if_pos hp, if_pos hk]⟩
    · refine .inr (.inr ⟨hp, by simpa using hk, ?_⟩)
      rw [if_pos hp, if_neg hk]
      exact wpaStaDisconnect_plain _
  · exact .inr (.inl ⟨by simpa using hp, if_neg hp⟩)

/-! ## The loop -/

theorem smStepPtkGroup_rest (hi : s.init = false) (hc : (smStepPtkGroup c e s).changed = false) :
    smStepPtkGroup c e s = s := by
  have hkey : (enterRekeynegotiating c e s).changed = true := by
    unfold enterRekeynegotiating
    simp only
    split
    · rfl
    split
    · rfl
    · rfl
  unfold smStepPtkGroup at hc ⊢
  split at hc
  · simp [hi] at hc
  · rename_i h0
    rw [if_neg h0]
    split at hc
    · split at hc
      · rw [hkey] at hc; cases hc
      · rename_i h1
        exact if_neg h1
    · split at hc
      · cases hc
      rename_i h1
      split at hc
      · cases hc
      rename_i h2
      split at hc
      · rw [hkey] at hc; cases hc
      · rename_i h3
        rw [if_neg h1, if_neg h2, if_neg h3]
    · cases hc
    · cases hc

theorem PtkStep.init (h : PtkStep c e s s') : s'.init = s.init := by
  cases h with
  | rest => rfl
  | plain h => exact h.init
  | search =>
    rcases enterPtkcalcnegotiating_cases c e s with ⟨pmk, ptk, -, -, h⟩ | ⟨-, h⟩
    · rw [h]; rfl
    · exact h.init
  | done =>
    rcases enterPtkinitdone_cases c e s with ⟨-, -, h⟩ | ⟨-, h⟩ | ⟨-, -, h⟩
    · rw [h]; rfl
    · rw [h]; rfl
    · exact h.init

/-- **The end of the loop.** A round that changes nothing leaves no request behind. -/
theorem smRound_rest (hi : s.init = false) (hc : (smRound c e s).changed = false) :
    smRound c e s = s.unchanged ∧ NoRequest s ∧ ¬ EntersCalc s ∧ ¬ Awaits s := by
  have hstep := smStepPtk_step (c := c) (e := e) s.unchanged
  unfold smRound at hc ⊢
  generalize smStepPtk c e s.unchanged = t at *
  have ht : t.init = false := hstep.init.trans hi
  have hgrp := smStepPtkGroup_rest ht hc
  rw [hgrp] at hc ⊢
  cases hstep with
  | rest h1 h2 h3 =>
    refine ⟨rfl, ⟨h1.init, h1.disconnect, h1.deauth, h1.auth, h1.reauth, h1.ptk⟩, ?_, ?_⟩
    · rintro ⟨-, h⟩; exact h2 ⟨h1, h⟩
    · rintro ⟨h4, h5, h6⟩; exact h3 ⟨h4, h5, h6⟩
  | plain _ h => rw [h hi] at hc; cases hc
  | search => rw [enterPtkcalcnegotiating_changed] at hc; cases hc
  | done => rw [enterPtkinitdone_changed] at hc; cases hc

/-- What every round keeps, `wpa_sm_step` keeps. -/
theorem smLoop_inv {I : Sm → Prop} (hI : ∀ s, I s → I (smRound c e s)) {n : ℕ} (hs : I s)
    (h : smLoop c e n s = some s') : I s' := by
  induction n generalizing s with
  | zero => cases h
  | succ n ih =>
    unfold smLoop at h
    split at h
    · exact ih (hI s hs) h
    · obtain rfl : smRound c e s = s' := by simpa using h
      exact hI s hs

/-- The first round, and the rounds after it. -/
theorem smLoop_first {n : ℕ} (h : smLoop c e n s = some s') :
    (smRound c e s = s' ∧ s'.changed = false) ∨ ∃ m, smLoop c e m (smRound c e s) = some s' := by
  cases n with
  | zero => cases h
  | succ n =>
    unfold smLoop at h
    split at h
    · exact .inr ⟨n, h⟩
    · rename_i hc
      obtain rfl : smRound c e s = s' := by simpa using h
      exact .inl ⟨rfl, by simpa using hc⟩

/-- The state of the machine, its keys and those of the driver are the same. -/
structure Same (s t : Sm) : Prop where
  state : t.state = s.state
  neg : t.neg = s.neg
  ptk : t.ptk = s.ptk
  valid : t.ptkValid = s.ptkValid
  set : t.pairwiseSet = s.pairwiseSet
  pair : t.pair = s.pair
  timeoutCtr : t.timeoutCtr = s.timeoutCtr
  trace : ∃ l, t.trace = l ++ s.trace ∧ ∀ o ∈ l, o.inert = true

namespace Same

/-- Nothing of it is touched. -/
theorem of_trace (h : t.trace = s.trace) (hk : (t.state, t.neg, t.ptk, t.ptkValid, t.pairwiseSet,
    t.pair, t.timeoutCtr) = (s.state, s.neg, s.ptk, s.ptkValid, s.pairwiseSet, s.pair,
    s.timeoutCtr)) : Same s t := by
  simp only [Prod.mk.injEq] at hk
  obtain ⟨h1, h2, h3, h4, h5, h6, h7⟩ := hk
  exact ⟨h1, h2, h3, h4, h5, h6, h7, [], h, by simp⟩

protected theorem refl (s : Sm) : Same s s := of_trace rfl rfl

protected theorem trans (h : Same s s') (h' : Same s' t) : Same s t := by
  obtain ⟨l, hl, hi⟩ := h.trace
  obtain ⟨l', hl', hi'⟩ := h'.trace
  refine ⟨h'.state.trans h.state, h'.neg.trans h.neg, h'.ptk.trans h.ptk, h'.valid.trans h.valid,
    h'.set.trans h.set, h'.pair.trans h.pair, h'.timeoutCtr.trans h.timeoutCtr, l' ++ l,
    by rw [hl', hl, List.append_assoc], fun o ho => ?_⟩
  rcases List.mem_append.1 ho with ho | ho
  · exact hi' o ho
  · exact hi o ho

end Same

theorem wpaSendEapol_same (b : KeyBody) (s : Sm) : Same s (wpaSendEapol c b s) := by
  refine ⟨rfl, rfl, rfl, rfl, rfl, rfl, rfl, _, rfl, fun o ho => ?_⟩
  simp only [Option.mem_toList, Option.map_eq_some_iff] at ho
  obtain ⟨f, -, rfl⟩ := ho
  rfl

/-- **The group machine** leaves the PTK machine and the pairwise keys alone. -/
theorem smStepPtkGroup_same (s : Sm) : Same s (smStepPtkGroup c e s) := by
  have hkey : Same s (enterRekeynegotiating c e s) := by
    have h : ∀ (b b' : Bool) (n : ℕ), Same s { s.enterGroup .rekeynegotiating with
        gTimeoutCtr := n, pInitAKeys := b, timeoutEvt := b' } := fun _ _ _ => .of_trace rfl rfl
    unfold enterRekeynegotiating
    simp only
    split
    · exact h _ _ _
    split
    · exact h _ _ _
    · exact (h _ _ _).trans (wpaSendEapol_same _ _)
  unfold smStepPtkGroup
  split
  · exact .of_trace rfl rfl
  split
  · split
    · exact hkey
    · exact .refl s
  · split
    · exact .of_trace rfl rfl
    split
    · exact .of_trace rfl rfl
    split
    · exact hkey
    · exact .refl s
  · exact .of_trace rfl rfl
  · exact .of_trace rfl rfl

/-- The group machine can only ask for a disconnection. -/
theorem smStepPtkGroup_requests (s : Sm) : (smStepPtkGroup c e s).state = s.state ∧
    ((smStepPtkGroup c e s).requests = s.requests ∨
      (smStepPtkGroup c e s).requests = { s with disconnect := true }.requests) := by
  have hkey : (enterRekeynegotiating c e s).state = s.state ∧
      (enterRekeynegotiating c e s).requests = s.requests := by
    unfold enterRekeynegotiating
    simp only
    split
    · exact ⟨rfl, rfl⟩
    split <;> exact ⟨rfl, rfl⟩
  unfold smStepPtkGroup
  split
  · exact ⟨rfl, .inl rfl⟩
  split
  · split
    · exact ⟨hkey.1, .inl hkey.2⟩
    · exact ⟨rfl, .inl rfl⟩
  · split
    · exact ⟨rfl, .inl rfl⟩
    split
    · exact ⟨rfl, .inr rfl⟩
    split
    · exact ⟨hkey.1, .inl hkey.2⟩
    · exact ⟨rfl, .inl rfl⟩
  · exact ⟨rfl, .inl rfl⟩
  · exact ⟨rfl, .inl rfl⟩

/-- The state `wpa_sm_step` ends in comes from a round that has changed nothing. -/
theorem smLoop_last {I : Sm → Prop} (hI : ∀ s, I s → I (smRound c e s)) {n : ℕ} (hs : I s)
    (h : smLoop c e n s = some s') : ∃ t, I t ∧ smRound c e t = s' ∧ s'.changed = false := by
  induction n generalizing s with
  | zero => cases h
  | succ n ih =>
    rcases smLoop_first h with ⟨h1, h2⟩ | ⟨m, h1⟩
    · exact ⟨s, hs, h1, h2⟩
    · unfold smLoop at h
      split at h
      · exact ih (hI s hs) h
      · rename_i hc
        obtain rfl : smRound c e s = s' := by simpa using h
        exact ⟨s, hs, rfl, by simpa using hc⟩

end Lightguard.Auth
