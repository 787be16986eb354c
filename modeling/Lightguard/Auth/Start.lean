import Lightguard.Auth.Rest

/-!
# The start of the 4-way handshake

hostapd's answer to an association: `wpa_auth_sta_associated`, or the WPA_REAUTH event when the
station counts as associated already.

* `startAuthentication_notDone`, `reauth_notDone`: behind the fast path neither ends in PTKINITDONE.
* `startAuthentication_msg1`, `reauth_msg1`: with a PSK both send message 1/4.
-/

namespace Lightguard.Auth

open Wpa

/-- The WPA part of `hostapd_new_assoc_sta`; `reassoc` says that the station has WLAN_STA_ASSOC set. A
station with an RSN or WPA element has no WPS flag. -/
def hostapdNewAssocSta (c : Conf) (e : Env) (reassoc : Bool) (s : Sm) : Option Sm :=
  if reassoc then wpaAuthSmEvent c e .reauth s else wpaAuthStaAssociated c e s

variable {c : Conf} {e : Env} {s s' : Sm}

/-- Not in PTKINITDONE, and no frame waits for a transition into it. -/
structure NotDone (s : Sm) : Prop where
  state : s.state ≠ .ptkinitdone
  late : s.state.late = true → s.eapolKeyReceived = false

/-- The next step of the PTK machine ends outside PTKINITDONE. -/
def Leaves (s : Sm) : Prop :=
  s.init = true ∨ s.disconnect = true ∨ s.reAuthenticationRequest = true ∨ NotDone s

theorem smStepPtk_notDone (h : Leaves s) : NotDone (smStepPtk c e s) := by
  have hreq : NoRequest s → NotDone s := by
    intro hn
    rcases h with h | h | h | h
    · exact absurd h (by simp [hn.init])
    · exact absurd h (by simp [hn.disconnect])
    · exact absurd h (by simp [hn.reauth])
    · exact h
  have hmove := smStepPtk_move (c := c) (e := e) s
  generalize smStepPtk c e s = t at hmove ⊢
  cases hmove with
  | rest h => exact hreq h
  | early h => exact ⟨h.notDone, fun hl => nomatch h.early.symm.trans hl⟩
  | search h =>
    obtain ⟨h1, h2, -⟩ := enterPtkcalcnegotiating_state (c := c) (e := e) s
    exact ⟨by rw [h1]; nofun, fun _ => h2⟩
  | calc2 h hs => exact ⟨nofun, fun _ => (hreq h).late (by rw [hs]; rfl)⟩
  | negotiate h hs =>
    obtain ⟨h1, h2, -⟩ := enterPtkinitnegotiating_state (c := c) (e := e) s
    refine ⟨by rw [h1]; nofun, fun _ => h2.trans ((hreq h).late ?_)⟩
    rcases hs with hs | hs <;> rw [hs] <;> rfl
  | done h =>
    -- PTKINITDONE needs a frame
    have h1 := (hreq h.toNoRequest).late h.late
    have h2 := h.received
    simp [Sm.pairwiseReceived, h1] at h2

theorem smRound_notDone (h : Leaves s) : NotDone (smRound c e s) := by
  have h1 : NotDone (smStepPtk c e s.unchanged) :=
    smStepPtk_notDone (h.imp id (.imp id (.imp id fun h => ⟨h.state, h.late⟩)))
  have h2 := (smStepPtkGroup_plain (c := c) (e := e) (smStepPtk c e s.unchanged)).received
  unfold smRound
  have h3 := (smStepPtkGroup_same (c := c) (e := e) (smStepPtk c e s.unchanged)).state
  refine ⟨fun h => h1.state (h3.symm.trans h), fun hl => ?_⟩
  rw [h3] at hl
  exact Bool.eq_false_iff.2 fun hr => absurd (h2 hr) (by simp [h1.late hl])

/-- `wpa_sm_step` leaves PTKINITDONE when it is asked to and does not come back. -/
theorem wpaSmStep_notDone (hs : Leaves s) (h : wpaSmStep c e s = some s') : NotDone s' := by
  obtain ⟨t, ht, rfl, -⟩ := smLoop_last (I := Leaves)
    (fun t ht => .inr (.inr (.inr (smRound_notDone ht)))) hs h
  exact smRound_notDone ht

/-- **The common part** of `wpa_auth_sta_associated` does not end in PTKINITDONE. -/
theorem startAuthentication_notDone (h : startAuthentication c e s = some s') : NotDone s' := by
  unfold startAuthentication at h
  split at h
  · exact wpaSmStep_notDone (.inr (.inr (.inl rfl))) h
  · obtain ⟨t, ht, h⟩ := Option.bind_eq_some_iff.1 h
    have h1 : NotDone t := wpaSmStep_notDone (.inl rfl) ht
    have h2 : NotDone { t with init := false, authenticationRequest := true } := ⟨h1.state, h1.late⟩
    exact wpaSmStep_notDone (.inr (.inr (.inr h2))) h

/-- What the WPA_REAUTH event makes of a machine: it is started, or asked to disconnect where a new
PTK would need a new Key ID, or asked to authenticate again. -/
theorem reauth_cases (h : wpaAuthSmEvent c e .reauth s = some s') :
    (s.started = false ∧ ∃ t, wpaSmStep c e { s with started := true, init := true } = some t ∧
      wpaSmStep c e (wpaRemovePtk e { t with init := false, authenticationRequest := true }.ptkDropped) =
        some s') ∨
    (s.started = true ∧ s.neg.useExtKeyId = false ∧ c.denyPtk0Rekey = true ∧
      wpaSmStep c e (wpaRemovePtk e { s with disconnect := true }.ptkDropped) = some s') ∨
    s.started = true ∧ ∃ k, wpaSmStep c e (wpaRemovePtk e { s with
      keyidxActive := k
      ptkGroupInit := s.ptkGroupInit || s.gUpdateStationKeys
      gUpdateStationKeys := false
      reAuthenticationRequest := true }.ptkDropped) = some s' := by
  unfold wpaAuthSmEvent at h
  obtain ⟨t, ht, h⟩ := Option.bind_eq_some_iff.1 h
  simp only [reduceCtorEq, and_false, if_false] at ht h
  split at ht
  · rename_i hst
    obtain ⟨u, hu, rfl⟩ := Option.map_eq_some_iff.1 ht
    exact .inl ⟨by simpa using hst, u, hu, h⟩
  rename_i hst
  have hstarted : s.started = true := by simpa using hst
  split at ht
  · rename_i hd
    obtain rfl := Option.some.inj ht
    simp only [Bool.and_eq_true, Bool.not_eq_true'] at hd
    exact .inr (.inl ⟨hstarted, hd.1, hd.2, h⟩)
  · obtain rfl := Option.some.inj ht
    exact .inr (.inr ⟨hstarted, _, h⟩)

/-- **The WPA_REAUTH event** does not end in PTKINITDONE either. -/
theorem reauth_notDone (h : wpaAuthSmEvent c e .reauth s = some s') : NotDone s' := by
  have hdrop : ∀ {t : Sm}, Leaves t → Leaves (wpaRemovePtk e t.ptkDropped) :=
    fun h => h.imp id (.imp id (.imp id fun h => ⟨h.state, h.late⟩))
  rcases reauth_cases h with ⟨-, t, ht, h⟩ | ⟨-, -, -, h⟩ | ⟨-, k, h⟩
  · have hn : NotDone t := wpaSmStep_notDone (.inl rfl) ht
    have hn' : NotDone { t with init := false, authenticationRequest := true } := ⟨hn.state, hn.late⟩
    exact wpaSmStep_notDone (hdrop (.inr (.inr (.inr hn')))) h
  · exact wpaSmStep_notDone (hdrop (.inr (.inl rfl))) h
  · exact wpaSmStep_notDone (hdrop (.inr (.inr (.inl rfl)))) h

/-! ## Message 1/4 -/

/-- A new handshake with a PSK can begin: nothing else is asked of the machine, no frame waits, and
the group key handshake is idle. -/
structure CanBegin (c : Conf) (e : Env) (s : Sm) : Prop where
  init : s.init = false
  disconnect : s.disconnect = false
  deauth : s.deauthenticationRequest = false
  ptk : s.ptkRequest = false
  psk : s.neg.keyMgmt.wpaPsk = true
  psks : s.psks ≠ []
  random : e.random.isSome = true
  tries : 0 < c.pairwiseUpdateCount
  frame : s.pairwiseReceived = false
  group : s.groupState = .idle
  unmarked : s.gUpdateStationKeys = false
  keys : s.neg.wpa2 = true ∨ s.pInitAKeys = false

/-- Message 1/4 with this ANonce. -/
structure IsMsg1 (n : Bytes) (f : EapolKey) : Prop where
  pairwise : f.pairwise = true
  ack : f.ack = true
  install : f.install = false
  hasMic : f.hasMic = false
  request : f.request = false
  nonce : f.nonce = n

/-- The machine has drawn an ANonce, sent message 1/4, and waits in PTKSTART. -/
structure Begun (e : Env) (s s' : Sm) : Prop where
  state : s'.state = .ptkstart
  nonce : e.random = some s'.aNonce
  sent : ∃ l f, s'.trace = l ++ s.trace ∧ .sent f ∈ l ∧ IsMsg1 s'.aNonce f

theorem Begun.behind {t : Sm} (h : Begun e t s') (ht : ∃ l, t.trace = l ++ s.trace) : Begun e s s' := by
  obtain ⟨l, hl⟩ := ht
  obtain ⟨l', f, hl', hf, hm⟩ := h.sent
  exact ⟨h.state, h.nonce, l' ++ l, f, by rw [hl', hl, List.append_assoc], List.mem_append_left _ hf, hm⟩

/-- On the way to PTKSTART, with nothing asked for any more. -/
structure Stage (c : Conf) (e : Env) (s : Sm) (st : PtkState) (t : Sm) : Prop extends CanBegin c e t where
  state : t.state = st
  auth : t.authenticationRequest = false
  reauth : t.reAuthenticationRequest = false
  nonce : e.random = some t.aNonce
  timeoutCtr : t.timeoutCtr = 0
  trace : ∃ l, t.trace = l ++ s.trace
  changed : t.changed = true

/-- What the group machine leaves when it has nothing to do but to go to IDLE. -/
theorem smStepPtkGroup_ready (hr : CanBegin c e s) : smStepPtkGroup c e s =
    if s.ptkGroupInit then
      { s.enterGroup .idle with changed := true, gTimeoutCtr := 0, ptkGroupInit := false }
    else s := by
  have hkeys : ¬ (s.gUpdateStationKeys = true ∨ (!s.neg.wpa2) = true ∧ s.pInitAKeys = true) := by
    rcases hr.keys with h | h
    · simp [hr.unmarked, h]
    · simp [hr.unmarked, h]
  unfold smStepPtkGroup
  by_cases hg : s.ptkGroupInit = true
  · rw [if_pos (.inr hg), if_pos hg, hr.init]
    rfl
  · rw [if_neg (by simp [hr.init, hg]), if_neg hg]
    simp only [hr.group]
    exact if_neg hkeys

theorem stage_group {st : PtkState} {t : Sm} (h : Stage c e s st t) :
    Stage c e s st (smStepPtkGroup c e t) := by
  rw [smStepPtkGroup_ready h.toCanBegin]
  split
  · exact { h with group := rfl, changed := rfl }
  · exact h

/-- AUTHENTICATION2 is entered, on request or from AUTHENTICATION. -/
theorem smRound_auth2 (hr : CanBegin c e s) (ha : s.authenticationRequest = false)
    (hs : s.reAuthenticationRequest = true ∨ s.state = .authentication) :
    Stage c e s .authentication2 (smRound c e s) := by
  obtain ⟨n, hn⟩ := Option.isSome_iff_exists.1 hr.random
  have hstep : smStepPtk c e s.unchanged = enterAuthentication2 e s.unchanged := by
    unfold smStepPtk smStepState
    simp only [Sm.unchanged, hr.init, hr.disconnect, hr.deauth, ha, hr.ptk, Bool.false_eq_true, if_false]
    rcases hs with hs | hs
    · rw [if_pos hs]
    · simp only [hs]
      split <;> rfl
  have henter : enterAuthentication2 e s.unchanged = { s.unchanged.enter .authentication2 with
      reAuthenticationRequest := false, aNonce := n, timeoutCtr := 0 } := by
    unfold enterAuthentication2
    rw [hn]
  unfold smRound
  rw [hstep, henter]
  exact stage_group { hr with
    state := rfl, auth := ha, reauth := rfl, nonce := hn, timeoutCtr := rfl
    trace := ⟨[], rfl⟩, changed := rfl }

/-- The transition of a stage is that of its state. -/
theorem Stage.step {st : PtkState} {t : Sm} (h : Stage c e s st t) :
    smStepPtk c e t.unchanged = smStepState c e t.unchanged := by
  unfold smStepPtk
  simp only [Sm.unchanged, h.init, h.disconnect, h.deauth, h.auth, h.reauth, h.ptk, Bool.false_eq_true,
    if_false]

/-- INITPSK is entered, -/
theorem smRound_initpsk {t : Sm} (h : Stage c e s .authentication2 t) :
    Stage c e s .initpsk (smRound c e t) := by
  have h8021x : t.neg.keyMgmt.wpaIeee8021x = false := by
    have hp := h.psk
    revert hp
    cases t.neg.keyMgmt <;> decide
  have hstate : smStepState c e t.unchanged = enterInitpsk t.unchanged := by
    have hpsk := h.psk
    unfold smStepState
    simp only [Sm.unchanged, h.state]
    rw [if_neg (by simp [h8021x]), if_pos (.inl hpsk)]
  unfold smRound
  rw [h.step, hstate]
  exact stage_group { h with state := rfl, changed := rfl }

/-- Message 1/4 has been sent, and no frame has come yet. -/
structure Waiting (c : Conf) (e : Env) (s t : Sm) : Prop extends CanBegin c e t, Begun e s t where
  auth : t.authenticationRequest = false
  reauth : t.reAuthenticationRequest = false
  timeoutCtr : t.timeoutCtr ≤ c.pairwiseUpdateCount
  timeoutEvt : t.timeoutEvt = false

theorem waiting_group {t : Sm} (h : Waiting c e s t) : Waiting c e s (smStepPtkGroup c e t) := by
  rw [smStepPtkGroup_ready h.toCanBegin]
  split
  · exact { h with group := rfl }
  · exact h

/-- PTKSTART sends message 1/4 while the tries last. -/
theorem enterPtkstart_sends (h : s.timeoutCtr < c.pairwiseUpdateCount) :
    ∃ f, (enterPtkstart c e s).trace = .sent f :: s.trace ∧ IsMsg1 s.aNonce f := by
  unfold enterPtkstart
  simp only
  split
  · rename_i hlate
    omega
  · exact ⟨_, rfl, rfl, rfl, rfl, rfl, rfl, rfl⟩

theorem enterPtkstart_ready (h : CanBegin c e s) : CanBegin c e (enterPtkstart c e s) ∧
    (enterPtkstart c e s).aNonce = s.aNonce ∧ (enterPtkstart c e s).state = .ptkstart ∧
    (enterPtkstart c e s).authenticationRequest = s.authenticationRequest ∧
    (enterPtkstart c e s).reAuthenticationRequest = s.reAuthenticationRequest ∧
    (enterPtkstart c e s).timeoutCtr = s.timeoutCtr + 1 ∧ (enterPtkstart c e s).timeoutEvt = false := by
  unfold enterPtkstart
  simp only
  split
  · exact ⟨{ h with ptk := rfl }, rfl, rfl, rfl, rfl, rfl, rfl⟩
  · exact ⟨{ h with ptk := rfl }, rfl, rfl, rfl, rfl, rfl, rfl⟩

/-- then PTKSTART, with message 1/4. -/
theorem smRound_ptkstart {t : Sm} (h : Stage c e s .initpsk t) : Waiting c e s (smRound c e t) := by
  have hstate : smStepState c e t.unchanged = enterPtkstart c e t.unchanged := by
    have hpsks := h.psks
    unfold smStepState
    simp only [Sm.unchanged, h.state]
    rw [if_pos hpsks]
  have htries := h.tries
  have hctr := h.timeoutCtr
  obtain ⟨l, hl⟩ := h.trace
  have hready : CanBegin c e t.unchanged := { h with }
  obtain ⟨f, htr, hm⟩ := enterPtkstart_sends (c := c) (e := e) (s := t.unchanged) (hctr ▸ htries)
  obtain ⟨h1, h2, h3, h4, h5, h6, h7⟩ := enterPtkstart_ready hready
  unfold smRound
  rw [h.step, hstate]
  exact waiting_group { h1 with
    state := h3, nonce := h.nonce.trans (congrArg some h2.symm), auth := h4.trans h.auth
    reauth := h5.trans h.reauth, timeoutEvt := h7
    timeoutCtr := by rw [h6]; simp only [Sm.unchanged]; omega
    sent := ⟨.sent f :: l, f, by rw [htr]; exact congrArg (Out.sent f :: ·) hl, List.mem_cons_self,
      by rw [h2]; exact hm⟩ }

/-- There the machine stays. -/
theorem smRound_waiting {t : Sm} (h : Waiting c e s t) : Waiting c e s (smRound c e t) := by
  have hctr := h.timeoutCtr
  have hframe := h.frame
  have hrest : smStepPtk c e t.unchanged = t.unchanged := by
    unfold smStepPtk smStepState
    simp only [Sm.unchanged, h.init, h.disconnect, h.deauth, h.auth, h.reauth, h.ptk, h.state,
      h.timeoutEvt, Bool.false_eq_true, if_false]
    rw [if_neg (by simpa [Sm.pairwiseReceived] using hframe), if_neg (by omega)]
  unfold smRound
  rw [hrest]
  exact waiting_group { h with }

/-- A round that changes something is followed by another one. -/
theorem smLoop_changed {n : ℕ} (h : smLoop c e n s = some s') (hc : (smRound c e s).changed = true) :
    ∃ m, smLoop c e m (smRound c e s) = some s' := by
  rcases smLoop_first h with ⟨rfl, h1⟩ | h1
  · rw [hc] at h1
    cases h1
  · exact h1

/-- A round that changes nothing is the last. -/
theorem smLoop_rest {n : ℕ} (h : smLoop c e n s = some s') (hc : (smRound c e s).changed = false) :
    smRound c e s = s' := by
  cases n with
  | zero => cases h
  | succ n =>
    rw [smLoop, if_neg (by simp [hc])] at h
    exact Option.some.inj h

/-- **From AUTHENTICATION2 to message 1/4.** -/
theorem smLoop_begun {n : ℕ} (hr : CanBegin c e s) (ha : s.authenticationRequest = false)
    (hs : s.reAuthenticationRequest = true ∨ s.state = .authentication)
    (h : smLoop c e n s = some s') : Begun e s s' := by
  have h1 := smRound_auth2 hr ha hs
  obtain ⟨n1, h⟩ := smLoop_changed h h1.changed
  have h2 := smRound_initpsk h1
  obtain ⟨n2, h⟩ := smLoop_changed h h2.changed
  have h3 := smRound_ptkstart h2
  rcases smLoop_first h with ⟨rfl, -⟩ | ⟨n3, h⟩
  · exact h3.toBegun
  · exact (smLoop_inv (I := Waiting c e s) (fun t => smRound_waiting) h3 h).toBegun

/-- The same from a machine that enters AUTHENTICATION first. -/
theorem wpaSmStep_begun (hr : CanBegin c e s)
    (hs : s.authenticationRequest = true ∨ s.reAuthenticationRequest = true)
    (h : wpaSmStep c e s = some s') : Begun e s s' := by
  by_cases ha : s.authenticationRequest = true
  · have hstep : smStepPtk c e s.unchanged = enterAuthentication s.unchanged := by
      unfold smStepPtk
      simp only [Sm.unchanged, hr.init, hr.disconnect, hr.deauth, ha, Bool.false_eq_true, if_false,
        if_true]
    have hready : CanBegin c e (enterAuthentication s.unchanged) := { hr with }
    have hround : CanBegin c e (smRound c e s) ∧ (smRound c e s).changed = true ∧
        (smRound c e s).authenticationRequest = false ∧ (smRound c e s).state = .authentication ∧
        (smRound c e s).trace = .ptkCleared :: s.trace := by
      unfold smRound
      rw [hstep, smStepPtkGroup_ready hready]
      split
      · exact ⟨{ hready with group := rfl }, rfl, rfl, rfl, rfl⟩
      · exact ⟨hready, rfl, rfl, rfl, rfl⟩
    obtain ⟨h1, hch, h2, h3, htr⟩ := hround
    obtain ⟨n, h⟩ := smLoop_changed h hch
    exact (smLoop_begun h1 h2 (.inr h3) h).behind ⟨[_], htr⟩
  · exact smLoop_begun hr (by simpa using ha) (.inl (hs.resolve_left ha)) h

/-- A machine that is started comes back from INITIALIZE ready. -/
theorem initialize_ready (hr : CanBegin c e s)
    (h : wpaSmStep c e { s with started := true, init := true } = some s') :
    CanBegin c e { s' with init := false } ∧ ∃ l, s'.trace = l ++ s.trace := by
  have hround : smRound c e { s with started := true, init := true } = { enterInitialize e
      { s.unchanged with started := true, init := true } with
        groupState := .idle, changed := false, gTimeoutCtr := 0, ptkGroupInit := false } := rfl
  -- INITIALIZE leaves `changed` alone while `init` is set, so there is one round
  have hs' : smRound c e { s with started := true, init := true } = s' := smLoop_rest h rfl
  rw [← hs', hround]
  refine ⟨{ hr with init := rfl, group := rfl, unmarked := rfl, keys := ?_ },
    .portClosed :: delKeys e s.neg, rfl⟩
  show s.neg.wpa2 = true ∨ (if s.neg.wpa2 = true then s.pInitAKeys else false) = false
  by_cases hw : s.neg.wpa2 = true
  · exact .inl hw
  · exact .inr (if_neg hw)

/-- **The common part** of `wpa_auth_sta_associated` begins the handshake. -/
theorem startAuthentication_msg1 (hr : CanBegin c e s) (h : startAuthentication c e s = some s') :
    Begun e s s' := by
  unfold startAuthentication at h
  split at h
  · have hready : CanBegin c e { s with keyReplay := noCounters, reAuthenticationRequest := true } :=
      { hr with }
    exact (wpaSmStep_begun hready (.inr rfl) h).behind ⟨[], rfl⟩
  · obtain ⟨t, ht, h⟩ := Option.bind_eq_some_iff.1 h
    obtain ⟨h1, htr⟩ := initialize_ready hr ht
    have hready : CanBegin c e { t with init := false, authenticationRequest := true } := { h1 with }
    exact (wpaSmStep_begun hready (.inl rfl) h).behind htr

/-- **The WPA_REAUTH event** does so too, unless PTK0 must not be replaced. -/
theorem reauth_msg1 (hr : CanBegin c e s)
    (hd : ¬ (s.started = true ∧ s.neg.useExtKeyId = false ∧ c.denyPtk0Rekey = true))
    (h : wpaAuthSmEvent c e .reauth s = some s') : Begun e s s' := by
  have hdrop : ∀ {t : Sm}, CanBegin c e t → CanBegin c e (wpaRemovePtk e t.ptkDropped) ∧
      ∃ l, (wpaRemovePtk e t.ptkDropped).trace = l ++ t.trace :=
    fun {t} h => ⟨{ h with }, delKeys e t.neg ++ [.ptkCleared], by simp [wpaRemovePtk, Sm.ptkDropped, Sm.out]⟩
  rcases reauth_cases h with ⟨-, t, ht, h⟩ | ⟨h1, h2, h3, -⟩ | ⟨-, k, h⟩
  · obtain ⟨h1, l, hl⟩ := initialize_ready hr ht
    have hready : CanBegin c e { t with init := false, authenticationRequest := true } := { h1 with }
    obtain ⟨h2, l', hl'⟩ := hdrop hready
    exact (wpaSmStep_begun h2 (.inl rfl) h).behind ⟨l' ++ l, by rw [hl', List.append_assoc, ← hl]⟩
  · exact absurd ⟨h1, h2, h3⟩ hd
  · have hready : CanBegin c e { s with
        keyidxActive := k
        ptkGroupInit := s.ptkGroupInit || s.gUpdateStationKeys
        gUpdateStationKeys := false
        reAuthenticationRequest := true } := { hr with unmarked := rfl }
    obtain ⟨h2, htr⟩ := hdrop hready
    exact (wpaSmStep_begun h2 (.inr rfl) h).behind htr

end Lightguard.Auth
