import Lightguard.Auth.Rest

/-!
# The GTK as hostapd sees it

For hostapd a station has the GTK when its machine is in PTKINITDONE and no update is marked.
Message 4/4, message 2/2 and the fork's own installs bring it there, and nothing else.

* `wpaSmStep_unkeyed`: `wpa_sm_step` keys no machine by itself.
* `step_calm`: between two events no message 2/2 waits for the group machine.
* `step_keyed`: what keys a machine.
-/

namespace Lightguard.Auth

open Wpa

variable {c : Conf} {ev : Event} {e : Env} {f : EapolKey} {s t u : Sm}

/-- For hostapd the station has the GTK. -/
structure Keyed (s : Sm) : Prop where
  state : s.state = .ptkinitdone
  mark : s.gUpdateStationKeys = false

instance : Decidable (Keyed s) :=
  decidable_of_iff (s.state = .ptkinitdone ∧ s.gUpdateStationKeys = false)
    ⟨fun h => ⟨h.1, h.2⟩, fun h => ⟨h.1, h.2⟩⟩

/-- A verified message 2/2 waits for the group machine. -/
structure GroupAwaits (s : Sm) : Prop where
  received : s.eapolKeyReceived = true
  request : s.eapolKeyRequest = false
  pairwise : s.eapolKeyPairwise = false
  mic : s.micVerified = true

/-! ## A round of the loop -/

theorem Plain.groupAwaits (h : Plain e s t) (ht : GroupAwaits t) : GroupAwaits s :=
  ⟨h.received ht.received, h.request ▸ ht.request, h.pairwise ▸ ht.pairwise, h.mic ▸ ht.mic⟩

theorem enterPtkinitdone_received (s : Sm) : (enterPtkinitdone c e s).eapolKeyReceived = false := by
  unfold enterPtkinitdone
  split
  · split <;> rfl
  · rfl

/-- The PTK machine makes no message 2/2. -/
theorem smStepPtk_groupAwaits (h : GroupAwaits (smStepPtk c e s)) : GroupAwaits s := by
  have hstep := smStepPtk_step (c := c) (e := e) s
  generalize smStepPtk c e s = t at hstep h
  cases hstep with
  | rest => exact h
  | plain hp => exact hp.groupAwaits h
  | search => exact nomatch (enterPtkcalcnegotiating_state s).2.1.symm.trans h.received
  | done => exact nomatch (enterPtkinitdone_received s).symm.trans h.received

/-- The fields of the group handshake that the PTK machine does not touch. -/
def Sm.groupFields (s : Sm) : GroupState × Bool := (s.groupState, s.ptkGroupInit)

theorem enterPtkstart_group (s : Sm) : (enterPtkstart c e s).groupFields = s.groupFields := by
  unfold enterPtkstart
  simp only
  split <;> rfl

theorem enterPtkcalcnegotiating_group (s : Sm) :
    (enterPtkcalcnegotiating c e s).groupFields = s.groupFields := by
  unfold enterPtkcalcnegotiating
  split
  · rfl
  split <;> rfl

theorem enterPtkinitnegotiating_group (s : Sm) :
    (enterPtkinitnegotiating c e s).groupFields = s.groupFields := by
  unfold enterPtkinitnegotiating
  simp only
  split
  · rfl
  split
  · rfl
  split
  · split <;> rfl
  · rfl

theorem enterPtkinitdone_group (s : Sm) : (enterPtkinitdone c e s).groupFields = s.groupFields := by
  unfold enterPtkinitdone
  split
  · split <;> rfl
  · rfl

theorem enterAuthentication2_group (s : Sm) :
    (enterAuthentication2 e s).groupFields = s.groupFields := by
  unfold enterAuthentication2
  cases e.random <;> rfl

theorem enterInitpmk_group (s : Sm) : (enterInitpmk e s).groupFields = s.groupFields := by
  unfold enterInitpmk
  simp only
  split
  · rfl
  split
  · rfl
  split
  · rfl
  split <;> rfl

theorem smStepState_group (s : Sm) : (smStepState c e s).groupFields = s.groupFields := by
  have hstart := enterPtkstart_group (c := c) (e := e) s
  have hcalc := enterPtkcalcnegotiating_group (c := c) (e := e) s
  have hneg := enterPtkinitnegotiating_group (c := c) (e := e) s
  have hpmk := enterInitpmk_group (e := e) s
  have hdisc : (enterDisconnect e s).groupFields = s.groupFields := rfl
  unfold smStepState
  cases s.state with
  | initState | disconnect | disconnected | ptkinitdone => rfl
  | authentication => exact enterAuthentication2_group s
  | authentication2 =>
    simp only
    split
    · exact hpmk
    split
    · rfl
    split
    · exact hpmk
    · rfl
  | initpmk | initpsk =>
    simp only
    split
    · exact hstart
    split
    · exact hstart
    · exact hdisc
  | ptkstart =>
    simp only
    split
    · exact hcalc
    split
    · exact hdisc
    split
    · exact hstart
    · rfl
  | ptkcalcnegotiating =>
    simp only
    split
    · rfl
    split
    · exact hcalc
    split
    · exact hstart
    · rfl
  | ptkcalcnegotiating2 => exact hneg
  | ptkinitnegotiating =>
    simp only
    split
    · exact hcalc
    split
    · exact enterPtkinitdone_group s
    split
    · exact hdisc
    split
    · exact hneg
    · rfl

theorem smStepPtk_groupFields (s : Sm) : (smStepPtk c e s).groupFields = s.groupFields := by
  unfold smStepPtk
  split
  · rfl
  split
  · rfl
  split
  · rfl
  split
  · rfl
  split
  · exact enterAuthentication2_group s
  split
  · cases e.random with
    | none => rfl
    | some n => exact enterPtkstart_group _
  · exact smStepState_group s

/-- Nothing keys this machine: it is not keyed, or a request takes it out of PTKINITDONE,
and no frame waits that would bring it there. -/
structure Unkeyed (s : Sm) : Prop where
  keyed : Keyed s → ¬ NoRequest s
  awaits : ¬ Awaits s
  group : ¬ GroupAwaits s

/-- Into PTKINITDONE leads message 4/4 only. -/
theorem smStepPtk_keyed (h : Unkeyed s) : ¬ Keyed (smStepPtk c e s) := by
  intro ht
  have hmove := smStepPtk_move (c := c) (e := e) s
  generalize smStepPtk c e s = t at hmove ht
  cases hmove with
  | rest hn => exact h.keyed ht hn
  | early h => exact h.notDone ht.state
  | search => exact nomatch (enterPtkcalcnegotiating_state s).1.symm.trans ht.state
  | calc2 => exact nomatch ht.state
  | negotiate => exact nomatch (enterPtkinitnegotiating_state s).1.symm.trans ht.state
  | done hd => exact h.awaits hd.toAwaits

theorem enterRekeynegotiating_group (s : Sm) :
    (enterRekeynegotiating c e s).gUpdateStationKeys = s.gUpdateStationKeys ∧
      (enterRekeynegotiating c e s).ptkGroupInit = s.ptkGroupInit := by
  unfold enterRekeynegotiating
  simp only
  split
  · exact ⟨rfl, rfl⟩
  split <;> exact ⟨rfl, rfl⟩

/-- Only message 2/2 takes the mark away and keeps the station. -/
theorem smStepPtkGroup_keyed (hs : ¬ Keyed s) (hg : ¬ GroupAwaits s)
    (ht : Keyed (smStepPtkGroup c e s)) : ¬ NoRequest (smStepPtkGroup c e s) := by
  have hstate : s.state = .ptkinitdone := (smStepPtkGroup_same s).state.symm.trans ht.state
  have hkeep : (smStepPtkGroup c e s).gUpdateStationKeys = s.gUpdateStationKeys → False := by
    intro hm
    exact hs ⟨hstate, hm.symm.trans ht.mark⟩
  clear ht
  unfold smStepPtkGroup at hkeep ⊢
  split
  · rename_i hi
    rw [if_pos hi] at hkeep
    exact absurd rfl hkeep
  rename_i hi
  rw [if_neg hi] at hkeep
  cases hgs : s.groupState with
  | idle =>
    rw [hgs] at hkeep
    simp only at hkeep
    split at hkeep
    · exact absurd (enterRekeynegotiating_group s).1 hkeep
    · exact absurd rfl hkeep
  | rekeynegotiating =>
    rw [hgs] at hkeep
    simp only at hkeep ⊢
    split
    · rename_i hr
      simp only [Bool.not_eq_true'] at hr
      exact absurd ⟨hr.1, hr.2.1, hr.2.2.1, hr.2.2.2⟩ hg
    rename_i hr
    rw [if_neg hr] at hkeep
    split
    · exact fun hn => nomatch hn.disconnect
    rename_i hx
    rw [if_neg hx] at hkeep
    split at hkeep
    · exact absurd (enterRekeynegotiating_group s).1 hkeep
    · exact absurd rfl hkeep
  | keyerror | rekeyestablished =>
    rw [hgs] at hkeep
    exact absurd rfl hkeep

theorem smRound_unkeyed (h : Unkeyed s) : Unkeyed (smRound c e s) := by
  have hu : Unkeyed s.unchanged :=
    ⟨fun hs hn => h.keyed ⟨hs.state, hs.mark⟩
        ⟨hn.init, hn.disconnect, hn.deauth, hn.auth, hn.reauth, hn.ptk⟩,
      fun ha => h.awaits ⟨ha.late, ha.received, ha.mic⟩,
      fun hg => h.group ⟨hg.received, hg.request, hg.pairwise, hg.mic⟩⟩
  have hstep := smStepPtk_keyed (c := c) (e := e) hu
  have hgroup : ¬ GroupAwaits (smStepPtk c e s.unchanged) := fun hg =>
    hu.group (smStepPtk_groupAwaits hg)
  have hp := smStepPtkGroup_plain (c := c) (e := e) (smStepPtk c e s.unchanged)
  refine ⟨smStepPtkGroup_keyed hstep hgroup, fun ha => ?_, fun hg => hgroup (hp.groupAwaits hg)⟩
  exact (smStepPtk_step (c := c) (e := e) s.unchanged).not_awaits hu.awaits (hp.awaits ha)

/-- **`wpa_sm_step`** keys no machine by itself. -/
theorem wpaSmStep_unkeyed (h : Unkeyed s) (hstep : wpaSmStep c e s = some t) : Unkeyed t :=
  smLoop_inv (fun _ => smRound_unkeyed) h hstep

/-! ## Between two events -/

/-- No message 2/2 waits for the group machine, and it has not been reset. -/
structure GroupCalm (s : Sm) : Prop where
  group : ¬ GroupAwaits s
  init : s.ptkGroupInit = false

/-- A message 2/2 waits only where the group machine takes it. -/
def GroupTaken (s : Sm) : Prop :=
  GroupAwaits s → s.groupState = .rekeynegotiating ∧ s.init = false ∧ s.ptkGroupInit = false

theorem GroupCalm.taken (h : GroupCalm s) : GroupTaken s := fun hg => absurd hg h.group

/-- A round takes the message 2/2 that waits. -/
theorem smRound_calm (h : GroupTaken s) : GroupCalm (smRound c e s) := by
  have hmid : GroupTaken (smStepPtk c e s.unchanged) := by
    intro hg
    have hs : GroupAwaits s.unchanged := smStepPtk_groupAwaits hg
    obtain ⟨h1, h2, h3⟩ := h ⟨hs.received, hs.request, hs.pairwise, hs.mic⟩
    have hf := smStepPtk_groupFields (c := c) (e := e) s.unchanged
    simp only [Sm.groupFields, Prod.mk.injEq] at hf
    exact ⟨hf.1.trans h1, (smStepPtk_step (c := c) (e := e) s.unchanged).init.trans h2, hf.2.trans h3⟩
  have hp := smStepPtkGroup_plain (c := c) (e := e) (smStepPtk c e s.unchanged)
  show GroupCalm (smStepPtkGroup c e (smStepPtk c e s.unchanged))
  generalize smStepPtk c e s.unchanged = t at hmid hp
  refine ⟨fun hg => ?_, ?_⟩
  -- a frame that is still awaited behind both machines has been taken by the second one
  · have ht : GroupAwaits t := hp.groupAwaits hg
    obtain ⟨h1, h2, h3⟩ := hmid ht
    have hr := hg.received
    rw [smStepPtkGroup, if_neg (by simp [h2, h3]), h1] at hr
    simp only [ht.received, ht.request, ht.pairwise, ht.mic] at hr
    cases hr
  -- every branch clears the flag that asks for a restart, or finds it clear
  · unfold smStepPtkGroup
    split
    · rfl
    rename_i hi
    have hi' : t.ptkGroupInit = false := by
      simp only [not_or, Bool.not_eq_true] at hi
      exact hi.2
    cases t.groupState with
    | idle =>
      simp only
      split
      · exact (enterRekeynegotiating_group t).2.trans hi'
      · exact hi'
    | rekeynegotiating =>
      simp only
      split
      · exact hi'
      split
      · exact hi'
      split
      · exact (enterRekeynegotiating_group t).2.trans hi'
      · exact hi'
    | keyerror | rekeyestablished => exact hi'

theorem wpaSmStep_calm (h : GroupTaken s) (hstep : wpaSmStep c e s = some t) : GroupCalm t := by
  obtain ⟨u, hu, rfl, -⟩ := smLoop_last (I := GroupTaken) (fun _ hs => (smRound_calm hs).taken) h hstep
  exact smRound_calm hu

/-- A machine that goes into `wpa_sm_step`; `P` says that nothing keys it. -/
structure Going (P : Prop) (s : Sm) : Prop where
  taken : GroupTaken s
  quiet : P → Unkeyed s

/-- A machine between two events. -/
structure Halted (P : Prop) (s : Sm) : Prop where
  calm : GroupCalm s
  quiet : P → Unkeyed s

variable {P : Prop}

theorem Halted.going (h : Halted P s) : Going P s := ⟨h.calm.taken, h.quiet⟩

theorem Going.step (h : Going P s) (hstep : wpaSmStep c e s = some t) : Halted P t :=
  ⟨wpaSmStep_calm h.taken hstep, fun hp => wpaSmStep_unkeyed (h.quiet hp) hstep⟩

/-- The frame that has been received, and the state. -/
def Sm.frameFields (s : Sm) : PtkState × Bool × Bool × Bool × Bool :=
  (s.state, s.eapolKeyReceived, s.eapolKeyRequest, s.eapolKeyPairwise, s.micVerified)

theorem GroupAwaits.of (h : GroupAwaits t) (hf : t.frameFields = s.frameFields) : GroupAwaits s := by
  simp only [Sm.frameFields, Prod.mk.injEq] at hf
  obtain ⟨-, h1, h2, h3, h4⟩ := hf
  exact ⟨h1 ▸ h.received, h2 ▸ h.request, h3 ▸ h.pairwise, h4 ▸ h.mic⟩

theorem awaits_of (h : Awaits t) (hf : t.frameFields = s.frameFields) : Awaits s := by
  simp only [Sm.frameFields, Prod.mk.injEq] at hf
  obtain ⟨h0, h1, h2, h3, h4⟩ := hf
  refine ⟨h0 ▸ h.late, ?_, h4 ▸ h.mic⟩
  have := h.received
  rwa [Sm.pairwiseReceived, h1, h2, h3] at this

/-- The frame stays as it is, and what keys the machine is taken back by a request. -/
theorem Halted.move (h : Halted P s) (hf : t.frameFields = s.frameFields)
    (hset : Keyed t → ¬ NoRequest t ∨ Keyed s ∧ NoRequest s) : Going P t := by
  refine ⟨fun hg => absurd (hg.of hf) h.calm.group, fun hp => ?_⟩
  have hq := h.quiet hp
  refine ⟨fun hs => ?_, fun ha => hq.awaits (awaits_of ha hf), fun hg => hq.group (hg.of hf)⟩
  rcases hset hs with h1 | ⟨h1, h2⟩
  · exact h1
  · exact absurd h2 (hq.keyed h1)

/-- The same without `wpa_sm_step`. -/
theorem Halted.still (h : Halted P s) (hf : t.frameFields = s.frameFields)
    (hi : t.ptkGroupInit = s.ptkGroupInit)
    (hset : Keyed t → ¬ NoRequest t ∨ Keyed s ∧ NoRequest s) : Halted P t :=
  ⟨⟨fun hg => h.calm.group (hg.of hf), hi.trans h.calm.init⟩, (h.move hf hset).quiet⟩

/-! ## The events -/

/-- The MIC check looks at the frame only. -/
theorem MicCheck.group {b : Bool} (h : MicCheck c e f s (b, t)) :
    (t.state, t.gUpdateStationKeys, t.groupFields) =
      (s.state, s.gUpdateStationKeys, s.groupFields) := by
  cases h <;> rfl

/-- What `wpa_receive` hands on. -/
def Next.Group (P : Prop) : Next → Prop
  | .ret t => Halted P t
  | .step t => Going P t
  | .gone => True

/-- A frame without a valid MIC is waited for by neither machine. -/
theorem Halted.lost (hmic : t.micVerified = false) (hi : t.ptkGroupInit = false)
    (hs : P → ¬ Keyed t) : Halted P t := by
  have hgroup : ¬ GroupAwaits t := fun hg => nomatch hmic.symm.trans hg.mic
  refine ⟨⟨hgroup, hi⟩, fun hp => ⟨fun h => absurd h (hs hp), fun ha => ?_, hgroup⟩⟩
  exact nomatch hmic.symm.trans ha.mic

/-- A request is no message of a handshake. -/
theorem handleRequest_group (hf : f.request = true) (hi : s.ptkGroupInit = false)
    (hs : P → ¬ Keyed s) : (handleRequest c e f s).Group P := by
  have hsame : ∀ x : Sm, x.state = s.state → x.gUpdateStationKeys = s.gUpdateStationKeys →
      Going P (storeFrame f x) := by
    intro x h1 h2
    have hreq : (storeFrame f x).eapolKeyRequest = true := hf
    have hgroup : ¬ GroupAwaits (storeFrame f x) := fun hg => nomatch hreq.symm.trans hg.request
    refine ⟨fun hg => absurd hg hgroup, fun hp => ⟨fun hx => ?_, fun ha => ?_, hgroup⟩⟩
    · exact absurd ⟨h1 ▸ hx.state, h2 ▸ hx.mark⟩ (hs hp)
    · have := ha.received
      simp [Sm.pairwiseReceived, hreq] at this
  have hnew : Going P (storeFrame f (wpaRequestNewPtk c (useRequestCounter f s))) := by
    unfold wpaRequestNewPtk
    split <;> exact hsame _ rfl rfl
  unfold handleRequest
  split
  · rename_i hmic
    exact .lost (by simpa using hmic) hi hs
  simp only
  split
  · split
    · trivial
    · exact hnew
  split
  · exact hnew
  · exact hsame _ rfl rfl

/-- **A received frame.** A message 2/2 gets through only while the group machine waits for it. -/
theorem wpaReceive_group (hr : Rest s) (h : Halted P s)
    (hP : P → ∀ t, wpaReceive c e f s = .step t → ¬ Awaits t ∧ ¬ GroupAwaits t) :
    (wpaReceive c e f s).Group P := by
  have hnote : ∀ r, checkReplay s f = some r → r.frameFields = s.frameFields ∧
      r.gUpdateStationKeys = s.gUpdateStationKeys ∧ r.groupFields = s.groupFields ∧
      r.init = s.init := by
    intro r hrep
    obtain ⟨u, a, v, k, rfl, -⟩ := checkReplay_eq hrep
    exact ⟨rfl, rfl, rfl, rfl⟩
  -- the state and the mark stay as they are in all the checks
  have hkeyed : ∀ r t b, checkReplay s f = some r →
      MicCheck c e f { r with micVerified := false } (b, t) → Keyed t → Keyed s := by
    intro r t b hrep hq ht
    obtain ⟨h1, h2, -⟩ := hnote r hrep
    have h3 := hq.group
    simp only [Sm.frameFields, Prod.mk.injEq] at h1 h3
    exact ⟨h1.1 ▸ h3.1 ▸ ht.state, h2 ▸ h3.2.1 ▸ ht.mark⟩
  have hinit : ∀ r t b, checkReplay s f = some r →
      MicCheck c e f { r with micVerified := false } (b, t) → t.ptkGroupInit = false := by
    intro r t b hrep hq
    obtain ⟨-, -, h3, -⟩ := hnote r hrep
    have h4 := hq.group
    simp only [Sm.groupFields, Prod.mk.injEq] at h3 h4
    exact (h4.2.2.2.trans h3.2).trans h.calm.init
  have hun : P → ¬ Keyed s := fun hp hs => (h.quiet hp).keyed hs hr.toNoRequest
  have hcases := wpaReceive_cases c e f s
  generalize wpaReceive c e f s = q at hcases hP ⊢
  cases hcases with
  | dropped => exact h
  | noted hrep =>
    obtain ⟨h1, h2, h3, -⟩ := hnote _ hrep
    simp only [Sm.groupFields, Prod.mk.injEq] at h3
    refine h.still h1 h3.2 fun hs => .inr ⟨⟨?_, h2 ▸ hs.mark⟩, hr.toNoRequest⟩
    simp only [Sm.frameFields, Prod.mk.injEq] at h1
    exact h1.1 ▸ hs.state
  | entropy hrep =>
    obtain ⟨h1, -⟩ := hnote _ hrep
    exact h.move h1 fun _ => .inl fun hn => nomatch hn.deauth
  | @refused r t hrep _ hq =>
    have hm := MicCheck.of_eq hq
    exact .lost hm.refused_mic (hinit _ _ _ hrep hm) fun hp hs => hun hp (hkeyed _ _ _ hrep hm hs)
  | @request r t hrep _ hf hq =>
    have hm := MicCheck.of_eq hq
    exact handleRequest_group hf (hinit _ _ _ hrep hm) fun hp hs => hun hp (hkeyed _ _ _ hrep hm hs)
  | @stored r t _ hrep hreach hf hq =>
    have hm := MicCheck.of_eq hq
    obtain ⟨-, -, h3, h4⟩ := hnote _ hrep
    have hgroup := hm.group
    simp only [Sm.groupFields, Prod.mk.injEq] at h3 hgroup
    have hi : t.ptkGroupInit = false := hinit _ _ _ hrep hm
    refine ⟨fun hg => ⟨?_, (hm.init.trans h4).trans hr.init, hi⟩,
      fun hp => ⟨fun hs => ?_, (hP hp _ rfl).1, (hP hp _ rfl).2⟩⟩
    · -- `wpa_receive` drops a message 2/2 in the other states of the group machine
      have hclass : classify f = .group2 := by
        have hpair : f.pairwise = false := hg.pairwise
        simp [classify, hf, hpair]
      have hstate : stateOk r (classify f) = true := by
        simp only [reachesMic, Bool.and_eq_true] at hreach
        exact hreach.1.1.2
      rw [hclass] at hstate
      simp only [stateOk, Bool.and_eq_true, decide_eq_true_eq] at hstate
      exact hgroup.2.2.1.trans hstate.1
    · exact absurd (hkeyed _ _ _ hrep hm ⟨hs.state, hs.mark⟩) (hun hp)

theorem Going.congr (h : Going P s) (hf : (t.frameFields, t.groupFields, t.requests,
    t.gUpdateStationKeys) = (s.frameFields, s.groupFields, s.requests, s.gUpdateStationKeys)) :
    Going P t := by
  simp only [Prod.mk.injEq] at hf
  obtain ⟨h1, h2, h3, h4⟩ := hf
  have hst : t.state = s.state := congrArg Prod.fst h1
  have hi : t.init = s.init := congrArg Prod.fst h3
  simp only [Sm.groupFields, Prod.mk.injEq] at h2
  refine ⟨fun hg => ?_, fun hp => ⟨fun hs hn => ?_, fun ha => ?_, fun hg => ?_⟩⟩
  · rw [h2.1, hi, h2.2]
    exact h.taken (hg.of h1)
  · exact (h.quiet hp).keyed ⟨hst ▸ hs.state, h4 ▸ hs.mark⟩ (hn.of h3)
  · exact (h.quiet hp).awaits (awaits_of ha h1)
  · exact (h.quiet hp).group (hg.of h1)

/-- The machine is initialized again, and asked to authenticate. -/
theorem restart_group (h : Halted P s)
    (hstep : wpaSmStep c e { s with started := true, init := true } = some t) :
    Going P { t with init := false, authenticationRequest := true } := by
  have hinit : Going P { s with started := true, init := true } :=
    h.move rfl fun _ => .inl fun hn => nomatch hn.init
  exact (hinit.step hstep).move rfl fun _ => .inl fun hn => nomatch hn.auth

theorem wpaAuthSmEvent_group {w : WpaEvent} (h : Halted P s)
    (hstep : wpaAuthSmEvent c e w s = some t) : Halted P t := by
  obtain ⟨u, hu, hstep⟩ := wpaAuthSmEvent_cases hstep
  have hfirst : Going P u := by
    cases hu with
    | nothing => exact h.going
    | deauth => exact h.move rfl fun _ => .inl fun hn => nomatch hn.deauth
    | restart hv => exact restart_group h hv
    | refuse => exact h.move rfl fun _ => .inl fun hn => nomatch hn.disconnect
    | reauth => exact h.move rfl fun _ => .inl fun hn => nomatch hn.reauth
  rcases hstep with hstep | hstep | hstep
  · exact hfirst.step hstep
  · exact (hfirst.congr (t := u.ptkDropped) rfl).step hstep
  · exact (hfirst.congr (t := wpaRemovePtk e u.ptkDropped) rfl).step hstep

theorem startAuthentication_group (h : Halted P s) (hstep : startAuthentication c e s = some t) :
    Halted P t := by
  unfold startAuthentication at hstep
  split at hstep
  · have hre : Going P { s with keyReplay := noCounters, reAuthenticationRequest := true } :=
      h.move rfl fun _ => .inl fun hn => nomatch hn.reauth
    exact hre.step hstep
  · obtain ⟨u, hu, hstep⟩ := Option.bind_eq_some_iff.1 hstep
    exact (restart_group h hu).step hstep

/-- The driver takes the TK of one of the fork's own installs. -/
def Installs (e : Env) (ptk : Ptk) (s : Sm) : Prop :=
  s.neg.pairwise.validPairwise = true ∧ 0 < s.neg.pairwise.keyLen ∧
    s.neg.pairwise.keyLen = ptk.tk.length ∧ e.setKey = true

instance (ptk : Ptk) : Decidable (Installs e ptk s) := by unfold Installs; infer_instance

/-- The fork's install puts the machine into PTKINITDONE, or leaves its state alone. -/
theorem tryInstall_group (site : Site) {ptk : Ptk} (hv : s.neg.pairwise.validPairwise = true)
    (hn : NoRequest s) (h : Halted P s) (hP : P → ¬ Installs e ptk s) :
    Halted P (tryInstall c e site ptk s).2 ∧
      ((tryInstall c e site ptk s).1 = true → Installs e ptk s) := by
  have hstay : ∀ o, Halted P ((s.wrote ptk).out o) := fun _ =>
    h.still rfl rfl fun hs => .inr ⟨⟨hs.state, hs.mark⟩, hn⟩
  rcases tryInstall_cases c e site ptk s with ⟨-, heq⟩ | ⟨hk, ⟨-, heq⟩ | ⟨he, heq⟩⟩ <;> rw [heq]
  · refine ⟨h.still rfl rfl fun hs => .inr ⟨⟨hs.state, hs.mark⟩, hn⟩, fun h => nomatch h⟩
  · exact ⟨hstay _, fun h => nomatch h⟩
  · have hin : Installs e ptk s := ⟨hv, hk.1, hk.2, he⟩
    refine ⟨⟨⟨fun hg => h.calm.group ⟨hg.received, hg.request, hg.pairwise, hg.mic⟩, h.calm.init⟩,
      fun hp => absurd hin (hP hp)⟩, fun _ => hin⟩

/-- What keys a machine that is not keyed: a verified message 4/4 or 2/2, and the installs
of the fork. -/
def Confirms (c : Conf) (e : Env) (s : Sm) : Event → Prop
  | .eapolKey f => ∃ t, wpaReceive c e f s = .step t ∧ (Awaits t ∨ GroupAwaits t)
  | .staAssociated | .rekeyPtk => c.link = .wifi ∧ Installs e customTestPtk s
  | .ptkTcp buf =>
    ∃ ptk, decodePtk s.neg.pairwise.keyLen (buf.take ptkTcpRecvMax) = some ptk ∧ Installs e ptk s
  | _ => False

/-- **One event**, when `P` rules out that it keys the machine. -/
theorem step_halted (hr : Rest s) (h : Halted P s) (hP : P → ¬ Confirms c e s ev)
    (hstep : step c s (ev, e) = some t) : Halted P t := by
  have hassoc : Halted P (s.out .associated) :=
    h.still rfl rfl fun hs => .inr ⟨⟨hs.state, hs.mark⟩, hr.toNoRequest⟩
  cases ev with
  | assocReq n =>
    obtain rfl := Option.some.inj hstep
    exact h.still rfl rfl fun hs => .inr ⟨⟨hs.state, hs.mark⟩, hr.toNoRequest⟩
  | sm w =>
    simp only [step] at hstep
    split at hstep
    · exact wpaAuthSmEvent_group hassoc hstep
    · exact wpaAuthSmEvent_group h hstep
  | staAssociated =>
    simp only [step, wpaAuthStaAssociated] at hstep
    split at hstep
    · rename_i hl
      obtain ⟨hd, hin⟩ := tryInstall_group (c := c) .fastPath hl.2
        (hr.toNoRequest.of rfl) hassoc fun hp hi => hP hp ⟨hl.1, hi⟩
      split at hstep
      · rename_i hok
        obtain rfl := Option.some.inj hstep
        -- the GTK and the port do not touch the group handshake
        have hcalm : ∀ u, GroupCalm u → GroupCalm (openPort .fastPath (installCustomGtk e u)) := by
          intro u hu
          unfold installCustomGtk
          split <;>
            exact ⟨fun hg => hu.group ⟨hg.received, hg.request, hg.pairwise, hg.mic⟩, hu.init⟩
        exact ⟨hcalm _ hd.calm, fun hp => absurd ⟨hl.1, hin hok⟩ (hP hp)⟩
      · exact startAuthentication_group hd hstep
    · exact startAuthentication_group hassoc hstep
  | eapolKey f =>
    have hrec : (wpaReceive c e f s).Group P := by
      refine wpaReceive_group hr h fun hp u hu => ⟨fun ha => ?_, fun hg => ?_⟩
      · exact hP hp ⟨u, hu, .inl ha⟩
      · exact hP hp ⟨u, hu, .inr hg⟩
    rcases Next.run_cases hstep with hq | ⟨u, hq, hstep⟩ <;> rw [hq] at hrec
    · exact hrec
    · exact hrec.step hstep
  | eapolTimeout =>
    simp only [step] at hstep
    split at hstep
    · cases hstep
    · exact (h.going.congr (t := { s with
        eapolTimeouts := s.eapolTimeouts - 1, timeoutEvt := true }) rfl).step hstep
  | rekeyPtk =>
    have hoff : Halted P { s with rekeyTimer := false } :=
      h.still rfl rfl fun hs => .inr ⟨⟨hs.state, hs.mark⟩, hr.toNoRequest⟩
    -- where the install fails, a new PTK is asked for
    have hnew : ∀ u, Halted P u → NoRequest u → Going P (wpaRequestNewPtk c u) := by
      intro u hu hn
      unfold wpaRequestNewPtk
      split
      · exact hu.move rfl fun _ => .inl fun hn => by cases hn.disconnect
      · exact hu.move rfl fun _ => .inl fun hn => by cases hn.ptk
    simp only [step] at hstep
    split at hstep
    · simp only [wpaRekeyPtk] at hstep
      split at hstep
      · rename_i hl
        have hn : NoRequest { s with rekeyTimer := false } := hr.toNoRequest.of rfl
        have hv : { s with rekeyTimer := false }.neg.pairwise.validPairwise = true := hl.2
        obtain ⟨hd, hin⟩ := tryInstall_group (c := c) .rekeyPtk hv hn hoff
          fun hp hi => hP hp ⟨hl.1, hi⟩
        split at hstep
        · rename_i hok
          obtain rfl := Option.some.inj hstep
          exact ⟨hd.calm, fun hp => absurd ⟨hl.1, hin hok⟩ (hP hp)⟩
        · exact (hnew _ hd hn.tryInstall).step hstep
      · exact (hnew _ hoff (hr.toNoRequest.of rfl)).step hstep
    · cases hstep
  | ptkTcp buf =>
    simp only [step] at hstep
    split at hstep
    · obtain rfl := Option.some.inj hstep
      unfold wpaAuthInstallCustomPtkCb
      split
      · exact h
      rename_i hv
      cases hd : decodePtk s.neg.pairwise.keyLen (buf.take ptkTcpRecvMax) with
      | none => exact h
      | some ptk =>
        exact (tryInstall_group .ptkTcp (by simpa using hv) hr.toNoRequest h fun hp hi =>
          hP hp ⟨ptk, hd, hi⟩).1
    · cases hstep
  | groupUpdate =>
    simp only [step] at hstep
    split at hstep
    -- the mark is what an unkeyed machine is allowed to have
    · have hmark : Going P { s with gUpdateStationKeys := true } :=
        h.move rfl fun hs => by cases hs.mark
      exact hmark.step hstep
    · rename_i hst
      obtain rfl := Option.some.inj hstep
      exact h.still rfl rfl fun hs => absurd hs.state hst
  | notify => exact h.going.step hstep
  | setPsks psks =>
    obtain rfl := Option.some.inj hstep
    exact h.still rfl rfl fun hs => .inr ⟨⟨hs.state, hs.mark⟩, hr.toNoRequest⟩

theorem step_calm (hr : Rest s) (h : GroupCalm s) (hstep : step c s (ev, e) = some t) :
    GroupCalm t :=
  (step_halted (P := False) hr ⟨h, nofun⟩ nofun hstep).calm

/-- **What keys a machine.** -/
theorem step_keyed (hr : Rest s) (h : GroupCalm s) (hstep : step c s (ev, e) = some t)
    (ht : Keyed t) : Keyed s ∨ Confirms c e s ev := by
  by_contra hno
  obtain ⟨hs, hc⟩ := not_or.1 hno
  have hd : Halted (¬ Keyed s) s := ⟨h, fun hs => ⟨fun h => absurd h hs, hr.awaits, h.group⟩⟩
  have hrest : Rest t := (step_acts hr hstep).2
  exact ((step_halted hr hd (fun _ => hc) hstep).quiet hs).keyed ht hrest.toNoRequest

theorem calm_new (n : Negotiated) (psks : List Pmk) : GroupCalm (Sm.new n psks) :=
  ⟨(fun h => nomatch h.received), rfl⟩

/-- A new GTK is due to the station, when it is in PTKINITDONE at all. -/
theorem groupUpdate_unkeyed (hr : Rest s) (h : GroupCalm s)
    (hstep : step c s (.groupUpdate, e) = some t) : ¬ Keyed t := by
  intro ht
  have hrest : Rest t := (step_acts hr hstep).2
  simp only [step] at hstep
  split at hstep
  · have hu : Unkeyed { s with gUpdateStationKeys := true } :=
      ⟨(fun hs => by cases hs.mark), fun ha => hr.awaits ⟨ha.late, ha.received, ha.mic⟩,
        fun hg => h.group ⟨hg.received, hg.request, hg.pairwise, hg.mic⟩⟩
    exact (wpaSmStep_unkeyed hu hstep).keyed ht hrest.toNoRequest
  · rename_i hst
    obtain rfl := Option.some.inj hstep
    exact hst ht.state

end Lightguard.Auth
