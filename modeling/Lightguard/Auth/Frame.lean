import Lightguard.Auth.Events

/-!
# What a transition of the authenticator can do

Most transitions only count, send and clean up. `Plain` says what they leave alone; the
three that matter for keys keep their own case.

* `smStepPtk_move`: where a step of the PTK machine goes, and under which guard.
* `smStepPtk_step`: it is plain, or it enters PTKCALCNEGOTIATING or PTKINITDONE.
* `smLoop_inv`: what every round keeps, `wpa_sm_step` keeps.
* `wpaSmStep_rest`: `wpa_sm_step` leaves no request pending.
-/

namespace Lightguard.Auth

open Wpa

variable {c : Conf} {e : Env} {s s' t : Sm}

/-- Entries of the trace that tell of no derivation, of no key that is used for sending and
of no port being opened. With Extended Key ID the new key is handed over early. -/
def Out.quiet (ext : Bool) : Out → Bool
  | .delKey _ _ | .ptkCleared | .portClosed | .disconnect | .sent _ => true
  | .setKey .ptkinitnegotiating _ _ _ => ext
  | _ => false

/-- The PMKs the machine may take over from outside in one event. -/
def Env.Pmk (e : Env) (s : Sm) (p : Pmk) : Prop :=
  p ∈ s.psks ∨ s.neg.pmksa = some p ∨ ∃ m ∈ e.msk, p.1 = m.take 32

/-- The states behind PTKSTART: a message 2/4 has been looked at. -/
def PtkState.late : PtkState → Bool
  | .ptkcalcnegotiating | .ptkcalcnegotiating2 | .ptkinitnegotiating => true
  | _ => false

/-- No request is pending. -/
structure NoRequest (s : Sm) : Prop where
  init : s.init = false
  disconnect : s.disconnect = false
  deauth : s.deauthenticationRequest = false
  auth : s.authenticationRequest = false
  reauth : s.reAuthenticationRequest = false
  ptk : s.ptkRequest = false

/-- A pairwise frame that has passed the MIC check is on its way to PTKINITDONE. -/
structure Awaits (s : Sm) : Prop where
  late : s.state.late = true
  received : s.pairwiseReceived = true
  mic : s.micVerified = true

/-- Every key the driver is given is the TK in `sm->PTK`, and PTKINITDONE is entered with it. -/
def KeyRule : Out → List Out → Prop
  | .setKey _ _ key _, l => ∃ k, key = (storedPtk l).tkBuf k
  | .ptkinitdone ptk, l => storedPtk l = ptk
  | _, _ => True

/-- The trace tells what is in `sm->PTK`, and what the driver was given. -/
structure StoredOK (s : Sm) : Prop where
  ptk : storedPtk s.trace = s.ptk
  always : Lib.Always KeyRule s.trace

/-- Entries that neither change `sm->PTK` nor the driver's keys. -/
def Out.inert : Out → Bool
  | .newPtk _ _ | .delKey _ _ | .ptkCleared | .setKey _ _ _ _ | .ptkinitdone _ => false
  | _ => true

theorem storedPtk_inert {l t : List Out} (hl : ∀ o ∈ l, o.inert = true) :
    storedPtk (l ++ t) = storedPtk t := by
  rw [storedPtk, Lib.latest_append, storedPtk]
  intro o ho
  have := hl o ho
  cases o <;> simp_all [Out.inert]

theorem keyRule_inert {o : Out} {l : List Out} (h : o.inert = true) : KeyRule o l := by
  cases o <;> trivial

namespace StoredOK

theorem extend (h : StoredOK s) {l : List Out} (hl : ∀ o ∈ l, o.inert = true)
    (htr : t.trace = l ++ s.trace) (hk : t.ptk = s.ptk) : StoredOK t where
  ptk := by rw [htr, storedPtk_inert hl, hk, h.ptk]
  always := htr ▸ Lib.always_append (fun o ho _ => keyRule_inert (hl o ho)) h.always

theorem congr (h : StoredOK s) (htr : t.trace = s.trace) (hk : t.ptk = s.ptk) : StoredOK t :=
  h.extend (l := []) (by simp) htr hk

/-- `sm->PTK` is overwritten with zeros. -/
theorem clear (h : StoredOK s) (htr : t.trace = .ptkCleared :: s.trace) (hk : t.ptk = .zero) :
    StoredOK t :=
  ⟨by rw [htr, hk]; rfl, htr ▸ ⟨trivial, h.always⟩⟩

theorem remove (h : StoredOK s) {l : List Out} (hl : ∀ o ∈ l, o.inert = true) {n : Negotiated}
    (htr : t.trace = delKeys e n ++ (l ++ s.trace)) (hk : t.ptk = .zero) : StoredOK t := by
  have hal := (h.extend (t := { s with trace := l ++ s.trace }) hl rfl rfl).always
  unfold delKeys at htr
  split at htr
  · exact ⟨by rw [htr, hk]; rfl, htr ▸ ⟨trivial, trivial, hal⟩⟩
  · exact ⟨by rw [htr, hk]; rfl, htr ▸ ⟨trivial, hal⟩⟩

/-- The driver is given the TK in `sm->PTK`. -/
theorem hand (h : StoredOK s) {site : Site} {i k : ℕ} {ok : Bool}
    (htr : t.trace = .setKey site i (s.ptk.tkBuf k) ok :: s.trace) (hk : t.ptk = s.ptk) :
    StoredOK t :=
  ⟨by rw [htr, hk, ← h.ptk]; rfl, htr ▸ ⟨⟨k, by rw [h.ptk]⟩, h.always⟩⟩

/-- `sm->PTK` is written. -/
theorem write (h : StoredOK s) {src : PtkSource} {k : Ptk}
    (htr : t.trace = .newPtk src k :: s.trace) (hk : t.ptk = k) : StoredOK t :=
  ⟨by rw [htr, hk]; rfl, htr ▸ ⟨trivial, h.always⟩⟩

end StoredOK

/-- A transition that derives no PTK, installs none and opens no port. -/
structure Plain (e : Env) (s s' : Sm) : Prop where
  neg : s'.neg = s.neg
  psks : s'.psks = s.psks
  init : s'.init = s.init
  lastRx : s'.lastRxEapolKey = s.lastRxEapolKey
  late : s'.state.late = true → s.state.late = true
  received : s'.eapolKeyReceived = true → s.eapolKeyReceived = true
  pairwise : s'.eapolKeyPairwise = s.eapolKeyPairwise
  request : s'.eapolKeyRequest = s.eapolKeyRequest
  mic : s'.micVerified = s.micVerified
  snonce : s'.updateSnonce = s.updateSnonce
  ptk : s'.ptkValid = true → s.ptkValid = true ∧ s'.ptk = s.ptk
  set : s'.pairwiseSet = true → s.pairwiseSet = true
  pmk : s'.pmk = s.pmk ∨ ∃ p, s'.pmk = some p ∧ e.Pmk s p
  /-- A frame stays on its way to PTKINITDONE only while the PTK is valid. -/
  hand : Awaits s' → NoRequest s' → NoRequest s ∧ (s.ptkValid = true → s'.ptkValid = true)
  trace : ∃ l, s'.trace = l ++ s.trace ∧ (∀ o ∈ l, o.quiet s.neg.useExtKeyId = true) ∧
    (s'.pairwiseSet = s.pairwiseSet ∨ ∃ ok, .delKey 0 ok ∈ l)
  stored : StoredOK s → StoredOK s'

/-- The fields a plain transition speaks of. -/
def Sm.core (s : Sm) :=
  (s.neg, s.psks, s.init, s.lastRxEapolKey, s.eapolKeyReceived, s.eapolKeyPairwise,
    s.eapolKeyRequest, s.micVerified, s.updateSnonce, s.ptkValid, s.ptk, s.pairwiseSet, s.pmk,
    s.trace)

/-- The requests. -/
def Sm.requests (s : Sm) :=
  (s.init, s.disconnect, s.deauthenticationRequest, s.authenticationRequest,
    s.reAuthenticationRequest, s.ptkRequest)

theorem NoRequest.of (h : NoRequest t) (ht : t.requests = s.requests) : NoRequest s := by
  simp only [Sm.requests, Prod.mk.injEq] at ht
  obtain ⟨h1, h2, h3, h4, h5, h6⟩ := ht
  exact ⟨h1 ▸ h.init, h2 ▸ h.disconnect, h3 ▸ h.deauth, h4 ▸ h.auth, h5 ▸ h.reauth, h6 ▸ h.ptk⟩

namespace Plain

/-- A transition that only counts and makes requests. -/
theorem stay (h : s'.core = s.core) (hl : s'.state.late = true → s.state.late = true)
    (hr : NoRequest s' → NoRequest s) : Plain e s s' := by
  simp only [Sm.core, Prod.mk.injEq] at h
  obtain ⟨h1, h2, h3, h4, h5, h6, h7, h8, h9, h10, h11, h12, h13, h14⟩ := h
  refine ⟨h1, h2, h3, h4, hl, fun h => h5 ▸ h, h6, h7, h8, h9, fun h => ⟨h10 ▸ h, h11⟩,
    fun h => h12 ▸ h, .inl h13, fun _ h => ⟨hr h, fun hv => h10.symm ▸ hv⟩,
    ⟨[], h14, by simp, .inl h12⟩, fun h => h.congr h14 h11⟩

/-- A transition that only moves to an early state and counts. -/
theorem enter (h : s'.core = s.core) (hl : s'.state.late = false) : Plain e s s' := by
  simp only [Sm.core, Prod.mk.injEq] at h
  obtain ⟨h1, h2, h3, h4, h5, h6, h7, h8, h9, h10, h11, h12, h13, h14⟩ := h
  have never : ¬ s'.state.late = true := by rw [hl]; exact Bool.false_ne_true
  exact ⟨h1, h2, h3, h4, fun h => absurd h never, fun h => h5 ▸ h, h6, h7, h8, h9,
    fun h => ⟨h10 ▸ h, h11⟩, fun h => h12 ▸ h, .inl h13, fun h => absurd h.late never,
    ⟨[], h14, by simp, .inl h12⟩, fun h => h.congr h14 h11⟩

protected theorem refl (s : Sm) : Plain e s s := stay rfl id id

/-- The received frame is the same or gone. -/
theorem pairwiseReceived (h : Plain e s s') (hr : s'.pairwiseReceived = true) :
    s.pairwiseReceived = true := by
  simp only [Sm.pairwiseReceived, Bool.and_eq_true, h.pairwise, h.request] at hr ⊢
  exact ⟨⟨h.received hr.1.1, hr.1.2⟩, hr.2⟩

theorem awaits (h : Plain e s s') (ha : Awaits s') : Awaits s :=
  ⟨h.late ha.late, h.pairwiseReceived ha.received, h.mic ▸ ha.mic⟩

protected theorem trans (h : Plain e s s') (h' : Plain e s' t) : Plain e s t := by
  have hp : ∀ p, e.Pmk s' p → e.Pmk s p := by
    intro p hp
    unfold Env.Pmk at hp ⊢
    rwa [h.psks, h.neg] at hp
  obtain ⟨l, hl, hq, hd⟩ := h.trace
  obtain ⟨l', hl', hq', hd'⟩ := h'.trace
  refine ⟨h'.neg.trans h.neg, h'.psks.trans h.psks, h'.init.trans h.init,
    h'.lastRx.trans h.lastRx, fun hl => h.late (h'.late hl),
    fun hr => h.received (h'.received hr), h'.pairwise.trans h.pairwise,
    h'.request.trans h.request, h'.mic.trans h.mic, h'.snonce.trans h.snonce, ?_,
    fun hr => h.set (h'.set hr), ?_, ?_, ⟨l' ++ l, by rw [hl', hl, List.append_assoc], ?_, ?_⟩,
    fun hs => h'.stored (h.stored hs)⟩
  · intro hv
    obtain ⟨h1, h2⟩ := h'.ptk hv
    obtain ⟨h3, h4⟩ := h.ptk h1
    exact ⟨h3, h2.trans h4⟩
  · rcases h'.pmk with h1 | ⟨p, h1, h2⟩
    · rcases h.pmk with h3 | ⟨p, h3, h4⟩
      · exact .inl (h1.trans h3)
      · exact .inr ⟨p, h1.trans h3, h4⟩
    · exact .inr ⟨p, h1, hp p h2⟩
  · intro ha hn
    obtain ⟨hn', hv'⟩ := h'.hand ha hn
    obtain ⟨hn'', hv⟩ := h.hand (h'.awaits ha) hn'
    exact ⟨hn'', fun h => hv' (hv h)⟩
  · intro o ho
    rcases List.mem_append.1 ho with ho | ho
    · rw [← h.neg]; exact hq' o ho
    · exact hq o ho
  · rcases hd' with hd' | ⟨b, hd'⟩
    · rcases hd with hd | ⟨b, hd⟩
      · exact .inl (hd'.trans hd)
      · exact .inr ⟨b, List.mem_append_right _ hd⟩
    · exact .inr ⟨b, List.mem_append_left _ hd'⟩

end Plain

/-! ## The transitions one by one -/

theorem wpaSendEapol_plain (b : KeyBody) (s : Sm) : Plain e s (wpaSendEapol c b s) := by
  have hsent : ∀ o ∈ ((eapolFrame c b s).map Out.sent).toList, ∃ f, o = .sent f := by
    intro o ho
    simp only [Option.mem_toList, Option.map_eq_some_iff] at ho
    obtain ⟨f, -, rfl⟩ := ho
    exact ⟨f, rfl⟩
  refine ⟨rfl, rfl, rfl, rfl, id, id, rfl, rfl, rfl, rfl, fun h => ⟨h, rfl⟩, id, .inl rfl,
    fun _ h => ⟨h.of rfl, id⟩, ⟨_, rfl, ?_, .inl rfl⟩, fun h => h.extend ?_ rfl rfl⟩
  · intro o ho
    obtain ⟨f, rfl⟩ := hsent o ho
    rfl
  · intro o ho
    obtain ⟨f, rfl⟩ := hsent o ho
    rfl

theorem delKeys_quiet (e : Env) (n : Negotiated) (b : Bool) :
    ∀ o ∈ delKeys e n, o.quiet b = true := by
  unfold delKeys
  split <;> simp [Out.quiet]

theorem delKeys_mem (e : Env) (n : Negotiated) : .delKey 0 e.delKey ∈ delKeys e n := by
  unfold delKeys
  split <;> simp

theorem wpaRemovePtk_plain (ha : ¬ Awaits s) : Plain e s (wpaRemovePtk e s) :=
  ⟨rfl, rfl, rfl, rfl, id, id, rfl, rfl, rfl, rfl, nofun, nofun, .inl rfl,
    fun h => absurd ⟨h.late, h.received, h.mic⟩ ha,
    ⟨_, rfl, delKeys_quiet e _ _, .inr ⟨_, delKeys_mem e _⟩⟩,
    fun h => h.remove (l := []) (by simp) rfl rfl⟩

theorem wpaStaDisconnect_plain (s : Sm) : Plain e s (wpaStaDisconnect e s) := by
  refine ⟨rfl, rfl, rfl, rfl, id, id, rfl, rfl, rfl, rfl, nofun, nofun, .inl rfl,
    (fun _ h => nomatch h.deauth), ⟨delKeys e s.neg ++ [.portClosed, .disconnect],
      by simp [wpaStaDisconnect, wpaRemovePtk, Sm.out], ?_,
      .inr ⟨_, List.mem_append_left _ (delKeys_mem e _)⟩⟩,
    fun h => h.remove (l := [.portClosed, .disconnect]) (by simp [Out.inert]) rfl rfl⟩
  intro o ho
  rcases List.mem_append.1 ho with ho | ho
  · exact delKeys_quiet e _ _ o ho
  · simp only [List.mem_cons, List.not_mem_nil, or_false] at ho
    rcases ho with rfl | rfl <;> rfl

theorem enterInitialize_plain (s : Sm) : Plain e s (enterInitialize e s) := by
  refine ⟨rfl, rfl, rfl, rfl, nofun, id, rfl, rfl, rfl, rfl, nofun, nofun, .inl rfl,
    (fun h => nomatch h.late),
    ⟨.portClosed :: delKeys e s.neg, rfl, ?_, .inr ⟨_, List.mem_cons_of_mem _ (delKeys_mem e _)⟩⟩,
    fun h => ?_⟩
  · intro o ho
    rcases List.mem_cons.1 ho with rfl | ho
    · rfl
    · exact delKeys_quiet e _ _ o ho
  · have hr : StoredOK (wpaRemovePtk e s) := h.remove (l := []) (by simp) rfl rfl
    exact hr.extend (l := [.portClosed]) (by simp [Out.inert]) rfl rfl

theorem enterDisconnect_plain (s : Sm) : Plain e s (enterDisconnect e s) := by
  have h : Plain e s { s.enter .disconnect with disconnect := false } := .enter rfl rfl
  exact h.trans (wpaStaDisconnect_plain _)

theorem enterDisconnected_plain (s : Sm) : Plain e s (enterDisconnected s) :=
  .enter rfl rfl

theorem enterAuthentication_plain (s : Sm) : Plain e s (enterAuthentication s) :=
  ⟨rfl, rfl, rfl, rfl, nofun, id, rfl, rfl, rfl, rfl, nofun, id, .inl rfl, (fun h => nomatch h.late),
    ⟨[.ptkCleared], rfl, by simp [Out.quiet], .inl rfl⟩, fun h => h.clear rfl rfl⟩

theorem enterAuthentication2_plain (s : Sm) : Plain e s (enterAuthentication2 e s) := by
  unfold enterAuthentication2
  cases e.random <;>
    exact .enter rfl rfl

theorem enterInitpmk_plain (s : Sm) : Plain e s (enterInitpmk e s) := by
  have stay : ∀ t : Sm, t = { s.enter .initpmk with disconnect := true } → Plain e s t := by
    rintro t rfl
    exact .enter rfl rfl
  have take : ∀ p, e.Pmk s p → ∀ t : Sm,
      t = { s.enter .initpmk with pmk := some p, reqReplayCounterUsed := false } → Plain e s t := by
    rintro p hp t rfl
    exact ⟨rfl, rfl, rfl, rfl, nofun, id, rfl, rfl, rfl, rfl, fun h => ⟨h, rfl⟩, id,
      .inr ⟨p, rfl, hp⟩, (fun h => nomatch h.late), ⟨[], rfl, by simp, .inl rfl⟩,
      fun h => h.congr rfl rfl⟩
  unfold enterInitpmk
  simp only
  split
  · rename_i p hp
    exact take p (.inr (.inl hp)) _ rfl
  · split
    · exact stay _ rfl
    · split
      · exact stay _ rfl
      · rename_i m hm
        split
        · exact stay _ rfl
        · exact take _ (.inr (.inr ⟨m, hm, rfl⟩)) _ rfl

theorem enterInitpsk_plain (s : Sm) : Plain e s (enterInitpsk s) := by
  refine ⟨rfl, rfl, rfl, rfl, nofun, id, rfl, rfl, rfl, rfl, fun h => ⟨h, rfl⟩, id, ?_,
    (fun h => nomatch h.late), ⟨[], rfl, by simp, .inl rfl⟩, fun h => h.congr rfl rfl⟩
  have hpmk : (enterInitpsk s).pmk = if s.neg.keyMgmt = .sae ∧ s.neg.pmksa.isSome then s.neg.pmksa
      else s.psks.head?.or s.pmk := rfl
  rw [hpmk]
  by_cases hs : s.neg.keyMgmt = .sae ∧ s.neg.pmksa.isSome
  · obtain ⟨q, hq⟩ := Option.isSome_iff_exists.1 hs.2
    rw [if_pos hs]
    exact .inr ⟨q, hq, .inr (.inl hq)⟩
  · rw [if_neg hs]
    cases hp : s.psks.head? with
    | none => exact .inl rfl
    | some p => exact .inr ⟨p, rfl, .inl (List.mem_of_mem_head? hp)⟩

theorem enterPtkstart_plain (s : Sm) : Plain e s (enterPtkstart c e s) := by
  have h : Plain e s { s.enter .ptkstart with
      ptkRequest := false, timeoutEvt := false, altSnonceValid := false
      timeoutCtr := s.timeoutCtr + 1 } :=
    .enter rfl rfl
  unfold enterPtkstart
  simp only
  split
  · exact h
  · exact h.trans (wpaSendEapol_plain _ _)

theorem enterPtkcalcnegotiating2_plain (hs : s.state.late = true) :
    Plain e s (enterPtkcalcnegotiating2 s) :=
  .stay rfl (fun _ => hs) (·.of rfl)

theorem enterPtkinitnegotiating_plain (hs : s.state.late = true) :
    Plain e s (enterPtkinitnegotiating c e s) := by
  have h : Plain e s { s.enter .ptkinitnegotiating with
      timeoutEvt := false, timeoutCtr := s.timeoutCtr + 1 } :=
    .stay rfl (fun _ => hs) (·.of rfl)
  unfold enterPtkinitnegotiating
  simp only
  split
  · exact h
  split
  · exact h
  split
  · -- Extended Key ID: the key goes to the driver first
    rename_i hx
    have hk : ∀ i k : ℕ, Plain e s ({ s.enter .ptkinitnegotiating with
        timeoutEvt := false, timeoutCtr := s.timeoutCtr + 1 }.out
          (.setKey .ptkinitnegotiating i (s.ptk.tkBuf k) e.setKey)) := fun i k =>
      ⟨rfl, rfl, rfl, rfl, fun _ => hs, id, rfl, rfl, rfl, rfl, fun h => ⟨h, rfl⟩, id, .inl rfl,
        fun _ h => ⟨h.of rfl, id⟩, ⟨[_], rfl, by
        intro o ho
        rw [List.mem_singleton.1 ho]
        exact hx.2.1, .inl rfl⟩, fun h => h.hand rfl rfl⟩
    split
    · exact (hk _ _).trans (wpaSendEapol_plain _ _)
    · exact (hk _ _).trans (wpaStaDisconnect_plain _)
  · exact h.trans (wpaSendEapol_plain _ _)

theorem enterRekeynegotiating_plain (s : Sm) : Plain e s (enterRekeynegotiating c e s) := by
  have h : ∀ (b b' : Bool) (n : ℕ), Plain e s { s.enterGroup .rekeynegotiating with
      gTimeoutCtr := n, pInitAKeys := b, timeoutEvt := b' } := fun b b' n =>
    .stay rfl id (·.of rfl)
  unfold enterRekeynegotiating
  simp only
  split
  · exact h _ _ _
  split
  · exact h _ _ _
  · exact (h _ _ _).trans (wpaSendEapol_plain _ _)

/-- **The group machine** never touches the pairwise keys. -/
theorem smStepPtkGroup_plain (s : Sm) : Plain e s (smStepPtkGroup c e s) := by
  unfold smStepPtkGroup
  split
  · exact .stay rfl id (·.of rfl)
  split
  · split
    · exact enterRekeynegotiating_plain s
    · exact .refl s
  · split
    · exact ⟨rfl, rfl, rfl, rfl, id, nofun, rfl, rfl, rfl, rfl, fun h => ⟨h, rfl⟩, id, .inl rfl,
        fun _ h => ⟨h.of rfl, id⟩, ⟨[], rfl, by simp, .inl rfl⟩, fun h => h.congr rfl rfl⟩
    split
    · exact .stay rfl id fun h => nomatch h.disconnect
    split
    · exact enterRekeynegotiating_plain s
    · exact .refl s
  · exact .stay rfl id (·.of rfl)
  · exact .stay rfl id (·.of rfl)

/-! ## Every transition goes round the loop once more -/

@[simp] theorem wpaSendEapol_changed (b : KeyBody) (s : Sm) :
    (wpaSendEapol c b s).changed = s.changed := rfl

@[simp] theorem wpaStaDisconnect_changed (s : Sm) : (wpaStaDisconnect e s).changed = true := rfl

theorem enterInitialize_changed (s : Sm) : (enterInitialize e s).changed = !s.init := rfl

theorem enterAuthentication2_changed (s : Sm) : (enterAuthentication2 e s).changed = true := by
  unfold enterAuthentication2
  cases e.random <;> rfl

theorem enterInitpmk_changed (s : Sm) : (enterInitpmk e s).changed = true := by
  unfold enterInitpmk
  simp only
  repeat' split
  all_goals rfl

theorem enterPtkstart_changed (s : Sm) : (enterPtkstart c e s).changed = true := by
  unfold enterPtkstart
  simp only
  split
  · rfl
  · rw [wpaSendEapol_changed]; rfl

theorem enterPtkcalcnegotiating_changed (s : Sm) :
    (enterPtkcalcnegotiating c e s).changed = true := by
  unfold enterPtkcalcnegotiating
  split
  · rfl
  split
  · rfl
  · exact wpaStaDisconnect_changed _
  · rfl

theorem enterPtkinitnegotiating_changed (s : Sm) :
    (enterPtkinitnegotiating c e s).changed = true := by
  unfold enterPtkinitnegotiating
  simp only
  split
  · rfl
  split
  · rfl
  split
  · split
    · rw [wpaSendEapol_changed]; rfl
    · exact wpaStaDisconnect_changed _
  · rw [wpaSendEapol_changed]; rfl

theorem enterPtkinitdone_changed (s : Sm) : (enterPtkinitdone c e s).changed = true := by
  unfold enterPtkinitdone
  split
  · split <;> rfl
  · rfl

/-! ## The transitions of the PTK machine -/

/-- When PTKCALCNEGOTIATING is entered. -/
structure EntersCalc (s : Sm) : Prop extends NoRequest s where
  why : (s.state = .ptkstart ∨ s.state = .ptkcalcnegotiating ∧ s.micVerified = false) ∧
      s.pairwiseReceived = true ∨
    s.state = .ptkinitnegotiating ∧ s.updateSnonce = true

/-- When PTKINITDONE is entered. -/
structure EntersDone (s : Sm) : Prop extends NoRequest s, Awaits s where
  state : s.state = .ptkinitnegotiating
  snonce : s.updateSnonce = false

/-- What one step of the PTK machine can be. -/
inductive PtkStep (c : Conf) (e : Env) (s : Sm) : Sm → Prop
  /-- Nothing to do. -/
  | rest (h : NoRequest s) (hc : ¬ EntersCalc s) (ha : ¬ Awaits s) : PtkStep c e s s
  | plain {s' : Sm} (h : Plain e s s') (ch : s.init = false → s'.changed = true) : PtkStep c e s s'
  | search (h : EntersCalc s) : PtkStep c e s (enterPtkcalcnegotiating c e s)
  | done (h : EntersDone s) : PtkStep c e s (enterPtkinitdone c e s)

/-- A plain transition into a state before message 2/4. -/
structure Early (e : Env) (s s' : Sm) : Prop extends Plain e s s' where
  early : s'.state.late = false
  notDone : s'.state ≠ .ptkinitdone
  pair : s.pair = true → s'.pair = true
  ch : s.init = false → s'.changed = true

/-- What one step of the PTK machine can be, with the states it goes to. -/
inductive PtkMove (c : Conf) (e : Env) (s : Sm) : Sm → Prop
  /-- Nothing to do. -/
  | rest (h : NoRequest s) (hc : ¬ EntersCalc s) (ha : ¬ Awaits s) : PtkMove c e s s
  | early {s' : Sm} (h : Early e s s') : PtkMove c e s s'
  | search (h : EntersCalc s) : PtkMove c e s (enterPtkcalcnegotiating c e s)
  | calc2 (h : NoRequest s) (hs : s.state = .ptkcalcnegotiating) :
      PtkMove c e s (enterPtkcalcnegotiating2 s)
  | negotiate (h : NoRequest s)
      (hs : s.state = .ptkcalcnegotiating2 ∨ s.state = .ptkinitnegotiating) :
      PtkMove c e s (enterPtkinitnegotiating c e s)
  | done (h : EntersDone s) : PtkMove c e s (enterPtkinitdone c e s)

/-- A transition into a state of its own. -/
theorem Early.of {p : PtkState} (h : Plain e s s') (hst : s'.state = p ∧ s'.pair = s.pair)
    (hl : p.late = false) (hd : p ≠ .ptkinitdone) (ch : s'.changed = true) : Early e s s' :=
  ⟨h, hst.1 ▸ hl, hst.1 ▸ hd, fun h => hst.2.trans h, fun _ => ch⟩

theorem enterInitialize_early (s : Sm) : Early e s (enterInitialize e s) :=
  ⟨enterInitialize_plain s, rfl, nofun, fun _ => rfl, fun h => by rw [enterInitialize_changed, h]; rfl⟩

theorem enterDisconnect_early (s : Sm) : Early e s (enterDisconnect e s) :=
  .of (p := .disconnect) (enterDisconnect_plain s) ⟨rfl, rfl⟩ rfl nofun (wpaStaDisconnect_changed _)

theorem enterDisconnected_early (s : Sm) : Early e s (enterDisconnected s) :=
  .of (p := .disconnected) (enterDisconnected_plain s) ⟨rfl, rfl⟩ rfl nofun rfl

theorem enterAuthentication_early (s : Sm) : Early e s (enterAuthentication s) :=
  .of (p := .authentication) (enterAuthentication_plain s) ⟨rfl, rfl⟩ rfl nofun rfl

theorem enterAuthentication2_early (s : Sm) : Early e s (enterAuthentication2 e s) := by
  refine .of (p := .authentication2) (enterAuthentication2_plain s) ?_ rfl nofun
    (enterAuthentication2_changed s)
  unfold enterAuthentication2
  cases e.random <;> exact ⟨rfl, rfl⟩

theorem enterInitpmk_early (s : Sm) : Early e s (enterInitpmk e s) := by
  refine .of (p := .initpmk) (enterInitpmk_plain s) ?_ rfl nofun (enterInitpmk_changed s)
  unfold enterInitpmk
  simp only
  repeat' split
  all_goals exact ⟨rfl, rfl⟩

theorem enterInitpsk_early (s : Sm) : Early e s (enterInitpsk s) :=
  .of (p := .initpsk) (enterInitpsk_plain s) ⟨rfl, rfl⟩ rfl nofun rfl

theorem enterPtkstart_early (s : Sm) : Early e s (enterPtkstart c e s) := by
  refine .of (p := .ptkstart) (enterPtkstart_plain s) ?_ rfl nofun (enterPtkstart_changed s)
  unfold enterPtkstart
  simp only
  split <;> exact ⟨rfl, rfl⟩

theorem enterPtkcalcnegotiating_state (s : Sm) :
    (enterPtkcalcnegotiating c e s).state = .ptkcalcnegotiating ∧
      (enterPtkcalcnegotiating c e s).eapolKeyReceived = false ∧
      (enterPtkcalcnegotiating c e s).pair = s.pair := by
  unfold enterPtkcalcnegotiating
  split
  · exact ⟨rfl, rfl, rfl⟩
  split <;> exact ⟨rfl, rfl, rfl⟩

theorem enterPtkinitnegotiating_state (s : Sm) :
    (enterPtkinitnegotiating c e s).state = .ptkinitnegotiating ∧
      (enterPtkinitnegotiating c e s).eapolKeyReceived = s.eapolKeyReceived ∧
      (enterPtkinitnegotiating c e s).pair = s.pair := by
  unfold enterPtkinitnegotiating
  simp only
  split
  · exact ⟨rfl, rfl, rfl⟩
  split
  · exact ⟨rfl, rfl, rfl⟩
  split
  · split <;> exact ⟨rfl, rfl, rfl⟩
  · exact ⟨rfl, rfl, rfl⟩

theorem smStepState_move (hn : NoRequest s) : PtkMove c e s (smStepState c e s) := by
  have start : PtkMove c e s (enterPtkstart c e s) := .early (enterPtkstart_early s)
  have disc : PtkMove c e s (enterDisconnect e s) := .early (enterDisconnect_early s)
  have pmk : PtkMove c e s (enterInitpmk e s) := .early (enterInitpmk_early s)
  -- in the other states neither PTKCALCNEGOTIATING nor PTKINITDONE comes next
  have rest : s.state ≠ .ptkstart → s.state.late = false → PtkMove c e s s := by
    intro n1 n2
    refine .rest hn ?_ fun h => nomatch n2.symm.trans h.late
    rintro ⟨-, ⟨h | h, -⟩ | h⟩
    · exact n1 h
    · rw [h.1] at n2; cases n2
    · rw [h.1] at n2; cases n2
  unfold smStepState
  cases hs : s.state with
  | initState => exact rest (by simp [hs]) (by rw [hs]; rfl)
  | disconnect => exact .early (enterDisconnected_early s)
  | disconnected => exact .early (enterInitialize_early s)
  | authentication => exact .early (enterAuthentication2_early s)
  | authentication2 =>
    simp only
    split
    · exact pmk
    split
    · exact .early (enterInitpsk_early s)
    split
    · exact pmk
    · exact rest (by simp [hs]) (by rw [hs]; rfl)
  | initpmk =>
    simp only
    split
    · exact start
    split
    · exact start
    · exact disc
  | initpsk =>
    simp only
    split
    · exact start
    split
    · exact start
    · exact disc
  | ptkstart =>
    simp only
    split
    · rename_i hr
      exact .search ⟨hn, .inl ⟨.inl hs, hr⟩⟩
    rename_i hr
    split
    · exact disc
    split
    · exact start
    · refine .rest hn ?_ fun h => by have := h.late; simp [hs, PtkState.late] at this
      rintro ⟨-, h | h⟩
      · exact hr h.2
      · simp [hs] at h
  | ptkcalcnegotiating =>
    simp only
    split
    · exact .calc2 hn hs
    rename_i hm
    split
    · rename_i hr
      exact .search ⟨hn, .inl ⟨.inr ⟨hs, by simpa using hm⟩, hr⟩⟩
    rename_i hr
    split
    · exact start
    · refine .rest hn ?_ fun h => hm h.mic
      rintro ⟨-, h | h⟩
      · exact hr h.2
      · simp [hs] at h
  | ptkcalcnegotiating2 => exact .negotiate hn (.inl hs)
  | ptkinitnegotiating =>
    simp only
    split
    · rename_i hu
      exact .search ⟨hn, .inr ⟨hs, hu⟩⟩
    rename_i hu
    split
    · rename_i hr
      exact .done ⟨hn, ⟨by rw [hs]; rfl, hr.1, hr.2⟩, hs, by simpa using hu⟩
    rename_i hr
    split
    · exact disc
    split
    · exact .negotiate hn (.inr hs)
    · refine .rest hn ?_ fun h => hr ⟨h.received, h.mic⟩
      rintro ⟨-, h | h⟩
      · simp [hs] at h
      · exact hu h.2
  | ptkinitdone => exact rest (by simp [hs]) (by rw [hs]; rfl)

theorem smStepPtk_move (s : Sm) : PtkMove c e s (smStepPtk c e s) := by
  unfold smStepPtk
  split
  · exact .early (enterInitialize_early s)
  rename_i h1
  split
  · exact .early (enterDisconnect_early s)
  rename_i h2
  split
  · exact .early (enterDisconnected_early s)
  rename_i h3
  split
  · exact .early (enterAuthentication_early s)
  rename_i h4
  split
  · exact .early (enterAuthentication2_early s)
  rename_i h5
  split
  · cases e.random with
    | none =>
      have h : Plain e s { s with disconnect := true } := .stay rfl id fun h => nomatch h.disconnect
      have hd := enterDisconnected_early (e := e) { s with disconnect := true }
      exact .early ⟨h.trans hd.toPlain, hd.early, hd.notDone, hd.pair, fun _ => rfl⟩
    | some n =>
      have h : Plain e s { s with aNonce := n, timeoutCtr := 0 } := .stay rfl id (·.of rfl)
      have hd := enterPtkstart_early (c := c) (e := e) { s with aNonce := n, timeoutCtr := 0 }
      exact .early ⟨h.trans hd.toPlain, hd.early, hd.notDone, hd.pair, hd.ch⟩
  rename_i h6
  exact smStepState_move (by constructor <;> apply Bool.eq_false_iff.2 <;> assumption)

/-- **A step of the PTK machine.** -/
theorem smStepPtk_step (s : Sm) : PtkStep c e s (smStepPtk c e s) := by
  have hmove := smStepPtk_move (c := c) (e := e) s
  generalize smStepPtk c e s = t at hmove ⊢
  cases hmove with
  | rest h hc ha => exact .rest h hc ha
  | early h => exact .plain h.toPlain h.ch
  | search h => exact .search h
  | calc2 h hs => exact .plain (enterPtkcalcnegotiating2_plain (by rw [hs]; rfl)) fun _ => rfl
  | negotiate h hs =>
    refine .plain (enterPtkinitnegotiating_plain ?_) fun _ => enterPtkinitnegotiating_changed s
    rcases hs with hs | hs <;> rw [hs] <;> rfl
  | done h => exact .done h

end Lightguard.Auth
