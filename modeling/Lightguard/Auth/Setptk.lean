import Lightguard.Auth.Slots
import Lightguard.Rotation.Listener

/-!
# A new PSK while the old key is in use

On a setptk line hostapd replaces the PSK and asks its machine for a new 4-way handshake; the
pairwise key stays in the driver until the new one is there.

* `RekeyRule`: what the machine may do to the pairwise key until it disconnects the station.
* `smRound_rekey`: a round of the loop keeps to the rule.
* `make_before_break`: every continuation keeps to it, without Extended Key ID.
* `extKeyId_overwritten`: with it the key in use can be overwritten before message 4/4.
-/

namespace Lightguard.Auth

open Wpa

variable {c : Conf} {ev : Event} {e : Env} {f : EapolKey} {s s' t : Sm} {l l' : List Out}
  {n : Negotiated} {p : Pmk}

/-! ## The rule -/

/-- `K` is the PTK written last, and it is derived from the PMK `p` for this station. -/
def DerivedFrom (c : Conf) (n : Negotiated) (p : Pmk) (K : Ptk) (l : List Out) : Prop :=
  ∃ a m, lastPtk l = some (.derived p a m, K) ∧
    K = ptkOf c.prims n.keyMgmt n.pairwise c.addr c.sta p.1 a m

/-- What may happen to the pairwise key until the station is disconnected: it is not removed,
and PTKINITDONE alone hands a key over, with a PTK that is derived from `p`. -/
def RekeyRule (c : Conf) (n : Negotiated) (p : Pmk) (o : Out) (l : List Out) : Prop :=
  .disconnect ∈ l ∨ match o with
    | .delKey _ _ => False
    | .setKey site _ key _ =>
      site = .ptkinitdone ∧ ∃ K, DerivedFrom c n p K l ∧ key = K.tkBuf n.pairwise.keyLen
    | .ptkinitdone K => DerivedFrom c n p K l
    | _ => True

/-- Entries the rule allows at any time, and that write no PTK. -/
def Out.harmless : Out → Bool
  | .delKey _ _ | .setKey _ _ _ _ | .ptkinitdone _ | .newPtk _ _ => false
  | _ => true

theorem DerivedFrom.extend {K : Ptk} (h : DerivedFrom c n p K l')
    (hl : ∀ o ∈ l, o.harmless = true) : DerivedFrom c n p K (l ++ l') := by
  obtain ⟨a, m, hlast, hK⟩ := h
  refine ⟨a, m, ?_, hK⟩
  rw [lastPtk, Lib.latest_append]
  · exact hlast
  · intro o ho
    have := hl o ho
    cases o <;> simp_all [Out.harmless]

theorem always_harmless (hl : ∀ o ∈ l, o.harmless = true)
    (h : Lib.Always (RekeyRule c n p) l') : Lib.Always (RekeyRule c n p) (l ++ l') := by
  refine Lib.always_append (fun o ho t => .inr ?_) h
  have := hl o ho
  cases o <;> simp_all [Out.harmless]

/-- After a disconnection anything may happen. -/
theorem always_broken (hd : .disconnect ∈ l') (h : Lib.Always (RekeyRule c n p) l') :
    Lib.Always (RekeyRule c n p) (l ++ l') := by
  induction l with
  | nil => exact h
  | cons o l ih => exact ⟨.inl (List.mem_append_right _ hd), ih⟩

/-! ## The invariant -/

/-- The states from which the new handshake goes on. -/
def PtkState.rekeying : PtkState → Bool
  | .initState | .disconnect | .disconnected | .authentication | .initpmk => false
  | _ => true

/-- The new handshake is under way, or the machine is about to disconnect the station; `l` is
what has happened since the PSK was replaced. -/
structure Rekeying (c : Conf) (n : Negotiated) (p : Pmk) (l : List Out) (s : Sm) : Prop where
  neg : s.neg = n
  psks : s.psks = [p]
  init : s.init = false
  deauth : s.deauthenticationRequest = false
  auth : s.authenticationRequest = false
  state : s.disconnect = true ∨ s.reAuthenticationRequest = true ∨ s.state.rekeying = true
  ptk : s.ptkValid = true → DerivedFrom c n p s.ptk l
  awaits : Awaits s → s.ptkValid = true

/-- The machine keeps to the rule since the history was `l₀`. -/
def RekeyOK (c : Conf) (n : Negotiated) (p : Pmk) (l₀ : List Out) (s : Sm) : Prop :=
  ∃ l, s.trace = l ++ l₀ ∧ Lib.Always (RekeyRule c n p) l ∧
    (.disconnect ∈ l ∨ Rekeying c n p l s)

/-- A station with WPA-PSK, without Extended Key ID. -/
structure PskOnly (n : Negotiated) : Prop where
  akm : n.keyMgmt = .psk ∨ n.keyMgmt = .pskSha256
  ext : n.useExtKeyId = false

variable {l₀ : List Out}

theorem RekeyOK.extend (h : RekeyOK c n p l₀ s) (htr : t.trace = l ++ s.trace)
    (hl : ∀ o ∈ l, o.harmless = true)
    (ht : ∀ k, Rekeying c n p k s → Rekeying c n p (l ++ k) t) : RekeyOK c n p l₀ t := by
  obtain ⟨k, hk, hal, hor⟩ := h
  refine ⟨l ++ k, by rw [htr, hk, List.append_assoc], always_harmless hl hal, ?_⟩
  exact hor.imp (List.mem_append_right _) (ht k)

/-- A machine that has disconnected the station, or disconnects it now. -/
theorem RekeyOK.broken (hk : s.trace = l ++ l₀) (hal : Lib.Always (RekeyRule c n p) l)
    (hd : .disconnect ∈ l) (hg : ∃ k, t.trace = k ++ s.trace) : RekeyOK c n p l₀ t := by
  obtain ⟨k, hg⟩ := hg
  exact ⟨k ++ l, by rw [hg, hk, List.append_assoc], always_broken hd hal,
    .inl (List.mem_append_right _ hd)⟩

theorem wpaStaDisconnect_rekey (hk : s.trace = l ++ l₀) (hal : Lib.Always (RekeyRule c n p) l) :
    RekeyOK c n p l₀ (wpaStaDisconnect e s) := by
  have hout : Lib.Always (RekeyRule c n p) (.disconnect :: l) := ⟨.inr trivial, hal⟩
  have hmem : Out.disconnect ∈ Out.disconnect :: l := List.mem_cons_self
  exact .broken (s := s.out .disconnect) (l := .disconnect :: l) (by rw [Sm.out, hk]; rfl) hout hmem
    ⟨delKeys e s.neg ++ [.portClosed], by simp [wpaStaDisconnect, wpaRemovePtk, Sm.out]⟩

/-- A transition that leaves the keys alone. -/
theorem Rekeying.move (h : Rekeying c n p l s) (hf : (t.neg, t.psks, t.init,
      t.deauthenticationRequest, t.authenticationRequest) =
      (s.neg, s.psks, s.init, s.deauthenticationRequest, s.authenticationRequest))
    (hst : t.disconnect = true ∨ t.reAuthenticationRequest = true ∨ t.state.rekeying = true)
    (hk : t.ptkValid = true → s.ptkValid = true ∧ t.ptk = s.ptk)
    (ha : Awaits t → t.ptkValid = true) : Rekeying c n p l t := by
  simp only [Prod.mk.injEq] at hf
  obtain ⟨h1, h2, h3, h4, h5⟩ := hf
  refine ⟨h1.trans h.neg, h2.trans h.psks, h3.trans h.init, h4.trans h.deauth, h5.trans h.auth,
    hst, fun hv => ?_, ha⟩
  obtain ⟨hv', heq⟩ := hk hv
  exact heq ▸ h.ptk hv'

/-- More history without a word on the pairwise keys. -/
theorem Rekeying.later (h : Rekeying c n p l' s) (hl : ∀ o ∈ l, o.harmless = true) :
    Rekeying c n p (l ++ l') s :=
  ⟨h.neg, h.psks, h.init, h.deauth, h.auth, h.state, fun hv => (h.ptk hv).extend hl, h.awaits⟩

/-- A transition into an early state of the handshake, with nothing but messages sent. -/
theorem Rekeying.early (h : Rekeying c n p l s) (hp : Plain e s t)
    (hf : t.deauthenticationRequest = s.deauthenticationRequest ∧
      t.authenticationRequest = s.authenticationRequest)
    (hst : t.disconnect = true ∨ t.state.rekeying = true) (hl : t.state.late = false) :
    Rekeying c n p l t :=
  h.move (by rw [hp.neg, hp.psks, hp.init, hf.1, hf.2]) (hst.imp id .inr) hp.ptk
    fun ha => nomatch hl.symm.trans ha.late

theorem wpaSendEapol_sent (b : KeyBody) (s : Sm) : ∃ k, (wpaSendEapol c b s).trace = k ++ s.trace ∧
    ∀ o ∈ k, o.harmless = true := by
  refine ⟨_, rfl, fun o ho => ?_⟩
  obtain ⟨f, -, rfl⟩ := Option.map_eq_some_iff.1 (Option.mem_toList.1 ho)
  rfl

theorem enterPtkstart_rekey (h : Rekeying c n p l s) (hk : s.trace = l ++ l₀)
    (hal : Lib.Always (RekeyRule c n p) l) : RekeyOK c n p l₀ (enterPtkstart c e s) := by
  have hp : Plain e s (enterPtkstart c e s) := enterPtkstart_plain s
  have hr : Rekeying c n p l (enterPtkstart c e s) := by
    refine h.early hp ?_ (.inr ?_) (enterPtkstart_early (e := e) s).early
    · unfold enterPtkstart
      simp only
      split <;> exact ⟨rfl, rfl⟩
    · unfold enterPtkstart
      simp only
      split <;> rfl
  have htr : ∃ k, (enterPtkstart c e s).trace = k ++ s.trace ∧ ∀ o ∈ k, o.harmless = true := by
    unfold enterPtkstart
    simp only
    split
    · exact ⟨[], rfl, by simp⟩
    · exact wpaSendEapol_sent _ _
  obtain ⟨k, htr, hq⟩ := htr
  exact ⟨k ++ l, by rw [htr, hk, List.append_assoc], always_harmless hq hal, .inr (hr.later hq)⟩

theorem harmless_looked (h : ∀ o ∈ l, o.looked = true) : ∀ o ∈ l, o.harmless = true := by
  intro o ho
  have := h o ho
  cases o <;> simp_all [Out.looked, Out.harmless]

theorem PskOnly.altCandidates (hn : PskOnly n) (h : Rekeying c n p l s) :
    s.altCandidates = [some p] := by
  have hakm : s.neg.keyMgmt.wpaPsk = true ∧ s.neg.keyMgmt ≠ .sae := by
    rw [h.neg]
    rcases hn.akm with hk | hk <;> rw [hk] <;> exact ⟨rfl, nofun⟩
  rw [Sm.altCandidates, if_pos hakm, h.psks]
  rfl

/-- **PTKCALCNEGOTIATING** derives from the new PSK only. -/
theorem enterPtkcalcnegotiating_rekey (hn : PskOnly n) (h : Rekeying c n p l s)
    (hk : s.trace = l ++ l₀) (hal : Lib.Always (RekeyRule c n p) l) :
    RekeyOK c n p l₀ (enterPtkcalcnegotiating c e s) := by
  have hlook := harmless_looked (calcSearch_looked (c := c) (e := e) (s := s))
  have htr : (calcSearched c e s).trace = searchOut (calcSearch c e s) ++ l ++ l₀ := by
    rw [List.append_assoc, ← hk]
    rfl
  have hal' := always_harmless hlook hal
  have hstay : ∀ q, Rekeying c n p (searchOut (calcSearch c e s) ++ l)
      { calcSearched c e s with pmk := q } := fun q =>
    (h.later hlook).move rfl (.inr (.inr rfl)) (fun hv => ⟨hv, rfl⟩) fun ha => nomatch ha.received
  unfold enterPtkcalcnegotiating
  cases hr : (calcSearch c e s).2 with
  | none => exact ⟨_, htr, hal', .inr (hstay _)⟩
  | some r =>
    obtain ⟨pmk, ptk⟩ := r
    cases hi : checkIes s with
    | unreadable => exact ⟨_, htr, hal', .inr (hstay _)⟩
    | mismatch => exact wpaStaDisconnect_rekey htr hal'
    | same =>
      have hfound : pmk = p ∧ ptk = ptkOf c.prims n.keyMgmt n.pairwise c.addr c.sta p.1 s.aNonce
          s.sNonce := by
        unfold calcSearch at hr
        split at hr
        · cases hr
        · obtain ⟨hmem, -, -, heq⟩ := searchPmk_found hr
          rw [Sm.candidates, hn.altCandidates h, List.map_singleton, List.mem_singleton] at hmem
          obtain rfl : pmk = p := Option.some.inj hmem
          exact ⟨rfl, h.neg ▸ heq⟩
      obtain ⟨rfl, hptk⟩ := hfound
      refine ⟨.newPtk (.derived pmk s.aNonce s.sNonce) ptk :: (searchOut (calcSearch c e s) ++ l),
        ?_, ⟨.inr trivial, hal'⟩, .inr ?_⟩
      · exact congrArg _ htr
      · exact ⟨h.neg, h.psks, h.init, h.deauth, h.auth, .inr (.inr rfl),
          fun _ => ⟨s.aNonce, s.sNonce, rfl, hptk⟩, fun _ => rfl⟩

/-- **PTKINITNEGOTIATING** only sends message 3/4. -/
theorem enterPtkinitnegotiating_rekey (hn : PskOnly n) (h : Rekeying c n p l s)
    (hk : s.trace = l ++ l₀) (hal : Lib.Always (RekeyRule c n p) l)
    (hs : s.state.late = true) : RekeyOK c n p l₀ (enterPtkinitnegotiating c e s) := by
  have hstay : ∀ t : Sm, t = { s.enter .ptkinitnegotiating with
      timeoutEvt := false, timeoutCtr := s.timeoutCtr + 1 } → RekeyOK c n p l₀ t := by
    rintro t rfl
    refine ⟨l, hk, hal, .inr (h.move rfl (.inr (.inr rfl)) (fun hv => ⟨hv, rfl⟩) fun ha => ?_)⟩
    exact h.awaits ⟨hs, ha.received, ha.mic⟩
  have hsend : ∀ t : Sm, RekeyOK c n p l₀ t → ∀ b, RekeyOK c n p l₀ (wpaSendEapol c b t) := by
    intro t ht b
    obtain ⟨k, htr, hq⟩ := wpaSendEapol_sent (c := c) b t
    refine ht.extend htr hq fun k hr => (hr.later hq).move rfl hr.state (fun hv => ⟨hv, rfl⟩) ?_
    exact fun ha => hr.awaits ⟨ha.late, ha.received, ha.mic⟩
  unfold enterPtkinitnegotiating
  simp only
  split
  · exact hstay _ rfl
  split
  · exact hstay _ rfl
  split
  · rename_i hx
    have : s.neg.useExtKeyId = true := hx.2.1
    rw [h.neg, hn.ext] at this
    cases this
  · exact hsend _ (hstay _ rfl) _

/-- **PTKINITDONE** hands over the TK of the new handshake. -/
theorem enterPtkinitdone_rekey (h : Rekeying c n p l s)
    (hk : s.trace = l ++ l₀) (hal : Lib.Always (RekeyRule c n p) l) (hd : EntersDone s) :
    RekeyOK c n p l₀ (enterPtkinitdone c e s) := by
  have hptk : DerivedFrom c n p s.ptk l := h.ptk (h.awaits hd.toAwaits)
  have hone : Lib.Always (RekeyRule c n p) (.ptkinitdone s.ptk :: l) := ⟨.inr hptk, hal⟩
  have hstay : ∀ l', (s.ptkValid = true → DerivedFrom c n p s.ptk l') →
      Rekeying c n p l' (doneEntered e s) := fun l' hl' =>
    ⟨h.neg, h.psks, h.init, h.deauth, h.auth, .inr (.inr rfl), hl', fun ha => nomatch ha.received⟩
  obtain ⟨l', htr, hal', hr⟩ : ∃ l', (doneEntered e s).trace = l' ++ l₀ ∧
      Lib.Always (RekeyRule c n p) l' ∧ Rekeying c n p l' (doneEntered e s) := by
    rcases doneEntered_keys e s with htr | ⟨-, htr⟩
    · exact ⟨_, by rw [htr, hk]; rfl, hone, hstay _ fun _ => hptk⟩
    · refine ⟨.setKey .ptkinitdone 0 (s.ptk.tkBuf s.neg.pairwise.keyLen) e.setKey ::
        .ptkinitdone s.ptk :: l, by rw [htr, hk]; rfl, ⟨.inr ⟨rfl, s.ptk, hptk, ?_⟩, hone⟩,
        hstay _ fun _ => hptk⟩
      rw [h.neg]
  have hopen : ∀ t : Sm, ∀ k, t.trace = k ++ (doneEntered e s).trace →
      (∀ o ∈ k, o.harmless = true) → (∀ l, Rekeying c n p l (doneEntered e s) →
        Rekeying c n p l t) → RekeyOK c n p l₀ t := by
    intro t k ht hq hmove
    refine ⟨k ++ l', by rw [ht, htr, List.append_assoc], always_harmless hq hal', .inr ?_⟩
    exact hmove _ (hr.later hq)
  unfold enterPtkinitdone
  split
  · split
    · refine hopen _ (portCalls .ptkinitdone s.neg) rfl ?_ fun l hl =>
        hl.move rfl hl.state (fun hv => ⟨hv, rfl⟩) fun ha => nomatch ha.received
      unfold portCalls
      split <;> simp [Out.harmless]
    · exact wpaStaDisconnect_rekey htr hal'
  · exact hopen _ [.portValid .ptkinitdone] rfl (by simp [Out.harmless]) fun l hl =>
      hl.move rfl hl.state (fun hv => ⟨hv, rfl⟩) fun ha => nomatch ha.received

/-- The transitions without a request. -/
theorem smStepState_rekey (hn : PskOnly n) (h : Rekeying c n p l s) (hno : NoRequest s)
    (hk : s.trace = l ++ l₀) (hal : Lib.Always (RekeyRule c n p) l) :
    RekeyOK c n p l₀ (smStepState c e s) := by
  have hrest : RekeyOK c n p l₀ s := ⟨l, hk, hal, .inr h⟩
  -- the entries that more than one state leads to
  have hstart := enterPtkstart_rekey (e := e) h hk hal
  have hcalc := enterPtkcalcnegotiating_rekey (e := e) hn h hk hal
  have hdisc : RekeyOK c n p l₀ (enterDisconnect e s) :=
    wpaStaDisconnect_rekey (s := { s.enter .disconnect with disconnect := false }) hk hal
  -- no disconnect or reauthentication is pending, so the machine is in the handshake
  have hplay : s.state.rekeying = true := by
    rcases h.state with hd | hd | hd
    · exact absurd (hno.disconnect.symm.trans hd) Bool.false_ne_true
    · exact absurd (hno.reauth.symm.trans hd) Bool.false_ne_true
    · exact hd
  have hpsk : s.neg.keyMgmt.wpaPsk = true ∧ s.neg.keyMgmt.wpaIeee8021x = false := by
    rw [h.neg]
    rcases hn.akm with hakm | hakm <;> rw [hakm] <;> exact ⟨rfl, rfl⟩
  unfold smStepState
  cases hs : s.state with
  | initState | disconnect | disconnected | authentication | initpmk =>
    -- these states are not part of it
    rw [hs] at hplay
    cases hplay
  | authentication2 =>
    simp only [hpsk.1, hpsk.2, Bool.false_eq_true, false_and, if_false, true_or, if_true]
    exact ⟨l, hk, hal, .inr (h.early (enterInitpsk_plain (e := e) s) ⟨rfl, rfl⟩ (.inr rfl) rfl)⟩
  | initpsk =>
    simp only [h.psks, ne_eq, List.cons_ne_nil, not_false_eq_true, if_true]
    exact hstart
  | ptkstart =>
    simp only
    split
    · exact hcalc
    split
    · exact hdisc
    split
    · exact hstart
    · exact hrest
  | ptkcalcnegotiating =>
    simp only
    split
    · refine ⟨l, hk, hal, .inr (h.move rfl (.inr (.inr rfl)) (fun hv => ⟨hv, rfl⟩) fun ha => ?_)⟩
      exact h.awaits ⟨by rw [hs]; rfl, ha.received, ha.mic⟩
    split
    · exact hcalc
    split
    · exact hstart
    · exact hrest
  | ptkcalcnegotiating2 => exact enterPtkinitnegotiating_rekey hn h hk hal (by rw [hs]; rfl)
  | ptkinitnegotiating =>
    simp only
    split
    · exact hcalc
    rename_i hu
    split
    · rename_i hr
      -- message 4/4 has been verified: the PTK of this handshake is installed
      exact enterPtkinitdone_rekey h hk hal
        ⟨hno, ⟨by rw [hs]; rfl, hr.1, hr.2⟩, hs, by simpa using hu⟩
    split
    · exact hdisc
    split
    · exact enterPtkinitnegotiating_rekey hn h hk hal (by rw [hs]; rfl)
    · exact hrest
  | ptkinitdone => exact hrest

/-- **A step of the PTK machine** keeps to the rule. -/
theorem smStepPtk_rekey (hn : PskOnly n) (h : Rekeying c n p l s) (hk : s.trace = l ++ l₀)
    (hal : Lib.Always (RekeyRule c n p) l) : RekeyOK c n p l₀ (smStepPtk c e s) := by
  unfold smStepPtk
  rw [if_neg (by simp [h.init])]
  split
  · exact wpaStaDisconnect_rekey (s := { s.enter .disconnect with disconnect := false }) hk hal
  rename_i hd
  rw [if_neg (by simp [h.deauth]), if_neg (by simp [h.auth])]
  split
  · have hst : (enterAuthentication2 e s).state = .authentication2 ∧
        (enterAuthentication2 e s).deauthenticationRequest = s.deauthenticationRequest ∧
        (enterAuthentication2 e s).authenticationRequest = s.authenticationRequest ∧
        (enterAuthentication2 e s).trace = s.trace := by
      unfold enterAuthentication2
      cases e.random <;> exact ⟨rfl, rfl, rfl, rfl⟩
    refine ⟨l, hst.2.2.2.trans hk, hal, .inr ?_⟩
    exact h.early (enterAuthentication2_plain s) ⟨hst.2.1, hst.2.2.1⟩ (.inr (by rw [hst.1]; rfl))
      (by rw [hst.1]; rfl)
  rename_i hre
  split
  · cases e.random with
    | none =>
      refine ⟨l, hk, hal, .inr (h.move ?_ (.inl rfl) (fun hv => ⟨hv, rfl⟩) fun ha => nomatch ha.late)⟩
      simp [enterDisconnected, Sm.enter, h.deauth]
    | some a =>
      have hr : Rekeying c n p l { s with aNonce := a, timeoutCtr := 0 } :=
        h.move rfl h.state (fun hv => ⟨hv, rfl⟩) fun ha => h.awaits ⟨ha.late, ha.received, ha.mic⟩
      exact enterPtkstart_rekey hr hk hal
  rename_i hp
  refine smStepState_rekey hn h ?_ hk hal
  exact ⟨h.init, by simpa using hd, h.deauth, h.auth, by simpa using hre, by simpa using hp⟩

/-- **The group machine** asks for a disconnection at most. -/
theorem smStepPtkGroup_rekey (h : RekeyOK c n p l₀ s) : RekeyOK c n p l₀ (smStepPtkGroup c e s) := by
  have hp := smStepPtkGroup_plain (c := c) (e := e) s
  have hs := smStepPtkGroup_same (c := c) (e := e) s
  obtain ⟨-, hreq⟩ := smStepPtkGroup_requests (c := c) (e := e) s
  generalize smStepPtkGroup c e s = t at hp hs hreq ⊢
  obtain ⟨k, htr, hq⟩ := hs.trace
  have hq' : ∀ o ∈ k, o.harmless = true := by
    intro o ho
    have := hq o ho
    cases o <;> simp_all [Out.inert, Out.harmless]
  refine h.extend htr hq' fun l hr => ?_
  have hvalid : t.ptkValid = true → s.ptkValid = true ∧ t.ptk = s.ptk := hp.ptk
  have hawaits : Awaits t → t.ptkValid = true := fun ha => hs.valid.trans (hr.awaits (hp.awaits ha))
  simp only [Sm.requests, Prod.mk.injEq] at hreq
  rcases hreq with ⟨h1, h2, h3, h4, h5, h6⟩ | ⟨h1, h2, h3, h4, h5, h6⟩
  · refine (hr.later hq').move (by rw [hp.neg, hp.psks, h1, h3, h4]) ?_ hvalid hawaits
    rw [h2, h5, hs.state]
    exact hr.state
  · exact (hr.later hq').move (by rw [hp.neg, hp.psks, h1, h3, h4]) (.inl h2) hvalid hawaits

/-! ## `wpa_sm_step` -/

theorem MicCheck.grows {b : Bool} (h : MicCheck c e f s (b, t)) : ∃ k, t.trace = k ++ s.trace := by
  cases h with
  | unchecked | failed => exact ⟨[], rfl⟩
  | noMic => exact ⟨[.micSkipped], rfl⟩
  | verified => exact ⟨[.micVerified s.ptk], rfl⟩
  | alt => exact ⟨_ :: searchOut (altSearch c e f s), rfl⟩
  | failedAlt => exact ⟨searchOut (altSearch c e f s), rfl⟩

theorem tryInstall_grows (site : Site) (ptk : Ptk) (s : Sm) :
    ∃ k, (tryInstall c e site ptk s).2.trace = k ++ s.trace := by
  rcases tryInstall_cases c e site ptk s with ⟨-, heq⟩ | ⟨-, ⟨-, heq⟩ | ⟨-, heq⟩⟩ <;> rw [heq]
  · exact ⟨[_], rfl⟩
  · exact ⟨[_, _], rfl⟩
  · exact ⟨[_, _], rfl⟩

/-- What the machine has done stays done. -/
theorem Act.grows (h : Act c ev e s t) : ∃ k, t.trace = k ++ s.trace := by
  cases h with
  | plain h | initFlag _ _ h =>
    obtain ⟨k, hk, -⟩ := h.trace
    exact ⟨k, hk⟩
  | associated => exact ⟨[.associated], rfl⟩
  | noted | micReset | negotiated | newPsks => exact ⟨[], rfl⟩
  | refused _ h | received _ _ h | requested _ _ h => exact h.grows
  | searched => exact ⟨searchOut (calcSearch c e s), rfl⟩
  | adopted => exact ⟨_ :: searchOut (calcSearch c e s), rfl⟩
  | done =>
    have hd : ∃ k, (doneEntered e s).trace = k ++ s.trace := by
      rcases doneEntered_keys e s with htr | ⟨-, htr⟩
      · exact ⟨[_], htr⟩
      · exact ⟨[_, _], htr⟩
    obtain ⟨k, hk⟩ := hd
    rcases enterPtkinitdone_cases c e s with ⟨-, -, heq⟩ | ⟨-, heq⟩ | ⟨-, -, hp⟩
    · rw [heq]
      exact ⟨portCalls .ptkinitdone s.neg ++ k, by rw [List.append_assoc, ← hk]; rfl⟩
    · rw [heq]
      exact ⟨.portValid .ptkinitdone :: k, by rw [List.cons_append, ← hk]; rfl⟩
    · obtain ⟨k', hk', -⟩ := hp.trace
      exact ⟨k' ++ k, by rw [hk', hk, List.append_assoc]⟩
  | install site ptk => exact tryInstall_grows site ptk s
  | fastPath =>
    obtain ⟨k, hk⟩ := tryInstall_grows (c := c) (e := e) .fastPath customTestPtk s
    have hg : ∀ u : Sm, ∃ k, (openPort .fastPath (installCustomGtk e u)).trace = k ++ u.trace := by
      intro u
      unfold installCustomGtk
      split
      · exact ⟨portCalls .fastPath u.neg ++ [_], by rw [List.append_assoc]; rfl⟩
      · exact ⟨portCalls .fastPath u.neg, rfl⟩
    obtain ⟨k', hk'⟩ := hg (tryInstall c e .fastPath customTestPtk s).2
    exact ⟨k' ++ k, by rw [hk', hk, List.append_assoc]⟩

theorem acts_grow (h : Acts c ev e s t) : ∃ k, t.trace = k ++ s.trace := by
  induction h with
  | refl => exact ⟨[], rfl⟩
  | tail _ ha ih =>
    obtain ⟨k, hk⟩ := ih
    obtain ⟨k', hk'⟩ := ha.grows
    exact ⟨k' ++ k, by rw [hk', hk, List.append_assoc]⟩

/-- **A round of the loop** keeps to the rule. -/
theorem smRound_rekey (hn : PskOnly n) (h : RekeyOK c n p l₀ s) : RekeyOK c n p l₀ (smRound c e s) := by
  obtain ⟨l, hk, hal, hd | hr⟩ := h
  · have hacts : Acts c .notify e s (smRound c e s) := smRound_acts s
    exact .broken hk hal hd (acts_grow hacts)
  · have hu : Rekeying c n p l s.unchanged :=
      hr.move rfl hr.state (fun hv => ⟨hv, rfl⟩) fun ha => hr.awaits ⟨ha.late, ha.received, ha.mic⟩
    exact smStepPtkGroup_rekey (smStepPtk_rekey hn hu hk hal)

theorem wpaSmStep_rekey (hn : PskOnly n) (h : RekeyOK c n p l₀ s) (hstep : wpaSmStep c e s = some t) :
    RekeyOK c n p l₀ t :=
  smLoop_inv (fun _ => smRound_rekey hn) h hstep

/-! ## The events -/

/-- **The MIC check** takes a PTK over that is derived from the new PSK only. -/
theorem MicCheck.rekey {b : Bool} (hn : PskOnly n) (h : Rekeying c n p l s)
    (hk : s.trace = l ++ l₀) (hal : Lib.Always (RekeyRule c n p) l) (h0 : s.micVerified = false)
    (hm : MicCheck c e f s (b, t)) : ∃ l', t.trace = l' ++ l₀ ∧
      Lib.Always (RekeyRule c n p) l' ∧ Rekeying c n p l' t ∧
      (t.micVerified = true → t.ptkValid = true) := by
  have hlook : ∀ k, (∀ o ∈ k, o.looked = true) → ∀ t : Sm, t.trace = k ++ s.trace →
      Rekeying c n p l t → (t.micVerified = true → t.ptkValid = true) → ∃ l', t.trace = l' ++ l₀ ∧
        Lib.Always (RekeyRule c n p) l' ∧ Rekeying c n p l' t ∧
        (t.micVerified = true → t.ptkValid = true) := by
    intro k hq t htr ht hv
    have hq' := harmless_looked hq
    exact ⟨k ++ l, by rw [htr, hk, List.append_assoc], always_harmless hq' hal, ht.later hq', hv⟩
  have hnever : s.micVerified = true → s.ptkValid = true := fun h => nomatch h0.symm.trans h
  cases hm with
  | unchecked | failed => exact ⟨l, hk, hal, h, hnever⟩
  | noMic hv hm =>
    rw [Sm.micLen, h.neg] at hm
    rcases hn.akm with hakm | hakm <;> rw [hakm] at hm <;> cases hm
  | verified hv =>
    refine hlook [.micVerified s.ptk] (by simp [Out.looked]) _ rfl ?_ fun _ => hv
    exact h.move rfl h.state (fun hv => ⟨hv, rfl⟩) fun _ => hv
  | failedAlt hv =>
    refine hlook (searchOut (altSearch c e f s)) searchPmk_looked _ rfl ?_ hnever
    exact h.move rfl h.state (fun hv => ⟨hv, rfl⟩) fun _ => hv
  | @alt pmk ptk hv hm hbad h4 ha hf =>
    obtain ⟨hmem, -, -, heq⟩ := searchPmk_found hf
    rw [hn.altCandidates h, List.mem_singleton] at hmem
    obtain rfl : pmk = p := Option.some.inj hmem
    rw [h.neg] at heq
    have hlooked : ∀ o ∈ searchOut (altSearch c e f s), o.looked = true := searchPmk_looked
    have hq := harmless_looked hlooked
    refine ⟨.newPtk (.derived pmk s.aNonce s.altSNonce) ptk :: (searchOut (altSearch c e f s) ++ l),
      ?_, ⟨.inr trivial, always_harmless hq hal⟩, ?_, fun _ => rfl⟩
    · rw [List.cons_append, List.append_assoc, ← hk]
      rfl
    · exact ⟨h.neg, h.psks, h.init, h.deauth, h.auth, h.state,
        fun _ => ⟨s.aNonce, s.altSNonce, rfl, heq⟩, fun _ => rfl⟩

/-- What `wpa_receive` hands on keeps to the rule. -/
def Next.Rekey (c : Conf) (n : Negotiated) (p : Pmk) (l₀ : List Out) : Next → Prop
  | .ret t | .step t => RekeyOK c n p l₀ t
  | .gone => True

/-- A request does not wait for PTKINITDONE. -/
theorem handleRequest_rekey (h : Rekeying c n p l s) (hk : s.trace = l ++ l₀)
    (hal : Lib.Always (RekeyRule c n p) l) (hf : f.request = true) :
    (handleRequest c e f s).Rekey c n p l₀ := by
  have hstore : ∀ t : Sm, t.trace = s.trace → (t.neg, t.psks, t.init,
        t.deauthenticationRequest, t.authenticationRequest) =
        (s.neg, s.psks, s.init, s.deauthenticationRequest, s.authenticationRequest) →
      (t.disconnect = true ∨ t.reAuthenticationRequest = true ∨ t.state.rekeying = true) →
      (t.ptkValid = true → s.ptkValid = true ∧ t.ptk = s.ptk) →
      RekeyOK c n p l₀ (storeFrame f t) := by
    intro t htr hsame hst hv
    refine ⟨l, htr.trans hk, hal, .inr (h.move (t := storeFrame f t) hsame hst hv fun ha => ?_)⟩
    have := ha.received
    simp [Sm.pairwiseReceived, storeFrame, hf] at this
  have hreq : RekeyOK c n p l₀ (storeFrame f (wpaRequestNewPtk c (useRequestCounter f s))) := by
    unfold wpaRequestNewPtk
    split
    · exact hstore _ rfl rfl (.inl rfl) fun hv => ⟨hv, rfl⟩
    · exact hstore _ rfl rfl h.state (by rintro ⟨⟩)
  unfold handleRequest
  split
  · exact ⟨l, hk, hal, .inr h⟩
  simp only
  split
  · split
    · trivial
    · exact hreq
  split
  · exact hreq
  · exact hstore _ rfl rfl h.state fun hv => ⟨hv, rfl⟩

/-- **A received frame** keeps to the rule. -/
theorem wpaReceive_rekey (hn : PskOnly n) (hr : Rest s) (h : Rekeying c n p l s)
    (hk : s.trace = l ++ l₀) (hal : Lib.Always (RekeyRule c n p) l) :
    (wpaReceive c e f s).Rekey c n p l₀ := by
  have hnote : ∀ r, checkReplay s f = some r → r.trace = s.trace ∧ Rekeying c n p l r := by
    intro r hrep
    obtain ⟨u, a, v, k, rfl, -⟩ := checkReplay_eq hrep
    refine ⟨rfl, h.move rfl h.state (fun hv => ⟨hv, rfl⟩) fun ha => ?_⟩
    exact absurd ⟨ha.late, ha.received, ha.mic⟩ hr.awaits
  have hmic : ∀ r q, checkReplay s f = some r →
      checkMic c e f { r with micVerified := false } = q → ∃ l', q.2.trace = l' ++ l₀ ∧
        Lib.Always (RekeyRule c n p) l' ∧ Rekeying c n p l' q.2 ∧
        (q.2.micVerified = true → q.2.ptkValid = true) := by
    rintro r ⟨b, t⟩ hrep hq
    obtain ⟨htr, hr⟩ := hnote r hrep
    have hclear : Rekeying c n p l { r with micVerified := false } :=
      hr.move rfl hr.state (fun hv => ⟨hv, rfl⟩) fun ha => nomatch ha.mic
    exact (MicCheck.of_eq hq).rekey hn hclear (htr.trans hk) hal rfl
  have hcases := wpaReceive_cases c e f s
  generalize wpaReceive c e f s = q at hcases ⊢
  cases hcases with
  | dropped => exact ⟨l, hk, hal, .inr h⟩
  | noted hrep =>
    obtain ⟨htr, hr⟩ := hnote _ hrep
    exact ⟨l, htr.trans hk, hal, .inr hr⟩
  | entropy hrep =>
    obtain ⟨htr, -⟩ := hnote _ hrep
    exact wpaStaDisconnect_rekey (htr.trans hk) hal
  | refused hrep _ hq =>
    obtain ⟨l', htr, hal', hr, -⟩ := hmic _ _ hrep hq
    exact ⟨l', htr, hal', .inr hr⟩
  | request hrep _ hf hq =>
    obtain ⟨l', htr, hal', hr, -⟩ := hmic _ _ hrep hq
    exact handleRequest_rekey hr htr hal' hf
  | stored _ hrep _ _ hq =>
    -- the frame may go on to PTKINITDONE only if its MIC has been checked with a valid PTK
    obtain ⟨l', htr, hal', hr, hv⟩ := hmic _ _ hrep hq
    exact ⟨l', htr, hal', .inr (hr.move rfl hr.state (fun hv => ⟨hv, rfl⟩) fun ha => hv ha.mic)⟩

/-- Events between a setptk line and the next one. -/
def Event.goesOn : Event → Bool
  | .eapolKey _ | .eapolTimeout | .rekeyPtk | .groupUpdate | .notify => true
  | _ => false

/-- **One event** keeps to the rule. -/
theorem step_rekey (hl : c.link = .lifi) (hn : PskOnly n) (hr : Rest s) (h : RekeyOK c n p l₀ s)
    (hgo : ev.goesOn = true) (hstep : step c s (ev, e) = some t) : RekeyOK c n p l₀ t := by
  obtain ⟨l, hk, hal, hd | hrk⟩ := h
  · exact .broken hk hal hd (acts_grow (step_acts hr hstep).1)
  -- the LiFi link has no fast path
  have hwifi : ¬ (c.link = .wifi ∧ s.neg.pairwise.validPairwise = true) := by
    rw [hl]
    rintro ⟨h, -⟩
    cases h
  have hgo' : ∀ u : Sm, RekeyOK c n p l₀ u → wpaSmStep c e u = some t → RekeyOK c n p l₀ t :=
    fun _ hu hs => wpaSmStep_rekey hn hu hs
  have hno : ∀ u : Sm, u.state = s.state → u.pairwiseReceived = s.pairwiseReceived →
      u.micVerified = s.micVerified → ¬ Awaits u := fun u h1 h2 h3 ha =>
    hr.awaits ⟨h1 ▸ ha.late, h2 ▸ ha.received, h3 ▸ ha.mic⟩
  -- events that only set a flag or a timer
  have hsame : ∀ u : Sm, u.trace = s.trace → (u.neg, u.psks, u.init,
        u.deauthenticationRequest, u.authenticationRequest) =
        (s.neg, s.psks, s.init, s.deauthenticationRequest, s.authenticationRequest) →
      (u.disconnect = true ∨ u.reAuthenticationRequest = true ∨ u.state.rekeying = true) →
      (u.ptkValid = true → s.ptkValid = true ∧ u.ptk = s.ptk) → ¬ Awaits u → RekeyOK c n p l₀ u :=
    fun u htr hf hst hv ha => ⟨l, htr.trans hk, hal, .inr (hrk.move hf hst hv fun h => absurd h ha)⟩
  cases ev with
  -- no event of a new association is among them
  | assocReq | sm | staAssociated | ptkTcp | setPsks => cases hgo
  | eapolKey f =>
    have hrec := wpaReceive_rekey (e := e) (f := f) hn hr hrk hk hal
    rcases Next.run_cases hstep with hq | ⟨u, hq, hstep⟩ <;> rw [hq] at hrec
    · exact hrec
    · exact hgo' u hrec hstep
  | eapolTimeout =>
    simp only [step] at hstep
    split at hstep
    · cases hstep
    · refine hgo' _ ?_ hstep
      exact hsame _ rfl rfl hrk.state (fun hv => ⟨hv, rfl⟩) (hno _ rfl rfl rfl)
  | rekeyPtk =>
    simp only [step] at hstep
    split at hstep
    · rw [wpaRekeyPtk, if_neg hwifi] at hstep
      refine hgo' _ ?_ hstep
      unfold wpaRequestNewPtk
      split
      · exact hsame _ rfl rfl (.inl rfl) (fun hv => ⟨hv, rfl⟩) (hno _ rfl rfl rfl)
      · exact hsame _ rfl rfl hrk.state (by rintro ⟨⟩) (hno _ rfl rfl rfl)
    · cases hstep
  | groupUpdate =>
    simp only [step] at hstep
    split at hstep
    · refine hgo' _ ?_ hstep
      exact hsame _ rfl rfl hrk.state (fun hv => ⟨hv, rfl⟩) (hno _ rfl rfl rfl)
    · obtain rfl := Option.some.inj hstep
      exact hsame _ rfl rfl hrk.state (fun hv => ⟨hv, rfl⟩) (hno _ rfl rfl rfl)
  | notify => exact hgo' _ ⟨l, hk, hal, .inr hrk⟩ hstep

/-- **The setptk line** itself: the PSK is replaced and WPA_REAUTH_EAPOL asks for a handshake. -/
theorem setptk_rekey (hn : PskOnly s.neg) (hr : Rest s) (hst : s.started = true) {e e' : Env}
    (h : run c s [(.setPsks [p], e), (.sm .reauthEapol, e')] = some t) :
    RekeyOK c s.neg p s.trace t := by
  have hasked : ∀ u : Sm, (u.neg, u.psks, u.init, u.deauthenticationRequest,
        u.authenticationRequest, u.ptkValid, u.trace) =
        (s.neg, [p], s.init, s.deauthenticationRequest, s.authenticationRequest, false,
          .ptkCleared :: s.trace) →
      (u.state, u.pairwiseReceived, u.micVerified) =
        (s.state, s.pairwiseReceived, s.micVerified) →
      u.disconnect = true ∨ u.reAuthenticationRequest = true → RekeyOK c s.neg p s.trace u := by
    intro u hu hf hask
    simp only [Prod.mk.injEq] at hu hf
    obtain ⟨h1, h2, h3, h4, h5, h6, h7⟩ := hu
    refine ⟨[.ptkCleared], h7, ⟨.inr trivial, trivial⟩, .inr ⟨h1, h2, h3.trans hr.init,
      h4.trans hr.deauth, h5.trans hr.auth, hask.imp id .inl, fun hv => ?_, fun ha => ?_⟩⟩
    · rw [h6] at hv
      cases hv
    · exact absurd ⟨hf.1 ▸ ha.late, hf.2.1 ▸ ha.received, hf.2.2 ▸ ha.mic⟩ hr.awaits
  have hevent : ∃ u, wpaAuthSmEvent c e' .reauthEapol { s with psks := [p] } = wpaSmStep c e' u ∧
      RekeyOK c s.neg p s.trace u := by
    unfold wpaAuthSmEvent
    simp only [hst, Bool.not_true, Bool.false_eq_true, if_false, reduceCtorEq, and_false, if_true]
    split
    · exact ⟨_, rfl, hasked _ rfl rfl (.inl rfl)⟩
    · exact ⟨_, rfl, hasked _ rfl rfl (.inr rfl)⟩
  obtain ⟨u, hu, hok⟩ := hevent
  obtain ⟨s₁, h1, h2⟩ := Lib.run_cons.1 h
  obtain ⟨s₂, h3, h4⟩ := Lib.run_cons.1 h2
  obtain rfl := Option.some.inj h1
  obtain rfl := Option.some.inj h4
  exact wpaSmStep_rekey hn hok (hu.symm.trans h3)

/-- Every continuation keeps to the rule. -/
theorem run_rekey {es : List (Event × Env)} (hl : c.link = .lifi) (hn : PskOnly n)
    (hgo : ∀ x ∈ es, x.1.goesOn = true) (hr : Rest s) (h : RekeyOK c n p l₀ s)
    (hrun : run c s es = some t) : RekeyOK c n p l₀ t := by
  have hinv : Rest t ∧ RekeyOK c n p l₀ t := by
    refine Lib.run_inv_mem (I := fun s => Rest s ∧ RekeyOK c n p l₀ s) ?_ ⟨hr, h⟩ hrun
    rintro s ⟨ev, e⟩ hx s' ⟨hr, hs⟩ hstep
    exact ⟨(step_acts hr hstep).2, step_rekey hl hn hr hs (hgo _ hx) hstep⟩
  exact hinv.2

/-- hostapd accepts the line for the station of the machine `s`, in a BSS with one PSK; `psks`
is what it finds for the station from then on. -/
structure AcceptsSetptk (c : Conf) (pbkdf2 : Text → Bytes → ℕ → Bytes) (hapd : Rotation.Hapd Sm)
    (line pass : Text) (s : Sm) (psks : List Pmk) : Prop where
  command : Rotation.SetptkFor line c.sta pass
  sta : hapd.sta c.sta = some (some s)
  one : hapd.wpaPskNext = []
  serves : hapd.wpaPsk.serves c.sta = true
  psks : ∃ reauth hapd', Rotation.lifiHandleLine pbkdf2 reauth hapd line = .ok hapd' ∧
    psks.map (·.1) = Rotation.hostapdPsks hapd' c.sta

variable {psks psks' : List Pmk} {pbkdf2 : Text → Bytes → ℕ → Bytes} {hapd : Rotation.Hapd Sm}
  {line pass : Text}

/-- The new list holds the PBKDF2 of the passphrase alone. -/
theorem AcceptsSetptk.psk (h : AcceptsSetptk c pbkdf2 hapd line pass s psks) :
    ∃ p, psks = [p] ∧ p.1 = pbkdf2 pass hapd.ssid 4096 := by
  obtain ⟨reauth, hapd', hline, hpsks⟩ := h.psks
  have hlist : psks.map (·.1) = [pbkdf2 pass hapd.ssid 4096] := by
    rw [hpsks]
    rw [Rotation.lifiHandleLine_for pbkdf2 reauth h.command h.sta] at hline
    split at hline
    · cases hline
    split at hline
    · cases hline
    obtain rfl := Except.ok.inj hline
    have hserves : ({ hapd.wpaPsk with psk := pbkdf2 pass hapd.ssid 4096 } :
        Rotation.WpaPsk).serves c.sta = true := h.serves
    simp [Rotation.hostapdPsks, h.one, hserves]
  have hlen : psks.length = 1 := by
    rw [← List.length_map, hlist]
    rfl
  obtain ⟨p, rfl⟩ := List.length_eq_one_iff.1 hlen
  exact ⟨p, rfl, List.head_eq_of_cons_eq hlist⟩

/-- **Make before break.** A setptk line is accepted for a station, whatever its machine has
been through, and then frames and timeouts come. Until the machine disconnects the station the
pairwise key is not removed, PTKINITDONE alone hands a key over, and every such key is derived
from the PBKDF2 of the passphrase on the line. -/
theorem make_before_break {es es' : List (Event × Env)} {e e' : Env} (hl : c.link = .lifi)
    (hrun : run c (Sm.new n psks) es = some s) (hn : PskOnly s.neg) (hst : s.started = true)
    (hset : AcceptsSetptk c pbkdf2 hapd line pass s psks') (hgo : ∀ x ∈ es', x.1.goesOn = true)
    (hrun' : run c s ((.setPsks psks', e) :: (.sm .reauthEapol, e') :: es') = some t) :
    ∃ p : Pmk, p.1 = pbkdf2 pass hapd.ssid 4096 ∧
      ∃ new, t.trace = new ++ s.trace ∧ Lib.Always (RekeyRule c s.neg p) new := by
  have hr : Rest s := run_rest (rest_new n psks) hrun
  obtain ⟨p, rfl, hp⟩ := hset.psk
  have hsplit : run c s ([(.setPsks [p], e), (.sm .reauthEapol, e')] ++ es') = some t := hrun'
  obtain ⟨s₁, h1, h2⟩ := Lib.run_append.1 hsplit
  have hok : RekeyOK c s.neg p s.trace s₁ := setptk_rekey hn hr hst h1
  obtain ⟨new, hnew, hal, -⟩ := run_rekey hl hn hgo (run_rest hr h1) hok h2
  exact ⟨p, hp, new, hnew, hal⟩

/-! ## Runs -/

/-- A BSS of the SSID `lightguard` with one PSK for everybody, and a station in it. -/
def hapdPlain (s : Sm) : Rotation.Hapd Sm where
  ssid := [0x6C, 0x69, 0x67, 0x68, 0x74, 0x67, 0x75, 0x61, 0x72, 0x64]
  wpaPsk := ⟨true, Addr.zero, []⟩
  wpaPskNext := []
  sta a := if a = (plainConf .lifi plainPrims).sta then some (some s) else none
  cachedAddr := Addr.zero
  cachedPassphrase := []
  cachedValid := false

/-- PBKDF2-SHA1 of the passphrase `lifi2024` on this SSID. -/
def pbkdf2Plain (pass : Text) (ssid : Bytes) (iterations : ℕ) : Bytes :=
  if pass = "lifi2024".toList ∧ ssid = (hapdPlain (Sm.new wpa2Ccmp [])).ssid ∧ iterations = 4096 then
    plainPmk.1
  else []

/-- The line of the examples. -/
def plainLine : Text := "setptk 02:00:00:00:00:02 lifi2024\n".toList

theorem plainLine_accepted (P : Prims) (s : Sm) : AcceptsSetptk (plainConf .lifi P) pbkdf2Plain
    (hapdPlain s) plainLine "lifi2024".toList s [plainPmk] where
  command := ⟨"02:00:00:00:00:02".toList, "02:00:00:00:00:02 lifi2024\n".toList,
    "lifi2024\n".toList, [], by decide, by decide, by decide, rfl⟩
  sta := show (if (plainConf .lifi P).sta = (plainConf .lifi plainPrims).sta then some (some s)
    else none) = _ from if_pos rfl
  one := rfl
  serves := rfl
  psks := ⟨id, _, rfl, rfl⟩

/-- A PSK the station no longer has. -/
def oldPmk : Pmk := ⟨List.replicate 32 1, by decide⟩

/-- Messages 2/4 and 4/4 of the handshake under the new PSK. -/
def newHandshake : List (Event × Env) :=
  [(.eapolKey (plainMsg2 2 (List.replicate 32 9) (plainPtk.take 16)), pushing),
    (.eapolKey (plainMsg4 3 (plainPtk.take 16)), pushing)]

/-- `make_before_break` for a line that comes in the middle of a handshake under the old PSK. -/
theorem make_before_break_plain : ∃ s t,
    run (plainConf .lifi plainPrims) (Sm.new wpa2Ccmp [oldPmk]) [(.staAssociated, calm)] = some s ∧
      run (plainConf .lifi plainPrims) s
        ((.setPsks [plainPmk], calm) :: (.sm .reauthEapol, calm) :: newHandshake) = some t ∧
      t.pairwiseSet = true ∧ ∃ p : Pmk, p.1 = plainPmk.1 ∧ ∃ new, t.trace = new ++ s.trace ∧
        Lib.Always (RekeyRule (plainConf .lifi plainPrims) s.neg p) new := by
  have heval : (run (plainConf .lifi plainPrims) (Sm.new wpa2Ccmp [oldPmk])
      [(.staAssociated, calm)]).map (fun s => (s.neg.keyMgmt, s.neg.useExtKeyId, s.started)) =
      some (.psk, false, true) := rfl
  obtain ⟨s, hs, hval⟩ := Option.map_eq_some_iff.1 heval
  simp only [Prod.mk.injEq] at hval
  have hrun : ((run (plainConf .lifi plainPrims) (Sm.new wpa2Ccmp [oldPmk])
      [(.staAssociated, calm)]).bind fun s => run (plainConf .lifi plainPrims) s
        ((.setPsks [plainPmk], calm) :: (.sm .reauthEapol, calm) :: newHandshake)).map
      Sm.pairwiseSet = some true := rfl
  rw [hs] at hrun
  obtain ⟨t, ht, hset⟩ := Option.map_eq_some_iff.1 hrun
  have hgo : ∀ x ∈ newHandshake, x.1.goesOn = true := by decide
  exact ⟨s, t, hs, ht, hset, make_before_break rfl hs ⟨.inl hval.1, hval.2.1⟩ hval.2.2
    (plainLine_accepted plainPrims s) hgo (e := calm) ht⟩

/-! With Extended Key ID every line flips the Key ID, and the key goes to the driver before
message 3/4. A second line in the middle of the handshake of the first one makes the Key ID that
of the key in use. -/

/-- A station with Extended Key ID. -/
def extRsne : Bytes := plainRsne.take 20 ++ [0x00, 0x20]

def extCcmp : Negotiated := { wpa2Ccmp with useExtKeyId := true, wpaIe := some extRsne }

/-- Its message 2/4. -/
def extMsg2 (replayCounter : ℕ) (nonce mic : Bytes) : EapolKey :=
  { plainMsg2 replayCounter nonce mic with
    keyData := ⟨22, some ⟨some extRsne, none, none, none, none⟩, none⟩ }

/-- A handshake, a first setptk line, and its message 2/4. -/
def extRun : List (Event × Env) :=
  [(.staAssociated, pushing),
    (.eapolKey (extMsg2 1 (List.replicate 32 9) (plainPtk.take 16)), pushing),
    (.eapolKey (plainMsg4 2 (plainPtk.take 16)), pushing),
    (.setPsks [plainPmk], calm), (.sm .reauthEapol, calm),
    (.eapolKey (extMsg2 3 (List.replicate 32 9) (plainPtk.take 16)), pushing)]

/-- The message 2/4 that follows the second line. -/
def extAgain : List (Event × Env) :=
  [(.eapolKey (extMsg2 5 (List.replicate 32 8) (otherPtk.take 16)), pushing)]

/-- The key in use is overwritten before its successor is confirmed. -/
theorem extKeyId_overwritten : ¬ ∀ (c : Conf) (n : Negotiated) (psks psks' : List Pmk)
    (es es' : List (Event × Env)) (e e' : Env) (s t : Sm)
    (pbkdf2 : Text → Bytes → ℕ → Bytes) (hapd : Rotation.Hapd Sm) (line pass : Text),
    c.link = .lifi → c.denyPtk0Rekey = false → run c (Sm.new n psks) es = some s →
      s.neg.keyMgmt = .psk → s.started = true →
      AcceptsSetptk c pbkdf2 hapd line pass s psks' → (∀ x ∈ es', x.1.goesOn = true) →
      run c s ((.setPsks psks', e) :: (.sm .reauthEapol, e') :: es') = some t →
      ∀ k l site idx key ok, t.trace = k ++ .setKey site idx key ok :: (l ++ s.trace) →
        .disconnect ∉ l → (∃ site' key' ok', .setKey site' idx key' ok' ∈ l ++ s.trace) →
          site = .ptkinitdone := by
  intro hall
  -- two handshakes with Extended Key ID, and the trace of the second one by evaluation
  have heval : (run (plainConf .lifi bothPrims) (Sm.new extCcmp [plainPmk]) extRun).map
      (fun s => (s.neg.keyMgmt, s.started, s.trace[12]?)) =
      some (.psk, true, some (.setKey .ptkinitnegotiating 0 plainKeys.tk true)) := rfl
  obtain ⟨s, hs, hval⟩ := Option.map_eq_some_iff.1 heval
  simp only [Prod.mk.injEq] at hval
  have hrun : ((run (plainConf .lifi bothPrims) (Sm.new extCcmp [plainPmk]) extRun).bind fun s =>
      (run (plainConf .lifi bothPrims) s
        ((.setPsks [plainPmk], calm) :: (.sm .reauthEapol, calm) :: extAgain)).map fun t =>
      (t.trace[1]?, decide (t.trace.drop 7 = s.trace),
        decide (.disconnect ∈ (t.trace.drop 2).take 5))) =
      some (some (.setKey .ptkinitnegotiating 0 (otherPtk.drop 32) true), true, false) := rfl
  rw [hs] at hrun
  obtain ⟨t, ht, hval'⟩ := Option.map_eq_some_iff.1 hrun
  simp only [Prod.mk.injEq, decide_eq_true_eq, decide_eq_false_iff_not] at hval'
  obtain ⟨hkey, htrace, hdis⟩ := hval'
  have hold : Out.setKey .ptkinitnegotiating 0 plainKeys.tk true ∈ s.trace :=
    List.mem_of_getElem? hval.2.2
  -- where the key of the second handshake stands in it
  have hsplit : t.trace = t.trace.take 1 ++ .setKey .ptkinitnegotiating 0 (otherPtk.drop 32) true ::
      ((t.trace.drop 2).take 5 ++ s.trace) := by
    obtain ⟨hlt, hget⟩ := List.getElem?_eq_some_iff.1 hkey
    have hdrop : t.trace.drop 1 = t.trace[1] :: t.trace.drop 2 := List.drop_eq_getElem_cons hlt
    have hrest : (t.trace.drop 2).take 5 ++ s.trace = t.trace.drop 2 := by
      rw [← htrace, show 7 = 2 + 5 from rfl, ← List.drop_drop]
      exact List.take_append_drop 5 (t.trace.drop 2)
    rw [hrest, ← hget, ← hdrop, List.take_append_drop]
  have hgo : ∀ x ∈ extAgain, x.1.goesOn = true := by decide
  have := hall _ _ _ _ _ _ calm _ _ _ _ _ _ _ rfl rfl hs hval.1 hval.2.1
    (plainLine_accepted bothPrims s) hgo ht _ _ _ _ _ _ hsplit hdis
    ⟨_, _, _, List.mem_append_right _ hold⟩
  cases this

end Lightguard.Auth
