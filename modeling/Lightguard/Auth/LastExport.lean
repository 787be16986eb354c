import Lightguard.Auth.Export

/-!
# Whether the exported key is the installed one

On the LiFi link the last push need not be the PTK PTKINITDONE installs: a search may push
other PTKs after it, and its own push may fail.

* `CalcSound`, `AltSound`: the searches that leave the PTK in use as the last one pushed.
* `wpaSmStep_fresh`: `wpa_sm_step` enters PTKCALCNEGOTIATING in its first round or never.
* `exported_installed`: in a run with only such searches PTKINITDONE installs the PTK pushed last.
-/

namespace Lightguard.Auth

open Wpa

variable {c : Conf} {ev : Event} {e : Env} {f : EapolKey} {s s' t : Sm} {U : Pmk → Prop}
  {l l' : List Out}

/-! ## Searches -/

/-- WPA-PSK with a TK of 16 octets. -/
structure Psk16 (n : Negotiated) : Prop where
  psk : n.keyMgmt.wpaPsk = true
  tk : n.pairwise.keyLen = 16

/-- Whether the derivation that ends the search finds port 8877 open. -/
def searchConnected (c : Conf) (s : Sm) (sNonce : Bytes) (f : EapolKey) :
    List (Option Pmk) → List DeriveEnv → Bool
  | some pmk :: pmks, ds =>
    let d := wpaDerivePtk c s pmk sNonce (ds.headD default)
    if d.ret < 0 then false
    else if s.micLen ≠ 0 ∧ c.prims.verifyKeyMic d.ptk f then (ds.headD default).connected
    else searchConnected c s sNonce f pmks ds.tail
  | _, _ => false

/-- The search of PTKCALCNEGOTIATING leaves the PTK in use as the last one pushed: the PTK that
is taken over was pushed, and while another PTK is valid nothing is derived in vain. -/
def CalcSound (c : Conf) (e : Env) (s : Sm) : Prop :=
  match (calcSearch c e s).2, checkIes s with
  | some _, .same =>
    s.lastRxEapolKey.any (searchConnected c s s.sNonce · s.candidates e.derive) = true
  -- the station is disconnected
  | some _, .mismatch => True
  | _, _ => s.ptkValid = true → (calcSearch c e s).1 = []

/-- The same of the search of `wpa_try_alt_snonce`, for a frame that makes it search. -/
def AltSound (c : Conf) (e : Env) (f : EapolKey) (s : Sm) : Prop :=
  s.ptkValid = true → s.updateSnonce = false → s.micLen ≠ 0 → c.prims.verifyKeyMic s.ptk f = false →
    classify f = .pairwise4 → s.altSnonceValid = true →
      match (altSearch c e f s).2 with
      | some _ => searchConnected c s s.altSNonce f s.altCandidates e.deriveAlt = true
      | none => (altSearch c e f s).1 = []

/-- What the search has pushed last is what it has found. -/
theorem searchPmk_last (hl : c.link = .lifi) (hn : Psk16 s.neg) {n : Bytes} {f : EapolKey}
    {cand : List (Option Pmk)} {ds : List DeriveEnv} {pmk : Pmk} {ptk : Ptk}
    (hf : (searchPmk c s n f cand ds).2 = some (pmk, ptk))
    (hc : searchConnected c s n f cand ds = true) :
    ∃ l, (searchPmk c s n f cand ds).1 = .pushed ptk.octets :: l := by
  induction cand generalizing ds with
  | nil => simp [searchPmk] at hf
  | cons q cand ih =>
    cases q with
    | none => simp [searchPmk] at hf
    | some q =>
      unfold searchPmk at hf ⊢
      unfold searchConnected at hc
      simp only at hf hc ⊢
      split at hf
      · cases hf
      rename_i hret
      rw [if_neg hret] at hc ⊢
      split at hf
      · rename_i hv
        rw [if_pos hv] at hc ⊢
        simp only [Option.some.injEq, Prod.mk.injEq] at hf
        obtain ⟨rfl, rfl⟩ := hf
        refine ⟨[], ?_⟩
        -- the derivation has not failed and finds the port open
        unfold wpaDerivePtk wpaPmkToPtk at hret ⊢
        split at hret
        · simp at hret
        · rename_i hk
          have hoct := @exported_eq c.prims _ _ c.addr c.sta q.1 s.aNonce n hn.psk hn.tk
          simp only [if_neg hk, hl, hc, and_self, if_true, Option.map_some, Option.toList_some, hoct,
            Ptk.octets]
      · rename_i hv
        rw [if_neg hv] at hc ⊢
        obtain ⟨l, hl'⟩ := ih hf hc
        exact ⟨l ++ _, by rw [hl']; rfl⟩

theorem searchConnected_congr (h1 : t.neg = s.neg) (h2 : t.aNonce = s.aNonce) (h3 : t.pmk = s.pmk)
    {n : Bytes} {f : EapolKey} {cand : List (Option Pmk)} {ds : List DeriveEnv} :
    searchConnected c t n f cand ds = searchConnected c s n f cand ds := by
  induction cand generalizing ds with
  | nil => rfl
  | cons q cand ih =>
    cases q with
    | none => rfl
    | some q =>
      unfold searchConnected
      rw [wpaDerivePtk_congr h1 h2, micLen_congr h1 h3, ih]

/-! ## The invariant -/

/-- PTKINITDONE is entered with the PTK that was pushed last. -/
def DoneRule : Out → List Out → Prop
  | .ptkinitdone K, l => lastPush l = some K.octets
  | _, _ => True

/-- The invariant: the valid PTK is the one pushed last. -/
structure FreshOK (s : Sm) : Prop where
  always : Lib.Always DoneRule s.trace
  last : s.ptkValid = true → lastPush s.trace = some s.ptk.octets
  neg : Psk16 s.neg

/-- Entries that push nothing and are no PTKINITDONE. -/
def Out.mute : Out → Bool
  | .pushed _ | .ptkinitdone _ => false
  | _ => true

theorem mute_of_quiet {o : Out} {b : Bool} (h : o.quiet b = true) : o.mute = true := by
  cases o <;> simp_all [Out.quiet, Out.mute]

theorem lastPush_mute (hl : ∀ o ∈ l, o.mute = true) : lastPush (l ++ l') = lastPush l' := by
  refine Lib.latest_append fun o ho => ?_
  have := hl o ho
  cases o <;> simp_all [Out.mute]

theorem doneRule_mute {o : Out} (h : o.mute = true) : DoneRule o l := by
  cases o <;> simp_all [Out.mute, DoneRule]

theorem doneRule_looked {o : Out} (h : o.looked = true) : DoneRule o l := by
  cases o <;> simp_all [Out.looked, DoneRule]

namespace FreshOK

theorem extend (h : FreshOK s) (hl : ∀ o ∈ l, o.mute = true) (htr : t.trace = l ++ s.trace)
    (hv : t.ptkValid = true → s.ptkValid = true ∧ t.ptk = s.ptk) (hn : t.neg = s.neg) : FreshOK t where
  always := htr ▸ Lib.always_append (fun o ho _ => doneRule_mute (hl o ho)) h.always
  last hset := by
    obtain ⟨h1, h2⟩ := hv hset
    rw [htr, lastPush_mute hl, h2, h.last h1]
  neg := hn ▸ h.neg

theorem congr (h : FreshOK s) (htr : t.trace = s.trace)
    (hv : t.ptkValid = true → s.ptkValid = true ∧ t.ptk = s.ptk) (hn : t.neg = s.neg) : FreshOK t :=
  h.extend (l := []) (by simp) htr hv hn

theorem plain (h : FreshOK s) (hp : Plain e s t) : FreshOK t := by
  obtain ⟨l, htr, hq, -⟩ := hp.trace
  exact h.extend (fun o ho => mute_of_quiet (hq o ho)) htr hp.ptk hp.neg

/-- A PTK that was found is taken over. -/
theorem adopt (h : FreshOK s) {src : PtkSource} {ptk : Ptk} {r : List Out × Option (Pmk × Ptk)}
    (hlook : ∀ o ∈ searchOut r, o.looked = true) {pmk : Pmk} (hr : r.2 = some (pmk, ptk))
    (hpush : ∃ l, r.1 = .pushed ptk.octets :: l)
    (htr : t.trace = .newPtk src ptk :: (searchOut r ++ s.trace)) (hk : t.ptk = ptk)
    (hn : t.neg = s.neg) : FreshOK t := by
  obtain ⟨l, hl⟩ := hpush
  refine ⟨?_, fun _ => ?_, hn ▸ h.neg⟩
  · rw [htr]
    exact ⟨trivial, Lib.always_append (fun o ho _ => doneRule_looked (hlook o ho)) h.always⟩
  · rw [htr, hk, searchOut, hr, hl]
    rfl

/-- A search in vain. -/
theorem vain (h : FreshOK s) {r : List Out × Option (Pmk × Ptk)}
    (hlook : ∀ o ∈ searchOut r, o.looked = true) (hr : s.ptkValid = true → r.1 = [])
    (htr : t.trace = searchOut r ++ s.trace)
    (hv : t.ptkValid = true → s.ptkValid = true ∧ t.ptk = s.ptk) (hn : t.neg = s.neg) : FreshOK t := by
  refine ⟨?_, fun hset => ?_, hn ▸ h.neg⟩
  · rw [htr]
    exact Lib.always_append (fun o ho _ => doneRule_looked (hlook o ho)) h.always
  · obtain ⟨h1, h2⟩ := hv hset
    have hmute : ∀ o ∈ searchOut r, o.mute = true := by
      intro o ho
      rw [searchOut, hr h1, List.append_nil] at ho
      obtain ⟨q, -, rfl⟩ := Option.map_eq_some_iff.1 (Option.mem_toList.1 ho)
      rfl
    rw [htr, lastPush_mute hmute, h2, h.last h1]

/-- PTKINITDONE is entered while the PTK is valid. -/
theorem done (h : FreshOK s) (hv : s.ptkValid = true) : FreshOK (doneEntered e s) := by
  have h1 : FreshOK (s.out (.ptkinitdone s.ptk)) := ⟨⟨h.last hv, h.always⟩, h.last, h.neg⟩
  rcases doneEntered_keys e s with htr | ⟨-, htr⟩
  · exact h1.congr htr (fun hv => ⟨hv, rfl⟩) rfl
  · exact h1.extend (l := [_]) (by simp [Out.mute]) htr (fun hv => ⟨hv, rfl⟩) rfl

theorem enterPtkinitdone (h : FreshOK s) (hv : s.ptkValid = true) :
    FreshOK (enterPtkinitdone c e s) := by
  have hd : FreshOK (doneEntered e s) := h.done hv
  rcases enterPtkinitdone_cases c e s with ⟨-, -, heq⟩ | ⟨-, heq⟩ | ⟨-, -, hp⟩
  · rw [heq]
    refine hd.extend (l := portCalls .ptkinitdone s.neg) ?_ rfl (fun hv => ⟨hv, rfl⟩) rfl
    unfold portCalls
    split <;> simp [Out.mute]
  · rw [heq]
    exact hd.extend (l := [.portValid .ptkinitdone]) (by simp [Out.mute]) rfl (fun hv => ⟨hv, rfl⟩) rfl
  · exact hd.plain hp

/-- **PTKCALCNEGOTIATING** with a sound search. -/
theorem enterPtkcalcnegotiating (h : FreshOK s) (hl : c.link = .lifi) (hs : CalcSound c e s) :
    FreshOK (enterPtkcalcnegotiating c e s) := by
  have hlook : ∀ o ∈ searchOut (calcSearch c e s), o.looked = true := calcSearch_looked
  have hkeep : ∀ b : Bool, b = true → b = true ∧ s.ptk = s.ptk := fun _ hv => ⟨hv, rfl⟩
  unfold CalcSound at hs
  unfold Auth.enterPtkcalcnegotiating
  cases hr : (calcSearch c e s).2 with
  | none =>
    rw [hr] at hs
    exact h.vain hlook hs rfl (hkeep _) rfl
  | some q =>
    obtain ⟨pmk, ptk⟩ := q
    rw [hr] at hs
    cases hc : checkIes s with
    | unreadable =>
      rw [hc] at hs
      exact h.vain hlook hs rfl (hkeep _) rfl
    | mismatch =>
      -- the PTK goes with the station
      have hd : ∀ v : Sm, v.neg = s.neg → v.trace = searchOut (calcSearch c e s) ++ s.trace →
          FreshOK (wpaStaDisconnect e v) := by
        intro v hvn hvt
        have hv : FreshOK { v with ptkValid := false } :=
          ⟨hvt ▸ Lib.always_append (fun o ho _ => doneRule_looked (hlook o ho)) h.always, nofun,
            hvn ▸ h.neg⟩
        have hp := hv.plain (wpaStaDisconnect_plain (e := e) _)
        exact ⟨hp.always, nofun, hp.neg⟩
      exact hd _ rfl rfl
    | same =>
      rw [hc] at hs
      simp only [Option.any_eq_true] at hs
      obtain ⟨f, hf, hconn⟩ := hs
      have hcalc : calcSearch c e s = searchPmk c s s.sNonce f s.candidates e.derive := by
        rw [calcSearch, hf]
      have hpush := searchPmk_last hl h.neg (hcalc ▸ hr) hconn
      rw [← hcalc] at hpush
      exact h.adopt hlook hr hpush rfl rfl rfl

end FreshOK

/-! ## The rounds of `wpa_sm_step` -/

/-- The station is on its way out; a frame in hand stays where it is. -/
structure Leaving (s : Sm) : Prop where
  init : s.init = false
  auth : s.authenticationRequest = false
  reauth : s.reAuthenticationRequest = false
  ptk : s.ptkRequest = false
  why : s.disconnect = true ∨ s.deauthenticationRequest = true ∨ s.state = .disconnect ∨
    s.state = .disconnected ∨ s.state = .initState

/-- PTKCALCNEGOTIATING is not entered from here: no SNonce is about to change, and a frame in
hand is on its way to PTKINITDONE. -/
structure Settled (s : Sm) : Prop where
  snonce : s.state.late = true → s.updateSnonce = false
  frame : s.pairwiseReceived = true → NoRequest s ∧ Awaits s ∨ Leaving s

theorem Settled.not_calc (h : Settled s) : ¬ EntersCalc s := by
  rintro ⟨hn, ⟨hst, hr⟩ | ⟨hst, hu⟩⟩
  · rcases h.frame hr with ⟨-, ha⟩ | hv
    · rcases hst with hst | ⟨-, hm⟩
      · have := ha.late
        rw [hst] at this
        cases this
      · rw [ha.mic] at hm
        cases hm
    · rcases hv.why with h | h | h | h | h
      · rw [hn.disconnect] at h; cases h
      · rw [hn.deauth] at h; cases h
      all_goals
        rcases hst with hst | ⟨hst, -⟩ <;>
          · rw [hst] at h
            cases h
  · rw [h.snonce (by rw [hst]; rfl)] at hu
    cases hu

theorem smStepPtk_noRequest (hn : NoRequest s) : smStepPtk c e s = smStepState c e s := by
  unfold smStepPtk
  simp [hn.init, hn.disconnect, hn.deauth, hn.auth, hn.reauth, hn.ptk]

/-- A request takes the machine to an early state. -/
theorem smStepPtk_request (hn : ¬ NoRequest s) : (smStepPtk c e s).state.late = false := by
  have hstart : ∀ v : Sm, (enterPtkstart c e v).state = .ptkstart := by
    intro v
    unfold enterPtkstart
    simp only
    split <;> rfl
  unfold smStepPtk
  split
  · rfl
  rename_i h1
  split
  · rfl
  rename_i h2
  split
  · rfl
  rename_i h3
  split
  · rfl
  rename_i h4
  split
  · unfold enterAuthentication2
    cases e.random <;> rfl
  rename_i h5
  split
  · cases e.random with
    | none => rfl
    | some n => rw [hstart]; rfl
  rename_i h6
  exact absurd (by constructor <;> apply Bool.eq_false_iff.2 <;> assumption) hn

/-- PTKCALCNEGOTIATING is entered when its guard holds. -/
theorem smStepPtk_calc (h : EntersCalc s) : smStepPtk c e s = enterPtkcalcnegotiating c e s := by
  rw [smStepPtk_noRequest h.toNoRequest]
  unfold smStepState
  rcases h.why with ⟨hst | ⟨hst, hm⟩, hr⟩ | ⟨hst, hu⟩
  · simp [hst, hr]
  · simp [hst, hm, hr]
  · simp [hst, hu]

theorem enterPtkinitnegotiating_frame (hn : NoRequest s) :
    (NoRequest (enterPtkinitnegotiating c e s) ∧
      (enterPtkinitnegotiating c e s).state = .ptkinitnegotiating) ∨
    Leaving (enterPtkinitnegotiating c e s) := by
  have stay : ∀ v : Sm, v.requests = s.requests → v.state = .ptkinitnegotiating →
      NoRequest v ∧ v.state = .ptkinitnegotiating := fun v h1 h2 => ⟨hn.of h1.symm, h2⟩
  unfold enterPtkinitnegotiating
  simp only
  split
  · exact .inl (stay _ rfl rfl)
  split
  · exact .inl (stay _ rfl rfl)
  split
  · split
    · exact .inl (stay _ rfl rfl)
    · exact .inr ⟨hn.init, hn.auth, hn.reauth, hn.ptk, .inr (.inl rfl)⟩
  · exact .inl (stay _ rfl rfl)

theorem smStepPtk_leaving (h : Leaving s) : Leaving (smStepPtk c e s) := by
  unfold smStepPtk
  rw [if_neg (by simp [h.init])]
  split
  · exact ⟨h.init, h.auth, h.reauth, h.ptk, .inr (.inl rfl)⟩
  rename_i hd
  split
  · exact ⟨h.init, h.auth, h.reauth, h.ptk, .inr (.inr (.inr (.inl rfl)))⟩
  rename_i hq
  simp only [h.auth, h.reauth, h.ptk, Bool.false_eq_true, if_false]
  unfold smStepState
  rcases h.why with hw | hw | hw | hw | hw
  · exact absurd hw hd
  · exact absurd hw hq
  all_goals simp only [hw]
  · exact ⟨h.init, h.auth, h.reauth, h.ptk, .inr (.inr (.inr (.inl rfl)))⟩
  · exact ⟨h.init, h.auth, h.reauth, h.ptk, .inr (.inr (.inr (.inr rfl)))⟩
  · exact h

/-- What a frame in hand can lead to, when it is on its way to PTKINITDONE. -/
theorem smStepPtk_handing (hn : NoRequest s) (ha : Awaits s) (hu : s.updateSnonce = false)
    (hr : (smStepPtk c e s).pairwiseReceived = true) :
    NoRequest (smStepPtk c e s) ∧ (smStepPtk c e s).state.late = true ∨
      Leaving (smStepPtk c e s) := by
  rw [smStepPtk_noRequest hn] at hr ⊢
  have hlate := ha.late
  unfold smStepState at hr ⊢
  cases hs : s.state with
  | ptkcalcnegotiating =>
    simp only [ha.mic, if_true]
    exact .inl ⟨hn.of rfl, rfl⟩
  | ptkcalcnegotiating2 =>
    simp only
    exact (enterPtkinitnegotiating_frame hn).imp (fun h => ⟨h.1, by rw [h.2]; rfl⟩) id
  | ptkinitnegotiating =>
    -- PTKINITDONE takes the frame
    simp only [hs, hu, Bool.false_eq_true, if_false, ha.received, ha.mic, and_self, if_true] at hr
    have hgone : (enterPtkinitdone c e s).eapolKeyReceived = false := by
      rcases enterPtkinitdone_cases c e s with ⟨-, -, heq⟩ | ⟨-, heq⟩ | ⟨-, -, hp⟩
      · rw [heq]; rfl
      · rw [heq]; rfl
      · exact Bool.eq_false_iff.2 fun h => nomatch hp.received h
    simp [Sm.pairwiseReceived, hgone] at hr
  | _ => rw [hs] at hlate; cases hlate

theorem smStepPtk_settled (h : Settled s) : Settled (smStepPtk c e s) := by
  have hstep := smStepPtk_step (c := c) (e := e) s
  have hmove : ((smStepPtk c e s).state.late = true → s.state.late = true ∧
        (smStepPtk c e s).updateSnonce = s.updateSnonce) ∧
      ((smStepPtk c e s).pairwiseReceived = true → s.pairwiseReceived = true ∧
        (smStepPtk c e s).micVerified = s.micVerified) := by
    generalize smStepPtk c e s = t at hstep ⊢
    cases hstep with
    | rest => exact ⟨fun h => ⟨h, rfl⟩, fun h => ⟨h, rfl⟩⟩
    | plain hp => exact ⟨fun h => ⟨hp.late h, hp.snonce⟩, fun h => ⟨hp.pairwiseReceived h, hp.mic⟩⟩
    | search hc => exact absurd hc h.not_calc
    | done hd =>
      rcases enterPtkinitdone_cases c e s with ⟨-, -, heq⟩ | ⟨-, heq⟩ | ⟨-, -, hp⟩
      · rw [heq]; exact ⟨nofun, nofun⟩
      · rw [heq]; exact ⟨nofun, nofun⟩
      · exact ⟨fun h => (nomatch hp.late h), fun h => (nomatch hp.pairwiseReceived h)⟩
  refine ⟨fun hl => ?_, fun hr => ?_⟩
  · obtain ⟨h1, h2⟩ := hmove.1 hl
    rw [h2]
    exact h.snonce h1
  · obtain ⟨h1, h2⟩ := hmove.2 hr
    rcases h.frame h1 with ⟨hn, ha⟩ | hv
    · rcases smStepPtk_handing hn ha (h.snonce ha.late) hr with ⟨h3, h4⟩ | h3
      · exact .inl ⟨h3, ⟨h4, hr, h2.trans ha.mic⟩⟩
      · exact .inr h3
    · exact .inr (smStepPtk_leaving hv)

theorem smStepPtkGroup_settled (h : Settled s) : Settled (smStepPtkGroup c e s) := by
  have hp := smStepPtkGroup_plain (c := c) (e := e) s
  obtain ⟨hst, hreq⟩ := smStepPtkGroup_requests (c := c) (e := e) s
  refine ⟨fun hl => ?_, fun hr => ?_⟩
  · rw [hp.snonce]
    exact h.snonce (hst ▸ hl)
  generalize smStepPtkGroup c e s = t at *
  simp only [Sm.requests, Prod.mk.injEq] at hreq
  rcases h.frame (hp.pairwiseReceived hr) with ⟨hn, ha⟩ | hv
  · rcases hreq with ⟨h1, h2, h3, h4, h5, h6⟩ | ⟨h1, h2, h3, h4, h5, h6⟩
    · exact .inl ⟨⟨h1.trans hn.init, h2.trans hn.disconnect, h3.trans hn.deauth, h4.trans hn.auth,
        h5.trans hn.reauth, h6.trans hn.ptk⟩, ⟨hst ▸ ha.late, hr, hp.mic.trans ha.mic⟩⟩
    · exact .inr ⟨h1.trans hn.init, h4.trans hn.auth, h5.trans hn.reauth, h6.trans hn.ptk, .inl h2⟩
  · rcases hreq with ⟨h1, h2, h3, h4, h5, h6⟩ | ⟨h1, h2, h3, h4, h5, h6⟩
    · refine .inr ⟨h1.trans hv.init, h4.trans hv.auth, h5.trans hv.reauth, h6.trans hv.ptk, ?_⟩
      rw [h2, h3, hst]
      exact hv.why
    · exact .inr ⟨h1.trans hv.init, h4.trans hv.auth, h5.trans hv.reauth, h6.trans hv.ptk, .inl h2⟩

theorem Settled.unchanged (h : Settled s) : Settled s.unchanged :=
  ⟨h.snonce, fun hr => (h.frame hr).imp (fun ⟨h1, h2⟩ => ⟨h1.of rfl, ⟨h2.late, h2.received, h2.mic⟩⟩)
    fun hv => ⟨hv.init, hv.auth, hv.reauth, hv.ptk, hv.why⟩⟩

theorem smRound_settled (h : Settled s) : Settled (smRound c e s) :=
  smStepPtkGroup_settled (smStepPtk_settled h.unchanged)

theorem acts_port (hb : Brings U ev e) (hp : PortOK c U s) (h : Acts c ev e s t) : PortOK c U t := by
  induction h with
  | refl => exact hp
  | tail _ ha ih => exact act_port hb ih ha

/-- A round that does not enter PTKCALCNEGOTIATING. -/
theorem smRound_fresh (hp : PortOK c U s) (hF : FreshOK s) (hc : ¬ EntersCalc s) :
    FreshOK (smRound c e s) := by
  have hstep := smStepPtk_step (c := c) (e := e) s.unchanged
  have hF' : FreshOK s.unchanged := hF.congr rfl (fun hv => ⟨hv, rfl⟩) rfl
  have hptk : FreshOK (smStepPtk c e s.unchanged) := by
    generalize smStepPtk c e s.unchanged = t at hstep ⊢
    cases hstep with
    | rest => exact hF'
    | plain h => exact hF'.plain h
    | search h => exact absurd ⟨h.toNoRequest.of rfl, h.why⟩ hc
    | done h => exact hF'.enterPtkinitdone (hp.valid ⟨h.late, h.received, h.mic⟩ (h.toNoRequest.of rfl))
  exact hptk.plain (smStepPtkGroup_plain _)

/-- What a search looks at. -/
def Sm.searched (s : Sm) := (s.neg, s.psks, s.aNonce, s.sNonce, s.pmk, s.lastRxEapolKey)

theorem CalcSound.congr (h : CalcSound c e s) (hs : t.searched = s.searched)
    (hv : t.ptkValid = true → s.ptkValid = true) : CalcSound c e t := by
  simp only [Sm.searched, Prod.mk.injEq] at hs
  obtain ⟨h1, h2, h3, h4, h5, h6⟩ := hs
  have hcand : t.candidates = s.candidates := by
    rw [Sm.candidates, Sm.candidates, Sm.altCandidates, Sm.altCandidates, h1, h2, h5]
  have hcalc : calcSearch c e t = calcSearch c e s := by
    rw [calcSearch, calcSearch, h6, h4, hcand]
    cases s.lastRxEapolKey with
    | none => rfl
    | some f => exact searchPmk_congr h1 h3 h5
  have hies : checkIes t = checkIes s := by rw [checkIes, checkIes, h1, h6]
  have hconn : ∀ f, searchConnected c t t.sNonce f t.candidates e.derive =
      searchConnected c s s.sNonce f s.candidates e.derive := by
    intro f
    rw [h4, hcand, searchConnected_congr h1 h3 h5]
  have hany : t.lastRxEapolKey.any (searchConnected c t t.sNonce · t.candidates e.derive) =
      s.lastRxEapolKey.any (searchConnected c s s.sNonce · s.candidates e.derive) := by
    rw [h6]
    cases s.lastRxEapolKey with
    | none => rfl
    | some f => exact hconn f
  unfold CalcSound at h ⊢
  rw [hcalc, hies, hany]
  split at h
  · exact h
  · exact h
  · exact fun hset => h (hv hset)

theorem AltSound.congr (h : AltSound c e f s) (hs : t.neg = s.neg ∧ t.psks = s.psks ∧
    t.aNonce = s.aNonce ∧ t.pmk = s.pmk ∧ t.altSNonce = s.altSNonce ∧
    t.altSnonceValid = s.altSnonceValid ∧ t.ptkValid = s.ptkValid ∧ t.ptk = s.ptk ∧
    t.updateSnonce = s.updateSnonce) :
    AltSound c e f t := by
  obtain ⟨h1, h2, h3, h4, h5, h6, h7, h8, h9⟩ := hs
  have hcand : t.altCandidates = s.altCandidates := by
    rw [Sm.altCandidates, Sm.altCandidates, h1, h2, h4]
  have hlen : t.micLen = s.micLen := by rw [Sm.micLen, Sm.micLen, h1, h4]
  have halt : altSearch c e f t = altSearch c e f s := by
    rw [altSearch, altSearch, h5, hcand]
    exact searchPmk_congr h1 h3 h4
  have hconn : searchConnected c t t.altSNonce f t.altCandidates e.deriveAlt =
      searchConnected c s s.altSNonce f s.altCandidates e.deriveAlt := by
    rw [h5, hcand]
    exact searchConnected_congr h1 h3 h4
  unfold AltSound at h ⊢
  rw [h6, h7, h8, h9, hlen, halt, hconn]
  exact h

/-- Where `wpa_sm_step` may start: PTKCALCNEGOTIATING is not entered, or it is entered at once
with a sound search, or a request comes first. -/
def Start (c : Conf) (e : Env) (s : Sm) : Prop :=
  Settled s ∨ EntersCalc s ∧ CalcSound c e s ∨ ¬ NoRequest s ∧ s.pairwiseReceived = false

/-- After PTKCALCNEGOTIATING it is not entered again. -/
theorem enterPtkcalcnegotiating_settled (s : Sm) : Settled (enterPtkcalcnegotiating c e s) := by
  have hclear : (enterPtkcalcnegotiating c e s).updateSnonce = false ∧
      (enterPtkcalcnegotiating c e s).eapolKeyReceived = false := by
    rcases enterPtkcalcnegotiating_cases c e s with ⟨pmk, ptk, -, -, heq⟩ | ⟨-, hp⟩
    · rw [heq]; exact ⟨rfl, rfl⟩
    · exact ⟨hp.snonce, Bool.eq_false_iff.2 fun h => (nomatch hp.received h)⟩
  exact ⟨fun _ => hclear.1, fun hr => by simp [Sm.pairwiseReceived, hclear.2] at hr⟩

/-- **`wpa_sm_step`** enters PTKCALCNEGOTIATING in its first round or never. -/
theorem wpaSmStep_fresh (hl : c.link = .lifi) (hb : Brings U ev e) (hp : PortOK c U s)
    (hF : FreshOK s) (hs : Start c e s) (h : wpaSmStep c e s = some t) : FreshOK t ∧ Settled t := by
  have keep : ∀ v : Sm, PortOK c U v ∧ FreshOK v ∧ Settled v →
      PortOK c U (smRound c e v) ∧ FreshOK (smRound c e v) ∧ Settled (smRound c e v) :=
    fun v ⟨h1, h2, h3⟩ =>
      ⟨acts_port hb h1 (smRound_acts v), smRound_fresh h1 h2 h3.not_calc, smRound_settled h3⟩
  have hfirst : FreshOK (smRound c e s) ∧ Settled (smRound c e s) := by
    rcases hs with hs | ⟨hc, hsound⟩ | ⟨hn, hr⟩
    · exact ⟨smRound_fresh hp hF hs.not_calc, smRound_settled hs⟩
    · have hF' : FreshOK s.unchanged := hF.congr rfl (fun hv => ⟨hv, rfl⟩) rfl
      have hsound' : CalcSound c e s.unchanged := hsound.congr rfl id
      have heq : smStepPtk c e s.unchanged = enterPtkcalcnegotiating c e s.unchanged :=
        smStepPtk_calc ⟨hc.toNoRequest.of rfl, hc.why⟩
      unfold smRound
      rw [heq]
      exact ⟨(hF'.enterPtkcalcnegotiating hl hsound').plain (smStepPtkGroup_plain _),
        smStepPtkGroup_settled (enterPtkcalcnegotiating_settled _)⟩
    · -- a request takes the machine to an early state
      have hn' : ¬ NoRequest s.unchanged := fun h => hn (h.of rfl)
      refine ⟨smRound_fresh hp hF fun hc => hn hc.toNoRequest, smStepPtkGroup_settled ⟨?_, ?_⟩⟩
      · intro hlate
        rw [smStepPtk_request hn'] at hlate
        cases hlate
      · intro hr'
        have hstep := smStepPtk_step (c := c) (e := e) s.unchanged
        generalize smStepPtk c e s.unchanged = v at hstep hr'
        cases hstep with
        | rest h => exact absurd h hn'
        | plain h => exact absurd (hr.symm.trans (h.pairwiseReceived hr')) Bool.false_ne_true
        | search h => exact absurd h.toNoRequest hn'
        | done h => exact absurd h.toNoRequest hn'
  rcases smLoop_first h with ⟨rfl, -⟩ | ⟨m, h⟩
  · exact hfirst
  · exact (smLoop_inv keep ⟨acts_port hb hp (smRound_acts s), hfirst.1, hfirst.2⟩ h).2

/-- `wpa_sm_step` makes no frame out of nothing. -/
theorem wpaSmStep_idle (hr : s.pairwiseReceived = false) (h : wpaSmStep c e s = some t) :
    t.pairwiseReceived = false := by
  refine smLoop_inv (I := fun v => v.pairwiseReceived = false) ?_ hr h
  intro v hv
  refine Bool.eq_false_iff.2 fun hr' => ?_
  have h1 := (smStepPtkGroup_plain (c := c) (e := e) (smStepPtk c e v.unchanged)).pairwiseReceived hr'
  have hstep := smStepPtk_step (c := c) (e := e) v.unchanged
  generalize smStepPtk c e v.unchanged = u at hstep h1
  have hback : v.pairwiseReceived = true := by
    cases hstep with
    | rest => exact h1
    | plain h => exact h.pairwiseReceived h1
    | search =>
      rcases enterPtkcalcnegotiating_cases c e v.unchanged with ⟨pmk, ptk, -, -, heq⟩ | ⟨-, hp⟩
      · rw [heq] at h1; cases h1
      · exact nomatch hp.pairwiseReceived h1
    | done =>
      rcases enterPtkinitdone_cases c e v.unchanged with ⟨-, -, heq⟩ | ⟨-, heq⟩ | ⟨-, -, hp⟩
      · rw [heq] at h1; cases h1
      · rw [heq] at h1; cases h1
      · exact nomatch hp.pairwiseReceived h1
  exact absurd (hv.symm.trans hback) Bool.false_ne_true

/-! ## Events -/

/-- Between two events a new SNonce is noted only in PTKINITNEGOTIATING. -/
def CalcOK (s : Sm) : Prop :=
  s.state = .ptkcalcnegotiating ∨ s.state = .ptkcalcnegotiating2 → s.updateSnonce = false

theorem Settled.calc (h : Settled s) : CalcOK s := by
  rintro (hs | hs)
  · exact h.snonce (by rw [hs]; rfl)
  · exact h.snonce (by rw [hs]; rfl)

/-- Without a frame in hand. -/
theorem start_idle (hr : s.pairwiseReceived = false) (hC : CalcOK s)
    (hsound : EntersCalc s → CalcSound c e s) : Start c e s := by
  by_cases hn : NoRequest s
  · by_cases hc : EntersCalc s
    · exact .inr (.inl ⟨hc, hsound hc⟩)
    refine .inl ⟨fun hlate => ?_, fun h => absurd (hr.symm.trans h) Bool.false_ne_true⟩
    cases hst : s.state with
    | ptkcalcnegotiating => exact hC (.inl hst)
    | ptkcalcnegotiating2 => exact hC (.inr hst)
    | ptkinitnegotiating =>
      exact Bool.eq_false_iff.2 fun hu => hc ⟨hn, .inr ⟨hst, hu⟩⟩
    | _ => rw [hst] at hlate; cases hlate
  · exact .inr (.inr ⟨hn, hr⟩)

/-- The machine an event hands to `wpa_sm_step`, as far as a search is concerned. -/
def handed (c : Conf) (e : Env) (s : Sm) : Event → Option Sm
  | .eapolKey f =>
    match wpaReceive c e f s with
    | .step t => some t
    | _ => none
  | _ => some s

/-- **The condition on a step.** No earlier frame was left in hand, and whatever the step
searches leaves the PTK in use as the last one pushed. -/
structure StepSound (c : Conf) (s : Sm) (x : Event × Env) : Prop where
  idle : s.pairwiseReceived = false
  search : ∀ t ∈ handed c x.2 s x.1, EntersCalc t → CalcSound c x.2 t
  alt : ∀ f, x.1 = .eapolKey f → ∀ r, checkReplay s f = some r → reachesMic s r f = true →
    AltSound c x.2 f r

/-- What the MIC check leaves. -/
theorem checkMic_fresh {b : Bool} (h : checkMic c e f s = (b, t)) (hl : c.link = .lifi)
    (hF : FreshOK s) (ha : AltSound c e f s) : FreshOK t := by
  by_cases hu : s.updateSnonce = true
  · -- the SNonce is about to change: the MIC is left to PTKCALCNEGOTIATING
    unfold checkMic at h
    rw [if_neg (by simp [hu])] at h
    exact (Prod.mk.inj h).2 ▸ hF
  have hu' : s.updateSnonce = false := by simpa using hu
  cases MicCheck.of_eq h with
  | unchecked | failed => exact hF
  | noMic => exact hF.extend (l := [.micSkipped]) (by simp [Out.mute]) rfl (fun hv => ⟨hv, rfl⟩) rfl
  | verified =>
    exact hF.extend (l := [.micVerified s.ptk]) (by simp [Out.mute]) rfl (fun hv => ⟨hv, rfl⟩) rfl
  | alt hv hm hbad h4 hav hf =>
    have hconn := ha hv hu' hm hbad h4 hav
    rw [hf] at hconn
    exact hF.adopt searchPmk_looked hf (searchPmk_last hl hF.neg hf hconn) rfl rfl rfl
  | failedAlt hv hm hbad h4 hav hf =>
    have hnone := ha hv hu' hm hbad h4 hav
    rw [hf] at hnone
    exact hF.vain searchPmk_looked (fun _ => hnone) rfl (fun hv => ⟨hv, rfl⟩) rfl

/-- What else the MIC check leaves alone. -/
theorem MicCheck.frame {b : Bool} (h : MicCheck c e f s (b, t)) : t.state = s.state ∧
    t.updateSnonce = s.updateSnonce ∧ t.pairwiseReceived = s.pairwiseReceived := by
  cases h <;> exact ⟨rfl, rfl, rfl⟩

/-- What the replay check leaves alone. -/
theorem checkReplay_fresh {r : Sm} (h : checkReplay s f = some r) (hF : FreshOK s) (hC : CalcOK s) :
    FreshOK r ∧ CalcOK r ∧ r.state = s.state ∧ r.pairwiseReceived = s.pairwiseReceived := by
  obtain ⟨u, n, v, k, rfl, hu⟩ := checkReplay_eq h
  refine ⟨hF.congr rfl (fun hv => ⟨hv, rfl⟩) rfl, fun hs => ?_, rfl, rfl⟩
  rcases hu with rfl | ⟨rfl, -, hst⟩
  · exact hC hs
  · -- a new SNonce is noted only in PTKINITNEGOTIATING
    rcases hs with hs | hs <;>
      · rw [show s.state = _ from hs] at hst
        cases hst

/-- A request of the station leaves no frame for the state machine. -/
theorem handleRequest_fresh (hf : f.request = true) {u : Sm} (hF : FreshOK u) (hC : CalcOK u) :
    match handleRequest c e f u with
    | .ret t => FreshOK t ∧ CalcOK t
    | .step t => FreshOK t ∧ CalcOK t ∧ t.pairwiseReceived = false
    | .gone => True := by
  have hidle : ∀ v : Sm, (storeFrame f v).pairwiseReceived = false := by
    intro v
    simp [Sm.pairwiseReceived, storeFrame, hf]
  have hreq : FreshOK (storeFrame f (wpaRequestNewPtk c (useRequestCounter f u))) ∧
      CalcOK (storeFrame f (wpaRequestNewPtk c (useRequestCounter f u))) := by
    have hcnt : FreshOK (useRequestCounter f u) := hF.congr rfl (fun hv => ⟨hv, rfl⟩) rfl
    have hplain := wpaRequestNewPtk_plain (c := c) (e := e) (useRequestCounter f u)
    have hst : (wpaRequestNewPtk c (useRequestCounter f u)).state = u.state := by
      unfold wpaRequestNewPtk
      split <;> rfl
    refine ⟨(hcnt.plain hplain).congr rfl (fun hv => ⟨hv, rfl⟩) rfl, fun hs => ?_⟩
    have hs' : u.state = .ptkcalcnegotiating ∨ u.state = .ptkcalcnegotiating2 := hst ▸ hs
    exact hplain.snonce.trans (hC hs')
  have hcases : handleRequest c e f u = .ret u ∨ handleRequest c e f u = .gone ∨
      handleRequest c e f u = .step (storeFrame f (wpaRequestNewPtk c (useRequestCounter f u))) ∨
      handleRequest c e f u = .step (storeFrame f (useRequestCounter f u)) := by
    unfold handleRequest
    split
    · exact .inl rfl
    simp only
    split
    · split
      · exact .inr (.inl rfl)
      · exact .inr (.inr (.inl rfl))
    split
    · exact .inr (.inr (.inl rfl))
    · exact .inr (.inr (.inr rfl))
  rcases hcases with h | h | h | h <;> rw [h]
  · exact ⟨hF, hC⟩
  · trivial
  · exact ⟨hreq.1, hreq.2, hidle _⟩
  · exact ⟨hF.congr rfl (fun hv => ⟨hv, rfl⟩) rfl, hC, hidle _⟩

/-- A pairwise frame that PTKCALCNEGOTIATING does not take has passed the MIC check. -/
theorem stored_awaits {r : Sm} (hreach : reachesMic s r f = true) (hf : f.request = false)
    (hq : checkMic c e f { r with micVerified := false } = (true, t))
    (hrec : (storeFrame f (useReplayCounter f t)).pairwiseReceived = true)
    (hnot : ¬ (t.state = .ptkstart ∨ t.state = .ptkcalcnegotiating ∧ t.micVerified = false))
    (hnew : t.state = .ptkinitnegotiating → t.updateSnonce = false) :
    Awaits (storeFrame f (useReplayCounter f t)) := by
  have hstate : stateOk r (classify f) = true := by
    simp only [reachesMic, Bool.and_eq_true] at hreach
    exact hreach.1.1.2
  have hframe := (MicCheck.of_eq hq).frame
  have hts : t.state = r.state := hframe.1
  have hup : t.updateSnonce = r.updateSnonce := hframe.2.1
  have hpair : f.pairwise = true := by
    simp only [Sm.pairwiseReceived, storeFrame, useReplayCounter, Bool.and_eq_true] at hrec
    exact hrec.2
  have hcl : classify f = .pairwise4 ∨ classify f = .pairwise2 := by
    unfold classify
    simp only [hf, hpair, Bool.false_eq_true, if_false, Bool.not_true]
    split
    · exact .inl rfl
    · exact .inr rfl
  have hlate : t.state = .ptkinitnegotiating ∨ t.state = .ptkcalcnegotiating → t.micVerified = true →
      Awaits (storeFrame f (useReplayCounter f t)) := by
    intro hs hm
    refine ⟨?_, hrec, hm⟩
    show t.state.late = true
    rcases hs with hs | hs <;> rw [hs] <;> rfl
  rcases hcl with hcl | hcl <;> rw [hcl] at hstate
  · -- message 4/4
    simp only [stateOk, Bool.and_eq_true, decide_eq_true_eq] at hstate
    have hst := hts.trans hstate.1
    have hu := hnew hst
    refine hlate (.inl hst) ?_
    cases MicCheck.of_eq hq with
    | unchecked h =>
      rcases h with h | h
      · rw [show r.ptkValid = false from h] at hstate
        exact absurd hstate.2 Bool.false_ne_true
      · rw [show r.updateSnonce = true from h] at hu
        cases hu
    | noMic => rfl
    | verified => rfl
    | alt => rfl
  · -- message 2/4
    simp only [stateOk, Bool.or_eq_true, Bool.and_eq_true, decide_eq_true_eq] at hstate
    rcases hstate with (hst | hst) | ⟨hu, hst⟩
    · exact absurd (.inl (hts.trans hst)) hnot
    · refine hlate (.inr (hts.trans hst)) ?_
      by_contra hm
      exact hnot (.inr ⟨hts.trans hst, by simpa using hm⟩)
    · exact absurd ((hnew (hts.trans hst)).symm.trans (hup.trans hu)) Bool.false_ne_true

/-- **A received frame**, up to `wpa_sm_step`. -/
theorem wpaReceive_fresh (hl : c.link = .lifi) (hr : Rest s) (hF : FreshOK s) (hC : CalcOK s)
    (hx : StepSound c s (.eapolKey f, e)) :
    match wpaReceive c e f s with
    | .ret t => FreshOK t ∧ CalcOK t
    | .step t => FreshOK t ∧ Start c e t
    | .gone => True := by
  have hsound : ∀ t, wpaReceive c e f s = .step t → EntersCalc t → CalcSound c e t := by
    intro t ht hc
    refine hx.search t ?_ hc
    simp [handed, ht]
  have hmic : ∀ {r t : Sm} {b : Bool}, checkReplay s f = some r → reachesMic s r f = true →
      checkMic c e f { r with micVerified := false } = (b, t) →
      FreshOK t ∧ CalcOK t ∧ t.state = s.state ∧ NoRequest t := by
    intro r t b hrep hreach hq
    obtain ⟨h1, h2, h3, -⟩ := checkReplay_fresh hrep hF hC
    obtain ⟨u, n, v, k, rfl, -⟩ := checkReplay_eq hrep
    have ha : AltSound c e f { s.withAlt u n v k with micVerified := false } :=
      (hx.alt f rfl _ hrep hreach).congr ⟨rfl, rfl, rfl, rfl, rfl, rfl, rfl, rfl, rfl⟩
    have hframe := (MicCheck.of_eq hq).frame
    have hn : NoRequest { s.withAlt u n v k with micVerified := false } :=
      ⟨hr.init, hr.disconnect, hr.deauth, hr.auth, hr.reauth, hr.ptk⟩
    refine ⟨checkMic_fresh hq hl (h1.congr rfl (fun hv => ⟨hv, rfl⟩) rfl) ha, fun hs => ?_,
      hframe.1, (MicCheck.of_eq hq).request hn⟩
    rw [hframe.2.1]
    exact h2 (hframe.1 ▸ hs)
  have hcases := wpaReceive_cases c e f s
  generalize wpaReceive c e f s = q at hcases hsound ⊢
  cases hcases with
  | dropped => exact ⟨hF, hC⟩
  | noted hrep => exact ⟨(checkReplay_fresh hrep hF hC).1, (checkReplay_fresh hrep hF hC).2.1⟩
  | entropy hrep =>
    obtain ⟨h1, h2, -, h3⟩ := checkReplay_fresh hrep hF hC
    have hidle : ∀ v : Sm, (wpaStaDisconnect e v).pairwiseReceived = v.pairwiseReceived := fun _ => rfl
    refine ⟨h1.plain (wpaStaDisconnect_plain _), start_idle ?_ h2 (hsound _ rfl)⟩
    rw [hidle, h3, hx.idle]
  | refused hrep hreach hq => exact ⟨(hmic hrep hreach hq).1, (hmic hrep hreach hq).2.1⟩
  | @request r t hrep hreach hf hq =>
    obtain ⟨h1, h2, -, -⟩ := hmic hrep hreach hq
    have hreq := handleRequest_fresh (c := c) (e := e) hf h1 h2
    generalize handleRequest c e f t = q at hreq hsound ⊢
    cases q with
    | ret v => exact hreq
    | gone => trivial
    | step v => exact ⟨hreq.1, start_idle hreq.2.2 hreq.2.1 (hsound v rfl)⟩
  | @stored r t _ hrep hreach hf hq =>
    obtain ⟨h1, h2, h3, h4⟩ := hmic hrep hreach hq
    have hstore : FreshOK (storeFrame f (useReplayCounter f t)) :=
      h1.congr rfl (fun hv => ⟨hv, rfl⟩) rfl
    refine ⟨hstore, ?_⟩
    have hn : NoRequest (storeFrame f (useReplayCounter f t)) := h4.of rfl
    by_cases hc : EntersCalc (storeFrame f (useReplayCounter f t))
    · exact .inr (.inl ⟨hc, hsound _ rfl hc⟩)
    refine .inl ⟨fun hlate => ?_, fun hrec => .inl ⟨hn, ?_⟩⟩
    · cases hst : t.state with
      | ptkcalcnegotiating => exact h2 (.inl hst)
      | ptkcalcnegotiating2 => exact h2 (.inr hst)
      | ptkinitnegotiating => exact Bool.eq_false_iff.2 fun hu => hc ⟨hn, .inr ⟨hst, hu⟩⟩
      | _ =>
        rw [show (storeFrame f (useReplayCounter f t)).state = t.state from rfl, hst] at hlate
        cases hlate
    exact stored_awaits hreach hf hq hrec (fun h => hc ⟨hn, .inl ⟨h, hrec⟩⟩) fun hst =>
      Bool.eq_false_iff.2 fun hu => hc ⟨hn, .inr ⟨hst, hu⟩⟩

/-- Where a handler may call `wpa_sm_step` without a frame in hand. -/
structure Ready (c : Conf) (U : Pmk → Prop) (e : Env) (s : Sm) : Prop where
  port : PortOK c U s
  fresh : FreshOK s
  snonce : CalcOK s
  idle : s.pairwiseReceived = false
  sound : EntersCalc s → CalcSound c e s

theorem Ready.not_awaits (h : Ready c U e s) : ¬ Awaits s := fun ha =>
  absurd (h.idle.symm.trans ha.received) Bool.false_ne_true

theorem Ready.step (h : Ready c U e s) (hl : c.link = .lifi) (hb : Brings U ev e)
    (hstep : wpaSmStep c e s = some t) : FreshOK t ∧ CalcOK t := by
  obtain ⟨h1, h2⟩ := wpaSmStep_fresh hl hb h.port h.fresh (start_idle h.idle h.snonce h.sound) hstep
  exact ⟨h1, h2.calc⟩

/-- A plain transition that keeps the state and what a search looks at. -/
theorem Ready.plain (h : Ready c U e s) (hb : Brings U ev e) (hp : Plain e s t)
    (hst : t.state = s.state) (hs : t.searched = s.searched ∨ ¬ NoRequest t)
    (hn : NoRequest t → NoRequest s) : Ready c U e t where
  port := h.port.plain hb hp
  fresh := h.fresh.plain hp
  snonce hc := by
    rw [hst] at hc
    exact hp.snonce.trans (h.snonce hc)
  idle := Bool.eq_false_iff.2 fun hr =>
    absurd (h.idle.symm.trans (hp.pairwiseReceived hr)) Bool.false_ne_true
  sound hc := by
    have hs' : t.searched = s.searched := hs.resolve_right fun h => h hc.toNoRequest
    refine (h.sound ⟨hn hc.toNoRequest, ?_⟩).congr hs' fun hv => (hp.ptk hv).1
    rcases hc.why with ⟨hw, hr⟩ | ⟨hw, hu⟩
    · exact absurd (h.idle.symm.trans (hp.pairwiseReceived hr)) Bool.false_ne_true
    · exact .inr ⟨hst ▸ hw, hp.snonce ▸ hu⟩

/-- A request. -/
theorem Ready.request (h : Ready c U e s) (hb : Brings U ev e) (hp : Plain e s t)
    (hst : t.state = s.state) (hn : ¬ NoRequest t) : Ready c U e t :=
  h.plain hb hp hst (.inr hn) fun h => absurd h hn

/-- The first association: the machine is initialized. -/
theorem Ready.restart (h : Ready c U e s) (hl : c.link = .lifi) (hb : Brings U ev e)
    (hstep : wpaSmStep c e { s with started := true, init := true } = some t) :
    Ready c U e { t with init := false, authenticationRequest := true } := by
  have hinit : ¬ NoRequest { s with started := true, init := true } := fun h => nomatch h.init
  have hready : Ready c U e { s with started := true, init := true } := by
    refine ⟨?_, h.fresh.congr rfl (fun hv => ⟨hv, rfl⟩) rfl, h.snonce, h.idle,
      fun hc => absurd hc.toNoRequest hinit⟩
    have hk := h.port.toKeysOK.congr (t := { s with started := true, init := true }) rfl rfl rfl rfl rfl rfl
    exact hk.idle fun ha => h.not_awaits ⟨ha.late, ha.received, ha.mic⟩
  obtain ⟨h1, h2⟩ := hready.step hl hb hstep
  have hidle : t.pairwiseReceived = false := wpaSmStep_idle hready.idle hstep
  refine ⟨?_, h1.congr rfl (fun hv => ⟨hv, rfl⟩) rfl, h2, hidle, fun hc => nomatch hc.auth⟩
  have hport := acts_port hb hready.port (wpaSmStep_acts hstep)
  have hk := hport.toKeysOK.congr (t := { t with init := false, authenticationRequest := true })
    rfl rfl rfl rfl rfl rfl
  exact hk.idle fun ha => absurd (hidle.symm.trans ha.received) Bool.false_ne_true

/-- **The events of the association and of the EAPOL state machine.** -/
theorem wpaAuthSmEvent_fresh {w : WpaEvent} (hr : Ready c U e s) (hl : c.link = .lifi)
    (hb : Brings U ev e) (h : wpaAuthSmEvent c e w s = some s') : FreshOK s' ∧ CalcOK s' := by
  obtain ⟨t, ht, h⟩ := wpaAuthSmEvent_cases h
  have hfirst : Ready c U e t := by
    cases ht with
    | nothing => exact hr
    | deauth =>
      exact hr.request hb (.stay rfl id fun h => nomatch h.deauth) rfl fun h => nomatch h.deauth
    | restart hu => exact hr.restart hl hb hu
    | refuse =>
      exact hr.request hb (.stay rfl id fun h => nomatch h.disconnect) rfl
        fun h => nomatch h.disconnect
    | reauth =>
      exact hr.request hb (.stay rfl id fun h => nomatch h.reauth) rfl fun h => nomatch h.reauth
  have hdrop : Ready c U e t.ptkDropped :=
    hfirst.plain hb (ptkDropped_plain hfirst.not_awaits) rfl (.inl rfl) fun h => h.of rfl
  rcases h with h | h | h
  · exact hfirst.step hl hb h
  · exact hdrop.step hl hb h
  · refine (hdrop.plain hb (wpaRemovePtk_plain hdrop.not_awaits) rfl (.inl rfl) ?_).step hl hb h
    exact fun h => h.of rfl

theorem startAuthentication_fresh (hr : Ready c U e s) (hl : c.link = .lifi) (hb : Brings U ev e)
    (h : startAuthentication c e s = some s') : FreshOK s' ∧ CalcOK s' := by
  unfold startAuthentication at h
  split at h
  · have hreq : Ready c U e { s with keyReplay := noCounters, reAuthenticationRequest := true } :=
      hr.request hb (.stay rfl id fun h => nomatch h.reauth) rfl fun h => nomatch h.reauth
    exact hreq.step hl hb h
  · simp only [Option.bind_eq_some_iff] at h
    obtain ⟨t, ht, h⟩ := h
    exact (hr.restart hl hb ht).step hl hb h

/-- **What one step keeps**, when it meets the condition. -/
theorem step_fresh (hl : c.link = .lifi) (hb : Brings U ev e) (hr : Rest s) (hp : PortOK c U s)
    (hF : FreshOK s) (hC : CalcOK s) (hn : ∀ n, ev = .assocReq n → Psk16 n)
    (hx : StepSound c s (ev, e)) (h : step c s (ev, e) = some s') : FreshOK s' ∧ CalcOK s' := by
  have hwifi : ¬ c.link = .wifi := by
    rw [hl]
    rintro ⟨⟩
  have hready : handed c e s ev = some s → Ready c U e s := fun hs =>
    ⟨hp, hF, hC, hx.idle, fun hc => hx.search s hs hc⟩
  -- a (re)association
  have hassoc : Ready c U e s → Ready c U e (s.out .associated) := by
    intro hs
    have hk : KeysOK c U (s.out .associated) :=
      ⟨⟨trivial, hp.always⟩, hp.ptk, hp.pmk, hp.psks, hp.pmksa⟩
    have hFa : FreshOK (s.out .associated) :=
      hF.extend (l := [.associated]) (by simp [Out.mute]) rfl (fun hv => ⟨hv, rfl⟩) rfl
    refine ⟨hk.idle fun ha => hs.not_awaits ⟨ha.late, ha.received, ha.mic⟩, hFa, hC, hx.idle, ?_⟩
    intro hc
    exact (hs.sound ⟨hc.toNoRequest.of rfl, hc.why⟩).congr rfl id
  cases ev with
  | assocReq n =>
    obtain rfl := Option.some.inj h
    exact ⟨⟨hF.always, hF.last, hn n rfl⟩, hC⟩
  | sm w =>
    have hs : Ready c U e s := hready rfl
    simp only [step] at h
    split at h
    · exact wpaAuthSmEvent_fresh (hassoc hs) hl hb h
    · exact wpaAuthSmEvent_fresh hs hl hb h
  | staAssociated =>
    have hs : Ready c U e s := hready rfl
    simp only [step, wpaAuthStaAssociated] at h
    rw [if_neg fun h => hwifi h.1] at h
    exact startAuthentication_fresh (hassoc hs) hl hb h
  | eapolKey f =>
    have hrec := wpaReceive_fresh hl hr hF hC hx
    have hok : (wpaReceive c e f s).OK c (.eapolKey f) e s := wpaReceive_ok hr
    rcases Next.run_cases h with hq | ⟨t, hq, h⟩ <;> rw [hq] at hrec hok
    · exact hrec
    · obtain ⟨h1, h2⟩ := wpaSmStep_fresh hl hb (acts_port hb hp hok.1) hrec.1 hrec.2 h
      exact ⟨h1, h2.calc⟩
  | eapolTimeout =>
    have hs : Ready c U e s := hready rfl
    simp only [step] at h
    split at h
    · cases h
    · refine (hs.plain (t := { s with eapolTimeouts := s.eapolTimeouts - 1, timeoutEvt := true }) hb
        (.stay rfl id (·.of rfl)) rfl (.inl rfl) (·.of rfl)).step hl hb h
  | rekeyPtk =>
    have hs : Ready c U e s := hready rfl
    simp only [step] at h
    split at h
    · unfold wpaRekeyPtk at h
      simp only at h
      rw [if_neg fun h => hwifi h.1] at h
      have hoff : Ready c U e { s with rekeyTimer := false } :=
        hs.plain hb (.stay rfl id (·.of rfl)) rfl (.inl rfl) (·.of rfl)
      have hreq : ¬ NoRequest (wpaRequestNewPtk c { s with rekeyTimer := false }) ∧
          (wpaRequestNewPtk c { s with rekeyTimer := false }).state = s.state := by
        unfold wpaRequestNewPtk
        split
        · exact ⟨fun h => (by cases h.disconnect), rfl⟩
        · exact ⟨fun h => (by cases h.ptk), rfl⟩
      exact (hoff.request hb (wpaRequestNewPtk_plain _) hreq.2 hreq.1).step hl hb h
    · cases h
  | ptkTcp buf =>
    simp only [step] at h
    rw [if_neg hwifi] at h
    cases h
  | groupUpdate =>
    have hs : Ready c U e s := hready rfl
    simp only [step] at h
    split at h
    · exact (hs.plain (t := { s with gUpdateStationKeys := true }) hb (.stay rfl id (·.of rfl)) rfl
        (.inl rfl) (·.of rfl)).step hl hb h
    · obtain rfl := Option.some.inj h
      exact ⟨hF.congr rfl (fun hv => ⟨hv, rfl⟩) rfl, hC⟩
  | notify =>
    have hs : Ready c U e s := hready rfl
    exact hs.step hl hb h
  | setPsks l =>
    obtain rfl := Option.some.inj h
    exact ⟨hF.congr rfl (fun hv => ⟨hv, rfl⟩) rfl, hC⟩

/-- **The exported key is the installed key** in every run whose steps all meet the condition:
PTKINITDONE is entered with the PTK that was pushed last. -/
theorem exported_installed (hl : c.link = .lifi) {n : Negotiated} {psks : List Pmk}
    {es : List (Event × Env)} (hn : Psk16 n) (hes : ∀ x ∈ es, ∀ m, x.1 = .assocReq m → Psk16 m)
    (hx : Lib.Along (step c) (StepSound c) (Sm.new n psks) es)
    (h : run c (Sm.new n psks) es = some s) {new old : List Out} {K : Ptk}
    (ht : s.trace = new ++ .ptkinitdone K :: old) : lastPush old = some (K.kck ++ K.kek ++ K.tk) := by
  have hnew : FreshOK (Sm.new n psks) := ⟨trivial, nofun, hn⟩
  have hC : CalcOK (Sm.new n psks) := fun _ => rfl
  have hinv : Rest s ∧ PortOK c (Configured n psks es) s ∧ FreshOK s ∧ CalcOK s := by
    refine Lib.along_inv_mem (I := fun s => Rest s ∧ PortOK c (Configured n psks es) s ∧
      FreshOK s ∧ CalcOK s) ?_ ⟨rest_new n psks, portOK_new, hnew, hC⟩ hx h
    rintro s ⟨ev, e⟩ hmem s' ⟨hr, hp, hF, hC⟩ hsound hstep
    have hb : Brings (Configured n psks es) ev e := configured_brings hmem
    obtain ⟨hacts, hr'⟩ := step_acts hr hstep
    obtain ⟨hF', hC'⟩ := step_fresh hl hb hr hp hF hC (hes _ hmem) hsound hstep
    exact ⟨hr', acts_port hb hp hacts, hF', hC'⟩
  exact Lib.always_iff.1 hinv.2.2.1.always _ _ _ ht

/-! ## Two runs -/

instance : DecidablePred EntersCalc := fun s => decidable_of_iff
  ((s.init = false ∧ s.disconnect = false ∧ s.deauthenticationRequest = false ∧
      s.authenticationRequest = false ∧ s.reAuthenticationRequest = false ∧ s.ptkRequest = false) ∧
    ((s.state = .ptkstart ∨ s.state = .ptkcalcnegotiating ∧ s.micVerified = false) ∧
        s.pairwiseReceived = true ∨
      s.state = .ptkinitnegotiating ∧ s.updateSnonce = true))
  ⟨fun ⟨⟨h1, h2, h3, h4, h5, h6⟩, h⟩ => ⟨⟨h1, h2, h3, h4, h5, h6⟩, h⟩,
    fun h => ⟨⟨h.init, h.disconnect, h.deauth, h.auth, h.reauth, h.ptk⟩, h.why⟩⟩

instance : Decidable (CalcSound c e s) := by
  unfold CalcSound
  split <;> infer_instance

instance : Decidable (AltSound c e f s) := by
  unfold AltSound
  cases (altSearch c e f s).2 <;> infer_instance

/-- What the condition says of a received frame. -/
def FrameSound (c : Conf) (e : Env) (s : Sm) : Event → Prop
  | .eapolKey f => ∀ r ∈ checkReplay s f, reachesMic s r f = true → AltSound c e f r
  | _ => True

instance : Decidable (FrameSound c e s ev) := by
  cases ev <;> unfold FrameSound <;> infer_instance

instance (x : Event × Env) : Decidable (StepSound c s x) := decidable_of_iff
  (s.pairwiseReceived = false ∧ (∀ t ∈ handed c x.2 s x.1, EntersCalc t → CalcSound c x.2 t) ∧
    FrameSound c x.2 s x.1)
  ⟨fun ⟨h1, h2, h3⟩ => ⟨h1, h2, fun f hf r hr => by rw [hf] at h3; exact h3 r hr⟩,
    fun h => ⟨h.idle, h.search, by
      cases hx : x.1 with
      | eapolKey f => exact h.alt f hx
      | _ => trivial⟩⟩

/-- The station associates and completes the 4-way handshake. -/
def plainRun : List (Event × Env) :=
  [(.staAssociated, pushing),
    (.eapolKey (plainMsg2 1 (List.replicate 32 9) (plainPtk.take 16)), pushing),
    (.eapolKey (plainMsg4 2 (plainPtk.take 16)), pushing)]

theorem plain_sound : Lib.Along (step (plainConf .lifi plainPrims)) (StepSound (plainConf .lifi plainPrims))
    (Sm.new wpa2Ccmp [plainPmk]) plainRun := by
  decide

/-- How PTKINITDONE looks in the trace of a plain station. -/
def doneTrace (K : Ptk) : List Out :=
  [.portValid .ptkinitdone, .authorized .ptkinitdone, .setKey .ptkinitdone 0 K.tk true]

/-- `exported_installed` for the plain handshake. -/
theorem exported_installed_plain : ∃ s old,
    run (plainConf .lifi plainPrims) (Sm.new wpa2Ccmp [plainPmk]) plainRun = some s ∧
      s.trace = doneTrace plainKeys ++ .ptkinitdone plainKeys :: old ∧
      lastPush old = some (plainKeys.kck ++ plainKeys.kek ++ plainKeys.tk) := by
  have heval : (run (plainConf .lifi plainPrims) (Sm.new wpa2Ccmp [plainPmk]) plainRun).map
      (fun s => s.trace.take 4) = some (doneTrace plainKeys ++ [.ptkinitdone plainKeys]) := rfl
  obtain ⟨s, hs, hval⟩ := Option.map_eq_some_iff.1 heval
  have htr : s.trace = doneTrace plainKeys ++ .ptkinitdone plainKeys :: s.trace.drop 4 := by
    have := List.take_append_drop 4 s.trace
    rw [hval] at this
    exact this.symm
  refine ⟨s, _, hs, htr, exported_installed rfl ⟨rfl, rfl⟩ ?_ plain_sound hs htr⟩
  intro x hx m hm
  simp only [plainRun, List.mem_cons, List.not_mem_nil, or_false] at hx
  rcases hx with rfl | rfl | rfl <;> cases hm

/-- The station answers two messages 1/4 with different SNonces, then a forged message 4/4
arrives before its own. -/
def staleRun : List (Event × Env) :=
  [(.staAssociated, pushing), (.eapolTimeout, pushing),
    (.eapolKey (plainMsg2 1 (List.replicate 32 9) (plainPtk.take 16)), pushing),
    (.eapolKey (plainMsg2 2 (List.replicate 32 8) (otherPtk.take 16)), pushing),
    (.eapolKey (plainMsg4 4 []), pushing),
    (.eapolKey (plainMsg4 4 (otherPtk.take 16)), pushing)]

/-- `otherPtk` cut into the keys. -/
def otherKeys : Ptk := ⟨otherPtk.take 16, (otherPtk.drop 16).take 16, otherPtk.drop 32, false⟩

/-- The PTK that is installed need not be the one pushed last. -/
theorem exported_stale : ¬ ∀ (c : Conf) (n : Negotiated) (psks : List Pmk) (es : List (Event × Env))
    (s : Sm), c.link = .lifi → Psk16 n → (∀ x ∈ es, ∀ m, x.1 = .assocReq m → Psk16 m) →
      run c (Sm.new n psks) es = some s → ∀ new old K, s.trace = new ++ .ptkinitdone K :: old →
        lastPush old = some (K.kck ++ K.kek ++ K.tk) := by
  intro hall
  have heval : (run (plainConf .lifi bothPrims) (Sm.new wpa2Ccmp [plainPmk]) staleRun).map
      (fun s => (s.trace.take 4, lastPush (s.trace.drop 4))) =
      some (doneTrace otherKeys ++ [.ptkinitdone otherKeys], some plainPtk) := rfl
  obtain ⟨s, hs, hval⟩ := Option.map_eq_some_iff.1 heval
  simp only [Prod.mk.injEq] at hval
  have htr : s.trace = doneTrace otherKeys ++ .ptkinitdone otherKeys :: s.trace.drop 4 := by
    have := List.take_append_drop 4 s.trace
    rw [hval.1] at this
    exact this.symm
  have hes : ∀ x ∈ staleRun, ∀ m, x.1 = .assocReq m → Psk16 m := by
    intro x hx m hm
    simp only [staleRun, List.mem_cons, List.not_mem_nil, or_false] at hx
    rcases hx with rfl | rfl | rfl | rfl | rfl | rfl <;> cases hm
  have hlast := hall _ _ _ _ s rfl ⟨rfl, rfl⟩ hes hs _ _ _ htr
  rw [hval.2] at hlast
  exact absurd hlast (by decide)

end Lightguard.Auth
