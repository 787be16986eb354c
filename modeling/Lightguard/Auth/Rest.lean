import Mathlib.Logic.Relation
import Lightguard.Auth.Loop

/-!
# The authenticator from one event to the next

* `checkMic_cases`: what the MIC check can do.
* `Act`: the few things the machine can do to its keys, its port and the frame in hand.
* `Rest`: no request is pending and no frame is on its way to PTKINITDONE.
* `step_acts`: an event is a sequence of acts and leaves the machine at rest.
* `run_inv`: what every act keeps, every run keeps.
-/

namespace Lightguard.Auth

open Wpa

variable {c : Conf} {ev : Event} {e : Env} {f : EapolKey} {s s' t : Sm}

/-! ## Received frames -/

/-- The machine with the notes on an earlier SNonce replaced. -/
def Sm.withAlt (s : Sm) (u : Bool) (n : Bytes) (v : Bool) (k : ℕ) : Sm :=
  { s with updateSnonce := u, altSNonce := n, altSnonceValid := v, altReplayCounter := k }

/-- The replay check changes nothing but the notes on an earlier SNonce. -/
theorem checkReplay_eq (h : checkReplay s f = some t) : ∃ u n v k, t = s.withAlt u n v k ∧
    (u = s.updateSnonce ∨ u = true ∧ classify f = .pairwise2 ∧ s.state = .ptkinitnegotiating) := by
  unfold checkReplay at h
  split at h
  · split at h
    · cases h
    · obtain rfl : s = t := by simpa using h
      exact ⟨_, _, _, _, rfl, .inl rfl⟩
  split at h
  · obtain rfl : s = t := by simpa using h
    exact ⟨_, _, _, _, rfl, .inl rfl⟩
  split at h
  · rename_i h1
    obtain rfl := Option.some.inj h
    exact ⟨_, _, _, _, rfl, .inr ⟨rfl, h1.1, h1.2.2.1⟩⟩
  split at h
  · obtain rfl : s = t := by simpa using h
    exact ⟨_, _, _, _, rfl, .inl rfl⟩
  · cases h

/-- What the MIC check can do. -/
inductive MicCheck (c : Conf) (e : Env) (f : EapolKey) (s : Sm) : Bool × Sm → Prop
  /-- There is no PTK to check with, or the SNonce is about to change. -/
  | unchecked (h : s.ptkValid = false ∨ s.updateSnonce = true) : MicCheck c e f s (true, s)
  /-- The key management suite has no MIC. -/
  | noMic (h : s.ptkValid = true) (h0 : s.micLen = 0) :
      MicCheck c e f s (true, micPassed (s.out .micSkipped))
  | verified (h : s.ptkValid = true) (hm : s.micLen ≠ 0)
      (hv : c.prims.verifyKeyMic s.ptk f = true) :
      MicCheck c e f s (true, micPassed (s.out (.micVerified s.ptk)))
  /-- A message 4/4 under the PTK of the earlier SNonce. -/
  | alt {pmk : Pmk} {ptk : Ptk} (h : s.ptkValid = true) (hm : s.micLen ≠ 0)
      (hv : c.prims.verifyKeyMic s.ptk f = false) (h4 : classify f = .pairwise4)
      (ha : s.altSnonceValid = true)
      (hf : (altSearch c e f s).2 = some (pmk, ptk)) :
      MicCheck c e f s (true, micPassed (altAdopted c e f pmk ptk s))
  | failedAlt (h : s.ptkValid = true) (hm : s.micLen ≠ 0)
      (hv : c.prims.verifyKeyMic s.ptk f = false) (h4 : classify f = .pairwise4)
      (ha : s.altSnonceValid = true)
      (hf : (altSearch c e f s).2 = none) :
      MicCheck c e f s (false, { s with
        trace := searchOut (altSearch c e f s) ++ s.trace })
  | failed (h : s.ptkValid = true) (hm : s.micLen ≠ 0)
      (hv : c.prims.verifyKeyMic s.ptk f = false) : MicCheck c e f s (false, s)

/-- **The MIC check.** -/
theorem checkMic_cases (c : Conf) (e : Env) (f : EapolKey) (s : Sm) :
    MicCheck c e f s (checkMic c e f s) := by
  unfold checkMic
  by_cases h0 : s.ptkValid = true ∧ (!s.updateSnonce) = true
  · rw [if_pos h0]
    by_cases h1 : s.micLen = 0
    · rw [if_pos h1]
      exact .noMic h0.1 h1
    rw [if_neg h1]
    by_cases h2 : c.prims.verifyKeyMic s.ptk f = true
    · rw [if_pos h2]
      exact .verified h0.1 h1 h2
    rw [if_neg h2]
    have h2' : c.prims.verifyKeyMic s.ptk f = false := by simpa using h2
    by_cases h3 : classify f = .pairwise4 ∧ s.altSnonceValid = true
    · rw [if_pos h3]
      unfold wpaTryAltSnonce
      cases hr : (altSearch c e f s).2 with
      | none => exact .failedAlt h0.1 h1 h2' h3.1 h3.2 hr
      | some r =>
        obtain ⟨pmk, ptk⟩ := r
        exact .alt h0.1 h1 h2' h3.1 h3.2 hr
    · rw [if_neg h3]
      exact .failed h0.1 h1 h2'
  · rw [if_neg h0]
    refine .unchecked ?_
    by_cases hp : s.ptkValid = true
    · exact .inr (by simpa [hp] using h0)
    · exact .inl (by simpa using hp)

theorem MicCheck.of_eq {b : Bool} (h : checkMic c e f s = (b, t)) : MicCheck c e f s (b, t) :=
  h ▸ checkMic_cases c e f s

/-! ## Acts -/

/-- What the machine does, piece by piece. The transitions that leave keys, port and frames
alone are one piece, `plain`. -/
inductive Act (c : Conf) (ev : Event) (e : Env) (s : Sm) : Sm → Prop
  | plain {t : Sm} (h : Plain e s t) : Act c ev e s t
  | initFlag {t : Sm} (b : Bool) (ha : ¬ Awaits s) (h : Plain e { s with init := b } t) : Act c ev e s t
  /-- The station (re)associates. -/
  | associated (h : ¬ Awaits s) : Act c ev e s (s.out .associated)
  /-- A frame has passed the replay check, or the MIC check begins. -/
  | noted (u : Bool) (n : Bytes) (v : Bool) (k : ℕ) : Act c ev e s (s.withAlt u n v k)
  | micReset : Act c ev e s { s with micVerified := false }
  /-- A frame whose MIC is wrong. -/
  | refused {f : EapolKey} {t : Sm} (h0 : s.micVerified = false)
      (h : MicCheck c e f s (false, t)) : Act c ev e s t
  /-- A frame is left for the state machine. -/
  | received {f : EapolKey} {t : Sm} (h0 : s.micVerified = false)
      (hw : ¬ (c.link = .wifi ∧ s.ptkValid = true ∧ s.pairwiseSet = true))
      (h : MicCheck c e f s (true, t)) : Act c ev e s (storeFrame f (useReplayCounter f t))
  | requested {f : EapolKey} {t : Sm} (h0 : s.micVerified = false) (hf : f.request = true)
      (h : MicCheck c e f s (true, t)) : Act c ev e s (storeFrame f t)
  | searched (h : EntersCalc s) : Act c ev e s (calcSearched c e s)
  | adopted (h : EntersCalc s) {pmk : Pmk} {ptk : Ptk}
      (hf : (calcSearch c e s).2 = some (pmk, ptk)) (hi : checkIes s = .same) :
      Act c ev e s (calcAdopted c e pmk ptk s)
  | done (h : EntersDone s) : Act c ev e s (enterPtkinitdone c e s)
  /-- The fork writes a PTK of its own. -/
  | install (site : Site) (ptk : Ptk) (hl : c.link = .wifi) (ha : ¬ Awaits s)
      (hp : site = .ptkTcp ∨ (site = .fastPath ∨ site = .rekeyPtk) ∧ ptk = customTestPtk) :
      Act c ev e s (tryInstall c e site ptk s).2
  /-- The fork's fast path opens the port. -/
  | fastPath (hl : c.link = .wifi) (ha : ¬ Awaits s)
      (h : (tryInstall c e .fastPath customTestPtk s).1 = true) :
      Act c ev e s (openPort .fastPath (installCustomGtk e (tryInstall c e .fastPath customTestPtk s).2))
  | negotiated (n : Negotiated) (h : ev = .assocReq n) : Act c ev e s { s with neg := n }
  | newPsks (l : List Pmk) (h : ev = .setPsks l) : Act c ev e s { s with psks := l }

/-- Acts one after the other. -/
abbrev Acts (c : Conf) (ev : Event) (e : Env) : Sm → Sm → Prop := Relation.ReflTransGen (Act c ev e)

theorem Act.acts (h : Act c ev e s t) : Acts c ev e s t := .single h

theorem Plain.acts (h : Plain e s t) : Acts c ev e s t := .single (.plain h)

/-! ## `wpa_sm_step` -/

/-- No transition puts a frame on its way to PTKINITDONE. -/
theorem PtkStep.not_awaits (h : PtkStep c e s t) (ha : ¬ Awaits s) : ¬ Awaits t := by
  cases h with
  | rest => exact ha
  | plain h => exact fun h' => ha (h.awaits h')
  | search =>
    rcases enterPtkcalcnegotiating_cases c e s with ⟨pmk, ptk, -, -, heq⟩ | ⟨-, hp⟩
    · rw [heq]
      exact fun h => nomatch h.received
    · exact fun h => nomatch (hp.awaits h).received
  | done =>
    rcases enterPtkinitdone_cases c e s with ⟨-, -, heq⟩ | ⟨-, heq⟩ | ⟨-, -, hp⟩
    · rw [heq]
      exact fun h => nomatch h.received
    · rw [heq]
      exact fun h => nomatch h.received
    · exact fun h => nomatch (hp.awaits h).received

theorem PtkStep.acts (h : PtkStep c e s t) : Acts c ev e s t := by
  cases h with
  | rest => exact .refl
  | plain h => exact h.acts
  | search h =>
    rcases enterPtkcalcnegotiating_cases c e s with ⟨pmk, ptk, hf, hi, heq⟩ | ⟨-, hp⟩
    · rw [heq]
      exact (Act.adopted h hf hi).acts
    · exact (Act.searched h).acts.trans hp.acts
  | done h => exact (Act.done h).acts

theorem smRound_acts (s : Sm) : Acts c ev e s (smRound c e s) := by
  have h : Plain e s s.unchanged := .stay rfl id (·.of rfl)
  exact (h.acts.trans (smStepPtk_step _).acts).trans (smStepPtkGroup_plain _).acts

/-- Between two events: no request is pending and no frame is on its way to PTKINITDONE. -/
structure Rest (s : Sm) : Prop extends NoRequest s where
  awaits : ¬ Awaits s

/-- **`wpa_sm_step`** is a sequence of acts and ends at rest. -/
theorem wpaSmStep_acts (h : wpaSmStep c e s = some s') : Acts c ev e s s' :=
  smLoop_inv (fun t ht => ht.trans (smRound_acts t)) .refl h

theorem wpaSmStep_rest (hi : s.init = false) (h : wpaSmStep c e s = some s') : Rest s' := by
  have keep : ∀ t : Sm, t.init = false → (smRound c e t).init = false := by
    intro t ht
    have h1 := (smStepPtk_step (c := c) (e := e) t.unchanged).init
    have h2 := (smStepPtkGroup_plain (c := c) (e := e) (smStepPtk c e t.unchanged)).init
    exact h2.trans (h1.trans ht)
  obtain ⟨t, ht, rfl, hc⟩ := smLoop_last keep hi h
  obtain ⟨heq, hn, -, ha⟩ := smRound_rest ht hc
  rw [heq]
  exact ⟨⟨hn.init, hn.disconnect, hn.deauth, hn.auth, hn.reauth, hn.ptk⟩,
    fun h => ha ⟨h.late, h.received, h.mic⟩⟩

theorem wpaSmStep_not_awaits (ha : ¬ Awaits s) (h : wpaSmStep c e s = some s') : ¬ Awaits s' := by
  have keep : ∀ t : Sm, ¬ Awaits t → ¬ Awaits (smRound c e t) := by
    intro t ht h
    have h1 := (smStepPtk_step (c := c) (e := e) t.unchanged).not_awaits
      fun h => ht ⟨h.late, h.received, h.mic⟩
    exact h1 ((smStepPtkGroup_plain _).awaits h)
  exact smLoop_inv keep ha h

/-- A handler that ends in `wpa_sm_step`. -/
theorem acts_step (h0 : Acts c ev e s t) (hi : t.init = false) (h : wpaSmStep c e t = some s') :
    Acts c ev e s s' ∧ Rest s' := ⟨h0.trans (wpaSmStep_acts h), wpaSmStep_rest hi h⟩

/-! ## The handlers -/

/-- What `wpa_receive` hands on: acts so far, and the machine is at rest or steps. -/
def Next.OK (c : Conf) (ev : Event) (e : Env) (s : Sm) : Next → Prop
  | .ret t => Acts c ev e s t ∧ Rest t
  | .step t => Acts c ev e s t ∧ t.init = false
  | .gone => True

theorem MicCheck.init {b : Bool} (h : MicCheck c e f s (b, t)) : t.init = s.init := by
  cases h <;> rfl

theorem MicCheck.request {b : Bool} (h : MicCheck c e f s (b, t)) (hn : NoRequest s) :
    NoRequest t := by
  cases h <;> exact ⟨hn.init, hn.disconnect, hn.deauth, hn.auth, hn.reauth, hn.ptk⟩

theorem MicCheck.refused_mic (h : MicCheck c e f s (false, t)) : t.micVerified = s.micVerified := by
  cases h <;> rfl

theorem handleRequest_ok (h0 : t.micVerified = false) (hf : f.request = true)
    {u : Sm} (hs : Acts c ev e s t) (hn : NoRequest t) (h : MicCheck c e f t (true, u)) :
    (handleRequest c e f u).OK c ev e s := by
  have hstore : Acts c ev e s (storeFrame f u) := hs.trans (Act.requested h0 hf h).acts
  have hi : u.init = false := h.init.trans hn.init
  unfold handleRequest
  split
  · -- without a valid PTK the frame is dropped
    rename_i hm
    cases h with
    | unchecked => exact ⟨hs, hn, fun h => by rw [h0] at hm; exact absurd h.mic (by simp [h0])⟩
    | _ => simp [micPassed] at hm
  simp only
  have hreq : (Next.step (storeFrame f (wpaRequestNewPtk c (useRequestCounter f u)))).OK c ev e s := by
    unfold wpaRequestNewPtk
    split
    · exact ⟨hstore.trans (Plain.acts (.stay rfl id fun h => nomatch h.disconnect)), hi⟩
    · refine ⟨hstore.trans (Plain.acts ?_), hi⟩
      exact ⟨rfl, rfl, rfl, rfl, id, id, rfl, rfl, rfl, rfl, nofun, id, .inl rfl,
        (fun _ h => nomatch h.ptk), ⟨[], rfl, by simp, .inl rfl⟩, fun h => h.congr rfl rfl⟩
  split
  · split
    · trivial
    · exact hreq
  split
  · exact hreq
  · exact ⟨hstore.trans (Plain.acts (.stay rfl id (·.of rfl))), hi⟩

/-- The frame gets as far as the MIC check; `r` is the machine after the replay check. -/
def reachesMic (s r : Sm) (f : EapolKey) : Bool :=
  formatOk s f && stateOk r (classify f) && !f.ack && f.hasMic

/-- What can become of a received frame; `r` is the machine after the replay check. -/
inductive Received (c : Conf) (e : Env) (f : EapolKey) (s : Sm) : Next → Prop
  /-- The frame is dropped before the replay check, or by it. -/
  | dropped : Received c e f s (.ret s)
  | noted {r : Sm} (hr : checkReplay s f = some r) : Received c e f s (.ret r)
  /-- There is not enough entropy for a message 2/4. -/
  | entropy {r : Sm} (hr : checkReplay s f = some r) :
      Received c e f s (.step (wpaStaDisconnect e r))
  | refused {r t : Sm} (hr : checkReplay s f = some r) (hm : reachesMic s r f = true)
      (h : checkMic c e f { r with micVerified := false } = (false, t)) : Received c e f s (.ret t)
  | request {r t : Sm} (hr : checkReplay s f = some r) (hm : reachesMic s r f = true)
      (hf : f.request = true)
      (h : checkMic c e f { r with micVerified := false } = (true, t)) :
      Received c e f s (handleRequest c e f t)
  | stored {r t : Sm} (hw : ¬ (c.link = .wifi ∧ s.ptkValid = true ∧ s.pairwiseSet = true))
      (hr : checkReplay s f = some r) (hm : reachesMic s r f = true) (hf : f.request = false)
      (h : checkMic c e f { r with micVerified := false } = (true, t)) :
      Received c e f s (.step (storeFrame f (useReplayCounter f t)))

/-- **The checks of a received frame.** -/
theorem wpaReceive_cases (c : Conf) (e : Env) (f : EapolKey) (s : Sm) :
    Received c e f s (wpaReceive c e f s) := by
  unfold wpaReceive
  split
  · exact .dropped
  rename_i hw
  split
  · exact .dropped
  rename_i hfmt
  cases hrep : checkReplay s f with
  | none => exact .dropped
  | some r =>
    simp only
    split
    · exact .noted hrep
    rename_i hst
    split
    · exact .entropy hrep
    split
    · exact .noted hrep
    rename_i hbits
    have hm : reachesMic s r f = true := by
      simp only [Bool.not_eq_true', Bool.not_eq_false, not_or] at hfmt hst hbits
      simp [reachesMic, hfmt, hst, hbits]
    generalize hq : checkMic c e f { r with micVerified := false } = q
    obtain ⟨b, t⟩ := q
    cases b with
    | false => exact .refused hrep hm hq
    | true =>
      simp only [Bool.not_true, Bool.false_eq_true, if_false]
      split
      · rename_i hf
        exact .request hrep hm hf hq
      · rename_i hf
        exact .stored hw hrep hm (by simpa using hf) hq

/-- **A received frame.** -/
theorem wpaReceive_ok (hr : Rest s) : (wpaReceive c e f s).OK c ev e s := by
  have hnote : ∀ r, checkReplay s f = some r →
      Acts c ev e s r ∧ Rest r ∧ r.ptkValid = s.ptkValid ∧ r.pairwiseSet = s.pairwiseSet := by
    intro r hrep
    obtain ⟨u, n, v, k, rfl, -⟩ := checkReplay_eq hrep
    exact ⟨(Act.noted u n v k).acts,
      ⟨⟨hr.init, hr.disconnect, hr.deauth, hr.auth, hr.reauth, hr.ptk⟩,
        fun h => hr.awaits ⟨h.late, h.received, h.mic⟩⟩, rfl, rfl⟩
  -- the MIC check begins with MICVerified cleared
  have hmic : ∀ r, checkReplay s f = some r →
      Acts c ev e s { r with micVerified := false } ∧
        NoRequest { r with micVerified := false } := by
    intro r hrep
    obtain ⟨h1, h2, -⟩ := hnote r hrep
    exact ⟨h1.trans Act.micReset.acts,
      ⟨h2.init, h2.disconnect, h2.deauth, h2.auth, h2.reauth, h2.ptk⟩⟩
  have hcases := wpaReceive_cases c e f s
  generalize wpaReceive c e f s = q at hcases ⊢
  cases hcases with
  | dropped => exact ⟨.refl, hr⟩
  | noted hrep => exact ⟨(hnote _ hrep).1, (hnote _ hrep).2.1⟩
  | entropy hrep =>
    obtain ⟨h1, h2, -⟩ := hnote _ hrep
    exact ⟨h1.trans (wpaStaDisconnect_plain _).acts, h2.init⟩
  | refused hrep _ hq =>
    have h := MicCheck.of_eq hq
    obtain ⟨h1, h2⟩ := hmic _ hrep
    refine ⟨h1.trans (Act.refused rfl h).acts, h.request h2, fun ha => ?_⟩
    have := ha.mic
    rw [h.refused_mic] at this
    cases this
  | request hrep _ hf hq =>
    have h := MicCheck.of_eq hq
    obtain ⟨h1, h2⟩ := hmic _ hrep
    exact handleRequest_ok rfl hf h1 h2 h
  | @stored r t hw hrep _ hf hq =>
    have h := MicCheck.of_eq hq
    obtain ⟨h1, h2⟩ := hmic _ hrep
    obtain ⟨-, -, h3, h4⟩ := hnote _ hrep
    have hw' : ¬ (c.link = .wifi ∧ { r with micVerified := false }.ptkValid = true ∧
        { r with micVerified := false }.pairwiseSet = true) := by
      intro h
      exact hw ⟨h.1, h3 ▸ h.2.1, h4 ▸ h.2.2⟩
    exact ⟨h1.trans (Act.received (s := { r with micVerified := false }) rfl hw' h).acts, h.init.trans h2.init⟩

/-- The call of `wpa_auth_set_key` the fork makes after it. -/
def Sm.handed (site : Site) (ptk : Ptk) (ok : Bool) (s : Sm) : Sm :=
  (s.wrote ptk).out (.setKey site 0 ptk.tk ok)

/-- **The fork's install** reaches the driver only with a TK of the cipher's length. -/
theorem tryInstall_cases (c : Conf) (e : Env) (site : Site) (ptk : Ptk) (s : Sm) :
    (¬ (0 < s.neg.pairwise.keyLen ∧ s.neg.pairwise.keyLen = ptk.tk.length) ∧
      tryInstall c e site ptk s = (false, s.wrote ptk)) ∨
    (0 < s.neg.pairwise.keyLen ∧ s.neg.pairwise.keyLen = ptk.tk.length) ∧
      (e.setKey = false ∧ tryInstall c e site ptk s = (false, s.handed site ptk false) ∨
        e.setKey = true ∧
          tryInstall c e site ptk s = (true, ptkInstalled c (s.handed site ptk true))) := by
  unfold tryInstall
  by_cases h : 0 < s.neg.pairwise.keyLen ∧ s.neg.pairwise.keyLen = ptk.tk.length
  · have htk : ptk.tkBuf s.neg.pairwise.keyLen = ptk.tk := by rw [h.2]; exact Ptk.tkBuf_length
    refine .inr ⟨h, ?_⟩
    simp only [if_pos h, htk]
    cases e.setKey with
    | false => exact .inl ⟨rfl, rfl⟩
    | true => exact .inr ⟨rfl, rfl⟩
  · exact .inl ⟨h, if_neg h⟩

/-- **The PTK TCP port**: a payload that does not decode changes nothing, and a PTK that does has a TK of
the cipher's length. -/
theorem wpaAuthInstallCustomPtkCb_match (c : Conf) (e : Env) (buf : Text) (s : Sm) :
    wpaAuthInstallCustomPtkCb c e buf s =
      match if s.neg.pairwise.validPairwise then decodePtk s.neg.pairwise.keyLen buf else none with
      | none => s
      | some ptk =>
        if e.setKey then ptkInstalled c (s.handed .ptkTcp ptk true) else s.handed .ptkTcp ptk false := by
  unfold wpaAuthInstallCustomPtkCb
  by_cases hv : s.neg.pairwise.validPairwise = true
  · rw [if_neg (by simp [hv]), if_pos hv]
    cases hd : decodePtk s.neg.pairwise.keyLen buf with
    | none => rfl
    | some ptk =>
      have hpos := keyLen_pos (k := s.neg.pairwise) (by simpa [Cipher.validPairwise] using hv)
      have hlen := (decodePtk_length hd).2.2.1
      rcases tryInstall_cases c e .ptkTcp ptk s with ⟨hk, -⟩ | ⟨-, ⟨he, heq⟩ | ⟨he, heq⟩⟩
      · exact absurd ⟨hpos, hlen.symm⟩ hk
      · simp only [heq, he, Bool.false_eq_true, if_false]
      · simp only [heq, he, if_true]
  · rw [if_pos (by simpa using hv), if_neg hv]

theorem NoRequest.tryInstall {site : Site} {ptk : Ptk} (h : NoRequest s) :
    NoRequest (tryInstall c e site ptk s).2 := by
  rcases tryInstall_cases c e site ptk s with ⟨-, h'⟩ | ⟨-, ⟨-, h'⟩ | ⟨-, h'⟩⟩ <;>
    rw [h'] <;> exact ⟨h.init, h.disconnect, h.deauth, h.auth, h.reauth, h.ptk⟩

theorem Rest.tryInstall {site : Site} {ptk : Ptk} (h : Rest s) :
    Rest (tryInstall c e site ptk s).2 := by
  refine ⟨h.toNoRequest.tryInstall, fun ha => ?_⟩
  rcases tryInstall_cases c e site ptk s with ⟨-, h'⟩ | ⟨-, ⟨-, h'⟩ | ⟨-, h'⟩⟩ <;> rw [h'] at ha
  · exact h.awaits ⟨ha.late, ha.received, ha.mic⟩
  · exact h.awaits ⟨ha.late, ha.received, ha.mic⟩
  · -- the fork puts the machine into PTKINITDONE
    cases ha.late

theorem restart_acts (ha : ¬ Awaits s)
    (h : wpaSmStep c e { s with started := true, init := true } = some t) :
    Acts c ev e s t ∧ ¬ Awaits t := by
  have h1 : Act c ev e s { s with started := true, init := true } :=
    .initFlag true ha (.stay rfl id (·.of rfl))
  have h2 : ¬ Awaits { s with started := true, init := true } :=
    fun h => ha ⟨h.late, h.received, h.mic⟩
  exact ⟨h1.acts.trans (wpaSmStep_acts h), wpaSmStep_not_awaits h2 h⟩

/-- What `wpa_auth_sm_event` asks of the machine. -/
inductive Asked (c : Conf) (e : Env) (s : Sm) : Sm → Prop
  | nothing : Asked c e s s
  | deauth : Asked c e s { s with deauthenticationRequest := true }
  | restart {t : Sm} (h : wpaSmStep c e { s with started := true, init := true } = some t) :
    Asked c e s { t with init := false, authenticationRequest := true }
  | refuse : Asked c e s { s with disconnect := true }
  | reauth : Asked c e s { s with
      keyidxActive := if s.neg.useExtKeyId then 1 - s.keyidxActive else s.keyidxActive
      ptkGroupInit := s.ptkGroupInit || s.gUpdateStationKeys
      gUpdateStationKeys := false
      reAuthenticationRequest := true }

/-- `sm->PTK` goes. -/
def Sm.ptkDropped (s : Sm) : Sm := { s with ptkValid := false, ptk := .zero }.out .ptkCleared

/-- **`wpa_auth_sm_event`**: what is asked for, the PTK, and then the machine. -/
theorem wpaAuthSmEvent_cases {w : WpaEvent} (h : wpaAuthSmEvent c e w s = some t) :
    ∃ u, Asked c e s u ∧ (wpaSmStep c e u = some t ∨ wpaSmStep c e u.ptkDropped = some t ∨
      wpaSmStep c e (wpaRemovePtk e u.ptkDropped) = some t) := by
  unfold wpaAuthSmEvent at h
  obtain ⟨u, hu, h⟩ := Option.bind_eq_some_iff.1 h
  refine ⟨u, ?_, ?_⟩
  · cases w with
    | auth | assoc =>
      obtain rfl := Option.some.inj hu
      exact .nothing
    | deauth | disassoc =>
      obtain rfl := Option.some.inj hu
      exact .deauth
    | reauth | reauthEapol =>
      simp only at hu
      split at hu
      · obtain ⟨v, hv, rfl⟩ := Option.map_eq_some_iff.1 hu
        exact .restart hv
      split at hu
      · obtain rfl := Option.some.inj hu
        exact .refuse
      · obtain rfl := Option.some.inj hu
        exact .reauth
  · simp only at h
    split at h
    · exact .inl h
    split at h
    · exact .inr (.inl h)
    · exact .inr (.inr h)

/-- A frame is done with, or hands the machine on. -/
theorem Next.run_cases {q : Next} (h : q.run c e = some t) :
    q = .ret t ∨ ∃ u, q = .step u ∧ wpaSmStep c e u = some t := by
  cases q with
  | ret u => exact .inl (congrArg Next.ret (Option.some.inj h))
  | step u => exact .inr ⟨u, rfl, h⟩
  | gone => cases h

theorem Asked.acts (ev : Event) (h : Asked c e s t) (ha : ¬ Awaits s) (hi : s.init = false) :
    Acts c ev e s t ∧ t.init = false ∧ ¬ Awaits t := by
  cases h with
  | nothing => exact ⟨.refl, hi, ha⟩
  | deauth =>
    exact ⟨Plain.acts (.stay rfl id fun h => nomatch h.deauth), hi,
      fun h => ha ⟨h.late, h.received, h.mic⟩⟩
  | restart hu =>
    obtain ⟨h1, h2⟩ := restart_acts ha hu
    exact ⟨h1.tail (.initFlag false h2 (.stay rfl id fun h => nomatch h.auth)), rfl,
      fun h => h2 ⟨h.late, h.received, h.mic⟩⟩
  | refuse =>
    exact ⟨Plain.acts (.stay rfl id fun h => nomatch h.disconnect), hi,
      fun h => ha ⟨h.late, h.received, h.mic⟩⟩
  | reauth =>
    exact ⟨Plain.acts (.stay rfl id fun h => nomatch h.reauth), hi,
      fun h => ha ⟨h.late, h.received, h.mic⟩⟩

/-- Dropping the PTK is plain unless message 4/4 awaits it. -/
theorem ptkDropped_plain (ha : ¬ Awaits s) : Plain e s s.ptkDropped :=
  ⟨rfl, rfl, rfl, rfl, id, id, rfl, rfl, rfl, rfl, nofun, id, .inl rfl,
    (fun h => absurd ⟨h.late, h.received, h.mic⟩ ha),
    ⟨[.ptkCleared], rfl, by simp [Out.quiet], .inl rfl⟩, fun h => h.clear rfl rfl⟩

theorem wpaAuthSmEvent_acts {w : WpaEvent} (ha : ¬ Awaits s) (hi : s.init = false)
    (h : wpaAuthSmEvent c e w s = some s') : Acts c ev e s s' ∧ Rest s' := by
  obtain ⟨t, ht, h⟩ := wpaAuthSmEvent_cases h
  obtain ⟨h1, h2, h3⟩ := ht.acts ev ha hi
  have hdrop : Plain e t t.ptkDropped := ptkDropped_plain h3
  rcases h with h | h | h
  · exact acts_step h1 h2 h
  · exact acts_step (h1.trans hdrop.acts) h2 h
  · exact acts_step (h1.trans (hdrop.trans (wpaRemovePtk_plain fun h => h3 (hdrop.awaits h))).acts) h2 h

theorem startAuthentication_acts (ha : ¬ Awaits s) (hi : s.init = false)
    (h : startAuthentication c e s = some s') : Acts c ev e s s' ∧ Rest s' := by
  unfold startAuthentication at h
  split at h
  · exact acts_step (Plain.acts (.stay rfl id fun h => nomatch h.reauth)) (t := { s with
      keyReplay := noCounters, reAuthenticationRequest := true }) hi h
  · simp only [Option.bind_eq_some_iff] at h
    obtain ⟨t, ht, h⟩ := h
    obtain ⟨h1, h2⟩ := restart_acts ha ht
    have h3 : Acts c ev e s { t with init := false, authenticationRequest := true } :=
      h1.tail (.initFlag false h2 (.stay rfl id fun h => nomatch h.auth))
    exact acts_step h3 rfl h

theorem wpaAuthStaAssociated_acts (hr : Rest s) (h : wpaAuthStaAssociated c e s = some s') :
    Acts c ev e s s' ∧ Rest s' := by
  unfold wpaAuthStaAssociated at h
  split at h
  · rename_i hl
    simp only at h
    have hin : Acts c ev e s (tryInstall c e .fastPath customTestPtk s).2 :=
      (Act.install .fastPath customTestPtk hl.1 hr.awaits (.inr ⟨.inl rfl, rfl⟩)).acts
    split at h
    · rename_i ht
      obtain rfl := Option.some.inj h
      refine ⟨(Act.fastPath hl.1 hr.awaits ht).acts, ?_⟩
      have hr' : Rest (tryInstall c e .fastPath customTestPtk s).2 := hr.tryInstall
      have hg : Rest (installCustomGtk e (tryInstall c e .fastPath customTestPtk s).2) := by
        unfold installCustomGtk
        split
        · exact ⟨⟨hr'.init, hr'.disconnect, hr'.deauth, hr'.auth, hr'.reauth, hr'.ptk⟩,
            fun h => hr'.awaits ⟨h.late, h.received, h.mic⟩⟩
        · exact hr'
      exact ⟨⟨hg.init, hg.disconnect, hg.deauth, hg.auth, hg.reauth, hg.ptk⟩,
        fun h => hg.awaits ⟨h.late, h.received, h.mic⟩⟩
    · obtain ⟨h1, h2⟩ := startAuthentication_acts hr.tryInstall.awaits hr.tryInstall.init h
      exact ⟨hin.trans h1, h2⟩
  · exact startAuthentication_acts hr.awaits hr.init h

theorem wpaRequestNewPtk_plain (s : Sm) : Plain e s (wpaRequestNewPtk c s) := by
  unfold wpaRequestNewPtk
  split
  · exact .stay rfl id fun h => nomatch h.disconnect
  · exact ⟨rfl, rfl, rfl, rfl, id, id, rfl, rfl, rfl, rfl, nofun, id, .inl rfl,
        (fun _ h => nomatch h.ptk), ⟨[], rfl, by simp, .inl rfl⟩, fun h => h.congr rfl rfl⟩

theorem wpaRekeyPtk_acts (hr : Rest s) (h : wpaRekeyPtk c e s = some s') :
    Acts c ev e s s' ∧ Rest s' := by
  have hoff : Plain e s { s with rekeyTimer := false } := .stay rfl id (·.of rfl)
  have hr' : Rest { s with rekeyTimer := false } :=
    ⟨⟨hr.init, hr.disconnect, hr.deauth, hr.auth, hr.reauth, hr.ptk⟩,
      fun h => hr.awaits ⟨h.late, h.received, h.mic⟩⟩
  unfold wpaRekeyPtk at h
  simp only at h
  split at h
  · rename_i hl
    have hin : Acts c ev e s (tryInstall c e .rekeyPtk customTestPtk { s with rekeyTimer := false }).2 :=
      hoff.acts.tail (.install .rekeyPtk customTestPtk hl.1 hr'.awaits (.inr ⟨.inr rfl, rfl⟩))
    have hrin : Rest (tryInstall c e .rekeyPtk customTestPtk { s with rekeyTimer := false }).2 :=
      hr'.tryInstall
    split at h
    · obtain rfl := Option.some.inj h
      exact ⟨hin, hrin⟩
    · have hreq := wpaRequestNewPtk_plain (c := c) (e := e)
        (tryInstall c e .rekeyPtk customTestPtk { s with rekeyTimer := false }).2
      exact acts_step (hin.trans hreq.acts) (hreq.init.trans hrin.init) h
  · have hreq := wpaRequestNewPtk_plain (c := c) (e := e) { s with rekeyTimer := false }
    exact acts_step (hoff.trans hreq).acts (hreq.init.trans hr'.init) h

theorem wpaAuthInstallCustomPtkCb_acts (buf : Text) (hl : c.link = .wifi) (hr : Rest s) :
    Acts c ev e s (wpaAuthInstallCustomPtkCb c e buf s) ∧
      Rest (wpaAuthInstallCustomPtkCb c e buf s) := by
  unfold wpaAuthInstallCustomPtkCb
  split
  · exact ⟨.refl, hr⟩
  cases decodePtk s.neg.pairwise.keyLen buf with
  | none => exact ⟨.refl, hr⟩
  | some ptk => exact ⟨(Act.install .ptkTcp ptk hl hr.awaits (.inl rfl)).acts, hr.tryInstall⟩

/-- **One event** is a sequence of acts and leaves the machine at rest. -/
theorem step_acts (hr : Rest s) (h : step c s (ev, e) = some s') :
    Acts c ev e s s' ∧ Rest s' := by
  -- what the events change outside the machine keeps it at rest
  have still : ∀ t : Sm, NoRequest t → t.state = s.state → t.micVerified = s.micVerified →
      t.pairwiseReceived = s.pairwiseReceived → Rest t := fun t hn h1 h2 h3 =>
    ⟨hn, fun h => hr.awaits ⟨h1 ▸ h.late, h3 ▸ h.received, h2 ▸ h.mic⟩⟩
  have hn : ∀ (n : Negotiated) (l : List Pmk) (b : Bool) (o : List Out), NoRequest { s with
      neg := n, psks := l, gUpdateStationKeys := b, trace := o } := fun _ _ _ _ =>
    ⟨hr.init, hr.disconnect, hr.deauth, hr.auth, hr.reauth, hr.ptk⟩
  have hassoc : Rest (s.out .associated) := still _ (hn _ _ _ _) rfl rfl rfl
  cases ev with
  | assocReq n =>
    obtain rfl := Option.some.inj h
    exact ⟨(Act.negotiated n rfl).acts, still _ (hn _ _ _ _) rfl rfl rfl⟩
  | sm w =>
    simp only [step] at h
    split at h
    · obtain ⟨h1, h2⟩ := wpaAuthSmEvent_acts hassoc.awaits hassoc.init h
      exact ⟨h1.head (.associated hr.awaits), h2⟩
    · exact wpaAuthSmEvent_acts hr.awaits hr.init h
  | staAssociated =>
    obtain ⟨h1, h2⟩ := wpaAuthStaAssociated_acts hassoc h
    exact ⟨h1.head (.associated hr.awaits), h2⟩
  | eapolKey f =>
    -- a frame is dropped, or handed to the machine with what it has set
    have hok : (wpaReceive c e f s).OK c (.eapolKey f) e s := wpaReceive_ok hr
    rcases Next.run_cases h with hq | ⟨t, hq, h⟩ <;> rw [hq] at hok
    · exact hok
    · exact acts_step hok.1 hok.2 h
  | eapolTimeout =>
    simp only [step] at h
    split at h
    · cases h
    · exact acts_step (Plain.acts (.stay rfl id (·.of rfl))) (t := { s with
        eapolTimeouts := s.eapolTimeouts - 1, timeoutEvt := true }) hr.init h
  | rekeyPtk =>
    simp only [step] at h
    split at h
    · exact wpaRekeyPtk_acts hr h
    · cases h
  | ptkTcp buf =>
    simp only [step] at h
    split at h
    · rename_i hl
      obtain rfl := Option.some.inj h
      exact wpaAuthInstallCustomPtkCb_acts _ hl hr
    · cases h
  | groupUpdate =>
    simp only [step] at h
    split at h
    · exact acts_step (Plain.acts (.stay rfl id (·.of rfl))) (t := { s with gUpdateStationKeys := true })
        hr.init h
    · obtain rfl := Option.some.inj h
      exact ⟨Plain.acts (.stay rfl id (·.of rfl)), still _ (hn _ _ _ _) rfl rfl rfl⟩
  | notify => exact acts_step .refl hr.init h
  | setPsks l =>
    obtain rfl := Option.some.inj h
    exact ⟨(Act.newPsks l rfl).acts, still _ (hn _ _ _ _) rfl rfl rfl⟩

theorem rest_new (n : Negotiated) (psks : List Pmk) : Rest (Sm.new n psks) :=
  ⟨⟨rfl, rfl, rfl, rfl, rfl, rfl⟩, fun h => by cases h.late⟩

/-- **Every run** leaves the machine at rest. -/
theorem run_rest {es : List (Event × Env)} (hr : Rest s) (h : run c s es = some s') : Rest s' :=
  Lib.run_inv (fun _ _ _ hs hstep => (step_acts hs hstep).2) hr h

/-- **What every act keeps**, every run keeps. -/
theorem run_keeps {n : Negotiated} {psks : List Pmk} {es : List (Event × Env)} {I : Sm → Prop}
    (h0 : I (Sm.new n psks)) (hI : ∀ ev e s t, I s → Act c ev e s t → I t)
    (h : run c (Sm.new n psks) es = some s) : I s := by
  have hinv : Rest s ∧ I s := by
    refine Lib.run_inv (I := fun s => Rest s ∧ I s) ?_ ⟨rest_new n psks, h0⟩ h
    rintro s ⟨ev, e⟩ s' ⟨hr, hs⟩ hstep
    obtain ⟨hacts, hr'⟩ := step_acts hr hstep
    refine ⟨hr', ?_⟩
    clear hstep hr'
    induction hacts with
    | refl => exact hs
    | tail _ ha ih => exact hI _ _ _ _ ih ha
  exact hinv.2

end Lightguard.Auth
