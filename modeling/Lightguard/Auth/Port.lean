import Lightguard.Auth.Rest

/-!
# When the port is opened

`WPA_EAPOL_authorized` and `WPA_EAPOL_portValid` are set to 1 in two places: in PTKINITDONE
and at the end of the WiFi fork's fast path. The fast path asks the station for nothing.

* `act_port`: every act keeps `PortOK`.
* `port_opened`: in every run the port is opened by the fast path once the driver has taken
  the test TK, or by PTKINITDONE after a MIC has verified under `sm->PTK`.
-/

namespace Lightguard.Auth

open Wpa

variable {c : Conf} {ev : Event} {e : Env} {f : EapolKey} {s s' t : Sm} {U : Pmk → Prop}
  {l l' : List Out}

/-- `sm->PTK` is one the fork has written itself, or it is derived from one of the PMKs `U`. -/
def Genuine (c : Conf) (U : Pmk → Prop) (K : Ptk) : PtkSource → Prop
  | .fork => True
  | .derived pmk a n => U pmk ∧ ∃ k p, K = ptkOf c.prims k p c.addr c.sta pmk.1 a n

/-- Since the last (re)association. -/
def SinceAssoc (o : Out) (l : List Out) : Prop := Lib.Since (· = .associated) o l

/-- `sm->PTK` is `K`, and since the last (re)association a frame has passed the MIC check
under it. A PTK of the fork's own passes without a check when the key management suite has no
MIC. -/
def VerifiedAs (c : Conf) (U : Pmk → Prop) (K : Ptk) (l : List Out) : Prop :=
  ∃ src, lastPtk l = some (src, K) ∧ Genuine c U K src ∧
    (SinceAssoc (.micVerified K) l ∨ src = .fork ∧ SinceAssoc .micSkipped l)

/-- Since the last (re)association a frame has passed the MIC check under `sm->PTK`. -/
def Verified (c : Conf) (U : Pmk → Prop) (l : List Out) : Prop := ∃ K, VerifiedAs c U K l

/-- Since the last (re)association the driver has taken the test TK from the fast path. -/
def FastPath (c : Conf) (l : List Out) : Prop :=
  c.link = .wifi ∧ SinceAssoc (.setKey .fastPath 0 customTestPtk.tk true) l

/-- When the port may be opened and PTKINITDONE entered. -/
def PortRule (c : Conf) (U : Pmk → Prop) : Out → List Out → Prop
  | .portValid site, l | .authorized site, l =>
    site = .fastPath ∧ FastPath c l ∨ site = .ptkinitdone ∧ Verified c U l
  | .ptkinitdone K, l => VerifiedAs c U K l
  | _, _ => True

/-- Entries that neither write `sm->PTK` nor begin an association. -/
def Out.neutral : Out → Bool
  | .associated | .newPtk _ _ => false
  | _ => true

/-- Entries the rule says nothing about. -/
def Out.free : Out → Bool
  | .portValid _ | .authorized _ | .ptkinitdone _ => false
  | _ => true

/-! ## Histories -/

theorem neutral_of_quiet {o : Out} {b : Bool} (h : o.quiet b = true) :
    o.neutral = true ∧ o.free = true := by
  cases o <;> simp_all [Out.quiet, Out.neutral, Out.free]

theorem SinceAssoc.append {o : Out} (hl : ∀ x ∈ l, x.neutral = true) (h : SinceAssoc o l') :
    SinceAssoc o (l ++ l') := by
  refine Lib.since_append ?_ h
  rintro x hx rfl
  have := hl _ hx
  cases this

theorem lastPtk_append (hl : ∀ x ∈ l, x.neutral = true) : lastPtk (l ++ l') = lastPtk l' := by
  refine Lib.latest_append fun x hx => ?_
  have := hl x hx
  cases x <;> simp_all [Out.neutral]

theorem Verified.append (hl : ∀ x ∈ l, x.neutral = true) (h : Verified c U l') :
    Verified c U (l ++ l') := by
  obtain ⟨K, src, h1, h2, h3⟩ := h
  refine ⟨K, src, (lastPtk_append hl).trans h1, h2, ?_⟩
  rcases h3 with h3 | ⟨h3, h4⟩
  · exact .inl (h3.append hl)
  · exact .inr ⟨h3, h4.append hl⟩

theorem portRule_closed {o : Out} (ho : o.free = true) : PortRule c U o l := by
  cases o <;> trivial

theorem always_closed (hl : ∀ x ∈ l, x.free = true) (h : Lib.Always (PortRule c U) l') :
    Lib.Always (PortRule c U) (l ++ l') :=
  Lib.always_append (fun x hx _ => portRule_closed (hl x hx)) h

/-! ## The invariant -/

/-- What holds of the keys: the port was opened by the rule so far, `sm->PTK` is genuine, and
the machine's PMKs are among `U`. -/
structure KeysOK (c : Conf) (U : Pmk → Prop) (s : Sm) : Prop where
  always : Lib.Always (PortRule c U) s.trace
  ptk : s.ptkValid = true → ∃ src, lastPtk s.trace = some (src, s.ptk) ∧
    Genuine c U s.ptk src ∧ (src ≠ .fork → s.pmk ≠ none)
  pmk : ∀ p, s.pmk = some p → U p
  psks : ∀ p ∈ s.psks, U p
  pmksa : ∀ p, s.neg.pmksa = some p → U p

/-- The invariant: a frame on its way to PTKINITDONE has passed the MIC check. -/
structure PortOK (c : Conf) (U : Pmk → Prop) (s : Sm) : Prop extends KeysOK c U s where
  awaits : Awaits s → Verified c U s.trace
  valid : Awaits s → NoRequest s → s.ptkValid = true

/-- The PMKs an event brings are among `U`. -/
structure Brings (U : Pmk → Prop) (ev : Event) (e : Env) : Prop where
  neg : ∀ n, ev = .assocReq n → ∀ p, n.pmksa = some p → U p
  psks : ∀ l, ev = .setPsks l → ∀ p ∈ l, U p
  msk : ∀ m ∈ e.msk, ∀ p : Pmk, p.1 = m.take 32 → U p

theorem KeysOK.brings (h : KeysOK c U s) (hb : Brings U ev e) {p : Pmk} (hp : e.Pmk s p) : U p := by
  rcases hp with hp | hp | ⟨m, hm, hp⟩
  · exact h.psks p hp
  · exact h.pmksa p hp
  · exact hb.msk m hm p hp

theorem KeysOK.known (h : KeysOK c U s) (hb : Brings U ev e) {p : Pmk}
    (hp : s.pmk = some p ∨ e.Pmk s p) : U p := hp.elim (h.pmk p) (h.brings hb)

/-- Entries without a word on keys, associations or the port. -/
theorem KeysOK.extend (h : KeysOK c U s) (hl : ∀ x ∈ l, x.neutral = true ∧ x.free = true) :
    KeysOK c U { s with trace := l ++ s.trace } where
  always := always_closed (fun x hx => (hl x hx).2) h.always
  ptk hv := by
    obtain ⟨src, h1, h2⟩ := h.ptk hv
    exact ⟨src, (lastPtk_append fun x hx => (hl x hx).1).trans h1, h2⟩
  pmk := h.pmk
  psks := h.psks
  pmksa := h.pmksa

theorem KeysOK.plain (h : KeysOK c U s) (hb : Brings U ev e) (hp : Plain e s t) : KeysOK c U t := by
  obtain ⟨l, htr, hq, -⟩ := hp.trace
  have hn : ∀ x ∈ l, x.neutral = true ∧ x.free = true := fun x hx => neutral_of_quiet (hq x hx)
  have hx := h.extend hn
  have hpmk : ∀ p, t.pmk = some p → U p := by
    intro p hp'
    rcases hp.pmk with h1 | ⟨q, h1, h2⟩
    · exact h.pmk p (h1 ▸ hp')
    · obtain rfl : q = p := by rw [h1] at hp'; exact Option.some.inj hp'
      exact h.brings hb h2
  refine ⟨htr ▸ hx.always, fun hv => ?_, hpmk, ?_, ?_⟩
  · obtain ⟨hv', hk⟩ := hp.ptk hv
    obtain ⟨src, h1, h2, h3⟩ := hx.ptk hv'
    refine ⟨src, by rw [htr, hk]; exact h1, hk ▸ h2, fun hs => ?_⟩
    rcases hp.pmk with h4 | ⟨q, h4, -⟩
    · rw [h4]; exact h3 hs
    · rw [h4]; exact Option.some_ne_none q
  · rw [hp.psks]; exact h.psks
  · rw [hp.neg]; exact h.pmksa

theorem PortOK.plain (h : PortOK c U s) (hb : Brings U ev e) (hp : Plain e s t) : PortOK c U t := by
  refine ⟨h.toKeysOK.plain hb hp, fun ha => ?_, fun ha hn => ?_⟩
  · obtain ⟨l, htr, hq, -⟩ := hp.trace
    rw [htr]
    exact (h.awaits (hp.awaits ha)).append fun x hx => (neutral_of_quiet (hq x hx)).1
  · obtain ⟨hn', hv⟩ := hp.hand ha hn
    exact hv (h.valid (hp.awaits ha) hn')

/-- A machine no frame of which is on its way to PTKINITDONE. -/
theorem KeysOK.idle (h : KeysOK c U s) (ha : ¬ Awaits s) : PortOK c U s :=
  ⟨h, fun h => absurd h ha, fun h => absurd h ha⟩

/-- A search says nothing about the port. -/
theorem looked_silent {l : List Out} (h : ∀ o ∈ l, o.looked = true) :
    ∀ x ∈ l, x.neutral = true ∧ x.free = true := by
  intro x hx
  have := h x hx
  cases x <;> simp_all [Out.looked, Out.neutral, Out.free]

/-- The rule carries over to a machine with the same keys and the same history. -/
theorem KeysOK.congr (h : KeysOK c U s) (h1 : t.trace = s.trace) (h2 : t.ptkValid = s.ptkValid)
    (h3 : t.ptk = s.ptk) (h4 : t.pmk = s.pmk) (h5 : t.psks = s.psks) (h6 : t.neg = s.neg) :
    KeysOK c U t where
  always := h1 ▸ h.always
  ptk hv := by rw [h1, h3, h4]; exact h.ptk (h2 ▸ hv)
  pmk := h4 ▸ h.pmk
  psks := h5 ▸ h.psks
  pmksa := h6 ▸ h.pmksa

/-- A PTK that has just been derived, with the MIC of the frame verified under it. -/
theorem KeysOK.adopt (h : KeysOK c U s) {pmk : Pmk} {n : Bytes} {ptk : Ptk} (hpmk : U pmk)
    (hl : ∀ x ∈ l, x.looked = true) (hm : .micVerified ptk ∈ l)
    (hk : ptk = ptkOf c.prims s.neg.keyMgmt s.neg.pairwise c.addr c.sta pmk.1 s.aNonce n)
    (h1 : t.trace = .newPtk (.derived pmk s.aNonce n) ptk :: (l ++ s.trace))
    (h3 : t.ptk = ptk) (h4 : t.pmk = some pmk) (h5 : t.psks = s.psks) (h6 : t.neg = s.neg) :
    KeysOK c U t ∧ Verified c U t.trace := by
  have hg : Genuine c U ptk (.derived pmk s.aNonce n) := ⟨hpmk, _, _, hk⟩
  refine ⟨⟨?_, fun _ => ⟨.derived pmk s.aNonce n, by rw [h1, h3]; rfl, h3 ▸ hg, fun _ => ?_⟩, ?_,
    h5 ▸ h.psks, h6 ▸ h.pmksa⟩, ?_⟩
  · rw [h1]
    exact ⟨portRule_closed rfl, always_closed (fun x hx => (looked_silent hl x hx).2) h.always⟩
  · rw [h4]; exact Option.some_ne_none pmk
  · intro p hp
    rw [h4] at hp
    exact Option.some.inj hp ▸ hpmk
  · rw [h1]
    refine ⟨ptk, _, rfl, hg, .inl (.inr ⟨nofun, ?_⟩)⟩
    -- no association between the MIC check and now
    obtain ⟨a, b, rfl⟩ := List.append_of_mem hm
    refine Lib.since_iff.2 ⟨a, b ++ s.trace, by simp, fun x hx hr => ?_⟩
    have := hl x (List.mem_append_left _ hx)
    rw [hr] at this
    cases this

/-- The MIC length is zero only without a PMK. -/
theorem pmk_of_micLen (h : s.micLen = 0) : s.pmk = none := by
  cases hp : s.pmk with
  | none => rfl
  | some p =>
    have hlen := p.2
    simp only [Sm.micLen, hp, Option.map_some, Option.getD_some, KeyMgmt.micLen] at h
    split at h <;> omega

/-- **The MIC check** keeps the invariant, and a frame that passes has a MIC under `sm->PTK`. -/
theorem MicCheck.port {b : Bool} (h : MicCheck c e f s (b, t)) (hs : KeysOK c U s)
    (hb : Brings U ev e) (h0 : s.micVerified = false) :
    KeysOK c U t ∧ (t.micVerified = true → Verified c U t.trace ∧ t.ptkValid = true) := by
  have silent : KeysOK c U s ∧ (s.micVerified = true → Verified c U s.trace ∧ s.ptkValid = true) :=
    ⟨hs, fun h => by rw [h0] at h; cases h⟩
  cases h with
  | unchecked => exact silent
  | failed => exact silent
  | failedAlt =>
    refine ⟨hs.extend (looked_silent searchPmk_looked), fun h => ?_⟩
    rw [show s.micVerified = false from h0] at h
    cases h
  | noMic hv hm =>
    have hk : KeysOK c U { s with trace := [.micSkipped] ++ s.trace } := hs.extend (by simp [Out.neutral, Out.free])
    refine ⟨hk.congr rfl rfl rfl rfl rfl rfl, fun _ => ?_⟩
    obtain ⟨src, h1, h2, h3⟩ := hs.ptk hv
    -- a derived PTK has a PMK, and with a PMK there is a MIC
    have hsrc : src = .fork := by
      by_contra hne
      exact h3 hne (pmk_of_micLen hm)
    exact ⟨⟨s.ptk, src, h1, h2, .inr ⟨hsrc, .inl rfl⟩⟩, hv⟩
  | verified hv =>
    have hk : KeysOK c U { s with trace := [.micVerified s.ptk] ++ s.trace } :=
      hs.extend (by simp [Out.neutral, Out.free])
    refine ⟨hk.congr rfl rfl rfl rfl rfl rfl, fun _ => ?_⟩
    obtain ⟨src, h1, h2, -⟩ := hs.ptk hv
    exact ⟨⟨s.ptk, src, h1, h2, .inl (.inl rfl)⟩, hv⟩
  | alt hv hm hbad h4 ha hf =>
    obtain ⟨hc, -, -, hk⟩ := searchPmk_found hf
    have hU := hs.known hb (altCandidates_pmk hc)
    have := hs.adopt hU searchPmk_looked (mem_searchOut hf) hk
      (t := micPassed (altAdopted c e f _ _ s)) rfl rfl rfl rfl rfl
    exact ⟨this.1, fun _ => ⟨this.2, rfl⟩⟩

/-- The fork's install writes a PTK that needs no PMK. -/
theorem KeysOK.tryInstall (h : KeysOK c U s) (site : Site) (ptk : Ptk) :
    KeysOK c U (tryInstall c e site ptk s).2 := by
  have hw : KeysOK c U (s.wrote ptk) :=
    ⟨⟨portRule_closed rfl, h.always⟩, fun _ => ⟨.fork, rfl, trivial, fun h => absurd rfl h⟩, h.pmk,
      h.psks, h.pmksa⟩
  have hh : ∀ ok, KeysOK c U (s.handed site ptk ok) := fun ok =>
    hw.extend (l := [.setKey site 0 ptk.tk ok]) (by simp [Out.neutral, Out.free])
  rcases tryInstall_cases c e site ptk s with ⟨-, heq⟩ | ⟨-, ⟨-, heq⟩ | ⟨-, heq⟩⟩ <;> rw [heq]
  · exact hw
  · exact hh false
  · exact (hh true).congr rfl rfl rfl rfl rfl rfl

/-- A port that is opened by the rule. -/
theorem KeysOK.open (h : KeysOK c U s) {site : Site}
    (hr : site = .fastPath ∧ FastPath c s.trace ∨ site = .ptkinitdone ∧ Verified c U s.trace) :
    KeysOK c U (openPort site s) := by
  have rule : ∀ l : List Out, (∀ x ∈ l, x.neutral = true) →
      site = .fastPath ∧ FastPath c (l ++ s.trace) ∨
        site = .ptkinitdone ∧ Verified c U (l ++ s.trace) := by
    intro l hl
    rcases hr with ⟨h1, h2, h3⟩ | ⟨h1, h2⟩
    · exact .inl ⟨h1, h2, h3.append hl⟩
    · exact .inr ⟨h1, h2.append hl⟩
  have hcalls : Lib.Always (PortRule c U) (portCalls site s.neg ++ s.trace) := by
    unfold portCalls
    split
    · exact ⟨rule [.authorized site] (by simp [Out.neutral]), rule [] (by simp), h.always⟩
    · exact ⟨rule [] (by simp), h.always⟩
  have hn : ∀ x ∈ portCalls site s.neg, x.neutral = true := by
    unfold portCalls
    split <;> simp [Out.neutral]
  refine ⟨hcalls, fun hv => ?_, h.pmk, h.psks, h.pmksa⟩
  obtain ⟨src, h1, h2⟩ := h.ptk hv
  exact ⟨src, (lastPtk_append hn).trans h1, h2⟩

/-- **PTKINITDONE** is entered with a PTK under which a MIC has verified. -/
theorem PortOK.done (h : PortOK c U s) (hd : EntersDone s) : VerifiedAs c U s.ptk s.trace := by
  obtain ⟨K, src, h1, h2, h3⟩ := h.awaits hd.toAwaits
  obtain ⟨src', h1', -⟩ := h.ptk (h.valid hd.toAwaits hd.toNoRequest)
  obtain ⟨rfl, rfl⟩ : src' = src ∧ s.ptk = K := by
    rw [h1] at h1'
    exact ⟨(Prod.mk.inj (Option.some.inj h1')).1.symm, (Prod.mk.inj (Option.some.inj h1')).2.symm⟩
  exact ⟨src', h1, h2, h3⟩

/-- What PTKINITDONE adds to the trace before the driver answers. -/
theorem doneEntered_trace (s : Sm) : ∃ l, (doneEntered e s).trace = l ++ .ptkinitdone s.ptk :: s.trace ∧
    ∀ x ∈ l, x.neutral = true ∧ x.free = true := by
  refine ⟨if s.pair then doneKeys e s else [], rfl, ?_⟩
  unfold doneKeys
  split
  · split <;> simp [Out.neutral, Out.free]
  · simp

/-- **Every act keeps the invariant.** -/
theorem act_port (hb : Brings U ev e) (hs : PortOK c U s) (h : Act c ev e s t) : PortOK c U t := by
  cases h with
  | plain h => exact hs.plain hb h
  | initFlag b ha h =>
    have hk : KeysOK c U { s with init := b } := hs.toKeysOK.congr rfl rfl rfl rfl rfl rfl
    exact (hk.idle fun h => ha ⟨h.late, h.received, h.mic⟩).plain hb h
  | associated ha =>
    have hk : KeysOK c U (s.out .associated) :=
      ⟨⟨trivial, hs.always⟩, hs.ptk, hs.pmk, hs.psks, hs.pmksa⟩
    exact hk.idle fun h => ha ⟨h.late, h.received, h.mic⟩
  | noted u n v k =>
    exact ⟨hs.toKeysOK.congr rfl rfl rfl rfl rfl rfl, fun h => hs.awaits ⟨h.late, h.received, h.mic⟩,
      fun h hn => hs.valid ⟨h.late, h.received, h.mic⟩ (hn.of rfl)⟩
  | micReset =>
    have hk : KeysOK c U { s with micVerified := false } :=
      hs.toKeysOK.congr rfl rfl rfl rfl rfl rfl
    exact hk.idle fun h => by cases h.mic
  | refused h0 h =>
    refine (h.port hs.toKeysOK hb h0).1.idle fun ha => ?_
    have := ha.mic
    rw [h.refused_mic, h0] at this
    cases this
  | received h0 hw h =>
    obtain ⟨h1, h2⟩ := h.port hs.toKeysOK hb h0
    exact ⟨h1.congr rfl rfl rfl rfl rfl rfl, fun ha => (h2 ha.mic).1, fun ha _ => (h2 ha.mic).2⟩
  | requested h0 hf h =>
    obtain ⟨h1, -⟩ := h.port hs.toKeysOK hb h0
    refine KeysOK.idle (h1.congr rfl rfl rfl rfl rfl rfl) fun ha => ?_
    -- a request is not a frame PTKINITDONE waits for
    have := ha.received
    simp [Sm.pairwiseReceived, storeFrame, hf] at this
  | searched h =>
    have hk : KeysOK c U (calcSearched c e s) :=
      (hs.toKeysOK.extend (looked_silent calcSearch_looked)).congr rfl rfl rfl rfl rfl rfl
    exact hk.idle fun ha => by cases ha.received
  | adopted h hf hi =>
    obtain ⟨hp, -, hk⟩ := calcSearch_found hf
    obtain ⟨h1, -⟩ := hs.toKeysOK.adopt (hs.toKeysOK.known hb hp) calcSearch_looked
      (mem_searchOut hf) hk (t := calcAdopted c e _ _ s) rfl rfl rfl rfl rfl
    exact h1.idle fun ha => by cases ha.received
  | done h =>
    have hv := hs.done h
    obtain ⟨l, htr, hl⟩ := doneEntered_trace (e := e) s
    have hk : KeysOK c U (doneEntered e s) := by
      have h1 : KeysOK c U (s.out (.ptkinitdone s.ptk)) :=
        ⟨⟨hv, hs.always⟩, hs.ptk, hs.pmk, hs.psks, hs.pmksa⟩
      exact (h1.extend hl).congr htr rfl rfl rfl rfl rfl
    have hv' : Verified c U (doneEntered e s).trace := by
      have h1 : Verified c U ([.ptkinitdone s.ptk] ++ s.trace) :=
        Verified.append (by simp [Out.neutral]) ⟨_, hv⟩
      exact htr ▸ h1.append fun x hx => (hl x hx).1
    -- the frame is consumed
    have cleared : ¬ Awaits (doneEntered e s) := fun ha => by cases ha.received
    rcases enterPtkinitdone_cases c e s with ⟨-, -, heq⟩ | ⟨-, heq⟩ | ⟨-, -, hp⟩
    · rw [heq]
      have hk' : KeysOK c U ({ doneEntered e s with pairwiseSet := true }.setPtkRekeyTimer c) :=
        hk.congr rfl rfl rfl rfl rfl rfl
      exact (hk'.open (.inr ⟨rfl, hv'⟩)).idle fun ha => cleared ⟨ha.late, ha.received, ha.mic⟩
    · rw [heq]
      have hk' : KeysOK c U (openPortNoPair (doneEntered e s)) :=
        ⟨⟨.inr ⟨rfl, hv'⟩, hk.always⟩, hk.ptk, hk.pmk, hk.psks, hk.pmksa⟩
      exact hk'.idle fun ha => cleared ⟨ha.late, ha.received, ha.mic⟩
    · exact (hk.idle cleared).plain hb hp
  | install site ptk hl ha hp =>
    refine (hs.toKeysOK.tryInstall site ptk).idle fun h => ha ?_
    rcases tryInstall_cases c e site ptk s with ⟨-, heq⟩ | ⟨-, ⟨-, heq⟩ | ⟨-, heq⟩⟩ <;> rw [heq] at h
    · exact ⟨h.late, h.received, h.mic⟩
    · exact ⟨h.late, h.received, h.mic⟩
    · cases h.late
  | fastPath hl ha h =>
    have hk := hs.toKeysOK.tryInstall (e := e) .fastPath customTestPtk
    rcases tryInstall_cases c e .fastPath customTestPtk s with ⟨-, heq⟩ | ⟨-, ⟨-, heq⟩ | ⟨-, heq⟩⟩
    · rw [heq] at h; cases h
    · rw [heq] at h; cases h
    rw [heq] at hk ⊢
    have htaken : FastPath c (s.handed .fastPath customTestPtk true).trace := ⟨hl, .inl rfl⟩
    unfold installCustomGtk
    split
    · -- the GTK goes to the driver between the TK and the port
      have hg := hk.extend (l := [.setGroupKey e.gn (customTestGtk.take e.gtk.length) e.setGroupKey])
        (by simp [Out.neutral, Out.free])
      have ho := KeysOK.open (s := (ptkInstalled c (s.handed .fastPath customTestPtk true)).out _) hg
        (.inl ⟨rfl, hl, htaken.2.append (l := [_]) (by simp [Out.neutral])⟩)
      exact ho.idle fun ha => by cases ha.late
    · exact (hk.open (.inl ⟨rfl, htaken⟩)).idle fun ha => by cases ha.late
  | negotiated n hev =>
    exact ⟨⟨hs.always, hs.ptk, hs.pmk, hs.psks, hb.neg n hev⟩,
      fun h => hs.awaits ⟨h.late, h.received, h.mic⟩,
      fun h hn => hs.valid ⟨h.late, h.received, h.mic⟩ (hn.of rfl)⟩
  | newPsks l hev =>
    exact ⟨⟨hs.always, hs.ptk, hs.pmk, hb.psks l hev, hs.pmksa⟩,
      fun h => hs.awaits ⟨h.late, h.received, h.mic⟩,
      fun h hn => hs.valid ⟨h.late, h.received, h.mic⟩ (hn.of rfl)⟩

/-! ## Runs -/

/-- The PMKs an event of the source brings along. -/
def Event.pmks : Event → List Pmk
  | .assocReq n => n.pmksa.toList
  | .setPsks l => l
  | _ => []

/-- The PMKs that are configured in a run: the PSKs of the station, the entries of the PMKSA
cache and the MSKs of the EAPOL state machine. -/
def Configured (n : Negotiated) (psks : List Pmk) (es : List (Event × Env)) (p : Pmk) : Prop :=
  p ∈ psks ∨ n.pmksa = some p ∨
    ∃ x ∈ es, p ∈ x.1.pmks ∨ ∃ m ∈ x.2.msk, p.1 = m.take 32

theorem configured_brings {n : Negotiated} {psks : List Pmk} {es : List (Event × Env)}
    {x : Event × Env} (hx : x ∈ es) : Brings (Configured n psks es) x.1 x.2 where
  neg m hm p hp := by
    refine .inr (.inr ⟨x, hx, .inl ?_⟩)
    rw [hm]
    simp [Event.pmks, hp]
  psks l hl p hp := by
    refine .inr (.inr ⟨x, hx, .inl ?_⟩)
    rw [hl]
    exact hp
  msk m hm p hp := .inr (.inr ⟨x, hx, .inr ⟨m, hm, hp⟩⟩)

theorem portOK_new {n : Negotiated} {psks : List Pmk} {es : List (Event × Env)} :
    PortOK c (Configured n psks es) (Sm.new n psks) :=
  KeysOK.idle ⟨trivial, nofun, nofun, fun _ hp => .inl hp, fun _ hp => .inr (.inl hp)⟩
    fun ha => nomatch ha.late

/-- **What every act keeps**, every run keeps, next to the keys. -/
theorem run_acts {n : Negotiated} {psks : List Pmk} {es : List (Event × Env)} {I : Sm → Prop}
    (h0 : I (Sm.new n psks))
    (hI : ∀ x ∈ es, ∀ s t, PortOK c (Configured n psks es) s → I s → Act c x.1 x.2 s t → I t)
    (h : run c (Sm.new n psks) es = some s) :
    Rest s ∧ PortOK c (Configured n psks es) s ∧ I s := by
  refine Lib.run_inv_mem (I := fun s => Rest s ∧ PortOK c (Configured n psks es) s ∧ I s) ?_
    ⟨rest_new n psks, portOK_new, h0⟩ h
  rintro s ⟨ev, e⟩ hx s' ⟨hr, hp, hs⟩ hstep
  have hb : Brings (Configured n psks es) ev e := configured_brings hx
  obtain ⟨hacts, hr'⟩ := step_acts hr hstep
  refine ⟨hr', ?_⟩
  clear hstep hr'
  -- the acts of the event, one by one
  induction hacts with
  | refl => exact ⟨hp, hs⟩
  | tail _ ha ih => exact ⟨act_port hb ih.1 ha, hI _ hx _ _ ih.1 ih.2 ha⟩

/-- What every run keeps. -/
theorem run_port {n : Negotiated} {psks : List Pmk} {es : List (Event × Env)}
    (h : run c (Sm.new n psks) es = some s) : PortOK c (Configured n psks es) s :=
  (run_acts (I := fun _ => True) trivial (fun _ _ _ _ _ _ _ => trivial) h).2.1

/-- **When the port is opened.** In every run the port is opened by the fast path, once the
driver has taken the test TK since the last (re)association, or by PTKINITDONE, after a MIC
has verified under `sm->PTK` since then. -/
theorem port_opened {n : Negotiated} {psks : List Pmk} {es : List (Event × Env)}
    (h : run c (Sm.new n psks) es = some s) {new old : List Out} {o : Out} {site : Site}
    (ht : s.trace = new ++ o :: old) (ho : o = .portValid site ∨ o = .authorized site) :
    site = .fastPath ∧ FastPath c old ∨
      site = .ptkinitdone ∧ Verified c (Configured n psks es) old := by
  have hrule := Lib.always_iff.1 (run_port h).always new o old ht
  rcases ho with rfl | rfl <;> exact hrule

/-- What a plain association leaves in the trace before the port is opened. -/
def fastPathTrace : List Out :=
  [.setGroupKey 1 (customTestGtk.take 16) true, .setKey .fastPath 0 customTestPtk.tk true,
    .newPtk .fork customTestPtk, .associated]

/-- **The fast path.** A plain association opens the port with nothing from the station. -/
theorem fast_path_run (P : Prims) : ∃ s,
    run (plainConf .wifi P) (Sm.new wpa2Ccmp []) [(.staAssociated, calm)] = some s ∧
      s.trace = [.portValid .fastPath] ++ .authorized .fastPath :: fastPathTrace := ⟨_, rfl, rfl⟩

/-- `port_opened` for the plain association. -/
theorem port_opened_plain :
    Site.fastPath = .fastPath ∧
        FastPath (plainConf .wifi ⟨fun _ _ _ => [], fun _ _ => []⟩) fastPathTrace ∨
      Site.fastPath = .ptkinitdone ∧
        Verified (plainConf .wifi ⟨fun _ _ _ => [], fun _ _ => []⟩)
          (Configured wpa2Ccmp [] [(.staAssociated, calm)]) fastPathTrace := by
  obtain ⟨s, hrun, htr⟩ := fast_path_run ⟨fun _ _ _ => [], fun _ _ => []⟩
  exact port_opened hrun htr (.inr rfl)

/-- Not every port is opened after a MIC has verified. -/
theorem opened_without_mic : ¬ ∀ (c : Conf) (n : Negotiated) (psks : List Pmk)
    (es : List (Event × Env)) (s : Sm), run c (Sm.new n psks) es = some s →
      ∀ new old site, s.trace = new ++ .authorized site :: old →
        ∃ K, SinceAssoc (.micVerified K) old := by
  intro h
  obtain ⟨s, hrun, htr⟩ := fast_path_run ⟨fun _ _ _ => [], fun _ _ => []⟩
  obtain ⟨K, hK⟩ := h _ _ _ _ s hrun [.portValid .fastPath] fastPathTrace .fastPath htr
  have hmem := Lib.Since.mem hK
  simp [fastPathTrace] at hmem

end Lightguard.Auth
