import Lightguard.Rotation.Agreement
import Lightguard.Supp.Msg1

/-!
# The rotated PSK and later associations

The PMK of the station in `sm->pmk`, the passphrase that waits for the next message 1/4, the
PSK of the network's configuration, and the list of PSKs of hostapd. Message 1/4 spends the
passphrase; a disassociation clears `sm->pmk`, and `wpa_supplicant_set_suites` fills it again
from the configuration.

* `process1Of4_starts`: message 1/4 derives from `sm->pmk`, or from the passphrase and spends it.
* `Rotated.held`: after a rotation `sm->pmk` is the PSK derived from the passphrase.
* `rotated_psk_survives_iff`: when the later handshakes run on the PSK hostapd uses.
-/

namespace Lightguard.Rotation

open Wpa Supp

/-! ## The two ends -/

/-- What `wpa_supplicant_set_suites` reads of `struct wpa_ssid` in its PSK branch. -/
structure Network where
  ssid : Bytes
  bssidSet : Bool
  passphrase : Option Text
  /-- `psk` when `psk_set` is 1. -/
  psk : Option Bytes
deriving DecidableEq

/-- The PMK `wpa_supplicant_set_suites` leaves in `sm->pmk`; `bss` is the SSID of the BSS when
there are scan results for it. Without one the association is given up. -/
def suitesPmk (pbkdf2 : Text → Bytes → ℕ → Bytes) (n : Network) (bss : Option Bytes) :
    Option Bytes :=
  let fromBss := if n.bssidSet ∧ n.ssid = [] then
      bss.bind fun ssid => n.passphrase.map fun p => pbkdf2 p ssid 4096
    else none
  fromBss.or n.psk

/-- wpa_supplicant's machine and hostapd. -/
structure World (σ : Type) where
  sta : Sm
  hapd : Hapd σ

/-- What happens. -/
inductive RotEvent (σ : Type) where
  /-- `SET_LIFI_PASS`. -/
  | setLifiPass (pass : Text)
  /-- A line on the setptk listener. -/
  | setptk (line : Text)
  /-- `wpa_supplicant_set_suites`, before every (re)association. -/
  | setSuites (bss : Option Bytes)
  /-- The other events of wpa_supplicant's machine. -/
  | sta (ev : Supp.Event) (e : Supp.Env)
  /-- Stations come and go at hostapd, and their machines go on. -/
  | stations (sta : Addr → Option (Option σ))

/-- The events of a station on this network. The PMK and the passphrase are set by the events
above only, and the key management is WPA-PSK. -/
def Network.allows (n : Network) : Supp.Event → Bool
  | .setPmk .. | .setPassphrase _ => false
  | .config par ssid => ssid == n.ssid && (par.keyMgmt == .psk || par.keyMgmt == .pskSha256)
  | _ => true

variable {σ : Type} (c : Supp.Conf) (n : Network) (reauth : σ → σ)

/-- One event. A network with WPA-PSK has no entries in the PMKSA cache. -/
def rotStep (w : World σ) : RotEvent σ → Option (World σ)
  | .setLifiPass pass =>
    let pass := (wpaSmSetPassphrase w.sta.pass pass).getD w.sta.pass
    some { w with sta := { w.sta with pass := pass } }
  | .setptk line =>
    match lifiHandleLine c.pbkdf2 reauth w.hapd line with
    | .ok hapd => some { w with hapd := hapd }
    | .error _ => some w
  | .setSuites bss =>
    match suitesPmk c.pbkdf2 n bss with
    | some pmk => some { w with sta := { w.sta with pmk := pmk } }
    | none => some w
  | .sta ev e =>
    if n.allows ev then
      (Supp.step c w.sta (ev, { e with pmksaGet := none })).map fun s => { w with sta := s }
    else none
  | .stations sta => some { w with hapd := { w.hapd with sta := sta } }

/-- A run. -/
abbrev rotRun (w : World σ) (es : List (RotEvent σ)) : Option (World σ) :=
  Lib.run (rotStep c n reauth) w es

/-- The PMK of a 4-way handshake that message 1/4 has started. -/
def pmkOf : Out → Option Bytes
  | .newTptk pmk _ _ _ => some pmk
  | _ => none

/-- The PMKs of the handshakes that one event starts. -/
def startedWith (w : World σ) (x : RotEvent σ) : List Bytes :=
  match rotStep c n reauth w x with
  | none => []
  | some w' => (w'.sta.trace.take (w'.sta.trace.length - w.sta.trace.length)).filterMap pmkOf

/-! ## What a frame does to the PMK -/

variable {c n reauth} {e : Supp.Env} {f : EapolKey} {s t u : Sm} {l : List Out}

/-- A station on a network with WPA-PSK. -/
structure OnPsk (s : Sm) : Prop where
  akm : s.par.keyMgmt.wpaIeee8021x = false
  sa : s.curPmksa = none

/-- `t` comes from `s` by a function that starts handshakes with the PMKs `ps`, keeps the passphrase, and
keeps the PMK unless the station is disconnected. -/
structure Starts (ps : List Bytes) (s t : Sm) : Prop extends SamePass s t where
  akm : t.par.keyMgmt = s.par.keyMgmt
  sa : t.curPmksa = s.curPmksa ∨ t.curPmksa = none
  pmk : t.pmk = s.pmk ∨ t.pmk = []
  ssid : t.pass.ssid = s.pass.ssid ∧ t.par.network = s.par.network ∨
    t.pass.ssid = [] ∧ t.par.network = false
  trace : ∃ l, t.trace = l ++ s.trace ∧ l.filterMap pmkOf = ps

namespace Starts

/-- Nothing else has changed. -/
theorem same {ps : List Bytes} (hpar : t.par = s.par) (hsa : t.curPmksa = s.curPmksa) (hpmk : t.pmk = s.pmk)
    (hpass : t.pass = s.pass) (htr : ∃ l, t.trace = l ++ s.trace ∧ l.filterMap pmkOf = ps) :
    Starts ps s t :=
  ⟨.of_eq hpass, by rw [hpar], .inl hsa, .inl hpmk, .inl ⟨by rw [hpass], by rw [hpar]⟩, htr⟩

protected theorem refl (s : Sm) : Starts [] s s := same rfl rfl rfl rfl ⟨[], rfl, rfl⟩

protected theorem trans {ps ps' : List Bytes} (h : Starts ps s t) (h' : Starts ps' t u) :
    Starts (ps' ++ ps) s u := by
  obtain ⟨l, hl, hp⟩ := h.trace
  obtain ⟨l', hl', hp'⟩ := h'.trace
  refine ⟨h.toSamePass.trans h'.toSamePass, h'.akm.trans h.akm, ?_, ?_, ?_, l' ++ l,
    by rw [hl', hl, List.append_assoc], by rw [List.filterMap_append, hp, hp']⟩
  · rcases h'.sa with heq | heq
    · exact heq ▸ h.sa
    · exact .inr heq
  · rcases h'.pmk with heq | heq
    · exact heq ▸ h.pmk
    · exact .inr heq
  · rcases h'.ssid with ⟨h1, h2⟩ | hgone
    · rw [h1, h2]
      exact h.ssid
    · exact .inr hgone

/-- One entry that starts no handshake. -/
theorem out {o : Out} (ho : pmkOf o = none) (s : Sm) : Starts [] s (s.out o) :=
  same rfl rfl rfl rfl ⟨[o], rfl, by simp [ho]⟩

/-- What derives nothing starts no handshake. -/
theorem of_still (h : Still s t) : Starts [] s t := by
  obtain ⟨l, htr, hl⟩ := h.trace
  refine same h.par h.sa h.pmk h.pass ⟨l, htr, List.filterMap_eq_nil_iff.2 ?_⟩
  intro o ho
  have := hl o ho
  cases o <;> simp_all [Out.still, pmkOf]

theorem next {ps : List Bytes} (h : Starts ps s t) (hq : Still t u) : Starts ps s u := h.trans (.of_still hq)

/-- A disconnection starts no handshake. -/
theorem lost (s : Sm) : Starts [] s (wpaSupplicantDeauthenticate s) :=
  ⟨⟨rfl, rfl⟩, rfl, .inr rfl, .inr rfl, .inr ⟨rfl, rfl⟩, [.disassociated], rfl, rfl⟩

end Starts

theorem starts_sends (ps : List Bytes) (s : Sm) : Sends (Starts ps s) (Starts ps s) where
  out _ t h := h.trans (.out rfl t)
  fields t st b n a k h := h.next (fields_still t st b n a k)
  done _ h := h
  deauthenticate t h := (h.trans (.out rfl t)).trans (.lost _)
  reconnect t h := (h.trans (.out rfl t)).trans (.lost _)

/-- **Message 3/4** starts no handshake. -/
theorem process3Of4_starts (hl : c.link = .lifi) (s : Sm) : Starts [] s (process3Of4 c e f s) := by
  refine (starts_sends [] s).process3Of4 (fun t k x h => ?_) (fun t h => ?_) (fun t h => ?_)
    (fun _ _ g _ t h => ?_) (fun ie t h => ?_) (.refl s)
  · exact h.next ⟨rfl, rfl, rfl, rfl, rfl, rfl, rfl, [], rfl, by simp⟩
  · exact h.next (installPtk_still hl t)
  · exact h.trans (.out rfl t)
  · exact h.next (installGtk_still g t)
  · exact h.next ⟨rfl, rfl, rfl, rfl, rfl, rfl, rfl, [.msg3Ok f], rfl, by simp [Out.still]⟩

/-- Nor does message 1/2. -/
theorem process1Of2_starts (s : Sm) : Starts [] s (process1Of2 c e f s) :=
  (starts_sends [] s).process1Of2 (fun _ _ g _ t h => h.next (installGtk_still g t)) (.refl s)

/-- Nor a Key Request. -/
theorem wpaSmKeyRequest_starts (b b' : Bool) (s : Sm) : Starts [] s (wpaSmKeyRequest c e b b' s) :=
  (starts_sends [] s).keyRequest b b' (.refl s)

/-- Without a PMKSA cache the PMK stays as it is. -/
theorem wpaSupplicantGetPmk_psk (hs : OnPsk s) (he : e.pmksaGet = none) (pmkid : Option Bytes) :
    wpaSupplicantGetPmk e pmkid s = (.ok, s) := by
  have hcur : (lookupPmksa e pmkid s).1 = none := by
    unfold lookupPmksa
    split
    · exact he
    · exact hs.sa
  have hid : ¬ (pmkid.isSome = true ∧ pmkid = none) := by
    rintro ⟨h, rfl⟩
    cases h
  have hsame : { s with curPmksa := none } = s := by rw [← hs.sa]
  simp only [wpaSupplicantGetPmk, hcur, Option.map_none, if_neg hid, hs.akm, abortCached, hsame,
    Bool.false_eq_true, and_false, if_false]

/-- The handshakes that start, when they do, have this PMK. -/
def Only (pmk : Bytes) (ps : List Bytes) : Prop := ∀ p ∈ ps, p = pmk ∧ pmk ≠ []

theorem only_nil (pmk : Bytes) : Only pmk [] := by simp [Only]

/-- The handshakes that start between `s` and `t` work with the PMK of `s`, and there is one. -/
def StartsOwn (s t : Sm) : Prop := ∃ ps, Starts ps s t ∧ Only s.pmk ps

theorem startsOwn_sends (s : Sm) : Sends (StartsOwn s) (StartsOwn s) where
  out g t h := h.imp fun ps hps => hps.imp ((starts_sends ps s).out g t) id
  fields t st b n a k h := h.imp fun ps hps => hps.imp ((starts_sends ps s).fields t st b n a k) id
  done _ h := h
  deauthenticate t h := h.imp fun ps hps => hps.imp ((starts_sends ps s).deauthenticate t) id
  reconnect t h := h.imp fun ps hps => hps.imp ((starts_sends ps s).reconnect t) id

/-- The derivation starts one, with the PMK of the machine. -/
theorem setTptk_starts (hret : ¬ (wpaDerivePtk c e f.nonce t).ret < 0) (h : StartsOwn s t) :
    StartsOwn s (setTptk c e f.nonce t) := by
  obtain ⟨ps, hps, honly⟩ := h
  have hne : t.pmk ≠ [] := by
    intro hnil
    apply hret
    rw [wpaDerivePtk, wpaPmkToPtk, if_pos (.inl hnil)]
    decide
  have hpush : ((wpaDerivePtk c e f.nonce t).pushed.map Out.pushed).toList.filterMap pmkOf = [] := by
    refine List.filterMap_eq_nil_iff.2 fun o ho => ?_
    obtain ⟨b, -, rfl⟩ := mem_pushed ho
    rfl
  have hset : Starts [t.pmk] t (setTptk c e f.nonce t) :=
    .same rfl rfl rfl rfl ⟨.newTptk t.pmk f.nonce t.snonce (setTptk c e f.nonce t).tptk ::
      ((wpaDerivePtk c e f.nonce t).pushed.map Out.pushed).toList, rfl,
      by rw [List.filterMap_cons, hpush]; rfl⟩
  -- a station that has been disconnected has no PMK
  have hpmk := hps.pmk.resolve_right hne
  refine ⟨[t.pmk] ++ ps, hps.trans hset, fun p hp => ?_⟩
  rcases List.mem_append.1 hp with hp | hp
  · obtain rfl := List.mem_singleton.1 hp
    exact ⟨hpmk, hpmk ▸ hne⟩
  · exact honly p hp

theorem answerMsg1_starts (s : Sm) : StartsOwn s (answerMsg1 c e f s) :=
  (startsOwn_sends s).answerMsg1 (fun _ => setTptk_starts) ⟨[], .refl s, only_nil _⟩

/-- **Message 1/4** works with the PMK that is there once the passphrase is taken over. -/
theorem process1Of4_starts (hs : OnPsk (takePassphrase c s)) (he : e.pmksaGet = none) :
    StartsOwn (takePassphrase c s) (process1Of4 c e f s) := by
  refine (startsOwn_sends _).process1Of4 ⟨[], .refl _, only_nil _⟩ (fun i t ht => ?_)
    fun _ => setTptk_starts
  obtain ⟨ps, hps, honly⟩ := ht
  have hsa : t.curPmksa = none := by
    rcases hps.sa with heq | heq
    · exact heq.trans hs.sa
    · exact heq
  rw [wpaSupplicantGetPmk_psk ⟨hps.akm ▸ hs.akm, hsa⟩ he]
  exact ⟨ps, hps, honly⟩

/-- **A received frame** is a message 1/4, or starts no handshake. -/
theorem wpaSmRxEapol_msg1 (hl : c.link = .lifi) (e : Supp.Env) (f : EapolKey) (s : Sm) :
    Starts [] s (wpaSmRxEapol c e f s) ∨ IsMsg1 s f ∧ wpaSmRxEapol c e f s = process1Of4 c e f s := by
  have htaken : ∀ t, Taken c f s t → Starts [] s t := by
    intro t ht
    cases ht with
    | plain => exact .refl s
    | tptk => exact .same rfl rfl rfl rfl ⟨[_], rfl, rfl⟩
    | ptk => exact .same rfl rfl rfl rfl ⟨[_], rfl, rfl⟩
  rcases wpaSmRxEapol_received c e f s with heq | ⟨-, hr⟩
  · rw [heq]
    exact .inl (.refl s)
  generalize wpaSmRxEapol c e f s = u at hr ⊢
  cases hr with
  | noted ht => exact .inl (htaken _ ht)
  | msg1 h => exact .inr ⟨h, rfl⟩
  | msg3 _ hm ht => exact .inl ((htaken _ (verifyEapolKeyMic_taken hm ht)).trans (process3Of4_starts hl _))
  | unverified => exact .inl ((Starts.out rfl s).trans (process3Of4_starts hl _))
  | group ht => exact .inl ((htaken _ ht).trans (process1Of2_starts _))

/-! ## What an event does to the PMK -/

/-- A station that is configured for this network, or has been disconnected from it. -/
structure OnNetwork (n : Network) (s : Sm) : Prop extends OnPsk s where
  ssid : s.pass.ssid = n.ssid ∨ s.pass.ssid = [] ∧ s.par.network = false

/-- The handshakes that have started between `s` and `t` have the PMKs `ps`. -/
def Started (ps : List Bytes) (s t : Sm) : Prop :=
  ∃ l, t.trace = l ++ s.trace ∧ l.filterMap pmkOf = ps

theorem takePassphrase_spent (h : s.pass.lifiPassphraseValid = false) : takePassphrase c s = s := by
  rcases takePassphrase_cases c s with heq | ⟨-, hv, -⟩
  · exact heq
  · exact absurd (h.symm.trans hv) Bool.false_ne_true

/-- Without an SSID the passphrase keeps waiting. -/
theorem takePassphrase_off (h : s.pass.ssid = []) : takePassphrase c s = s := by
  rcases takePassphrase_cases c s with heq | ⟨-, -, hne, -⟩
  · exact heq
  · exact absurd h hne

/-- A station that has been disconnected takes no message 1/4. -/
theorem process1Of4_off (h1 : s.pass.ssid = []) (h2 : s.par.network = false) : process1Of4 c e f s = s := by
  unfold process1Of4
  simp only [takePassphrase_off h1, h2]
  rfl

/-- What an event of the station does to the PMK and the passphrase, with the PMKs of the
handshakes it starts; a disconnection clears the PMK. -/
inductive PmkMove (c : Supp.Conf) (n : Network) (s t : Sm) : List Bytes → Prop
  | stays : SamePass s t → t.pmk = s.pmk ∨ t.pmk = [] → PmkMove c n s t []
  | taken {ps : List Bytes} : s.pass.ssid = n.ssid → SamePass (takePassphrase c s) t →
      t.pmk = (takePassphrase c s).pmk ∨ t.pmk = [] → Only (takePassphrase c s).pmk ps → PmkMove c n s t ps

/-- What is spent of the passphrase does not change the network. -/
theorem takePassphrase_onNetwork (hs : OnNetwork n s) : OnNetwork n (takePassphrase c s) := by
  rcases takePassphrase_cases c s with heq | ⟨-, -, -, heq⟩ <;> rw [heq]
  · exact hs
  · exact ⟨⟨hs.akm, rfl⟩, hs.ssid⟩

theorem OnNetwork.starts {ps : List Bytes} (hs : OnNetwork n s) (h : Starts ps s t) :
    OnNetwork n t := by
  refine ⟨⟨h.akm ▸ hs.akm, ?_⟩, ?_⟩
  · rcases h.sa with heq | heq
    · exact heq.trans hs.sa
    · exact heq
  · rcases h.ssid with ⟨h1, h2⟩ | hgone
    · rw [h1, h2]
      exact hs.ssid
    · exact .inr hgone

/-- **The station's own events**: most start no handshake. -/
theorem staStep_cases {ev : Supp.Event} (hl : c.link = .lifi) (ha : n.allows ev = true)
    (h : Supp.step c s (ev, e) = some t) :
    Starts [] s t ∨ (∃ f, ev = .rxEapol f ∧ IsMsg1 s f ∧ t = process1Of4 c e f s) ∨
      ∃ par, par.keyMgmt.wpaIeee8021x = false ∧ t = { s with par := par, pass := { s.pass with ssid := n.ssid } } := by
  have hwifi : ¬ c.link = .wifi := by rw [hl]; nofun
  cases ev with
  | notifyAssoc bssid =>
    obtain rfl := Option.some.inj h
    rw [notifyAssoc_lifi hl]
    exact .inl (.same rfl rfl rfl rfl ⟨[.associated], rfl, rfl⟩)
  | notifyDisassoc =>
    obtain rfl := Option.some.inj h
    exact .inl ⟨⟨rfl, rfl⟩, rfl, .inr rfl, .inr rfl, .inl ⟨rfl, rfl⟩, [.disassociated], rfl, rfl⟩
  | rxEapol f =>
    obtain rfl := Option.some.inj h
    rcases wpaSmRxEapol_msg1 hl e f s with hu | ⟨hf, hu⟩
    · exact .inl hu
    · exact .inr (.inl ⟨f, rfl, hf, hu⟩)
  | rekeyPtk =>
    simp only [Supp.step] at h
    split at h
    · obtain rfl := Option.some.inj h
      left
      have hoff : Starts [] s { s with rekeyTimer := false } := .same rfl rfl rfl rfl ⟨[], rfl, rfl⟩
      rw [rekeyPtk_lifi hl]
      exact hoff.trans (wpaSmKeyRequest_starts _ _ _)
    · cases h
  | ptkTcp buf =>
    simp only [Supp.step, if_neg hwifi] at h
    cases h
  | keyRequest b b' =>
    obtain rfl := Option.some.inj h
    exact .inl (wpaSmKeyRequest_starts _ _ _)
  | setPmk pmk sa => cases ha
  | setPassphrase pass => cases ha
  | config par ssid =>
    obtain rfl := Option.some.inj h
    simp only [Network.allows, Bool.and_eq_true, Bool.or_eq_true, beq_iff_eq] at ha
    obtain ⟨rfl, hakm⟩ := ha
    have hpsk : par.keyMgmt.wpaIeee8021x = false := by
      rcases hakm with hk | hk
      · rw [hk]; rfl
      · rw [hk]; rfl
    exact .inr (.inr ⟨par, hpsk, rfl⟩)
  | setState st =>
    obtain rfl := Option.some.inj h
    exact .inl (.same rfl rfl rfl rfl ⟨[], rfl, rfl⟩)

/-- **What they do** to the PMK when the cache has no entries. -/
theorem staStep_move {ev : Supp.Event} (hl : c.link = .lifi) (hs : OnNetwork n s)
    (ha : n.allows ev = true) (h : Supp.step c s (ev, { e with pmksaGet := none }) = some t) :
    OnNetwork n t ∧ ∃ ps, Started ps s t ∧ PmkMove c n s t ps := by
  rcases staStep_cases hl ha h with hu | ⟨f, rfl, -, rfl⟩ | ⟨par, hpsk, rfl⟩
  · exact ⟨hs.starts hu, [], hu.trace, .stays hu.toSamePass hu.pmk⟩
  · rcases hs.ssid with hon | ⟨h1, h2⟩
    · obtain ⟨ps, hu, honly⟩ := process1Of4_starts (f := f) (takePassphrase_onNetwork hs).toOnPsk
        (e := { e with pmksaGet := none }) rfl
      refine ⟨(takePassphrase_onNetwork hs).starts hu, ps, ?_, .taken hon hu.toSamePass hu.pmk honly⟩
      have htr := hu.trace
      rw [takePassphrase_trace] at htr
      exact htr
    · rw [process1Of4_off h1 h2]
      exact ⟨hs, [], ⟨[], rfl, rfl⟩, .stays ⟨rfl, rfl⟩ (.inl rfl)⟩
  · exact ⟨⟨⟨hpsk, hs.sa⟩, .inl rfl⟩, [], ⟨[], rfl, rfl⟩, .stays ⟨rfl, rfl⟩ (.inl rfl)⟩

/-! ## Later associations -/

/-- A passphrase is stored or a setptk line arrives. -/
def RotEvent.rotates : RotEvent σ → Bool
  | .setLifiPass _ | .setptk _ => true
  | _ => false

/-- The PMK an event configures. -/
def RotEvent.configures (c : Supp.Conf) (n : Network) : RotEvent σ → Option Bytes
  | .setSuites bss => suitesPmk c.pbkdf2 n bss
  | _ => none

/-- The PMK the last association has configured; `d` when there was none. -/
def configured (c : Supp.Conf) (n : Network) (d : Bytes) (es : List (RotEvent σ)) : Bytes :=
  es.foldl (fun d x => (x.configures c n).getD d) d

/-- The passphrase is spent, and the PMK is `d` or none. -/
structure Spent (n : Network) (d : Bytes) (s : Sm) : Prop extends OnNetwork n s where
  spent : s.pass.lifiPassphraseValid = false
  pmk : s.pmk = [] ∨ s.pmk = d

variable {w w' w₁ : World σ} {a : Addr} {d : Bytes}

/-- **One event** without a rotation, once the passphrase is spent: the PMK is `d` until an
association configures another, and handshakes start with `d`. -/
theorem rotStep_spent {x : RotEvent σ} (hl : c.link = .lifi) (hs : Spent n d w.sta)
    (hx : x.rotates = false) (h : rotStep c n reauth w x = some w') :
    Spent n ((x.configures c n).getD d) w'.sta ∧
      (∃ ps, Started ps w.sta w'.sta ∧ ∀ p ∈ ps, p = d) ∧
      w'.hapd.wpaPsk = w.hapd.wpaPsk ∧ w'.hapd.wpaPskNext = w.hapd.wpaPskNext := by
  have hnone : Started [] w.sta w.sta := ⟨[], rfl, rfl⟩
  cases x with
  | setLifiPass pass => cases hx
  | setptk line => cases hx
  | setSuites bss =>
    simp only [rotStep] at h
    cases hp : suitesPmk c.pbkdf2 n bss with
    | none =>
      simp only [hp] at h
      obtain rfl := Option.some.inj h
      have hcfg : (RotEvent.setSuites bss : RotEvent σ).configures c n = none := hp
      rw [hcfg, Option.getD_none]
      exact ⟨hs, ⟨[], hnone, by simp⟩, rfl, rfl⟩
    | some pmk =>
      simp only [hp] at h
      obtain rfl := Option.some.inj h
      have hcfg : (RotEvent.setSuites bss : RotEvent σ).configures c n = some pmk := hp
      rw [hcfg, Option.getD_some]
      exact ⟨⟨⟨⟨hs.akm, hs.sa⟩, hs.ssid⟩, hs.spent, .inr rfl⟩, ⟨[], ⟨[], rfl, rfl⟩, by simp⟩,
        rfl, rfl⟩
  | sta ev e =>
    simp only [rotStep] at h
    split at h
    · rename_i ha
      obtain ⟨t, ht, rfl⟩ := Option.map_eq_some_iff.1 h
      obtain ⟨hnet, ps, hst, hmove⟩ := staStep_move hl hs.toOnNetwork ha ht
      have hkeep := takePassphrase_spent (c := c) hs.spent
      have hpmk' : t.pmk = w.sta.pmk ∨ t.pmk = [] → t.pmk = [] ∨ t.pmk = d := by
        rintro (heq | heq)
        · exact heq ▸ hs.pmk
        · exact .inl heq
      refine ⟨⟨hnet, ?_, ?_⟩, ⟨ps, hst, ?_⟩, rfl, rfl⟩
      · cases hmove with
        | stays hpass _ => rw [hpass.valid, hs.spent]
        | taken _ hpass _ _ => rw [hpass.valid, hkeep, hs.spent]
      · cases hmove with
        | stays _ hpmk => exact hpmk' hpmk
        | taken _ _ hpmk _ => exact hpmk' (hkeep ▸ hpmk)
      -- only a message 1/4 starts a handshake, and its PMK is not empty
      · intro p hp
        cases hmove with
        | stays _ _ => simp at hp
        | taken _ _ _ honly =>
          obtain ⟨rfl, hne⟩ := honly p hp
          rw [hkeep] at hne ⊢
          exact hs.pmk.resolve_left hne
    · cases h
  | stations sta =>
    obtain rfl := Option.some.inj h
    exact ⟨hs, ⟨[], hnone, by simp⟩, rfl, rfl⟩

theorem startedWith_eq {x : RotEvent σ} {ps : List Bytes} (h : rotStep c n reauth w x = some w')
    (hst : Started ps w.sta w'.sta) : startedWith c n reauth w x = ps := by
  obtain ⟨l, htr, rfl⟩ := hst
  have htake : w'.sta.trace.take (w'.sta.trace.length - w.sta.trace.length) = l := by
    rw [htr, List.length_append, Nat.add_sub_cancel, List.take_left']
    rfl
  simp only [startedWith, h, htake]

/-- **Any number of events** without a rotation. -/
theorem rotRun_spent {es : List (RotEvent σ)} (hl : c.link = .lifi) (hs : Spent n d w.sta)
    (hes : ∀ x ∈ es, x.rotates = false) (h : rotRun c n reauth w es = some w') :
    Spent n (configured c n d es) w'.sta ∧
      w'.hapd.wpaPsk = w.hapd.wpaPsk ∧ w'.hapd.wpaPskNext = w.hapd.wpaPskNext := by
  induction es generalizing w d with
  | nil =>
    obtain rfl := Option.some.inj h
    exact ⟨hs, rfl, rfl⟩
  | cons x es ih =>
    obtain ⟨w₁, h1, h2⟩ := Lib.run_cons.1 h
    obtain ⟨hs₁, -, hpsk, hnext⟩ := rotStep_spent hl hs (hes x List.mem_cons_self) h1
    obtain ⟨hs', hpsk', hnext'⟩ := ih hs₁ (fun y hy => hes y (List.mem_cons_of_mem _ hy)) h2
    exact ⟨hs', hpsk'.trans hpsk, hnext'.trans hnext⟩

/-! ## A rotation -/

/-- An event of the handshake phase: no association is begun or ended. -/
def RotEvent.during : RotEvent σ → Bool
  | .sta .notifyDisassoc _ => false
  | .sta _ _ | .stations _ => true
  | _ => false

/-- A 4-way handshake has started and completed between the two histories. -/
def Completed (old new : List Out) : Prop :=
  ∃ l m f, new = l ++ .msg3Ok f :: (m ++ old) ∧ m.filterMap pmkOf ≠ []

/-- The setter and the listener both take the passphrase. -/
structure Accepted (p : Text) : Prop where
  min : 8 ≤ p.length
  max : p.length ≤ 63
  line : '\n' ∉ p

/-- **A rotation** to the passphrase `p`: wpa_supplicant stores it, hostapd gets the setptk line
for the associated station `a`, and a 4-way handshake completes. -/
inductive Rotated (c : Supp.Conf) (n : Network) (reauth : σ → σ) (a : Addr) (p : Text)
    (w : World σ) : World σ → Prop
  | rotated {w₁ w' : World σ} {mac : Text} {m : σ} {hs hs' : List (RotEvent σ)} :
      rotRun c n reauth w (.setLifiPass p :: hs) = some w₁ →
      hwaddrParse mac = some (a, []) → w₁.hapd.sta a = some (some m) →
      rotRun c n reauth w₁ (.setptk (rekeyCmd mac p) :: hs') = some w' →
      (∀ x ∈ hs, x.during = true) → (∀ x ∈ hs', x.during = true) →
      Completed w.sta.trace w'.sta.trace → Rotated c n reauth a p w w'

/-- The station and hostapd are on the same network. -/
structure SameNetwork (n : Network) (w : World σ) : Prop extends OnNetwork n w.sta where
  nonempty : n.ssid ≠ []
  hapd : w.hapd.ssid = n.ssid

/-- The passphrase waits for message 1/4, or `sm->pmk` is derived from it, if there is one. -/
structure OnNewPass (c : Supp.Conf) (n : Network) (p : Text) (s₀ s : Sm) : Prop extends
    OnNetwork n s where
  pmk : (s.pass.lifiPassphraseValid = true ∧ s.pass.lifiPassphrase = p ∧ Started [] s₀ s) ∨
    (s.pass.lifiPassphraseValid = false ∧ (s.pmk = [] ∨ s.pmk = c.pbkdf2 p n.ssid 4096) ∧
      ∃ ps, Started ps s₀ s)

theorem Started.trans {ps ps' : List Bytes} (h : Started ps s t) (h' : Started ps' t u) :
    Started (ps' ++ ps) s u := by
  obtain ⟨l, hl, rfl⟩ := h
  obtain ⟨l', hl', rfl⟩ := h'
  exact ⟨l' ++ l, by rw [hl', hl, List.append_assoc], List.filterMap_append⟩

variable {p mac : Text} {s₀ : Sm} {m : σ}

/-- **One event** of the handshake phase. -/
theorem rotStep_onNewPass {x : RotEvent σ} (hl : c.link = .lifi) (hne : n.ssid ≠ [])
    (hs : OnNewPass c n p s₀ w.sta) (hx : x.during = true) (h : rotStep c n reauth w x = some w') :
    OnNewPass c n p s₀ w'.sta ∧ w'.hapd.wpaPsk = w.hapd.wpaPsk ∧
      w'.hapd.wpaPskNext = w.hapd.wpaPskNext ∧ w'.hapd.ssid = w.hapd.ssid := by
  cases x with
  | setLifiPass pass => cases hx
  | setptk line => cases hx
  | setSuites bss => cases hx
  | sta ev e =>
    simp only [rotStep] at h
    split at h
    · rename_i ha
      obtain ⟨t, ht, rfl⟩ := Option.map_eq_some_iff.1 h
      obtain ⟨hnet, ps, hst, hmove⟩ := staStep_move hl hs.toOnNetwork ha ht
      refine ⟨⟨hnet, ?_⟩, rfl, rfl, rfl⟩
      cases hmove with
      | stays hpass hpmk =>
        rw [hpass.valid, hpass.passphrase]
        rcases hs.pmk with ⟨h1, h2, h3⟩ | ⟨h1, h2, ps', h3⟩
        · exact .inl ⟨h1, h2, h3.trans hst⟩
        · refine .inr ⟨h1, ?_, _, h3.trans hst⟩
          rcases hpmk with heq | heq
          · exact heq ▸ h2
          · exact .inl heq
      | taken hon hpass hpmk honly =>
        rw [hpass.valid, hpass.passphrase]
        right
        rcases hs.pmk with ⟨h1, h2, h3⟩ | ⟨h1, h2, ps', h3⟩
        · -- message 1/4 spends the passphrase
          rw [takePassphrase_valid hl h1 (hon ▸ hne)] at hpmk ⊢
          refine ⟨rfl, ?_, _, h3.trans hst⟩
          rw [← h2, ← hon]
          exact hpmk.symm
        · rw [takePassphrase_spent h1] at hpmk ⊢
          refine ⟨h1, ?_, _, h3.trans hst⟩
          rcases hpmk with heq | heq
          · exact heq ▸ h2
          · exact .inl heq
    · cases h
  | stations sta =>
    obtain rfl := Option.some.inj h
    exact ⟨hs, rfl, rfl, rfl⟩

theorem rotRun_onNewPass {es : List (RotEvent σ)} (hl : c.link = .lifi) (hne : n.ssid ≠ [])
    (hs : OnNewPass c n p s₀ w.sta) (hes : ∀ x ∈ es, x.during = true)
    (h : rotRun c n reauth w es = some w') :
    OnNewPass c n p s₀ w'.sta ∧ w'.hapd.wpaPsk = w.hapd.wpaPsk ∧
      w'.hapd.wpaPskNext = w.hapd.wpaPskNext ∧ w'.hapd.ssid = w.hapd.ssid := by
  induction es generalizing w with
  | nil =>
    obtain rfl := Option.some.inj h
    exact ⟨hs, rfl, rfl, rfl⟩
  | cons x es ih =>
    obtain ⟨w₁, h1, h2⟩ := Lib.run_cons.1 h
    obtain ⟨hs₁, hpsk, hnext, hssid⟩ := rotStep_onNewPass hl hne hs (hes x List.mem_cons_self) h1
    obtain ⟨hs', hpsk', hnext', hssid'⟩ := ih hs₁ (fun y hy => hes y (List.mem_cons_of_mem _ hy)) h2
    exact ⟨hs', hpsk'.trans hpsk, hnext'.trans hnext, hssid'.trans hssid⟩

/-- The setptk line replaces the first PSK, and the station is not touched. -/
theorem rotStep_setptk (hp : Accepted p) (hmac : hwaddrParse mac = some (a, []))
    (ha : w.hapd.sta a = some (some m)) (hne : w.hapd.ssid ≠ [])
    (h : rotStep c n reauth w (.setptk (rekeyCmd mac p)) = some w') :
    w'.sta = w.sta ∧ w'.hapd.wpaPskNext = w.hapd.wpaPskNext ∧
      w'.hapd.wpaPsk = { w.hapd.wpaPsk with psk := c.pbkdf2 p w.hapd.ssid 4096 } := by
  have htake : p.takeWhile (· != '\n') = p :=
    List.takeWhile_eq_self_iff.2 fun x hx => by
      have : x ≠ '\n' := fun h => hp.line (h ▸ hx)
      simpa using this
  obtain ⟨x, t, hcons⟩ : ∃ x t, p = x :: t :=
    List.exists_cons_of_length_pos (by have := hp.min; omega)
  have hx : x ≠ '\n' := fun h => hp.line (by rw [hcons, h]; exact List.mem_cons_self)
  have hlen : ¬ (p.length < 8 ∨ 63 < p.length) := by
    have := hp.min
    have := hp.max
    omega
  have hline : lifiHandleLine c.pbkdf2 reauth w.hapd (rekeyCmd mac p) = .ok { w.hapd with
      wpaPsk := { w.hapd.wpaPsk with psk := c.pbkdf2 p w.hapd.ssid 4096 }
      sta := fun b => if b = a then some (some (reauth m)) else w.hapd.sta b } := by
    have hread := lifiHandleLine_setptk c.pbkdf2 reauth hmac ha hcons hx
    simp only [htake, if_neg hlen, if_neg hne] at hread
    exact hread
  simp only [rotStep, hline, Option.some.injEq] at h
  subst h
  exact ⟨rfl, rfl, rfl⟩

/-- **After a rotation** the PMK of the station is derived from the passphrase, and so is the
first PSK of hostapd. -/
theorem Rotated.held (hl : c.link = .lifi) (hn : SameNetwork n w) (hp : Accepted p)
    (h : Rotated c n reauth a p w w') :
    Spent n (c.pbkdf2 p n.ssid 4096) w'.sta ∧ w'.hapd.wpaPskNext = w.hapd.wpaPskNext ∧
      w'.hapd.wpaPsk = { w.hapd.wpaPsk with psk := c.pbkdf2 p n.ssid 4096 } := by
  obtain ⟨hrun, hmac, ha, hrun', hhs, hhs', hdone⟩ := h
  obtain ⟨v, hv, hrun⟩ := Lib.run_cons.1 hrun
  obtain ⟨u, hu, hrun'⟩ := Lib.run_cons.1 hrun'
  have hset : wpaSmSetPassphrase w.sta.pass p =
      some { w.sta.pass with lifiPassphrase := p, lifiPassphraseValid := true } :=
    if_neg (by have := hp.max; omega)
  -- the setter
  have hstored : OnNewPass c n p w.sta v.sta ∧ v.hapd = w.hapd := by
    simp only [rotStep, hset, Option.getD_some] at hv
    obtain rfl := Option.some.inj hv
    exact ⟨⟨⟨⟨hn.akm, hn.sa⟩, hn.ssid⟩, .inl ⟨rfl, rfl, [], rfl, rfl⟩⟩, rfl⟩
  obtain ⟨hs₁, hpsk₁, hnext₁, hssid₁⟩ := rotRun_onNewPass hl hn.nonempty hstored.1 hhs hrun
  rw [hstored.2] at hpsk₁ hnext₁ hssid₁
  rw [hn.hapd] at hssid₁
  -- the line
  obtain ⟨hsta, hnext₂, hpsk₂⟩ := rotStep_setptk hp hmac ha (hssid₁ ▸ hn.nonempty) hu
  -- the handshake
  obtain ⟨hs₃, hpsk₃, hnext₃, -⟩ := rotRun_onNewPass hl hn.nonempty (hsta ▸ hs₁) hhs' hrun'
  have hspent : w'.sta.pass.lifiPassphraseValid = false ∧
      (w'.sta.pmk = [] ∨ w'.sta.pmk = c.pbkdf2 p n.ssid 4096) := by
    rcases hs₃.pmk with ⟨-, -, l, htr, hnil⟩ | ⟨h1, h2, -⟩
    · -- no message 1/4 has been taken: no handshake has completed
      obtain ⟨k, m', f, htr', hm'⟩ := hdone
      have hl' : l = k ++ .msg3Ok f :: m' := by
        have heq := htr.symm.trans htr'
        rw [← List.cons_append, ← List.append_assoc] at heq
        exact List.append_cancel_right heq
      rw [hl', List.filterMap_append, List.append_eq_nil_iff, List.filterMap_cons] at hnil
      exact absurd hnil.2 hm'
    · exact ⟨h1, h2⟩
  refine ⟨⟨hs₃.toOnNetwork, hspent.1, hspent.2⟩, hnext₃.trans (hnext₂.trans hnext₁), ?_⟩
  rw [hpsk₃, hpsk₂, hpsk₁, hssid₁]

/-! ## The later handshakes -/

/-- A 4-way handshake of the run `es`, started after `es₁` in the state `w₁`, with this PMK. -/
def HandshakeAt (c : Supp.Conf) (n : Network) (reauth : σ → σ) (w : World σ)
    (es es₁ : List (RotEvent σ)) (w₁ : World σ) (pmk : Bytes) : Prop :=
  ∃ x es₂, es = es₁ ++ x :: es₂ ∧ rotRun c n reauth w es₁ = some w₁ ∧
    pmk ∈ startedWith c n reauth w₁ x

/-- The entry that setptk writes is the one hostapd uses for the station, or hostapd's entry
for the station has this PSK anyway. -/
def Serves (a : Addr) (psk : Bytes) (hapd : Hapd σ) : Prop :=
  hapd.wpaPsk.serves a = true ∨ (hapd.wpaPskNext.find? (·.serves a)).map (·.psk) = some psk

theorem hostapdGetPsk_setptk {hapd hapd' : Hapd σ} {psk : Bytes}
    (h1 : hapd'.wpaPsk = { hapd.wpaPsk with psk := psk })
    (h2 : hapd'.wpaPskNext = hapd.wpaPskNext) :
    hostapdGetPsk hapd' a = some psk ↔ Serves a psk hapd := by
  have hserves : hapd'.wpaPsk.serves a = hapd.wpaPsk.serves a := by rw [h1]; rfl
  unfold hostapdGetPsk Serves
  rw [List.find?_cons, hserves, h2]
  cases hapd.wpaPsk.serves a with
  | true => simp [h1]
  | false => simp

/-- **When the rotated PSK survives.** After a rotation and any events without a new one, every
later handshake runs on the PSK hostapd uses, the one derived from the passphrase, if and only
if at each of these handshakes the last association since the rotation, when there was one, has
configured just that PSK, and setptk writes the entry hostapd uses. -/
theorem rotated_psk_survives_iff {es : List (RotEvent σ)} (hl : c.link = .lifi)
    (hn : SameNetwork n w) (hp : Accepted p) (hrot : Rotated c n reauth a p w w')
    (hes : ∀ x ∈ es, x.rotates = false) :
    (∀ es₁ w₁ pmk, HandshakeAt c n reauth w' es es₁ w₁ pmk →
        hostapdGetPsk w₁.hapd a = some pmk ∧ pmk = c.pbkdf2 p n.ssid 4096) ↔
      ∀ es₁ w₁ pmk, HandshakeAt c n reauth w' es es₁ w₁ pmk →
        configured c n (c.pbkdf2 p n.ssid 4096) es₁ = c.pbkdf2 p n.ssid 4096 ∧
          Serves a (c.pbkdf2 p n.ssid 4096) w.hapd := by
  obtain ⟨hspent, hnext, hpsk⟩ := hrot.held hl hn hp
  generalize c.pbkdf2 p n.ssid 4096 = K at hspent hpsk ⊢
  have hat : ∀ es₁ w₁ pmk, HandshakeAt c n reauth w' es es₁ w₁ pmk →
      pmk = configured c n K es₁ ∧ (hostapdGetPsk w₁.hapd a = some K ↔ Serves a K w.hapd) := by
    rintro es₁ w₁ pmk ⟨x, es₂, rfl, hrun, hmem⟩
    have hpre : ∀ y ∈ es₁, y.rotates = false := fun y hy => hes y (List.mem_append_left _ hy)
    have hx : x.rotates = false := hes x (List.mem_append_right _ List.mem_cons_self)
    obtain ⟨hs₁, hpsk₁, hnext₁⟩ := rotRun_spent hl hspent hpre hrun
    refine ⟨?_, hostapdGetPsk_setptk (hpsk₁.trans hpsk) (hnext₁.trans hnext)⟩
    cases hstep : rotStep c n reauth w₁ x with
    | none => simp [startedWith, hstep] at hmem
    | some w₂ =>
      obtain ⟨-, ⟨ps, hst, honly⟩, -⟩ := rotStep_spent hl hs₁ hx hstep
      rw [startedWith_eq hstep hst] at hmem
      exact honly pmk hmem
  constructor
  · intro h es₁ w₁ pmk hh
    obtain ⟨hpmk, hserves⟩ := hat es₁ w₁ pmk hh
    obtain ⟨h1, rfl⟩ := h es₁ w₁ pmk hh
    exact ⟨hpmk.symm, hserves.1 h1⟩
  · intro h es₁ w₁ pmk hh
    obtain ⟨hpmk, hserves⟩ := hat es₁ w₁ pmk hh
    obtain ⟨h1, h2⟩ := h es₁ w₁ pmk hh
    rw [hpmk, h1]
    exact ⟨hserves.2 h2, rfl⟩

/-! ## A station that associates again -/

/-- wpa_supplicant with the PBKDF2 of the examples. -/
def supp2024 : Supp.Conf := { Supp.plainConf .lifi plainPrims with pbkdf2 := pbkdf2Lifi }

/-- The network `lifi`; its configuration has another PSK. -/
def networkLifi : Network := ⟨[108, 105, 102, 105], false, none, some plainPmk.1⟩

/-- The station and hostapd of the examples. -/
def startLifi : World Unit := ⟨{ Sm.new wpa2Ccmp with pass := smLifi }, hapdLifi⟩

/-- Message 1/4 of hostapd. -/
def lifiMsg1 (replayCounter : ℕ) : EapolKey where
  type := 2
  ver := 2
  pairwise := true
  install := false
  ack := true
  hasMic := false
  secure := false
  error := false
  request := false
  smk := false
  keyIndex := 0
  keyLength := 16
  replayCounter := replayCounter
  nonce := List.replicate 32 7
  keyData := ⟨0, some ⟨none, none, none, none, none⟩, none⟩
  mic := List.replicate 16 0

/-- Message 3/4 of hostapd. -/
def lifiMsg3 (replayCounter : ℕ) : EapolKey where
  type := 2
  ver := 2
  pairwise := true
  install := true
  ack := true
  hasMic := true
  secure := true
  error := false
  request := false
  smk := false
  keyIndex := 0
  keyLength := 16
  replayCounter := replayCounter
  nonce := List.replicate 32 7
  keyData := ⟨46, some ⟨some plainRsne, none, none, some ⟨1, List.replicate 16 5⟩, none⟩,
    some plainKeys.kek⟩
  mic := plainKeys.kck

/-- The 4-way handshake of the rotation. -/
def lifiHandshake : List (RotEvent Unit) :=
  [.sta (.rxEapol (lifiMsg1 1)) calm, .sta (.rxEapol (lifiMsg3 2)) calm]

/-- The station leaves, associates again and gets message 1/4. -/
def lifiAgain : List (RotEvent Unit) :=
  [.sta .notifyDisassoc calm, .setSuites none, .sta (.notifyAssoc Addr.first) calm,
    .sta (.rxEapol (lifiMsg1 1)) calm]

theorem accepted_lifi2024 : Accepted "lifi-2024".toList := ⟨by decide, by decide, by decide⟩

theorem startLifi_network : SameNetwork networkLifi startLifi :=
  ⟨⟨⟨rfl, rfl⟩, .inl rfl⟩, by decide, rfl⟩

/-- wpa_supplicant has stored the passphrase. -/
def storedLifi : World Unit :=
  { startLifi with sta := { startLifi.sta with pass := ⟨"lifi-2024".toList, true, smLifi.ssid⟩ } }

/-- A world in which the rotation of the example has been made. -/
theorem rotated_lifi2024 : ∃ w', Rotated supp2024 networkLifi id staAddr "lifi-2024".toList
    startLifi w' ∧ rotRun supp2024 networkLifi id storedLifi
      (.setptk (rekeyCmd staMac "lifi-2024".toList) :: lifiHandshake) = some w' := by
  have heval : (rotRun supp2024 networkLifi id storedLifi
      (.setptk (rekeyCmd staMac "lifi-2024".toList) :: lifiHandshake)).map (fun w =>
        (w.sta.trace.head?, w.sta.trace.tail.filterMap pmkOf)) =
      some (some (.msg3Ok (lifiMsg3 2)), [pbkdf2Lifi "lifi-2024".toList networkLifi.ssid 4096]) := rfl
  obtain ⟨w', hw, hval⟩ := Option.map_eq_some_iff.1 heval
  obtain ⟨hhead, htail⟩ := Prod.mk.inj hval
  obtain ⟨t, htr⟩ := List.head?_eq_some_iff.1 hhead
  rw [htr, List.tail_cons] at htail
  have hstored : rotRun supp2024 networkLifi id startLifi
      (.setLifiPass "lifi-2024".toList :: []) = some storedLifi := rfl
  refine ⟨w', .rotated hstored staMac_parse hapdLifi_sta hw ?_ ?_ ?_, hw⟩
  · simp
  · simp [lifiHandshake, RotEvent.during]
  · refine ⟨[], t, lifiMsg3 2, ?_, by rw [htail]; nofun⟩
    rw [htr, show startLifi.sta.trace = [] from rfl, List.append_nil, List.nil_append]

/-- The rotation of the example and an association with another configured PSK. -/
theorem rotated_psk_survives_lifi2024 : ∃ w',
    Rotated supp2024 networkLifi id staAddr "lifi-2024".toList startLifi w' ∧
    ((∀ es₁ w₁ pmk, HandshakeAt supp2024 networkLifi id w' lifiAgain es₁ w₁ pmk →
        hostapdGetPsk w₁.hapd staAddr = some pmk ∧
          pmk = pbkdf2Lifi "lifi-2024".toList networkLifi.ssid 4096) ↔
      ∀ es₁ w₁ pmk, HandshakeAt supp2024 networkLifi id w' lifiAgain es₁ w₁ pmk →
        configured supp2024 networkLifi (pbkdf2Lifi "lifi-2024".toList networkLifi.ssid 4096) es₁ =
            pbkdf2Lifi "lifi-2024".toList networkLifi.ssid 4096 ∧
          Serves staAddr (pbkdf2Lifi "lifi-2024".toList networkLifi.ssid 4096) hapdLifi) := by
  obtain ⟨w', hrot, -⟩ := rotated_lifi2024
  exact ⟨w', hrot, rotated_psk_survives_iff rfl startLifi_network accepted_lifi2024 hrot
    (by simp [lifiAgain, RotEvent.rotates])⟩

/-- After the station has associated again, message 1/4 derives from the PSK of its
configuration, and hostapd still uses the rotated one. -/
theorem rotated_psk_lost : ¬ ∀ (c : Supp.Conf) (n : Network) (a : Addr) (p : Text)
    (w w' w₁ : World Unit) (es es₁ : List (RotEvent Unit)) (pmk : Bytes), c.link = .lifi →
    SameNetwork n w → Accepted p → Rotated c n id a p w w' → (∀ x ∈ es, x.rotates = false) →
    HandshakeAt c n id w' es es₁ w₁ pmk →
    hostapdGetPsk w₁.hapd a = some pmk ∧ pmk = c.pbkdf2 p n.ssid 4096 := by
  intro h
  have heval : (rotRun supp2024 networkLifi id storedLifi
      (.setptk (rekeyCmd staMac "lifi-2024".toList) :: lifiHandshake ++ lifiAgain.take 3)).map
        (fun w => startedWith supp2024 networkLifi id w (.sta (.rxEapol (lifiMsg1 1)) calm)) =
      some [plainPmk.1] := rfl
  obtain ⟨w₁, hw₁, hval⟩ := Option.map_eq_some_iff.1 heval
  obtain ⟨w', hrot, hw'⟩ := rotated_lifi2024
  obtain ⟨w₂, h1, h2⟩ := Lib.run_append.1 hw₁
  obtain rfl : w₂ = w' := Option.some.inj (h1.symm.trans hw')
  have hat : HandshakeAt supp2024 networkLifi id w₂ lifiAgain (lifiAgain.take 3) w₁ plainPmk.1 :=
    ⟨.sta (.rxEapol (lifiMsg1 1)) calm, [], rfl, h2, by rw [hval]; exact List.mem_singleton_self _⟩
  have hpmk := (h _ _ _ _ _ _ _ _ _ _ rfl startLifi_network accepted_lifi2024 hrot
    (by simp [lifiAgain, RotEvent.rotates]) hat).2
  revert hpmk
  decide

end Lightguard.Rotation
