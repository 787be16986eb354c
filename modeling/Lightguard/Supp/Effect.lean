import Lightguard.Supp.Events

/-!
# What the supplicant's functions do

What each function that takes a frame or installs a key does, said once: the invariants are
proved from the lemmas of this module.

* `get_pmk_cases`: which PMK `wpa_supplicant_get_pmk` ends with.
* `Sends.process1Of4`, `Sends.process3Of4`, `Sends.process1Of2`: a handler keeps what the functions
  it calls keep, up to the disconnection it may end with. `process3Of4_stages` is message 3/4 with a property for each of its stages.
* `wpaSmRxEapol_received`: what becomes of a received frame.
* `notifyAssoc_cases`: where an association ends on the WiFi link.
-/

namespace Lightguard.Supp

open Wpa Rotation

variable {c : Conf} {e : Env} {f : EapolKey} {s t : Sm} {i : Option Bytes} {pmk : Bytes}
  {cur : Option Pmksa} {Q P : Sm → Prop}

/-! ## Sending -/

/-- A frame that is sent and the fields of a handshake in progress do not matter to `Q`, and a handler that
keeps `Q` ends in `P`: it is done, gives up, or asks for a new association. -/
structure Sends (Q P : Sm → Prop) : Prop where
  out : ∀ g t, Q t → Q (t.out (.sent g))
  fields : ∀ (t : Sm) st b n a k, Q t → Q { t with
    wpaState := st, renewSnonce := b, snonce := n, anonce := a, requestCounter := k }
  done : ∀ t, Q t → P t
  deauthenticate : ∀ t, Q t → P t.deauthenticate
  reconnect : ∀ t, Q t → P t.reconnect

theorem wpaEapolKeySend_cases (c : Conf) (e : Env) (ptk : Ptk) (b : KeyBody) (s : Sm) :
    wpaEapolKeySend c e ptk b s = (false, s) ∨
      ∃ g, wpaEapolKeySend c e ptk b s = (true, s.out (.sent g)) := by
  unfold wpaEapolKeySend
  split
  · exact .inl rfl
  split
  · exact .inl rfl
  · exact .inr ⟨_, rfl⟩

namespace Sends

theorem setState (hQ : Sends Q P) (st : WpaState) (h : Q s) : Q { s with wpaState := st } :=
  hQ.fields s st s.renewSnonce s.snonce s.anonce s.requestCounter h

theorem send (hQ : Sends Q P) (ptk : Ptk) (b : KeyBody) (h : Q s) : Q (wpaEapolKeySend c e ptk b s).2 := by
  rcases wpaEapolKeySend_cases c e ptk b s with heq | ⟨g, heq⟩ <;> rw [heq]
  · exact h
  · exact hQ.out g s h

theorem keyRequest (hQ : Sends Q P) (b b' : Bool) (h : Q s) : P (wpaSmKeyRequest c e b b' s) := by
  unfold wpaSmKeyRequest
  split
  · exact hQ.reconnect s h
  · exact hQ.done _ (hQ.send _ _ (hQ.fields s s.wpaState s.renewSnonce s.snonce s.anonce _ h))

end Sends

/-! ## The lookup of the PMK -/

/-- The current entry or, when there is none and the message has a PMKID, that of the cache. -/
def found (e : Env) (i : Option Bytes) (s : Sm) : Option Pmksa :=
  if i.isSome ∧ s.curPmksa = none then e.pmksaGet else s.curPmksa

/-- The message names the entry. -/
def Named (e : Env) (i : Option Bytes) (s : Sm) : Prop := i.isSome ∧ i = (found e i s).map (·.pmkid)

instance : Decidable (Named e i s) := inferInstanceAs (Decidable (_ ∧ _))

/-- The entry that a PMK of EAP is stored in. -/
def added (e : Env) (s : Sm) : Option Pmksa := if s.par.rsn then e.pmksaAdd else none

/-- The lookup ends well, with this PMK and this entry: those of the entry that is named; for a PSK the
PMK there was; for 802.1X the PMK of EAP, when a PMKID that is not known is that of the new entry. -/
inductive Gets (e : Env) (i : Option Bytes) (s : Sm) : Bytes → Option Pmksa → Prop
  | cached {a : Pmksa} (hfound : found e i s = some a) (hid : i = some a.pmkid) : Gets e i s a.pmk (some a)
  | psk (hn : ¬ Named e i s) (hx : s.par.keyMgmt.wpaIeee8021x = false) : Gets e i s s.pmk (found e i s)
  | eap {key : Bytes} (hn : ¬ Named e i s) (hx : s.par.keyMgmt.wpaIeee8021x = true)
      (hkey : e.eapolKey = some key)
      (hnew : found e i s = none → i.isSome → i = (added e s).map (·.pmkid)) :
      Gets e i s key ((found e i s).or (added e s))

theorem named_of_found {a : Pmksa} (hf : found e i s = some a) (hid : i = some a.pmkid) : Named e i s :=
  ⟨by rw [hid]; rfl, by rw [hf, hid]; rfl⟩

/-- Without an entry that is named 802.1X takes a key of EAP, and a PMKID that is not known has to be that of
the new entry. -/
theorem Gets.of_eap {pmk : Bytes} {cur : Option Pmksa} (h : Gets e i s pmk cur) (hn : ¬ Named e i s)
    (hx : s.par.keyMgmt.wpaIeee8021x = true) :
    e.eapolKey = some pmk ∧ (found e i s = none → i.isSome → i = (added e s).map (·.pmkid)) := by
  cases h with
  | cached hf hid => exact absurd (named_of_found hf hid) hn
  | psk _ hx' => exact absurd (hx.symm.trans hx') (by decide)
  | eap _ _ hkey hnew => exact ⟨hkey, hnew⟩

/-- A lookup that fails asks for a full EAP authentication: there is no key of EAP for an entry or a PMKID,
or no entry for the key. -/
def AsksEap (e : Env) (i : Option Bytes) (s : Sm) : Prop :=
  match e.eapolKey with
  | none => i.isSome ∨ (found e i s).isSome
  | some _ => added e s = none

/-- What a lookup that fails leaves. -/
def failedPmk (e : Env) (s : Sm) : Bytes := e.eapolKey.getD s.pmk

theorem lookupPmksa_fst : (lookupPmksa e i s).1 = found e i s := by
  unfold lookupPmksa found
  split <;> rfl

/-- There is no entry for the PMKID, neither current nor in the cache. -/
theorem lookupPmksa_snd : (lookupPmksa e i s).2 = decide (i.isSome ∧ found e i s = none) := by
  unfold lookupPmksa found
  by_cases h : i.isSome ∧ s.curPmksa = none
  · rw [if_pos h, if_pos h]
    exact decide_eq_decide.2 ⟨fun hn => ⟨h.1, hn⟩, fun hn => hn.2⟩
  · rw [if_neg h, if_neg h]
    exact (decide_eq_false h).symm

/-- The code in terms of `found`, `Named` and `added`. -/
theorem wpaSupplicantGetPmk_eq (e : Env) (i : Option Bytes) (s : Sm) :
    wpaSupplicantGetPmk e i s =
      if Named e i s then abortCached (decide (i.isSome ∧ found e i s = none))
        { s with curPmksa := found e i s, pmk := ((found e i s).map (·.pmk)).getD [] }
      else if s.par.keyMgmt.wpaIeee8021x then
        e.eapolKey.elim
          (if (found e i s).isSome then abortCached true { s with curPmksa := none }
          else if !decide (i.isSome ∧ found e i s = none) then (.failed, { s with curPmksa := found e i s })
          else abortCached (decide (i.isSome ∧ found e i s = none)) { s with curPmksa := found e i s })
          fun key =>
            if found e i s = none ∧ i.isSome then
              if (added e s).isSome ∧ (added e s).map (·.pmkid) ≠ i then
                (.failed, { s with curPmksa := found e i s, pmk := key })
              else abortCached (decide (i.isSome ∧ found e i s = none) && (added e s).isNone)
                { s with curPmksa := (found e i s).or (added e s), pmk := key }
            else abortCached (decide (i.isSome ∧ found e i s = none))
              { s with curPmksa := (found e i s).or (added e s), pmk := key }
      else abortCached (decide (i.isSome ∧ found e i s = none)) { s with curPmksa := found e i s } := by
  unfold wpaSupplicantGetPmk
  rw [lookupPmksa_fst, lookupPmksa_snd]
  cases e.eapolKey <;> rfl

/-- **The lookup.** It ends well as `Gets` says; otherwise 802.1X keeps no entry, and the PMK of EAP if
there is one, and may ask for EAP. -/
theorem get_pmk_cases (e : Env) (i : Option Bytes) (s : Sm) :
    (∃ pmk cur, Gets e i s pmk cur ∧
      wpaSupplicantGetPmk e i s = (.ok, { s with pmk := pmk, curPmksa := cur })) ∨
    (¬ ∃ pmk cur, Gets e i s pmk cur) ∧ s.par.keyMgmt.wpaIeee8021x = true ∧
      ∃ r, r ≠ .ok ∧ (r = .startEap ↔ AsksEap e i s) ∧
        wpaSupplicantGetPmk e i s = (r, { s with pmk := failedPmk e s, curPmksa := none }) := by
  rw [wpaSupplicantGetPmk_eq]
  by_cases hn : Named e i s
  -- the entry that the message names gives the PMK, whatever the key management is
  · obtain ⟨hi, hid⟩ := id hn
    cases hf : found e i s with
    | none =>
      rw [hf, Option.map_none] at hid
      rw [hid] at hi
      cases hi
    | some a =>
      rw [hf, Option.map_some] at hid
      rw [if_pos hn]
      refine .inl ⟨a.pmk, some a, .cached hf hid, ?_⟩
      simp [abortCached]
  rw [if_neg hn]
  cases hx : s.par.keyMgmt.wpaIeee8021x with
  | false =>
    rw [if_neg Bool.false_ne_true]
    -- a PSK stays, with the entry that was found
    refine .inl ⟨s.pmk, found e i s, .psk hn hx, ?_⟩
    simp [abortCached, hx]
  | true =>
    rw [if_pos rfl]
    cases hk : e.eapolKey with
    | none =>
      -- EAP has no key: no entry is kept, and EAP starts again or the lookup fails
      have hnot : ¬ ∃ pmk cur, Gets e i s pmk cur := by
        rintro ⟨pmk, cur, hg⟩
        exact nomatch hk.symm.trans (hg.of_eap hn hx).1
      refine .inr ⟨hnot, rfl, ?_⟩
      have hpmk : failedPmk e s = s.pmk := by rw [failedPmk, hk, Option.getD_none]
      have hask : AsksEap e i s ↔ i.isSome ∨ (found e i s).isSome := by rw [AsksEap, hk]
      rw [hpmk, hask, Option.elim_none]
      cases hf : found e i s with
      | some a => exact ⟨.startEap, (by rintro ⟨⟩), by simp, by simp [abortCached, hx]⟩
      | none =>
        by_cases hi : i.isSome
        · exact ⟨.startEap, (by rintro ⟨⟩), by simp [hi], by simp [abortCached, hx, hi]⟩
        · exact ⟨.failed, (by rintro ⟨⟩), by simp [hi], by simp [hi]⟩
    | some key =>
      have hpmk : failedPmk e s = key := by rw [failedPmk, hk, Option.getD_some]
      rw [hpmk, Option.elim_some]
      -- the new entry counts only for a PMKID that no entry has
      by_cases hnew : found e i s = none → i.isSome → i = (added e s).map (·.pmkid)
      · refine .inl ⟨key, _, .eap hn hx hk hnew, ?_⟩
        by_cases h3 : found e i s = none ∧ i.isSome
        · have hid := hnew h3.1 h3.2
          have hsome : (added e s).isNone = false := by
            cases ha : added e s with
            | none =>
              rw [ha] at hid
              rw [hid] at h3
              cases h3.2
            | some a => rfl
          simp only [if_pos h3]
          rw [if_neg fun h => h.2 hid.symm, hsome, Bool.and_false]
          rfl
        · have h3' : ¬ (i.isSome ∧ found e i s = none) := fun h => h3 ⟨h.2, h.1⟩
          simp only [if_neg h3, decide_eq_false h3']
          rfl
      · push Not at hnew
        obtain ⟨h3, hi, hid⟩ := hnew
        refine .inr ⟨?_, rfl, ?_⟩
        · rintro ⟨pmk, cur, hg⟩
          exact hid ((hg.of_eap hn hx).2 h3 hi)
        · have hask : AsksEap e i s ↔ added e s = none := by rw [AsksEap, hk]
          simp only [h3, hi, and_self, if_true, hask]
          cases ha : added e s with
          | some a =>
            rw [ha] at hid
            exact ⟨.failed, (by rintro ⟨⟩), by simp, if_pos ⟨rfl, Ne.symm hid⟩⟩
          | none => exact ⟨.startEap, (by rintro ⟨⟩), by simp, by simp [abortCached, hx]⟩

/-! ## Message 1/4 -/

/-- A passphrase that is stored replaces the PMK and is used up; the entry goes. -/
theorem takePassphrase_valid (hl : c.link = .lifi) (h : s.pass.lifiPassphraseValid = true)
    (hne : s.pass.ssid ≠ []) : takePassphrase c s =
      { s with
        pmk := c.pbkdf2 s.pass.lifiPassphrase s.pass.ssid 4096, curPmksa := none
        pass := { s.pass with lifiPassphraseValid := false } } := by
  have hsome : msg1Pmk c.pbkdf2 s.pass = some (c.pbkdf2 s.pass.lifiPassphrase s.pass.ssid 4096) :=
    if_pos ⟨h, hne⟩
  have hafter : afterMsg1 s.pass = { s.pass with lifiPassphraseValid := false } := if_pos ⟨h, hne⟩
  simp only [takePassphrase, if_pos hl, hsome, hafter]

theorem takePassphrase_cases (c : Conf) (s : Sm) :
    takePassphrase c s = s ∨ c.link = .lifi ∧ s.pass.lifiPassphraseValid = true ∧ s.pass.ssid ≠ [] ∧
      takePassphrase c s = { s with
        pmk := c.pbkdf2 s.pass.lifiPassphrase s.pass.ssid 4096, curPmksa := none
        pass := { s.pass with lifiPassphraseValid := false } } := by
  by_cases hl : c.link = .lifi
  · by_cases hv : s.pass.lifiPassphraseValid = true ∧ s.pass.ssid ≠ []
    · exact .inr ⟨hl, hv.1, hv.2, takePassphrase_valid hl hv.1 hv.2⟩
    · left
      unfold takePassphrase
      rw [msg1Pmk, if_neg hv]
      split <;> rfl
  · exact .inl (if_neg hl)

theorem renewSnonce_cases (h : renewSnonce e s = some t) :
    (∃ n b, t = { s with snonce := n, renewSnonce := b }) ∧
      (s.renewSnonce = true → e.random ≠ none) := by
  unfold renewSnonce at h
  split at h
  · obtain ⟨n, hn, rfl⟩ := Option.map_eq_some_iff.1 h
    exact ⟨⟨n, false, rfl⟩, fun _ => by simp [hn]⟩
  · rename_i hr
    obtain rfl := Option.some.inj h
    exact ⟨⟨s.snonce, s.renewSnonce, rfl⟩, fun h => absurd h hr⟩

/-- What a derivation adds to the trace besides its PTK. -/
theorem mem_pushed {o : Out} {d : Derived} (h : o ∈ (d.pushed.map Out.pushed).toList) :
    ∃ b, d.pushed = some b ∧ o = .pushed b := by
  obtain ⟨b, hb, rfl⟩ := Option.map_eq_some_iff.1 (Option.mem_toList.1 h)
  exact ⟨b, hb, rfl⟩

namespace Sends

/-- The answer derives once, from the PMK of the machine. -/
theorem answerMsg1 (hQ : Sends Q P)
    (hset : ∀ t, ¬ (wpaDerivePtk c e f.nonce t).ret < 0 → Q t → Q (setTptk c e f.nonce t)) (h : Q s) :
    P (answerMsg1 c e f s) := by
  unfold Supp.answerMsg1
  cases hs : renewSnonce e s with
  | none => exact hQ.deauthenticate s h
  | some t =>
    obtain ⟨⟨n, b, rfl⟩, -⟩ := renewSnonce_cases hs
    have ht : Q { s with snonce := n, renewSnonce := b } :=
      hQ.fields s s.wpaState b n s.anonce s.requestCounter h
    simp only
    split
    · exact hQ.deauthenticate _ ht
    rename_i hret
    have hsent := hQ.send (c := c) (e := e) (setTptk c e f.nonce { s with snonce := n, renewSnonce := b }).tptk
      (msg2 f { s with snonce := n, renewSnonce := b }) (hset _ hret ht)
    split
    · exact hQ.done _ (hQ.fields _ _ _ _ f.nonce _ hsent)
    · exact hQ.deauthenticate _ hsent

/-- **Message 1/4.** -/
theorem process1Of4 (hQ : Sends Q P) (htake : Q (takePassphrase c s))
    (hget : ∀ i t, Q t → Q (wpaSupplicantGetPmk e i t).2)
    (hset : ∀ t, ¬ (wpaDerivePtk c e f.nonce t).ret < 0 → Q t → Q (setTptk c e f.nonce t)) :
    P (process1Of4 c e f s) := by
  unfold Supp.process1Of4
  simp only
  generalize takePassphrase c s = t at htake ⊢
  split
  · exact hQ.done t htake
  split
  · exact hQ.reconnect t htake
  have hstate := hQ.setState .fourWayHandshake htake
  generalize { t with wpaState := .fourWayHandshake } = u at hstate ⊢
  unfold takeMsg1
  split
  · exact hQ.deauthenticate u hstate
  rename_i ie _
  have hpmk := hget ie.pmkid u hstate
  generalize wpaSupplicantGetPmk e ie.pmkid u = r at hpmk ⊢
  obtain ⟨g, v⟩ := r
  cases g with
  | startEap => exact hQ.done v hpmk
  | failed => exact hQ.deauthenticate v hpmk
  | ok => exact hQ.answerMsg1 hset hpmk

end Sends

/-! ## Message 3/4 -/

/-- What a message 3/4 that passes the checks has, and what they change. -/
theorem checkMsg3_cases {ie : Kde} (h : checkMsg3 e f s = some (ie, t)) :
    f.keyData.kde = some ie ∧ f.keyLength = s.par.pairwiseCipher.keyLen ∧
      ∃ k x, t = { s with keyidxActive := k, useExtKeyId := x } := by
  have hext : ∀ v, handleExtKeyId ie s = some v →
      ∃ k x, v = { s with keyidxActive := k, useExtKeyId := x } := by
    intro v hv
    unfold handleExtKeyId at hv
    split at hv
    · split at hv
      · split at hv
        · cases hv
        · exact ⟨_, _, (Option.some.inj hv).symm⟩
      · split at hv
        · cases hv
        · exact ⟨_, _, (Option.some.inj hv).symm⟩
    · split at hv
      · cases hv
      · exact ⟨_, _, (Option.some.inj hv).symm⟩
  unfold checkMsg3 at h
  split at h
  · cases h
  rename_i ie' hie
  split at h
  · cases h
  split at h
  · cases h
  split at h
  · cases h
  rename_i v hv
  split at h
  · cases h
  split at h
  · cases h
  rename_i hlen
  obtain ⟨rfl, rfl⟩ : ie' = ie ∧ v = t := by simpa using h
  obtain ⟨k, x, rfl⟩ := hext v hv
  exact ⟨hie, not_not.1 hlen, k, x, rfl⟩

theorem installGtk_cases (e : Env) (g : GtkKde) (s : Sm) :
    s.gtk = g.gtk ∧ installGtk e g s = (true, s) ∨
    s.gtk ≠ g.gtk ∧ ∃ key, e.setGroupKey = false ∧ installGtk e g s =
        (false, s.out (.setGroupKey .installGtk g.keyidx g.gtk key false)) ∨
      e.setGroupKey = true ∧ installGtk e g s =
        (true, { s.out (.setGroupKey .installGtk g.keyidx g.gtk key true) with gtk := g.gtk }) := by
  unfold installGtk
  by_cases hg : s.gtk = g.gtk
  · exact .inl ⟨hg, if_pos hg⟩
  rw [if_neg hg]
  refine .inr ⟨hg, if s.par.groupCipher = .tkip then tkipSwap g.gtk else g.gtk, ?_⟩
  cases e.setGroupKey with
  | false => exact .inl ⟨rfl, rfl⟩
  | true => exact .inr ⟨rfl, rfl⟩

theorem gtkMsg3_cases (e : Env) (ie : Kde) (s : Sm) :
    (gtkMsg3 e ie s).2 = s ∨ ∃ g, ie.gtk = some g ∧ gtkMsg3 e ie s = installGtk e g s := by
  unfold gtkMsg3
  split
  · exact .inl rfl
  split
  · exact .inl rfl
  rename_i g hg
  unfold pairwiseGtk
  split
  · exact .inl rfl
  split
  · exact .inr ⟨g, hg, rfl⟩
  · exact .inl rfl

/-- A stage of message 3/4 ends in `Q` and, when it succeeds, in `A`. -/
structure Stage (Q A : Sm → Prop) (r : Bool × Sm) : Prop where
  any : Q r.2
  good : r.1 = true → A r.2

/-- **Message 3/4, stage by stage**: the checks with the first install, message 4/4, the install,
the GTK. -/
theorem process3Of4_stages {A B D : Kde → Sm → Prop} (hQ : ∀ t, Q t → P t.deauthenticate)
    (hs : Q { s with wpaState := .fourWayHandshake })
    (hfirst : ∀ ie t, checkMsg3 e f { s with wpaState := .fourWayHandshake } = some (ie, t) →
      Stage Q (A ie) (if t.useExtKeyId then installPtk c e t else (true, t)))
    (hsend : ∀ ie t, A ie t → Stage Q (fun u => B ie { u with renewSnonce := true })
      (wpaEapolKeySend c e t.ptk (msg4 f t) t))
    (hinstall : ∀ ie t, B ie t → Stage Q (fun u => D ie { u with wpaState := .groupHandshake })
      (installMsg3 c e f t))
    (hgtk : ∀ ie t, D ie t → Stage Q (fun u => P (finishMsg3 f ie u)) (gtkMsg3 e ie t)) :
    P (process3Of4 c e f s) := by
  unfold process3Of4
  simp only
  generalize { s with wpaState := .fourWayHandshake } = v at hs hfirst ⊢
  cases hchk : checkMsg3 e f v with
  | none => exact hQ v hs
  | some p =>
    obtain ⟨ie, w⟩ := p
    have h₁ := hfirst ie w hchk
    simp only
    generalize (if w.useExtKeyId then installPtk c e w else (true, w)) = r₁ at h₁ ⊢
    split
    · exact hQ _ h₁.any
    rename_i hok₁
    have h₂ := hsend ie _ (h₁.good (by simpa using hok₁))
    generalize wpaEapolKeySend c e r₁.2.ptk (msg4 f r₁.2) r₁.2 = r₂ at h₂ ⊢
    split
    · exact hQ _ h₂.any
    rename_i hok₂
    have h₃ := hinstall ie _ (h₂.good (by simpa using hok₂))
    generalize installMsg3 c e f { r₂.2 with renewSnonce := true } = r₃ at h₃ ⊢
    split
    · exact hQ _ h₃.any
    rename_i hok₃
    have h₄ := hgtk ie _ (h₃.good (by simpa using hok₃))
    generalize gtkMsg3 e ie { r₃.2 with wpaState := .groupHandshake } = r₄ at h₄ ⊢
    split
    · exact hQ _ h₄.any
    · rename_i hok₄
      exact h₄.good (by simpa using hok₄)

namespace Sends

/-- **Message 3/4**, when all stages keep the same. -/
theorem process3Of4 (hQ : Sends Q P)
    (hext : ∀ (t : Sm) k x, Q t → Q { t with keyidxActive := k, useExtKeyId := x })
    (hptk : ∀ t, Q t → Q (installPtk c e t).2) (hact : ∀ t, Q t → Q (activatePtk e t).2)
    (hgtk : ∀ ie ∈ f.keyData.kde, ∀ g ∈ ie.gtk, ∀ t, Q t → Q (installGtk e g t).2)
    (hdone : ∀ ie t, Q t → Q (finishMsg3 f ie t)) (h : Q s) : P (process3Of4 c e f s) := by
  have hs := hQ.setState .fourWayHandshake h
  refine process3Of4_stages (A := fun ie t => f.keyData.kde = some ie ∧ Q t)
    (B := fun ie t => f.keyData.kde = some ie ∧ Q t) (D := fun ie t => f.keyData.kde = some ie ∧ Q t)
    hQ.deauthenticate hs ?_ ?_ ?_ ?_
  · intro ie t hchk
    obtain ⟨hie, -, k, x, rfl⟩ := checkMsg3_cases hchk
    have ht := hext _ k x hs
    split
    · exact ⟨hptk _ ht, fun _ => ⟨hie, hptk _ ht⟩⟩
    · exact ⟨ht, fun _ => ⟨hie, ht⟩⟩
  · rintro ie t ⟨hie, ht⟩
    have hu := hQ.send (c := c) (e := e) t.ptk (msg4 f t) ht
    exact ⟨hu, fun _ => ⟨hie, hQ.fields _ _ true _ _ _ hu⟩⟩
  · rintro ie t ⟨hie, ht⟩
    have hu : Q (installMsg3 c e f t).2 := by
      unfold installMsg3
      split
      · exact ht
      split
      · exact hact t ht
      · exact hptk t ht
    exact ⟨hu, fun _ => ⟨hie, hQ.setState _ hu⟩⟩
  · rintro ie t ⟨hie, ht⟩
    have hu : Q (gtkMsg3 e ie t).2 := by
      rcases gtkMsg3_cases e ie t with heq | ⟨g, hg, heq⟩ <;> rw [heq]
      · exact ht
      · exact hgtk ie hie g hg t ht
    exact ⟨hu, fun _ => hQ.done _ (hdone ie _ hu)⟩

/-- **Message 1/2** of the group key handshake. -/
theorem process1Of2 (hQ : Sends Q P)
    (hgtk : ∀ ie ∈ f.keyData.kde, ∀ g ∈ ie.gtk, ∀ t, Q t → Q (installGtk e g t).2) (h : Q s) :
    P (process1Of2 c e f s) := by
  unfold Supp.process1Of2
  split
  · exact hQ.deauthenticate s h
  simp only
  have hs := hQ.setState .groupHandshake h
  split
  · exact hQ.deauthenticate _ hs
  rename_i g hg
  have hmem : g ∈ f.keyData.kde.bind (·.gtk) := (Option.mem_filter_iff.1 hg).1
  obtain ⟨ie, hie, hg'⟩ := Option.bind_eq_some_iff.1 hmem
  have h₁ := hgtk ie hie g hg' _ hs
  generalize installGtk e g { s with wpaState := .groupHandshake } = r at h₁ ⊢
  split
  · exact hQ.deauthenticate _ h₁
  have h₂ := hQ.send (c := c) (e := e) r.2.ptk (groupMsg2 f r.2) h₁
  split
  · exact hQ.deauthenticate _ h₂
  · exact hQ.done _ (hQ.setState _ h₂)

end Sends

/-! ## Received frames -/

/-- A frame is taken: it has no MIC, or its MIC verifies under one of the two PTKs. -/
inductive Taken (c : Conf) (f : EapolKey) (s : Sm) : Sm → Prop
  | plain (hm : ¬ f.hasMic = true) : Taken c f s s
  | tptk (hm : f.hasMic = true) : Taken c f s (takeReplayCounter f (promoteTptk s))
  | ptk (hm : f.hasMic = true) (hset : s.ptkSet = true) :
    Taken c f s (takeReplayCounter f (s.out (.micVerified s.ptk)))

theorem verifyEapolKeyMic_taken (hm : f.hasMic = true) (h : verifyEapolKeyMic c f s = some t) :
    Taken c f s t := by
  unfold verifyEapolKeyMic at h
  split at h
  · obtain rfl := Option.some.inj h
    exact .tptk hm
  split at h
  · rename_i hset
    obtain rfl := Option.some.inj h
    exact .ptk hm hset.1
  · cases h

/-- A frame that `wpa_sm_rx_eapol` takes for message 1/4. -/
structure IsMsg1 (s : Sm) (f : EapolKey) : Prop where
  format : formatOk s f = true
  fresh : ¬ s.rxReplayCounter.any (f.replayCounter ≤ ·) = true
  kind : f.smk = false ∧ f.ack = true ∧ f.request = false
  pairwise : f.pairwise = true
  plain : f.hasMic = false ∧ encrypted f = false
  keyIndex : f.keyIndex = 0

/-- What becomes of a frame that is taken. -/
inductive Received (c : Conf) (e : Env) (f : EapolKey) (s : Sm) : Sm → Prop
  | noted {t : Sm} (ht : Taken c f s t) : Received c e f s t
  | msg1 (h : IsMsg1 s f) : Received c e f s (process1Of4 c e f s)
  | msg3 {t : Sm} (hp : f.pairwise = true) (hm : f.hasMic = true) (ht : verifyEapolKeyMic c f s = some t) :
    Received c e f s (process3Of4 c e f t)
  | unverified (hp : f.pairwise = true) (hm : ¬ f.hasMic = true) (he : encrypted f = true) :
    Received c e f s (process3Of4 c e f (s.out .micSkipped))
  | group {t : Sm} (ht : Taken c f s t) : Received c e f s (process1Of2 c e f t)

/-- **A received frame** is dropped, as every frame is by the WiFi copy once a PTK is installed,
or goes to one of the handlers. -/
theorem wpaSmRxEapol_received (c : Conf) (e : Env) (f : EapolKey) (s : Sm) :
    wpaSmRxEapol c e f s = s ∨
      ¬ (c.link = .wifi ∧ s.ptkSet = true ∧ s.ptk.installed = true) ∧
        Received c e f s (wpaSmRxEapol c e f s) := by
  unfold wpaSmRxEapol
  split
  · exact .inl rfl
  rename_i hdeaf
  split
  · exact .inl rfl
  rename_i hformat
  split
  · exact .inl rfl
  rename_i hfresh
  split
  · exact .inl rfl
  rename_i hkind
  split
  · exact .inl rfl
  rename_i t ht
  refine .inr ⟨hdeaf, ?_⟩
  have htaken : Taken c f s t := by
    split at ht
    · rename_i hm
      exact verifyEapolKeyMic_taken hm ht
    · rename_i hm
      obtain rfl := Option.some.inj ht
      exact .plain hm
  split
  · unfold dispatch
    split
    · rename_i hpair
      split
      · exact .noted htaken
      rename_i hidx
      by_cases hm : f.hasMic = true
      · rw [if_pos (.inl hm), if_pos hm]
        rw [if_pos hm] at ht
        exact .msg3 hpair hm ht
      · -- without a MIC nothing has been changed yet
        rw [if_neg hm] at ht
        obtain rfl := Option.some.inj ht
        split
        · rename_i h3
          exact .unverified hpair hm (h3.resolve_left hm)
        · rename_i hplain
          exact .msg1 ⟨by simpa using hformat, hfresh, by simpa using hkind, hpair,
            by simpa using hplain, not_not.1 hidx⟩
    · split
      · exact .group htaken
      · exact .noted htaken
  · exact .noted htaken

/-! ## The other events -/

/-- The driver takes the TK of the fast path. -/
def Takes (e : Env) (s : Sm) : Prop :=
  s.par.pairwiseCipher.validPairwise = true ∧ 0 < s.par.pairwiseCipher.keyLen ∧
    s.par.pairwiseCipher.keyLen = customTestPtk.tk.length ∧ e.setKey = true

instance : Decidable (Takes e s) := by unfold Takes; infer_instance

/-- The station that the fast path has brought up. -/
def fastUp (e : Env) (bssid : Addr) (s : Sm) : Sm :=
  ({ installCustomGtk e { ((clearKeys bssid s).wrote .notifyAssoc customTestPtk).out
      (.setKey .notifyAssoc 0 customTestPtk.tk true) with
        ptk := { customTestPtk with installed := true } } with
      wpaState := .completed, msg3Of4Ok := true } : Sm).registerRekey

/-- **An association on the WiFi link**: there is no cipher, no key for it, a driver that refuses
the key, or the fast path goes through. -/
theorem notifyAssoc_cases (hl : c.link = .wifi) (e : Env) (bssid : Addr) (s : Sm) :
    s.par.pairwiseCipher.validPairwise = false ∧ wpaSmNotifyAssoc c e bssid s = clearKeys bssid s ∨
    s.par.pairwiseCipher.validPairwise = true ∧ ¬ Takes e s ∧
      (wpaSmNotifyAssoc c e bssid s = (clearKeys bssid s).wrote .notifyAssoc customTestPtk ∨
        wpaSmNotifyAssoc c e bssid s = ((clearKeys bssid s).wrote .notifyAssoc customTestPtk).out
          (.setKey .notifyAssoc 0 customTestPtk.tk false)) ∨
    Takes e s ∧ wpaSmNotifyAssoc c e bssid s = fastUp e bssid s := by
  have hpar : (clearKeys bssid s).par = s.par := rfl
  unfold wpaSmNotifyAssoc
  simp only [hl, hpar, true_and]
  cases hv : s.par.pairwiseCipher.validPairwise with
  | false => exact .inl ⟨rfl, rfl⟩
  | true =>
    rw [if_pos rfl]
    unfold fastPath
    simp only [hpar]
    by_cases hk : 0 < s.par.pairwiseCipher.keyLen ∧ s.par.pairwiseCipher.keyLen = customTestPtk.tk.length
    · rw [if_pos hk]
      cases he : e.setKey with
      | false =>
        refine .inr (.inl ⟨trivial, fun ht => ?_, .inr rfl⟩)
        exact Bool.false_ne_true (he.symm.trans ht.2.2.2)
      | true => exact .inr (.inr ⟨⟨hv, hk.1, hk.2, he⟩, rfl⟩)
    · rw [if_neg hk]
      exact .inr (.inl ⟨trivial, fun ht => hk ⟨ht.2.1, ht.2.2.1⟩, .inl rfl⟩)

/-- The LiFi link has no fast path. -/
theorem notifyAssoc_lifi (hl : c.link = .lifi) (e : Env) (bssid : Addr) (s : Sm) :
    wpaSmNotifyAssoc c e bssid s = clearKeys bssid s := by
  unfold wpaSmNotifyAssoc
  rw [hl]
  exact if_neg fun h => nomatch h.1

theorem rekeyPtk_lifi (hl : c.link = .lifi) (e : Env) (s : Sm) :
    wpaSmRekeyPtk c e s = wpaSmKeyRequest c e false true { s with rekeyTimer := false } := by
  unfold wpaSmRekeyPtk
  rw [hl]
  exact if_neg fun h => nomatch h.1

/-- **The PTK TCP port**: a payload that does not decode changes nothing. -/
theorem wpaSmPtkTcpHandler_match (e : Env) (buf : Text) (s : Sm) :
    wpaSmPtkTcpHandler e buf s =
      match if s.par.pairwiseCipher.validPairwise then decodePtk s.par.pairwiseCipher.keyLen buf
        else none with
      | none => s
      | some ptk =>
        if e.setKey then
          ptkInstalled ((s.wrote .ptkTcp ptk).out (.setKey .ptkTcp s.keyidxActive ptk.tk true))
        else (s.wrote .ptkTcp ptk).out (.setKey .ptkTcp s.keyidxActive ptk.tk false) := by
  unfold wpaSmPtkTcpHandler
  cases s.par.pairwiseCipher.validPairwise with
  | false => rfl
  | true =>
    simp only [Bool.not_true, Bool.false_eq_true, if_false, if_true]
    cases decodePtk s.par.pairwiseCipher.keyLen buf with
    | none => rfl
    | some ptk =>
      cases e.setKey with
      | false => rfl
      | true => rfl

end Lightguard.Supp
