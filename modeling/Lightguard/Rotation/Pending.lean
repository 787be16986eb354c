import Lightguard.Auth.KeyState
import Lightguard.Rotation.Reassoc

/-!
# A stored passphrase and message 1/4

Message 1/4 is not authenticated, and the stored passphrase is taken at its very start: before the
message is known to be answered, and before the PMKID in it is looked up.

* `unanswered_kept_iff`: when a message that is not answered consumes nothing.
* `passphrase_decides`: when every PTK is derived from the passphrase that has been stored.
-/

namespace Lightguard.Rotation

open Wpa Supp

variable {c : Supp.Conf} {e : Supp.Env} {f : EapolKey} {s t u : Sm}

/-! ## A message that is not answered -/

/-- Nothing is lost with a message that is not answered: there is no network context, the lookup asks for
EAP and there was no entry and no other PMK, or there is neither a PMK nor an entry. -/
def Spares (e : Env) (f : EapolKey) (s : Sm) : Prop :=
  s.par.network = false ∨
    EapAsked e f s ∧ s.curPmksa = none ∧ (∀ key, e.eapolKey = some key → key = s.pmk) ∨
    ¬ EapAsked e f s ∧ s.pmk = [] ∧ s.curPmksa = none

/-- A passphrase that is taken over is used up, whatever becomes of the message. -/
theorem passTaken_gone (hp : PassPending c s) (ht : SamePass (takePassphrase c s) t) : ¬ Kept s t := by
  intro hk
  have hflag := hk.valid.symm.trans ht.valid
  rw [takePassphrase_valid hp.1 hp.2.1 hp.2.2, hp.2.1] at hflag
  cases hflag

/-- Without an answer it comes down to where the message ends. -/
theorem unanswered_ends (hP : c.prims.Exact) (e : Supp.Env) (f : EapolKey) (s : Sm)
    (hno : ¬ Answerable e f (takePassphrase c s)) :
    ¬ Answered s (process1Of4 c e f s) ∧
      (Kept s (process1Of4 c e f s) ↔ ¬ PassPending c s ∧ Spares e f s) := by
  have htrace := takePassphrase_trace c s
  have hgone : ∀ {t}, PassPending c s → SamePass (takePassphrase c s) t →
      (Kept s t ↔ ¬ PassPending c s ∧ Spares e f s) := fun hp ht =>
    iff_of_false (passTaken_gone hp ht) fun h => h.1 hp
  have hends := process1Of4_ends hP e f (rfl : takePassphrase c s = _)
  have hsame : ¬ PassPending c s → takePassphrase c s = s := by
    intro hp
    rw [takePassphrase_eq, if_neg hp]
  by_cases hp : PassPending c s
  -- the passphrase is gone at once
  · rcases hends with ⟨-, heq⟩ | ⟨hyes, -⟩ | ⟨-, heq⟩ | ⟨-, u, hu, heq⟩
    · rw [heq]
      exact ⟨not_answered_of_trace htrace, hgone hp (.of_eq rfl)⟩
    · exact absurd hyes hno
    · rw [heq]
      exact ⟨not_answered_of_trace htrace, hgone hp (.of_eq rfl)⟩
    · rw [heq]
      exact ⟨lost_not_answered s u, hgone hp (hu.trans ⟨rfl, rfl⟩)⟩
  rw [hsame hp] at hends hno
  rcases hends with ⟨hnet, heq⟩ | ⟨hyes, -⟩ | ⟨heap, heq⟩ | ⟨⟨hnet, -, heap⟩, u, hu, heq⟩
  · rw [heq]
    exact ⟨not_answered_of_trace rfl, iff_of_true ⟨⟨rfl, rfl⟩, rfl, rfl⟩ ⟨hp, .inl hnet⟩⟩
  · exact absurd hyes hno
  · rw [heq]
    refine ⟨not_answered_of_trace rfl, fun hk => ⟨hp, .inr (.inl ⟨heap, hk.sa.symm, ?_⟩)⟩, ?_⟩
    · intro key hkey
      have hpmk : failedPmk e s = s.pmk := hk.pmk
      rwa [failedPmk, hkey] at hpmk
    · rintro ⟨-, hnet | ⟨-, hcur, hkey⟩ | ⟨hnot, -⟩⟩
      · exact absurd (heap.network.symm.trans hnet) (by decide)
      · refine ⟨⟨rfl, rfl⟩, ?_, hcur.symm⟩
        show failedPmk e s = s.pmk
        cases hk : e.eapolKey with
        | none => rw [failedPmk, hk, Option.getD_none]
        | some key => rw [failedPmk, hk, Option.getD_some, hkey key hk]
      · exact absurd heap hnot
  · rw [heq]
    refine ⟨lost_not_answered s u, fun hk => ⟨hp, .inr (.inr ⟨heap, hk.pmk.symm, hk.sa.symm⟩)⟩, ?_⟩
    rintro ⟨-, hoff | ⟨hasked, -⟩ | ⟨-, hpmk, hcur⟩⟩
    · exact absurd (hnet.symm.trans hoff) (by decide)
    · exact absurd hasked heap
    · exact ⟨⟨hu.passphrase, hu.valid⟩, hpmk.symm, hcur.symm⟩

/-- The station of the examples without a network context. -/
def offLifi : Sm := { startLifi.sta with par := { wpa2Ccmp with network := false } }

/-- Message 1/4 names no entry, current or in the cache, with another PMK than this one. -/
def CacheAgrees (c : Supp.Conf) (pmk : Bytes) (s : Sm) (x : Supp.Event × Supp.Env) : Prop :=
  ∀ f, x.1 = .rxEapol f → IsMsg1 s f → ∀ i a, LooksUp f (takePassphrase c s) i →
    found x.2 i (takePassphrase c s) = some a → i = some a.pmkid → a.pmk = pmk

/-- The passphrase waits, or the PMK is the one derived from it; a disconnection may have cleared it. -/
structure Decided (c : Supp.Conf) (n : Network) (p : Text) (s : Sm) : Prop where
  akm : s.par.keyMgmt.wpaIeee8021x = false
  ssid : s.pass.ssid = n.ssid ∨ s.pass.ssid = [] ∧ s.par.network = false
  pmk : s.pass.lifiPassphraseValid = true ∧ s.pass.lifiPassphrase = p ∨
    s.pass.lifiPassphraseValid = false ∧ (s.pmk = c.pbkdf2 p n.ssid 4096 ∨ s.pmk = [])

/-- **Message 1/4 with a PSK** derives from the PMK that is there once the passphrase is taken over, or
from that of the entry it names. -/
theorem process1Of4_psk (c : Supp.Conf) (e : Supp.Env) (f : EapolKey) {s : Sm}
    (hx : (takePassphrase c s).par.keyMgmt.wpaIeee8021x = false) :
    ∃ pmk cur ps, Starts ps { takePassphrase c s with pmk := pmk, curPmksa := cur } (process1Of4 c e f s) ∧
      Only pmk ps ∧ (pmk = (takePassphrase c s).pmk ∨ ∃ i a, LooksUp f (takePassphrase c s) i ∧
        found e i (takePassphrase c s) = some a ∧ i = some a.pmkid ∧ pmk = a.pmk) := by
  by_cases hlook : ∃ i, LooksUp f (takePassphrase c s) i
  · obtain ⟨i, hi⟩ := hlook
    rw [process1Of4_lookup hi]
    generalize takePassphrase c s = t at hx hi ⊢
    rcases get_pmk_cases e i { t with wpaState := .fourWayHandshake } with
      ⟨pmk, cur, hg, heq⟩ | ⟨-, hx', -⟩
    · obtain ⟨ps, hps, honly⟩ := answerMsg1_starts (c := c) (e := e) (f := f)
        { t with wpaState := .fourWayHandshake, pmk := pmk, curPmksa := cur }
      have hstate : Starts [] { t with pmk := pmk, curPmksa := cur }
          { t with wpaState := .fourWayHandshake, pmk := pmk, curPmksa := cur } :=
        .same rfl rfl rfl rfl ⟨[], rfl, rfl⟩
      rw [heq]
      refine ⟨pmk, cur, ps, (List.append_nil ps).symm ▸ hstate.trans hps, honly, ?_⟩
      cases (gets_setState _).1 hg with
      | cached hf hid => exact .inr ⟨i, _, hi, hf, hid, rfl⟩
      | psk _ _ => exact .inl rfl
      | eap _ hx' _ _ => exact absurd (hx.symm.trans hx') Bool.false_ne_true
    · exact absurd (hx.symm.trans hx') Bool.false_ne_true
  · refine ⟨(takePassphrase c s).pmk, (takePassphrase c s).curPmksa, [], ?_, only_nil _, .inl rfl⟩
    have hsends := starts_sends [] (takePassphrase c s)
    rcases process1Of4_stopped (c := c) (e := e) hlook with ⟨-, heq⟩ | ⟨-, heq | heq⟩ <;> rw [heq]
    · exact .refl _
    · exact hsends.reconnect _ (.refl _)
    · exact hsends.deauthenticate _ (hsends.setState _ (.refl _))

/-- What there is once the passphrase is taken over. -/
theorem Decided.taken (hl : c.link = .lifi) {n : Network} (hn : n.ssid ≠ []) {p : Text}
    (h : Decided c n p s) (hon : s.pass.ssid = n.ssid) : Decided c n p (takePassphrase c s) ∧
      (takePassphrase c s).pass.lifiPassphraseValid = false := by
  rcases h.pmk with ⟨hv, hp⟩ | ⟨hv, hp⟩
  · rw [takePassphrase_valid hl hv (hon ▸ hn)]
    exact ⟨⟨h.akm, h.ssid, .inr ⟨rfl, .inl (by rw [hp, hon])⟩⟩, rfl⟩
  · rw [takePassphrase_spent hv]
    exact ⟨h, hv⟩

/-- A function that starts handshakes keeps it. -/
theorem Decided.starts {n : Network} {p : Text} {ps : List Bytes} (h : Decided c n p s) (hu : Starts ps s t) :
    Decided c n p t := by
  refine ⟨hu.akm ▸ h.akm, ?_, ?_⟩
  · rcases hu.ssid with ⟨h1, h2⟩ | hgone
    · rw [h1, h2]
      exact h.ssid
    · exact .inr hgone
  · rw [hu.passphrase, hu.valid]
    refine h.pmk.imp id fun ⟨hv, hp⟩ => ⟨hv, ?_⟩
    rcases hu.pmk with heq | heq
    · exact heq ▸ hp
    · exact .inr heq

/-- **Every event keeps it**, and the handshakes it starts have that PMK. -/
theorem step_decided (hl : c.link = .lifi) {n : Network} (hn : n.ssid ≠ []) {p : Text}
    {x : Supp.Event × Supp.Env} (hx : n.allows x.1 = true)
    (hc : CacheAgrees c (c.pbkdf2 p n.ssid 4096) s x) (h : Decided c n p s)
    (hstep : Supp.step c s x = some t) :
    Decided c n p t ∧ ∃ ps, Started ps s t ∧ ∀ pmk ∈ ps, pmk = c.pbkdf2 p n.ssid 4096 := by
  obtain ⟨ev, e⟩ := x
  rcases staStep_cases hl hx hstep with hu | ⟨f, rfl, hf, rfl⟩ | ⟨par, hpsk, rfl⟩
  · exact ⟨h.starts hu, [], hu.trace, nofun⟩
  · rcases h.ssid with hon | ⟨h1, h2⟩
    · obtain ⟨htaken, hspent⟩ := h.taken hl hn hon
      obtain ⟨pmk, cur, ps, hu, honly, hfrom⟩ := process1Of4_psk c e f htaken.akm
      have hpmk : pmk = c.pbkdf2 p n.ssid 4096 ∨ pmk = [] := by
        rcases hfrom with rfl | ⟨i, a, hi, hfound, hid, rfl⟩
        · rcases htaken.pmk with ⟨hv, -⟩ | ⟨-, hp⟩
          · exact absurd (hspent.symm.trans hv) Bool.false_ne_true
          · exact hp
        · exact .inl (hc f rfl hf i a hi hfound hid)
      have hfound : Decided c n p { takePassphrase c s with pmk := pmk, curPmksa := cur } :=
        ⟨htaken.akm, htaken.ssid, .inr ⟨hspent, hpmk⟩⟩
      refine ⟨hfound.starts hu, ps, ?_, ?_⟩
      · obtain ⟨l, htr, hps⟩ := hu.trace
        refine ⟨l, htr.trans ?_, hps⟩
        show l ++ (takePassphrase c s).trace = l ++ s.trace
        rw [takePassphrase_trace]
      · intro q hq
        obtain ⟨rfl, hne⟩ := honly q hq
        exact hpmk.resolve_right hne
    · rw [process1Of4_off h1 h2]
      exact ⟨h, [], ⟨[], rfl, rfl⟩, nofun⟩
  · exact ⟨⟨hpsk, .inl rfl, h.pmk⟩, [], ⟨[], rfl, rfl⟩, nofun⟩

/-- **What the next PTKs are derived from.** A passphrase has been stored, whatever the state, the
current entry and the cache were. In every run, up to the next passphrase, PMK or network from outside,
whose messages 1/4 name no entry with another PMK, every PTK is derived from that passphrase. -/
theorem passphrase_decides (hl : c.link = .lifi) {n : Network} (hn : n.ssid ≠ []) {p : Text} {s₀ : Sm}
    {pass : LifiPass} (hset : wpaSmSetPassphrase s₀.pass p = some pass) (hssid : s₀.pass.ssid = n.ssid)
    (hpsk : s₀.par.keyMgmt.wpaPsk = true) {es : List (Supp.Event × Supp.Env)}
    (hes : ∀ x ∈ es, n.allows x.1 = true)
    (hc : Lib.Along (Supp.step c) (CacheAgrees c (c.pbkdf2 p n.ssid 4096)) { s₀ with pass := pass } es)
    (hrun : Supp.run c { s₀ with pass := pass } es = some t) :
    ∃ ps, Started ps s₀ t ∧ ∀ pmk ∈ ps, pmk = c.pbkdf2 p n.ssid 4096 := by
  have hstart : Decided c n p { s₀ with pass := pass } := by
    unfold wpaSmSetPassphrase at hset
    split at hset
    · cases hset
    · obtain rfl := Option.some.inj hset
      refine ⟨?_, .inl hssid, .inl ⟨rfl, rfl⟩⟩
      revert hpsk
      show s₀.par.keyMgmt.wpaPsk = true → s₀.par.keyMgmt.wpaIeee8021x = false
      cases s₀.par.keyMgmt <;> decide
  have hinv : Decided c n p t ∧ ∃ ps, Started ps s₀ t ∧ ∀ pmk ∈ ps, pmk = c.pbkdf2 p n.ssid 4096 := by
    refine Lib.along_inv_mem (I := fun u => Decided c n p u ∧ ∃ ps, Started ps s₀ u ∧
      ∀ pmk ∈ ps, pmk = c.pbkdf2 p n.ssid 4096) ?_ ⟨hstart, [], ⟨[], rfl, rfl⟩, nofun⟩ hc hrun
    rintro u x hx v ⟨hu, ps, ⟨l, hl', hps⟩, hall⟩ hcx hstep
    obtain ⟨hv, ps', ⟨l', hl'', hps'⟩, hall'⟩ := step_decided hl hn (hes x hx) hcx hu hstep
    refine ⟨hv, ps' ++ ps, ⟨l' ++ l, by rw [hl'', hl', List.append_assoc],
      by rw [List.filterMap_append, hps, hps']⟩, ?_⟩
    intro q hq
    rcases List.mem_append.1 hq with hq | hq
    · exact hall' q hq
    · exact hall q hq
  exact hinv.2

/-- A message without a PMKID names no entry. -/
theorem cacheAgrees_none {x : Supp.Event × Supp.Env} {pmk : Bytes}
    (h : ∀ f, x.1 = .rxEapol f → ∀ kde, f.keyData.kde = some kde → kde.pmkid = none) :
    CacheAgrees c pmk s x := by
  rintro f hf - i a ⟨-, -, ie, hie, rfl⟩ - hid
  split at hie
  · exact absurd ((h f hf ie hie).symm.trans hid) nofun
  · obtain rfl := Option.some.inj hie
    cases hid

/-- An association and this message 1/4, which is sent again. -/
def answered (f : EapolKey) (e : Supp.Env) : List (Supp.Event × Supp.Env) :=
  [(.notifyAssoc Addr.first, e), (.rxEapol f, e), (.rxEapol f, e)]

/-- `passphrase_decides` for a message 1/4 without a PMKID. -/
theorem passphrase_decides_lifi2024 : ∃ t, Supp.run supp2024 storedLifi.sta (answered (lifiMsg1 1) calm) =
    some t ∧ ∃ ps, Started ps startLifi.sta t ∧
      ∀ pmk ∈ ps, pmk = pbkdf2Lifi "lifi-2024".toList networkLifi.ssid 4096 := by
  obtain ⟨t, ht⟩ : ∃ t, Supp.run supp2024 storedLifi.sta (answered (lifiMsg1 1) calm) = some t := ⟨_, rfl⟩
  refine ⟨t, ht, passphrase_decides (c := supp2024) (n := networkLifi) (p := "lifi-2024".toList) rfl
    (by decide) rfl rfl rfl (by simp [answered, Network.allows]) ?_ ht⟩
  refine (Lib.along_mem storedLifi.sta fun _ h => h).mono fun s x hx => cacheAgrees_none ?_
  intro f hf kde hkde
  simp only [answered, List.mem_cons, List.not_mem_nil, or_false, or_self] at hx
  rcases hx with rfl | rfl
  · cases hf
  · obtain rfl := Supp.Event.rxEapol.inj hf
    obtain rfl := Option.some.inj hkde
    rfl

/-- The PMKID of an entry that has stayed in the cache. -/
def stalePmkid : Bytes := List.replicate 16 3

/-- The message names that entry, and the PTK is derived from the old PMK. -/
theorem stale_entry_used : ∃ t, Supp.run supp2024 storedLifi.sta
      (answered { lifiMsg1 1 with keyData := ⟨22, some ⟨none, none, some stalePmkid, none, none⟩, none⟩ }
        { calm with pmksaGet := some ⟨stalePmkid, plainPmk.1⟩ }) = some t ∧
    ∃ ps, Started ps startLifi.sta t ∧
      ¬ ∀ pmk ∈ ps, pmk = pbkdf2Lifi "lifi-2024".toList networkLifi.ssid 4096 := by
  refine ⟨_, rfl, [plainPmk.1, plainPmk.1], ⟨_, (List.append_nil _).symm, rfl⟩, ?_⟩
  intro h
  exact absurd (h plainPmk.1 List.mem_cons_self) (by decide)

end Lightguard.Rotation
