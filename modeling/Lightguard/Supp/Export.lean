import Lightguard.Supp.Slots

/-!
# What wpa_supplicant exports

The LiFi copy, where every derivation pushes its PTK to port 8877.

* `Still`: what the functions leave alone that derive nothing, while the station stays associated.
* `process1Of4_export`: message 1/4 pushes the start of a PTK derived from a PMK of the station.
* `run_export`: in every run what is pushed is the start of such a PTK, and the KCK and the KEK
  in use are those of a PTK under which a MIC has verified in this association.
-/

namespace Lightguard.Supp

open Wpa Rotation

variable {c : Conf} {e : Env} {f : EapolKey} {s t u : Sm} {l l' : List Out} {V : Bytes → Prop}

/-! ## The rules -/

/-- The start of a PTK derived from one of the PMKs `V`. -/
def Exported (c : Conf) (V : Bytes → Prop) (b : Bytes) : Prop :=
  ∃ pmk bssid n a k p, V pmk ∧ b = (ptkTmp c.prims k p c.ownAddr bssid pmk n a).take 48

/-- What may be pushed. -/
def ExportRule (c : Conf) (V : Bytes → Prop) : Out → List Out → Prop
  | .pushed b, _ => Exported c V b
  | _, _ => True

/-- The KCK and the KEK of a PTK under which a MIC has verified in this association. -/
def VerifiedKeys (ptk : Ptk) (l : List Out) : Prop :=
  ∃ K, SinceAssoc (.micVerified K) l ∧ ptk.kck = K.kck ∧ ptk.kek = K.kek

/-- Whatever the station can take for its PMK is among `V`. -/
structure PmkOK (c : Conf) (V : Bytes → Prop) (s : Sm) : Prop where
  pmk : V s.pmk
  sa : ∀ a, s.curPmksa = some a → V a.pmk
  pass : s.pass.lifiPassphraseValid = true → ∀ ssid, V (c.pbkdf2 s.pass.lifiPassphrase ssid 4096)

/-- The invariant. -/
structure ExportOK (c : Conf) (V : Bytes → Prop) (s : Sm) : Prop extends PmkOK c V s where
  always : Lib.Always (ExportRule c V) s.trace
  ptk : s.ptkSet = true → VerifiedKeys s.ptk s.trace

/-- The PMKs that come from outside in one event are among `V`, and so is none at all. -/
structure Brings (V : Bytes → Prop) (e : Env) : Prop where
  none : V []
  get : ∀ a, e.pmksaGet = some a → V a.pmk
  add : ∀ a, e.pmksaAdd = some a → V a.pmk
  eapol : ∀ k, e.eapolKey = some k → V k

/-! ## Functions that derive nothing -/

/-- Entries that derive and push nothing and leave the association as it is. -/
def Out.still : Out → Bool
  | .newTptk .. | .pushed _ | .associated | .disassociated => false
  | _ => true

/-- A function that derives nothing and keeps the PMK, the KCK and the KEK. -/
structure Still (s t : Sm) : Prop where
  par : t.par = s.par
  pmk : t.pmk = s.pmk
  sa : t.curPmksa = s.curPmksa
  pass : t.pass = s.pass
  ptkSet : t.ptkSet = s.ptkSet
  kck : t.ptk.kck = s.ptk.kck
  kek : t.ptk.kek = s.ptk.kek
  trace : ∃ l, t.trace = l ++ s.trace ∧ ∀ o ∈ l, o.still = true

theorem exportRule_still {o : Out} (h : o.still = true) : ExportRule c V o l := by
  cases o <;> simp_all [Out.still, ExportRule]

theorem verifiedKeys_still {ptk : Ptk} (hl : ∀ o ∈ l, o.still = true) (h : VerifiedKeys ptk l') :
    VerifiedKeys ptk (l ++ l') := by
  obtain ⟨K, hK, hkeys⟩ := h
  refine ⟨K, Lib.since_append (fun o ho hr => ?_) hK, hkeys⟩
  have := hl o ho
  cases o <;> simp_all [Out.still, Out.isAssoc]

namespace Still

protected theorem refl (s : Sm) : Still s s := ⟨rfl, rfl, rfl, rfl, rfl, rfl, rfl, [], rfl, by simp⟩

protected theorem trans (h : Still s t) (h' : Still t u) : Still s u := by
  obtain ⟨l, hl, hq⟩ := h.trace
  obtain ⟨l', hl', hq'⟩ := h'.trace
  refine ⟨h'.par.trans h.par, h'.pmk.trans h.pmk, h'.sa.trans h.sa, h'.pass.trans h.pass,
    h'.ptkSet.trans h.ptkSet, h'.kck.trans h.kck, h'.kek.trans h.kek, l' ++ l,
    by rw [hl', hl, List.append_assoc], ?_⟩
  intro o ho
  rcases List.mem_append.1 ho with ho | ho
  · exact hq' o ho
  · exact hq o ho

theorem out {o : Out} (ho : o.still = true) (s : Sm) : Still s (s.out o) :=
  ⟨rfl, rfl, rfl, rfl, rfl, rfl, rfl, [o], rfl, by simpa using ho⟩

end Still

theorem ExportOK.still (h : ExportOK c V s) (hq : Still s t) : ExportOK c V t := by
  obtain ⟨l, htr, hl⟩ := hq.trace
  refine ⟨⟨hq.pmk ▸ h.pmk, hq.sa ▸ h.sa, hq.pass ▸ h.pass⟩, ?_, fun hset => ?_⟩
  · rw [htr]
    exact Lib.always_append (fun o ho _ => exportRule_still (hl o ho)) h.always
  · obtain ⟨K, hK, h1, h2⟩ := h.ptk (hq.ptkSet ▸ hset)
    rw [htr]
    exact verifiedKeys_still hl ⟨K, hK, hq.kck.trans h1, hq.kek.trans h2⟩

/-- On the LiFi link the PTK that was derived is installed. -/
theorem installPtk_still (hl : c.link = .lifi) (s : Sm) : Still s (installPtk c e s).2 := by
  have hw : ptkToInstall c s = s := if_neg (by rw [hl]; nofun)
  have hkey : ∀ ok, Still s (s.out (.setKey .installPtk s.keyidxActive s.ptk.tk ok)) := fun _ =>
    .out rfl s
  unfold installPtk
  simp only [hw]
  split
  · exact .refl s
  split
  · exact .refl s
  split
  · exact .refl s
  split
  · have h := hkey e.setKey
    exact ⟨h.par, h.pmk, h.sa, h.pass, h.ptkSet, h.kck, h.kek, h.trace⟩
  · exact hkey _

theorem installGtk_still (g : GtkKde) (s : Sm) : Still s (installGtk e g s).2 := by
  rcases installGtk_cases e g s with ⟨-, heq⟩ | ⟨-, key, ⟨-, heq⟩ | ⟨-, heq⟩⟩ <;> rw [heq]
  · exact .refl s
  · exact .out rfl s
  · exact ⟨rfl, rfl, rfl, rfl, rfl, rfl, rfl, [_], rfl, by simp [Out.still]⟩

theorem fields_still (s : Sm) (st : WpaState) (b : Bool) (n a : Bytes) (k : ℕ) : Still s { s with
    wpaState := st, renewSnonce := b, snonce := n, anonce := a, requestCounter := k } :=
  ⟨rfl, rfl, rfl, rfl, rfl, rfl, rfl, [], rfl, by simp⟩

/-- **A disconnection** clears the PMK and the keys. -/
theorem ExportOK.lost (h0 : V []) (h : ExportOK c V s) : ExportOK c V (wpaSupplicantDeauthenticate s) :=
  ⟨⟨h0, nofun, h.pass⟩, ⟨trivial, h.always⟩, nofun⟩

theorem export_sends (h0 : V []) : Sends (ExportOK c V) (ExportOK c V) where
  out _ t h := h.still (.out rfl t)
  fields t st b n a k h := h.still (fields_still t st b n a k)
  done _ h := h
  deauthenticate t h := (h.still (.out rfl t)).lost h0
  reconnect t h := (h.still (.out rfl t)).lost h0

/-- **Message 3/4** derives nothing. -/
theorem process3Of4_export (hl : c.link = .lifi) (h0 : V []) (h : ExportOK c V s) :
    ExportOK c V (process3Of4 c e f s) := by
  refine (export_sends h0).process3Of4 (fun t k x h => ?_) (fun t h => h.still (installPtk_still hl t))
    (fun t h => h.still (.out rfl t)) (fun _ _ g _ t h => h.still (installGtk_still g t)) (fun ie t h => ?_) h
  · exact h.still ⟨rfl, rfl, rfl, rfl, rfl, rfl, rfl, [], rfl, by simp⟩
  · exact h.still ⟨rfl, rfl, rfl, rfl, rfl, rfl, rfl, [.msg3Ok f], rfl, by simp [Out.still]⟩

theorem process1Of2_export (h0 : V []) (h : ExportOK c V s) : ExportOK c V (process1Of2 c e f s) :=
  (export_sends h0).process1Of2 (fun _ _ g _ t h => h.still (installGtk_still g t)) h

/-! ## Message 1/4 -/

/-- The keys and the history carry over to a machine with another PMK of `V`. -/
theorem ExportOK.withPmk (h : ExportOK c V s) (hp : PmkOK c V t) (h1 : t.trace = s.trace)
    (h2 : t.ptkSet = s.ptkSet) (h3 : t.ptk = s.ptk) : ExportOK c V t :=
  ⟨hp, h1 ▸ h.always, fun hset => by rw [h1, h3]; exact h.ptk (h2 ▸ hset)⟩

/-- The LiFi passphrase becomes the PMK. -/
theorem takePassphrase_export (h : ExportOK c V s) : ExportOK c V (takePassphrase c s) := by
  rcases takePassphrase_cases c s with heq | ⟨-, hv, -, heq⟩ <;> rw [heq]
  · exact h
  · exact h.withPmk ⟨h.pass hv _, nofun, nofun⟩ rfl rfl rfl

theorem wpaSupplicantGetPmk_export (hb : Brings V e) (pmkid : Option Bytes) (h : ExportOK c V s) :
    ExportOK c V (wpaSupplicantGetPmk e pmkid s).2 := by
  have hfound : ∀ a, found e pmkid s = some a → V a.pmk := by
    intro a ha
    unfold found at ha
    split at ha
    · exact hb.get a ha
    · exact h.sa a ha
  have hadded : ∀ a, added e s = some a → V a.pmk := by
    intro a ha
    unfold added at ha
    split at ha
    · exact hb.add a ha
    · cases ha
  rcases get_pmk_cases e pmkid s with ⟨pmk, cur, hg, heq⟩ | ⟨-, -, r, -, -, heq⟩ <;> rw [heq]
  · have hpmk : V pmk ∧ ∀ a, cur = some a → V a.pmk := by
      cases hg with
      | cached hf _ => exact ⟨hfound _ hf, fun a ha => Option.some.inj ha ▸ hfound _ hf⟩
      | psk => exact ⟨h.pmk, hfound⟩
      | eap _ _ hk _ =>
        refine ⟨hb.eapol _ hk, fun a ha => ?_⟩
        rcases Option.or_eq_some_iff.1 ha with ha | ⟨-, ha⟩
        · exact hfound a ha
        · exact hadded a ha
    exact h.withPmk ⟨hpmk.1, hpmk.2, h.pass⟩ rfl rfl rfl
  · have hpmk : V (failedPmk e s) := by
      unfold failedPmk
      cases hk : e.eapolKey with
      | none => exact h.pmk
      | some key => exact hb.eapol key hk
    exact h.withPmk ⟨hpmk, nofun, h.pass⟩ rfl rfl rfl

/-- The derivation pushes the start of the PTK it makes. -/
theorem setTptk_export (n : Bytes) (h : ExportOK c V s) : ExportOK c V (setTptk c e n s) := by
  have hpush : ∀ o ∈ ((wpaDerivePtk c e n s).pushed.map Out.pushed).toList, ∃ b,
      o = .pushed b ∧ Exported c V b := by
    intro o ho
    obtain ⟨b, hb, rfl⟩ := mem_pushed ho
    refine ⟨b, rfl, s.pmk, s.bssid, s.snonce, n, s.par.keyMgmt, s.par.pairwiseCipher, h.pmk, ?_⟩
    unfold wpaDerivePtk wpaPmkToPtk at hb
    split at hb
    · cases hb
    simp only at hb
    split at hb
    · exact (Option.some.inj hb).symm
    · cases hb
  refine ⟨⟨h.pmk, h.sa, h.pass⟩, ⟨trivial, Lib.always_append ?_ h.always⟩, fun hset => ?_⟩
  · intro o ho t
    obtain ⟨b, rfl, hb⟩ := hpush o ho
    exact hb
  · obtain ⟨K, hK, hkeys⟩ := h.ptk hset
    refine ⟨K, .inr ⟨nofun, Lib.since_append (fun o ho hr => ?_) hK⟩, hkeys⟩
    obtain ⟨b, rfl, -⟩ := hpush o ho
    cases hr

/-- **Message 1/4** pushes the start of a PTK derived from a PMK of the station. -/
theorem process1Of4_export (hb : Brings V e) (h : ExportOK c V s) : ExportOK c V (process1Of4 c e f s) :=
  (export_sends hb.none).process1Of4 (takePassphrase_export h) (fun i _ => wpaSupplicantGetPmk_export hb i)
    fun _ _ => setTptk_export _

/-! ## Received frames -/

/-- **The MIC check** is what makes a PTK the one in use. -/
theorem Taken.export (ht : Taken c f s t) (h : ExportOK c V s) : ExportOK c V t := by
  have hnext : ∀ K, Lib.Always (ExportRule c V) (.micVerified K :: s.trace) := fun _ =>
    ⟨trivial, h.always⟩
  cases ht with
  | plain => exact h
  | tptk =>
    -- `sm->tptk` takes the place of `sm->ptk`
    exact ⟨⟨h.pmk, h.sa, h.pass⟩, hnext _, fun _ => ⟨s.tptk, .inl rfl, rfl, rfl⟩⟩
  | ptk => exact ⟨⟨h.pmk, h.sa, h.pass⟩, hnext _, fun _ => ⟨s.ptk, .inl rfl, rfl, rfl⟩⟩

/-- **A received frame.** -/
theorem wpaSmRxEapol_export (hl : c.link = .lifi) (hb : Brings V e) (h : ExportOK c V s) :
    ExportOK c V (wpaSmRxEapol c e f s) := by
  rcases wpaSmRxEapol_received c e f s with heq | ⟨-, hr⟩
  · rw [heq]
    exact h
  generalize wpaSmRxEapol c e f s = u at hr ⊢
  cases hr with
  | noted ht => exact ht.export h
  | msg1 => exact process1Of4_export hb h
  | msg3 _ hm ht => exact process3Of4_export hl hb.none ((verifyEapolKeyMic_taken hm ht).export h)
  | unverified => exact process3Of4_export hl hb.none (h.still (.out rfl s))
  | group ht => exact process1Of2_export hb.none (ht.export h)

/-! ## Runs -/

/-- The PMKs of a run: none, those that are set, those of the PMKSA cache and of EAP, and
those derived from the passphrases that are set. -/
def Configured (c : Conf) (es : List (Event × Env)) (p : Bytes) : Prop :=
  p = [] ∨ ∃ x ∈ es,
    (∃ sa, x.1 = .setPmk p sa) ∨ (∃ q a, x.1 = .setPmk q (some a) ∧ p = a.pmk) ∨
    (∃ a, x.2.pmksaGet = some a ∧ p = a.pmk) ∨ (∃ a, x.2.pmksaAdd = some a ∧ p = a.pmk) ∨
    x.2.eapolKey = some p ∨ ∃ pass ssid, x.1 = .setPassphrase pass ∧ p = c.pbkdf2 pass ssid 4096

theorem configured_brings {es : List (Event × Env)} {x : Event × Env} (hx : x ∈ es) :
    Brings (Configured c es) x.2 where
  none := .inl rfl
  get a ha := .inr ⟨x, hx, .inr (.inr (.inl ⟨a, ha, rfl⟩))⟩
  add a ha := .inr ⟨x, hx, .inr (.inr (.inr (.inl ⟨a, ha, rfl⟩)))⟩
  eapol _ hk := .inr ⟨x, hx, .inr (.inr (.inr (.inr (.inl hk))))⟩

/-- **Every event keeps the invariant**, on the LiFi link. -/
theorem step_export (hl : c.link = .lifi) {es : List (Event × Env)} {x : Event × Env} (hx : x ∈ es)
    (h : ExportOK c (Configured c es) s) (hstep : step c s x = some t) :
    ExportOK c (Configured c es) t := by
  have hb := configured_brings (c := c) hx
  -- the LiFi link has no fast path and no TCP port
  have hwifi : ¬ c.link = .wifi := by rw [hl]; nofun
  obtain ⟨ev, e⟩ := x
  cases ev with
  | notifyAssoc bssid =>
    obtain rfl := Option.some.inj hstep
    rw [notifyAssoc_lifi hl]
    exact ⟨⟨h.pmk, h.sa, h.pass⟩, ⟨trivial, h.always⟩, nofun⟩
  | notifyDisassoc =>
    obtain rfl := Option.some.inj hstep
    exact ⟨⟨.inl rfl, nofun, h.pass⟩, ⟨trivial, h.always⟩, nofun⟩
  | rxEapol f =>
    obtain rfl := Option.some.inj hstep
    exact wpaSmRxEapol_export hl hb h
  | rekeyPtk =>
    simp only [step] at hstep
    split at hstep
    · obtain rfl := Option.some.inj hstep
      have hoff : Still s { s with rekeyTimer := false } :=
        ⟨rfl, rfl, rfl, rfl, rfl, rfl, rfl, [], rfl, by simp⟩
      rw [rekeyPtk_lifi hl]
      exact (export_sends hb.none).keyRequest _ _ (h.still hoff)
    · cases hstep
  | ptkTcp buf =>
    simp only [step, if_neg hwifi] at hstep
    cases hstep
  | keyRequest b b' =>
    obtain rfl := Option.some.inj hstep
    exact (export_sends hb.none).keyRequest _ _ h
  | setPmk pmk sa =>
    obtain rfl := Option.some.inj hstep
    -- a PMK from outside is configured by this very event
    refine h.withPmk ⟨.inr ⟨_, hx, .inl ⟨sa, rfl⟩⟩, fun a ha => ?_, h.pass⟩ rfl rfl rfl
    rcases Option.or_eq_some_iff.1 ha with rfl | ⟨-, ha⟩
    · exact .inr ⟨_, hx, .inr (.inl ⟨pmk, a, rfl, rfl⟩)⟩
    · exact h.sa a ha
  | setPassphrase pass =>
    simp only [step, if_pos hl] at hstep
    obtain rfl := Option.some.inj hstep
    refine h.withPmk ⟨h.pmk, h.sa, ?_⟩ rfl rfl rfl
    unfold wpaSmSetPassphrase
    split
    · exact h.pass
    · intro _ ssid
      exact .inr ⟨_, hx, .inr (.inr (.inr (.inr (.inr ⟨pass, ssid, rfl, rfl⟩))))⟩
  | config par ssid =>
    obtain rfl := Option.some.inj hstep
    exact h.withPmk ⟨h.pmk, h.sa, h.pass⟩ rfl rfl rfl
  | setState st =>
    obtain rfl := Option.some.inj hstep
    exact h.withPmk ⟨h.pmk, h.sa, h.pass⟩ rfl rfl rfl

/-- **What every run keeps of the exported PTKs**, on the LiFi link. -/
theorem run_export (hl : c.link = .lifi) {par : Params} {es : List (Event × Env)}
    (h : run c (Sm.new par) es = some s) : ExportOK c (Configured c es) s := by
  have hnew : ExportOK c (Configured c es) (Sm.new par) :=
    ⟨⟨.inl rfl, nofun, nofun⟩, trivial, nofun⟩
  refine Lib.run_inv_mem ?_ hnew h
  intro s x hx s' hs hstep
  exact step_export hl hx hs hstep

end Lightguard.Supp
