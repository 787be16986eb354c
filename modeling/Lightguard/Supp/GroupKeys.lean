import Lightguard.Supp.Slots

/-!
# The GTK in the supplicant's driver

The WiFi copy. `wpa_sm_notify_assoc` writes its own GTK into slot 1; what a message 3/4 brings goes into the
slot that it names.

* `Brought`: what has filled the station's group slots, as its history tells it.
* `notifyAssoc_gtk`: the slot the fast path fills.
* `process3Of4_gtk`: a message 3/4 puts its GTK into the driver.
* `wpaSmRxEapol_gtk`: a received frame brings a station up as a message 3/4 only.
* `step_gtkOK`: the station holds what has been brought, over every event.
* `step_sameGtk`: no other event touches a group slot.
-/

namespace Lightguard.Supp

open Wpa Rotation

variable {c : Conf} {e : Env} {f : EapolKey} {s t u : Sm} {l l' : List Out} {ev : Event} {idx : ℕ}
  {k : Bytes} {p : Cipher}

/-- The GTK the driver has taken last for a slot in this association. -/
def driverGtk (idx : ℕ) (l : List Out) : Option Bytes :=
  (Lib.latest (fun
    | .setGroupKey _ i g _ true => if i = idx then some (some g) else none
    | .associated | .disassociated => some none
    | _ => none) l).join

/-- The slot holds this GTK. -/
def HoldsGtk (idx : ℕ) (k : Bytes) (s : Sm) : Prop := driverGtk idx s.trace = some k

/-- The pairwise key is in the driver. -/
structure Up (s : Sm) : Prop where
  set : s.ptkSet = true
  installed : s.ptk.installed = true

instance (s : Sm) : Decidable (Up s) :=
  decidable_of_iff (s.ptkSet = true ∧ s.ptk.installed = true)
    ⟨fun h => ⟨h.1, h.2⟩, fun h => ⟨h.1, h.2⟩⟩

/-- What fills the group slots of an association first. -/
inductive Brought where
  | fast
  | msg3 (f : EapolKey)
deriving DecidableEq

/-- The fast path, or this message 3/4, has filled them, and no other GTK has come since. -/
def brought (l : List Out) : Option Brought :=
  (Lib.latest (fun
    | .setKey .notifyAssoc _ _ true => some (some .fast)
    | .msg3Ok f => some (some (.msg3 f))
    | .setGroupKey .installGtk _ _ _ _ | .associated | .disassociated => some none
    | _ => none) l).join

/-- The GTK of the frame. -/
def gtkOf (f : EapolKey) : Option GtkKde := f.keyData.kde.bind (·.gtk)

/-! ## The fast path -/

/-- An association brings the station up by the fast path only. -/
theorem notifyAssoc_takes (hl : c.link = .wifi) {bssid : Addr} (hu : Up (wpaSmNotifyAssoc c e bssid s)) :
    Takes e s := by
  rcases notifyAssoc_cases hl e bssid s with ⟨-, heq⟩ | ⟨-, -, heq | heq⟩ | ⟨ht, -⟩
  · exact nomatch (heq ▸ hu).set
  · exact nomatch (heq ▸ hu).installed
  · exact nomatch (heq ▸ hu).installed
  · exact ht

theorem notifyAssoc_fast (hl : c.link = .wifi) (ht : Takes e s) (bssid : Addr) :
    wpaSmNotifyAssoc c e bssid s = fastUp e bssid s := by
  rcases notifyAssoc_cases hl e bssid s with ⟨hv, -⟩ | ⟨-, hno, -⟩ | ⟨-, heq⟩
  · exact absurd (hv.symm.trans ht.1) Bool.false_ne_true
  · exact absurd ht hno
  · exact heq

/-- **The slot the fast path fills** is always the first one. -/
theorem notifyAssoc_gtk (hl : c.link = .wifi) (ht : Takes e s) (hg : e.setGroupKey = true)
    (hp : 0 < s.par.groupCipher.keyLen) (bssid : Addr) :
    HoldsGtk 1 (customTestGtk.take s.par.groupCipher.keyLen) (wpaSmNotifyAssoc c e bssid s) := by
  have hle : s.par.groupCipher.keyLen ≤ 32 := by
    cases s.par.groupCipher <;> decide
  rw [notifyAssoc_fast hl ht]
  show driverGtk 1 (installCustomGtk e _).trace = _
  unfold installCustomGtk
  rw [if_pos ⟨hp, hle⟩, hg]
  rfl

/-- What the history tells of it. -/
theorem notifyAssoc_brought (hl : c.link = .wifi) (ht : Takes e s) (bssid : Addr) :
    brought (wpaSmNotifyAssoc c e bssid s).trace = some .fast := by
  rw [notifyAssoc_fast hl ht]
  show brought (installCustomGtk e _).trace = _
  unfold installCustomGtk
  split <;> rfl

/-! ## Functions that leave the group slots alone -/

/-- The group slots are as before, and so is what has filled them. -/
structure SameGtk (s t : Sm) : Prop where
  slots : ∀ idx, driverGtk idx t.trace = driverGtk idx s.trace
  brought : Supp.brought t.trace = Supp.brought s.trace

namespace SameGtk

protected theorem refl (s : Sm) : SameGtk s s := ⟨fun _ => rfl, rfl⟩

protected theorem trans (h : SameGtk s t) (h' : SameGtk t u) : SameGtk s u :=
  ⟨fun idx => (h'.slots idx).trans (h.slots idx), h'.brought.trans h.brought⟩

theorem holds (h : SameGtk s t) (hs : HoldsGtk idx k s) : HoldsGtk idx k t := (h.slots idx).trans hs

end SameGtk

theorem driverGtk_quiet (hl : ∀ o ∈ l, o.quiet = true) : driverGtk idx (l ++ l') = driverGtk idx l' := by
  refine congrArg Option.join (latest_quiet (fun o ho => ?_) hl)
  cases o <;> first | rfl | cases ho

theorem brought_quiet (hl : ∀ o ∈ l, o.quiet = true) : brought (l ++ l') = brought l' := by
  refine congrArg Option.join (latest_quiet (fun o ho => ?_) hl)
  cases o <;> first | rfl | cases ho

theorem Quiet.sameGtk (h : Quiet s t) : SameGtk s t := by
  obtain ⟨l, htr, hl⟩ := h.trace
  exact ⟨fun idx => by rw [htr, driverGtk_quiet hl], by rw [htr, brought_quiet hl]⟩

/-- The station has been disconnected. -/
structure Lost (s : Sm) : Prop where
  down : ¬ Up s
  gtk : brought s.trace = none

theorem lost (s : Sm) : Lost (wpaSupplicantDeauthenticate s) := ⟨fun hu => (nomatch hu.set), rfl⟩

theorem keyRequest_gtk (c : Conf) (e : Env) (b b' : Bool) (s : Sm) :
    SameGtk s (wpaSmKeyRequest c e b b' s) ∨ Lost (wpaSmKeyRequest c e b b' s) := by
  rcases wpaSmKeyRequest_cases c e b b' s with hq | heq
  · exact .inl hq.sameGtk
  · rw [heq]
    exact .inr (lost _)

theorem rekeyPtk_gtk (c : Conf) (e : Env) (s : Sm) :
    SameGtk s (wpaSmRekeyPtk c e s) ∨ Lost (wpaSmRekeyPtk c e s) := by
  have hreq : ∀ t, SameGtk s t →
      SameGtk s (wpaSmKeyRequest c e false true t) ∨ Lost (wpaSmKeyRequest c e false true t) :=
    fun t ht => (keyRequest_gtk c e false true t).imp ht.trans id
  unfold wpaSmRekeyPtk
  simp only
  split
  · split
    · split
      · exact .inl ⟨fun _ => rfl, rfl⟩
      · exact hreq _ ⟨fun _ => rfl, rfl⟩
    · exact hreq _ ⟨fun _ => rfl, rfl⟩
  · exact hreq _ ⟨fun _ => rfl, rfl⟩

theorem ptkTcp_gtk (e : Env) (buf : Text) (s : Sm) : SameGtk s (wpaSmPtkTcpHandler e buf s) := by
  rw [wpaSmPtkTcpHandler_match]
  split
  · exact .refl s
  · split <;> exact ⟨fun _ => rfl, rfl⟩

theorem Taken.sameGtk (h : Taken c f s t) : SameGtk s t := by
  cases h <;> exact ⟨fun _ => rfl, rfl⟩

/-! ## Message 3/4 -/

theorem installPtk_gtk (hl : c.link = .wifi) (s : Sm) :
    (installPtk c e s).2.par = s.par ∧ (installPtk c e s).2.gtk = s.gtk := by
  rcases installPtk_cases hl e s with ⟨-, heq⟩ | heq | ⟨-, heq⟩ | ⟨-, heq⟩ <;> rw [heq] <;>
    exact ⟨rfl, rfl⟩

/-- The GTK of message 3/4 will be handed to the driver: the group cipher has a key, and the GTK is not the
one the station has got last. -/
structure NewGtk (f : EapolKey) (s : Sm) : Prop where
  cipher : s.par.groupCipher ≠ .none
  gtk : ∀ g, gtkOf f = some g → s.gtk ≠ g.gtk

/-- The driver has the GTK of the frame. -/
def HasGtkOf (f : EapolKey) (s : Sm) : Prop := ∀ g, gtkOf f = some g → HoldsGtk g.keyidx g.gtk s

/-- The GTK of message 3/4 gets into the driver, or message 3/4 fails. -/
theorem gtkMsg3_holds {ie : Kde} (hie : f.keyData.kde = some ie) (hs : NewGtk f s)
    (hok : (gtkMsg3 e ie s).1 = true) : HasGtkOf f (gtkMsg3 e ie s).2 := by
  intro g hg
  have hgtk : ie.gtk = some g := by simpa [gtkOf, hie] using hg
  have hcall : gtkMsg3 e ie s = if checkGroupCipher g s = true then installGtk e g s else (false, s) := by
    simp only [gtkMsg3, hgtk, pairwiseGtk, if_neg hs.cipher]
  rw [hcall] at hok ⊢
  split at hok
  · rename_i hcheck
    rw [if_pos hcheck]
    rcases installGtk_cases e g s with ⟨heq, -⟩ | ⟨-, key, ⟨-, heq⟩ | ⟨-, heq⟩⟩
    · exact absurd heq (hs.gtk g hg)
    · rw [heq] at hok
      cases hok
    · rw [heq]
      simp [HoldsGtk, driverGtk, Lib.latest, Sm.out]
  · cases hok

/-- **Message 3/4** puts its GTK into the driver, or the station is disconnected. -/
theorem process3Of4_gtk (hl : c.link = .wifi) (hs : NewGtk f s) :
    brought (process3Of4 c e f s).trace = some (.msg3 f) ∧ HasGtkOf f (process3Of4 c e f s) ∨
      Lost (process3Of4 c e f s) := by
  have hsent : ∀ (q : Ptk) (b : KeyBody) (t : Sm), NewGtk f t → NewGtk f (wpaEapolKeySend c e q b t).2 := by
    intro q b t ht
    have hq := wpaEapolKeySend_quiet (c := c) (e := e) q b t
    exact ⟨hq.par ▸ ht.cipher, hq.gtk ▸ ht.gtk⟩
  have hinstalled : ∀ t, NewGtk f t → NewGtk f (installPtk c e t).2 := by
    intro t ht
    obtain ⟨hpar, hgtk⟩ := installPtk_gtk (e := e) hl t
    exact ⟨hpar ▸ ht.cipher, hgtk ▸ ht.gtk⟩
  refine process3Of4_stages (Q := fun _ => True)
    (P := fun t => brought t.trace = some (.msg3 f) ∧ HasGtkOf f t ∨ Lost t)
    (A := fun ie t => f.keyData.kde = some ie ∧ NewGtk f t) (B := fun ie t => f.keyData.kde = some ie ∧ NewGtk f t)
    (D := fun ie t => f.keyData.kde = some ie ∧ NewGtk f t) (fun t _ => .inr (lost _)) trivial ?_ ?_ ?_ ?_
  · intro ie t hchk
    obtain ⟨hie, -, i, x, rfl⟩ := checkMsg3_cases hchk
    refine ⟨trivial, fun _ => ⟨hie, ?_⟩⟩
    split
    · exact hinstalled _ ⟨hs.cipher, hs.gtk⟩
    · exact ⟨hs.cipher, hs.gtk⟩
  · rintro ie t ⟨hie, ht⟩
    refine ⟨trivial, fun _ => ⟨hie, ?_⟩⟩
    have hnew := hsent t.ptk (msg4 f t) t ht
    exact ⟨hnew.cipher, hnew.gtk⟩
  · rintro ie t ⟨hie, ht⟩
    have hnew : NewGtk f (installMsg3 c e f t).2 := by
      unfold installMsg3
      split
      · exact ht
      split
      · exact ⟨ht.cipher, ht.gtk⟩
      · exact hinstalled t ht
    exact ⟨trivial, fun _ => ⟨hie, hnew.cipher, hnew.gtk⟩⟩
  · rintro ie t ⟨hie, ht⟩
    exact ⟨trivial, fun hok => .inl ⟨rfl, gtkMsg3_holds hie ht hok⟩⟩

/-! ## Received frames -/

/-- Once it is up the station takes no frame. -/
theorem wpaSmRxEapol_up (hl : c.link = .wifi) (hu : Up s) : wpaSmRxEapol c e f s = s := by
  unfold wpaSmRxEapol
  exact if_pos ⟨hl, hu.set, hu.installed⟩

/-- A frame that is taken for message 3/4: its MIC verifies, or it has none and is encrypted. -/
structure IsMsg3 (c : Conf) (f : EapolKey) (s : Sm) : Prop where
  pairwise : f.pairwise = true
  verified : f.hasMic = true ∧ (verifyEapolKeyMic c f s).isSome = true ∨ ¬ f.hasMic = true ∧ encrypted f = true

/-- The keys of a handshake that is not over are not in the driver. -/
def Fresh (s : Sm) : Prop := s.tptk.installed = false

/-- The station stays down, and so do the keys of its handshake. -/
structure Down (s : Sm) : Prop where
  down : ¬ Up s
  fresh : Fresh s

theorem Down.congr (h : Down s) (ht : t.tptk = s.tptk) (h1 : t.ptk = s.ptk) (h2 : t.ptkSet = s.ptkSet) : Down t :=
  ⟨fun hu => h.down ⟨h2 ▸ hu.set, h1 ▸ hu.installed⟩, by rw [Fresh, ht]; exact h.fresh⟩

theorem Down.lost (s : Sm) : Down (wpaSupplicantDeauthenticate s) := ⟨(Supp.lost s).down, rfl⟩

theorem fresh_sends : Sends Fresh Fresh :=
  ⟨fun _ _ h => h, fun _ _ _ _ _ _ h => h, fun _ h => h, fun _ _ => rfl, fun _ _ => rfl⟩

theorem down_sends : Sends Down Down where
  out _ _ h := h.congr rfl rfl rfl
  fields _ _ _ _ _ _ h := h.congr rfl rfl rfl
  done _ h := h
  deauthenticate _ _ := .lost _
  reconnect _ _ := .lost _

theorem setTptk_fresh (n : Bytes) (s : Sm) : Fresh (setTptk c e n s) := by
  have hder : (wpaDerivePtk c e n s).ptk.installed = false := by
    unfold wpaDerivePtk wpaPmkToPtk
    split <;> rfl
  unfold Fresh setTptk
  simp only
  split <;> exact hder

theorem process1Of4_down (h : Down s) : Down (process1Of4 c e f s) := by
  refine down_sends.process1Of4 ?_ (fun i t ht => ?_) (fun t _ ht => ⟨fun hu => ht.down ⟨hu.set, hu.installed⟩,
    setTptk_fresh _ t⟩)
  · rcases takePassphrase_cases c s with heq | ⟨-, -, -, heq⟩ <;> rw [heq]
    · exact h
    · exact h.congr rfl rfl rfl
  · rcases get_pmk_cases e i t with ⟨pmk, cur, -, heq⟩ | ⟨-, -, r, -, -, heq⟩ <;> rw [heq] <;> exact ht.congr rfl rfl rfl

theorem process1Of2_down (h : Down s) : Down (process1Of2 c e f s) := by
  refine down_sends.process1Of2 (fun ie _ g _ t ht => ?_) h
  rcases installGtk_cases e g t with ⟨-, heq⟩ | ⟨-, key, ⟨-, heq⟩ | ⟨-, heq⟩⟩ <;> rw [heq] <;> exact ht.congr rfl rfl rfl

/-- The keys of a handshake that is not over stay out of the driver. -/
theorem process3Of4_fresh (h : Fresh s) : Fresh (process3Of4 c e f s) := by
  refine fresh_sends.process3Of4 (fun _ _ _ h => h) (fun t ht => ?_) (fun _ h => h) (fun ie _ g _ t ht => ?_)
    (fun _ _ h => h) h
  · have hw : (ptkToInstall c t).tptk = t.tptk := by
      unfold ptkToInstall
      split <;> rfl
    have hptk : (installPtk c e t).2.tptk = t.tptk := by
      unfold installPtk
      simp only
      split
      · exact hw
      split
      · exact hw
      split
      · exact hw
      split <;> exact hw
    rw [Fresh, hptk]
    exact ht
  · rcases installGtk_cases e g t with ⟨-, heq⟩ | ⟨-, key, ⟨-, heq⟩ | ⟨-, heq⟩⟩ <;> rw [heq] <;> exact ht

/-- The MIC check does not bring a station up. -/
theorem Taken.down (h : Taken c f s t) (hs : Down s) : Down t := by
  cases h with
  | plain => exact hs
  | tptk => exact ⟨fun hu => Bool.false_ne_true (hs.fresh.symm.trans hu.installed), rfl⟩
  | ptk _ hset => exact ⟨fun hu => hs.down ⟨hset, hu.installed⟩, hs.fresh⟩

theorem Taken.newGtk (h : Taken c f s t) (hs : NewGtk f s) : NewGtk f t := by
  cases h <;> exact ⟨hs.cipher, hs.gtk⟩

/-- The group slots are as before, or another GTK has come or none is owed any more. -/
def Moved (s t : Sm) : Prop := SameGtk s t ∨ brought t.trace = none

theorem moved_sends (s : Sm) : Sends (Moved s) (Moved s) where
  out _ _ h := h.imp (fun h => h.trans ⟨fun _ => rfl, rfl⟩) id
  fields _ _ _ _ _ _ h := h.imp (fun h => h.trans ⟨fun _ => rfl, rfl⟩) id
  done _ h := h
  deauthenticate _ _ := .inr rfl
  reconnect _ _ := .inr rfl

theorem process1Of4_moved (c : Conf) (e : Env) (f : EapolKey) (s : Sm) : Moved s (process1Of4 c e f s) := by
  refine (moved_sends s).process1Of4 (.inl (takePassphrase_quiet s).sameGtk) (fun i t ht => ?_) fun t _ ht => ?_
  · exact ht.imp (fun h => h.trans (wpaSupplicantGetPmk_quiet i t).sameGtk) fun hb =>
      (wpaSupplicantGetPmk_quiet i t).sameGtk.brought.trans hb
  · exact ht.imp (fun h => h.trans (setTptk_quiet _ t).sameGtk) fun hb =>
      (setTptk_quiet _ t).sameGtk.brought.trans hb

theorem process1Of2_moved (c : Conf) (e : Env) (f : EapolKey) (s : Sm) : Moved s (process1Of2 c e f s) := by
  refine (moved_sends s).process1Of2 (fun ie _ g _ t ht => ?_) (.inl (.refl s))
  rcases installGtk_cases e g t with ⟨-, heq⟩ | ⟨-, key, ⟨-, heq⟩ | ⟨-, heq⟩⟩ <;> rw [heq]
  · exact ht
  · exact .inr rfl
  · exact .inr rfl

/-- **A received frame** brings a station up as a message 3/4 only, and then it has put its GTK into the
driver. -/
theorem wpaSmRxEapol_gtk (hl : c.link = .wifi) (hd : Down s) (hs : IsMsg3 c f s → NewGtk f s) :
    Moved s (wpaSmRxEapol c e f s) ∧ ¬ Up (wpaSmRxEapol c e f s) ∨
      IsMsg3 c f s ∧ brought (wpaSmRxEapol c e f s).trace = some (.msg3 f) ∧ HasGtkOf f (wpaSmRxEapol c e f s) := by
  have hmsg3 : ∀ {t}, IsMsg3 c f s → NewGtk f t →
      Moved s (process3Of4 c e f t) ∧ ¬ Up (process3Of4 c e f t) ∨
        IsMsg3 c f s ∧ brought (process3Of4 c e f t).trace = some (.msg3 f) ∧ HasGtkOf f (process3Of4 c e f t) := by
    intro t h3 ht
    rcases process3Of4_gtk (c := c) (e := e) hl ht with h | h
    · exact .inr ⟨h3, h⟩
    · exact .inl ⟨.inr h.gtk, h.down⟩
  rcases wpaSmRxEapol_received c e f s with heq | ⟨-, hr⟩
  · rw [heq]
    exact .inl ⟨.inl (.refl s), hd.down⟩
  generalize wpaSmRxEapol c e f s = t at hr ⊢
  cases hr with
  | noted ht => exact .inl ⟨.inl ht.sameGtk, (ht.down hd).down⟩
  | msg1 => exact .inl ⟨process1Of4_moved c e f s, (process1Of4_down hd).down⟩
  | msg3 hp hm ht =>
    have h3 : IsMsg3 c f s := ⟨hp, .inl ⟨hm, by rw [ht]; rfl⟩⟩
    exact hmsg3 h3 ((verifyEapolKeyMic_taken hm ht).newGtk (hs h3))
  | unverified hp hm he =>
    have h3 : IsMsg3 c f s := ⟨hp, .inr ⟨hm, he⟩⟩
    exact hmsg3 h3 ⟨(hs h3).cipher, (hs h3).gtk⟩
  | group ht =>
    refine .inl ⟨?_, (process1Of2_down (ht.down hd)).down⟩
    exact (process1Of2_moved c e f _).imp (fun h => ht.sameGtk.trans h) id

theorem wpaSmRxEapol_fresh (hl : c.link = .wifi) (h : Fresh s) : Fresh (wpaSmRxEapol c e f s) := by
  by_cases hup : Up s
  · rw [wpaSmRxEapol_up hl hup]
    exact h
  have hd : Down s := ⟨hup, h⟩
  rcases wpaSmRxEapol_received c e f s with heq | ⟨-, hr⟩
  · rw [heq]
    exact h
  generalize wpaSmRxEapol c e f s = t at hr ⊢
  cases hr with
  | noted ht => exact (ht.down hd).fresh
  | msg1 => exact (process1Of4_down hd).fresh
  | msg3 _ hm ht => exact process3Of4_fresh ((verifyEapolKeyMic_taken hm ht).down hd).fresh
  | unverified _ _ _ => exact process3Of4_fresh h
  | group ht => exact (process1Of2_down (ht.down hd)).fresh

/-! ## One event -/

/-- Events that may bring the station up. -/
def Event.raises : Event → Bool
  | .notifyAssoc _ | .rxEapol _ | .rekeyPtk | .ptkTcp _ => true
  | _ => false

/-- Nothing else does. -/
theorem step_up (hr : ev.raises = false) (h : step c s (ev, e) = some t) (hu : Up t) : Up s := by
  cases ev with
  | notifyAssoc | rxEapol | rekeyPtk | ptkTcp => cases hr
  | notifyDisassoc =>
    obtain rfl := Option.some.inj h
    exact nomatch hu.set
  | keyRequest b b' =>
    obtain rfl := Option.some.inj h
    rcases wpaSmKeyRequest_cases c e b b' s with hq | heq
    · exact ⟨hq.ptkSet ▸ hu.set, hq.ptk ▸ hu.installed⟩
    · rw [heq] at hu
      exact absurd hu (lost _).down
  | setPassphrase pass =>
    simp only [step] at h
    split at h
    · obtain rfl := Option.some.inj h
      exact ⟨hu.set, hu.installed⟩
    · cases h
  | setPmk | config | setState =>
    obtain rfl := Option.some.inj h
    exact ⟨hu.set, hu.installed⟩

/-- Events that may fill a group slot. -/
def Event.fills : Event → Bool
  | .notifyAssoc _ | .rxEapol _ => true
  | _ => false

/-- **The other events leave the group slots alone**, or the station is disconnected. -/
theorem step_sameGtk (hl : c.link = .wifi) (hf : ev.fills = false) (h : step c s (ev, e) = some t) :
    SameGtk s t ∨ Lost t := by
  cases ev with
  | notifyAssoc | rxEapol => cases hf
  | notifyDisassoc =>
    obtain rfl := Option.some.inj h
    exact .inr ⟨fun hu => (nomatch hu.set), rfl⟩
  | rekeyPtk =>
    simp only [step] at h
    split at h
    · obtain rfl := Option.some.inj h
      exact rekeyPtk_gtk c e s
    · cases h
  | ptkTcp buf =>
    simp only [step, if_pos hl] at h
    obtain rfl := Option.some.inj h
    exact .inl (ptkTcp_gtk e _ s)
  | keyRequest b b' =>
    obtain rfl := Option.some.inj h
    exact keyRequest_gtk c e b b' s
  | setPassphrase pass =>
    simp only [step] at h
    split at h
    · obtain rfl := Option.some.inj h
      exact .inl ⟨fun _ => rfl, rfl⟩
    · cases h
  | setPmk | config | setState =>
    obtain rfl := Option.some.inj h
    exact .inl ⟨fun _ => rfl, rfl⟩

/-- **Every event** leaves the keys of the handshake out of the driver. -/
theorem step_fresh (hl : c.link = .wifi) (h : Fresh s) (hstep : step c s (ev, e) = some t) : Fresh t := by
  cases ev with
  | notifyAssoc b =>
    obtain rfl := Option.some.inj hstep
    rcases notifyAssoc_cases hl e b s with ⟨-, heq⟩ | ⟨-, -, heq | heq⟩ | ⟨-, heq⟩ <;> rw [heq]
    · rfl
    · rfl
    · rfl
    · show (installCustomGtk e _).tptk.installed = false
      unfold installCustomGtk
      split <;> rfl
  | rxEapol f =>
    obtain rfl := Option.some.inj hstep
    exact wpaSmRxEapol_fresh hl h
  | rekeyPtk =>
    simp only [step] at hstep
    split at hstep
    · obtain rfl := Option.some.inj hstep
      unfold wpaSmRekeyPtk
      simp only
      split
      · split
        · split
          · exact h
          · exact fresh_sends.keyRequest false true (s := Sm.out _ (Sm.wrote _ _ _)) h
        · exact fresh_sends.keyRequest false true (s := Sm.wrote _ _ _) h
      · exact fresh_sends.keyRequest false true (s := { s with rekeyTimer := false }) h
    · cases hstep
  | ptkTcp buf =>
    simp only [step, if_pos hl] at hstep
    obtain rfl := Option.some.inj hstep
    rw [wpaSmPtkTcpHandler_match]
    split
    · exact h
    · split <;> exact h
  | keyRequest b b' =>
    obtain rfl := Option.some.inj hstep
    exact fresh_sends.keyRequest b b' h
  | setPassphrase pass =>
    simp only [step] at hstep
    split at hstep
    · obtain rfl := Option.some.inj hstep
      exact h
    · cases hstep
  | notifyDisassoc =>
    obtain rfl := Option.some.inj hstep
    rfl
  | setPmk | config | setState =>
    obtain rfl := Option.some.inj hstep
    exact h

/-! ## What the station owes to what has filled its slots -/

/-- The fast path leaves `k` in slot 1, a message 3/4 its own GTK. -/
def Left (k : Bytes) (s : Sm) : Brought → Prop
  | .fast => HoldsGtk 1 k s
  | .msg3 f => HasGtkOf f s

theorem SameGtk.left {b : Brought} (h : SameGtk s t) (hs : Left k s b) : Left k t b := by
  cases b with
  | fast => exact h.holds hs
  | msg3 f => exact fun g hg => h.holds (hs g hg)

/-- **The invariant.** -/
structure GtkOK (k : Bytes) (s : Sm) : Prop where
  fresh : Fresh s
  left : ∀ b, brought s.trace = some b → Left k s b

/-- The fast path hands over `k`, and the GTK of a message 3/4 is new. -/
def Fills (c : Conf) (k : Bytes) (e : Env) (s : Sm) : Event → Prop
  | .notifyAssoc _ => Takes e s → e.setGroupKey = true ∧ 0 < s.par.groupCipher.keyLen ∧
      customTestGtk.take s.par.groupCipher.keyLen = k
  | .rxEapol f => ¬ Up s → IsMsg3 c f s → NewGtk f s
  | _ => True

theorem owed_same (h : SameGtk s t) (hs : GtkOK k s) : ∀ b, brought t.trace = some b → Left k t b :=
  fun b hb => h.left (hs.left b (h.brought ▸ hb))

theorem owed_none (hb : brought t.trace = none) : ∀ b, brought t.trace = some b → Left k t b :=
  fun _ hb' => nomatch hb.symm.trans hb'

/-- The fast path. -/
theorem notifyAssoc_owed (hl : c.link = .wifi) {bssid : Addr} (hf : Fills c k e s (.notifyAssoc bssid)) :
    ∀ b, brought (wpaSmNotifyAssoc c e bssid s).trace = some b → Left k (wpaSmNotifyAssoc c e bssid s) b := by
  by_cases ht : Takes e s
  · obtain ⟨h1, h2, h3⟩ := hf ht
    intro b hb
    rw [notifyAssoc_brought hl ht] at hb
    obtain rfl := Option.some.inj hb
    rw [← h3]
    exact notifyAssoc_gtk hl ht h1 h2 bssid
  · -- nothing has been handed over
    refine owed_none ?_
    rcases notifyAssoc_cases hl e bssid s with ⟨-, heq⟩ | ⟨-, -, heq | heq⟩ | ⟨ht', -⟩
    · rw [heq]; rfl
    · rw [heq]; rfl
    · rw [heq]; rfl
    · exact absurd ht' ht

/-- **Every event** keeps it. -/
theorem step_gtkOK (hl : c.link = .wifi) (h : GtkOK k s) (hf : Fills c k e s ev)
    (hstep : step c s (ev, e) = some t) : GtkOK k t := by
  refine ⟨step_fresh hl h.fresh hstep, ?_⟩
  by_cases hfill : ev.fills = true
  · cases ev with
    | notifyAssoc bssid =>
      obtain rfl := Option.some.inj hstep
      exact notifyAssoc_owed hl hf
    | rxEapol f =>
      obtain rfl := Option.some.inj hstep
      by_cases hup : Up s
      · rw [wpaSmRxEapol_up hl hup]
        exact h.left
      rcases wpaSmRxEapol_gtk (e := e) hl ⟨hup, h.fresh⟩ (hf hup) with ⟨hsame | hb, -⟩ | ⟨-, hb, hhas⟩
      · exact owed_same hsame h
      · exact owed_none hb
      · intro b hb'
        obtain rfl := Option.some.inj (hb.symm.trans hb')
        exact hhas
    | _ => cases hfill
  · rcases step_sameGtk hl (by simpa using hfill) hstep with hsame | hlost
    · exact owed_same hsame h
    · exact owed_none hlost.gtk

end Lightguard.Supp
