import Lightguard.Supp.Effect

/-!
# Which keys the supplicant's driver holds

The WiFi copy.

* `Quiet`: what most of the supplicant's functions leave alone while the station stays associated.
* `installPtk_slot`: `wpa_supplicant_install_ptk` installs the test PTK, whatever was derived.
* `run_slot`: in every run message 3/4 hands its TK over only when the driver has taken none
  since `sm->ptk` was last written from elsewhere, a GTK is not installed twice in a row, and
  after a message 3/4 the keys are those of the test PTK.
-/

namespace Lightguard.Supp

open Wpa Rotation

variable {c : Conf} {e : Env} {f : EapolKey} {s t u : Sm} {l l' : List Out}

/-! ## What the trace tells -/

/-- The start and the end of an association. -/
def Out.isAssoc : Out → Bool
  | .associated | .disassociated => true
  | _ => false

/-- No association starts or ends between two states. -/
def Undisturbed (s t : Sm) : Prop := ∃ l, t.trace = l ++ s.trace ∧ ∀ o ∈ l, o.isAssoc = false

/-- In this association. -/
def SinceAssoc (o : Out) (l : List Out) : Prop := Lib.Since (·.isAssoc = true) o l

/-- Whether the driver has taken a TK since `sm->ptk` was last cleared by the start or the end
of an association or written by the rekey timer or the PTK TCP port. -/
def occupied (l : List Out) : Bool :=
  (Lib.latest (fun
    | .setKey _ _ _ true => some true
    | .wrotePtk .installPtk _ => none
    | .wrotePtk _ _ | .associated | .disassociated => some false
    | _ => none) l).getD false

/-- The GTK the driver has taken last from a received frame of this association. -/
def lastGtk (l : List Out) : Option Bytes :=
  (Lib.latest (fun
    | .setGroupKey .installGtk _ g _ true => some (some g)
    | .associated | .disassociated => some none
    | _ => none) l).join

/-- The keys are those of the test PTK: KCK and KEK in `sm->ptk`, the TK in the driver. -/
def TestKeys (l : List Out) : Prop :=
  storedPtk l = customTestPtk ∧ driverTk l = some customTestPtk.tk

/-- The rules for the keys a received frame installs, and for what a message 3/4 leaves. -/
def SlotRule : Out → List Out → Prop
  | .setKey .installPtk _ _ _, l => occupied l = false ∨ SinceAssoc .micSkipped l
  | .setGroupKey .installGtk _ g _ _, l => lastGtk l ≠ some g
  | .msg3Ok f, l => f.install = true → f.keyLength ≠ 0 → TestKeys l
  | _, _ => True

/-- The invariant. -/
structure SlotOK (s : Sm) : Prop where
  always : Lib.Always SlotRule s.trace
  kck : s.ptk.kck = (storedPtk s.trace).kck
  kek : s.ptk.kek = (storedPtk s.trace).kek
  set : occupied s.trace = true →
    SinceAssoc .micSkipped s.trace ∨ s.ptkSet = true ∧ s.ptk.installed = true
  gtk : s.gtk = (lastGtk s.trace).getD []

/-- A TK may be handed over. -/
def Vacant (l : List Out) : Prop := occupied l = false ∨ SinceAssoc .micSkipped l

/-- Entries after which the keys are what they were. -/
def Out.keepsKeys : Out → Bool
  | .setKey _ _ _ ok => !ok
  | .micVerified _ | .wrotePtk _ _ | .associated | .disassociated => false
  | _ => true

theorem TestKeys.keeps (hl : ∀ o ∈ l, o.keepsKeys = true) (h : TestKeys l') : TestKeys (l ++ l') := by
  refine ⟨?_, ?_⟩
  · rw [storedPtk, Lib.latest_append]
    · exact h.1
    intro o ho
    have := hl o ho
    cases o <;> simp_all [Out.keepsKeys]
  · rw [driverTk, Lib.latest_append]
    · exact h.2
    intro o ho
    have := hl o ho
    cases o <;> simp_all [Out.keepsKeys]

/-! ## Quiet functions -/

/-- Entries without a word on keys. -/
def Out.quiet : Out → Bool
  | .newTptk .. | .activatePtk .. | .deauthenticate | .reconnect | .pushed _ | .sent _ => true
  | _ => false

/-- A function that leaves the keys alone, as long as the station stays associated. -/
structure Quiet (s t : Sm) : Prop where
  par : t.par = s.par
  ext : t.useExtKeyId = s.useExtKeyId
  ptk : t.ptk = s.ptk
  ptkSet : t.ptkSet = s.ptkSet
  gtk : t.gtk = s.gtk
  trace : ∃ l, t.trace = l ++ s.trace ∧ ∀ o ∈ l, o.quiet = true

namespace Quiet

protected theorem refl (s : Sm) : Quiet s s := ⟨rfl, rfl, rfl, rfl, rfl, [], rfl, by simp⟩

protected theorem trans (h : Quiet s t) (h' : Quiet t u) : Quiet s u := by
  obtain ⟨l, hl, hq⟩ := h.trace
  obtain ⟨l', hl', hq'⟩ := h'.trace
  refine ⟨h'.par.trans h.par, h'.ext.trans h.ext, h'.ptk.trans h.ptk, h'.ptkSet.trans h.ptkSet,
    h'.gtk.trans h.gtk, l' ++ l, by rw [hl', hl, List.append_assoc], ?_⟩
  intro o ho
  rcases List.mem_append.1 ho with ho | ho
  · exact hq' o ho
  · exact hq o ho

/-- One quiet entry. -/
theorem out {o : Out} (ho : o.quiet = true) (s : Sm) : Quiet s (s.out o) :=
  ⟨rfl, rfl, rfl, rfl, rfl, [o], rfl, by simpa using ho⟩

end Quiet

theorem fields_quiet (h : Quiet s t) (st : WpaState) (b : Bool) (n a : Bytes) (k : ℕ) : Quiet s { t with
    wpaState := st, renewSnonce := b, snonce := n, anonce := a, requestCounter := k } :=
  h.trans ⟨rfl, rfl, rfl, rfl, rfl, [], rfl, by simp⟩

theorem wpaEapolKeySend_quiet (ptk : Ptk) (b : KeyBody) (s : Sm) :
    Quiet s (wpaEapolKeySend c e ptk b s).2 := by
  rcases wpaEapolKeySend_cases c e ptk b s with heq | ⟨g, heq⟩ <;> rw [heq]
  · exact .refl s
  · exact .out rfl s

/-- What quiet functions keep, with what a disconnection makes of it. -/
theorem sends_of_quiet {Q P : Sm → Prop} (hQ : ∀ t u, Q t → Quiet t u → Q u) (hP : ∀ t, Q t → P t)
    (hlost : ∀ t, Q t → P (wpaSupplicantDeauthenticate t)) : Sends Q P where
  out _ t h := hQ t _ h (.out rfl t)
  fields t st b n a k h := hQ t _ h (fields_quiet (.refl t) st b n a k)
  done := hP
  deauthenticate t h := hlost _ (hQ t _ h (.out rfl t))
  reconnect t h := hlost _ (hQ t _ h (.out rfl t))

/-- A key request is a frame, or asks for a new association. -/
theorem wpaSmKeyRequest_cases (c : Conf) (e : Env) (b b' : Bool) (s : Sm) :
    Quiet s (wpaSmKeyRequest c e b b' s) ∨ wpaSmKeyRequest c e b b' s = s.reconnect := by
  unfold wpaSmKeyRequest
  split
  · exact .inr rfl
  · exact .inl ((fields_quiet (.refl s) _ _ _ _ _).trans (wpaEapolKeySend_quiet _ _ _))

theorem takePassphrase_quiet (s : Sm) : Quiet s (takePassphrase c s) := by
  rcases takePassphrase_cases c s with heq | ⟨-, -, -, heq⟩ <;> rw [heq]
  · exact .refl s
  · exact ⟨rfl, rfl, rfl, rfl, rfl, [], rfl, by simp⟩

theorem wpaSupplicantGetPmk_quiet (pmkid : Option Bytes) (s : Sm) :
    Quiet s (wpaSupplicantGetPmk e pmkid s).2 := by
  rcases get_pmk_cases e pmkid s with ⟨p, a, -, heq⟩ | ⟨-, -, r, -, -, heq⟩ <;> rw [heq]
  · exact ⟨rfl, rfl, rfl, rfl, rfl, [], rfl, by simp⟩
  · exact ⟨rfl, rfl, rfl, rfl, rfl, [], rfl, by simp⟩

theorem setTptk_quiet (n : Bytes) (s : Sm) : Quiet s (setTptk c e n s) := by
  refine ⟨rfl, rfl, rfl, rfl, rfl, .newTptk s.pmk n s.snonce (setTptk c e n s).tptk ::
    ((wpaDerivePtk c e n s).pushed.map Out.pushed).toList, rfl, ?_⟩
  intro o ho
  rcases List.mem_cons.1 ho with rfl | ho
  · rfl
  · obtain ⟨b, -, rfl⟩ := mem_pushed ho
    rfl

/-! ## Quiet steps keep the invariant -/

theorem slotRule_quiet {o : Out} (h : o.quiet = true) : SlotRule o l := by
  cases o <;> trivial

theorem sinceAssoc_quiet {o : Out} (hl : ∀ o ∈ l, o.quiet = true) (h : SinceAssoc o l') :
    SinceAssoc o (l ++ l') := by
  refine Lib.since_append (fun x hx hr => ?_) h
  have := hl x hx
  cases x <;> simp_all [Out.quiet, Out.isAssoc]

/-- What is read off the trace and not off quiet entries is as before. -/
theorem latest_quiet {α : Type} {g : Out → Option α} (hg : ∀ o, o.quiet = true → g o = none)
    (hl : ∀ o ∈ l, o.quiet = true) : Lib.latest g (l ++ l') = Lib.latest g l' :=
  Lib.latest_append fun o ho => hg o (hl o ho)

theorem storedPtk_quiet (hl : ∀ o ∈ l, o.quiet = true) : storedPtk (l ++ l') = storedPtk l' := by
  refine congrArg (Option.getD · Ptk.zero) (latest_quiet (fun o ho => ?_) hl)
  cases o <;> first | rfl | cases ho

theorem driverTk_quiet (hl : ∀ o ∈ l, o.quiet = true) : driverTk (l ++ l') = driverTk l' := by
  refine congrArg Option.join (latest_quiet (fun o ho => ?_) hl)
  cases o <;> first | rfl | cases ho

theorem occupied_quiet (hl : ∀ o ∈ l, o.quiet = true) : occupied (l ++ l') = occupied l' := by
  refine congrArg (Option.getD · false) (latest_quiet (fun o ho => ?_) hl)
  cases o <;> first | rfl | cases ho

theorem lastGtk_quiet (hl : ∀ o ∈ l, o.quiet = true) : lastGtk (l ++ l') = lastGtk l' := by
  refine congrArg Option.join (latest_quiet (fun o ho => ?_) hl)
  cases o <;> first | rfl | cases ho

theorem TestKeys.quiet (hl : ∀ o ∈ l, o.quiet = true) (h : TestKeys l') : TestKeys (l ++ l') :=
  ⟨(storedPtk_quiet hl).trans h.1, (driverTk_quiet hl).trans h.2⟩

theorem Vacant.quiet (h : Vacant s.trace) (hq : Quiet s t) : Vacant t.trace := by
  obtain ⟨l, htr, hl⟩ := hq.trace
  rw [htr]
  exact h.imp ((occupied_quiet hl).trans ·) (sinceAssoc_quiet hl)

theorem SlotOK.quiet (h : SlotOK s) (hq : Quiet s t) : SlotOK t := by
  obtain ⟨l, htr, hl⟩ := hq.trace
  refine ⟨?_, ?_, ?_, fun ho => ?_, ?_⟩
  · rw [htr]
    exact Lib.always_append (fun o ho _ => slotRule_quiet (hl o ho)) h.always
  · rw [htr, storedPtk_quiet hl, hq.ptk, h.kck]
  · rw [htr, storedPtk_quiet hl, hq.ptk, h.kek]
  · rw [htr, occupied_quiet hl] at ho
    rw [htr, hq.ptkSet, hq.ptk]
    exact (h.set ho).imp (sinceAssoc_quiet hl) id
  · rw [htr, lastGtk_quiet hl, hq.gtk, h.gtk]

/-- **A disconnection** clears everything. -/
theorem SlotOK.lost (h : SlotOK s) : SlotOK (wpaSupplicantDeauthenticate s) :=
  ⟨⟨trivial, h.always⟩, rfl, rfl, nofun, rfl⟩

theorem slot_sends : Sends SlotOK SlotOK := sends_of_quiet (fun _ _ => SlotOK.quiet) (fun _ => id) fun _ => SlotOK.lost

theorem deauthenticate_slot (h : SlotOK s) : SlotOK s.deauthenticate := slot_sends.deauthenticate s h

/-- **Message 1/4** leaves the keys alone. -/
theorem process1Of4_slot (h : SlotOK s) : SlotOK (process1Of4 c e f s) :=
  slot_sends.process1Of4 (h.quiet (takePassphrase_quiet s)) (fun i t ht => ht.quiet (wpaSupplicantGetPmk_quiet i t))
    fun t _ ht => ht.quiet (setTptk_quiet _ t)

/-! ## Installing keys -/

/-- The machine once `wpa_supplicant_install_ptk` has written the test PTK. -/
def Sm.withTest (s : Sm) : Sm := { s with ptk := customTestPtk }.out (.wrotePtk .installPtk customTestPtk)

/-- **`wpa_supplicant_install_ptk`** of the WiFi copy. -/
theorem installPtk_cases (hl : c.link = .wifi) (e : Env) (s : Sm) :
    s.par.pairwiseCipher = .none ∧ installPtk c e s = (true, s.withTest) ∨
    installPtk c e s = (false, s.withTest) ∨
    e.setKey = false ∧ installPtk c e s =
      (false, s.withTest.out (.setKey .installPtk s.keyidxActive customTestPtk.tk false)) ∨
    e.setKey = true ∧ installPtk c e s =
      (true, ptkInstalled (s.withTest.out (.setKey .installPtk s.keyidxActive customTestPtk.tk true))) := by
  have hw : ptkToInstall c s = s.withTest := by
    unfold ptkToInstall
    rw [if_pos hl]
    rfl
  have hi : s.withTest.ptk.installed = false := rfl
  unfold installPtk
  simp only [hw, hi, Bool.false_eq_true, if_false]
  by_cases hc : s.withTest.par.pairwiseCipher = .none
  · exact .inl ⟨hc, by rw [if_pos hc]⟩
  rw [if_neg hc]
  by_cases hk : s.withTest.par.pairwiseCipher.keyLen ≠ s.withTest.ptk.tk.length
  · exact .inr (.inl (by rw [if_pos hk]))
  rw [if_neg hk]
  cases e.setKey with
  | false => exact .inr (.inr (.inl ⟨rfl, rfl⟩))
  | true => exact .inr (.inr (.inr ⟨rfl, rfl⟩))

/-- What `wpa_supplicant_install_ptk` leaves, for a cipher with a key. -/
theorem installPtk_slot (hl : c.link = .wifi) (hs : SlotOK s) (hv : Vacant s.trace)
    (hr : s.ptkSet = true ∨ SinceAssoc .micSkipped s.trace) :
    SlotOK (installPtk c e s).2 ∧ (installPtk c e s).2.par = s.par ∧
      (installPtk c e s).2.useExtKeyId = s.useExtKeyId ∧
      ((installPtk c e s).1 = true → s.par.pairwiseCipher.keyLen ≠ 0 →
        TestKeys (installPtk c e s).2.trace) := by
  have hskip : ∀ o, o.isAssoc = false → SinceAssoc .micSkipped s.trace →
      SinceAssoc .micSkipped (o :: .wrotePtk .installPtk customTestPtk :: s.trace) :=
    fun o ho h => .inr ⟨by simp [ho], .inr ⟨nofun, h⟩⟩
  have htest : SlotOK s.withTest := by
    refine ⟨⟨trivial, hs.always⟩, rfl, rfl, fun ho => ?_, hs.gtk⟩
    exact .inl (.inr ⟨nofun, hv.resolve_left fun h => absurd (h.symm.trans ho) Bool.false_ne_true⟩)
  have hrule : ∀ key ok, SlotRule (.setKey .installPtk s.keyidxActive key ok) s.withTest.trace :=
    fun _ _ => hv.imp id fun h => .inr ⟨nofun, h⟩
  rcases installPtk_cases hl e s with ⟨hc, heq⟩ | heq | ⟨-, heq⟩ | ⟨-, heq⟩ <;> rw [heq]
  · refine ⟨htest, rfl, rfl, fun _ h => absurd ?_ h⟩
    rw [hc]
    rfl
  · exact ⟨htest, rfl, rfl, nofun⟩
  · exact ⟨⟨⟨hrule _ _, htest.always⟩, rfl, rfl,
      fun ho => (htest.set ho).imp (fun h => .inr ⟨nofun, h⟩) id, hs.gtk⟩, rfl, rfl, nofun⟩
  · refine ⟨⟨⟨hrule _ _, htest.always⟩, rfl, rfl, fun _ => ?_, hs.gtk⟩, rfl, rfl, fun _ _ => ⟨rfl, rfl⟩⟩
    exact hr.elim (fun h => .inr ⟨h, rfl⟩) fun h => .inl (hskip _ rfl h)

/-- **`wpa_supplicant_install_gtk`** does not hand over the GTK it has handed over last. -/
theorem installGtk_slot (g : GtkKde) (hs : SlotOK s) :
    SlotOK (installGtk e g s).2 ∧ (installGtk e g s).2.par = s.par ∧
      (TestKeys s.trace → TestKeys (installGtk e g s).2.trace) ∧
      (Vacant s.trace → Vacant (installGtk e g s).2.trace) := by
  have hskip : ∀ o, o.isAssoc = false → SinceAssoc .micSkipped s.trace →
      SinceAssoc .micSkipped (o :: s.trace) := fun o ho h => .inr ⟨by simp [ho], h⟩
  have hvac : ∀ i g k ok, Vacant s.trace → Vacant (.setGroupKey .installGtk i g k ok :: s.trace) :=
    fun _ _ _ _ h => h.imp id (hskip _ rfl)
  have hlast : s.gtk ≠ g.gtk → lastGtk s.trace ≠ some g.gtk := by
    intro hne h
    rw [hs.gtk, h] at hne
    exact hne rfl
  rcases installGtk_cases e g s with ⟨-, heq⟩ | ⟨hne, key, ⟨-, heq⟩ | ⟨-, heq⟩⟩ <;> rw [heq]
  · exact ⟨hs, rfl, id, id⟩
  · exact ⟨⟨⟨hlast hne, hs.always⟩, hs.kck, hs.kek, fun ho => (hs.set ho).imp (hskip _ rfl) id, hs.gtk⟩,
      rfl, id, hvac _ _ _ _⟩
  · exact ⟨⟨⟨hlast hne, hs.always⟩, hs.kck, hs.kek, fun ho => (hs.set ho).imp (hskip _ rfl) id, rfl⟩,
      rfl, id, hvac _ _ _ _⟩

/-! ## Message 3/4 -/

theorem SlotOK.congr (h : SlotOK s) (h1 : t.trace = s.trace) (h2 : t.ptk = s.ptk)
    (h3 : t.ptkSet = s.ptkSet) (h4 : t.gtk = s.gtk) : SlotOK t :=
  ⟨h1 ▸ h.always, by rw [h1, h2, h.kck], by rw [h1, h2, h.kek],
    fun ho => by rw [h1, h2, h3]; exact h.set (h1 ▸ ho), by rw [h1, h4, h.gtk]⟩

/-- A frame may install a PTK: it has been verified under one, or taken without a MIC. -/
structure MayInstall (s : Sm) : Prop extends SlotOK s where
  vacant : Vacant s.trace
  ready : s.ptkSet = true ∨ SinceAssoc .micSkipped s.trace

theorem MayInstall.quiet (h : MayInstall s) (hq : Quiet s t) : MayInstall t := by
  refine ⟨h.toSlotOK.quiet hq, h.vacant.quiet hq, ?_⟩
  obtain ⟨l, htr, hl⟩ := hq.trace
  rw [htr, hq.ptkSet]
  exact h.ready.imp id (sinceAssoc_quiet hl)

/-- Where message 3/4 stands after its first install: with Extended Key ID the PTK has been
installed, otherwise it may be. -/
structure Msg3 (f : EapolKey) (s : Sm) : Prop where
  len : f.keyLength = s.par.pairwiseCipher.keyLen
  slot : SlotOK s
  keys : s.useExtKeyId = true ∧ (f.keyLength ≠ 0 → TestKeys s.trace) ∨
    s.useExtKeyId = false ∧ MayInstall s

theorem Msg3.quiet (h : Msg3 f s) (hq : Quiet s t) : Msg3 f t := by
  refine ⟨by rw [hq.par]; exact h.len, h.slot.quiet hq, ?_⟩
  rw [hq.ext]
  refine h.keys.imp (fun ⟨h1, h2⟩ => ⟨h1, fun hne => ?_⟩) fun ⟨h1, h2⟩ => ⟨h1, h2.quiet hq⟩
  obtain ⟨l, htr, hl⟩ := hq.trace
  rw [htr]
  exact (h2 hne).quiet hl

/-- What message 3/4 leaves when it asks for an install. -/
def Msg3Keys (f : EapolKey) (l : List Out) : Prop :=
  f.install = true → f.keyLength ≠ 0 → TestKeys l

theorem installFirst_slot (hl : c.link = .wifi) (h : MayInstall s)
    (hlen : f.keyLength = s.par.pairwiseCipher.keyLen) :
    Stage SlotOK (Msg3 f) (if s.useExtKeyId then installPtk c e s else (true, s)) := by
  by_cases hx : s.useExtKeyId = true
  · rw [if_pos hx]
    obtain ⟨h1, h2, h3, h4⟩ := installPtk_slot (e := e) hl h.toSlotOK h.vacant h.ready
    refine ⟨h1, fun hok => ⟨by rw [h2]; exact hlen, h1, .inl ⟨h3.trans hx, fun hne => ?_⟩⟩⟩
    exact h4 hok (hlen ▸ hne)
  · rw [if_neg hx]
    exact ⟨h.toSlotOK, fun _ => ⟨hlen, h.toSlotOK, .inr ⟨by simpa using hx, h⟩⟩⟩

/-- The end of message 3/4 is still ahead. -/
structure Msg3Done (f : EapolKey) (s : Sm) : Prop where
  slot : SlotOK s
  keys : Msg3Keys f s.trace

theorem installMsg3_slot (hl : c.link = .wifi) (h : Msg3 f s) :
    Stage SlotOK (Msg3Done f) (installMsg3 c e f s) := by
  unfold installMsg3
  split
  · rename_i hi
    refine ⟨h.slot, fun _ => ⟨h.slot, fun hi' => ?_⟩⟩
    rw [hi'] at hi
    cases hi
  rcases h.keys with ⟨hx, hk⟩ | ⟨hx, hm⟩
  · rw [if_pos hx]
    have hq : Quiet s (activatePtk e s).2 := .out rfl s
    refine ⟨h.slot.quiet hq, fun _ => ⟨h.slot.quiet hq, fun _ hne => ?_⟩⟩
    obtain ⟨l, htr, hl⟩ := hq.trace
    rw [htr]
    exact (hk hne).quiet hl
  · rw [if_neg (by simp [hx])]
    obtain ⟨h1, -, -, h4⟩ := installPtk_slot (e := e) hl hm.toSlotOK hm.vacant hm.ready
    exact ⟨h1, fun hok => ⟨h1, fun _ hne => h4 hok (h.len ▸ hne)⟩⟩

theorem gtkMsg3_slot (ie : Kde) (h : Msg3Done f s) : Msg3Done f (gtkMsg3 e ie s).2 := by
  rcases gtkMsg3_cases e ie s with heq | ⟨g, -, heq⟩ <;> rw [heq]
  · exact h
  · obtain ⟨h1, -, h3, -⟩ := installGtk_slot (e := e) g h.slot
    exact ⟨h1, fun hi hne => h3 (h.keys hi hne)⟩

/-- **Message 3/4.** -/
theorem process3Of4_slot (hl : c.link = .wifi) (h : MayInstall s) :
    SlotOK (process3Of4 c e f s) := by
  have hs : MayInstall { s with wpaState := .fourWayHandshake } :=
    h.quiet ⟨rfl, rfl, rfl, rfl, rfl, [], rfl, by simp⟩
  refine process3Of4_stages (A := fun _ => Msg3 f) (B := fun _ => Msg3 f) (D := fun _ => Msg3Done f)
    (fun _ => deauthenticate_slot) hs.toSlotOK ?_ ?_ ?_ ?_
  · intro ie t hchk
    obtain ⟨-, hlen, k, x, rfl⟩ := checkMsg3_cases hchk
    exact installFirst_slot hl ⟨hs.toSlotOK.congr rfl rfl rfl rfl, hs.vacant, hs.ready⟩ hlen
  · intro ie t ht
    have hu := ht.quiet (wpaEapolKeySend_quiet (c := c) (e := e) t.ptk (msg4 f t) t)
    exact ⟨hu.slot, fun _ => hu.quiet ⟨rfl, rfl, rfl, rfl, rfl, [], rfl, by simp⟩⟩
  · intro ie t ht
    obtain ⟨h1, h2⟩ := installMsg3_slot (e := e) hl ht
    exact ⟨h1, fun hok => ⟨(h2 hok).slot.congr rfl rfl rfl rfl, (h2 hok).keys⟩⟩
  · intro ie t ht
    obtain ⟨h1, h2⟩ := gtkMsg3_slot (e := e) ie ht
    refine ⟨h1, fun _ => ⟨⟨h2, h1.always⟩, h1.kck, h1.kek, fun ho => ?_, h1.gtk⟩⟩
    exact (h1.set ho).imp (fun h => .inr ⟨nofun, h⟩) id

/-! ## Received frames -/

theorem process1Of2_slot (hs : SlotOK s) : SlotOK (process1Of2 c e f s) :=
  slot_sends.process1Of2 (fun _ _ g _ _ ht => (installGtk_slot g ht).1) hs

/-- **The MIC check.** -/
theorem Taken.slot (h : Taken c f s t) (hs : SlotOK s) (hv : Vacant s.trace) :
    SlotOK t ∧ (f.hasMic = true → MayInstall t) := by
  have hskip : ∀ k, SinceAssoc .micSkipped s.trace →
      SinceAssoc .micSkipped (.micVerified k :: s.trace) := fun _ h => .inr ⟨nofun, h⟩
  cases h with
  | plain hm => exact ⟨hs, fun h => absurd h hm⟩
  | tptk =>
    -- `sm->tptk` takes the place of `sm->ptk`
    have hslot : SlotOK (takeReplayCounter f (promoteTptk s)) := by
      refine ⟨⟨trivial, hs.always⟩, rfl, rfl, fun ho => .inl (hskip _ ?_), hs.gtk⟩
      exact hv.resolve_left fun h => absurd (h.symm.trans ho) Bool.false_ne_true
    exact ⟨hslot, fun _ => ⟨hslot, hv.imp id (hskip _), .inl rfl⟩⟩
  | ptk _ hset =>
    have hslot : SlotOK (takeReplayCounter f (s.out (.micVerified s.ptk))) :=
      ⟨⟨trivial, hs.always⟩, rfl, rfl, fun ho => (hs.set ho).imp (hskip _) id, hs.gtk⟩
    exact ⟨hslot, fun _ => ⟨hslot, hv.imp id (hskip _), .inl hset⟩⟩

/-- **A received frame.** -/
theorem wpaSmRxEapol_slot (hl : c.link = .wifi) (hs : SlotOK s) : SlotOK (wpaSmRxEapol c e f s) := by
  rcases wpaSmRxEapol_received c e f s with heq | ⟨hdeaf, hr⟩
  · rw [heq]
    exact hs
  -- while a TK is in the driver no frame gets this far
  have hv : Vacant s.trace := by
    by_cases ho : occupied s.trace = true
    · exact .inr ((hs.set ho).resolve_right fun h => hdeaf ⟨hl, h⟩)
    · exact .inl (by simpa using ho)
  generalize wpaSmRxEapol c e f s = u at hr ⊢
  cases hr with
  | noted ht => exact (ht.slot hs hv).1
  | msg1 => exact process1Of4_slot hs
  | msg3 _ hm ht => exact process3Of4_slot hl (((verifyEapolKeyMic_taken hm ht).slot hs hv).2 hm)
  | unverified =>
    -- from here on a PTK may be installed again
    refine process3Of4_slot hl ⟨⟨⟨trivial, hs.always⟩, hs.kck, hs.kek, fun _ => ?_, hs.gtk⟩, ?_, ?_⟩
    · exact .inl (.inl rfl)
    · exact .inr (.inl rfl)
    · exact .inr (.inl rfl)
  | group ht => exact process1Of2_slot (ht.slot hs hv).1

/-! ## The other events -/

theorem clearKeys_slot (bssid : Addr) (hs : SlotOK s) : SlotOK (clearKeys bssid s) :=
  ⟨⟨trivial, hs.always⟩, rfl, rfl, nofun, rfl⟩

/-- `sm->ptk` is written by the rekey timer, the PTK TCP port or the fast path, and its TK may be
handed over. -/
theorem wrote_slot (site : Site) (h1 : site ≠ .installPtk) (ptk : Ptk) (hs : SlotOK s) :
    SlotOK (s.wrote site ptk) ∧ ∀ i key,
      SlotOK ((s.wrote site ptk).out (.setKey site i key false)) ∧
      SlotOK (ptkInstalled ((s.wrote site ptk).out (.setKey site i key true))) := by
  have hfree : occupied (.wrotePtk site ptk :: s.trace) = false := by
    cases site with
    | installPtk => exact absurd rfl h1
    | _ => rfl
  have hw : SlotOK (s.wrote site ptk) :=
    ⟨⟨trivial, hs.always⟩, rfl, rfl, fun ho => absurd (hfree.symm.trans ho) Bool.false_ne_true, hs.gtk⟩
  have hrule : ∀ i key ok, SlotRule (.setKey site i key ok) (s.wrote site ptk).trace := by
    intro i key ok
    cases site with
    | installPtk => exact absurd rfl h1
    | _ => trivial
  refine ⟨hw, fun i key => ⟨⟨⟨hrule _ _ _, hw.always⟩, rfl, rfl, fun ho => ?_, hs.gtk⟩,
    ⟨⟨hrule _ _ _, hw.always⟩, rfl, rfl, fun _ => .inr ⟨rfl, rfl⟩, hs.gtk⟩⟩⟩
  exact absurd (hfree.symm.trans ho) Bool.false_ne_true

theorem installCustomGtk_slot (hs : SlotOK s) : SlotOK (installCustomGtk e s) := by
  unfold installCustomGtk
  split
  · exact ⟨⟨trivial, hs.always⟩, hs.kck, hs.kek, fun ho => (hs.set ho).imp (fun h => .inr ⟨nofun, h⟩) id,
      hs.gtk⟩
  · exact hs

theorem wpaSmNotifyAssoc_slot (hl : c.link = .wifi) (bssid : Addr) (hs : SlotOK s) :
    SlotOK (wpaSmNotifyAssoc c e bssid s) := by
  have hc := clearKeys_slot bssid hs
  obtain ⟨hw, hset⟩ := wrote_slot .notifyAssoc nofun customTestPtk hc
  obtain ⟨hf, ht⟩ := hset 0 customTestPtk.tk
  rcases notifyAssoc_cases hl e bssid s with ⟨-, heq⟩ | ⟨-, -, heq | heq⟩ | ⟨-, heq⟩ <;> rw [heq]
  · exact hc
  · exact hw
  · exact hf
  · have hg : SlotOK (installCustomGtk e { ((clearKeys bssid s).wrote .notifyAssoc customTestPtk).out
        (.setKey .notifyAssoc 0 customTestPtk.tk true) with
          ptk := { customTestPtk with installed := true } }) :=
      installCustomGtk_slot ⟨ht.always, rfl, rfl, fun _ => .inr ⟨rfl, rfl⟩, hc.gtk⟩
    exact hg.congr rfl rfl rfl rfl

theorem wpaSmRekeyPtk_slot (hs : SlotOK s) : SlotOK (wpaSmRekeyPtk c e s) := by
  have hs' : SlotOK { s with rekeyTimer := false } := hs.congr rfl rfl rfl rfl
  unfold wpaSmRekeyPtk
  simp only
  split
  · obtain ⟨hw, hset⟩ := wrote_slot .rekeyPtk nofun customTestPtk hs'
    obtain ⟨hf, ht⟩ := hset s.keyidxActive customTestPtk.tk
    split
    · cases e.setKey with
      | false => exact slot_sends.keyRequest _ _ hf
      | true => exact ht
    · exact slot_sends.keyRequest _ _ hw
  · exact slot_sends.keyRequest _ _ hs'

theorem wpaSmPtkTcpHandler_slot (buf : Text) (hs : SlotOK s) : SlotOK (wpaSmPtkTcpHandler e buf s) := by
  rw [wpaSmPtkTcpHandler_match]
  split
  · exact hs
  · rename_i ptk _
    obtain ⟨hf, ht⟩ := (wrote_slot .ptkTcp nofun ptk hs).2 s.keyidxActive ptk.tk
    split
    · exact ht
    · exact hf

/-- **Every event keeps the invariant**, on the WiFi link. -/
theorem step_slot (hl : c.link = .wifi) {x : Event × Env} (hs : SlotOK s) (h : step c s x = some t) :
    SlotOK t := by
  obtain ⟨ev, e⟩ := x
  cases ev with
  | notifyAssoc bssid =>
    obtain rfl := Option.some.inj h
    exact wpaSmNotifyAssoc_slot hl bssid hs
  | notifyDisassoc =>
    obtain rfl := Option.some.inj h
    exact ⟨⟨trivial, hs.always⟩, rfl, rfl, nofun, rfl⟩
  | rxEapol f =>
    obtain rfl := Option.some.inj h
    exact wpaSmRxEapol_slot hl hs
  | rekeyPtk =>
    simp only [step] at h
    split at h
    · obtain rfl := Option.some.inj h
      exact wpaSmRekeyPtk_slot hs
    · cases h
  | ptkTcp buf =>
    simp only [step, if_pos hl] at h
    obtain rfl := Option.some.inj h
    exact wpaSmPtkTcpHandler_slot _ hs
  | keyRequest b b' =>
    obtain rfl := Option.some.inj h
    exact slot_sends.keyRequest _ _ hs
  | setPassphrase pass =>
    simp only [step] at h
    split at h
    · obtain rfl := Option.some.inj h
      exact hs.congr rfl rfl rfl rfl
    · cases h
  | setPmk | config | setState =>
    obtain rfl := Option.some.inj h
    exact hs.congr rfl rfl rfl rfl

/-- **What every run keeps**, on the WiFi link. -/
theorem run_slot (hl : c.link = .wifi) {par : Params} {es : List (Event × Env)}
    (h : run c (Sm.new par) es = some s) : SlotOK s := by
  have hnew : SlotOK (Sm.new par) := ⟨trivial, rfl, rfl, nofun, rfl⟩
  exact Lib.run_inv (fun _ _ _ hs hstep => step_slot hl hs hstep) hnew h

end Lightguard.Supp
