import Lightguard.Supp.Export

/-!
# Message 1/4 and the PMK

Message 1/4 is not authenticated. The LiFi copy takes a stored passphrase before it looks at anything
else, and `wpa_supplicant_get_pmk` may take the PMK of a cache entry after that.

* `Gets.unique`: what the lookup can end with is determined by what it is given.
* `process1Of4_ends`: a message is answered, or the station is left alone, asks for EAP, or disconnects.
-/

namespace Lightguard.Supp

open Wpa Rotation

variable {c : Conf} {e : Env} {f : EapolKey} {s t u : Sm} {i : Option Bytes} {pmk : Bytes}
  {cur : Option Pmksa}

/-! ## The lookup -/

theorem Gets.unique {pmk' : Bytes} {cur' : Option Pmksa} (h : Gets e i s pmk cur)
    (h' : Gets e i s pmk' cur') : pmk = pmk' ∧ cur = cur' := by
  cases h with
  | cached hf hid =>
    cases h' with
    | cached hf' _ =>
      obtain rfl := Option.some.inj (hf.symm.trans hf')
      exact ⟨rfl, rfl⟩
    | psk hn _ => exact absurd (named_of_found hf hid) hn
    | eap hn _ _ _ => exact absurd (named_of_found hf hid) hn
  | psk hn hx =>
    cases h' with
    | cached hf hid => exact absurd (named_of_found hf hid) hn
    | psk _ _ => exact ⟨rfl, rfl⟩
    | eap _ hx' _ _ => exact absurd (hx.symm.trans hx') Bool.false_ne_true
  | eap hn hx hk _ =>
    cases h' with
    | cached hf hid => exact absurd (named_of_found hf hid) hn
    | psk _ hx' => exact absurd (hx'.symm.trans hx) Bool.false_ne_true
    | eap _ _ hk' _ => exact ⟨Option.some.inj (hk.symm.trans hk'), rfl⟩

/-- The state that is reported is not looked at. -/
theorem gets_setState (st : WpaState) :
    Gets e i { s with wpaState := st } pmk cur ↔ Gets e i s pmk cur := by
  constructor
  · intro h
    cases h with
    | cached hf hid => exact .cached hf hid
    | psk hn hx => exact .psk hn hx
    | eap hn hx hk hnew => exact .eap hn hx hk hnew
  · intro h
    cases h with
    | cached hf hid => exact .cached hf hid
    | psk hn hx => exact .psk hn hx
    | eap hn hx hk hnew => exact .eap hn hx hk hnew

/-! ## What message 1/4 does -/

/-- A passphrase is stored and waits for message 1/4. -/
def PassPending (c : Conf) (s : Sm) : Prop :=
  c.link = .lifi ∧ s.pass.lifiPassphraseValid = true ∧ s.pass.ssid ≠ []

instance : Decidable (PassPending c s) := inferInstanceAs (Decidable (_ ∧ _ ∧ _))

/-- It is used up, and the PMK is derived from it. -/
def Sm.passTaken (c : Conf) (s : Sm) : Sm :=
  { s with
    pmk := c.pbkdf2 s.pass.lifiPassphrase s.pass.ssid 4096, curPmksa := none
    pass := { s.pass with lifiPassphraseValid := false } }

theorem takePassphrase_eq (c : Conf) (s : Sm) :
    takePassphrase c s = if PassPending c s then s.passTaken c else s := by
  split
  · rename_i h
    exact takePassphrase_valid h.1 h.2.1 h.2.2
  · rename_i h
    rcases takePassphrase_cases c s with heq | ⟨hl, hv, hn, -⟩
    · exact heq
    · exact absurd ⟨hl, hv, hn⟩ h

theorem takePassphrase_trace (c : Conf) (s : Sm) : (takePassphrase c s).trace = s.trace := by
  rcases takePassphrase_cases c s with heq | ⟨-, -, -, heq⟩ <;> rw [heq]

/-- The message gets as far as the lookup, with this PMKID. -/
def LooksUp (f : EapolKey) (s : Sm) (i : Option Bytes) : Prop :=
  s.par.network = true ∧
    ¬ (s.par.denyPtk0Rekey = true ∧ s.useExtKeyId = false ∧ s.wpaState = .completed) ∧
    ∃ ie, (if s.par.rsn then f.keyData.kde else some ⟨none, none, none, none, none⟩) = some ie ∧
      ie.pmkid = i

/-- Message 2/4 can be made with the PMK and sent. -/
structure CanAnswer (e : Env) (s : Sm) (pmk : Bytes) : Prop where
  random : s.renewSnonce = true → e.random ≠ none
  some_pmk : pmk ≠ []
  cipher : s.par.pairwiseCipher.keyLen ≠ 0
  prf : s.par.keyMgmt.prfFor pmk.length = true
  sent : e.sendOk = true

/-- The message can be answered: it gets to the lookup, which ends with a PMK for message 2/4. -/
def Answerable (e : Env) (f : EapolKey) (s : Sm) : Prop :=
  ∃ i pmk cur, LooksUp f s i ∧ Gets e i s pmk cur ∧ CanAnswer e s pmk

/-- It gets to the lookup, which asks for EAP. -/
def EapAsked (e : Env) (f : EapolKey) (s : Sm) : Prop :=
  ∃ i, LooksUp f s i ∧ (¬ ∃ pmk cur, Gets e i s pmk cur) ∧ AsksEap e i s

/-- Message 2/4 has been sent. -/
def Answered (s t : Sm) : Prop := ∃ g l, t.trace = .sent g :: (l ++ s.trace)

/-- The stored passphrase with its flag is as before. -/
structure SamePass (s t : Sm) : Prop where
  passphrase : t.pass.lifiPassphrase = s.pass.lifiPassphrase
  valid : t.pass.lifiPassphraseValid = s.pass.lifiPassphraseValid

theorem SamePass.of_eq (h : t.pass = s.pass) : SamePass s t := ⟨by rw [h], by rw [h]⟩

theorem SamePass.trans (h : SamePass s t) (h' : SamePass t u) : SamePass s u :=
  ⟨h'.passphrase.trans h.passphrase, h'.valid.trans h.valid⟩

/-- The PMK with its entry and the passphrase are as before. -/
structure Kept (s t : Sm) : Prop extends SamePass s t where
  pmk : t.pmk = s.pmk
  sa : t.curPmksa = s.curPmksa

/-- Nothing is sent where the last thing is something else. -/
theorem not_answered_of_head {o : Out} {l : List Out} (ht : t.trace = o :: l) (ho : ∀ g, o ≠ .sent g) :
    ¬ Answered s t := by
  rintro ⟨g, l', h⟩
  rw [ht] at h
  exact ho g (List.cons.inj h).1

/-- A disconnection is the last thing that happens. -/
theorem lost_not_answered (s t : Sm) : ¬ Answered s (wpaSupplicantDeauthenticate t) := by
  refine not_answered_of_head (o := .disassociated) (l := t.trace) rfl ?_
  intro g h
  cases h

theorem not_answered_of_trace (ht : t.trace = s.trace) : ¬ Answered s t := by
  rintro ⟨g, l, h⟩
  have := congrArg List.length (ht.symm.trans h)
  simp only [List.length_cons, List.length_append] at this
  omega

/-- The derivation succeeds for a PMK of a length that is in use. -/
theorem wpaDerivePtk_ret (n : Bytes) (s : Sm) : (wpaDerivePtk c e n s).ret < 0 ↔
    ¬ (s.pmk ≠ [] ∧ s.par.pairwiseCipher.keyLen ≠ 0 ∧ s.par.keyMgmt.prfFor s.pmk.length = true) := by
  unfold wpaDerivePtk wpaPmkToPtk
  by_cases h : s.pmk = [] ∨ s.par.pairwiseCipher.keyLen = 0 ∨ !s.par.keyMgmt.prfFor s.pmk.length
  · rw [if_pos h]
    refine iff_of_true (by decide) ?_
    rintro ⟨h1, h2, h3⟩
    simp [h1, h2, h3] at h
  · rw [if_neg h]
    simp only [not_or, Bool.not_eq_true, Bool.not_eq_false'] at h
    exact iff_of_false (lt_irrefl (0 : ℤ)) (not_not.2 h)

/-- A new SNonce needs random data. -/
theorem renewSnonce_none (h : renewSnonce e s = none) : s.renewSnonce = true ∧ e.random = none := by
  unfold renewSnonce at h
  split at h
  · rename_i hr
    exact ⟨hr, Option.map_eq_none_iff.1 h⟩
  · cases h

theorem renewSnonce_some (h : renewSnonce e s = some t) : t.pmk = s.pmk ∧ t.pass = s.pass ∧ t.par = s.par ∧
    t.trace = s.trace ∧ (s.renewSnonce = true → e.random ≠ none) := by
  obtain ⟨⟨n, b, rfl⟩, hr⟩ := renewSnonce_cases h
  exact ⟨rfl, rfl, rfl, rfl, hr⟩

/-- A PTK that has been derived has a KCK. -/
theorem setTptk_kck (hP : c.prims.Exact) (n : Bytes) (h : ¬ (wpaDerivePtk c e n s).ret < 0) :
    (setTptk c e n s).tptk.kck ≠ [] := by
  rw [wpaDerivePtk_ret, not_not] at h
  obtain ⟨h1, h2, h3⟩ := h
  have hder : (wpaDerivePtk c e n s).ptk = ptkOf c.prims s.par.keyMgmt s.par.pairwiseCipher c.ownAddr
      s.bssid s.pmk s.snonce n := by
    unfold wpaDerivePtk wpaPmkToPtk
    rw [if_neg (by simp [h1, h2, h3])]
  have hkck : (setTptk c e n s).tptk.kck = (wpaDerivePtk c e n s).ptk.kck := by
    unfold setTptk
    simp only
    split <;> rfl
  have hle := KeyMgmt.le_kckLen h3
  intro h0
  have hlen := congrArg List.length h0
  rw [hkck, hder, ptkOf, List.length_take, ptkTmp, hP, List.length_nil] at hlen
  omega

/-- The station is disconnected, with the passphrase that `s` had. -/
def Leaves (s t : Sm) : Prop := ∃ u, SamePass s u ∧ t = wpaSupplicantDeauthenticate u

theorem leaves_deauthenticate (h : t.pass = s.pass) : Leaves s t.deauthenticate :=
  ⟨t.out .deauthenticate, .of_eq h, rfl⟩

theorem leaves_reconnect (s : Sm) : Leaves s s.reconnect := ⟨s.out .reconnect, .of_eq rfl, rfl⟩

/-- **The answer** is sent when it can be; otherwise the station disconnects. -/
theorem answerMsg1_ends (hP : c.prims.Exact) (f : EapolKey) (s : Sm) :
    CanAnswer e s s.pmk ∧ Answered s (answerMsg1 c e f s) ∨
      ¬ CanAnswer e s s.pmk ∧ Leaves s (answerMsg1 c e f s) := by
  unfold answerMsg1
  cases hs : renewSnonce e s with
  | none =>
    obtain ⟨h1, h2⟩ := renewSnonce_none hs
    exact .inr ⟨fun h => h.random h1 h2, leaves_deauthenticate rfl⟩
  | some t =>
    obtain ⟨hpmk, hpass, hpar, htr, hrand⟩ := renewSnonce_some hs
    simp only
    by_cases hret : (wpaDerivePtk c e f.nonce t).ret < 0
    · rw [if_pos hret]
      refine .inr ⟨fun h => ?_, leaves_deauthenticate hpass⟩
      rw [wpaDerivePtk_ret, hpar, hpmk] at hret
      exact hret ⟨h.some_pmk, h.cipher, h.prf⟩
    rw [if_neg hret]
    have hkck : (setTptk c e f.nonce t).tptk.kck ≠ [] := setTptk_kck hP f.nonce hret
    -- there is a KCK, so only the link can refuse the frame
    have hsend : wpaEapolKeySend c e (setTptk c e f.nonce t).tptk (msg2 f t) (setTptk c e f.nonce t) =
        if e.sendOk then (true, (setTptk c e f.nonce t).out (.sent ⟨msg2 f t,
          if (msg2 f t).hasMic then c.prims.mic (setTptk c e f.nonce t).tptk.kck (msg2 f t)
          else List.replicate (setTptk c e f.nonce t).micLen 0⟩))
        else (false, setTptk c e f.nonce t) := by
      unfold wpaEapolKeySend
      rw [if_neg fun h => hkck h.2.2]
      cases e.sendOk <;> rfl
    rw [hsend]
    rw [wpaDerivePtk_ret, hpar, hpmk, not_not] at hret
    cases hok : e.sendOk with
    | false =>
      rw [if_neg Bool.false_ne_true, if_neg Bool.false_ne_true]
      refine .inr ⟨fun h => ?_, leaves_deauthenticate hpass⟩
      exact Bool.false_ne_true (hok.symm.trans h.sent)
    | true =>
      rw [if_pos rfl, if_pos rfl]
      refine .inl ⟨⟨hrand, hret.1, hret.2.1, hret.2.2, hok⟩, ?_⟩
      rw [Answered, ← htr]
      exact ⟨_, .newTptk t.pmk f.nonce t.snonce (setTptk c e f.nonce t).tptk ::
        ((wpaDerivePtk c e f.nonce t).pushed.map Out.pushed).toList, rfl⟩

/-- What a message does that gets as far as the lookup. -/
theorem process1Of4_lookup (h : LooksUp f (takePassphrase c s) i) :
    process1Of4 c e f s =
      match wpaSupplicantGetPmk e i { takePassphrase c s with wpaState := .fourWayHandshake } with
      | (.startEap, s) => s
      | (.failed, s) => s.deauthenticate
      | (.ok, s) => answerMsg1 c e f s := by
  obtain ⟨hnet, hdeny, ie, hie, rfl⟩ := h
  unfold process1Of4
  simp only
  generalize takePassphrase c s = t at hnet hdeny hie ⊢
  have hdeny' : ¬ (t.par.denyPtk0Rekey && !t.useExtKeyId && t.wpaState = .completed) = true := by
    simpa [and_assoc] using hdeny
  rw [if_neg (by simp [hnet]), if_neg hdeny', hie]
  rfl

/-- And what one does that does not. -/
theorem process1Of4_stopped (h : ¬ ∃ i, LooksUp f (takePassphrase c s) i) :
    (takePassphrase c s).par.network = false ∧ process1Of4 c e f s = takePassphrase c s ∨
      (takePassphrase c s).par.network = true ∧ (process1Of4 c e f s = (takePassphrase c s).reconnect ∨
        process1Of4 c e f s = Sm.deauthenticate { takePassphrase c s with wpaState := .fourWayHandshake }) := by
  unfold process1Of4
  simp only
  generalize takePassphrase c s = t at h ⊢
  cases hnet : t.par.network with
  | false => exact .inl ⟨rfl, rfl⟩
  | true =>
    rw [if_neg (by simp)]
    split
    · exact .inr ⟨rfl, .inl rfl⟩
    · rename_i hdeny
      have hdeny' : ¬ (t.par.denyPtk0Rekey = true ∧ t.useExtKeyId = false ∧ t.wpaState = .completed) := by
        simpa [and_assoc] using hdeny
      unfold takeMsg1
      split
      · exact .inr ⟨rfl, .inr rfl⟩
      · rename_i ie hie
        exact absurd ⟨ie.pmkid, hnet, hdeny', ie, hie, rfl⟩ h

theorem LooksUp.unique {i' : Option Bytes} (h : LooksUp f s i) (h' : LooksUp f s i') : i = i' := by
  obtain ⟨-, -, ie, hie, rfl⟩ := h
  obtain ⟨-, -, ie', hie', rfl⟩ := h'
  obtain rfl := Option.some.inj (hie.symm.trans hie')
  rfl

theorem EapAsked.not_answerable (h : EapAsked e f s) : ¬ Answerable e f s := by
  rintro ⟨i, pmk, cur, hi, hg, -⟩
  obtain ⟨i', hi', hno, -⟩ := h
  obtain rfl := hi.unique hi'
  exact hno ⟨pmk, cur, hg⟩

theorem EapAsked.network (h : EapAsked e f s) : s.par.network = true := by
  obtain ⟨i, hi, -⟩ := h
  exact hi.1

theorem Answerable.network (h : Answerable e f s) : s.par.network = true := by
  obtain ⟨i, _, _, hi, -⟩ := h
  exact hi.1

/-- **Where message 1/4 ends**, once the passphrase is taken over: there is no network context, the message
is answered, EAP is asked for, or the station disconnects. -/
theorem process1Of4_ends (hP : c.prims.Exact) (e : Env) (f : EapolKey) {s t : Sm} (ht : takePassphrase c s = t) :
    t.par.network = false ∧ process1Of4 c e f s = t ∨
    Answerable e f t ∧ Answered t (process1Of4 c e f s) ∨
    EapAsked e f t ∧ process1Of4 c e f s =
      { t with wpaState := .fourWayHandshake, pmk := failedPmk e t, curPmksa := none } ∨
    (t.par.network = true ∧ ¬ Answerable e f t ∧ ¬ EapAsked e f t) ∧ Leaves t (process1Of4 c e f s) := by
  subst ht
  by_cases hlook : ∃ i, LooksUp f (takePassphrase c s) i
  · obtain ⟨i, hi⟩ := hlook
    rw [process1Of4_lookup hi]
    generalize takePassphrase c s = t at hi ⊢
    rcases get_pmk_cases e i { t with wpaState := .fourWayHandshake } with
      ⟨pmk, cur, hg, heq⟩ | ⟨hng, -, r, hr, hask, heq⟩
    · have hgets := (gets_setState _).1 hg
      have heap : ¬ EapAsked e f t := by
        rintro ⟨i', hi', hno, -⟩
        obtain rfl := hi.unique hi'
        exact hno ⟨pmk, cur, hgets⟩
      rw [heq]
      rcases answerMsg1_ends (e := e) hP f
        { t with wpaState := .fourWayHandshake, pmk := pmk, curPmksa := cur } with ⟨hcan, hans⟩ | ⟨hno, hl⟩
      · refine .inr (.inl ⟨⟨i, pmk, cur, hi, hgets, ?_⟩, hans⟩)
        exact ⟨hcan.random, hcan.some_pmk, hcan.cipher, hcan.prf, hcan.sent⟩
      · refine .inr (.inr (.inr ⟨⟨hi.1, ?_, heap⟩, ?_⟩))
        · rintro ⟨i', pmk', cur', hi', hg', hcan⟩
          obtain rfl := hi.unique hi'
          obtain ⟨rfl, rfl⟩ := hgets.unique hg'
          exact hno ⟨hcan.random, hcan.some_pmk, hcan.cipher, hcan.prf, hcan.sent⟩
        · obtain ⟨u, hu, heq'⟩ := hl
          exact ⟨u, ⟨hu.passphrase, hu.valid⟩, heq'⟩
    · have hng' : ¬ ∃ pmk cur, Gets e i t pmk cur := by
        rintro ⟨pmk, cur, hg⟩
        exact hng ⟨pmk, cur, (gets_setState _).2 hg⟩
      rw [heq]
      cases r with
      | ok => exact absurd rfl hr
      | startEap => exact .inr (.inr (.inl ⟨⟨i, hi, hng', hask.1 rfl⟩, rfl⟩))
      | failed =>
        refine .inr (.inr (.inr ⟨⟨hi.1, ?_, ?_⟩, leaves_deauthenticate rfl⟩))
        · rintro ⟨i', pmk, cur, hi', hg, -⟩
          obtain rfl := hi.unique hi'
          exact hng' ⟨pmk, cur, hg⟩
        · rintro ⟨i', hi', -, hasks⟩
          obtain rfl := hi.unique hi'
          exact nomatch hask.2 hasks
  · rcases process1Of4_stopped (c := c) (e := e) hlook with h | ⟨hnet, hstop⟩
    · exact .inl h
    · refine .inr (.inr (.inr ⟨⟨hnet, ?_, ?_⟩, ?_⟩))
      · rintro ⟨i, _, _, hi, -⟩
        exact hlook ⟨i, hi⟩
      · rintro ⟨i, hi, -⟩
        exact hlook ⟨i, hi⟩
      · rcases hstop with heq | heq <;> rw [heq]
        · exact leaves_reconnect _
        · exact leaves_deauthenticate rfl

end Lightguard.Supp
