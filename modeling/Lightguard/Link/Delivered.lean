import Lightguard.Auth.Expiry
import Lightguard.Link.World

/-!
# A delivered PTK and the rekey timers

The PTK TCP ports of both ends have installed the same PTK; then the rekey timers expire.

* `staExpiries_keys`: what the station's timer leaves.
* `delivered_in_force`: the delivered PTK stays in force exactly when it is the test PTK, or as
  far as the timers get no key into a driver.
* `timer_replaces`: one expiry on one end is enough.
-/

namespace Lightguard.Link

open Wpa

variable {c : Conf} {i : Start} {w w' w'' : World} {es : List Event} {p : Ptk}

/-! ## The station's timer -/

section Sta

variable {cs : Supp.Conf} {e : Supp.Env} {s s' : Supp.Sm}

theorem driverTk_of_quiet (hq : Supp.Quiet s s') : Supp.driverTk s'.trace = Supp.driverTk s.trace := by
  obtain ⟨l, htr, hl⟩ := hq.trace
  rw [htr, Supp.driverTk_quiet hl]

/-- How often an association has started or ended. -/
def assocs (s : Supp.Sm) : ℕ := s.trace.countP Supp.Out.isAssoc

theorem assocs_of_quiet (hq : Supp.Quiet s s') : assocs s' = assocs s := by
  obtain ⟨l, htr, hl⟩ := hq.trace
  have hnone : l.countP Supp.Out.isAssoc = 0 := by
    refine List.countP_eq_zero.2 fun o ho => ?_
    have hquiet := hl o ho
    cases o <;> first | exact Bool.false_ne_true | cases hquiet
  rw [assocs, htr, List.countP_append, hnone, Nat.zero_add, assocs]

theorem assocs_of_undisturbed (hu : Supp.Undisturbed s s') : assocs s' = assocs s := by
  obtain ⟨l, htr, hl⟩ := hu
  have hnone : l.countP Supp.Out.isAssoc = 0 := List.countP_eq_zero.2 fun o ho => by simp [hl o ho]
  rw [assocs, htr, List.countP_append, hnone, Nat.zero_add, assocs]

/-- What the expiry of the timer leaves: the test KCK and KEK and, where the driver takes it, the test TK. -/
structure Expired (e : Supp.Env) (s s' : Supp.Sm) : Prop where
  kck : s'.ptk.kck = customTestPtk.kck
  kek : s'.ptk.kek = customTestPtk.kek
  par : s'.par = s.par
  assocs : assocs s' = assocs s
  tk : Supp.driverTk s'.trace =
    if e.setKey = true ∧ s.par.pairwiseCipher.keyLen = 16 then some customTestPtk.tk else Supp.driverTk s.trace

/-- **One expiry** on the station, which may give up its association when no key gets into the driver. -/
theorem staExpiry_keys (hl : cs.link = .wifi) (hv : s.par.pairwiseCipher ≠ .none)
    (h : Supp.step cs s (.rekeyPtk, e) = some s') :
    Expired e s s' ∨ s'.par.pairwiseCipher = s.par.pairwiseCipher ∧ assocs s < assocs s' := by
  have hvalid : s.par.pairwiseCipher.validPairwise = true := by simpa [Cipher.validPairwise] using hv
  -- the fallback asks for a new key and leaves the ones there are
  have hfall : ∀ t : Supp.Sm, t.ptk.kck = customTestPtk.kck → t.ptk.kek = customTestPtk.kek → t.par = s.par →
      assocs t = assocs s → Supp.driverTk t.trace = Supp.driverTk s.trace →
      ¬ (e.setKey = true ∧ s.par.pairwiseCipher.keyLen = 16) →
      Expired e s (Supp.wpaSmKeyRequest cs e false true t) ∨
        (Supp.wpaSmKeyRequest cs e false true t).par.pairwiseCipher = s.par.pairwiseCipher ∧
          assocs s < assocs (Supp.wpaSmKeyRequest cs e false true t) := by
    intro t hkck hkek hpar hassoc htk hno
    rcases Supp.wpaSmKeyRequest_cases cs e false true t with hq | heq
    · refine .inl ⟨hq.ptk ▸ hkck, hq.ptk ▸ hkek, hq.par.trans hpar, (assocs_of_quiet hq).trans hassoc, ?_⟩
      rw [if_neg hno, driverTk_of_quiet hq, htk]
    · have hcount : assocs t.reconnect = assocs t + 1 := List.countP_cons_of_pos rfl
      have hcipher : t.reconnect.par.pairwiseCipher = t.par.pairwiseCipher := rfl
      rw [heq, hcount, hassoc, hcipher, hpar]
      exact .inr ⟨rfl, Nat.lt_succ_self _⟩
  simp only [Supp.step] at h
  split at h
  · obtain rfl := Option.some.inj h
    unfold Supp.wpaSmRekeyPtk
    simp only [hl, hvalid, and_self, if_true, customTestPtk_tk_length]
    by_cases h16 : s.par.pairwiseCipher.keyLen = 16
    · simp only [h16, Nat.zero_lt_succ, and_self, if_true]
      cases hset : e.setKey with
      | true =>
        exact .inl ⟨rfl, rfl, rfl, rfl, (if_pos (And.intro hset h16)).symm⟩
      | false => exact hfall _ rfl rfl rfl rfl rfl fun h => Bool.false_ne_true (hset.symm.trans h.1)
    · rw [if_neg fun h => h16 h.2]
      exact hfall _ rfl rfl rfl rfl rfl fun h => h16 h.2
  · cases h

/-- The expiries keep the cipher or end the association. -/
theorem staExpiries_assocs (hl : cs.link = .wifi) (hv : s.par.pairwiseCipher ≠ .none) {envs : List Supp.Env}
    (h : Supp.run cs s (envs.map (.rekeyPtk, ·)) = some s') : assocs s ≤ assocs s' := by
  have hall : s'.par.pairwiseCipher = s.par.pairwiseCipher ∧ assocs s ≤ assocs s' := by
    refine Lib.run_inv_mem (I := fun u => u.par.pairwiseCipher = s.par.pairwiseCipher ∧ assocs s ≤ assocs u) ?_
      ⟨rfl, le_rfl⟩ h
    rintro u x hx t ⟨hpar, hle⟩ hstep
    obtain ⟨e, -, rfl⟩ := List.mem_map.1 hx
    rcases staExpiry_keys hl (hpar ▸ hv) hstep with hex | ⟨hcipher, hlt⟩
    · exact ⟨(congrArg Supp.Params.pairwiseCipher hex.par).trans hpar, hle.trans hex.assocs.ge⟩
    · exact ⟨hcipher.trans hpar, hle.trans hlt.le⟩
  exact hall.2

/-- **Any number of expiries** on the station. -/
theorem staExpiries_keys (hl : cs.link = .wifi) (hv : s.par.pairwiseCipher ≠ .none)
    {envs : List Supp.Env} (h : Supp.run cs s (envs.map (.rekeyPtk, ·)) = some s') (hu : assocs s' = assocs s) :
    s'.ptk.kck = (if envs = [] then s.ptk.kck else customTestPtk.kck) ∧
      s'.ptk.kek = (if envs = [] then s.ptk.kek else customTestPtk.kek) ∧
      Supp.driverTk s'.trace =
        if (∃ e ∈ envs, e.setKey = true) ∧ s.par.pairwiseCipher.keyLen = 16 then
          some customTestPtk.tk
        else Supp.driverTk s.trace := by
  induction envs generalizing s with
  | nil =>
    obtain rfl : s = s' := by simpa using h
    simp
  | cons e envs ih =>
    obtain ⟨s₁, h1, h2⟩ := Lib.run_cons.1 h
    rcases staExpiry_keys hl hv h1 with ⟨hkck, hkek, hpar, hassoc, htk⟩ | ⟨hcipher, hlt⟩
    · obtain ⟨hkck', hkek', htk'⟩ := ih (by rw [hpar]; exact hv) h2 (hu.trans hassoc.symm)
      refine ⟨?_, ?_, ?_⟩
      · rw [hkck', hkck, ite_self, if_neg (List.cons_ne_nil e envs)]
      · rw [hkek', hkek, ite_self, if_neg (List.cons_ne_nil e envs)]
      · rw [htk', htk, hpar]
        by_cases h16 : s.par.pairwiseCipher.keyLen = 16
        · by_cases he : e.setKey = true
          · simp [h16, he]
          · simp [h16, he]
        · simp [h16]
    · have hle := staExpiries_assocs hl (hcipher ▸ hv) h2
      omega

end Sta

/-! ## A delivered PTK -/

/-- The PTK TCP handlers of both ends install `p`. -/
structure Delivers (c : Conf) (p : Ptk) (w w' : World) : Prop where
  ap : ∃ buf e, Auth.step c.ap w.1 (.ptkTcp buf, e) = some w'.1 ∧ e.setKey = true ∧
    w.1.neg.pairwise ≠ .none ∧ decodePtk w.1.neg.pairwise.keyLen (buf.take ptkTcpRecvMax) = some p
  sta : ∃ buf e, Supp.step c.sta w.2 (.ptkTcp buf, e) = some w'.2 ∧ e.setKey = true ∧
    w.2.par.pairwiseCipher ≠ .none ∧
      decodePtk w.2.par.pairwiseCipher.keyLen (buf.take ptkTcpRecvMax) = some p

/-- Both drivers hold the TK of `p`. -/
structure TkInForce (p : Ptk) (w : World) : Prop where
  ap : Auth.driverTk w.1.trace = some p.tk
  sta : Supp.driverTk w.2.trace = some p.tk

/-- `p` is the pairwise key in use on both ends: its TK in the drivers, its KCK and KEK in the
daemons. -/
structure InForce (p : Ptk) (w : World) : Prop extends TkInForce p w where
  apKck : w.1.ptk.kck = p.kck
  apKek : w.1.ptk.kek = p.kek
  staKck : w.2.ptk.kck = p.kck
  staKek : w.2.ptk.kek = p.kek

/-- What the AP's handler leaves. -/
theorem Delivers.apKeys (hd : Delivers c p w w') : w'.1.ptk = p ∧ w'.1.neg.pairwise ≠ .none ∧
    w'.1.neg.pairwise.keyLen = p.tk.length ∧ Auth.driverTk w'.1.trace = some p.tk := by
  obtain ⟨buf, e, hstep, hk, hv, hdec⟩ := hd.ap
  have hlen := (decodePtk_length hdec).2.2.1
  have hvalid : w.1.neg.pairwise.validPairwise = true := by simpa [Cipher.validPairwise] using hv
  simp only [Auth.step] at hstep
  split at hstep
  · simp only [Auth.wpaAuthInstallCustomPtkCb_match, hvalid, hdec, hk, if_true] at hstep
    have hw := Option.some.inj hstep
    rw [← hw]
    exact ⟨rfl, hv, hlen.symm, rfl⟩
  · cases hstep

/-- What the station's handler leaves. -/
theorem Delivers.staKeys (hd : Delivers c p w w') : w'.2.ptk.kck = p.kck ∧ w'.2.ptk.kek = p.kek ∧
    w'.2.par.pairwiseCipher ≠ .none ∧ w'.2.par.pairwiseCipher.keyLen = p.tk.length ∧
      Supp.driverTk w'.2.trace = some p.tk := by
  obtain ⟨buf, e, hstep, hk, hv, hdec⟩ := hd.sta
  have hlen := (decodePtk_length hdec).2.2.1
  have hvalid : w.2.par.pairwiseCipher.validPairwise = true := by
    simpa [Cipher.validPairwise] using hv
  simp only [Supp.step] at hstep
  split at hstep
  · simp only [Supp.wpaSmPtkTcpHandler_match, hvalid, hdec, hk, if_true] at hstep
    have hw := Option.some.inj hstep
    rw [← hw]
    exact ⟨rfl, rfl, hv, hlen.symm, rfl⟩
  · cases hstep

/-- An expiry of the rekey timer on one of the ends. -/
def expiry : Auth.Env ⊕ Supp.Env → Event
  | .inl e => .inl (.rekeyPtk, e)
  | .inr e => .inr (.rekeyPtk, e)

/-- The driver takes a key at this expiry. -/
def takes : Auth.Env ⊕ Supp.Env → Bool
  | .inl e => e.setKey
  | .inr e => e.setKey

theorem apExpiries (xs : List (Auth.Env ⊕ Supp.Env)) :
    (xs.map expiry).filterMap Sum.getLeft? = (xs.filterMap Sum.getLeft?).map (.rekeyPtk, ·) := by
  induction xs with
  | nil => rfl
  | cons x xs ih =>
    cases x with
    | inl e => exact congrArg ((.rekeyPtk, e) :: ·) ih
    | inr e => exact ih

theorem staExpiries (xs : List (Auth.Env ⊕ Supp.Env)) :
    (xs.map expiry).filterMap Sum.getRight? = (xs.filterMap Sum.getRight?).map (.rekeyPtk, ·) := by
  induction xs with
  | nil => rfl
  | cons x xs ih =>
    cases x with
    | inl e => exact ih
    | inr e => exact congrArg ((.rekeyPtk, e) :: ·) ih

/-- The keys of both ends after the expiries. -/
theorem expiries_leave (hc : c.Wifi) (h : run c i.world es = some w) (hd : Delivers c p w w')
    {xs : List (Auth.Env ⊕ Supp.Env)} (hr : run c w' (xs.map expiry) = some w'')
    (hu : Auth.Undisturbed w'.1 w''.1) (hus : Supp.Undisturbed w'.2 w''.2) :
    (w''.1.ptk = if xs.filterMap Sum.getLeft? = [] then p else customTestPtk) ∧
    (w''.2.ptk.kck = if xs.filterMap Sum.getRight? = [] then p.kck else customTestPtk.kck) ∧
    (w''.2.ptk.kek = if xs.filterMap Sum.getRight? = [] then p.kek else customTestPtk.kek) ∧
    (Auth.driverTk w''.1.trace =
      if (∃ e ∈ xs.filterMap Sum.getLeft?, e.setKey = true) ∧ p.tk.length = 16 then
        some customTestPtk.tk else some p.tk) ∧
    (Supp.driverTk w''.2.trace =
      if (∃ e ∈ xs.filterMap Sum.getRight?, e.setKey = true) ∧ p.tk.length = 16 then
        some customTestPtk.tk else some p.tk) := by
  have hends := Ends.of_run hc h
  obtain ⟨hptk, hv, hlen, htk⟩ := hd.apKeys
  obtain ⟨hkck, hkek, hv', hlen', htk'⟩ := hd.staKeys
  obtain ⟨buf, e, hstep, -⟩ := hd.ap
  obtain ⟨hacts, hrest⟩ := Auth.step_acts hends.rest hstep
  have hstored := Auth.acts_stored hends.stored hacts
  have hrunA := Lib.run_fst hr
  have hrunS := Lib.run_snd hr
  rw [apExpiries] at hrunA
  rw [staExpiries] at hrunS
  obtain ⟨h1, h2⟩ := Auth.expiries_keys hc.ap hrest hstored hv hrunA hu
  obtain ⟨h3, h4, h5⟩ := staExpiries_keys hc.sta hv' hrunS (assocs_of_undisturbed hus)
  rw [hptk] at h1
  rw [hlen, htk] at h2
  rw [hkck] at h3
  rw [hkek] at h4
  rw [hlen', htk'] at h5
  exact ⟨h1, h3, h4, h2, h5⟩

/-- **When a delivered PTK stays in force.** Both ends of a WiFi link have installed `p`; then
only rekey timers expire, and neither a disconnection nor a 4-way handshake is in between.
`p` is still in force exactly when no timer has expired at all, or its KCK and KEK are those
of the test PTK and its TK is too or no driver took a key of 16 octets. The TKs alone stay
in force exactly under the second half of that. -/
theorem delivered_in_force (hc : c.Wifi) (h : run c i.world es = some w) (hd : Delivers c p w w')
    {xs : List (Auth.Env ⊕ Supp.Env)} (hr : run c w' (xs.map expiry) = some w'')
    (hu : Auth.Undisturbed w'.1 w''.1) (hus : Supp.Undisturbed w'.2 w''.2) :
    (InForce p w'' ↔ xs = [] ∨ (p.kck = customTestPtk.kck ∧ p.kek = customTestPtk.kek) ∧
      (p.tk = customTestPtk.tk ∨ ∀ x ∈ xs, takes x = true → p.tk.length ≠ 16)) ∧
    (TkInForce p w'' ↔
      p.tk = customTestPtk.tk ∨ ∀ x ∈ xs, takes x = true → p.tk.length ≠ 16) := by
  obtain ⟨hptk, hkck, hkek, hap, hsta⟩ := expiries_leave hc h hd hr hu hus
  have htk : TkInForce p w'' ↔
      p.tk = customTestPtk.tk ∨ ∀ x ∈ xs, takes x = true → p.tk.length ≠ 16 := by
    constructor
    · intro hf
      by_cases heq : p.tk = customTestPtk.tk
      · exact .inl heq
      -- an expiry that a driver takes leaves the test TK in it
      · refine .inr fun x hx ht h16 => heq ?_
        cases x with
        | inl e =>
          rw [if_pos ⟨⟨e, List.mem_filterMap.2 ⟨_, hx, rfl⟩, ht⟩, h16⟩, hf.ap] at hap
          exact Option.some.inj hap
        | inr e =>
          rw [if_pos ⟨⟨e, List.mem_filterMap.2 ⟨_, hx, rfl⟩, ht⟩, h16⟩, hf.sta] at hsta
          exact Option.some.inj hsta
    · rintro (heq | hnone)
      · rw [← heq, ite_self] at hap hsta
        exact ⟨hap, hsta⟩
      · rw [if_neg] at hap hsta
        · exact ⟨hap, hsta⟩
        · rintro ⟨⟨e, he, ht⟩, h16⟩
          obtain ⟨x, hx, hxe⟩ := List.mem_filterMap.1 he
          exact hnone x hx (by rw [Sum.getRight?_eq_some_iff.1 hxe]; exact ht) h16
        · rintro ⟨⟨e, he, ht⟩, h16⟩
          obtain ⟨x, hx, hxe⟩ := List.mem_filterMap.1 he
          exact hnone x hx (by rw [Sum.getLeft?_eq_some_iff.1 hxe]; exact ht) h16
  refine ⟨⟨fun hf => ?_, fun hcond => ?_⟩, htk⟩
  · cases xs with
    | nil => exact .inl rfl
    | cons x xs =>
      -- the expiry at one end puts the test KCK and KEK there
      refine .inr ⟨?_, htk.1 hf.toTkInForce⟩
      cases x with
      | inl e =>
        rw [if_neg (by simp)] at hptk
        exact ⟨by rw [← hf.apKck, hptk], by rw [← hf.apKek, hptk]⟩
      | inr e =>
        rw [if_neg (by simp)] at hkck hkek
        exact ⟨by rw [← hf.staKck, hkck], by rw [← hf.staKek, hkek]⟩
  · rcases hcond with rfl | ⟨⟨h1, h2⟩, h3⟩
    · exact ⟨htk.2 (.inr (by simp)), by rw [hptk]; rfl, by rw [hptk]; rfl, hkck, hkek⟩
    · refine ⟨htk.2 h3, ?_, ?_, ?_, ?_⟩
      · rw [hptk]; split
        · rfl
        · exact h1.symm
      · rw [hptk]; split
        · rfl
        · exact h2.symm
      · rw [hkck, h1, ite_self]
      · rw [hkek, h2, ite_self]

/-- Both ends take the fast path. -/
def plainFast : List Event :=
  [.inr (.notifyAssoc Addr.first, Supp.calm), .inl (.staAssociated, Auth.calm)]

/-- A PTK is delivered, and then the timer of one end expires. -/
theorem plain_delivered : ∃ w w' w'', run (plainConf .wifi) plainStart.world plainFast = some w ∧
    Delivers (plainConf .wifi) plainKeys w w' ∧
    run (plainConf .wifi) w' [expiry (.inl Auth.calm)] = some w'' ∧
    Auth.Undisturbed w'.1 w''.1 ∧ Supp.Undisturbed w'.2 w''.2 ∧
      Auth.driverTk w''.1.trace = some customTestPtk.tk := by
  have hcalm : ∀ o ∈ [Auth.Out.setKey .rekeyPtk 0 customTestPtk.tk true, .newPtk .fork customTestPtk],
      o.disturbs = false := by simp [Auth.Out.disturbs]
  exact ⟨_, (_, _), _, rfl, ⟨⟨plainHex, Auth.calm, rfl, rfl, (by rintro ⟨⟩), rfl⟩,
    ⟨plainHex, Supp.calm, rfl, rfl, (by rintro ⟨⟩), rfl⟩⟩, rfl, ⟨_, rfl, hcalm⟩,
    ⟨([] : List Supp.Out), rfl, by simp⟩, rfl⟩

/-- `delivered_in_force` for a delivered PTK and one expiry. -/
theorem delivered_in_force_plain : ∃ w w' w'',
    run (plainConf .wifi) plainStart.world plainFast = some w ∧
    Delivers (plainConf .wifi) plainKeys w w' ∧
    run (plainConf .wifi) w' [expiry (.inl Auth.calm)] = some w'' ∧ ¬ InForce plainKeys w'' := by
  obtain ⟨w, w', w'', hw, hd, hr, hu, hus, -⟩ := plain_delivered
  refine ⟨w, w', w'', hw, hd, hr, ?_⟩
  have hr' : run (plainConf .wifi) w' ([.inl Auth.calm].map expiry) = some w'' := hr
  rw [(delivered_in_force (i := plainStart) plainConf_wifi hw hd hr' hu hus).1]
  rintro (h | ⟨⟨h, -⟩, -⟩)
  · cases h
  · exact absurd h (by decide)

/-- One expiry on one end takes the delivered PTK out of force. -/
theorem timer_replaces : ¬ ∀ (c : Conf) (i : Start) (es : List Event) (w w' w'' : World) (p : Ptk)
    (xs : List (Auth.Env ⊕ Supp.Env)), c.Wifi → run c i.world es = some w → Delivers c p w w' →
      run c w' (xs.map expiry) = some w'' → Auth.Undisturbed w'.1 w''.1 → Supp.Undisturbed w'.2 w''.2 →
        InForce p w'' := by
  intro hall
  obtain ⟨w, w', w'', hw, hd, hr, hu, hus, htk⟩ := plain_delivered
  have hf := hall _ plainStart _ w w' w'' plainKeys [.inl Auth.calm] plainConf_wifi hw hd hr hu hus
  rw [hf.ap] at htk
  exact absurd htk (by decide)

end Lightguard.Link
