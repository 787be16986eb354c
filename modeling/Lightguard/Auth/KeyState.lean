import Lightguard.Auth.Slots

/-!
# The key state of the WiFi authenticator

`sm->PTK`, PTK_valid, pairwise_set and the key in the driver are written by six operations, most
of them before the driver has answered.

* `KeyState`: a valid PTK has a TK of the cipher's length, and in PTKINITDONE it is the TK the
  driver has taken last.
* `KeyInv`: the invariant of one round of `wpa_sm_step`, with Extended Key ID's early key.
* `smRound_key`: a round keeps it, and restores it from a state with a request.
* `Sound`: the steps that keep it; `step_key`, `key_state`.
-/

namespace Lightguard.Auth

open Wpa

variable {c : Conf} {ev : Event} {e : Env} {f : EapolKey} {s s' t : Sm} {l l' : List Out}

/-- A valid PTK has a TK of the length the cipher asks for. -/
def LenOK (s : Sm) : Prop := s.ptkValid = true → s.ptk.tk.length = s.neg.pairwise.keyLen

/-- The driver has taken the TK in `sm->PTK` last, while the PTK is valid. -/
def HasTk (s : Sm) : Prop := s.ptkValid = true → driverTk s.trace = some s.ptk.tk

/-- No rekey is pending: the machine is in PTKINITDONE and nothing is asked of it. In all other
states it negotiates a PTK or takes the station down. -/
structure NoRekey (s : Sm) : Prop extends NoRequest s where
  done : s.state = .ptkinitdone

/-- **The key state.** -/
structure KeyState (s : Sm) : Prop where
  len : LenOK s
  held : NoRekey s → s.pairwiseSet = true → HasTk s

/-! ## One round -/

/-- What holds of a machine with a request as well. -/
structure KeyBase (s : Sm) : Prop where
  pair : s.pairwiseSet = true → s.pair = true
  ext : s.neg.useExtKeyId = true → s.neg.wpa2 = true

/-- The invariant of a round. -/
structure KeyInv (s : Sm) : Prop extends KeyBase s where
  len : LenOK s
  held : s.state = .ptkinitdone → s.pairwiseSet = true → HasTk s
  /-- With Extended Key ID the driver gets the key before message 3/4. -/
  early : s.state = .ptkinitnegotiating → s.neg.useExtKeyId = true → HasTk s
  calc2 : s.state = .ptkcalcnegotiating2 → s.timeoutCtr = 0

theorem KeyInv.keyState (h : KeyInv s) : KeyState s := ⟨h.len, fun hn => h.held hn.done⟩

theorem driverTk_inert (hl : ∀ o ∈ l, o.inert = true) : driverTk (l ++ l') = driverTk l' := by
  rw [driverTk, Lib.latest_append, driverTk]
  intro o ho
  have := hl o ho
  cases o <;> simp_all [Out.inert]

theorem Same.driverTk (h : Same s t) : driverTk t.trace = driverTk s.trace := by
  obtain ⟨l, hl, hi⟩ := h.trace
  rw [hl, driverTk_inert hi]

theorem Same.hasTk (h : Same s t) (hs : HasTk s) : HasTk t := by
  unfold HasTk
  rw [h.driverTk, h.valid, h.ptk]
  exact hs

theorem Same.lenOK (h : Same s t) (hs : LenOK s) : LenOK t := by
  unfold LenOK
  rw [h.valid, h.ptk, h.neg]
  exact hs

theorem KeyBase.same (hs : KeyBase s) (h : Same s t) : KeyBase t :=
  ⟨by rw [h.set, h.pair]; exact hs.pair, by rw [h.neg]; exact hs.ext⟩

theorem KeyInv.same (hs : KeyInv s) (h : Same s t) : KeyInv t where
  toKeyBase := hs.toKeyBase.same h
  len := h.lenOK hs.len
  held h1 h2 := h.hasTk (hs.held (h.state ▸ h1) (h.set ▸ h2))
  early h1 h2 := h.hasTk (hs.early (h.state ▸ h1) (h.neg ▸ h2))
  calc2 h1 := h.timeoutCtr.trans (hs.calc2 (h.state ▸ h1))

/-- Without a valid PTK nothing is asked of the driver. -/
theorem KeyBase.invalid (h : KeyBase s) (hv : s.ptkValid = false)
    (hc : s.state = .ptkcalcnegotiating2 → s.timeoutCtr = 0) : KeyInv s :=
  have hno : ¬ s.ptkValid = true := by simp [hv]
  ⟨h, fun h => absurd h hno, fun _ _ h => absurd h hno, fun _ _ h => absurd h hno, hc⟩

theorem KeyBase.plain (h : KeyBase s) (hp : Plain e s t) (hpair : s.pair = true → t.pair = true) :
    KeyBase t :=
  ⟨fun hs => hpair (h.pair (hp.set hs)), hp.neg ▸ h.ext⟩

theorem LenOK.plain (h : LenOK s) (hp : Plain e s t) : LenOK t := by
  intro hv
  obtain ⟨h1, h2⟩ := hp.ptk hv
  rw [h2, hp.neg]
  exact h h1

/-- A state before message 2/4 needs no more than the length. -/
theorem Early.key (h : Early e s t) (hb : KeyBase s) (hl : LenOK s) : KeyInv t where
  toKeyBase := hb.plain h.toPlain h.pair
  len := hl.plain h.toPlain
  held hd := absurd hd h.notDone
  early hd := by have := h.early; rw [hd] at this; cases this
  calc2 hd := by have := h.early; rw [hd] at this; cases this

theorem enterPtkcalcnegotiating_key (hP : c.prims.Exact) (h : KeyInv s) :
    KeyInv (enterPtkcalcnegotiating c e s) := by
  obtain ⟨hst, -, hpair⟩ := enterPtkcalcnegotiating_state (c := c) (e := e) s
  have hbase : KeyBase (enterPtkcalcnegotiating c e s) ∧ LenOK (enterPtkcalcnegotiating c e s) := by
    rcases enterPtkcalcnegotiating_cases c e s with ⟨pmk, ptk, hf, -, heq⟩ | ⟨-, hp⟩
    · rw [heq]
      refine ⟨⟨h.pair, h.ext⟩, fun _ => ?_⟩
      obtain ⟨-, -, rfl⟩ := calcSearch_found hf
      exact ptkOf_tk_length hP _ _ _ _ _ _ _
    · have hb : KeyBase (calcSearched c e s) := ⟨h.pair, h.ext⟩
      have hl : LenOK (calcSearched c e s) := h.len
      exact ⟨hb.plain hp fun hs => hpair.trans hs, hl.plain hp⟩
  have hne : ∀ st, st ≠ .ptkcalcnegotiating → (enterPtkcalcnegotiating c e s).state ≠ st := by
    rintro st hne rfl
    exact hne hst
  exact ⟨hbase.1, hbase.2, fun h => absurd h (hne _ nofun), fun h => absurd h (hne _ nofun),
    fun h => absurd h (hne _ nofun)⟩

/-- The TK the driver is given for a PTK of the right length. -/
theorem tkBuf_of_len (h : LenOK s) (hv : s.ptkValid = true) :
    s.ptk.tkBuf s.neg.pairwise.keyLen = s.ptk.tk := by
  rw [← h hv]
  exact Ptk.tkBuf_length

/-- **PTKINITNEGOTIATING** hands the key over first when Extended Key ID is used. -/
theorem enterPtkinitnegotiating_key (hn : 0 < c.pairwiseUpdateCount) (h : KeyInv s)
    (hs : s.state = .ptkcalcnegotiating2 ∨ s.state = .ptkinitnegotiating) :
    KeyInv (enterPtkinitnegotiating c e s) := by
  have hfirst : s.state = .ptkcalcnegotiating2 → s.timeoutCtr = 0 := h.calc2
  -- the machine before it sends: only the key in the driver is to be looked at
  have stay : (s.neg.useExtKeyId = true → HasTk s) → KeyInv { s.enter .ptkinitnegotiating with
      timeoutEvt := false, timeoutCtr := s.timeoutCtr + 1 } := fun hx =>
    ⟨⟨h.pair, h.ext⟩, h.len, nofun, fun _ hu => hx hu, nofun⟩
  have again : s.state = .ptkinitnegotiating → s.neg.useExtKeyId = true → HasTk s := h.early
  unfold enterPtkinitnegotiating
  simp only
  split
  · rename_i hr
    refine stay (again (hs.resolve_left fun h2 => ?_))
    rw [hfirst h2] at hr
    exact absurd hr.2 (by decide)
  split
  · rename_i hr
    refine stay (again (hs.resolve_left fun h2 => ?_))
    have : s.timeoutCtr + 1 > c.pairwiseUpdateCount := hr
    rw [hfirst h2] at this
    omega
  split
  · rename_i hx
    have hgive : ∀ i, KeyInv ({ s.enter .ptkinitnegotiating with
        timeoutEvt := false, timeoutCtr := s.timeoutCtr + 1 }.out
          (.setKey .ptkinitnegotiating i (s.ptk.tkBuf s.neg.pairwise.keyLen) true)) := fun i =>
      ⟨⟨h.pair, h.ext⟩, h.len, nofun, fun _ _ hv => congrArg some (tkBuf_of_len h.len hv), nofun⟩
    split
    · rename_i he
      rw [he]
      exact (hgive _).same (wpaSendEapol_same _ _)
    · refine KeyBase.invalid ⟨nofun, h.ext⟩ rfl nofun
  · rename_i hx
    refine (stay fun hu => ?_).same (wpaSendEapol_same _ _)
    refine again (hs.resolve_left fun h2 => hx ⟨h.ext hu, hu, ?_⟩) hu
    show s.timeoutCtr + 1 = 1
    rw [hfirst h2]

theorem portCalls_inert (site : Site) (n : Negotiated) : ∀ o ∈ portCalls site n, o.inert = true := by
  unfold portCalls
  split <;> simp [Out.inert]

/-- **PTKINITDONE** hands the key over, or the driver has it already. -/
theorem enterPtkinitdone_key (h : KeyInv s) (hd : EntersDone s) : KeyInv (enterPtkinitdone c e s) := by
  unfold enterPtkinitdone
  split
  · rename_i hp
    split
    · rename_i he
      refine ⟨⟨fun _ => hp, h.ext⟩, h.len, fun _ _ hv => ?_, nofun, nofun⟩
      have hv' : s.ptkValid = true := hv
      show driverTk (portCalls .ptkinitdone s.neg ++ (doneEntered e s).trace) = some s.ptk.tk
      rw [driverTk_inert (portCalls_inert _ _)]
      by_cases hx : s.neg.useExtKeyId = true
      · have htr : (doneEntered e s).trace = [.ptkinitdone s.ptk] ++ s.trace := by
          simp [doneEntered, doneKeys, hp, hx]
        rw [htr]
        exact h.early hd.state hx hv'
      · have htr : (doneEntered e s).trace = .setKey .ptkinitdone 0
            (s.ptk.tkBuf s.neg.pairwise.keyLen) true :: .ptkinitdone s.ptk :: s.trace := by
          simp [doneEntered, doneKeys, hp, hx, he]
        rw [htr]
        exact congrArg some (tkBuf_of_len h.len hv')
    · exact KeyBase.invalid ⟨nofun, h.ext⟩ rfl nofun
  · -- without Pair there is no key of this station in the driver
    rename_i hp
    exact ⟨⟨h.pair, h.ext⟩, h.len, fun _ hs => absurd (h.pair hs) hp, nofun, nofun⟩

/-- A state from which one round leads back to the invariant: there is a request, and what is
wrong goes with it. -/
inductive Restores (s : Sm) : Prop
  | inv (h : KeyInv s)
  | init (hb : KeyBase s) (h : s.init = true)
  | disconnect (hb : KeyBase s) (h : s.disconnect = true)
  | request (hb : KeyBase s) (hl : LenOK s) (h : ¬ NoRequest s)

/-- **A step of the PTK machine** keeps the invariant. -/
theorem smStepPtk_key (hP : c.prims.Exact) (hn : 0 < c.pairwiseUpdateCount) (h : KeyInv s) :
    KeyInv (smStepPtk c e s) := by
  have hmove := smStepPtk_move (c := c) (e := e) s
  generalize smStepPtk c e s = t at hmove ⊢
  cases hmove with
  | rest => exact h
  | early he => exact he.key h.toKeyBase h.len
  | search => exact enterPtkcalcnegotiating_key hP h
  | calc2 => exact ⟨⟨h.pair, h.ext⟩, h.len, nofun, nofun, fun _ => rfl⟩
  | negotiate _ hs => exact enterPtkinitnegotiating_key hn h hs
  | done hd => exact enterPtkinitdone_key h hd

/-- A step with a request leads to a state before message 2/4. -/
theorem smStepPtk_early (h : ¬ NoRequest s) : Early e s (smStepPtk c e s) := by
  have hmove := smStepPtk_move (c := c) (e := e) s
  generalize smStepPtk c e s = t at hmove ⊢
  cases hmove with
  | early he => exact he
  | rest hr => exact absurd hr h
  | search hs => exact absurd hs.toNoRequest h
  | calc2 hr => exact absurd hr h
  | negotiate hr => exact absurd hr h
  | done hd => exact absurd hd.toNoRequest h

/-- INITIALIZE and DISCONNECT take the PTK away. -/
theorem smStepPtk_removes (h : s.init = true ∨ s.disconnect = true) :
    (smStepPtk c e s).ptkValid = false := by
  unfold smStepPtk
  split
  · rfl
  rename_i hi
  rw [if_pos (h.resolve_left hi)]
  rfl

/-- **A round** keeps the invariant, and restores it. -/
theorem smRound_key (hP : c.prims.Exact) (hn : 0 < c.pairwiseUpdateCount) (h : Restores s) :
    KeyInv (smRound c e s) := by
  have key : ∀ t : Sm, Restores t → KeyInv (smStepPtk c e t) := by
    intro t ht
    have removed : KeyBase t → t.init = true ∨ t.disconnect = true → KeyInv (smStepPtk c e t) := by
      intro hb hr
      have hearly : Early e t (smStepPtk c e t) :=
        smStepPtk_early fun hno => hr.elim (by simp [hno.init]) (by simp [hno.disconnect])
      have hb' := hb.plain hearly.toPlain hearly.pair
      exact hb'.invalid (smStepPtk_removes hr) fun hs => by
        have := hearly.early
        rw [hs] at this
        cases this
    cases ht with
    | inv h => exact smStepPtk_key hP hn h
    | init hb h => exact removed hb (.inl h)
    | disconnect hb h => exact removed hb (.inr h)
    | request hb hl h => exact (smStepPtk_early h).key hb hl
  have hu : Restores s.unchanged := by
    cases h with
    | inv h => exact .inv (h.same (.of_trace rfl rfl))
    | init hb h => exact .init ⟨hb.pair, hb.ext⟩ h
    | disconnect hb h => exact .disconnect ⟨hb.pair, hb.ext⟩ h
    | request hb hl h => exact .request ⟨hb.pair, hb.ext⟩ hl fun hno => h (hno.of rfl)
  exact (key _ hu).same (smStepPtkGroup_same _)

/-- **`wpa_sm_step`** ends in the invariant. -/
theorem wpaSmStep_key (hP : c.prims.Exact) (hn : 0 < c.pairwiseUpdateCount)
    (h : wpaSmStep c e s = some s') (hs : Restores s) : KeyInv s' := by
  obtain ⟨t, ht, rfl, -⟩ := smLoop_last (I := Restores) (fun t ht => .inv (smRound_key hP hn ht)) hs h
  exact smRound_key hP hn ht

/-! ## The events -/

/-- The PTK is taken away, and the state machine stays where it is. -/
theorem KeyInv.drop (h : KeyInv s) (hv : t.ptkValid = false)
    (hk : (t.state, t.neg, t.pair, t.timeoutCtr) = (s.state, s.neg, s.pair, s.timeoutCtr))
    (hp : t.pairwiseSet = true → s.pairwiseSet = true) : KeyInv t := by
  simp only [Prod.mk.injEq] at hk
  obtain ⟨h1, h2, h3, h4⟩ := hk
  exact KeyBase.invalid ⟨fun hs => h3.trans (h.pair (hp hs)), h2 ▸ h.ext⟩ hv
    fun hc => h4.trans (h.calc2 (h1 ▸ hc))

theorem wpaAuthSmEvent_key (hP : c.prims.Exact) (hn : 0 < c.pairwiseUpdateCount) {w : WpaEvent}
    (hs : KeyInv s) (h : wpaAuthSmEvent c e w s = some s') : KeyInv s' := by
  obtain ⟨t, ht, h⟩ := wpaAuthSmEvent_cases h
  have ht' : KeyInv t := by
    cases ht with
    | nothing => exact hs
    | restart hu =>
      have hu' := wpaSmStep_key hP hn hu (.init ⟨hs.pair, hs.ext⟩ rfl)
      exact hu'.same (.of_trace rfl rfl)
    | deauth | refuse | reauth => exact hs.same (.of_trace rfl rfl)
  rcases h with h | h | h
  · exact wpaSmStep_key hP hn h (.inv ht')
  · exact wpaSmStep_key hP hn h (.inv (ht'.drop rfl rfl id))
  · exact wpaSmStep_key hP hn h (.inv (ht'.drop rfl rfl nofun))

/-- The fork's install when the driver has taken the key. -/
theorem ptkInstalled_key (site : Site) {ptk : Ptk} (h : KeyBase s)
    (hl : s.neg.pairwise.keyLen = ptk.tk.length) :
    KeyInv (ptkInstalled c (s.handed site ptk true)) :=
  ⟨⟨fun _ => rfl, h.ext⟩, fun _ => hl.symm, fun _ _ _ => rfl, nofun, nofun⟩

/-- The fork's install when the driver has not: `sm->PTK` is written all the same. -/
theorem tryInstall_base {site : Site} {ptk : Ptk} (h : KeyBase s)
    (hr : (tryInstall c e site ptk s).1 ≠ true) : KeyBase (tryInstall c e site ptk s).2 ∧
      (s.neg.pairwise.keyLen = ptk.tk.length → LenOK (tryInstall c e site ptk s).2) ∧
      (tryInstall c e site ptk s).2.started = s.started := by
  rcases tryInstall_cases c e site ptk s with ⟨-, heq⟩ | ⟨-, ⟨-, heq⟩ | ⟨-, heq⟩⟩
  · rw [heq]
    exact ⟨⟨h.pair, h.ext⟩, fun hl _ => hl.symm, rfl⟩
  · rw [heq]
    exact ⟨⟨h.pair, h.ext⟩, fun hl _ => hl.symm, rfl⟩
  · rw [heq] at hr
    exact absurd rfl hr

theorem startAuthentication_key (hP : c.prims.Exact) (hn : 0 < c.pairwiseUpdateCount)
    (hb : KeyBase s) (hl : s.started = true → LenOK s)
    (h : startAuthentication c e s = some s') : KeyInv s' := by
  unfold startAuthentication at h
  split at h
  · rename_i hst
    exact wpaSmStep_key hP hn h (.request ⟨hb.pair, hb.ext⟩ (hl hst) fun hno => nomatch hno.reauth)
  · obtain ⟨t, ht, h⟩ := Option.bind_eq_some_iff.1 h
    have ht' : KeyInv t := wpaSmStep_key hP hn ht (.init ⟨hb.pair, hb.ext⟩ rfl)
    exact wpaSmStep_key hP hn h (.inv (ht'.same (.of_trace rfl rfl)))

theorem installCustomGtk_same (s : Sm) : Same s (installCustomGtk e s) := by
  unfold installCustomGtk
  split
  · exact ⟨rfl, rfl, rfl, rfl, rfl, rfl, rfl, [_], rfl, by simp [Out.inert]⟩
  · exact .refl s

theorem openPort_same (site : Site) (s : Sm) : Same s (openPort site s) :=
  ⟨rfl, rfl, rfl, rfl, rfl, rfl, rfl, _, rfl, portCalls_inert _ _⟩

theorem wpaAuthStaAssociated_key (hP : c.prims.Exact) (hn : 0 < c.pairwiseUpdateCount)
    (hs : KeyInv s) (hc : s.started = true → s.neg.pairwise = .none ∨ s.neg.pairwise.keyLen = 16)
    (h : wpaAuthStaAssociated c e s = some s') : KeyInv s' := by
  unfold wpaAuthStaAssociated at h
  split at h
  · rename_i hv
    simp only at h
    split at h
    · rename_i hr
      obtain rfl := Option.some.inj h
      rcases tryInstall_cases c e .fastPath customTestPtk s with ⟨-, heq⟩ | ⟨hk, ⟨-, heq⟩ | ⟨-, heq⟩⟩
      · rw [heq] at hr; cases hr
      · rw [heq] at hr; cases hr
      · rw [heq]
        have hins := ptkInstalled_key (c := c) .fastPath hs.toKeyBase hk.2
        exact (hins.same (installCustomGtk_same _)).same (openPort_same _ _)
    · rename_i hr
      obtain ⟨h1, h2, h3⟩ := tryInstall_base hs.toKeyBase hr
      refine startAuthentication_key hP hn h1 (fun hst => h2 ?_) h
      rcases hc (h3 ▸ hst) with hnone | hk
      · rw [hnone] at hv
        exact absurd hv.2 (by decide)
      · exact hk
  · exact startAuthentication_key hP hn hs.toKeyBase (fun _ => hs.len) h

/-- `wpa_request_new_ptk` gives the PTK up, or asks for the disconnection. -/
theorem wpaRequestNewPtk_restores (hb : KeyBase s) : Restores (wpaRequestNewPtk c s) := by
  unfold wpaRequestNewPtk
  split
  · exact .disconnect ⟨hb.pair, hb.ext⟩ rfl
  · exact .request ⟨hb.pair, hb.ext⟩ nofun fun hno => nomatch hno.ptk

theorem wpaRekeyPtk_key (hP : c.prims.Exact) (hn : 0 < c.pairwiseUpdateCount)
    (hs : KeyInv s) (h : wpaRekeyPtk c e s = some s') : KeyInv s' := by
  have hoff : KeyInv { s with rekeyTimer := false } := hs.same (.of_trace rfl rfl)
  unfold wpaRekeyPtk at h
  simp only at h
  split at h
  · split at h
    · rename_i hr
      obtain rfl := Option.some.inj h
      rcases tryInstall_cases c e .rekeyPtk customTestPtk { s with rekeyTimer := false } with
        ⟨-, heq⟩ | ⟨hk, ⟨-, heq⟩ | ⟨-, heq⟩⟩
      · rw [heq] at hr; cases hr
      · rw [heq] at hr; cases hr
      · rw [heq]
        exact ptkInstalled_key .rekeyPtk hoff.toKeyBase hk.2
    · rename_i hr
      exact wpaSmStep_key hP hn h (wpaRequestNewPtk_restores (tryInstall_base hoff.toKeyBase hr).1)
  · exact wpaSmStep_key hP hn h (wpaRequestNewPtk_restores hoff.toKeyBase)

/-- The key in the driver is in use, or is about to be used without being handed over again. -/
def Sm.InUse (s : Sm) : Prop :=
  s.state = .ptkinitdone ∧ s.pairwiseSet = true ∨
    s.state = .ptkinitnegotiating ∧ s.neg.useExtKeyId = true

theorem wpaAuthInstallCustomPtkCb_key (hs : KeyInv s) {buf : Text}
    (hc : ∀ ptk, decodePtk s.neg.pairwise.keyLen buf = some ptk →
      e.setKey = true ∨ ¬ s.InUse ∨ driverTk s.trace = some ptk.tk) :
    KeyInv (wpaAuthInstallCustomPtkCb c e buf s) := by
  unfold wpaAuthInstallCustomPtkCb
  split
  · exact hs
  rename_i hv
  cases hd : decodePtk s.neg.pairwise.keyLen buf with
  | none => exact hs
  | some ptk =>
    have hlen : ptk.tk.length = s.neg.pairwise.keyLen := (decodePtk_length hd).2.2.1
    rcases tryInstall_cases c e .ptkTcp ptk s with ⟨hk, -⟩ | ⟨hk, ⟨he, heq⟩ | ⟨-, heq⟩⟩
    · exact absurd ⟨keyLen_pos (by simpa [Cipher.validPairwise] using hv), hlen.symm⟩ hk
    · -- the driver refuses a key that is already in sm->PTK
      have htk : s.InUse → driverTk (s.handed .ptkTcp ptk false).trace = some ptk.tk := fun hu =>
        (hc ptk hd).elim (fun h => absurd (he.symm.trans h) (by decide)) (·.resolve_left (· hu))
      simp only [heq]
      exact ⟨⟨hs.pair, hs.ext⟩, fun _ => hlen, fun h1 h2 _ => htk (.inl ⟨h1, h2⟩),
        fun h1 h2 _ => htk (.inr ⟨h1, h2⟩), hs.calc2⟩
    · simp only [heq]
      exact ptkInstalled_key .ptkTcp hs.toKeyBase hk.2

/-- With Extended Key ID the key of message 3/4 stays the right one: a message 4/4 does not bring
back the PTK of an earlier SNonce. -/
def NoAltPtk (c : Conf) (e : Env) (f : EapolKey) (s : Sm) : Prop :=
  s.neg.useExtKeyId = true → s.altSnonceValid = true → classify f = .pairwise4 →
    c.prims.verifyKeyMic s.ptk f = false → (altSearch c e f s).2 = none

theorem MicCheck.key {b : Bool} (hP : c.prims.Exact) (h : MicCheck c e f s (b, t)) (hs : KeyInv s)
    (ha : NoAltPtk c e f s) (h4 : classify f = .pairwise4 → s.state = .ptkinitnegotiating) :
    KeyInv t := by
  have logged : ∀ (l : List Out) (t : Sm), (∀ o ∈ l, o.inert = true) → t.trace = l ++ s.trace →
      (t.state, t.neg, t.ptk, t.ptkValid, t.pairwiseSet, t.pair, t.timeoutCtr) =
        (s.state, s.neg, s.ptk, s.ptkValid, s.pairwiseSet, s.pair, s.timeoutCtr) → KeyInv t := by
    intro l t hl htr hk
    simp only [Prod.mk.injEq] at hk
    obtain ⟨h1, h2, h3, h4, h5, h6, h7⟩ := hk
    exact hs.same ⟨h1, h2, h3, h4, h5, h6, h7, l, htr, hl⟩
  cases h with
  | unchecked | failed => exact hs
  | noMic => exact logged [.micSkipped] _ (by simp [Out.inert]) rfl rfl
  | verified => exact logged [.micVerified s.ptk] _ (by simp [Out.inert]) rfl rfl
  | failedAlt => exact logged _ _ (looked_inert searchPmk_looked) rfl rfl
  | alt hv hm hbad hc hval hf =>
    have hne : ∀ st, st ≠ .ptkinitnegotiating → s.state ≠ st := by
      rintro st hne rfl
      exact hne (h4 hc)
    obtain ⟨-, -, -, rfl⟩ := searchPmk_found hf
    refine ⟨⟨hs.pair, hs.ext⟩, fun _ => ptkOf_tk_length hP _ _ _ _ _ _ _,
      fun hd => absurd hd (hne _ (by rintro ⟨⟩)), fun _ hx => ?_, fun hd => absurd hd (hne _ (by rintro ⟨⟩))⟩
    rw [ha hx hval hc hbad] at hf
    cases hf

theorem altSearch_reset : altSearch c e f { s with micVerified := false } = altSearch c e f s :=
  searchPmk_congr (s := s) (t := { s with micVerified := false }) rfl rfl rfl

/-- What a handler hands on. -/
def Next.Key : Next → Prop
  | .ret t => KeyInv t
  | .step t => Restores t
  | .gone => True

theorem Restores.store (h : Restores s) : Restores (storeFrame f s) := by
  cases h with
  | inv h => exact .inv (h.same (.of_trace rfl rfl))
  | init hb h => exact .init ⟨hb.pair, hb.ext⟩ h
  | disconnect hb h => exact .disconnect ⟨hb.pair, hb.ext⟩ h
  | request hb hl h => exact .request ⟨hb.pair, hb.ext⟩ hl fun hno => h (hno.of rfl)

theorem handleRequest_key (hs : KeyInv s) : (handleRequest c e f s).Key := by
  have hreq : Restores (storeFrame f (wpaRequestNewPtk c (useRequestCounter f s))) :=
    (wpaRequestNewPtk_restores (s := useRequestCounter f s) ⟨hs.pair, hs.ext⟩).store
  unfold handleRequest
  split
  · exact hs
  simp only
  split
  · split
    · trivial
    · exact hreq
  split
  · exact hreq
  · exact .inv (hs.same (.of_trace rfl rfl))

/-- A message 4/4 leaves the notes on an earlier SNonce alone. -/
theorem checkReplay_pairwise4 (h : checkReplay s f = some t) (h4 : classify f = .pairwise4) :
    t = s := by
  unfold checkReplay at h
  rw [h4] at h
  repeat' split at h
  all_goals simp_all

theorem wpaReceive_key (hP : c.prims.Exact) (hs : KeyInv s) (ha : NoAltPtk c e f s) :
    (wpaReceive c e f s).Key := by
  have hnote : ∀ r, checkReplay s f = some r → KeyInv r := by
    intro r hr
    obtain ⟨u, n, v, k, rfl, -⟩ := checkReplay_eq hr
    exact hs.same (.of_trace rfl rfl)
  have hmic : ∀ r, checkReplay s f = some r → reachesMic s r f = true → ∀ b t,
      checkMic c e f { r with micVerified := false } = (b, t) → KeyInv t := by
    intro r hr hm b t ht
    refine (MicCheck.of_eq ht).key hP ((hnote r hr).same (.of_trace rfl rfl)) ?_ fun h4 => ?_
    · intro hx hval h4 hbad
      obtain rfl := checkReplay_pairwise4 hr h4
      rw [altSearch_reset]
      exact ha hx hval h4 hbad
    · simp only [reachesMic, stateOk, h4, Bool.and_eq_true, decide_eq_true_eq] at hm
      exact hm.1.1.2.1
  have hcases := wpaReceive_cases c e f s
  generalize wpaReceive c e f s = q at hcases ⊢
  cases hcases with
  | dropped => exact hs
  | noted hr => exact hnote _ hr
  | entropy hr => exact .inv ((hnote _ hr).drop rfl rfl (by rintro ⟨⟩))
  | refused hr hm h => exact hmic _ hr hm _ _ h
  | request hr hm hf h => exact handleRequest_key (hmic _ hr hm _ _ h)
  | stored hw hr hm hf h => exact .inv ((hmic _ hr hm _ _ h).same (.of_trace rfl rfl))

/-! ## Runs -/

/-- **The steps that keep the key state.** The (re)association request keeps the key length while
there is a valid PTK and does not turn Extended Key ID on in the middle of a handshake, no station
that is already known associates with a cipher the custom PTK has no key for, the driver refuses no
PTK from the TCP port that takes the place of one in use, and no PTK of an earlier SNonce comes back
with Extended Key ID. -/
def Sound (c : Conf) (s : Sm) : Event × Env → Prop
  | (.assocReq n, _) =>
    (s.ptkValid = true → n.pairwise.keyLen = s.neg.pairwise.keyLen) ∧
      (n.useExtKeyId = true → s.state = .ptkinitnegotiating → s.ptkValid = true →
        s.neg.useExtKeyId = true)
  | (.staAssociated, _) =>
    s.started = true → s.neg.pairwise = .none ∨ s.neg.pairwise.keyLen = 16
  | (.ptkTcp buf, e) => ∀ ptk, decodePtk s.neg.pairwise.keyLen (buf.take ptkTcpRecvMax) = some ptk →
      e.setKey = true ∨ ¬ s.InUse ∨ driverTk s.trace = some ptk.tk
  | (.eapolKey f, e) => NoAltPtk c e f s
  | _ => True

/-- `wpa_validate_wpa_ie` turns Extended Key ID on for WPA2 only. -/
def ExtWpa2 (n : Negotiated) : Prop := n.useExtKeyId = true → n.wpa2 = true

/-- **One event.** -/
theorem step_key (hP : c.prims.Exact) (hn : 0 < c.pairwiseUpdateCount) (hs : KeyInv s)
    (hext : ∀ n, ev = .assocReq n → ExtWpa2 n) (hc : Sound c s (ev, e))
    (h : step c s (ev, e) = some s') : KeyInv s' := by
  have hassoc : KeyInv (s.out .associated) :=
    hs.same ⟨rfl, rfl, rfl, rfl, rfl, rfl, rfl, [.associated], rfl, by simp [Out.inert]⟩
  cases ev with
  | assocReq n =>
    obtain rfl := Option.some.inj h
    -- the suites may change under a PTK: the condition keeps its length right
    refine ⟨⟨hs.pair, hext n rfl⟩, fun hv => (hs.len hv).trans (hc.1 hv).symm, hs.held,
      fun hst hx hv => ?_, hs.calc2⟩
    exact hs.early hst (hc.2 hx hst hv) hv
  | sm w =>
    simp only [step] at h
    split at h
    · exact wpaAuthSmEvent_key hP hn hassoc h
    · exact wpaAuthSmEvent_key hP hn hs h
  | staAssociated => exact wpaAuthStaAssociated_key hP hn hassoc hc h
  | eapolKey f =>
    have hnext := wpaReceive_key hP hs hc
    rcases Next.run_cases h with hq | ⟨t, hq, h⟩ <;> rw [hq] at hnext
    · exact hnext
    · exact wpaSmStep_key hP hn h hnext
  | eapolTimeout =>
    simp only [step] at h
    split at h
    · cases h
    · exact wpaSmStep_key hP hn h (.inv (hs.same (.of_trace rfl rfl)))
  | rekeyPtk =>
    simp only [step] at h
    split at h
    · exact wpaRekeyPtk_key hP hn hs h
    · cases h
  | ptkTcp buf =>
    simp only [step] at h
    split at h
    · obtain rfl := Option.some.inj h
      exact wpaAuthInstallCustomPtkCb_key hs hc
    · cases h
  | groupUpdate =>
    simp only [step] at h
    split at h
    · exact wpaSmStep_key hP hn h (.inv (hs.same (.of_trace rfl rfl)))
    · obtain rfl := Option.some.inj h
      exact hs.same (.of_trace rfl rfl)
  | notify => exact wpaSmStep_key hP hn h (.inv hs)
  | setPsks l =>
    obtain rfl := Option.some.inj h
    exact hs.same (.of_trace rfl rfl)

theorem key_new {n : Negotiated} (hn : ExtWpa2 n) (psks : List Pmk) : KeyInv (Sm.new n psks) :=
  ⟨⟨nofun, hn⟩, nofun, nofun, nofun, nofun⟩

/-- **The key state over runs.** In every run of the machine whose steps are sound the key state
holds in every state that is reached. -/
theorem key_state (hP : c.prims.Exact) (hn : 0 < c.pairwiseUpdateCount) {n : Negotiated}
    {psks : List Pmk} {es : List (Event × Env)} (h0 : ExtWpa2 n)
    (hext : ∀ n' e, (.assocReq n', e) ∈ es → ExtWpa2 n')
    (hc : Lib.Along (step c) (Sound c) (Sm.new n psks) es) :
    Lib.Throughout (step c) KeyState (Sm.new n psks) es := by
  refine Lib.Throughout.mono (fun _ => KeyInv.keyState) (Lib.along_throughout ?_ (key_new h0 psks)
    (hc.and (Lib.along_mem _ fun _ h => h)))
  rintro s ⟨ev, e⟩ s' hs ⟨hsound, hmem⟩ hstep
  exact step_key hP hn hs (fun n' h => hext n' e (h ▸ hmem)) hsound hstep

/-- Primitives whose PRF has no upper limit; the first octets are those of `plainPrims`. -/
def longPrims : Prims := ⟨fun _ _ n => (plainPtk ++ List.replicate n 0).take n, fun kck _ => kck⟩

theorem longPrims_exact : longPrims.Exact := by
  intro key data n
  simp only [longPrims, List.length_take, List.length_append, List.length_replicate]
  omega

/-- An association, and a PTK from the TCP port with this answer of the driver. -/
def updated (ok : Bool) : List (Event × Env) :=
  [(.staAssociated, calm), (.ptkTcp plainHex, { calm with setKey := ok })]

/-- `key_state` for a PTK the driver takes. -/
theorem key_state_plain :
    Lib.Throughout (step (plainConf .wifi longPrims)) KeyState (Sm.new wpa2Ccmp [plainPmk])
      (updated true) := by
  refine key_state (c := plainConf .wifi longPrims) longPrims_exact (by decide) nofun ?_ ?_
  · intro n e h
    simp [updated] at h
  · exact ⟨nofun, fun s' hs' => ⟨fun _ _ => .inl rfl, fun _ _ => trivial⟩⟩

/-- Two associations of one station with this cipher. -/
def associatedTwice : List (Event × Env) := [(.staAssociated, calm), (.staAssociated, calm)]

/-- The driver refuses a PTK that takes the place of the one in use; a station with a cipher the custom
PTK is too short for associates again. -/
theorem key_state_broken :
    (∃ s, run (plainConf .wifi longPrims) (Sm.new wpa2Ccmp [plainPmk]) (updated false) = some s ∧
      ¬ KeyState s) ∧
    ∃ s, run (plainConf .wifi longPrims) (Sm.new { wpa2Ccmp with pairwise := .ccmp256 } [plainPmk])
      associatedTwice = some s ∧ ¬ KeyState s := by
  refine ⟨⟨_, rfl, fun h => ?_⟩, _, rfl, fun h => ?_⟩
  · have := h.held ⟨⟨rfl, rfl, rfl, rfl, rfl, rfl⟩, rfl⟩ rfl rfl
    exact absurd this (by decide)
  · exact absurd (h.len rfl) (by decide)

end Lightguard.Auth
