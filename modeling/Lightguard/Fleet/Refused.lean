import Lightguard.Fleet.Ports

/-!
# What an update leaves alone

`wpa_auth_ptk_tcp_handler` hands its payload to the machines of all stations, whatever state they are
in, and both daemons write the PTK before the driver is asked.

* `failed_kept_iff`: when an update that is not installed changes nothing.
* `update_reaches`: which stations an update touches.
* `established_only_iff`: when these are stations whose handshake is complete.
-/

namespace Lightguard.Fleet

open Wpa

variable {ι : Type*} {ptk : Ptk} {buf : Text} {s t : Auth.Sm} {u v : Supp.Sm}

/-- `wpa_auth_ptk_tcp_handler`: the callback for each of the stations. -/
def wpaAuthPtkTcpHandler (c : ι → Auth.Conf) (e : ι → Auth.Env) (buf : Text) (ap : ι → Auth.Sm) :
    ι → Auth.Sm :=
  fun i => Auth.wpaAuthInstallCustomPtkCb (c i) (e i) (buf.take ptkTcpRecvMax) (ap i)

/-- What a handler leaves of one machine, by what it decodes and the driver's answer. -/
theorem wpaAuthPtkTcpHandler_some {c : ι → Auth.Conf} {e : ι → Auth.Env} {ap : ι → Auth.Sm} {i : ι}
    (h : payloadPtk (ap i).neg.pairwise buf = some ptk) :
    wpaAuthPtkTcpHandler c e buf ap i =
      if (e i).setKey then Auth.ptkInstalled (c i) ((ap i).handed .ptkTcp ptk true)
      else (ap i).handed .ptkTcp ptk false := by
  rw [wpaAuthPtkTcpHandler, wpaAuthInstallCustomPtkCb_eq, apDecode_eq, ← payloadPtk_eq, h]

theorem wpaAuthPtkTcpHandler_none {c : ι → Auth.Conf} {e : ι → Auth.Env} {ap : ι → Auth.Sm} {i : ι}
    (h : payloadPtk (ap i).neg.pairwise buf = none) : wpaAuthPtkTcpHandler c e buf ap i = ap i :=
  apKeeps (c i) (e i) h

/-! ## Updates that fail -/

/-- The driver has taken the TK of a new PTK. -/
def ApInstalls (s t : Auth.Sm) : Prop := ∃ ptk, ApHands s t ptk true

def StaInstalls (u v : Supp.Sm) : Prop := ∃ ptk, StaHands u v ptk true

theorem ApHands.answer {ptk' : Ptk} {ok ok' : Bool} (h : ApHands s t ptk ok) (h' : ApHands s t ptk' ok') :
    ok = ok' := by
  have heq := h.trace.symm.trans h'.trace
  simp only [List.cons.injEq, Auth.Out.setKey.injEq] at heq
  exact heq.1.2.2.2

theorem StaHands.answer {ptk' : Ptk} {ok ok' : Bool} (h : StaHands u v ptk ok) (h' : StaHands u v ptk' ok') :
    ok = ok' := by
  have heq := h.trace.symm.trans h'.trace
  simp only [List.cons.injEq, Supp.Out.setKey.injEq] at heq
  exact heq.1.2.2.2

/-- A key that the driver has refused is not installed. -/
theorem ApHands.refused (h : ApHands s t ptk false) : ¬ ApInstalls s t := by
  rintro ⟨ptk', h'⟩
  exact absurd (h.answer h') Bool.false_ne_true

theorem StaHands.refused (h : StaHands u v ptk false) : ¬ StaInstalls u v := by
  rintro ⟨ptk', h'⟩
  exact absurd (h.answer h') Bool.false_ne_true

/-- hostapd's PTK, everything that goes with it, and the key in its driver are as before. -/
structure ApKept (s t : Auth.Sm) : Prop where
  ptk : t.ptk = s.ptk
  valid : t.ptkValid = s.ptkValid
  pairwiseSet : t.pairwiseSet = s.pairwiseSet
  state : t.state = s.state
  timer : t.rekeyTimer = s.rekeyTimer
  driver : Auth.driverTk t.trace = Auth.driverTk s.trace

/-- And so are wpa_supplicant's. -/
structure StaKept (u v : Supp.Sm) : Prop where
  ptk : v.ptk = u.ptk
  set : v.ptkSet = u.ptkSet
  timer : v.rekeyTimer = u.rekeyTimer
  driver : Supp.driverTk v.trace = Supp.driverTk u.trace

/-- Of an update that is decoded, `kept` is asked only if the driver refuses the key. -/
theorem refused_kept_iff {installs kept same : Prop} {ok : Bool} (ht : ok = true → installs)
    (hf : ok = false → ¬ installs ∧ (kept ↔ same)) : (¬ installs → kept) ↔ ok = true ∨ same := by
  cases ok with
  | true => exact iff_of_true (fun hno => absurd (ht rfl) hno) (.inl rfl)
  | false =>
    obtain ⟨hno, hk⟩ := hf rfl
    constructor
    · intro h
      exact .inr (hk.1 (h hno))
    · rintro (h | h)
      · cases h
      · exact fun _ => hk.2 h

/-- A refused TK is in `sm->PTK` already. -/
theorem apKept_iff (h : tcpPtk s.neg.pairwise buf = some ptk) (c : Auth.Conf) (e : Auth.Env) :
    (¬ ApInstalls s (Auth.wpaAuthInstallCustomPtkCb c e buf s) →
        ApKept s (Auth.wpaAuthInstallCustomPtkCb c e buf s)) ↔
      e.setKey = true ∨ s.ptk = ptk ∧ s.ptkValid = true := by
  have hands := apHands c e h
  have heq := wpaAuthInstallCustomPtkCb_eq c e buf s
  rw [apDecode_eq, h] at heq
  refine refused_kept_iff (fun he => ⟨ptk, he ▸ hands⟩) fun he => ?_
  simp only [he, Bool.false_eq_true, if_false] at heq
  rw [he] at hands
  have hno := hands.refused
  rw [heq] at hno ⊢
  refine ⟨hno, fun hk => ⟨hk.ptk.symm, hk.valid.symm⟩, ?_⟩
  rintro ⟨h1, h2⟩
  exact ⟨h1.symm, h2.symm, rfl, rfl, rfl, rfl⟩

theorem staKept_iff (h : tcpPtk u.par.pairwiseCipher buf = some ptk) (e : Supp.Env) :
    (¬ StaInstalls u (Supp.wpaSmPtkTcpHandler e buf u) →
        StaKept u (Supp.wpaSmPtkTcpHandler e buf u)) ↔
      e.setKey = true ∨ u.ptk = ptk ∧ u.ptkSet = true := by
  have hands := staHands e h
  have heq := wpaSmPtkTcpHandler_eq e buf u
  rw [staDecode_eq, h] at heq
  refine refused_kept_iff (fun he => ⟨ptk, he ▸ hands⟩) fun he => ?_
  simp only [he, Bool.false_eq_true, if_false] at heq
  rw [he] at hands
  have hno := hands.refused
  rw [heq] at hno ⊢
  refine ⟨hno, fun hk => ⟨hk.ptk.symm, hk.set.symm⟩, ?_⟩
  rintro ⟨h1, h2⟩
  exact ⟨h1.symm, h2.symm, rfl, rfl⟩

/-- **When a failed update changes nothing.** For every payload, every set of stations with any ciphers
in any states, and all answers of the drivers: exactly when every machine that decodes the payload has
its TK taken by the driver, or has this PTK already. -/
theorem failed_kept_iff (c : ι → Auth.Conf) (e : ι → Auth.Env) (e' : Supp.Env) (buf : Text)
    (ap : ι → Auth.Sm) (u : Supp.Sm) :
    ((∀ i, ¬ ApInstalls (ap i) (wpaAuthPtkTcpHandler c e buf ap i) →
        ApKept (ap i) (wpaAuthPtkTcpHandler c e buf ap i)) ∧
      (¬ StaInstalls u (Supp.wpaSmPtkTcpHandler e' (buf.take ptkTcpRecvMax) u) →
        StaKept u (Supp.wpaSmPtkTcpHandler e' (buf.take ptkTcpRecvMax) u))) ↔
    (∀ i, ∀ ptk ∈ payloadPtk (ap i).neg.pairwise buf,
        (e i).setKey = true ∨ (ap i).ptk = ptk ∧ (ap i).ptkValid = true) ∧
      ∀ ptk ∈ payloadPtk u.par.pairwiseCipher buf, e'.setKey = true ∨ u.ptk = ptk ∧ u.ptkSet = true := by
  refine and_congr (forall_congr' fun i => ?_) ?_
  · cases h : payloadPtk (ap i).neg.pairwise buf with
    | none =>
      rw [wpaAuthPtkTcpHandler_none h]
      exact iff_of_true (fun _ => ⟨rfl, rfl, rfl, rfl, rfl, rfl⟩) nofun
    | some ptk =>
      simp only [Option.mem_some_iff, forall_eq']
      exact apKept_iff h (c i) (e i)
  · cases h : payloadPtk u.par.pairwiseCipher buf with
    | none =>
      rw [staKeeps e' h]
      exact iff_of_true (fun _ => ⟨rfl, rfl, rfl, rfl⟩) nofun
    | some ptk =>
      simp only [Option.mem_some_iff, forall_eq']
      exact staKept_iff h e'

/-- The drivers refuse every key. -/
def apRefusing : Auth.Env := { Auth.calm with setKey := false }
def staRefusing : Supp.Env := { Supp.calm with setKey := false }

/-- Both daemons have the test PTK from the fast path, and their drivers refuse the TK of an update:
KCK and KEK are those of the update from then on. -/
theorem refused_written : ∃ s, Auth.wpaAuthStaAssociated (Link.plainConf .wifi).ap Auth.calm
      (Link.apWith .ccmp) = some s ∧
    ¬ ApInstalls s (wpaAuthPtkTcpHandler (fun _ : Unit => (Link.plainConf .wifi).ap)
      (fun _ => apRefusing) plainHex (fun _ => s) ()) ∧
    (wpaAuthPtkTcpHandler (fun _ : Unit => (Link.plainConf .wifi).ap) (fun _ => apRefusing) plainHex
      (fun _ => s) ()).ptk ≠ s.ptk ∧
    ¬ StaInstalls (Link.staWith .ccmp) (Supp.wpaSmPtkTcpHandler staRefusing
      (plainHex.take ptkTcpRecvMax) (Link.staWith .ccmp)) ∧
    (Supp.wpaSmPtkTcpHandler staRefusing (plainHex.take ptkTcpRecvMax) (Link.staWith .ccmp)).ptk ≠
      (Link.staWith .ccmp).ptk := by
  have hdec : tcpPtk .ccmp (plainHex.take ptkTcpRecvMax) = some plainKeys := rfl
  refine ⟨_, rfl, ?_, by decide, ?_, by decide⟩
  · exact (apHands _ apRefusing hdec).refused
  · exact StaHands.refused (staHands staRefusing hdec)

/-! ## Stations whose handshake is not complete -/

/-- `WPA_EAPOL_portValid`, and `WPA_EAPOL_authorized` for the suites that set it. -/
def portOpen (l : List Auth.Out) : Bool :=
  (Lib.latest (fun
    | .portValid _ => some true
    | .portClosed => some false
    | _ => none) l).getD false

/-- The station is in PTKINITDONE with an authorized port. -/
structure Established (s : Auth.Sm) : Prop where
  state : s.state = .ptkinitdone
  port : portOpen s.trace = true

/-- The machine and the key in the driver are as before, so a handshake goes on as it would have. -/
structure Untouched (s t : Auth.Sm) : Prop where
  machine : { t with trace := s.trace } = s
  driver : Auth.driverTk t.trace = Auth.driverTk s.trace

theorem Untouched.refl (s : Auth.Sm) : Untouched s s := ⟨rfl, rfl⟩

/-- The machine has this PTK already, and everything an install sets, when the driver takes the TK. -/
structure Repeated (c : Auth.Conf) (e : Auth.Env) (s : Auth.Sm) (ptk : Ptk) : Prop where
  stored : s.ptk = ptk
  valid : s.ptkValid = true
  installed : e.setKey = true → s.pairwiseSet = true ∧ s.state = .ptkinitdone ∧ s.pair = true ∧
    (s.rekeyTimer = true ∨ c.ptkRekey = 0) ∧ Auth.driverTk s.trace = some ptk.tk

/-- An update that is decoded leaves a machine alone only by repeating what it has. -/
theorem untouched_iff {c : Auth.Conf} {e : Auth.Env} (h : tcpPtk s.neg.pairwise buf = some ptk) :
    Untouched s (Auth.wpaAuthInstallCustomPtkCb c e buf s) ↔ Repeated c e s ptk := by
  rw [wpaAuthInstallCustomPtkCb_eq, apDecode_eq, h]
  simp only
  constructor
  · intro hu
    have hm := hu.machine
    have hd := hu.driver
    cases he : e.setKey with
    | false =>
      rw [he] at hm
      exact ⟨(congrArg Auth.Sm.ptk hm).symm, (congrArg Auth.Sm.ptkValid hm).symm,
        fun h => absurd (he.symm.trans h) Bool.false_ne_true⟩
    | true =>
      rw [he] at hm hd
      refine ⟨(congrArg Auth.Sm.ptk hm).symm, (congrArg Auth.Sm.ptkValid hm).symm, fun _ => ?_⟩
      -- the timer is registered anew
      have htimer : (s.rekeyTimer || decide (c.ptkRekey ≠ 0)) = s.rekeyTimer :=
        congrArg Auth.Sm.rekeyTimer hm
      refine ⟨(congrArg Auth.Sm.pairwiseSet hm).symm, (congrArg Auth.Sm.state hm).symm,
        (congrArg Auth.Sm.pair hm).symm, ?_, hd.symm⟩
      by_cases h0 : c.ptkRekey = 0
      · exact .inr h0
      · exact .inl (by simpa [h0] using htimer)
  · rintro ⟨rfl, hv, hi⟩
    -- writing the same PTK is no change
    have hwrote : ({ s with ptk := s.ptk, ptkValid := true } : Auth.Sm) = s := by rw [← hv]
    cases he : e.setKey with
    | false => exact ⟨hwrote, rfl⟩
    | true =>
      obtain ⟨h1, h2, h3, h4, h5⟩ := hi he
      have htimer : (s.rekeyTimer || decide (c.ptkRekey ≠ 0)) = s.rekeyTimer := by
        rcases h4 with h4 | h4 <;> simp [h4]
      refine ⟨?_, h5.symm⟩
      have hdone : Auth.ptkInstalled c (s.handed .ptkTcp s.ptk true) =
          { s with trace := (s.handed .ptkTcp s.ptk true).trace } := by
        unfold Auth.ptkInstalled Auth.Sm.setPtkRekeyTimer Auth.Sm.handed Auth.Sm.wrote Auth.Sm.out
        simp only [htimer]
        cases s
        simp only at hv h1 h2 h3
        subst hv h1 h2 h3
        rfl
      rw [if_pos rfl, hdone]

/-- **When only established stations are touched.** For every set of stations in any states and every
payload: exactly when for every station that is not established the payload is no PTK for its cipher, or
repeats the one it has. -/
theorem established_only_iff (c : ι → Auth.Conf) (e : ι → Auth.Env) (buf : Text) (ap : ι → Auth.Sm) :
    (∀ i, ¬ Established (ap i) → Untouched (ap i) (wpaAuthPtkTcpHandler c e buf ap i)) ↔
      ∀ i, ¬ Established (ap i) → ∀ ptk ∈ payloadPtk (ap i).neg.pairwise buf,
        Repeated (c i) (e i) (ap i) ptk := by
  refine forall_congr' fun i => imp_congr_right fun _ => ?_
  cases h : payloadPtk (ap i).neg.pairwise buf with
  | none =>
    rw [wpaAuthPtkTcpHandler_none h]
    exact iff_of_true (.refl _) nofun
  | some ptk =>
    simp only [Option.mem_some_iff, forall_eq']
    exact untouched_iff h

/-- What an update leaves of a machine that decodes it: PTKINITDONE, whatever state it was in, when the
driver takes the TK. The port stays as it is. -/
structure Updated (ok : Bool) (ptk : Ptk) (s t : Auth.Sm) : Prop where
  stored : t.ptk = ptk
  valid : t.ptkValid = true
  pairwiseSet : t.pairwiseSet = (ok || s.pairwiseSet)
  state : t.state = if ok then .ptkinitdone else s.state
  pair : t.pair = (ok || s.pair)
  port : portOpen t.trace = portOpen s.trace

/-- **Which stations an update touches.** For every set of stations in any states and every payload: all
for whose cipher the payload is a PTK, and no other. -/
theorem update_reaches (c : ι → Auth.Conf) (e : ι → Auth.Env) (buf : Text) (ap : ι → Auth.Sm) (i : ι) :
    match payloadPtk (ap i).neg.pairwise buf with
    | none => wpaAuthPtkTcpHandler c e buf ap i = ap i
    | some ptk => Updated (e i).setKey ptk (ap i) (wpaAuthPtkTcpHandler c e buf ap i) := by
  cases h : payloadPtk (ap i).neg.pairwise buf with
  | none => exact wpaAuthPtkTcpHandler_none h
  | some ptk =>
    simp only
    rw [wpaAuthPtkTcpHandler_some h]
    cases (e i).setKey with
    | false => exact ⟨rfl, rfl, rfl, rfl, rfl, rfl⟩
    | true => exact ⟨rfl, rfl, rfl, rfl, rfl, rfl⟩

/-- A station for which the 4-way handshake has begun is put into PTKINITDONE by an update, with its
port closed. -/
theorem handshake_interrupted : ∃ s, Auth.wpaAuthStaAssociated (Link.plainConf .wifi).ap apRefusing
      (Link.apWith .ccmp) = some s ∧ s.state = .ptkstart ∧ ¬ Established s ∧
    (wpaAuthPtkTcpHandler (fun _ : Unit => (Link.plainConf .wifi).ap) (fun _ => Auth.calm) plainHex
      (fun _ => s) ()).state = .ptkinitdone ∧
    ¬ Untouched s (wpaAuthPtkTcpHandler (fun _ : Unit => (Link.plainConf .wifi).ap)
      (fun _ => Auth.calm) plainHex (fun _ => s) ()) := by
  refine ⟨_, rfl, rfl, ?_, rfl, ?_⟩
  · intro h
    exact absurd h.state (by decide)
  · intro h
    exact absurd (congrArg Auth.Sm.state h.machine) (by decide)

end Lightguard.Fleet
