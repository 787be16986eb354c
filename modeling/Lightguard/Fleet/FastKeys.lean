import Lightguard.Fleet.Ports

/-!
# An update beside a handshake

The keys that an update hands to the two drivers, and those that a 4-way handshake of the same session
hands over when it derives the same PTK.

* `apHandshakeKeys_eq`, `staHandshakeKeys_eq`: what the handshake hands over.
* `fast_keys_iff`: when the update hands over the same.
-/

namespace Lightguard.Fleet

open Wpa Lib

variable {c : Auth.Conf} {e : Auth.Env} {s : Auth.Sm} {c' : Supp.Conf} {e' : Supp.Env} {u : Supp.Sm}
  {ptk : Ptk} {anonce : Bytes} {buf : Text}

/-! ## hostapd -/

/-- The calls of `wpa_auth_set_key` for a pairwise key: the key index and the octets. -/
def apCalls (l : List Auth.Out) : List (ℕ × Bytes) :=
  l.filterMap fun | .setKey _ idx key _ => some (idx, key) | _ => none

/-- The driver takes every key. -/
def apTaking (e : Auth.Env) : Auth.Env := { e with setKey := true }

/-- What an update hands over. -/
def apTcpKeys (c : Auth.Conf) (e : Auth.Env) (buf : Text) (s : Auth.Sm) : List (ℕ × Bytes) :=
  apCalls (Auth.wpaAuthInstallCustomPtkCb c (apTaking e) buf { s with trace := [] }).trace

/-- What the handshake hands over once it has derived this PTK: PTKINITNEGOTIATING, from
PTKCALCNEGOTIATING2, and then PTKINITDONE. -/
def apHandshakeKeys (c : Auth.Conf) (e : Auth.Env) (ptk : Ptk) (s : Auth.Sm) : List (ℕ × Bytes) :=
  apCalls (Auth.enterPtkinitdone c (apTaking e) (Auth.enterPtkinitnegotiating c (apTaking e)
    (Auth.enterPtkcalcnegotiating2
      { s with ptk := ptk, ptkValid := true, pair := true, trace := [] }))).trace

theorem apTcpKeys_eq (h : tcpPtk s.neg.pairwise buf = some ptk) : apTcpKeys c e buf s = [(0, ptk.tk)] := by
  have htrace := (apHands c (apTaking e) (s := { s with trace := [] }) h).trace
  rw [apTcpKeys, htrace]
  rfl

theorem apCalls_append (l l' : List Auth.Out) : apCalls (l ++ l') = apCalls l ++ apCalls l' :=
  List.filterMap_append

/-- Sending a frame hands nothing over. -/
theorem wpaSendEapol_calls (b : KeyBody) (s : Auth.Sm) :
    apCalls (Auth.wpaSendEapol c b s).trace = apCalls s.trace := by
  have hsent : apCalls ((Auth.eapolFrame c b s).map Auth.Out.sent).toList = [] := by
    cases Auth.eapolFrame c b s <;> rfl
  rw [Auth.wpaSendEapol, apCalls_append, hsent, List.nil_append]

/-- The machine that comes from PTKCALCNEGOTIATING2 into PTKINITNEGOTIATING. -/
def negotiating (s : Auth.Sm) : Auth.Sm :=
  { s with state := .ptkinitnegotiating, changed := true, timeoutEvt := false, timeoutCtr := 1 }

/-- The first time PTKINITNEGOTIATING is entered. -/
theorem enterPtkinitnegotiating_first (c : Auth.Conf) (e : Auth.Env) (s : Auth.Sm) :
    Auth.enterPtkinitnegotiating c (apTaking e) (Auth.enterPtkcalcnegotiating2 s) =
      if c.pairwiseUpdateCount = 0 then negotiating s
      else
        let t := if s.neg.wpa2 ∧ s.neg.useExtKeyId then (negotiating s).out (.setKey .ptkinitnegotiating
          s.keyidxActive (s.ptk.tkBuf s.neg.pairwise.keyLen) true) else negotiating s
        Auth.wpaSendEapol c (Auth.msg3 c (apTaking e) t) t := by
  have hcall : Auth.enterPtkinitnegotiating c (apTaking e) (Auth.enterPtkcalcnegotiating2 s) =
      if c.disableEapolKeyRetries ∧ (negotiating s).timeoutCtr > 1 then negotiating s
      else if (negotiating s).timeoutCtr > c.pairwiseUpdateCount then negotiating s
      else if s.neg.wpa2 ∧ s.neg.useExtKeyId ∧ (negotiating s).timeoutCtr = 1 then
        let t := (negotiating s).out (.setKey .ptkinitnegotiating s.keyidxActive
          (s.ptk.tkBuf s.neg.pairwise.keyLen) true)
        Auth.wpaSendEapol c (Auth.msg3 c (apTaking e) t) t
      else Auth.wpaSendEapol c (Auth.msg3 c (apTaking e) (negotiating s)) (negotiating s) := rfl
  have hctr : (negotiating s).timeoutCtr = 1 := rfl
  rw [hcall, hctr, if_neg (by simp)]
  by_cases hcount : c.pairwiseUpdateCount = 0
  · rw [if_pos (by omega), if_pos hcount]
  rw [if_neg (by omega), if_neg hcount]
  by_cases hx : s.neg.wpa2 ∧ s.neg.useExtKeyId
  · rw [if_pos ⟨hx.1, hx.2, rfl⟩, if_pos hx]
  · rw [if_neg fun h => hx ⟨h.1, h.2.1⟩, if_neg hx]

/-- What PTKINITNEGOTIATING leaves for PTKINITDONE, and what it has handed over. -/
theorem negotiating_calls (c : Auth.Conf) (e : Auth.Env) (s : Auth.Sm) {t : Auth.Sm}
    (ht : Auth.enterPtkinitnegotiating c (apTaking e) (Auth.enterPtkcalcnegotiating2 s) = t) :
    t.neg = s.neg ∧ t.ptk = s.ptk ∧ t.pair = s.pair ∧
      apCalls t.trace = (if s.neg.wpa2 ∧ s.neg.useExtKeyId ∧ 0 < c.pairwiseUpdateCount then
        [(s.keyidxActive, s.ptk.tkBuf s.neg.pairwise.keyLen)] else []) ++ apCalls s.trace := by
  rw [enterPtkinitnegotiating_first] at ht
  by_cases hcount : c.pairwiseUpdateCount = 0
  · rw [if_pos hcount] at ht
    subst ht
    rw [if_neg fun h => absurd h.2.2 (by omega)]
    exact ⟨rfl, rfl, rfl, rfl⟩
  rw [if_neg hcount] at ht
  simp only at ht
  by_cases hx : s.neg.wpa2 ∧ s.neg.useExtKeyId
  · rw [if_pos hx] at ht
    subst ht
    rw [wpaSendEapol_calls, if_pos ⟨hx.1, hx.2, by omega⟩]
    exact ⟨rfl, rfl, rfl, rfl⟩
  · rw [if_neg hx] at ht
    subst ht
    rw [wpaSendEapol_calls, if_neg fun h => hx ⟨h.1, h.2.1⟩]
    exact ⟨rfl, rfl, rfl, rfl⟩

/-- **What the handshake hands to hostapd's driver**: in PTKINITDONE and at index 0, or with Extended
Key ID in PTKINITNEGOTIATING and at the index of the handshake. -/
theorem apHandshakeKeys_eq (c : Auth.Conf) (e : Auth.Env) (ptk : Ptk) (s : Auth.Sm) :
    apHandshakeKeys c e ptk s =
      (if s.neg.useExtKeyId then [] else [(0, ptk.tkBuf s.neg.pairwise.keyLen)]) ++
        if s.neg.wpa2 ∧ s.neg.useExtKeyId ∧ 0 < c.pairwiseUpdateCount then
          [(s.keyidxActive, ptk.tkBuf s.neg.pairwise.keyLen)] else [] := by
  unfold apHandshakeKeys
  generalize ht : Auth.enterPtkinitnegotiating c (apTaking e) (Auth.enterPtkcalcnegotiating2
    { s with ptk := ptk, ptkValid := true, pair := true, trace := [] }) = t
  obtain ⟨h1, h2, h3, h4⟩ := negotiating_calls c e _ ht
  have hport : ∀ n, apCalls (Auth.portCalls .ptkinitdone n) = [] := by
    intro n
    unfold Auth.portCalls
    split <;> rfl
  have hdone : apCalls (Auth.enterPtkinitdone c (apTaking e) t).trace =
      apCalls (Auth.doneKeys (apTaking e) t) ++ apCalls t.trace := by
    unfold Auth.enterPtkinitdone
    rw [if_pos h3, if_pos (show (apTaking e).setKey = true from rfl)]
    show apCalls (Auth.portCalls .ptkinitdone _ ++ ((if t.pair then _ else []) ++ _ :: t.trace)) = _
    rw [apCalls_append, hport, if_pos h3, List.nil_append, apCalls_append]
    rfl
  rw [hdone, h4, Auth.doneKeys, h1, h2]
  cases s.neg.useExtKeyId with
  | true => simp [apCalls]
  | false => simp [apCalls]

/-! ## wpa_supplicant -/

/-- The calls of `wpa_sm_set_key` for a pairwise key. -/
def staCalls (l : List Supp.Out) : List (ℕ × Bytes) :=
  l.filterMap fun | .setKey _ idx key _ => some (idx, key) | _ => none

def staTaking (e : Supp.Env) : Supp.Env := { e with setKey := true }

def staTcpKeys (e : Supp.Env) (buf : Text) (u : Supp.Sm) : List (ℕ × Bytes) :=
  staCalls (Supp.wpaSmPtkTcpHandler (staTaking e) buf { u with trace := [] }).trace

/-- What the handshake hands over: message 1/4 derives `sm->tptk`, the MIC of message 3/4 makes it
`sm->ptk`, and `wpa_supplicant_install_ptk` installs it. -/
def staHandshakeKeys (c : Supp.Conf) (e : Supp.Env) (anonce : Bytes) (u : Supp.Sm) : List (ℕ × Bytes) :=
  staCalls (Supp.installPtk c (staTaking e)
    { Supp.promoteTptk (Supp.setTptk c e anonce u) with trace := [] }).2.trace

theorem staTcpKeys_eq (h : tcpPtk u.par.pairwiseCipher buf = some ptk) :
    staTcpKeys e' buf u = [(u.keyidxActive, ptk.tk)] := by
  have htrace := (staHands (staTaking e') (s := { u with trace := [] }) h).trace
  rw [staTcpKeys, htrace]
  rfl

/-- `wpa_supplicant_install_ptk` hands over the PTK it works with, when that has not been installed and
its TK has the cipher's length. -/
theorem installPtk_calls (c : Supp.Conf) (e : Supp.Env) {t w : Supp.Sm} (hw : Supp.ptkToInstall c t = w)
    (hp : w.par.pairwiseCipher ≠ .none) (hi : w.ptk.installed = false) :
    staCalls (Supp.installPtk c (staTaking e) t).2.trace =
      (if w.par.pairwiseCipher.keyLen = w.ptk.tk.length then [(w.keyidxActive, w.ptk.tk)] else []) ++
        staCalls w.trace := by
  have hi' : ¬ w.ptk.installed = true := by simp [hi]
  have hcall : Supp.installPtk c (staTaking e) t =
      if w.ptk.installed then (true, w)
      else if w.par.pairwiseCipher = .none then (true, w)
      else if w.par.pairwiseCipher.keyLen ≠ w.ptk.tk.length then (false, w)
      else (true, Supp.ptkInstalled (w.out (.setKey .installPtk w.keyidxActive w.ptk.tk true))) := by
    unfold Supp.installPtk
    rw [hw]
    rfl
  rw [hcall, if_neg hi', if_neg hp]
  by_cases hlen : w.par.pairwiseCipher.keyLen = w.ptk.tk.length
  · rw [if_neg (not_not.2 hlen), if_pos hlen]
    rfl
  · rw [if_pos hlen, if_neg hlen, List.nil_append]

/-- What the MIC of message 3/4 makes `sm->ptk`. -/
def staDerived (c : Supp.Conf) (e : Supp.Env) (anonce : Bytes) (u : Supp.Sm) : Supp.Sm :=
  { Supp.promoteTptk (Supp.setTptk c e anonce u) with trace := [] }

theorem staDerived_ptk (c : Supp.Conf) (e : Supp.Env) (anonce : Bytes) (u : Supp.Sm) :
    (staDerived c e anonce u).ptk =
      if u.par.pairwiseCipher = .tkip then
        { (Supp.wpaDerivePtk c e anonce u).ptk with
          tk := Supp.tkipSwap (Supp.wpaDerivePtk c e anonce u).ptk.tk }
      else (Supp.wpaDerivePtk c e anonce u).ptk := rfl

theorem tkipSwap_length {k : Bytes} (h : k.length = 32) : (Supp.tkipSwap k).length = 32 := by
  simp only [Supp.tkipSwap, List.length_append, List.length_take, List.length_drop, h]
  omega

/-- **What the handshake hands to the station's driver**: the test PTK's TK on the WiFi link, otherwise
the one that was derived, in the order the driver wants. -/
theorem staHandshakeKeys_eq (hp : u.par.pairwiseCipher ≠ .none)
    (hd : (Supp.wpaDerivePtk c' e' anonce u).ptk = ptk) (hlen : u.par.pairwiseCipher.keyLen = ptk.tk.length)
    (hi : ptk.installed = false) :
    staHandshakeKeys c' e' anonce u =
      if c'.link = .wifi then
        if u.par.pairwiseCipher.keyLen = 16 then [(u.keyidxActive, customTestPtk.tk)] else []
      else [(u.keyidxActive,
        if u.par.pairwiseCipher = .tkip then Supp.tkipSwap ptk.tk else ptk.tk)] := by
  have hkeys : staHandshakeKeys c' e' anonce u =
      staCalls (Supp.installPtk c' (staTaking e') (staDerived c' e' anonce u)).2.trace := rfl
  have hder := staDerived_ptk c' e' anonce u
  rw [hd] at hder
  rw [hkeys]
  by_cases hl : c'.link = .wifi
  · -- the WiFi copy overwrites what it has derived
    have hw : Supp.ptkToInstall c' (staDerived c' e' anonce u) =
        { staDerived c' e' anonce u with ptk := customTestPtk }.out
          (.wrotePtk .installPtk customTestPtk) := by
      rw [Supp.ptkToInstall, if_pos hl]
    rw [if_pos hl, installPtk_calls c' e' hw hp rfl]
    exact List.append_nil _
  · have hw : Supp.ptkToInstall c' (staDerived c' e' anonce u) = staDerived c' e' anonce u := by
      rw [Supp.ptkToInstall, if_neg hl]
    have hnew : (staDerived c' e' anonce u).ptk.installed = false ∧
        u.par.pairwiseCipher.keyLen = (staDerived c' e' anonce u).ptk.tk.length ∧
        (staDerived c' e' anonce u).ptk.tk =
          if u.par.pairwiseCipher = .tkip then Supp.tkipSwap ptk.tk else ptk.tk := by
      rw [hder]
      by_cases ht : u.par.pairwiseCipher = .tkip
      · rw [if_pos ht, if_pos ht]
        have h32 : ptk.tk.length = 32 := by rw [← hlen, ht]; rfl
        exact ⟨hi, by rw [hlen, h32]; exact (tkipSwap_length h32).symm, rfl⟩
      · rw [if_neg ht, if_neg ht]
        exact ⟨hi, hlen, rfl⟩
    obtain ⟨h1, h2, h3⟩ := hnew
    rw [if_neg hl, installPtk_calls c' e' hw hp h1, ← h3]
    exact (congrArg (· ++ _) (if_pos h2)).trans (List.append_nil _)

/-! ## Both ends -/

/-- Each side's transmit keys are the other side's receive keys: one key index, and of the two Michael
keys of TKIP each is the other's at the other end. -/
def Mirrored (p : Cipher) (ap sta : List (ℕ × Bytes)) : Prop :=
  sta = ap.map fun k => (k.1, if p = .tkip then Supp.tkipSwap k.2 else k.2)

instance {p : Cipher} {ap sta : List (ℕ × Bytes)} : Decidable (Mirrored p ap sta) :=
  inferInstanceAs (Decidable (_ = _))

/-- The update hands over what the handshake does, at both ends. -/
def FastKeys (c : Auth.Conf) (e : Auth.Env) (s : Auth.Sm) (c' : Supp.Conf) (e' : Supp.Env) (u : Supp.Sm)
    (ptk : Ptk) (anonce : Bytes) (buf : Text) : Prop :=
  apTcpKeys c e buf s = apHandshakeKeys c e ptk s ∧
    staTcpKeys e' buf u = staHandshakeKeys c' e' anonce u ∧
    Mirrored s.neg.pairwise (apTcpKeys c e buf s) (staTcpKeys e' buf u)

/-- **An update and a handshake.** For a payload that both ends take and a handshake that derives the
same PTK: the two hand over the same keys, exactly when the handshake uses key index 0 at both ends and
is completed by an install, the WiFi station's own PTK gives way to the same TK, and swapping TKIP's
Michael keys, which only the handshake does, changes nothing. -/
theorem fast_keys_iff (c : Auth.Conf) (e : Auth.Env) (c' : Supp.Conf) (e' : Supp.Env)
    (hneg : s.neg.pairwise = u.par.pairwiseCipher) (htcp : tcpPtk s.neg.pairwise buf = some ptk)
    (hd : (Supp.wpaDerivePtk c' e' anonce u).ptk = ptk) :
    FastKeys c e s c' e' u ptk anonce buf ↔
      (s.neg.useExtKeyId = true →
          s.neg.wpa2 = true ∧ 0 < c.pairwiseUpdateCount ∧ s.keyidxActive = 0) ∧
        u.keyidxActive = 0 ∧ (c'.link = .wifi → ptk.tk = customTestPtk.tk) ∧
        (s.neg.pairwise = .tkip → Supp.tkipSwap ptk.tk = ptk.tk) := by
  obtain ⟨hpos, hlen, hi⟩ := tcpPtk_length htcp
  have hp : u.par.pairwiseCipher ≠ .none := by
    intro hn
    rw [hneg, hn] at hpos
    exact absurd hpos (by decide)
  have hbuf : ptk.tkBuf s.neg.pairwise.keyLen = ptk.tk := by rw [hlen, Ptk.tkBuf_length]
  -- the AP: the port always uses key index 0
  have hap : apTcpKeys c e buf s = apHandshakeKeys c e ptk s ↔
      (s.neg.useExtKeyId = true →
        s.neg.wpa2 = true ∧ 0 < c.pairwiseUpdateCount ∧ s.keyidxActive = 0) := by
    rw [apTcpKeys_eq htcp, apHandshakeKeys_eq, hbuf]
    cases s.neg.useExtKeyId with
    | false => simp
    | true =>
      by_cases hx : s.neg.wpa2 = true ∧ 0 < c.pairwiseUpdateCount
      · simp [hx, eq_comm]
      · have hx' : ¬ (s.neg.wpa2 = true ∧ 0 < c.pairwiseUpdateCount ∧ s.keyidxActive = 0) :=
          fun h => hx ⟨h.1, h.2.1⟩
        simp [hx, hx']
  -- the station: the test PTK on the WiFi link, the swapped halves elsewhere
  have hsta : staTcpKeys e' buf u = staHandshakeKeys c' e' anonce u ↔
      (c'.link = .wifi → ptk.tk = customTestPtk.tk) ∧
        (¬ c'.link = .wifi → s.neg.pairwise = .tkip → Supp.tkipSwap ptk.tk = ptk.tk) := by
    rw [staTcpKeys_eq (hneg ▸ htcp), staHandshakeKeys_eq hp hd (hneg ▸ hlen) hi, ← hneg, hlen]
    by_cases hl : c'.link = .wifi
    · rw [if_pos hl]
      by_cases h16 : ptk.tk.length = 16
      · simp [h16, hl]
      · have hne : ptk.tk ≠ customTestPtk.tk := by
          intro h
          exact h16 (h ▸ rfl)
        simp [h16, hl, hne]
    · rw [if_neg hl]
      by_cases ht : s.neg.pairwise = .tkip
      · simp [hl, ht, eq_comm]
      · simp [hl, ht]
  -- each side has to receive with what the other one transmits with
  have hmir : Mirrored s.neg.pairwise (apTcpKeys c e buf s) (staTcpKeys e' buf u) ↔
      u.keyidxActive = 0 ∧ (s.neg.pairwise = .tkip → Supp.tkipSwap ptk.tk = ptk.tk) := by
    rw [Mirrored, apTcpKeys_eq htcp, staTcpKeys_eq (hneg ▸ htcp)]
    by_cases ht : s.neg.pairwise = .tkip
    · simp [ht, eq_comm]
    · simp [ht]
  rw [FastKeys, hap, hsta, hmir]
  constructor
  · rintro ⟨h1, ⟨h2, -⟩, h3, h4⟩
    exact ⟨h1, h3, h2, h4⟩
  · rintro ⟨h1, h2, h3, h4⟩
    exact ⟨h1, ⟨h3, fun _ => h4⟩, h2, h4⟩

/-- Primitives that derive the octets of the test PTK. -/
def testPrims : Prims := ⟨fun _ _ n => customTestPtk.octets.take n, fun kck _ => kck⟩

/-- A station with a PMK, for a handshake. -/
def staKeyed : Supp.Sm := { Link.staWith .ccmp with pmk := plainPmk.1 }

/-- `fast_keys_iff` for the one TK that the WiFi link installs either way. -/
theorem fast_keys_test : FastKeys (Link.plainConf .wifi).ap Auth.calm (Link.apWith .ccmp)
    (Supp.plainConf .wifi testPrims) Supp.calm staKeyed customTestPtk [] (hexlify customTestPtk.octets) :=
  (fast_keys_iff _ _ _ _ rfl (by decide +kernel) (by decide +kernel)).2
    ⟨nofun, rfl, fun _ => rfl, nofun⟩

/-- The keys of a real handshake: the update installs them, the handshake at the station the test PTK. -/
theorem fast_keys_differ :
    tcpPtk .ccmp plainHex = some plainKeys ∧
      (Supp.wpaDerivePtk (Link.plainConf .wifi).sta Supp.calm [] staKeyed).ptk = plainKeys ∧
      ¬ FastKeys (Link.plainConf .wifi).ap Auth.calm (Link.apWith .ccmp) (Link.plainConf .wifi).sta
        Supp.calm staKeyed plainKeys [] plainHex := by
  refine ⟨by decide +kernel, by decide +kernel, ?_⟩
  intro h
  exact absurd h.2.1 (by decide +kernel)

end Lightguard.Fleet
