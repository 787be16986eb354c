import Lightguard.Lib.Run
import Lightguard.Supp.Handshake

/-!
# What happens to the supplicant

`wpa_sm_rx_eapol` with its checks and the MIC, the (re)association with the WiFi fork's fast
path, the disassociation, the PTK rekey timer, the PTK TCP port and the setters.
-/

namespace Lightguard.Supp

open Wpa Rotation

/-- What happens. -/
inductive Event where
  | notifyAssoc (bssid : Addr)
  | notifyDisassoc
  | rxEapol (f : EapolKey)
  | rekeyPtk
  | ptkTcp (buf : Text)
  /-- `wpa_sm_key_request`, from a MIC failure or the control interface. -/
  | keyRequest (error pairwise : Bool)
  /-- `wpa_sm_set_pmk`, with the entry it adds to the PMKSA cache. -/
  | setPmk (pmk : Bytes) (sa : Option Pmksa)
  /-- `wpa_sm_set_passphrase`. -/
  | setPassphrase (pass : Text)
  /-- The configuration, with the SSID, and the state wpa_supplicant keeps for itself. -/
  | config (par : Params) (ssid : Bytes)
  | setState (st : WpaState)

variable (c : Conf) (e : Env)

/-! ## Received frames -/

/-- The checks of the descriptor type and version. -/
def formatOk (s : Sm) (f : EapolKey) : Bool :=
  let akm := s.par.keyMgmt.useAkmDefined
  (f.type = 254 || f.type = 2) && (akm || f.ver = 1 || f.ver = 2 || f.ver = 3) &&
  (!akm || f.ver = 0) &&
  (if s.par.keyMgmt.sha256 then akm || f.ver == 3
  else if s.par.pairwiseCipher = .ccmp ∧ !akm ∧ f.ver ≠ 2 then
    s.par.groupCipher != Cipher.ccmp && !f.pairwise || f.ver == 3
  else if s.par.pairwiseCipher = .gcmp ∧ !akm then f.ver == 2
  else true)

/-- A verified frame: its replay counter is taken over. -/
def takeReplayCounter (f : EapolKey) (s : Sm) : Sm := { s with rxReplayCounter := some f.replayCounter }

/-- `sm->tptk` becomes `sm->ptk`. -/
def promoteTptk (s : Sm) : Sm :=
  { s with
    tptk := .zero, tptkSet := false, ptk := s.tptk, ptkSet := true, renewSnonce := true
    trace := .micVerified s.tptk :: s.trace }

/-- `wpa_supplicant_verify_eapol_key_mic`; `none` when the frame is dropped. -/
def verifyEapolKeyMic (f : EapolKey) (s : Sm) : Option Sm :=
  if s.tptkSet ∧ c.prims.verifyKeyMic s.tptk f then some (takeReplayCounter f (promoteTptk s))
  else if s.ptkSet ∧ c.prims.verifyKeyMic s.ptk f then
    some (takeReplayCounter f (s.out (.micVerified s.ptk)))
  else none

/-- The key data can be read: it is not encrypted, or it is authenticated and encrypted with
our KEK. -/
def keyDataOk (f : EapolKey) (s : Sm) : Bool :=
  if s.par.rsn ∧ encrypted f ∧ s.micLen ≠ 0 then
    f.hasMic && s.ptkSet && f.keyData.kek = some s.ptk.kek
  else true

/-- A frame that has passed all checks goes to its handler. -/
def dispatch (f : EapolKey) (s : Sm) : Sm :=
  if f.pairwise then
    if f.keyIndex ≠ 0 then s
    else if f.hasMic ∨ encrypted f then
      process3Of4 c e f (if f.hasMic then s else s.out .micSkipped)
    else process1Of4 c e f s
  else if s.micLen ≠ 0 ∧ f.hasMic ∨ s.micLen = 0 ∧ encrypted f then process1Of2 c e f s
  else s

/-- `wpa_sm_rx_eapol`. -/
def wpaSmRxEapol (f : EapolKey) (s : Sm) : Sm :=
  -- the WiFi copy ignores every frame once a PTK is installed
  if c.link = .wifi ∧ s.ptkSet ∧ s.ptk.installed then s
  else if !formatOk s f then s
  else if s.rxReplayCounter.any (f.replayCounter ≤ ·) then s
  else if f.smk ∨ !f.ack ∨ f.request then s
  else match if f.hasMic then verifyEapolKeyMic c f s else some s with
    | none => s
    | some s => if keyDataOk f s then dispatch c e f s else s

/-! ## The other events -/

/-- The start of `wpa_sm_notify_assoc`: the keys of the last association go. -/
def clearKeys (bssid : Addr) (s : Sm) : Sm :=
  { s with
    bssid := bssid, rxReplayCounter := none, renewSnonce := true, ptkSet := false, ptk := .zero
    tptkSet := false, tptk := .zero, gtk := [], keyidxActive := 0
    trace := .associated :: s.trace }

/-- The WiFi fork's custom GTK. -/
def installCustomGtk (s : Sm) : Sm :=
  if 0 < s.par.groupCipher.keyLen ∧ s.par.groupCipher.keyLen ≤ 32 then
    let key := customTestGtk.take s.par.groupCipher.keyLen
    s.out (.setGroupKey .notifyAssoc 1 key key e.setGroupKey)
  else s

/-- `sm->ptk` is written by the fork and counts as set. -/
def Sm.wrote (site : Site) (ptk : Ptk) (s : Sm) : Sm :=
  { s with ptk := ptk, ptkSet := true }.out (.wrotePtk site ptk)

/-- The WiFi fork's fast path. -/
def fastPath (s : Sm) : Sm :=
  let t := s.wrote .notifyAssoc customTestPtk
  if 0 < s.par.pairwiseCipher.keyLen ∧ s.par.pairwiseCipher.keyLen = customTestPtk.tk.length then
    let t := t.out (.setKey .notifyAssoc 0 customTestPtk.tk e.setKey)
    if e.setKey then
      let t := installCustomGtk e { t with ptk := { customTestPtk with installed := true } }
      { t with wpaState := .completed, msg3Of4Ok := true }.registerRekey
    else t
  else t

/-- `wpa_sm_notify_assoc`. -/
def wpaSmNotifyAssoc (bssid : Addr) (s : Sm) : Sm :=
  let s := clearKeys bssid s
  if c.link = .wifi ∧ s.par.pairwiseCipher.validPairwise then fastPath e s else s

/-- `wpa_sm_rekey_ptk`; the WiFi copy tries to install the custom PTK again. -/
def wpaSmRekeyPtk (s : Sm) : Sm :=
  let s := { s with rekeyTimer := false }
  if c.link = .wifi ∧ s.par.pairwiseCipher.validPairwise then
    let t := s.wrote .rekeyPtk customTestPtk
    if 0 < s.par.pairwiseCipher.keyLen ∧ s.par.pairwiseCipher.keyLen = customTestPtk.tk.length then
      let t := t.out (.setKey .rekeyPtk s.keyidxActive customTestPtk.tk e.setKey)
      if e.setKey then ptkInstalled t else wpaSmKeyRequest c e false true t
    else wpaSmKeyRequest c e false true t
  else wpaSmKeyRequest c e false true s

/-- `wpa_sm_ptk_tcp_handler` on the buffer it has received. -/
def wpaSmPtkTcpHandler (buf : Text) (s : Sm) : Sm :=
  if !s.par.pairwiseCipher.validPairwise then s
  else match decodePtk s.par.pairwiseCipher.keyLen buf with
    | none => s
    | some ptk =>
      let t := (s.wrote .ptkTcp ptk).out (.setKey .ptkTcp s.keyidxActive ptk.tk e.setKey)
      if e.setKey then ptkInstalled t else t

/-- One event. -/
def step (s : Sm) : Event × Env → Option Sm
  | (.notifyAssoc bssid, e) => some (wpaSmNotifyAssoc c e bssid s)
  | (.notifyDisassoc, _) => some (wpaSmNotifyDisassoc s)
  | (.rxEapol f, e) => some (wpaSmRxEapol c e f s)
  | (.rekeyPtk, e) => if s.rekeyTimer then some (wpaSmRekeyPtk c e s) else none
  | (.ptkTcp buf, e) =>
    if c.link = .wifi then some (wpaSmPtkTcpHandler e (buf.take ptkTcpRecvMax) s) else none
  | (.keyRequest error pairwise, e) => some (wpaSmKeyRequest c e error pairwise s)
  | (.setPmk pmk sa, _) => some { s with pmk := pmk, curPmksa := sa.or s.curPmksa }
  | (.setPassphrase pass, _) =>
    if c.link = .lifi then some { s with pass := (wpaSmSetPassphrase s.pass pass).getD s.pass }
    else none
  | (.config par ssid, _) => some { s with par := par, pass := { s.pass with ssid := ssid } }
  | (.setState st, _) => some { s with wpaState := st }

/-- A run of the machine. -/
abbrev run (c : Conf) (s : Sm) (es : List (Event × Env)) : Option Sm := Lib.run (step c) s es

/-! ## A plain station -/

/-- WPA2-PSK with CCMP, as the repository configures it. -/
def wpa2Ccmp : Params where
  keyMgmt := .psk
  pairwiseCipher := .ccmp
  groupCipher := .ccmp
  rsn := true
  network := true
  assocWpaIe := plainRsne
  assocRsnxe := none
  apIe := some plainRsne
  apRsnxe := none
  extKeyId := false
  denyPtk0Rekey := false
  wpaPtkRekey := 600

/-- wpa_supplicant on the station `02:00:00:00:00:02`. -/
def plainConf (link : Link) (prims : Prims) : Conf where
  link := link
  prims := prims
  pbkdf2 _ _ _ := plainPmk.1
  ownAddr := Addr.second

/-- An event in which the driver takes every key. -/
def calm : Env where
  random := some (List.replicate 32 9)
  derive := ⟨true, 0⟩
  setKey := true
  setGroupKey := true
  sendOk := true
  pmksaGet := none
  pmksaAdd := none
  eapolKey := none
  beaconIe := none

end Lightguard.Supp
