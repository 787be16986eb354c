import Lightguard.Auth.Receive
import Lightguard.Lib.Run
import Lightguard.Wpa.PtkTcp

/-!
# What happens to the authenticator

Everything hostapd does with one station's machine: the events of the (re)association and of
the EAPOL state machine (`wpa_auth_sm_event`), `wpa_auth_sta_associated` with the WiFi
fork's fast path, received frames, timeouts, the PTK rekey timer, the PTK TCP port, and new
PSKs from the setptk listener.

`step` is partial: a timer that is not registered does not expire, a machine that has been
freed makes no step, and `wpa_sm_step` must come to rest.
-/

namespace Lightguard.Auth

open Wpa

/-- The events of `wpa_auth_sm_event`. -/
inductive WpaEvent where
  | auth
  | assoc
  | deauth
  | disassoc
  | reauth
  | reauthEapol
deriving DecidableEq

/-- What happens. -/
inductive Event where
  /-- A (re)association request has been validated: `wpa_validate_wpa_ie`. -/
  | assocReq (n : Negotiated)
  | sm (ev : WpaEvent)
  | staAssociated
  | eapolKey (f : EapolKey)
  | eapolTimeout
  | rekeyPtk
  | ptkTcp (buf : Text)
  /-- `wpa_group_update_sta`: a new GTK is to be sent. -/
  | groupUpdate
  /-- `wpa_auth_sm_notify`. -/
  | notify
  /-- The PSKs of the station are replaced, as setptk does. -/
  | setPsks (psks : List Pmk)

variable (c : Conf) (e : Env)

/-- Runs `wpa_sm_step` where the handler calls for it. -/
def Next.run : Next → Option Sm
  | .ret s => some s
  | .step s => wpaSmStep c e s
  | .gone => none

/-- `wpa_auth_sm_event`. -/
def wpaAuthSmEvent (ev : WpaEvent) (s : Sm) : Option Sm :=
  let s₁ : Option Sm := match ev with
    | .auth | .assoc => some s
    | .deauth | .disassoc => some { s with deauthenticationRequest := true }
    | .reauth | .reauthEapol =>
      if !s.started then
        (wpaSmStep c e { s with started := true, init := true }).map fun s =>
          { s with init := false, authenticationRequest := true }
      else if !s.neg.useExtKeyId && c.denyPtk0Rekey then some { s with disconnect := true }
      else
        some { s with
          keyidxActive := if s.neg.useExtKeyId then 1 - s.keyidxActive else s.keyidxActive
          ptkGroupInit := s.ptkGroupInit || s.gUpdateStationKeys
          gUpdateStationKeys := false
          reAuthenticationRequest := true }
  s₁.bind fun s =>
    let s := if s.neg.mgmtFrameProt ∧ ev = .auth then s
      else
        let s := { s with ptkValid := false, ptk := .zero }.out .ptkCleared
        if ev = .reauthEapol then s else wpaRemovePtk e s
    wpaSmStep c e s

/-- The custom PTK is in the driver: what the fast path, the rekey timer and the PTK TCP port
do then. -/
def ptkInstalled (s : Sm) : Sm :=
  { s with pairwiseSet := true, state := .ptkinitdone, pair := true }.setPtkRekeyTimer c

/-- `sm->PTK` is written by the fork. -/
def Sm.wrote (ptk : Ptk) (s : Sm) : Sm :=
  { s with ptk := ptk, ptkValid := true }.out (.newPtk .fork ptk)

/-- Writes `sm->PTK` and hands its TK to the driver; whether the driver takes it. A TK whose
length is not the cipher's is not handed over. -/
def tryInstall (site : Site) (ptk : Ptk) (s : Sm) : Bool × Sm :=
  let klen := s.neg.pairwise.keyLen
  if 0 < klen ∧ klen = ptk.tk.length then
    let t := (s.wrote ptk).out (.setKey site 0 (ptk.tkBuf klen) e.setKey)
    if e.setKey then (true, ptkInstalled c t) else (false, t)
  else (false, s.wrote ptk)

/-- The WiFi fork's GTK install in `wpa_auth_sta_associated`. -/
def installCustomGtk (s : Sm) : Sm :=
  if 0 < e.gtk.length ∧ e.gtk.length ≤ 32 then
    s.out (.setGroupKey e.gn (customTestGtk.take e.gtk.length) e.setGroupKey)
  else s

/-- The part of `wpa_auth_sta_associated` both copies have. -/
def startAuthentication (s : Sm) : Option Sm :=
  if s.started then
    wpaSmStep c e { s with keyReplay := noCounters, reAuthenticationRequest := true }
  else
    (wpaSmStep c e { s with started := true, init := true }).bind fun s =>
      wpaSmStep c e { s with init := false, authenticationRequest := true }

/-- `wpa_auth_sta_associated`; the WiFi copy installs the custom keys first. -/
def wpaAuthStaAssociated (s : Sm) : Option Sm :=
  if c.link = .wifi ∧ s.neg.pairwise.validPairwise then
    let r := tryInstall c e .fastPath customTestPtk s
    if r.1 then some (openPort .fastPath (installCustomGtk e r.2))
    else startAuthentication c e r.2
  else startAuthentication c e s

/-- `wpa_rekey_ptk`; the WiFi copy tries to install the custom PTK again. -/
def wpaRekeyPtk (s : Sm) : Option Sm :=
  let s := { s with rekeyTimer := false }
  if c.link = .wifi ∧ s.neg.pairwise.validPairwise then
    let r := tryInstall c e .rekeyPtk customTestPtk s
    if r.1 then some r.2 else wpaSmStep c e (wpaRequestNewPtk c r.2)
  else wpaSmStep c e (wpaRequestNewPtk c s)

/-- `wpa_auth_install_custom_ptk_cb` on the buffer `wpa_auth_ptk_tcp_handler` has received. -/
def wpaAuthInstallCustomPtkCb (buf : Text) (s : Sm) : Sm :=
  if !s.neg.pairwise.validPairwise then s
  else match decodePtk s.neg.pairwise.keyLen buf with
    | none => s
    | some ptk => (tryInstall c e .ptkTcp ptk s).2

/-- One event. -/
def step (s : Sm) : Event × Env → Option Sm
  | (.assocReq n, _) => some { s with neg := n }
  | (.sm ev, e) =>
    wpaAuthSmEvent c e ev (if ev = .assoc ∨ ev = .reauth then s.out .associated else s)
  | (.staAssociated, e) => wpaAuthStaAssociated c e (s.out .associated)
  | (.eapolKey f, e) => (wpaReceive c e f s).run c e
  | (.eapolTimeout, e) =>
    if s.eapolTimeouts = 0 then none
    else wpaSmStep c e { s with eapolTimeouts := s.eapolTimeouts - 1, timeoutEvt := true }
  | (.rekeyPtk, e) => if s.rekeyTimer then wpaRekeyPtk c e s else none
  | (.ptkTcp buf, e) =>
    if c.link = .wifi then some (wpaAuthInstallCustomPtkCb c e (buf.take ptkTcpRecvMax) s) else none
  | (.groupUpdate, e) =>
    if s.state = .ptkinitdone then wpaSmStep c e { s with gUpdateStationKeys := true }
    else some { s with gUpdateStationKeys := false }
  | (.notify, e) => wpaSmStep c e s
  | (.setPsks psks, _) => some { s with psks := psks }

/-- A run of the machine. -/
abbrev run (c : Conf) (s : Sm) (es : List (Event × Env)) : Option Sm := Lib.run (step c) s es

/-! ## A plain station -/

/-- WPA2-PSK with CCMP, as the repository configures it. -/
def wpa2Ccmp : Negotiated where
  pairwise := .ccmp
  keyMgmt := .psk
  wpa2 := true
  useExtKeyId := false
  mgmtFrameProt := false
  wpaIe := some plainRsne
  rsnxe := none
  pmksa := none

/-- hostapd's defaults, with a rekey timer. -/
def plainConf (link : Link) (prims : Prims) : Conf where
  link := link
  prims := prims
  addr := Addr.first
  sta := Addr.second
  wpaIe := plainRsne
  rsnxe := none
  pairwiseUpdateCount := 4
  groupUpdateCount := 4
  disableEapolKeyRetries := false
  denyPtk0Rekey := false
  groupCipher := .ccmp
  ptkRekey := 600

/-- An event in which the driver takes every key. -/
def calm : Env where
  fuel := 20
  random := some (List.replicate 32 7)
  pmkid := none
  setKey := true
  delKey := true
  setGroupKey := true
  deriveAlt := []
  derive := []
  keyRun := false
  keyAvailable := false
  msk := none
  gn := 1
  gtk := List.replicate 16 0
  rejectForEntropy := false
  staRemoved := false

/-- An event in which the first derivation finds port 8877 open. -/
def pushing : Env := { calm with deriveAlt := [⟨true, 0⟩], derive := [⟨true, 0⟩] }

/-- The station's message 2/4. -/
def plainMsg2 (replayCounter : ℕ) (nonce mic : Bytes) : EapolKey where
  type := 2
  ver := 2
  pairwise := true
  install := false
  ack := false
  hasMic := true
  secure := false
  error := false
  request := false
  smk := false
  keyIndex := 0
  keyLength := 0
  replayCounter := replayCounter
  nonce := nonce
  keyData := ⟨22, some ⟨some plainRsne, none, none, none, none⟩, none⟩
  mic := mic

/-- The station's message 4/4. -/
def plainMsg4 (replayCounter : ℕ) (mic : Bytes) : EapolKey where
  type := 2
  ver := 2
  pairwise := true
  install := false
  ack := false
  hasMic := true
  secure := true
  error := false
  request := false
  smk := false
  keyIndex := 0
  keyLength := 0
  replayCounter := replayCounter
  nonce := List.replicate 32 0
  keyData := ⟨0, some ⟨none, none, none, none, none⟩, none⟩
  mic := mic

end Lightguard.Auth
