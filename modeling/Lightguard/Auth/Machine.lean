import Lightguard.Lib.History
import Lightguard.Wpa.Common

/-!
# The authenticator's state for one station

`struct wpa_state_machine` of hostapd (`wpa_auth.h`, `wpa_auth_i.h`), what the station and
the BSS have negotiated, and what comes from outside in one event: random numbers, the
driver's answers, the group key. What the machine does to its surroundings is its `trace`,
the newest first; the TK the driver holds is read off the trace (`driverTk`).

Frame lengths have been checked before a frame becomes an `EapolKey`; a frame that fails
these checks is dropped without a change. FT and FILS are not part of the configured builds.
-/

namespace Lightguard.Auth

open Wpa

/-- The states of `SM_STATE(WPA_PTK, ..)`. -/
inductive PtkState where
  /-- INITIALIZE. -/
  | initState
  | disconnect
  | disconnected
  | authentication
  | authentication2
  | initpmk
  | initpsk
  | ptkstart
  | ptkcalcnegotiating
  | ptkcalcnegotiating2
  | ptkinitnegotiating
  | ptkinitdone
deriving DecidableEq

/-- The states of `SM_STATE(WPA_PTK_GROUP, ..)`. -/
inductive GroupState where
  | idle
  | rekeynegotiating
  | rekeyestablished
  | keyerror
deriving DecidableEq

/-- What does not change while the BSS is up. -/
structure Conf where
  link : Link
  prims : Prims
  /-- The addresses of the AP and of the station. -/
  addr : Addr
  sta : Addr
  /-- The RSN or WPA element the AP advertises, and its RSNXE. -/
  wpaIe : Bytes
  rsnxe : Option Bytes
  pairwiseUpdateCount : ℕ
  groupUpdateCount : ℕ
  disableEapolKeyRetries : Bool
  denyPtk0Rekey : Bool
  groupCipher : Cipher
  /-- `wpa_ptk_rekey`; zero means that there is no timer. -/
  ptkRekey : ℕ

/-- What the (re)association request has negotiated. -/
structure Negotiated where
  pairwise : Cipher
  keyMgmt : KeyMgmt
  /-- `sm->wpa == WPA_VERSION_WPA2`. -/
  wpa2 : Bool
  useExtKeyId : Bool
  mgmtFrameProt : Bool
  wpaIe : Option Bytes
  rsnxe : Option Bytes
  /-- The PMK of the PMKSA cache entry. -/
  pmksa : Option Pmk
deriving DecidableEq

/-- What comes from outside during one event. -/
structure Env where
  /-- How often the loop in `wpa_sm_step` goes round at most. -/
  fuel : ℕ
  /-- `random_get_bytes` for the ANonce. -/
  random : Option Bytes
  /-- The PMKID message 1/4 carries, when it carries one. -/
  pmkid : Option Bytes
  /-- The driver's answers for the pairwise slots and for the group slot. -/
  setKey : Bool
  delKey : Bool
  setGroupKey : Bool
  /-- The calls of `wpa_pmk_to_ptk` from `wpa_try_alt_snonce` and from PTKCALCNEGOTIATING. -/
  deriveAlt : List DeriveEnv
  derive : List DeriveEnv
  /-- The EAPOL state machine: keyRun, keyAvailable and the MSK. -/
  keyRun : Bool
  keyAvailable : Bool
  msk : Option Bytes
  /-- `group->GN` and `group->GTK[group->GN - 1]`. -/
  gn : ℕ
  gtk : Bytes
  /-- `group->reject_4way_hs_for_entropy`. -/
  rejectForEntropy : Bool
  /-- A Michael MIC failure report makes hostapd remove the station. -/
  staRemoved : Bool

/-- The call sites of `wpa_auth_set_key` for a pairwise key. -/
inductive Site where
  | fastPath
  | rekeyPtk
  | ptkTcp
  | ptkinitnegotiating
  | ptkinitdone
deriving DecidableEq

/-- Who has written `sm->PTK`: a derivation from a PMK, or one of the fork's own installs. -/
inductive PtkSource where
  | derived (pmk : Pmk) (aNonce sNonce : Bytes)
  | fork
deriving DecidableEq

/-- What the machine does to its surroundings, and the marks the properties speak of. -/
inductive Out where
  /-- The station has (re)associated. -/
  | associated
  /-- `sm->PTK` is written and PTK_valid set. -/
  | newPtk (src : PtkSource) (ptk : Ptk)
  /-- `sm->PTK` is overwritten with zeros by a (re)association. -/
  | ptkCleared
  /-- The MIC of the received frame verifies under this PTK. -/
  | micVerified (ptk : Ptk)
  /-- A frame is taken without a MIC: the MIC of the key management suite has no octets. -/
  | micSkipped
  /-- `wpa_auth_set_key` for a pairwise slot, with its result. -/
  | setKey (site : Site) (idx : ℕ) (key : Bytes) (ok : Bool)
  | delKey (idx : ℕ) (ok : Bool)
  | setGroupKey (idx : ℕ) (key : Bytes) (ok : Bool)
  /-- PTKINITDONE is entered with this `sm->PTK`. -/
  | ptkinitdone (ptk : Ptk)
  /-- `WPA_EAPOL_authorized` and `WPA_EAPOL_portValid` are set to 1. -/
  | authorized (site : Site)
  | portValid (site : Site)
  /-- One or both are set to 0. -/
  | portClosed
  /-- `wpa_sta_disconnect`. -/
  | disconnect
  /-- 48 octets are written to port 8877. -/
  | pushed (octets : Bytes)
  /-- An EAPOL-Key frame is sent to the station. -/
  | sent (f : EapolKey)
deriving DecidableEq

/-- `struct wpa_key_replay_counter`; `number` counts the frames since the counters were cleared. -/
structure ReplayCounter where
  number : ℕ
  valid : Bool
deriving DecidableEq

/-- The 8 octets of the counter; `inc_byte_array` starts over when they are full. -/
def ReplayCounter.counter (r : ReplayCounter) : ℕ := r.number % 2 ^ 64

/-- The counter of the next frame. -/
def nextCounter (l : List ReplayCounter) : ReplayCounter := ⟨(l.head?.map (·.number)).getD 0 + 1, true⟩

/-- `struct wpa_state_machine`. -/
structure Sm where
  neg : Negotiated
  /-- The PSKs `wpa_auth_get_psk` enumerates for this station. -/
  psks : List Pmk
  state : PtkState
  groupState : GroupState
  started : Bool
  init : Bool
  disconnect : Bool
  deauthenticationRequest : Bool
  authenticationRequest : Bool
  reAuthenticationRequest : Bool
  ptkRequest : Bool
  ptkGroupInit : Bool
  timeoutEvt : Bool
  timeoutCtr : ℕ
  gTimeoutCtr : ℕ
  eapolKeyReceived : Bool
  eapolKeyPairwise : Bool
  eapolKeyRequest : Bool
  micVerified : Bool
  gUpdateStationKeys : Bool
  pInitAKeys : Bool
  hasGtk : Bool
  pair : Bool
  changed : Bool
  aNonce : Bytes
  sNonce : Bytes
  altSNonce : Bytes
  altSnonceValid : Bool
  altReplayCounter : ℕ
  updateSnonce : Bool
  /-- `sm->PMK`; `none` for `pmk_len == 0`. -/
  pmk : Option Pmk
  ptk : Ptk
  ptkValid : Bool
  pairwiseSet : Bool
  keyidxActive : ℕ
  keyReplay : List ReplayCounter
  prevKeyReplay : List ReplayCounter
  reqReplayCounterUsed : Bool
  reqReplayCounter : ℕ
  lastRxEapolKey : Option EapolKey
  /-- How many `wpa_send_eapol_timeout` are registered, and whether `wpa_rekey_ptk` is. -/
  eapolTimeouts : ℕ
  rekeyTimer : Bool
  trace : List Out

/-- `RSNA_MAX_EAPOL_RETRIES` counters after `os_memset(.., 0, ..)`. -/
def noCounters : List ReplayCounter := List.replicate 4 ⟨0, false⟩

/-- `wpa_auth_sta_init`. -/
def Sm.new (n : Negotiated) (psks : List Pmk) : Sm where
  neg := n
  psks := psks
  state := .initState
  groupState := .idle
  started := false
  init := false
  disconnect := false
  deauthenticationRequest := false
  authenticationRequest := false
  reAuthenticationRequest := false
  ptkRequest := false
  ptkGroupInit := false
  timeoutEvt := false
  timeoutCtr := 0
  gTimeoutCtr := 0
  eapolKeyReceived := false
  eapolKeyPairwise := false
  eapolKeyRequest := false
  micVerified := false
  gUpdateStationKeys := false
  pInitAKeys := false
  hasGtk := false
  pair := false
  changed := false
  aNonce := []
  sNonce := []
  altSNonce := []
  altSnonceValid := false
  altReplayCounter := 0
  updateSnonce := false
  pmk := none
  ptk := .zero
  ptkValid := false
  pairwiseSet := false
  keyidxActive := 0
  keyReplay := noCounters
  prevKeyReplay := noCounters
  reqReplayCounterUsed := false
  reqReplayCounter := 0
  lastRxEapolKey := none
  eapolTimeouts := 0
  rekeyTimer := false
  trace := []

/-- The TK the driver has taken last and still holds. -/
def driverTk (l : List Out) : Option Bytes :=
  (Lib.latest (fun
    | .setKey _ _ key true => some (some key)
    | .delKey _ true => some none
    | _ => none) l).join

/-- The last 48 octets that were pushed. -/
def lastPush (l : List Out) : Option Bytes :=
  Lib.latest (fun | .pushed b => some b | _ => none) l

/-- Who has written `sm->PTK` last, and what. -/
def lastPtk (l : List Out) : Option (PtkSource × Ptk) :=
  Lib.latest (fun | .newPtk src ptk => some (src, ptk) | _ => none) l

/-- What the entries of the trace leave in `sm->PTK`. -/
def storedPtk (l : List Out) : Ptk :=
  (Lib.latest (fun
    | .newPtk _ ptk => some ptk
    | .delKey 0 _ | .ptkCleared => some .zero
    | _ => none) l).getD .zero

/-! ## Small operations -/

namespace Sm

/-- Adds to the trace. -/
def out (o : Out) (s : Sm) : Sm := { s with trace := o :: s.trace }

/-- `sm->changed = false`, before a round of the loop in `wpa_sm_step`. -/
def unchanged (s : Sm) : Sm := { s with changed := false }

/-- `SM_ENTRY_MA`. -/
def enter (st : PtkState) (s : Sm) : Sm := { s with state := st, changed := true }

/-- A pairwise EAPOL-Key frame that is not a request waits for the state machine. -/
def pairwiseReceived (s : Sm) : Bool :=
  s.eapolKeyReceived && !s.eapolKeyRequest && s.eapolKeyPairwise

/-- `wpa_auth_set_ptk_rekey_timer`. -/
def setPtkRekeyTimer (c : Conf) (s : Sm) : Sm :=
  { s with rekeyTimer := s.rekeyTimer || c.ptkRekey ≠ 0 }

/-- `wpa_mic_len(sm->wpa_key_mgmt, sm->pmk_len)`. -/
def micLen (s : Sm) : ℕ := s.neg.keyMgmt.micLen ((s.pmk.map (·.1.length)).getD 0)

end Sm

/-- `wpa_replay_counter_valid`. -/
def wpaReplayCounterValid (ctr : List ReplayCounter) (n : ℕ) : Bool :=
  (ctr.takeWhile (·.valid)).any (·.counter == n)

/-- `wpa_replay_counter_mark_invalid`; `none` marks all of them. -/
def wpaReplayCounterMarkInvalid (ctr : List ReplayCounter) (n : Option ℕ) : List ReplayCounter :=
  ctr.map fun r => if n = none ∨ n = some r.counter then { r with valid := false } else r

variable (c : Conf) (e : Env)

/-- The frame `__wpa_send_eapol` makes, with the next replay counter; a frame with a MIC needs
a valid PTK. -/
def eapolFrame (b : KeyBody) (s : Sm) : Option EapolKey :=
  let b := { b with
    type := if s.neg.wpa2 then 2 else 254
    ver := keyVersion s.neg.keyMgmt s.neg.pairwise
    keyIndex := if s.neg.wpa2 then 0 else b.keyIndex
    keyLength := if b.pairwise then s.neg.pairwise.keyLen
      else if s.neg.wpa2 then 0 else c.groupCipher.keyLen
    replayCounter := (nextCounter s.keyReplay).counter }
  if !b.hasMic then some ⟨b, List.replicate s.micLen 0⟩
  else if s.ptkValid ∧ s.micLen ≠ 0 then some ⟨b, c.prims.mic s.ptk.kck b⟩
  else none

/-- `wpa_send_eapol`. -/
def wpaSendEapol (b : KeyBody) (s : Sm) : Sm :=
  { s with
    keyReplay := nextCounter s.keyReplay :: s.keyReplay.take 3
    eapolTimeouts := s.eapolTimeouts + 1
    trace := ((eapolFrame c b s).map Out.sent).toList ++ s.trace }

/-- The calls of `wpa_auth_set_key` with `WPA_ALG_NONE`. -/
def delKeys (n : Negotiated) : List Out :=
  if n.useExtKeyId then [.delKey 1 e.delKey, .delKey 0 e.delKey] else [.delKey 0 e.delKey]

/-- `wpa_remove_ptk`. -/
def wpaRemovePtk (s : Sm) : Sm :=
  { s with
    ptkValid := false, ptk := .zero, pairwiseSet := false, rekeyTimer := false
    trace := delKeys e s.neg ++ s.trace }

/-- `wpa_request_new_ptk`. -/
def wpaRequestNewPtk (s : Sm) : Sm :=
  if !s.neg.useExtKeyId && c.denyPtk0Rekey then { s with disconnect := true }
  else
    { s with
      keyidxActive := if s.neg.useExtKeyId then 1 - s.keyidxActive else s.keyidxActive
      ptkRequest := true
      ptkValid := false }

/-- `wpa_sta_disconnect`: `ap_sta_disconnect` takes the authorization away and comes back
with the WPA_DEAUTH event. -/
def wpaStaDisconnect (s : Sm) : Sm :=
  let s := (s.out .disconnect).out .portClosed
  wpaRemovePtk e { s with deauthenticationRequest := true, changed := true }

end Lightguard.Auth
