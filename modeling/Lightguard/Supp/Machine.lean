import Lightguard.Lib.History
import Lightguard.Rotation.Passphrase
import Lightguard.Wpa.PtkTcp

/-!
# The supplicant's state

`struct wpa_sm` of wpa_supplicant (`wpa_i.h`), its configuration, and what comes from outside
in one event. As in the authenticator's model, what the machine does to its surroundings is
its `trace`, the newest first.

FT, FILS, management frame protection keys, WNM sleep and OCV are not part of the model.
-/

namespace Lightguard.Supp

open Wpa Rotation

/-- The values of `enum wpa_states` the machine looks at. -/
inductive WpaState where
  | other
  | fourWayHandshake
  | groupHandshake
  | completed
deriving DecidableEq

/-- An entry of the PMKSA cache. -/
structure Pmksa where
  pmkid : Bytes
  pmk : Bytes
deriving DecidableEq

/-- What does not change while wpa_supplicant runs. -/
structure Conf where
  link : Link
  prims : Prims
  pbkdf2 : Text → Bytes → ℕ → Bytes
  ownAddr : Addr

/-- What `wpa_sm_set_config`, `wpa_sm_set_param` and the setters of the elements have left. -/
structure Params where
  keyMgmt : KeyMgmt
  pairwiseCipher : Cipher
  /-- `none` stands for `WPA_CIPHER_GTK_NOT_USED`. -/
  groupCipher : Cipher
  /-- `sm->proto == WPA_PROTO_RSN`. -/
  rsn : Bool
  /-- There is a network context. -/
  network : Bool
  assocWpaIe : Bytes
  assocRsnxe : Option Bytes
  apIe : Option Bytes
  apRsnxe : Option Bytes
  extKeyId : Bool
  denyPtk0Rekey : Bool
  wpaPtkRekey : ℕ
deriving DecidableEq

/-- What comes from outside during one event. -/
structure Env where
  /-- `random_get_bytes` for the SNonce. -/
  random : Option Bytes
  derive : DeriveEnv
  /-- The driver's answers for the pairwise slots and for the group slots. -/
  setKey : Bool
  setGroupKey : Bool
  /-- An EAPOL-Key frame can be sent. -/
  sendOk : Bool
  /-- The PMKSA cache: the entry for a PMKID, and the entry `pmksa_cache_add` returns. -/
  pmksaGet : Option Pmksa
  pmksaAdd : Option Pmksa
  /-- `eapol_sm_get_key`. -/
  eapolKey : Option Bytes
  /-- `wpa_sm_get_beacon_ie`. -/
  beaconIe : Option Bytes
deriving DecidableEq

/-- The call sites of `wpa_sm_set_key` for a pairwise key. -/
inductive Site where
  | notifyAssoc
  | rekeyPtk
  | ptkTcp
  | installPtk
deriving DecidableEq

/-- The call sites of `wpa_sm_set_key` for a GTK. -/
inductive GtkSite where
  | notifyAssoc
  | installGtk
deriving DecidableEq

/-- What the machine does to its surroundings, and the marks the properties speak of. -/
inductive Out where
  | associated
  | disassociated
  /-- The fork writes `sm->ptk`. -/
  | wrotePtk (site : Site) (ptk : Ptk)
  /-- `sm->tptk` is derived from these. -/
  | newTptk (pmk aNonce sNonce : Bytes) (ptk : Ptk)
  /-- The MIC of the received frame verifies under this PTK. -/
  | micVerified (ptk : Ptk)
  /-- A message 3/4 is taken without a MIC. -/
  | micSkipped
  /-- `wpa_sm_set_key` for a pairwise slot, with its result. -/
  | setKey (site : Site) (idx : ℕ) (key : Bytes) (ok : Bool)
  /-- `wpa_sm_set_key` for a group slot: the GTK, and its octets in the order the driver wants. -/
  | setGroupKey (site : GtkSite) (idx : ℕ) (gtk key : Bytes) (ok : Bool)
  /-- `wpa_supplicant_activate_ptk`. -/
  | activatePtk (idx : ℕ) (ok : Bool)
  /-- This message 3/4 has been processed without an error. -/
  | msg3Ok (f : EapolKey)
  | deauthenticate
  | reconnect
  /-- 48 octets are written to port 8877. -/
  | pushed (octets : Bytes)
  | sent (f : EapolKey)
deriving DecidableEq

/-- `struct wpa_sm`. -/
structure Sm where
  par : Params
  pass : LifiPass
  bssid : Addr
  wpaState : WpaState
  /-- `sm->pmk`; empty for `pmk_len == 0`. -/
  pmk : Bytes
  curPmksa : Option Pmksa
  snonce : Bytes
  anonce : Bytes
  renewSnonce : Bool
  tptk : Ptk
  tptkSet : Bool
  ptk : Ptk
  ptkSet : Bool
  keyidxActive : ℕ
  useExtKeyId : Bool
  rxReplayCounter : Option ℕ
  requestCounter : ℕ
  gtk : Bytes
  msg3Of4Ok : Bool
  /-- `wpa_sm_rekey_ptk` is registered. -/
  rekeyTimer : Bool
  trace : List Out

/-- The BSSID when there is none. -/
def noBssid : Addr := Addr.zero

/-- `wpa_sm_init`. -/
def Sm.new (par : Params) : Sm where
  par := par
  pass := ⟨[], false, []⟩
  bssid := noBssid
  wpaState := .other
  pmk := []
  curPmksa := none
  snonce := []
  anonce := []
  renewSnonce := true
  tptk := .zero
  tptkSet := false
  ptk := .zero
  ptkSet := false
  keyidxActive := 0
  useExtKeyId := false
  rxReplayCounter := none
  requestCounter := 0
  gtk := []
  msg3Of4Ok := false
  rekeyTimer := false
  trace := []

/-- The TK the driver has taken last in this association. -/
def driverTk (l : List Out) : Option Bytes :=
  (Lib.latest (fun
    | .setKey _ _ key true => some (some key)
    | .associated | .disassociated => some none
    | _ => none) l).join

/-- What the entries of the trace leave in `sm->ptk`; the TK goes once the driver has it. -/
def storedPtk (l : List Out) : Ptk :=
  (Lib.latest (fun
    | .micVerified ptk | .wrotePtk _ ptk => some ptk
    | .associated | .disassociated => some .zero
    | _ => none) l).getD .zero

/-! ## Small operations -/

namespace Sm

/-- Adds to the trace. -/
def out (o : Out) (s : Sm) : Sm := { s with trace := o :: s.trace }

/-- `wpa_mic_len(sm->key_mgmt, sm->pmk_len)`. -/
def micLen (s : Sm) : ℕ := s.par.keyMgmt.micLen s.pmk.length

/-- Registers `wpa_sm_rekey_ptk` anew. -/
def registerRekey (s : Sm) : Sm := { s with rekeyTimer := s.rekeyTimer || s.par.wpaPtkRekey ≠ 0 }

end Sm

/-! ## Leaving the access point -/

/-- `wpa_sm_notify_disassoc` with `wpa_sm_drop_sa`. -/
def wpaSmNotifyDisassoc (s : Sm) : Sm :=
  { s with
    rekeyTimer := false, curPmksa := none, ptkSet := false, tptkSet := false, pmk := []
    ptk := .zero, tptk := .zero, gtk := [], keyidxActive := 0, msg3Of4Ok := false, bssid := noBssid
    trace := .disassociated :: s.trace }

/-- `wpa_supplicant_deauthenticate`: `EVENT_DEAUTH` is raised from within, and the machine is told before
the call returns; then `wpa_supplicant_clear_connection` takes the configuration away. Whoever calls it has
a BSSID. -/
def wpaSupplicantDeauthenticate (s : Sm) : Sm :=
  let s := wpaSmNotifyDisassoc s
  { s with
    wpaState := .other
    -- `wpa_sm_set_config(wpa_s->wpa, NULL)`
    par := { s.par with network := false, wpaPtkRekey := 0 }
    pass := { s.pass with ssid := [] } }

namespace Sm

/-- `wpa_sm_deauthenticate`. -/
def deauthenticate (s : Sm) : Sm := wpaSupplicantDeauthenticate (s.out .deauthenticate)

/-- `wpa_sm_reconnect`; the next association starts from the event loop. -/
def reconnect (s : Sm) : Sm := wpaSupplicantDeauthenticate (s.out .reconnect)

end Sm

/-- The end of every successful install: the TK is not needed in the supplicant any more. -/
def Ptk.handedOver (p : Ptk) : Ptk := { p with tk := [], installed := true }

/-- The keys of TKIP's Michael MIC change places at the supplicant. -/
def tkipSwap (k : Bytes) : Bytes := k.take 16 ++ (k.drop 24).take 8 ++ (k.drop 16).take 8

/-- The key data is encrypted. -/
def encrypted (f : EapolKey) : Bool := f.keyData.kek.isSome

variable (c : Conf) (e : Env)

/-- `wpa_eapol_key_send`: the frame with its MIC; a MIC needs a KCK. -/
def wpaEapolKeySend (ptk : Ptk) (b : KeyBody) (s : Sm) : Bool × Sm :=
  if s.micLen ≠ 0 ∧ b.hasMic ∧ ptk.kck = [] then (false, s)
  else if !e.sendOk then (false, s)
  else
    let mic := if b.hasMic then c.prims.mic ptk.kck b else List.replicate s.micLen 0
    (true, s.out (.sent ⟨b, mic⟩))

/-- `wpa_sm_key_request`. -/
def wpaSmKeyRequest (error pairwise : Bool) (s : Sm) : Sm :=
  if pairwise && s.par.denyPtk0Rekey && !s.useExtKeyId && s.wpaState = .completed then
    s.reconnect
  else
    let b : KeyBody :=
      { type := if s.par.rsn then 2 else 254
        ver := keyVersion s.par.keyMgmt s.par.pairwiseCipher
        pairwise := pairwise
        install := false
        ack := false
        hasMic := s.ptkSet && s.micLen ≠ 0
        secure := s.ptkSet
        error := error
        request := true
        smk := false
        keyIndex := 0
        keyLength := 0
        replayCounter := s.requestCounter
        nonce := List.replicate 32 0
        keyData := ⟨0, some ⟨none, none, none, none, none⟩, none⟩ }
    (wpaEapolKeySend c e s.ptk b { s with requestCounter := (s.requestCounter + 1) % 2 ^ 64 }).2

end Lightguard.Supp
