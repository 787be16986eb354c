import Lightguard.Auth.Machine

/-!
# The authenticator's states and transitions

`SM_STATE(WPA_PTK, ..)`, `SM_STEP(WPA_PTK)`, `SM_STATE(WPA_PTK_GROUP, ..)`,
`SM_STEP(WPA_PTK_GROUP)` and the loop `wpa_sm_step` around them. The loop has no bound in
the source; here a run that needs more rounds than the event's fuel is no run.
-/

namespace Lightguard.Auth

open Wpa

variable (c : Conf) (e : Env)

/-! ## The PTK states -/

/-- `SM_STATE(WPA_PTK, INITIALIZE)`. -/
def enterInitialize (s : Sm) : Sm :=
  let s := s.enter .initState
  let s := { s with
    -- Init is not cleared here: no busy loop
    changed := !s.init
    gUpdateStationKeys := false
    pInitAKeys := if s.neg.wpa2 then s.pInitAKeys else false
    pair := true }
  let s := wpaRemovePtk e s
  { s with timeoutCtr := 0 }.out .portClosed

/-- `SM_STATE(WPA_PTK, DISCONNECT)`. -/
def enterDisconnect (s : Sm) : Sm :=
  wpaStaDisconnect e { s.enter .disconnect with disconnect := false }

/-- `SM_STATE(WPA_PTK, DISCONNECTED)`. -/
def enterDisconnected (s : Sm) : Sm :=
  { s.enter .disconnected with deauthenticationRequest := false }

/-- `SM_STATE(WPA_PTK, AUTHENTICATION)`. -/
def enterAuthentication (s : Sm) : Sm :=
  { s.enter .authentication with
    ptk := .zero, ptkValid := false, authenticationRequest := false }.out .ptkCleared

/-- `SM_STATE(WPA_PTK, AUTHENTICATION2)`. -/
def enterAuthentication2 (s : Sm) : Sm :=
  let s := { s.enter .authentication2 with reAuthenticationRequest := false }
  match e.random with
  | none => { s with disconnect := true }
  | some n => { s with aNonce := n, timeoutCtr := 0 }

/-- `SM_STATE(WPA_PTK, INITPMK)`. -/
def enterInitpmk (s : Sm) : Sm :=
  let s := s.enter .initpmk
  match s.neg.pmksa with
  | some pmk => { s with pmk := some pmk, reqReplayCounterUsed := false }
  | none =>
    if s.neg.keyMgmt = .dpp then { s with disconnect := true }
    else match e.msk with
      | none => { s with disconnect := true }
      | some msk =>
        if h : msk.length < 32 then { s with disconnect := true }
        else
          let pmk : Pmk := ⟨msk.take 32, by rw [List.length_take]; omega⟩
          { s with pmk := some pmk, reqReplayCounterUsed := false }

/-- `SM_STATE(WPA_PTK, INITPSK)`: the first PSK, or the PMKSA cache entry for SAE. -/
def enterInitpsk (s : Sm) : Sm :=
  { s.enter .initpsk with
    pmk := if s.neg.keyMgmt = .sae ∧ s.neg.pmksa.isSome then s.neg.pmksa else s.psks.head?.or s.pmk
    reqReplayCounterUsed := false }

/-- Message 1/4. -/
def msg1 (s : Sm) : KeyBody where
  type := 0
  ver := 0
  pairwise := true
  install := false
  ack := true
  hasMic := false
  secure := false
  error := false
  request := false
  smk := false
  keyIndex := 0
  keyLength := 0
  replayCounter := 0
  nonce := s.aNonce
  keyData := ⟨if e.pmkid.isSome then 22 else 0, some ⟨none, none, e.pmkid, none, none⟩, none⟩

/-- `SM_STATE(WPA_PTK, PTKSTART)`. -/
def enterPtkstart (s : Sm) : Sm :=
  let s := { s.enter .ptkstart with
    ptkRequest := false, timeoutEvt := false, altSnonceValid := false
    timeoutCtr := s.timeoutCtr + 1 }
  if s.timeoutCtr > c.pairwiseUpdateCount then s else wpaSendEapol c (msg1 e s) s

/-- `wpa_derive_ptk`: the two ends' addresses, the machine's ANonce and the given SNonce. -/
def wpaDerivePtk (s : Sm) (pmk : Pmk) (sNonce : Bytes) (d : DeriveEnv) : Derived :=
  wpaPmkToPtk c.prims c.link (c.link == .wifi) s.neg.keyMgmt s.neg.pairwise c.addr c.sta pmk.1
    s.aNonce sNonce d

/-- The loop of `wpa_try_alt_snonce` and of PTKCALCNEGOTIATING: derive a PTK from each
candidate and stop at the first under which the MIC of the frame verifies, or when a
derivation fails. The first component is what the derivations have pushed, newest first. -/
def searchPmk (s : Sm) (sNonce : Bytes) (f : EapolKey) :
    List (Option Pmk) → List DeriveEnv → List Out × Option (Pmk × Ptk)
  | [], _ => ([], none)
  -- wpa_pmk_to_ptk fails without a PMK
  | none :: _, _ => ([], none)
  | some pmk :: pmks, ds =>
    let d := wpaDerivePtk c s pmk sNonce (ds.headD default)
    let pushed := (d.pushed.map Out.pushed).toList
    if d.ret < 0 then (pushed, none)
    else if s.micLen ≠ 0 ∧ c.prims.verifyKeyMic d.ptk f then (pushed, some (pmk, d.ptk))
    else
      let r := searchPmk s sNonce f pmks ds.tail
      (r.1 ++ pushed, r.2)

/-- The PMKs `wpa_try_alt_snonce` goes through: the PSKs of the station, or `sm->PMK`. -/
def Sm.altCandidates (s : Sm) : List (Option Pmk) :=
  if s.neg.keyMgmt.wpaPsk ∧ s.neg.keyMgmt ≠ .sae then s.psks.map some else [s.pmk]

/-- The PMKs PTKCALCNEGOTIATING goes through; the PMKSA cache stands in for a missing PMK. -/
def Sm.candidates (s : Sm) : List (Option Pmk) := s.altCandidates.map (·.or s.neg.pmksa)

/-- The search of PTKCALCNEGOTIATING, on the frame `wpa_receive` has stored. -/
def calcSearch (s : Sm) : List Out × Option (Pmk × Ptk) :=
  match s.lastRxEapolKey with
  | none => ([], none)
  | some f => searchPmk c s s.sNonce f s.candidates e.derive

/-- What PTKCALCNEGOTIATING makes of the elements in message 2/4. -/
inductive IeCheck where
  | same
  | unreadable
  | mismatch
deriving DecidableEq

/-- The comparison of the elements in message 2/4 with those of the (re)association request. -/
def checkIes (s : Sm) : IeCheck :=
  match s.lastRxEapolKey.bind (·.keyData.kde) with
  | none => .unreadable
  | some kde =>
    if s.neg.wpaIe.isSome ∧ kde.ie = s.neg.wpaIe ∧ kde.rsnxe = s.neg.rsnxe then .same
    else .mismatch

/-- What a search leaves in the trace. -/
def searchOut (r : List Out × Option (Pmk × Ptk)) : List Out :=
  (r.2.map fun found => .micVerified found.2).toList ++ r.1

/-- The start of PTKCALCNEGOTIATING, up to the search. -/
def calcSearched (s : Sm) : Sm :=
  { s.enter .ptkcalcnegotiating with
    eapolKeyReceived := false, updateSnonce := false
    trace := searchOut (calcSearch c e s) ++ s.trace }

/-- The end of PTKCALCNEGOTIATING: the PTK is taken over. -/
def calcAdopted (pmk : Pmk) (ptk : Ptk) (s : Sm) : Sm :=
  { calcSearched c e s with
    pmk := some pmk, eapolTimeouts := 0, micVerified := true, ptk := ptk, ptkValid := true
    trace := .newPtk (.derived pmk s.aNonce s.sNonce) ptk :: (calcSearched c e s).trace }

/-- `SM_STATE(WPA_PTK, PTKCALCNEGOTIATING)`. -/
def enterPtkcalcnegotiating (s : Sm) : Sm :=
  match (calcSearch c e s).2 with
  | none => calcSearched c e s
  | some (pmk, ptk) =>
    match checkIes s with
    | .unreadable => { calcSearched c e s with pmk := some pmk }
    | .mismatch => wpaStaDisconnect e { calcSearched c e s with pmk := some pmk }
    | .same => calcAdopted c e pmk ptk s

/-- `SM_STATE(WPA_PTK, PTKCALCNEGOTIATING2)`. -/
def enterPtkcalcnegotiating2 (s : Sm) : Sm :=
  { s.enter .ptkcalcnegotiating2 with timeoutCtr := 0 }

/-- Message 3/4. -/
def msg3 (s : Sm) : KeyBody where
  type := 0
  ver := 0
  pairwise := true
  install := true
  ack := true
  hasMic := decide (s.micLen ≠ 0)
  -- a WPA station that has used the Secure bit itself gets it back
  secure := s.neg.wpa2 || (s.lastRxEapolKey.map (·.secure)).getD false
  error := false
  request := false
  smk := false
  keyIndex := 0
  keyLength := 0
  replayCounter := 0
  nonce := s.aNonce
  keyData :=
    { length := c.wpaIe.length + if s.neg.wpa2 then 8 + e.gtk.length else 0
      kde := some
        { ie := some c.wpaIe
          rsnxe := c.rsnxe
          pmkid := none
          gtk := if s.neg.wpa2 then some ⟨e.gn, e.gtk⟩ else none
          keyId := if s.neg.useExtKeyId then some s.keyidxActive else none }
      kek := if s.neg.wpa2 then some s.ptk.kek else none }

/-- `SM_STATE(WPA_PTK, PTKINITNEGOTIATING)`. -/
def enterPtkinitnegotiating (s : Sm) : Sm :=
  let s := { s.enter .ptkinitnegotiating with timeoutEvt := false, timeoutCtr := s.timeoutCtr + 1 }
  if c.disableEapolKeyRetries ∧ s.timeoutCtr > 1 then s
  else if s.timeoutCtr > c.pairwiseUpdateCount then s
  else if s.neg.wpa2 ∧ s.neg.useExtKeyId ∧ s.timeoutCtr = 1 then
    -- the new key is made available for reception before message 3/4
    let s := s.out (.setKey .ptkinitnegotiating s.keyidxActive
      (s.ptk.tkBuf s.neg.pairwise.keyLen) e.setKey)
    if e.setKey then wpaSendEapol c (msg3 c e s) s else wpaStaDisconnect e s
  else wpaSendEapol c (msg3 c e s) s

/-- The calls of `wpa_auth_set_eapol` that open the port. -/
def portCalls (site : Site) (n : Negotiated) : List Out :=
  if n.keyMgmt.wpaPsk ∨ n.keyMgmt = .dpp ∨ n.keyMgmt = .owe then [.portValid site, .authorized site]
  else [.portValid site]

/-- The port is opened: the end of PTKINITDONE and of the WiFi fork's fast path. -/
def openPort (site : Site) (s : Sm) : Sm :=
  { s with
    hasGtk := s.neg.wpa2 || s.hasGtk
    pInitAKeys := !s.neg.wpa2 || s.pInitAKeys
    trace := portCalls site s.neg ++ s.trace }

/-- The calls of `wpa_auth_set_key` in PTKINITDONE. With Extended Key ID the key is already
there and only its direction changes. -/
def doneKeys (s : Sm) : List Out :=
  if s.neg.useExtKeyId then []
  else [.setKey .ptkinitdone 0 (s.ptk.tkBuf s.neg.pairwise.keyLen) e.setKey]

/-- PTKINITDONE up to the driver's answer. -/
def doneEntered (s : Sm) : Sm :=
  { s.enter .ptkinitdone with
    eapolKeyReceived := false
    trace := (if s.pair then doneKeys e s else []) ++ .ptkinitdone s.ptk :: s.trace }

/-- The port is opened without a pairwise key. -/
def openPortNoPair (s : Sm) : Sm :=
  { s with
    hasGtk := s.neg.wpa2 || s.hasGtk
    pInitAKeys := !s.neg.wpa2 || s.pInitAKeys
    trace := .portValid .ptkinitdone :: s.trace }

/-- `SM_STATE(WPA_PTK, PTKINITDONE)`. -/
def enterPtkinitdone (s : Sm) : Sm :=
  if s.pair then
    if e.setKey then
      openPort .ptkinitdone ({ doneEntered e s with pairwiseSet := true }.setPtkRekeyTimer c)
    else wpaStaDisconnect e (doneEntered e s)
  else openPortNoPair (doneEntered e s)

/-! ## Transitions -/

/-- The `switch` in `SM_STEP(WPA_PTK)`: the transitions without a request. -/
def smStepState (s : Sm) : Sm :=
  match s.state with
  | .initState => s
  | .disconnect => enterDisconnected s
  | .disconnected => enterInitialize e s
  | .authentication => enterAuthentication2 e s
  | .authentication2 =>
    if s.neg.keyMgmt.wpaIeee8021x ∧ e.keyRun then enterInitpmk e s
    else if s.neg.keyMgmt.wpaPsk ∨ s.neg.keyMgmt = .owe then enterInitpsk s
    else if s.neg.keyMgmt = .dpp then enterInitpmk e s
    else s
  | .initpmk =>
    if e.keyAvailable then enterPtkstart c e s
    else if s.neg.keyMgmt = .dpp ∧ s.neg.pmksa.isSome then enterPtkstart c e s
    else enterDisconnect e s
  | .initpsk =>
    if s.psks ≠ [] then enterPtkstart c e s
    else if s.neg.keyMgmt = .sae ∧ s.neg.pmksa.isSome then enterPtkstart c e s
    else enterDisconnect e s
  | .ptkstart =>
    if s.pairwiseReceived then enterPtkcalcnegotiating c e s
    else if s.timeoutCtr > c.pairwiseUpdateCount then enterDisconnect e s
    else if s.timeoutEvt then enterPtkstart c e s
    else s
  | .ptkcalcnegotiating =>
    if s.micVerified then enterPtkcalcnegotiating2 s
    else if s.pairwiseReceived then enterPtkcalcnegotiating c e s
    else if s.timeoutEvt then enterPtkstart c e s
    else s
  | .ptkcalcnegotiating2 => enterPtkinitnegotiating c e s
  | .ptkinitnegotiating =>
    if s.updateSnonce then enterPtkcalcnegotiating c e s
    else if s.pairwiseReceived ∧ s.micVerified then enterPtkinitdone c e s
    else if s.timeoutCtr > c.pairwiseUpdateCount ∨ c.disableEapolKeyRetries ∧ s.timeoutCtr > 1 then
      enterDisconnect e s
    else if s.timeoutEvt then enterPtkinitnegotiating c e s
    else s
  | .ptkinitdone => s

/-- `SM_STEP(WPA_PTK)`. -/
def smStepPtk (s : Sm) : Sm :=
  if s.init then enterInitialize e s
  else if s.disconnect then enterDisconnect e s
  else if s.deauthenticationRequest then enterDisconnected s
  else if s.authenticationRequest then enterAuthentication s
  else if s.reAuthenticationRequest then enterAuthentication2 e s
  else if s.ptkRequest then
    -- wpa_auth_sm_ptk_update
    match e.random with
    | none => enterDisconnected { s with disconnect := true }
    | some n => enterPtkstart c e { s with aNonce := n, timeoutCtr := 0 }
  else smStepState c e s

/-! ## The group key handshake with this station -/

/-- `SM_ENTRY_MA(WPA_PTK_GROUP, ..)`. -/
def Sm.enterGroup (st : GroupState) (s : Sm) : Sm := { s with groupState := st, changed := true }

/-- Message 1/2 of the group key handshake. -/
def groupMsg1 (s : Sm) : KeyBody where
  type := 0
  ver := 0
  pairwise := false
  install := !s.pair
  ack := true
  hasMic := decide (s.micLen ≠ 0)
  secure := true
  error := false
  request := false
  smk := false
  keyIndex := e.gn
  keyLength := 0
  replayCounter := 0
  nonce := []
  keyData := ⟨8 + e.gtk.length, some ⟨none, none, none, some ⟨e.gn, e.gtk⟩, none⟩, some s.ptk.kek⟩

/-- `SM_STATE(WPA_PTK_GROUP, REKEYNEGOTIATING)`. -/
def enterRekeynegotiating (s : Sm) : Sm :=
  let s := { s.enterGroup .rekeynegotiating with gTimeoutCtr := s.gTimeoutCtr + 1 }
  if c.disableEapolKeyRetries ∧ s.gTimeoutCtr > 1 then s
  else if s.gTimeoutCtr > c.groupUpdateCount then s
  else
    let s := { s with
      pInitAKeys := if s.neg.wpa2 then s.pInitAKeys else false
      timeoutEvt := false }
    wpaSendEapol c (groupMsg1 e s) s

/-- `SM_STEP(WPA_PTK_GROUP)`. -/
def smStepPtkGroup (s : Sm) : Sm :=
  if s.init ∨ s.ptkGroupInit then
    { s.enterGroup .idle with changed := !s.init, gTimeoutCtr := 0, ptkGroupInit := false }
  else match s.groupState with
    | .idle =>
      if s.gUpdateStationKeys ∨ !s.neg.wpa2 ∧ s.pInitAKeys then enterRekeynegotiating c e s else s
    | .rekeynegotiating =>
      if s.eapolKeyReceived ∧ !s.eapolKeyRequest ∧ !s.eapolKeyPairwise ∧ s.micVerified then
        { s.enterGroup .rekeyestablished with
          eapolKeyReceived := false, gUpdateStationKeys := false, gTimeoutCtr := 0, hasGtk := true }
      else if s.gTimeoutCtr > c.groupUpdateCount ∨ c.disableEapolKeyRetries ∧ s.gTimeoutCtr > 1 then
        { s.enterGroup .keyerror with gUpdateStationKeys := false, disconnect := true }
      else if s.timeoutEvt then enterRekeynegotiating c e s
      else s
    | .keyerror => { s.enterGroup .idle with gTimeoutCtr := 0 }
    | .rekeyestablished => { s.enterGroup .idle with gTimeoutCtr := 0 }

/-- One round of the loop in `wpa_sm_step`. -/
def smRound (s : Sm) : Sm := smStepPtkGroup c e (smStepPtk c e s.unchanged)

/-- `wpa_sm_step`, when `n` rounds are enough. -/
def smLoop : ℕ → Sm → Option Sm
  | 0, _ => none
  | n + 1, s => if (smRound c e s).changed then smLoop n (smRound c e s) else some (smRound c e s)

/-- `wpa_sm_step`. -/
def wpaSmStep (s : Sm) : Option Sm := smLoop c e e.fuel s

end Lightguard.Auth
