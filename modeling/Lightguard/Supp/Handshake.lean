import Lightguard.Supp.Machine

/-!
# The supplicant's handshakes

`wpa_supplicant_get_pmk`, `wpa_supplicant_process_1_of_4`, `wpa_supplicant_process_3_of_4`,
`wpa_supplicant_process_1_of_2` and what they call. A handler that fails deauthenticates, which clears the
keys and the PMK at once.
-/

namespace Lightguard.Supp

open Wpa Rotation

variable (c : Conf) (e : Env)

/-! ## Message 1/4 -/

/-- `wpa_supplicant_get_pmk`; false when message 1/4 is not answered. The second component of
the result tells a failure from the start of a full EAP authentication. -/
inductive GetPmk where
  | ok
  | failed
  | startEap
deriving DecidableEq

/-- The entry of the PMKSA cache for the PMKID, and whether there is none. -/
def lookupPmksa (pmkid : Option Bytes) (s : Sm) : Option Pmksa × Bool :=
  if pmkid.isSome ∧ s.curPmksa = none then (e.pmksaGet, e.pmksaGet = none) else (s.curPmksa, false)

/-- The end of `wpa_supplicant_get_pmk`: without a usable entry 802.1X starts over. -/
def abortCached (abort : Bool) (s : Sm) : GetPmk × Sm :=
  if abort ∧ s.par.keyMgmt.wpaIeee8021x then (.startEap, s) else (.ok, s)

/-- `wpa_supplicant_get_pmk`. -/
def wpaSupplicantGetPmk (pmkid : Option Bytes) (s : Sm) : GetPmk × Sm :=
  let cur := (lookupPmksa e pmkid s).1
  let abort := (lookupPmksa e pmkid s).2
  if pmkid.isSome ∧ pmkid = cur.map (·.pmkid) then
    abortCached abort { s with curPmksa := cur, pmk := (cur.map (·.pmk)).getD [] }
  else if s.par.keyMgmt.wpaIeee8021x then
    match e.eapolKey with
    | some key =>
      let sa := if s.par.rsn then e.pmksaAdd else none
      if cur = none ∧ pmkid.isSome then
        -- the PMKID of message 1/4 has to be that of the new entry
        if sa.isSome ∧ sa.map (·.pmkid) ≠ pmkid then (.failed, { s with curPmksa := cur, pmk := key })
        else abortCached (abort && sa.isNone) { s with curPmksa := cur.or sa, pmk := key }
      else abortCached abort { s with curPmksa := cur.or sa, pmk := key }
    | none =>
      if cur.isSome then abortCached true { s with curPmksa := none }
      else if !abort then (.failed, { s with curPmksa := cur })
      else abortCached abort { s with curPmksa := cur }
  else abortCached abort { s with curPmksa := cur }

/-- The LiFi copy's PMK from the passphrase, before anything else. -/
def takePassphrase (s : Sm) : Sm :=
  if c.link = .lifi then
    match msg1Pmk c.pbkdf2 s.pass with
    | none => s
    | some pmk => { s with pmk := pmk, curPmksa := none, pass := afterMsg1 s.pass }
  else s

/-- A new SNonce where one is due; `none` when there is no random data. -/
def renewSnonce (s : Sm) : Option Sm :=
  if s.renewSnonce then e.random.map fun n => { s with snonce := n, renewSnonce := false } else some s

/-- `wpa_derive_ptk`. -/
def wpaDerivePtk (anonce : Bytes) (s : Sm) : Derived :=
  wpaPmkToPtk c.prims c.link true s.par.keyMgmt s.par.pairwiseCipher c.ownAddr s.bssid s.pmk s.snonce
    anonce e.derive

/-- The new `sm->tptk`. -/
def setTptk (anonce : Bytes) (s : Sm) : Sm :=
  let d := wpaDerivePtk c e anonce s
  let ptk := if s.par.pairwiseCipher = .tkip then { d.ptk with tk := tkipSwap d.ptk.tk } else d.ptk
  { s with
    tptk := ptk, tptkSet := true
    trace := .newTptk s.pmk anonce s.snonce ptk :: ((d.pushed.map Out.pushed).toList ++ s.trace) }

/-- Message 2/4. -/
def msg2 (f : EapolKey) (s : Sm) : KeyBody where
  type := if s.par.rsn then 2 else 254
  ver := f.ver
  pairwise := true
  install := false
  ack := false
  hasMic := decide (s.micLen ≠ 0)
  secure := false
  error := false
  request := false
  smk := false
  keyIndex := 0
  keyLength := if s.par.rsn then 0 else f.keyLength
  replayCounter := f.replayCounter
  nonce := s.snonce
  keyData :=
    { length := s.par.assocWpaIe.length + (s.par.assocRsnxe.map List.length).getD 0
      kde := some ⟨some s.par.assocWpaIe, s.par.assocRsnxe, none, none, none⟩
      kek := none }

/-- The rest of message 1/4, once there is a PMK. -/
def answerMsg1 (f : EapolKey) (s : Sm) : Sm :=
  match renewSnonce e s with
  | none => s.deauthenticate
  | some s =>
    if (wpaDerivePtk c e f.nonce s).ret < 0 then s.deauthenticate
    else
      let r := wpaEapolKeySend c e (setTptk c e f.nonce s).tptk (msg2 f s) (setTptk c e f.nonce s)
      if r.1 then { r.2 with anonce := f.nonce } else r.2.deauthenticate

/-- Message 1/4 once its key data has been parsed. -/
def takeMsg1 (f : EapolKey) (kde : Option Kde) (s : Sm) : Sm :=
  match kde with
  | none => s.deauthenticate
  | some ie =>
    match wpaSupplicantGetPmk e ie.pmkid s with
    | (.startEap, s) => s
    | (.failed, s) => s.deauthenticate
    | (.ok, s) => answerMsg1 c e f s

/-- `wpa_supplicant_process_1_of_4`. -/
def process1Of4 (f : EapolKey) (s : Sm) : Sm :=
  let s := takePassphrase c s
  if !s.par.network then s
  else if s.par.denyPtk0Rekey && !s.useExtKeyId && s.wpaState = .completed then s.reconnect
  else
    let kde := if s.par.rsn then f.keyData.kde else some ⟨none, none, none, none, none⟩
    takeMsg1 c e f kde { s with wpaState := .fourWayHandshake }

/-! ## Installing keys -/

/-- What every successful install of a PTK leaves behind. -/
def ptkInstalled (s : Sm) : Sm := { s with ptk := Ptk.handedOver s.ptk }.registerRekey

/-- The PTK `wpa_supplicant_install_ptk` works with: the WiFi copy writes the custom PTK first. -/
def ptkToInstall (s : Sm) : Sm :=
  if c.link = .wifi then { s with ptk := customTestPtk }.out (.wrotePtk .installPtk customTestPtk)
  else s

/-- `wpa_supplicant_install_ptk`. -/
def installPtk (s : Sm) : Bool × Sm :=
  let s := ptkToInstall c s
  if s.ptk.installed then (true, s)
  else if s.par.pairwiseCipher = .none then (true, s)
  else if s.par.pairwiseCipher.keyLen ≠ s.ptk.tk.length then (false, s)
  else
    let t := s.out (.setKey .installPtk s.keyidxActive s.ptk.tk e.setKey)
    if e.setKey then (true, ptkInstalled t) else (false, t)

/-- `wpa_supplicant_activate_ptk`. -/
def activatePtk (s : Sm) : Bool × Sm := (e.setKey, s.out (.activatePtk s.keyidxActive e.setKey))

/-- `wpa_supplicant_install_gtk`; a GTK that is in use is not installed again. -/
def installGtk (g : GtkKde) (s : Sm) : Bool × Sm :=
  if s.gtk = g.gtk then (true, s)
  else
    let key := if s.par.groupCipher = .tkip then tkipSwap g.gtk else g.gtk
    let t := s.out (.setGroupKey .installGtk g.keyidx g.gtk key e.setGroupKey)
    if e.setGroupKey then (true, { t with gtk := g.gtk }) else (false, t)

/-- `wpa_supplicant_check_group_cipher`. -/
def checkGroupCipher (g : GtkKde) (s : Sm) : Bool :=
  s.par.groupCipher.validPairwise && g.gtk.length == s.par.groupCipher.keyLen

/-- `wpa_supplicant_pairwise_gtk`. -/
def pairwiseGtk (g : GtkKde) (s : Sm) : Bool × Sm :=
  if s.par.groupCipher = .none then (true, s)
  else if checkGroupCipher g s then installGtk e g s
  else (false, s)

/-! ## Message 3/4 -/

/-- `wpa_supplicant_validate_ie`; the element of the AP may come from the scan results. -/
def validateIe (ie : Kde) (s : Sm) : Bool :=
  (ie.ie.isSome && ie.ie = s.par.apIe.or e.beaconIe) && (!s.par.rsn || ie.rsnxe = s.par.apRsnxe)

/-- `wpa_handle_ext_key_id`; `none` is -1. -/
def handleExtKeyId (ie : Kde) (s : Sm) : Option Sm :=
  if s.par.extKeyId then
    match ie.keyId with
    | none => if s.useExtKeyId then none else some { s with keyidxActive := 0 }
    | some k => if k > 1 then none else some { s with keyidxActive := k, useExtKeyId := true }
  else if ie.keyId.any (· ≠ 0) then none
  else some { s with keyidxActive := 0, useExtKeyId := false }

/-- Message 4/4. -/
def msg4 (f : EapolKey) (s : Sm) : KeyBody where
  type := if s.par.rsn then 2 else 254
  ver := f.ver
  pairwise := true
  install := false
  ack := false
  hasMic := decide (s.micLen ≠ 0)
  secure := f.secure
  error := false
  request := false
  smk := false
  keyIndex := 0
  keyLength := if s.par.rsn then 0 else f.keyLength
  replayCounter := f.replayCounter
  nonce := List.replicate 32 0
  keyData := ⟨0, some ⟨none, none, none, none, none⟩, none⟩

/-- The key is installed or, with Extended Key ID, activated, when message 3/4 asks for it. -/
def installMsg3 (f : EapolKey) (s : Sm) : Bool × Sm :=
  if !f.install then (true, s)
  else if s.useExtKeyId then activatePtk e s
  else installPtk c e s

/-- The GTK of message 3/4. -/
def gtkMsg3 (ie : Kde) (s : Sm) : Bool × Sm :=
  if s.par.groupCipher = .none then (true, s)
  else match ie.gtk with
    | none => (!s.par.rsn, s)
    | some g => pairwiseGtk e g s

/-- The end of message 3/4. -/
def finishMsg3 (f : EapolKey) (ie : Kde) (s : Sm) : Sm :=
  { s with
    wpaState := if s.par.groupCipher = Cipher.none ∨ ie.gtk.isSome then .completed else s.wpaState
    msg3Of4Ok := true }.out (.msg3Ok f)

/-- The checks of message 3/4 before anything is sent. -/
def checkMsg3 (f : EapolKey) (s : Sm) : Option (Kde × Sm) :=
  match f.keyData.kde with
  | none => none
  | some ie =>
    if ie.gtk.isSome ∧ !encrypted f then none
    else if !validateIe e ie s then none
    else match handleExtKeyId ie s with
      | none => none
      | some s =>
        if s.anonce ≠ f.nonce then none
        else if f.keyLength ≠ s.par.pairwiseCipher.keyLen then none
        else some (ie, s)

/-- `wpa_supplicant_process_3_of_4`. -/
def process3Of4 (f : EapolKey) (s : Sm) : Sm :=
  let s := { s with wpaState := .fourWayHandshake }
  match checkMsg3 e f s with
  | none => s.deauthenticate
  | some (ie, s) =>
    let r₁ := if s.useExtKeyId then installPtk c e s else (true, s)
    if !r₁.1 then r₁.2.deauthenticate
    else
      let r₂ := wpaEapolKeySend c e r₁.2.ptk (msg4 f r₁.2) r₁.2
      if !r₂.1 then r₂.2.deauthenticate
      else
        let r₃ := installMsg3 c e f { r₂.2 with renewSnonce := true }
        if !r₃.1 then r₃.2.deauthenticate
        else
          let r₄ := gtkMsg3 e ie { r₃.2 with wpaState := .groupHandshake }
          if !r₄.1 then r₄.2.deauthenticate else finishMsg3 f ie r₄.2

/-! ## The group key handshake -/

/-- Message 2/2. -/
def groupMsg2 (f : EapolKey) (s : Sm) : KeyBody where
  type := if s.par.rsn then 2 else 254
  ver := f.ver
  pairwise := false
  install := false
  ack := false
  hasMic := decide (s.micLen ≠ 0)
  secure := true
  error := false
  request := false
  smk := false
  keyIndex := f.keyIndex
  keyLength := if s.par.rsn then 0 else f.keyLength
  replayCounter := f.replayCounter
  nonce := List.replicate 32 0
  keyData := ⟨0, some ⟨none, none, none, none, none⟩, none⟩

/-- `wpa_supplicant_process_1_of_2_rsn` and `wpa_supplicant_process_1_of_2_wpa`: the GTK of
message 1/2, decrypted with the KEK. -/
def gtkMsg1 (f : EapolKey) (s : Sm) : Option GtkKde :=
  (f.keyData.kde.bind (·.gtk)).filter fun g =>
    checkGroupCipher g s && (if s.par.rsn then encrypted f else f.keyData.kek = some s.ptk.kek)

/-- `wpa_supplicant_process_1_of_2`. -/
def process1Of2 (f : EapolKey) (s : Sm) : Sm :=
  if !s.msg3Of4Ok then s.deauthenticate
  else
    let g := gtkMsg1 f s
    let s := { s with wpaState := .groupHandshake }
    match g with
    | none => s.deauthenticate
    | some g =>
      let r := installGtk e g s
      if !r.1 then r.2.deauthenticate
      else
        let r := wpaEapolKeySend c e r.2.ptk (groupMsg2 f r.2) r.2
        if !r.1 then r.2.deauthenticate else { r.2 with wpaState := .completed }

end Lightguard.Supp
