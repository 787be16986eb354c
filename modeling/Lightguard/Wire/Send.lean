import Lightguard.Auth.Step
import Lightguard.Supp.Handshake
import Lightguard.Wire.Frame

/-!
# EAPOL-Key frames from one end to the other

`__wpa_send_eapol` of hostapd and `wpa_eapol_key_send` of wpa_supplicant on octets, and what the other end
makes of them: `wpa_verify_key_mic`, `wpa_supplicant_verify_eapol_key_mic`, the decryption and the elements
in the key data.

* `apSend_received`, `staSend_received`: the other end finds the header, a MIC that verifies, and the key data.
-/

namespace Lightguard.Wire

open Wpa
open Lib.Tlv (Elem encode)

/-- The algorithms of the crypto library: `aes_encrypt_init`, and `wpa_eapol_key_mic` of key, suite,
descriptor version and octets. -/
structure Crypto where
  aes : Bytes → Option BlockCipher
  mic : Bytes → KeyMgmt → ℕ → Bytes → Option Bytes

variable (K : Crypto)

/-- A frame with the MIC over the frame with a MIC of zeros. -/
def withMic (k : KeyMgmt) (ver micLen : ℕ) (kck : Bytes) (frame : Bytes → Bytes) : Option Bytes :=
  (K.mic kck k ver (frame (List.replicate micLen 0))).map fun m => frame (fixed micLen m)

/-- The octets with zeros for the MIC. -/
def zeroMic (micLen : ℕ) (octets : Bytes) : Bytes :=
  octets.take 81 ++ (List.replicate micLen 0 ++ octets.drop (81 + micLen))

/-- `wpa_verify_key_mic`, and the same in `wpa_supplicant_verify_eapol_key_mic`. -/
def wpaVerifyKeyMic (k : KeyMgmt) (micLen : ℕ) (kck : Bytes) (r : Rx) : Bool :=
  (K.mic kck k (hdrInfo r.hdr &&& 7) (zeroMic micLen r.octets)).any fun m => fixed micLen m == r.mic

/-! ## The senders -/

/-- What only the octets have: `eapol_version`, `key_rsc`, and the `key_iv` that RC4 takes from
`group->Counter`. -/
structure Extra where
  version : UInt8
  rsc : Bytes
  iv : Bytes

/-- The header `__wpa_send_eapol` makes. -/
def apBody (c : Auth.Conf) (b : KeyBody) (s : Auth.Sm) : KeyBody :=
  { b with
    type := if s.neg.wpa2 then 2 else 254
    ver := keyVersion s.neg.keyMgmt s.neg.pairwise
    keyIndex := if s.neg.wpa2 then 0 else b.keyIndex
    keyLength := if b.pairwise then s.neg.pairwise.keyLen
      else if s.neg.wpa2 then 0 else c.groupCipher.keyLen
    replayCounter := (Auth.nextCounter s.keyReplay).counter }

/-- The octets `__wpa_send_eapol` sends; `kde` is the key data before it is encrypted. -/
def apSend (x : Extra) (c : Auth.Conf) (b : KeyBody) (kde : Bytes) (encr : Bool) (s : Auth.Sm) : Option Bytes :=
  let ver := keyVersion s.neg.keyMgmt s.neg.pairwise
  let iv := if encr && !wrapsKeyData s.neg.keyMgmt ver then fixed 16 x.iv else []
  let keyData :=
    if encr then encryptKeyData K.aes s.neg.keyMgmt ver s.ptk.kek (fixed 16 iv) kde else some kde
  -- without a MIC there is room for the tag of AES-SIV
  let rest := if s.micLen = 0 ∧ encr then List.replicate 16 0 else []
  keyData.bind fun keyData =>
    let frame mic :=
      frameOctets x.version (hdrOctets (apBody c b s) (encr && s.neg.wpa2) iv x.rsc) mic keyData rest
    if !b.hasMic then some (frame (List.replicate s.micLen 0))
    else if s.ptkValid ∧ s.micLen ≠ 0 then withMic K s.neg.keyMgmt ver s.micLen s.ptk.kck frame
    else none

/-- The octets `wpa_eapol_key_send` sends for a message; without FILS there is no frame without room for a
MIC. -/
def staSend (version : UInt8) (ptk : Ptk) (b : KeyBody) (keyData : Bytes) (s : Supp.Sm) : Option Bytes :=
  let frame mic := frameOctets version (hdrOctets b false [] []) mic keyData []
  if s.micLen = 0 then none
  else if !b.hasMic then some (frame (List.replicate s.micLen 0))
  else if ptk.kck = [] then none
  else withMic K s.par.keyMgmt b.ver s.micLen ptk.kck frame

/-! ## What arrives -/

variable {K} {k : KeyMgmt} {micLen : ℕ} {kck hdr mic keyData rest w : Bytes} {version : UInt8}

theorem zeroMic_frameOctets (hhdr : hdr.length = 77) (hmic : mic.length = micLen) :
    zeroMic micLen (frameOctets version hdr mic keyData rest) =
      frameOctets version hdr (List.replicate micLen 0) keyData rest := by
  have h81 := drop_frameOctets version mic keyData rest hhdr
  have hpre : (frameOctets version hdr mic keyData rest).take 81 =
      version :: 3 :: (Lib.be 2 (77 + mic.length + 2 + keyData.length + rest.length) ++ hdr) := by
    rw [frameOctets, List.take_succ_cons, List.take_succ_cons, ← List.append_assoc,
      List.take_left' (by rw [List.length_append, Lib.length_be, hhdr])]
  rw [zeroMic, hpre, ← List.drop_drop, h81, List.drop_left' hmic, frameOctets, List.length_replicate, hmic]
  simp

/-- **A frame arrives**: the other end finds its parts, and the MIC verifies. -/
theorem withMic_received {ver : ℕ} (hhdr : hdr.length = 77) (hknown : KnownType hdr[0]?)
    (hver : hdrInfo hdr &&& 7 = ver)
    (hfit : 77 + micLen + 2 + keyData.length + rest.length < 65536)
    (h : withMic K k ver micLen kck (frameOctets version hdr · keyData rest) = some w) (junk : Bytes) :
    ∃ r, rxFrame micLen (w ++ junk) = some r ∧ r.hdr = hdr ∧ r.keyData = keyData ∧
      wpaVerifyKeyMic K k micLen kck r = true := by
  obtain ⟨m, hm, rfl⟩ := Option.map_eq_some_iff.1 h
  have hlen := length_fixed micLen m
  have hrx := rxFrame_frameOctets version hhdr hknown
    (show 77 + (fixed micLen m).length + 2 + keyData.length + rest.length < 65536 by rw [hlen]; exact hfit) junk
  rw [hlen] at hrx
  refine ⟨_, hrx, rfl, rfl, ?_⟩
  rw [wpaVerifyKeyMic]
  simp only [hver]
  rw [zeroMic_frameOctets hhdr hlen, hm]
  simp

theorem apBody_eq {c : Auth.Conf} {b : KeyBody} {s : Auth.Sm} {f : EapolKey}
    (h : Auth.eapolFrame c b s = some f) : f.toKeyBody = apBody c b s := by
  unfold Auth.eapolFrame at h
  simp only at h
  split at h
  · obtain rfl := Option.some.inj h
    rfl
  split at h
  · obtain rfl := Option.some.inj h
    rfl
  · cases h

theorem keyVersion_lt (k : KeyMgmt) (p : Cipher) : keyVersion k p < 8 := by
  cases k <;> cases p <;> decide

/-- A frame arrives that may be without a MIC. -/
theorem frame_received {b : Bool} {ver : ℕ} {valid : Prop} [Decidable valid] (hhdr : hdr.length = 77)
    (hknown : KnownType hdr[0]?) (hver : hdrInfo hdr &&& 7 = ver) (hfit : 77 + micLen + 2 + keyData.length + rest.length < 65536)
    (h : (if !b then some (frameOctets version hdr (List.replicate micLen 0) keyData rest)
      else if valid then withMic K k ver micLen kck (frameOctets version hdr · keyData rest) else none) = some w)
    (junk : Bytes) :
    ∃ r, rxFrame micLen (w ++ junk) = some r ∧ r.hdr = hdr ∧ r.keyData = keyData ∧
      (b = true → wpaVerifyKeyMic K k micLen kck r = true) := by
  cases b with
  | false =>
    obtain rfl := Option.some.inj h
    have hrx := rxFrame_frameOctets version hhdr hknown (show 77 + (List.replicate micLen (0 : UInt8)).length + 2 +
      keyData.length + rest.length < 65536 by rw [List.length_replicate]; exact hfit) junk
    rw [List.length_replicate] at hrx
    exact ⟨_, hrx, rfl, rfl, nofun⟩
  | true =>
    rw [if_neg (by decide)] at h
    split at h
    · obtain ⟨r, hrx, hr, hdata, hmic⟩ := withMic_received hhdr hknown hver hfit h junk
      exact ⟨r, hrx, hr, hdata, fun _ => hmic⟩
    · cases h

/-- The descriptor type of a header. -/
theorem knownType_hdrOctets {b : KeyBody} {encr : Bool} {iv rsc : Bytes} (h : b.type = 2 ∨ b.type = 254) :
    KnownType (hdrOctets b encr iv rsc)[0]? := by
  rcases h with h | h
  · exact .inr (by rw [hdrOctets, h]; rfl)
  · exact .inl (by rw [hdrOctets, h]; rfl)

section Ap

variable {x : Extra} {c : Auth.Conf} {b : KeyBody} {kde : Bytes} {encr : Bool} {s : Auth.Sm}

/-- **From the access point to the station.** The station finds the header, a MIC that verifies under the
KCK of the access point, and decrypts the key data with its KEK. -/
theorem apSend_received (hb : Fits (apBody c b s)) (hfit : kde.length + s.micLen < 65000)
    (h : apSend K x c b kde encr s = some w) (junk : Bytes) :
    ∃ r, rxFrame s.micLen (w ++ junk) = some r ∧
      (∀ data, hdrBody r.hdr data = { apBody c b s with nonce := fixed 32 b.nonce, keyData := data }) ∧
      infoBit (hdrInfo r.hdr) 12 = (encr && s.neg.wpa2) ∧
      (b.hasMic = true → wpaVerifyKeyMic K s.neg.keyMgmt s.micLen s.ptk.kck r = true) ∧
      if encr then
        wpaSupplicantDecryptKeyData K.aes s.neg.keyMgmt (keyVersion s.neg.keyMgmt s.neg.pairwise) s.ptk.kek
          (hdrIv r.hdr) r.keyData =
        some (kde ++ padding
          (keyDataPad s.neg.keyMgmt (keyVersion s.neg.keyMgmt s.neg.pairwise) kde.length))
      else r.keyData = kde := by
  unfold apSend at h
  simp only at h
  obtain ⟨data, hdata, hw⟩ := Option.bind_eq_some_iff.1 h
  have hlen : data.length ≤ kde.length + 16 := by
    split at hdata
    · exact length_encryptKeyData_le hdata
    · obtain rfl := Option.some.inj hdata
      omega
  have hrest : (if s.micLen = 0 ∧ encr = true then List.replicate 16 (0 : UInt8) else []).length ≤ 16 := by
    split <;> simp
  have hver : hdrInfo (hdrOctets (apBody c b s) (encr && s.neg.wpa2)
      (if encr && !wrapsKeyData s.neg.keyMgmt (keyVersion s.neg.keyMgmt s.neg.pairwise) then fixed 16 x.iv else [])
      x.rsc) &&& 7 = keyVersion s.neg.keyMgmt s.neg.pairwise :=
    congrArg KeyBody.ver (body_hdrOctets hb b.keyData)
  have htype : (apBody c b s).type = 2 ∨ (apBody c b s).type = 254 := by
    unfold apBody
    cases s.neg.wpa2 <;> simp
  obtain ⟨r, hrx, hr, hkeyData, hmic⟩ :=
    frame_received length_hdrOctets (knownType_hdrOctets htype) hver (by omega) hw junk
  refine ⟨r, hrx, fun d => ?_, ?_, hmic, ?_⟩
  · rw [hr, body_hdrOctets hb]
    rfl
  · rw [hr, encr_hdrOctets hb]
  · rw [hr, iv_hdrOctets, hkeyData]
    cases encr with
    | true => exact decrypt_encrypt hdata
    | false => exact (Option.some.inj hdata).symm

end Ap

/-- **From the station to the access point.** The access point finds the header, a MIC that verifies under
the KCK of the station, and the key data. -/
theorem staSend_received {ptk : Ptk} {b : KeyBody} {s : Supp.Sm} (hb : Fits b)
    (htype : b.type = 2 ∨ b.type = 254) (hfit : keyData.length + s.micLen < 65000) (h : staSend K version ptk b keyData s = some w) (junk : Bytes) :
    ∃ r, rxFrame s.micLen (w ++ junk) = some r ∧
      (∀ data, hdrBody r.hdr data = { b with nonce := fixed 32 b.nonce, keyData := data }) ∧
      (b.hasMic = true → wpaVerifyKeyMic K s.par.keyMgmt s.micLen ptk.kck r = true) ∧ r.keyData = keyData := by
  unfold staSend at h
  simp only at h
  split at h
  · cases h
  rw [← ite_not (p := ptk.kck = [])] at h
  have hver : hdrInfo (hdrOctets b false [] []) &&& 7 = b.ver :=
    congrArg KeyBody.ver (body_hdrOctets hb b.keyData)
  obtain ⟨r, hrx, hr, hkeyData, hmic⟩ :=
    frame_received length_hdrOctets (knownType_hdrOctets htype) hver
      (show 77 + s.micLen + 2 + keyData.length + ([] : Bytes).length < 65536 by rw [List.length_nil]; omega) h junk
  refine ⟨r, hrx, fun d => ?_, hmic, hkeyData⟩
  rw [hr, body_hdrOctets hb]

end Lightguard.Wire
