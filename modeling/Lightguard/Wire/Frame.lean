import Mathlib.Data.Nat.Bitwise
import Lightguard.Wire.Crypt

/-!
# The octets of an EAPOL-Key frame

`struct ieee802_1x_hdr` and `struct wpa_eapol_key`, and the checks of the lengths in `wpa_sm_rx_eapol` and,
on the other side, in `ieee802_1x_receive` and `wpa_receive`.

* `rxFrame_frameOctets`: the fields of a frame are found where the sender has put them.
* `apRxFrame_eq`: both ends accept the same octets.
* `frames_accepted`: the frames, whatever follows them, are accepted and nothing else.
* `body_hdrOctets`: the header says what the sender means.
-/

namespace Lightguard.Wire

open Wpa
open Lib (be readBe readBe_be)

/-! ## The header -/

/-- `BIT(i)` where the flag is set. -/
def flag (i : ℕ) (b : Bool) : ℕ := if b then 2 ^ i else 0

/-- What the senders put together in `key_info`. -/
def keyInfo (b : KeyBody) (encr : Bool) : ℕ :=
  b.ver ||| flag 3 b.pairwise ||| b.keyIndex <<< 4 ||| flag 6 b.install ||| flag 7 b.ack ||| flag 8 b.hasMic |||
    flag 9 b.secure ||| flag 10 b.error ||| flag 11 b.request ||| flag 12 encr ||| flag 13 b.smk

/-- `key_info & BIT(i)`. -/
def infoBit (info i : ℕ) : Bool := info &&& 2 ^ i ≠ 0

/-- `struct wpa_eapol_key`; `iv` and `rsc` are `key_iv` and `key_rsc`. -/
def hdrOctets (b : KeyBody) (encr : Bool) (iv rsc : Bytes) : Bytes :=
  UInt8.ofNat b.type :: (be 2 (keyInfo b encr) ++ (be 2 b.keyLength ++ (be 8 b.replayCounter ++
    (fixed 32 b.nonce ++ (fixed 16 iv ++ (fixed 8 rsc ++ List.replicate 8 0))))))

/-- `WPA_GET_BE16(key->key_info)`. -/
def hdrInfo (hdr : Bytes) : ℕ := readBe ((hdr.drop 1).take 2)

/-- `key->key_iv`. -/
def hdrIv (hdr : Bytes) : Bytes := (hdr.drop 45).take 16

/-- What the header of a received frame says. -/
def hdrBody (hdr : Bytes) (data : KeyData) : KeyBody where
  type := (hdr.headD 0).toNat
  ver := hdrInfo hdr &&& 7
  pairwise := infoBit (hdrInfo hdr) 3
  install := infoBit (hdrInfo hdr) 6
  ack := infoBit (hdrInfo hdr) 7
  hasMic := infoBit (hdrInfo hdr) 8
  secure := infoBit (hdrInfo hdr) 9
  error := infoBit (hdrInfo hdr) 10
  request := infoBit (hdrInfo hdr) 11
  smk := infoBit (hdrInfo hdr) 13
  keyIndex := (hdrInfo hdr &&& 48) >>> 4
  keyLength := readBe ((hdr.drop 3).take 2)
  replayCounter := readBe ((hdr.drop 5).take 8)
  nonce := (hdr.drop 13).take 32
  keyData := data

/-- The values fit into their fields. -/
structure Fits (b : KeyBody) : Prop where
  type : b.type < 256
  ver : b.ver < 8
  keyIndex : b.keyIndex < 4
  keyLength : b.keyLength < 65536
  replayCounter : b.replayCounter < 2 ^ 64

theorem infoBit_eq (info i : ℕ) : infoBit info i = info.testBit i := by
  rw [infoBit, Nat.and_two_pow]
  cases info.testBit i <;> simp

theorem testBit_flag (i j : ℕ) (b : Bool) : (flag i b).testBit j = (b && decide (i = j)) := by
  cases b <;> simp [flag, Nat.testBit_two_pow]

theorem testBit_of_lt {n k i : ℕ} (h : n < 2 ^ k) (hi : k ≤ i) : n.testBit i = false :=
  Nat.testBit_eq_false_of_lt (h.trans_le (Nat.pow_le_pow_right (by decide) hi))

variable {b : KeyBody} {encr : Bool} {iv rsc hdr : Bytes}

/-- The bits of `key_info`. -/
theorem testBit_keyInfo (b : KeyBody) (encr : Bool) (i : ℕ) :
    (keyInfo b encr).testBit i =
      (b.ver.testBit i || b.pairwise && decide (3 = i) || decide (4 ≤ i) && b.keyIndex.testBit (i - 4) ||
        b.install && decide (6 = i) || b.ack && decide (7 = i) || b.hasMic && decide (8 = i) ||
        b.secure && decide (9 = i) || b.error && decide (10 = i) || b.request && decide (11 = i) ||
        encr && decide (12 = i) || b.smk && decide (13 = i)) := by
  simp only [keyInfo, Nat.testBit_or, testBit_flag, Nat.testBit_shiftLeft]

theorem keyInfo_lt (hb : Fits b) : keyInfo b encr < 65536 := by
  refine Nat.lt_pow_two_of_testBit (n := 16) _ fun i hi => ?_
  have hver := testBit_of_lt (k := 3) hb.ver (i := i) (by omega)
  have hindex := testBit_of_lt (k := 2) hb.keyIndex (i := i - 4) (by omega)
  have hne : ∀ k < 16, decide (k = i) = false := fun k hk => decide_eq_false (by omega)
  simp only [testBit_keyInfo, hver, hindex, hne 3 (by omega), hne 6 (by omega), hne 7 (by omega), hne 8 (by omega),
    hne 9 (by omega), hne 10 (by omega), hne 11 (by omega), hne 12 (by omega), hne 13 (by omega), Bool.and_false,
    Bool.or_false]

/-- The descriptor version is in the lowest three bits. -/
theorem keyInfo_ver (hb : Fits b) : keyInfo b encr &&& 7 = b.ver := by
  refine Nat.eq_of_testBit_eq fun i => ?_
  have h7 : (7 : ℕ).testBit i = decide (i < 3) := Nat.testBit_two_pow_sub_one 3 i
  rw [Nat.testBit_and, h7, testBit_keyInfo]
  by_cases hi : i < 3
  · have hne : ∀ k, 3 ≤ k → decide (k = i) = false := fun k hk => decide_eq_false (by omega)
    simp [hi, hne, show ¬ 4 ≤ i by omega]
  · rw [testBit_of_lt (k := 3) hb.ver (by omega)]
    simp [hi]

/-- The key index is in the bits 4 and 5. -/
theorem keyInfo_keyIndex (hb : Fits b) : (keyInfo b encr &&& 48) >>> 4 = b.keyIndex := by
  refine Nat.eq_of_testBit_eq fun i => ?_
  have h48 : (48 : ℕ).testBit (4 + i) = decide (i < 2) := by
    rw [show (48 : ℕ) = (2 ^ 2 - 1) <<< 4 from rfl, Nat.testBit_shiftLeft, Nat.testBit_two_pow_sub_one]
    simp
  rw [Nat.testBit_shiftRight, Nat.testBit_and, h48, testBit_keyInfo, testBit_of_lt (k := 3) hb.ver (by omega)]
  by_cases hi : i < 2
  · have hne : ∀ k, k < 4 ∨ 5 < k → decide (k = 4 + i) = false := fun k hk => decide_eq_false (by omega)
    simp [hi, hne]
  · have hindex := testBit_of_lt (k := 2) hb.keyIndex (i := i) (by omega)
    simp [hi, hindex]

/-- The flags are in the other bits. -/
theorem keyInfo_flags (encr : Bool) (hb : Fits b) :
    infoBit (keyInfo b encr) 3 = b.pairwise ∧ infoBit (keyInfo b encr) 6 = b.install ∧
    infoBit (keyInfo b encr) 7 = b.ack ∧ infoBit (keyInfo b encr) 8 = b.hasMic ∧
    infoBit (keyInfo b encr) 9 = b.secure ∧ infoBit (keyInfo b encr) 10 = b.error ∧
    infoBit (keyInfo b encr) 11 = b.request ∧ infoBit (keyInfo b encr) 12 = encr ∧
    infoBit (keyInfo b encr) 13 = b.smk := by
  have hver : ∀ i, 3 ≤ i → b.ver.testBit i = false := fun i hi => testBit_of_lt (k := 3) hb.ver hi
  have hindex : ∀ i, 2 ≤ i → b.keyIndex.testBit i = false := fun i hi => testBit_of_lt (k := 2) hb.keyIndex hi
  simp only [infoBit_eq, testBit_keyInfo]
  refine ⟨?_, ?_, ?_, ?_, ?_, ?_, ?_, ?_, ?_⟩ <;> simp [hver, hindex]

/-! ## Where the fields are -/

theorem length_hdrOctets : (hdrOctets b encr iv rsc).length = 77 := by
  simp [hdrOctets]

/-- **The header says what the sender means**: each field is read where it was written. -/
theorem body_hdrOctets (hb : Fits b) (data : KeyData) :
    hdrBody (hdrOctets b encr iv rsc) data = { b with nonce := fixed 32 b.nonce, keyData := data } := by
  have hinfo : hdrInfo (hdrOctets b encr iv rsc) = keyInfo b encr := by
    rw [hdrInfo, hdrOctets, List.drop_succ_cons, List.drop_zero, List.take_left' (Lib.length_be _ _),
      readBe_be (keyInfo_lt hb)]
  have hlen : readBe (((hdrOctets b encr iv rsc).drop 3).take 2) = b.keyLength := by
    rw [hdrOctets, List.drop_succ_cons, List.drop_left' (Lib.length_be _ _), List.take_left' (Lib.length_be _ _),
      readBe_be hb.keyLength]
  have hctr : readBe (((hdrOctets b encr iv rsc).drop 5).take 8) = b.replayCounter := by
    rw [hdrOctets, List.drop_succ_cons, ← List.append_assoc, List.drop_left' (by simp),
      List.take_left' (Lib.length_be _ _), readBe_be (by have := hb.replayCounter; omega)]
  have hnonce : ((hdrOctets b encr iv rsc).drop 13).take 32 = fixed 32 b.nonce := by
    rw [hdrOctets, List.drop_succ_cons, ← List.append_assoc, ← List.append_assoc, List.drop_left' (by simp),
      List.take_left' (length_fixed _ _)]
  have htype : ((hdrOctets b encr iv rsc).headD 0).toNat = b.type := by
    rw [hdrOctets, List.headD_cons, UInt8.toNat_ofNat', Nat.mod_eq_of_lt hb.type]
  obtain ⟨h3, h6, h7, h8, h9, h10, h11, -, h13⟩ := keyInfo_flags encr hb
  simp only [hdrBody, hinfo, hlen, hctr, hnonce, htype, h3, h6, h7, h8, h9, h10, h11, h13, keyInfo_ver hb,
    keyInfo_keyIndex hb]

theorem encr_hdrOctets (hb : Fits b) : infoBit (hdrInfo (hdrOctets b encr iv rsc)) 12 = encr := by
  rw [hdrInfo, hdrOctets, List.drop_succ_cons, List.drop_zero, List.take_left' (Lib.length_be _ _),
    readBe_be (keyInfo_lt hb)]
  exact (keyInfo_flags encr hb).2.2.2.2.2.2.2.1

theorem iv_hdrOctets : hdrIv (hdrOctets b encr iv rsc) = fixed 16 iv := by
  rw [hdrIv, hdrOctets, List.drop_succ_cons, ← List.append_assoc, ← List.append_assoc, ← List.append_assoc,
    List.drop_left' (by simp), List.take_left' (length_fixed _ _)]

/-! ## Frames -/

/-- The length fields and the order of the fields: the version of `struct ieee802_1x_hdr`, the header, the
MIC, the key data, and what stands behind it. -/
def frameOctets (version : UInt8) (hdr mic data rest : Bytes) : Bytes :=
  version :: 3 :: (be 2 (77 + mic.length + 2 + data.length + rest.length) ++
    (hdr ++ (mic ++ (be 2 data.length ++ (data ++ rest)))))

/-- A received frame: the header, the MIC, the key data, and all octets. -/
structure Rx where
  hdr : Bytes
  mic : Bytes
  keyData : Bytes
  octets : Bytes
deriving DecidableEq

/-- Where the fields are; `data` is the frame as long as its length field says. -/
def rxFields (micLen : ℕ) (data : Bytes) : Rx where
  hdr := (data.drop 4).take 77
  mic := (data.drop 81).take micLen
  keyData := (data.drop (83 + micLen)).take (readBe ((data.drop (81 + micLen)).take 2))
  octets := data

/-- `EAPOL_KEY_TYPE_WPA` and `EAPOL_KEY_TYPE_RSN`. -/
def KnownType (t : Option UInt8) : Prop := t = some 254 ∨ t = some 2

instance (t : Option UInt8) : Decidable (KnownType t) := inferInstanceAs (Decidable (_ ∨ _))

/-- `wpa_sm_rx_eapol` up to the check of the key data length. -/
def rxFrame (micLen : ℕ) (buf : Bytes) : Option Rx :=
  let keyhdrlen := 77 + micLen + 2
  if buf.length < 4 + keyhdrlen then none
  else
    let plen := readBe ((buf.drop 2).take 2)
    if buf[1]? ≠ some 3 then none
    else if buf.length - 4 < plen ∨ plen < keyhdrlen then none
    else
      let data := buf.take (4 + plen)
      if ¬ KnownType data[4]? then none
      else if plen - keyhdrlen < readBe ((data.drop (81 + micLen)).take 2) then none
      else some (rxFields micLen data)

/-- `ieee802_1x_receive` and `wpa_receive` up to the check of the key data length. -/
def apRxFrame (micLen : ℕ) (buf : Bytes) : Option Rx :=
  if buf.length < 4 then none
  else
    let datalen := readBe ((buf.drop 2).take 2)
    if buf.length - 4 < datalen then none
    -- `sizeof(struct ieee802_1x_eapol_key)`
    else if datalen < 44 ∨ buf[1]? ≠ some 3 ∨ ¬ KnownType buf[4]? then none
    else
      let data := buf.take (4 + datalen)
      if data.length < 4 + (77 + micLen + 2) then none
      else if data.length - 4 - (77 + micLen + 2) < readBe ((data.drop (81 + micLen)).take 2) then none
      else some (rxFields micLen data)

variable {version : UInt8} {mic keyData rest : Bytes} {micLen : ℕ} {buf : Bytes} {r : Rx}

theorem length_frameOctets (version : UInt8) (mic keyData rest : Bytes) (hhdr : hdr.length = 77) :
    (frameOctets version hdr mic keyData rest).length =
      4 + (77 + mic.length + 2 + keyData.length + rest.length) := by
  simp only [frameOctets, List.length_cons, List.length_append, Lib.length_be, hhdr]
  omega

/-- Behind the header. -/
theorem drop_frameOctets (version : UInt8) (mic keyData rest : Bytes) (hhdr : hdr.length = 77) :
    (frameOctets version hdr mic keyData rest).drop 81 = mic ++ (be 2 keyData.length ++ (keyData ++ rest)) := by
  rw [frameOctets, List.drop_succ_cons, List.drop_succ_cons, ← List.append_assoc,
    List.drop_left' (by rw [List.length_append, Lib.length_be, hhdr])]

theorem rxFields_frameOctets (hhdr : hdr.length = 77) (hdata : keyData.length < 65536) :
    rxFields mic.length (frameOctets version hdr mic keyData rest) =
      ⟨hdr, mic, keyData, frameOctets version hdr mic keyData rest⟩ := by
  have h81 := drop_frameOctets version mic keyData rest hhdr
  have h4 : ((frameOctets version hdr mic keyData rest).drop 4).take 77 = hdr := by
    rw [frameOctets, List.drop_succ_cons, List.drop_succ_cons, List.drop_left' (Lib.length_be _ _),
      List.take_left' hhdr]
  have hlen : ((frameOctets version hdr mic keyData rest).drop (81 + mic.length)).take 2 = be 2 keyData.length := by
    rw [← List.drop_drop, h81, List.drop_left, List.take_left' (Lib.length_be _ _)]
  have hkey : ((frameOctets version hdr mic keyData rest).drop (83 + mic.length)).take keyData.length = keyData := by
    rw [show 83 + mic.length = 81 + (mic.length + 2) by omega, ← List.drop_drop, h81, ← List.drop_drop,
      List.drop_left, List.drop_left' (Lib.length_be _ _), List.take_left]
  rw [rxFields, h4, h81, List.take_left, hlen, readBe_be hdata, hkey]

/-- **The fields are found** where the sender has put them, whatever follows the frame. -/
theorem rxFrame_frameOctets (version : UInt8) (hhdr : hdr.length = 77) (hknown : KnownType hdr[0]?)
    (hfit : 77 + mic.length + 2 + keyData.length + rest.length < 65536) (junk : Bytes) :
    rxFrame mic.length (frameOctets version hdr mic keyData rest ++ junk) =
      some ⟨hdr, mic, keyData, frameOctets version hdr mic keyData rest⟩ := by
  have hlen := length_frameOctets version mic keyData rest hhdr
  have hplen : readBe (((frameOctets version hdr mic keyData rest ++ junk).drop 2).take 2) =
      77 + mic.length + 2 + keyData.length + rest.length := by
    rw [frameOctets, List.cons_append, List.cons_append, List.drop_succ_cons, List.drop_succ_cons, List.drop_zero,
      List.append_assoc, List.take_left' (Lib.length_be _ _), readBe_be hfit]
  have hdata : (frameOctets version hdr mic keyData rest ++ junk).take
      (4 + (77 + mic.length + 2 + keyData.length + rest.length)) = frameOctets version hdr mic keyData rest :=
    List.take_left' hlen
  have hkey : readBe (((frameOctets version hdr mic keyData rest).drop (81 + mic.length)).take 2) =
      keyData.length := by
    rw [← List.drop_drop, drop_frameOctets _ _ _ _ hhdr, List.drop_left, List.take_left' (Lib.length_be _ _),
      readBe_be (by omega)]
  have htype : (frameOctets version hdr mic keyData rest ++ junk)[1]? = some 3 := rfl
  have hdesc : (frameOctets version hdr mic keyData rest)[4]? = hdr[0]? := by
    rw [frameOctets, List.getElem?_cons_succ, List.getElem?_cons_succ,
      List.getElem?_append_right (by rw [Lib.length_be]), Lib.length_be, List.getElem?_append_left (by omega)]
  rw [rxFrame]
  simp only [hplen, hdata, hkey, htype, hdesc, List.length_append, hlen]
  rw [if_neg (by omega), if_neg (by simp), if_neg (by omega), if_neg (not_not.2 hknown), if_neg (by omega),
    rxFields_frameOctets hhdr (by omega)]

/-- What the checks let through. -/
theorem rxFrame_cases (h : rxFrame micLen buf = some r) :
    ∃ plen, readBe ((buf.drop 2).take 2) = plen ∧ buf[1]? = some 3 ∧ 4 + plen ≤ buf.length ∧
      77 + micLen + 2 ≤ plen ∧ KnownType (buf.take (4 + plen))[4]? ∧
      readBe (((buf.take (4 + plen)).drop (81 + micLen)).take 2) ≤ plen - (77 + micLen + 2) ∧
      r = rxFields micLen (buf.take (4 + plen)) := by
  unfold rxFrame at h
  simp only at h
  split at h
  · cases h
  split at h
  · cases h
  split at h
  · cases h
  split at h
  · cases h
  split at h
  · cases h
  · rename_i h1 h2 h3 h4 h5
    exact ⟨_, rfl, not_not.1 h2, by omega, by omega, not_not.1 h4, not_lt.1 h5, (Option.some.inj h).symm⟩

theorem drop_split (l : Bytes) (n k : ℕ) : (l.drop n).take k ++ l.drop (n + k) = l.drop n := by
  rw [← List.drop_drop]
  exact List.take_append_drop k _

/-- The parts of what follows the length field. -/
theorem split_payload {y : Bytes} {m k : ℕ} (hk : 79 + m + k ≤ y.length)
    (hread : readBe ((y.drop (77 + m)).take 2) = k) :
    y = y.take 77 ++ ((y.drop 77).take m ++
      (be 2 k ++ ((y.drop (79 + m)).take k ++ y.drop (79 + m + k)))) := by
  have hbe := Lib.be_readBe ((y.drop (77 + m)).take 2)
  rw [hread, List.length_take_of_le (by rw [List.length_drop]; omega)] at hbe
  rw [drop_split, hbe, show 79 + m = 77 + m + 2 by omega, drop_split, drop_split, List.take_append_drop]

/-- A frame of a known descriptor type with the fields of `r`, and what follows it. -/
def IsFrame (micLen : ℕ) (buf : Bytes) (r : Rx) : Prop :=
  ∃ version rest junk, r.hdr.length = 77 ∧ KnownType r.hdr[0]? ∧ r.mic.length = micLen ∧
    77 + micLen + 2 + r.keyData.length + rest.length < 65536 ∧
    r.octets = frameOctets version r.hdr r.mic r.keyData rest ∧ buf = r.octets ++ junk

theorem isFrame_of_rxFrame (h : rxFrame micLen buf = some r) : IsFrame micLen buf r := by
  obtain ⟨plen, hplen, htype, hle, hmin, hknown, hkey, rfl⟩ := rxFrame_cases h
  obtain ⟨v, t, x, rfl⟩ : ∃ v t x, buf = v :: t :: x := by
    match buf, hle with
    | v :: t :: x, _ => exact ⟨v, t, x, rfl⟩
  obtain rfl : t = 3 := Option.some.inj htype
  simp only [List.length_cons] at hle
  rw [List.drop_succ_cons, List.drop_succ_cons, List.drop_zero] at hplen
  have hbe := Lib.be_readBe (x.take 2)
  rw [hplen, List.length_take_of_le (by omega)] at hbe
  -- the frame ends where its length field says
  have hdata : (v :: 3 :: x).take (4 + plen) = v :: 3 :: (be 2 plen ++ (x.drop 2).take plen) := by
    rw [show 4 + plen = 2 + plen + 1 + 1 by omega, List.take_succ_cons, List.take_succ_cons, List.take_add, hbe]
  rw [hdata] at hknown hkey ⊢
  have hy : ((x.drop 2).take plen).length = plen := List.length_take_of_le (by rw [List.length_drop]; omega)
  have hdrop : ∀ n, (v :: 3 :: (be 2 plen ++ (x.drop 2).take plen)).drop (4 + n) = ((x.drop 2).take plen).drop n := by
    intro n
    rw [← List.drop_drop, List.drop_succ_cons, List.drop_succ_cons, List.drop_left' (Lib.length_be _ _)]
  generalize hyx : (x.drop 2).take plen = y at *
  rw [show 81 + micLen = 4 + (77 + micLen) by omega, hdrop] at hkey
  have hlt : plen < 65536 := by
    have hlt := Lib.readBe_lt (x.take 2)
    rwa [hplen, List.length_take_of_le (by omega)] at hlt
  refine ⟨v, y.drop (79 + micLen + readBe ((y.drop (77 + micLen)).take 2)), (v :: 3 :: x).drop (4 + plen), ?_, ?_,
    ?_, ?_, ?_, ?_⟩
  · have h4 : (v :: 3 :: (be 2 plen ++ y)).drop 4 = y := hdrop 0
    rw [rxFields, h4, List.length_take_of_le (by omega)]
  · rw [rxFields, List.getElem?_take_of_lt (by decide), List.getElem?_drop]
    exact hknown
  · rw [rxFields, show 81 = 4 + 77 by rfl, hdrop]
    exact List.length_take_of_le (by rw [List.length_drop]; omega)
  · have hkeyData := hdrop (79 + micLen)
    rw [show 4 + (79 + micLen) = 83 + micLen by omega] at hkeyData
    have hlen := hdrop (77 + micLen)
    rw [show 4 + (77 + micLen) = 81 + micLen by omega] at hlen
    simp only [rxFields, hlen, hkeyData, List.length_take, List.length_drop]
    omega
  · have hpay := split_payload (m := micLen) (y := y) (by omega) rfl
    have h4 : (v :: 3 :: (be 2 plen ++ y)).drop 4 = y := hdrop 0
    have h81 := hdrop 77
    have hlen := hdrop (77 + micLen)
    have hkeyData := hdrop (79 + micLen)
    rw [show 4 + (77 + micLen) = 81 + micLen by omega] at hlen
    rw [show 4 + (79 + micLen) = 83 + micLen by omega] at hkeyData
    have hlens : 77 + ((y.drop 77).take micLen).length + 2 +
        ((y.drop (79 + micLen)).take (readBe ((y.drop (77 + micLen)).take 2))).length +
        (y.drop (79 + micLen + readBe ((y.drop (77 + micLen)).take 2))).length = plen := by
      simp only [List.length_take, List.length_drop]
      omega
    have hk : ((y.drop (79 + micLen)).take (readBe ((y.drop (77 + micLen)).take 2))).length =
        readBe ((y.drop (77 + micLen)).take 2) := List.length_take_of_le (by rw [List.length_drop]; omega)
    simp only [rxFields, h4, h81, hlen, hkeyData, frameOctets]
    rw [hlens, hk, ← hpay]
  · rw [← hdata]
    exact (List.take_append_drop _ _).symm

/-- **Both ends accept the same octets.** -/
theorem apRxFrame_eq (micLen : ℕ) (buf : Bytes) : apRxFrame micLen buf = rxFrame micLen buf := by
  unfold apRxFrame rxFrame
  simp only
  generalize readBe ((buf.drop 2).take 2) = plen
  by_cases hlong : 4 + plen ≤ buf.length
  · have hdata : (buf.take (4 + plen)).length = 4 + plen := List.length_take_of_le hlong
    rw [if_neg (by omega), if_neg (by omega), hdata]
    by_cases hmin : 77 + micLen + 2 ≤ plen
    · have htype : (buf.take (4 + plen))[4]? = buf[4]? := List.getElem?_take_of_lt (by omega)
      rw [if_neg (by omega : ¬ buf.length < 4 + (77 + micLen + 2)),
        if_neg (by omega : ¬ (buf.length - 4 < plen ∨ plen < 77 + micLen + 2)),
        if_neg (by omega : ¬ 4 + plen < 4 + (77 + micLen + 2)), show 4 + plen - 4 = plen by omega, htype]
      -- the AP makes two checks in one
      by_cases h3 : buf[1]? = some 3
      · rw [if_neg (not_not.2 h3)]
        by_cases hknown : KnownType buf[4]?
        · rw [if_neg (not_not.2 hknown), if_neg]
          rintro (h | h | h)
          · omega
          · exact h h3
          · exact h hknown
        · rw [if_pos hknown, if_pos (.inr (.inr hknown))]
      · rw [if_pos (.inr (.inl h3)), if_pos h3]
    · -- the AP looks at the MIC length later
      rw [if_pos (by omega : 4 + plen < 4 + (77 + micLen + 2))]
      split_ifs <;> first | rfl | (exfalso; omega)
  · split_ifs <;> first | rfl | (exfalso; omega)

/-- **What is accepted** at either end are the frames of the two known descriptor types, whatever follows
them, and nothing else. -/
theorem frames_accepted (micLen : ℕ) (buf : Bytes) (r : Rx) :
    (rxFrame micLen buf = some r ↔ IsFrame micLen buf r) ∧
    (apRxFrame micLen buf = some r ↔ IsFrame micLen buf r) := by
  have hiff : rxFrame micLen buf = some r ↔ IsFrame micLen buf r := by
    refine ⟨isFrame_of_rxFrame, ?_⟩
    obtain ⟨hdr, mic, keyData, octets⟩ := r
    rintro ⟨version, rest, junk, hhdr, hknown, hmic, hfit, hoctets, hbuf⟩
    simp only at hhdr hknown hmic hfit hoctets hbuf
    subst hmic hoctets hbuf
    exact rxFrame_frameOctets version hhdr hknown hfit junk
  exact ⟨hiff, by rw [apRxFrame_eq, hiff]⟩

end Lightguard.Wire
