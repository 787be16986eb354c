import Mathlib.Tactic.IntervalCases
import Lightguard.Auth.Events
import Lightguard.Supp.Events
import Lightguard.Wire.Send

/-!
# The messages of the handshakes as octets

The key data of the messages of WPA2, from what is written to what the other end reads: the elements of the
access point and the KDEs of message 3/4 and of the group key handshake, the PMKID of message 1/4, the
elements of the station in message 2/4.

* `apMessages_read`: what the station reads is the frame that the machine of the access point sends.
* `staMessages_read`: what the access point reads is the frame that the machine of the station sends.
-/

namespace Lightguard.Wire

open Wpa
open Lib.Tlv (Elem encode)

/-! ## Writing elements -/

/-- `RSN_KEY_DATA_GROUPKEY`, `RSN_KEY_DATA_PMKID` and `RSN_KEY_DATA_KEYID`. -/
def rsnKeyDataGroupkey : Bytes := [0x00, 0x0f, 0xac, 1]
def rsnKeyDataPmkid : Bytes := [0x00, 0x0f, 0xac, 4]
def rsnKeyDataKeyid : Bytes := [0x00, 0x0f, 0xac, 10]

/-- `wpa_add_kde`. -/
def wpaAddKde (kde data data2 : Bytes) : Bytes :=
  0xdd :: UInt8.ofNat (kde.length + data.length + data2.length) :: (kde ++ data ++ data2)

/-- The element `wpa_add_kde` writes. -/
def kdeElem (kde data data2 : Bytes) (h : (kde ++ data ++ data2).length < 256) : Elem :=
  ⟨0xdd, kde ++ data ++ data2, h⟩

theorem octets_kdeElem (kde data data2 : Bytes) (h : (kde ++ data ++ data2).length < 256) :
    (kdeElem kde data data2 h).octets = wpaAddKde kde data data2 := by
  simp [kdeElem, Elem.octets, wpaAddKde, Nat.add_assoc]

/-! ## Reading elements -/

/-- What the handlers take from the members: the RSN element, or else that of OSEN, or else that of WPA; the
RSNXE, the PMKID, the GTK with its index, and the key ID. -/
def IeParse.toKde (ie : IeParse) : Kde where
  ie := (ie .rsnIe).or ((ie .osen).or (ie .wpaIe))
  rsnxe := ie .rsnxe
  pmkid := ie .pmkid
  gtk := (ie .gtk).map fun g => ⟨(g.headD 0).toNat &&& 3, g.drop 2⟩
  keyId := (ie .keyId).map fun k => (k.headD 0).toNat &&& 3

section Reading

variable {ie : IeParse} {e : Elem}

theorem take_octets (e : Elem) : e.octets.take (2 + e.body.length) = e.octets :=
  List.take_of_length_le (by rw [Elem.length_octets, Nat.add_comm])

theorem absorb_rsnxe (he : e.id = 244) : absorb ie e = Function.update ie .rsnxe (some e.octets) := by
  simp [absorb, he, applyRules, ieRules, Rule.holds, Rule.value, Nat.le_of_lt_succ e.short, take_octets]

/-- The first branch of the KDEs that holds. -/
theorem absorb_of_find {r : Rule} (he : e.id = 0xdd) (h : kdeRules.find? (·.holds e) = some r) :
    absorb ie e = Function.update ie r.field (some (r.value e)) := by
  rw [absorb, if_pos he, applyRules, h]
  rfl

/-- An end describes itself with an RSN, an OSEN or a WPA element. -/
def Describes (e : Elem) : Prop :=
  e.id = 48 ∨ e.id = 0xdd ∧ (e.body.take 4 = [0x50, 0x6f, 0x9a, 0x12] ∨
    e.body.take 6 = [0x00, 0x50, 0xf2, 1, 1, 0])

/-- Where the other end finds it. -/
theorem absorb_describes (ie : IeParse) (he : Describes e) : ∃ m, (m = .rsnIe ∨ m = .osen ∨ m = .wpaIe) ∧
    absorb ie e = Function.update ie m (some e.octets) := by
  have hmax := Nat.le_of_lt_succ e.short
  rcases he with he | ⟨hid, he | he⟩
  · refine ⟨.rsnIe, .inl rfl, ?_⟩
    simp [absorb, he, applyRules, ieRules, Rule.holds, Rule.value, hmax, take_octets]
  · refine ⟨.osen, .inr (.inl rfl), ?_⟩
    obtain ⟨t, ht⟩ : ∃ t, e.body = [0x50, 0x6f, 0x9a, 0x12] ++ t :=
      ⟨e.body.drop 4, by rw [← he, List.take_append_drop]⟩
    have hfind : kdeRules.find? (·.holds e) = some ⟨.osen, 0xdd, 4, 255, [(2, [0x50, 0x6f, 0x9a, 0x12])], 0, none⟩ := by
      have hlen : e.body.length = t.length + 4 := by simp [ht]
      have hmin : t.length + 4 ≤ 255 := by omega
      simp [kdeRules, Rule.holds, hid, Elem.octets, ht]
      omega
    rw [absorb_of_find hid hfind, Rule.value]
    simp [take_octets]
  · refine ⟨.wpaIe, .inr (.inr rfl), ?_⟩
    obtain ⟨t, ht⟩ : ∃ t, e.body = [0x00, 0x50, 0xf2, 1, 1, 0] ++ t :=
      ⟨e.body.drop 6, by rw [← he, List.take_append_drop]⟩
    have hfind : kdeRules.find? (·.holds e) =
        some ⟨.wpaIe, 0xdd, 6, 255, [(2, [0x00, 0x50, 0xf2, 1]), (6, [1]), (7, [0])], 0, none⟩ := by
      have hlen : e.body.length = t.length + 6 := by simp [ht]
      have hmin : t.length + 6 ≤ 255 := by omega
      simp [kdeRules, Rule.holds, hid, Elem.octets, ht]
      omega
    rw [absorb_of_find hid hfind, Rule.value]
    simp [take_octets]

/-- The octets of a KDE; its length is looked at as the number it is. -/
theorem octets_kde (kde data data2 : Bytes) (h : (kde ++ data ++ data2).length < 256) :
    ∃ c, (kdeElem kde data data2 h).octets = 0xdd :: c :: (kde ++ data ++ data2) := ⟨_, rfl⟩

theorem absorb_pmkid {pmkid : Bytes} (hpmkid : pmkid.length = 16) (h : (rsnKeyDataPmkid ++ pmkid ++ []).length < 256) :
    absorb ie (kdeElem rsnKeyDataPmkid pmkid [] h) = Function.update ie .pmkid (some pmkid) := by
  have hid : (kdeElem rsnKeyDataPmkid pmkid [] h).id = 0xdd := rfl
  have hlen : (kdeElem rsnKeyDataPmkid pmkid [] h).body.length = 20 := by simp [kdeElem, rsnKeyDataPmkid, hpmkid]
  obtain ⟨c, hoct⟩ := octets_kde rsnKeyDataPmkid pmkid [] h
  generalize kdeElem rsnKeyDataPmkid pmkid [] h = e at hid hlen hoct ⊢
  have hfind : kdeRules.find? (·.holds e) = some ⟨.pmkid, 0xdd, 20, 255, [(2, [0x00, 0x0f, 0xac, 4])], 6, some 16⟩ := by
    simp [kdeRules, Rule.holds, hid, hlen, hoct, rsnKeyDataPmkid]
  rw [absorb_of_find hid hfind, Rule.value, hoct]
  simp [rsnKeyDataPmkid, List.take_of_length_le hpmkid.le]

theorem absorb_keyId {a : UInt8} (h : (rsnKeyDataKeyid ++ [a, 0] ++ []).length < 256) :
    absorb ie (kdeElem rsnKeyDataKeyid [a, 0] [] h) = Function.update ie .keyId (some [a, 0]) := by
  have hid : (kdeElem rsnKeyDataKeyid [a, 0] [] h).id = 0xdd := rfl
  have hlen : (kdeElem rsnKeyDataKeyid [a, 0] [] h).body.length = 6 := rfl
  obtain ⟨c, hoct⟩ := octets_kde rsnKeyDataKeyid [a, 0] [] h
  generalize kdeElem rsnKeyDataKeyid [a, 0] [] h = e at hid hlen hoct ⊢
  have hfind : kdeRules.find? (·.holds e) = some ⟨.keyId, 0xdd, 6, 255, [(2, [0x00, 0x0f, 0xac, 10])], 6, some 2⟩ := by
    simp [kdeRules, Rule.holds, hid, hlen, hoct, rsnKeyDataKeyid]
  rw [absorb_of_find hid hfind, Rule.value, hoct]
  rfl

theorem absorb_gtk {a : UInt8} {gtk : Bytes} (hgtk : gtk ≠ []) (h : (rsnKeyDataGroupkey ++ [a, 0] ++ gtk).length < 256) :
    absorb ie (kdeElem rsnKeyDataGroupkey [a, 0] gtk h) = Function.update ie .gtk (some (a :: 0 :: gtk)) := by
  have hpos := List.length_pos_iff.2 hgtk
  have hlen : (kdeElem rsnKeyDataGroupkey [a, 0] gtk h).body.length = gtk.length + 6 := by
    simp [kdeElem, rsnKeyDataGroupkey]
  have hid : (kdeElem rsnKeyDataGroupkey [a, 0] gtk h).id = 0xdd := rfl
  have hshort := (kdeElem rsnKeyDataGroupkey [a, 0] gtk h).short
  obtain ⟨c, hoct⟩ := octets_kde rsnKeyDataGroupkey [a, 0] gtk h
  generalize kdeElem rsnKeyDataGroupkey [a, 0] gtk h = e at hid hlen hshort hoct ⊢
  have hmin : 7 ≤ gtk.length + 6 := by omega
  have hmax : gtk.length + 6 ≤ 255 := by omega
  have hfind : kdeRules.find? (·.holds e) = some ⟨.gtk, 0xdd, 7, 255, [(2, [0x00, 0x0f, 0xac, 1])], 6, none⟩ := by
    simp [kdeRules, Rule.holds, hid, hlen, hoct, hmin, hmax, rsnKeyDataGroupkey]
  rw [absorb_of_find hid hfind, Rule.value, hoct, hlen]
  simp only [rsnKeyDataGroupkey, List.cons_append, List.nil_append, List.drop_succ_cons, List.drop_zero,
    Option.getD_none]
  rw [List.take_of_length_le (by simp only [List.length_cons]; omega)]

end Reading

/-! ## What each end reads -/

/-- The elements of key data; a length that does not fit is an error. -/
def readKde (data : Bytes) (kek : Option Bytes) : Option KeyData :=
  (wpaParseKdeIes data).map fun q => ⟨data.length, if q.1 < 0 then none else some q.2.toKde, kek⟩

/-- What `wpa_sm_rx_eapol` and its handlers make of octets that pass the MIC check with a PTK; encrypted key
data has to be authenticated. -/
def staReads (K : Crypto) (k : KeyMgmt) (micLen : ℕ) (ptk : Ptk) (buf : Bytes) : Option KeyBody :=
  (rxFrame micLen buf).bind fun r =>
    if infoBit (hdrInfo r.hdr) 8 && !wpaVerifyKeyMic K k micLen ptk.kck r then none
    else if infoBit (hdrInfo r.hdr) 12 then
      if !infoBit (hdrInfo r.hdr) 8 then none
      else
        (wpaSupplicantDecryptKeyData K.aes k (hdrInfo r.hdr &&& 7) ptk.kek (hdrIv r.hdr) r.keyData).bind
          fun data => (readKde data (some ptk.kek)).map (hdrBody r.hdr)
    else (readKde r.keyData none).map (hdrBody r.hdr)

/-- What `wpa_receive` and the states make of octets that pass the MIC check with a PTK. -/
def apReads (K : Crypto) (k : KeyMgmt) (micLen : ℕ) (ptk : Ptk) (buf : Bytes) : Option KeyBody :=
  (apRxFrame micLen buf).bind fun r =>
    if infoBit (hdrInfo r.hdr) 8 && !wpaVerifyKeyMic K k micLen ptk.kck r then none
    else (readKde r.keyData none).map (hdrBody r.hdr)

variable {K : Crypto} {w : Bytes} {l : List Elem}

theorem readKde_encode (k : ℕ) (kek : Option Bytes) (hl : l.any endMark = false) :
    readKde (encode l ++ padding k) kek =
      some ⟨(encode l ++ padding k).length, some (l.foldl absorb .empty).toKde, kek⟩ := by
  rw [readKde, wpaParseKdeIes_encode l k hl]
  rfl

/-- **The station reads** what the access point sends. -/
theorem apSend_read {x : Extra} {c : Auth.Conf} {b : KeyBody} {encr : Bool} {s : Auth.Sm}
    (hwpa2 : s.neg.wpa2 = true) (hencr : encr = true → b.hasMic = true) (hb : Fits (apBody c b s))
    (hl : l.any endMark = false) (hfit : (encode l).length + s.micLen < 65000)
    (h : apSend K x c b (encode l) encr s = some w) (junk : Bytes) :
    ∃ n, staReads K s.neg.keyMgmt s.micLen s.ptk (w ++ junk) =
      some { apBody c b s with
        nonce := fixed 32 b.nonce
        keyData := ⟨n, some (l.foldl absorb .empty).toKde, if encr then some s.ptk.kek else none⟩ } := by
  obtain ⟨r, hrx, hbody, henc, hmic, hdata⟩ := apSend_received hb hfit h junk
  have hbits : infoBit (hdrInfo r.hdr) 8 = b.hasMic := congrArg KeyBody.hasMic (hbody b.keyData)
  have hver : hdrInfo r.hdr &&& 7 = keyVersion s.neg.keyMgmt s.neg.pairwise :=
    congrArg KeyBody.ver (hbody b.keyData)
  have hpass : (b.hasMic && !wpaVerifyKeyMic K s.neg.keyMgmt s.micLen s.ptk.kck r) = false := by
    cases hb8 : b.hasMic with
    | true => simp [hmic hb8]
    | false => rfl
  rw [hwpa2, Bool.and_true] at henc
  simp only [staReads, hrx, Option.bind_some, hbits, hpass, henc, hver, Bool.false_eq_true, if_false]
  cases encr with
  | true =>
    rw [if_pos rfl] at hdata
    rw [if_pos rfl, hencr rfl, hdata, Option.bind_some, readKde_encode _ _ hl, Option.map_some, hbody]
    exact ⟨_, rfl⟩
  | false =>
    have hpad := readKde_encode 0 none hl
    rw [padding, List.append_nil] at hpad
    rw [if_neg Bool.false_ne_true] at hdata
    rw [if_neg Bool.false_ne_true, hdata, hpad, Option.map_some, hbody]
    exact ⟨_, rfl⟩

/-- **The access point reads** what the station sends. -/
theorem staSend_read {version : UInt8} {ptk : Ptk} {b : KeyBody} {s : Supp.Sm} (hb : Fits b)
    (htype : b.type = 2 ∨ b.type = 254) (hl : l.any endMark = false)
    (hfit : (encode l).length + s.micLen < 65000) (h : staSend K version ptk b (encode l) s = some w) (junk : Bytes) :
    apReads K s.par.keyMgmt s.micLen ptk (w ++ junk) =
      some { b with
        nonce := fixed 32 b.nonce
        keyData := ⟨(encode l).length, some (l.foldl absorb .empty).toKde, none⟩ } := by
  obtain ⟨r, hrx, hbody, hmic, hdata⟩ := staSend_received hb htype hfit h junk
  have hbits : infoBit (hdrInfo r.hdr) 8 = b.hasMic := congrArg KeyBody.hasMic (hbody b.keyData)
  have hpass : (b.hasMic && !wpaVerifyKeyMic K s.par.keyMgmt s.micLen ptk.kck r) = false := by
    cases hb8 : b.hasMic with
    | true => simp [hmic hb8]
    | false => rfl
  have hap : apRxFrame s.micLen (w ++ junk) = some r := (apRxFrame_eq _ _).trans hrx
  have hpad := readKde_encode 0 none hl
  rw [padding, List.append_nil] at hpad
  simp only [apReads, hap, Option.bind_some, hbits, hpass, hdata, hpad, Option.map_some, hbody]
  rfl

/-! ## The messages of the access point -/

/-- The key data of message 1/4. -/
def msg1KeyData (e : Auth.Env) : Bytes := (e.pmkid.map (wpaAddKde rsnKeyDataPmkid · [])).getD []

/-- The GTK KDE. -/
def gtkKde (e : Auth.Env) : Bytes := wpaAddKde rsnKeyDataGroupkey [UInt8.ofNat (e.gn &&& 3), 0] e.gtk

/-- The key data of message 3/4 with WPA2. -/
def msg3KeyData (c : Auth.Conf) (e : Auth.Env) (s : Auth.Sm) : Bytes :=
  c.wpaIe ++ c.rsnxe.getD [] ++
    (if s.neg.useExtKeyId then wpaAddKde rsnKeyDataKeyid [UInt8.ofNat (s.keyidxActive &&& 1), 0] [] else []) ++
    gtkKde e

/-- The elements of an end: the one it describes itself with, and the RSNXE when there is one. -/
structure Elements where
  own : Elem
  ext : Option Elem
  describes : Describes own
  ext_id : ∀ x ∈ ext, x.id = 244

/-- What the types of the source promise about the machine and about what comes from outside. -/
structure ApTypes (e : Auth.Env) (s : Auth.Sm) : Prop where
  aNonce : s.aNonce.length = 32
  gn : e.gn < 4
  gtk : 0 < e.gtk.length ∧ e.gtk.length ≤ 32
  pmkid : ∀ p ∈ e.pmkid, p.length = 16
  keyidx : s.keyidxActive ≤ 1
  micLen : s.micLen ≤ 32

namespace Elements

variable (x : Elements)

/-- The octets of the first. -/
def ie : Bytes := x.own.octets

/-- The octets of the RSNXE. -/
def rsnxe : Option Bytes := x.ext.map Elem.octets

/-- Both, in their order. -/
def list : List Elem := x.own :: x.ext.toList

theorem encode_list : encode x.list = x.ie ++ x.rsnxe.getD [] := by
  cases hx : x.ext <;> simp [list, ie, rsnxe, hx]

theorem any_endMark : x.list.any endMark = false := by
  have h48 : endMark x.own = false := by
    rcases x.describes with h | ⟨-, h | h⟩
    · simp [endMark, h]
    · cases hb : x.own.body <;> simp [endMark, hb] at h ⊢
    · cases hb : x.own.body <;> simp [endMark, hb] at h ⊢
  cases hx : x.ext with
  | none => simp only [list, hx, Option.toList_none, List.any_cons, h48, List.any_nil, Bool.or_false]
  | some y =>
    have h244 : endMark y = false := by simp [endMark, x.ext_id y hx]
    simp only [list, hx, Option.toList_some, List.any_cons, h48, h244, List.any_nil, Bool.or_false]

/-- What the other end finds in them. -/
theorem foldl_absorb : ∃ m, (m = .rsnIe ∨ m = .osen ∨ m = .wpaIe) ∧ x.list.foldl absorb .empty =
    Function.update (Function.update IeParse.empty m (some x.ie)) .rsnxe x.rsnxe := by
  obtain ⟨m, hm, habsorb⟩ := absorb_describes .empty x.describes
  refine ⟨m, hm, ?_⟩
  have hne : m ≠ .rsnxe := by
    rcases hm with rfl | rfl | rfl <;> decide
  rw [list, List.foldl_cons, habsorb, rsnxe]
  cases hx : x.ext with
  | none => exact (Function.update_eq_self_iff.2 (Function.update_of_ne hne.symm _ _).symm).symm
  | some y => exact absorb_rsnxe (x.ext_id y hx)

theorem length_encode_le : (encode x.list).length ≤ 514 := by
  have h1 := x.own.short
  cases hx : x.ext with
  | none =>
    simp only [list, hx, Option.toList_none, Lib.Tlv.encode_cons, Lib.Tlv.encode_nil, List.length_append,
      Elem.length_octets, List.length_nil]
    omega
  | some y =>
    have h2 := y.short
    simp only [list, hx, Option.toList_some, Lib.Tlv.encode_cons, Lib.Tlv.encode_nil, List.length_append,
      Elem.length_octets, List.length_nil]
    omega

end Elements

section Ap

variable {K : Crypto} {x : Extra} {c : Auth.Conf} {e : Auth.Env} {s : Auth.Sm} {f : EapolKey} {w : Bytes}

theorem keyLen_le (p : Cipher) : p.keyLen ≤ 32 := by cases p <;> decide

theorem fits_apBody {b : KeyBody} (hwpa2 : s.neg.wpa2 = true) : Fits (apBody c b s) where
  type := by simp [apBody, hwpa2]
  ver := keyVersion_lt _ _
  keyIndex := by simp [apBody, hwpa2]
  keyLength := by
    have hlen := keyLen_le s.neg.pairwise
    simp only [apBody, hwpa2, if_true]
    split <;> omega
  replayCounter := Nat.mod_lt _ (by decide)

/-- The index of a key survives in the two bits it has. -/
theorem index_read {n : ℕ} (hn : n < 4) : (UInt8.ofNat (n &&& 3)).toNat &&& 3 = n := by
  interval_cases n <;> rfl

theorem index_read_one {n : ℕ} (hn : n ≤ 1) : (UInt8.ofNat (n &&& 1)).toNat &&& 3 = n := by
  interval_cases n <;> rfl

theorem gtkKde_short (h : e.gtk.length ≤ 32) :
    (rsnKeyDataGroupkey ++ [UInt8.ofNat (e.gn &&& 3), 0] ++ e.gtk).length < 256 := by
  simp only [List.length_append, List.length_cons, List.length_nil, rsnKeyDataGroupkey]
  omega

/-- The elements of message 3/4 behind those of the access point. -/
def msg3Kdes (e : Auth.Env) (s : Auth.Sm) (h : e.gtk.length ≤ 32) : List Elem :=
  (if s.neg.useExtKeyId then [kdeElem rsnKeyDataKeyid [UInt8.ofNat (s.keyidxActive &&& 1), 0] [] (by simp [rsnKeyDataKeyid])]
    else []) ++ [kdeElem rsnKeyDataGroupkey [UInt8.ofNat (e.gn &&& 3), 0] e.gtk (gtkKde_short h)]

theorem foldl_msg3Kdes (h : e.gtk.length ≤ 32) (hgtk : e.gtk ≠ []) (ie : IeParse) :
    (msg3Kdes e s h).foldl absorb ie =
      Function.update
        (if s.neg.useExtKeyId then Function.update ie .keyId (some [UInt8.ofNat (s.keyidxActive &&& 1), 0]) else ie)
        .gtk (some (UInt8.ofNat (e.gn &&& 3) :: 0 :: e.gtk)) := by
  rw [msg3Kdes, List.foldl_append]
  cases s.neg.useExtKeyId with
  | false => exact absorb_gtk hgtk _
  | true => exact (absorb_gtk hgtk _).trans (by rw [if_pos rfl, if_pos rfl, List.foldl_cons, absorb_keyId]; rfl)

/-- **Message 3/4.** What the station reads from the octets of message 3/4 with WPA2 is the frame that the
machine of the access point sends. -/
theorem msg3_read (y : Elements) (hie : c.wpaIe = y.ie) (hrsnxe : c.rsnxe = y.rsnxe) (hwpa2 : s.neg.wpa2 = true)
    (hmic : s.micLen ≠ 0) (ht : ApTypes e s) (hf : Auth.eapolFrame c (Auth.msg3 c e s) s = some f)
    (hw : apSend K x c (Auth.msg3 c e s) (msg3KeyData c e s) true s = some w) (junk : Bytes) :
    ∃ b, staReads K s.neg.keyMgmt s.micLen s.ptk (w ++ junk) = some b ∧
      { b with keyData := { b.keyData with length := f.keyData.length } } = f.toKeyBody := by
  have hencode : msg3KeyData c e s = encode (y.list ++ msg3Kdes e s ht.gtk.2) := by
    rw [Lib.Tlv.encode_append, y.encode_list, msg3KeyData, hie, hrsnxe, msg3Kdes, Lib.Tlv.encode_append]
    cases s.neg.useExtKeyId <;> simp [octets_kdeElem, gtkKde]
  have hmark : (y.list ++ msg3Kdes e s ht.gtk.2).any endMark = false := by
    rw [List.any_append, y.any_endMark, msg3Kdes]
    cases s.neg.useExtKeyId <;> rfl
  have hkdes : (encode (msg3Kdes e s ht.gtk.2)).length ≤ 48 := by
    have hgtk := ht.gtk.2
    rw [msg3Kdes]
    cases s.neg.useExtKeyId <;> simp [octets_kdeElem, wpaAddKde, rsnKeyDataKeyid, rsnKeyDataGroupkey] <;> omega
  have hfit : (encode (y.list ++ msg3Kdes e s ht.gtk.2)).length + s.micLen < 65000 := by
    have hlist := y.length_encode_le
    have hm := ht.micLen
    rw [Lib.Tlv.encode_append, List.length_append]
    omega
  have hhas : (Auth.msg3 c e s).hasMic = true := by simp [Auth.msg3, hmic]
  rw [hencode] at hw
  obtain ⟨n, hread⟩ := apSend_read hwpa2 (fun _ => hhas) (fits_apBody hwpa2) hmark hfit hw junk
  refine ⟨_, hread, ?_⟩
  have hgtk : e.gtk ≠ [] := List.length_pos_iff.1 ht.gtk.1
  have hkde : ((y.list ++ msg3Kdes e s ht.gtk.2).foldl absorb .empty).toKde =
      { ie := some y.ie, rsnxe := y.rsnxe, pmkid := none, gtk := some ⟨e.gn, e.gtk⟩
        keyId := if s.neg.useExtKeyId then some s.keyidxActive else none } := by
    have hgn := index_read ht.gn
    have hidx := index_read_one ht.keyidx
    obtain ⟨m, hm, hfold⟩ := y.foldl_absorb
    rw [List.foldl_append, hfold, foldl_msg3Kdes _ hgtk]
    generalize UInt8.ofNat (e.gn &&& 3) = a at hgn ⊢
    generalize UInt8.ofNat (s.keyidxActive &&& 1) = b at hidx ⊢
    rcases hm with rfl | rfl | rfl <;> cases s.neg.useExtKeyId <;>
      simp [IeParse.toKde, IeParse.empty, hgn, hidx]
  rw [apBody_eq hf, hkde]
  simp [apBody, Auth.msg3, hwpa2, hie, hrsnxe, fixed_of_length ht.aNonce]

/-- **Message 1/2 of the group key handshake.** What the station reads with WPA2 is the frame that the machine
of the access point sends; there is no nonce in it. -/
theorem groupMsg1_read (hwpa2 : s.neg.wpa2 = true) (hmic : s.micLen ≠ 0) (ht : ApTypes e s)
    (hf : Auth.eapolFrame c (Auth.groupMsg1 e s) s = some f)
    (hw : apSend K x c (Auth.groupMsg1 e s) (gtkKde e) true s = some w) (junk : Bytes) :
    ∃ b, staReads K s.neg.keyMgmt s.micLen s.ptk (w ++ junk) = some b ∧ b.nonce = List.replicate 32 0 ∧
      { b with nonce := [], keyData := { b.keyData with length := f.keyData.length } } = f.toKeyBody := by
  have hencode : gtkKde e =
      encode [kdeElem rsnKeyDataGroupkey [UInt8.ofNat (e.gn &&& 3), 0] e.gtk (gtkKde_short ht.gtk.2)] := by
    simp [octets_kdeElem, gtkKde]
  have hhas : (Auth.groupMsg1 e s).hasMic = true := by simp [Auth.groupMsg1, hmic]
  have hfit : (gtkKde e).length + s.micLen < 65000 := by
    have hgtk := ht.gtk.2
    have hm := ht.micLen
    simp only [gtkKde, wpaAddKde, rsnKeyDataGroupkey, List.length_cons, List.length_append, List.length_nil]
    omega
  have hgtk : e.gtk ≠ [] := List.length_pos_iff.1 ht.gtk.1
  rw [hencode] at hw hfit
  obtain ⟨n, hread⟩ := apSend_read hwpa2 (fun _ => hhas) (fits_apBody hwpa2) rfl hfit hw junk
  refine ⟨_, hread, rfl, ?_⟩
  have hkde : ([kdeElem rsnKeyDataGroupkey [UInt8.ofNat (e.gn &&& 3), 0] e.gtk (gtkKde_short ht.gtk.2)].foldl
      absorb .empty).toKde = ⟨none, none, none, some ⟨e.gn, e.gtk⟩, none⟩ := by
    have hgn := index_read ht.gn
    rw [List.foldl_cons, List.foldl_nil, absorb_gtk hgtk]
    generalize UInt8.ofNat (e.gn &&& 3) = a at hgn ⊢
    simp [IeParse.toKde, IeParse.empty, hgn]
  rw [apBody_eq hf, hkde]
  simp [apBody, Auth.groupMsg1, hwpa2]

/-- **Message 1/4.** What the station reads is the frame that the machine of the access point sends. -/
theorem msg1_read (hwpa2 : s.neg.wpa2 = true) (ht : ApTypes e s)
    (hf : Auth.eapolFrame c (Auth.msg1 e s) s = some f)
    (hw : apSend K x c (Auth.msg1 e s) (msg1KeyData e) false s = some w) (junk : Bytes) :
    ∃ b, staReads K s.neg.keyMgmt s.micLen s.ptk (w ++ junk) = some b ∧
      { b with keyData := { b.keyData with length := f.keyData.length } } = f.toKeyBody := by
  have hm := ht.micLen
  cases hp : e.pmkid with
  | none =>
    have hencode : msg1KeyData e = encode [] := by simp [msg1KeyData, hp]
    rw [hencode] at hw
    obtain ⟨n, hread⟩ := apSend_read hwpa2 (fun h => absurd h Bool.false_ne_true) (fits_apBody hwpa2) rfl
      (show (encode []).length + s.micLen < 65000 by simp; omega) hw junk
    refine ⟨_, hread, ?_⟩
    rw [apBody_eq hf]
    simp [apBody, Auth.msg1, hwpa2, hp, fixed_of_length ht.aNonce, IeParse.toKde, IeParse.empty]
  | some pmkid =>
    have hlen := ht.pmkid pmkid hp
    have hshort : (rsnKeyDataPmkid ++ pmkid ++ []).length < 256 := by simp [rsnKeyDataPmkid, hlen]
    have hencode : msg1KeyData e = encode [kdeElem rsnKeyDataPmkid pmkid [] hshort] := by
      simp [msg1KeyData, hp, octets_kdeElem]
    have hmark : [kdeElem rsnKeyDataPmkid pmkid [] hshort].any endMark = false := rfl
    have hfit : (encode [kdeElem rsnKeyDataPmkid pmkid [] hshort]).length + s.micLen < 65000 := by
      simp [octets_kdeElem, wpaAddKde, rsnKeyDataPmkid, hlen]
      omega
    rw [hencode] at hw
    obtain ⟨n, hread⟩ := apSend_read hwpa2 (fun h => absurd h Bool.false_ne_true) (fits_apBody hwpa2) hmark hfit hw junk
    refine ⟨_, hread, ?_⟩
    rw [List.foldl_cons, List.foldl_nil, absorb_pmkid hlen, apBody_eq hf]
    simp [apBody, Auth.msg1, hwpa2, hp, fixed_of_length ht.aNonce, IeParse.toKde, IeParse.empty]

/-- **The messages of the access point.** Whatever stands behind their octets, what the station reads with WPA2
from message 1/4, from message 3/4 and from message 1/2 of the group key handshake is the frame that the machine
of the access point sends: the MIC verifies, the key data is decrypted, and its elements are the ones that were
written. Message 1/2 has no nonce, which is zeros on the air. -/
theorem apMessages_read (y : Elements) (hie : c.wpaIe = y.ie) (hrsnxe : c.rsnxe = y.rsnxe) (hwpa2 : s.neg.wpa2 = true)
    (hmic : s.micLen ≠ 0) (ht : ApTypes e s) (junk : Bytes) :
    (∀ f ∈ Auth.eapolFrame c (Auth.msg1 e s) s, ∀ w ∈ apSend K x c (Auth.msg1 e s) (msg1KeyData e) false s,
      ∃ b, staReads K s.neg.keyMgmt s.micLen s.ptk (w ++ junk) = some b ∧
        { b with keyData := { b.keyData with length := f.keyData.length } } = f.toKeyBody) ∧
    (∀ f ∈ Auth.eapolFrame c (Auth.msg3 c e s) s, ∀ w ∈ apSend K x c (Auth.msg3 c e s) (msg3KeyData c e s) true s,
      ∃ b, staReads K s.neg.keyMgmt s.micLen s.ptk (w ++ junk) = some b ∧
        { b with keyData := { b.keyData with length := f.keyData.length } } = f.toKeyBody) ∧
    (∀ f ∈ Auth.eapolFrame c (Auth.groupMsg1 e s) s, ∀ w ∈ apSend K x c (Auth.groupMsg1 e s) (gtkKde e) true s,
      ∃ b, staReads K s.neg.keyMgmt s.micLen s.ptk (w ++ junk) = some b ∧ b.nonce = List.replicate 32 0 ∧
        { b with nonce := [], keyData := { b.keyData with length := f.keyData.length } } = f.toKeyBody) :=
  ⟨fun _ hf _ hw => msg1_read hwpa2 ht hf hw junk,
    fun _ hf _ hw => msg3_read y hie hrsnxe hwpa2 hmic ht hf hw junk,
    fun _ hf _ hw => groupMsg1_read hwpa2 hmic ht hf hw junk⟩

end Ap

/-! A plain station with TKIP, whose key data is encrypted with RC4. -/

/-- The RSN element of WPA2-PSK with TKIP. -/
def tkipRsne : Elements where
  own := ⟨48, [0x01, 0x00, 0x00, 0x0F, 0xAC, 0x02, 0x01, 0x00, 0x00, 0x0F, 0xAC, 0x02, 0x01, 0x00, 0x00, 0x0F, 0xAC, 0x02,
    0x00, 0x00], by decide⟩
  ext := none
  describes := .inl rfl
  ext_id := nofun

def tkipConf : Auth.Conf := { Auth.plainConf .lifi plainPrims with wpaIe := tkipRsne.ie, groupCipher := .tkip }

def tkipEnv : Auth.Env := { Auth.calm with gtk := List.replicate 32 3 }

/-- The station when message 3/4 is due. -/
def tkipSm : Auth.Sm :=
  { Auth.Sm.new { Auth.wpa2Ccmp with pairwise := .tkip } [plainPmk] with
    aNonce := List.replicate 32 7
    ptkValid := true
    ptk := { plainKeys with tk := plainKeys.tk ++
      [0x9F, 0x69, 0xB8, 0x0C, 0x31, 0xCB, 0x19, 0x20, 0x51, 0x98, 0x47, 0x4B, 0x77, 0xA9, 0x64, 0xA2] } }

/-- What HMAC-MD5 gives for its message 3/4; AES is not needed. -/
def tkipCrypto : Crypto where
  aes _ := none
  mic _ _ _ _ :=
    some [0x15, 0x53, 0x58, 0x2A, 0x04, 0x4B, 0x22, 0x20, 0x92, 0x05, 0xE6, 0xDD, 0x17, 0x77, 0xD9, 0x11]

theorem tkipTypes : ApTypes tkipEnv tkipSm where
  aNonce := rfl
  gn := by decide
  gtk := by decide
  pmkid := nofun
  keyidx := by decide
  micLen := by decide

/-- Message 3/4 arrives at a station with TKIP. -/
theorem apMessages_read_tkip : ∃ f w b,
    Auth.eapolFrame tkipConf (Auth.msg3 tkipConf tkipEnv tkipSm) tkipSm = some f ∧
    apSend tkipCrypto ⟨2, List.replicate 8 0, List.replicate 16 5⟩ tkipConf (Auth.msg3 tkipConf tkipEnv tkipSm)
      (msg3KeyData tkipConf tkipEnv tkipSm) true tkipSm = some w ∧
    staReads tkipCrypto .psk 16 tkipSm.ptk w = some b ∧
    { b with keyData := { b.keyData with length := f.keyData.length } } = f.toKeyBody := by
  have h := apMessages_read tkipRsne (c := tkipConf) (e := tkipEnv) (s := tkipSm) (K := tkipCrypto)
    (x := ⟨2, List.replicate 8 0, List.replicate 16 5⟩) rfl rfl rfl (by decide) tkipTypes []
  obtain ⟨b, hread, heq⟩ := h.2.1 _ rfl _ rfl
  rw [List.append_nil] at hread
  exact ⟨_, _, b, rfl, rfl, hread, heq⟩

/-! ## The messages of the station -/

/-- What the types of the source promise about the station and about the frame that it answers. -/
structure StaTypes (f : EapolKey) (s : Supp.Sm) : Prop where
  snonce : s.snonce.length = 32
  micLen : s.micLen ≤ 32
  frame : Fits f.toKeyBody

/-- **The messages of the station.** What the access point reads from message 2/4, from message 4/4 and from
message 2/2 of the group key handshake is what the machine of the station sends. -/
theorem staMessages_read {K : Crypto} {version : UInt8} {ptk : Ptk} {f : EapolKey} {s : Supp.Sm} (y : Elements)
    (hie : s.par.assocWpaIe = y.ie) (hrsnxe : s.par.assocRsnxe = y.rsnxe) (ht : StaTypes f s) (junk : Bytes) :
    (∀ w ∈ staSend K version ptk (Supp.msg2 f s) (s.par.assocWpaIe ++ s.par.assocRsnxe.getD []) s,
      apReads K s.par.keyMgmt s.micLen ptk (w ++ junk) = some (Supp.msg2 f s)) ∧
    (∀ w ∈ staSend K version ptk (Supp.msg4 f s) [] s,
      apReads K s.par.keyMgmt s.micLen ptk (w ++ junk) = some (Supp.msg4 f s)) ∧
    (∀ w ∈ staSend K version ptk (Supp.groupMsg2 f s) [] s,
      apReads K s.par.keyMgmt s.micLen ptk (w ++ junk) = some (Supp.groupMsg2 f s)) := by
  have htype : (if s.par.rsn then 2 else 254) = 2 ∨ (if s.par.rsn then 2 else 254) = 254 := by
    cases s.par.rsn <;> simp
  have hm := ht.micLen
  -- a reply takes its values from the frame that it answers
  have hfits : ∀ b : KeyBody, b.type = (if s.par.rsn then 2 else 254) → b.ver = f.ver →
      (b.keyIndex = 0 ∨ b.keyIndex = f.keyIndex) → b.keyLength = (if s.par.rsn then 0 else f.keyLength) →
      b.replayCounter = f.replayCounter → Fits b := by
    intro b h1 h2 h3 h4 h5
    have hver := ht.frame.ver
    have hindex := ht.frame.keyIndex
    have hlength := ht.frame.keyLength
    refine ⟨?_, by rw [h2]; exact hver, by omega, ?_, by rw [h5]; exact ht.frame.replayCounter⟩
    · rw [h1]
      split <;> decide
    · rw [h4]
      split <;> omega
  have hnone : (encode []).length + s.micLen < 65000 := by rw [Lib.Tlv.encode_nil, List.length_nil]; omega
  refine ⟨fun w hw => ?_, fun w hw => ?_, fun w hw => ?_⟩
  · have hfit : (encode y.list).length + s.micLen < 65000 := by
      have := y.length_encode_le
      omega
    rw [hie, hrsnxe, ← y.encode_list] at hw
    obtain ⟨n, hn, hfold⟩ := y.foldl_absorb
    rw [staSend_read (hfits (Supp.msg2 f s) rfl rfl (.inl rfl) rfl rfl) htype y.any_endMark hfit hw junk, hfold]
    rcases hn with rfl | rfl | rfl <;>
      simp [Supp.msg2, fixed_of_length ht.snonce, hie, hrsnxe, y.encode_list, IeParse.toKde, IeParse.empty] <;>
      cases y.rsnxe <;> rfl
  · rw [staSend_read (hfits (Supp.msg4 f s) rfl rfl (.inl rfl) rfl rfl) htype rfl hnone hw junk]
    rfl
  · rw [staSend_read (hfits (Supp.groupMsg2 f s) rfl rfl (.inr rfl) rfl rfl) htype rfl hnone hw junk]
    rfl

/-- A plain station, a frame 1/4 for it, and what HMAC-SHA1 gives for its message 2/4. -/
def plainSta : Supp.Sm :=
  { Supp.Sm.new Supp.wpa2Ccmp with pmk := plainPmk.1, snonce := List.replicate 32 9 }

def plainMsg1 : EapolKey :=
  ⟨{ apBody (Auth.plainConf .lifi plainPrims) (Auth.msg1 Auth.calm tkipSm) { tkipSm with neg := Auth.wpa2Ccmp } with
      nonce := List.replicate 32 7 }, []⟩

def plainCrypto : Crypto where
  aes _ := none
  mic _ _ _ _ := some
    [0x6A, 0xFA, 0x94, 0xD9, 0x37, 0x8B, 0x83, 0x19, 0xC1, 0x79, 0xB4, 0x75, 0x32, 0x0F, 0x39, 0xC8, 0x6B, 0xD8, 0xF3, 0x4D]

def plainElements : Elements where
  own := ⟨48, plainRsne.drop 2, by decide⟩
  ext := none
  describes := .inl rfl
  ext_id := nofun

theorem plainStaTypes : StaTypes plainMsg1 plainSta where
  snonce := rfl
  micLen := by decide
  frame := ⟨by decide, by decide, by decide, by decide, by decide⟩

/-- Message 2/4 of a plain station arrives. -/
theorem staMessages_read_plain : ∃ w,
    staSend plainCrypto 1 plainKeys (Supp.msg2 plainMsg1 plainSta) plainRsne plainSta = some w ∧
    apReads plainCrypto .psk 16 plainKeys w = some (Supp.msg2 plainMsg1 plainSta) := by
  have h := (@staMessages_read plainCrypto 1 plainKeys plainMsg1 plainSta plainElements (by decide) rfl plainStaTypes []).1 _ rfl
  rw [List.append_nil] at h
  exact ⟨_, rfl, h⟩

end Lightguard.Wire
