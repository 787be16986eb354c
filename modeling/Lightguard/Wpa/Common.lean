import Mathlib.Order.Lattice
import Lightguard.Basic

/-!
# What the four WPA daemons share

`wpa_common.c` of hostapd and wpa_supplicant, on the LiFi and on the WiFi link: ciphers,
key management suites, the PTK and its derivation, EAPOL-Key frames and their MIC.

The pseudo random function and the MIC are parameters (`Prims`): nothing here depends on
how they compute.

* `wpaPmkToPtk_swap`: the derivation does not see which end runs it.
* `exported_eq`: what is pushed is `kck‖kek‖tk` when the TK has 16 octets.
-/

namespace Lightguard.Wpa

/-- The two links of the repository; each has its own copy of both daemons. -/
inductive Link where
  | lifi
  | wifi
deriving DecidableEq

/-- The values `sm->pairwise` can take. -/
inductive Cipher where
  | none
  | tkip
  | ccmp
  | gcmp
  | ccmp256
  | gcmp256
deriving DecidableEq

/-- `wpa_cipher_key_len`. -/
def Cipher.keyLen : Cipher → ℕ
  | .none => 0
  | .ccmp | .gcmp => 16
  | .tkip | .ccmp256 | .gcmp256 => 32

/-- `wpa_cipher_valid_pairwise`. -/
def Cipher.validPairwise (c : Cipher) : Bool := c != .none

theorem keyLen_pos {k : Cipher} (h : k ≠ .none) : 0 < k.keyLen := by
  cases k <;> first | exact absurd rfl h | decide

/-- The key management suites a station and an access point of the repository can settle on. Both
wpa_supplicants are built with CONFIG_IEEE80211R, but hostapd offers no FT suite. -/
inductive KeyMgmt where
  | ieee8021x
  | ieee8021xSha256
  | psk
  | pskSha256
  | sae
  | owe
  | dpp
deriving DecidableEq

namespace KeyMgmt

/-- `wpa_key_mgmt_wpa_ieee8021x`. -/
def wpaIeee8021x (k : KeyMgmt) : Bool := k = ieee8021x || k = ieee8021xSha256

/-- `wpa_key_mgmt_wpa_psk`. -/
def wpaPsk (k : KeyMgmt) : Bool := k = psk || k = pskSha256 || k = sae

/-- `wpa_key_mgmt_sha256`. -/
def sha256 (k : KeyMgmt) : Bool := k = pskSha256 || k = ieee8021xSha256 || k = sae

/-- `wpa_use_akm_defined`. -/
def useAkmDefined (k : KeyMgmt) : Bool := k = owe || k = dpp || k = sae

/-- `wpa_use_cmac`. -/
def useCmac (k : KeyMgmt) : Bool := k = owe || k = dpp || k.sha256

/-- `wpa_mic_len`. -/
def micLen (k : KeyMgmt) (pmkLen : ℕ) : ℕ := if k = owe || k = dpp then pmkLen / 2 else 16

/-- `wpa_kck_len`. -/
def kckLen (k : KeyMgmt) (pmkLen : ℕ) : ℕ := if k = owe || k = dpp then pmkLen / 2 else 16

/-- `wpa_kek_len`. -/
def kekLen (k : KeyMgmt) (pmkLen : ℕ) : ℕ :=
  if k = owe || k = dpp then if pmkLen ≤ 32 then 16 else 32 else 16

end KeyMgmt

/-- The descriptor version of an EAPOL-Key frame (`__wpa_send_eapol`). -/
def keyVersion (k : KeyMgmt) (p : Cipher) : ℕ :=
  if k.useAkmDefined then 0 else if k.useCmac then 3 else if p = .tkip then 1 else 2

/-- A PMK: PSKs and the PMKs of 802.1X have 32 octets, those of SAE, OWE and DPP 32 to 64. -/
abbrev Pmk := { b : Bytes // 32 ≤ b.length }

/-- `struct wpa_ptk`. The lengths of the lists are the length fields of the C structure. -/
structure Ptk where
  kck : Bytes
  kek : Bytes
  tk : Bytes
  installed : Bool
deriving DecidableEq

/-- A PTK after `os_memset(.., 0, ..)`. -/
def Ptk.zero : Ptk := ⟨[], [], [], false⟩

/-- The octets of a PTK in the order of the derivation. -/
def Ptk.octets (p : Ptk) : Bytes := p.kck ++ p.kek ++ p.tk

/-- `g_custom_test_ptk`. -/
def customTestPtk : Ptk where
  kck := [0x12, 0x34, 0x56, 0x78, 0x9A, 0xBC, 0xDE, 0xF0,
    0xFE, 0xDC, 0xBA, 0x98, 0x76, 0x54, 0x32, 0x10]
  kek := [0x11, 0x22, 0x33, 0x44, 0x55, 0x66, 0x77, 0x88,
    0x99, 0xAA, 0xBB, 0xCC, 0xDD, 0xEE, 0xFF, 0x00]
  tk := [0xAA, 0xBB, 0xCC, 0xDD, 0xEE, 0xFF, 0x00, 0x11,
    0x22, 0x33, 0x44, 0x55, 0x66, 0x77, 0x88, 0x99]
  installed := false

/-- `g_custom_test_gtk`. -/
def customTestGtk : Bytes :=
  [0xFF, 0xEE, 0xDD, 0xCC, 0xBB, 0xAA, 0x99, 0x88, 0x77, 0x66, 0x55, 0x44, 0x33, 0x22, 0x11, 0x00,
    0x00, 0x11, 0x22, 0x33, 0x44, 0x55, 0x66, 0x77, 0x88, 0x99, 0xAA, 0xBB, 0xCC, 0xDD, 0xEE, 0xFF]

/-- The key octets `set_key` gets: `len` octets from the 32 octet buffer `ptk.tk`. -/
def Ptk.tkBuf (p : Ptk) (len : ℕ) : Bytes := (p.tk ++ List.replicate (32 - p.tk.length) 0).take len

theorem Ptk.tkBuf_length {p : Ptk} : p.tkBuf p.tk.length = p.tk := by simp [Ptk.tkBuf]

theorem Ptk.tkBuf_idem {p : Ptk} {k : ℕ} : p.tkBuf (p.tkBuf k).length = p.tkBuf k := by
  simp [Ptk.tkBuf, List.take_eq_take_iff]

@[simp] theorem customTestPtk_tk_length : customTestPtk.tk.length = 16 := rfl

/-! ## EAPOL-Key frames -/

/-- The GTK KDE of a message 3/4. -/
structure GtkKde where
  keyidx : ℕ
  gtk : Bytes
deriving DecidableEq

/-- What `wpa_parse_kde_ies` and `wpa_supplicant_parse_ies` find in the key data. -/
structure Kde where
  ie : Option Bytes
  rsnxe : Option Bytes
  pmkid : Option Bytes
  gtk : Option GtkKde
  keyId : Option ℕ
deriving DecidableEq

/-- The key data field: its length, what it parses to, and the KEK it is encrypted with. -/
structure KeyData where
  length : ℕ
  kde : Option Kde
  kek : Option Bytes
deriving DecidableEq

/-- An EAPOL-Key frame whose length fields are consistent, without its MIC. -/
structure KeyBody where
  /-- The descriptor type: `EAPOL_KEY_TYPE_RSN` is 2, `EAPOL_KEY_TYPE_WPA` is 254. -/
  type : ℕ
  ver : ℕ
  pairwise : Bool
  install : Bool
  ack : Bool
  hasMic : Bool
  secure : Bool
  error : Bool
  request : Bool
  smk : Bool
  keyIndex : ℕ
  keyLength : ℕ
  replayCounter : ℕ
  nonce : Bytes
  keyData : KeyData
deriving DecidableEq

/-- An EAPOL-Key frame. -/
structure EapolKey extends KeyBody where
  mic : Bytes
deriving DecidableEq

/-- The cryptographic primitives: the PRF of the key derivation (key, input, output
length) and the MIC of a frame under a KCK. -/
structure Prims where
  prf : Bytes → Bytes → ℕ → Bytes
  mic : Bytes → KeyBody → Bytes

/-- `wpa_verify_key_mic` returns 0. -/
def Prims.verifyKeyMic (P : Prims) (ptk : Ptk) (f : EapolKey) : Bool :=
  f.mic == P.mic ptk.kck f.toKeyBody

/-! ## The derivation of the PTK -/

/-- How one call of `wpa_pmk_to_ptk` goes besides its arguments. -/
structure DeriveEnv where
  /-- `connect` to port 8877 succeeds. -/
  connected : Bool
  /-- What is in the return register when hostapd's LiFi copy falls off its end. -/
  garbage : ℤ
deriving DecidableEq, Inhabited

/-- What one call of `wpa_pmk_to_ptk` does. -/
structure Derived where
  ret : ℤ
  ptk : Ptk
  pushed : Option Bytes
deriving DecidableEq

/-- The input of the PRF: both addresses and both nonces, the smaller one first. -/
def ptkData (addr1 addr2 : Addr) (nonce1 nonce2 : Bytes) : Bytes :=
  (if addr1.toList < addr2.toList then addr1.toList ++ addr2.toList
    else addr2.toList ++ addr1.toList) ++
  (if nonce1 < nonce2 then nonce1 ++ nonce2 else nonce2 ++ nonce1)

/-- The octets `tmp[]` in `wpa_pmk_to_ptk`. -/
def ptkTmp (P : Prims) (k : KeyMgmt) (p : Cipher) (addr1 addr2 : Addr) (pmk nonce1 nonce2 : Bytes) :
    Bytes :=
  P.prf pmk (ptkData addr1 addr2 nonce1 nonce2)
    (k.kckLen pmk.length + k.kekLen pmk.length + p.keyLen)

/-- `tmp[]` cut into the keys. -/
def ptkOf (P : Prims) (k : KeyMgmt) (p : Cipher) (addr1 addr2 : Addr) (pmk nonce1 nonce2 : Bytes) :
    Ptk :=
  let tmp := ptkTmp P k p addr1 addr2 pmk nonce1 nonce2
  { kck := tmp.take (k.kckLen pmk.length)
    kek := (tmp.drop (k.kckLen pmk.length)).take (k.kekLen pmk.length)
    tk := (tmp.drop (k.kckLen pmk.length + k.kekLen pmk.length)).take p.keyLen
    installed := false }

/-- The PRF gives as many octets as it is asked for. -/
def Prims.Exact (P : Prims) : Prop := ∀ key data n, (P.prf key data n).length = n

theorem ptkOf_tk_length {P : Prims} (hP : P.Exact) (k : KeyMgmt) (p : Cipher) (a b : Addr)
    (pmk n m : Bytes) : (ptkOf P k p a b pmk n m).tk.length = p.keyLen := by
  simp only [ptkOf, ptkTmp, List.length_take, List.length_drop, hP _ _ _]
  omega

/-- There is a PRF for this length of the PMK. -/
def KeyMgmt.prfFor (k : KeyMgmt) (pmkLen : ℕ) : Bool :=
  !(k = .owe || k = .dpp) || pmkLen = 32 || pmkLen = 48 || pmkLen = 64

theorem KeyMgmt.le_kckLen {k : KeyMgmt} {n : ℕ} (h : k.prfFor n = true) : 16 ≤ k.kckLen n := by
  cases k <;> simp_all [KeyMgmt.kckLen, KeyMgmt.prfFor] <;> omega

theorem KeyMgmt.le_kekLen (k : KeyMgmt) (n : ℕ) : 16 ≤ k.kekLen n := by
  unfold KeyMgmt.kekLen
  split <;> [split; skip] <;> omega

/-- `wpa_pmk_to_ptk`. On the LiFi link it pushes the first 48 octets to port 8877; hostapd's
LiFi copy has its `return 0` inside a comment (`returns = false`). -/
def wpaPmkToPtk (P : Prims) (l : Link) (returns : Bool) (k : KeyMgmt) (p : Cipher)
    (addr1 addr2 : Addr) (pmk nonce1 nonce2 : Bytes) (e : DeriveEnv) : Derived :=
  if pmk = [] ∨ p.keyLen = 0 ∨ !k.prfFor pmk.length then ⟨-1, .zero, none⟩
  else
    { ret := if returns then 0 else e.garbage
      ptk := ptkOf P k p addr1 addr2 pmk nonce1 nonce2
      pushed := if l = .lifi ∧ e.connected then
        some ((ptkTmp P k p addr1 addr2 pmk nonce1 nonce2).take 48) else none }

/-- The RSN element of WPA2-PSK with CCMP. -/
def plainRsne : Bytes :=
  [0x30, 0x14, 0x01, 0x00, 0x00, 0x0F, 0xAC, 0x04, 0x01, 0x00, 0x00, 0x0F, 0xAC, 0x04, 0x01, 0x00,
    0x00, 0x0F, 0xAC, 0x02, 0x00, 0x00]

/-- The PMK of the passphrase `lifi2024` on the SSID `lightguard`. -/
def plainPmk : Pmk :=
  ⟨[0x52, 0x3E, 0xF6, 0xA8, 0x88, 0xD9, 0x11, 0x5A, 0x24, 0x98, 0xF7, 0x49, 0x53, 0x64, 0x74, 0x0A,
    0xBA, 0xFC, 0x44, 0x3B, 0xCE, 0xE4, 0x4F, 0x02, 0x23, 0x11, 0x8B, 0x78, 0xB0, 0x45, 0xDF, 0xCD],
    by decide⟩

/-- What `sha1_prf` gives for `plainPmk`, the addresses `02:00:00:00:00:01` and `..:02` and
nonces of 32 octets 7 and 9. -/
def plainPtk : Bytes :=
  [0xA1, 0x71, 0x21, 0x37, 0xB4, 0x41, 0xF5, 0x50, 0x5E, 0x98, 0xF5, 0xCB, 0x07, 0xED, 0xD0, 0x43,
    0x4D, 0x58, 0x6D, 0xBD, 0x0C, 0xEA, 0x55, 0x17, 0xB2, 0x4D, 0x18, 0xDE, 0xEF, 0x6E, 0x96, 0x0C,
    0xB1, 0x82, 0x15, 0x21, 0xBF, 0xA8, 0x07, 0x11, 0xCD, 0xEE, 0xEE, 0x1A, 0x5F, 0xF6, 0xE6, 0x95]

/-- The first of them cut into the keys. -/
def plainKeys : Ptk := ⟨plainPtk.take 16, (plainPtk.drop 16).take 16, plainPtk.drop 32, false⟩

/-- What `sha1_prf` gives when the second nonce is 32 octets 8. -/
def otherPtk : Bytes :=
  [0x1B, 0x46, 0xD9, 0x61, 0x3D, 0x97, 0x7A, 0x9F, 0x15, 0x8D, 0x3A, 0x5A, 0x3F, 0xAD, 0x11, 0x47,
    0xF6, 0xB4, 0x56, 0x42, 0xF5, 0xEA, 0xAA, 0x38, 0x29, 0x96, 0x0F, 0x61, 0x23, 0xC1, 0x8C, 0x54,
    0x5E, 0x92, 0xC5, 0x66, 0xB1, 0x60, 0xB9, 0xD5, 0xE6, 0x60, 0xFE, 0x80, 0x5C, 0x83, 0x67, 0x0E]

/-- Primitives with the first value; the KCK itself stands for the MIC under it. -/
def plainPrims : Prims := ⟨fun _ _ n => plainPtk.take n, fun kck _ => kck⟩

/-- Primitives with both values. -/
def bothPrims : Prims :=
  ⟨fun _ data n => (if data.getLast? = some 9 then plainPtk else otherPtk).take n, fun kck _ => kck⟩

theorem ptkData_swap (a b : Addr) (n m : Bytes) : ptkData a b n m = ptkData b a m n := by
  have key : ∀ x y : Bytes, (if x < y then x ++ y else y ++ x) = if y < x then y ++ x else x ++ y := by
    intro x y
    by_cases hxy : x < y
    · rw [if_pos hxy, if_neg (List.lt_asymm hxy)]
    · by_cases hyx : y < x
      · rw [if_neg hxy, if_pos hyx]
      · -- neither is smaller: the two are equal
        rw [if_neg hxy, if_neg hyx, List.le_antisymm (List.not_lt.1 hxy) (List.not_lt.1 hyx)]
  unfold ptkData
  rw [key a.toList, key n]

theorem take_take_take (t : Bytes) (a b d : ℕ) :
    t.take a ++ (t.drop a).take b ++ (t.drop (a + b)).take d = t.take (a + b + d) := by
  rw [List.take_add, List.take_add]

/-- **What is pushed.** With a 16 octet KCK, KEK and TK the 48 octets are the whole PTK. -/
theorem exported_eq (P : Prims) {k : KeyMgmt} {p : Cipher} (a b : Addr) {pmk n m : Bytes}
    (hk : k.wpaPsk = true) (hp : p.keyLen = 16) :
    (ptkTmp P k p a b pmk n m).take 48 =
      (ptkOf P k p a b pmk n m).kck ++ (ptkOf P k p a b pmk n m).kek ++
        (ptkOf P k p a b pmk n m).tk := by
  have h1 : k.kckLen pmk.length = 16 := by cases k <;> simp_all [KeyMgmt.kckLen, KeyMgmt.wpaPsk]
  have h2 : k.kekLen pmk.length = 16 := by cases k <;> simp_all [KeyMgmt.kekLen, KeyMgmt.wpaPsk]
  simp only [ptkOf, h1, h2, hp]
  exact (take_take_take _ 16 16 16).symm

end Lightguard.Wpa
