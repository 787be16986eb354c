import Lightguard.Lib.KeyWrap
import Lightguard.Lib.Octets
import Lightguard.Wire.Kde

/-!
# The encryption of the key data

`aes_wrap`, `aes_unwrap` (`aes-wrap.c`, `aes-unwrap.c`), `rc4_skip` (`rc4.c`), and how
`__wpa_send_eapol` and `wpa_supplicant_decrypt_key_data` use them. The block cipher is a parameter.

* `aesUnwrap_eq_some_iff`: `aes_unwrap` takes exactly what `aes_wrap` makes.
* `rc4Skip_rc4Skip`: RC4 is undone by RC4.
* `decrypt_encrypt`: the station gets back what the access point encrypts, up to the padding.
-/

namespace Lightguard.Wire

open Wpa
open Lib.KeyWrap (wrap unwrap unwrap_eq_some_iff)

/-- Eight octets, half an AES block. -/
abbrev Half := List.Vector UInt8 8

/-- `aes_encrypt` and `aes_decrypt` under one key. -/
structure BlockCipher where
  enc : Half × Half → Half × Half
  dec : Half × Half → Half × Half
  dec_enc : ∀ b, dec (enc b) = b
  enc_dec : ∀ b, enc (dec b) = b

/-- `a[7] ^= t; a[6] ^= t >> 8; a[5] ^= t >> 16; a[4] ^= t >> 24`. -/
def mixCounter (t : ℕ) (a : Half) : Half :=
  ⟨a.toList.zipWith (· ^^^ ·) ([0, 0, 0, 0] ++ Lib.be 4 t), by simp⟩

theorem zipWith_xor_xor {a b : Bytes} (h : a.length ≤ b.length) :
    (a.zipWith (· ^^^ ·) b).zipWith (· ^^^ ·) b = a := by
  induction a generalizing b with
  | nil => rfl
  | cons x a ih =>
    cases b with
    | nil => simp at h
    | cons y b =>
      have hxor : x ^^^ y ^^^ y = x := by rw [UInt8.xor_assoc, UInt8.xor_self, UInt8.xor_zero]
      simp only [List.zipWith_cons_cons, hxor, ih (Nat.le_of_succ_le_succ h)]

theorem mixCounter_mixCounter (t : ℕ) (a : Half) : mixCounter t (mixCounter t a) = a :=
  Subtype.ext (zipWith_xor_xor (by simp))

/-- The key wrap over a block cipher. -/
def BlockCipher.keyWrap (c : BlockCipher) : Lib.KeyWrap.Cipher Half :=
  ⟨c.enc, c.dec, mixCounter, c.dec_enc, c.enc_dec, mixCounter_mixCounter⟩

/-- Eight times `0xa6`. -/
def wrapIv : Half := ⟨List.replicate 8 0xa6, rfl⟩

/-! ## Octets and half blocks -/

/-- The first `n` octets, with zeros where there are none. -/
def fixed (n : ℕ) (b : Bytes) : Bytes := (b ++ List.replicate n 0).take n

@[simp] theorem length_fixed (n : ℕ) (b : Bytes) : (fixed n b).length = n := by simp [fixed]

theorem fixed_of_length {n : ℕ} {b : Bytes} (h : b.length = n) : fixed n b = b := by
  rw [fixed, List.take_append_of_le_length h.ge, List.take_of_length_le h.le]

/-- The first eight octets of a buffer. -/
def half (b : Bytes) : Half := ⟨fixed 8 b, length_fixed 8 b⟩

@[simp] theorem half_toList (b : Bytes) : (half b).toList = fixed 8 b := rfl

/-- The first `n` times eight octets of a buffer. -/
def halves : ℕ → Bytes → List Half
  | 0, _ => []
  | n + 1, b => half b :: halves n (b.drop 8)

/-- The octets of half blocks. -/
def joined (l : List Half) : Bytes := l.flatMap (·.toList)

@[simp] theorem length_halves (n : ℕ) (b : Bytes) : (halves n b).length = n := by
  induction n generalizing b with
  | zero => rfl
  | succ n ih => simp [halves, ih]

@[simp] theorem length_joined (l : List Half) : (joined l).length = 8 * l.length := by
  induction l with
  | nil => rfl
  | cons a l ih =>
    rw [joined, List.flatMap_cons, List.length_append, ← joined, ih, a.toList_length, List.length_cons]
    omega

theorem joined_halves {n : ℕ} {b : Bytes} (h : b.length = 8 * n) : joined (halves n b) = b := by
  induction n generalizing b with
  | zero => exact (List.eq_nil_of_length_eq_zero h).symm
  | succ n ih =>
    have htake : fixed 8 b = b.take 8 := List.take_append_of_le_length (by omega)
    rw [halves, joined, List.flatMap_cons, ← joined, ih (by rw [List.length_drop]; omega), half_toList, htake,
      List.take_append_drop]

theorem halves_joined (l : List Half) (q : Bytes) : halves l.length (joined l ++ q) = l := by
  induction l with
  | nil => rfl
  | cons a l ih =>
    have ha : a.toList.length = 8 := a.toList_length
    have hfixed : fixed 8 (a.toList ++ (joined l ++ q)) = a.toList := by
      rw [fixed, List.append_assoc, List.take_left' ha]
    have hdrop : (a.toList ++ (joined l ++ q)).drop 8 = joined l ++ q := List.drop_left' ha
    rw [joined, List.flatMap_cons, ← joined, List.append_assoc, List.length_cons, halves, hdrop, ih]
    exact congrArg (· :: l) (Subtype.ext hfixed)

/-! ## `aes_wrap` and `aes_unwrap` -/

/-- `aes_wrap`; `aes` is `aes_encrypt_init`. -/
def aesWrap (aes : Bytes → Option BlockCipher) (kek : Bytes) (n : ℕ) (plain : Bytes) : Option Bytes :=
  (aes kek).map fun c =>
    let w := wrap c.keyWrap wrapIv (halves n plain)
    w.1.toList ++ joined w.2

/-- `aes_unwrap`; `aes` is `aes_decrypt_init`. -/
def aesUnwrap (aes : Bytes → Option BlockCipher) (kek : Bytes) (n : ℕ) (cipher : Bytes) : Option Bytes :=
  (aes kek).bind fun c =>
    (unwrap c.keyWrap wrapIv (half cipher, halves n (cipher.drop 8))).map joined

variable {aes : Bytes → Option BlockCipher} {kek plain cipher : Bytes} {n : ℕ}

theorem length_aesWrap (h : aesWrap aes kek n plain = some cipher) : cipher.length = 8 * (n + 1) := by
  obtain ⟨c, -, rfl⟩ := Option.map_eq_some_iff.1 h
  simp only [List.length_append, length_joined, Lib.KeyWrap.length_wrap, length_halves, List.Vector.toList_length]
  omega

/-- **`aes_unwrap` takes exactly what `aes_wrap` makes.** -/
theorem aesUnwrap_eq_some_iff (aes : Bytes → Option BlockCipher) (kek : Bytes) (n : ℕ)
    (plain : List.Vector UInt8 (8 * n)) (cipher : List.Vector UInt8 (8 * (n + 1))) :
    aesUnwrap aes kek n cipher.toList = some plain.toList ↔ aesWrap aes kek n plain.toList = some cipher.toList := by
  have hplain : joined (halves n plain.toList) = plain.toList := joined_halves plain.toList_length
  have hcipher : joined (halves (n + 1) cipher.toList) = cipher.toList := joined_halves cipher.toList_length
  cases hc : aes kek with
  | none => simp [aesUnwrap, aesWrap, hc]
  | some c =>
    simp only [aesUnwrap, aesWrap, hc, Option.bind_some, Option.map_some, Option.some.injEq]
    constructor
    · intro h
      obtain ⟨l, hl, hjoin⟩ := Option.map_eq_some_iff.1 h
      have hw := unwrap_eq_some_iff.1 hl
      have hlen : l.length = n := by
        have := congrArg (·.2.length) hw
        simpa using this.symm
      obtain rfl : l = halves n plain.toList := by
        rw [← hjoin, ← List.append_nil (joined l), ← hlen, halves_joined]
      rw [← hw]
      exact hcipher
    · intro h
      refine Option.map_eq_some_iff.2 ⟨halves n plain.toList, unwrap_eq_some_iff.2 ?_, hplain⟩
      set w := wrap c.keyWrap wrapIv (halves n plain.toList) with hw
      have hlen : w.2.length = n := by rw [hw]; simp
      have hhalves := halves_joined (w.1 :: w.2) []
      rw [List.length_cons, hlen, List.append_nil] at hhalves
      have hjoin : joined (w.1 :: w.2) = cipher.toList := by rw [← h]; rfl
      rw [hjoin, halves, List.cons_eq_cons] at hhalves
      exact Prod.ext hhalves.1 hhalves.2

/-! ## RC4 -/

/-- `S`, and `i` and `j` of `rc4_skip`. -/
structure Rc4 where
  s : Vector UInt8 256
  i : UInt8
  j : UInt8

/-- `S[a]`. -/
def rc4Get (s : Vector UInt8 256) (a : UInt8) : UInt8 := s.get ⟨a.toNat, a.toNat_lt⟩

/-- `S_SWAP`. -/
def rc4Swap (s : Vector UInt8 256) (a b : UInt8) : Vector UInt8 256 :=
  (s.set a.toNat (rc4Get s b) a.toNat_lt).set b.toNat (rc4Get s a) b.toNat_lt

/-- One round of the setup; the octets of the key are used over and over. -/
def rc4SetupRound (key : Bytes) (st : Vector UInt8 256 × UInt8) (i : ℕ) : Vector UInt8 256 × UInt8 :=
  let j := st.2 + rc4Get st.1 (UInt8.ofNat i) + key.getD (i % key.length) 0
  (rc4Swap st.1 (UInt8.ofNat i) j, j)

/-- The state after the setup. -/
def rc4Setup (key : Bytes) : Rc4 :=
  ⟨((List.range 256).foldl (rc4SetupRound key) (Vector.ofFn fun i => UInt8.ofNat i, 0)).1, 0, 0⟩

/-- The state moves on. -/
def Rc4.next (st : Rc4) : Rc4 :=
  let i := st.i + 1
  let j := st.j + rc4Get st.s i
  ⟨rc4Swap st.s i j, i, j⟩

/-- The octet of the stream in a state. -/
def Rc4.octet (st : Rc4) : UInt8 := rc4Get st.s (rc4Get st.s st.i + rc4Get st.s st.j)

/-- RC4 applied to data. -/
def Rc4.apply : Rc4 → Bytes → Bytes
  | _, [] => []
  | st, b :: l => (b ^^^ st.next.octet) :: st.next.apply l

/-- `rc4_skip`. -/
def rc4Skip (key : Bytes) (skip : ℕ) (data : Bytes) : Bytes := (Rc4.next^[skip] (rc4Setup key)).apply data

theorem Rc4.apply_apply (st : Rc4) (data : Bytes) : st.apply (st.apply data) = data := by
  induction data generalizing st with
  | nil => rfl
  | cons b l ih =>
    have hxor : b ^^^ st.next.octet ^^^ st.next.octet = b := by
      rw [UInt8.xor_assoc, UInt8.xor_self, UInt8.xor_zero]
    simp only [Rc4.apply, hxor, ih]

@[simp] theorem Rc4.length_apply (st : Rc4) (data : Bytes) : (st.apply data).length = data.length := by
  induction data generalizing st with
  | nil => rfl
  | cons b l ih => simp [Rc4.apply, ih]

/-- **RC4 is undone by RC4.** -/
theorem rc4Skip_rc4Skip (key : Bytes) (skip : ℕ) (data : Bytes) :
    rc4Skip key skip (rc4Skip key skip data) = data := Rc4.apply_apply _ _

/-! ## The key data -/

/-- `wpa_use_aes_key_wrap`. -/
def useAesKeyWrap (k : KeyMgmt) : Bool := k = .owe || k = .dpp || k.sha256 || k = .sae

/-- The key data is wrapped, as opposed to RC4. -/
def wrapsKeyData (k : KeyMgmt) (ver : ℕ) : Bool := ver = 2 || useAesKeyWrap k || ver = 3

/-- `pad_len`. -/
def padLen (n : ℕ) : ℕ := if n % 8 = 0 then 0 else 8 - n % 8

/-- How `__wpa_send_eapol` encrypts the key data; `iv` is the field `key_iv`. -/
def encryptKeyData (aes : Bytes → Option BlockCipher) (k : KeyMgmt) (ver : ℕ) (kek iv kde : Bytes) :
    Option Bytes :=
  if wrapsKeyData k ver then
    aesWrap aes kek ((kde.length + padLen kde.length) / 8) (kde ++ padding (padLen kde.length))
  else if kek.length = 16 then some (rc4Skip (iv ++ kek) 256 kde)
  else none

/-- `wpa_supplicant_decrypt_key_data`. -/
def wpaSupplicantDecryptKeyData (aes : Bytes → Option BlockCipher) (k : KeyMgmt) (ver : ℕ)
    (kek iv keyData : Bytes) : Option Bytes :=
  if ver = 1 ∧ kek.length = 16 then some (rc4Skip (iv ++ kek) 256 keyData)
  else if ver = 2 ∨ ver = 3 ∨ useAesKeyWrap k then
    if keyData.length < 8 ∨ keyData.length % 8 ≠ 0 then none
    else aesUnwrap aes kek ((keyData.length - 8) / 8) keyData
  else none

@[simp] theorem length_padding (k : ℕ) : (padding k).length = k := by
  cases k <;> simp [padding]

theorem padLen_dvd (n : ℕ) : 8 * ((n + padLen n) / 8) = n + padLen n := by
  unfold padLen
  split <;> omega

/-- The key wrap adds the padding and eight octets. -/
theorem length_encryptKeyData_le {aes : Bytes → Option BlockCipher} {k : KeyMgmt} {ver : ℕ}
    {kek iv kde data : Bytes} (h : encryptKeyData aes k ver kek iv kde = some data) :
    data.length ≤ kde.length + 16 := by
  unfold encryptKeyData at h
  split at h
  · have hlen := length_aesWrap h
    have hdvd := padLen_dvd kde.length
    have hpad : padLen kde.length < 8 := by
      unfold padLen
      split <;> omega
    omega
  split at h
  · obtain rfl := Option.some.inj h
    rw [rc4Skip, Rc4.length_apply]
    omega
  · cases h

/-- The padding that is behind decrypted key data. -/
def keyDataPad (k : KeyMgmt) (ver n : ℕ) : ℕ := if wrapsKeyData k ver then padLen n else 0

/-- **The station decrypts** what the access point has encrypted for the descriptor version of the suites
that both have negotiated. -/
theorem decrypt_encrypt {aes : Bytes → Option BlockCipher} {k : KeyMgmt} {p : Cipher} {kek iv kde data : Bytes}
    (h : encryptKeyData aes k (keyVersion k p) kek iv kde = some data) :
    wpaSupplicantDecryptKeyData aes k (keyVersion k p) kek iv data =
      some (kde ++ padding (keyDataPad k (keyVersion k p) kde.length)) := by
  unfold encryptKeyData at h
  unfold wpaSupplicantDecryptKeyData keyDataPad
  split at h
  · rename_i hwrap
    have hplain : (kde ++ padding (padLen kde.length)).length = 8 * ((kde.length + padLen kde.length) / 8) := by
      rw [padLen_dvd, List.length_append, length_padding]
    have hlen := length_aesWrap h
    have hver : ¬ (keyVersion k p = 1 ∧ kek.length = 16) := by
      rintro ⟨hver, -⟩
      revert hwrap hver
      cases k <;> cases p <;> decide
    have hwrap' : keyVersion k p = 2 ∨ keyVersion k p = 3 ∨ useAesKeyWrap k = true := by
      simp only [wrapsKeyData, Bool.or_eq_true, decide_eq_true_eq] at hwrap
      tauto
    have hn : (data.length - 8) / 8 = (kde.length + padLen kde.length) / 8 := by omega
    rw [if_neg hver, if_pos hwrap', if_neg (by omega), hn, if_pos hwrap]
    exact (aesUnwrap_eq_some_iff aes kek _ ⟨_, hplain⟩ ⟨data, hlen⟩).2 h
  · rename_i hwrap
    split at h
    · rename_i hkek
      have hver : keyVersion k p = 1 := by
        revert hwrap
        cases k <;> cases p <;> decide
      obtain rfl := Option.some.inj h
      rw [if_pos ⟨hver, hkek⟩, rc4Skip_rc4Skip, if_neg hwrap, padding, List.append_nil]
    · cases h

end Lightguard.Wire
