import Lightguard.Wpa.Common

/-!
# The derivation of the PTK, for all suites

`wpa_pmk_to_ptk` in the LiFi copies of hostapd and wpa_supplicant, with all that it reads: any AKM and
cipher, the Z value of DPP and the KDK, and the compile time options. The four PRFs are parameters that
may fail. The copies are the same text up to the push of `tmp`; hostapd's has its `return 0` inside the
comment that ends it.

* `copies_agree_iff`: when the two copies come out the same.
* `both_ends_export`: the calls of the two ends derive and push the same octets.
* `wpaPmkToPtk_full`: the derivation of the suites in use, as a case of this one.
-/

namespace Lightguard.Wpa

/-! ## Suites -/

/-- `int akmp`. -/
abbrev Akmp := BitVec 32

namespace Akmp

def ieee8021x : Akmp := 1 <<< 0
def psk : Akmp := 1 <<< 1
def ieee8021xSha256 : Akmp := 1 <<< 7
def pskSha256 : Akmp := 1 <<< 8
def sae : Akmp := 1 <<< 10
def ftSae : Akmp := 1 <<< 11
def osen : Akmp := 1 <<< 15
def ieee8021xSuiteB : Akmp := 1 <<< 16
def ieee8021xSuiteB192 : Akmp := 1 <<< 17
def filsSha256 : Akmp := 1 <<< 18
def filsSha384 : Akmp := 1 <<< 19
def ftFilsSha256 : Akmp := 1 <<< 20
def ftFilsSha384 : Akmp := 1 <<< 21
def owe : Akmp := 1 <<< 22
def dpp : Akmp := 1 <<< 23
def ftIeee8021xSha384 : Akmp := 1 <<< 24

/-- `wpa_key_mgmt_sha256`. -/
def sha256 (k : Akmp) : Bool :=
  k &&& (pskSha256 ||| ieee8021xSha256 ||| sae ||| ftSae ||| osen ||| ieee8021xSuiteB |||
    filsSha256 ||| ftFilsSha256) != 0

/-- `wpa_key_mgmt_sha384`. -/
def sha384 (k : Akmp) : Bool :=
  k &&& (ieee8021xSuiteB192 ||| ftIeee8021xSha384 ||| filsSha384 ||| ftFilsSha384) != 0

/-- `wpa_kck_len`. -/
def kckLen (k : Akmp) (pmkLen : ℕ) : ℕ :=
  if k = ieee8021xSuiteB192 ∨ k = ftIeee8021xSha384 then 24
  else if k = filsSha256 ∨ k = ftFilsSha256 ∨ k = filsSha384 ∨ k = ftFilsSha384 then 0
  else if k = dpp then pmkLen / 2
  else if k = owe then pmkLen / 2
  else 16

/-- `wpa_kek_len`. -/
def kekLen (k : Akmp) (pmkLen : ℕ) : ℕ :=
  if k = filsSha384 ∨ k = ftFilsSha384 then 64
  else if k = ieee8021xSuiteB192 ∨ k = filsSha256 ∨ k = ftFilsSha256 ∨ k = ftIeee8021xSha384 then 32
  else if k = dpp then if pmkLen ≤ 32 then 16 else 32
  else if k = owe then if pmkLen ≤ 32 then 16 else 32
  else 16

end Akmp

/-- `int cipher`. -/
abbrev CipherBits := BitVec 32

namespace CipherBits

def tkip : CipherBits := 1 <<< 3
def ccmp : CipherBits := 1 <<< 4
def aes128Cmac : CipherBits := 1 <<< 5
def gcmp : CipherBits := 1 <<< 6
def gcmp256 : CipherBits := 1 <<< 8
def ccmp256 : CipherBits := 1 <<< 9
def bipGmac128 : CipherBits := 1 <<< 11
def bipGmac256 : CipherBits := 1 <<< 12
def bipCmac256 : CipherBits := 1 <<< 13

/-- `wpa_cipher_key_len`. -/
def keyLen (c : CipherBits) : ℕ :=
  if c = ccmp256 ∨ c = gcmp256 ∨ c = bipGmac256 ∨ c = bipCmac256 then 32
  else if c = ccmp ∨ c = gcmp ∨ c = aes128Cmac ∨ c = bipGmac128 then 16
  else if c = tkip then 32
  else 0

theorem keyLen_cases (c : CipherBits) : c.keyLen = 0 ∨ 16 ≤ c.keyLen := by
  unfold keyLen
  split_ifs <;> simp

end CipherBits

/-! ## The function -/

/-- A PRF: key, label, data, and as many octets as it is asked for, or a failure. -/
abbrev Prf := Bytes → Text → Bytes → (n : ℕ) → Option (List.Vector UInt8 n)

/-- `sha1_prf`, `sha256_prf`, `sha384_prf` and `sha512_prf`. -/
structure Prfs where
  sha1 : Prf
  sha256 : Prf
  sha384 : Prf
  sha512 : Prf

/-- `CONFIG_OWE`, `CONFIG_DPP`, `CONFIG_SUITEB192` and `CONFIG_FILS`. -/
structure Build where
  owe : Bool
  dpp : Bool
  suiteb192 : Bool
  fils : Bool
deriving DecidableEq

/-- `WPA_NONCE_LEN` octets. -/
abbrev Nonce := List.Vector UInt8 32

/-- The arguments. `z` is empty where there is none. -/
structure DeriveArgs where
  pmk : Bytes
  label : Text
  addr1 : Addr
  addr2 : Addr
  nonce1 : Nonce
  nonce2 : Nonce
  akmp : Akmp
  cipher : CipherBits
  z : Bytes
  kdkLen : ℕ

/-- `MAX_Z_LEN` and `WPA_KDK_MAX_LEN`. -/
def maxZLen : ℕ := 66
def kdkMaxLen : ℕ := 32

namespace DeriveArgs

variable (F : Prfs) (g : Build) (a : DeriveArgs)

/-- `owe_ptk_workaround`. -/
def oweWorkaround : Bool := g.owe && a.akmp == Akmp.owe ||| Akmp.pskSha256

/-- `akmp` as the rest of the function sees it. -/
def suite : Akmp := if a.oweWorkaround g then Akmp.owe else a.akmp

/-- `data[]`. -/
def data : Bytes := ptkData a.addr1 a.addr2 a.nonce1.toList a.nonce2.toList ++ a.z

/-- `ptk_len`. -/
def ptkLen : ℕ :=
  (a.suite g).kckLen a.pmk.length + (a.suite g).kekLen a.pmk.length + a.cipher.keyLen + a.kdkLen

/-- The PRF for the suite and the length of the PMK, if there is one. -/
def prf : Option Prf :=
  if (a.suite g).sha384 then if g.suiteb192 || g.fils then some F.sha384 else none
  else if (a.suite g).sha256 then some F.sha256
  else if g.owe && a.suite g == Akmp.owe then
    if a.pmk.length = 32 ∨ a.oweWorkaround g then some F.sha256
    else if a.pmk.length = 48 then some F.sha384
    else if a.pmk.length = 64 then some F.sha512
    else none
  else if g.dpp && a.suite g == Akmp.dpp then
    if a.pmk.length = 32 then some F.sha256
    else if a.pmk.length = 48 then some F.sha384
    else if a.pmk.length = 64 then some F.sha512
    else none
  else some F.sha1

/-- What the PRF leaves in `tmp[]`; `none` where the function returns -1. -/
def tmp : Option (List.Vector UInt8 (a.ptkLen g)) :=
  if a.pmk = [] then none
  else if maxZLen < a.z.length then none
  else if kdkMaxLen < a.kdkLen then none
  else if a.cipher.keyLen = 0 then none
  else (a.prf F g).bind fun f => f a.pmk a.label a.data (a.ptkLen g)

end DeriveArgs

/-- `kck`, `kek`, `tk` and `kdk` of `struct wpa_ptk`, with their lengths. -/
structure PtkKdk where
  kck : Bytes
  kek : Bytes
  tk : Bytes
  kdk : Bytes
deriving DecidableEq

/-- `tmp[]` cut into the keys. -/
def DeriveArgs.cut (g : Build) (a : DeriveArgs) (tmp : Bytes) : PtkKdk :=
  let kckLen := (a.suite g).kckLen a.pmk.length
  let kekLen := (a.suite g).kekLen a.pmk.length
  { kck := tmp.take kckLen
    kek := (tmp.drop kckLen).take kekLen
    tk := (tmp.drop (kckLen + kekLen)).take a.cipher.keyLen
    kdk := (tmp.drop (kckLen + kekLen + a.cipher.keyLen)).take a.kdkLen }

/-- What a call finds besides its arguments: whether `connect` to port 8877 succeeds, and what was
in the 160 octets of `tmp[]` and is in the return register before. -/
structure CallEnv where
  connected : Bool
  stack : List.Vector UInt8 160
  register : ℤ

/-- What a call returns, writes to `ptk`, and pushes. -/
structure Called where
  ret : ℤ
  ptk : Option PtkKdk
  pushed : Option Bytes
deriving DecidableEq

/-- `return -1`. -/
def Called.failed : Called := ⟨-1, none, none⟩

/-- `send_ptk_to_wifi(tmp)`: `PTK_LEN` octets, whatever the length of the PTK. -/
def sendPtkToWifi (e : CallEnv) (tmp : Bytes) : Option Bytes :=
  if e.connected then some ((tmp ++ e.stack.toList.drop tmp.length).take 48) else none

/-- `wpa_pmk_to_ptk` of wpa_supplicant. -/
def wpaPmkToPtkSupplicant (F : Prfs) (g : Build) (a : DeriveArgs) (e : CallEnv) : Called :=
  match a.tmp F g with
  | none => .failed
  | some tmp => { ret := 0, ptk := some (a.cut g tmp.toList), pushed := sendPtkToWifi e tmp.toList }

/-- `wpa_pmk_to_ptk` of hostapd: the function falls off its end. -/
def wpaPmkToPtkHostapd (F : Prfs) (g : Build) (a : DeriveArgs) (e : CallEnv) : Called :=
  match a.tmp F g with
  | none => .failed
  | some tmp =>
    { ret := e.register, ptk := some (a.cut g tmp.toList), pushed := sendPtkToWifi e tmp.toList }

/-! ## The two copies -/

variable {F : Prfs} {g : Build} {a : DeriveArgs} {e e' : CallEnv}

/-- The arguments that give a PTK. -/
structure Derivable (F : Prfs) (g : Build) (a : DeriveArgs) : Prop where
  pmk : a.pmk ≠ []
  z : a.z.length ≤ maxZLen
  kdk : a.kdkLen ≤ kdkMaxLen
  cipher : a.cipher.keyLen ≠ 0
  prf : ∃ f ∈ a.prf F g, (f a.pmk a.label a.data (a.ptkLen g)).isSome

theorem tmp_isSome : (a.tmp F g).isSome ↔ Derivable F g a := by
  unfold DeriveArgs.tmp
  split
  · exact iff_of_false (by simp) fun h => absurd ‹a.pmk = []› h.pmk
  split
  · exact iff_of_false (by simp) fun h => absurd h.z (Nat.not_le.2 ‹_›)
  split
  · exact iff_of_false (by simp) fun h => absurd h.kdk (Nat.not_le.2 ‹_›)
  split
  · exact iff_of_false (by simp) fun h => absurd ‹a.cipher.keyLen = 0› h.cipher
  rename_i h1 h2 h3 h4
  simp only [Option.isSome_bind, Option.any_eq_true]
  constructor
  · intro h
    exact ⟨h1, Nat.not_lt.1 h2, Nat.not_lt.1 h3, h4, h⟩
  · exact fun h => h.prf

/-- The PRF fills `tmp[]`. -/
theorem tmp_some {tmp : List.Vector UInt8 (a.ptkLen g)} (h : a.tmp F g = some tmp) :
    ∃ f ∈ a.prf F g, f a.pmk a.label a.data (a.ptkLen g) = some tmp := by
  unfold DeriveArgs.tmp at h
  split at h
  · cases h
  split at h
  · cases h
  split at h
  · cases h
  split at h
  · cases h
  · exact Option.bind_eq_some_iff.1 h

/-- Both fail with -1, or both return 0 and have written the same keys. -/
def SameOutcome (x y : Called) : Prop :=
  (x.ret = -1 ∧ x.ptk = none ∧ y.ret = -1 ∧ y.ptk = none) ∨
    (x.ret = 0 ∧ y.ret = 0 ∧ ∃ k, x.ptk = some k ∧ y.ptk = some k)

/-- **When the copies agree.** For all arguments and builds: exactly when there is no PTK to derive, or
the return register happens to hold 0 when hostapd's copy falls off its end. -/
theorem copies_agree_iff (F : Prfs) (g : Build) (a : DeriveArgs) (e e' : CallEnv) :
    SameOutcome (wpaPmkToPtkHostapd F g a e) (wpaPmkToPtkSupplicant F g a e') ↔
      ¬ Derivable F g a ∨ e.register = 0 := by
  rw [← tmp_isSome, wpaPmkToPtkHostapd, wpaPmkToPtkSupplicant]
  cases a.tmp F g with
  | none => exact iff_of_true (.inl ⟨rfl, rfl, rfl, rfl⟩) (.inl (by simp))
  | some tmp =>
    constructor
    · rintro (⟨-, h, -⟩ | ⟨h, -⟩)
      · cases h
      · exact .inr h
    · rintro (h | h)
      · simp at h
      · exact .inr ⟨h, rfl, _, rfl, rfl⟩

/-- The four PRFs give this octet all over. -/
def constPrfs (x : UInt8) : Prfs :=
  ⟨fun _ _ _ n => some (.replicate n x), fun _ _ _ n => some (.replicate n x),
    fun _ _ _ n => some (.replicate n x), fun _ _ _ n => some (.replicate n x)⟩

/-- The builds of the repository. -/
def defconfig : Build := ⟨false, true, false, false⟩

/-- The call of an authenticator with WPA2-PSK and CCMP. -/
def pskArgs : DeriveArgs where
  pmk := plainPmk.val
  label := "Pairwise key expansion".toList
  addr1 := Addr.first
  addr2 := Addr.second
  nonce1 := .replicate 32 7
  nonce2 := .replicate 32 9
  akmp := .psk
  cipher := .ccmp
  z := []
  kdkLen := 0

/-- With -1 in the register the authenticator gives up on the PTK it has derived. -/
theorem copies_differ : ∃ k,
    wpaPmkToPtkHostapd (constPrfs 5) defconfig pskArgs ⟨true, .replicate 160 0, -1⟩ =
      ⟨-1, some k, some (List.replicate 48 5)⟩ ∧
    (wpaPmkToPtkSupplicant (constPrfs 5) defconfig pskArgs ⟨true, .replicate 160 0, -1⟩).ret = 0 ∧
    ¬ SameOutcome
      (wpaPmkToPtkHostapd (constPrfs 5) defconfig pskArgs ⟨true, .replicate 160 0, -1⟩)
      (wpaPmkToPtkSupplicant (constPrfs 5) defconfig pskArgs ⟨true, .replicate 160 0, -1⟩) := by
  refine ⟨_, rfl, rfl, ?_⟩
  rintro (⟨-, -, h, -⟩ | ⟨h, -⟩)
  · cases h
  · cases h

/-! ## The two ends -/

/-- What the two ends of a handshake derive from. -/
structure Shared where
  pmk : Bytes
  aa : Addr
  spa : Addr
  anonce : Nonce
  snonce : Nonce
  akmp : Akmp
  cipher : CipherBits
  z : Bytes
  kdkLen : ℕ

/-- The call in hostapd's `wpa_derive_ptk`: its own address and nonce first. -/
def Shared.hostapd (h : Shared) : DeriveArgs :=
  ⟨h.pmk, "Pairwise key expansion".toList, h.aa, h.spa, h.anonce, h.snonce, h.akmp, h.cipher, h.z,
    h.kdkLen⟩

/-- The call in wpa_supplicant's `wpa_derive_ptk`: its own address and nonce first. -/
def Shared.supplicant (h : Shared) : DeriveArgs :=
  ⟨h.pmk, "Pairwise key expansion".toList, h.spa, h.aa, h.snonce, h.anonce, h.akmp, h.cipher, h.z,
    h.kdkLen⟩

theorem Shared.tmp_eq (h : Shared) (F : Prfs) (g : Build) :
    h.supplicant.tmp F g = h.hostapd.tmp F g := by
  have hdata : h.supplicant.data = h.hostapd.data :=
    congrArg (· ++ h.z) (ptkData_swap h.spa h.aa h.snonce.toList h.anonce.toList)
  unfold DeriveArgs.tmp
  rw [hdata]
  rfl

/-- What the callers see to: OWE and DPP are negotiated where they are built in, and the workaround of OWE
is for PMKs that are longer than 32 octets. -/
structure Offered (g : Build) (k : Akmp) (pmk : Bytes) : Prop where
  owe : k = Akmp.owe → g.owe = true
  dpp : k = Akmp.dpp → g.dpp = true
  workaround : g.owe = true → k = Akmp.owe ||| Akmp.pskSha256 → 32 < pmk.length

theorem le_kckLen_kekLen {k : Akmp} {n : ℕ} (h : k = Akmp.dpp ∨ k = Akmp.owe → 32 ≤ n) :
    32 ≤ k.kckLen n + k.kekLen n := by
  unfold Akmp.kckLen Akmp.kekLen
  by_cases h1 : k = Akmp.filsSha384 ∨ k = Akmp.ftFilsSha384
  · rw [if_pos h1]
    omega
  rw [if_neg h1]
  by_cases h2 : k = Akmp.ieee8021xSuiteB192 ∨ k = Akmp.filsSha256 ∨ k = Akmp.ftFilsSha256 ∨
      k = Akmp.ftIeee8021xSha384
  · rw [if_pos h2]
    omega
  -- neither of the lists in `wpa_kck_len` has a suite that is left
  rw [if_neg h2, if_neg (by tauto), if_neg (by tauto)]
  by_cases h3 : k = Akmp.dpp
  · have := h (.inl h3)
    rw [if_pos h3, if_pos h3]
    split <;> omega
  rw [if_neg h3, if_neg h3]
  by_cases h4 : k = Akmp.owe
  · have := h (.inr h4)
    rw [if_pos h4, if_pos h4]
    split <;> omega
  · rw [if_neg h4, if_neg h4]

/-- OWE and DPP derive nothing from a PMK of another length than a digest. -/
theorem Derivable.le_pmk (ho : Offered g a.akmp a.pmk) (hd : Derivable F g a)
    (hs : a.suite g = Akmp.dpp ∨ a.suite g = Akmp.owe) : 32 ≤ a.pmk.length := by
  obtain ⟨f, hf, -⟩ := hd.prf
  by_cases hw : a.oweWorkaround g = true
  · simp only [DeriveArgs.oweWorkaround, Bool.and_eq_true, beq_iff_eq] at hw
    exact Nat.le_of_lt (ho.workaround hw.1 hw.2)
  have hk : a.suite g = a.akmp := if_neg hw
  unfold DeriveArgs.prf at hf
  rcases hs with h | h
  · have hnot : ¬ (g.owe && Akmp.dpp == Akmp.owe) = true := by
      rw [Bool.and_eq_true, not_and]
      exact fun _ => by decide
    have hin : (g.dpp && Akmp.dpp == Akmp.dpp) = true := by rw [ho.dpp (hk.symm.trans h)]; rfl
    rw [h, if_neg (by decide), if_neg (by decide), if_neg hnot, if_pos hin] at hf
    split_ifs at hf
    · omega
    · omega
    · omega
    · cases hf
  · have hin : (g.owe && Akmp.owe == Akmp.owe) = true := by rw [ho.owe (hk.symm.trans h)]; rfl
    rw [h, if_neg (by decide), if_neg (by decide), if_pos hin] at hf
    split_ifs at hf with h1
    · have := h1.resolve_right hw
      omega
    · omega
    · omega
    · cases hf

/-- **A PTK has at least 48 octets.** -/
theorem le_ptkLen (ho : Offered g a.akmp a.pmk) (hd : Derivable F g a) : 48 ≤ a.ptkLen g := by
  have h1 := le_kckLen_kekLen (hd.le_pmk ho)
  have h2 := a.cipher.keyLen_cases.resolve_left hd.cipher
  unfold DeriveArgs.ptkLen
  omega

/-- So what is pushed does not depend on what was on the stack. -/
theorem sendPtkToWifi_eq {tmp : Bytes} (h : 48 ≤ tmp.length) :
    sendPtkToWifi e tmp = if e.connected then some (tmp.take 48) else none := by
  rw [sendPtkToWifi, List.take_append_of_le_length h]

/-- What is pushed are 48 octets, those of the PTK in front. -/
theorem sendPtkToWifi_take {tmp x : Bytes} (h : x ∈ sendPtkToWifi e tmp) :
    x.length = 48 ∧ x.take tmp.length = tmp.take 48 := by
  rw [sendPtkToWifi, Option.mem_def, Option.ite_none_right_eq_some] at h
  obtain ⟨-, h⟩ := h
  have hstack : e.stack.toList.length = 160 := e.stack.toList_length
  rw [← Option.some.inj h]
  refine ⟨?_, ?_⟩
  · rw [List.length_take, List.length_append, List.length_drop]
    omega
  · rw [List.take_take, Nat.min_comm, ← List.take_take, List.take_left]

/-- **Both ends export the same PTK.** For every PMK, addresses, nonces, suite, cipher, Z and KDK length:
the calls of the two ends write the same keys, and the 48 octets that each pushes agree as far as the PTK
goes, which is all of them in the calls that the two ends make. -/
theorem both_ends_export (F : Prfs) (g : Build) (h : Shared) (e e' : CallEnv) :
    (wpaPmkToPtkHostapd F g h.hostapd e).ptk = (wpaPmkToPtkSupplicant F g h.supplicant e').ptk ∧
      ∀ x ∈ (wpaPmkToPtkHostapd F g h.hostapd e).pushed,
        ∀ y ∈ (wpaPmkToPtkSupplicant F g h.supplicant e').pushed,
          x.length = 48 ∧ y.length = 48 ∧
            x.take (h.hostapd.ptkLen g) = y.take (h.hostapd.ptkLen g) ∧
            (Offered g h.akmp h.pmk → x = y) := by
  rw [wpaPmkToPtkHostapd, wpaPmkToPtkSupplicant, h.tmp_eq]
  cases ht : h.hostapd.tmp F g with
  | none => exact ⟨rfl, nofun⟩
  | some tmp =>
    have hd := tmp_isSome.1 (Option.isSome_iff_exists.2 ⟨tmp, ht⟩)
    have hlen : tmp.toList.length = h.hostapd.ptkLen g := tmp.toList_length
    refine ⟨rfl, fun x hx y hy => ?_⟩
    obtain ⟨hx1, hx2⟩ := sendPtkToWifi_take (show x ∈ sendPtkToWifi e tmp.toList from hx)
    obtain ⟨hy1, hy2⟩ := sendPtkToWifi_take (show y ∈ sendPtkToWifi e' tmp.toList from hy)
    rw [hlen] at hx2 hy2
    have hxy := hx2.trans hy2.symm
    refine ⟨hx1, hy1, hxy, fun ho => ?_⟩
    have hle := le_ptkLen ho hd
    rwa [List.take_of_length_le (by omega), List.take_of_length_le (by omega)] at hxy

/-- Two ends whose addresses and nonces are the same. -/
def tiedShared : Shared where
  pmk := plainPmk.val
  aa := Addr.first
  spa := Addr.first
  anonce := .replicate 32 7
  snonce := .replicate 32 7
  akmp := .psk
  cipher := .ccmp
  z := []
  kdkLen := 0

/-- `both_ends_export` for them. -/
theorem both_ends_export_tied : ∃ x,
    (wpaPmkToPtkHostapd (constPrfs 5) defconfig tiedShared.hostapd ⟨true, .replicate 160 1, 0⟩).pushed =
      some x ∧
    (wpaPmkToPtkSupplicant (constPrfs 5) defconfig tiedShared.supplicant
      ⟨true, .replicate 160 2, 0⟩).pushed = some x := by
  refine ⟨List.replicate 48 5, rfl, ?_⟩
  have h := (both_ends_export (constPrfs 5) defconfig tiedShared ⟨true, .replicate 160 1, 0⟩
    ⟨true, .replicate 160 2, 0⟩).2 (List.replicate 48 5) rfl _ rfl
  have ho : Offered defconfig tiedShared.akmp tiedShared.pmk :=
    ⟨fun h => absurd h (by decide), fun h => absurd h (by decide), fun h => absurd h (by decide)⟩
  exact congrArg some (h.2.2.2 ho).symm

/-! ## The suites in use -/

/-- The value of `sm->wpa_key_mgmt`. -/
def KeyMgmt.akmp : KeyMgmt → Akmp
  | .ieee8021x => .ieee8021x
  | .ieee8021xSha256 => .ieee8021xSha256
  | .psk => .psk
  | .pskSha256 => .pskSha256
  | .sae => .sae
  | .owe => .owe
  | .dpp => .dpp

/-- The value of `sm->pairwise`. -/
def Cipher.bits : Cipher → CipherBits
  | .none => 1 <<< 0
  | .tkip => .tkip
  | .ccmp => .ccmp
  | .gcmp => .gcmp
  | .ccmp256 => .ccmp256
  | .gcmp256 => .gcmp256

theorem Cipher.keyLen_bits (p : Cipher) : p.bits.keyLen = p.keyLen := by cases p <;> rfl

theorem KeyMgmt.kckLen_akmp (k : KeyMgmt) (n : ℕ) : k.akmp.kckLen n = k.kckLen n := by cases k <;> rfl

theorem KeyMgmt.kekLen_akmp (k : KeyMgmt) (n : ℕ) : k.akmp.kekLen n = k.kekLen n := by cases k <;> rfl

/-- A build with OWE and DPP. -/
def fullBuild : Build := ⟨true, true, false, false⟩

/-- The arguments of a call without Z and KDK. -/
def KeyMgmt.args (k : KeyMgmt) (p : Cipher) (addr1 addr2 : Addr) (pmk : Bytes) (nonce1 nonce2 : Nonce) :
    DeriveArgs :=
  ⟨pmk, "Pairwise key expansion".toList, addr1, addr2, nonce1, nonce2, k.akmp, p.bits, [], 0⟩

/-- `prf` is the PRF of the suite. -/
def Prims.Refines (P : Prims) (F : Prfs) (a : DeriveArgs) : Prop :=
  ∀ f ∈ a.prf F fullBuild, ∀ n,
    (f a.pmk a.label a.data n).map (·.toList) = some (P.prf a.pmk a.data n)

variable {P : Prims} {k : KeyMgmt} {p : Cipher} {addr1 addr2 : Addr} {pmk : Bytes} {nonce1 nonce2 : Nonce}

theorem suite_args : (k.args p addr1 addr2 pmk nonce1 nonce2).suite fullBuild = k.akmp := by
  cases k <;> rfl

/-- The workaround is not among them. -/
theorem offered_args : Offered fullBuild k.akmp pmk :=
  ⟨fun _ => rfl, fun _ => rfl, fun _ h => absurd h (by cases k <;> decide)⟩

theorem data_args :
    (k.args p addr1 addr2 pmk nonce1 nonce2).data = ptkData addr1 addr2 nonce1.toList nonce2.toList :=
  List.append_nil _

/-- OWE and DPP choose by the length of the PMK, the others have one PRF. -/
theorem prf_args : ((k.args p addr1 addr2 pmk nonce1 nonce2).prf F fullBuild).isSome =
    k.prfFor pmk.length := by
  have hw : (k.args p addr1 addr2 pmk nonce1 nonce2).oweWorkaround fullBuild = false := by
    cases k <;> rfl
  have hlen : (k.args p addr1 addr2 pmk nonce1 nonce2).pmk.length = pmk.length := rfl
  unfold DeriveArgs.prf
  rw [suite_args, hw, hlen]
  have hnone : k.akmp.sha384 = false := by cases k <;> rfl
  rw [hnone, if_neg Bool.false_ne_true]
  cases k with
  | owe =>
    rw [if_neg (by decide), if_pos (by decide)]
    simp only [Bool.false_eq_true, or_false]
    split_ifs <;> simp_all [KeyMgmt.prfFor]
  | dpp =>
    rw [if_neg (by decide), if_neg (by decide), if_pos (by decide)]
    split_ifs <;> simp_all [KeyMgmt.prfFor]
  | _ => rfl

/-- The calls that give a PTK. -/
theorem derivable_args (hP : P.Refines F (k.args p addr1 addr2 pmk nonce1 nonce2)) :
    Derivable F fullBuild (k.args p addr1 addr2 pmk nonce1 nonce2) ↔
      ¬ (pmk = [] ∨ p.keyLen = 0 ∨ !k.prfFor pmk.length) := by
  have hcipher : (k.args p addr1 addr2 pmk nonce1 nonce2).cipher.keyLen = p.keyLen := p.keyLen_bits
  have hprf := @prf_args F k p addr1 addr2 pmk nonce1 nonce2
  constructor
  · intro h
    obtain ⟨f, hf, -⟩ := h.prf
    have hsome : k.prfFor pmk.length = true := hprf.symm.trans (Option.isSome_iff_exists.2 ⟨f, hf⟩)
    rintro (h1 | h1 | h1)
    · exact h.pmk h1
    · exact h.cipher (hcipher.trans h1)
    · simp [hsome] at h1
  · intro h
    simp only [not_or, Bool.not_eq_true, Bool.not_eq_false'] at h
    obtain ⟨h1, h2, h3⟩ := h
    obtain ⟨f, hf⟩ := Option.isSome_iff_exists.1 (hprf.trans h3)
    refine ⟨h1, Nat.zero_le _, Nat.zero_le _, fun h => h2 (hcipher.symm.trans h), f, hf, ?_⟩
    have := hP f hf (DeriveArgs.ptkLen fullBuild (k.args p addr1 addr2 pmk nonce1 nonce2))
    exact Option.isSome_map.symm.trans (by rw [this]; rfl)

/-- What the model of the suites in use keeps of a call. -/
def Called.derived (x : Called) : Derived :=
  ⟨x.ret, x.ptk.elim .zero fun k => ⟨k.kck, k.kek, k.tk, false⟩, x.pushed⟩

/-- **The suites in use.** For them `wpaPmkToPtk` is what the two copies do. -/
theorem wpaPmkToPtk_full (hP : P.Refines F (k.args p addr1 addr2 pmk nonce1 nonce2)) (e : CallEnv) :
    wpaPmkToPtk P .lifi true k p addr1 addr2 pmk nonce1.toList nonce2.toList
        ⟨e.connected, e.register⟩ =
      (wpaPmkToPtkSupplicant F fullBuild (k.args p addr1 addr2 pmk nonce1 nonce2) e).derived ∧
    wpaPmkToPtk P .lifi false k p addr1 addr2 pmk nonce1.toList nonce2.toList
        ⟨e.connected, e.register⟩ =
      (wpaPmkToPtkHostapd F fullBuild (k.args p addr1 addr2 pmk nonce1 nonce2) e).derived := by
  have hd := derivable_args hP
  rw [← tmp_isSome] at hd
  rw [wpaPmkToPtkSupplicant, wpaPmkToPtkHostapd]
  cases ht : (k.args p addr1 addr2 pmk nonce1 nonce2).tmp F fullBuild with
  | none =>
    rw [ht] at hd
    have hc : pmk = [] ∨ p.keyLen = 0 ∨ !k.prfFor pmk.length := not_not.1 fun h => by simpa using hd.2 h
    rw [wpaPmkToPtk, wpaPmkToPtk, if_pos hc, if_pos hc]
    exact ⟨rfl, rfl⟩
  | some tmp =>
    rw [ht] at hd
    have hc := hd.1 rfl
    obtain ⟨f, hf, hsome⟩ := tmp_some ht
    -- the PRF is asked for KCK, KEK and TK
    have htmp : tmp.toList = ptkTmp P k p addr1 addr2 pmk nonce1.toList nonce2.toList := by
      have h := hP f hf (DeriveArgs.ptkLen fullBuild (k.args p addr1 addr2 pmk nonce1 nonce2))
      rw [hsome, data_args] at h
      rw [ptkTmp, ← k.kckLen_akmp, ← k.kekLen_akmp, ← p.keyLen_bits, ← suite_args]
      exact Option.some.inj h
    have hlen : 48 ≤ tmp.toList.length := by
      rw [List.Vector.toList_length]
      exact le_ptkLen offered_args (tmp_isSome.1 (by rw [ht]; rfl))
    have hcut : DeriveArgs.cut fullBuild (k.args p addr1 addr2 pmk nonce1 nonce2) tmp.toList =
        ⟨(ptkOf P k p addr1 addr2 pmk nonce1.toList nonce2.toList).kck,
          (ptkOf P k p addr1 addr2 pmk nonce1.toList nonce2.toList).kek,
          (ptkOf P k p addr1 addr2 pmk nonce1.toList nonce2.toList).tk, []⟩ := by
      rw [DeriveArgs.cut, suite_args, htmp, ptkOf, ← k.kckLen_akmp, ← k.kekLen_akmp, ← p.keyLen_bits]
      simp [KeyMgmt.args]
    have hpush := @sendPtkToWifi_eq e _ hlen
    rw [htmp] at hcut hpush
    rw [wpaPmkToPtk, wpaPmkToPtk, if_neg hc, if_neg hc]
    simp only [Called.derived, htmp, hcut, hpush]
    cases e.connected <;> simp [ptkOf]

end Lightguard.Wpa
