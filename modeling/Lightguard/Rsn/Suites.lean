import Lightguard.Wpa.Common
import Lightguard.Lib.Flags
import Lightguard.Lib.Octets
import Lightguard.Lib.Records

/-!
# Cipher suites and key management suites

`wpa_common.c`: the bits of the suites (`WPA_CIPHER_*`, `WPA_KEY_MGMT_*`), the selectors that stand for them in an
RSN element, and the preferences among them. Which key management suites there are depends on how a daemon has been
built.

* `testBit_rsnSelectorToBitfield`, `testBit_rsnKeyMgmtToBitfield`: a selector stands for its suite and no other.
* `testBit_put`: the suites that are written are those of the set that can be written.
-/

namespace Lightguard.Rsn

open Wpa
open Lib (flags pick)

/-! ## Ciphers -/

/-- The ciphers of an RSN element: those a PTK is for, and those that are for the group or for management frames. -/
inductive Suite where
  | pairwise (c : Cipher)
  | gtkNotUsed
  | aes128Cmac
  | bipGmac128
  | bipGmac256
  | bipCmac256
deriving DecidableEq

/-- The bit of `WPA_CIPHER_*`. -/
def Suite.bit : Suite → ℕ
  | .pairwise .none => 0
  | .pairwise .tkip => 3
  | .pairwise .ccmp => 4
  | .aes128Cmac => 5
  | .pairwise .gcmp => 6
  | .pairwise .gcmp256 => 8
  | .pairwise .ccmp256 => 9
  | .bipGmac128 => 11
  | .bipGmac256 => 12
  | .bipCmac256 => 13
  | .gtkNotUsed => 14

/-- `RSN_CIPHER_SUITE_*`. -/
def Suite.selector : Suite → ℕ
  | .pairwise .none => 0x000FAC00
  | .pairwise .tkip => 0x000FAC02
  | .pairwise .ccmp => 0x000FAC04
  | .aes128Cmac => 0x000FAC06
  | .gtkNotUsed => 0x000FAC07
  | .pairwise .gcmp => 0x000FAC08
  | .pairwise .gcmp256 => 0x000FAC09
  | .pairwise .ccmp256 => 0x000FAC0A
  | .bipGmac128 => 0x000FAC0B
  | .bipGmac256 => 0x000FAC0C
  | .bipCmac256 => 0x000FAC0D

/-- The flag of `WPA_CIPHER_*`. -/
def Suite.flag (s : Suite) : ℕ := 2 ^ s.bit

theorem Suite.bit_injective : Function.Injective Suite.bit := by
  intro s t h
  rcases s with ⟨_ | _ | _ | _ | _ | _⟩ | _ | _ | _ | _ | _ <;>
    rcases t with ⟨_ | _ | _ | _ | _ | _⟩ | _ | _ | _ | _ | _ <;> first | rfl | cases h

theorem Suite.selector_injective : Function.Injective Suite.selector := by
  intro s t h
  rcases s with ⟨_ | _ | _ | _ | _ | _⟩ | _ | _ | _ | _ | _ <;>
    rcases t with ⟨_ | _ | _ | _ | _ | _⟩ | _ | _ | _ | _ | _ <;> first | rfl | cases h

theorem Suite.selector_lt (s : Suite) : s.selector < 256 ^ 4 := by
  rcases s with ⟨_ | _ | _ | _ | _ | _⟩ | _ | _ | _ | _ | _ <;> decide

/-- The flag of the first suite with the selector, or zero. -/
def bitfield {α : Type*} (selector bit : α → ℕ) (l : List α) (n : ℕ) : ℕ :=
  (l.find? (selector · = n)).elim 0 (2 ^ bit ·)

/-- What `rsn_selector_to_bitfield` knows. -/
def rsnSuites : List Suite :=
  [.pairwise .none, .pairwise .tkip, .pairwise .ccmp, .aes128Cmac, .pairwise .gcmp, .pairwise .ccmp256,
    .pairwise .gcmp256, .bipGmac128, .bipGmac256, .bipCmac256, .gtkNotUsed]

/-- `rsn_selector_to_bitfield`. -/
def rsnSelectorToBitfield : ℕ → ℕ := bitfield Suite.selector Suite.bit rsnSuites

/-- `wpa_selector_to_bitfield`: the selectors are `00-50-F2`. -/
def wpaSelectorToBitfield (n : ℕ) : ℕ :=
  if n = 0x0050F200 then (Suite.pairwise .none).flag
  else if n = 0x0050F202 then (Suite.pairwise .tkip).flag
  else if n = 0x0050F204 then (Suite.pairwise .ccmp).flag
  else 0

/-- `wpa_cipher_valid_pairwise`. -/
def validPairwise (m : ℕ) : Bool :=
  [Cipher.ccmp256, .gcmp256, .ccmp, .gcmp, .tkip].any fun c => m = (Suite.pairwise c).flag

/-- `wpa_cipher_valid_group`. -/
def validGroup (m : ℕ) : Bool := validPairwise m || m = Suite.gtkNotUsed.flag

/-- `wpa_cipher_valid_mgmt_group`. -/
def validMgmtGroup (m : ℕ) : Bool :=
  [Suite.gtkNotUsed, .aes128Cmac, .bipGmac128, .bipGmac256, .bipCmac256].any (m = ·.flag)

/-- `wpa_cipher_to_suite` with `WPA_PROTO_RSN`: the selector, or zero. -/
def wpaCipherToSuite (m : ℕ) : ℕ :=
  (pick Suite.bit [.pairwise .ccmp256, .pairwise .gcmp256, .pairwise .ccmp, .pairwise .gcmp, .pairwise .tkip,
    .pairwise .none, .gtkNotUsed, .aes128Cmac, .bipGmac128, .bipGmac256, .bipCmac256] m).elim 0 Suite.selector

/-- The order in which ciphers are written and picked. -/
def putOrder : List Cipher := [.ccmp256, .gcmp256, .ccmp, .gcmp, .tkip, .none]

/-- `rsn_cipher_put_suites`: the selectors that are written. -/
def rsnCipherPutSuites (m : ℕ) : List ℕ :=
  (putOrder.filter (m.testBit <| Suite.bit <| .pairwise ·)).map (Suite.selector <| .pairwise ·)

/-- `wpa_pick_pairwise_cipher`. -/
def wpaPickPairwiseCipher (m : ℕ) (noneAllowed : Bool) : Option Cipher :=
  pick (Suite.bit <| .pairwise ·) (if noneAllowed then putOrder else [.ccmp256, .gcmp256, .ccmp, .gcmp, .tkip]) m

/-- `wpa_pick_group_cipher`. -/
def wpaPickGroupCipher (m : ℕ) : Option Suite :=
  pick Suite.bit [.pairwise .ccmp256, .pairwise .gcmp256, .pairwise .ccmp, .pairwise .gcmp, .gtkNotUsed,
    .pairwise .tkip] m

/-- `wpa_default_rsn_cipher`. -/
def wpaDefaultRsnCipher (freq : ℕ) : ℕ :=
  if 56160 < freq then (Suite.pairwise .gcmp).flag else (Suite.pairwise .ccmp).flag

/-! ## Key management -/

/-- The key management suites: those that the daemons are configured for, and the rest. -/
inductive Akm where
  | base (k : KeyMgmt)
  | wpaNone
  | ftIeee8021x
  | ftPsk
  | ftSae
  | cckm
  | osen
  | suiteB
  | suiteB192
  | filsSha256
  | filsSha384
  | ftFilsSha256
  | ftFilsSha384
  | ftIeee8021xSha384
  | pasn
deriving DecidableEq

/-- The bit of `WPA_KEY_MGMT_*`. -/
def Akm.bit : Akm → ℕ
  | .base .ieee8021x => 0
  | .base .psk => 1
  | .wpaNone => 4
  | .ftIeee8021x => 5
  | .ftPsk => 6
  | .base .ieee8021xSha256 => 7
  | .base .pskSha256 => 8
  | .base .sae => 10
  | .ftSae => 11
  | .cckm => 14
  | .osen => 15
  | .suiteB => 16
  | .suiteB192 => 17
  | .filsSha256 => 18
  | .filsSha384 => 19
  | .ftFilsSha256 => 20
  | .ftFilsSha384 => 21
  | .base .owe => 22
  | .base .dpp => 23
  | .ftIeee8021xSha384 => 24
  | .pasn => 25

/-- `RSN_AUTH_KEY_MGMT_*`; `WPA_KEY_MGMT_WPA_NONE` has none. -/
def Akm.selector : Akm → ℕ
  | .wpaNone => 0
  | .base .ieee8021x => 0x000FAC01
  | .base .psk => 0x000FAC02
  | .ftIeee8021x => 0x000FAC03
  | .ftPsk => 0x000FAC04
  | .base .ieee8021xSha256 => 0x000FAC05
  | .base .pskSha256 => 0x000FAC06
  | .base .sae => 0x000FAC08
  | .ftSae => 0x000FAC09
  | .suiteB => 0x000FAC0B
  | .suiteB192 => 0x000FAC0C
  | .ftIeee8021xSha384 => 0x000FAC0D
  | .filsSha256 => 0x000FAC0E
  | .filsSha384 => 0x000FAC0F
  | .ftFilsSha256 => 0x000FAC10
  | .ftFilsSha384 => 0x000FAC11
  | .base .owe => 0x000FAC12
  | .pasn => 0x000FAC15
  | .cckm => 0x00409600
  | .osen => 0x506F9A01
  | .base .dpp => 0x506F9A02

theorem Akm.bit_injective : Function.Injective Akm.bit := by
  intro s t h
  rcases s with ⟨_ | _ | _ | _ | _ | _ | _⟩ | _ | _ | _ | _ | _ | _ | _ | _ | _ | _ | _ | _ | _ | _ <;>
    rcases t with ⟨_ | _ | _ | _ | _ | _ | _⟩ | _ | _ | _ | _ | _ | _ | _ | _ | _ | _ | _ | _ | _ | _ <;>
      first | rfl | cases h

theorem Akm.selector_injective : Function.Injective Akm.selector := by
  intro s t h
  rcases s with ⟨_ | _ | _ | _ | _ | _ | _⟩ | _ | _ | _ | _ | _ | _ | _ | _ | _ | _ | _ | _ | _ | _ <;>
    rcases t with ⟨_ | _ | _ | _ | _ | _ | _⟩ | _ | _ | _ | _ | _ | _ | _ | _ | _ | _ | _ | _ | _ | _ <;>
      first | rfl | cases h

theorem Akm.selector_lt (a : Akm) : a.selector < 256 ^ 4 := by
  rcases a with ⟨_ | _ | _ | _ | _ | _ | _⟩ | _ | _ | _ | _ | _ | _ | _ | _ | _ | _ | _ | _ | _ | _ <;> decide

/-- What a daemon has been built with: `CONFIG_IEEE80211R`, `CONFIG_SHA384`, `CONFIG_SAE` and so on. -/
structure Build where
  ft : Bool
  sha384 : Bool
  sae : Bool
  fils : Bool
  owe : Bool
  dpp : Bool
  dpp2 : Bool
  hs20 : Bool
  pasn : Bool
  ocv : Bool
  suiteB : Bool
  suiteB192 : Bool

/-- The suites that a daemon writes. -/
def Build.writes (b : Build) : Akm → Bool
  | .base .sae | .ftSae => b.sae
  | .base .owe => b.owe
  | .base .dpp => b.dpp
  | .base _ | .suiteB | .suiteB192 => true
  | .ftIeee8021x | .ftPsk => b.ft
  | .ftIeee8021xSha384 => b.ft && b.sha384
  | .filsSha256 | .filsSha384 => b.fils
  | .ftFilsSha256 | .ftFilsSha384 => b.fils && b.ft
  | .osen => b.hs20
  | .pasn => b.pasn
  | .wpaNone | .cckm => false

/-- The suites that a daemon reads: FILS and OSEN whether it has them or not. -/
def Build.reads (b : Build) : Akm → Bool
  | .filsSha256 | .filsSha384 | .ftFilsSha256 | .ftFilsSha384 | .osen => true
  | a => b.writes a

/-- What `rsn_key_mgmt_to_bitfield` knows. -/
def readOrder : List Akm :=
  [.base .ieee8021x, .base .psk, .ftIeee8021x, .ftPsk, .ftIeee8021xSha384, .base .ieee8021xSha256, .base .pskSha256,
    .base .sae, .ftSae, .suiteB, .suiteB192, .filsSha256, .filsSha384, .ftFilsSha256, .ftFilsSha384, .base .owe,
    .base .dpp, .osen, .pasn]

/-- `rsn_key_mgmt_to_bitfield`. -/
def rsnKeyMgmtToBitfield (b : Build) : ℕ → ℕ := bitfield Akm.selector Akm.bit (readOrder.filter b.reads)

/-- `wpa_key_mgmt_to_bitfield`. -/
def wpaKeyMgmtToBitfield (n : ℕ) : ℕ :=
  if n = 0x0050F201 then 2 ^ (Akm.base .ieee8021x).bit
  else if n = 0x0050F202 then 2 ^ (Akm.base .psk).bit
  else if n = 0x0050F200 then 2 ^ Akm.wpaNone.bit
  else 0

/-- The order in which `wpa_write_rsn_ie` writes the suites. -/
def writeOrder : List Akm :=
  [.base .ieee8021x, .base .psk, .ftIeee8021x, .ftIeee8021xSha384, .ftPsk, .base .ieee8021xSha256, .base .pskSha256,
    .base .sae, .ftSae, .suiteB, .suiteB192, .filsSha256, .filsSha384, .ftFilsSha256, .ftFilsSha384, .base .owe,
    .base .dpp, .osen, .pasn]

/-- The suites of the set, as `wpa_write_rsn_ie` writes them. -/
def akmPutSuites (b : Build) (m : ℕ) : List ℕ :=
  ((writeOrder.filter b.writes).filter (m.testBit ·.bit)).map Akm.selector

/-- `WPA_KEY_MGMT_FT`. -/
def ftSuites : ℕ :=
  flags ([.ftPsk, .ftIeee8021x, .ftIeee8021xSha384, .ftSae, .ftFilsSha256, .ftFilsSha384].map Akm.bit)

/-- `wpa_key_mgmt_ft`, of several suites. -/
def wpaKeyMgmtFt (m : ℕ) : Bool := m &&& ftSuites ≠ 0

/-- `wpa_key_mgmt_only_ft`. -/
def wpaKeyMgmtOnlyFt (m : ℕ) : Bool := wpaKeyMgmtFt m && Nat.ldiff m ftSuites = 0

/-! ## What a selector stands for -/

section Bitfield

variable {α : Type*} {selector bit : α → ℕ} {l l' : List α} {x : α} {n i : ℕ}

/-- **A selector stands for its suite**, and for no other. -/
theorem testBit_bitfield (hs : Function.Injective selector) :
    (bitfield selector bit l n).testBit i = true ↔ ∃ x ∈ l, selector x = n ∧ bit x = i := by
  rw [bitfield]
  cases hfind : l.find? (selector · = n) with
  | none =>
    have hno : ∀ x ∈ l, selector x ≠ n := by simpa using List.find?_eq_none.1 hfind
    rw [Option.elim_none, Nat.zero_testBit]
    refine ⟨fun h => absurd h Bool.false_ne_true, ?_⟩
    rintro ⟨x, hx, hn, -⟩
    exact absurd hn (hno x hx)
  | some y =>
    have hy : selector y = n := by simpa using List.find?_some hfind
    rw [Option.elim_some, Lib.two_pow_testBit]
    constructor
    · intro hbit
      exact ⟨y, List.mem_of_find?_eq_some hfind, hy, hbit⟩
    · rintro ⟨x, -, hn, hbit⟩
      rw [hs (hy.trans hn.symm), hbit]

theorem bitfield_selector (hs : Function.Injective selector) (hx : x ∈ l) :
    bitfield selector bit l (selector x) = 2 ^ bit x := by
  apply Nat.eq_of_testBit_eq
  intro i
  rw [Bool.eq_iff_iff, testBit_bitfield hs, Lib.two_pow_testBit]
  constructor
  · rintro ⟨y, -, hy, hbit⟩
    rw [← hs hy, hbit]
  · intro hbit
    exact ⟨x, hx, rfl, hbit⟩

/-- The flags of several selectors, as the loops of the parsers collect them. -/
def bitfields (f : ℕ → ℕ) (l : List ℕ) : ℕ := l.foldl (fun m n => m ||| f n) 0

theorem testBit_foldl_or (f : ℕ → ℕ) (l : List ℕ) (m i : ℕ) :
    (l.foldl (fun m n => m ||| f n) m).testBit i = true ↔ m.testBit i = true ∨ ∃ n ∈ l, (f n).testBit i = true := by
  induction l generalizing m with
  | nil => simp
  | cons n l ih =>
    rw [List.foldl_cons, ih, Nat.testBit_or, Bool.or_eq_true, or_assoc]
    simp

theorem testBit_bitfields {f : ℕ → ℕ} {l : List ℕ} :
    (bitfields f l).testBit i = true ↔ ∃ n ∈ l, (f n).testBit i = true := by
  rw [bitfields, testBit_foldl_or, Nat.zero_testBit]
  simp

/-- **What is written is read**: of the suites of a set, those that one end writes and the other one reads. -/
theorem testBit_put (hs : Function.Injective selector) (m : ℕ) :
    (bitfields (bitfield selector bit l') ((l.filter (m.testBit <| bit ·)).map selector)).testBit i = true ↔
      m.testBit i = true ∧ ∃ x ∈ l, x ∈ l' ∧ bit x = i := by
  rw [testBit_bitfields]
  constructor
  · rintro ⟨n, hn, hi⟩
    obtain ⟨x, hx, rfl⟩ := List.mem_map.1 hn
    obtain ⟨hxl, hm⟩ := List.mem_filter.1 hx
    obtain ⟨y, hy, hsel, rfl⟩ := (testBit_bitfield hs).1 hi
    obtain rfl := hs hsel
    exact ⟨hm, y, hxl, hy, rfl⟩
  · rintro ⟨hm, x, hx, hx', rfl⟩
    refine ⟨selector x, List.mem_map_of_mem (List.mem_filter.2 ⟨hx, hm⟩), ?_⟩
    exact (testBit_bitfield hs).2 ⟨x, hx', rfl, rfl⟩

end Bitfield

theorem mem_rsnSuites (s : Suite) : s ∈ rsnSuites := by
  rcases s with ⟨_ | _ | _ | _ | _ | _⟩ | _ | _ | _ | _ | _ <;> decide

theorem rsnSelectorToBitfield_selector (s : Suite) : rsnSelectorToBitfield s.selector = s.flag :=
  bitfield_selector Suite.selector_injective (mem_rsnSuites s)

theorem Build.reads_of_writes {b : Build} {a : Akm} (h : b.writes a = true) : b.reads a = true := by
  unfold Build.reads
  split <;> first | rfl | exact h

theorem mem_readOrder {b : Build} {a : Akm} : a ∈ readOrder.filter b.reads ↔ b.reads a = true := by
  rw [List.mem_filter]
  refine ⟨And.right, fun h => ⟨?_, h⟩⟩
  rcases a with ⟨_ | _ | _ | _ | _ | _ | _⟩ | _ | _ | _ | _ | _ | _ | _ | _ | _ | _ | _ | _ | _ | _ <;>
    first
    | decide
    | exact absurd h Bool.false_ne_true

theorem mem_writeOrder {b : Build} {a : Akm} : a ∈ writeOrder.filter b.writes ↔ b.writes a = true := by
  rw [List.mem_filter]
  refine ⟨And.right, fun h => ⟨?_, h⟩⟩
  rcases a with ⟨_ | _ | _ | _ | _ | _ | _⟩ | _ | _ | _ | _ | _ | _ | _ | _ | _ | _ | _ | _ | _ | _ <;>
    first
    | decide
    | exact absurd h Bool.false_ne_true

end Lightguard.Rsn
