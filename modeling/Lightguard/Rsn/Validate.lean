import Lightguard.Pmksa.Auth
import Lightguard.Rsn.Generate

/-!
# What the access point makes of an association request

`wpa_validate_wpa_ie` of hostapd: the element of the station against the configuration. Where it returns early, what
it has put into the state machine until then stays. Allocations do not fail here; the variables of the MIB that the
function fills in are left out.

* `accepted_law`: a station that is let in has what the access point offers.
* `pick_offered_iff`: when the key management suite is one that both ends want.
-/

namespace Lightguard.Rsn

open Wpa
open Lib (flags pick)

/-- `enum wpa_validate_result`, as far as it can be returned. -/
inductive IeResult where
  | ok
  | invalidIe
  | invalidGroup
  | invalidPairwise
  | invalidAkmp
  | mgmtFrameProtectionViolation
  | invalidMgmtGroupCipher
  | invalidMdie
  | invalidProto
  | invalidPmkid
  | deniedOtherReason
deriving DecidableEq

/-- What of `struct wpa_state_machine` the function sets, the authentication algorithm and the PMK-R1 name. -/
structure ApSm where
  addr : Addr
  wpaKeyMgmt : Akm
  mgmtFrameProt : Bool
  pairwise : Option Cipher
  wpa2 : Bool
  ocvEnabled : ℕ
  useExtKeyId : Bool
  keyidxActive : ℕ
  wpaIe : Option Bytes
  rsnxe : Option Bytes
  authAlgFils : Bool
  pmkR1Name : Option Bytes

/-- The arguments besides the element. -/
structure Request where
  freq : ℕ
  wpaIe : Bytes
  rsnxe : Option Bytes
  mdie : Option Bytes
  oweDh : Bool

/-- The PMKSA cache: the authenticators before and after this one are for OKC. -/
structure Cache where
  conf : Pmksa.Conf
  before : List (List Pmksa.Entry)
  after : List (List Pmksa.Entry)

/-- The 16 octets of a PMKID. -/
def toPmkid (p : Bytes) : Pmksa.Pmkid := List.Vector.ofFn fun i => p.getD i 0

/-! ## The parts -/

/-- The result of the parser, the ciphers where the station has not named any, and the workaround for stations that
copy the suites for fast transition. -/
def requested (b : Build) (r : Request) : ℤ × WpaIeData :=
  if r.wpaIe.headD 0 = 48 then
    let (res, d) := wpaParseWpaIeRsn b r.wpaIe
    let d := if d.hasPairwise then d else { d with pairwiseCipher := wpaDefaultRsnCipher r.freq }
    let d := if d.hasGroup then d else { d with groupCipher := wpaDefaultRsnCipher r.freq }
    let d := if wpaKeyMgmtFt d.keyMgmt && r.mdie.isNone && !wpaKeyMgmtOnlyFt d.keyMgmt then
      { d with keyMgmt := Nat.ldiff d.keyMgmt ftSuites } else d
    (res, d)
  else wpaParseWpaIeWpa r.wpaIe

/-- The order in which `wpa_validate_wpa_ie` picks the key management suite, before PSK. -/
def validateOrder : List Akm :=
  [.suiteB192, .suiteB, .ftFilsSha384, .ftFilsSha256, .filsSha384, .filsSha256, .ftIeee8021xSha384, .ftIeee8021x,
    .ftPsk, .base .ieee8021xSha256, .base .pskSha256, .base .sae, .ftSae, .base .ieee8021x, .base .owe, .base .dpp,
    .osen]

/-- The suites that are asked for, of those requested and those offered. For FT-FILS-SHA256 the code looks at
`data.key_mgmt` instead of `key_mgmt`. -/
def asked (requested offered : ℕ) (a : Akm) : Bool :=
  if a = .ftFilsSha256 then requested.testBit a.bit else (requested &&& offered).testBit a.bit

/-- The key management suite. -/
def pickKeyMgmt (b : Build) (requested offered : ℕ) : Akm :=
  ((validateOrder.filter b.writes).find? (asked requested offered)).getD (.base .psk)

/-- `wpa_key_mgmt_sae`. -/
def Akm.isSae (a : Akm) : Bool := a = .base .sae || a = .ftSae

/-- `wpa_key_mgmt_fils`. -/
def Akm.isFils (a : Akm) : Bool := a = .filsSha256 || a = .filsSha384 || a = .ftFilsSha256 || a = .ftFilsSha384

/-- `wpa_key_mgmt_ft`, of one suite. -/
def Akm.isFt (a : Akm) : Bool := wpaKeyMgmtFt (2 ^ a.bit)

/-- Management frame protection, as far as it is refused before the operating channel is looked at. -/
def protectionRefused (b : Build) (c : ApConf) (a : Akm) (d : WpaIeData) : Option IeResult :=
  if c.ieee80211w = .required ∧ ¬ d.capabilities.testBit capMfpc then some .mgmtFrameProtectionViolation
  else if c.ieee80211w = .required ∧ d.mgmtGroupCipher ≠ c.groupMgmtCipher then some .invalidMgmtGroupCipher
  else if b.sae ∧ c.ieee80211w = .optional ∧ c.saeRequireMfp ∧ a.isSae ∧ ¬ d.capabilities.testBit capMfpc then
    some .mgmtFrameProtectionViolation
  else none

/-- Operating channel validation without management frame protection, which is refused unless the workaround is on. -/
def ocvRefused (b : Build) (c : ApConf) (d : WpaIeData) : Bool :=
  b.ocv && c.ocv ≠ 0 && d.capabilities.testBit capOcvc && !d.capabilities.testBit capMfpc && c.ocv ≠ 2

/-- `wpa_auth_set_ocv`. -/
def ocvEnabled (b : Build) (c : ApConf) (d : WpaIeData) (old : ℕ) : ℕ :=
  if b.ocv then
    if c.ocv ≠ 0 ∧ d.capabilities.testBit capOcvc ∧ ¬ d.capabilities.testBit capMfpc then 0
    else if d.capabilities.testBit capOcvc then c.ocv else 0
  else old

/-- What the elements for fast transition and for OWE have to be like. -/
def elementsRefused (b : Build) (c : ApConf) (a : Akm) (r : Request) : Option IeResult :=
  if b.ft ∧ a.isFt ∧ r.mdie.all fun m => m.length < 3 ∨ m.take 2 ≠ c.mobilityDomain then some .invalidMdie
  else if b.ft ∧ ¬ a.isFt ∧ r.mdie.isSome then some .invalidAkmp
  else if b.owe ∧ a = .base .owe ∧ ¬ r.oweDh then some .invalidAkmp
  else if b.dpp2 ∧ a = .base .dpp ∧ (c.dppPfs = 1 ∧ ¬ r.oweDh ∨ c.dppPfs = 2 ∧ r.oweDh) then some .deniedOtherReason
  else none

/-- FILS with fast transition: the one PMKID is the PMK-R1 name. -/
def pmkR1Refused (b : Build) (s : ApSm) (d : WpaIeData) : Bool :=
  b.ft && b.fils && (s.wpaKeyMgmt = .ftFilsSha256 || s.wpaKeyMgmt = .ftFilsSha384) && s.authAlgFils &&
    (d.pmkids.length ≠ 1 || d.pmkids.head? ≠ s.pmkR1Name)

/-- Extended key identifiers. -/
def setExtKeyId (c : ApConf) (d : WpaIeData) (s : ApSm) : ApSm :=
  if c.extendedKeyId ≠ 0 ∧ s.wpa2 ∧ s.pairwise ≠ some .tkip ∧ d.capabilities.testBit capExtKeyId then
    { s with
      useExtKeyId := true
      keyidxActive := if c.extendedKeyId = 2 ∧ ¬ s.wpaKeyMgmt.isFt ∧ ¬ s.wpaKeyMgmt.isFils then 1 else 0 }
  else { s with useExtKeyId := false }

/-- The ciphers that both ends want. -/
def common (c : ApConf) (r : Request) (d : WpaIeData) : ℕ :=
  d.pairwiseCipher &&& (if r.wpaIe.headD 0 = 48 then c.rsnPairwise else c.wpaPairwise)

/-- The end of `wpa_validate_wpa_ie`, from the PMKIDs on. -/
def validatePmksa (b : Build) (c : ApConf) (k : Cache) (r : Request) (d : WpaIeData) (s : ApSm) (pm : Pmksa.St) :
    IeResult × ApSm × Pmksa.St :=
  let pm := Pmksa.validatePmkids k.conf s.addr (d.pmkids.map toPmkid) k.before k.after pm
  let found := (Pmksa.smPmksa pm s.addr).isSome
  if b.sae ∧ s.wpaKeyMgmt = .base .sae ∧ d.pmkids ≠ [] ∧ ¬ found then (.invalidPmkid, s, pm)
  else if b.dpp ∧ s.wpaKeyMgmt = .base .dpp ∧ ¬ found then (.invalidPmkid, s, pm)
  else (.ok, { setExtKeyId c d s with wpaIe := some r.wpaIe, rsnxe := r.rsnxe.filter (· ≠ []) }, pm)

/-- `wpa_validate_wpa_ie`. -/
def wpaValidateWpaIe (b : Build) (c : ApConf) (k : Cache) (r : Request) (s : ApSm) (pm : Pmksa.St) :
    IeResult × ApSm × Pmksa.St :=
  let rsn := r.wpaIe.headD 0 = 48
  if r.wpaIe = [] then (.invalidIe, s, pm)
  else if c.wpa &&& (if rsn then protoRsn else protoWpa) = 0 then (.invalidProto, s, pm)
  else
    let d := (requested b r).2
    if (requested b r).1 ≠ 0 then (.invalidIe, s, pm)
    else if d.groupCipher ≠ c.wpaGroup then (.invalidGroup, s, pm)
    else if d.keyMgmt &&& c.wpaKeyMgmt = 0 then (.invalidAkmp, s, pm)
    else
      let s := { s with wpaKeyMgmt := pickKeyMgmt b d.keyMgmt c.wpaKeyMgmt }
      let ciphers := common c r d
      if ciphers = 0 then (.invalidPairwise, s, pm)
      else
        match protectionRefused b c s.wpaKeyMgmt d with
        | some e => (e, s, pm)
        | none =>
          if ocvRefused b c d then (.mgmtFrameProtectionViolation, s, pm)
          else
            let s := { s with
              ocvEnabled := ocvEnabled b c d s.ocvEnabled
              mgmtFrameProt := c.ieee80211w ≠ .no && d.capabilities.testBit capMfpc }
            if s.mgmtFrameProt ∧ ciphers.testBit (Suite.pairwise .tkip).bit then
              (.mgmtFrameProtectionViolation, s, pm)
            else
              match elementsRefused b c s.wpaKeyMgmt r with
              | some e => (e, s, pm)
              | none =>
                let s := { s with pairwise := wpaPickPairwiseCipher ciphers false }
                if s.pairwise.isNone then (.invalidPairwise, s, pm)
                else
                  let s := { s with wpa2 := rsn }
                  if pmkR1Refused b s d then (.invalidPmkid, s, pm) else validatePmksa b c k r d s pm

/-! ## Who is let in -/

variable {b : Build} {c : ApConf} {k : Cache} {r : Request} {s s' : ApSm} {pm pm' : Pmksa.St} {d : WpaIeData}

/-- The state machine when the PMKIDs are looked at. -/
def agreed (b : Build) (c : ApConf) (r : Request) (d : WpaIeData) (s : ApSm) : ApSm :=
  { s with
    wpaKeyMgmt := pickKeyMgmt b d.keyMgmt c.wpaKeyMgmt
    ocvEnabled := ocvEnabled b c d s.ocvEnabled
    mgmtFrameProt := c.ieee80211w ≠ .no && d.capabilities.testBit capMfpc
    pairwise := wpaPickPairwiseCipher (common c r d) false
    wpa2 := r.wpaIe.headD 0 = 48 }

/-- The cache afterwards. -/
def agreedPm (k : Cache) (d : WpaIeData) (s : ApSm) (pm : Pmksa.St) : Pmksa.St :=
  Pmksa.validatePmkids k.conf s.addr (d.pmkids.map toPmkid) k.before k.after pm

/-- Nothing speaks against the station. -/
structure Acceptable (b : Build) (c : ApConf) (k : Cache) (r : Request) (s : ApSm) (pm : Pmksa.St) (d : WpaIeData) :
    Prop where
  nonempty : r.wpaIe ≠ []
  proto : c.wpa &&& (if r.wpaIe.headD 0 = 48 then protoRsn else protoWpa) ≠ 0
  parsed : requested b r = (0, d)
  group : d.groupCipher = c.wpaGroup
  keyMgmt : d.keyMgmt &&& c.wpaKeyMgmt ≠ 0
  protection : protectionRefused b c (agreed b c r d s).wpaKeyMgmt d = none
  ocv : ocvRefused b c d = false
  tkip : (agreed b c r d s).mgmtFrameProt = true → (common c r d).testBit (Suite.pairwise .tkip).bit = false
  elements : elementsRefused b c (agreed b c r d s).wpaKeyMgmt r = none
  pairwise : (agreed b c r d s).pairwise.isSome = true
  pmkR1 : pmkR1Refused b (agreed b c r d s) d = false
  sae : b.sae = true → (agreed b c r d s).wpaKeyMgmt = .base .sae → d.pmkids ≠ [] →
    (Pmksa.smPmksa (agreedPm k d s pm) s.addr).isSome = true
  dpp : b.dpp = true → (agreed b c r d s).wpaKeyMgmt = .base .dpp →
    (Pmksa.smPmksa (agreedPm k d s pm) s.addr).isSome = true

theorem common_ne_zero (h : (wpaPickPairwiseCipher (common c r d) false).isSome = true) : common c r d ≠ 0 := by
  obtain ⟨p, hp⟩ := Option.isSome_iff_exists.1 h
  intro hzero
  have hbit := (Lib.pick_eq_some hp).2
  rw [hzero, Nat.zero_testBit] at hbit
  exact Bool.false_ne_true hbit

/-- **Such a station is let in.** -/
theorem Acceptable.validate_eq (h : Acceptable b c k r s pm d) :
    wpaValidateWpaIe b c k r s pm = (.ok, { setExtKeyId c d (agreed b c r d s) with
      wpaIe := some r.wpaIe, rsnxe := r.rsnxe.filter (· ≠ []) }, agreedPm k d s pm) := by
  have hcommon := common_ne_zero h.pairwise
  have htkip : ¬ ((agreed b c r d s).mgmtFrameProt = true ∧
      (common c r d).testBit (Suite.pairwise .tkip).bit = true) := by
    rintro ⟨hmfp, hbit⟩
    rw [h.tkip hmfp] at hbit
    exact Bool.false_ne_true hbit
  have hsome : (agreed b c r d s).pairwise.isNone ≠ true := by
    rw [← Option.not_isSome, h.pairwise]
    exact Bool.false_ne_true
  have hend : validatePmksa b c k r d (agreed b c r d s) pm = (.ok, { setExtKeyId c d (agreed b c r d s) with
      wpaIe := some r.wpaIe, rsnxe := r.rsnxe.filter (· ≠ []) }, agreedPm k d s pm) := by
    unfold validatePmksa
    simp only
    rw [if_neg, if_neg]
    · rfl
    · rintro ⟨hb, hdpp, hno⟩
      exact hno (h.dpp hb hdpp)
    · rintro ⟨hb, hsae, hne, hno⟩
      exact hno (h.sae hb hsae hne)
  have hprot := h.protection
  have helem := h.elements
  simp only [agreed] at hprot helem htkip hsome
  have hpmkR1 := h.pmkR1
  rw [← hend]
  unfold wpaValidateWpaIe
  simp only [h.parsed]
  rw [if_neg h.nonempty, if_neg h.proto, if_neg (not_not.2 rfl), if_neg (not_not.2 h.group), if_neg h.keyMgmt,
    if_neg hcommon, hprot]
  simp only [h.ocv]
  rw [if_neg Bool.false_ne_true, if_neg htkip, helem]
  simp only
  rw [if_neg hsome]
  exact if_neg (by rw [← Bool.not_eq_true] at hpmkR1; exact hpmkR1)

theorem ite_eq_none {p : Prop} [Decidable p] {e : IeResult} {o : Option IeResult}
    (h : (if p then some e else o) = none) : ¬ p ∧ o = none := by
  by_cases hp : p
  · rw [if_pos hp] at h
    cases h
  · rw [if_neg hp] at h
    exact ⟨hp, h⟩

/-- A condition under which the function returns early does not hold when it returns that all is well. -/
theorem ok_of_ite {p : Prop} [Decidable p] {e : IeResult} {x y : ApSm × Pmksa.St} {z : IeResult × ApSm × Pmksa.St}
    (he : e ≠ .ok) (h : (if p then (e, x) else z) = (.ok, y)) : ¬ p ∧ z = (.ok, y) := by
  by_cases hp : p
  · rw [if_pos hp] at h
    exact absurd (congrArg Prod.fst h) he
  · rw [if_neg hp] at h
    exact ⟨hp, h⟩

theorem protectionRefused_ne_ok {a : Akm} {e : IeResult} (h : protectionRefused b c a d = some e) : e ≠ .ok := by
  unfold protectionRefused at h
  split_ifs at h <;> obtain rfl := Option.some.inj h <;> decide

theorem elementsRefused_ne_ok {a : Akm} {e : IeResult} (h : elementsRefused b c a r = some e) : e ≠ .ok := by
  unfold elementsRefused at h
  split_ifs at h <;> obtain rfl := Option.some.inj h <;> decide

/-- **Only such a station is let in.** -/
theorem acceptable_of_ok (h : wpaValidateWpaIe b c k r s pm = (.ok, s', pm')) :
    ∃ d, Acceptable b c k r s pm d := by
  unfold wpaValidateWpaIe at h
  simp only at h
  obtain ⟨hne, h⟩ := ok_of_ite (by decide) h
  obtain ⟨hproto, h⟩ := ok_of_ite (by decide) h
  obtain ⟨hres, h⟩ := ok_of_ite (by decide) h
  obtain ⟨hgroup, h⟩ := ok_of_ite (by decide) h
  obtain ⟨hkeyMgmt, h⟩ := ok_of_ite (by decide) h
  obtain ⟨hciphers, h⟩ := ok_of_ite (by decide) h
  split at h
  · rename_i e he
    exact absurd (congrArg Prod.fst h) (protectionRefused_ne_ok he)
  rename_i hprot
  obtain ⟨hocv, h⟩ := ok_of_ite (by decide) h
  obtain ⟨htkip, h⟩ := ok_of_ite (by decide) h
  split at h
  · rename_i e he
    exact absurd (congrArg Prod.fst h) (elementsRefused_ne_ok he)
  rename_i helem
  obtain ⟨hpick, h⟩ := ok_of_ite (by decide) h
  obtain ⟨hpmkR1, h⟩ := ok_of_ite (by decide) h
  unfold validatePmksa at h
  obtain ⟨hsae, h⟩ := ok_of_ite (by decide) h
  obtain ⟨hdpp, -⟩ := ok_of_ite (by decide) h
  refine ⟨(requested b r).2, hne, hproto, Prod.ext (not_not.1 hres) rfl, not_not.1 hgroup, hkeyMgmt, hprot,
    Bool.eq_false_iff.2 hocv, ?_, helem, ?_, Bool.eq_false_iff.2 hpmkR1, ?_, ?_⟩
  · intro hmfp
    rw [Bool.eq_false_iff]
    exact fun hbit => htkip ⟨hmfp, hbit⟩
  · rw [← Option.not_isSome, Bool.not_eq_true', Bool.not_eq_false] at hpick
    exact hpick
  · intro hb ha hpmkids
    by_contra hno
    exact hsae ⟨hb, ha, hpmkids, hno⟩
  · intro hb ha
    by_contra hno
    exact hdpp ⟨hb, ha, hno⟩

/-! ## The key management suite -/

/-- FT-FILS-SHA256 is asked for and not offered, and nothing that comes before it is common to both ends. -/
def Slip (b : Build) (requested offered : ℕ) : Prop :=
  b.fils = true ∧ b.ft = true ∧ requested.testBit Akm.ftFilsSha256.bit = true ∧
    offered.testBit Akm.ftFilsSha256.bit = false ∧
    ∀ a ∈ [Akm.suiteB192, .suiteB, .ftFilsSha384], (requested &&& offered).testBit a.bit = false

section KeyMgmt

variable {m o : ℕ} {a : Akm}

theorem asked_of_common (h : (m &&& o).testBit a.bit = true) : asked m o a = true := by
  unfold asked
  split
  · rw [Nat.testBit_and, Bool.and_eq_true] at h
    rename_i ha
    exact ha ▸ h.1
  · exact h

theorem common_of_asked (h : asked m o a = true) (ha : a ≠ .ftFilsSha256) : (m &&& o).testBit a.bit = true := by
  rwa [asked, if_neg ha] at h

/-- The list of a build with FILS and fast transition. -/
theorem validateOrder_writes (hfils : b.fils = true) (hft : b.ft = true) : ∃ rest,
    validateOrder.filter b.writes = [Akm.suiteB192, .suiteB, .ftFilsSha384] ++ .ftFilsSha256 :: rest := by
  refine ⟨(validateOrder.drop 4).filter b.writes, ?_⟩
  have hfront : ∀ x ∈ validateOrder.take 4, b.writes x = true := by
    simp [validateOrder, Build.writes, hfils, hft]
  rw [← List.take_append_drop 4 validateOrder, List.filter_append, List.filter_eq_self.2 hfront]
  rfl

/-- With the slip, FT-FILS-SHA256 is picked. -/
theorem Slip.pick_eq (h : Slip b m o) : pickKeyMgmt b m o = .ftFilsSha256 := by
  obtain ⟨hfils, hft, hm, -, hfront⟩ := h
  obtain ⟨rest, hrest⟩ := validateOrder_writes hfils hft
  have hnone : [Akm.suiteB192, .suiteB, .ftFilsSha384].find? (asked m o) = none := by
    rw [List.find?_eq_none]
    intro x hx hask
    have hne : x ≠ .ftFilsSha256 := by
      rintro rfl
      exact absurd hx (by decide)
    have hcommon := common_of_asked hask hne
    rw [hfront x hx] at hcommon
    exact Bool.false_ne_true hcommon
  have hask : asked m o .ftFilsSha256 = true := by rw [asked, if_pos rfl, hm]
  rw [pickKeyMgmt, hrest, List.find?_append, hnone, Option.none_or, List.find?_cons_of_pos hask, Option.getD_some]

/-- FT-FILS-SHA256 is picked by the slip, or it is offered. -/
theorem slip_of_pick (h : (validateOrder.filter b.writes).find? (asked m o) = some .ftFilsSha256)
    (ho : o.testBit Akm.ftFilsSha256.bit = false) : Slip b m o := by
  have hwrites := (List.mem_filter.1 (List.mem_of_find?_eq_some h)).2
  have hask := List.find?_some h
  rw [asked, if_pos rfl] at hask
  obtain ⟨hfils, hft⟩ := Bool.and_eq_true_iff.1 hwrites
  refine ⟨hfils, hft, hask, ho, ?_⟩
  obtain ⟨rest, hrest⟩ := validateOrder_writes hfils hft
  rw [hrest, List.find?_append] at h
  -- none of the first three has been found
  have hnone : [Akm.suiteB192, .suiteB, .ftFilsSha384].find? (asked m o) = none := by
    cases hfind : [Akm.suiteB192, .suiteB, .ftFilsSha384].find? (asked m o) with
    | none => rfl
    | some x =>
      rw [hfind, Option.some_or] at h
      obtain rfl := Option.some.inj h
      exact absurd (List.mem_of_find?_eq_some hfind) (by decide)
  intro x hx
  rw [Bool.eq_false_iff]
  intro hcommon
  exact List.find?_eq_none.1 hnone x hx (asked_of_common hcommon)

/-- **The key management suite** is one that both ends want if and only if there is such a suite that
`wpa_validate_wpa_ie` looks at, or PSK, and FT-FILS-SHA256 is not picked by the slip. -/
theorem pick_offered_iff (b : Build) (m o : ℕ) : (m &&& o).testBit (pickKeyMgmt b m o).bit = true ↔
    (∃ a, (a = .base .psk ∨ a ∈ validateOrder ∧ b.writes a = true) ∧ (m &&& o).testBit a.bit = true) ∧
      ¬ Slip b m o := by
  cases hfind : (validateOrder.filter b.writes).find? (asked m o) with
  | none =>
    have hpick : pickKeyMgmt b m o = .base .psk := by rw [pickKeyMgmt, hfind, Option.getD_none]
    have hno := List.find?_eq_none.1 hfind
    have hslip : ¬ Slip b m o := by
      intro hs
      have heq := hs.pick_eq
      rw [hpick] at heq
      cases heq
    rw [hpick]
    constructor
    · intro hpsk
      exact ⟨⟨_, .inl rfl, hpsk⟩, hslip⟩
    · rintro ⟨⟨a, rfl | ha, hcommon⟩, -⟩
      · exact hcommon
      · exact absurd (asked_of_common hcommon) (hno a (List.mem_filter.2 ha))
  | some x =>
    have hpick : pickKeyMgmt b m o = x := by rw [pickKeyMgmt, hfind, Option.getD_some]
    have hx := List.mem_filter.1 (List.mem_of_find?_eq_some hfind)
    rw [hpick]
    constructor
    · intro hcommon
      refine ⟨⟨x, .inr hx, hcommon⟩, ?_⟩
      intro hs
      obtain rfl : x = .ftFilsSha256 := hpick.symm.trans hs.pick_eq
      obtain ⟨-, -, -, ho, -⟩ := hs
      rw [Nat.testBit_and, ho, Bool.and_false] at hcommon
      exact Bool.false_ne_true hcommon
    · rintro ⟨-, hslip⟩
      have hask := List.find?_some hfind
      by_cases hft : x = .ftFilsSha256
      · subst hft
        by_contra hno
        rw [asked, if_pos rfl] at hask
        rw [Nat.testBit_and, hask, Bool.true_and, Bool.not_eq_true] at hno
        exact hslip (slip_of_pick hfind hno)
      · exact common_of_asked hask hft

end KeyMgmt

/-! ## What a station gets -/

theorem setExtKeyId_same (c : ApConf) (d : WpaIeData) (s : ApSm) :
    (setExtKeyId c d s).wpaKeyMgmt = s.wpaKeyMgmt ∧ (setExtKeyId c d s).pairwise = s.pairwise ∧
      (setExtKeyId c d s).mgmtFrameProt = s.mgmtFrameProt ∧ (setExtKeyId c d s).wpa2 = s.wpa2 := by
  unfold setExtKeyId
  split <;> exact ⟨rfl, rfl, rfl, rfl⟩

/-- **A station that is let in** has asked for the group cipher of the access point; its pairwise cipher is the one
that comes first in the order of preference among those both ends want; management frames are protected when the
access point requires it, with the group management cipher of the access point, and never together with TKIP. The
element it is compared with later on is the one it has sent, and what happens to the PMKSA cache is one event of
it. -/
theorem accepted_law (h : wpaValidateWpaIe b c k r s pm = (.ok, s', pm')) : ∃ d, requested b r = (0, d) ∧
    d.groupCipher = c.wpaGroup ∧
    (∃ p, s'.pairwise = some p ∧ (common c r d).testBit (Suite.pairwise p).bit = true ∧
      ∀ q ≠ .none, (common c r d).testBit (Suite.pairwise q).bit = true → putOrder.idxOf p ≤ putOrder.idxOf q) ∧
    (c.ieee80211w = .required → s'.mgmtFrameProt = true ∧ d.mgmtGroupCipher = c.groupMgmtCipher) ∧
    (s'.mgmtFrameProt = true → c.ieee80211w ≠ .no ∧ s'.pairwise ≠ some .tkip) ∧
    s'.wpaIe = some r.wpaIe ∧
    ((pm.sms s.addr).isSome = true →
      Pmksa.handle k.conf pm (.validate s.addr (d.pmkids.map toPmkid) k.before k.after) = some pm') := by
  obtain ⟨d, hd⟩ := acceptable_of_ok h
  rw [hd.validate_eq] at h
  obtain ⟨-, h⟩ := Prod.mk.inj h
  obtain ⟨rfl, rfl⟩ := Prod.mk.inj h
  obtain ⟨-, hpw, hmfp, -⟩ := setExtKeyId_same c d (agreed b c r d s)
  obtain ⟨p, hp⟩ := Option.isSome_iff_exists.1 hd.pairwise
  have hpick : pick (Suite.bit <| .pairwise ·) [.ccmp256, .gcmp256, .ccmp, .gcmp, .tkip] (common c r d) = some p := hp
  refine ⟨d, hd.parsed, hd.group, ⟨p, hpw.trans hp, (Lib.pick_eq_some hpick).2, ?_⟩, ?_, ?_, rfl, ?_⟩
  · intro q hq hbit
    -- NONE, which comes last in `putOrder`, is left out here
    have hidx : ∀ x : Cipher, putOrder.idxOf x = [Cipher.ccmp256, .gcmp256, .ccmp, .gcmp, .tkip].idxOf x := by
      intro x
      cases x <;> rfl
    have hqmem : q ∈ [Cipher.ccmp256, .gcmp256, .ccmp, .gcmp, .tkip] := by
      cases q <;> first | decide | exact absurd rfl hq
    rw [hidx p, hidx q]
    exact Lib.pick_first hpick hqmem hbit
  · intro hreq
    have hprot := hd.protection
    unfold protectionRefused at hprot
    obtain ⟨hcap, hprot⟩ := ite_eq_none hprot
    obtain ⟨hmgmt, -⟩ := ite_eq_none hprot
    have hmfpc : d.capabilities.testBit capMfpc = true := by
      by_contra hno
      exact hcap ⟨hreq, hno⟩
    refine ⟨hmfp.trans ?_, ?_⟩
    · show (c.ieee80211w ≠ .no && d.capabilities.testBit capMfpc) = true
      rw [hreq, hmfpc]
      rfl
    · by_contra hno
      exact hmgmt ⟨hreq, hno⟩
  · intro hon
    have hon' : (agreed b c r d s).mgmtFrameProt = true := hmfp.symm.trans hon
    have hconf : (decide (c.ieee80211w ≠ .no) && d.capabilities.testBit capMfpc) = true := hon'
    rw [Bool.and_eq_true, decide_eq_true_eq] at hconf
    refine ⟨hconf.1, ?_⟩
    intro htkip
    obtain rfl : p = .tkip := Option.some.inj (hp.symm.trans (hpw.symm.trans htkip))
    have hbit := (Lib.pick_eq_some hpick).2
    rw [hd.tkip hon'] at hbit
    exact Bool.false_ne_true hbit
  · intro hsm
    exact if_pos hsm

/-- A build with DPP and nothing else. -/
def plainBuild : Build where
  ft := false
  sha384 := false
  sae := false
  fils := false
  owe := false
  dpp := true
  dpp2 := true
  hs20 := false
  pasn := false
  ocv := false
  suiteB := false
  suiteB192 := false

/-- An access point for WPA2-PSK with CCMP. -/
def plainAp : ApConf where
  wpa := protoRsn
  wpaGroup := (Suite.pairwise .ccmp).flag
  wpaPairwise := 0
  rsnPairwise := (Suite.pairwise .ccmp).flag
  wpaKeyMgmt := 2 ^ (Akm.base .psk).bit
  groupMgmtCipher := Suite.aes128Cmac.flag
  ieee80211w := .no
  rsnPreauth := false
  wmmEnabled := true
  extendedKeyId := 0
  ocv := 0
  saeRequireMfp := false
  mobilityDomain := [0, 0]
  dppPfs := 0

def plainCache : Cache := ⟨Pmksa.plainConf, [], []⟩

/-- The request of the plain station. -/
def plainRequest : Request := ⟨2412, plainRsne, none, none, false⟩

def plainApSm : ApSm where
  addr := Addr.second
  wpaKeyMgmt := .base .ieee8021x
  mgmtFrameProt := false
  pairwise := none
  wpa2 := false
  ocvEnabled := 0
  useExtKeyId := false
  keyidxActive := 0
  wpaIe := none
  rsnxe := none
  authAlgFils := false
  pmkR1Name := none

theorem accepted_law_plain : ∃ s' pm',
    wpaValidateWpaIe plainBuild plainAp plainCache plainRequest plainApSm Pmksa.plainSt = (.ok, s', pm') ∧
      (∃ p, s'.pairwise = some p) ∧ s'.wpaIe = some plainRsne := by
  have hok : wpaValidateWpaIe plainBuild plainAp plainCache plainRequest plainApSm Pmksa.plainSt = (.ok, _, _) := rfl
  obtain ⟨d, -, -, ⟨p, hp, -⟩, -, -, hie, -⟩ := accepted_law hok
  exact ⟨_, _, hok, ⟨p, hp⟩, hie⟩

end Lightguard.Rsn
