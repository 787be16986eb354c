import Lightguard.Rsn.Validate

/-!
# The negotiation

`wpa_supplicant_set_suites` of wpa_supplicant: what a station chooses from the offer of an access point, for a network
with RSN only. Together with the elements of both ends and `wpa_validate_wpa_ie` this is the whole negotiation of the
suites. What the function does about the PMK is left out here.

* `agreement`: both ends of an association that has been let in work with the same suites.
* `joins_iff`: which stations are let in.
-/

namespace Lightguard.Rsn

open Wpa
open Lib (flags pick)

/-- What the function reads of the network, of the configuration and of what the driver can do; `pmf` is what
`wpas_get_ssid_pmf` returns, `leap` says that the EAP mode is LEAP, `ocv` and `extKeyId` that the driver does what is
configured. -/
structure Profile where
  pairwiseCipher : ℕ
  groupCipher : ℕ
  keyMgmt : ℕ
  groupMgmtCipher : ℕ
  pmf : Mfp
  ftEapPmksaCaching : Bool
  leap : Bool
  ocv : Bool
  extKeyId : Bool
  drvSae : Bool
  drvFt : Bool
  freq : ℕ

/-- `matching_ciphers`: the ciphers an element does not name, and whether there are ciphers for both ends. -/
def matchingCiphers (p : Profile) (d : WpaIeData) : WpaIeData × Bool :=
  let d := if d.hasGroup then d else { d with groupCipher := wpaDefaultRsnCipher p.freq }
  let d := if d.hasPairwise then d else { d with pairwiseCipher := wpaDefaultRsnCipher p.freq }
  (d, d.groupCipher &&& p.groupCipher ≠ 0 && d.pairwiseCipher &&& p.pairwiseCipher ≠ 0)

/-- The order in which `wpa_supplicant_set_suites` picks the key management suite. -/
def setSuitesOrder : List Akm :=
  [.ftIeee8021xSha384, .suiteB192, .suiteB, .ftFilsSha384, .ftFilsSha256, .filsSha384, .filsSha256, .ftIeee8021x,
    .base .dpp, .ftSae, .base .sae, .ftPsk, .base .ieee8021xSha256, .base .pskSha256, .base .ieee8021x, .base .psk,
    .wpaNone, .osen, .base .owe]

/-- The suites that are picked: fast transition with 802.1X not for LEAP. -/
def Build.picks (b : Build) (leap : Bool) : Akm → Bool
  | .suiteB192 => b.suiteB192
  | .suiteB => b.suiteB
  | .wpaNone => true
  | .ftIeee8021xSha384 => b.writes .ftIeee8021xSha384 && !leap
  | .ftIeee8021x => b.writes .ftIeee8021x && !leap
  | a => b.writes a

/-- The suites for both ends, as far as the driver goes along. -/
def available (b : Build) (p : Profile) (offer : ℕ) : ℕ :=
  let sel := offer &&& p.keyMgmt
  let sel := if b.sae && !p.drvSae then Nat.ldiff sel (flags [(Akm.base .sae).bit, Akm.ftSae.bit]) else sel
  if b.ft && !p.drvFt then Nat.ldiff sel ftSuites else sel

/-- The key management suite. -/
def chooseKeyMgmt (b : Build) (p : Profile) (offer : ℕ) : Option Akm :=
  pick Akm.bit (setSuitesOrder.filter (b.picks p.leap)) (available b p offer)

/-- `wpas_set_mgmt_group_cipher`. -/
def wpasSetMgmtGroupCipher (p : Profile) (d : WpaIeData) : Option Suite :=
  if p.pmf = .no ∨ ¬ d.capabilities.testBit capMfpc then none
  else
    pick Suite.bit [.aes128Cmac, .bipGmac128, .bipGmac256, .bipCmac256]
      (if p.groupMgmtCipher = 0 then d.mgmtGroupCipher else d.mgmtGroupCipher &&& p.groupMgmtCipher)

/-- `pmksa_cache_clear_current` for fast transition with 802.1X, where PMKSA caching is off. -/
def curPmksaFor (p : Profile) (a : Akm) (cur : Option Bytes) : Option Bytes :=
  if (a = .ftIeee8021xSha384 ∨ a = .ftIeee8021x) ∧ ¬ p.ftEapPmksaCaching then none else cur

/-- Whether Extended Key ID is announced: not for networks that only have TKIP. -/
def announcesExtKeyId (p : Profile) : Bool :=
  p.extKeyId && [Cipher.ccmp, .ccmp256, .gcmp, .gcmp256].any fun q => p.pairwiseCipher.testBit (Suite.pairwise q).bit

/-- `wpa_supplicant_set_suites` on the RSN element of an access point: what the machine is set to, and the element
for the request. -/
def wpaSupplicantSetSuites (b : Build) (p : Profile) (cur : Option Bytes) (len : ℕ) (bssRsn : Bytes) :
    Option (StaSm × Bytes) :=
  let d := (matchingCiphers p (wpaParseWpaIeRsn b bssRsn).2).1
  if (wpaParseWpaIeRsn b bssRsn).1 ≠ 0 ∨ ¬ (matchingCiphers p (wpaParseWpaIeRsn b bssRsn).2).2 ∨
      d.keyMgmt &&& p.keyMgmt = 0 then none
  else
    (wpaPickGroupCipher (d.groupCipher &&& p.groupCipher)).bind fun group =>
      (wpaPickPairwiseCipher (d.pairwiseCipher &&& p.pairwiseCipher) true).bind fun pairwise =>
        (chooseKeyMgmt b p d.keyMgmt).bind fun a =>
          if ¬ d.capabilities.testBit capMfpc ∧ p.pmf = .required then none
          else
            let s : StaSm :=
              { pairwiseCipher := pairwise
                groupCipher := group
                keyMgmt := a
                mgmtGroupCipher := wpasSetMgmtGroupCipher p d
                mfp := p.pmf
                ocv := b.ocv && p.ocv
                extKeyId := announcesExtKeyId p
                curPmksa := curPmksaFor p a cur }
            (wpaGenWpaIeRsn b s len).map fun ie => (s, ie)

/-! ## What the station chooses -/

variable {b b' : Build} {c : ApConf} {p : Profile} {cur : Option Bytes} {len len' : ℕ} {offer ie : Bytes} {s : StaSm}
  {g : Suite} {a : Akm}

theorem bit_of_available {offer i : ℕ} (h : (available b p offer).testBit i = true) :
    offer.testBit i = true ∧ p.keyMgmt.testBit i = true := by
  have hldiff : ∀ m n : ℕ, (Nat.ldiff m n).testBit i = true → m.testBit i = true := by
    intro m n hmn
    rw [Nat.testBit_ldiff, Bool.and_eq_true] at hmn
    exact hmn.1
  unfold available at h
  simp only at h
  rw [← Bool.and_eq_true, ← Nat.testBit_and]
  split at h
  · have hsel := hldiff _ _ h
    split at hsel
    · exact hldiff _ _ hsel
    · exact hsel
  · split at h
    · exact hldiff _ _ h
    · exact h

/-- What has been chosen is for both ends. -/
structure Chosen (b : Build) (c : ApConf) (p : Profile) (s : StaSm) : Prop where
  group : s.groupCipher.flag = c.wpaGroup
  pairwise : c.rsnPairwise.testBit (Suite.pairwise s.pairwiseCipher).bit = true
  pairwise' : p.pairwiseCipher.testBit (Suite.pairwise s.pairwiseCipher).bit = true
  keyMgmt : c.wpaKeyMgmt.testBit s.keyMgmt.bit = true
  keyMgmt' : p.keyMgmt.testBit s.keyMgmt.bit = true
  written : b.writes s.keyMgmt = true
  order : s.keyMgmt ∈ setSuitesOrder
  mfp : s.mfp = p.pmf
  mgmt : s.mgmtGroupCipher = if p.pmf = .no ∨ c.ieee80211w = .no then none else
    pick Suite.bit [.aes128Cmac, .bipGmac128, .bipGmac256, .bipCmac256]
      (if p.groupMgmtCipher = 0 then c.groupMgmtCipher else c.groupMgmtCipher &&& p.groupMgmtCipher)
  required : p.pmf = .required → c.ieee80211w ≠ .no

theorem testBit_wpaOwnRsnCapab_mfpc : (wpaOwnRsnCapab b c).testBit capMfpc = true ↔ c.ieee80211w ≠ .no := by
  rw [wpaOwnRsnCapab, Lib.testBit_flags]
  simp only [List.mem_append]
  simp [capMfpc, capPreauth, capMfpr, capOcvc, capExtKeyId]

theorem wpaPickGroupCipher_eq {m n : ℕ} {x : Suite} (h : wpaPickGroupCipher (m &&& n) = some x) (hm : m = g.flag) :
    x = g := by
  have hbit := (Lib.pick_eq_some h).2
  rw [hm, Nat.testBit_and, Bool.and_eq_true, Suite.flag, Lib.two_pow_testBit] at hbit
  exact (Suite.bit_injective hbit.1).symm

/-- **The choice** is among what the access point offers and the network allows. -/
theorem chosen_of_setSuites (hoffer : wpaWriteRsnIe b c len none = some offer) (hg : c.wpaGroup = g.flag)
    (hvalid : validGroup g.flag = true) (h : wpaSupplicantSetSuites b' p cur len' offer = some (s, ie)) :
    Chosen b c p s ∧ s.groupCipher = g ∧ s.ocv = (b'.ocv && p.ocv) ∧ s.curPmksa = curPmksaFor p s.keyMgmt cur ∧
      wpaGenWpaIeRsn b' s len' = some ie := by
  have hread : wpaParseWpaIeRsn b' offer = _ := offer_read hoffer hg hvalid (by simp)
  unfold wpaSupplicantSetSuites at h
  rw [hread] at h
  simp only [matchingCiphers, if_true] at h
  obtain ⟨-, h⟩ := Option.ite_none_left_eq_some.1 h
  obtain ⟨group, hgroup, h⟩ := Option.bind_eq_some_iff.1 h
  obtain ⟨pairwise, hpairwise, h⟩ := Option.bind_eq_some_iff.1 h
  obtain ⟨a, ha, h⟩ := Option.bind_eq_some_iff.1 h
  obtain ⟨hreq, h⟩ := Option.ite_none_left_eq_some.1 h
  obtain ⟨ie', hie, h⟩ := Option.map_eq_some_iff.1 h
  obtain ⟨rfl, rfl⟩ := Prod.mk.inj h
  have hgroup' : group = g := wpaPickGroupCipher_eq hgroup hg
  have hpw := (Lib.pick_eq_some hpairwise).2
  simp only [Nat.testBit_and, Bool.and_eq_true] at hpw
  obtain ⟨hmem, havail⟩ := Lib.pick_eq_some ha
  obtain ⟨hbit, hbit'⟩ := bit_of_available havail
  rw [Nat.testBit_and, Bool.and_eq_true, testBit_offered] at hbit
  have hmgmt : wpasSetMgmtGroupCipher p
      { proto := protoRsn, groupCipher := c.wpaGroup, hasGroup := true, pairwiseCipher := c.rsnPairwise &&& putFlags
        hasPairwise := true, keyMgmt := c.wpaKeyMgmt &&& offered b b', capabilities := wpaOwnRsnCapab b c
        pmkids := Option.toList none
        mgmtGroupCipher := if c.ieee80211w ≠ .no then c.groupMgmtCipher else Suite.aes128Cmac.flag } =
      if p.pmf = .no ∨ c.ieee80211w = .no then none else
        pick Suite.bit [.aes128Cmac, .bipGmac128, .bipGmac256, .bipCmac256]
          (if p.groupMgmtCipher = 0 then c.groupMgmtCipher else c.groupMgmtCipher &&& p.groupMgmtCipher) := by
    unfold wpasSetMgmtGroupCipher
    simp only [testBit_wpaOwnRsnCapab_mfpc, not_not]
    by_cases hno : p.pmf = .no ∨ c.ieee80211w = .no
    · rw [if_pos hno, if_pos hno]
    · have hw : c.ieee80211w ≠ .no := fun hw => hno (.inr hw)
      rw [if_neg hno, if_neg hno]
      simp only [if_pos hw]
  refine ⟨⟨?_, hpw.1.1, hpw.2, hbit.1, hbit', hbit.2.1, List.mem_of_mem_filter hmem, rfl, hmgmt, ?_⟩, hgroup', rfl, rfl,
    hie⟩
  · show group.flag = c.wpaGroup
    rw [hgroup', hg]
  · intro hpmf hw
    refine hreq ⟨?_, hpmf⟩
    rw [testBit_wpaOwnRsnCapab_mfpc]
    exact not_not.2 hw

/-! ## What the access point reads -/

/-- What the element of a station says. -/
def choiceData (s : StaSm) : WpaIeData where
  proto := protoRsn
  groupCipher := s.groupCipher.flag
  hasGroup := true
  pairwiseCipher := (Suite.pairwise s.pairwiseCipher).flag
  hasPairwise := true
  keyMgmt := 2 ^ s.keyMgmt.bit
  capabilities := rsnSuppCapab s
  pmkids := s.curPmksa.toList
  mgmtGroupCipher := ((s.mgmtGroupCipher.filter (validMgmtGroup ·.flag)).getD .aes128Cmac).flag

section Choice

variable {r : Request}

theorem headD_of_gen (h : wpaGenWpaIeRsn b s len = some ie) : ie.headD 0 = 48 := by
  unfold wpaGenWpaIeRsn at h
  obtain ⟨-, h⟩ := Option.ite_none_left_eq_some.1 h
  obtain ⟨-, h⟩ := Option.ite_none_right_eq_some.1 h
  obtain rfl := Option.some.inj h
  rfl

/-- One suite: the workaround for stations that copy the suites changes nothing. -/
theorem only_ft_of_ft (a : Akm) : (wpaKeyMgmtFt (2 ^ a.bit) && !wpaKeyMgmtOnlyFt (2 ^ a.bit)) = false := by
  rw [Bool.eq_false_iff]
  intro h
  obtain ⟨hft, hno⟩ := Bool.and_eq_true_iff.1 h
  have hbit : ftSuites.testBit a.bit = true := by
    have hmeet := of_decide_eq_true hft
    rwa [Nat.and_comm, Lib.and_two_pow_ne_zero_iff] at hmeet
  have hrest : Nat.ldiff (2 ^ a.bit) ftSuites = 0 := by
    apply Nat.eq_of_testBit_eq
    intro i
    rw [Nat.testBit_ldiff, Nat.zero_testBit, Nat.testBit_two_pow]
    by_cases hi : a.bit = i
    · rw [← hi, hbit, Bool.not_true, Bool.and_false]
    · rw [decide_eq_false hi, Bool.false_and]
  have honly : wpaKeyMgmtOnlyFt (2 ^ a.bit) = true := by
    rw [wpaKeyMgmtOnlyFt, hft, hrest]
    rfl
  rw [honly] at hno
  exact Bool.false_ne_true hno

/-- **The request** says what the station has chosen. -/
theorem requested_choice (hie : wpaGenWpaIeRsn b' s len = some ie) (hvalid : validGroup s.groupCipher.flag = true)
    (hp : ∀ i ∈ s.curPmksa, i.length = 16) (hreads : b.reads s.keyMgmt = true) (hr : r.wpaIe = ie) :
    requested b r = (0, choiceData s) := by
  have hread : wpaParseWpaIeRsn b ie = _ := choice_read hie hvalid hp
  rw [rsnKeyMgmtToBitfield_selector, if_pos hreads] at hread
  have hft : (wpaKeyMgmtFt (2 ^ s.keyMgmt.bit) && r.mdie.isNone && !wpaKeyMgmtOnlyFt (2 ^ s.keyMgmt.bit)) = false := by
    rw [Bool.and_right_comm, only_ft_of_ft, Bool.false_and]
  have hhead : r.wpaIe.headD 0 = 48 := by rw [hr, headD_of_gen hie]
  unfold requested
  rw [if_pos hhead, hr, hread]
  simp only [if_true, hft]
  rfl

/-- One suite that is offered is the one that is picked. -/
theorem pickKeyMgmt_two_pow {o : ℕ} (ha : a = .base .psk ∨ a ∈ validateOrder ∧ b.writes a = true)
    (ho : o.testBit a.bit = true) : pickKeyMgmt b (2 ^ a.bit) o = a := by
  have hsame : ∀ x, asked (2 ^ a.bit) o x = true → x = a := by
    intro x hx
    have hbit : (2 ^ a.bit).testBit x.bit = true := by
      unfold asked at hx
      split at hx
      · rename_i hft
        exact hft ▸ hx
      · rw [Nat.testBit_and, Bool.and_eq_true] at hx
        exact hx.1
    exact (Akm.bit_injective (Lib.two_pow_testBit.1 hbit)).symm
  have hcommon : (2 ^ a.bit &&& o).testBit a.bit = true := by
    rw [Nat.testBit_and, Nat.testBit_two_pow_self, ho]
    rfl
  unfold pickKeyMgmt
  cases hfind : (validateOrder.filter b.writes).find? (asked (2 ^ a.bit) o) with
  | none =>
    rcases ha with rfl | ha
    · rfl
    · exact absurd (asked_of_common hcommon) (List.find?_eq_none.1 hfind a (List.mem_filter.2 ha))
  | some x => exact hsame x (List.find?_some hfind)

/-- What a station picks, hostapd looks at. -/
theorem validateOrder_of_chosen (h : Chosen b c p s) :
    s.keyMgmt = .base .psk ∨ s.keyMgmt ∈ validateOrder ∧ b.writes s.keyMgmt = true := by
  have hall : ∀ a ∈ setSuitesOrder, a = .base .psk ∨ a ∈ validateOrder ∨ a = .wpaNone := by decide
  rcases hall s.keyMgmt h.order with hpsk | hmem | hnone
  · exact .inl hpsk
  · exact .inr ⟨hmem, h.written⟩
  · have hw := h.written
    rw [hnone] at hw
    exact absurd hw Bool.false_ne_true

theorem testBit_rsnSuppCapab_mfpc : (rsnSuppCapab s).testBit capMfpc = true ↔ s.mfp ≠ .no := by
  rw [rsnSuppCapab, Lib.testBit_flags]
  simp only [List.mem_append]
  simp [capMfpc, capMfpr, capOcvc, capExtKeyId]

theorem testBit_rsnSuppCapab_ocvc : (rsnSuppCapab s).testBit capOcvc = s.ocv := by
  rw [Bool.eq_iff_iff, rsnSuppCapab, Lib.testBit_flags]
  simp only [List.mem_append]
  simp [capMfpc, capMfpr, capOcvc, capExtKeyId]

end Choice

/-! ## The group management cipher -/

/-- The group management ciphers that stations pick. -/
def mgmtOrder : List Suite := [.aes128Cmac, .bipGmac128, .bipGmac256, .bipCmac256]

/-- The network allows the group management cipher of the access point. -/
def MgmtAllowed (c : ApConf) (p : Profile) : Prop := p.groupMgmtCipher = 0 ∨ c.groupMgmtCipher &&& p.groupMgmtCipher ≠ 0

/-- An access point that protects management frames has one of these ciphers. -/
theorem mgmt_of_offer {pmkid : Option Bytes} (h : wpaWriteRsnIe b c len pmkid = some offer)
    (hw : c.ieee80211w ≠ .no) : ∃ y ∈ mgmtOrder, c.groupMgmtCipher = y.flag := by
  unfold wpaWriteRsnIe at h
  obtain ⟨-, h⟩ := Option.ite_none_left_eq_some.1 h
  obtain ⟨body, hbody, -⟩ := Option.map_eq_some_iff.1 h
  obtain ⟨body', -, hbody⟩ := Option.bind_eq_some_iff.1 hbody
  unfold writeMgmtGroup at hbody
  by_cases hcmac : c.groupMgmtCipher = Suite.aes128Cmac.flag
  · exact ⟨_, List.mem_cons_self, hcmac⟩
  · rw [if_pos ⟨hw, hcmac⟩] at hbody
    obtain ⟨-, hbody⟩ := Option.ite_none_left_eq_some.1 hbody
    obtain ⟨y, hy, -⟩ := Option.map_eq_some_iff.1 hbody
    exact ⟨y, List.mem_cons_of_mem _ (List.mem_of_find?_eq_some hy), (writtenMgmtGroup_eq_some hy).1⟩

/-- What the station takes for it. -/
theorem Chosen.mgmt_eq (h : Chosen b c p s) {y : Suite} (hy : y ∈ mgmtOrder) (hflag : c.groupMgmtCipher = y.flag)
    (hw : c.ieee80211w ≠ .no) (hp : p.pmf ≠ .no) :
    (MgmtAllowed c p → s.mgmtGroupCipher = some y) ∧ (¬ MgmtAllowed c p → s.mgmtGroupCipher = none) := by
  have heq := h.mgmt
  rw [if_neg (not_or.2 ⟨hp, hw⟩), hflag] at heq
  have hone : pick Suite.bit mgmtOrder y.flag = some y := Lib.pick_two_pow Suite.bit_injective hy
  constructor
  · rintro (hzero | hne)
    · rw [if_pos hzero] at heq
      exact heq.trans hone
    · rw [hflag, Nat.and_comm, Suite.flag, Lib.and_two_pow_ne_zero_iff] at hne
      have hnz : p.groupMgmtCipher ≠ 0 := by
        intro hzero
        rw [hzero, Nat.zero_testBit] at hne
        exact Bool.false_ne_true hne
      have hand : y.flag &&& p.groupMgmtCipher = y.flag := by
        rw [Suite.flag, Nat.two_pow_and, hne, Bool.toNat_true, Nat.mul_one]
      rw [if_neg hnz, hand] at heq
      exact heq.trans hone
  · intro hno
    obtain ⟨hnz, hzero⟩ := not_or.1 hno
    rw [not_not, hflag] at hzero
    rw [if_neg hnz, hzero] at heq
    exact heq.trans (Lib.pick_eq_none.2 fun x _ => Nat.zero_testBit _)

/-! ## Both ends -/

section Both

variable {k : Cache} {r : Request} {sm sm' : ApSm} {pm pm' : Pmksa.St}

theorem common_choice (h : Chosen b c p s) (hhead : r.wpaIe.headD 0 = 48) :
    common c r (choiceData s) = (Suite.pairwise s.pairwiseCipher).flag := by
  have hbit := h.pairwise
  rw [common, if_pos hhead]
  show 2 ^ (Suite.pairwise s.pairwiseCipher).bit &&& c.rsnPairwise = _
  rw [Nat.two_pow_and, hbit, Bool.toNat_true, Nat.mul_one]
  rfl

theorem curPmksaFor_length (h : ∀ i ∈ cur, i.length = 16) : ∀ i ∈ curPmksaFor p a cur, i.length = 16 := by
  unfold curPmksaFor
  split
  · intro i hi
    cases hi
  · exact h

/-- The state machine of hostapd for such a station. -/
theorem agreed_choice (sm : ApSm) (h : Chosen b c p s) (hhead : r.wpaIe.headD 0 = 48) :
    (agreed b c r (choiceData s) sm).wpaKeyMgmt = s.keyMgmt ∧
      (agreed b c r (choiceData s) sm).pairwise =
        wpaPickPairwiseCipher (Suite.pairwise s.pairwiseCipher).flag false ∧
      ((agreed b c r (choiceData s) sm).mgmtFrameProt = true ↔ c.ieee80211w ≠ .no ∧ p.pmf ≠ .no) := by
  refine ⟨pickKeyMgmt_two_pow (validateOrder_of_chosen h) h.keyMgmt, ?_, ?_⟩
  · show wpaPickPairwiseCipher (common c r (choiceData s)) false = _
    rw [common_choice h hhead]
  · show (decide (c.ieee80211w ≠ .no) && (rsnSuppCapab s).testBit capMfpc) = true ↔ _
    rw [Bool.and_eq_true, decide_eq_true_eq, testBit_rsnSuppCapab_mfpc, h.mfp]

/-- The request of a station that has chosen from the offer, as the access point reads it. -/
theorem request_of_setSuites (hoffer : wpaWriteRsnIe b c len none = some offer) (hg : c.wpaGroup = g.flag)
    (hvalid : validGroup g.flag = true) (hsel : wpaSupplicantSetSuites b' p cur len' offer = some (s, ie))
    (hcur : ∀ i ∈ cur, i.length = 16) (hr : r.wpaIe = ie) :
    Chosen b c p s ∧ s.ocv = (b'.ocv && p.ocv) ∧ r.wpaIe.headD 0 = 48 ∧ requested b r = (0, choiceData s) := by
  obtain ⟨hch, hsg, hocv, hpm, hie⟩ := chosen_of_setSuites hoffer hg hvalid hsel
  have hhead : r.wpaIe.headD 0 = 48 := by rw [hr, headD_of_gen hie]
  have hlen : ∀ i ∈ s.curPmksa, i.length = 16 := by
    rw [hpm]
    exact curPmksaFor_length hcur
  have hreads := Build.reads_of_writes hch.written
  exact ⟨hch, hocv, hhead, requested_choice hie (hsg ▸ hvalid) hlen hreads hr⟩

/-- The cipher that has been asked for, unless it is none. -/
theorem wpaPickPairwiseCipher_flag {q x : Cipher}
    (h : wpaPickPairwiseCipher (Suite.pairwise q).flag false = some x) : x = q ∧ q ≠ .none := by
  have hpick : pick (Suite.bit <| .pairwise ·) [.ccmp256, .gcmp256, .ccmp, .gcmp, .tkip] (Suite.pairwise q).flag =
      some x := h
  obtain ⟨hmem, hbit⟩ := Lib.pick_eq_some hpick
  rw [Suite.flag, Lib.two_pow_testBit] at hbit
  have hsame := Suite.bit_injective hbit
  obtain rfl := Suite.pairwise.inj hsame
  refine ⟨rfl, ?_⟩
  rintro rfl
  exact absurd hmem (by decide)

/-- **Both ends agree**: when an access point lets in a station that has chosen from its offer, its state machine has
the key management suite and the pairwise cipher of the station, which both ends allow; the group cipher of the station
is that of the access point; management frames are protected if and only if neither end has turned it off, and so
whenever one of them requires it; and the station has the group management cipher of the access point, unless its
network does not allow that one, and then it has none. -/
theorem agreement (hoffer : wpaWriteRsnIe b c len none = some offer) (hg : c.wpaGroup = g.flag)
    (hvalid : validGroup g.flag = true) (hsel : wpaSupplicantSetSuites b' p cur len' offer = some (s, ie))
    (hcur : ∀ i ∈ cur, i.length = 16) (hr : r.wpaIe = ie)
    (hok : wpaValidateWpaIe b c k r sm pm = (.ok, sm', pm')) :
    (sm'.wpaKeyMgmt = s.keyMgmt ∧ (c.wpaKeyMgmt &&& p.keyMgmt).testBit s.keyMgmt.bit = true) ∧
      (sm'.pairwise = some s.pairwiseCipher ∧
        (c.rsnPairwise &&& p.pairwiseCipher).testBit (Suite.pairwise s.pairwiseCipher).bit = true) ∧
      s.groupCipher.flag = c.wpaGroup ∧
      (sm'.mgmtFrameProt = true ↔ c.ieee80211w ≠ .no ∧ p.pmf ≠ .no) ∧
      (c.ieee80211w = .required ∨ p.pmf = .required → sm'.mgmtFrameProt = true) ∧
      (sm'.mgmtFrameProt = true → ∃ y, c.groupMgmtCipher = y.flag ∧
        (MgmtAllowed c p → s.mgmtGroupCipher = some y) ∧ (¬ MgmtAllowed c p → s.mgmtGroupCipher = none)) := by
  obtain ⟨hch, -, hhead, hreq⟩ := request_of_setSuites hoffer hg hvalid hsel hcur hr
  obtain ⟨d, hd⟩ := acceptable_of_ok hok
  obtain rfl : d = choiceData s := congrArg Prod.snd (hd.parsed.symm.trans hreq)
  rw [hd.validate_eq] at hok
  obtain ⟨-, hok⟩ := Prod.mk.inj hok
  obtain ⟨rfl, -⟩ := Prod.mk.inj hok
  obtain ⟨hakm, hpw, hmfp, -⟩ := setExtKeyId_same c (choiceData s) (agreed b c r (choiceData s) sm)
  obtain ⟨hakm', hpw', hmfp'⟩ := agreed_choice sm hch hhead
  obtain ⟨x, hx⟩ := Option.isSome_iff_exists.1 hd.pairwise
  obtain ⟨rfl, -⟩ := wpaPickPairwiseCipher_flag (hpw'.symm.trans hx)
  have hprot : (setExtKeyId c (choiceData s) (agreed b c r (choiceData s) sm)).mgmtFrameProt = true ↔
      c.ieee80211w ≠ .no ∧ p.pmf ≠ .no := by rw [hmfp, hmfp']
  refine ⟨⟨hakm.trans hakm', ?_⟩, ⟨hpw.trans hx, ?_⟩, hch.group, hprot, ?_, ?_⟩
  · rw [Nat.testBit_and, hch.keyMgmt, hch.keyMgmt', Bool.and_true]
  · rw [Nat.testBit_and, hch.pairwise, hch.pairwise', Bool.and_true]
  · intro hone
    refine hprot.2 ?_
    rcases hone with hap | hsta
    · -- the access point has looked at the capabilities
      have href := hd.protection
      unfold protectionRefused at href
      have hcap := (ite_eq_none href).1
      have hno : c.ieee80211w ≠ .no := by
        rw [hap]
        decide
      refine ⟨hno, ?_⟩
      rw [← hch.mfp, ← testBit_rsnSuppCapab_mfpc]
      by_contra hclear
      exact hcap ⟨hap, hclear⟩
    · refine ⟨hch.required hsta, ?_⟩
      rw [hsta]
      decide
  · intro hon
    obtain ⟨hw, hp⟩ := hprot.1 hon
    obtain ⟨y, hy, hflag⟩ := mgmt_of_offer hoffer hw
    exact ⟨y, hflag, hch.mgmt_eq hy hflag hw hp⟩

/-- An access point that requires protected management frames. -/
def protectedAp : ApConf := { plainAp with ieee80211w := .required }

/-- A network for WPA2-PSK with CCMP and protected management frames. -/
def plainProfile : Profile where
  pairwiseCipher := (Suite.pairwise .ccmp).flag
  groupCipher := (Suite.pairwise .ccmp).flag
  keyMgmt := 2 ^ (Akm.base .psk).bit
  groupMgmtCipher := 0
  pmf := .optional
  ftEapPmksaCaching := false
  leap := false
  ocv := false
  extKeyId := false
  drvSae := true
  drvFt := true
  freq := 2412

/-- Its offer. -/
def protectedOffer : Bytes := (wpaWriteRsnIe plainBuild protectedAp 80 none).get rfl

/-- The choice of the station. -/
def plainChoice : StaSm × Bytes := (wpaSupplicantSetSuites plainBuild plainProfile none 80 protectedOffer).get rfl

theorem agreement_plain : ∃ sm' pm',
    wpaValidateWpaIe plainBuild protectedAp plainCache { plainRequest with wpaIe := plainChoice.2 } plainApSm
      Pmksa.plainSt = (.ok, sm', pm') ∧
      sm'.wpaKeyMgmt = plainChoice.1.keyMgmt ∧ sm'.pairwise = some plainChoice.1.pairwiseCipher ∧
      sm'.mgmtFrameProt = true ∧ plainChoice.1.mgmtGroupCipher = some .aes128Cmac := by
  have hoffer : wpaWriteRsnIe plainBuild protectedAp 80 none = some protectedOffer := rfl
  have hsel : wpaSupplicantSetSuites plainBuild plainProfile none 80 protectedOffer =
      some (plainChoice.1, plainChoice.2) := rfl
  have hok : wpaValidateWpaIe plainBuild protectedAp plainCache { plainRequest with wpaIe := plainChoice.2 }
      plainApSm Pmksa.plainSt = (.ok, _, _) := rfl
  obtain ⟨⟨hakm, -⟩, ⟨hpw, -⟩, -, -, hreq, hmgmt⟩ :=
    agreement (g := .pairwise .ccmp) hoffer rfl (by decide) hsel (by simp) rfl hok
  have hon := hreq (.inl rfl)
  obtain ⟨y, hy, hall, -⟩ := hmgmt hon
  have hcmac : Suite.aes128Cmac = y := Suite.bit_injective (Nat.pow_right_injective (Nat.le_refl 2) hy)
  exact ⟨_, _, hok, hakm, hpw, hon, hcmac ▸ hall (.inl rfl)⟩

/-! ## Who is let in -/

/-- The suites that take no further element and no entry of the PMKSA cache. -/
def plainSuites : List Akm := [.base .psk, .base .pskSha256, .base .ieee8021x, .base .ieee8021xSha256]

theorem plain_elements (ha : a ∈ plainSuites) (hr : r.mdie = none) : elementsRefused b c a r = none := by
  have hall : ∀ a ∈ plainSuites, a.isFt = false ∧ a ≠ .base .owe ∧ a ≠ .base .dpp := by decide
  obtain ⟨hft, howe, hdpp⟩ := hall a ha
  unfold elementsRefused
  rw [if_neg, if_neg, if_neg, if_neg]
  · rintro ⟨-, heq, -⟩
    exact hdpp heq
  · rintro ⟨-, heq, -⟩
    exact howe heq
  · rintro ⟨-, -, hsome⟩
    rw [hr] at hsome
    exact Bool.false_ne_true hsome
  · rintro ⟨-, heq, -⟩
    rw [hft] at heq
    exact Bool.false_ne_true heq

/-- What the access point reads of the group management cipher. -/
theorem mgmt_read (h : Chosen b c p s) {y : Suite} (hy : y ∈ mgmtOrder) (hflag : c.groupMgmtCipher = y.flag)
    (hw : c.ieee80211w ≠ .no) (hp : p.pmf ≠ .no) :
    (choiceData s).mgmtGroupCipher = c.groupMgmtCipher ↔
      MgmtAllowed c p ∨ c.groupMgmtCipher = Suite.aes128Cmac.flag := by
  obtain ⟨hyes, hno⟩ := h.mgmt_eq hy hflag hw hp
  have hvalid : ∀ x ∈ mgmtOrder, validMgmtGroup x.flag = true := by decide
  by_cases hall : MgmtAllowed c p
  · have hread : (choiceData s).mgmtGroupCipher = c.groupMgmtCipher := by
      rw [choiceData, hyes hall, Option.filter_some, if_pos (hvalid y hy), hflag]
      rfl
    exact ⟨fun _ => .inl hall, fun _ => hread⟩
  · have hread : (choiceData s).mgmtGroupCipher = Suite.aes128Cmac.flag := by
      rw [choiceData, hno hall]
      rfl
    rw [hread]
    constructor
    · intro heq
      exact .inr heq.symm
    · rintro (hyes | heq)
      · exact absurd hyes hall
      · exact heq.symm

theorem protection_choice (h : Chosen b c p s) (ha : a ∈ plainSuites) (hoffer : wpaWriteRsnIe b c len none = some offer) :
    protectionRefused b c a (choiceData s) = none ↔ (c.ieee80211w = .required →
      p.pmf ≠ .no ∧ (MgmtAllowed c p ∨ c.groupMgmtCipher = Suite.aes128Cmac.flag)) := by
  have hcap : (choiceData s).capabilities.testBit capMfpc = true ↔ p.pmf ≠ .no := by
    rw [← h.mfp]
    exact testBit_rsnSuppCapab_mfpc
  have hsae : a.isSae = false := by
    have hall : ∀ a ∈ plainSuites, a.isSae = false := by decide
    exact hall a ha
  have hmgmt : c.ieee80211w = .required → p.pmf ≠ .no → ((choiceData s).mgmtGroupCipher = c.groupMgmtCipher ↔
      MgmtAllowed c p ∨ c.groupMgmtCipher = Suite.aes128Cmac.flag) := by
    intro hw hp
    have hno : c.ieee80211w ≠ .no := by
      rw [hw]
      decide
    obtain ⟨y, hy, hflag⟩ := mgmt_of_offer hoffer hno
    exact mgmt_read h hy hflag hno hp
  constructor
  · intro hnone hw
    unfold protectionRefused at hnone
    obtain ⟨hclear, hnone⟩ := ite_eq_none hnone
    obtain ⟨hciph, -⟩ := ite_eq_none hnone
    have hp : p.pmf ≠ .no := by
      rw [← hcap]
      by_contra hno
      exact hclear ⟨hw, hno⟩
    refine ⟨hp, (hmgmt hw hp).1 ?_⟩
    by_contra hne
    exact hciph ⟨hw, hne⟩
  · intro hreq
    unfold protectionRefused
    rw [if_neg, if_neg, if_neg]
    · rintro ⟨-, -, -, hsae', -⟩
      rw [hsae] at hsae'
      exact Bool.false_ne_true hsae'
    · rintro ⟨hw, hne⟩
      obtain ⟨hp, hciph⟩ := hreq hw
      exact hne ((hmgmt hw hp).2 hciph)
    · rintro ⟨hw, hclear⟩
      exact hclear (hcap.2 (hreq hw).1)

/-- TKIP is among the ciphers for both ends only when it has been chosen. -/
theorem tkip_choice (h : Chosen b c p s) (hhead : r.wpaIe.headD 0 = 48) :
    (common c r (choiceData s)).testBit (Suite.pairwise .tkip).bit = true ↔ s.pairwiseCipher = .tkip := by
  rw [common_choice h hhead, Suite.flag, Lib.two_pow_testBit]
  constructor
  · intro hbit
    have hsame := Suite.bit_injective hbit
    exact Suite.pairwise.inj hsame
  · intro heq
    rw [heq]

theorem ocvRefused_choice (h : Chosen b c p s) (hocv : s.ocv = (b'.ocv && p.ocv)) :
    ocvRefused b c (choiceData s) = true ↔
      b.ocv = true ∧ c.ocv ≠ 0 ∧ (b'.ocv = true ∧ p.ocv = true) ∧ p.pmf = .no ∧ c.ocv ≠ 2 := by
  have hcap : ((choiceData s).capabilities.testBit capMfpc = false) ↔ p.pmf = .no := by
    rw [← Bool.not_eq_true, ← not_iff_not, not_not, ← h.mfp]
    exact testBit_rsnSuppCapab_mfpc
  have hocvc : (choiceData s).capabilities.testBit capOcvc = (b'.ocv && p.ocv) :=
    testBit_rsnSuppCapab_ocvc.trans hocv
  simp only [ocvRefused, hocvc, Bool.and_eq_true, decide_eq_true_eq, Bool.not_eq_true', hcap, and_assoc]

/-- The cipher that has been asked for is picked. -/
theorem wpaPickPairwiseCipher_of_ne {q : Cipher} (h : q ≠ .none) :
    wpaPickPairwiseCipher (Suite.pairwise q).flag false = some q := by
  have hinj : Function.Injective fun x : Cipher => Suite.bit (.pairwise x) := by
    intro x y hxy
    exact Suite.pairwise.inj (Suite.bit_injective hxy)
  have hmem : q ∈ [Cipher.ccmp256, .gcmp256, .ccmp, .gcmp, .tkip] := by
    cases q <;> first | decide | exact absurd rfl h
  exact Lib.pick_two_pow hinj hmem

/-- **Who is let in**: with a suite for 802.1X or PSK, a station that has chosen from the offer is refused only for one
of these reasons: the access point has RSN turned off, the station has picked no pairwise cipher, one end does not
protect management frames and the access point requires it, the network does not allow the group management cipher
that the access point requires, TKIP together with protected management frames, or operating channel validation
without them. -/
theorem joins_iff (hoffer : wpaWriteRsnIe b c len none = some offer) (hg : c.wpaGroup = g.flag)
    (hvalid : validGroup g.flag = true) (hsel : wpaSupplicantSetSuites b' p cur len' offer = some (s, ie))
    (hcur : ∀ i ∈ cur, i.length = 16) (hr : r.wpaIe = ie) (hakm : s.keyMgmt ∈ plainSuites) (hmdie : r.mdie = none) :
    (∃ sm' pm', wpaValidateWpaIe b c k r sm pm = (.ok, sm', pm')) ↔
      c.wpa &&& protoRsn ≠ 0 ∧ s.pairwiseCipher ≠ .none ∧
        (c.ieee80211w = .required →
          p.pmf ≠ .no ∧ (MgmtAllowed c p ∨ c.groupMgmtCipher = Suite.aes128Cmac.flag)) ∧
        (c.ieee80211w ≠ .no → p.pmf ≠ .no → s.pairwiseCipher ≠ .tkip) ∧
        (p.pmf = .no → b.ocv = true → b'.ocv = true → p.ocv = true → c.ocv = 0 ∨ c.ocv = 2) := by
  obtain ⟨hch, hocv, hhead, hreq⟩ := request_of_setSuites hoffer hg hvalid hsel hcur hr
  obtain ⟨hakm', hpw', hmfp'⟩ := agreed_choice sm hch hhead
  have htkip := tkip_choice hch hhead
  have hocvRefused := ocvRefused_choice hch hocv
  constructor
  · rintro ⟨sm', pm', hok⟩
    obtain ⟨d, hd⟩ := acceptable_of_ok hok
    obtain rfl : d = choiceData s := congrArg Prod.snd (hd.parsed.symm.trans hreq)
    obtain ⟨x, hx⟩ := Option.isSome_iff_exists.1 hd.pairwise
    have hproto := hd.proto
    rw [if_pos hhead] at hproto
    have hprot := hd.protection
    rw [hakm', protection_choice hch hakm hoffer] at hprot
    refine ⟨hproto, (wpaPickPairwiseCipher_flag (hpw'.symm.trans hx)).2, hprot, ?_, ?_⟩
    · intro hw hp heq
      have hno := hd.tkip (hmfp'.2 ⟨hw, hp⟩)
      rw [htkip.2 heq] at hno
      exact Bool.false_ne_true hno.symm
    · intro hp hb hb' hpo
      by_contra hne
      obtain ⟨h0, h2⟩ := not_or.1 hne
      have hyes := hocvRefused.2 ⟨hb, h0, ⟨hb', hpo⟩, hp, h2⟩
      rw [hd.ocv] at hyes
      exact Bool.false_ne_true hyes
  · rintro ⟨hproto, hnone, hprot, hnotkip, hnoocv⟩
    have hall : ∀ a ∈ plainSuites, a ≠ .base .sae ∧ a ≠ .base .dpp ∧ a ≠ .ftFilsSha256 ∧ a ≠ .ftFilsSha384 := by decide
    obtain ⟨hsae, hdpp, h256, h384⟩ := hall _ hakm
    have hpick := wpaPickPairwiseCipher_of_ne hnone
    have hacc : Acceptable b c k r sm pm (choiceData s) :=
      { nonempty := by
          intro hnil
          rw [hnil] at hhead
          cases hhead
        proto := by rwa [if_pos hhead]
        parsed := hreq
        group := hch.group
        keyMgmt := by
          rw [Lib.and_ne_zero_iff]
          exact ⟨s.keyMgmt.bit, Nat.testBit_two_pow_self, hch.keyMgmt⟩
        protection := by rw [hakm', protection_choice hch hakm hoffer]; exact hprot
        ocv := by
          rw [Bool.eq_false_iff]
          intro hyes
          obtain ⟨hb, h0, ⟨hb', hpo⟩, hp, h2⟩ := hocvRefused.1 hyes
          rcases hnoocv hp hb hb' hpo with h | h
          · exact h0 h
          · exact h2 h
        tkip := by
          intro hon
          obtain ⟨hw, hp⟩ := hmfp'.1 hon
          rw [Bool.eq_false_iff]
          intro hbit
          exact hnotkip hw hp (htkip.1 hbit)
        elements := by rw [hakm']; exact plain_elements hakm hmdie
        pairwise := by rw [hpw', hpick]; rfl
        pmkR1 := by simp [pmkR1Refused, hakm', h256, h384]
        sae := by
          intro _ heq
          exact absurd (hakm'.symm.trans heq) hsae
        dpp := by
          intro _ heq
          exact absurd (hakm'.symm.trans heq) hdpp }
    exact ⟨_, _, hacc.validate_eq⟩

/-- The choice without protected management frames. -/
def openChoice : StaSm × Bytes :=
  (wpaSupplicantSetSuites plainBuild { plainProfile with pmf := .no } none 80 protectedOffer).get rfl

/-- The plain station is let in, and refused without protected management frames. -/
theorem joins_iff_plain :
    (∃ sm' pm', wpaValidateWpaIe plainBuild protectedAp plainCache { plainRequest with wpaIe := plainChoice.2 }
      plainApSm Pmksa.plainSt = (.ok, sm', pm')) ∧
    ¬ ∃ sm' pm', wpaValidateWpaIe plainBuild protectedAp plainCache { plainRequest with wpaIe := openChoice.2 }
      plainApSm Pmksa.plainSt = (.ok, sm', pm') := by
  have hoffer : wpaWriteRsnIe plainBuild protectedAp 80 none = some protectedOffer := rfl
  have hsel : wpaSupplicantSetSuites plainBuild plainProfile none 80 protectedOffer =
      some (plainChoice.1, plainChoice.2) := rfl
  have hopen : wpaSupplicantSetSuites plainBuild { plainProfile with pmf := .no } none 80 protectedOffer =
      some (openChoice.1, openChoice.2) := rfl
  have hakm : plainChoice.1.keyMgmt = .base .psk := rfl
  have hakm' : openChoice.1.keyMgmt = .base .psk := rfl
  have hpw : plainChoice.1.pairwiseCipher = .ccmp := rfl
  constructor
  · refine (joins_iff (g := .pairwise .ccmp) hoffer rfl (by decide) hsel (by simp) rfl (by rw [hakm]; decide) rfl).2
      ⟨by decide, by rw [hpw]; decide, ?_, ?_, ?_⟩
    · intro _
      exact ⟨by decide, .inr rfl⟩
    · intro _ _
      rw [hpw]
      decide
    · intro hp
      cases hp
  · intro hin
    obtain ⟨-, -, hreq, -⟩ := (joins_iff (g := .pairwise .ccmp) hoffer rfl (by decide) hopen (by simp) rfl
      (by rw [hakm']; decide) rfl).1 hin
    exact (hreq rfl).1 rfl

end Both

end Lightguard.Rsn
