import Lightguard.Rsn.Element

/-!
# The RSN elements of both ends

`wpa_write_rsn_ie` of hostapd, which says what the access point offers, and `wpa_gen_wpa_ie_rsn` of wpa_supplicant,
which says what the station has chosen.

* `offer_read`: a station reads what the access point offers, as far as it knows the suites.
* `choice_read`: the access point reads what the station has chosen.
-/

namespace Lightguard.Rsn

open Wpa
open Lib (be lsb flags)

/-- `enum mfp_options`, without the default. -/
inductive Mfp where
  | no
  | optional
  | required
deriving DecidableEq

/-! ## The access point -/

/-- `struct wpa_auth_config`, as far as it is about suites. -/
structure ApConf where
  wpa : ℕ
  wpaGroup : ℕ
  wpaPairwise : ℕ
  rsnPairwise : ℕ
  wpaKeyMgmt : ℕ
  groupMgmtCipher : ℕ
  ieee80211w : Mfp
  rsnPreauth : Bool
  wmmEnabled : Bool
  extendedKeyId : ℕ
  ocv : ℕ
  saeRequireMfp : Bool
  mobilityDomain : Bytes
  dppPfs : ℕ

/-- `WPA_CAPABILITY_*`. -/
def capPreauth : ℕ := 0
def capMfpr : ℕ := 6
def capMfpc : ℕ := 7
def capExtKeyId : ℕ := 13
def capOcvc : ℕ := 14

/-- `wpa_own_rsn_capab`; bits 2 and 3 are `RSN_NUM_REPLAY_COUNTERS_16`. -/
def wpaOwnRsnCapab (b : Build) (c : ApConf) : ℕ :=
  flags ((if c.rsnPreauth then [capPreauth] else []) ++ (if c.wmmEnabled then [2, 3] else []) ++
    (if c.ieee80211w ≠ .no then [capMfpc] else []) ++ (if c.ieee80211w = .required then [capMfpr] else []) ++
    (if b.ocv ∧ c.ocv ≠ 0 then [capOcvc] else []) ++ if c.extendedKeyId ≠ 0 then [capExtKeyId] else [])

/-- The header and the length of an RSN element. -/
def withHeader (body : Bytes) : Bytes := [48, UInt8.ofNat (2 + body.length), 1, 0] ++ body

/-- The group management ciphers that an access point writes. -/
def writtenMgmtGroup (m : ℕ) : Option Suite :=
  [Suite.bipGmac128, .bipGmac256, .bipCmac256].find? (m = ·.flag)

/-- The PMKID, where there is room for it. -/
def writePmkid (len : ℕ) (pmkid : Option Bytes) (body : Bytes) : Option Bytes :=
  match pmkid with
  | some p => if len < 4 + body.length + 18 then none else some (body ++ (lsb 2 1 ++ p))
  | none => some body

/-- The group management cipher, where there is room for it. -/
def writeMgmtGroup (c : ApConf) (len : ℕ) (pmkid : Option Bytes) (body : Bytes) : Option Bytes :=
  if c.ieee80211w ≠ .no ∧ c.groupMgmtCipher ≠ Suite.aes128Cmac.flag then
    if len < 4 + body.length + 6 then none
    else
      (writtenMgmtGroup c.groupMgmtCipher).map fun s =>
        body ++ ((if pmkid.isNone then lsb 2 0 else []) ++ be 4 s.selector)
  else some body

/-- `wpa_write_rsn_ie` into a buffer of `len` octets. -/
def wpaWriteRsnIe (b : Build) (c : ApConf) (len : ℕ) (pmkid : Option Bytes) : Option Bytes :=
  let group := wpaCipherToSuite c.wpaGroup
  let pairwise := rsnCipherPutSuites c.rsnPairwise
  let keyMgmt := akmPutSuites b c.wpaKeyMgmt
  if group = 0 ∨ pairwise = [] ∨ keyMgmt = [] then none
  else
    ((writePmkid len pmkid (be 4 group ++ (suiteOctets pairwise ++ (suiteOctets keyMgmt ++
      lsb 2 (wpaOwnRsnCapab b c))))).bind (writeMgmtGroup c len pmkid)).map withHeader

/-! ## The station -/

/-- What `wpa_sm_set_param` has set: the suites that have been chosen, and `sm->cur_pmksa`. -/
structure StaSm where
  pairwiseCipher : Cipher
  groupCipher : Suite
  keyMgmt : Akm
  mgmtGroupCipher : Option Suite
  mfp : Mfp
  ocv : Bool
  extKeyId : Bool
  curPmksa : Option Bytes

/-- `rsn_supp_capab`. -/
def rsnSuppCapab (s : StaSm) : ℕ :=
  flags ((if s.mfp ≠ .no then [capMfpc] else []) ++ (if s.mfp = .required then [capMfpr] else []) ++
    (if s.ocv then [capOcvc] else []) ++ if s.extKeyId then [capExtKeyId] else [])

/-- The suites that a station writes. -/
def Build.generates (b : Build) (a : Akm) : Bool := a = .cckm || a ≠ .pasn && b.writes a

/-- `wpa_gen_wpa_ie_rsn` into a buffer of `len` octets. -/
def wpaGenWpaIeRsn (b : Build) (s : StaSm) (len : ℕ) : Option Bytes :=
  if len < 22 + (if s.curPmksa.isSome then 18 else 0) then none
  else if b.generates s.keyMgmt then
    let pmkid := s.curPmksa.elim [] fun p => lsb 2 1 ++ p
    let mgmtGroup := (s.mgmtGroupCipher.filter (validMgmtGroup ·.flag)).elim [] fun m =>
      (if s.curPmksa.isNone then lsb 2 0 else []) ++ be 4 m.selector
    some (withHeader (be 4 s.groupCipher.selector ++ (suiteOctets [(Suite.pairwise s.pairwiseCipher).selector] ++
      (suiteOctets [s.keyMgmt.selector] ++ (lsb 2 (rsnSuppCapab s) ++ (pmkid ++ mgmtGroup))))))
  else none

/-! ## Reading -/

variable {b b' : Build} {c : ApConf} {s : StaSm} {len : ℕ} {pmkid : Option Bytes} {ie : Bytes}

theorem flags_lt {l : List ℕ} (h : ∀ i ∈ l, i < 16) : flags l < 256 ^ 2 := by
  have hpow : (256 ^ 2 : ℕ) = 2 ^ 16 := rfl
  rw [hpow]
  refine Nat.lt_pow_two_of_testBit _ fun i hi => ?_
  rw [Bool.eq_false_iff]
  intro hbit
  have hlt := h i (Lib.testBit_flags.1 hbit)
  omega

theorem lt_of_mem_ite {q : Prop} [Decidable q] {l : List ℕ} {i n : ℕ} (hl : ∀ j ∈ l, j < n)
    (h : i ∈ if q then l else []) : i < n := by
  split at h
  · exact hl i h
  · cases h

theorem wpaOwnRsnCapab_lt : wpaOwnRsnCapab b c < 256 ^ 2 := by
  refine flags_lt fun i hi => ?_
  simp only [List.mem_append] at hi
  rcases hi with ((((h | h) | h) | h) | h) | h <;> exact lt_of_mem_ite (by decide) h

theorem rsnSuppCapab_lt : rsnSuppCapab s < 256 ^ 2 := by
  refine flags_lt fun i hi => ?_
  simp only [List.mem_append] at hi
  rcases hi with ((h | h) | h) | h <;> exact lt_of_mem_ite (by decide) h

/-! ## Elements with all fields -/

/-- An element with a group cipher, lists of suites, capabilities, and perhaps PMKIDs and a group management cipher. -/
def full (g : Suite) (pairwise keyMgmt : List ℕ) (capab : ℕ) (pmkids : Option (List Bytes)) (m : Option Suite) : Rsne where
  group := some g.selector
  pairwise := pairwise
  keyMgmt := keyMgmt
  capab := some capab
  pmkids := pmkids
  mgmtGroup := m.map Suite.selector
  rest := []

section Full

variable {g : Suite} {pairwise keyMgmt : List ℕ} {capab : ℕ} {pmkids : Option (List Bytes)} {m : Option Suite}

theorem length_suiteOctets_le (l : List ℕ) : (suiteOctets l).length ≤ 2 + 4 * l.length := by
  by_cases h : l = []
  · subst h
    decide
  · rw [suiteOctets_of_ne h, List.length_append, Lib.length_lsb, length_suites]

theorem pairwise_not_cmac (h : ∀ n ∈ pairwise, ∃ p : Cipher, n = (Suite.pairwise p).selector) :
    (bitfields rsnSelectorToBitfield pairwise).testBit Suite.aes128Cmac.bit = false := by
  rw [Bool.eq_false_iff]
  intro hbit
  obtain ⟨n, hn, hflag⟩ := testBit_bitfields.1 hbit
  obtain ⟨p, rfl⟩ := h n hn
  rw [rsnSelectorToBitfield_selector, Suite.flag, Lib.two_pow_testBit] at hflag
  have hsame := Suite.bit_injective hflag
  cases hsame

theorem full_wellFormed (hg : validGroup g.flag = true) (hpw : pairwise ≠ []) (hpwlen : pairwise.length ≤ 6)
    (hpwsuite : ∀ n ∈ pairwise, ∃ p : Cipher, n = (Suite.pairwise p).selector) (hkm : keyMgmt ≠ [])
    (hkmlen : keyMgmt.length ≤ 19) (hkmlt : ∀ n ∈ keyMgmt, n < 256 ^ 4) (hcapab : capab < 256 ^ 2)
    (hp : ∀ l ∈ pmkids, l.length ≤ 1 ∧ ∀ i ∈ l, i.length = 16) (hm : ∀ x ∈ m, validMgmtGroup x.flag = true)
    (hpm : pmkids = none → m = none) : (full g pairwise keyMgmt capab pmkids m).WellFormed .rsn := by
  have hmfit : ∀ n ∈ m.map Suite.selector, n < 256 ^ 4 ∧ validMgmtGroup (rsnSelectorToBitfield n) = true := by
    intro n hn
    obtain ⟨x, hx, rfl⟩ := Option.map_eq_some_iff.1 hn
    rw [rsnSelectorToBitfield_selector]
    exact ⟨x.selector_lt, hm x hx⟩
  have hmlen : ((m.map Suite.selector).elim [] (be 4)).length ≤ 4 := by
    cases m with
    | none => exact Nat.zero_le 4
    | some x => exact (Lib.length_be 4 x.selector).le
  have hplen : (pmkids.elim [] fun l => lsb 2 l.length ++ l.flatten).length ≤ 18 := by
    cases pmkids with
    | none => exact Nat.zero_le 18
    | some l =>
      obtain ⟨hone, hsize⟩ := hp l rfl
      rw [Option.elim_some, List.length_append, Lib.length_lsb, Lib.length_flatten_of_length hsize]
      omega
  have hpwoctets := length_suiteOctets_le pairwise
  have hkmoctets := length_suiteOctets_le keyMgmt
  refine ⟨⟨?_, ⟨?_, ?_⟩, ⟨?_, hkmlt⟩, ?_, ?_, fun n hn => (hmfit n hn).1⟩,
    ⟨fun h => (by cases h), fun h => absurd h hpw, fun h => absurd h hkm, fun h => (by cases h), ?_, ?_⟩,
    ⟨?_, pairwise_not_cmac hpwsuite, fun n hn => (hmfit n hn).2⟩, ?_⟩
  · intro n hn
    obtain rfl := Option.some.inj hn
    exact g.selector_lt
  · show pairwise.length < 256 ^ 2
    omega
  · intro n hn
    obtain ⟨p, rfl⟩ := hpwsuite n hn
    exact Suite.selector_lt _
  · show keyMgmt.length < 256 ^ 2
    omega
  · intro n hn
    obtain rfl := Option.some.inj hn
    exact hcapab
  · intro l hl
    obtain ⟨hone, hsize⟩ := hp l hl
    exact ⟨by omega, hsize⟩
  · intro h
    obtain rfl := hpm h
    exact Nat.zero_lt_two
  · intro h
    exact Nat.zero_lt_succ 3
  · intro n hn
    obtain rfl := Option.some.inj hn
    rw [rsnSelectorToBitfield_selector]
    exact hg
  · simp only [Head.size, full, Rsne.octets, Rsne.fromPairwise, Rsne.fromKeyMgmt, Rsne.fromCapab, Rsne.fromPmkids,
      Rsne.fromMgmtGroup, List.length_append, Option.elim_some, Lib.length_be, Lib.length_lsb, List.length_nil]
    omega

/-- What such an element says. -/
theorem full_meaning (hpw : pairwise ≠ []) (hkm : keyMgmt ≠ []) :
    (full g pairwise keyMgmt capab pmkids m).meaning b rsnDefaults =
      { proto := protoRsn, groupCipher := g.flag, hasGroup := true
        pairwiseCipher := bitfields rsnSelectorToBitfield pairwise, hasPairwise := true
        keyMgmt := bitfields (rsnKeyMgmtToBitfield b) keyMgmt, capabilities := capab, pmkids := pmkids.getD []
        mgmtGroupCipher := (m.getD .aes128Cmac).flag } := by
  have hmgmt : (m.map Suite.selector).elim Suite.aes128Cmac.flag rsnSelectorToBitfield =
      (m.getD .aes128Cmac).flag := by
    cases m with
    | none => rfl
    | some x => exact rsnSelectorToBitfield_selector x
  have hpw' : (full g pairwise keyMgmt capab pmkids m).pairwise ≠ [] := hpw
  have hkm' : (full g pairwise keyMgmt capab pmkids m).keyMgmt ≠ [] := hkm
  rw [Rsne.meaning, if_neg hpw', if_neg hpw', if_neg hkm']
  simp only [full, rsnDefaults, Option.elim_some, rsnSelectorToBitfield_selector, Option.getD_some, hmgmt]

end Full

/-! ## What the access point offers -/

/-- The suites that one end writes and the other one reads. -/
def offered (b b' : Build) : ℕ := flags ((readOrder.filter fun a => b.writes a && b'.reads a).map Akm.bit)

theorem testBit_offered {a : Akm} : (offered b b').testBit a.bit = true ↔ b.writes a = true ∧ b'.reads a = true := by
  rw [offered, Lib.testBit_flags, List.mem_map_of_injective Akm.bit_injective, List.mem_filter, Bool.and_eq_true]
  refine ⟨And.right, fun h => ⟨?_, h⟩⟩
  exact (List.mem_filter.1 (mem_readOrder.2 h.2)).1

theorem bitfields_akmPutSuites (m : ℕ) :
    bitfields (rsnKeyMgmtToBitfield b') (akmPutSuites b m) = m &&& offered b b' := by
  apply Nat.eq_of_testBit_eq
  intro i
  rw [Bool.eq_iff_iff, rsnKeyMgmtToBitfield, akmPutSuites, testBit_put Akm.selector_injective, Nat.testBit_and,
    Bool.and_eq_true, offered, Lib.testBit_flags]
  refine and_congr_right fun _ => ?_
  simp only [mem_writeOrder, mem_readOrder]
  simp only [List.mem_map, List.mem_filter, Bool.and_eq_true]
  constructor
  · rintro ⟨a, hw, hr, rfl⟩
    exact ⟨a, ⟨(List.mem_filter.1 (mem_readOrder.2 hr)).1, hw, hr⟩, rfl⟩
  · rintro ⟨a, ⟨-, hw, hr⟩, rfl⟩
    exact ⟨a, hw, hr, rfl⟩

/-- The flags of the ciphers that can be written. -/
def putFlags : ℕ := flags (putOrder.map (Suite.bit <| .pairwise ·))

theorem bitfields_putSuites (m : ℕ) : bitfields rsnSelectorToBitfield (rsnCipherPutSuites m) = m &&& putFlags := by
  have hput : rsnCipherPutSuites m =
      ((putOrder.map Suite.pairwise).filter (m.testBit <| Suite.bit ·)).map Suite.selector := by
    rw [rsnCipherPutSuites, List.filter_map, List.map_map]
    rfl
  apply Nat.eq_of_testBit_eq
  intro i
  rw [Bool.eq_iff_iff, hput, rsnSelectorToBitfield, testBit_put Suite.selector_injective, Nat.testBit_and,
    Bool.and_eq_true, putFlags, Lib.testBit_flags]
  refine and_congr_right fun _ => ?_
  simp only [List.mem_map]
  constructor
  · rintro ⟨x, ⟨p, hp, rfl⟩, -, rfl⟩
    exact ⟨p, hp, rfl⟩
  · rintro ⟨p, hp, rfl⟩
    exact ⟨_, ⟨p, hp, rfl⟩, mem_rsnSuites _, rfl⟩

theorem wpaCipherToSuite_flag (g : Suite) : wpaCipherToSuite g.flag = g.selector := by
  unfold wpaCipherToSuite Suite.flag
  rw [Lib.pick_two_pow Suite.bit_injective]
  · rfl
  · rcases g with ⟨_ | _ | _ | _ | _ | _⟩ | _ | _ | _ | _ | _ <;> decide

theorem writtenMgmtGroup_eq_some {n : ℕ} {x : Suite} (h : writtenMgmtGroup n = some x) :
    n = x.flag ∧ validMgmtGroup x.flag = true := by
  have hn : n = x.flag := by simpa using List.find?_some h
  have hx := List.mem_of_find?_eq_some h
  refine ⟨hn, ?_⟩
  rcases List.mem_cons.1 hx with rfl | hx
  · decide
  rcases List.mem_cons.1 hx with rfl | hx
  · decide
  · rw [List.mem_singleton.1 hx]
    decide

theorem writePmkid_eq_some {body body' : Bytes} (h : writePmkid len pmkid body = some body') :
    body' = body ++ (pmkid.elim [] fun p => lsb 2 1 ++ p) := by
  unfold writePmkid at h
  cases pmkid with
  | none =>
    obtain rfl := Option.some.inj h
    exact (List.append_nil body).symm
  | some p =>
    obtain ⟨-, h⟩ := Option.ite_none_left_eq_some.1 h
    exact (Option.some.inj h).symm

/-- What comes behind the capabilities of an element: the PMKID and the group management cipher, behind a count of
no PMKIDs where there is none. -/
theorem end_full (pmkid : Option Bytes) (m : Option Suite) : ∃ p : Option (List Bytes), (p = none → m = none) ∧
    p.getD [] = pmkid.toList ∧
    (pmkid.elim [] fun i => lsb 2 1 ++ i) ++ (m.elim [] fun x =>
      (if pmkid.isNone then lsb 2 0 else []) ++ be 4 x.selector) =
    p.elim [] (fun l => lsb 2 l.length ++ l.flatten) ++ ((m.map Suite.selector).elim [] (be 4) ++ []) := by
  cases pmkid with
  | none =>
    cases m with
    | none => exact ⟨none, fun _ => rfl, rfl, rfl⟩
    | some x => exact ⟨some [], fun h => (by cases h), rfl, by simp⟩
  | some i => exact ⟨some [i], fun h => (by cases h), rfl, by cases m <;> simp⟩

theorem writeMgmtGroup_eq_some {body body' : Bytes} (h : writeMgmtGroup c len pmkid body = some body') :
    ∃ m : Option Suite, body' = body ++ (m.elim [] fun x =>
      (if pmkid.isNone then lsb 2 0 else []) ++ be 4 x.selector) ∧
      (∀ x ∈ m, validMgmtGroup x.flag = true) ∧
      (m.getD .aes128Cmac).flag = if c.ieee80211w ≠ .no then c.groupMgmtCipher else Suite.aes128Cmac.flag := by
  unfold writeMgmtGroup at h
  by_cases hmgmt : c.ieee80211w ≠ .no ∧ c.groupMgmtCipher ≠ Suite.aes128Cmac.flag
  · rw [if_pos hmgmt] at h
    obtain ⟨-, h⟩ := Option.ite_none_left_eq_some.1 h
    obtain ⟨x, hx, rfl⟩ := Option.map_eq_some_iff.1 h
    obtain ⟨hflag, hvalid⟩ := writtenMgmtGroup_eq_some hx
    refine ⟨some x, rfl, ?_, ?_⟩
    · intro z hz
      obtain rfl := Option.some.inj hz
      exact hvalid
    · rw [if_pos hmgmt.1, hflag]
      rfl
  · rw [if_neg hmgmt] at h
    obtain rfl := Option.some.inj h
    refine ⟨none, (List.append_nil body).symm, by simp, ?_⟩
    split
    · rename_i hno
      by_contra hne
      exact hmgmt ⟨hno, fun heq => hne heq.symm⟩
    · rfl

/-- **The offer is read**: whatever the element of the access point says, a station makes of it what the access
point is configured for, as far as the one writes and the other one reads the suites. -/
theorem offer_read {g : Suite} (h : wpaWriteRsnIe b c len pmkid = some ie) (hg : c.wpaGroup = g.flag)
    (hvalid : validGroup g.flag = true) (hp : ∀ p ∈ pmkid, p.length = 16) :
    wpaParseWpaIeRsn b' ie = (0,
      { proto := protoRsn, groupCipher := c.wpaGroup, hasGroup := true, pairwiseCipher := c.rsnPairwise &&& putFlags
        hasPairwise := true, keyMgmt := c.wpaKeyMgmt &&& offered b b', capabilities := wpaOwnRsnCapab b c
        pmkids := pmkid.toList
        mgmtGroupCipher := if c.ieee80211w ≠ .no then c.groupMgmtCipher else Suite.aes128Cmac.flag }) := by
  unfold wpaWriteRsnIe at h
  simp only at h
  split at h
  · cases h
  rename_i hne
  simp only [not_or] at hne
  obtain ⟨-, hpw, hkm⟩ := hne
  obtain ⟨body, hbody, rfl⟩ := Option.map_eq_some_iff.1 h
  obtain ⟨body', hpmkid, hbody⟩ := Option.bind_eq_some_iff.1 hbody
  obtain ⟨m, rfl, hm, hmgmt⟩ := writeMgmtGroup_eq_some hbody
  rw [writePmkid_eq_some hpmkid, hg, wpaCipherToSuite_flag]
  obtain ⟨p, hpm, hpmkids, hend⟩ := end_full pmkid m
  have hpwlen : (rsnCipherPutSuites c.rsnPairwise).length ≤ 6 := by
    rw [rsnCipherPutSuites, List.length_map]
    exact List.length_filter_le _ putOrder
  have hkmlen : (akmPutSuites b c.wpaKeyMgmt).length ≤ 19 := by
    rw [akmPutSuites, List.length_map]
    exact (List.length_filter_le _ _).trans (List.length_filter_le _ writeOrder)
  have hwf : (full g (rsnCipherPutSuites c.rsnPairwise) (akmPutSuites b c.wpaKeyMgmt) (wpaOwnRsnCapab b c) p
      m).WellFormed .rsn := by
    refine full_wellFormed hvalid hpw hpwlen ?_ hkm hkmlen ?_ wpaOwnRsnCapab_lt ?_ hm hpm
    · intro n hn
      obtain ⟨x, -, rfl⟩ := List.mem_map.1 hn
      exact ⟨x, rfl⟩
    · intro n hn
      obtain ⟨a, -, rfl⟩ := List.mem_map.1 hn
      exact a.selector_lt
    · intro l hl
      obtain rfl : l = pmkid.toList := by rw [← hpmkids, hl]; rfl
      refine ⟨by cases pmkid <;> simp, fun i hi => hp i (Option.mem_toList.1 hi)⟩
  have hread := parse_octets (b := b') hwf
  rw [show Head.rsn.defaults = rsnDefaults from rfl, full_meaning hpw hkm, bitfields_putSuites, bitfields_akmPutSuites,
    hpmkids, hmgmt] at hread
  rw [← hread]
  refine congrArg (wpaParseWpaIeRsn b') ?_
  simp only [List.append_assoc, hend]
  rfl

/-! ## What the station has chosen -/

/-- **The choice is read.** -/
theorem choice_read (h : wpaGenWpaIeRsn b s len = some ie) (hvalid : validGroup s.groupCipher.flag = true)
    (hp : ∀ p ∈ s.curPmksa, p.length = 16) :
    wpaParseWpaIeRsn b' ie = (0,
      { proto := protoRsn, groupCipher := s.groupCipher.flag, hasGroup := true
        pairwiseCipher := (Suite.pairwise s.pairwiseCipher).flag, hasPairwise := true
        keyMgmt := rsnKeyMgmtToBitfield b' s.keyMgmt.selector, capabilities := rsnSuppCapab s
        pmkids := s.curPmksa.toList
        mgmtGroupCipher := ((s.mgmtGroupCipher.filter (validMgmtGroup ·.flag)).getD .aes128Cmac).flag }) := by
  unfold wpaGenWpaIeRsn at h
  obtain ⟨-, h⟩ := Option.ite_none_left_eq_some.1 h
  obtain ⟨-, h⟩ := Option.ite_none_right_eq_some.1 h
  obtain rfl := Option.some.inj h
  generalize hm : s.mgmtGroupCipher.filter (validMgmtGroup ·.flag) = m
  have hmvalid : ∀ x ∈ m, validMgmtGroup x.flag = true := by
    intro x hx
    rw [← hm] at hx
    exact (Option.mem_filter_iff.1 hx).2
  obtain ⟨p, hpnone, hpmkids, hend⟩ := end_full s.curPmksa m
  have hwf : (full s.groupCipher [(Suite.pairwise s.pairwiseCipher).selector] [s.keyMgmt.selector] (rsnSuppCapab s) p
      m).WellFormed .rsn := by
    refine full_wellFormed hvalid (List.cons_ne_nil _ _) (by simp) ?_ (List.cons_ne_nil _ _) (by simp) ?_
      rsnSuppCapab_lt ?_ hmvalid hpnone
    · intro n hn
      exact ⟨s.pairwiseCipher, List.mem_singleton.1 hn⟩
    · intro n hn
      rw [List.mem_singleton.1 hn]
      exact s.keyMgmt.selector_lt
    · intro l hl
      obtain rfl : l = s.curPmksa.toList := by rw [← hpmkids, hl]; rfl
      refine ⟨by cases s.curPmksa <;> simp, fun i hi => hp i (Option.mem_toList.1 hi)⟩
  have hread := parse_octets (b := b') hwf
  have hpw : bitfields rsnSelectorToBitfield [(Suite.pairwise s.pairwiseCipher).selector] =
      (Suite.pairwise s.pairwiseCipher).flag := by
    rw [bitfields, List.foldl_cons, List.foldl_nil, Nat.zero_or, rsnSelectorToBitfield_selector]
  have hkm : bitfields (rsnKeyMgmtToBitfield b') [s.keyMgmt.selector] = rsnKeyMgmtToBitfield b' s.keyMgmt.selector := by
    rw [bitfields, List.foldl_cons, List.foldl_nil, Nat.zero_or]
  rw [show Head.rsn.defaults = rsnDefaults from rfl, full_meaning (List.cons_ne_nil _ _) (List.cons_ne_nil _ _), hpw,
    hkm, hpmkids] at hread
  rw [← hread]
  refine congrArg (wpaParseWpaIeRsn b') ?_
  rw [hend]
  rfl

/-- The key management suite is read where it is known. -/
theorem rsnKeyMgmtToBitfield_selector (a : Akm) :
    rsnKeyMgmtToBitfield b a.selector = if b.reads a then 2 ^ a.bit else 0 := by
  split
  · rename_i hreads
    exact bitfield_selector Akm.selector_injective (mem_readOrder.2 hreads)
  · rename_i hreads
    apply Nat.eq_of_testBit_eq
    intro i
    rw [Nat.zero_testBit, Bool.eq_false_iff]
    intro hbit
    obtain ⟨x, hx, hsel, -⟩ := (testBit_bitfield Akm.selector_injective).1 hbit
    obtain rfl := Akm.selector_injective hsel
    exact hreads (mem_readOrder.1 hx)

end Lightguard.Rsn
