import Lightguard.Rsn.Suites

/-!
# The elements of an association request

`wpa_parse_wpa_ie_rsn` and `wpa_parse_wpa_ie_wpa` of `wpa_common.c`. Both parsers go through the octets from the
front; a field that is missing ends the element, and the fields from there on keep their defaults.

An element is described by the grammar `Rsne`: its fields in their order, each of which may be missing.

* `parse_eq_zero_iff`: what the parser accepts are the elements of the grammar, with their meaning.
-/

namespace Lightguard.Rsn

open Lib (be readBe lsb readLsb records)

/-! ## The parsers -/

/-- `struct wpa_ie_data`; `proto` is `WPA_PROTO_*`, and the PMKIDs are what `pmkid` points at. -/
structure WpaIeData where
  proto : ℕ
  pairwiseCipher : ℕ
  hasPairwise : Bool
  groupCipher : ℕ
  hasGroup : Bool
  keyMgmt : ℕ
  capabilities : ℕ
  pmkids : List Bytes
  mgmtGroupCipher : ℕ
deriving DecidableEq

/-- What follows the field that has been parsed and what is known so far, or the error and what is known then. -/
abbrev Parsed := Except (ℤ × WpaIeData) (Bytes × WpaIeData)

/-- How the two kinds of elements differ. -/
structure Kind where
  rsn : Bool
  cipher : ℕ → ℕ
  keyMgmt : ℕ → ℕ

/-- The element of a daemon that has been built with `b`. -/
def rsnKind (b : Build) : Kind := ⟨true, rsnSelectorToBitfield, rsnKeyMgmtToBitfield b⟩

def wpaKind : Kind := ⟨false, wpaSelectorToBitfield, wpaKeyMgmtToBitfield⟩

variable (k : Kind)

/-- The group cipher; only RSN elements are checked. -/
def parseGroup (rest : Bytes) (d : WpaIeData) : Parsed :=
  if 4 ≤ rest.length then
    let cipher := k.cipher (readBe (rest.take 4))
    let d := { d with groupCipher := cipher, hasGroup := k.rsn }
    if k.rsn && !validGroup cipher then .error (-1, d) else .ok (rest.drop 4, d)
  else if 0 < rest.length then .error (-3, d)
  else .ok (rest, d)

/-- The selectors behind a count. -/
def selectors (n : ℕ) (rest : Bytes) : List ℕ := (records 4 n rest).map readBe

/-- `WPA_GET_LE16`. -/
def getLe16 (rest : Bytes) : ℕ := readLsb (rest.take 2)

/-- The pairwise ciphers; AES-128-CMAC is none of them in an RSN element. -/
def parsePairwise (rest : Bytes) (d : WpaIeData) : Parsed :=
  if 2 ≤ rest.length then
    let count := getLe16 rest
    let rest := rest.drop 2
    if count = 0 ∨ rest.length / 4 < count then .error (-4, { d with pairwiseCipher := 0 })
    else
      let d := { d with pairwiseCipher := bitfields k.cipher (selectors count rest), hasPairwise := k.rsn }
      if k.rsn && d.pairwiseCipher.testBit Suite.aes128Cmac.bit then .error (-1, d)
      else .ok (rest.drop (4 * count), d)
  else if rest.length = 1 then .error (-5, d)
  else .ok (rest, d)

/-- The key management suites. -/
def parseKeyMgmt (rest : Bytes) (d : WpaIeData) : Parsed :=
  if 2 ≤ rest.length then
    let count := getLe16 rest
    let rest := rest.drop 2
    if count = 0 ∨ rest.length / 4 < count then .error (-6, { d with keyMgmt := 0 })
    else .ok (rest.drop (4 * count), { d with keyMgmt := bitfields k.keyMgmt (selectors count rest) })
  else if rest.length = 1 then .error (-7, d)
  else .ok (rest, d)

/-- The capabilities. -/
def parseCapab (rest : Bytes) (d : WpaIeData) : Parsed :=
  if 2 ≤ rest.length then .ok (rest.drop 2, { d with capabilities := getLe16 rest }) else .ok (rest, d)

/-- The PMKIDs. -/
def parsePmkids (rest : Bytes) (d : WpaIeData) : Parsed :=
  if 2 ≤ rest.length then
    let count := getLe16 rest
    let rest := rest.drop 2
    if rest.length / 16 < count then .error (-9, { d with pmkids := [] })
    else .ok (rest.drop (16 * count), { d with pmkids := records 16 count rest })
  else .ok (rest, d)

/-- The group management cipher. -/
def parseMgmtGroup (rest : Bytes) (d : WpaIeData) : Parsed :=
  if 4 ≤ rest.length then
    let cipher := rsnSelectorToBitfield (readBe (rest.take 4))
    let d := { d with mgmtGroupCipher := cipher }
    if validMgmtGroup cipher then .ok (rest.drop 4, d) else .error (-10, d)
  else .ok (rest, d)

/-- One field after the other, up to the capabilities. -/
def parseSuites (rest : Bytes) (d : WpaIeData) : Parsed := do
  let (rest, d) ← parseGroup k rest d
  let (rest, d) ← parsePairwise k rest d
  let (rest, d) ← parseKeyMgmt k rest d
  parseCapab rest d

/-- What the parsers return, and what they have put into `data`; what is left over is ignored. -/
def Parsed.result : Parsed → ℤ × WpaIeData
  | .ok (_, d) => (0, d)
  | .error e => e

/-- `WPA_PROTO_WPA`, `WPA_PROTO_RSN` and `WPA_PROTO_OSEN`. -/
def protoWpa : ℕ := 1
def protoRsn : ℕ := 2
def protoOsen : ℕ := 8

/-- The defaults of `wpa_parse_wpa_ie_rsn`. -/
def rsnDefaults : WpaIeData where
  proto := protoRsn
  pairwiseCipher := (Suite.pairwise .ccmp).flag
  hasPairwise := false
  groupCipher := (Suite.pairwise .ccmp).flag
  hasGroup := false
  keyMgmt := 2 ^ (Akm.base .ieee8021x).bit
  capabilities := 0
  pmkids := []
  mgmtGroupCipher := Suite.aes128Cmac.flag

/-- What an OSEN element has for defaults. -/
def osenDefaults : WpaIeData :=
  { rsnDefaults with
    groupCipher := Suite.gtkNotUsed.flag, hasGroup := true, keyMgmt := 2 ^ Akm.osen.bit, proto := protoOsen }

/-- `OSEN_IE_VENDOR_TYPE`. -/
def osenIeVendorType : ℕ := 0x506F9A12

/-- The identifier and the version. -/
def parseHeader (ie : Bytes) : Parsed :=
  if ie.length < 4 then .error (-1, rsnDefaults)
  else if 6 ≤ ie.length ∧ 4 ≤ (ie.getD 1 0).toNat ∧ (ie.getD 1 0).toNat = ie.length - 2 ∧
      readBe ((ie.drop 2).take 4) = osenIeVendorType then .ok (ie.drop 6, osenDefaults)
  else if ie.getD 0 0 ≠ 48 ∨ (ie.getD 1 0).toNat ≠ ie.length - 2 ∨ getLe16 (ie.drop 2) ≠ 1 then
    .error (-2, rsnDefaults)
  else .ok (ie.drop 4, rsnDefaults)

/-- Everything behind the header of an RSN element. -/
def parseRsnFields (b : Build) (rest : Bytes) (d : WpaIeData) : Parsed := do
  let (rest, d) ← parseSuites (rsnKind b) rest d
  let (rest, d) ← parsePmkids rest d
  parseMgmtGroup rest d

/-- `wpa_parse_wpa_ie_rsn`. -/
def wpaParseWpaIeRsn (b : Build) (ie : Bytes) : ℤ × WpaIeData :=
  Parsed.result do
    let (rest, d) ← parseHeader ie
    parseRsnFields b rest d

/-- The defaults of `wpa_parse_wpa_ie_wpa`. -/
def wpaDefaults : WpaIeData where
  proto := protoWpa
  pairwiseCipher := (Suite.pairwise .tkip).flag
  hasPairwise := false
  groupCipher := (Suite.pairwise .tkip).flag
  hasGroup := false
  keyMgmt := 2 ^ (Akm.base .ieee8021x).bit
  capabilities := 0
  pmkids := []
  mgmtGroupCipher := 0

/-- `wpa_parse_wpa_ie_wpa`. -/
def wpaParseWpaIeWpa (ie : Bytes) : ℤ × WpaIeData :=
  if ie.length < 8 then (-1, wpaDefaults)
  -- `WPA_OUI_TYPE` and `WPA_VERSION`
  else if ie.getD 0 0 ≠ 221 ∨ (ie.getD 1 0).toNat ≠ ie.length - 2 ∨ readBe ((ie.drop 2).take 4) ≠ 0x0050F201 ∨
      getLe16 (ie.drop 6) ≠ 1 then (-2, wpaDefaults)
  else (parseSuites wpaKind (ie.drop 8) wpaDefaults).result

/-! ## The grammar -/

/-- A list of selectors behind its count, or nothing. -/
def suiteOctets : List ℕ → Bytes
  | [] => []
  | l => lsb 2 l.length ++ (l.map (be 4)).flatten

/-- The fields of an element in their order. A list without an entry is a field that is missing; `rest` is what is
left over. -/
structure Rsne where
  group : Option ℕ
  pairwise : List ℕ
  keyMgmt : List ℕ
  capab : Option ℕ
  pmkids : Option (List Bytes)
  mgmtGroup : Option ℕ
  rest : Bytes

namespace Rsne

variable (e : Rsne)

/-- The octets from the group management cipher on, from the PMKIDs on, and so on. -/
def fromMgmtGroup : Bytes := e.mgmtGroup.elim [] (be 4) ++ e.rest
def fromPmkids : Bytes := e.pmkids.elim [] (fun l => lsb 2 l.length ++ l.flatten) ++ e.fromMgmtGroup
def fromCapab : Bytes := e.capab.elim [] (lsb 2) ++ e.fromPmkids
def fromKeyMgmt : Bytes := suiteOctets e.keyMgmt ++ e.fromCapab
def fromPairwise : Bytes := suiteOctets e.pairwise ++ e.fromKeyMgmt
def octets : Bytes := e.group.elim [] (be 4) ++ e.fromPairwise

/-- Numbers and lists fit into their fields. -/
structure Fits : Prop where
  group : ∀ n ∈ e.group, n < 256 ^ 4
  pairwise : e.pairwise.length < 256 ^ 2 ∧ ∀ n ∈ e.pairwise, n < 256 ^ 4
  keyMgmt : e.keyMgmt.length < 256 ^ 2 ∧ ∀ n ∈ e.keyMgmt, n < 256 ^ 4
  capab : ∀ n ∈ e.capab, n < 256 ^ 2
  pmkids : ∀ l ∈ e.pmkids, l.length < 256 ^ 2 ∧ ∀ p ∈ l, p.length = 16
  mgmtGroup : ∀ n ∈ e.mgmtGroup, n < 256 ^ 4

/-- A field that is missing ends the element, but for a few octets that do not make a field. -/
structure Ends : Prop where
  group : e.group = none → e.fromPairwise = []
  pairwise : e.pairwise = [] → e.fromKeyMgmt = []
  keyMgmt : e.keyMgmt = [] → e.fromCapab = []
  capab : e.capab = none → e.fromPmkids.length < 2
  pmkids : e.pmkids = none → e.fromMgmtGroup.length < 2
  mgmtGroup : e.mgmtGroup = none → e.rest.length < 4

/-- The ciphers are ones that an element may have. -/
structure Allowed : Prop where
  group : ∀ n ∈ e.group, validGroup (rsnSelectorToBitfield n) = true
  pairwise : (bitfields rsnSelectorToBitfield e.pairwise).testBit Suite.aes128Cmac.bit = false
  mgmtGroup : ∀ n ∈ e.mgmtGroup, validMgmtGroup (rsnSelectorToBitfield n) = true

/-- What an element says: its fields in place of the defaults. -/
def meaning (b : Build) (d : WpaIeData) : WpaIeData where
  proto := d.proto
  groupCipher := e.group.elim d.groupCipher rsnSelectorToBitfield
  hasGroup := e.group.elim d.hasGroup fun _ => true
  pairwiseCipher := if e.pairwise = [] then d.pairwiseCipher else bitfields rsnSelectorToBitfield e.pairwise
  hasPairwise := if e.pairwise = [] then d.hasPairwise else true
  keyMgmt := if e.keyMgmt = [] then d.keyMgmt else bitfields (rsnKeyMgmtToBitfield b) e.keyMgmt
  capabilities := e.capab.getD d.capabilities
  pmkids := e.pmkids.getD d.pmkids
  mgmtGroupCipher := e.mgmtGroup.elim d.mgmtGroupCipher rsnSelectorToBitfield

end Rsne

/-! ## One field -/

open Lib (be_readBe readBe_be)

variable {b : Build} {x y : Bytes} {d d' : WpaIeData} {n : ℕ} {l : List ℕ}

/-- The first `k` octets as a number. -/
theorem be_take {k : ℕ} (h : k ≤ x.length) : be k (readBe (x.take k)) ++ x.drop k = x := by
  have hbe := be_readBe (x.take k)
  rw [List.length_take_of_le h] at hbe
  rw [hbe, List.take_append_drop]

theorem readBe_take_lt {k : ℕ} (h : k ≤ x.length) : readBe (x.take k) < 256 ^ k := by
  have hlt := Lib.readBe_lt (x.take k)
  rwa [List.length_take_of_le h] at hlt

theorem readBe_take_be {k : ℕ} (h : n < 256 ^ k) (y : Bytes) : readBe ((be k n ++ y).take k) = n := by
  rw [List.take_left' (Lib.length_be k n), readBe_be h]

theorem lsb_take (h : 2 ≤ x.length) : lsb 2 (getLe16 x) ++ x.drop 2 = x := by
  have hlsb := Lib.lsb_readLsb (x.take 2)
  rw [List.length_take_of_le h] at hlsb
  rw [getLe16, hlsb, List.take_append_drop]

theorem getLe16_lt (x : Bytes) : getLe16 x < 256 ^ 2 := by
  have hlt := Lib.readLsb_lt (x.take 2)
  have hle : (x.take 2).length ≤ 2 := List.length_take_le 2 x
  exact hlt.trans_le (Nat.pow_le_pow_right (by decide) hle)

theorem getLe16_lsb (h : n < 256 ^ 2) (y : Bytes) : getLe16 (lsb 2 n ++ y) = n := by
  rw [getLe16, List.take_left' (Lib.length_lsb 2 n), Lib.readLsb_lsb h]

theorem drop_lsb (n : ℕ) (y : Bytes) : (lsb 2 n ++ y).drop 2 = y := List.drop_left' (Lib.length_lsb 2 n)

theorem suiteOctets_of_ne (h : l ≠ []) : suiteOctets l = lsb 2 l.length ++ (l.map (be 4)).flatten := by
  cases l with
  | nil => exact absurd rfl h
  | cons n l => rfl

theorem length_suites (l : List ℕ) : ((l.map (be 4)).flatten).length = 4 * l.length := by
  have h : ∀ r ∈ l.map (be 4), r.length = 4 := by
    intro r hr
    obtain ⟨n, -, rfl⟩ := List.mem_map.1 hr
    exact Lib.length_be 4 n
  rw [Lib.length_flatten_of_length h, List.length_map]

/-- A list of selectors that is read, as far as there are octets for it. -/
theorem selectors_octets (hlen : 4 * n ≤ x.length) :
    ((selectors n x).map (be 4)).flatten ++ x.drop (4 * n) = x ∧ (selectors n x).length = n ∧
      ∀ m ∈ selectors n x, m < 256 ^ 4 := by
  have hrec : ∀ r ∈ Lib.records 4 n x, r.length = 4 := fun r hr => Lib.length_of_mem_records hlen hr
  have hmap : (selectors n x).map (be 4) = Lib.records 4 n x := by
    have hid : ∀ r ∈ Lib.records 4 n x, (be 4 ∘ readBe) r = id r := by
      intro r hr
      have hbe := be_readBe r
      rw [hrec r hr] at hbe
      exact hbe
    rw [selectors, List.map_map, List.map_congr_left hid]
    exact List.map_id _
  refine ⟨?_, ?_, ?_⟩
  · rw [hmap, Lib.records_flatten]
  · rw [selectors, List.length_map, Lib.length_records]
  · intro m hm
    obtain ⟨r, hr, rfl⟩ := List.mem_map.1 hm
    have hlt := Lib.readBe_lt r
    rwa [hrec r hr] at hlt

/-- A list of selectors that has been written is read. -/
theorem selectors_append (hl : ∀ m ∈ l, m < 256 ^ 4) (y : Bytes) :
    selectors l.length ((l.map (be 4)).flatten ++ y) = l := by
  have h : ∀ r ∈ l.map (be 4), r.length = 4 := by
    intro r hr
    obtain ⟨n, -, rfl⟩ := List.mem_map.1 hr
    exact Lib.length_be 4 n
  have hrec := Lib.records_append h y
  rw [List.length_map] at hrec
  have hid : ∀ m ∈ l, (readBe ∘ be 4) m = id m := by
    intro m hm
    rw [Function.comp_apply, readBe_be (hl m hm), id]
  rw [selectors, hrec, List.map_map, List.map_congr_left hid, List.map_id]

/-- **A list behind its count**: both parsers of such a list find the same octets. -/
theorem counted_iff (hx : 2 ≤ x.length) :
    (¬(getLe16 x = 0 ∨ (x.drop 2).length / 4 < getLe16 x) ∧ l = selectors (getLe16 x) (x.drop 2) ∧
      y = (x.drop 2).drop (4 * getLe16 x)) ↔
    l ≠ [] ∧ (l.length < 256 ^ 2 ∧ ∀ m ∈ l, m < 256 ^ 4) ∧ x = suiteOctets l ++ y := by
  constructor
  · rintro ⟨hcount, rfl, rfl⟩
    have hfit : 4 * getLe16 x ≤ (x.drop 2).length := by omega
    obtain ⟨hoctets, hlen, hlt⟩ := selectors_octets hfit
    have hne : selectors (getLe16 x) (x.drop 2) ≠ [] := by
      intro hnil
      rw [hnil, List.length_nil] at hlen
      omega
    refine ⟨hne, ⟨?_, hlt⟩, ?_⟩
    · rw [hlen]
      exact getLe16_lt x
    rw [suiteOctets_of_ne hne, hlen, List.append_assoc, hoctets, lsb_take hx]
  · rintro ⟨hne, ⟨hlen, hlt⟩, rfl⟩
    rw [suiteOctets_of_ne hne, List.append_assoc, getLe16_lsb hlen, drop_lsb, List.length_append, length_suites]
    have hpos : 0 < l.length := List.length_pos_iff.2 hne
    refine ⟨by omega, (selectors_append hlt y).symm, ?_⟩
    rw [List.drop_left' (length_suites l)]

theorem two_le_suiteOctets (h : l ≠ []) (y : Bytes) : 2 ≤ (suiteOctets l ++ y).length := by
  rw [suiteOctets_of_ne h, List.length_append, List.length_append, Lib.length_lsb]
  omega

/-- The group cipher. -/
theorem parseGroup_ok : parseGroup (rsnKind b) x d = .ok (y, d') ↔
    ∃ g : Option ℕ, x = g.elim [] (be 4) ++ y ∧ (g = none → y = []) ∧
      (∀ n ∈ g, n < 256 ^ 4 ∧ validGroup (rsnSelectorToBitfield n) = true) ∧
      d' = { d with groupCipher := g.elim d.groupCipher rsnSelectorToBitfield,
                    hasGroup := g.elim d.hasGroup fun _ => true } := by
  unfold parseGroup
  constructor
  · intro h
    split at h
    · rename_i hlen
      simp only [rsnKind, Bool.true_and, Bool.not_eq_true'] at h
      split at h
      · cases h
      · rename_i hvalid
        obtain ⟨rfl, rfl⟩ := Prod.mk.inj (Except.ok.inj h)
        refine ⟨some (readBe (x.take 4)), (be_take hlen).symm, fun hnone => (by cases hnone), ?_, rfl⟩
        intro n hn
        obtain rfl := Option.some.inj hn
        exact ⟨readBe_take_lt hlen, by simpa using hvalid⟩
    · split at h
      · cases h
      · obtain ⟨rfl, rfl⟩ := Prod.mk.inj (Except.ok.inj h)
        have hnil : x = [] := List.length_eq_zero_iff.1 (by omega)
        exact ⟨none, rfl, fun _ => hnil, by simp, rfl⟩
  · rintro ⟨g, rfl, hend, hfit, rfl⟩
    cases g with
    | none => rw [hend rfl]; rfl
    | some n =>
      obtain ⟨hlt, hvalid⟩ := hfit n rfl
      have hlen : 4 ≤ (be 4 n ++ y).length := by rw [List.length_append, Lib.length_be]; omega
      have hdrop : (be 4 n ++ y).drop 4 = y := List.drop_left' (Lib.length_be 4 n)
      simp only [Option.elim_some, if_pos hlen, readBe_take_be hlt, rsnKind, hvalid, hdrop]
      rfl

/-- The pairwise ciphers. -/
theorem parsePairwise_ok : parsePairwise (rsnKind b) x d = .ok (y, d') ↔
    ∃ l : List ℕ, x = suiteOctets l ++ y ∧ (l = [] → y = []) ∧ (l.length < 256 ^ 2 ∧ ∀ n ∈ l, n < 256 ^ 4) ∧
      (bitfields rsnSelectorToBitfield l).testBit Suite.aes128Cmac.bit = false ∧
      d' = { d with pairwiseCipher := if l = [] then d.pairwiseCipher else bitfields rsnSelectorToBitfield l,
                    hasPairwise := if l = [] then d.hasPairwise else true } := by
  unfold parsePairwise
  constructor
  · intro h
    split at h
    · rename_i hlen
      simp only [rsnKind, Bool.true_and] at h
      split at h
      · cases h
      · rename_i hcount
        split at h
        · cases h
        · rename_i hcmac
          obtain ⟨rfl, rfl⟩ := Prod.mk.inj (Except.ok.inj h)
          obtain ⟨hne, hfit, hx⟩ := (counted_iff hlen).1 ⟨hcount, rfl, rfl⟩
          refine ⟨_, hx, fun hnil => absurd hnil hne, hfit, by simpa using hcmac, ?_⟩
          rw [if_neg hne, if_neg hne]
    · split at h
      · cases h
      · obtain ⟨rfl, rfl⟩ := Prod.mk.inj (Except.ok.inj h)
        have hnil : x = [] := List.length_eq_zero_iff.1 (by omega)
        exact ⟨[], rfl, fun _ => hnil, ⟨by decide, by simp⟩, rfl, rfl⟩
  · rintro ⟨l, rfl, hend, hfit, hcmac, rfl⟩
    by_cases hne : l = []
    · subst hne
      rw [hend rfl]
      rfl
    · have hlen := two_le_suiteOctets hne y
      obtain ⟨hcount, hsel, hy⟩ := (counted_iff hlen).2 ⟨hne, hfit, rfl⟩
      simp only [if_pos hlen, if_neg hcount, rsnKind, ← hsel, ← hy, hcmac, if_neg hne]
      rfl

/-- The key management suites. -/
theorem parseKeyMgmt_ok : parseKeyMgmt (rsnKind b) x d = .ok (y, d') ↔
    ∃ l : List ℕ, x = suiteOctets l ++ y ∧ (l = [] → y = []) ∧ (l.length < 256 ^ 2 ∧ ∀ n ∈ l, n < 256 ^ 4) ∧
      d' = { d with keyMgmt := if l = [] then d.keyMgmt else bitfields (rsnKeyMgmtToBitfield b) l } := by
  unfold parseKeyMgmt
  constructor
  · intro h
    split at h
    · rename_i hlen
      simp only [rsnKind] at h
      split at h
      · cases h
      · rename_i hcount
        obtain ⟨rfl, rfl⟩ := Prod.mk.inj (Except.ok.inj h)
        obtain ⟨hne, hfit, hx⟩ := (counted_iff hlen).1 ⟨hcount, rfl, rfl⟩
        refine ⟨_, hx, fun hnil => absurd hnil hne, hfit, ?_⟩
        rw [if_neg hne]
    · split at h
      · cases h
      · obtain ⟨rfl, rfl⟩ := Prod.mk.inj (Except.ok.inj h)
        have hnil : x = [] := List.length_eq_zero_iff.1 (by omega)
        exact ⟨[], rfl, fun _ => hnil, ⟨by decide, by simp⟩, rfl⟩
  · rintro ⟨l, rfl, hend, hfit, rfl⟩
    by_cases hne : l = []
    · subst hne
      rw [hend rfl]
      rfl
    · have hlen := two_le_suiteOctets hne y
      obtain ⟨hcount, hsel, hy⟩ := (counted_iff hlen).2 ⟨hne, hfit, rfl⟩
      simp only [if_pos hlen, if_neg hcount, rsnKind, ← hsel, ← hy, if_neg hne]

/-- The capabilities. -/
theorem parseCapab_ok : parseCapab x d = .ok (y, d') ↔
    ∃ v : Option ℕ, x = v.elim [] (lsb 2) ++ y ∧ (v = none → y.length < 2) ∧ (∀ n ∈ v, n < 256 ^ 2) ∧
      d' = { d with capabilities := v.getD d.capabilities } := by
  unfold parseCapab
  constructor
  · intro h
    split at h
    · rename_i hlen
      obtain ⟨rfl, rfl⟩ := Prod.mk.inj (Except.ok.inj h)
      refine ⟨some (getLe16 x), (lsb_take hlen).symm, fun hnone => (by cases hnone), ?_, rfl⟩
      intro n hn
      obtain rfl := Option.some.inj hn
      exact getLe16_lt x
    · rename_i hlen
      obtain ⟨rfl, rfl⟩ := Prod.mk.inj (Except.ok.inj h)
      exact ⟨none, rfl, fun _ => by omega, by simp, rfl⟩
  · rintro ⟨v, rfl, hend, hfit, rfl⟩
    cases v with
    | none =>
      have hlt : ¬ 2 ≤ y.length := by
        have := hend rfl
        omega
      exact if_neg hlt
    | some n =>
      have hlen : 2 ≤ (lsb 2 n ++ y).length := by rw [List.length_append, Lib.length_lsb]; omega
      simp only [Option.elim_some, if_pos hlen, drop_lsb, getLe16_lsb (hfit n rfl), Option.getD_some]

/-- The PMKIDs. -/
theorem parsePmkids_ok : parsePmkids x d = .ok (y, d') ↔
    ∃ p : Option (List Bytes), x = p.elim [] (fun l => lsb 2 l.length ++ l.flatten) ++ y ∧
      (p = none → y.length < 2) ∧ (∀ l ∈ p, l.length < 256 ^ 2 ∧ ∀ i ∈ l, i.length = 16) ∧
      d' = { d with pmkids := p.getD d.pmkids } := by
  unfold parsePmkids
  constructor
  · intro h
    split at h
    · rename_i hlen
      simp only at h
      split at h
      · cases h
      · rename_i hcount
        obtain ⟨rfl, rfl⟩ := Prod.mk.inj (Except.ok.inj h)
        have hfit : 16 * getLe16 x ≤ (x.drop 2).length := by omega
        refine ⟨some (Lib.records 16 (getLe16 x) (x.drop 2)), ?_, fun hnone => (by cases hnone), ?_, rfl⟩
        · rw [Option.elim_some, Lib.length_records, List.append_assoc, Lib.records_flatten, lsb_take hlen]
        · intro l hl
          obtain rfl := Option.some.inj hl
          rw [Lib.length_records]
          exact ⟨getLe16_lt x, fun i hi => Lib.length_of_mem_records hfit hi⟩
    · rename_i hlen
      obtain ⟨rfl, rfl⟩ := Prod.mk.inj (Except.ok.inj h)
      exact ⟨none, rfl, fun _ => by omega, by simp, rfl⟩
  · rintro ⟨p, rfl, hend, hfit, rfl⟩
    cases p with
    | none =>
      have hlt : ¬ 2 ≤ y.length := by
        have := hend rfl
        omega
      exact if_neg hlt
    | some l =>
      obtain ⟨hcount, hsize⟩ := hfit l rfl
      have hflat := Lib.length_flatten_of_length hsize
      have hlen : 2 ≤ (lsb 2 l.length ++ (l.flatten ++ y)).length := by
        rw [List.length_append, Lib.length_lsb]
        omega
      have hroom : ¬ (l.flatten ++ y).length / 16 < l.length := by
        rw [List.length_append, hflat]
        omega
      simp only [Option.elim_some, List.append_assoc, if_pos hlen, drop_lsb, getLe16_lsb hcount, if_neg hroom,
        Option.getD_some, Lib.records_append hsize, List.drop_left' hflat]

/-- The group management cipher. -/
theorem parseMgmtGroup_ok : parseMgmtGroup x d = .ok (y, d') ↔
    ∃ m : Option ℕ, x = m.elim [] (be 4) ++ y ∧ (m = none → y.length < 4) ∧
      (∀ n ∈ m, n < 256 ^ 4 ∧ validMgmtGroup (rsnSelectorToBitfield n) = true) ∧
      d' = { d with mgmtGroupCipher := m.elim d.mgmtGroupCipher rsnSelectorToBitfield } := by
  unfold parseMgmtGroup
  constructor
  · intro h
    split at h
    · rename_i hlen
      simp only at h
      split at h
      · rename_i hvalid
        obtain ⟨rfl, rfl⟩ := Prod.mk.inj (Except.ok.inj h)
        refine ⟨some (readBe (x.take 4)), (be_take hlen).symm, fun hnone => (by cases hnone), ?_, rfl⟩
        intro n hn
        obtain rfl := Option.some.inj hn
        exact ⟨readBe_take_lt hlen, hvalid⟩
      · cases h
    · rename_i hlen
      obtain ⟨rfl, rfl⟩ := Prod.mk.inj (Except.ok.inj h)
      exact ⟨none, rfl, fun _ => by omega, by simp, rfl⟩
  · rintro ⟨m, rfl, hend, hfit, rfl⟩
    cases m with
    | none =>
      have hlt : ¬ 4 ≤ y.length := by
        have := hend rfl
        omega
      exact if_neg hlt
    | some n =>
      obtain ⟨hlt, hvalid⟩ := hfit n rfl
      have hlen : 4 ≤ (be 4 n ++ y).length := by rw [List.length_append, Lib.length_be]; omega
      have hdrop : (be 4 n ++ y).drop 4 = y := List.drop_left' (Lib.length_be 4 n)
      simp only [Option.elim_some, if_pos hlen, readBe_take_be hlt, hvalid, hdrop]
      rfl

/-! ## All fields -/

theorem bind_ok {p : Parsed} {f : Bytes × WpaIeData → Parsed} {z : Bytes × WpaIeData} :
    (p >>= f) = .ok z ↔ ∃ y d, p = .ok (y, d) ∧ f (y, d) = .ok z := by
  cases p with
  | error e =>
    refine ⟨fun h => (by cases h), ?_⟩
    rintro ⟨y, d, h, -⟩
    cases h
  | ok w =>
    constructor
    · intro h
      exact ⟨w.1, w.2, rfl, h⟩
    · rintro ⟨y, d, h, hf⟩
      obtain rfl := Except.ok.inj h
      exact hf

/-- **The fields of an RSN element.** -/
theorem parseRsnFields_ok : parseRsnFields b x d = .ok (y, d') ↔
    ∃ e : Rsne, e.Fits ∧ e.Ends ∧ e.Allowed ∧ x = e.octets ∧ y = e.rest ∧ d' = e.meaning b d := by
  unfold parseRsnFields parseSuites
  simp only [bind_ok, parseGroup_ok, parsePairwise_ok, parseKeyMgmt_ok, parseCapab_ok, parsePmkids_ok,
    parseMgmtGroup_ok]
  constructor
  · rintro ⟨_, _, ⟨_, _, ⟨g, rfl, hg, hgfit, rfl⟩, _, _, ⟨l, rfl, hl, hlfit, hcmac, rfl⟩, _, _,
      ⟨a, rfl, ha, hafit, rfl⟩, v, rfl, hv, hvfit, rfl⟩, _, _, ⟨p, rfl, hp, hpfit, rfl⟩, m, rfl, hm, hmfit, rfl⟩
    refine ⟨⟨g, l, a, v, p, m, y⟩, ⟨fun n hn => (hgfit n hn).1, hlfit, hafit, hvfit, hpfit, fun n hn => (hmfit n hn).1⟩,
      ⟨hg, hl, ha, hv, hp, hm⟩, ⟨fun n hn => (hgfit n hn).2, hcmac, fun n hn => (hmfit n hn).2⟩, rfl, rfl, rfl⟩
  · rintro ⟨e, hfit, hends, hallowed, rfl, rfl, rfl⟩
    exact ⟨_, _, ⟨_, _, ⟨e.group, rfl, hends.group, fun n hn => ⟨hfit.group n hn, hallowed.group n hn⟩, rfl⟩, _, _,
      ⟨e.pairwise, rfl, hends.pairwise, hfit.pairwise, hallowed.pairwise, rfl⟩, _, _,
      ⟨e.keyMgmt, rfl, hends.keyMgmt, hfit.keyMgmt, rfl⟩, e.capab, rfl, hends.capab, hfit.capab, rfl⟩, _, _,
      ⟨e.pmkids, rfl, hends.pmkids, hfit.pmkids, rfl⟩, e.mgmtGroup, rfl, hends.mgmtGroup,
      fun n hn => ⟨hfit.mgmtGroup n hn, hallowed.mgmtGroup n hn⟩, rfl⟩

/-! ## The header -/

/-- The header of an element: that of RSN, or that of OSEN, whose identifier is not looked at. -/
inductive Head where
  | rsn
  | osen (id : UInt8)

/-- How many octets of the header the length field counts. -/
def Head.size : Head → ℕ
  | .rsn => 2
  | .osen _ => 4

/-- The header of an element of `n` octets behind it. -/
def Head.octets (n : ℕ) : Head → Bytes
  | .rsn => [48, UInt8.ofNat (2 + n), 1, 0]
  | .osen id => [id, UInt8.ofNat (4 + n), 0x50, 0x6F, 0x9A, 0x12]

def Head.defaults : Head → WpaIeData
  | .rsn => rsnDefaults
  | .osen _ => osenDefaults

theorem toNat_ofNat_of_lt {n : ℕ} (h : n < 256) : (UInt8.ofNat n).toNat = n := by
  rw [UInt8.toNat_ofNat']
  omega

theorem ofNat_toNat_eq {u : UInt8} {n : ℕ} (h : u.toNat = n) : u = UInt8.ofNat n := by
  rw [← h, UInt8.ofNat_toNat]

theorem osenIeVendorType_eq : readBe [0x50, 0x6F, 0x9A, 0x12] = osenIeVendorType := by decide

theorem exists_of_four_le (h : 4 ≤ x.length) : ∃ i n u v y, x = i :: n :: u :: v :: y := by
  rcases x with _ | ⟨i, _ | ⟨n, _ | ⟨u, _ | ⟨v, y⟩⟩⟩⟩
  · simp at h
  · simp at h
  · simp at h
  · simp at h
  · exact ⟨i, n, u, v, y, rfl⟩

/-- **The header**: the length field counts what follows it. -/
theorem parseHeader_ok {ie : Bytes} : parseHeader ie = .ok (x, d) ↔
    ∃ h : Head, h.size + x.length < 256 ∧ ie = h.octets x.length ++ x ∧ d = h.defaults := by
  unfold parseHeader
  constructor
  · intro h
    split at h
    · cases h
    · rename_i hlen
      obtain ⟨i, n, u, v, y, rfl⟩ := exists_of_four_le (not_lt.1 hlen)
      have hn := n.toNat_lt
      split at h
      · rename_i hosen
        obtain ⟨rfl, rfl⟩ := Prod.mk.inj (Except.ok.inj h)
        obtain ⟨hsix, -, hcount, htype⟩ := hosen
        simp only [List.getD_cons_succ, List.getD_cons_zero, List.length_cons] at hsix hcount
        obtain ⟨w, z, y, rfl⟩ : ∃ w z y', y = w :: z :: y' := by
          rcases y with _ | ⟨w, _ | ⟨z, y⟩⟩
          · simp at hsix
          · simp at hsix
          · exact ⟨w, z, y, rfl⟩
        simp only [List.length_cons] at hcount
        have hread : readBe [u, v, w, z] = osenIeVendorType := htype
        have hvendor : [u, v, w, z] = [0x50, 0x6F, 0x9A, 0x12] :=
          Lib.readBe_inj rfl (hread.trans osenIeVendorType_eq.symm)
        simp only [List.cons.injEq, and_true] at hvendor
        obtain ⟨rfl, rfl, rfl, rfl⟩ := hvendor
        have hy : n.toNat = 4 + y.length := by omega
        refine ⟨.osen i, ?_, ?_, rfl⟩
        · show 4 + y.length < 256
          omega
        · rw [ofNat_toNat_eq hy]
          rfl
      · split at h
        · cases h
        · rename_i hrsn
          obtain ⟨rfl, rfl⟩ := Prod.mk.inj (Except.ok.inj h)
          simp only [not_or, not_not, List.getD_cons_succ, List.getD_cons_zero, List.length_cons] at hrsn
          obtain ⟨rfl, hcount, hversion⟩ := hrsn
          have hver : [u, v] = [1, 0] := by
            have hread : readLsb [u, v] = readLsb [1, 0] := hversion
            have hrev := Lib.readBe_inj (a := [v, u]) (b := [0, 1]) rfl hread
            simp only [List.cons.injEq, and_true] at hrev
            rw [hrev.1, hrev.2]
          simp only [List.cons.injEq, and_true] at hver
          obtain ⟨rfl, rfl⟩ := hver
          have hy : n.toNat = 2 + y.length := by omega
          refine ⟨.rsn, ?_, ?_, rfl⟩
          · show 2 + y.length < 256
            omega
          · rw [ofNat_toNat_eq hy]
            rfl
  · rintro ⟨h, hlt, rfl, rfl⟩
    cases h with
    | rsn =>
      have hlt' : 2 + x.length < 256 := hlt
      have hcount := toNat_ofNat_of_lt hlt'
      simp only [Head.octets, List.cons_append, List.nil_append, List.length_cons, List.getD_cons_succ,
        List.getD_cons_zero, hcount]
      have hvendor : ∀ y : Bytes, readBe ((List.drop 2 (48 :: UInt8.ofNat (2 + x.length) :: 1 :: 0 :: y)).take 4) ≠
          osenIeVendorType := by
        intro y heq
        rw [← osenIeVendorType_eq] at heq
        rcases y with _ | ⟨u, _ | ⟨v, y⟩⟩
        · have hread : readBe [1, 0] = readBe [0x50, 0x6F, 0x9A, 0x12] := heq
          exact absurd hread (by decide)
        · have hread : readBe [1, 0, u] = readBe [0x50, 0x6F, 0x9A, 0x12] := heq
          have hlt : readBe [0x50, 0x6F, 0x9A, 0x12] < 256 ^ 3 := hread ▸ Lib.readBe_lt [1, 0, u]
          exact absurd hlt (by decide)
        · have hinj : [1, 0, u, v] = [0x50, 0x6F, 0x9A, 0x12] := Lib.readBe_inj rfl heq
          cases hinj
      rw [if_neg (by omega), if_neg fun hosen => hvendor x hosen.2.2.2, if_neg]
      · rfl
      · rintro (h | h | h)
        · exact h rfl
        · omega
        · exact h rfl
    | osen id =>
      have hlt' : 4 + x.length < 256 := hlt
      have hcount := toNat_ofNat_of_lt hlt'
      simp only [Head.octets, List.cons_append, List.nil_append, List.length_cons, List.getD_cons_succ,
        List.getD_cons_zero, hcount]
      rw [if_neg (by omega), if_pos]
      · rfl
      · exact ⟨by omega, by omega, by omega, rfl⟩

/-! ## Errors -/

/-- An error is never zero. -/
def NoZero (p : Parsed) : Prop := ∀ e, p = .error e → e.1 ≠ 0

theorem NoZero.bind {p : Parsed} {f : Bytes × WpaIeData → Parsed} (hp : NoZero p) (hf : ∀ z, NoZero (f z)) :
    NoZero (p >>= f) := by
  intro e he
  cases p with
  | error e' => exact hp e (by rw [← he]; rfl)
  | ok z => exact hf z e he

theorem NoZero.result_iff {p : Parsed} (hp : NoZero p) : p.result = (0, d) ↔ ∃ y, p = .ok (y, d) := by
  cases p with
  | error e =>
    refine ⟨fun h => absurd (congrArg Prod.fst h) (hp e rfl), ?_⟩
    rintro ⟨y, h⟩
    cases h
  | ok w =>
    constructor
    · intro h
      obtain rfl : w.2 = d := congrArg Prod.snd h
      exact ⟨w.1, rfl⟩
    · rintro ⟨y, h⟩
      obtain rfl := Except.ok.inj h
      rfl

theorem noZero_header (ie : Bytes) : NoZero (parseHeader ie) := by
  intro e he
  unfold parseHeader at he
  split_ifs at he <;> obtain rfl := Except.error.inj he <;> simp

theorem noZero_fields (b : Build) (x : Bytes) (d : WpaIeData) : NoZero (parseRsnFields b x d) := by
  have hgroup : ∀ k x d, NoZero (parseGroup k x d) := by
    intro k x d e he
    unfold parseGroup at he
    simp only at he
    split_ifs at he <;> obtain rfl := Except.error.inj he <;> simp
  have hpairwise : ∀ k x d, NoZero (parsePairwise k x d) := by
    intro k x d e he
    unfold parsePairwise at he
    simp only at he
    split_ifs at he <;> obtain rfl := Except.error.inj he <;> simp
  have hkeyMgmt : ∀ k x d, NoZero (parseKeyMgmt k x d) := by
    intro k x d e he
    unfold parseKeyMgmt at he
    simp only at he
    split_ifs at he <;> obtain rfl := Except.error.inj he <;> simp
  have hcapab : ∀ x d, NoZero (parseCapab x d) := by
    intro x d e he
    unfold parseCapab at he
    split_ifs at he
  have hpmkids : ∀ x d, NoZero (parsePmkids x d) := by
    intro x d e he
    unfold parsePmkids at he
    simp only at he
    split_ifs at he
    obtain rfl := Except.error.inj he
    simp
  have hmgmt : ∀ x d, NoZero (parseMgmtGroup x d) := by
    intro x d e he
    unfold parseMgmtGroup at he
    simp only at he
    split_ifs at he
    obtain rfl := Except.error.inj he
    simp
  have hsuites : ∀ k x d, NoZero (parseSuites k x d) := fun k x d =>
    (hgroup k x d).bind fun z => (hpairwise k z.1 z.2).bind fun z => (hkeyMgmt k z.1 z.2).bind fun z => hcapab z.1 z.2
  exact (hsuites (rsnKind b) x d).bind fun z => (hpmkids z.1 z.2).bind fun z => hmgmt z.1 z.2

/-- An element is well formed when its fields fit, end as they should and are allowed. -/
def Rsne.WellFormed (e : Rsne) (h : Head) : Prop := e.Fits ∧ e.Ends ∧ e.Allowed ∧ h.size + e.octets.length < 256

/-- The whole parser: header and fields. -/
theorem parse_ok_iff {ie : Bytes} : (parseHeader ie >>= fun z => parseRsnFields b z.1 z.2) = .ok (y, d) ↔
    ∃ (h : Head) (e : Rsne), e.WellFormed h ∧ ie = h.octets e.octets.length ++ e.octets ∧ y = e.rest ∧
      d = e.meaning b h.defaults := by
  simp only [bind_ok, parseHeader_ok, parseRsnFields_ok]
  constructor
  · rintro ⟨x, d₀, ⟨h, hlt, rfl, rfl⟩, e, hfit, hends, hallowed, rfl, rfl, rfl⟩
    exact ⟨h, e, ⟨hfit, hends, hallowed, hlt⟩, rfl, rfl, rfl⟩
  · rintro ⟨h, e, ⟨hfit, hends, hallowed, hlt⟩, rfl, rfl, rfl⟩
    exact ⟨e.octets, h.defaults, ⟨h, hlt, rfl, rfl⟩, e, hfit, hends, hallowed, rfl, rfl, rfl⟩

/-- A well formed element is read. -/
theorem parse_octets {h : Head} {e : Rsne} (hwf : e.WellFormed h) :
    wpaParseWpaIeRsn b (h.octets e.octets.length ++ e.octets) = (0, e.meaning b h.defaults) := by
  have hok := (parse_ok_iff (b := b)).2 ⟨h, e, hwf, rfl, rfl, rfl⟩
  unfold wpaParseWpaIeRsn
  exact congrArg Parsed.result hok

/-- **What is accepted** are the well formed elements, and the parser says what they mean. -/
theorem parse_eq_zero_iff (b : Build) (ie : Bytes) (d : WpaIeData) : wpaParseWpaIeRsn b ie = (0, d) ↔
    ∃ (h : Head) (e : Rsne), e.WellFormed h ∧ ie = h.octets e.octets.length ++ e.octets ∧
      d = e.meaning b h.defaults := by
  have hno : NoZero (parseHeader ie >>= fun z => parseRsnFields b z.1 z.2) :=
    (noZero_header ie).bind fun z => noZero_fields b z.1 z.2
  constructor
  · intro h
    obtain ⟨y, hy⟩ := hno.result_iff.1 h
    obtain ⟨head, e, hwf, hie, -, hd⟩ := parse_ok_iff.1 hy
    exact ⟨head, e, hwf, hie, hd⟩
  · rintro ⟨h, e, hwf, rfl, rfl⟩
    exact parse_octets hwf

end Lightguard.Rsn
