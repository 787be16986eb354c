import Lightguard.Lib.Tlv
import Lightguard.Wpa.Common

/-!
# The elements in the key data of EAPOL-Key frames

`wpa_add_kde`, and `wpa_parse_kde_ies` with `wpa_parse_generic` and `wpa_parse_vendor_specific`
(`wpa_common.c`; the four copies are the same). A pointer into a buffer is the list of the octets from there
to its end, and a read behind the end has no result.

* `wpaParseKdeIes_eq`: the parser reads nothing outside the buffer, and what it finds is what is in the
  complete elements before the end mark.
* `wpaParseKdeIes_encode`: elements that were put together are parsed again, with padding or without.
-/

namespace Lightguard.Wire

open Lib.Tlv (Elem encode split)

/-- The pointers in `struct wpa_eapol_ie_parse`. -/
inductive Field where
  | wpaIe | rsnIe | pmkid | keyId | gtk | macAddr | igtk | bigtk | mdie | ftie | ipAddrReq | ipAddrAlloc
  | transitionDisable | dppKde | oci | osen | rsnxe | reassocDeadline | keyLifetime | lnkid | extCapab
  | suppRates | extSuppRates | htCapabilities | vhtCapabilities | heCapabilities | he6ghzCapabilities
  | suppChannels | suppOperClasses | qosinfo | aid | wmm
deriving DecidableEq

/-- `struct wpa_eapol_ie_parse`: the octets each member points to. `qosinfo` and `aid`, which are numbers
in the source, are the octets they are read from. -/
abbrev IeParse := Field → Option Bytes

/-- After `os_memset(.., 0, ..)`. -/
def IeParse.empty : IeParse := fun _ => none

/-- `n` octets of the buffer from `p + off` on; `none` when they are not all in the buffer. -/
def readOctets (p : Bytes) (off n : ℕ) : Option Bytes :=
  if off + n ≤ p.length then some ((p.drop off).take n) else none

/-- A branch of the parser: which elements it is about, and what its member points to. -/
structure Rule where
  field : Field
  id : UInt8
  /-- The bounds for `pos[1]`. -/
  min : ℕ
  max : ℕ
  /-- What the octets of the element are compared with, and where. -/
  tests : List (ℕ × Bytes)
  /-- Where the member points to. -/
  start : ℕ
  /-- How many octets are there; `none`: the rest of the element. -/
  length : Option ℕ
deriving DecidableEq

/-- `wpa_parse_generic`: the selectors it knows, in its order. -/
def kdeRules : List Rule :=
  [⟨.wpaIe, 0xdd, 6, 255, [(2, [0x00, 0x50, 0xf2, 1]), (6, [1]), (7, [0])], 0, none⟩,
   ⟨.osen, 0xdd, 4, 255, [(2, [0x50, 0x6f, 0x9a, 0x12])], 0, none⟩,
   ⟨.pmkid, 0xdd, 20, 255, [(2, [0x00, 0x0f, 0xac, 4])], 6, some 16⟩,
   ⟨.keyId, 0xdd, 6, 255, [(2, [0x00, 0x0f, 0xac, 10])], 6, some 2⟩,
   ⟨.gtk, 0xdd, 7, 255, [(2, [0x00, 0x0f, 0xac, 1])], 6, none⟩,
   ⟨.macAddr, 0xdd, 7, 255, [(2, [0x00, 0x0f, 0xac, 3])], 6, none⟩,
   ⟨.igtk, 0xdd, 7, 255, [(2, [0x00, 0x0f, 0xac, 9])], 6, none⟩,
   ⟨.bigtk, 0xdd, 7, 255, [(2, [0x00, 0x0f, 0xac, 14])], 6, none⟩,
   ⟨.ipAddrReq, 0xdd, 5, 255, [(2, [0x50, 0x6f, 0x9a, 4])], 6, some 1⟩,
   ⟨.ipAddrAlloc, 0xdd, 16, 255, [(2, [0x50, 0x6f, 0x9a, 5])], 6, some 12⟩,
   ⟨.oci, 0xdd, 7, 255, [(2, [0x00, 0x0f, 0xac, 13])], 6, none⟩,
   ⟨.transitionDisable, 0xdd, 5, 255, [(2, [0x50, 0x6f, 0x9a, 0x20])], 6, none⟩,
   ⟨.dppKde, 0xdd, 6, 255, [(2, [0x50, 0x6f, 0x9a, 0x21])], 6, none⟩]

/-- The other elements of `wpa_parse_kde_ies`, in its order. -/
def ieRules : List Rule :=
  [⟨.rsnIe, 48, 0, 255, [], 0, none⟩,
   ⟨.rsnxe, 244, 0, 255, [], 0, none⟩,
   ⟨.mdie, 54, 0, 255, [], 0, none⟩,
   ⟨.ftie, 55, 0, 255, [], 0, none⟩,
   ⟨.reassocDeadline, 56, 5, 255, [(2, [1])], 0, none⟩,
   ⟨.keyLifetime, 56, 5, 255, [(2, [2])], 0, none⟩,
   ⟨.lnkid, 101, 18, 255, [], 0, none⟩,
   ⟨.extCapab, 127, 0, 255, [], 0, none⟩,
   ⟨.suppRates, 1, 0, 255, [], 0, none⟩,
   ⟨.extSuppRates, 50, 0, 255, [], 0, none⟩,
   ⟨.htCapabilities, 45, 26, 255, [], 2, some 26⟩,
   ⟨.aid, 197, 2, 255, [], 2, some 2⟩,
   ⟨.vhtCapabilities, 191, 12, 255, [], 2, some 12⟩,
   ⟨.heCapabilities, 255, 18, 255, [(2, [35])], 3, none⟩,
   ⟨.he6ghzCapabilities, 255, 3, 255, [(2, [59])], 3, some 2⟩,
   ⟨.qosinfo, 46, 1, 255, [], 2, some 1⟩,
   ⟨.suppChannels, 36, 0, 255, [], 2, none⟩,
   ⟨.suppOperClasses, 59, 2, 253, [], 2, none⟩]

/-- The comparisons of a branch, from the first to the last. -/
def testOctets (p : Bytes) : List (ℕ × Bytes) → Option Bool
  | [] => some true
  | (off, b) :: l =>
    match readOctets p off b.length with
    | none => none
    | some r => if r = b then testOctets p l else some false

/-- The condition of a branch for the element at `p`. -/
def Rule.applies (r : Rule) (p : Bytes) : Option Bool :=
  match p[0]?, p[1]? with
  | some id, some len =>
    if id = r.id ∧ r.min ≤ len.toNat ∧ len.toNat ≤ r.max then testOctets p r.tests else some false
  | _, _ => none

/-- What the member of the branch points to. -/
def Rule.points (r : Rule) (p : Bytes) : Option Bytes :=
  p[1]?.bind fun len => readOctets p r.start (r.length.getD (2 + len.toNat - r.start))

/-- The first branch whose condition holds; `false` when there is none. -/
def tryRules (p : Bytes) (ie : IeParse) : List Rule → Option (Bool × IeParse)
  | [] => some (false, ie)
  | r :: l =>
    match r.applies p with
    | none => none
    | some false => tryRules p ie l
    | some true => (r.points p).map fun b => (true, Function.update ie r.field (some b))

/-- `wpa_parse_generic`: 1 for the end mark, 2 for what it does not know. -/
def wpaParseGeneric (p : Bytes) (ie : IeParse) : Option (ℕ × IeParse) :=
  p[1]?.bind fun len =>
    if len = 0 then some (1, ie) else (tryRules p ie kdeRules).map fun r => (if r.1 then 0 else 2, r.2)

/-- What `wpa_parse_vendor_specific` compares before it looks at the subtype: the OUI of WMM, and its type. -/
def wmmTests : List (ℕ × Bytes) := [(2, [0x00, 0x50, 0xf2]), (5, [2])]

/-- `wpa_parse_vendor_specific`. -/
def wpaParseVendorSpecific (p : Bytes) (ie : IeParse) : Option IeParse :=
  p[1]?.bind fun len =>
    if len < 4 then some ie
    else (testOctets p wmmTests).bind fun wmm =>
      if wmm ∧ 4 < len then p[6]?.bind fun subtype =>
        if subtype = 0 ∨ subtype = 1 then
          (readOctets p 2 len.toNat).map fun b => Function.update ie .wmm (some b)
        else some ie
      else some ie

/-- The element at `p`, and whether it is the end mark. -/
def parseElement (p : Bytes) (ie : IeParse) : Option (Bool × IeParse) :=
  if p[0]? = some 0xdd then
    (wpaParseGeneric p ie).bind fun r =>
      if r.1 = 1 then some (true, r.2)
      else if r.1 = 2 then (wpaParseVendorSpecific p r.2).map (false, ·)
      else some (false, r.2)
  else (tryRules p ie ieRules).map fun r => (false, r.2)

/-- The loop of `wpa_parse_kde_ies`. -/
def parseFrom (p : Bytes) (ie : IeParse) : Option (ℤ × IeParse) :=
  match p with
  | id :: len :: rest =>
    if id = 0xdd ∧ len = 0 then some (0, ie)
    else if rest.length < len.toNat then some (-1, ie)
    else match parseElement (id :: len :: rest) ie with
      | none => none
      | some (true, ie) => some (0, ie)
      | some (false, ie) => parseFrom (rest.drop len.toNat) ie
  | _ => some (0, ie)
termination_by p.length
decreasing_by
  simp only [List.length_drop, List.length_cons]
  omega

/-- `wpa_parse_kde_ies`: what it returns and the members; `none` when it reads outside the buffer. -/
def wpaParseKdeIes (buf : Bytes) : Option (ℤ × IeParse) := parseFrom buf .empty

/-! ## What the parser finds -/

/-- The condition of a branch, for an element. -/
def Rule.holds (r : Rule) (e : Elem) : Bool :=
  e.id = r.id && r.min ≤ e.body.length && e.body.length ≤ r.max &&
    r.tests.all fun t => (e.octets.drop t.1).take t.2.length == t.2

/-- What the member of a branch points to in an element. -/
def Rule.value (r : Rule) (e : Elem) : Bytes :=
  (e.octets.drop r.start).take (r.length.getD (2 + e.body.length - r.start))

/-- The first branch for an element sets its member. -/
def applyRules (rules : List Rule) (ie : IeParse) (e : Elem) : Option IeParse :=
  (rules.find? (·.holds e)).map fun r => Function.update ie r.field (some (r.value e))

/-- The element is one of WMM. -/
def isWmm (e : Elem) : Bool :=
  5 ≤ e.body.length && e.body.take 4 == [0x00, 0x50, 0xf2, 2] && (e.body[4]? == some 0 || e.body[4]? == some 1)

/-- What an element adds to the members. -/
def absorb (ie : IeParse) (e : Elem) : IeParse :=
  if e.id = 0xdd then
    (applyRules kdeRules ie e).getD (if isWmm e then Function.update ie .wmm (some e.body) else ie)
  else (applyRules ieRules ie e).getD ie

/-- The end mark, with which padding starts. -/
def endMark (e : Elem) : Bool := e.id == 0xdd && e.body.isEmpty

/-- A branch looks at nothing behind the shortest element it is about. -/
def Rule.Inside (r : Rule) : Prop :=
  (∀ t ∈ r.tests, t.1 + t.2.length ≤ 2 + r.min) ∧ r.start ≤ 2 + r.min ∧ ∀ n ∈ r.length, r.start + n ≤ 2 + r.min

instance (r : Rule) : Decidable r.Inside := inferInstanceAs (Decidable (_ ∧ _ ∧ _))

theorem kdeRules_inside : ∀ r ∈ kdeRules, r.Inside := by decide

theorem ieRules_inside : ∀ r ∈ ieRules, r.Inside := by decide

variable {e : Elem} {q : Bytes} {ie : IeParse}

/-- Reading within an element, whatever comes behind it. -/
theorem readOctets_append {off n : ℕ} (h : off + n ≤ e.octets.length) :
    readOctets (e.octets ++ q) off n = some ((e.octets.drop off).take n) := by
  rw [readOctets, if_pos (by rw [List.length_append]; omega), List.drop_append_of_le_length (by omega),
    List.take_append_of_le_length (by rw [List.length_drop]; omega)]

theorem testOctets_append {l : List (ℕ × Bytes)} (h : ∀ t ∈ l, t.1 + t.2.length ≤ e.octets.length) :
    testOctets (e.octets ++ q) l = some (l.all fun t => (e.octets.drop t.1).take t.2.length == t.2) := by
  induction l with
  | nil => rfl
  | cons t l ih =>
    rw [testOctets, readOctets_append (h t List.mem_cons_self), List.all_cons]
    simp only
    split
    · rename_i heq
      rw [ih fun t ht => h t (List.mem_cons_of_mem _ ht), heq]
      simp
    · rename_i hne
      simp [hne]

theorem Rule.applies_append {r : Rule} (hr : r.Inside) : r.applies (e.octets ++ q) = some (r.holds e) := by
  have hid : (e.octets ++ q)[0]? = some e.id := rfl
  have hlen : (e.octets ++ q)[1]? = some (UInt8.ofNat e.body.length) := rfl
  rw [Rule.applies, hid, hlen]
  simp only [e.length_toNat]
  split
  · rename_i h
    rw [testOctets_append fun t ht => (hr.1 t ht).trans (by rw [Elem.length_octets]; omega)]
    simp [Rule.holds, h]
  · rename_i h
    congr 1
    simp only [Rule.holds]
    symm
    simp only [Bool.and_eq_false_iff, decide_eq_false_iff_not]
    tauto

theorem Rule.points_append {r : Rule} (hr : r.Inside) (he : r.holds e = true) :
    r.points (e.octets ++ q) = some (r.value e) := by
  have hlen : (e.octets ++ q)[1]? = some (UInt8.ofNat e.body.length) := rfl
  have hmin : r.min ≤ e.body.length := by
    simp only [Rule.holds, Bool.and_eq_true, decide_eq_true_eq] at he
    exact he.1.1.2
  obtain ⟨-, hstart, hend⟩ := hr
  rw [Rule.points, hlen, Option.bind_some, e.length_toNat, Rule.value]
  refine readOctets_append ?_
  rw [Elem.length_octets]
  cases hn : r.length with
  | none => simp only [Option.getD_none]; omega
  | some n =>
    have := hend n hn
    simp only [Option.getD_some]
    omega

/-- **The branches** see the element and nothing behind it. -/
theorem tryRules_append {rules : List Rule} (h : ∀ r ∈ rules, r.Inside) :
    tryRules (e.octets ++ q) ie rules =
      some ((applyRules rules ie e).isSome, (applyRules rules ie e).getD ie) := by
  induction rules with
  | nil => rfl
  | cons r rules ih =>
    have hr := h r List.mem_cons_self
    rw [tryRules, Rule.applies_append hr, applyRules, List.find?_cons]
    cases he : r.holds e with
    | true => simp only [Rule.points_append hr he]; rfl
    | false => exact ih fun r hr => h r (List.mem_cons_of_mem _ hr)

theorem wmmTests_all : (wmmTests.all fun t => (e.octets.drop t.1).take t.2.length == t.2) =
    (e.body.take 4 == [0x00, 0x50, 0xf2, 2]) := by
  rw [Bool.eq_iff_iff]
  simp only [wmmTests, Elem.octets, List.all_cons, List.all_nil, Bool.and_true, Bool.and_eq_true,
    beq_iff_eq, List.drop_succ_cons, List.drop_zero, List.length_cons, List.length_nil]
  constructor
  · rintro ⟨h1, h2⟩
    rw [show 4 = 0 + 1 + 1 + 1 + 1 from rfl, List.take_add, h1]
    exact congrArg _ h2
  · intro h
    have h1 := congrArg (List.take 3) h
    have h2 := congrArg (List.drop 3) h
    rw [List.take_take] at h1
    rw [List.drop_take] at h2
    exact ⟨h1, h2⟩

theorem wpaParseVendorSpecific_append :
    wpaParseVendorSpecific (e.octets ++ q) ie =
      some (if isWmm e then Function.update ie .wmm (some e.body) else ie) := by
  have hlen : (e.octets ++ q)[1]? = some (UInt8.ofNat e.body.length) := rfl
  have htoNat := e.length_toNat
  have hoctets := e.length_octets
  rw [wpaParseVendorSpecific, hlen, Option.bind_some]
  split
  · rename_i h4
    have : e.body.length < 4 := by
      rw [UInt8.lt_iff_toNat_lt, htoNat] at h4
      exact h4
    rw [if_neg (by simp only [isWmm, Bool.and_eq_true, decide_eq_true_eq]; omega)]
  · rename_i h4
    have hge : 4 ≤ e.body.length := by
      rw [UInt8.lt_iff_toNat_lt, htoNat] at h4
      exact not_lt.1 h4
    have h5 : 4 < UInt8.ofNat e.body.length ↔ 5 ≤ e.body.length := by
      rw [UInt8.lt_iff_toNat_lt, htoNat]
      rfl
    rw [testOctets_append (by simp [wmmTests]; omega), Option.bind_some, wmmTests_all]
    by_cases hwmm : (e.body.take 4 == [0x00, 0x50, 0xf2, 2]) = true ∧ 5 ≤ e.body.length
    · obtain ⟨hw, hlt⟩ := hwmm
      have hsub : (e.octets ++ q)[6]? = e.body[4]? := List.getElem?_append_left (by omega)
      have hget := List.getElem?_eq_getElem (show 4 < e.body.length from hlt)
      rw [if_pos ⟨hw, h5.2 hlt⟩, hsub, hget, Option.bind_some, htoNat, readOctets_append (by omega)]
      simp only [isWmm, hw, hlt, hget, Elem.octets, Option.map_some]
      split <;> simp_all
    · rw [if_neg fun h => hwmm ⟨h.1, h5.1 h.2⟩, if_neg fun h => hwmm ?_]
      simp only [isWmm, Bool.and_eq_true, decide_eq_true_eq] at h
      exact ⟨h.1.2, h.1.1⟩

/-- **An element** that is no end mark is absorbed. -/
theorem parseElement_append (he : endMark e = false) :
    parseElement (e.octets ++ q) ie = some (false, absorb ie e) := by
  have hid : (e.octets ++ q)[0]? = some e.id := rfl
  have hlen : (e.octets ++ q)[1]? = some (UInt8.ofNat e.body.length) := rfl
  rw [parseElement, hid, absorb]
  by_cases hdd : e.id = 0xdd
  · have hne : UInt8.ofNat e.body.length ≠ 0 := by
      intro h0
      have := e.length_toNat
      rw [h0] at this
      simp [endMark, hdd, List.eq_nil_of_length_eq_zero this.symm] at he
    rw [if_pos (congrArg some hdd), if_pos hdd, wpaParseGeneric, hlen, Option.bind_some, if_neg hne,
      tryRules_append kdeRules_inside, Option.map_some, Option.bind_some]
    cases applyRules kdeRules ie e with
    | none => simp [wpaParseVendorSpecific_append]
    | some ie' => simp
  · rw [if_neg (mt Option.some.inj hdd), if_neg hdd, tryRules_append ieRules_inside]
    rfl

/-- One turn of the loop. -/
theorem parseFrom_cons (he : endMark e = false) (q : Bytes) (ie : IeParse) :
    parseFrom (e.octets ++ q) ie = parseFrom q (absorb ie e) := by
  have hparse : parseElement (e.octets ++ q) ie = some (false, absorb ie e) := parseElement_append he
  have hmark : ¬ (e.id = 0xdd ∧ UInt8.ofNat e.body.length = 0) := by
    rintro ⟨hid, h0⟩
    have hlen := e.length_toNat
    rw [h0] at hlen
    simp [endMark, hid, List.eq_nil_of_length_eq_zero hlen.symm] at he
  rw [Elem.octets, List.cons_append, List.cons_append] at hparse ⊢
  rw [parseFrom, if_neg hmark, e.length_toNat, if_neg (by simp), hparse]
  simp

theorem parseFrom_endMark (he : endMark e = true) (q : Bytes) (ie : IeParse) :
    parseFrom (e.octets ++ q) ie = some (0, ie) := by
  obtain ⟨id, body, short⟩ := e
  simp only [endMark, Bool.and_eq_true, beq_iff_eq, List.isEmpty_iff] at he
  obtain ⟨rfl, rfl⟩ := he
  rw [Elem.octets, List.cons_append, List.cons_append, parseFrom, if_pos ⟨rfl, rfl⟩]

/-- What is left behind the complete elements. -/
theorem parseFrom_rest {r : Bytes} (hr : (split r).1 = []) (ie : IeParse) :
    parseFrom r ie = some (if 2 ≤ r.length then -1 else 0, ie) := by
  match r with
  | [] => simp [parseFrom]
  | [_] => simp [parseFrom]
  | id :: len :: rest =>
    have hlt : rest.length < len.toNat := by
      rw [split] at hr
      split at hr
      · cases hr
      · omega
    have hmark : ¬ (id = 0xdd ∧ len = 0) := by
      rintro ⟨-, rfl⟩
      exact absurd hlt (Nat.not_lt_zero _)
    rw [parseFrom, if_neg hmark, if_pos hlt, if_pos (by simp)]

theorem parseFrom_encode (l : List Elem) {r : Bytes} (hr : (split r).1 = []) (ie : IeParse) :
    parseFrom (encode l ++ r) ie =
      some (if !l.any endMark ∧ 2 ≤ r.length then -1 else 0, (l.takeWhile (!endMark ·)).foldl absorb ie) := by
  induction l generalizing ie with
  | nil => simpa using parseFrom_rest hr ie
  | cons e l ih =>
    rw [Lib.Tlv.encode_cons, List.append_assoc]
    cases he : endMark e with
    | true => simp [parseFrom_endMark he, he]
    | false => simp [parseFrom_cons he, ih, he]

/-- The complete elements before the end mark. -/
def found (buf : Bytes) : List Elem := (split buf).1.takeWhile (!endMark ·)

/-- There is no end mark, and the octets end within an element. -/
def CutShort (buf : Bytes) : Prop := (split buf).1.any endMark = false ∧ 2 ≤ (split buf).2.length

instance (buf : Bytes) : Decidable (CutShort buf) := inferInstanceAs (Decidable (_ ∧ _))

/-- **What the parser does** with any octets: it reads none outside the buffer, each member is as the
complete elements before the end mark have left it, and the parser fails exactly when the octets end within
an element. -/
theorem wpaParseKdeIes_eq (buf : Bytes) :
    wpaParseKdeIes buf = some (if CutShort buf then -1 else 0, (found buf).foldl absorb .empty) := by
  have h := parseFrom_encode (split buf).1 (Lib.Tlv.split_rest buf) .empty
  rw [Lib.Tlv.encode_split] at h
  rw [wpaParseKdeIes, h]
  simp [CutShort, found]

/-- What `__wpa_send_eapol` fills the key data up with. -/
def padding : ℕ → Bytes
  | 0 => []
  | k + 1 => 0xdd :: List.replicate k 0

theorem parseFrom_padding (k : ℕ) (ie : IeParse) : parseFrom (padding k) ie = some (0, ie) := by
  match k with
  | 0 => simp [padding, parseFrom]
  | 1 => simp [padding, parseFrom]
  | k + 2 => simp [padding, List.replicate_succ, parseFrom]

/-- Elements without an end mark are taken one after the other. -/
theorem parseFrom_append {l : List Elem} (hl : l.any endMark = false) (r : Bytes) (ie : IeParse) :
    parseFrom (encode l ++ r) ie = parseFrom r (l.foldl absorb ie) := by
  induction l generalizing ie with
  | nil => rfl
  | cons e l ih =>
    rw [List.any_cons, Bool.or_eq_false_iff] at hl
    rw [Lib.Tlv.encode_cons, List.append_assoc, parseFrom_cons hl.1, ih hl.2, List.foldl_cons]

/-- **Elements that were put together** are parsed again, with or without padding behind them. -/
theorem wpaParseKdeIes_encode (l : List Elem) (k : ℕ) (hl : l.any endMark = false) :
    wpaParseKdeIes (encode l ++ padding k) = some (0, l.foldl absorb .empty) := by
  rw [wpaParseKdeIes, parseFrom_append hl, parseFrom_padding]

end Lightguard.Wire
