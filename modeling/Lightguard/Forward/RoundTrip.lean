import Lightguard.Auth.KeyState
import Lightguard.Fleet.Ports
import Lightguard.Forward.Server

/-!
# The round trip of an exported PTK

The 48 octets that `send_ptk_to_wifi` of the LiFi daemons writes, from the derivation to the handlers of
the WiFi daemons: hexadecimal digits in `ptk_receiver`, the `SYNC` line, the sender script, and what
`recv` returns of the line it has sent.

* `Relayed.beginning`: only a beginning of these digits arrives.
* `tcpPtk_relayed`: what is accepted is all 48 octets, for a cipher with a key of 16.
* `round_trip_iff`: when the keys that arrive are the ones that were derived.
-/

namespace Lightguard.Forward

open Lib (hexlify)
open Lib.Python (strip decode encode)
open Sync (newPtk syncMsg)
open Wpa Fleet

variable {nd : Char → Option ℕ} {data msg : Bytes} {buf q t : Text}

/-! ## From the receiver to the handler -/

/-- What a handler may read for these octets: the receiver has made hexadecimal digits of them, and the
script of the AP or, for the `SYNC` line, that of the STA has delivered them. Of the line and of what
the script sends any beginning may have arrived; no PTK of the STA's own has taken the message's place. -/
inductive Relayed (nd : Char → Option ℕ) (data : Bytes) (buf : Text) : Prop
  | ap (last : Option Text) (hex : Text) (a : SyncEnv) (d : Delivery)
      (hnew : newPtk last data = some hex)
      (hsent : (syncWithStaAndInstall nd hex a).2 = some d) (hread : buf <+: d.payload ++ ['\n'])
  | sta (last : Option Text) (hex : Text) (msg : Bytes) (x : ServeEnv) (d : Delivery)
      (hnew : newPtk last data = some hex) (hsync : msg <+: encode (syncMsg hex))
      (hheld : handed msg x = carried msg)
      (hsent : (serve nd msg x).delivered = some d) (hread : buf <+: d.payload ++ ['\n'])

/-- A beginning of the digits is made of digits. -/
theorem beginning_digits {b : Bytes} (hq : q <+: hexlify b) :
    ∀ c ∈ q, c ∈ "0123456789abcdefABCDEF".toList := by
  intro c hc
  exact hexlify_digits c (hq.subset hc)

/-- What the STA takes from a beginning of the `SYNC` line. -/
theorem carried_beginning (hm : msg <+: encode (syncMsg (hexlify data))) (hc : carried msg = some q) :
    q <+: hexlify data := by
  have hascii : ∀ c ∈ syncMsg (hexlify data), c.toNat < 128 := by
    intro c hmem
    simp only [Sync.syncMsg_append, List.mem_append] at hmem
    rcases hmem with hmem | hmem | hmem
    · have hall : "SYNC ".toList.all (·.toNat < 128) := by decide
      simpa using List.all_eq_true.1 hall c hmem
    · have hall : Lib.hexDigits.all (·.toNat < 128) := by decide
      simpa using List.all_eq_true.1 hall c (Lib.mem_hexlify hmem)
    · rw [List.mem_singleton.1 hmem]
      decide
  obtain ⟨u, hu, rfl⟩ := Lib.Python.encode_beginning hascii hm
  simp only [carried, Lib.Python.decode_encode, Option.bind_some] at hc
  split at hc
  · rename_i hsync
    obtain ⟨r, hr⟩ := hsync
    have hline := Sync.syncMsg_append (hexlify data)
    -- the text begins with the `S` of the line, so nothing is stripped there
    obtain ⟨a, b, hu', ha, -⟩ := Lib.strip_split Lib.Python.isspace u
    have ha : a = [] := by
      cases a with
      | nil => rfl
      | cons c a =>
        rw [hu', hline, List.append_assoc, List.cons_append] at hu
        obtain ⟨rfl, -⟩ := List.cons_prefix_cons.1 hu
        exact absurd (ha 'S' List.mem_cons_self) (by decide)
    have hr' : "SYNC ".toList ++ r <+: "SYNC ".toList ++ (hexlify data ++ ['\n']) := by
      rw [hr, ← hline]
      refine List.IsPrefix.trans ⟨b, ?_⟩ hu
      conv_rhs => rw [hu', ha, List.nil_append]
      rfl
    have hq : strip r = q := by
      rw [← hr] at hc
      exact Option.some.inj hc
    rw [← hq]
    rcases List.prefix_concat_iff.1 ((List.prefix_append_right_inj _).1 hr') with rfl | hpre
    · have hnl : strip (hexlify data ++ ['\n']) = hexlify data := by
        refine (Lib.strip_append_of_all fun c hc => ?_).trans (strip_digits hexlify_digits)
        rw [List.mem_singleton.1 hc]
        decide
      rw [hnl]
    · rwa [strip_digits (beginning_digits hpre)]
  · cases hc

/-- **Only a beginning of the digits arrives**, and perhaps the end of the line behind all of them. -/
theorem Relayed.beginning (h : Relayed nd data buf) :
    data.length = 48 ∧ ∃ q, q <+: hexlify data ∧ buf <+: q ++ ['\n'] := by
  cases h with
  | ap last hex a d hnew hsent hread =>
    obtain ⟨hlen, rfl⟩ := newPtk_eq hnew
    refine ⟨hlen, hexlify data, List.prefix_refl _, ?_⟩
    have hsend : (sendPtkToWifi nd .ap (hexlify data) a.script).2 = some d := by
      unfold syncWithStaAndInstall at hsent
      split at hsent
      · revert hsent
        cases sendPtkToWifi nd .ap (hexlify data) a.script with
        | mk o x => cases o <;> exact id
      · cases hsent
    rwa [delivered_digits hexlify_digits hsend] at hread
  | sta last hex msg x d hnew hsync hheld hsent hread =>
    obtain ⟨hlen, rfl⟩ := newPtk_eq hnew
    cases hq : handed msg x with
    | none =>
      rw [serve_none hq] at hsent
      cases hsent
    | some q =>
      have hpre := carried_beginning hsync (hheld.symm.trans hq)
      rw [(serve_some hq).1] at hsent
      rw [delivered_digits (beginning_digits hpre) hsent] at hread
      exact ⟨hlen, q, hpre, hread⟩

/-! ## What the handler accepts -/

variable {pw : Cipher} {got : Ptk}

theorem hexlify_lower (b : Bytes) : (hexlify b).map Char.toLower = hexlify b := by
  have hall : Lib.hexDigits.all fun c => c.toLower == c := by decide
  have hlower : ∀ c ∈ hexlify b, c.toLower = c := fun c hc =>
    eq_of_beq (List.all_eq_true.1 hall c (Lib.mem_hexlify hc))
  exact (List.map_congr_left hlower).trans (List.map_id _)

theorem hexlify_octets {a b : Bytes} (h : (hexlify a).map Char.toLower = hexlify b) : b = a := by
  have ha : hexstr2bin (hexlify a) = some a := hexstr2bin_iff.2 (hexlify_lower a)
  exact Option.some.inj ((hexstr2bin_iff.2 h).symm.trans ha)

/-- The digits of the 48 octets are a payload for a cipher with a key of 16 octets. -/
theorem tcpPtk_hexlify (hlen : data.length = 48) (hpw : pw.keyLen = 16) :
    tcpPtk pw (hexlify data) = some (ptkOfOctets 16 data) := by
  have hbody : PtkBody (32 + 16) (hexlify data) (hexlify data) :=
    ⟨[], [], rfl, nofun, .inl rfl, by rw [Lib.length_hexlify, hlen],
      isDigit_of_octets (hexlify_lower data)⟩
  have htrim : trimEnd (hexlify data) = hexlify data := by
    have hnil : ∀ c ∈ ([] : Text), isTrail c = true := nofun
    have := hbody.trimEnd (by decide) hnil
    rwa [List.append_nil] at this
  have hnul : '\x00' ∉ trimEnd (hexlify data) := by
    rw [htrim]
    exact ((ptkLine_iff (by decide)).2 (htrim.symm ▸ hbody)).not_nul
  have hvalid : pw.validPairwise = true := by
    revert hpw
    cases pw <;> decide
  rw [tcpPtk, if_pos hvalid, hpw, decodePtk_iff]
  exact ⟨_, data, by rwa [Text.cstr_of_not_mem hnul, htrim], hexlify_lower data, rfl⟩

/-- **What is accepted is all 48 octets**, for a cipher with a key of 16. -/
theorem tcpPtk_relayed (h : Relayed nd data buf) (hgot : tcpPtk pw buf = some got) :
    pw.keyLen = 16 ∧ got = ptkOfOctets 16 data := by
  obtain ⟨hlen, q, hq, hbuf⟩ := h.beginning
  have hhex : (hexlify data).length = 96 := by rw [Lib.length_hexlify, hlen]
  obtain ⟨hpos, -, -⟩ := tcpPtk_length hgot
  have hk : 16 ≤ pw.keyLen := by
    revert hpos
    cases pw <;> decide
  have hdec : decodePtk pw.keyLen buf = some got := by
    unfold tcpPtk at hgot
    split at hgot
    · exact hgot
    · cases hgot
  obtain ⟨hex, b, ⟨blanks, mark, hcut, -, -, hn, -⟩, hb, rfl⟩ := decodePtk_iff.1 hdec
  have hpre : blanks ++ (mark ++ hex) <+: hexlify data :=
    hcut ▸ (List.takeWhile_prefix _).trans ((trimEnd_le hbuf).trans hq)
  have hle := hpre.length_le
  simp only [List.length_append] at hle
  have hk16 : pw.keyLen = 16 := by omega
  have hall : blanks ++ (mark ++ hex) = hexlify data := by
    refine hpre.eq_of_length ?_
    simp only [List.length_append]
    omega
  obtain rfl : blanks = [] := List.eq_nil_of_length_eq_zero (by omega)
  obtain rfl : mark = [] := List.eq_nil_of_length_eq_zero (by omega)
  rw [List.nil_append, List.nil_append] at hall
  subst hall
  rw [hk16, hexlify_octets hb]
  exact ⟨rfl, rfl⟩

/-! ## The fields -/

/-- The keys of two PTKs are the same. -/
structure SameKeys (a b : Ptk) : Prop where
  kck : a.kck = b.kck
  kek : a.kek = b.kek
  tk : a.tk = b.tk

/-- The keys that a handler installs from these octets are the ones of the PTK. -/
def RoundTrips (nd : Char → Option ℕ) (data : Bytes) (ptk : Ptk) (pw : Cipher) : Prop :=
  ∀ buf, Relayed nd data buf →
    (∀ c e s got ok, s.neg.pairwise = pw →
      ApHands s (Auth.wpaAuthInstallCustomPtkCb c e buf s) got ok → SameKeys got ptk) ∧
    ∀ e s got ok, s.par.pairwiseCipher = pw →
      StaHands s (Supp.wpaSmPtkTcpHandler e buf s) got ok → SameKeys got ptk

/-- Something always gets through: the digits themselves, on the AP. -/
theorem relayed_hexlify (nd : Char → Option ℕ) (hlen : data.length = 48) :
    Relayed nd data (hexlify data) := by
  have hnul : '\x00' ∉ hexlify data := by
    intro h
    exact absurd (Lib.mem_hexlify h) (by decide)
  have hspent : envUp.spent Role.ap.defaults ≤ runTimeout := by decide
  have htries : 0 < Role.ap.defaults.retry.toNat := by decide
  have hdel : Delivers nd .ap (hexlify data) envUp :=
    ⟨⟨rfl, rfl, hnul⟩, _, parse_ptk .ap (digits_not_dash hexlify_digits), ⟨0, htries, rfl⟩, hspent⟩
  obtain ⟨d, hd⟩ := Option.isSome_iff_exists.1 (send_delivers.2 hdel)
  have hpay : d.payload = hexlify data := delivered_digits hexlify_digits hd
  have hconf : { syncDown with script := envUp }.confirmed = true := by
    simp only [SyncEnv.confirmed, syncDown, Option.bind_some, Lib.Python.decode_encode]
    rfl
  refine .ap none (hexlify data) { syncDown with script := envUp } d ?_ ?_ ?_
  · rw [newPtk, if_pos ⟨hlen, (by rintro ⟨⟩)⟩]
  · rw [syncWithStaAndInstall, if_pos hconf]
    revert hd
    show (sendPtkToWifi nd .ap (hexlify data) envUp).2 = some d → _
    cases sendPtkToWifi nd .ap (hexlify data) envUp with
    | mk o x => cases o <;> exact id
  · rw [hpay]
    exact List.prefix_append _ _

/-- They are accepted, and cut as the handlers do. -/
theorem RoundTrips.same {ptk : Ptk} (h : RoundTrips nd data ptk pw) (hlen : data.length = 48)
    (hpw : pw.keyLen = 16) : SameKeys (ptkOfOctets 16 data) ptk :=
  (h _ (relayed_hexlify nd hlen)).1 (Link.plainConf .wifi).ap Auth.calm (Link.apWith pw) _ true rfl
    (apHands _ _ (tcpPtk_hexlify hlen hpw))

/-- What is pushed, and how long its parts are. -/
theorem pushed_eq {P : Prims} {ret : Bool} {k : KeyMgmt} {p : Cipher} {a b : Addr}
    {pmk n m : Bytes} {e : DeriveEnv}
    (h : (wpaPmkToPtk P .lifi ret k p a b pmk n m e).pushed = some data) :
    data = (ptkTmp P k p a b pmk n m).take 48 ∧
      (wpaPmkToPtk P .lifi ret k p a b pmk n m e).ptk = ptkOf P k p a b pmk n m ∧
      16 ≤ k.kckLen pmk.length ∧ 16 ≤ k.kekLen pmk.length ∧ 16 ≤ p.keyLen := by
  unfold wpaPmkToPtk at h ⊢
  by_cases hfail : pmk = [] ∨ p.keyLen = 0 ∨ !k.prfFor pmk.length
  · rw [if_pos hfail] at h
    cases h
  rw [if_neg hfail] at h ⊢
  simp only [not_or, Bool.not_eq_true, Bool.not_eq_false'] at hfail
  obtain ⟨-, hp, hprf⟩ := hfail
  refine ⟨?_, rfl, KeyMgmt.le_kckLen hprf, k.le_kekLen _, ?_⟩
  · simp only at h
    split at h
    · exact (Option.some.inj h).symm
    · cases h
  · revert hp
    cases p <;> decide

/-- **The round trip.** For every suite, LiFi cipher and derivation whose octets are pushed, and for
every WiFi cipher: whatever the handlers accept of them gives the derived keys, exactly when the WiFi
cipher's key has another length than 16 octets, so that nothing is accepted, or the derived KCK, KEK
and TK have 16 octets each. -/
theorem round_trip_iff (nd : Char → Option ℕ) {P : Prims} (hP : P.Exact) {ret : Bool} {k : KeyMgmt}
    {p : Cipher} {a b : Addr} {pmk n m : Bytes} {e : DeriveEnv}
    (h : (wpaPmkToPtk P .lifi ret k p a b pmk n m e).pushed = some data) (pw : Cipher) :
    RoundTrips nd data (wpaPmkToPtk P .lifi ret k p a b pmk n m e).ptk pw ↔
      (pw.keyLen = 16 → k.kckLen pmk.length = 16 ∧ k.kekLen pmk.length = 16 ∧ p.keyLen = 16) := by
  obtain ⟨hdata, hptk, h1, h2, h3⟩ := pushed_eq h
  have htmp : (ptkTmp P k p a b pmk n m).length =
      k.kckLen pmk.length + k.kekLen pmk.length + p.keyLen := hP _ _ _
  have hlen : data.length = 48 := by
    rw [hdata, List.length_take, htmp]
    omega
  rw [hptk]
  constructor
  · intro hr hpw
    have hsame := hr.same hlen hpw
    have hkck := congrArg List.length hsame.kck
    have hkek := congrArg List.length hsame.kek
    have htk := congrArg List.length hsame.tk
    simp only [ptkOfOctets, ptkOf, List.length_take, List.length_drop, hlen, htmp] at hkck hkek htk
    omega
  · intro hw buf hbuf
    have hkeys : pw.keyLen = 16 → SameKeys (ptkOfOctets 16 data) (ptkOf P k p a b pmk n m) := by
      intro hpw
      obtain ⟨g1, g2, g3⟩ := hw hpw
      subst hdata
      simp only [ptkOf, g1, g2, g3]
      exact ⟨by simp [ptkOfOctets, List.take_take], by simp [ptkOfOctets, List.drop_take, List.take_take],
        by simp [ptkOfOctets, List.drop_take, List.take_take]⟩
    constructor
    · rintro c e s got ok rfl hh
      obtain ⟨hpw, rfl⟩ := tcpPtk_relayed hbuf (tcpPtk_of_ap hh)
      exact hkeys hpw
    · rintro e s got ok rfl hh
      obtain ⟨ptk, htcp, g1, g2, g3⟩ := tcpPtk_of_sta hh
      obtain ⟨hpw, rfl⟩ := tcpPtk_relayed hbuf htcp
      have := hkeys hpw
      exact ⟨g1.trans this.kck, g2.trans this.kek, g3.trans this.tk⟩

/-- A derivation of the LiFi handshake for this cipher. -/
def plainDerived (p : Cipher) : Derived :=
  wpaPmkToPtk Auth.longPrims .lifi true .psk p Addr.first Addr.second
    plainPmk.1 (List.replicate 32 7) (List.replicate 32 9) ⟨true, 0⟩

/-- `round_trip_iff` for CCMP on both links. -/
theorem round_trip_ccmp : RoundTrips asciiOnly plainPtk (plainDerived .ccmp).ptk .ccmp :=
  (round_trip_iff asciiOnly Auth.longPrims_exact rfl .ccmp).2 fun _ => ⟨rfl, rfl, rfl⟩

/-- With TKIP on the LiFi link half of the TK is pushed, and taken for a CCMP key on the WiFi link. -/
theorem round_trip_short : (plainDerived .tkip).pushed = some plainPtk ∧
    ¬ RoundTrips asciiOnly plainPtk (plainDerived .tkip).ptk .ccmp := by
  refine ⟨rfl, ?_⟩
  intro h
  have := congrArg List.length (h.same rfl rfl).tk
  exact absurd this (by decide +kernel)

end Lightguard.Forward
