import Lightguard.Rotation.Listener
import Lightguard.Rotation.Manager

/-!
# What an acknowledged rotation guarantees

* `ack_applied_iff`: when an acknowledgement means that the setter accepted exactly the
  passphrase sent. The setter refuses 64 octets and a missing `wpa_sm`, and nothing on
  the way back reports it.
* `rotation_agree_iff`: when the setptk line gives hostapd the PSK of the string the STA
  derives its next PMK from. The listener wants 8 to 63 octets and stops at a newline.
-/

namespace Lightguard.Rotation

variable {sha256 : Text → Text} {p : Text}

/-- The setter returned 0 for `p` on the state before, and the state when the STA replies
still holds `p` for the next message 1/4. -/
def Applied (p : Text) (wpa wpa' : Option LifiPass) : Prop :=
  (∃ sm ∈ wpa, (wpaSmSetPassphrase sm p).isSome) ∧
    ∃ sm' ∈ wpa', sm'.lifiPassphrase = p ∧ sm'.lifiPassphraseValid = true

/-- Messages 1/4 leave a stored passphrase alone only when there is no SSID. -/
theorem afterMsg1_iterate {sm : LifiPass} (hv : sm.lifiPassphraseValid = true) (gap : ℕ) :
    (∃ sm' ∈ (Option.map afterMsg1)^[gap] (some sm), sm'.lifiPassphraseValid = true) ↔
      gap = 0 ∨ sm.ssid = [] := by
  by_cases hs : sm.ssid = []
  · have hfix : Option.map afterMsg1 (some sm) = some sm := by simp [afterMsg1, hs]
    rw [Function.iterate_fixed hfix]
    simp [hv, hs]
  · cases gap with
    | zero => simp [hv]
    | succ n =>
      have h1 : Option.map afterMsg1 (some sm) = some { sm with lifiPassphraseValid := false } := by
        simp [afterMsg1, hv, hs]
      have hfix : Option.map afterMsg1 (some { sm with lifiPassphraseValid := false }) =
          some { sm with lifiPassphraseValid := false } := by simp [afterMsg1]
      rw [Function.iterate_succ_apply, h1, Function.iterate_fixed hfix]
      simp [hs]

/-- The setter's string survives any number of messages 1/4. -/
theorem afterMsg1_passphrase {sm sm' : LifiPass} {gap : ℕ}
    (h : sm' ∈ (Option.map afterMsg1)^[gap] (some sm)) :
    sm'.lifiPassphrase = sm.lifiPassphrase := by
  induction gap generalizing sm with
  | zero => simp only [Function.iterate_zero, id_eq, Option.mem_some_iff] at h; rw [h]
  | succ n ih =>
    rw [Function.iterate_succ_apply, Option.map_some] at h
    rw [ih h, afterMsg1]
    split <;> rfl

/-- An exchange leaves `p` applied exactly when the setter takes it and no message 1/4
spends it before the reply. -/
theorem applied_iff (p : Text) (wpa : Option LifiPass) (gap : ℕ) :
    Applied p wpa ((Option.map afterMsg1)^[gap]
        ((wpa.bind fun sm => wpaSmSetPassphrase sm p).or wpa)) ↔
      ∃ sm ∈ wpa, p.length ≤ 63 ∧ (gap = 0 ∨ sm.ssid = []) := by
  cases wpa with
  | none => simp [Applied]
  | some sm =>
    by_cases hlen : 64 ≤ p.length
    · simp [Applied, wpaSmSetPassphrase, hlen]
      intro h; omega
    · have hset : wpaSmSetPassphrase sm p =
          some { sm with lifiPassphrase := p, lifiPassphraseValid := true } := if_neg hlen
      simp only [Applied, Option.mem_some_iff, exists_eq_left', hset, Option.isSome_some,
        Option.bind_some, Option.some_or, true_and]
      have hit := @afterMsg1_iterate { sm with lifiPassphrase := p, lifiPassphraseValid := true }
        rfl gap
      constructor
      · rintro ⟨sm', h1, -, h2⟩
        exact ⟨by omega, hit.1 ⟨sm', h1, h2⟩⟩
      · rintro ⟨-, hg⟩
        obtain ⟨sm', h1, h2⟩ := hit.2 hg
        exact ⟨sm', h1, afterMsg1_passphrase h1, h2⟩

/-- **When ACK means applied.** Whatever the commands and the two connections do, an
acknowledgement implies that the setter took exactly `p`, if and only if `p` cannot come
back unchanged at all, or there is a `wpa_sm`, `p` has at most 63 octets and no message 1/4
spends the passphrase before the reply. -/
theorem ack_applied_iff (hd : Sha256OK sha256 p) (wpa : Option LifiPass) (gap : ℕ) :
    (∀ x, (sendToSta sha256 p wpa gap x).1 = true →
        Applied p wpa (sendToSta sha256 p wpa gap x).2) ↔
      (Returns p → ∃ sm ∈ wpa, p.length ≤ 63 ∧ (gap = 0 ∨ sm.ssid = [])) := by
  constructor
  · intro h hr
    have hgood := sendToSta_answered hd hr wpa gap
    have := h (.good p) (by rw [hgood])
    rwa [hgood, applied_iff] at this
  · intro h x hx
    obtain ⟨hr, hw⟩ := sendToSta_true hd hx
    rw [hw, applied_iff]
    exact h hr

/-- A digest function that knows one text. -/
def digestOf (p d : Text) (t : Text) : Text := if t = p then d else List.replicate 64 '0'

theorem digestOf_ok {p d : Text} (hl : d.length = 64) (hs : d.all fun c => !Text.isspace c)
    (hne : d ≠ List.replicate 64 '0') : Sha256OK (digestOf p d) p where
  length t := by unfold digestOf; split <;> simp [hl]
  nospace t := by
    unfold digestOf
    split
    · exact fun c hc => by simpa using List.all_eq_true.1 hs c hc
    · intro c hc; rw [List.eq_of_mem_replicate hc]; decide
  inj t _ ht := by
    by_contra hn
    simp only [digestOf, if_neg hn, if_true] at ht
    exact hne ht.symm

/-- SHA-256 where the examples below need it. -/
def sha256Lifi : Text → Text := digestOf "lifi-2024".toList
  "a0397b600ea9030864f30b56595d2db8c67e2f7240825eeb7fd1ecdfc662329c".toList

theorem sha256Lifi_ok : Sha256OK sha256Lifi "lifi-2024".toList :=
  digestOf_ok (by decide) (by decide) (by decide)

/-- The STA's `wpa_sm` before its first rotation, on the network `lifi`. -/
def smLifi : LifiPass := ⟨[], false, [108, 105, 102, 105]⟩

theorem sendToSta_lifi2024 : (sendToSta sha256Lifi "lifi-2024".toList (some smLifi) 0
    (.good "lifi-2024".toList)).1 = true := by
  rw [sendToSta_answered sha256Lifi_ok ⟨by decide, by decide, by decide, by decide⟩]

/-- The acknowledgement of a nine octet passphrase means that it was applied. -/
theorem ack_applied_lifi2024 : Applied "lifi-2024".toList (some smLifi)
    (sendToSta sha256Lifi "lifi-2024".toList (some smLifi) 0 (.good "lifi-2024".toList)).2 :=
  (ack_applied_iff sha256Lifi_ok (some smLifi) 0).2 (fun _ => ⟨smLifi, rfl, by decide, .inl rfl⟩)
    _ sendToSta_lifi2024

/-- SHA-256 on the longest passphrase the server can send. -/
def sha256Long : Text → Text := digestOf (List.replicate 64 'a')
  "ffe054fe7ae0cb6dc65c3af9b61d5209f439851db43d0ba5997337df154668eb".toList

theorem sha256Long_ok : Sha256OK sha256Long (List.replicate 64 'a') :=
  digestOf_ok (by decide) (by decide) (by decide)

/-- Sixty-four octets are acknowledged although the setter refuses them. -/
theorem ack_without_setter : ∃ x,
    (sendToSta sha256Long (List.replicate 64 'a') (some smLifi) 0 x).1 = true ∧
      ¬ Applied (List.replicate 64 'a') (some smLifi)
        (sendToSta sha256Long (List.replicate 64 'a') (some smLifi) 0 x).2 := by
  refine ⟨.good (List.replicate 64 'a'), ?_⟩
  rw [sendToSta_answered sha256Long_ok ⟨by decide, by decide, by decide, by decide⟩]
  refine ⟨rfl, ?_⟩
  rintro ⟨⟨sm, hsm, h⟩, -⟩
  rw [Option.mem_some_iff] at hsm
  subst hsm
  revert h; decide

/-- The setptk line is not rejected, and the PSK it stores is PBKDF2 of the string the STA
derives its PMK from at the next message 1/4. -/
def SamePmk {σ : Type} (pbkdf2 : Text → Bytes → ℕ → Bytes) (reauth : σ → σ) (hapd : Hapd σ)
    (mac p : Text) (sm : LifiPass) : Prop :=
  ∃ hapd' s, lifiHandleLine pbkdf2 reauth hapd (rekeyCmd mac p) = .ok hapd' ∧
    hapd'.wpaPsk.psk = pbkdf2 s hapd.ssid 4096 ∧
    msg1Pmk pbkdf2 sm = some (pbkdf2 s hapd.ssid 4096)

/-- The two ends agree when the token the listener reads is in its bounds and has the PBKDF2
of the whole passphrase. -/
theorem samePmk_iff (pbkdf2 : Text → Bytes → ℕ → Bytes) {σ : Type} (reauth : σ → σ)
    {hapd : Hapd σ} {mac : Text} {a : Addr} {m : σ} {sm sm' : LifiPass}
    (hset : wpaSmSetPassphrase sm p = some sm') (hmac : hwaddrParse mac = some (a, []))
    (hsta : hapd.sta a = some (some m)) (hssid : hapd.ssid = sm.ssid) (hr : Returns p) :
    SamePmk pbkdf2 reauth hapd mac p sm' ↔
      8 ≤ (p.takeWhile (· != '\n')).length ∧ hapd.ssid ≠ [] ∧
        pbkdf2 (p.takeWhile (· != '\n')) hapd.ssid 4096 = pbkdf2 p hapd.ssid 4096 := by
  obtain ⟨c, t, hp⟩ := List.exists_cons_of_ne_nil hr.ne
  have hc : c ≠ '\n' := by
    rintro rfl
    have := (Lib.strip_eq_self_iff.1 hr.strip).1 hr.ne
    simp only [hp, List.head_cons] at this
    exact this (by decide)
  have h63 : (p.takeWhile (· != '\n')).length ≤ 63 := by
    refine le_trans (List.takeWhile_prefix _).length_le ?_
    unfold wpaSmSetPassphrase at hset
    split at hset
    · cases hset
    · omega
  have hline := lifiHandleLine_setptk pbkdf2 reauth hmac hsta hp hc
  have hpmk := msg1Pmk_set hset pbkdf2
  rw [← hssid] at hpmk
  unfold SamePmk rekeyCmd
  simp only [hline, hpmk]
  by_cases h8 : 8 ≤ (p.takeWhile (· != '\n')).length
  · have hlen : ¬ ((p.takeWhile (· != '\n')).length < 8 ∨
        63 < (p.takeWhile (· != '\n')).length) := by omega
    simp only [if_neg hlen]
    by_cases hne : hapd.ssid = []
    · simp [hne]
    · simp only [ne_eq, hne, not_false_eq_true, if_true, if_false, Except.ok.injEq,
        Option.some.injEq, true_and, h8]
      constructor
      · rintro ⟨hapd', s, rfl, h2, h3⟩
        exact h2.trans h3.symm
      · exact fun h => ⟨_, p, rfl, h, rfl⟩
  · have hlen : (p.takeWhile (· != '\n')).length < 8 ∨
        63 < (p.takeWhile (· != '\n')).length := by omega
    simp [hlen, h8]

/-- **When both ends derive the same PMK**, for a passphrase the STA side accepts: exactly
when it has at least 8 octets and no newline, on a network that has an SSID. -/
theorem rotation_agree_iff (hd : Sha256OK sha256 p) {sm sm' : LifiPass} {gap : ℕ} {x : Exchange}
    (hx : (sendToSta sha256 p (some sm) gap x).1 = true) (hset : wpaSmSetPassphrase sm p = some sm')
    {σ : Type} (reauth : σ → σ) {hapd : Hapd σ} {mac : Text} {a : Addr} {m : σ}
    (hmac : hwaddrParse mac = some (a, [])) (hsta : hapd.sta a = some (some m))
    (hssid : hapd.ssid = sm.ssid) :
    (∀ pbkdf2, SamePmk pbkdf2 reauth hapd mac p sm') ↔
      8 ≤ p.length ∧ '\n' ∉ p ∧ hapd.ssid ≠ [] := by
  obtain ⟨hr, -⟩ := sendToSta_true hd hx
  have hiff := fun pbkdf2 => samePmk_iff pbkdf2 reauth hset hmac hsta hssid hr
  simp only [hiff]
  constructor
  · intro h
    -- a function that tells `p` from every other string
    obtain ⟨h8, hne, heq⟩ := h fun s _ _ => if s = p then [0] else [1]
    have htake : p.takeWhile (· != '\n') = p := by
      by_contra hn
      rw [if_neg hn, if_pos rfl] at heq; cases heq
    rw [htake] at h8
    refine ⟨h8, fun hn => ?_, hne⟩
    have := List.takeWhile_eq_self_iff.1 htake '\n' hn
    simp at this
  · rintro ⟨h8, hn, hne⟩ pbkdf2
    have htake : p.takeWhile (· != '\n') = p :=
      List.takeWhile_eq_self_iff.2 fun c hc => by
        have : c ≠ '\n' := fun h => hn (h ▸ hc)
        simpa using this
    rw [htake]
    exact ⟨h8, hne, rfl⟩

/-- The station of the examples and hostapd while it is associated. -/
def staMac : Text := "e0:2b:e9:f6:16:3e".toList

def staAddr : Addr := ⟨[0xe0, 0x2b, 0xe9, 0xf6, 0x16, 0x3e], rfl⟩

theorem staMac_parse : hwaddrParse staMac = some (staAddr, []) := by decide

def hapdLifi : Hapd Unit where
  ssid := [108, 105, 102, 105]
  wpaPsk := ⟨true, Addr.zero, []⟩
  wpaPskNext := []
  sta a := if a = staAddr then some (some ()) else none
  cachedAddr := Addr.zero
  cachedPassphrase := []
  cachedValid := false

theorem hapdLifi_sta : hapdLifi.sta staAddr = some (some ()) := rfl

/-- PBKDF2-SHA1 of the passphrase and the network of the examples. -/
def pbkdf2Lifi (pass : Text) (ssid : Bytes) (iterations : ℕ) : Bytes :=
  if pass = "lifi-2024".toList ∧ ssid = [108, 105, 102, 105] ∧ iterations = 4096 then
    [0x7, 0x6d, 0x5a, 0x3a, 0xa3, 0x24, 0x55, 0xea, 0x59, 0x3e, 0xeb, 0xa0, 0xa9, 0x97, 0xd7, 0x13,
      0xe5, 0x7, 0x5c, 0x7f, 0x8, 0x3e, 0x6c, 0xcb, 0x38, 0x75, 0x86, 0xb9, 0x80, 0xe1, 0x7f, 0x91]
  else []

theorem rotation_agree_lifi2024 : SamePmk pbkdf2Lifi id hapdLifi staMac "lifi-2024".toList
    ⟨"lifi-2024".toList, true, smLifi.ssid⟩ :=
  (rotation_agree_iff sha256Lifi_ok sendToSta_lifi2024 rfl id staMac_parse hapdLifi_sta rfl).2
    (by decide) pbkdf2Lifi

/-- SHA-256 on a passphrase that is too short for the listener. -/
def sha256Short : Text → Text := digestOf "abc123".toList
  "6ca13d52ca70c883e0f0bb101e425a89e8624de51db2d2392593af6a84118090".toList

theorem sha256Short_ok : Sha256OK sha256Short "abc123".toList :=
  digestOf_ok (by decide) (by decide) (by decide)

/-- The STA accepts and acknowledges six octets, and the setptk line is rejected. -/
theorem short_rejected :
    sendToSta sha256Short "abc123".toList (some smLifi) 0 (.good "abc123".toList) =
        (true, some ⟨"abc123".toList, true, smLifi.ssid⟩) ∧
      ∀ pbkdf2, ¬ SamePmk pbkdf2 id hapdLifi staMac "abc123".toList
        ⟨"abc123".toList, true, smLifi.ssid⟩ := by
  have hr : Returns "abc123".toList := ⟨by decide, by decide, by decide, by decide⟩
  have hset : wpaSmSetPassphrase smLifi "abc123".toList =
      some ⟨"abc123".toList, true, smLifi.ssid⟩ := rfl
  refine ⟨sendToSta_answered sha256Short_ok hr _ _, fun pbkdf2 h => ?_⟩
  have := (samePmk_iff pbkdf2 id hset staMac_parse hapdLifi_sta rfl hr).1 h
  exact absurd this.1 (by decide)

end Lightguard.Rotation
