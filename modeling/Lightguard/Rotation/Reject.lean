import Lightguard.Rotation.Agreement

/-!
# What a rejected rotation leaves on the STA

`set_lifi_pass` hands the passphrase to wpa_supplicant in the first of its three commands,
and nothing takes it back when a later step fails.

* `next_msg1`: messages 1/4 do not change the passphrase that is used next.
* `sendToSta_state`: what any exchange leaves in `wpa_sm`.
* `rejected_kept_iff`: when a rejected round leaves the STA on its old passphrase.
-/

namespace Lightguard.Rotation

/-- What decides the PMK of the next message 1/4: the passphrase fields, and the passphrase
`sm->pmk` was derived from (`none` for the PSK of the network's configuration). -/
structure Held where
  wpa : Option LifiPass
  pmkOf : Option Text
deriving DecidableEq

namespace Held

/-- Message 1/4 takes a stored passphrase over into `sm->pmk`. -/
def msg1 (k : Held) : Held :=
  match k.wpa with
  | none => k
  | some sm =>
    { wpa := some (afterMsg1 sm)
      pmkOf := if sm.lifiPassphraseValid ∧ sm.ssid ≠ [] then some sm.lifiPassphrase else k.pmkOf }

/-- The passphrase the next message 1/4 on a network with an SSID will use. -/
def next (k : Held) : Option Text :=
  match k.wpa with
  | none => k.pmkOf
  | some sm => if sm.lifiPassphraseValid then some sm.lifiPassphrase else k.pmkOf

theorem next_msg1 (k : Held) : k.msg1.next = k.next := by
  obtain ⟨wpa, pmkOf⟩ := k
  cases wpa with
  | none => rfl
  | some sm =>
    by_cases h : sm.lifiPassphraseValid = true ∧ sm.ssid ≠ []
    · have hafter : afterMsg1 sm = { sm with lifiPassphraseValid := false } := if_pos h
      have hpmk : (msg1 ⟨some sm, pmkOf⟩).pmkOf = some sm.lifiPassphrase := if_pos h
      have hnext : (msg1 ⟨some sm, pmkOf⟩).next = (msg1 ⟨some sm, pmkOf⟩).pmkOf := by
        simp only [msg1, next, hafter, Bool.false_eq_true, if_false]
      rw [hnext, hpmk]
      exact (if_pos h.1).symm
    · have hafter : afterMsg1 sm = sm := if_neg h
      simp only [msg1, next, hafter, if_neg h]

theorem next_iterate (k : Held) (n : ℕ) : (msg1^[n] k).next = k.next := by
  induction n generalizing k with
  | zero => rfl
  | succ n ih => rw [Function.iterate_succ_apply, ih, next_msg1]

end Held

variable {sha256 : Text → Text} {p : Text} {k : Held} {x : Exchange}

/-- What the STA's one `recv(128)` returns of the passphrase. -/
def heard (p : Text) (x : Exchange) : Text := (p.take 128).take x.received

/-- One round of `main` for the passphrase `p`: what `send_to_sta` returns, what the STA holds
after `n` more messages 1/4, and hostapd, which gets the setptk line only after a True. -/
def round {σ : Type} (sha256 : Text → Text) (pbkdf2 : Text → Bytes → ℕ → Bytes) (reauth : σ → σ)
    (mac p : Text) (k : Held) (hapd : Hapd σ) (n : ℕ) (x : Exchange) : Bool × Held × Hapd σ :=
  let (ok, wpa) := sendToSta sha256 p k.wpa 0 x
  let k := Held.msg1^[n] { k with wpa := wpa }
  if ok then
    match lifiHandleLine pbkdf2 reauth hapd (rekeyCmd mac p) with
    | .ok hapd' => (true, k, hapd')
    | .error _ => (true, k, hapd)
  else (false, k, hapd)

/-- The setter is called with what was heard, and takes it. -/
structure ReachesSetter (p : Text) (k : Held) (x : Exchange) : Prop where
  sm : k.wpa.isSome
  heard : heard p x ≠ []
  sendable : Sendable (Rotation.heard p x).strip
  length : (Rotation.heard p x).strip.length ≤ 63
  served : x.cli.setpsk ≠ .failed false

/-- Nothing goes wrong behind the setter. -/
structure Exchange.Complete (p : Text) (x : Exchange) : Prop where
  whole : heard p x = p
  strip : p.strip = p
  setpsk : x.cli.setpsk = .answered
  verify : verifyMismatch p x.cli.getNetwork = false
  flush : x.cli.pmksaFlush.isSome
  acked : 68 ≤ x.acked

theorem length_heard (p : Text) (x : Exchange) : (heard p x).length ≤ 128 := by
  simp only [heard, List.length_take]; omega

theorem heard_start (p : Text) (x : Exchange) : heard p x <+: p :=
  (List.take_prefix _ _).trans (List.take_prefix _ _)

/-- What `wpa_cli setpsk` leaves, however it ends. -/
theorem wpaCliSetpsk_state {wpa : Option LifiPass} {q : Text} (o : Cli) (hq : q.length ≤ 241) :
    (wpaCliSetpsk wpa q o).1 =
      if Sendable q ∧ o ≠ .failed false then (wpa.bind fun sm => wpaSmSetPassphrase sm q).or wpa
      else wpa := by
  by_cases hs : Sendable q
  · have hn : ¬ ('\x00' ∈ q ∨ getoptOption q) := by
      rw [not_or]; exact ⟨hs.1, by simp [hs.2]⟩
    rw [← ctrlIfaceProcess_setpsk hq, wpaCliSetpsk, if_neg hn]
    rcases o with _ | _ | _ <;> simp [hs]
  · have hn : '\x00' ∈ q ∨ getoptOption q := by
      by_contra h
      rw [not_or] at h
      exact hs ⟨h.1, by simpa using h.2⟩
    rw [wpaCliSetpsk, if_pos hn, if_neg fun h => hs h.1]

/-- The later commands of `set_lifi_pass` do not touch the passphrase. -/
theorem setLifiPass_state (wpa : Option LifiPass) (q : Text) (o : CliOutcomes) :
    (setLifiPass wpa q o).1 = (wpaCliSetpsk wpa q.strip o.setpsk).1 := by
  rw [setLifiPass]
  cases h : wpaCliSetpsk wpa q.strip o.setpsk with
  | mk w ok =>
    simp only
    split
    · rfl
    · split <;> rfl

theorem setLifiPass_ok (wpa : Option LifiPass) (q : Text) (o : CliOutcomes) :
    (setLifiPass wpa q o).2 = true ↔ Sendable q.strip ∧ o.setpsk = .answered ∧
      verifyMismatch q.strip o.getNetwork = false ∧ o.pmksaFlush.isSome := by
  have hcli : (wpaCliSetpsk wpa q.strip o.setpsk).2 = true ↔
      Sendable q.strip ∧ o.setpsk = .answered := by
    unfold wpaCliSetpsk Sendable
    split
    · rename_i h
      simp only [Bool.false_eq_true, false_iff, not_and]
      intro hs
      exact absurd h (by rw [not_or]; exact ⟨hs.1, by simp [hs.2]⟩)
    · rename_i h
      rw [not_or] at h
      have h2 : getoptOption q.strip = false := by simpa using h.2
      simp only [h.1, h2, not_false_eq_true, true_and]
      rcases o.setpsk with _ | _ | _ <;> simp
  rw [setLifiPass, ← and_assoc, ← hcli]
  cases h : wpaCliSetpsk wpa q.strip o.setpsk with
  | mk w ok =>
    cases ok with
    | false => simp
    | true => cases hv : verifyMismatch q.strip o.getNetwork <;> simp

/-- **What an exchange leaves** in `wpa_sm`. -/
theorem sendToSta_state (p : Text) (k : Held) (x : Exchange) :
    (sendToSta sha256 p k.wpa 0 x).2 =
      if heard p x ≠ [] ∧ Sendable (heard p x).strip ∧ x.cli.setpsk ≠ .failed false then
        (k.wpa.bind fun sm => wpaSmSetPassphrase sm (heard p x).strip).or k.wpa
      else k.wpa := by
  have hlen : (heard p x).strip.strip.length ≤ 241 := by
    have h1 := length_heard p x
    have h2 := Text.length_strip_le (heard p x)
    rw [Text.strip_strip]; omega
  have hconn : (sendToSta sha256 p k.wpa 0 x).2 =
      (handleConn sha256 k.wpa (heard p x) x.cli 0).1 := rfl
  rw [hconn, handleConn]
  by_cases hd : heard p x = []
  · simp [hd]
  · have hset := setLifiPass_state k.wpa (heard p x).strip x.cli
    rw [wpaCliSetpsk_state _ hlen, Text.strip_strip] at hset
    rw [if_neg hd]
    have hcond : (heard p x ≠ [] ∧ Sendable (heard p x).strip ∧ x.cli.setpsk ≠ .failed false) ↔
        (Sendable (heard p x).strip ∧ x.cli.setpsk ≠ .failed false) :=
      and_iff_right hd
    rw [if_congr hcond rfl rfl, ← hset]
    simp only
    split <;> rfl

/-- A positive answer is at least 68 octets long. -/
theorem checkAck_length {e t : Text} (he : e.length = 64) (h : checkAck e t = true) :
    68 ≤ t.length := by
  simp only [checkAck] at h
  split at h
  · cases h
  · split at h
    · rename_i hpre
      have h1 : Text.strip (t.strip.drop 4) = e := by simpa using h
      have h2 := Text.length_strip_le (t.strip.drop 4)
      have h3 := Text.length_strip_le t
      have h4 : 4 ≤ t.strip.length := hpre.length_le
      rw [h1, he, List.length_drop] at h2
      omega
    · cases h

/-- An exchange that hands over a passphrase succeeds only when nothing else goes wrong. -/
theorem sendToSta_complete (hd : Sha256OK sha256 p) (h : ReachesSetter p k x) :
    (sendToSta sha256 p k.wpa 0 x).1 = true ↔ x.Complete p := by
  constructor
  · intro ht
    obtain ⟨hr, -⟩ := sendToSta_true hd ht
    have hset := setLifiPass_ok k.wpa (heard p x).strip x.cli
    simp only [sendToSta, ← heard.eq_1] at ht
    cases hs : setLifiPass k.wpa (heard p x).strip x.cli with
    | mk w ok =>
      rw [handleConn, if_neg h.heard] at ht
      simp only [hs] at ht hset
      cases ok with
      | false =>
        rw [if_neg (by simp), Option.getD_some, List.take_take, checkAck_nack] at ht
        cases ht
      | true =>
        rw [if_pos rfl, Option.getD_some, List.take_take] at ht
        obtain ⟨-, h1, h2, h3⟩ := hset.1 rfl
        have hdig := hd.inj _ (heard_start p x)
          (checkAck_take (hd.length _) (hd.length _) (hd.nospace _) ht)
        have hlen := checkAck_length (hd.length p) ht
        have hwhole : heard p x = p := by
          refine (heard_start p x).eq_of_length_le ?_
          have := Text.length_strip_le (heard p x)
          rwa [hdig] at this
        rw [Text.strip_strip, hdig] at h2
        rw [List.length_take, List.length_append, hd.length] at hlen
        exact ⟨hwhole, hr.strip, h1, h2, h3, by omega⟩
  · intro hc
    have hne : p ≠ [] := by rw [← hc.whole]; exact h.heard
    have hsend : Sendable p := by
      have := h.sendable
      rwa [hc.whole, hc.strip] at this
    have hlen : p.length ≤ 128 := by rw [← hc.whole]; exact length_heard p x
    have hset : (setLifiPass k.wpa p x.cli).2 = true := by
      rw [setLifiPass_ok, hc.strip]
      exact ⟨hsend, hc.setpsk, hc.verify, hc.flush⟩
    have hack : ("ACK ".toList ++ sha256 p).length = 68 := by
      rw [List.length_append, hd.length]; rfl
    simp only [sendToSta, ← heard.eq_1, hc.whole, handleConn, if_neg hne, hc.strip, hset, if_true,
      Option.getD_some]
    have hacked := hc.acked
    rw [List.take_of_length_le (by rw [List.length_take, hack]; omega),
      List.take_of_length_le (by rw [hack]; omega), checkAck_ack (hd.length p) (hd.nospace p)]

/-- The passphrase that is used next after an exchange. -/
theorem sendToSta_next (p : Text) (k : Held) (x : Exchange) :
    (ReachesSetter p k x → Held.next ⟨(sendToSta sha256 p k.wpa 0 x).2, k.pmkOf⟩ =
      some (heard p x).strip) ∧
    (¬ ReachesSetter p k x → (sendToSta sha256 p k.wpa 0 x).2 = k.wpa) := by
  rw [sendToSta_state]
  constructor
  · intro h
    obtain ⟨sm, hsm⟩ := Option.isSome_iff_exists.1 h.sm
    have hset : wpaSmSetPassphrase sm (heard p x).strip =
        some { sm with lifiPassphrase := (heard p x).strip, lifiPassphraseValid := true } := by
      have := h.length
      exact if_neg (by omega)
    rw [if_pos ⟨h.heard, h.sendable, h.served⟩]
    simp only [hsm, Option.bind_some, hset, Option.some_or, Held.next, if_true]
  · intro h
    split
    · rename_i hc
      cases hsm : k.wpa with
      | none => rfl
      | some sm =>
        have hlen : 64 ≤ (heard p x).strip.length := by
          by_contra hn
          exact h ⟨by simp [hsm], hc.1, hc.2.1, by omega, hc.2.2⟩
        simp [wpaSmSetPassphrase, hlen]
    · rfl

/-- **When a rejected round leaves the old passphrase.** Whatever the commands and the two
connections do, a False leaves the passphrase of the next message 1/4 and hostapd as they were,
if and only if the setter is not reached, or it is given the passphrase in use, or nothing goes
wrong behind it. -/
theorem rejected_kept_iff (hd : Sha256OK sha256 p) {σ : Type} (pbkdf2 : Text → Bytes → ℕ → Bytes)
    (reauth : σ → σ) (mac : Text) (k : Held) (hapd : Hapd σ) (n : ℕ) (x : Exchange) :
    ((round sha256 pbkdf2 reauth mac p k hapd n x).1 = false →
        (round sha256 pbkdf2 reauth mac p k hapd n x).2.1.next = k.next ∧
          (round sha256 pbkdf2 reauth mac p k hapd n x).2.2 = hapd) ↔
      (ReachesSetter p k x → k.next = some (heard p x).strip ∨ x.Complete p) := by
  obtain ⟨hyes, hno⟩ := @sendToSta_next sha256 p k x
  have hres := @sendToSta_complete sha256 p k x hd
  unfold round
  cases hs : sendToSta sha256 p k.wpa 0 x with
  | mk ok wpa =>
    rw [hs] at hyes hno hres
    cases ok with
    | true =>
      refine iff_of_true ?_ fun h => .inr ((hres h).1 rfl)
      simp only [if_true]
      split <;> (intro h; cases h)
    | false =>
      simp only [Bool.false_eq_true, if_false, Held.next_iterate, and_true, true_implies]
      constructor
      · intro h hr
        exact .inl (by rw [← h, ← hyes hr])
      · intro h
        by_cases hr : ReachesSetter p k x
        · rcases h hr with h1 | h1
          · rw [hyes hr, h1]
          · exact absurd ((hres hr).2 h1) (by simp)
        · have hsame : wpa = k.wpa := hno hr
          rw [hsame]

/-- Before the first rotation the STA uses the PSK of its configuration. -/
def heldLifi : Held := ⟨some smLifi, none⟩

/-- The exchange of the example in which the reply of `pmksa_flush` is missing. -/
def flushFails : Exchange := ⟨9, ⟨.answered, none, none⟩, 68⟩

/-- In the exchange in which everything works the round is not rejected. -/
theorem rejected_kept_lifi2024 :
    Exchange.Complete "lifi-2024".toList (.good "lifi-2024".toList) ∧
    (((round sha256Lifi pbkdf2Lifi id staMac "lifi-2024".toList heldLifi hapdLifi 1
        (.good "lifi-2024".toList)).1 = false →
      (round sha256Lifi pbkdf2Lifi id staMac "lifi-2024".toList heldLifi hapdLifi 1
          (.good "lifi-2024".toList)).2.1.next = heldLifi.next ∧
        (round sha256Lifi pbkdf2Lifi id staMac "lifi-2024".toList heldLifi hapdLifi 1
          (.good "lifi-2024".toList)).2.2 = hapdLifi) ↔
      (ReachesSetter "lifi-2024".toList heldLifi (.good "lifi-2024".toList) →
        heldLifi.next = some (heard "lifi-2024".toList (.good "lifi-2024".toList)).strip ∨
          Exchange.Complete "lifi-2024".toList (.good "lifi-2024".toList))) :=
  ⟨⟨by decide, by decide, rfl, rfl, rfl, by decide⟩,
    rejected_kept_iff sha256Lifi_ok pbkdf2Lifi id staMac heldLifi hapdLifi 1
      (.good "lifi-2024".toList)⟩

/-- When only `pmksa_flush` fails, the round is rejected and the STA uses the new passphrase. -/
theorem rejected_changed :
    (round sha256Lifi pbkdf2Lifi id staMac "lifi-2024".toList heldLifi hapdLifi 0 flushFails).1 =
        false ∧
      heldLifi.next = none ∧
      (round sha256Lifi pbkdf2Lifi id staMac "lifi-2024".toList heldLifi hapdLifi 0
        flushFails).2.1.next = some "lifi-2024".toList := by
  decide

end Lightguard.Rotation
