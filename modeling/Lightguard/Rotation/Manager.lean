import Mathlib.Logic.Function.Iterate
import Mathlib.Tactic.IntervalCases
import Lightguard.Rotation.Passphrase

/-!
# One rotation round of the LiFi system manager

`system_manager.py` sends the new passphrase to the STA, waits for an acknowledgement
with the digest of the passphrase the STA has used, and then writes the setptk line for
its own hostapd.

* `checkAck_take`: a positive answer carries exactly the expected digest, however TCP
  cuts the reply.
* `sendToSta_true`: an acknowledged passphrase came back unchanged and was handed to the
  setter.
* `sendToSta_answered`: a passphrase that can come back does, when all commands work.
-/

namespace Lightguard.Rotation

/-- The test `send_to_sta` makes on the reply. -/
def checkAck (expected ack : Text) : Bool :=
  let ack := ack.strip
  if ack = "ACK".toList then false
  else if "ACK ".toList <+: ack then Text.strip (ack.drop 4) == expected
  else false

/-- One connection from the manager to the STA: how many octets the STA's one `recv`
returns, what its commands do, and how many octets of the reply the manager's one `recv`
returns. Zero stands for a refused, reset or timed out connection as well. -/
structure Exchange where
  received : ℕ
  cli : CliOutcomes
  acked : ℕ
deriving DecidableEq

variable {sha256 : Text → Text}

/-- `send_to_sta` with the STA's listener at the other end: the result, and wpa_supplicant's
state when the STA replies. -/
def sendToSta (sha256 : Text → Text) (passphrase : Text) (wpa : Option LifiPass) (gap : ℕ)
    (x : Exchange) : Bool × Option LifiPass :=
  let (wpa, reply) := handleConn sha256 wpa ((passphrase.take 128).take x.received) x.cli gap
  (checkAck (sha256 passphrase) (((reply.getD []).take 128).take x.acked), wpa)

/-- The line `send_rekey` writes. -/
def rekeyCmd (mac passphrase : Text) : Text :=
  "setptk ".toList ++ mac ++ ' ' :: (passphrase ++ ['\n'])

/-- What is used of `hashlib.sha256(..).hexdigest()`: 64 characters, none of them white
space, and no other text that the STA can make of a prefix of `p` has the digest of `p`. -/
structure Sha256OK (sha256 : Text → Text) (p : Text) : Prop where
  length : ∀ t, (sha256 t).length = 64
  nospace : ∀ t, ∀ c ∈ sha256 t, Text.isspace c = false
  inj : ∀ d : Text, d <+: p → sha256 d.strip = sha256 p → d.strip = p

/-- A text without white space at its ends stays whole. -/
theorem strip_of_nospace {t : Text} (h : ∀ c ∈ t, Text.isspace c = false) : t.strip = t :=
  Lib.strip_eq_self_iff.2
    ⟨fun hn => by simp [h _ (List.head_mem hn)], fun hn => by simp [h _ (List.getLast_mem hn)]⟩

/-- `ACK` and a digest, cut anywhere behind the blank, has white space at neither end. -/
theorem strip_ack {d : Text} (hd : ∀ c ∈ d, Text.isspace c = false) (hne : d ≠ []) :
    Text.strip ("ACK ".toList ++ d) = "ACK ".toList ++ d := by
  refine Lib.strip_eq_self_iff.2 ⟨fun _ => by simp [Text.isspace], fun hn => ?_⟩
  rw [List.getLast_append_of_right_ne_nil _ _ hne]
  simp [hd _ (List.getLast_mem hne)]

/-- **A positive answer** carries the whole expected digest. -/
theorem checkAck_take {e d : Text} {n : ℕ} (he : e.length = 64) (hd : d.length = 64)
    (hs : ∀ c ∈ d, Text.isspace c = false)
    (h : checkAck e (("ACK ".toList ++ d).take n) = true) : d = e := by
  rcases Nat.lt_or_ge 4 n with hn | hn
  · have htake : ("ACK ".toList ++ d).take n = "ACK ".toList ++ d.take (n - 4) := by
      rw [List.take_append, List.take_of_length_le (by simp; omega)]; rfl
    have hs' : ∀ c ∈ d.take (n - 4), Text.isspace c = false :=
      fun c hc => hs c (List.mem_of_mem_take hc)
    have hne : d.take (n - 4) ≠ [] := by
      intro h0
      have := congrArg List.length h0
      simp only [List.length_take, List.length_nil] at this; omega
    have hdrop : ("ACK ".toList ++ d.take (n - 4)).drop 4 = d.take (n - 4) := List.drop_left' rfl
    rw [htake, checkAck] at h
    simp only [strip_ack hs' hne, List.prefix_append, if_true, hdrop, strip_of_nospace hs'] at h
    split at h
    · cases h
    · have heq : d.take (n - 4) = e := by simpa using h
      rw [← heq, List.take_of_length_le]
      have := congrArg List.length heq
      simp only [List.length_take] at this; omega
  · have htake : ("ACK ".toList ++ d).take n = "ACK ".toList.take n :=
      List.take_append_of_le_length hn
    have hcases : ∀ m ≤ 4, checkAck e ("ACK ".toList.take m) = false := by
      intro m hm
      interval_cases m <;> rfl
    rw [htake, hcases n hn] at h
    cases h

/-- The whole reply is accepted. -/
theorem checkAck_ack {e : Text} (he : e.length = 64) (hs : ∀ c ∈ e, Text.isspace c = false) :
    checkAck e ("ACK ".toList ++ e) = true := by
  have hne : e ≠ [] := by
    intro h0; rw [h0] at he; cases he
  have hdrop : ("ACK ".toList ++ e).drop 4 = e := List.drop_left' rfl
  have hnot : "ACK ".toList ++ e ≠ "ACK".toList := by
    intro h0
    have hlen := congrArg List.length h0
    rw [List.length_append, he] at hlen; cases hlen
  simp only [checkAck, strip_ack hs hne, if_neg hnot, List.prefix_append, if_true, hdrop,
    strip_of_nospace hs, beq_self_eq_true]

/-- A negative answer is never taken for an acknowledgement. -/
theorem checkAck_nack (e : Text) (n : ℕ) : checkAck e ("NACK".toList.take n) = false := by
  have hcases : ∀ m ≤ 4, checkAck e ("NACK".toList.take m) = false := by
    intro m hm
    interval_cases m <;> rfl
  rcases Nat.lt_or_ge 4 n with hn | hn
  · rw [List.take_of_length_le (by simp; omega)]
    exact hcases 4 le_rfl
  · exact hcases n hn

/-- The texts that come back from the STA as they were sent. -/
structure Returns (p : Text) : Prop where
  ne : p ≠ []
  length : p.length ≤ 128
  strip : p.strip = p
  sendable : Sendable p

/-- **What an acknowledgement tells.** The passphrase came back unchanged and was handed
to the setter, whatever that returned. -/
theorem sendToSta_true {p : Text} (h : Sha256OK sha256 p) {wpa : Option LifiPass} {gap : ℕ}
    {x : Exchange} (hx : (sendToSta sha256 p wpa gap x).1 = true) :
    Returns p ∧ (sendToSta sha256 p wpa gap x).2 = (Option.map afterMsg1)^[gap]
      ((wpa.bind fun sm => wpaSmSetPassphrase sm p).or wpa) := by
  unfold sendToSta at hx ⊢
  set data := (p.take 128).take x.received with hdata
  have hlen : data.length ≤ 128 := by simp [hdata]
  have hpre : data <+: p := (List.take_prefix _ _).trans (List.take_prefix _ _)
  cases hc : handleConn sha256 wpa data x.cli gap with
  | mk w reply =>
    simp only [hc] at hx
    cases reply with
    | none => simp [checkAck] at hx
    | some r =>
      rcases handleConn_ack hlen hc with rfl | ⟨rfl, hs, hw⟩
      · rw [Option.getD_some, List.take_take, checkAck_nack] at hx; cases hx
      · rw [Option.getD_some, List.take_take] at hx
        have hdig := checkAck_take (h.length _) (h.length _) (h.nospace _) hx
        have hp := h.inj data hpre hdig
        rw [hp] at hs hw
        have hdp : data = p := by
          have h1 := Text.length_strip_le data
          rw [hp] at h1
          exact hpre.eq_of_length_le h1
        refine ⟨⟨?_, by rw [← hdp]; exact hlen, by rw [← hp, Text.strip_strip], hs⟩, hw⟩
        rintro rfl
        have hd0 : data = [] := by rw [hdp]
        rw [hd0] at hc
        simp [handleConn] at hc

/-- The exchange in which everything works. -/
def Exchange.good (p : Text) : Exchange :=
  ⟨p.length, ⟨.answered, none, some []⟩, 68⟩

/-- A passphrase that can come back is acknowledged when every command works. -/
theorem sendToSta_answered {p : Text} (hd : Sha256OK sha256 p) (h : Returns p)
    (wpa : Option LifiPass) (gap : ℕ) :
    sendToSta sha256 p wpa gap (.good p) = (true, (Option.map afterMsg1)^[gap]
      ((wpa.bind fun sm => wpaSmSetPassphrase sm p).or wpa)) := by
  have hdata : (p.take 128).take p.length = p := by
    rw [List.take_of_length_le h.length, List.take_length]
  have hset : setLifiPass wpa p ⟨.answered, none, some []⟩ =
      ((wpa.bind fun sm => wpaSmSetPassphrase sm p).or wpa, true) := by
    have := h.length
    have hset := @setLifiPass_answered wpa p (by rw [h.strip]; exact h.sendable)
      (by rw [h.strip]; omega)
    rwa [h.strip] at hset
  have hlen : ("ACK ".toList ++ sha256 p).length = 68 := by
    rw [List.length_append, hd.length]; rfl
  simp only [sendToSta, Exchange.good, hdata, handleConn, if_neg h.ne, h.strip, hset, if_true,
    Option.getD_some]
  rw [List.take_of_length_le (by rw [List.length_take, hlen]; omega),
    List.take_of_length_le (by rw [hlen]; omega), checkAck_ack (hd.length p) (hd.nospace p)]

end Lightguard.Rotation
