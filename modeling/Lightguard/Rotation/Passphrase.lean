import Lightguard.Basic

/-!
# Setting the LiFi passphrase on the STA

One request goes down four layers: `sta_passphrase.py`, the `setpsk` command of
`wpa_cli`, the control interface of wpa_supplicant, and the setter of `wpa_sm`; the
next message 1/4 turns the stored passphrase into a PMK.

* `setLifiPass_true`: what `set_lifi_pass` has done when it returns True.
* `handleConn_ack`: the only acknowledged passphrase is the stripped data.
-/

namespace Lightguard.Rotation

/-- The passphrase fields of `struct wpa_sm`. -/
structure LifiPass where
  lifiPassphrase : Text
  lifiPassphraseValid : Bool
  /-- `ssid` with `ssid_len`, empty when it is not set. -/
  ssid : Bytes
deriving DecidableEq

/-- `wpa_sm_set_passphrase`; `none` is the return value -1. -/
def wpaSmSetPassphrase (sm : LifiPass) (pass : Text) : Option LifiPass :=
  if 64 ≤ pass.length then none
  else some { sm with lifiPassphrase := pass, lifiPassphraseValid := true }

/-- The PMK that `wpa_supplicant_process_1_of_4` derives before anything else. -/
def msg1Pmk (pbkdf2 : Text → Bytes → ℕ → Bytes) (sm : LifiPass) : Option Bytes :=
  if sm.lifiPassphraseValid ∧ sm.ssid ≠ [] then some (pbkdf2 sm.lifiPassphrase sm.ssid 4096)
  else none

/-- What it leaves of the passphrase: the flag is cleared with the derivation. -/
def afterMsg1 (sm : LifiPass) : LifiPass :=
  if sm.lifiPassphraseValid ∧ sm.ssid ≠ [] then { sm with lifiPassphraseValid := false } else sm

/-- `wpa_s_ctrl_iface_set_lifi_pass` on `wpa_s->wpa`; `none` is -1. -/
def ctrlIfaceSetLifiPass (wpa : Option LifiPass) (cmd : Text) : Option LifiPass :=
  wpa.bind fun sm => wpaSmSetPassphrase sm cmd

/-- `wpa_supplicant_ctrl_iface_process` on a `SET_LIFI_PASS` request: the setter's result
is dropped, and the command is unknown to the list that makes the reply. -/
def ctrlIfaceProcess (wpa : Option LifiPass) (buf : Text) : Option LifiPass × Text :=
  if "SET_LIFI_PASS ".toList <+: buf then
    ((ctrlIfaceSetLifiPass wpa (buf.drop 14)).or wpa, "UNKNOWN COMMAND\n".toList)
  else (wpa, "UNKNOWN COMMAND\n".toList)

/-- What becomes of a `wpa_cli` process: wpa_supplicant answers and it exits 0, or it
exits with an error, times out or cannot be run, the request being served or not. -/
inductive Cli where
  | answered
  | failed (delivered : Bool)
deriving DecidableEq

/-- Arguments that `getopt` takes for options of `wpa_cli` itself. -/
def getoptOption : Text → Bool
  | '-' :: _ :: _ => true
  | _ => false

/-- `wpa_cli ... setpsk <passphrase>`, and whether it exits 0. A NUL cannot be passed in
an argument, and without an argument `wpa_cli_cmd_setpsk` makes no request. -/
def wpaCliSetpsk (wpa : Option LifiPass) (passphrase : Text) (o : Cli) : Option LifiPass × Bool :=
  if '\x00' ∈ passphrase ∨ getoptOption passphrase then (wpa, false)
  else
    -- snprintf into `char cmd[256]`
    let wpa' := (ctrlIfaceProcess wpa (("SET_LIFI_PASS ".toList ++ passphrase).take 255)).1
    match o with
    | .answered => (wpa', true)
    | .failed true => (wpa', false)
    | .failed false => (wpa, false)

/-- The three commands of `set_lifi_pass`: for the last two what `_wpa_cli_cmd` reads, or
`none` when the command fails. -/
structure CliOutcomes where
  setpsk : Cli
  getNetwork : Option Text
  pmksaFlush : Option Text
deriving DecidableEq

/-- `_is_hidden_psk`. -/
def isHiddenPsk (value : Text) : Bool :=
  (Text.stripChar '"' value.strip).all (· == '*')

/-- Whether the `get_network` answer makes `set_lifi_pass` reject the passphrase. -/
def verifyMismatch (passphrase : Text) (verify : Option Text) : Bool :=
  match verify.map Text.strip with
  | none => false
  | some v =>
    if v = [] ∨ v.map Char.toUpper = "FAIL".toList then false
    else if isHiddenPsk v then false
    else Text.stripChar '"' v.strip != passphrase

/-- `set_lifi_pass`. -/
def setLifiPass (wpa : Option LifiPass) (passphrase : Text) (o : CliOutcomes) :
    Option LifiPass × Bool :=
  let passphrase := passphrase.strip
  let (wpa, ok) := wpaCliSetpsk wpa passphrase o.setpsk
  if !ok then (wpa, false)
  else if verifyMismatch passphrase o.getNetwork then (wpa, false)
  else (wpa, o.pmksaFlush.isSome)

/-- The body of the listening loop for one connection: the state when the reply is sent,
and the reply. `gap` counts the messages 1/4 handled between the setter and the reply. -/
def handleConn (sha256 : Text → Text) (wpa : Option LifiPass) (data : Text) (o : CliOutcomes)
    (gap : ℕ) : Option LifiPass × Option Text :=
  if data = [] then (wpa, none)
  else
    let passwd := data.strip
    let (wpa, ok) := setLifiPass wpa passwd o
    if ok then ((Option.map afterMsg1)^[gap] wpa, some ("ACK ".toList ++ sha256 passwd))
    else (wpa, some "NACK".toList)

@[simp] theorem msg1Pmk_set {sm sm' : LifiPass} {p : Text} (h : wpaSmSetPassphrase sm p = some sm')
    (pbkdf2 : Text → Bytes → ℕ → Bytes) :
    msg1Pmk pbkdf2 sm' = if sm.ssid ≠ [] then some (pbkdf2 p sm.ssid 4096) else none := by
  unfold wpaSmSetPassphrase at h
  split at h
  · cases h
  · simp only [Option.some.injEq] at h
    subst h; simp [msg1Pmk]

/-- The whole request reaches the setter when it fits the command buffer. -/
theorem ctrlIfaceProcess_setpsk {wpa : Option LifiPass} {p : Text} (hp : p.length ≤ 241) :
    (ctrlIfaceProcess wpa (("SET_LIFI_PASS ".toList ++ p).take 255)).1 =
      (wpa.bind fun sm => wpaSmSetPassphrase sm p).or wpa := by
  have hlen : ("SET_LIFI_PASS ".toList ++ p).length ≤ 255 := by
    rw [List.length_append, show "SET_LIFI_PASS ".toList.length = 14 from rfl]; omega
  rw [List.take_of_length_le hlen]
  have hdrop : ("SET_LIFI_PASS ".toList ++ p).drop 14 = p := List.drop_left' rfl
  simp only [ctrlIfaceProcess, List.prefix_append, if_true, hdrop, ctrlIfaceSetLifiPass]

/-- What `wpa_cli setpsk` can carry in its one argument. -/
def Sendable (p : Text) : Prop := '\x00' ∉ p ∧ getoptOption p = false

instance (p : Text) : Decidable (Sendable p) := inferInstanceAs (Decidable (_ ∧ _))

/-- `wpa_cli setpsk` exits 0 only after the setter was called, whatever it returned. -/
theorem wpaCliSetpsk_true {wpa wpa' : Option LifiPass} {p : Text} {o : Cli} (hp : p.length ≤ 241)
    (h : wpaCliSetpsk wpa p o = (wpa', true)) :
    Sendable p ∧ wpa' = (wpa.bind fun sm => wpaSmSetPassphrase sm p).or wpa := by
  unfold wpaCliSetpsk at h
  split at h
  · simp at h
  · rename_i hs
    refine ⟨by simpa [Sendable, not_or] using hs, ?_⟩
    rw [← ctrlIfaceProcess_setpsk hp]
    rcases o with _ | _ | _
    · exact (congrArg Prod.fst h).symm
    · simp at h
    · simp at h

theorem wpaCliSetpsk_answered {wpa : Option LifiPass} {p : Text} (hp : p.length ≤ 241)
    (hs : Sendable p) : wpaCliSetpsk wpa p .answered =
      ((wpa.bind fun sm => wpaSmSetPassphrase sm p).or wpa, true) := by
  have hn : ¬ ('\x00' ∈ p ∨ getoptOption p) := by
    rw [not_or]; exact ⟨hs.1, by simp [hs.2]⟩
  rw [← ctrlIfaceProcess_setpsk hp, wpaCliSetpsk, if_neg hn]

/-- **What True means.** The stripped passphrase was handed to the setter, whose result
nothing has looked at. -/
theorem setLifiPass_true {wpa wpa' : Option LifiPass} {p : Text} {o : CliOutcomes}
    (hp : p.strip.length ≤ 241) (h : setLifiPass wpa p o = (wpa', true)) :
    Sendable p.strip ∧ wpa' = (wpa.bind fun sm => wpaSmSetPassphrase sm p.strip).or wpa := by
  unfold setLifiPass at h
  cases hc : wpaCliSetpsk wpa p.strip o.setpsk with
  | mk w ok =>
    cases ok with
    | false => simp [hc] at h
    | true =>
      have hw := wpaCliSetpsk_true hp hc
      simp only [hc, Bool.not_true, Bool.false_eq_true, if_false] at h
      split at h
      · simp at h
      · rw [Prod.mk.injEq] at h
        rwa [← h.1]

/-- When all three commands work, the passphrase can be sent and nothing is verified,
`set_lifi_pass` returns True. -/
theorem setLifiPass_answered {wpa : Option LifiPass} {p : Text} (hs : Sendable p.strip)
    (hp : p.strip.length ≤ 241) :
    setLifiPass wpa p ⟨.answered, none, some []⟩ =
      ((wpa.bind fun sm => wpaSmSetPassphrase sm p.strip).or wpa, true) := by
  simp [setLifiPass, wpaCliSetpsk_answered hp hs, verifyMismatch]

/-- **An acknowledged passphrase** is the stripped data, handed to the setter. -/
theorem handleConn_ack {sha256 : Text → Text} {wpa wpa' : Option LifiPass} {data r : Text}
    {o : CliOutcomes} {gap : ℕ} (hd : data.length ≤ 128)
    (h : handleConn sha256 wpa data o gap = (wpa', some r)) :
    r = "NACK".toList ∨ r = "ACK ".toList ++ sha256 data.strip ∧ Sendable data.strip ∧
      wpa' = (Option.map afterMsg1)^[gap]
        ((wpa.bind fun sm => wpaSmSetPassphrase sm data.strip).or wpa) := by
  unfold handleConn at h
  split at h
  · simp at h
  · have hlen : data.strip.strip.length ≤ 241 := by
      rw [Text.strip_strip]; have := Text.length_strip_le data; omega
    cases hset : setLifiPass wpa data.strip o with
    | mk w ok =>
      cases ok with
      | false =>
        simp only [hset, Bool.false_eq_true, if_false, Prod.mk.injEq, Option.some.injEq] at h
        exact .inl h.2.symm
      | true =>
        obtain ⟨hs, hw⟩ := setLifiPass_true hlen hset
        rw [Text.strip_strip] at hs hw
        simp only [hset, if_true, Prod.mk.injEq, Option.some.injEq] at h
        exact .inr ⟨h.2.symm, hs, by rw [← h.1, hw]⟩

end Lightguard.Rotation
