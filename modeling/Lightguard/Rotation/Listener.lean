import Lightguard.Basic

/-!
# The setptk listener of the LiFi hostapd

`lifi_listener.c` with the address parser of `common.c` it calls. A line
`setptk <mac> <passphrase>` replaces the PSK of the BSS by the PBKDF2 of the
passphrase and reauthenticates the named station; for an absent station it is cached.

* `hwaddrParse_chars`: what the address parser eats has neither blank nor newline.
* `lifiHandleLine_setptk`: the line written by `send_rekey` is read back, up to the
  first newline of its passphrase.
-/

namespace Lightguard.Rotation

/-- `hex2num`. -/
def hex2num (c : Char) : Option ℕ :=
  if '0' ≤ c ∧ c ≤ '9' then some (c.toNat - '0'.toNat)
  else if 'a' ≤ c ∧ c ≤ 'f' then some (c.toNat - 'a'.toNat + 10)
  else if 'A' ≤ c ∧ c ≤ 'F' then some (c.toNat - 'A'.toNat + 10)
  else none

/-- `hex2byte`, with the text after the two digits. -/
def hex2byte : Text → Option (UInt8 × Text)
  | c :: d :: t => do
    let a ← hex2num c
    let b ← hex2num d
    return (UInt8.ofNat (a * 16 + b), t)
  | _ => none

/-- The loop of `hwaddr_parse` for the last `n` octets: a colon after each but the last. -/
def hwaddrLoop : (n : ℕ) → Text → Option (List.Vector UInt8 n × Text)
  | 0, t => some (.nil, t)
  | 1, t => do
    let (a, t) ← hex2byte t
    return (.cons a .nil, t)
  | n + 2, t => do
    let (a, t) ← hex2byte t
    match t with
    | ':' :: t =>
      let (v, t) ← hwaddrLoop (n + 1) t
      return (.cons a v, t)
    | _ => none

/-- `hwaddr_parse`: the address and the text that follows it. -/
def hwaddrParse (txt : Text) : Option (Addr × Text) := hwaddrLoop 6 txt

/-- `hwaddr_aton`: whatever follows the address is ignored. -/
def hwaddrAton (txt : Text) : Option Addr := (hwaddrParse txt).map (·.1)

/-- One entry of `ssid.wpa_psk`. -/
structure WpaPsk where
  group : Bool
  addr : Addr
  psk : Bytes
deriving DecidableEq

/-- What the listener reads and writes of `hostapd_data`; `σ` is the state machine of a
station. -/
structure Hapd (σ : Type) where
  /-- `conf->ssid.ssid`, empty when `ssid_len` is 0. -/
  ssid : Bytes
  /-- The first entry of `conf->ssid.wpa_psk` and the entries after it. -/
  wpaPsk : WpaPsk
  wpaPskNext : List WpaPsk
  /-- `ap_get_sta`, with the station's `wpa_sm` when it has one. -/
  sta : Addr → Option (Option σ)
  cachedAddr : Addr
  cachedPassphrase : Text
  cachedValid : Bool

/-- Why `lifi_handle_line` gives up on a line. -/
inductive LineError where
  | badCmdFormat
  | badMac
  | noWpaSm
  | passLenInvalid
  | missingSsid
deriving DecidableEq

variable {σ : Type}

/-- The entry is for the station with this address. -/
def WpaPsk.serves (a : Addr) (k : WpaPsk) : Bool := k.group || k.addr == a

/-- `hostapd_get_psk`: the first PSK for this station. -/
def hostapdGetPsk (hapd : Hapd σ) (a : Addr) : Option Bytes :=
  ((hapd.wpaPsk :: hapd.wpaPskNext).find? (·.serves a)).map (·.psk)

/-- `hostapd_get_psk` with `prev_psk`, until it finds none: the PSKs for this station. -/
def hostapdPsks (hapd : Hapd σ) (a : Addr) : List Bytes :=
  ((hapd.wpaPsk :: hapd.wpaPskNext).filter (·.serves a)).map (·.psk)

/-- `lifi_handle_line`; `reauth` is `wpa_auth_sm_event(sm, WPA_REAUTH_EAPOL)`. -/
def lifiHandleLine (pbkdf2 : Text → Bytes → ℕ → Bytes) (reauth : σ → σ) (hapd : Hapd σ)
    (line : Text) : Except LineError (Hapd σ) :=
  match Lib.strtok (· == ' ') line with
  | none => .error .badCmdFormat
  | some (cmd, line) =>
    match Lib.strtok (· == ' ') line with
    | none => .error .badCmdFormat
    | some (mac, line) =>
      match Lib.strtok (· == '\n') line with
      | none => .error .badCmdFormat
      | some (pass, _) =>
        if cmd ≠ "setptk".toList then .error .badCmdFormat
        else match hwaddrAton mac with
          | none => .error .badMac
          | some addr =>
            match hapd.sta addr with
            | none => .ok { hapd with
                cachedAddr := addr, cachedPassphrase := pass.take 63, cachedValid := true }
            | some none => .error .noWpaSm
            | some (some sm) =>
              if pass.length < 8 ∨ 63 < pass.length then .error .passLenInvalid
              else if hapd.ssid = [] then .error .missingSsid
              else .ok { hapd with
                wpaPsk := { hapd.wpaPsk with psk := pbkdf2 pass hapd.ssid 4096 }
                sta := fun b => if b = addr then some (some (reauth sm)) else hapd.sta b }

/-- What a text the address parser can eat consists of. -/
def hwaddrChar (c : Char) : Bool := (hex2num c).isSome || c == ':'

theorem hex2byte_chars {t r : Text} {a : UInt8} (h : hex2byte t = some (a, r)) :
    ∃ m, t = m ++ r ∧ m ≠ [] ∧ ∀ c ∈ m, hwaddrChar c := by
  match t with
  | [] | [_] => simp [hex2byte] at h
  | c :: d :: t =>
    simp only [hex2byte, Option.bind_eq_bind, Option.bind_eq_some_iff, Option.pure_def,
      Option.some.injEq, Prod.mk.injEq] at h
    obtain ⟨x, hx, y, hy, -, rfl⟩ := h
    exact ⟨[c, d], rfl, by simp, by simp [hwaddrChar, hx, hy]⟩

theorem hwaddrLoop_chars : ∀ {n : ℕ} {t r : Text} {v : List.Vector UInt8 (n + 1)},
    hwaddrLoop (n + 1) t = some (v, r) → ∃ m, t = m ++ r ∧ m ≠ [] ∧ ∀ c ∈ m, hwaddrChar c
  | 0, t, r, v, h => by
    simp only [hwaddrLoop, Option.bind_eq_bind, Option.bind_eq_some_iff, Option.pure_def,
      Option.some.injEq, Prod.mk.injEq] at h
    obtain ⟨⟨a, t'⟩, h1, -, rfl⟩ := h
    exact hex2byte_chars h1
  | n + 1, t, r, v, h => by
    simp only [hwaddrLoop, Option.bind_eq_bind, Option.bind_eq_some_iff, Option.pure_def] at h
    obtain ⟨⟨a, t'⟩, h1, h2⟩ := h
    obtain ⟨m, rfl, hm, hc⟩ := hex2byte_chars h1
    split at h2
    · rename_i t'' heq
      simp only at heq; subst heq
      obtain ⟨⟨w, r'⟩, h3, h4⟩ := Option.bind_eq_some_iff.1 h2
      simp only [Option.some.injEq, Prod.mk.injEq] at h4
      obtain ⟨-, rfl⟩ := h4
      obtain ⟨m', rfl, -, hc'⟩ := hwaddrLoop_chars h3
      refine ⟨m ++ ':' :: m', by simp, by simp [hm], ?_⟩
      intro c hcm
      simp only [List.mem_append, List.mem_cons] at hcm
      rcases hcm with hcm | rfl | hcm
      · exact hc c hcm
      · simp [hwaddrChar]
      · exact hc' c hcm
    · cases h2

/-- An address text has no blank in it. -/
theorem hwaddrParse_chars {mac r : Text} {a : Addr} (h : hwaddrParse mac = some (a, r)) :
    ∃ m, mac = m ++ r ∧ m ≠ [] ∧ ∀ c ∈ m, (c == ' ') = false := by
  obtain ⟨m, hm, hne, hc⟩ := hwaddrLoop_chars h
  refine ⟨m, hm, hne, fun c hcm => ?_⟩
  have := hc c hcm
  by_contra hn
  simp only [beq_eq_false_iff_ne, ne_eq, not_not] at hn
  subst hn
  revert this; decide

/-- The line is a setptk command for the station `a` with this passphrase. -/
def SetptkFor (line : Text) (a : Addr) (pass : Text) : Prop :=
  ∃ mac r₁ r₂ r₃, Lib.strtok (· == ' ') line = some ("setptk".toList, r₁) ∧
    Lib.strtok (· == ' ') r₁ = some (mac, r₂) ∧ Lib.strtok (· == '\n') r₂ = some (pass, r₃) ∧
    hwaddrAton mac = some a

/-- **A setptk line for a station with a state machine.** -/
theorem lifiHandleLine_for (pbkdf2 : Text → Bytes → ℕ → Bytes) (reauth : σ → σ) {hapd : Hapd σ}
    {line pass : Text} {a : Addr} {sm : σ} (h : SetptkFor line a pass)
    (ha : hapd.sta a = some (some sm)) :
    lifiHandleLine pbkdf2 reauth hapd line =
      if pass.length < 8 ∨ 63 < pass.length then .error .passLenInvalid
      else if hapd.ssid = [] then .error .missingSsid
      else .ok { hapd with
        wpaPsk := { hapd.wpaPsk with psk := pbkdf2 pass hapd.ssid 4096 }
        sta := fun b => if b = a then some (some (reauth sm)) else hapd.sta b } := by
  obtain ⟨mac, r₁, r₂, r₃, h1, h2, h3, h4⟩ := h
  simp only [lifiHandleLine, h1, h2, h3, h4, ha, ne_eq, not_true_eq_false, if_false]

/-- **Reading a setptk line back.** After the command and the address, the passphrase
is the line up to its first newline. -/
theorem lifiHandleLine_setptk (pbkdf2 : Text → Bytes → ℕ → Bytes) (reauth : σ → σ)
    {hapd : Hapd σ} {mac pass : Text} {a : Addr} {sm : σ} (hm : hwaddrParse mac = some (a, []))
    (ha : hapd.sta a = some (some sm)) {c : Char} {t : Text} (hp : pass = c :: t)
    (hc : c ≠ '\n') :
    lifiHandleLine pbkdf2 reauth hapd
        ("setptk ".toList ++ mac ++ ' ' :: (pass ++ ['\n'])) =
      if (pass.takeWhile (· != '\n')).length < 8 ∨ 63 < (pass.takeWhile (· != '\n')).length then
        .error .passLenInvalid
      else if hapd.ssid = [] then .error .missingSsid
      else .ok { hapd with
        wpaPsk := { hapd.wpaPsk with
          psk := pbkdf2 (pass.takeWhile (· != '\n')) hapd.ssid 4096 }
        sta := fun b => if b = a then some (some (reauth sm)) else hapd.sta b } := by
  obtain ⟨m, hm', hne, hcs⟩ := hwaddrParse_chars hm
  rw [List.append_nil] at hm'; subst hm'
  have h1 : Lib.strtok (· == ' ') ("setptk ".toList ++ mac ++ ' ' :: (pass ++ ['\n'])) =
      some ("setptk".toList, mac ++ ' ' :: (pass ++ ['\n'])) :=
    Lib.strtok_token (a := []) (t := "setptk".toList) (c := ' ') (by simp) (by decide)
      (by simp) (by decide)
  have h2 : Lib.strtok (· == ' ') (mac ++ ' ' :: (pass ++ ['\n'])) = some (mac, pass ++ ['\n']) :=
    Lib.strtok_token (a := []) (c := ' ') (by simp) hne hcs (by decide)
  obtain ⟨r, h3⟩ : ∃ r, Lib.strtok (· == '\n') (pass ++ ['\n']) =
      some (pass.takeWhile (· != '\n'), r) := by
    subst hp
    exact Lib.strtok_first (d := (· == '\n')) (by simpa using hc) (by decide)
  have h4 : hwaddrAton mac = some a := by simp [hwaddrAton, hm]
  exact lifiHandleLine_for pbkdf2 reauth ⟨mac, _, _, _, h1, h2, h3, h4⟩ ha

end Lightguard.Rotation
