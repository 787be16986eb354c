import Lightguard.Basic
import Lightguard.Lib.Argparse
import Lightguard.Sync.Receivers

/-!
# Handing a PTK to the WiFi daemon

`send_ptk_to_wifi` of the two receivers starts `send_ptk_ap.py` or `send_ptk_sta.py` with the
PTK as an argument, and takes the script's exit status for the result.

* `parse_ptk`: how the scripts' parser takes the one argument that varies.
* `forward_ok`: what the script has done when the status is taken for success.
* `forward_delivered`: when something reaches the daemon.
-/

namespace Lightguard.Forward

open Lib.Argparse (Opt Event)
open Lib.Python (strip int encode)
open Sync (Forward)

/-- The two ends. -/
inductive Role where
  | ap
  | sta
deriving DecidableEq

/-- `EXAMPLE_PTK_HEX`. -/
def examplePtkHex : Text :=
  ("00112233445566778899aabbccddeeff" ++ "0102030405060708090a0b0c0d0e0f10" ++
    "aabbccddeeff00112233445566778899").toList

/-- The options of the scripts' parser. -/
inductive SenderOpt where
  | help
  | host
  | port
  | withPrefix
  | interface
  | waitTimeout
  | retry
deriving DecidableEq

/-- The calls of `add_argument`, after the `-h` the parser adds by itself. -/
def senderTable : List (Opt SenderOpt) :=
  [⟨["-h".toList, "--help".toList], false, .help⟩,
    ⟨["--host".toList], true, .host⟩,
    ⟨["--port".toList], true, .port⟩,
    ⟨["--prefix".toList], false, .withPrefix⟩,
    ⟨["--interface".toList], true, .interface⟩,
    ⟨["--wait-timeout".toList], true, .waitTimeout⟩,
    ⟨["--retry".toList], true, .retry⟩]

/-- What `parse_args` returns. -/
structure Args where
  ptkHex : Text
  host : Text
  port : ℤ
  withPrefix : Bool
  interface : Text
  waitTimeout : ℤ
  retry : ℤ
deriving DecidableEq

/-- `WIFI_INTERFACE`, where the environment does not set it. -/
def Role.wifiInterface : Role → Text
  | .ap => "wlx90de8088c692".toList
  | .sta => "wlx90de8088c693".toList

/-- The defaults. -/
def Role.defaults (r : Role) : Args where
  ptkHex := examplePtkHex
  host := "127.0.0.1".toList
  port := match r with | .ap => 9899 | .sta => 9900
  withPrefix := false
  interface := r.wifiInterface
  waitTimeout := 10
  retry := 3

/-- How the parser ends: the help text and status 0, a usage message and status 2, or the
arguments. -/
inductive Parsed where
  | help
  | error
  | args (a : Args)
deriving DecidableEq

/-- `WIFI_SEND_HOST` and `WIFI_SEND_PORT`, where the environment does not set them. -/
def Role.wifiSendHost (_ : Role) : Text := "127.0.0.1".toList

def Role.wifiSendPort : Role → Text
  | .ap => "9899".toList
  | .sta => "9900".toList

/-- The arguments in `cmd`. -/
def Role.argv (r : Role) (ptkHex : Text) : List Text :=
  [ptkHex, "--host".toList, r.wifiSendHost, "--port".toList, r.wifiSendPort]

variable (nd : Char → Option ℕ)

/-- What one action of the parser does to the arguments; `none` when it ends the script. -/
def Args.act (a : Args) (o : SenderOpt) (v : Text) : Parsed :=
  match o with
  | .help => .help
  | .host => .args { a with host := v }
  | .port => match int nd v with
    | none => .error
    | some n => .args { a with port := n }
  | .withPrefix => .args { a with withPrefix := true }
  | .interface => .args { a with interface := v }
  | .waitTimeout => match int nd v with
    | none => .error
    | some n => .args { a with waitTimeout := n }
  | .retry => match int nd v with
    | none => .error
    | some n => .args { a with retry := n }

/-- The actions in order; arguments left over are an error at the end. -/
def Args.perform (a : Args) (extras : Bool) : List (Event SenderOpt) → Parsed
  | [] => if extras then .error else .args a
  | .fail :: _ => .error
  | .extra :: es => a.perform true es
  | .positional none :: es => a.perform extras es
  | .positional (some t) :: es => { a with ptkHex := t }.perform extras es
  | .act o v :: es =>
    match a.act nd o (v.getD []) with
    | .args a => a.perform extras es
    | p => p

/-- `parser.parse_args()` for the command line of `send_ptk_to_wifi`. -/
def Role.parseArgs (r : Role) (ptkHex : Text) : Parsed :=
  r.defaults.perform nd false (Lib.Argparse.parse senderTable nd (r.argv ptkHex))

/-! ## The script -/

/-- What comes from outside while the script runs. Times are in milliseconds. -/
structure Env where
  /-- `WIFI_SEND_PTK_SCRIPT.exists()`. -/
  found : Bool
  /-- The process can be started. -/
  spawned : Bool
  /-- What passes until the arguments are parsed, and from the end of `main` to the exit. -/
  startup : ℕ
  shutdown : ℕ
  /-- The calls of `check_sta_connected` or `check_wifi_associated`: the result and the time. -/
  check : ℕ → Bool × ℕ
  /-- The attempts: whether `create_connection` and `sendall` both succeed, and the time. -/
  attempt : ℕ → Bool × ℕ

/-- A line that has gone to the daemon at this host and port. -/
structure Delivery where
  host : Text
  port : ℤ
  payload : Text
deriving DecidableEq

/-- `payload`. -/
def Args.payload (a : Args) : Text :=
  if a.withPrefix then "PTK ".toList ++ strip a.ptkHex else strip a.ptkHex

namespace Env

/-- `wait_for_sta_connected`, `wait_for_association`: `n` more checks from number `i` on, and
the time they take. The scripts go on whatever comes out. -/
def waitFor (e : Env) : ℕ → ℕ → Bool × ℕ
  | 0, _ => (false, 0)
  | n + 1, i =>
    if (e.check i).1 then (true, (e.check i).2)
    else ((waitFor e n (i + 1)).1, (e.check i).2 + 1000 + (waitFor e n (i + 1)).2)

/-- The retry loop: `n` more attempts from number `i` on, a second after each but the last. -/
def attempts (e : Env) : ℕ → ℕ → Bool × ℕ
  | 0, _ => (false, 0)
  | n + 1, i =>
    if (e.attempt i).1 then (true, (e.attempt i).2)
    else ((attempts e n (i + 1)).1,
      (e.attempt i).2 + (if n = 0 then 0 else 1000) + (attempts e n (i + 1)).2)

/-- When `main` returns. -/
def spent (e : Env) (a : Args) : ℕ :=
  e.startup + (e.waitFor a.waitTimeout.toNat 0).2 + (e.attempts a.retry.toNat 0).2

end Env

/-- A run of the script: its exit status, what it has delivered, and when `main` ends. -/
structure Run where
  status : ℕ
  delivered : Option Delivery
  ended : ℕ

/-- `main` of `send_ptk_ap.py` and of `send_ptk_sta.py`. When all attempts have failed it
returns as it does after a success. -/
def main (r : Role) (ptkHex : Text) (e : Env) : Run :=
  match r.parseArgs nd ptkHex with
  | .help => ⟨0, none, e.startup⟩
  | .error => ⟨2, none, e.startup⟩
  | .args a =>
    { status := 0
      delivered :=
        if (e.attempts a.retry.toNat 0).1 then some ⟨a.host, a.port, a.payload⟩ else none
      ended := e.spent a }

/-- The `timeout=5` of `subprocess.run`. -/
def runTimeout : ℕ := 5000

/-- `send_ptk_to_wifi`: how it ends, and what has reached the daemon. A NUL cannot be passed
in an argument, which raises an exception that is not caught here. -/
def sendPtkToWifi (r : Role) (ptkHex : Text) (e : Env) : Forward × Option Delivery :=
  if !e.found then (.failed, none)
  else if '\x00' ∈ ptkHex ∨ e.spawned = false then (.raised, none)
  else
    let m := main nd r ptkHex e
    (if m.ended + e.shutdown ≤ runTimeout ∧ m.status = 0 then .ok else .failed,
      if m.ended ≤ runTimeout then m.delivered else none)

/-! ## What success means -/

variable {nd} {r : Role} {p : Text} {e : Env}

/-- The script is started. -/
structure Env.Starts (e : Env) (p : Text) : Prop where
  found : e.found = true
  spawned : e.spawned = true
  nul : '\x00' ∉ p

/-- The script gets its payload through in time. -/
def Delivers (nd : Char → Option ℕ) (r : Role) (p : Text) (e : Env) : Prop :=
  e.Starts p ∧ ∃ a, r.parseArgs nd p = .args a ∧ (∃ i < a.retry.toNat, (e.attempt i).1 = true) ∧
    e.spent a ≤ runTimeout

/-- The script ends in time and not with a usage message. -/
def Succeeds (nd : Char → Option ℕ) (r : Role) (p : Text) (e : Env) : Prop :=
  e.Starts p ∧ (r.parseArgs nd p = .help ∧ e.startup + e.shutdown ≤ runTimeout ∨
    ∃ a, r.parseArgs nd p = .args a ∧ e.spent a + e.shutdown ≤ runTimeout)

/-! The two for each way the parser ends. -/

theorem delivers_args {a : Args} (h : r.parseArgs nd p = .args a) :
    Delivers nd r p e ↔
      e.Starts p ∧ (∃ i < a.retry.toNat, (e.attempt i).1 = true) ∧ e.spent a ≤ runTimeout := by
  simp [Delivers, h]

theorem not_delivers_help (h : r.parseArgs nd p = .help) : ¬ Delivers nd r p e := by
  simp [Delivers, h]

theorem not_delivers_error (h : r.parseArgs nd p = .error) : ¬ Delivers nd r p e := by
  simp [Delivers, h]

theorem succeeds_args {a : Args} (h : r.parseArgs nd p = .args a) :
    Succeeds nd r p e ↔ e.Starts p ∧ e.spent a + e.shutdown ≤ runTimeout := by
  simp [Succeeds, h]

theorem succeeds_help (h : r.parseArgs nd p = .help) :
    Succeeds nd r p e ↔ e.Starts p ∧ e.startup + e.shutdown ≤ runTimeout := by
  simp [Succeeds, h]

theorem not_succeeds_error (h : r.parseArgs nd p = .error) : ¬ Succeeds nd r p e := by
  simp [Succeeds, h]

/-- The parser's view of the caller's own two options. -/
theorem tokens_tail (r : Role) :
    Lib.Argparse.tokens senderTable nd (r.argv p).tail =
      [.opt (.value [] .host), .arg r.wifiSendHost, .opt (.value [] .port),
        .arg r.wifiSendPort] := by
  cases r <;> rfl

theorem int_port (r : Role) : int nd r.wifiSendPort = some r.defaults.port := by
  cases r <;> rfl

/-- **A PTK string that does not begin with a dash** is the positional argument. -/
theorem parse_ptk (r : Role) (h : p.head? ≠ some '-') :
    r.parseArgs nd p = .args { r.defaults with ptkHex := p } := by
  have hne : p ≠ ['-', '-'] := by
    rintro rfl
    exact h rfl
  have htok : Lib.Argparse.tokens senderTable nd (r.argv p) =
      .arg p :: Lib.Argparse.tokens senderTable nd (r.argv p).tail := by
    rw [Role.argv, Lib.Argparse.tokens_cons _ hne, Lib.Argparse.token,
      Lib.Argparse.classify_positional h, List.tail_cons]
  have hhost : r.wifiSendHost = r.defaults.host := rfl
  rw [Role.parseArgs, Lib.Argparse.parse, htok, tokens_tail]
  simp [Lib.Argparse.consume, Args.perform, Args.act, int_port, hhost]

/-- The caller's own options are the last ones, so they prevail. -/
theorem perform_local (p : Text) (pos : Bool) (es : List (Event SenderOpt)) {a b : Args}
    {extras : Bool} (h : a.perform nd extras (es ++ Lib.Argparse.consume pos
      (Lib.Argparse.tokens senderTable nd (r.argv p).tail)) = .args b) :
    b.host = r.wifiSendHost ∧ b.port = r.defaults.port := by
  induction es generalizing a extras with
  | nil =>
    rw [tokens_tail] at h
    cases pos <;> cases extras <;>
      simp [Lib.Argparse.consume, Args.perform, Args.act, int_port] at h <;>
      (subst h; exact ⟨rfl, rfl⟩)
  | cons e es ih =>
    cases e with
    | fail => cases h
    | extra => exact ih h
    | positional v => cases v <;> exact ih h
    | act o v =>
      rw [List.cons_append, Args.perform] at h
      split at h
      · exact ih h
      · rename_i hne
        exact absurd h (hne b)

/-- **Whatever the PTK string is**, the parsed arguments name the local daemon. -/
theorem parse_local {a : Args} (h : r.parseArgs nd p = .args a) :
    a.host = r.wifiSendHost ∧ a.port = r.defaults.port := by
  unfold Role.parseArgs Lib.Argparse.parse at h
  split at h
  · cases h
  · rename_i hamb
    by_cases hp : p = ['-', '-']
    · subst hp
      cases r <;> cases h
    · have htok : Lib.Argparse.tokens senderTable nd (r.argv p) =
          Lib.Argparse.token senderTable nd p ::
            Lib.Argparse.tokens senderTable nd (r.argv p).tail :=
        Lib.Argparse.tokens_cons _ hp
      rw [htok] at h
      cases ht : Lib.Argparse.token senderTable nd p with
      | arg t =>
        rw [ht, tokens_tail] at h
        exact perform_local p false [.positional (some t)] (by rw [tokens_tail]; exact h)
      | dashes =>
        rw [ht, tokens_tail] at h
        exact perform_local p false [.positional none] (by rw [tokens_tail]; exact h)
      | opt n =>
        rw [ht] at h
        cases n with
        | done es => exact perform_local p true es h
        | value es a =>
          rw [tokens_tail] at h
          cases h
        | fail => cases h
      | ambiguous =>
        rw [ht] at h
        cases h

theorem attempts_iff (e : Env) (n i : ℕ) :
    (e.attempts n i).1 = true ↔ ∃ j < n, (e.attempt (i + j)).1 = true := by
  induction n generalizing i with
  | zero => simp [Env.attempts]
  | succ n ih =>
    by_cases h : (e.attempt i).1 = true
    · have h0 : (e.attempts (n + 1) i).1 = true := by rw [Env.attempts, if_pos h]
      exact iff_of_true h0 ⟨0, by omega, h⟩
    · rw [Env.attempts, if_neg h, ih]
      constructor
      · rintro ⟨j, hj, hs⟩
        exact ⟨j + 1, by omega, by rwa [show i + (j + 1) = i + 1 + j from by omega]⟩
      · rintro ⟨j, hj, hs⟩
        cases j with
        | zero => exact absurd hs h
        | succ j =>
          exact ⟨j, by omega, by rwa [show i + 1 + j = i + (j + 1) from by omega]⟩

theorem send_eq (h : e.Starts p) :
    sendPtkToWifi nd r p e =
      (if (main nd r p e).ended + e.shutdown ≤ runTimeout ∧ (main nd r p e).status = 0 then
        .ok else .failed,
      if (main nd r p e).ended ≤ runTimeout then (main nd r p e).delivered else none) := by
  have hn : ¬ ('\x00' ∈ p ∨ e.spawned = false) := by
    rw [not_or]; exact ⟨h.nul, by simp [h.spawned]⟩
  rw [sendPtkToWifi, if_neg (by simp [h.found]), if_neg hn]

theorem send_raised : (sendPtkToWifi nd r p e).1 = .raised ↔
    e.found = true ∧ ('\x00' ∈ p ∨ e.spawned = false) := by
  unfold sendPtkToWifi
  split
  · simp_all
  · split
    · simp_all
    · simp only
      split <;> simp_all

/-- A script that is not started does nothing. -/
theorem send_not_started (h : ¬ e.Starts p) :
    (sendPtkToWifi nd r p e).1 ≠ .ok ∧ (sendPtkToWifi nd r p e).2 = none := by
  unfold sendPtkToWifi
  split
  · simp
  · split
    · simp
    · rename_i hf hs
      rw [not_or] at hs
      exact absurd ⟨by simpa using hf, by simpa using hs.2, hs.1⟩ h

/-- **What reaches the daemon**: the payload of the parsed arguments, when an attempt succeeds
in time. -/
theorem send_delivered (d : Delivery) :
    (sendPtkToWifi nd r p e).2 = some d ↔ e.Starts p ∧ ∃ a, r.parseArgs nd p = .args a ∧
      (∃ i < a.retry.toNat, (e.attempt i).1 = true) ∧ e.spent a ≤ runTimeout ∧
      d = ⟨a.host, a.port, a.payload⟩ := by
  by_cases h : e.Starts p
  · have hatt := fun n => attempts_iff e n 0
    simp only [Nat.zero_add] at hatt
    rw [send_eq h, main]
    cases hp : r.parseArgs nd p with
    | help => simp
    | error => simp
    | args a =>
      simp only [h, true_and, Parsed.args.injEq, exists_eq_left', ← hatt]
      by_cases ht : e.spent a ≤ runTimeout
      · by_cases hs : (e.attempts a.retry.toNat 0).1 = true
        · simp [ht, hs, eq_comm]
        · simp [ht, hs]
      · simp [ht]
  · rw [(send_not_started h).2]
    simp [h]

theorem send_delivers : (sendPtkToWifi nd r p e).2.isSome ↔ Delivers nd r p e := by
  rw [Option.isSome_iff_exists]
  constructor
  · rintro ⟨d, hd⟩
    obtain ⟨h, a, h1, h2, h3, -⟩ := (send_delivered d).1 hd
    exact ⟨h, a, h1, h2, h3⟩
  · rintro ⟨h, a, h1, h2, h3⟩
    exact ⟨_, (send_delivered _).2 ⟨h, a, h1, h2, h3, rfl⟩⟩

/-- **What True means**: the script has ended in time, having parsed its arguments or shown its
help. -/
theorem send_ok : (sendPtkToWifi nd r p e).1 = .ok ↔ Succeeds nd r p e := by
  by_cases h : e.Starts p
  · rw [send_eq h, main, Succeeds]
    cases hp : r.parseArgs nd p with
    | help => simp [h]
    | error => simp
    | args a => simp [h]
  · simp [send_not_started h, Succeeds, h]

end Lightguard.Forward
