import Lightguard.Forward.Sender

/-!
# Forwarding a synchronised PTK

One connection of the STA's `run_sync_server`, whatever octets arrive on it, and one run of the
AP's `sync_with_sta_and_install`, down to what reaches the two WiFi daemons.

* `forwarded_iff`: when only the well-formed PTK of the `SYNC` message is delivered.
* `installed_iff`: when a reported installation means a delivery.
-/

namespace Lightguard.Forward

open Lib (hexlify)
open Lib.Python (strip decode encode)
open Sync (Forward newPtk)

/-! ## The two ends -/

/-- What comes from outside while the STA serves one connection. -/
structure ServeEnv where
  /-- `last_ptk_hex`. -/
  lastPtkHex : Option Text
  /-- The last call of `check_wifi_associated` in step 3. -/
  associated : Bool
  /-- `READY` is sent without an exception. -/
  readySent : Bool
  /-- What the second `recv` returns, `none` when it raises. -/
  install : Option Bytes
  /-- What the main loop reads from wpa_supplicant between steps 2 and 6, and whether
  `write_ptk_tk` succeeds. -/
  stored : List (Bytes × Bool)
  /-- `check_wifi_associated` in step 6. -/
  stillAssociated : Bool
  /-- `OK` is sent without an exception. -/
  okSent : Bool
  script : Env

/-- What `run_sync_server` has done for a connection. -/
structure Served where
  delivered : Option Delivery
  /-- `OK` is sent. -/
  ok : Bool
  /-- `last_ptk_install_time` is set. -/
  installTime : Bool
deriving DecidableEq

/-- `ap_ptk_hex`: what the first message carries behind `SYNC `. -/
def carried (data : Bytes) : Option Text :=
  (decode data).bind fun t =>
    if "SYNC ".toList <+: strip t then some (strip ((strip t).drop 5)) else none

/-- `pending_ptk_hex` after the main loop has stored its PTKs. -/
def pendingPtkHex (last : Option Text) : Text → List (Bytes × Bool) → Text
  | q, [] => q
  | q, (data, written) :: l =>
    match newPtk last data with
    | some p => pendingPtkHex last (if written then p else q) l
    | none => pendingPtkHex last q l

/-- Steps 1 to 6 up to the call of `send_ptk_to_wifi`, with its argument; `none` when the
connection does not get there. -/
def handed (data : Bytes) (x : ServeEnv) : Option Text := do
  let apPtkHex ← carried data
  guard (x.associated && x.readySent)
  let cmd ← x.install.bind decode
  guard (strip cmd = "INSTALL".toList)
  let q := pendingPtkHex x.lastPtkHex apPtkHex x.stored
  guard (q ≠ [] && x.stillAssociated)
  return q

variable (nd : Char → Option ℕ)

/-- `run_sync_server` on one connection. -/
def serve (data : Bytes) (x : ServeEnv) : Served :=
  match handed data x with
  | none => ⟨none, false, false⟩
  | some q =>
    match sendPtkToWifi nd .sta q x.script with
    | (.ok, d) => ⟨d, x.okSent, true⟩
    | (_, d) => ⟨d, false, false⟩

/-- What comes from outside during `sync_with_sta_and_install`. -/
structure SyncEnv where
  /-- The connection is made and `SYNC` sent. -/
  syncSent : Bool
  /-- What the two calls of `recv` return, `none` when one raises. -/
  ready : Option Bytes
  reply : Option Bytes
  installSent : Bool
  script : Env

/-- The STA has answered `READY` and `OK`. -/
def SyncEnv.confirmed (a : SyncEnv) : Bool :=
  a.syncSent && (a.ready.bind decode).map strip = some "READY".toList && a.installSent &&
    (a.reply.bind decode).map strip = some "OK".toList

/-- `sync_with_sta_and_install`, whose True makes the main loop set `last_ptk_install_time`.
The result of `send_ptk_to_wifi` is not looked at. -/
def syncWithStaAndInstall (ptkHex : Text) (a : SyncEnv) : Bool × Option Delivery :=
  if a.confirmed then
    match sendPtkToWifi nd .ap ptkHex a.script with
    | (.raised, d) => (false, d)
    | (_, d) => (true, d)
  else (false, none)

/-! ## What is forwarded -/

variable {nd} {data : Bytes} {x : ServeEnv} {p q : Text}

/-- A PTK for CCMP in hexadecimal. -/
structure Hex96 (t : Text) : Prop where
  length : t.length = 96
  digits : ∀ c ∈ t, c ∈ "0123456789abcdefABCDEF".toList

instance (t : Text) : Decidable (Hex96 t) :=
  have : Decidable (∀ c ∈ t, c ∈ "0123456789abcdefABCDEF".toList) := t.decidableBAll _
  decidable_of_iff (t.length = 96 ∧ ∀ c ∈ t, c ∈ "0123456789abcdefABCDEF".toList)
    ⟨fun h => ⟨h.1, h.2⟩, fun h => ⟨h.1, h.2⟩⟩

/-- No digit is white space or a dash. -/
theorem digit_plain : ∀ c ∈ "0123456789abcdefABCDEF".toList,
    Lib.Python.isspace c = false ∧ c ≠ '-' := by
  have hall : ("0123456789abcdefABCDEF".toList.all fun c => !Lib.Python.isspace c && c != '-') := by
    decide
  intro c hc
  simpa using List.all_eq_true.1 hall c hc

/-- Digits have nothing to strip, -/
theorem strip_digits (h : ∀ c ∈ p, c ∈ "0123456789abcdefABCDEF".toList) : strip p = p := by
  have hplain : ∀ c ∈ p, Lib.Python.isspace c = false := fun c hc => (digit_plain c (h c hc)).1
  exact Lib.strip_eq_self_iff.2 ⟨fun hn => by simp [hplain _ (List.head_mem hn)],
    fun hn => by simp [hplain _ (List.getLast_mem hn)]⟩

theorem digits_not_dash (h : ∀ c ∈ p, c ∈ "0123456789abcdefABCDEF".toList) :
    p.head? ≠ some '-' := by
  intro hd
  have hmem : '-' ∈ p := List.mem_of_mem_head? hd
  exact (digit_plain _ (h _ hmem)).2 rfl

/-- and are delivered as they are. -/
theorem delivered_digits {r : Role} {e : Env} {d : Delivery}
    (h : ∀ c ∈ q, c ∈ "0123456789abcdefABCDEF".toList)
    (hd : (sendPtkToWifi nd r q e).2 = some d) : d.payload = q := by
  obtain ⟨-, a, ha, -, -, rfl⟩ := (send_delivered d).1 hd
  rw [parse_ptk r (digits_not_dash h), Parsed.args.injEq] at ha
  subst ha
  exact strip_digits h

theorem hexlify_digits {b : Bytes} : ∀ c ∈ hexlify b, c ∈ "0123456789abcdefABCDEF".toList := by
  have hsub : Lib.hexDigits.all ("0123456789abcdefABCDEF".toList.contains ·) := by decide
  intro c hc
  exact List.contains_iff_mem.1 (List.all_eq_true.1 hsub c (Lib.mem_hexlify hc))

theorem newPtk_eq {last : Option Text} (h : newPtk last data = some p) :
    data.length = 48 ∧ p = hexlify data := by
  unfold newPtk at h
  split at h
  · rename_i hd
    exact ⟨hd.1, (Option.some.inj h).symm⟩
  · cases h

/-- What the main loop stores is a PTK for CCMP. -/
theorem newPtk_hex96 {last : Option Text} (h : newPtk last data = some p) : Hex96 p := by
  obtain ⟨hlen, rfl⟩ := newPtk_eq h
  exact ⟨by rw [Lib.length_hexlify, hlen], hexlify_digits⟩

/-- The PTK in the buffer is the message's own or one of the main loop's. -/
theorem pendingPtkHex_cases (last : Option Text) (q : Text) (l : List (Bytes × Bool)) :
    pendingPtkHex last q l = q ∨ Hex96 (pendingPtkHex last q l) := by
  induction l generalizing q with
  | nil => exact .inl rfl
  | cons a l ih =>
    obtain ⟨b, written⟩ := a
    rw [pendingPtkHex]
    split
    · rename_i p hp
      cases written with
      | false => exact ih q
      | true =>
        simp only [if_true]
        rcases ih p with h | h
        · exact .inr (by rw [h]; exact newPtk_hex96 hp)
        · exact .inr h
    · exact ih q

/-- The PTKs the main loop stores while the connection is served, in order. -/
def ServeEnv.storedPtks (x : ServeEnv) : List Text :=
  x.stored.filterMap fun r => if r.2 then newPtk x.lastPtkHex r.1 else none

/-- The string in the buffer at step 6: the last PTK the main loop has stored, or the message's. -/
def buffered (t : Text) (x : ServeEnv) : Text := x.storedPtks.getLast?.getD t

theorem pendingPtkHex_eq (last : Option Text) (q : Text) (l : List (Bytes × Bool)) :
    pendingPtkHex last q l =
      (l.filterMap fun r => if r.2 then newPtk last r.1 else none).getLast?.getD q := by
  induction l generalizing q with
  | nil => rfl
  | cons r l ih =>
    obtain ⟨b, written⟩ := r
    rw [pendingPtkHex, List.filterMap_cons]
    cases hn : newPtk last b with
    | none => simpa [hn] using ih q
    | some p =>
      cases written with
      | false => simpa [hn] using ih q
      | true =>
        simp only [if_true]
        rw [ih p, List.getLast?_cons, Option.getD_some]

/-- The exchange gets to step 6 with something in the buffer. -/
structure GoesOn (data : Bytes) (x : ServeEnv) (t : Text) : Prop where
  message : carried data = some t
  associated : x.associated = true
  readySent : x.readySent = true
  install : (x.install.bind decode).map strip = some "INSTALL".toList
  buffer : buffered t x ≠ []
  stillAssociated : x.stillAssociated = true

/-- What gets to `send_ptk_to_wifi` is the buffer. -/
theorem handed_iff : handed data x = some q ↔ ∃ t, GoesOn data x t ∧ q = buffered t x := by
  simp only [handed, Option.bind_eq_bind, Option.bind_eq_some_iff, Option.guard_eq_some',
    Option.pure_def, pendingPtkHex_eq, Bool.and_eq_true, decide_eq_true_eq]
  constructor
  · rintro ⟨t, hc, -, ⟨h1, h2⟩, cmd, ⟨d, hi, hd⟩, -, h3, -, ⟨h4, h5⟩, hq⟩
    have hinst : (x.install.bind decode).map strip = some "INSTALL".toList := by
      rw [hi, Option.bind_some, hd, Option.map_some, h3]
    exact ⟨t, ⟨hc, h1, h2, hinst, h4, h5⟩, (Option.some.inj hq).symm⟩
  · rintro ⟨t, h, rfl⟩
    obtain ⟨cmd, hcmd, h3⟩ := Option.map_eq_some_iff.1 h.install
    obtain ⟨d, hi, hd⟩ := Option.bind_eq_some_iff.1 hcmd
    exact ⟨t, h.message, (), ⟨h.associated, h.readySent⟩, cmd, ⟨d, hi, hd⟩, (), h3, (),
      ⟨h.buffer, h.stillAssociated⟩, rfl⟩

theorem handed_cases (h : handed data x = some q) :
    carried data = some q ∨ Hex96 q := by
  simp only [handed, Option.bind_eq_bind, Option.bind_eq_some_iff, Option.pure_def] at h
  obtain ⟨hex, hc, -, -, -, -, -, -, -, -, hq⟩ := h
  rw [Option.some.injEq] at hq
  rcases pendingPtkHex_cases x.lastPtkHex hex x.stored with h1 | h1
  · exact .inl (by rw [hc, ← hq, h1])
  · exact .inr (by rwa [← hq])

theorem serve_none (h : handed data x = none) : serve nd data x = ⟨none, false, false⟩ := by
  rw [serve, h]

theorem serve_some (h : handed data x = some q) :
    (serve nd data x).delivered = (sendPtkToWifi nd .sta q x.script).2 ∧
      ((serve nd data x).ok = true ↔ Succeeds nd .sta q x.script ∧ x.okSent = true) ∧
      ((serve nd data x).installTime = true ↔ Succeeds nd .sta q x.script) := by
  rw [← send_ok, serve, h]
  cases hs : sendPtkToWifi nd .sta q x.script with
  | mk o d => cases o <;> simp [hs]

/-- The message carries a well-formed PTK. -/
def CarriesPtk (data : Bytes) : Prop := ∃ h, carried data = some h ∧ Hex96 h

/-- What is delivered is the PTK of the message, possibly with the prefix, and without one
nothing is delivered and `OK` is not sent. -/
structure OnlySynced (data : Bytes) (s : Served) : Prop where
  delivered : ∀ d, s.delivered = some d →
    ∃ h, carried data = some h ∧ Hex96 h ∧ (d.payload = h ∨ d.payload = "PTK ".toList ++ h)
  refused : ¬ CarriesPtk data → s.delivered = none ∧ s.ok = false

/-- The outcome in terms of what gets to `send_ptk_to_wifi` and what the script makes of it. -/
theorem onlySynced_handed (nd : Char → Option ℕ) (data : Bytes) (x : ServeEnv) :
    OnlySynced data (serve nd data x) ↔
      ∀ q, handed data x = some q → carried data = some q ∧ Hex96 q ∨
        ¬ Delivers nd .sta q x.script ∧
          (CarriesPtk data ∨ ¬ Succeeds nd .sta q x.script ∨ x.okSent = false) := by
  cases hq : handed data x with
  | none =>
    rw [serve_none hq]
    refine iff_of_true ⟨?_, fun _ => ⟨rfl, rfl⟩⟩ ?_
    · intro d hd
      cases hd
    · intro q h
      cases h
  | some q =>
    obtain ⟨hdel, hok, -⟩ := @serve_some nd data x q hq
    simp only [Option.some.injEq, forall_eq']
    constructor
    · intro h
      by_cases hc : CarriesPtk data
      · obtain ⟨hex, hc1, hc2⟩ := hc
        by_cases hqh : q = hex
        · exact .inl ⟨by rw [hc1, hqh], by rwa [hqh]⟩
        · refine .inr ⟨fun hd => ?_, .inl ⟨hex, hc1, hc2⟩⟩
          -- a PTK of the main loop has taken the place of the message's
          have hq96 : Hex96 q := by
            rcases handed_cases hq with h1 | h1
            · rw [hc1, Option.some.injEq] at h1
              exact absurd h1.symm hqh
            · exact h1
          obtain ⟨d, hd⟩ := Option.isSome_iff_exists.1 (send_delivers.2 hd)
          obtain ⟨hex', h1, -, h2⟩ := h.delivered d (by rw [hdel, hd])
          rw [hc1, Option.some.injEq] at h1
          subst h1
          rw [delivered_digits hq96.digits hd] at h2
          rcases h2 with h2 | h2
          · exact hqh h2
          · have := congrArg List.length h2
            rw [List.length_append, hq96.length, hc2.length] at this
            simp at this
      · obtain ⟨h1, h2⟩ := h.refused hc
        refine .inr ⟨fun hd => ?_, .inr ?_⟩
        · have := send_delivers.2 hd
          rw [← hdel, h1] at this
          cases this
        · rw [← Bool.not_eq_true, hok, not_and, Bool.not_eq_true] at h2
          exact not_or_of_imp h2
    · rintro (⟨hc, h96⟩ | ⟨hnd, hno⟩)
      · refine ⟨fun d hd => ⟨q, hc, h96, .inl ?_⟩, fun hn => absurd ⟨q, hc, h96⟩ hn⟩
        rw [hdel] at hd
        exact delivered_digits h96.digits hd
      · have hnone : (serve nd data x).delivered = none := by
          rw [hdel]
          by_contra hne
          exact hnd (send_delivers.1 (Option.isSome_iff_ne_none.2 hne))
        refine ⟨?_, fun hn => ⟨hnone, ?_⟩⟩
        · intro d hd
          rw [hnone] at hd
          cases hd
        · rw [← Bool.not_eq_true, hok]
          rintro ⟨hs, hsent⟩
          rcases hno.resolve_left hn with h | h
          · exact h hs
          · rw [h] at hsent
            cases hsent

/-- Nothing but the PTK `t` of the message can get out, and without one no success is reported:
the buffer is that PTK; or the script does not start, the parser refuses its argument, the help text
or the checks take too long, or no attempt is accepted; or `OK` cannot be sent. -/
inductive Harmless (nd : Char → Option ℕ) (t : Text) (x : ServeEnv) : Prop
  | own (h96 : Hex96 t) (hl : ∀ p ∈ x.storedPtks.getLast?, p = t)
  | notStarted (h : ¬ x.script.Starts (buffered t x))
  | usage (h : Role.sta.parseArgs nd (buffered t x) = .error)
  | help (h : Role.sta.parseArgs nd (buffered t x) = .help)
      (hl : runTimeout < x.script.startup + x.script.shutdown ∨ x.okSent = false)
  | stopped (a : Args) (h : Role.sta.parseArgs nd (buffered t x) = .args a)
      (hl : runTimeout < x.script.spent a)
  | unreachable (a : Args) (h : Role.sta.parseArgs nd (buffered t x) = .args a)
      (hd : ∀ i < a.retry.toNat, (x.script.attempt i).1 = false)
      (hr : Hex96 t ∨ runTimeout < x.script.spent a + x.script.shutdown ∨ x.okSent = false)

theorem buffered_cases (t : Text) (x : ServeEnv) : buffered t x = t ∨ Hex96 (buffered t x) := by
  have h := pendingPtkHex_cases x.lastPtkHex t x.stored
  rwa [pendingPtkHex_eq] at h

theorem buffered_eq_self {t : Text} :
    buffered t x = t ↔ ∀ p ∈ x.storedPtks.getLast?, p = t := by
  unfold buffered
  cases x.storedPtks.getLast? with
  | none => simp
  | some p => simp

/-- A PTK for CCMP is the positional argument. -/
theorem parse_hex96 (r : Role) (h : Hex96 q) :
    r.parseArgs nd q = .args { r.defaults with ptkHex := q } :=
  parse_ptk r (digits_not_dash h.digits)

/-- **When only the synchronised PTK is forwarded.** For every first message and every course
of the exchange behind it: exactly when an exchange that gets to step 6 with the message's `t` is
harmless. -/
theorem forwarded_iff (nd : Char → Option ℕ) (data : Bytes) (x : ServeEnv) :
    OnlySynced data (serve nd data x) ↔ ∀ t, GoesOn data x t → Harmless nd t x := by
  rw [onlySynced_handed]
  constructor
  · intro h t ht
    have hcarries : CarriesPtk data ↔ Hex96 t := by
      simp [CarriesPtk, ht.message]
    rcases h _ (handed_iff.2 ⟨t, ht, rfl⟩) with ⟨hc, h96⟩ | ⟨hnd, hno⟩
    · have hown : buffered t x = t := by
        rw [ht.message, Option.some.injEq] at hc
        exact hc.symm
      exact .own (by rwa [← hown]) (buffered_eq_self.1 hown)
    · rw [hcarries] at hno
      by_cases hst : x.script.Starts (buffered t x)
      · cases hp : Role.sta.parseArgs nd (buffered t x) with
        | error => exact .usage hp
        | help =>
          refine .help hp ?_
          -- a PTK is not taken for an option
          have hn96 : ¬ Hex96 t := by
            intro h96
            have hb : Hex96 (buffered t x) := by
              rcases buffered_cases t x with h1 | h1
              · rwa [h1]
              · exact h1
            rw [parse_hex96 .sta hb] at hp
            cases hp
          have hs := hno.resolve_left hn96
          rw [succeeds_help hp] at hs
          simpa [hst] using hs
        | args a =>
          rw [delivers_args hp] at hnd
          rw [succeeds_args hp] at hno
          by_cases ht' : x.script.spent a ≤ runTimeout
          · exact .unreachable a hp (by simpa [hst, ht'] using hnd) (by simpa [hst] using hno)
          · exact .stopped a hp (by omega)
      · exact .notStarted hst
  · intro h q hq
    obtain ⟨t, ht, rfl⟩ := handed_iff.1 hq
    have hcarries : CarriesPtk data ↔ Hex96 t := by
      simp [CarriesPtk, ht.message]
    rw [hcarries]
    cases h t ht with
    | own h96 hl =>
      rw [buffered_eq_self.2 hl]
      exact .inl ⟨ht.message, h96⟩
    | notStarted hst => exact .inr ⟨fun hd => hst hd.1, .inr (.inl fun hs => hst hs.1)⟩
    | usage hp => exact .inr ⟨not_delivers_error hp, .inr (.inl (not_succeeds_error hp))⟩
    | help hp hl =>
      rw [succeeds_help hp]
      exact .inr ⟨not_delivers_help hp, .inr (hl.imp_left fun hl => by omega)⟩
    | stopped a hp hl =>
      rw [delivers_args hp, succeeds_args hp]
      exact .inr ⟨by omega, .inr (.inl (by omega))⟩
    | unreachable a hp hd hr =>
      rw [delivers_args hp, succeeds_args hp]
      refine .inr ⟨?_, hr.imp_right fun hr => hr.imp_left fun hl => by omega⟩
      rintro ⟨-, ⟨i, hi, h2⟩, -⟩
      simp [hd i hi] at h2

/-- ASCII digits only. -/
def asciiOnly (_ : Char) : Option ℕ := none

/-- The daemon is up, everything is quick, and WiFi is associated. -/
def envUp : Env := ⟨true, true, 100, 50, fun _ => (true, 10), fun _ => (true, 5)⟩

/-- An exchange in which everything works and the main loop stores nothing. -/
def serveUp : ServeEnv :=
  ⟨none, true, true, some (encode "INSTALL\n".toList), [], true, true, envUp⟩

/-- The first message for the argument `t`. -/
def syncData (t : Text) : Bytes := encode ("SYNC ".toList ++ t ++ ['\n'])

/-- A message that carries an option makes the script deliver its example. -/
theorem example_forwarded : ∃ d, (serve asciiOnly (syncData "--prefix".toList) serveUp).delivered =
      some d ∧ d.payload = "PTK ".toList ++ examplePtkHex ∧
    (serve asciiOnly (syncData "--prefix".toList) serveUp).ok = true ∧
    ¬ OnlySynced (syncData "--prefix".toList)
      (serve asciiOnly (syncData "--prefix".toList) serveUp) := by
  have hc : carried (syncData "--prefix".toList) = some "--prefix".toList := by
    rw [carried, syncData, Lib.Python.decode_encode]
    rfl
  have hh : handed (syncData "--prefix".toList) serveUp = some "--prefix".toList := by
    rw [handed, hc]
    simp only [serveUp, Option.bind_some, Lib.Python.decode_encode]
    rfl
  have hs : serve asciiOnly (syncData "--prefix".toList) serveUp =
      ⟨some ⟨"127.0.0.1".toList, 9900, "PTK ".toList ++ examplePtkHex⟩, true, true⟩ := by
    rw [serve, hh]
    rfl
  rw [hs]
  refine ⟨_, rfl, rfl, rfl, fun h => ?_⟩
  obtain ⟨-, h2⟩ := h.refused (by
    rintro ⟨t, h1, h2⟩
    rw [hc, Option.some.injEq] at h1
    subst h1
    exact absurd h2.length (by decide))
  cases h2

/-! ## What is reported as installed -/

/-- The string has gone to the daemon of this end, whole and as it is but for white space around
it. -/
def DeliveredHere (r : Role) (p : Text) (o : Option Delivery) : Prop :=
  o = some ⟨r.wifiSendHost, r.defaults.port, strip p⟩

/-- True, `OK` and the install times all come behind a delivery on the same side: of the string
that the function was called with, or of what the STA has in its buffer. -/
structure NoFalseSuccess (nd : Char → Option ℕ) (r : Role) (p : Text) (e : Env) (data : Bytes)
    (x : ServeEnv) (a : SyncEnv) : Prop where
  sent : (sendPtkToWifi nd r p e).1 = .ok → DeliveredHere r p (sendPtkToWifi nd r p e).2
  ok : (serve nd data x).ok = true → ∃ t, carried data = some t ∧
    DeliveredHere .sta (buffered t x) (serve nd data x).delivered
  sta : (serve nd data x).installTime = true → ∃ t, carried data = some t ∧
    DeliveredHere .sta (buffered t x) (serve nd data x).delivered
  ap : (syncWithStaAndInstall nd p a).1 = true →
    DeliveredHere .ap p (syncWithStaAndInstall nd p a).2

/-- The parser takes the string for its positional argument, and one of the attempts is accepted. -/
structure Accepted (p : Text) (e : Env) (a : Args) : Prop where
  payload : a.payload = strip p
  attempt : ∃ i < a.retry.toNat, (e.attempt i).1 = true

/-- The ways in which a script's status tells the truth: it is not started, or refuses its argument,
or is too late, or an attempt is accepted. -/
inductive Truthful (nd : Char → Option ℕ) (r : Role) (p : Text) (e : Env) : Prop
  | notStarted (h : ¬ e.Starts p)
  | usage (h : r.parseArgs nd p = .error)
  | help (h : r.parseArgs nd p = .help) (hl : runTimeout < e.startup + e.shutdown)
  | late (a : Args) (h : r.parseArgs nd p = .args a) (hl : runTimeout < e.spent a + e.shutdown)
  | accepted (a : Args) (h : r.parseArgs nd p = .args a) (ha : Accepted p e a)

/-- The ways for the AP, which looks at no status: the STA has not answered, or starting the script
raises an exception, or an attempt is accepted before the script is stopped. -/
inductive ApTruthful (nd : Char → Option ℕ) (p : Text) (x : SyncEnv) : Prop
  | unconfirmed (h : x.confirmed = false)
  | raises (hf : x.script.found = true) (h : '\x00' ∈ p ∨ x.script.spawned = false)
  | accepted (a : Args) (hst : x.script.Starts p) (h : Role.ap.parseArgs nd p = .args a)
      (ha : Accepted p x.script a) (hl : x.script.spent a ≤ runTimeout)

/-- A delivery of the string. -/
theorem deliveredHere_iff {r : Role} {e : Env} :
    DeliveredHere r p (sendPtkToWifi nd r p e).2 ↔ e.Starts p ∧ ∃ a, r.parseArgs nd p = .args a ∧
      Accepted p e a ∧ e.spent a ≤ runTimeout := by
  rw [DeliveredHere, send_delivered]
  constructor
  · rintro ⟨hst, a, hp, hs, ht, heq⟩
    rw [Delivery.mk.injEq] at heq
    exact ⟨hst, a, hp, ⟨heq.2.2.symm, hs⟩, ht⟩
  · rintro ⟨hst, a, hp, ⟨hpay, hs⟩, ht⟩
    obtain ⟨hhost, hport⟩ := parse_local hp
    exact ⟨hst, a, hp, hs, ht, by rw [hhost, hport, hpay]⟩

/-- **One script.** -/
theorem sent_iff {r : Role} {e : Env} :
    ((sendPtkToWifi nd r p e).1 = .ok → DeliveredHere r p (sendPtkToWifi nd r p e).2) ↔
      Truthful nd r p e := by
  rw [send_ok, deliveredHere_iff]
  constructor
  · intro h
    by_cases hst : e.Starts p
    · cases hp : r.parseArgs nd p with
      | error => exact .usage hp
      | help =>
        refine .help hp ?_
        by_contra hlt
        obtain ⟨-, a, h1, -⟩ := h ((succeeds_help hp).2 ⟨hst, by omega⟩)
        rw [hp] at h1
        cases h1
      | args a =>
        by_cases hl : e.spent a + e.shutdown ≤ runTimeout
        · obtain ⟨-, b, h1, h2, -⟩ := h ((succeeds_args hp).2 ⟨hst, hl⟩)
          exact .accepted b h1 h2
        · exact .late a hp (by omega)
    · exact .notStarted hst
  · intro h hs
    cases h with
    | notStarted hst => exact absurd hs.1 hst
    | usage hp => exact absurd hs (not_succeeds_error hp)
    | help hp hl =>
      obtain ⟨-, h1⟩ := (succeeds_help hp).1 hs
      omega
    | late a hp hl =>
      obtain ⟨-, h1⟩ := (succeeds_args hp).1 hs
      omega
    | accepted a hp ha =>
      obtain ⟨hst, h1⟩ := (succeeds_args hp).1 hs
      exact ⟨hst, a, hp, ha, by omega⟩

/-- **The STA's install time.** -/
theorem served_iff : ((serve nd data x).installTime = true → ∃ t, carried data = some t ∧
      DeliveredHere .sta (buffered t x) (serve nd data x).delivered) ↔
    ∀ t, GoesOn data x t → Truthful nd .sta (buffered t x) x.script := by
  constructor
  · intro h t ht
    obtain ⟨hdel, -, htime⟩ := @serve_some nd data x _ (handed_iff.2 ⟨t, ht, rfl⟩)
    refine sent_iff.1 fun hs => ?_
    obtain ⟨t', hc, hd⟩ := h (htime.2 (send_ok.1 hs))
    rw [ht.message, Option.some.injEq] at hc
    rw [← hdel, hc]
    exact hd
  · intro h hs
    cases hq : handed data x with
    | none =>
      rw [serve_none hq] at hs
      cases hs
    | some q =>
      obtain ⟨t, ht, rfl⟩ := handed_iff.1 hq
      obtain ⟨hdel, -, htime⟩ := @serve_some nd data x _ hq
      refine ⟨t, ht.message, ?_⟩
      rw [hdel]
      exact sent_iff.2 (h t ht) (send_ok.2 (htime.1 hs))

/-- **The AP's main loop.** -/
theorem synced_iff {a : SyncEnv} : ((syncWithStaAndInstall nd p a).1 = true →
      DeliveredHere .ap p (syncWithStaAndInstall nd p a).2) ↔ ApTruthful nd p a := by
  have hraise := @send_raised nd .ap p a.script
  have hdel := @deliveredHere_iff nd p .ap a.script
  unfold syncWithStaAndInstall
  split
  · rename_i hc
    cases hs : sendPtkToWifi nd .ap p a.script with
    | mk o d =>
      rw [hs] at hraise hdel
      have hret : ApTruthful nd p a ↔ o = .raised ∨ DeliveredHere .ap p d := by
        rw [hraise, hdel]
        constructor
        · rintro (h | ⟨h1, h2⟩ | ⟨b, hst, hp, ha, hl⟩)
          · rw [hc] at h
            cases h
          · exact .inl ⟨h1, h2⟩
          · exact .inr ⟨hst, b, hp, ha, hl⟩
        · rintro (⟨h1, h2⟩ | ⟨hst, b, hp, ha, hl⟩)
          · exact .raises h1 h2
          · exact .accepted b hst hp ha hl
      rw [hret]
      cases o <;> simp
  · rename_i hc
    exact iff_of_true (fun h => by cases h) (.unconfirmed (by simpa using hc))

/-- **When a reported installation means a delivery.** For every PTK string, every first message
and all outcomes. -/
theorem installed_iff (nd : Char → Option ℕ) (r : Role) (p : Text) (e : Env) (data : Bytes)
    (x : ServeEnv) (a : SyncEnv) :
    NoFalseSuccess nd r p e data x a ↔
      Truthful nd r p e ∧ (∀ t, GoesOn data x t → Truthful nd .sta (buffered t x) x.script) ∧
        ApTruthful nd p a := by
  -- the time is set before `OK` is sent
  have htime : (serve nd data x).ok = true → (serve nd data x).installTime = true := by
    cases hq : handed data x with
    | none =>
      rw [serve_none hq]
      exact id
    | some q =>
      obtain ⟨-, hok, htime⟩ := @serve_some nd data x q hq
      rw [hok, htime]
      exact And.left
  rw [← sent_iff, ← served_iff, ← synced_iff]
  constructor
  · intro h
    exact ⟨h.sent, h.sta, h.ap⟩
  · rintro ⟨h1, h2, h3⟩
    exact ⟨h1, fun hok => h2 (htime hok), h2, h3⟩

/-- Nothing listens on the daemon's port. -/
def envDown : Env := { envUp with attempt := fun _ => (false, 5) }

/-- The STA has confirmed its side, and the AP's daemon is down. -/
def syncDown : SyncEnv :=
  ⟨true, some (encode "READY\n".toList), some (encode "OK\n".toList), true, envDown⟩

/-- With the daemons down, three attempts fail, the script exits with status 0, and both sides
report the installation. -/
theorem down_installed : (sendPtkToWifi asciiOnly .sta examplePtkHex envDown) = (.ok, none) ∧
    serve asciiOnly (syncData examplePtkHex) { serveUp with script := envDown } =
      ⟨none, true, true⟩ ∧
    syncWithStaAndInstall asciiOnly examplePtkHex syncDown = (true, none) ∧
    ¬ NoFalseSuccess asciiOnly .sta examplePtkHex envDown (syncData examplePtkHex)
      { serveUp with script := envDown } syncDown := by
  have h1 : sendPtkToWifi asciiOnly .sta examplePtkHex envDown = (.ok, none) := by rfl
  have hc : carried (syncData examplePtkHex) = some examplePtkHex := by
    rw [carried, syncData, Lib.Python.decode_encode]
    rfl
  have hh : handed (syncData examplePtkHex) { serveUp with script := envDown } =
      some examplePtkHex := by
    rw [handed, hc]
    simp only [serveUp, Option.bind_some, Lib.Python.decode_encode]
    rfl
  have h2 : serve asciiOnly (syncData examplePtkHex) { serveUp with script := envDown } =
      ⟨none, true, true⟩ := by
    rw [serve, hh]
    rfl
  have h3 : syncWithStaAndInstall asciiOnly examplePtkHex syncDown = (true, none) := by
    have hconf : syncDown.confirmed = true := by
      simp only [SyncEnv.confirmed, syncDown, Option.bind_some, Lib.Python.decode_encode]
      rfl
    rw [syncWithStaAndInstall, if_pos hconf]
    rfl
  refine ⟨h1, h2, h3, fun h => ?_⟩
  have hd := h.sent (by rw [h1])
  rw [h1] at hd
  cases hd

end Lightguard.Forward
