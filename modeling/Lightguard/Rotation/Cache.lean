import Mathlib.Logic.Function.Basic
import Lightguard.Lib.Run
import Lightguard.Rotation.Psk

/-!
# The passphrase cached for an absent station

`lifi_listener.h` declares `cached_addr`, `cached_passphrase` and `cached_valid` as `static`, so every
translation unit has its own: `lifi_handle_line` writes those of `lifi_listener.c` (`Hapd.cachedValid` and
its neighbours), `ap_sta_add` reads those of `sta_info.c`.

* `apStaAdd_psks`: `ap_sta_add` changes no PSK, whatever is cached.
* `run_staInfo`: the value is never there when `ap_sta_add` looks for it.
* `cached_never_taken`: no cached setptk takes effect.
-/

namespace Lightguard.Rotation

variable {σ : Type}

/-! ## hostapd with its stations -/

/-- The variables of `lifi_listener.h` in one translation unit. -/
structure Cache where
  cachedAddr : Addr
  cachedPassphrase : Text
  cachedValid : Bool

/-- hostapd; the cache in `hapd` is that of `lifi_listener.c`. -/
structure Daemon (σ : Type) where
  hapd : Hapd σ
  /-- The cache of `sta_info.c`. -/
  staInfo : Cache
  numSta : ℕ
  maxNumSta : ℕ
  /-- The stations for which `ap_sta_add` has taken the cached value, the last first. -/
  taken : List Addr

/-- What happens. -/
inductive DaemonEvent (σ : Type) where
  /-- A line on the setptk listener. -/
  | line (line : Text)
  /-- `ap_sta_add`, and whether it gets its memory and accounting id. -/
  | staAdd (addr : Addr) (alloc : Bool)
  /-- A station that is known gets a state machine, or its machine goes on. -/
  | machine (addr : Addr) (sm : σ)
  /-- `ap_free_sta`. -/
  | staFree (addr : Addr)

/-- `ap_sta_add`. -/
def apStaAdd (addr : Addr) (alloc : Bool) (w : Daemon σ) : Daemon σ :=
  if (w.hapd.sta addr).isSome then w
  else if w.maxNumSta ≤ w.numSta then w
  else if !alloc then w
  else
    let w := { w with
      hapd := { w.hapd with sta := Function.update w.hapd.sta addr (some none) }
      numSta := w.numSta + 1 }
    if w.staInfo.cachedValid ∧ w.staInfo.cachedAddr = addr then
      { w with staInfo := { w.staInfo with cachedValid := false }, taken := addr :: w.taken }
    else w

/-- One event. -/
def daemonStep (pbkdf2 : Text → Bytes → ℕ → Bytes) (reauth : σ → σ) (w : Daemon σ) :
    DaemonEvent σ → Option (Daemon σ)
  | .line line =>
    match lifiHandleLine pbkdf2 reauth w.hapd line with
    | .ok hapd => some { w with hapd := hapd }
    | .error _ => some w
  | .staAdd addr alloc => some (apStaAdd addr alloc w)
  | .machine addr sm =>
    if (w.hapd.sta addr).isSome then
      some { w with hapd := { w.hapd with sta := Function.update w.hapd.sta addr (some (some sm)) } }
    else none
  | .staFree addr =>
    if (w.hapd.sta addr).isSome then
      some { w with
        hapd := { w.hapd with sta := Function.update w.hapd.sta addr none }, numSta := w.numSta - 1 }
    else none

/-- A run. -/
abbrev daemonRun (pbkdf2 : Text → Bytes → ℕ → Bytes) (reauth : σ → σ) (w : Daemon σ)
    (es : List (DaemonEvent σ)) : Option (Daemon σ) :=
  Lib.run (daemonStep pbkdf2 reauth) w es

/-- hostapd when it starts: static variables are zero. -/
structure Daemon.Starts (w : Daemon σ) : Prop where
  listener : w.hapd.cachedValid = false
  staInfo : w.staInfo.cachedValid = false

/-! ## The cache of `sta_info.c` -/

variable {pbkdf2 : Text → Bytes → ℕ → Bytes} {reauth : σ → σ} {w w' w₁ w₂ w₃ w₄ : Daemon σ}
  {a : Addr} {p : Text}

/-- **Adding a station** changes no PSK: the cached passphrase is not looked at. -/
theorem apStaAdd_psks (addr : Addr) (alloc : Bool) (w : Daemon σ) (b : Addr) :
    hostapdPsks (apStaAdd addr alloc w).hapd b = hostapdPsks w.hapd b := by
  unfold apStaAdd
  split
  · rfl
  split
  · rfl
  split
  · rfl
  simp only
  split <;> rfl

theorem apStaAdd_staInfo (addr : Addr) (alloc : Bool) (h : w.staInfo.cachedValid = false) :
    (apStaAdd addr alloc w).staInfo.cachedValid = false ∧ (apStaAdd addr alloc w).taken = w.taken := by
  unfold apStaAdd
  split
  · exact ⟨h, rfl⟩
  split
  · exact ⟨h, rfl⟩
  split
  · exact ⟨h, rfl⟩
  simp only
  rw [if_neg (by simp [h])]
  exact ⟨h, rfl⟩

/-- **No event** writes the variables that `ap_sta_add` reads. -/
theorem daemonStep_staInfo {x : DaemonEvent σ} (h : w.staInfo.cachedValid = false)
    (hstep : daemonStep pbkdf2 reauth w x = some w') :
    w'.staInfo.cachedValid = false ∧ w'.taken = w.taken := by
  cases x with
  | line line =>
    simp only [daemonStep] at hstep
    split at hstep <;> obtain rfl := Option.some.inj hstep <;> exact ⟨h, rfl⟩
  | staAdd addr alloc =>
    obtain rfl := Option.some.inj hstep
    exact apStaAdd_staInfo addr alloc h
  | machine addr sm =>
    simp only [daemonStep] at hstep
    split at hstep
    · obtain rfl := Option.some.inj hstep
      exact ⟨h, rfl⟩
    · cases hstep
  | staFree addr =>
    simp only [daemonStep] at hstep
    split at hstep
    · obtain rfl := Option.some.inj hstep
      exact ⟨h, rfl⟩
    · cases hstep

/-- **So in every run** nothing is taken. -/
theorem run_staInfo {es : List (DaemonEvent σ)} (h : w.staInfo.cachedValid = false)
    (hrun : daemonRun pbkdf2 reauth w es = some w') :
    w'.staInfo.cachedValid = false ∧ w'.taken = w.taken := by
  refine Lib.run_inv (I := fun u => u.staInfo.cachedValid = false ∧ u.taken = w.taken) ?_ ⟨h, rfl⟩ hrun
  rintro u x v ⟨hu, hut⟩ hstep
  obtain ⟨hv, hvt⟩ := daemonStep_staInfo hu hstep
  exact ⟨hv, hvt.trans hut⟩

/-! ## A setptk line for an absent station -/

/-- The last passphrase that these events give for the station. -/
def LastGiven (a : Addr) (p : Text) (es : List (DaemonEvent σ)) : Prop :=
  ∃ es₁ line es₂, es = es₁ ++ .line line :: es₂ ∧ SetptkFor line a p ∧
    ∀ line' p', DaemonEvent.line line' ∈ es₂ → ¬ SetptkFor line' a p'

/-- A run in which a setptk line with a valid passphrase comes for a station that is not known (`w₁`),
and the station is added (from `w₂` to `w₃`) and then begins its 4-way handshake (`w₄`); `p` is the last
passphrase that was given for it before. -/
structure CachedRun (pbkdf2 : Text → Bytes → ℕ → Bytes) (reauth : σ → σ) (a : Addr) (p : Text)
    (w₁ w₄ : Daemon σ) : Prop where
  start : ∃ w es, w.Starts ∧ daemonRun pbkdf2 reauth w es = some w₁
  rest : ∃ line q es w₂ alloc w₃ es', SetptkFor line a q ∧ 8 ≤ q.length ∧ q.length ≤ 63 ∧
    Lib.Throughout (daemonStep pbkdf2 reauth) (fun w => w.hapd.sta a = none) w₁ (.line line :: es) ∧
    LastGiven a p (.line line :: es) ∧ daemonRun pbkdf2 reauth w₁ (.line line :: es) = some w₂ ∧
    daemonStep pbkdf2 reauth w₂ (.staAdd a alloc) = some w₃ ∧ w₃.hapd.sta a = some none ∧
    daemonRun pbkdf2 reauth w₃ es' = some w₄

/-- The passphrase takes effect: it is the one of the handshake, and the cached value has been taken
exactly once. -/
structure TakesEffect (pbkdf2 : Text → Bytes → ℕ → Bytes) (a : Addr) (p : Text) (w₁ w₄ : Daemon σ) :
    Prop where
  psk : hostapdGetPsk w₄.hapd a = some (pbkdf2 p w₄.hapd.ssid 4096)
  once : w₄.taken.count a = w₁.taken.count a + 1

/-- **A cached setptk never takes effect**, whatever else happens. -/
theorem cached_never_taken (h : CachedRun pbkdf2 reauth a p w₁ w₄) : ¬ TakesEffect pbkdf2 a p w₁ w₄ := by
  obtain ⟨w, es₁, hw, h1⟩ := h.start
  obtain ⟨line, q, es, w₂, alloc, w₃, es', -, -, -, -, -, h2, h3, -, h4⟩ := h.rest
  obtain ⟨hs₁, -⟩ := run_staInfo hw.staInfo h1
  obtain ⟨hs₂, ht₂⟩ := run_staInfo hs₁ h2
  obtain ⟨hs₃, ht₃⟩ := daemonStep_staInfo hs₂ h3
  obtain ⟨-, ht₄⟩ := run_staInfo hs₃ h4
  intro he
  have honce := he.once
  rw [ht₄, ht₃, ht₂] at honce
  omega

/-- hostapd of the examples before any station comes. -/
def daemonLifi : Daemon Unit :=
  ⟨{ hapdLifi with sta := fun _ => none }, ⟨zeroAddr, [], false⟩, 0, 2007, []⟩

/-- The line is cached, the station is added, and its state machine is there. -/
def lifiAdded : List (DaemonEvent Unit) :=
  [.line (rekeyCmd staMac "lifi-2024".toList), .staAdd staAddr true, .machine staAddr ()]

def addedLifi : Daemon Unit := (daemonRun pbkdf2Lifi id daemonLifi lifiAdded).getD daemonLifi

theorem cachedRun_lifi2024 : CachedRun pbkdf2Lifi id staAddr "lifi-2024".toList daemonLifi addedLifi where
  start := ⟨daemonLifi, [], ⟨rfl, rfl⟩, rfl⟩
  rest := by
    refine ⟨_, "lifi-2024".toList, [], _, true, _, [.machine staAddr ()], setptkFor_lifi2024, by decide,
      by decide, ⟨rfl, ?_⟩, ⟨[], _, [], rfl, setptkFor_lifi2024, by simp⟩, rfl, rfl, rfl, rfl⟩
    intro w hw
    obtain rfl := Option.some.inj hw
    rfl

/-- `cached_never_taken` for this run. -/
theorem cached_never_lifi2024 :
    ¬ TakesEffect pbkdf2Lifi staAddr "lifi-2024".toList daemonLifi addedLifi :=
  cached_never_taken cachedRun_lifi2024

/-- The handshake runs on the PSK there was, and the value stays in the cache of the listener. -/
theorem cached_ignored : CachedRun pbkdf2Lifi id staAddr "lifi-2024".toList daemonLifi addedLifi ∧
    hostapdGetPsk addedLifi.hapd staAddr = hostapdGetPsk daemonLifi.hapd staAddr ∧
    addedLifi.hapd.cachedValid = true ∧
    ¬ TakesEffect pbkdf2Lifi staAddr "lifi-2024".toList daemonLifi addedLifi := by
  refine ⟨cachedRun_lifi2024, rfl, rfl, ?_⟩
  intro h
  exact absurd h.once (by decide)

end Lightguard.Rotation
