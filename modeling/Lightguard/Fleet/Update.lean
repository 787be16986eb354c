import Mathlib.Logic.Function.Basic
import Lightguard.Link.Skip

/-!
# PTK updates with several stations

The access point keeps one state machine for each station; its PTK TCP port takes a payload
without an address and hands it to all of them. Each station's wpa_supplicant has a port of its own.

* `wpaAuthInstallCustomPtkCb_tk`, `wpaSmPtkTcpHandler_tk`: what an update does to the driver's key.
* `fleet_agreement`: when updates of single stations keep all pairs of keys the same.
-/

namespace Lightguard.Fleet

open Wpa

/-- The PTK in a payload, for a station with this cipher. -/
def payloadPtk (p : Cipher) (buf : Text) : Option Ptk :=
  if p.validPairwise then decodePtk p.keyLen (buf.take ptkTcpRecvMax) else none

/-- The driver's key after an update. -/
def tkAfter (p : Cipher) (buf : Text) (ok : Bool) (tk : Option Bytes) : Option Bytes :=
  match payloadPtk p buf with
  | some ptk => if ok then some ptk.tk else tk
  | none => tk

theorem wpaAuthInstallCustomPtkCb_tk (c : Auth.Conf) (e : Auth.Env) (buf : Text) (s : Auth.Sm) :
    let t := Auth.wpaAuthInstallCustomPtkCb c e (buf.take ptkTcpRecvMax) s
    t.neg = s.neg ∧
      Auth.driverTk t.trace = tkAfter s.neg.pairwise buf e.setKey (Auth.driverTk s.trace) := by
  simp only [Auth.wpaAuthInstallCustomPtkCb_match, ← payloadPtk.eq_def, tkAfter]
  cases payloadPtk s.neg.pairwise buf with
  | none => exact ⟨rfl, rfl⟩
  | some ptk =>
    cases e.setKey with
    | false => exact ⟨rfl, rfl⟩
    | true => exact ⟨rfl, rfl⟩

theorem wpaSmPtkTcpHandler_tk (e : Supp.Env) (buf : Text) (s : Supp.Sm) :
    let t := Supp.wpaSmPtkTcpHandler e (buf.take ptkTcpRecvMax) s
    t.par = s.par ∧
      Supp.driverTk t.trace = tkAfter s.par.pairwiseCipher buf e.setKey (Supp.driverTk s.trace) := by
  simp only [Supp.wpaSmPtkTcpHandler_match, ← payloadPtk.eq_def, tkAfter]
  cases payloadPtk s.par.pairwiseCipher buf with
  | none => exact ⟨rfl, rfl⟩
  | some ptk =>
    cases e.setKey with
    | false => exact ⟨rfl, rfl⟩
    | true => exact ⟨rfl, rfl⟩

/-! ## The stations of an access point -/

variable {ι : Type*} [DecidableEq ι]

/-- An access point with its machines for the stations `ι`, and the stations. -/
structure Bss (ι : Type*) where
  ap : ι → Auth.Sm
  sta : ι → Supp.Sm

/-- A payload that is delivered to one station and to the access point, with the drivers' answers. -/
structure Update (ι : Type*) where
  s : ι
  buf : Text
  staEnv : Supp.Env
  apEnv : ι → Auth.Env

/-- The station first, then the access point: `wpa_auth_ptk_tcp_handler` goes through all of its
machines. -/
def step (c : ι → Auth.Conf) (w : Bss ι) (u : Update ι) : Option (Bss ι) :=
  some
    { sta := Function.update w.sta u.s
        (Supp.wpaSmPtkTcpHandler u.staEnv (u.buf.take ptkTcpRecvMax) (w.sta u.s))
      ap := fun i =>
        Auth.wpaAuthInstallCustomPtkCb (c i) (u.apEnv i) (u.buf.take ptkTcpRecvMax) (w.ap i) }

/-- The pairwise key of a station in the access point's driver, and in its own. -/
def Bss.apTk (w : Bss ι) (i : ι) : Option Bytes := Auth.driverTk (w.ap i).trace
def Bss.staTk (w : Bss ι) (i : ι) : Option Bytes := Supp.driverTk (w.sta i).trace

/-- The two ends of every station have the same cipher. -/
def SameCipher (w : Bss ι) : Prop := ∀ i, (w.ap i).neg.pairwise = (w.sta i).par.pairwiseCipher

/-- The two ends of every station have the same key. -/
def Agree (w : Bss ι) : Prop := ∀ i, w.apTk i = w.staTk i

/-- What an update has to do: the keys still agree, the station it is for has the key of the payload,
and the other stations keep theirs. -/
structure Kept (w : Bss ι) (u : Update ι) (w' : Bss ι) : Prop where
  agree : Agree w'
  moves : ∀ ptk ∈ payloadPtk (w.ap u.s).neg.pairwise u.buf, w'.apTk u.s = some ptk.tk
  others : ∀ i, i ≠ u.s → w'.apTk i = w.apTk i

/-- The payload reaches the station it is for and no other: the drivers on both of its ends take the
key, and for every other station it is no PTK, or the driver refuses it. A key that is in the driver
already is as good. -/
structure Addressed (w : Bss ι) (u : Update ι) : Prop where
  own : ∀ ptk ∈ payloadPtk (w.ap u.s).neg.pairwise u.buf,
    w.apTk u.s = some ptk.tk ∨ (u.apEnv u.s).setKey = true ∧ u.staEnv.setKey = true
  others : ∀ i, i ≠ u.s → ∀ ptk ∈ payloadPtk (w.ap i).neg.pairwise u.buf,
    (u.apEnv i).setKey = false ∨ w.apTk i = some ptk.tk

variable {c : ι → Auth.Conf} {w w' : Bss ι} {u : Update ι}

/-- What an update leaves of the keys. -/
theorem step_tk (h : step c w u = some w') (i : ι) :
    (w'.ap i).neg = (w.ap i).neg ∧ (w'.sta i).par = (w.sta i).par ∧
      w'.apTk i = tkAfter (w.ap i).neg.pairwise u.buf (u.apEnv i).setKey (w.apTk i) ∧
      w'.staTk i = if i = u.s then
          tkAfter (w.sta i).par.pairwiseCipher u.buf u.staEnv.setKey (w.staTk i)
        else w.staTk i := by
  obtain rfl := Option.some.inj h
  obtain ⟨h1, h2⟩ := wpaAuthInstallCustomPtkCb_tk (c i) (u.apEnv i) u.buf (w.ap i)
  by_cases hi : i = u.s
  · subst hi
    obtain ⟨h3, h4⟩ := wpaSmPtkTcpHandler_tk u.staEnv u.buf (w.sta u.s)
    refine ⟨h1, ?_, h2, ?_⟩
    · simp only [Function.update_self]
      exact h3
    · rw [if_pos rfl]
      simp only [Bss.staTk, Function.update_self]
      exact h4
  · refine ⟨h1, ?_, h2, ?_⟩
    · simp only [Function.update_of_ne hi]
    · rw [if_neg hi]
      simp only [Bss.staTk, Function.update_of_ne hi]

theorem step_sameCipher (hs : SameCipher w) (h : step c w u = some w') : SameCipher w' := by
  intro i
  obtain ⟨h1, h2, -⟩ := step_tk h i
  rw [h1, h2]
  exact hs i

/-- **One update.** -/
theorem kept_iff (hs : SameCipher w) (ha : Agree w) (h : step c w u = some w') :
    Kept w u w' ↔ Addressed w u := by
  -- what the update leaves in each driver
  have hap : ∀ i, w'.apTk i = tkAfter (w.ap i).neg.pairwise u.buf (u.apEnv i).setKey (w.apTk i) :=
    fun i => (step_tk h i).2.2.1
  have hsta : w'.staTk u.s =
      tkAfter (w.ap u.s).neg.pairwise u.buf u.staEnv.setKey (w.apTk u.s) := by
    rw [(step_tk h u.s).2.2.2, if_pos rfl, hs u.s, ha u.s]
  have hother : ∀ i, i ≠ u.s → w'.staTk i = w.apTk i := by
    intro i hi
    rw [(step_tk h i).2.2.2, if_neg hi, ha i]
  constructor
  · intro hk
    constructor
    -- for the own station: one end that fails to install must have had the TK before
    · intro ptk hp
      rw [Option.mem_def] at hp
      have h1 : w'.apTk u.s = some ptk.tk := hk.moves ptk hp
      have h2 : w'.staTk u.s = some ptk.tk := (hk.agree u.s).symm.trans h1
      rw [hap, tkAfter, hp] at h1
      rw [hsta, tkAfter, hp] at h2
      by_cases h3 : (u.apEnv u.s).setKey = true
      · by_cases h4 : u.staEnv.setKey = true
        · exact .inr ⟨h3, h4⟩
        · rw [Bool.not_eq_true] at h4
          rw [h4] at h2
          exact .inl h2
      · rw [Bool.not_eq_true] at h3
        rw [h3] at h1
        exact .inl h1
    · intro i hi ptk hp
      rw [Option.mem_def] at hp
      have h1 := hk.others i hi
      rw [hap, tkAfter, hp] at h1
      by_cases h2 : (u.apEnv i).setKey = true
      · simp only [h2, if_true] at h1
        exact .inr h1.symm
      · exact .inl (by simpa using h2)
  · intro hc
    -- other stations have the TK already, or their drivers refuse it
    have hkeep : ∀ i, i ≠ u.s → w'.apTk i = w.apTk i := by
      intro i hi
      rw [hap, tkAfter]
      cases hp : payloadPtk (w.ap i).neg.pairwise u.buf with
      | none => rfl
      | some ptk =>
        rcases hc.others i hi ptk hp with h1 | h1
        · simp [h1]
        · simp [h1]
    have hown : w'.apTk u.s = w'.staTk u.s ∧
        ∀ ptk ∈ payloadPtk (w.ap u.s).neg.pairwise u.buf, w'.apTk u.s = some ptk.tk := by
      rw [hap, hsta, tkAfter, tkAfter]
      cases hp : payloadPtk (w.ap u.s).neg.pairwise u.buf with
      | none => exact ⟨rfl, nofun⟩
      | some ptk =>
        rcases hc.own ptk hp with h1 | ⟨h1, h2⟩
        · simp [h1]
        · simp [h1, h2]
    refine ⟨fun i => ?_, hown.2, hkeep⟩
    by_cases hi : i = u.s
    · subst hi
      exact hown.1
    · rw [hkeep i hi, hother i hi]

/-- **Agreement under updates.** In every run of updates that starts with a common cipher and a common
key for each station, every update gives its payload to the station it is for and leaves all keys in
agreement, exactly when every update is addressed. -/
theorem fleet_agreement (c : ι → Auth.Conf) (hs : SameCipher w) (ha : Agree w) (us : List (Update ι)) :
    Lib.Along (step c) (fun w u => ∀ w' ∈ step c w u, Kept w u w') w us ↔
      Lib.Along (step c) Addressed w us := by
  refine Lib.along_congr (J := fun w => SameCipher w ∧ Agree w) ?_ ?_ ⟨hs, ha⟩
  · intro w u w' hw hk h
    exact ⟨step_sameCipher hw.1 h, (hk w' h).agree⟩
  · intro w u hw
    constructor
    · intro hk
      exact (kept_iff (c := c) hw.1 hw.2 rfl).1 (hk _ rfl)
    · intro hc w' h
      exact (kept_iff hw.1 hw.2 h).2 hc

/-- Two stations with these ciphers have associated. -/
def associated (p : Bool → Cipher) : Option (Bss Bool) :=
  let c := Link.plainConf .wifi
  let ap (i : Bool) := Auth.wpaAuthStaAssociated c.ap Auth.calm (Link.apWith (p i))
  (ap false).bind fun a => (ap true).map fun b =>
    { ap := fun i => if i then b else a
      sta := fun i => Supp.wpaSmNotifyAssoc c.sta Supp.calm c.ap.addr (Link.staWith (p i)) }

/-- The PTK of the plain handshake for the first of them. -/
def plainUpdate : Update Bool := ⟨false, plainHex, Supp.calm, fun _ => Auth.calm⟩

/-- `fleet_agreement` for an update that has the wrong length for the other station. -/
theorem fleet_agreement_plain : ∃ w, associated (fun i => if i then .ccmp256 else .ccmp) = some w ∧
    Lib.Along (step fun _ => (Link.plainConf .wifi).ap)
      (fun w u => ∀ w' ∈ step (fun _ => (Link.plainConf .wifi).ap) w u, Kept w u w') w [plainUpdate] := by
  refine ⟨_, rfl, (fleet_agreement _ ?_ ?_ _).2 ⟨⟨?_, ?_⟩, fun _ _ => trivial⟩⟩
  · intro i
    cases i <;> rfl
  · intro i
    cases i <;> rfl
  · exact fun _ _ => .inr ⟨rfl, rfl⟩
  · intro i hi ptk hp
    obtain rfl : i = true := by simpa [plainUpdate] using hi
    cases hp

/-- With two stations of one cipher the update of the first takes the key of the second away. -/
theorem fleet_disagrees : ∃ w w', associated (fun _ => .ccmp) = some w ∧ SameCipher w ∧ Agree w ∧
    step (fun _ => (Link.plainConf .wifi).ap) w plainUpdate = some w' ∧
    w'.apTk true ≠ w.apTk true ∧ ¬ Agree w' := by
  refine ⟨_, _, rfl, ?_, ?_, rfl, ?_, fun h => ?_⟩
  · intro i
    cases i <;> rfl
  · intro i
    cases i <;> rfl
  · decide
  · exact absurd (h true) (by decide)

end Lightguard.Fleet
