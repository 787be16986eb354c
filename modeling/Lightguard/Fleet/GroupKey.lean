import Mathlib.Data.List.Basic
import Lightguard.Auth.GroupMark
import Lightguard.Fleet.Update
import Lightguard.Supp.GroupKeys

/-!
# The group key of an access point

`struct wpa_group` of hostapd with its state machine, the machines of the stations, and the stations
with their drivers. `wpa_group_sm_step`, which hostapd calls in every round of `wpa_sm_step` and of
`wpa_rekey_gtk`, is an event of its own, and so is `wpa_group_ensure_init`, which AUTHENTICATION2 calls;
they may come at any time. IGTK and BIGTK are left out, and so is a reload of the configuration.
-/

namespace Lightguard.Fleet.GroupKey

open Wpa
open Auth (Keyed Confirms)
open Supp (Up)

variable {ι : Type*} [DecidableEq ι] {p : Cipher}

/-! ## The group machine -/

/-- `wpa_group_state`. -/
inductive WpaGroupState where
  | gtkInit
  | setkeys
  | setkeysdone
  | fatalFailure
deriving DecidableEq

/-- `group->GTK_len` octets. -/
abbrev Gtk (p : Cipher) := {k : Bytes // k.length = p.keyLen}

/-- What the fast path copies over the GTK. -/
def customGtk (p : Cipher) : Gtk p := ⟨customTestGtk.take p.keyLen, by cases p <;> rfl⟩

/-- `struct wpa_group`; `gtk n` is `GTK[n - 1]`. -/
structure WpaGroup (p : Cipher) where
  state : WpaGroupState
  gtkReKey : Bool
  firstStaSeen : Bool
  gn : ℕ
  gm : ℕ
  gtk : ℕ → Gtk p

/-- The GTK in use. -/
def WpaGroup.current (g : WpaGroup p) : Gtk p := g.gtk g.gn

/-- Where a GTK is handed to the driver. -/
inductive GtkSite where
  | setkeysdone
  | ensureInit
  | staAssociated
  | gtkRekey
  | reconfigGroupKeys
deriving DecidableEq

/-- What happens to the slots for the broadcast address. -/
inductive Out (p : Cipher) where
  /-- `wpa_gtk_update` makes a GTK for the slot. -/
  | made (idx : ℕ) (k : Gtk p)
  /-- `wpa_auth_set_key` for the broadcast address, with the driver's answer. -/
  | setKey (site : GtkSite) (idx : ℕ) (k : Gtk p) (ok : Bool)

/-- An access point and its stations; the trace is newest first. -/
structure Net (ι : Type*) (p : Cipher) extends Bss ι where
  /-- The stations that hostapd has a machine for. -/
  stas : List ι
  group : WpaGroup p
  /-- What the driver sends group frames with: `KEY_FLAG_GROUP_TX_DEFAULT`. -/
  tx : Option (ℕ × Gtk p)
  trace : List (Out p)

/-- What comes from outside in one step of the group machine: the octets of `wpa_gmk_to_gtk`, the
driver's answer, and what comes in the steps of the stations' machines. -/
structure GroupEnv (ι : Type*) (p : Cipher) where
  gtk : Gtk p
  setGroupKey : Bool
  sta : ι → Auth.Env

namespace Net

variable (w : Net ι p)

/-- The machines see the group key in use. -/
def env (e : Auth.Env) : Auth.Env := { e with gn := w.group.gn, gtk := w.group.current.1 }

/-- `GKeyDoneStations` is not zero: a station is marked with `GUpdateStationKeys`. -/
def marked : Bool := w.stas.any fun i => (w.ap i).gUpdateStationKeys

/-- `wpa_group_fatal_failure`. -/
def fatal : Net ι p :=
  { w with
    group.state := .fatalFailure
    ap := fun i => if i ∈ w.stas then { w.ap i with disconnect := true } else w.ap i }

/-- `wpa_group_setkeysdone`. -/
def setkeysdone (ok : Bool) : Net ι p :=
  let w' : Net ι p :=
    { w with trace := .setKey .setkeysdone w.group.gn w.group.current ok :: w.trace }
  if ok then { w' with group.state := .setkeysdone, tx := some (w.group.gn, w.group.current) }
  else w'.fatal

/-- `wpa_group_ensure_init`, with whether there is entropy, the result of
`wpa_group_init_gmk_and_counter`, the new GTK and the driver's answer. -/
def ensureInit (ready gmk : Bool) (k : Gtk p) (ok : Bool) : Net ι p :=
  if w.group.firstStaSeen then w
  else if !gmk then w
  else
    { w with
      group.firstStaSeen := ready && ok
      group.gtk := Function.update w.group.gtk w.group.gn k
      tx := if ok then some (w.group.gn, k) else w.tx
      trace := .setKey .ensureInit w.group.gn k ok :: .made w.group.gn k :: w.trace }

/-- The group key in the fast path of `wpa_auth_sta_associated`. -/
def overwritten (ok : Bool) : Net ι p :=
  if 0 < p.keyLen then
    { w with
      group.gtk := Function.update w.group.gtk w.group.gn (customGtk p)
      tx := if ok then some (w.group.gn, customGtk p) else w.tx
      trace := .setKey .staAssociated w.group.gn (customGtk p) ok :: w.trace }
  else w

/-- `ieee80211_tkip_countermeasures_start`: `wpa_gtk_rekey` makes a GTK for each slot, the one in use last,
and every station is freed. -/
def tkipCountermeasures (k₁ k₂ : Gtk p) (ok₁ ok₂ : Bool) : Net ι p :=
  { w with
    stas := []
    group.gtk := Function.update (Function.update w.group.gtk w.group.gm k₁) w.group.gn k₂
    tx := if ok₂ then some (w.group.gn, k₂) else if ok₁ then some (w.group.gm, k₁) else w.tx
    trace := [.setKey .gtkRekey w.group.gn k₂ ok₂, .made w.group.gn k₂,
      .setKey .gtkRekey w.group.gm k₁ ok₁, .made w.group.gm k₁] ++ w.trace }

/-- `wpa_auth_reconfig_group_keys`, when the interface comes back; the driver has lost its keys. -/
def reconfigGroupKeys (ok : Bool) : Net ι p :=
  { w with
    tx := if ok then some (w.group.gn, w.group.current) else none
    trace := .setKey .reconfigGroupKeys w.group.gn w.group.current ok :: w.trace }

end Net

variable (c : ι → Link.Conf)

/-- `wpa_group_update_sta` for each of these stations. -/
def updateStas (e : ι → Auth.Env) : List ι → Net ι p → Option (Net ι p)
  | [], w => some w
  | i :: l, w => (Auth.step (c i).ap (w.ap i) (.groupUpdate, w.env (e i))).bind fun s =>
      updateStas e l { w with ap := Function.update w.ap i s }

/-- The group stays as it is. -/
theorem updateStas_eq {e : ι → Auth.Env} {l : List ι} {w w' : Net ι p}
    (h : updateStas c e l w = some w') :
    w'.stas = w.stas ∧ w'.group = w.group ∧ w'.trace = w.trace ∧ w'.sta = w.sta := by
  induction l generalizing w with
  | nil =>
    obtain rfl := Option.some.inj h
    exact ⟨rfl, rfl, rfl, rfl⟩
  | cons a l ih =>
    obtain ⟨s, -, h⟩ := Option.bind_eq_some_iff.1 h
    exact ih (w := { w with ap := Function.update w.ap a s }) h

/-- `wpa_group_setkeys`: the slots change places, and the stations are marked. -/
def setkeys (r : GroupEnv ι p) (w : Net ι p) : Option (Net ι p) :=
  updateStas c r.sta w.stas
    { w with
      group.state := .setkeys, group.gtkReKey := false, group.gn := w.group.gm, group.gm := w.group.gn
      group.gtk := Function.update w.group.gtk w.group.gm r.gtk
      trace := .made w.group.gm r.gtk :: w.trace }

/-- `wpa_group_sm_step`. -/
def wpaGroupSmStep (r : GroupEnv ι p) (w : Net ι p) : Option (Net ι p) :=
  match w.group.state with
  | .fatalFailure => some w
  | .gtkInit => some (w.setkeysdone r.setGroupKey)
  | .setkeysdone => if w.group.gtkReKey then setkeys c r w else some w
  | .setkeys =>
    if !w.marked then some (w.setkeysdone r.setGroupKey)
    else if w.group.gtkReKey then setkeys c r w
    else some w

/-! ## The system -/

/-- What happens. -/
inductive Event (ι : Type*) (p : Cipher) where
  /-- `wpa_auth_sta_init` and `wpa_auth_sta_deinit`. -/
  | staInit (i : ι) (n : Auth.Negotiated) (psks : List Pmk)
  | staDeinit (i : ι)
  /-- An event of a station's machine, and one of the station. -/
  | ap (i : ι) (ev : Auth.Event) (e : Auth.Env)
  | sta (i : ι) (ev : Supp.Event) (e : Supp.Env)
  /-- `wpa_rekey_gtk` asks for a new GTK. -/
  | rekeyGtk
  | groupStep (r : GroupEnv ι p)
  | ensureInit (ready gmk : Bool) (k : Gtk p) (ok : Bool)
  | tkipCountermeasures (k₁ k₂ : Gtk p) (ok₁ ok₂ : Bool)
  | reconfigGroupKeys (ok : Bool)

/-- The fast path of `wpa_auth_sta_associated` is taken, up to the group key. -/
def Fast (i : ι) (e : Auth.Env) (w : Net ι p) : Auth.Event → Prop
  | .staAssociated => (c i).ap.link = .wifi ∧ Auth.Installs e customTestPtk (w.ap i)
  | _ => False

instance (i : ι) (e : Auth.Env) (w : Net ι p) : (ev : Auth.Event) → Decidable (Fast c i e w ev)
  | .staAssociated => inferInstanceAs (Decidable (_ ∧ _))
  | .assocReq _ | .sm _ | .eapolKey _ | .eapolTimeout | .rekeyPtk | .ptkTcp _ | .groupUpdate | .notify
  | .setPsks _ => inferInstanceAs (Decidable False)

/-- One event. -/
def step (w : Net ι p) : Event ι p → Option (Net ι p)
  | .staInit i n psks =>
    if i ∈ w.stas ∨ w.group.state = .fatalFailure then none
    else some { w with ap := Function.update w.ap i (Auth.Sm.new n psks), stas := i :: w.stas }
  | .staDeinit i => some { w with stas := w.stas.filter (· ≠ i) }
  | .ap i ev e =>
    if i ∈ w.stas then
      (Auth.step (c i).ap (w.ap i) (ev, w.env e)).map fun s =>
        { (if Fast c i e w ev then w.overwritten e.setGroupKey else w) with
          ap := Function.update w.ap i s }
    else none
  | .sta i ev e => (Supp.step (c i).sta (w.sta i) (ev, e)).map fun s =>
      { w with sta := Function.update w.sta i s }
  | .rekeyGtk => some { w with group.gtkReKey := true }
  | .groupStep r => wpaGroupSmStep c r w
  | .ensureInit ready gmk k ok => some (w.ensureInit ready gmk k ok)
  | .tkipCountermeasures k₁ k₂ ok₁ ok₂ => some (w.tkipCountermeasures k₁ k₂ ok₁ ok₂)
  | .reconfigGroupKeys ok => some (w.reconfigGroupKeys ok)

/-- `wpa_init_keys`, before the first station: the first GTK goes to slot 1. The machines of `b` do not
count yet. -/
def Net.start (b : Bss ι) (k : Gtk p) (ok : Bool) : Net ι p :=
  Net.setkeysdone
    { b with
      stas := []
      group := ⟨.gtkInit, false, false, 1, 2,
        Function.update (fun _ => ⟨List.replicate p.keyLen 0, List.length_replicate⟩) 1 k⟩
      tx := none
      trace := [.made 1 k] } ok

/-! ## Plain runs -/

/-- An access point for CCMP before its first station. -/
def plainNet (ι : Type*) [DecidableEq ι] : Net ι .ccmp :=
  .start ⟨fun _ => Link.apWith .ccmp, fun _ => Link.staWith .ccmp⟩ ⟨List.replicate 16 1, rfl⟩ true

/-- A rekey with no stations. -/
def plainRekey (ι : Type*) (x : UInt8) : List (Event ι .ccmp) :=
  let r : GroupEnv ι .ccmp := ⟨⟨List.replicate 16 x, List.length_replicate⟩, true, fun _ => Auth.calm⟩
  [.rekeyGtk, .groupStep r, .groupStep r]

end Lightguard.Fleet.GroupKey
