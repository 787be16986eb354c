import Lightguard.Auth.Port
import Lightguard.Auth.Slots
import Lightguard.Supp.Slots

/-!
# One link: an access point and a station

hostapd's machine for the station and the station's wpa_supplicant, side by side. Each end
makes its own steps; a frame that is received may be any frame, so that whatever the air and
an attacker can do to the frames between the two is among the runs.

* `Ends.of_run`: what a run of the link keeps at its two ends.
* `plainHandshake`: an association and a 4-way handshake in which every frame arrives.
-/

namespace Lightguard.Link

open Wpa

/-- The two ends of a link. -/
abbrev World := Auth.Sm × Supp.Sm

/-- What happens at one of the ends. -/
abbrev Event := (Auth.Event × Auth.Env) ⊕ (Supp.Event × Supp.Env)

/-- The configurations of the two ends. -/
structure Conf where
  ap : Auth.Conf
  sta : Supp.Conf

/-- Both ends run the WiFi copies. -/
structure Conf.Wifi (c : Conf) : Prop where
  ap : c.ap.link = .wifi
  sta : c.sta.link = .wifi

/-- What the ends start from: the negotiated parameters, the PSKs and the station's parameters. -/
structure Start where
  neg : Auth.Negotiated
  psks : List Pmk
  par : Supp.Params

def Start.world (i : Start) : World := (Auth.Sm.new i.neg i.psks, Supp.Sm.new i.par)

def step (c : Conf) : World → Event → Option World :=
  Lib.pairStep (Auth.step c.ap) (Supp.step c.sta)

/-- A run of the link. -/
abbrev run (c : Conf) (w : World) (es : List Event) : Option World := Lib.run (step c) w es

variable {c : Conf} {i : Start} {w w' : World} {es : List Event}

/-- What holds at the two ends of a WiFi link. -/
structure Ends (c : Conf) (w : World) : Prop where
  rest : Auth.Rest w.1
  stored : Auth.StoredOK w.1
  slot : Auth.SlotOK w.1
  sta : Supp.SlotOK w.2

theorem Ends.of_run (hc : c.Wifi) (h : run c i.world es = some w) : Ends c w where
  rest := Auth.run_rest (Auth.rest_new i.neg i.psks) (Lib.run_fst h)
  stored := Auth.run_stored (Lib.run_fst h)
  slot := Auth.run_slot hc.ap (Lib.run_fst h)
  sta := Supp.run_slot hc.sta (Lib.run_snd h)

/-! ## A plain link -/

/-- The access point `02:00:00:00:00:01` and the station `02:00:00:00:00:02`. -/
def plainConf (l : Link) : Conf := ⟨Auth.plainConf l plainPrims, Supp.plainConf l plainPrims⟩

/-- WPA2-PSK with CCMP and one PSK. -/
def plainStart : Start := ⟨Auth.wpa2Ccmp, [plainPmk], Supp.wpa2Ccmp⟩

theorem plainConf_wifi : (plainConf .wifi).Wifi := ⟨rfl, rfl⟩

/-- The PMK is set and the station associates, when the drivers take no key from the fast
path: both ends fall back to the 4-way handshake, or wait for it. -/
def plainAssoc : List Event :=
  [.inr (.setPmk plainPmk.1 none, Supp.calm),
    .inr (.notifyAssoc Addr.first, { Supp.calm with setKey := false }),
    .inl (.staAssociated, { Auth.calm with setKey := false })]

/-- The frame hostapd has sent last is received by the station. -/
def toSta (c : Conf) (w : World) (es : List Event) : List Event :=
  es ++ (((run c w es).bind fun w => w.1.trace.findSome? fun | .sent f => some f | _ => none).map
    fun f => .inr (.rxEapol f, Supp.calm)).toList

/-- The frame the station has sent last is received by hostapd. -/
def toAp (c : Conf) (w : World) (es : List Event) : List Event :=
  es ++ (((run c w es).bind fun w => w.2.trace.findSome? fun | .sent f => some f | _ => none).map
    fun f => .inl (.eapolKey f, Auth.calm)).toList

/-- An association and an undisturbed 4-way handshake. -/
def plainHandshake (l : Link) : List Event :=
  let c := plainConf l
  let w := plainStart.world
  toAp c w (toSta c w (toAp c w (toSta c w plainAssoc)))

end Lightguard.Link
