import Lightguard.Auth.Step

/-!
# Frames from the station

`wpa_receive` of hostapd, cut into its checks: the descriptor type and version, the replay
counters, the state, the MIC. What it does last is a call of `wpa_sm_step`; `Next` says
whether it gets that far.
-/

namespace Lightguard.Auth

open Wpa

variable (c : Conf) (e : Env)

/-- A handler returns, or goes on into `wpa_sm_step`, or the machine has been freed. -/
inductive Next where
  | ret (s : Sm)
  | step (s : Sm)
  | gone

/-- The kinds of frames from the station. -/
inductive Msg where
  | pairwise2
  | pairwise4
  | group2
  | request
deriving DecidableEq

def classify (f : EapolKey) : Msg :=
  if f.request then .request
  else if !f.pairwise then .group2
  else if f.keyData.length = 0 then .pairwise4
  else .pairwise2

/-- The checks of the descriptor type, of the SMK bit and of the descriptor version. -/
def formatOk (s : Sm) (f : EapolKey) : Bool :=
  (f.type = 254 || s.neg.wpa2 && f.type = 2) && !f.smk &&
  (if s.neg.pairwise = .ccmp ∨ s.neg.pairwise = .gcmp then
    s.neg.keyMgmt.useAkmDefined || f.ver = (if s.neg.keyMgmt.useCmac then 3 else 2)
  else true) &&
  (!s.neg.keyMgmt.useAkmDefined || f.ver = 0)

/-- The replay counters. A second message 2/4 with a new SNonce and a message 4/4 that may
belong to the earlier SNonce get through. -/
def checkReplay (s : Sm) (f : EapolKey) : Option Sm :=
  if f.request then
    if s.reqReplayCounterUsed ∧ f.replayCounter ≤ s.reqReplayCounter then none else some s
  else if wpaReplayCounterValid s.keyReplay f.replayCounter then some s
  else if classify f = .pairwise2 ∧ wpaReplayCounterValid s.prevKeyReplay f.replayCounter ∧
      s.state = .ptkinitnegotiating ∧ s.sNonce ≠ f.nonce then
    some { s with
      updateSnonce := true, altSNonce := s.sNonce, altSnonceValid := true
      altReplayCounter := (s.keyReplay.head?.map (·.counter)).getD 0 }
  else if classify f = .pairwise4 ∧ s.altSnonceValid ∧ s.state = .ptkinitnegotiating ∧
      f.replayCounter = s.altReplayCounter then some s
  else none

/-- The message is expected in this state. -/
def stateOk (s : Sm) : Msg → Bool
  | .pairwise2 => s.state = .ptkstart || s.state = .ptkcalcnegotiating ||
      s.updateSnonce && s.state = .ptkinitnegotiating
  | .pairwise4 => s.state = .ptkinitnegotiating && s.ptkValid
  | .group2 => s.groupState = .rekeynegotiating && s.ptkValid
  | .request => true

/-- The search of `wpa_try_alt_snonce`. -/
def altSearch (f : EapolKey) (s : Sm) : List Out × Option (Pmk × Ptk) :=
  searchPmk c s s.altSNonce f s.altCandidates e.deriveAlt

/-- The end of `wpa_try_alt_snonce`: the PTK of the earlier SNonce is taken over. -/
def altAdopted (f : EapolKey) (pmk : Pmk) (ptk : Ptk) (s : Sm) : Sm :=
  { s with
    pmk := some pmk, altSnonceValid := false, sNonce := s.altSNonce, ptk := ptk, ptkValid := true
    trace := .newPtk (.derived pmk s.aNonce s.altSNonce) ptk ::
      (searchOut (altSearch c e f s) ++ s.trace) }

/-- `wpa_try_alt_snonce`: whether a PTK was found, and the machine after it. -/
def wpaTryAltSnonce (f : EapolKey) (s : Sm) : Bool × Sm :=
  match (altSearch c e f s).2 with
  | none => (false, { s with trace := searchOut (altSearch c e f s) ++ s.trace })
  | some (pmk, ptk) => (true, altAdopted c e f pmk ptk s)

/-- The machine after the MIC check has passed. -/
def micPassed (s : Sm) : Sm := { s with micVerified := true, eapolTimeouts := 0 }

/-- The MIC under `sm->PTK`, when there is one: whether the frame passes, and the machine
after the check. -/
def checkMic (f : EapolKey) (s : Sm) : Bool × Sm :=
  if s.ptkValid ∧ !s.updateSnonce then
    if s.micLen = 0 then (true, micPassed (s.out .micSkipped))
    else if c.prims.verifyKeyMic s.ptk f then (true, micPassed (s.out (.micVerified s.ptk)))
    else if classify f = .pairwise4 ∧ s.altSnonceValid then
      (wpaTryAltSnonce c e f s).map id fun t =>
        if (wpaTryAltSnonce c e f s).1 then micPassed t else t
    else (false, s)
  else (true, s)

/-- The replay counters after a frame that is not a request. -/
def useReplayCounter (f : EapolKey) (s : Sm) : Sm :=
  let keyReplay := wpaReplayCounterMarkInvalid s.keyReplay (some f.replayCounter)
  { s with
    prevKeyReplay := if classify f = .pairwise2 then keyReplay else noCounters
    keyReplay := wpaReplayCounterMarkInvalid keyReplay none }

/-- The frame is left for the state machine. -/
def storeFrame (f : EapolKey) (s : Sm) : Sm :=
  { s with
    lastRxEapolKey := some f
    eapolKeyReceived := true
    eapolKeyPairwise := f.pairwise
    eapolKeyRequest := f.request
    sNonce := f.nonce }

/-- The replay counter of a request. -/
def useRequestCounter (f : EapolKey) (s : Sm) : Sm :=
  { s with reqReplayCounterUsed := true, reqReplayCounter := f.replayCounter }

/-- An error report is about a key of TKIP. -/
def reportsTkip (f : EapolKey) (s : Sm) : Bool :=
  if f.pairwise then s.neg.pairwise = .tkip else c.groupCipher = .tkip

/-- What a request makes the machine do. -/
def handleRequest (f : EapolKey) (s : Sm) : Next :=
  if !s.micVerified then .ret s
  else
    let s := useRequestCounter f s
    if f.error then
      -- a TKIP failure report may make hostapd remove the station
      if reportsTkip c f s ∧ e.staRemoved then .gone
      else .step (storeFrame f (wpaRequestNewPtk c s))
    else if f.pairwise then .step (storeFrame f (wpaRequestNewPtk c s))
    -- a request for a new GTK goes to the group state machine
    else .step (storeFrame f s)

/-- `wpa_receive`. -/
def wpaReceive (f : EapolKey) (s : Sm) : Next :=
  -- the WiFi copy ignores every frame once a key is installed
  if c.link = .wifi ∧ s.ptkValid ∧ s.pairwiseSet then .ret s
  else if !formatOk s f then .ret s
  else match checkReplay s f with
    | none => .ret s
    | some s =>
      if !stateOk s (classify f) then .ret s
      else if classify f = .pairwise2 ∧ e.rejectForEntropy then .step (wpaStaDisconnect e s)
      else if f.ack ∨ !f.hasMic then .ret s
      else
        let r := checkMic c e f { s with micVerified := false }
        if !r.1 then .ret r.2
        else if f.request then handleRequest c e f r.2
        else .step (storeFrame f (useReplayCounter f r.2))

end Lightguard.Auth
