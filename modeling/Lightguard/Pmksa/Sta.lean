import Lightguard.Pmksa.Auth

/-!
# The PMKSA cache of the station

`rsn_supp/pmksa_cache.c` of wpa_supplicant: a list of at most 32 entries, filed by their expiration, the entry in
use (`sm->cur_pmksa`), the timeouts for expiration and reauthentication, and what `wpa_sm_pmksa_free_cb` does when
an entry goes. The driver has a copy of the cache and is told of every change.

An entry is named by its address, which is new whenever an entry is made. FILS is not part of the configured
build. A deauthentication ends the association at once, which takes away the PMK, the entry in use and the BSSID.
-/

namespace Lightguard.Pmksa.Sta

open Wpa

/-- `struct rsn_pmksa_cache_entry`; `ptr` is its address. -/
structure Entry where
  ptr : ℕ
  pmkid : Pmkid
  pmk : Bytes
  expiration : ℤ
  akmp : KeyMgmt
  aa : Addr
  reauthTime : ℤ
  networkCtx : Option ℕ
  opportunistic : Bool
  external : Bool
deriving DecidableEq

/-- `enum pmksa_free_reason`. -/
inductive FreeReason where
  | free
  | replace
  | expire
deriving DecidableEq

/-- What the cache does to its surroundings. -/
inductive Out where
  /-- `wpa_sm_add_pmkid` and `wpa_sm_remove_pmkid`. -/
  | addPmkid (networkCtx : Option ℕ) (aa : Addr) (pmkid : Pmkid)
  | removePmkid (networkCtx : Option ℕ) (aa : Addr) (pmkid : Pmkid)
  | deauthenticate
  /-- `eapol_sm_request_reauth`. -/
  | requestReauth
deriving DecidableEq

/-- `dot11RSNAConfigPMKLifetime`, `dot11RSNAConfigPMKReauthThreshold`, the address and the hash. -/
structure Conf where
  ownAddr : Addr
  pmkLifetime : UInt32
  pmkReauthThreshold : UInt32
  rsnPmkid : Bytes → Addr → Addr → KeyMgmt → Pmkid

/-- The cache, and what of `struct wpa_sm` it looks at. -/
structure St where
  now : ℤ
  pmksa : List Entry
  pmksaCount : ℤ
  /-- When `pmksa_cache_expire` and `pmksa_cache_reauth` are due. -/
  expireTimer : Option ℤ
  reauthTimer : Option ℤ
  /-- What `sm->cur_pmksa` points at, as it was when it was selected. -/
  curPmksa : Option Entry
  pmk : Bytes
  bssid : Addr
  fresh : ℕ
  /-- The newest first. -/
  trace : List Out

/-- `pmksa_cache_init`. -/
def St.init (now : ℤ) : St := ⟨now, [], 0, none, none, none, [], Addr.zero, 0, []⟩

variable (c : Conf)

/-- `wpa_sm_pmksa_is_current_cb`. -/
def St.isCurrent (s : St) (e : Entry) : Bool := s.curPmksa.any (·.ptr = e.ptr)

/-! ## Looking up and timeouts -/

/-- `pmksa_cache_get`; an argument that is missing matches every entry. -/
def get (l : List Entry) (aa : Option Addr) (pmkid : Option Pmkid) (networkCtx : Option ℕ) (akmp : Option KeyMgmt) :
    Option Entry :=
  l.find? fun e => aa.all (e.aa = ·) && pmkid.all (e.pmkid = ·) && akmp.all (e.akmp = ·) &&
    networkCtx.all (e.networkCtx = some ·)

/-- How long the timeout waits besides its one second; `l` comes behind the first entry. -/
def expirySec (s : St) (h : Entry) (l : List Entry) : ℤ :=
  if h.expiration - s.now < 0 then
    -- an entry of SAE that is in use does not expire; look again after ten minutes, or when the next one is due
    if h.akmp = .sae ∧ s.isCurrent h then
      match l with
      | e :: _ => max 0 (min 600 (e.expiration - s.now))
      | [] => 600
    else 0
  else h.expiration - s.now

/-- `pmksa_cache_set_expiration`; the reauthentication is timed by the first entry, whichever is in use. -/
def setExpiration (s : St) : St :=
  match s.pmksa with
  | [] => { s with expireTimer := none, reauthTimer := none }
  | h :: l =>
    { s with
      expireTimer := some (s.now + expirySec s h l + 1)
      reauthTimer := ((s.curPmksa.or (get s.pmksa (some s.bssid) none none none)).filter (·.akmp ≠ .sae)).map
        fun _ => s.now + max 0 (h.reauthTime - s.now) }

/-! ## Taking entries off -/

/-- `wpa_sm_pmksa_free_cb`. -/
def freeCb (r : FreeReason) (e : Entry) (s : St) : St :=
  let expired := decide (r = .expire ∧ s.pmk = e.pmk)
  let s' := { s with curPmksa := if s.isCurrent e || expired then none else s.curPmksa }
  if s.isCurrent e && r ≠ .replace || expired then
    { s' with pmk := [], bssid := Addr.zero, trace := .deauthenticate :: s'.trace }
  else s'

/-- `pmksa_cache_free_entry`, on an entry that comes off the list if it is still there. -/
def freeEntry (r : FreeReason) (e : Entry) (s : St) : St :=
  freeCb r e { s with
    pmksa := Lib.unlink Entry.ptr e s.pmksa
    trace := .removePmkid e.networkCtx e.aa e.pmkid :: s.trace
    pmksaCount := s.pmksaCount - 1 }

/-- The entries `pmksa_cache_flush` is about. -/
def flushes (networkCtx : Option ℕ) (pmk : Option Bytes) (externalOnly : Bool) (e : Entry) : Bool :=
  networkCtx.all (e.networkCtx = some ·) && pmk.all (· = e.pmk) && (!externalOnly || e.external)

/-- The loop of `pmksa_cache_flush` over the entries of the list. -/
def flushLoop (f : Entry → Bool) : List Entry → St → St
  | [], s => s
  | e :: l, s => flushLoop f l (if f e then freeEntry .free e s else s)

/-- `pmksa_cache_flush`. -/
def flush (networkCtx : Option ℕ) (pmk : Option Bytes) (externalOnly : Bool) (s : St) : St :=
  let s' := flushLoop (flushes networkCtx pmk externalOnly) s.pmksa s
  if s.pmksa.any (flushes networkCtx pmk externalOnly) then setExpiration s' else s'

/-- The loop of `pmksa_cache_expire`: an entry of SAE that is in use is passed over. -/
def expireLoop : List Entry → St → St
  | [], s => s
  | e :: l, s =>
    if e.expiration ≤ s.now then
      expireLoop l (if e.akmp = .sae ∧ s.isCurrent e then s else freeEntry .expire e s)
    else s

/-- `pmksa_cache_expire`. -/
def expire (s : St) : St := setExpiration (expireLoop s.pmksa s)

/-! ## Putting entries on -/

/-- The old entry of the access point goes and, when it has been used, whatever has its PMK. -/
def replace (pos e : Entry) (s : St) : St :=
  let s := { s with pmksa := Lib.unlink Entry.ptr pos s.pmksa }
  freeEntry .replace pos (if pos.opportunistic then s else flush e.networkCtx (some pos.pmk) false s)

/-- A full cache loses the oldest entry that is not in use. -/
def makeRoom (s : St) : St :=
  if s.pmksaCount ≥ 32 then
    match s.pmksa with
    | [] => s
    | pos :: l =>
      if s.isCurrent pos then
        match l with
        | pos :: _ => freeEntry .free pos s
        | [] => s
      else freeEntry .free pos s
  else s

/-- The end of `pmksa_cache_add_entry`. -/
def fileEntry (e : Entry) (s : St) : St :=
  let s' := { s with pmksa := Lib.enqueue Entry.expiration e s.pmksa }
  -- the timeouts change with the first entry
  let s' := if s.pmksa.head?.all (e.expiration < ·.expiration) then setExpiration s' else s'
  { s' with pmksaCount := s'.pmksaCount + 1, trace := .addPmkid e.networkCtx e.aa e.pmkid :: s'.trace }

/-- `pmksa_cache_add_entry`: the entry that is in the cache afterwards. -/
def addEntry (e : Entry) (s : St) : Entry × St :=
  match s.pmksa.find? (·.aa = e.aa) with
  | some pos =>
    if pos.pmk = e.pmk ∧ pos.pmkid = e.pmkid then (pos, s) else (e, fileEntry e (makeRoom (replace pos e s)))
  | none => (e, fileEntry e (makeRoom s))

/-- The arguments of `pmksa_cache_add`. -/
structure AddArgs where
  pmk : Bytes
  pmkid : Option Pmkid
  aa : Addr
  networkCtx : Option ℕ
  akmp : KeyMgmt

/-- The entry `pmksa_cache_add` makes; none of the suites is a Suite B suite. -/
def newEntry (r : AddArgs) (s : St) : Entry where
  ptr := s.fresh
  pmkid := r.pmkid.getD (c.rsnPmkid r.pmk r.aa c.ownAddr r.akmp)
  pmk := r.pmk
  expiration := s.now + c.pmkLifetime.toNat
  akmp := r.akmp
  aa := r.aa
  reauthTime := s.now + (c.pmkLifetime * c.pmkReauthThreshold / 100).toNat
  networkCtx := r.networkCtx
  opportunistic := false
  external := false

/-- `pmksa_cache_add`. -/
def add (r : AddArgs) (s : St) : Option Entry × St :=
  if r.pmk.length > 64 then (none, s)
  else (addEntry (newEntry c r s) { s with fresh := s.fresh + 1 }).map some id

/-! ## Opportunistic key caching -/

/-- What an entry has from the entry it has been cloned from. -/
def cloned (old e : Entry) : Entry :=
  { e with expiration := old.expiration, reauthTime := old.reauthTime, opportunistic := true }

/-- `pmksa_cache_clone_entry`; the list is not put in order again. -/
def cloneEntry (old : Entry) (aa : Addr) (s : St) : Option Entry × St :=
  let r := add c ⟨old.pmk, if old.akmp = .sae then some old.pmkid else none, aa, old.networkCtx, old.akmp⟩ s
  match r.1 with
  | none => (none, r.2)
  | some e =>
    (some (cloned old e), { r.2 with pmksa := r.2.pmksa.map fun x => if x.ptr = e.ptr then cloned old x else x })

/-- `entry->reauth_time < now.sec`, for SAE. -/
def overdue (s : St) (e : Entry) : Bool := e.akmp = .sae && e.reauthTime < s.now

/-- `pmksa_cache_get_opportunistic`. -/
def getOpportunistic (networkCtx : Option ℕ) (aa : Addr) (akmp : Option KeyMgmt) (s : St) : Option Entry × St :=
  match networkCtx with
  | none => (none, s)
  | some k =>
    match s.pmksa.find? fun e => e.networkCtx = some k && akmp.all (e.akmp = ·) && !overdue s e with
    | some old => cloneEntry c old aa s
    | none => (none, s)

/-! ## The entry in use -/

/-- The entry `pmksa_cache_set_current` looks up: by the PMKID, or else by the access point. -/
def lookup (pmkid : Option Pmkid) (bssid : Option Addr) (networkCtx : Option ℕ) (akmp : Option KeyMgmt)
    (l : List Entry) : Option Entry :=
  (pmkid.bind fun k => get l none (some k) networkCtx akmp).or
    (bssid.bind fun a => get l (some a) none networkCtx akmp)

/-- `pmksa_cache_set_current`. -/
def setCurrent (pmkid : Option Pmkid) (bssid : Option Addr) (networkCtx : Option ℕ) (tryOpportunistic : Bool)
    (akmp : Option KeyMgmt) (s : St) : St :=
  let s := { s with curPmksa := none }
  let r := match lookup pmkid bssid networkCtx akmp s.pmksa with
    | some e => (some e, s)
    | none =>
      match if tryOpportunistic then bssid else none with
      | some a => getOpportunistic c networkCtx a akmp s
      | none => (none, s)
  { r.2 with curPmksa := r.1.filter (!overdue r.2 ·) }

/-! ## Runs -/

/-- What a caller of `pmksa_cache_add` does with the entry. -/
inductive Use where
  /-- It becomes the one in use: `wpa_sm_pmksa_cache_add` and `wpa_sm_set_pmk`. -/
  | always
  /-- It does where there is none: `wpa_supplicant_get_pmk` for the XXKey of FT. -/
  | vacant
  /-- It is only filed: preauthentication. -/
  | never
deriving DecidableEq

/-- What happens to the cache. -/
inductive Event where
  /-- `pmksa_cache_add`. -/
  | add (r : AddArgs) (use : Use)
  /-- `wpa_sm_pmksa_cache_add_entry`, from the control interface or DPP: the entry with its own times. -/
  | addExternal (r : AddArgs) (expiration reauthTime : ℤ) (opportunistic external : Bool)
  /-- `pmksa_cache_get_opportunistic` for a candidate for preauthentication. -/
  | opportunistic (networkCtx : Option ℕ) (aa : Addr) (akmp : Option KeyMgmt)
  /-- The lookup in `wpa_supplicant_get_pmk`. -/
  | getPmk (aa : Addr) (pmkid : Pmkid)
  /-- Its end with a PMK of EAP, for a message 1/4 with this PMKID or without one. -/
  | getPmkEap (r : AddArgs) (pmkid : Option Pmkid)
  | setCurrent (pmkid : Option Pmkid) (bssid : Option Addr) (networkCtx : Option ℕ) (tryOpportunistic : Bool)
      (akmp : Option KeyMgmt)
  /-- `pmksa_cache_clear_current`, from a disassociation or an EAPOL start. -/
  | clearCurrent
  | flush (networkCtx : Option ℕ) (externalOnly : Bool)
  /-- The timeouts. -/
  | expire
  | reauth
  /-- `wpa_supplicant_key_neg_complete` marks an entry of OKC valid. -/
  | negComplete
  /-- `sm->pmk` and `sm->bssid` are set. -/
  | setPmk (pmk : Bytes)
  | setBssid (a : Addr)

/-- The entry of the control interface or DPP. -/
def externalEntry (r : AddArgs) (expiration reauthTime : ℤ) (opportunistic external : Bool) (s : St) : Entry :=
  { newEntry c r s with
    expiration := expiration, reauthTime := reauthTime, opportunistic := opportunistic, external := external }

/-- The entry in use once `a` has been filed. -/
def Use.current (u : Use) (a cur : Option Entry) : Option Entry :=
  match u with
  | .always => a
  | .vacant => cur.or a
  | .never => cur

/-- The end of `wpa_supplicant_get_pmk`: where no entry is in use the new one is, unless message 1/4 has a PMKID
that no entry of the access point has. -/
def getPmkEap (r : AddArgs) (pmkid : Option Pmkid) (s : St) : St :=
  let a := add c r s
  let known := (get a.2.pmksa (some r.aa) pmkid none none).isSome
  if a.1.isSome && a.2.curPmksa.isNone && pmkid.isSome && !known then a.2
  else { a.2 with curPmksa := a.2.curPmksa.or a.1 }

/-- What an event does. -/
def handle (s : St) : Event → Option St
  | .add r use =>
    let a := add c r s
    some { a.2 with curPmksa := use.current a.1 a.2.curPmksa }
  | .addExternal r expiration reauthTime opportunistic external =>
    some (addEntry (externalEntry c r expiration reauthTime opportunistic external s) { s with fresh := s.fresh + 1 }).2
  | .opportunistic networkCtx aa akmp => some (getOpportunistic c networkCtx aa akmp s).2
  | .getPmkEap r pmkid => some (getPmkEap c r pmkid s)
  | .getPmk aa pmkid =>
    if s.curPmksa.isNone then some { s with curPmksa := get s.pmksa (some aa) (some pmkid) none none } else none
  | .setCurrent pmkid bssid networkCtx tryOpportunistic akmp =>
    some (setCurrent c pmkid bssid networkCtx tryOpportunistic akmp s)
  | .clearCurrent => some { s with curPmksa := none }
  | .flush networkCtx externalOnly => some (flush networkCtx none externalOnly s)
  | .expire => if s.expireTimer.any (· ≤ s.now) then some (expire s) else none
  | .reauth =>
    if s.reauthTimer.any (· ≤ s.now) then
      some { s with reauthTimer := none, curPmksa := none, trace := .requestReauth :: s.trace }
    else none
  | .negComplete =>
    some { s with pmksa := s.pmksa.map fun e => if s.isCurrent e then { e with opportunistic := false } else e }
  | .setPmk pmk => some { s with pmk := pmk }
  | .setBssid a => some { s with bssid := a }

/-- One event and the time at which it happens. -/
def step (s : St) (w : ℤ × Event) : Option St :=
  if s.now ≤ w.1 then handle c { s with now := w.1 } w.2 else none

/-- A run of the cache. -/
abbrev run (c : Conf) (s : St) (es : List (ℤ × Event)) : Option St := Lib.run (step c) s es

/-! ## A plain run -/

/-- The defaults of `wpa_sm_init`. -/
def plainConf : Conf := ⟨Addr.second, 43200, 70, fun _ _ _ _ => plainPmkid⟩

/-- The PMK of an authentication with SAE, which has a PMKID of its own. -/
def plainAdd : AddArgs := ⟨Wpa.plainPmk.1, some plainPmkid, Addr.first, some 1, .sae⟩

/-- The station authenticates and uses the entry. -/
def plainRun : List (ℤ × Event) := [(0, .setPmk Wpa.plainPmk.1), (0, .add plainAdd .always)]

def plainSt : St := (run plainConf (.init 0) plainRun).get rfl

theorem plain_run : run plainConf (.init 0) plainRun = some plainSt := rfl

end Lightguard.Pmksa.Sta
