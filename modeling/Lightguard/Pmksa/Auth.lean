import Lightguard.Lib.Chains
import Lightguard.Lib.Deadline
import Lightguard.Lib.Run
import Lightguard.Wpa.Common

/-!
# The PMKSA cache of the access point

`pmksa_cache_auth.c` of hostapd: a list in the order of expiration, a chain for each hash of a PMKID, a number
of entries, and the timeout that drops what has expired. The stations point into it (`sm->pmksa`), and
`wpa_auth_pmksa_free_cb` is there to take these pointers back.

An entry is named by its address, which is new whenever an entry is made. Times are whole seconds, as
`now.sec` is: `expiration` and the timeout of the cache are counted in them, and the microseconds of the event
loop are left out. Memory does not run out, and the seconds do not overflow.
-/

namespace Lightguard.Pmksa

open Wpa

/-- `u8 pmkid[PMKID_LEN]`. -/
abbrev Pmkid := List.Vector UInt8 16

/-- What `pmksa_cache_from_eapol_data` takes from the EAPOL state machine. -/
structure EapolData where
  identity : Option Bytes
  radiusCui : Option Bytes
  acctMultiSessionId : UInt64

/-- `struct rsn_pmksa_cache_entry`; `ptr` is its address. -/
structure Entry where
  ptr : ℕ
  pmkid : Pmkid
  pmk : Bytes
  expiration : ℤ
  akmp : KeyMgmt
  spa : Addr
  opportunistic : Bool
  identity : Option Bytes
  cui : Option Bytes
  acctMultiSessionId : UInt64

/-- `PMKID_HASH`. -/
def pmkidHash (pmkid : Pmkid) : Fin 128 :=
  ⟨(pmkid.head &&& 0x7f).toNat, by
    rw [UInt8.toNat_and]
    exact Nat.and_lt_two_pow _ (n := 7) (by decide)⟩

/-- The chain an entry is on. -/
def Entry.chain (e : Entry) : Fin 128 := pmkidHash e.pmkid

/-- The configuration; `rsn_pmkid` is HMAC over the PMK and both addresses. -/
structure Conf where
  addr : Addr
  okc : Bool
  rsnPmkid : Bytes → Addr → Addr → KeyMgmt → Pmkid

/-- The cache with its timeout, and `sm->pmksa` of the stations of the BSS. -/
structure St where
  now : ℤ
  pmkid : Fin 128 → List Entry
  pmksa : List Entry
  pmksaCount : ℤ
  /-- When `pmksa_cache_expire` is due. -/
  timer : Option ℤ
  sms : Addr → Option (Option ℕ)
  /-- The next address. -/
  fresh : ℕ

/-- `pmksa_cache_auth_init`; there are no stations yet. -/
def St.init (now : ℤ) : St := ⟨now, fun _ => [], [], 0, none, fun _ => none, 0⟩

/-! ## Taking entries off -/

/-- `wpa_auth_pmksa_clear_cb`. -/
def clearCb (e : Entry) (p : Option ℕ) : Option ℕ := if p = some e.ptr then none else p

/-- `pmksa_cache_free_entry`. -/
def freeEntry (e : Entry) (s : St) : St :=
  { s with
    pmksaCount := s.pmksaCount - 1
    sms := fun a => (s.sms a).map (clearCb e)
    pmkid := Function.update s.pmkid e.chain (Lib.unlink Entry.ptr e (s.pmkid e.chain))
    pmksa := Lib.unlink Entry.ptr e s.pmksa }

/-- Frees the first entry over and over, as long as `f` says so; the list gets shorter. -/
def freeWhile (f : Entry → Bool) : ℕ → St → St
  | 0, s => s
  | n + 1, s =>
    match s.pmksa with
    | [] => s
    | e :: _ => if f e then freeWhile f n (freeEntry e s) else s

/-- `pmksa_cache_auth_flush`. -/
def flush (s : St) : St := freeWhile (fun _ => true) s.pmksa.length s

/-- `pmksa_cache_set_expiration`. -/
def setExpiration (s : St) : St :=
  { s with timer := s.pmksa.head?.map fun e => s.now + max 0 (e.expiration - s.now) + 1 }

/-- `pmksa_cache_expire`. -/
def expire (s : St) : St := setExpiration (freeWhile (·.expiration ≤ s.now) s.pmksa.length s)

/-! ## Looking up -/

/-- `pmksa_cache_auth_get`. -/
def authGet (s : St) (spa : Option Addr) : Option Pmkid → Option Entry
  | some pmkid => (s.pmkid (pmkidHash pmkid)).find? fun e => spa.all (e.spa = ·) && e.pmkid = pmkid
  | none => s.pmksa.find? fun e => spa.all (e.spa = ·)

/-- `pmksa_cache_get_okc`, on the list of some authenticator. -/
def getOkc (c : Conf) (l : List Entry) (aa spa : Addr) (pmkid : Pmkid) : Option Entry :=
  l.find? fun e => e.spa = spa &&
    if e.akmp = .sae then e.pmkid = pmkid else c.rsnPmkid e.pmk aa spa e.akmp = pmkid

/-! ## Putting entries on -/

/-- `pmksa_cache_link_entry`. -/
def linkEntry (e : Entry) (s : St) : St :=
  let s' := { s with
    pmksa := Lib.enqueue Entry.expiration e s.pmksa
    pmkid := Function.update s.pmkid e.chain (e :: s.pmkid e.chain)
    pmksaCount := s.pmksaCount + 1 }
  -- the entry is the first one
  if s.pmksa.head?.all (e.expiration < ·.expiration) then setExpiration s' else s'

/-- The arguments of `pmksa_cache_auth_add`. -/
structure AddArgs where
  pmk : Bytes
  pmkid : Option Pmkid
  aa : Addr
  spa : Addr
  sessionTimeout : ℤ
  eapol : Option EapolData
  akmp : KeyMgmt

/-- `pmksa_cache_auth_create_entry`; none of the suites is a Suite B suite. -/
def createEntry (c : Conf) (r : AddArgs) (s : St) : Option Entry :=
  if r.pmk.length > 64 then none
  else some
    { ptr := s.fresh
      pmkid := r.pmkid.getD (c.rsnPmkid r.pmk r.aa r.spa r.akmp)
      pmk := r.pmk
      expiration := s.now + if r.sessionTimeout > 0 then r.sessionTimeout else 43200
      akmp := r.akmp
      spa := r.spa
      opportunistic := false
      identity := r.eapol.bind (·.identity)
      cui := r.eapol.bind (·.radiusCui)
      acctMultiSessionId := (r.eapol.map (·.acctMultiSessionId)).getD 0 }

/-- The entry of a station goes. -/
def dropSame (spa : Addr) (s : St) : St :=
  match authGet s (some spa) none with
  | some pos => freeEntry pos s
  | none => s

/-- Without room the first entry goes. -/
def dropOldest (s : St) : St :=
  match s.pmksa with
  | pos :: _ => if s.pmksaCount ≥ 1024 then freeEntry pos s else s
  | [] => s

/-- `pmksa_cache_auth_add_entry`. -/
def addEntry (e : Entry) (s : St) : St := linkEntry e (dropOldest (dropSame e.spa s))

/-- `pmksa_cache_auth_add`. -/
def authAdd (c : Conf) (r : AddArgs) (s : St) : St :=
  match createEntry c r s with
  | some e => addEntry e { s with fresh := s.fresh + 1 }
  | none => s

/-- The entry `pmksa_cache_add_okc` makes. -/
def okcEntry (old : Entry) (pmkid : Pmkid) (s : St) : Entry :=
  { old with ptr := s.fresh, pmkid := pmkid, opportunistic := true, acctMultiSessionId := 0 }

/-- `pmksa_cache_add_okc`. -/
def addOkc (old : Entry) (pmkid : Pmkid) (s : St) : St :=
  linkEntry (okcEntry old pmkid s) { s with fresh := s.fresh + 1 }

/-! ## Disconnecting over RADIUS -/

/-- `struct radius_das_attrs`, as far as it is looked at. -/
structure DasAttrs where
  staAddr : Option Addr
  acctSessionId : Bool
  acctMultiSessionId : Option Bytes
  cui : Option Bytes
  userName : Option Bytes

/-- The octets of `%016llX`. -/
def hexUpper (n : UInt64) : Bytes :=
  (List.range 16).map fun i =>
    let d := UInt8.ofNat ((n.toNat >>> (4 * (15 - i))) % 16)
    if d < 10 then 48 + d else 55 + d

/-- How many of the attributes `das_attr_match` finds, or zero when one of them does not match. -/
def dasAttrMatch (e : Entry) (attr : DasAttrs) : ℕ :=
  if attr.staAddr.any (· ≠ e.spa) || attr.acctMultiSessionId.any (· ≠ hexUpper e.acctMultiSessionId) ||
      attr.cui.any (some · ≠ e.cui) || attr.userName.any (some · ≠ e.identity) then 0
  else attr.staAddr.toList.length + attr.acctMultiSessionId.toList.length + attr.cui.toList.length +
    attr.userName.toList.length

/-- `pmksa_cache_auth_radius_das_disconnect`. -/
def dasDisconnect (attr : DasAttrs) (s : St) : St :=
  if attr.acctSessionId then s
  else s.pmksa.foldl (fun s e => if dasAttrMatch e attr ≠ 0 then freeEntry e s else s) s

/-! ## Stations -/

/-- What `wpa_validate_wpa_ie` does about the PMKIDs of a station: its own cache first, then, with OKC, the
caches of all authenticators, of which `before` and `after` come before and after this one. -/
def validatePmkids (c : Conf) (a : Addr) (pmkids : List Pmkid) (before after : List (List Entry)) (s : St) : St :=
  match pmkids.findSome? (authGet s (some a) ∘ some) with
  | some e => { s with sms := Function.update s.sms a (some (some e.ptr)) }
  | none =>
    let okc pmkid := ((before ++ s.pmksa :: after).findSome? (getOkc c · c.addr a pmkid)).map (·, pmkid)
    match if c.okc then pmkids.findSome? okc else none with
    | some (old, pmkid) =>
      let s' := addOkc old pmkid s
      { s' with sms := Function.update s'.sms a (some (some s.fresh)) }
    | none => { s with sms := Function.update s.sms a (some none) }

/-- The entry `sm->pmksa` points at. -/
def smPmksa (s : St) (a : Addr) : Option Entry :=
  (s.sms a).join.bind fun p => s.pmksa.find? (·.ptr = p)

/-! ## Runs -/

/-- What happens to the cache. -/
inductive Event where
  /-- `wpa_auth_pmksa_add`, `wpa_auth_pmksa_add_preauth`, `wpa_auth_pmksa_add_sae` or `wpa_auth_pmksa_add2`. -/
  | add (r : AddArgs)
  /-- The timeout fires. -/
  | expire
  | flush
  /-- `wpa_auth_pmksa_remove`. -/
  | remove (spa : Addr)
  | dasDisconnect (attr : DasAttrs)
  /-- `wpa_auth_sta_init` and `wpa_auth_sta_deinit`. -/
  | staInit (a : Addr)
  | staDeinit (a : Addr)
  /-- A (re)association request. -/
  | validate (a : Addr) (pmkids : List Pmkid) (before after : List (List Entry))
  /-- `wpa_auth_sta_clear_pmksa`: the station starts EAPOL by itself. -/
  | clear (a : Addr)

/-- What an event does. -/
def handle (c : Conf) (s : St) : Event → Option St
  | .add r => some (authAdd c r s)
  | .expire => if s.timer.any (· ≤ s.now) then some (expire s) else none
  | .flush => some (flush s)
  | .remove spa => some (dropSame spa s)
  | .dasDisconnect attr => some (dasDisconnect attr s)
  | .staInit a => if (s.sms a).isNone then some { s with sms := Function.update s.sms a (some none) } else none
  | .staDeinit a => some { s with sms := Function.update s.sms a none }
  | .validate a pmkids before after =>
    if (s.sms a).isSome then some (validatePmkids c a pmkids before after s) else none
  | .clear a => if (s.sms a).isSome then some { s with sms := Function.update s.sms a (some none) } else none

/-- One event and the time at which it happens. -/
def step (c : Conf) (s : St) (w : ℤ × Event) : Option St :=
  if s.now ≤ w.1 then handle c { s with now := w.1 } w.2 else none

/-- A run of the cache. -/
abbrev run (c : Conf) (s : St) (es : List (ℤ × Event)) : Option St := Lib.run (step c) s es

/-! ## A plain run -/

/-- HMAC-SHA1-128 of `plainPmk` and the addresses of both ends. -/
def plainPmkid : Pmkid :=
  ⟨[0x49, 0x4C, 0x78, 0x67, 0x79, 0x18, 0xAA, 0xD3, 0xBD, 0xCC, 0x3F, 0xDC, 0xEB, 0x69, 0x76, 0xB9], rfl⟩

def plainConf : Conf := ⟨Addr.first, false, fun _ _ _ _ => plainPmkid⟩

/-- The PMK of a station, for the default time. -/
def plainAdd : AddArgs := ⟨Wpa.plainPmk.1, none, Addr.first, Addr.second, 0, none, .ieee8021x⟩

/-- The station authenticates, comes back with its PMKID, and stays. -/
def plainRun : List (ℤ × Event) :=
  [(0, .add plainAdd), (5, .staInit Addr.second), (6, .validate Addr.second [plainPmkid] [] [])]

def plainSt : St := (run plainConf (.init 0) plainRun).get rfl

theorem plain_run : run plainConf (.init 0) plainRun = some plainSt := rfl

end Lightguard.Pmksa
