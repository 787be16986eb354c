import Mathlib.Logic.Function.Basic
import Lightguard.Basic
import Lightguard.Lib.Hex
import Lightguard.Lib.Run
import Lightguard.Lib.Stream

/-!
# The PTK receivers of the two LiFi ends

`ptk_receiver_ap.py` and `ptk_receiver_sta.py` as one machine. The AP's main loop takes a
PTK from hostapd and runs `sync_with_sta_and_install`; on the STA a server thread runs
`run_sync_server` while the main loop takes PTKs from wpa_supplicant. The two ends meet in
TCP connections that the AP opens and the STA accepts in order; what is read may be cut or
joined anywhere, and every call may raise.

A program counter names the call that comes next, with the local variables that are still
used. An event says which process moves and how the call ends.
-/

namespace Lightguard.Sync

open Lib (Stream hexlify)

/-- A sync connection: the two directions, who has closed it, and the PTK it was opened
for. `passed` is what the STA has handed to `send_ptk_to_wifi` while serving it. -/
structure Conn where
  ptk : Text
  toSta : Stream Char
  toAp : Stream Char
  apClosed : Bool
  staClosed : Bool
  passed : Option Text

/-- A connection as `connect` leaves it. -/
def Conn.new (p : Text) : Conn := ⟨p, .empty, .empty, false, false, none⟩

/-- Where the AP's main loop stands. -/
inductive ApPc where
  | accept
  | connect (p : Text)
  | sendSync (p : Text)
  | recvReady (p : Text)
  | sendInstall (p : Text)
  | recvReply (p : Text)
  /-- `OK` has arrived: `send_ptk_to_wifi(p)` comes next. -/
  | forward (p : Text)
  /-- `sync_with_sta_and_install` has returned. -/
  | synced (ok : Bool)
deriving DecidableEq

/-- Where the STA's sync server stands; `hex` is its local `ap_ptk_hex`. -/
inductive StaPc where
  | accept
  | recvSync
  | store (hex : Text)
  | check (hex : Text)
  | sendReady (hex : Text)
  | sendNotReady
  | recvInstall (hex : Text)
  | install (hex : Text)
  | replyOk
  /-- `FAIL` or `NOTREADY`, followed by `disconnect_wifi_link`. -/
  | reply (msg : Text)
  | disconnect
  | close
deriving DecidableEq

/-- Where the STA's main loop stands. -/
inductive MainPc where
  | accept
  | store (hex : Text)
deriving DecidableEq

/-- The AP's process. -/
structure Ap where
  pc : ApPc
  cur : ℕ
  lastPtkHex : Option Text

/-- The STA's process, with the globals its threads share. -/
structure Sta where
  pc : StaPc
  cur : ℕ
  main : MainPc
  lastPtkHex : Option Text
  pendingPtkHex : Option Text

/-- Both ends, every connection so far, and what has reached the WiFi daemons. `disc` says
that one side has called `disconnect_wifi_link` after the last forwarding. -/
structure World where
  conn : ℕ → Conn
  opened : ℕ
  accepted : ℕ
  ap : Ap
  sta : Sta
  apFwd : Option Text
  staFwd : Option Text
  disc : Bool

/-- How `sendall` ends; an exception may leave a part on the wire. -/
inductive Send where
  | ok
  | raised (n : ℕ)
deriving DecidableEq

/-- How `recv` ends: `n` octets, an orderly end, or a timeout or reset. -/
inductive Recv where
  | data (n : ℕ)
  | eof
  | raised
deriving DecidableEq

/-- How `send_ptk_to_wifi` ends: True, False or an exception. -/
inductive Forward where
  | ok
  | failed
  | raised
deriving DecidableEq

inductive ApEvent where
  | ptk (data : Bytes) (written : Bool)
  | connect (ok : Bool)
  | send (o : Send)
  | recv (o : Recv)
  | forward (o : Forward)
  | finish
  | watchdog
deriving DecidableEq

inductive StaEvent where
  | accept
  | recv (o : Recv)
  | store
  | check (associated : Bool)
  | send (o : Send)
  | install (associated : Bool) (o : Forward)
  | disconnect
  | close
  | watchdog
deriving DecidableEq

inductive MainEvent where
  | ptk (data : Bytes) (written : Bool)
  | store
deriving DecidableEq

inductive Event where
  | ap (e : ApEvent)
  | sta (e : StaEvent)
  | main (e : MainEvent)
deriving DecidableEq

/-! ## Messages -/

/-- `f"SYNC {ptk_hex}\n"`. -/
def syncMsg (p : Text) : Text := "SYNC ".toList ++ p ++ ['\n']

theorem syncMsg_append (p : Text) : syncMsg p = "SYNC ".toList ++ (p ++ ['\n']) :=
  List.append_assoc _ _ _

theorem length_syncMsg (p : Text) : (syncMsg p).length = p.length + 6 := by
  simp [syncMsg_append]

def installMsg : Text := "INSTALL\n".toList

/-- The STA's reading of the first message. -/
def parseSync (data : Text) : Option Text :=
  if "SYNC ".toList <+: data.strip then some (Text.strip (data.strip.drop 5)) else none

/-- The part of a message that `sendall` puts on the wire. -/
def Send.part (o : Send) (t : Text) : Text :=
  match o with
  | .ok => t
  | .raised n => t.take n

/-- The PTK in what the main loops read from their daemon, when they go on with it. -/
def newPtk (last : Option Text) (data : Bytes) : Option Text :=
  if data.length = 48 ∧ some (hexlify data) ≠ last then some (hexlify data) else none

/-! ## Steps -/

/-- Change the connection with number `i`. -/
def World.setConn (w : World) (i : ℕ) (k : Conn) : World :=
  { w with conn := Function.update w.conn i k }

def World.setAp (w : World) (pc : ApPc) : World := { w with ap := { w.ap with pc := pc } }

def World.setSta (w : World) (pc : StaPc) : World := { w with sta := { w.sta with pc := pc } }

/-- The AP's current connection. -/
def World.apConn (w : World) : Conn := w.conn w.ap.cur

/-- The STA's current connection. -/
def World.staConn (w : World) : Conn := w.conn w.sta.cur

/-- `sock.sendall(t)` on the AP, then `next`; any exception ends the sync with False. -/
def World.apSend (w : World) (o : Send) (t : Text) (next : ApPc) : World :=
  let k := { w.apConn with toSta := w.apConn.toSta.send (o.part t) }
  match o with
  | .ok => (w.setConn w.ap.cur k).setAp next
  | .raised _ => (w.setConn w.ap.cur { k with apClosed := true }).setAp (.synced false)

/-- `sync_with_sta_and_install` returns, which closes its socket. -/
def World.apReturn (w : World) (ok : Bool) : World :=
  (w.setConn w.ap.cur { w.apConn with apClosed := true }).setAp (.synced ok)

/-- `sock.recv(64)` on the AP: go on to `next` if the answer is `want`. -/
def World.apRecv (w : World) (o : Recv) (want : Text) (next : ApPc) : Option World :=
  match o with
  | .data n =>
    (w.apConn.toAp.recv 64 n).map fun (chunk, s) =>
      let w := w.setConn w.ap.cur { w.apConn with toAp := s }
      if Text.strip chunk = want then w.setAp next else w.apReturn false
  | .eof =>
    if w.apConn.staClosed ∧ w.apConn.toAp.unread = [] then some (w.apReturn false) else none
  | .raised => some (w.apReturn false)

/-- The AP's main loop with `sync_with_sta_and_install`. The wait for a WiFi station
between `READY` and `INSTALL` goes on in any case. -/
def apStep (w : World) (e : ApEvent) : Option World :=
  match w.ap.pc, e with
  | _, .watchdog => some { w with disc := true }
  | .accept, .ptk data written =>
    match newPtk w.ap.lastPtkHex data with
    | none => some w
    | some p =>
      let w := { w with ap := { w.ap with lastPtkHex := some p } }
      -- an exception of `write_ptk_tk` ends the round
      some (if written then w.setAp (.connect p) else w)
  | .connect p, .connect ok =>
    if ok then
      some { w with
        conn := Function.update w.conn w.opened (Conn.new p)
        opened := w.opened + 1
        ap := { w.ap with pc := .sendSync p, cur := w.opened } }
    else some (w.setAp (.synced false))
  | .sendSync p, .send o => some (w.apSend o (syncMsg p) (.recvReady p))
  | .recvReady p, .recv o => w.apRecv o "READY".toList (.sendInstall p)
  | .sendInstall p, .send o => some (w.apSend o installMsg (.recvReply p))
  | .recvReply p, .recv o => w.apRecv o "OK".toList (.forward p)
  | .forward p, .forward o =>
    match o with
    | .ok => some ({ w with apFwd := some p, disc := false }.apReturn true)
    | .failed => some (w.apReturn true)
    | .raised => some (w.apReturn false)
  | .synced ok, .finish => some { w.setAp .accept with disc := w.disc || !ok }
  | _, _ => none

/-- `conn.sendall(t)` on the STA, then `next`; any exception disconnects WiFi. -/
def World.staSend (w : World) (o : Send) (t : Text) (next : StaPc) : World :=
  let w := w.setConn w.sta.cur { w.staConn with toAp := w.staConn.toAp.send (o.part t) }
  match o with
  | .ok => w.setSta next
  | .raised _ => w.setSta .disconnect

/-- `conn.recv(max)` on the STA: the text it decodes to, empty at the end of the stream,
decides what comes next. -/
def World.staRecv (w : World) (o : Recv) (max : ℕ) (next : Text → StaPc) : Option World :=
  match o with
  | .data n =>
    (w.staConn.toSta.recv max n).map fun (chunk, s) =>
      (w.setConn w.sta.cur { w.staConn with toSta := s }).setSta (next chunk)
  | .eof =>
    if w.staConn.apClosed ∧ w.staConn.toSta.unread = [] then some (w.setSta (next [])) else none
  | .raised => some (w.setSta .disconnect)

/-- Step 6 of `run_sync_server`, all under `pending_ptk_lock`. -/
def World.staInstall (w : World) (associated : Bool) (o : Forward) : World :=
  match w.sta.pendingPtkHex with
  | none => w.setSta (.reply "NOTREADY\n".toList)
  | some q =>
    if q = [] ∨ associated = false then w.setSta (.reply "NOTREADY\n".toList)
    else
      let w := w.setConn w.sta.cur { w.staConn with passed := some q }
      match o with
      | .ok => { w with
          sta := { w.sta with pc := .replyOk, lastPtkHex := some q, pendingPtkHex := none }
          staFwd := some q
          disc := false }
      | .failed => w.setSta (.reply "FAIL\n".toList)
      | .raised => w.setSta .disconnect

/-- `run_sync_server`. -/
def staStep (w : World) (e : StaEvent) : Option World :=
  match w.sta.pc, e with
  | _, .watchdog => some { w with disc := true }
  | .accept, .accept =>
    if w.accepted < w.opened then
      some { w with
        accepted := w.accepted + 1
        sta := { w.sta with pc := .recvSync, cur := w.accepted } }
    else none
  | .recvSync, .recv o =>
    w.staRecv o 256 fun data =>
      match parseSync data with
      | some hex => .store hex
      | none => .close
  | .store hex, .store =>
    some ({ w with sta := { w.sta with pendingPtkHex := some hex } }.setSta (.check hex))
  | .check hex, .check associated =>
    some (w.setSta (if associated then .sendReady hex else .sendNotReady))
  | .sendReady hex, .send o => some (w.staSend o "READY\n".toList (.recvInstall hex))
  | .sendNotReady, .send o => some (w.staSend o "NOTREADY\n".toList .close)
  | .recvInstall hex, .recv o =>
    w.staRecv o 64 fun cmd =>
      if cmd.strip = "INSTALL".toList then .install hex else .reply "FAIL\n".toList
  | .install _, .install associated o => some (w.staInstall associated o)
  | .replyOk, .send o => some (w.staSend o "OK\n".toList .close)
  | .reply msg, .send o => some (w.staSend o msg .disconnect)
  | .disconnect, .disconnect => some { w.setSta .close with disc := true }
  | .close, .close =>
    some ((w.setConn w.sta.cur { w.staConn with staClosed := true }).setSta .accept)
  | _, _ => none

/-- The STA's main loop. -/
def mainStep (w : World) (e : MainEvent) : Option World :=
  match w.sta.main, e with
  | .accept, .ptk data written =>
    match newPtk w.sta.lastPtkHex data with
    | none => some w
    | some p => some (if written then { w with sta := { w.sta with main := .store p } } else w)
  | .store hex, .store =>
    some { w with sta := { w.sta with main := .accept, pendingPtkHex := some hex } }
  | _, _ => none

/-- One move of one process. -/
def step (w : World) (e : Event) : Option World :=
  match e with
  | .ap e => apStep w e
  | .sta e => staStep w e
  | .main e => mainStep w e

/-- Both receivers just started. -/
def init : World where
  conn _ := Conn.new []
  opened := 0
  accepted := 0
  ap := ⟨.accept, 0, none⟩
  sta := ⟨.accept, 0, .accept, none, none⟩
  apFwd := none
  staFwd := none
  disc := false

end Lightguard.Sync
