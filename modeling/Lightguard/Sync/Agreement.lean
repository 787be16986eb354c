import Lightguard.Sync.Invariant

/-!
# PTK agreement

* `sync_agreement`: when the AP has received `OK`, the STA has passed the AP's PTK to its
  WiFi daemon, if no PTK of its own LiFi daemon has come in between.
* `foreign_ptk_forwarded`: without this condition it may have passed another one.
-/

namespace Lightguard.Sync

open Lib (hexlify)

variable {w : World} {p : Text} {es : List Event}

/-- **PTK agreement.** Whenever `sync_with_sta_and_install(p)` has received `OK`, the STA has
passed `p` to `send_ptk_to_wifi` in that exchange. -/
theorem sync_agreement
    (hC : Lib.Along step (fun w e => noForeignPtk w e = true) init es)
    (hr : Lib.run step init es = some w) (hp : w.ap.pc = .forward p) :
    w.apConn.passed = some p := by
  have h := run_inv hC hr
  have hap := h.ap
  rw [hp] at hap
  rw [(h.apConn_ok (by rw [hp]; rfl)).ok hap.2, hap.1]

/-- Two PTKs as the daemons write them. -/
def ptkData : Bytes := List.replicate 48 0x11

def ptkData' : Bytes := List.replicate 48 0x22

/-- An exchange up to the server's `READY`, with `between` put in after the server has
stored the AP's PTK. -/
def syncUpToReady (between : List Event) : List Event :=
  [.ap (.ptk ptkData true), .ap (.connect true), .sta .accept, .ap (.send .ok),
    .sta (.recv (.data 102)), .sta .store] ++ between ++
  [.sta (.check true), .sta (.send .ok), .ap (.recv (.data 6)), .ap (.send .ok),
    .sta (.recv (.data 8))]

/-- A whole exchange on the STA, up to the AP's reading of `OK`. -/
def syncUpToOk (between : List Event) : List Event :=
  syncUpToReady between ++
    [.sta (.install true .ok), .sta (.send .ok), .ap (.recv (.data 3))]

/-- The state a run of the examples ends in. -/
def after (es : List Event) : World := (Lib.run step init es).getD init

theorem run_after (h : (Lib.run step init es).isSome) : Lib.run step init es = some (after es) := by
  obtain ⟨w, hw⟩ := Option.isSome_iff_exists.1 h
  rw [after, hw, Option.getD_some]

theorem sync_agreement_plain :
    (after (syncUpToOk [])).apConn.passed = some (hexlify ptkData) :=
  sync_agreement (by decide) (run_after (by decide)) (by decide)

/-- A PTK from the STA's own daemon between `SYNC` and `INSTALL` is installed instead. -/
theorem foreign_ptk_forwarded :
    ∃ es w p, Lib.run step init es = some w ∧ w.ap.pc = .forward p ∧ w.apConn.passed ≠ some p :=
  ⟨syncUpToOk [.main (.ptk ptkData' true), .main .store], after _, hexlify ptkData,
    run_after (by decide), by decide, by decide⟩

end Lightguard.Sync
