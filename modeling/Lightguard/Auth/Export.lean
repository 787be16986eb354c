import Lightguard.Auth.Port
import Lightguard.Auth.Slots

/-!
# What hostapd exports

On the LiFi link every derivation pushes its PTK to port 8877.

* `run_export`: what is pushed is the start of a PTK derived from a configured PMK, and a
  derived PTK is taken over right after the MIC of a frame has verified under it.
-/

namespace Lightguard.Auth

open Wpa

variable {c : Conf} {ev : Event} {e : Env} {f : EapolKey} {s s' t : Sm} {U : Pmk → Prop}
  {l l' : List Out}

/-! ## Where the octets come from -/

/-- The start of a PTK derived from one of the PMKs `U`. -/
def Exported (c : Conf) (U : Pmk → Prop) (b : Bytes) : Prop :=
  ∃ pmk a n k p, U pmk ∧ b = (ptkTmp c.prims k p c.addr c.sta pmk.1 a n).take 48

/-- What may be pushed, and when `sm->PTK` may be written. -/
def ExportRule (c : Conf) (U : Pmk → Prop) : Out → List Out → Prop
  | .pushed b, _ => Exported c U b
  | .newPtk src K, l => src ≠ .fork ∧ Genuine c U K src ∧ ∃ l', l = .micVerified K :: l'
  | _, _ => True

/-- Entries that push nothing and write no PTK. -/
def Out.local : Out → Bool
  | .pushed _ | .newPtk _ _ => false
  | _ => true

theorem exportRule_local {o : Out} (h : o.local = true) : ExportRule c U o l := by
  cases o <;> simp_all [Out.local, ExportRule]

/-- Entries that push nothing and write no PTK keep the rule. -/
theorem export_extend (hl : ∀ o ∈ l, o.local = true) (h : Lib.Always (ExportRule c U) l') :
    Lib.Always (ExportRule c U) (l ++ l') :=
  Lib.always_append (fun o ho _ => exportRule_local (hl o ho)) h

theorem local_of_quiet {o : Out} {b : Bool} (h : o.quiet b = true) : o.local = true := by
  cases o <;> first | rfl | cases h

/-- What a search leaves keeps the rule when its candidates are among `U`. -/
theorem export_search {n : Bytes} {cand : List (Option Pmk)} {ds : List DeriveEnv}
    (hU : ∀ pmk, some pmk ∈ cand → U pmk) (h : Lib.Always (ExportRule c U) l) :
    Lib.Always (ExportRule c U) (searchOut (searchPmk c s n f cand ds) ++ l) := by
  refine Lib.always_append ?_ h
  intro o ho t
  rcases List.mem_append.1 ho with ho | ho
  · obtain ⟨r, -, rfl⟩ := Option.map_eq_some_iff.1 (Option.mem_toList.1 ho)
    trivial
  · obtain ⟨pmk, hpmk, rfl⟩ := searchPmk_pushes o ho
    exact ⟨pmk, _, _, _, _, hU pmk hpmk, rfl⟩

/-- A PTK that was found may be written right after the search. -/
theorem exportRule_adopt {pmk : Pmk} {n : Bytes} {ptk : Ptk} {r : List Out × Option (Pmk × Ptk)}
    (hU : U pmk) (hr : r.2 = some (pmk, ptk))
    (hk : ptk = ptkOf c.prims s.neg.keyMgmt s.neg.pairwise c.addr c.sta pmk.1 s.aNonce n) :
    ExportRule c U (.newPtk (.derived pmk s.aNonce n) ptk) (searchOut r ++ l) := by
  refine ⟨nofun, ⟨hU, _, _, hk⟩, r.1 ++ l, ?_⟩
  simp [searchOut, hr]

theorem calcSearch_export (hs : KeysOK c U s) (hb : Brings U ev e)
    (h : Lib.Always (ExportRule c U) l) :
    Lib.Always (ExportRule c U) (searchOut (calcSearch c e s) ++ l) := by
  unfold calcSearch
  split
  · exact h
  · exact export_search (fun pmk hp => hs.known hb (candidates_pmk hp)) h

/-- **The MIC check** keeps the rule. -/
theorem MicCheck.export {b : Bool} (h : MicCheck c e f s (b, t)) (hs : KeysOK c U s)
    (hb : Brings U ev e) (hx : Lib.Always (ExportRule c U) s.trace) :
    Lib.Always (ExportRule c U) t.trace := by
  have halt : Lib.Always (ExportRule c U) (searchOut (altSearch c e f s) ++ s.trace) :=
    export_search (fun pmk hp => hs.known hb (altCandidates_pmk hp)) hx
  cases h with
  | unchecked | failed => exact hx
  | noMic | verified => exact ⟨trivial, hx⟩
  | failedAlt => exact halt
  | alt hv hm hbad h4 ha hf =>
    obtain ⟨hc, -, -, hk⟩ := searchPmk_found hf
    exact ⟨exportRule_adopt (hs.known hb (altCandidates_pmk hc)) hf hk, halt⟩

/-- **Every act keeps the rule**, on the LiFi link. -/
theorem act_export (hl : c.link = .lifi) (hb : Brings U ev e) (hp : PortOK c U s)
    (hs : Lib.Always (ExportRule c U) s.trace) (h : Act c ev e s t) :
    Lib.Always (ExportRule c U) t.trace := by
  have plain : ∀ {u v : Sm}, Lib.Always (ExportRule c U) u.trace → Plain e u v →
      Lib.Always (ExportRule c U) v.trace := by
    intro u v hu hp
    obtain ⟨l, htr, hq, -⟩ := hp.trace
    rw [htr]
    exact export_extend (fun o ho => local_of_quiet (hq o ho)) hu
  cases h with
  | plain h => exact plain hs h
  | initFlag b ha h => exact plain (u := { s with init := b }) hs h
  | associated => exact ⟨trivial, hs⟩
  | noted | micReset | negotiated | newPsks => exact hs
  | refused h0 h => exact h.export hp.toKeysOK hb hs
  | received h0 hw h => exact h.export hp.toKeysOK hb hs
  | requested h0 hf h => exact h.export hp.toKeysOK hb hs
  | searched h => exact calcSearch_export hp.toKeysOK hb hs
  | adopted h hf hi =>
    obtain ⟨hc, -, hk⟩ := calcSearch_found hf
    exact ⟨exportRule_adopt (hp.toKeysOK.known hb hc) hf hk, calcSearch_export hp.toKeysOK hb hs⟩
  | done h =>
    have hd : Lib.Always (ExportRule c U) (doneEntered e s).trace := by
      rcases doneEntered_keys e s with htr | ⟨-, htr⟩ <;> rw [htr]
      · exact ⟨trivial, hs⟩
      · exact ⟨trivial, trivial, hs⟩
    rcases enterPtkinitdone_cases c e s with ⟨-, -, heq⟩ | ⟨-, heq⟩ | ⟨-, -, hp⟩
    · rw [heq]
      refine export_extend (l := portCalls .ptkinitdone s.neg) ?_ hd
      unfold portCalls
      split <;> simp [Out.local]
    · rw [heq]
      exact ⟨trivial, hd⟩
    · exact plain hd hp
  | install site ptk hw => rw [hl] at hw; cases hw
  | fastPath hw => rw [hl] at hw; cases hw

/-- **What every run keeps of the exported PTKs**, on the LiFi link. -/
theorem run_export (hl : c.link = .lifi) {n : Negotiated} {psks : List Pmk}
    {es : List (Event × Env)} (h : run c (Sm.new n psks) es = some s) :
    Lib.Always (ExportRule c (Configured n psks es)) s.trace := by
  refine (run_acts (I := fun s => Lib.Always (ExportRule c _) s.trace) trivial ?_ h).2.2
  intro x hx s t hp hs ha
  exact act_export hl (configured_brings hx) hp hs ha

end Lightguard.Auth
