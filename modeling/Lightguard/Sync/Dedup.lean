import Lightguard.Lib.History
import Lightguard.Sync.Agreement

/-!
# Which PTKs are skipped

Both receivers skip a PTK that equals their `last_ptk_hex`. The AP sets it before it tries to install the
PTK, the STA when it has installed one, and neither forgets it when it disconnects WiFi.

* `apStep_last`, `staStep_last`: how a step changes `last_ptk_hex`.
* `ap_skips`, `sta_skips`: which PTKs are skipped, by the history of the receiver.
* `skips_iff`: the deliveries at which exactly the PTK in place is skipped.
-/

namespace Lightguard.Sync

open Lib (hexlify latest Since Always)

/-- What happens at one receiver. -/
inductive Rec where
  /-- A PTK is delivered by the daemon, and skipped as a duplicate or not. -/
  | delivered (h : Text) (skipped : Bool)
  /-- `send_ptk_to_wifi` has returned True. -/
  | installed (h : Text)
  /-- `disconnect_wifi_link` is called. -/
  | disconnected
deriving DecidableEq

def Rec.delivered? : Rec → Option Text
  | .delivered h _ => some h
  | _ => none

def Rec.installed? : Rec → Option Text
  | .installed h => some h
  | _ => none

/-- Entries after which a PTK installed before is no longer in place. -/
def Rec.ends : Rec → Bool
  | .delivered _ _ => false
  | _ => true

/-- What a main loop makes of the data it reads. -/
def deliver (last : Option Text) (data : Bytes) : List Rec :=
  if data.length = 48 then [.delivered (hexlify data) (newPtk last data = none)] else []

/-- What an event is to the AP's receiver. -/
def apNotes (w : World) : Event → List Rec
  | .ap (.ptk data _) => deliver w.ap.lastPtkHex data
  | .ap (.forward .ok) =>
    match w.ap.pc with
    | .forward p => [.installed p]
    | _ => []
  | .ap .finish => if w.ap.pc = .synced false then [.disconnected] else []
  | .ap .watchdog => [.disconnected]
  | _ => []

/-- What an event is to the STA's receiver. -/
def staNotes (w : World) : Event → List Rec
  | .main (.ptk data _) => deliver w.sta.lastPtkHex data
  | .sta (.install true .ok) =>
    match w.sta.pendingPtkHex with
    | none | some [] => []
    | some q => [.installed q]
  | .sta .disconnect | .sta .watchdog => [.disconnected]
  | _ => []

/-- The AP's history, the newest first. -/
def apHistory (es : List Event) : List Rec := Lib.notes step apNotes init [] es

/-- The STA's history, the newest first. -/
def staHistory (es : List Event) : List Rec := Lib.notes step staNotes init [] es

/-! ## What is remembered -/

variable {w w' : World} {h : Text} {old : List Rec}

@[simp] theorem setConn_ap (i : ℕ) (k : Conn) : (w.setConn i k).ap = w.ap := rfl

@[simp] theorem setConn_sta (i : ℕ) (k : Conn) : (w.setConn i k).sta = w.sta := rfl

@[simp] theorem setAp_last (pc : ApPc) : (w.setAp pc).ap.lastPtkHex = w.ap.lastPtkHex := rfl

@[simp] theorem setAp_sta (pc : ApPc) : (w.setAp pc).sta = w.sta := rfl

@[simp] theorem setSta_last (pc : StaPc) : (w.setSta pc).sta.lastPtkHex = w.sta.lastPtkHex := rfl

@[simp] theorem setSta_ap (pc : StaPc) : (w.setSta pc).ap = w.ap := rfl

@[simp] theorem apReturn_last (ok : Bool) : (w.apReturn ok).ap.lastPtkHex = w.ap.lastPtkHex := rfl

@[simp] theorem apReturn_sta (ok : Bool) : (w.apReturn ok).sta = w.sta := rfl

@[simp] theorem apSend_last (o : Send) (t : Text) (next : ApPc) :
    (w.apSend o t next).ap.lastPtkHex = w.ap.lastPtkHex := by
  cases o <;> rfl

@[simp] theorem apSend_sta (o : Send) (t : Text) (next : ApPc) : (w.apSend o t next).sta = w.sta := by
  cases o <;> rfl

@[simp] theorem staSend_last (o : Send) (t : Text) (next : StaPc) :
    (w.staSend o t next).sta.lastPtkHex = w.sta.lastPtkHex := by
  cases o <;> rfl

@[simp] theorem staSend_ap (o : Send) (t : Text) (next : StaPc) : (w.staSend o t next).ap = w.ap := by
  cases o <;> rfl

theorem apRecv_last {o : Recv} {want : Text} {next : ApPc} (hw : w.apRecv o want next = some w') :
    w'.ap.lastPtkHex = w.ap.lastPtkHex ∧ w'.sta = w.sta := by
  unfold World.apRecv at hw
  split at hw
  · obtain ⟨⟨chunk, s⟩, -, rfl⟩ := Option.map_eq_some_iff.1 hw
    dsimp only
    split
    · exact ⟨rfl, rfl⟩
    · exact ⟨rfl, rfl⟩
  · split at hw
    · simp only [Option.some.injEq] at hw; subst hw
      exact ⟨rfl, rfl⟩
    · cases hw
  · simp only [Option.some.injEq] at hw; subst hw
    exact ⟨rfl, rfl⟩

theorem staRecv_last {o : Recv} {max : ℕ} {next : Text → StaPc} (hw : w.staRecv o max next = some w') :
    w'.sta.lastPtkHex = w.sta.lastPtkHex ∧ w'.ap = w.ap := by
  unfold World.staRecv at hw
  split at hw
  · obtain ⟨⟨chunk, s⟩, -, rfl⟩ := Option.map_eq_some_iff.1 hw
    exact ⟨rfl, rfl⟩
  · split at hw
    · simp only [Option.some.injEq] at hw; subst hw
      exact ⟨rfl, rfl⟩
    · cases hw
  · simp only [Option.some.injEq] at hw; subst hw
    exact ⟨rfl, rfl⟩

/-- A PTK that is not new is the remembered one. -/
theorem newPtk_none {last : Option Text} {data : Bytes} (hlen : data.length = 48) :
    newPtk last data = none ↔ last = some (hexlify data) := by
  rw [newPtk]
  split
  · rename_i hne
    exact iff_of_false (by simp) fun h => hne.2 h.symm
  · rename_i hne
    refine iff_of_true rfl ?_
    by_contra h
    exact hne ⟨hlen, fun h' => h h'.symm⟩

/-- **The AP remembers the last PTK delivered**, whatever becomes of it. -/
theorem apStep_last {e : ApEvent} (hw : apStep w e = some w') :
    w'.ap.lastPtkHex = (latest Rec.delivered? (apNotes w (.ap e))).or w.ap.lastPtkHex ∧
      w'.sta = w.sta := by
  unfold apStep at hw
  split at hw
  · simp only [Option.some.injEq] at hw; subst hw
    exact ⟨rfl, rfl⟩
  · rename_i data written hpc
    simp only [apNotes, deliver]
    by_cases hlen : data.length = 48
    · rw [if_pos hlen]
      split at hw
      · rename_i hnew
        simp only [Option.some.injEq] at hw; subst hw
        exact ⟨(newPtk_none hlen).1 hnew, rfl⟩
      · rename_i p hnew
        obtain rfl : hexlify data = p := by
          unfold newPtk at hnew
          split at hnew
          · exact Option.some.inj hnew
          · cases hnew
        simp only [Option.some.injEq] at hw; subst hw
        cases written
        · exact ⟨rfl, rfl⟩
        · exact ⟨rfl, rfl⟩
    · have hnew : newPtk w.ap.lastPtkHex data = none := by
        rw [newPtk, if_neg fun hd => hlen hd.1]
      simp only [hnew, Option.some.injEq] at hw; subst hw
      rw [if_neg hlen]
      exact ⟨rfl, rfl⟩
  · split at hw
    · simp only [Option.some.injEq] at hw; subst hw
      exact ⟨rfl, rfl⟩
    · simp only [Option.some.injEq] at hw; subst hw
      exact ⟨rfl, rfl⟩
  · simp only [Option.some.injEq] at hw; subst hw
    exact ⟨apSend_last _ _ _, apSend_sta _ _ _⟩
  · exact apRecv_last hw
  · simp only [Option.some.injEq] at hw; subst hw
    exact ⟨apSend_last _ _ _, apSend_sta _ _ _⟩
  · exact apRecv_last hw
  · rename_i p o hpc
    cases o with
    | ok =>
      simp only [Option.some.injEq] at hw; subst hw
      refine ⟨?_, rfl⟩
      simp only [apNotes, hpc]
      rfl
    | failed =>
      simp only [Option.some.injEq] at hw; subst hw
      exact ⟨rfl, rfl⟩
    | raised =>
      simp only [Option.some.injEq] at hw; subst hw
      exact ⟨rfl, rfl⟩
  · simp only [Option.some.injEq] at hw; subst hw
    refine ⟨?_, rfl⟩
    simp only [apNotes]
    split
    · rfl
    · rfl
  · cases hw

theorem staInstall_last (associated : Bool) (o : Forward) :
    (w.staInstall associated o).sta.lastPtkHex =
        (latest Rec.installed? (staNotes w (.sta (.install associated o)))).or w.sta.lastPtkHex ∧
      (w.staInstall associated o).ap = w.ap := by
  unfold World.staInstall
  cases hq : w.sta.pendingPtkHex with
  | none =>
    refine ⟨?_, rfl⟩
    cases associated <;> cases o <;> simp only [staNotes, hq] <;> rfl
  | some q =>
    by_cases hno : q = [] ∨ associated = false
    · simp only [if_pos hno]
      refine ⟨?_, rfl⟩
      rcases hno with rfl | rfl
      · cases associated <;> cases o <;> simp only [staNotes, hq] <;> rfl
      · rfl
    · obtain ⟨c, q, rfl⟩ := List.exists_cons_of_ne_nil fun h0 => hno (.inl h0)
      obtain rfl : associated = true := by
        by_contra hf
        exact hno (.inr (by simpa using hf))
      simp only [if_neg hno]
      cases o with
      | ok => simp only [staNotes, hq]; exact ⟨rfl, rfl⟩
      | failed => exact ⟨rfl, rfl⟩
      | raised => exact ⟨rfl, rfl⟩

/-- **The STA remembers the last PTK installed.** -/
theorem staStep_last {e : StaEvent} (hw : staStep w e = some w') :
    w'.sta.lastPtkHex = (latest Rec.installed? (staNotes w (.sta e))).or w.sta.lastPtkHex ∧
      w'.ap = w.ap := by
  unfold staStep at hw
  split at hw
  · simp only [Option.some.injEq] at hw; subst hw
    exact ⟨rfl, rfl⟩
  · split at hw
    · simp only [Option.some.injEq] at hw; subst hw
      exact ⟨rfl, rfl⟩
    · cases hw
  · exact staRecv_last hw
  · simp only [Option.some.injEq] at hw; subst hw
    exact ⟨rfl, rfl⟩
  · simp only [Option.some.injEq] at hw; subst hw
    exact ⟨rfl, rfl⟩
  · simp only [Option.some.injEq] at hw; subst hw
    exact ⟨staSend_last _ _ _, staSend_ap _ _ _⟩
  · simp only [Option.some.injEq] at hw; subst hw
    exact ⟨staSend_last _ _ _, staSend_ap _ _ _⟩
  · exact staRecv_last hw
  · simp only [Option.some.injEq] at hw; subst hw
    exact staInstall_last _ _
  · simp only [Option.some.injEq] at hw; subst hw
    exact ⟨staSend_last _ _ _, staSend_ap _ _ _⟩
  · simp only [Option.some.injEq] at hw; subst hw
    exact ⟨staSend_last _ _ _, staSend_ap _ _ _⟩
  · simp only [Option.some.injEq] at hw; subst hw
    exact ⟨rfl, rfl⟩
  · simp only [Option.some.injEq] at hw; subst hw
    exact ⟨rfl, rfl⟩
  · cases hw

theorem mainStep_last {e : MainEvent} (hw : mainStep w e = some w') :
    w'.sta.lastPtkHex = (latest Rec.installed? (staNotes w (.main e))).or w.sta.lastPtkHex ∧
      w'.ap = w.ap := by
  have hnone : latest Rec.installed? (staNotes w (.main e)) = none := by
    cases e with
    | ptk data written =>
      simp only [staNotes, deliver]
      split
      · rfl
      · rfl
    | store => rfl
  rw [hnone, Option.none_or]
  unfold mainStep at hw
  split at hw
  · split at hw
    · simp only [Option.some.injEq] at hw; subst hw
      exact ⟨rfl, rfl⟩
    · simp only [Option.some.injEq] at hw
      split at hw
      · subst hw
        exact ⟨rfl, rfl⟩
      · subst hw
        exact ⟨rfl, rfl⟩
  · simp only [Option.some.injEq] at hw; subst hw
    exact ⟨rfl, rfl⟩
  · cases hw

theorem step_apLast {e : Event} (hw : step w e = some w') :
    w'.ap.lastPtkHex = (latest Rec.delivered? (apNotes w e)).or w.ap.lastPtkHex := by
  cases e with
  | ap e => exact (apStep_last hw).1
  | sta e => exact congrArg Ap.lastPtkHex (staStep_last hw).2
  | main e => exact congrArg Ap.lastPtkHex (mainStep_last hw).2

theorem step_staLast {e : Event} (hw : step w e = some w') :
    w'.sta.lastPtkHex = (latest Rec.installed? (staNotes w e)).or w.sta.lastPtkHex := by
  cases e with
  | ap e => exact congrArg Sta.lastPtkHex (apStep_last hw).2
  | sta e => exact (staStep_last hw).1
  | main e => exact (mainStep_last hw).1

/-! ## What is skipped -/

/-- A PTK is skipped if and only if it is the newest one that `f` reads off the history. -/
def SkipsBy (f : Rec → Option Text) (o : Rec) (old : List Rec) : Prop :=
  match o with
  | .delivered h skipped => skipped = true ↔ latest f old = some h
  | _ => True

/-- At most one entry for an event, in which a PTK is skipped when it equals the remembered one. -/
def OneNote (last : Option Text) (l : List Rec) : Prop :=
  l = [] ∨ ∃ o, l = [o] ∧ ∀ h skipped, o = .delivered h skipped → (skipped = true ↔ last = some h)

theorem deliver_note (last : Option Text) (data : Bytes) : OneNote last (deliver last data) := by
  rw [deliver]
  split
  · rename_i hlen
    refine .inr ⟨_, rfl, ?_⟩
    rintro h skipped ⟨⟩
    rw [decide_eq_true_iff, newPtk_none hlen]
  · exact .inl rfl

theorem apNotes_note (w : World) (e : Event) : OneNote w.ap.lastPtkHex (apNotes w e) := by
  unfold apNotes
  split
  · exact deliver_note _ _
  · split
    · exact .inr ⟨_, rfl, by simp⟩
    · exact .inl rfl
  · split
    · exact .inr ⟨_, rfl, by simp⟩
    · exact .inl rfl
  · exact .inr ⟨_, rfl, by simp⟩
  · exact .inl rfl

theorem staNotes_note (w : World) (e : Event) : OneNote w.sta.lastPtkHex (staNotes w e) := by
  unfold staNotes
  split
  · exact deliver_note _ _
  · split
    · exact .inl rfl
    · exact .inl rfl
    · exact .inr ⟨_, rfl, by simp⟩
  · exact .inr ⟨_, rfl, by simp⟩
  · exact .inr ⟨_, rfl, by simp⟩
  · exact .inl rfl

/-- A receiver that remembers the newest PTK of a kind skips that one. -/
theorem always_skips {f : Rec → Option Text} {note : World → Event → List Rec}
    {last : World → Option Text}
    (hlast : ∀ w e w', step w e = some w' → last w' = (latest f (note w e)).or (last w))
    (hnote : ∀ w e, OneNote (last w) (note w e)) (hinit : last init = none) (es : List Event) :
    Always (SkipsBy f) (Lib.notes step note init [] es) := by
  have hstep : ∀ w t e w', (last w = latest f t ∧ Always (SkipsBy f) t) → step w e = some w' →
      last w' = latest f (note w e ++ t) ∧ Always (SkipsBy f) (note w e ++ t) := by
    rintro w t e w' ⟨hl, ha⟩ hw
    refine ⟨?_, ?_⟩
    · rw [hlast w e w' hw, hl, latest, latest, latest, List.findSome?_append]
    · rcases hnote w e with hnil | ⟨o, hone, hskip⟩
      · rwa [hnil, List.nil_append]
      · rw [hone]
        refine ⟨?_, ha⟩
        cases o with
        | delivered h skipped =>
          have hs := hskip h skipped rfl
          rwa [hl] at hs
        | installed h => trivial
        | disconnected => trivial
  obtain ⟨w, -, h⟩ := Lib.notes_inv (I := fun w t => last w = latest f t ∧ Always (SkipsBy f) t)
    hstep (t := []) es ⟨hinit, trivial⟩
  exact h

/-- **What the AP skips**: the PTK it has been delivered last. -/
theorem ap_skips (es : List Event) : Always (SkipsBy Rec.delivered?) (apHistory es) :=
  always_skips (fun _ _ _ => step_apLast) apNotes_note rfl es

/-- **What the STA skips**: the PTK it has installed last. -/
theorem sta_skips (es : List Event) : Always (SkipsBy Rec.installed?) (staHistory es) :=
  always_skips (fun _ _ _ => step_staLast) staNotes_note rfl es

/-! ## The law -/

/-- The PTK `h` has been installed, and since then no other one has been and WiFi has not been
disconnected. -/
def InPlace (h : Text) (old : List Rec) : Prop := Since (fun r => r.ends = true) (.installed h) old

/-- A delivered PTK is skipped if and only if it is in place. -/
def SkipLaw (o : Rec) (old : List Rec) : Prop :=
  match o with
  | .delivered h skipped => skipped = true ↔ InPlace h old
  | _ => True

/-- A PTK delivered to the AP is in place if and only if it is the one delivered before it. -/
def ApSafe (o : Rec) (old : List Rec) : Prop :=
  match o with
  | .delivered h _ => latest Rec.delivered? old = some h ↔ InPlace h old
  | _ => True

/-- A PTK delivered to the STA is not the one installed last, unless that is still in place. -/
def StaSafe (o : Rec) (old : List Rec) : Prop :=
  match o with
  | .delivered h _ => latest Rec.installed? old = some h → InPlace h old
  | _ => True

theorem InPlace.latest (hp : InPlace h old) : Lib.latest Rec.installed? old = some h := by
  obtain ⟨new, before, rfl, hnew⟩ := Lib.since_iff.1 hp
  rw [Lib.latest_append]
  · rfl
  · intro r hr
    cases r with
    | delivered h skipped => rfl
    | installed h => exact absurd rfl (hnew _ hr)
    | disconnected => rfl

/-- **When exactly the PTK in place is skipped.** In every run of the receivers, the law holds for a
delivery to the AP if and only if the PTK is in place exactly when it is the one delivered before it, and
for a delivery to the STA if and only if the PTK installed last is not delivered again after WiFi has
been disconnected. -/
theorem skips_iff (es : List Event) :
    Always (fun o old => SkipLaw o old ↔ ApSafe o old) (apHistory es) ∧
      Always (fun o old => SkipLaw o old ↔ StaSafe o old) (staHistory es) := by
  refine ⟨Always.mono ?_ (ap_skips es), Always.mono ?_ (sta_skips es)⟩
  · intro o old hskip
    cases o with
    | delivered h skipped =>
      have hs : skipped = true ↔ latest Rec.delivered? old = some h := hskip
      rw [SkipLaw, ApSafe, hs]
    | installed h => exact Iff.rfl
    | disconnected => exact Iff.rfl
  · intro o old hskip
    cases o with
    | delivered h skipped =>
      have hs : skipped = true ↔ latest Rec.installed? old = some h := hskip
      rw [SkipLaw, StaSafe, hs]
      exact ⟨Iff.mp, fun himp => ⟨himp, InPlace.latest⟩⟩
    | installed h => exact Iff.rfl
    | disconnected => exact Iff.rfl

/-- The AP cannot reach the STA, disconnects WiFi, and is delivered the same PTK again. -/
def redelivered : List Event :=
  [.ap (.ptk ptkData true), .ap (.connect false), .ap .finish, .ap (.ptk ptkData true)]

/-- A PTK whose sync failed is skipped when it comes again; the STA skips the PTK it has installed after
its watchdog has disconnected WiFi. -/
theorem redelivered_skipped :
    (apHistory redelivered = [.delivered (hexlify ptkData) true, .disconnected,
        .delivered (hexlify ptkData) false] ∧
      (staHistory (syncUpToOk [] ++ [.sta .watchdog, .main (.ptk ptkData true)])).take 2 =
        [.delivered (hexlify ptkData) true, .disconnected]) ∧
      ¬ ∀ es, Always SkipLaw (apHistory es) := by
  have hap : apHistory redelivered = [.delivered (hexlify ptkData) true, .disconnected,
      .delivered (hexlify ptkData) false] := by decide
  refine ⟨⟨hap, by decide⟩, fun hall => ?_⟩
  have hlaw := hall redelivered
  rw [hap] at hlaw
  have hin : Rec.installed (hexlify ptkData) ∈ [.disconnected, .delivered (hexlify ptkData) false] :=
    (hlaw.1.1 rfl).mem
  exact absurd hin (by decide)

end Lightguard.Sync
