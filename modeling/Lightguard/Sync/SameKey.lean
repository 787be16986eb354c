import Lightguard.Sync.Agreement

/-!
# The same key or no WiFi link

What the two WiFi daemons hold between rounds. The STA forwards first, so from its
forwarding on the link has either to be completed by the AP or to be disconnected.

* `Settled`: both daemons hold the same PTK, or one side has disconnected WiFi since.
* `Pending`: who owes what in every state, kept by `step_pending`.
* `same_key_or_no_link`: between rounds the receivers are settled, in every run that meets
  `keepsLaw`.
* `failed_forwarding_ignored`, `late_install_ignored`: runs that do not.
-/

namespace Lightguard.Sync

open Lib (hexlify)

variable {w w' : World} {k' : Conn} {es : List Event}

/-- Both WiFi daemons hold the same PTK, or one side has called `disconnect_wifi_link` after
the last forwarding. -/
def Settled (w : World) : Prop := w.apFwd = w.staFwd ∨ w.disc = true

/-- The server's states in which it neither serves an exchange nor owes a disconnection. -/
def StaPc.idle : StaPc → Bool
  | .accept | .close | .disconnect => true
  | _ => false

/-- Who still has to complete or to cut the link. -/
structure Pending (w : World) : Prop where
  /-- With the AP in its main loop, the STA's server may have to answer or disconnect. -/
  quiet : w.ap.pc = .accept → Settled w ∨ w.sta.pc = .replyOk ∨ w.sta.pc = .disconnect
  synced : w.ap.pc = .synced true → Settled w
  replyOk : w.sta.pc = .replyOk → w.staFwd = some w.staConn.ptk
  /-- An `OK` on the AP's connection: the STA has forwarded its PTK and is done. -/
  ok : w.ap.pc.inConn = true → 'K' ∈ w.apConn.toAp.sent →
    w.staFwd = some w.apConn.ptk ∧ w.accepted = w.opened ∧ w.sta.pc.idle = true

theorem init_pending : Pending init where
  quiet _ := .inl (.inl rfl)
  synced h := by cases h
  replyOk h := by cases h
  ok h := by cases h

/-- `send_ptk_to_wifi` returns False on the AP only when nothing has to be forwarded; the
caller does not look at the result. -/
def forwardingHeeded (w : World) (e : Event) : Bool :=
  match e, w.ap.pc with
  | .ap (.forward .failed), .forward p => w.disc || w.apFwd == some p
  | _, _ => true

/-- The STA does not complete an exchange when the AP is back in its main loop and WiFi has
not been disconnected since the STA's forwarding. -/
def completedInTime (w : World) (e : Event) : Bool :=
  match e, w.sta.pc, w.ap.pc with
  | .sta (.send .ok), .replyOk, .accept => w.disc
  | _, _, _ => true

/-- The conditions on a step under which the law holds. -/
def keepsLaw (w : World) (e : Event) : Bool :=
  noForeignPtk w e && forwardingHeeded w e && completedInTime w e

/-! ## The AP's steps -/

/-- The AP is done with an exchange whose `OK` it has read: the STA will not move. -/
theorem Pending.synced_ok (h : Pending w) (hi : Inv w) (hpc : w.ap.pc = .synced true) :
    w.sta.pc.idle = true := by
  have hap := hi.ap
  rw [hpc] at hap
  exact (h.ok (by rw [hpc]; rfl) (hap rfl)).2.2

/-- The AP stays in its exchange, or leaves it without an answer. -/
theorem Pending.apUpdate (h : Pending w) {pc : ApPc} (hin : w.ap.pc.inConn = true)
    (hptk : k'.ptk = w.apConn.ptk) (hsent : k'.toAp.sent = w.apConn.toAp.sent)
    (hpc : pc ≠ .accept) (hpc' : pc ≠ .synced true) :
    Pending ((w.setConn w.ap.cur k').setAp pc) where
  quiet hf := absurd hf hpc
  synced hf := absurd hf hpc'
  replyOk hf := by
    have := h.replyOk hf
    simp only [World.setAp, World.setConn, World.staConn, Function.update_apply] at this ⊢
    split
    · rename_i hc
      rw [hc] at this
      rw [hptk]; exact this
    · exact this
  ok _ hk := by
    simp only [World.setAp, World.setConn, World.apConn, Function.update_self] at hk ⊢
    rw [hsent] at hk
    rw [hptk]
    exact h.ok hin hk

theorem Pending.apReturn (h : Pending w) (hin : w.ap.pc.inConn = true) :
    Pending (w.apReturn false) :=
  h.apUpdate hin rfl rfl nofun nofun

theorem Pending.apSend (h : Pending w) (hin : w.ap.pc.inConn = true) (o : Send) (t : Text)
    {next : ApPc} (hn : next ≠ .accept) (hn' : next ≠ .synced true) :
    Pending (w.apSend o t next) := by
  unfold World.apSend
  cases o with
  | ok => exact h.apUpdate hin rfl rfl hn hn'
  | raised n => exact h.apUpdate hin rfl rfl nofun nofun

theorem Pending.apRecv (h : Pending w) (hin : w.ap.pc.inConn = true) {o : Recv} {want : Text}
    (next : ApPc) (hn : next ≠ .accept) (hn' : next ≠ .synced true)
    (hw : w.apRecv o want next = some w') : Pending w' := by
  unfold World.apRecv at hw
  cases o with
  | raised =>
    simp only [Option.some.injEq] at hw; subst hw
    exact h.apReturn hin
  | eof =>
    simp only at hw
    split at hw
    · simp only [Option.some.injEq] at hw; subst hw
      exact h.apReturn hin
    · cases hw
  | data n =>
    simp only [Option.map_eq_some_iff] at hw
    obtain ⟨⟨chunk, s⟩, hr, hw⟩ := hw
    have hs : s.sent = w.apConn.toAp.sent := (Lib.Stream.recv_eq hr).2.2.1
    simp only at hw
    split at hw <;> subst hw
    · exact h.apUpdate hin rfl hs hn hn'
    · have : Pending ((w.setConn w.ap.cur { w.apConn with toAp := s, apClosed := true }).setAp
          (.synced false)) := h.apUpdate hin rfl hs nofun nofun
      simpa [World.apReturn, World.setConn, World.apConn, World.setAp] using this

/-- The AP's forwarding, after the STA's. -/
theorem Pending.apForward (h : Pending w) (hi : Inv w) {p : Text} (hpc : w.ap.pc = .forward p)
    {o : Forward} (hC : forwardingHeeded w (.ap (.forward o)) = true)
    (hw : apStep w (.forward o) = some w') : Pending w' := by
  have hin : w.ap.pc.inConn = true := by rw [hpc]; rfl
  have hap := hi.ap
  rw [hpc] at hap
  obtain ⟨hptk, hk⟩ := hap
  obtain ⟨hfwd, hacc, hidle⟩ := h.ok hin hk
  rw [hptk] at hfwd
  have hnot : w.sta.pc ≠ .replyOk := by
    intro hf; rw [hf] at hidle; cases hidle
  -- the connection only gets closed
  have hclosed : ∀ a d, (a = some p ∨ d = true) →
      Pending ({ w with apFwd := a, disc := d }.apReturn true) := by
    intro a d had
    refine ⟨nofun, fun _ => ?_, fun hf => absurd hf hnot, fun _ _ => ?_⟩
    · rcases had with had | had
      · exact .inl (had.trans hfwd.symm)
      · exact .inr had
    · refine ⟨?_, hacc, hidle⟩
      simp only [World.apReturn, World.setAp, World.setConn, World.apConn, Function.update_self]
      rw [hfwd]
      exact congrArg some hptk.symm
  simp only [apStep, hpc] at hw
  cases o <;> simp only [Option.some.injEq] at hw <;> subst hw
  · exact hclosed (some p) false (.inl rfl)
  · simp only [forwardingHeeded, hpc, Bool.or_eq_true, beq_iff_eq] at hC
    exact hclosed w.apFwd w.disc hC.symm
  · exact h.apReturn hin

/-- **A step of the AP** keeps what is pending. -/
theorem apStep_pending {e : ApEvent} (h : Pending w) (hi : Inv w)
    (hC : forwardingHeeded w (.ap e) = true) (hw : apStep w e = some w') : Pending w' := by
  have hw₀ := hw
  unfold apStep at hw
  split at hw
  · -- the watchdog
    simp only [Option.some.injEq] at hw; subst hw
    exact ⟨fun _ => .inl (.inr rfl), fun _ => .inr rfl, h.replyOk, h.ok⟩
  · -- a PTK from hostapd
    rename_i hpc
    split at hw
    · simp only [Option.some.injEq] at hw; subst hw; exact h
    · simp only [Option.some.injEq] at hw
      split at hw <;> subst hw
      · exact ⟨(by rintro ⟨⟩), (by rintro ⟨⟩), h.replyOk, (by rintro ⟨⟩)⟩
      · exact ⟨h.quiet, h.synced, h.replyOk, h.ok⟩
  · -- connect
    rename_i p ok hpc
    split at hw <;> simp only [Option.some.injEq] at hw <;> subst hw
    · refine ⟨(by rintro ⟨⟩), (by rintro ⟨⟩), fun hf => ?_, fun _ hk => ?_⟩
      · have h1 := hi.staCur (by rw [hf]; rintro ⟨⟩)
        have h2 := hi.le
        have := h.replyOk hf
        simp only [World.staConn] at this ⊢
        rw [Function.update_of_ne (by omega)]
        exact this
      · simp [World.apConn, Conn.new] at hk
    · exact ⟨(by rintro ⟨⟩), (by rintro ⟨⟩), h.replyOk, (by rintro ⟨⟩)⟩
  · -- SYNC
    rename_i p o hpc
    simp only [Option.some.injEq] at hw; subst hw
    exact h.apSend (by rw [hpc]; rfl) o _ (by rintro ⟨⟩) (by rintro ⟨⟩)
  · -- READY
    rename_i p o hpc
    exact h.apRecv (by rw [hpc]; rfl) (.sendInstall p) (by rintro ⟨⟩) (by rintro ⟨⟩) hw
  · -- INSTALL
    rename_i p o hpc
    simp only [Option.some.injEq] at hw; subst hw
    exact h.apSend (by rw [hpc]; rfl) o _ (by rintro ⟨⟩) (by rintro ⟨⟩)
  · -- OK
    rename_i p o hpc
    exact h.apRecv (by rw [hpc]; rfl) (.forward p) (by rintro ⟨⟩) (by rintro ⟨⟩) hw
  · -- send_ptk_to_wifi
    rename_i p o hpc
    exact h.apForward hi hpc hC hw₀
  · -- back in the main loop, disconnecting unless the sync was a success
    rename_i ok hpc
    simp only [Option.some.injEq] at hw; subst hw
    refine ⟨fun _ => .inl ?_, (by rintro ⟨⟩), h.replyOk, (by rintro ⟨⟩)⟩
    cases ok with
    | false => exact .inr (by simp)
    | true =>
      rcases h.synced hpc with hs | hs
      · exact .inl hs
      · exact .inr (by simp [hs])
  · cases hw

/-! ## The STA's steps -/

/-- The server goes on in an exchange, without a forwarding and without an `OK`. -/
theorem Pending.staUpdate (h : Pending w) (hidle : w.sta.pc.idle = false)
    (hne : w.sta.pc ≠ .replyOk) (pc : StaPc) (hpc : pc ≠ .replyOk) {pending last : Option Text}
    (hk : 'K' ∈ k'.toAp.sent → 'K' ∈ w.staConn.toAp.sent) :
    Pending { w.setConn w.sta.cur k' with
      sta := { w.sta with pc := pc, pendingPtkHex := pending, lastPtkHex := last } } where
  quiet hf := by
    rcases h.quiet hf with hs | hs | hs
    · exact .inl hs
    · exact absurd hs hne
    · rw [hs] at hidle; cases hidle
  synced hf := h.synced hf
  replyOk hf := absurd hf hpc
  ok hin hm := by
    -- the AP's connection has no `OK`: the server would be done with it
    have hold : 'K' ∈ w.apConn.toAp.sent := by
      simp only [World.apConn, World.setConn, Function.update_apply] at hm ⊢
      split at hm
      · rename_i hc
        rw [hc]; exact hk hm
      · exact hm
    have := (h.ok hin hold).2.2
    rw [hidle] at this; cases this

theorem Pending.staPc (h : Pending w) (hidle : w.sta.pc.idle = false)
    (hne : w.sta.pc ≠ .replyOk) (pc : StaPc) (hpc : pc ≠ .replyOk) {pending last : Option Text} :
    Pending { w with
      sta := { w.sta with pc := pc, pendingPtkHex := pending, lastPtkHex := last } } := by
  have : Pending { w.setConn w.sta.cur w.staConn with
      sta := { w.sta with pc := pc, pendingPtkHex := pending, lastPtkHex := last } } :=
    h.staUpdate hidle hne pc hpc id
  simpa [World.setConn, World.staConn] using this

theorem Pending.staSend (h : Pending w) (hidle : w.sta.pc.idle = false)
    (hne : w.sta.pc ≠ .replyOk) (o : Send) {t : Text} (ht : 'K' ∉ t) {next : StaPc}
    (hn : next ≠ .replyOk) : Pending (w.staSend o t next) := by
  have hk : 'K' ∈ (w.staConn.toAp.send (o.part t)).sent → 'K' ∈ w.staConn.toAp.sent := by
    intro hm
    simp only [Lib.Stream.send_sent, List.mem_append] at hm
    exact hm.resolve_right fun hm => ht ((part_le o t).subset hm)
  unfold World.staSend
  cases o with
  | ok => exact h.staUpdate hidle hne next hn hk
  | raised n => exact h.staUpdate hidle hne .disconnect nofun hk

theorem Pending.staRecv (h : Pending w) (hidle : w.sta.pc.idle = false)
    (hne : w.sta.pc ≠ .replyOk) {o : Recv} {max : ℕ} {next : Text → StaPc}
    (hn : ∀ t, next t ≠ .replyOk) (hw : w.staRecv o max next = some w') : Pending w' := by
  unfold World.staRecv at hw
  cases o with
  | raised =>
    simp only [Option.some.injEq] at hw; subst hw
    exact h.staPc hidle hne .disconnect nofun
  | eof =>
    simp only at hw
    split at hw
    · simp only [Option.some.injEq] at hw; subst hw
      exact h.staPc hidle hne _ (hn [])
    · cases hw
  | data n =>
    simp only [Option.map_eq_some_iff] at hw
    obtain ⟨⟨chunk, s⟩, hr, rfl⟩ := hw
    exact h.staUpdate hidle hne _ (hn chunk) id

/-- The STA's forwarding: from now on it owes an answer. -/
theorem Pending.staInstall (h : Pending w) (hi : Inv w) {hex : Text}
    (hpc : w.sta.pc = .install hex) (associated : Bool) (o : Forward) :
    Pending (w.staInstall associated o) := by
  have hidle : w.sta.pc.idle = false := by rw [hpc]; rfl
  have hne : w.sta.pc ≠ .replyOk := by rw [hpc]; exact nofun
  have hsta := hi.sta
  rw [hpc] at hsta
  obtain ⟨rfl, hpend⟩ := hsta
  unfold World.staInstall
  rw [hpend]
  simp only
  split
  · exact h.staPc hidle hne (.reply _) nofun
  · cases o with
    | failed => exact h.staUpdate hidle hne (.reply _) nofun id
    | raised => exact h.staUpdate hidle hne .disconnect nofun id
    | ok =>
      refine ⟨fun _ => .inr (.inl rfl), fun hf => ?_, fun _ => ?_, fun hin hm => ?_⟩
      · have := h.synced_ok hi hf
        rw [hidle] at this; cases this
      · simp [World.staConn, World.setConn]
      · have hold : 'K' ∈ w.apConn.toAp.sent := by
          simp only [World.apConn, World.setConn, Function.update_apply] at hm ⊢
          split at hm
          · rename_i hc
            rw [hc]; exact hm
          · exact hm
        have := (h.ok hin hold).2.2
        rw [hidle] at this; cases this

/-- The answer `OK`: the AP completes the link, or it is cut, or the exchange is late. -/
theorem Pending.staReplyOk (h : Pending w) (hi : Inv w) (hpc : w.sta.pc = .replyOk) {o : Send}
    (hC : completedInTime w (.sta (.send o)) = true) : Pending (w.staSend o "OK\n".toList .close) := by
  have hidle : w.sta.pc.idle = false := by rw [hpc]; rfl
  have hcur := hi.staCur (by rw [hpc]; exact nofun)
  have hsynced : w.ap.pc ≠ .synced true := by
    intro hf
    have := h.synced_ok hi hf
    rw [hidle] at this; cases this
  have hok : ∀ pc : StaPc, pc.idle = true → w.ap.pc.inConn = true →
      'K' ∈ (Function.update w.conn w.sta.cur { w.staConn with
        toAp := w.staConn.toAp.send (o.part "OK\n".toList) } w.ap.cur).toAp.sent →
      w.staFwd = some (Function.update w.conn w.sta.cur { w.staConn with
        toAp := w.staConn.toAp.send (o.part "OK\n".toList) } w.ap.cur).ptk ∧
        w.accepted = w.opened ∧ pc.idle = true := by
    intro pc hpc' hin hm
    simp only [Function.update_apply] at hm ⊢
    split at hm
    · rename_i hc
      refine ⟨by rw [if_pos hc]; exact h.replyOk hpc, ?_, hpc'⟩
      have := hi.apCur hin
      omega
    · have := (h.ok hin hm).2.2
      rw [hidle] at this; cases this
  unfold World.staSend
  cases o with
  | ok =>
    refine ⟨fun hf => .inl (.inr ?_), fun hf => absurd hf hsynced, nofun, hok .close rfl⟩
    have hf' : w.ap.pc = .accept := hf
    simp only [completedInTime, hpc, hf'] at hC
    exact hC
  | raised n =>
    exact ⟨fun _ => .inr (.inr rfl), fun hf => absurd hf hsynced, nofun, hok .disconnect rfl⟩

/-- **A step of the STA's server** keeps what is pending. -/
theorem staStep_pending {e : StaEvent} (h : Pending w) (hi : Inv w)
    (hC : completedInTime w (.sta e) = true) (hw : staStep w e = some w') : Pending w' := by
  unfold staStep at hw
  split at hw
  · -- the watchdog
    simp only [Option.some.injEq] at hw; subst hw
    exact ⟨fun _ => .inl (.inr rfl), fun _ => .inr rfl, h.replyOk, h.ok⟩
  · -- accept: the AP cannot have an answer on its connection
    rename_i hpc
    split at hw
    · rename_i hlt
      simp only [Option.some.injEq] at hw; subst hw
      refine ⟨fun hf => ?_, h.synced, nofun, fun hin hm => ?_⟩
      · rcases h.quiet hf with hs | hs | hs
        · exact .inl hs
        · rw [hpc] at hs; cases hs
        · rw [hpc] at hs; cases hs
      · have := (h.ok hin hm).2.1
        omega
    · cases hw
  · -- SYNC
    rename_i o hpc
    refine h.staRecv (by rw [hpc]; rfl) (by rw [hpc]; exact nofun) (fun t => ?_) hw
    split <;> exact nofun
  · -- the AP's PTK becomes the pending one
    rename_i hex hpc
    simp only [Option.some.injEq] at hw; subst hw
    exact h.staPc (by rw [hpc]; rfl) (by rw [hpc]; exact nofun) (.check hex) nofun
  · -- the association check
    rename_i hex associated hpc
    simp only [Option.some.injEq] at hw; subst hw
    refine h.staPc (by rw [hpc]; rfl) (by rw [hpc]; exact nofun) _ ?_
    split <;> exact nofun
  · -- READY
    rename_i hex o hpc
    simp only [Option.some.injEq] at hw; subst hw
    exact h.staSend (by rw [hpc]; rfl) (by rw [hpc]; exact nofun) o (by decide) nofun
  · -- NOTREADY
    rename_i o hpc
    simp only [Option.some.injEq] at hw; subst hw
    exact h.staSend (by rw [hpc]; rfl) (by rw [hpc]; exact nofun) o (by decide) nofun
  · -- INSTALL
    rename_i hex o hpc
    refine h.staRecv (by rw [hpc]; rfl) (by rw [hpc]; exact nofun) (fun t => ?_) hw
    split <;> exact nofun
  · -- the installation
    rename_i hex associated o hpc
    simp only [Option.some.injEq] at hw; subst hw
    exact h.staInstall hi hpc associated o
  · -- OK
    rename_i o hpc
    simp only [Option.some.injEq] at hw; subst hw
    exact h.staReplyOk hi hpc hC
  · -- FAIL and NOTREADY
    rename_i msg o hpc
    have hmsg := hi.sta
    rw [hpc] at hmsg
    simp only [Option.some.injEq] at hw; subst hw
    exact h.staSend (by rw [hpc]; rfl) (by rw [hpc]; exact nofun) o hmsg nofun
  · -- the disconnection that was owed
    rename_i hpc
    simp only [Option.some.injEq] at hw; subst hw
    refine ⟨fun _ => .inl (.inr rfl), fun _ => .inr rfl, nofun, fun hin hm => ?_⟩
    obtain ⟨h1, h2, -⟩ := h.ok hin hm
    exact ⟨h1, h2, rfl⟩
  · -- close
    rename_i hpc
    simp only [Option.some.injEq] at hw; subst hw
    refine ⟨fun hf => ?_, h.synced, nofun, fun hin hm => ?_⟩
    · rcases h.quiet hf with hs | hs | hs
      · exact .inl hs
      · rw [hpc] at hs; cases hs
      · rw [hpc] at hs; cases hs
    · simp only [World.setSta, World.apConn, World.setConn, World.staConn,
        Function.update_apply] at hm ⊢
      split at hm
      · rename_i hc
        rw [if_pos hc]
        have := h.ok hin (by rw [World.apConn, hc]; exact hm)
        exact ⟨by rw [this.1, World.apConn, hc], this.2.1, rfl⟩
      · rename_i hc
        rw [if_neg hc]
        have := h.ok hin hm
        exact ⟨this.1, this.2.1, rfl⟩
  · cases hw

/-! ## The run -/

/-- The STA's main loop has no part in what is pending. -/
theorem mainStep_pending {e : MainEvent} (h : Pending w) (hw : mainStep w e = some w') :
    Pending w' := by
  unfold mainStep at hw
  split at hw
  · split at hw
    · simp only [Option.some.injEq] at hw; subst hw; exact h
    · simp only [Option.some.injEq] at hw
      split at hw <;> subst hw
      · exact ⟨h.quiet, h.synced, h.replyOk, h.ok⟩
      · exact h
  · simp only [Option.some.injEq] at hw; subst hw
    exact ⟨h.quiet, h.synced, h.replyOk, h.ok⟩
  · cases hw

/-- **One step** that meets the conditions keeps both invariants. -/
theorem step_pending {e : Event} (h : Inv w ∧ Pending w) (hC : keepsLaw w e = true)
    (hw : step w e = some w') : Inv w' ∧ Pending w' := by
  simp only [keepsLaw, Bool.and_eq_true] at hC
  obtain ⟨⟨hC1, hC2⟩, hC3⟩ := hC
  refine ⟨step_inv h.1 hC1 hw, ?_⟩
  cases e with
  | ap e => exact apStep_pending h.2 h.1 hC2 hw
  | sta e => exact staStep_pending h.2 h.1 hC3 hw
  | main e => exact mainStep_pending h.2 hw

/-- **The same key or no link.** Between rounds the two WiFi daemons hold the same PTK, or
WiFi has been disconnected after the last forwarding. -/
theorem same_key_or_no_link
    (hC : Lib.Along step (fun w e => keepsLaw w e = true) init es)
    (hr : Lib.run step init es = some w) (hap : w.ap.pc = .accept) (hsta : w.sta.pc = .accept) :
    w.apFwd = w.staFwd ∨ w.disc = true := by
  have h : Inv w ∧ Pending w :=
    Lib.along_inv (fun _ _ _ h hC hw => step_pending h hC hw) ⟨init_inv, init_pending⟩ hC hr
  rcases h.2.quiet hap with hs | hs | hs
  · exact hs
  · rw [hsta] at hs; cases hs
  · rw [hsta] at hs; cases hs

/-- A whole round after which both ends are back where they started. -/
def syncRound (o : Forward) : List Event :=
  syncUpToOk [] ++ [.ap (.forward o), .ap .finish, .sta .close]

theorem same_key_plain :
    (after (syncRound .ok)).apFwd = (after (syncRound .ok)).staFwd ∨
      (after (syncRound .ok)).disc = true :=
  same_key_or_no_link (by decide : Lib.Along step _ init (syncRound .ok)) (run_after (by decide))
    (by decide) (by decide)

/-- `sync_with_sta_and_install` reports success although the AP's forwarding returned False. -/
theorem failed_forwarding_ignored :
    ∃ es w, Lib.run step init es = some w ∧ w.ap.pc = .accept ∧ w.sta.pc = .accept ∧
      w.apFwd ≠ w.staFwd ∧ w.disc = false :=
  ⟨syncRound .failed, after _, run_after (by decide), by decide, by decide, by decide, by decide⟩

/-- The AP times out before the STA has installed: the STA installs all the same, and its
`OK` goes to a socket that nobody reads. -/
theorem late_install_ignored :
    ∃ es w, Lib.run step init es = some w ∧ w.ap.pc = .accept ∧ w.sta.pc = .accept ∧
      w.apFwd ≠ w.staFwd ∧ w.disc = false :=
  ⟨syncUpToReady [] ++ [.ap (.recv .raised), .ap .finish, .sta (.install true .ok),
      .sta (.send .ok), .sta .close],
    after _, run_after (by decide), by decide, by decide, by decide, by decide⟩

end Lightguard.Sync
