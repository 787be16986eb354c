import Lightguard.Sync.Receivers

/-!
# What holds in every exchange

The connection invariants of the two receivers, as long as the STA's main loop stores no
other PTK between the server's reading of `SYNC` and its installation.

* `sync_parsed`: if the rest of the AP's messages reads as `INSTALL`, the first read held
  the whole `SYNC` line.
* `ConnOK`, `ApOK`, `StaOK`: what a connection holds, and what each end knows of it.
* `step_inv`: one step keeps them, `run_inv`: so does every run.
-/

namespace Lightguard.Sync

open Lib (Stream hexDigits hexlify)

variable {w w' : World} {k k' : Conn} {p hex : Text}

/-! ## Texts on the wire -/

/-- What the main loops hand on: a nonempty text of hexadecimal digits. -/
structure IsHex (p : Text) : Prop where
  ne : p ≠ []
  digits : ∀ c ∈ p, c ∈ hexDigits

theorem newPtk_hex {last : Option Text} {data : Bytes} (h : newPtk last data = some p) :
    IsHex p := by
  unfold newPtk at h
  split at h
  · rename_i hd
    simp only [Option.some.injEq] at h
    subst h
    refine ⟨fun h0 => ?_, fun c hc => Lib.mem_hexlify hc⟩
    have := Lib.length_hexlify data
    rw [h0, hd.1] at this
    cases this
  · cases h

theorem IsHex.nospace (h : IsHex p) : ∀ c ∈ p, Text.isspace c = false := by
  have hall : hexDigits.all fun c => !Text.isspace c := by decide
  exact fun c hc => by simpa using List.all_eq_true.1 hall c (h.digits c hc)

/-- The letter that starts `INSTALL` is not in a `SYNC` line. -/
theorem IsHex.not_mem_syncMsg (h : IsHex p) : 'I' ∉ syncMsg p := by
  have hp : 'I' ∉ p := fun hm => absurd (h.digits _ hm) (by decide)
  simp [syncMsg_append, hp]

theorem strip_syncMsg (h : IsHex p) : (syncMsg p).strip = "SYNC ".toList ++ p := by
  have hlast : Text.strip ("SYNC ".toList ++ p) = "SYNC ".toList ++ p := by
    refine Lib.strip_eq_self_iff.2 ⟨fun _ => by simp [Text.isspace], fun hn => ?_⟩
    rw [List.getLast_append_of_right_ne_nil _ _ h.ne]
    simp [h.nospace _ (List.getLast_mem h.ne)]
  rw [← hlast]
  refine Lib.strip_append_of_all fun c hc => ?_
  rw [List.mem_singleton.1 hc]; decide

theorem parseSync_syncMsg (h : IsHex p) {t : Text} (ht : t.strip = (syncMsg p).strip) :
    parseSync t = some p := by
  have hdrop : ("SYNC ".toList ++ p).drop 5 = p := List.drop_left' rfl
  have hstrip : Text.strip p = p := Lib.strip_eq_self_iff.2
    ⟨fun hn => by simp [h.nospace _ (List.head_mem hn)],
      fun hn => by simp [h.nospace _ (List.getLast_mem hn)]⟩
  rw [parseSync, ht, strip_syncMsg h, if_pos (List.prefix_append _ _), hdrop, hstrip]

/-- **The first read is the whole line.** When what the STA reads after its first read
strips to `INSTALL`, only white space of the `SYNC` line was left. -/
theorem sync_parsed (hp : IsHex p) {sent : Text} {n m : ℕ} (hn : n ≤ (syncMsg p).length)
    (hs : sent <+: syncMsg p ++ installMsg)
    (hi : Text.strip ((sent.drop n).take m) = "INSTALL".toList)
    (h : parseSync ((syncMsg p).take n) = some hex) : hex = p := by
  obtain ⟨a, b, hsplit, ha, -⟩ := Lib.strip_split Text.isspace ((sent.drop n).take m)
  rw [show Lib.strip Text.isspace ((sent.drop n).take m) = "INSTALL".toList from hi] at hsplit
  have hpre : (sent.drop n).take m <+: (syncMsg p).drop n ++ installMsg := by
    refine (List.take_prefix _ _).trans ?_
    rw [← List.drop_append_of_le_length hn]
    exact hs.drop n
  have ha' : 'I' ∉ a := fun hm => absurd (ha _ hm) (by decide)
  have hx : 'I' ∉ (syncMsg p).drop n := fun hm => hp.not_mem_syncMsg (List.mem_of_mem_drop hm)
  have heq : a = (syncMsg p).drop n := by
    rw [hsplit, List.append_assoc] at hpre
    exact Lib.first_at (c := 'I') ha' hx hpre
  have hstrip : Text.strip ((syncMsg p).take n) = (syncMsg p).strip := by
    have := Lib.strip_append_of_all (p := Text.isspace) (l := (syncMsg p).take n)
      (m := (syncMsg p).drop n) (by rw [← heq]; exact ha)
    rw [List.take_append_drop] at this
    exact this.symm
  rw [parseSync_syncMsg hp hstrip, Option.some.injEq] at h
  exact h.symm

/-! ## The invariant -/

/-- A connection that the AP has opened. -/
structure ConnOK (k : Conn) : Prop where
  hex : IsHex k.ptk
  /-- The AP writes the two messages and nothing else. -/
  sent : k.toSta.sent <+: syncMsg k.ptk ++ installMsg
  /-- It starts the second one only after an answer. -/
  early : (syncMsg k.ptk).length < k.toSta.sent.length → k.toAp.sent ≠ []
  /-- The letter K, which only `OK` has, tells what the STA has passed on. -/
  ok : 'K' ∈ k.toAp.sent → k.passed = some k.ptk

/-- What the STA has read so far is the part of the `SYNC` line that gave `hex`. -/
def Parsed (k : Conn) (hex : Text) : Prop :=
  k.toSta.read ≤ (syncMsg k.ptk).length ∧
    parseSync ((syncMsg k.ptk).take k.toSta.read) = some hex

/-- What the AP knows of its connection. -/
def ApOK (pc : ApPc) (k : Conn) : Prop :=
  match pc with
  | .accept => True
  | .connect p => IsHex p
  | .sendSync p => k.ptk = p ∧ k.toSta.sent = []
  | .recvReady p => k.ptk = p ∧ k.toSta.sent = syncMsg p
  | .sendInstall p => k.ptk = p ∧ k.toSta.sent = syncMsg p ∧ k.toAp.sent ≠ []
  | .recvReply p => k.ptk = p
  | .forward p => k.ptk = p ∧ 'K' ∈ k.toAp.sent
  | .synced ok => ok = true → 'K' ∈ k.toAp.sent

/-- Whether the AP's current connection is the last one opened. -/
def ApPc.inConn : ApPc → Bool
  | .accept | .connect _ | .synced false => false
  | _ => true

/-- What the STA's server knows of its connection and of the pending PTK. -/
def StaOK (pc : StaPc) (k : Conn) (pending : Option Text) : Prop :=
  match pc with
  | .recvSync => k.toAp.sent = [] ∧ k.toSta.read = 0
  | .store hex => Parsed k hex
  | .check hex | .sendReady hex => Parsed k hex ∧ pending = some hex
  | .recvInstall hex => Parsed k hex ∧ pending = some hex
  | .install hex => hex = k.ptk ∧ pending = some hex
  | .replyOk => k.passed = some k.ptk
  | .reply msg => 'K' ∉ msg
  | .accept | .sendNotReady | .disconnect | .close => True

/-- Both ends and all connections. -/
structure Inv (w : World) : Prop where
  conns : ∀ c < w.opened, ConnOK (w.conn c)
  /-- The STA has not touched a connection it has not accepted. -/
  fresh : ∀ c, w.accepted ≤ c → (w.conn c).toAp.sent = [] ∧ (w.conn c).toSta.read = 0
  le : w.accepted ≤ w.opened
  apCur : w.ap.pc.inConn = true → w.ap.cur + 1 = w.opened
  staCur : w.sta.pc ≠ .accept → w.sta.cur + 1 = w.accepted
  ap : ApOK w.ap.pc w.apConn
  sta : StaOK w.sta.pc w.staConn w.sta.pendingPtkHex

theorem init_inv : Inv init where
  conns c hc := by cases hc
  fresh c _ := ⟨rfl, rfl⟩
  le := le_rfl
  apCur h := by cases h
  staCur h := absurd rfl h
  ap := trivial
  sta := trivial

/-! ## Changing one connection -/

/-- What the AP's calls leave of a connection. -/
structure ApExt (k k' : Conn) : Prop where
  ptk : k'.ptk = k.ptk
  read : k'.toSta.read = k.toSta.read
  sent : k'.toAp.sent = k.toAp.sent
  passed : k'.passed = k.passed

/-- What the STA's calls leave of a connection. -/
structure StaExt (k k' : Conn) : Prop where
  ptk : k'.ptk = k.ptk
  sent : k'.toSta.sent = k.toSta.sent
  grow : k.toAp.sent ⊆ k'.toAp.sent

theorem StaOK.apExt {pc : StaPc} {pending : Option Text} (h : StaOK pc k pending)
    (he : ApExt k k') : StaOK pc k' pending := by
  cases pc with
  | accept | sendNotReady | disconnect | close => trivial
  | _ => simpa only [StaOK, Parsed, he.ptk, he.read, he.sent, he.passed] using h

theorem ApOK.staExt {pc : ApPc} (h : ApOK pc k) (he : StaExt k k') : ApOK pc k' := by
  cases pc with
  | forward p => exact ⟨he.ptk.trans h.1, he.grow h.2⟩
  | synced ok => exact fun hok => he.grow (h hok)
  | sendInstall p =>
    refine ⟨he.ptk.trans h.1, he.sent.trans h.2.1, fun h0 => h.2.2 ?_⟩
    have := he.grow
    rw [h0] at this
    exact List.subset_nil.1 this
  | accept => trivial
  | connect p => exact h
  | _ => simpa only [ApOK, he.ptk, he.sent] using h

/-- **The AP moves on its connection.** -/
theorem Inv.apUpdate (h : Inv w) {pc : ApPc}
    (he : ApExt w.apConn k') (hk : ConnOK k') (hp : ApOK pc k')
    (hpc : pc.inConn = true → w.ap.cur + 1 = w.opened) :
    Inv ((w.setConn w.ap.cur k').setAp pc) where
  conns c hc := by
    simp only [World.setAp, World.setConn, Function.update_apply]
    split
    · exact hk
    · exact h.conns c hc
  fresh c hc := by
    simp only [World.setAp, World.setConn, Function.update_apply]
    split
    · rename_i hcc
      subst hcc
      rw [he.sent, he.read]
      exact h.fresh _ hc
    · exact h.fresh c hc
  le := h.le
  apCur := hpc
  staCur := h.staCur
  ap := by simpa [World.apConn, World.setAp, World.setConn] using hp
  sta := by
    have hsta := h.sta
    simp only [World.setAp, World.setConn, World.staConn, Function.update_apply] at hsta ⊢
    split
    · rename_i hc
      rw [hc] at hsta
      exact hsta.apExt he
    · exact hsta

/-- **The STA's server moves on its connection.** -/
theorem Inv.staUpdate (h : Inv w) (hcur : w.sta.pc ≠ .accept) (pc : StaPc)
    {pending last : Option Text} (he : StaExt w.staConn k') (hk : ConnOK k')
    (hp : StaOK pc k' pending) :
    Inv { w.setConn w.sta.cur k' with
      sta := { w.sta with pc := pc, pendingPtkHex := pending, lastPtkHex := last } } where
  conns c hc := by
    simp only [World.setConn, Function.update_apply]
    split
    · exact hk
    · exact h.conns c hc
  fresh c hc := by
    have := h.staCur hcur
    simp only [World.setConn] at hc ⊢
    rw [Function.update_of_ne (by omega)]
    exact h.fresh c hc
  le := h.le
  apCur := h.apCur
  staCur _ := h.staCur hcur
  ap := by
    have hap := h.ap
    simp only [World.setConn, World.apConn, Function.update_apply] at hap ⊢
    split
    · rename_i hc
      rw [hc] at hap
      exact hap.staExt he
    · exact hap
  sta := by simpa [World.staConn, World.setConn] using hp

/-! ## The AP's steps -/

theorem part_le (o : Send) (t : Text) : o.part t <+: t := by
  cases o with
  | ok => exact List.prefix_rfl
  | raised n => exact List.take_prefix _ _

/-- The AP's connection while it is in one. -/
theorem Inv.apConn_ok (h : Inv w) (hpc : w.ap.pc.inConn = true) : ConnOK w.apConn :=
  h.conns _ (by have := h.apCur hpc; omega)

theorem Inv.staConn_ok (h : Inv w) (hpc : w.sta.pc ≠ .accept) : ConnOK w.staConn :=
  h.conns _ (by have := h.staCur hpc; have := h.le; omega)

theorem Inv.apReturn (h : Inv w) (hpc : w.ap.pc.inConn = true) {ok : Bool}
    (hok : ok = true → 'K' ∈ w.apConn.toAp.sent) : Inv (w.apReturn ok) := by
  have hk := h.apConn_ok hpc
  exact h.apUpdate ⟨rfl, rfl, rfl, rfl⟩ ⟨hk.hex, hk.sent, hk.early, hk.ok⟩ hok
    fun _ => h.apCur hpc

/-- Opening a connection. -/
theorem Inv.open (h : Inv w) (hp : IsHex p) : Inv { w with
    conn := Function.update w.conn w.opened (Conn.new p)
    opened := w.opened + 1
    ap := { w.ap with pc := .sendSync p, cur := w.opened } } where
  conns c hc := by
    simp only [Function.update_apply]
    split
    · exact ⟨hp, List.nil_prefix, fun hl => by simp [Conn.new] at hl, fun hk => by cases hk⟩
    · rename_i hne
      refine h.conns c ?_
      simp only at hc; omega
  fresh c hc := by
    simp only [Function.update_apply]
    split
    · exact ⟨rfl, rfl⟩
    · exact h.fresh c hc
  le := Nat.le_succ_of_le h.le
  apCur _ := rfl
  staCur := h.staCur
  ap := by simp [World.apConn, ApOK, Conn.new]
  sta := by
    have hsta := h.sta
    by_cases hpc : w.sta.pc = .accept
    · simp only [hpc]; trivial
    · have h1 := h.staCur hpc
      have h2 := h.le
      simp only [World.staConn] at hsta ⊢
      rw [Function.update_of_ne (by omega)]
      exact hsta

/-- A message of the AP, whole or in part, keeps what its connection promises. -/
theorem Inv.apSend (h : Inv w) (hpc : w.ap.pc.inConn = true) {t : Text} (next : ApPc)
    (ht : w.apConn.toSta.sent ++ t <+: syncMsg w.apConn.ptk ++ installMsg)
    (hearly : (syncMsg w.apConn.ptk).length < (w.apConn.toSta.sent ++ t).length →
      w.apConn.toAp.sent ≠ [])
    (hnext : ApOK next { w.apConn with toSta := w.apConn.toSta.send t }) (o : Send) :
    Inv (w.apSend o t next) := by
  have hk := h.apConn_ok hpc
  have hpart := part_le o t
  have hsent : w.apConn.toSta.sent ++ o.part t <+: w.apConn.toSta.sent ++ t :=
    (List.prefix_append_right_inj _).2 hpart
  have hok : ConnOK { w.apConn with toSta := w.apConn.toSta.send (o.part t) } :=
    ⟨hk.hex, hsent.trans ht,
      fun hl => hearly (lt_of_lt_of_le hl hsent.length_le), hk.ok⟩
  unfold World.apSend
  cases o with
  | ok => exact h.apUpdate ⟨rfl, rfl, rfl, rfl⟩ hok hnext fun _ => h.apCur hpc
  | raised n =>
    exact h.apUpdate ⟨rfl, rfl, rfl, rfl⟩ ⟨hok.hex, hok.sent, hok.early, hok.ok⟩
      (fun hf => by cases hf) (fun hf => by cases hf)

/-- A read of the AP that returns the wanted answer leads on, every other one back. -/
theorem Inv.apRecv (h : Inv w) (hpc : w.ap.pc.inConn = true) {o : Recv} {want : Text} (next : ApPc)
    (hnext : ∀ s : Stream Char, s.sent = w.apConn.toAp.sent → s.sent ≠ [] →
      (∀ c ∈ want, c ∈ s.sent) → ApOK next { w.apConn with toAp := s })
    (hw : w.apRecv o want next = some w') : Inv w' := by
  have hk := h.apConn_ok hpc
  unfold World.apRecv at hw
  cases o with
  | raised =>
    simp only [Option.some.injEq] at hw; subst hw
    exact h.apReturn hpc fun hf => by cases hf
  | eof =>
    simp only at hw
    split at hw
    · simp only [Option.some.injEq] at hw; subst hw
      exact h.apReturn hpc fun hf => by cases hf
    · cases hw
  | data n =>
    simp only [Option.map_eq_some_iff] at hw
    obtain ⟨⟨chunk, s⟩, hr, hw⟩ := hw
    obtain ⟨-, hne, hs, -, -⟩ := Stream.recv_eq hr
    have hsub := Stream.recv_sub hr
    have hok : ConnOK { w.apConn with toAp := s } :=
      ⟨hk.hex, hk.sent, fun hl => by rw [hs]; exact hk.early hl, fun hm => hk.ok (by rwa [hs] at hm)⟩
    have hext : ApExt w.apConn { w.apConn with toAp := s } := ⟨rfl, rfl, hs, rfl⟩
    simp only at hw
    split at hw
    · rename_i hwant
      subst hw
      refine h.apUpdate hext hok (hnext s hs ?_ ?_) fun _ => h.apCur hpc
      · intro h0
        rw [← hs, h0] at hsub
        exact hne (List.subset_nil.1 hsub)
      · intro c hc
        rw [← hwant] at hc
        rw [hs]
        exact hsub (Lib.mem_of_mem_strip hc)
    · subst hw
      have hap : ApOK w.ap.pc { w.apConn with toAp := s } :=
        ApOK.staExt h.ap ⟨rfl, rfl, by simp [hs]⟩
      have hinv : Inv (w.setConn w.ap.cur { w.apConn with toAp := s }) :=
        h.apUpdate hext hok hap fun _ => h.apCur hpc
      exact hinv.apReturn hpc fun hf => by cases hf

/-- **Every step of the AP keeps the invariant.** -/
theorem apStep_inv {e : ApEvent} (h : Inv w) (hw : apStep w e = some w') : Inv w' := by
  have hap := h.ap
  unfold apStep at hw
  split at hw
  · -- the watchdog
    simp only [Option.some.injEq] at hw; subst hw
    exact ⟨h.conns, h.fresh, h.le, h.apCur, h.staCur, h.ap, h.sta⟩
  · -- a PTK from hostapd
    rename_i hpc
    split at hw
    · simp only [Option.some.injEq] at hw; subst hw; exact h
    · rename_i p hp
      simp only [Option.some.injEq] at hw
      split at hw <;> subst hw
      · exact ⟨h.conns, h.fresh, h.le, nofun, h.staCur, newPtk_hex hp, h.sta⟩
      · exact ⟨h.conns, h.fresh, h.le, h.apCur, h.staCur, h.ap, h.sta⟩
  · -- connect
    rename_i p ok hpc
    rw [hpc] at hap
    split at hw <;> simp only [Option.some.injEq] at hw <;> subst hw
    · exact h.open hap
    · exact ⟨h.conns, h.fresh, h.le, nofun, h.staCur, nofun, h.sta⟩
  · -- SYNC
    rename_i p o hpc
    rw [hpc] at hap
    obtain ⟨hp, hs⟩ := hap
    simp only [Option.some.injEq] at hw; subst hw
    refine h.apSend (by rw [hpc]; rfl) (.recvReady p) ?_ ?_ ⟨hp, by simp [hs]⟩ o
    · rw [hs, hp]; exact List.prefix_append _ _
    · rw [hs, hp]; intro hl; simp at hl
  · -- READY
    rename_i p o hpc
    rw [hpc] at hap
    exact h.apRecv (by rw [hpc]; rfl) (.sendInstall p)
      (fun s hs hne _ => ⟨hap.1, hap.2, hne⟩) hw
  · -- INSTALL
    rename_i p o hpc
    rw [hpc] at hap
    obtain ⟨hp, hs, hne⟩ := hap
    simp only [Option.some.injEq] at hw; subst hw
    refine h.apSend (by rw [hpc]; rfl) (.recvReply p) ?_ (fun _ => hne) hp o
    rw [hs, hp]
  · -- OK
    rename_i p o hpc
    rw [hpc] at hap
    exact h.apRecv (by rw [hpc]; rfl) (.forward p)
      (fun s _ _ hk => ⟨hap, hk 'K' (by decide)⟩) hw
  · -- send_ptk_to_wifi
    rename_i p o hpc
    rw [hpc] at hap
    have hin : w.ap.pc.inConn = true := by rw [hpc]; rfl
    cases o <;> simp only [Option.some.injEq] at hw <;> subst hw
    · exact Inv.apReturn (w := { w with apFwd := some p, disc := false })
        ⟨h.conns, h.fresh, h.le, h.apCur, h.staCur, h.ap, h.sta⟩ hin fun _ => hap.2
    · exact h.apReturn hin fun _ => hap.2
    · exact h.apReturn hin fun hf => by cases hf
  · -- back in the main loop
    simp only [Option.some.injEq] at hw; subst hw
    exact ⟨h.conns, h.fresh, h.le, nofun, h.staCur, trivial, h.sta⟩
  · cases hw

/-! ## The STA's steps -/

/-- A message of the STA, whole or in part; only the one with a K needs to be true. -/
theorem Inv.staSend (h : Inv w) (hpc : w.sta.pc ≠ .accept) {t : Text} (next : StaPc)
    (ht : 'K' ∈ t → w.staConn.passed = some w.staConn.ptk)
    (hnext : ∀ s, StaOK next { w.staConn with toAp := s } w.sta.pendingPtkHex) (o : Send) :
    Inv (w.staSend o t next) := by
  have hk := h.staConn_ok hpc
  have hext : StaExt w.staConn { w.staConn with toAp := w.staConn.toAp.send (o.part t) } :=
    ⟨rfl, rfl, by simp⟩
  have hok : ConnOK { w.staConn with toAp := w.staConn.toAp.send (o.part t) } := by
    refine ⟨hk.hex, hk.sent, fun hl => ?_, fun hm => ?_⟩
    · simp only [Stream.send_sent, ne_eq, List.append_eq_nil_iff, not_and]
      exact fun h0 => absurd h0 (hk.early hl)
    · simp only [Stream.send_sent, List.mem_append] at hm
      rcases hm with hm | hm
      · exact hk.ok hm
      · exact ht ((part_le o t).subset hm)
  unfold World.staSend
  cases o with
  | ok => exact h.staUpdate hpc next hext hok (hnext _)
  | raised n => exact h.staUpdate hpc .disconnect hext hok trivial

theorem Inv.staPc (h : Inv w) (hpc : w.sta.pc ≠ .accept) (pc : StaPc) {pending last : Option Text}
    (hp : StaOK pc w.staConn pending) :
    Inv { w with
      sta := { w.sta with pc := pc, pendingPtkHex := pending, lastPtkHex := last } } :=
  ⟨h.conns, h.fresh, h.le, h.apCur, fun _ => h.staCur hpc, h.ap, hp⟩

/-- A read of the STA leads where its text says, an exception to the disconnection. -/
theorem Inv.staRecv (h : Inv w) (hpc : w.sta.pc ≠ .accept) {o : Recv} {max : ℕ} {next : Text → StaPc}
    (hnil : StaOK (next []) w.staConn w.sta.pendingPtkHex)
    (hnext : ∀ n chunk s, w.staConn.toSta.recv max n = some (chunk, s) →
      StaOK (next chunk) { w.staConn with toSta := s } w.sta.pendingPtkHex)
    (hw : w.staRecv o max next = some w') : Inv w' := by
  have hk := h.staConn_ok hpc
  unfold World.staRecv at hw
  cases o with
  | raised =>
    simp only [Option.some.injEq] at hw; subst hw
    exact h.staPc hpc .disconnect trivial
  | eof =>
    simp only at hw
    split at hw
    · simp only [Option.some.injEq] at hw; subst hw
      exact h.staPc hpc _ hnil
    · cases hw
  | data n =>
    simp only [Option.map_eq_some_iff] at hw
    obtain ⟨⟨chunk, s⟩, hr, rfl⟩ := hw
    obtain ⟨-, -, hs, -, -⟩ := Stream.recv_eq hr
    exact h.staUpdate hpc _ ⟨rfl, hs, fun _ hm => hm⟩
      ⟨hk.hex, by simpa only [hs] using hk.sent, by simpa only [hs] using hk.early, hk.ok⟩
      (hnext n chunk s hr)

/-- **The installation hands on the pending PTK**, which is still that of the exchange. -/
theorem Inv.staInstall (h : Inv w) {hex : Text} (hpc : w.sta.pc = .install hex)
    (associated : Bool) (o : Forward) : Inv (w.staInstall associated o) := by
  have hne : w.sta.pc ≠ .accept := by rw [hpc]; exact nofun
  have hk := h.staConn_ok hne
  have hsta := h.sta
  rw [hpc] at hsta
  obtain ⟨rfl, hpend⟩ := hsta
  have hext : StaExt w.staConn { w.staConn with passed := some w.staConn.ptk } :=
    ⟨rfl, rfl, fun _ hm => hm⟩
  have hok : ConnOK { w.staConn with passed := some w.staConn.ptk } :=
    ⟨hk.hex, hk.sent, hk.early, fun _ => rfl⟩
  unfold World.staInstall
  rw [hpend]
  simp only
  split
  · exact h.staPc hne (.reply _) (by decide : 'K' ∉ "NOTREADY\n".toList)
  · cases o with
    | ok =>
      have hinv : Inv { w.setConn w.sta.cur { w.staConn with passed := some w.staConn.ptk } with
          sta := { w.sta with
            pc := .replyOk, pendingPtkHex := none, lastPtkHex := some w.staConn.ptk } } :=
        h.staUpdate hne .replyOk hext hok rfl
      exact ⟨hinv.conns, hinv.fresh, hinv.le, hinv.apCur, hinv.staCur, hinv.ap, hinv.sta⟩
    | failed =>
      exact h.staUpdate hne (.reply _) hext hok (by decide : 'K' ∉ "FAIL\n".toList)
    | raised => exact h.staUpdate hne .disconnect hext hok trivial

/-- The first read of the server, of a connection it has just accepted. -/
theorem staOK_store {k : Conn} (hk : ConnOK k) (hto : k.toAp.sent = []) (hread : k.toSta.read = 0)
    {n : ℕ} {chunk : Text} {s : Stream Char} (hr : k.toSta.recv 256 n = some (chunk, s))
    (hp : parseSync chunk = some hex) : Parsed { k with toSta := s } hex := by
  obtain ⟨hc, -, -, hs, hlen⟩ := Stream.recv_eq hr
  have hle : k.toSta.sent.length ≤ (syncMsg k.ptk).length := by
    by_contra hn
    exact hk.early (by omega) hto
  rw [hread] at hc hs hlen
  rw [List.drop_zero] at hc
  have htake : chunk = (syncMsg k.ptk).take n := by
    obtain ⟨t, ht⟩ := hk.sent
    calc chunk = (k.toSta.sent ++ t).take n := by
          rw [hc, List.take_append_of_le_length (by omega)]
      _ = (syncMsg k.ptk).take n := by rw [ht, List.take_append_of_le_length (by omega)]
  refine ⟨by simp only [hs]; omega, ?_⟩
  simp only [hs, Nat.zero_add]
  rw [← htake, hp]

/-- The second read of the server, when it is taken for `INSTALL`. -/
theorem staOK_install {k : Conn} (hk : ConnOK k) (hpar : Parsed k hex) {n : ℕ} {chunk : Text}
    {s : Stream Char} (hr : k.toSta.recv 64 n = some (chunk, s))
    (hi : Text.strip chunk = "INSTALL".toList) : hex = k.ptk := by
  obtain ⟨hc, -⟩ := Stream.recv_eq hr
  rw [hc] at hi
  exact sync_parsed hk.hex hpar.1 hk.sent hi hpar.2

/-- **Every step of the STA's server keeps the invariant.** -/
theorem staStep_inv {e : StaEvent} (h : Inv w) (hw : staStep w e = some w') : Inv w' := by
  have hsta := h.sta
  unfold staStep at hw
  split at hw
  · -- the watchdog
    simp only [Option.some.injEq] at hw; subst hw
    exact ⟨h.conns, h.fresh, h.le, h.apCur, h.staCur, h.ap, h.sta⟩
  · -- accept
    split at hw
    · rename_i hlt
      simp only [Option.some.injEq] at hw; subst hw
      exact ⟨h.conns, fun c hc => h.fresh c (Nat.le_of_succ_le hc), hlt, h.apCur, fun _ => rfl,
        h.ap, h.fresh w.accepted le_rfl⟩
    · cases hw
  · -- SYNC
    rename_i o hpc
    have hne : w.sta.pc ≠ .accept := by rw [hpc]; exact nofun
    rw [hpc] at hsta
    refine h.staRecv hne ?_ (fun n chunk s hr => ?_) hw
    · exact trivial
    split
    · rename_i hex hp
      exact staOK_store (h.staConn_ok hne) hsta.1 hsta.2 hr hp
    · trivial
  · -- the AP's PTK becomes the pending one
    rename_i hex hpc
    rw [hpc] at hsta
    simp only [Option.some.injEq] at hw; subst hw
    exact h.staPc (by rw [hpc]; exact nofun) (.check hex) ⟨hsta, rfl⟩
  · -- the association check
    rename_i hex associated hpc
    rw [hpc] at hsta
    simp only [Option.some.injEq] at hw; subst hw
    refine h.staPc (by rw [hpc]; exact nofun) _ ?_
    cases associated with
    | true => exact hsta
    | false => trivial
  · -- READY
    rename_i hex o hpc
    rw [hpc] at hsta
    simp only [Option.some.injEq] at hw; subst hw
    exact h.staSend (by rw [hpc]; exact nofun) (.recvInstall hex)
      (fun hm => absurd hm (by decide)) (fun _ => hsta) o
  · -- NOTREADY
    rename_i o hpc
    simp only [Option.some.injEq] at hw; subst hw
    exact h.staSend (by rw [hpc]; exact nofun) .close
      (fun hm => absurd hm (by decide)) (fun _ => trivial) o
  · -- INSTALL
    rename_i hex o hpc
    have hne : w.sta.pc ≠ .accept := by rw [hpc]; exact nofun
    rw [hpc] at hsta
    refine h.staRecv hne ?_ (fun n chunk s hr => ?_) hw
    · rw [if_neg (by decide)]; exact (by decide : 'K' ∉ "FAIL\n".toList)
    · split
      · rename_i hi
        exact ⟨staOK_install (k := w.staConn) (h.staConn_ok hne) hsta.1 hr hi, hsta.2⟩
      · exact (by decide : 'K' ∉ "FAIL\n".toList)
  · -- the installation
    rename_i hex associated o hpc
    simp only [Option.some.injEq] at hw; subst hw
    exact h.staInstall hpc associated o
  · -- OK
    rename_i o hpc
    rw [hpc] at hsta
    simp only [Option.some.injEq] at hw; subst hw
    exact h.staSend (by rw [hpc]; exact nofun) .close (fun _ => hsta) (fun _ => trivial) o
  · -- FAIL and NOTREADY
    rename_i msg o hpc
    rw [hpc] at hsta
    simp only [Option.some.injEq] at hw; subst hw
    exact h.staSend (by rw [hpc]; exact nofun) .disconnect (fun hm => absurd hm hsta)
      (fun _ => trivial) o
  · -- disconnect
    rename_i hpc
    simp only [Option.some.injEq] at hw; subst hw
    exact ⟨h.conns, h.fresh, h.le, h.apCur, fun _ => h.staCur (by rw [hpc]; exact nofun), h.ap,
      trivial⟩
  · -- close
    rename_i hpc
    have hne : w.sta.pc ≠ .accept := by rw [hpc]; exact nofun
    have hk := h.staConn_ok hne
    simp only [Option.some.injEq] at hw; subst hw
    exact h.staUpdate hne .accept ⟨rfl, rfl, fun _ hm => hm⟩
      ⟨hk.hex, hk.sent, hk.early, hk.ok⟩ trivial
  · cases hw

/-! ## The run -/

/-- The PTK between the server's two locks, its local `ap_ptk_hex`. -/
def StaPc.window : StaPc → Option Text
  | .check hex | .sendReady hex | .recvInstall hex | .install hex => some hex
  | _ => none

/-- The STA's main loop stores no other PTK while the server is between `SYNC` and
`INSTALL`. -/
def noForeignPtk (w : World) (e : Event) : Bool :=
  match e, w.sta.main, w.sta.pc.window with
  | .main .store, .store q, some hex => q == hex
  | _, _, _ => true

/-- A step of the STA's main loop keeps the invariant when it stores no other PTK. -/
theorem mainStep_inv {e : MainEvent} (h : Inv w) (hC : noForeignPtk w (.main e) = true)
    (hw : mainStep w e = some w') : Inv w' := by
  have hsta := h.sta
  unfold mainStep at hw
  split at hw
  · split at hw
    · simp only [Option.some.injEq] at hw; subst hw; exact h
    · simp only [Option.some.injEq] at hw
      split at hw <;> subst hw
      · exact ⟨h.conns, h.fresh, h.le, h.apCur, h.staCur, h.ap, h.sta⟩
      · exact h
  · rename_i q hmain
    simp only [Option.some.injEq] at hw; subst hw
    refine ⟨h.conns, h.fresh, h.le, h.apCur, h.staCur, h.ap, ?_⟩
    -- outside the window nothing is known of the pending PTK
    simp only [noForeignPtk, hmain] at hC
    simp only [World.staConn] at hsta ⊢
    cases hpc : w.sta.pc with
    | check hex | sendReady hex | recvInstall hex | install hex =>
      simp only [hpc, StaPc.window, beq_iff_eq] at hC hsta
      exact ⟨hsta.1, by rw [hC]⟩
    | accept | sendNotReady | disconnect | close => trivial
    | recvSync | store hex | replyOk | reply msg =>
      simp only [hpc] at hsta
      exact hsta
  · cases hw

/-- **One step** in which no foreign PTK is stored keeps the invariant. -/
theorem step_inv {e : Event} (h : Inv w) (hC : noForeignPtk w e = true)
    (hw : step w e = some w') : Inv w' := by
  cases e with
  | ap e => exact apStep_inv h hw
  | sta e => exact staStep_inv h hw
  | main e => exact mainStep_inv h hC hw

/-- **A run** in which no foreign PTK is stored keeps the invariant. -/
theorem run_inv {es : List Event} (hC : Lib.Along step (fun w e => noForeignPtk w e = true) init es)
    (hr : Lib.run step init es = some w) : Inv w :=
  Lib.along_inv (fun _ _ _ h hC hw => step_inv h hC hw) init_inv hC hr

end Lightguard.Sync
