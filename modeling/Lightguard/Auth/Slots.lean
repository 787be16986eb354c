import Lightguard.Auth.Rest

/-!
# Which key the driver holds

* `run_stored`: the trace tells what is in `sm->PTK`, and every key the driver is given is the
  TK that is there.
* `run_slot`: on the WiFi link PTKINITDONE hands its key over only while the slot of the
  station is empty: what the driver has taken before was removed.
-/

namespace Lightguard.Auth

open Wpa

variable {c : Conf} {ev : Event} {e : Env} {f : EapolKey} {s s' t : Sm} {l l' : List Out}

/-! ## The TK in `sm->PTK` -/

theorem looked_inert (h : ∀ o ∈ l, o.looked = true) : ∀ o ∈ l, o.inert = true := by
  intro o ho
  have := h o ho
  cases o <;> simp_all [Out.looked, Out.inert]

/-- A PTK is derived, its MIC verified, and taken over. -/
theorem StoredOK.adopt (h : StoredOK s) {src : PtkSource} {k : Ptk}
    (hl : ∀ o ∈ l, o.looked = true) (htr : t.trace = .newPtk src k :: (l ++ s.trace))
    (hk : t.ptk = k) : StoredOK t := by
  have h1 : StoredOK { s with trace := l ++ s.trace } := h.extend (looked_inert hl) rfl rfl
  exact h1.write htr hk

theorem MicCheck.stored {b : Bool} (h : MicCheck c e f s (b, t)) (hs : StoredOK s) : StoredOK t := by
  cases h with
  | unchecked | failed => exact hs
  | noMic => exact hs.extend (l := [.micSkipped]) (by simp [Out.inert]) rfl rfl
  | verified => exact hs.extend (l := [.micVerified s.ptk]) (by simp [Out.inert]) rfl rfl
  | alt => exact hs.adopt searchPmk_looked rfl rfl
  | failedAlt => exact hs.extend (looked_inert searchPmk_looked) rfl rfl

/-- The fork's install hands over what it has written. -/
theorem StoredOK.tryInstall (h : StoredOK s) (site : Site) (ptk : Ptk) :
    StoredOK (tryInstall c e site ptk s).2 := by
  have hw : StoredOK (s.wrote ptk) := h.write rfl rfl
  have hh : ∀ ok, StoredOK (s.handed site ptk ok) := by
    intro ok
    have htk : (s.wrote ptk).ptk.tkBuf ptk.tk.length = ptk.tk := Ptk.tkBuf_length
    have htr : (s.handed site ptk ok).trace =
        .setKey site 0 ((s.wrote ptk).ptk.tkBuf ptk.tk.length) ok :: (s.wrote ptk).trace := by
      rw [htk]
      rfl
    exact hw.hand htr rfl
  rcases tryInstall_cases c e site ptk s with ⟨-, heq⟩ | ⟨-, ⟨-, heq⟩ | ⟨-, heq⟩⟩ <;> rw [heq]
  · exact hw
  · exact hh false
  · exact (hh true).congr rfl rfl

theorem StoredOK.openPort (h : StoredOK s) (site : Site) : StoredOK (openPort site s) := by
  refine h.extend (l := portCalls site s.neg) ?_ rfl rfl
  unfold portCalls
  split <;> simp [Out.inert]

/-- What PTKINITDONE adds to the trace before the driver answers. -/
theorem doneEntered_keys (e : Env) (s : Sm) :
    (doneEntered e s).trace = .ptkinitdone s.ptk :: s.trace ∨
    s.pair = true ∧ (doneEntered e s).trace =
      .setKey .ptkinitdone 0 (s.ptk.tkBuf s.neg.pairwise.keyLen) e.setKey ::
        .ptkinitdone s.ptk :: s.trace := by
  unfold doneEntered doneKeys
  by_cases hp : s.pair = true
  · by_cases hx : s.neg.useExtKeyId = true
    · exact .inl (by simp [hp, hx])
    · exact .inr ⟨hp, by simp [hp, hx]⟩
  · exact .inl (by simp [hp])

theorem StoredOK.done (h : StoredOK s) : StoredOK (doneEntered e s) := by
  have h1 : StoredOK (s.out (.ptkinitdone s.ptk)) := ⟨h.ptk, h.ptk, h.always⟩
  rcases doneEntered_keys e s with htr | ⟨-, htr⟩
  · exact h1.congr htr rfl
  · exact h1.hand htr rfl

theorem act_stored (hs : StoredOK s) (h : Act c ev e s t) : StoredOK t := by
  cases h with
  | plain h => exact h.stored hs
  | initFlag b ha h => exact h.stored (hs.congr rfl rfl)
  | associated => exact hs.extend (l := [.associated]) (by simp [Out.inert]) rfl rfl
  | noted | micReset | negotiated | newPsks => exact hs.congr rfl rfl
  | refused h0 h => exact h.stored hs
  | received h0 hw h => exact (h.stored hs).congr rfl rfl
  | requested h0 hf h => exact (h.stored hs).congr rfl rfl
  | searched h => exact hs.extend (looked_inert calcSearch_looked) rfl rfl
  | adopted h hf hi => exact hs.adopt calcSearch_looked rfl rfl
  | done h =>
    have hd : StoredOK (doneEntered e s) := hs.done
    rcases enterPtkinitdone_cases c e s with ⟨-, -, heq⟩ | ⟨-, heq⟩ | ⟨-, -, hp⟩
    · rw [heq]
      have hd' : StoredOK ({ doneEntered e s with pairwiseSet := true }.setPtkRekeyTimer c) :=
        hd.congr rfl rfl
      exact hd'.openPort .ptkinitdone
    · rw [heq]
      exact hd.extend (l := [.portValid .ptkinitdone]) (by simp [Out.inert]) rfl rfl
    · exact hp.stored hd
  | install site ptk => exact hs.tryInstall site ptk
  | fastPath =>
    have hk := hs.tryInstall (c := c) (e := e) .fastPath customTestPtk
    refine StoredOK.openPort ?_ _
    unfold installCustomGtk
    split
    · exact hk.extend (l := [_]) (by simp [Out.inert]) rfl rfl
    · exact hk

theorem acts_stored (hs : StoredOK s) (h : Acts c ev e s t) : StoredOK t := by
  induction h with
  | refl => exact hs
  | tail _ ha ih => exact act_stored ih ha

/-- **What every run keeps of `sm->PTK`.** -/
theorem run_stored {n : Negotiated} {psks : List Pmk} {es : List (Event × Env)}
    (h : run c (Sm.new n psks) es = some s) : StoredOK s := by
  have hnew : StoredOK (Sm.new n psks) := ⟨rfl, trivial⟩
  exact run_keeps hnew (fun _ _ _ _ hs ha => act_stored hs ha) h

/-- Entries after which `sm->PTK` is what it was. -/
def Out.keepsPtk : Out → Bool
  | .newPtk _ _ | .delKey _ _ | .ptkCleared => false
  | _ => true

theorem storedPtk_keeps (hl : ∀ o ∈ l, o.keepsPtk = true) : storedPtk (l ++ l') = storedPtk l' := by
  rw [storedPtk, Lib.latest_append, storedPtk]
  intro o ho
  have := hl o ho
  cases o <;> simp_all [Out.keepsPtk]

theorem driverTk_keeps (hl : ∀ o ∈ l, o.keepsPtk = true)
    (hk : ∀ site idx key, .setKey site idx key true ∉ l) : driverTk (l ++ l') = driverTk l' := by
  rw [driverTk, Lib.latest_append, driverTk]
  intro o ho
  have := hl o ho
  cases o with
  | setKey site idx key ok =>
    cases ok with
    | false => rfl
    | true => exact absurd ho (hk site idx key)
  | _ => simp_all [Out.keepsPtk]

/-- While `sm->PTK` stays what it is, the driver is given its TK. -/
theorem handed_of_keeps (h : Lib.Always KeyRule (l ++ l')) (hl : ∀ o ∈ l, o.keepsPtk = true)
    {site : Site} {idx : ℕ} {key tk : Bytes} (hm : .setKey site idx key true ∈ l)
    (htk : driverTk (l ++ l') = some tk) : tk = (storedPtk l').tkBuf tk.length := by
  induction l with
  | nil => cases hm
  | cons o l ih =>
    have hl' : ∀ o ∈ l, o.keepsPtk = true := fun x hx => hl x (List.mem_cons_of_mem _ hx)
    by_cases ho : ∃ site idx key, o = .setKey site idx key true
    · obtain ⟨site, idx, key, rfl⟩ := ho
      obtain ⟨k, hk⟩ : ∃ k, key = (storedPtk (l ++ l')).tkBuf k := h.1
      obtain rfl : key = tk := by
        have hnow : driverTk (.setKey site idx key true :: (l ++ l')) = some key := rfl
        exact Option.some.inj (hnow.symm.trans htk)
      rw [storedPtk_keeps hl'] at hk
      rw [hk]
      exact Ptk.tkBuf_idem.symm
    · have hm' : Out.setKey site idx key true ∈ l := by
        rcases List.mem_cons.1 hm with rfl | hm
        · exact absurd ⟨_, _, _, rfl⟩ ho
        · exact hm
      refine ih h.2 hl' hm' ?_
      rw [← htk, List.cons_append, ← List.singleton_append]
      refine (driverTk_keeps (l := [o]) ?_ ?_).symm
      · exact fun x hx => hl x (by rw [List.mem_singleton.1 hx]; exact List.mem_cons_self)
      · exact fun s i k hx => ho ⟨s, i, k, (List.mem_singleton.1 hx).symm⟩

/-! ## The slot of the station -/

/-- Whether the driver has taken a pairwise key for sending that was not removed since; a
removal counts whatever the driver answers. -/
def occupied (l : List Out) : Bool :=
  (Lib.latest (fun
    | .setKey .ptkinitnegotiating _ _ _ => none
    | .setKey _ _ _ true => some true
    | .delKey 0 _ => some false
    | _ => none) l).getD false

/-- PTKINITDONE hands its key over into an empty slot. -/
def SlotRule : Out → List Out → Prop
  | .setKey .ptkinitdone _ _ _, l => occupied l = false
  | _, _ => True

/-- The invariant: a key that is in the driver's slot is noted in the machine, and then no
frame is on its way to PTKINITDONE. -/
structure SlotOK (s : Sm) : Prop where
  always : Lib.Always SlotRule s.trace
  set : occupied s.trace = true → s.pairwiseSet = true
  awaits : Awaits s → s.pairwiseSet = false

/-- Entries that leave the slot as it is. -/
def Out.slotFree : Out → Bool
  | .delKey _ _ => false
  | .setKey .ptkinitnegotiating _ _ _ => true
  | .setKey _ _ _ _ => false
  | _ => true

theorem slotFree_of_inert {o : Out} (h : o.inert = true) : o.slotFree = true := by
  cases o <;> first | rfl | cases h

theorem occupied_free (hl : ∀ o ∈ l, o.slotFree = true) : occupied (l ++ l') = occupied l' := by
  rw [occupied, Lib.latest_append, occupied]
  intro o ho
  have := hl o ho
  cases o with
  | setKey site => cases site <;> simp_all [Out.slotFree]
  | _ => simp_all [Out.slotFree]

theorem slotRule_free {o : Out} (h : o.slotFree = true) : SlotRule o l := by
  cases o with
  | setKey site => cases site <;> simp_all [Out.slotFree, SlotRule]
  | _ => trivial

/-- Once the key has been removed, and none handed over since, the slot is empty. -/
theorem occupied_removed (hl : ∀ o ∈ l, ∃ b, o.quiet b = true) {ok : Bool}
    (hd : .delKey 0 ok ∈ l) : occupied (l ++ l') = false := by
  induction l with
  | nil => cases hd
  | cons o l ih =>
    have hl' : ∀ o ∈ l, ∃ b, o.quiet b = true := fun x hx => hl x (List.mem_cons_of_mem _ hx)
    have hnext : o.slotFree = true → occupied (o :: (l ++ l')) = occupied (l ++ l') := fun h =>
      occupied_free (l := [o]) (by simpa using h)
    obtain ⟨b, hq⟩ := hl o List.mem_cons_self
    rw [List.cons_append]
    rcases List.mem_cons.1 hd with rfl | hm
    · rfl
    have hnone := ih hl' hm
    cases o with
    | delKey i ok' =>
      cases i with
      | zero => rfl
      | succ i => exact hnone
    | setKey site i k ok' =>
      cases site with
      | ptkinitnegotiating => exact (hnext rfl).trans hnone
      | _ => cases hq
    | ptkCleared | portClosed | disconnect | sent => exact (hnext rfl).trans hnone
    | _ => cases hq

theorem slotRule_quiet {o : Out} {b : Bool} (h : o.quiet b = true) : SlotRule o l := by
  cases o with
  | setKey site => cases site <;> simp_all [Out.quiet, SlotRule]
  | _ => trivial

namespace SlotOK

theorem extend (h : SlotOK s) (hl : ∀ o ∈ l, o.slotFree = true) (htr : t.trace = l ++ s.trace)
    (hp : t.pairwiseSet = s.pairwiseSet) (ha : Awaits t → Awaits s) : SlotOK t where
  always := htr ▸ Lib.always_append (fun o ho _ => slotRule_free (hl o ho)) h.always
  set ho := by
    rw [htr, occupied_free hl] at ho
    rw [hp]
    exact h.set ho
  awaits h' := hp.trans (h.awaits (ha h'))

theorem congr (h : SlotOK s) (htr : t.trace = s.trace) (hp : t.pairwiseSet = s.pairwiseSet)
    (ha : Awaits t → Awaits s) : SlotOK t :=
  h.extend (l := []) (by simp) htr hp ha

/-- A machine no frame of which is on its way to PTKINITDONE. -/
theorem idle (h : SlotOK s) (hl : ∀ o ∈ l, o.slotFree = true) (htr : t.trace = l ++ s.trace)
    (hp : t.pairwiseSet = s.pairwiseSet) (ha : ¬ Awaits t) : SlotOK t :=
  h.extend hl htr hp fun h => absurd h ha

theorem plain (h : SlotOK s) (hp : Plain e s t) : SlotOK t := by
  obtain ⟨l, htr, hq, hd⟩ := hp.trace
  refine ⟨?_, fun ho => ?_, fun ha => ?_⟩
  · rw [htr]
    exact Lib.always_append (fun o ho _ => slotRule_quiet (hq o ho)) h.always
  · rw [htr] at ho
    by_cases hm : ∃ ok, Out.delKey 0 ok ∈ l
    · obtain ⟨ok, hm⟩ := hm
      rw [occupied_removed (fun o ho => ⟨_, hq o ho⟩) hm] at ho
      cases ho
    · -- nothing was removed from slot 0
      have hset : t.pairwiseSet = s.pairwiseSet := hd.resolve_right hm
      have hsame : ∀ o ∈ l, (fun
          | .setKey .ptkinitnegotiating _ _ _ => none
          | .setKey _ _ _ true => some true
          | .delKey 0 _ => some false
          | _ => none : Out → Option Bool) o = none := by
        intro o ho
        have := hq o ho
        cases o with
        | setKey site => cases site <;> simp_all [Out.quiet]
        | delKey i ok =>
          cases i with
          | zero => exact absurd ⟨ok, ho⟩ hm
          | succ i => rfl
        | _ => simp_all [Out.quiet]
      rw [occupied, Lib.latest_append hsame] at ho
      rw [hset]
      exact h.set ho
  · by_contra hset
    have := hp.set (by simpa using hset)
    rw [h.awaits (hp.awaits ha)] at this
    cases this

/-- The driver is given a key by the fork. -/
theorem hand (h : SlotOK s) {site : Site} (h1 : site ≠ .ptkinitdone) {i : ℕ} {key : Bytes} {ok : Bool}
    (htr : t.trace = .setKey site i key ok :: s.trace)
    (hp : t.pairwiseSet = (ok || s.pairwiseSet)) (ha : ¬ Awaits t) : SlotOK t := by
  refine ⟨?_, fun ho => ?_, fun h => absurd h ha⟩
  · rw [htr]
    refine ⟨?_, h.always⟩
    cases site <;> trivial
  · rw [hp]
    cases ok with
    | true => rfl
    | false =>
      rw [htr] at ho
      have : occupied (.setKey site i key false :: s.trace) = occupied s.trace := by cases site <;> rfl
      exact h.set (this ▸ ho)

end SlotOK

/-- **The MIC check** never touches the slot; a frame that has passed it under a PTK came in
while the slot was empty. -/
theorem MicCheck.slot {b : Bool} (h : MicCheck c e f s (b, t)) (h0 : s.micVerified = false) :
    (∃ l, t.trace = l ++ s.trace ∧ ∀ o ∈ l, o.slotFree = true) ∧ t.pairwiseSet = s.pairwiseSet ∧
      (t.micVerified = true → s.ptkValid = true) := by
  have hlook : ∀ l : List Out, (∀ o ∈ l, o.looked = true) → ∀ o ∈ l, o.slotFree = true :=
    fun l hl o ho => slotFree_of_inert (looked_inert hl o ho)
  cases h with
  | unchecked => exact ⟨⟨[], rfl, by simp⟩, rfl, fun h => by rw [h0] at h; cases h⟩
  | failed => exact ⟨⟨[], rfl, by simp⟩, rfl, fun h => by rw [h0] at h; cases h⟩
  | failedAlt => exact ⟨⟨_, rfl, hlook _ searchPmk_looked⟩, rfl, fun h => by
      rw [show s.micVerified = false from h0] at h; cases h⟩
  | noMic hv => exact ⟨⟨[.micSkipped], rfl, by simp [Out.slotFree]⟩, rfl, fun _ => hv⟩
  | verified hv => exact ⟨⟨[.micVerified s.ptk], rfl, by simp [Out.slotFree]⟩, rfl, fun _ => hv⟩
  | @alt pmk ptk hv =>
    refine ⟨⟨.newPtk (.derived pmk s.aNonce s.altSNonce) ptk :: searchOut (altSearch c e f s),
      rfl, ?_⟩, rfl, fun _ => hv⟩
    intro o ho
    rcases List.mem_cons.1 ho with rfl | ho
    · rfl
    · exact hlook _ searchPmk_looked o ho

theorem SlotOK.tryInstall (h : SlotOK s) {site : Site} (h1 : site ≠ .ptkinitdone) (ptk : Ptk)
    (ha : ¬ Awaits s) : SlotOK (tryInstall c e site ptk s).2 := by
  have hw : SlotOK (s.wrote ptk) :=
    h.idle (l := [.newPtk .fork ptk]) (by simp [Out.slotFree]) rfl rfl
      fun h => ha ⟨h.late, h.received, h.mic⟩
  have htr : ∀ ok, (s.handed site ptk ok).trace = .setKey site 0 ptk.tk ok :: (s.wrote ptk).trace :=
    fun _ => rfl
  rcases tryInstall_cases c e site ptk s with ⟨-, heq⟩ | ⟨-, ⟨-, heq⟩ | ⟨-, heq⟩⟩ <;> rw [heq]
  · exact hw
  · exact hw.hand h1 (htr false) rfl fun h => ha ⟨h.late, h.received, h.mic⟩
  · exact hw.hand h1 (htr true) rfl fun h => nomatch h.late

theorem SlotOK.openPort (h : SlotOK s) (site : Site) (ha : ¬ Awaits s) : SlotOK (openPort site s) := by
  refine h.idle (l := portCalls site s.neg) ?_ rfl rfl fun h => ha ⟨h.late, h.received, h.mic⟩
  unfold portCalls
  split <;> simp [Out.slotFree]

/-- PTKINITDONE finds the slot empty; it is occupied afterwards when the driver has taken the
key. -/
theorem SlotOK.done (hs : SlotOK s) (h : EntersDone s) :
    Lib.Always SlotRule (doneEntered e s).trace ∧
      (occupied (doneEntered e s).trace = true → s.pair = true ∧ e.setKey = true) := by
  have hempty : occupied s.trace = false := by
    by_contra ho
    have h1 := hs.set (by simpa using ho)
    rw [hs.awaits h.toAwaits] at h1
    cases h1
  have hmark : occupied (.ptkinitdone s.ptk :: s.trace) = false := hempty
  rcases doneEntered_keys e s with htr | ⟨hp, htr⟩ <;> rw [htr]
  · refine ⟨⟨trivial, hs.always⟩, fun ho => ?_⟩
    rw [hmark] at ho
    cases ho
  · refine ⟨⟨hmark, trivial, hs.always⟩, fun ho => ⟨hp, ?_⟩⟩
    by_contra hk
    rw [Bool.not_eq_true] at hk
    rw [hk] at ho
    exact absurd (hmark.symm.trans ho) Bool.false_ne_true

/-- **Every act keeps the invariant**, on the WiFi link. -/
theorem act_slot (hl : c.link = .wifi) (hs : SlotOK s) (h : Act c ev e s t) : SlotOK t := by
  cases h with
  | plain h => exact hs.plain h
  | initFlag b ha h =>
    exact (hs.congr (t := { s with init := b }) rfl rfl fun h => ⟨h.late, h.received, h.mic⟩).plain h
  | associated ha =>
    exact hs.idle (l := [.associated]) (by simp [Out.slotFree]) rfl rfl
      fun h => ha ⟨h.late, h.received, h.mic⟩
  | noted | negotiated | newPsks => exact hs.congr rfl rfl fun h => ⟨h.late, h.received, h.mic⟩
  | micReset => exact hs.congr rfl rfl fun h => by cases h.mic
  | refused h0 h =>
    obtain ⟨⟨l, htr, hl⟩, hp, -⟩ := h.slot h0
    refine hs.idle hl htr hp fun ha => ?_
    have := ha.mic
    rw [h.refused_mic, h0] at this
    cases this
  | @received f u h0 hw h =>
    obtain ⟨⟨l, htr, hl'⟩, hp, hv⟩ := h.slot h0
    have h1 : SlotOK { u with micVerified := false } := hs.idle hl' htr hp fun h => by cases h.mic
    refine ⟨h1.always, h1.set, fun ha => ?_⟩
    -- with a valid PTK and a key in the slot the frame would have been ignored
    by_contra hset
    have hset' : u.pairwiseSet = true := by simpa [storeFrame, useReplayCounter] using hset
    exact hw ⟨hl, hv ha.mic, hp.symm.trans hset'⟩
  | @requested f u h0 hf h =>
    obtain ⟨⟨l, htr, hl'⟩, hp, -⟩ := h.slot h0
    refine hs.idle (t := storeFrame f u) hl' htr hp fun ha => ?_
    have := ha.received
    simp [Sm.pairwiseReceived, storeFrame, hf] at this
  | searched h =>
    exact hs.idle (fun o ho => slotFree_of_inert (looked_inert calcSearch_looked o ho)) rfl rfl
      fun h => by cases h.received
  | @adopted h pmk ptk hf hi =>
    refine hs.idle (l := .newPtk (.derived pmk s.aNonce s.sNonce) ptk ::
      searchOut (calcSearch c e s)) ?_ rfl rfl fun h => by cases h.received
    intro o ho
    rcases List.mem_cons.1 ho with rfl | ho
    · rfl
    · exact slotFree_of_inert (looked_inert calcSearch_looked o ho)
  | done h =>
    have hd := hs.done (e := e) h
    rcases enterPtkinitdone_cases c e s with ⟨-, -, heq⟩ | ⟨hp, heq⟩ | ⟨-, hk, hp⟩
    · rw [heq]
      have h1 : SlotOK ({ doneEntered e s with pairwiseSet := true }.setPtkRekeyTimer c) :=
        ⟨hd.1, fun _ => rfl, fun h => by cases h.received⟩
      exact h1.openPort .ptkinitdone fun h => by cases h.received
    · rw [heq]
      have h1 : SlotOK (doneEntered e s) :=
        ⟨hd.1, fun ho => absurd ((hd.2 ho).1.symm.trans hp) Bool.false_ne_true.symm,
          fun h => by cases h.received⟩
      exact h1.idle (l := [.portValid .ptkinitdone]) (by simp [Out.slotFree]) rfl rfl
        fun h => by cases h.received
    · have h1 : SlotOK (doneEntered e s) :=
        ⟨hd.1, fun ho => absurd ((hd.2 ho).2.symm.trans hk) Bool.false_ne_true.symm,
          fun h => by cases h.received⟩
      exact h1.plain hp
  | install site ptk _ ha hp =>
    refine hs.tryInstall ?_ ptk ha
    rcases hp with rfl | ⟨rfl | rfl, -⟩ <;> rintro ⟨⟩
  | fastPath _ ha h =>
    have hsite : Site.fastPath ≠ .ptkinitdone := by rintro ⟨⟩
    have hk : SlotOK (tryInstall c e .fastPath customTestPtk s).2 := hs.tryInstall hsite _ ha
    have hidle : ¬ Awaits (tryInstall c e .fastPath customTestPtk s).2 := by
      rcases tryInstall_cases c e .fastPath customTestPtk s with ⟨-, heq⟩ | ⟨-, ⟨-, heq⟩ | ⟨-, heq⟩⟩
      · rw [heq] at h; cases h
      · rw [heq] at h; cases h
      · rw [heq]; exact fun h => by cases h.late
    have hg : SlotOK (installCustomGtk e (tryInstall c e .fastPath customTestPtk s).2) ∧
        ¬ Awaits (installCustomGtk e (tryInstall c e .fastPath customTestPtk s).2) := by
      unfold installCustomGtk
      split
      · have hi : ∀ o, ¬ Awaits ((tryInstall c e .fastPath customTestPtk s).2.out o) :=
          fun o h => hidle ⟨h.late, h.received, h.mic⟩
        exact ⟨hk.idle (l := [_]) (by simp [Out.slotFree]) rfl rfl (hi _), hi _⟩
      · exact ⟨hk, hidle⟩
    exact hg.1.openPort .fastPath hg.2

/-- **What every run keeps of the slot**, on the WiFi link. -/
theorem run_slot (hl : c.link = .wifi) {n : Negotiated} {psks : List Pmk}
    {es : List (Event × Env)} (h : run c (Sm.new n psks) es = some s) : SlotOK s := by
  have hnew : SlotOK (Sm.new n psks) := ⟨trivial, nofun, fun h => nomatch h.late⟩
  exact run_keeps hnew (fun _ _ _ _ hs ha => act_slot hl hs ha) h

end Lightguard.Auth
