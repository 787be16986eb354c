import Lightguard.Lib.Watermark
import Lightguard.Supp.Effect

/-!
# Replayed frames at the station

`sm->rx_replay_counter` is the counter of the last frame whose MIC has verified. An association forgets it, and
nothing else does.

* `wpaSmRxEapol_counter`: a frame moves the counter when its MIC verifies, and no handler does.
* `watermark`: the counter is a watermark of the machine.
* `replay_refused`: between two associations the counters of the frames that are taken with a MIC grow, and
  afterwards nothing with such a counter, or an older one, does anything.
-/

namespace Lightguard.Supp

open Wpa

variable {c : Conf} {e : Env} {f : EapolKey} {s t : Sm} {n m : ℕ} {x : Event × Env} {es : List (Event × Env)}

/-- The counter has come as far as `n`. -/
def Reached (n : ℕ) (s : Sm) : Prop := s.rxReplayCounter.any (n ≤ ·) = true

/-- The frame gets past the MIC check of `wpa_sm_rx_eapol`. -/
def verified (c : Conf) (f : EapolKey) (s : Sm) : Bool :=
  !decide (c.link = .wifi ∧ s.ptkSet ∧ s.ptk.installed) && formatOk s f &&
    !s.rxReplayCounter.any (f.replayCounter ≤ ·) && (!f.smk && f.ack && !f.request) && f.hasMic &&
    (verifyEapolKeyMic c f s).isSome

/-- The counter of a frame that is taken with a MIC. -/
def takenCounter (c : Conf) (s : Sm) : Event × Env → List ℕ
  | (.rxEapol f, _) => if verified c f s then [f.replayCounter] else []
  | _ => []

/-- The counters of the frames of a run that are taken with a MIC. -/
def takenCounters (c : Conf) (s : Sm) (es : List (Event × Env)) : List ℕ :=
  Lib.emitted (step c) (takenCounter c) s es

/-- No association. -/
def Event.stays : Event × Env → Bool
  | (.notifyAssoc _, _) => false
  | _ => true

/-- **What is not new is dropped.** -/
theorem rxEapol_of_reached (h : Reached f.replayCounter s) : wpaSmRxEapol c e f s = s := by
  unfold wpaSmRxEapol
  split
  · rfl
  split
  · rfl
  · exact if_pos h

/-! ## The handlers leave the counter alone -/

/-- The counter is the one of `s`. -/
def SameCounter (s t : Sm) : Prop := t.rxReplayCounter = s.rxReplayCounter

theorem sends_sameCounter (s : Sm) : Sends (SameCounter s) (SameCounter s) :=
  ⟨fun _ _ h => h, fun _ _ _ _ _ _ h => h, fun _ h => h, fun _ h => h, fun _ h => h⟩

theorem takePassphrase_counter (s : Sm) : SameCounter s (takePassphrase c s) := by
  rcases takePassphrase_cases c s with h | ⟨-, -, -, h⟩ <;> rw [h] <;> exact rfl

theorem get_pmk_counter (i : Option Bytes) (s : Sm) : SameCounter s (wpaSupplicantGetPmk e i s).2 := by
  rcases get_pmk_cases e i s with ⟨pmk, cur, -, h⟩ | ⟨-, -, r, -, -, h⟩ <;> rw [h] <;> exact rfl

theorem installPtk_counter (s : Sm) : SameCounter s (installPtk c e s).2 := by
  have hwritten : SameCounter s (ptkToInstall c s) := by
    unfold ptkToInstall
    split <;> exact rfl
  unfold installPtk
  simp only
  split
  · exact hwritten
  split
  · exact hwritten
  split
  · exact hwritten
  split <;> exact hwritten

theorem installGtk_counter (g : GtkKde) (s : Sm) : SameCounter s (installGtk e g s).2 := by
  rcases installGtk_cases e g s with ⟨-, h⟩ | ⟨-, key, ⟨-, h⟩ | ⟨-, h⟩⟩ <;> rw [h] <;> exact rfl

theorem dispatch_counter (s : Sm) : SameCounter s (dispatch c e f s) := by
  have hgtk : ∀ ie ∈ f.keyData.kde, ∀ g ∈ ie.gtk, ∀ t, SameCounter s t → SameCounter s (installGtk e g t).2 :=
    fun _ _ g _ t ht => (installGtk_counter g t).trans ht
  have hmsg3 : ∀ t, SameCounter s t → SameCounter s (process3Of4 c e f t) := fun t ht =>
    (sends_sameCounter s).process3Of4 (fun _ _ _ h => h) (fun u hu => (installPtk_counter u).trans hu)
      (fun _ h => h) hgtk (fun _ _ h => h) ht
  unfold dispatch
  split
  · split
    · rfl
    split
    · refine hmsg3 _ ?_
      split <;> exact rfl
    · exact (sends_sameCounter s).process1Of4 (takePassphrase_counter s)
        (fun i t ht => (get_pmk_counter i t).trans ht) (fun _ _ h => h)
  · split
    · exact (sends_sameCounter s).process1Of2 hgtk rfl
    · rfl

theorem verifyEapolKeyMic_counter (h : verifyEapolKeyMic c f s = some t) :
    t.rxReplayCounter = some f.replayCounter := by
  unfold verifyEapolKeyMic at h
  split at h
  · exact Option.some.inj h ▸ rfl
  split at h
  · exact Option.some.inj h ▸ rfl
  · cases h

/-- **A frame** moves the counter when its MIC verifies, whatever its handler makes of it. -/
theorem wpaSmRxEapol_counter (c : Conf) (e : Env) (f : EapolKey) (s : Sm) :
    (wpaSmRxEapol c e f s).rxReplayCounter =
      if verified c f s then some f.replayCounter else s.rxReplayCounter := by
  unfold wpaSmRxEapol
  split
  · rename_i hdeaf
    simp [verified, hdeaf]
  rename_i hdeaf
  split
  · rename_i hformat
    simp_all [verified]
  rename_i hformat
  split
  · rename_i hold
    simp [verified, hold]
  rename_i hold
  split
  · rename_i hkind
    have hno : (!f.smk && f.ack && !f.request) = false := by
      rcases hkind with h | h | h <;> simp_all
    simp [verified, hno]
  rename_i hkind
  have hchecks : verified c f s = (f.hasMic && (verifyEapolKeyMic c f s).isSome) := by
    have hyes : (!f.smk && f.ack && !f.request) = true := by simpa [and_assoc] using hkind
    simp only [Bool.not_eq_true, Bool.not_eq_false'] at hformat hold
    unfold verified
    rw [decide_eq_false hdeaf, hformat, hold, hyes]
    rfl
  rw [hchecks]
  by_cases hm : f.hasMic = true
  · rw [if_pos hm, hm, Bool.true_and]
    cases hv : verifyEapolKeyMic c f s with
    | none => rfl
    | some t =>
      have ht := verifyEapolKeyMic_counter hv
      simp only [Option.isSome_some, if_true]
      split
      · exact (dispatch_counter t).trans ht
      · exact ht
  · rw [if_neg hm, Bool.not_eq_true] at *
    simp only [hm, Bool.false_and, Bool.false_eq_true, if_false]
    split
    · exact dispatch_counter s
    · rfl

/-! ## Runs -/

/-- No other event than an association lowers the counter. -/
theorem step_counter (hx : Event.stays x = true) (h : step c s x = some t) :
    t.rxReplayCounter = s.rxReplayCounter ∨
      ∃ f, x.1 = .rxEapol f ∧ verified c f s = true ∧ t.rxReplayCounter = some f.replayCounter := by
  obtain ⟨ev, e⟩ := x
  have hreq : ∀ b b' (u : Sm), SameCounter u (wpaSmKeyRequest c e b b' u) := fun b b' u =>
    (sends_sameCounter u).keyRequest b b' rfl
  cases ev with
  | notifyAssoc => cases hx
  | rxEapol f =>
    obtain rfl := Option.some.inj h
    have hc := wpaSmRxEapol_counter c e f s
    split at hc
    · rename_i hv
      exact .inr ⟨f, rfl, hv, hc⟩
    · exact .inl hc
  | rekeyPtk =>
    left
    simp only [step] at h
    split at h
    · obtain rfl := Option.some.inj h
      unfold wpaSmRekeyPtk
      simp only
      split
      · split
        · split
          · rfl
          · exact hreq _ _ _
        · exact hreq _ _ _
      · exact hreq _ _ _
    · cases h
  | ptkTcp buf =>
    left
    simp only [step] at h
    split at h
    · obtain rfl := Option.some.inj h
      rw [wpaSmPtkTcpHandler_match]
      split
      · rfl
      · split <;> rfl
    · cases h
  | keyRequest b b' =>
    obtain rfl := Option.some.inj h
    exact .inl (hreq b b' s)
  | setPassphrase =>
    left
    simp only [step] at h
    split at h
    · exact Option.some.inj h ▸ rfl
    · cases h
  | notifyDisassoc | setPmk | config | setState => exact .inl (Option.some.inj h ▸ rfl)

theorem Reached.of_le (hle : n ≤ m) (h : Reached m s) : Reached n s := by
  obtain ⟨k, hk, hm⟩ := (Option.any_eq_true _ _).1 h
  exact (Option.any_eq_true _ _).2 ⟨k, hk, decide_eq_true (hle.trans (of_decide_eq_true hm))⟩

theorem mem_takenCounter (h : n ∈ takenCounter c s x) :
    ∃ f, x.1 = .rxEapol f ∧ verified c f s = true ∧ f.replayCounter = n := by
  unfold takenCounter at h
  split at h
  · rename_i f e
    split at h
    · rename_i hv
      exact ⟨f, rfl, hv, (List.mem_singleton.1 h).symm⟩
    · cases h
  · cases h

theorem not_reached_of_verified (h : verified c f s = true) : ¬ Reached f.replayCounter s := by
  simp only [verified, Bool.and_eq_true, Bool.not_eq_true'] at h
  exact fun hr => Bool.false_ne_true (h.1.1.1.2.symm.trans hr)

/-- **The counter is a watermark** of the machine between two associations. -/
theorem watermark (c : Conf) :
    Lib.Watermark (step c) (takenCounter c) (fun _ x => Event.stays x = true) (fun _ => True) Reached where
  inv _ _ h := h
  down := Reached.of_le
  keep := by
    intro n s x t hx hstep hn
    show t.rxReplayCounter.any (n ≤ ·) = true
    rcases step_counter hx hstep with heq | ⟨f, -, hv, heq⟩ <;> rw [heq]
    · exact hn
    · -- a verified frame is newer than everything before it
      have hlt : ¬ f.replayCounter ≤ n := fun hle => not_reached_of_verified hv (hn.of_le hle)
      rw [Option.any_some]
      exact decide_eq_true (not_le.1 hlt).le
  fresh := by
    rintro n s x - hn
    obtain ⟨f, -, hv, rfl⟩ := mem_takenCounter hn
    exact not_reached_of_verified hv
  noted := by
    rintro n s ⟨ev, e⟩ t - hstep hn
    obtain ⟨f, rfl, hv, rfl⟩ := mem_takenCounter hn
    obtain rfl := Option.some.inj hstep
    have hc := wpaSmRxEapol_counter c e f s
    rw [if_pos hv] at hc
    show (wpaSmRxEapol c e f s).rxReplayCounter.any (f.replayCounter ≤ ·) = true
    rw [hc]
    exact decide_eq_true le_rfl
  sorted := by
    intro s x
    unfold takenCounter
    split
    · split
      · exact List.pairwise_singleton _ _
      · exact .nil
    · exact .nil

/-- **No frame is taken twice.** Between two associations the counters of the frames that are taken with a MIC
grow; and whatever has such a counter, or an older one, changes nothing any more. -/
theorem replay_refused (hes : ∀ x ∈ es, Event.stays x = true) (hr : run c s es = some t) :
    (takenCounters c s es).Pairwise (· < ·) ∧
      ∀ n ∈ takenCounters c s es, ∀ (g : EapolKey) (e : Env), g.replayCounter ≤ n →
        step c t (.rxEapol g, e) = some t := by
  have hstay : Lib.Along (step c) (fun _ x => Event.stays x = true) s es :=
    (Lib.along_mem s fun _ h => h).mono fun _ x hx => hes x hx
  refine ⟨(watermark c).emitted_sorted trivial hstay, fun n hn g e hle => ?_⟩
  have ht : Reached n t := (watermark c).emitted_reached trivial hr hstay hn
  exact congrArg some (rxEapol_of_reached (ht.of_le hle))

/-- Message 1/4 for the plain station. -/
def hostapdMsg1 (replayCounter : ℕ) : EapolKey where
  type := 2
  ver := 2
  pairwise := true
  install := false
  ack := true
  hasMic := false
  secure := false
  error := false
  request := false
  smk := false
  keyIndex := 0
  keyLength := 16
  replayCounter := replayCounter
  nonce := List.replicate 32 7
  keyData := ⟨0, some ⟨none, none, none, none, none⟩, none⟩
  mic := List.replicate 16 0

/-- Message 3/4 for the plain station. -/
def hostapdMsg3 (replayCounter : ℕ) : EapolKey :=
  { hostapdMsg1 replayCounter with
    install := true, hasMic := true, secure := true
    keyData := ⟨46, some ⟨some plainRsne, none, none, some ⟨1, List.replicate 16 5⟩, none⟩, some plainKeys.kek⟩
    mic := plainKeys.kck }

/-- The plain station, which has associated with its PSK. -/
def associated : Sm :=
  (run (plainConf .lifi plainPrims) (.new wpa2Ccmp)
    [(.setPmk plainPmk.1 none, calm), (.notifyAssoc Addr.first, calm)]).get rfl

/-- A 4-way handshake whose message 3/4 comes again with a higher counter. -/
def handshakeTwice : List (Event × Env) :=
  [(.rxEapol (hostapdMsg1 1), calm), (.rxEapol (hostapdMsg3 2), calm), (.rxEapol (hostapdMsg3 3), calm)]

/-- The two messages 3/4 are taken, and neither is afterwards. -/
theorem replay_refused_twice : ∃ t, run (plainConf .lifi plainPrims) associated handshakeTwice = some t ∧
    takenCounters (plainConf .lifi plainPrims) associated handshakeTwice = [2, 3] ∧
    ([2, 3] : List ℕ).Pairwise (· < ·) ∧
      ∀ n ∈ [2, 3], ∀ (g : EapolKey) (e : Env), g.replayCounter ≤ n →
        step (plainConf .lifi plainPrims) t (.rxEapol g, e) = some t := by
  have hcounters : takenCounters (plainConf .lifi plainPrims) associated handshakeTwice = [2, 3] := by
    decide +kernel
  have hstays : ∀ x ∈ handshakeTwice, Event.stays x = true := by simp [handshakeTwice, Event.stays]
  refine ⟨_, rfl, hcounters, ?_⟩
  have h := replay_refused (c := plainConf .lifi plainPrims) (s := associated) hstays rfl
  rwa [hcounters] at h

end Lightguard.Supp
