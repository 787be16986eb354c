import Lightguard.Auth.Replay
import Lightguard.Link.World
import Lightguard.Supp.Replay

/-!
# Replay protection over one link

From an association on, the frames on their way to the station may be lost, delayed, doubled and put in another
order, as long as hostapd has made them.

* `Behind`: the station's counter has not passed hostapd's.
* `next_not_replayed`: what hostapd sends next is no replay to the station.
-/

namespace Lightguard.Link

open Wpa

variable {c : Conf} {w w' w₀ w₁ : World} {ev : Event} {es : List Event} {l₀ : List Auth.Out}

/-- What may happen until the next association: the station receives what hostapd has sent since the trace `l₀`. -/
def Genuine (l₀ : List Auth.Out) (w : World) : Event → Prop
  | .inl x => Auth.Event.stays x = true
  | .inr x => Supp.Event.stays x = true ∧
      ∀ f, x.1 = .rxEapol f → ∃ o, w.1.trace = o ++ l₀ ∧ .sent f ∈ o

/-- The station's counter has not passed hostapd's, and neither has any frame. -/
structure Behind (l₀ : List Auth.Out) (w : World) : Prop where
  frames : ∃ o, w.1.trace = o ++ l₀ ∧ ∀ n ∈ Auth.sentCounters o, n ≤ Auth.issued w.1.keyReplay
  station : ∀ n ∈ w.2.rxReplayCounter, n ≤ Auth.issued w.1.keyReplay

theorem Behind.frame {f : EapolKey} {o : List Auth.Out} (h : Behind l₀ w) (ho : w.1.trace = o ++ l₀)
    (hf : .sent f ∈ o) : f.replayCounter ≤ Auth.issued w.1.keyReplay := by
  obtain ⟨o', ho', hle⟩ := h.frames
  obtain rfl : o = o' := List.append_cancel_right (ho.symm.trans ho')
  exact hle _ (List.mem_filterMap.2 ⟨_, hf, rfl⟩)

/-- **One step** of either end. -/
theorem step_behind (h : Behind l₀ w) (hg : Genuine l₀ w ev) (hstep : step c w ev = some w') :
    Behind l₀ w' := by
  cases ev with
  | inl x =>
    obtain ⟨s, hs, rfl⟩ := Option.map_eq_some_iff.1 hstep
    -- hostapd only moves up, and so do its frames
    obtain ⟨hle, o, ho, hnew, -⟩ := Auth.step_emits hg hs
    obtain ⟨o', ho', hle'⟩ := h.frames
    refine ⟨⟨o ++ o', by rw [ho, ho', List.append_assoc], fun n hn => ?_⟩, fun n hn => (h.station n hn).trans hle⟩
    rw [Auth.sentCounters, List.filterMap_append] at hn
    rcases List.mem_append.1 hn with hn | hn
    · exact hnew n hn
    · exact (hle' n hn).trans hle
  | inr x =>
    obtain ⟨s, hs, rfl⟩ := Option.map_eq_some_iff.1 hstep
    refine ⟨h.frames, fun n hn => ?_⟩
    rcases Supp.step_counter hg.1 hs with heq | ⟨f, hf, -, heq⟩
    · exact h.station n (heq ▸ hn)
    · obtain ⟨o, ho, hsent⟩ := hg.2 f hf
      obtain rfl : f.replayCounter = n := Option.some.inj (heq.symm.trans hn)
      exact h.frame ho hsent

/-- **hostapd's next frame is no replay.** hostapd associates the station, whose counter is not set. However its
frames reach the station from then on, the station's counter stays behind hostapd's; and the frame hostapd makes
next gets past the station's check of the counter, as long as 8 octets are enough for its number. -/
theorem next_not_replayed {e : Auth.Env} (hassoc : step c w₁ (.inl (.staAssociated, e)) = some w₀)
    (hsta : w₁.2.rxReplayCounter = none) (hes : Lib.Along (step c) (Genuine w₁.1.trace) w₀ es)
    (hr : run c w₀ es = some w) :
    (∀ n ∈ w.2.rxReplayCounter, n ≤ Auth.issued w.1.keyReplay) ∧
      ∀ (b : KeyBody) (f : EapolKey), Auth.eapolFrame c.ap b w.1 = some f → Auth.issued w.1.keyReplay + 1 < 2 ^ 64 →
        ¬ w.2.rxReplayCounter.any (f.replayCounter ≤ ·) = true := by
  have hstart : Behind w₁.1.trace w₀ := by
    obtain ⟨s, hs, rfl⟩ := Option.map_eq_some_iff.1 hassoc
    exact ⟨Auth.associated_frames hs, by simp [hsta]⟩
  have hend : Behind w₁.1.trace w :=
    Lib.along_inv (I := Behind w₁.1.trace) (fun _ _ _ h hg hstep => step_behind h hg hstep) hstart hes hr
  refine ⟨hend.station, fun b f hf hlt hold => ?_⟩
  obtain ⟨n, hn, hle⟩ := (Option.any_eq_true _ _).1 hold
  have hnext : f.replayCounter = Auth.issued w.1.keyReplay + 1 :=
    (Auth.eapolFrame_counter hf).trans (Nat.mod_eq_of_lt hlt)
  have hbehind := hend.station n hn
  have hle' : f.replayCounter ≤ n := of_decide_eq_true hle
  omega

/-- hostapd before the association, and the station after it. -/
def plainApart : World := (.new Auth.wpa2Ccmp [plainPmk], Supp.associated)

def plainJoined : World := (Auth.associated, Supp.associated)

/-- The frames of a 4-way handshake, each as the other end has sent it. -/
def plainExchange : List Event :=
  toAp (plainConf .lifi) plainJoined (toSta (plainConf .lifi) plainJoined
    (toAp (plainConf .lifi) plainJoined (toSta (plainConf .lifi) plainJoined [])))

/-- What is tested is enough when there was no trace before. -/
def heard (w : World) : Event → Bool
  | .inl x => Auth.Event.stays x
  | .inr x => Supp.Event.stays x && match x.1 with | .rxEapol f => decide (.sent f ∈ w.1.trace) | _ => true

theorem genuine_of_heard (h : heard w ev = true) : Genuine [] w ev := by
  cases ev with
  | inl x => exact h
  | inr x =>
    obtain ⟨ev, e⟩ := x
    simp only [heard, Bool.and_eq_true] at h
    refine ⟨h.1, ?_⟩
    rintro f rfl
    exact ⟨w.1.trace, (List.append_nil _).symm, of_decide_eq_true h.2⟩

/-- After the handshake the station's counter is 2, and hostapd's next frame is newer. -/
theorem next_not_replayed_plain : ∃ w, run (plainConf .lifi) plainJoined plainExchange = some w ∧
    (∀ n ∈ w.2.rxReplayCounter, n ≤ Auth.issued w.1.keyReplay) ∧
      ∀ (b : KeyBody) (f : EapolKey), Auth.eapolFrame (plainConf .lifi).ap b w.1 = some f →
        Auth.issued w.1.keyReplay + 1 < 2 ^ 64 → ¬ w.2.rxReplayCounter.any (f.replayCounter ≤ ·) = true := by
  have hisSome : (run (plainConf .lifi) plainJoined plainExchange).isSome = true := by decide +kernel
  obtain ⟨w, hw⟩ := Option.isSome_iff_exists.1 hisSome
  have hassoc : step (plainConf .lifi) plainApart (.inl (.staAssociated, Auth.calm)) = some plainJoined := by
    simp only [step, Lib.pairStep, Option.map_eq_some_iff]
    exact ⟨Auth.associated, Auth.step_associated, rfl⟩
  have hheard : Lib.Along (step (plainConf .lifi)) (fun w ev => heard w ev = true) plainJoined plainExchange := by
    decide +kernel
  have hgenuine : Lib.Along (step (plainConf .lifi)) (Genuine plainApart.1.trace) plainJoined plainExchange :=
    hheard.mono fun _ _ => genuine_of_heard
  exact ⟨w, hw, next_not_replayed hassoc rfl hgenuine hw⟩

end Lightguard.Link
