import Lightguard.Auth.Rest
import Lightguard.Lib.Watermark

/-!
# The replay counters of the authenticator

`sm->key_replay` has the counters of the frames that have not been answered, the newest first, and
`sm->prev_key_replay` those that were left when a message 2/4 came. `wpa_auth_sta_associated` starts them over.

* `step_counters`: an event sends frames, or takes one answer and then sends.
* `sent_in_order`: between two associations the frames that are sent have growing counters.
* `watermark`: an answer uses up everything that is not newer.
* `answers_in_order`: the counters of the answers grow, and nothing else is taken with such a counter.
-/

namespace Lightguard.Auth

open Wpa

variable {c : Conf} {e : Env} {f : EapolKey} {s t u : Sm} {n m : ℕ} {x : Event × Env} {es : List (Event × Env)}
  {l : List ReplayCounter} {o o' : List Out}

/-! ## Counters -/

/-- The number of the last frame. -/
def issued (l : List ReplayCounter) : ℕ := (l.head?.map (·.number)).getD 0

/-- `__wpa_send_eapol` moves the counters up and takes the next one. -/
def push (l : List ReplayCounter) : List ReplayCounter := ⟨issued l + 1, true⟩ :: l.take 3

/-- Until the 8 octets are full a counter is the number of its frame. -/
theorem counter_eq {r : ReplayCounter} (h : r.number < 2 ^ 64) : r.counter = r.number := Nat.mod_eq_of_lt h

/-- The newest counter stands first. -/
def Ordered (l : List ReplayCounter) : Prop := l.Pairwise fun r r' => r'.number ≤ r.number

theorem Ordered.le_issued (h : Ordered l) : ∀ r ∈ l, r.number ≤ issued l := by
  cases l with
  | nil => exact fun r hr => absurd hr List.not_mem_nil
  | cons r l =>
    intro r' hr'
    rcases List.mem_cons.1 hr' with rfl | hr'
    · exact le_rfl
    · exact (List.pairwise_cons.1 h).1 r' hr'

theorem Ordered.push (h : Ordered l) : Ordered (push l) := by
  refine List.pairwise_cons.2 ⟨fun r hr => ?_, List.Pairwise.sublist (List.take_sublist 3 l) h⟩
  exact (h.le_issued r (List.mem_of_mem_take hr)).trans (Nat.le_succ _)

theorem ordered_noCounters : Ordered noCounters := List.pairwise_replicate.2 (.inr le_rfl)

theorem Ordered.mark (h : Ordered l) (n : Option ℕ) : Ordered (wpaReplayCounterMarkInvalid l n) := by
  refine List.Pairwise.map _ (fun r r' hle => ?_) h
  split <;> split <;> exact hle

theorem issued_mark (l : List ReplayCounter) (n : Option ℕ) :
    issued (wpaReplayCounterMarkInvalid l n) = issued l := by
  cases l with
  | nil => rfl
  | cons r l =>
    show (if _ then _ else r : ReplayCounter).number = r.number
    split <;> rfl

theorem push_iterate (k : ℕ) (l : List ReplayCounter) : issued (push^[k] l) = issued l + k := by
  induction k generalizing l with
  | zero => rfl
  | succ k ih =>
    rw [Function.iterate_succ_apply, ih]
    show issued l + 1 + k = _
    omega

/-- The frames whose counters are valid. -/
def validNumbers (l : List ReplayCounter) : List ℕ := (l.takeWhile (·.valid)).map (·.number)

/-- A counter that is valid is that of such a frame. -/
theorem valid_iff : wpaReplayCounterValid l n = true ↔ ∃ m ∈ validNumbers l, m % 2 ^ 64 = n := by
  simp [wpaReplayCounterValid, validNumbers, ReplayCounter.counter]

/-- Such a frame stands in the list with its mark. -/
theorem mem_of_valid (h : n ∈ validNumbers l) : (⟨n, true⟩ : ReplayCounter) ∈ l := by
  obtain ⟨r, hr, hn⟩ := List.mem_map.1 h
  have hv := List.mem_takeWhile_imp hr
  obtain ⟨k, v⟩ := r
  simp only at hn hv
  subst hn hv
  exact (List.takeWhile_prefix _).subset hr

/-- After all have been marked none is valid. -/
theorem mark_none {r : ReplayCounter} (h : r ∈ wpaReplayCounterMarkInvalid l none) : r.valid = false := by
  obtain ⟨r', -, rfl⟩ := List.mem_map.1 h
  rfl

/-- What a mark leaves valid was so. -/
theorem mark_mem {k : Option ℕ} (h : (⟨m, true⟩ : ReplayCounter) ∈ wpaReplayCounterMarkInvalid l k) :
    (⟨m, true⟩ : ReplayCounter) ∈ l := by
  obtain ⟨r, hr, heq⟩ := List.mem_map.1 h
  split at heq
  · cases heq
  · exact heq ▸ hr

/-- **An answer** leaves nothing valid before it in the list, and nothing older behind it. -/
theorem mark_valid_gt (ho : Ordered l) (hn : (⟨n, true⟩ : ReplayCounter) ∈ l) (hlt : n < 2 ^ 64)
    (hm : m ∈ validNumbers (wpaReplayCounterMarkInvalid l (some n))) : n < m := by
  induction l with
  | nil => cases hn
  | cons r l ih =>
    obtain ⟨hle, ho'⟩ := List.pairwise_cons.1 ho
    have hmark : ∀ l', wpaReplayCounterMarkInvalid (r :: l') (some n) =
        (if n = r.counter then { r with valid := false } else r) :: wpaReplayCounterMarkInvalid l' (some n) := by
      intro l'
      simp [wpaReplayCounterMarkInvalid]
    rw [hmark] at hm
    by_cases hr : n = r.counter
    -- the answered counter ends the valid ones
    · rw [if_pos hr] at hm
      simp [validNumbers] at hm
    · rw [if_neg hr] at hm
      have hn' : (⟨n, true⟩ : ReplayCounter) ∈ l := by
        rcases List.mem_cons.1 hn with rfl | hn
        · exact absurd (Nat.mod_eq_of_lt hlt).symm hr
        · exact hn
      by_cases hv : r.valid = true
      · rw [validNumbers, List.takeWhile_cons_of_pos hv, List.map_cons] at hm
        rcases List.mem_cons.1 hm with rfl | hm
        · have hne : n ≠ r.number := fun heq => hr (by rw [counter_eq (heq ▸ hlt), heq])
          exact lt_of_le_of_ne (hle _ hn') hne
        · exact ih ho' hn' hm
      · simp [validNumbers, hv] at hm

/-! ## Frames that are sent -/

/-- The counters of the frames that have been sent, the newest first. -/
def sentCounters (o : List Out) : List ℕ := o.filterMap fun | .sent f => some f.replayCounter | _ => none

/-- The counters stand in order between two bounds. -/
structure InOrder (lo hi : ℕ) (l : List ℕ) : Prop where
  sorted : l.Pairwise (· > ·)
  range : ∀ n ∈ l, lo < n ∧ n ≤ hi

theorem InOrder.nil {lo hi : ℕ} : InOrder lo hi [] := ⟨.nil, by simp⟩

theorem InOrder.append {lo mid hi : ℕ} {l l' : List ℕ} (h : InOrder lo mid l) (h' : InOrder mid hi l')
    (hlo : lo ≤ mid) (hhi : mid ≤ hi) : InOrder lo hi (l' ++ l) := by
  refine ⟨List.pairwise_append.2 ⟨h'.sorted, h.sorted, fun a ha b hb => ?_⟩, fun n hn => ?_⟩
  · exact ((h.range b hb).2).trans_lt (h'.range a ha).1
  · rcases List.mem_append.1 hn with hn | hn
    · exact ⟨hlo.trans_lt (h'.range n hn).1, (h'.range n hn).2⟩
    · exact ⟨(h.range n hn).1, (h.range n hn).2.trans hhi⟩

/-- Frames are sent; their counters grow until they start over. -/
structure Emits (s t : Sm) : Prop where
  le : issued s.keyReplay ≤ issued t.keyReplay
  trace : ∃ o, t.trace = o ++ s.trace ∧ (∀ n ∈ sentCounters o, n ≤ issued t.keyReplay) ∧
    (issued t.keyReplay < 2 ^ 64 → InOrder (issued s.keyReplay) (issued t.keyReplay) (sentCounters o))

theorem Emits.trans (h : Emits s t) (h' : Emits t u) : Emits s u := by
  obtain ⟨o, ho, hle, hin⟩ := h.trace
  obtain ⟨o', ho', hle', hin'⟩ := h'.trace
  refine ⟨h.le.trans h'.le, o' ++ o, by rw [ho', ho, List.append_assoc], ?_⟩
  rw [sentCounters, List.filterMap_append]
  refine ⟨fun n hn => ?_, fun hlt => (hin (h'.le.trans_lt hlt)).append (hin' hlt) h.le h'.le⟩
  rcases List.mem_append.1 hn with hn | hn
  · exact hle' n hn
  · exact (hle n hn).trans h'.le

/-- Frames are sent, and nothing else happens to the counters. -/
structure Issues (s t : Sm) : Prop extends Emits s t where
  prev : t.prevKeyReplay = s.prevKeyReplay
  pushed : ∃ k, t.keyReplay = push^[k] s.keyReplay

/-- No frame is sent and no counter changes. -/
structure Still (s t : Sm) : Prop where
  key : t.keyReplay = s.keyReplay
  prev : t.prevKeyReplay = s.prevKeyReplay
  trace : ∃ o, t.trace = o ++ s.trace ∧ sentCounters o = []

namespace Still

protected theorem refl (s : Sm) : Still s s := ⟨rfl, rfl, [], rfl, rfl⟩

protected theorem trans (h : Still s t) (h' : Still t u) : Still s u := by
  obtain ⟨o, ho, hs⟩ := h.trace
  obtain ⟨o', ho', hs'⟩ := h'.trace
  refine ⟨h'.key.trans h.key, h'.prev.trans h.prev, o' ++ o, by rw [ho', ho, List.append_assoc], ?_⟩
  rw [sentCounters, List.filterMap_append]
  exact List.append_eq_nil_iff.2 ⟨hs', hs⟩

/-- The trace stays as it is. -/
theorem of_eq (h : (t.keyReplay, t.prevKeyReplay, t.trace) = (s.keyReplay, s.prevKeyReplay, s.trace)) :
    Still s t := by
  simp only [Prod.mk.injEq] at h
  exact ⟨h.1, h.2.1, [], h.2.2, rfl⟩

/-- The first part comes last: the machine in the middle is known by then. -/
theorem after (h' : Still t u) (h : Still s t) : Still s u := h.trans h'

theorem issues (h : Still s t) : Issues s t := by
  obtain ⟨o, ho, hs⟩ := h.trace
  have hnone : ∀ n ∈ sentCounters o, n ≤ issued t.keyReplay := by simp [hs]
  exact ⟨⟨h.key ▸ le_rfl, o, ho, hnone, fun _ => hs ▸ .nil⟩, h.prev, 0, h.key⟩

end Still

namespace Issues

protected theorem refl (s : Sm) : Issues s s := (Still.refl s).issues

protected theorem trans (h : Issues s t) (h' : Issues t u) : Issues s u := by
  obtain ⟨k, hk⟩ := h.pushed
  obtain ⟨k', hk'⟩ := h'.pushed
  exact ⟨h.toEmits.trans h'.toEmits, h'.prev.trans h.prev, k' + k, by rw [hk', hk, Function.iterate_add_apply]⟩

theorem after (h' : Issues t u) (h : Issues s t) : Issues s u := h.trans h'

theorem of_eq (h : (t.keyReplay, t.prevKeyReplay, t.trace) = (s.keyReplay, s.prevKeyReplay, s.trace)) :
    Issues s t := (Still.of_eq h).issues

theorem ordered (h : Issues s t) (hs : Ordered s.keyReplay) : Ordered t.keyReplay := by
  obtain ⟨k, hk⟩ := h.pushed
  rw [hk]
  clear hk h
  induction k generalizing s with
  | zero => exact hs
  | succ k ih =>
    rw [Function.iterate_succ_apply']
    exact (ih hs).push

end Issues

/-- A frame gets the next counter. -/
theorem eapolFrame_counter {b : KeyBody} (h : eapolFrame c b s = some f) :
    f.replayCounter = (issued s.keyReplay + 1) % 2 ^ 64 := by
  unfold eapolFrame at h
  simp only at h
  split at h
  · exact Option.some.inj h ▸ rfl
  split at h
  · exact Option.some.inj h ▸ rfl
  · cases h

/-- **A frame is sent**, or cannot be; its counter is used up in any case. -/
theorem wpaSendEapol_issues (b : KeyBody) (s : Sm) : Issues s (wpaSendEapol c b s) := by
  have hnext : issued (wpaSendEapol c b s).keyReplay = issued s.keyReplay + 1 := rfl
  refine ⟨⟨Nat.le_succ _, _, rfl, ?_⟩, rfl, 1, rfl⟩
  rw [hnext]
  cases hf : eapolFrame c b s with
  | none => exact ⟨nofun, fun _ => .nil⟩
  | some g =>
    have hlist : sentCounters ((some g).map Out.sent).toList = [(issued s.keyReplay + 1) % 2 ^ 64] := by
      rw [← eapolFrame_counter hf]
      rfl
    rw [hlist]
    refine ⟨fun n hn => ?_, fun hlt => ⟨List.pairwise_singleton _ _, fun n hn => ?_⟩⟩
    · rw [List.mem_singleton.1 hn]
      exact Nat.mod_le _ _
    · rw [List.mem_singleton.1 hn, Nat.mod_eq_of_lt hlt]
      exact ⟨Nat.lt_succ_self _, le_rfl⟩

/-! ## The machine sends -/

theorem delKeys_still (s : Sm) : sentCounters (delKeys e s.neg) = [] := by
  unfold delKeys
  split <;> rfl

theorem wpaRemovePtk_still (s : Sm) : Still s (wpaRemovePtk e s) := ⟨rfl, rfl, _, rfl, delKeys_still s⟩

theorem wpaStaDisconnect_still (s : Sm) : Still s (wpaStaDisconnect e s) := by
  have hclosed : Still s { (s.out .disconnect).out .portClosed with
      deauthenticationRequest := true, changed := true } := ⟨rfl, rfl, [.portClosed, .disconnect], rfl, rfl⟩
  exact hclosed.trans (wpaRemovePtk_still _)

theorem searchOut_still (h : ∀ x ∈ o, x.looked = true) : sentCounters o = [] := by
  refine List.filterMap_eq_nil_iff.2 fun x hx => ?_
  have hlook := h x hx
  cases x <;> first | rfl | cases hlook

theorem enterInitialize_issues (s : Sm) : Issues s (enterInitialize e s) := by
  have hremoved : Still s (enterInitialize e s) :=
    ⟨rfl, rfl, .portClosed :: delKeys e s.neg, rfl, delKeys_still s⟩
  exact hremoved.issues

theorem enterDisconnect_issues (s : Sm) : Issues s (enterDisconnect e s) :=
  (wpaStaDisconnect_still _).issues.after (.of_eq rfl)

theorem enterAuthentication2_issues (s : Sm) : Issues s (enterAuthentication2 e s) := by
  unfold enterAuthentication2
  cases e.random <;> exact .of_eq rfl

theorem enterInitpmk_issues (s : Sm) : Issues s (enterInitpmk e s) := by
  unfold enterInitpmk
  simp only
  split
  · exact .of_eq rfl
  split
  · exact .of_eq rfl
  split
  · exact .of_eq rfl
  split <;> exact .of_eq rfl

theorem enterPtkstart_issues (s : Sm) : Issues s (enterPtkstart c e s) := by
  unfold enterPtkstart
  simp only
  split
  · exact .of_eq rfl
  · exact (wpaSendEapol_issues _ _).after (.of_eq rfl)

theorem enterPtkcalcnegotiating_issues (s : Sm) : Issues s (enterPtkcalcnegotiating c e s) := by
  have hsearch : Still s (calcSearched c e s) := ⟨rfl, rfl, _, rfl, searchOut_still calcSearch_looked⟩
  have hpmk : ∀ p, Still s { calcSearched c e s with pmk := p } := fun _ => hsearch.trans (.of_eq rfl)
  unfold enterPtkcalcnegotiating
  cases (calcSearch c e s).2 with
  | none => exact hsearch.issues
  | some r =>
    obtain ⟨pmk, ptk⟩ := r
    cases checkIes s with
    | unreadable => exact (hpmk _).issues
    | mismatch => exact ((wpaStaDisconnect_still _).after (hpmk _)).issues
    | same =>
      have hadopted : Still (calcSearched c e s) (calcAdopted c e pmk ptk s) :=
        ⟨rfl, rfl, [.newPtk (.derived pmk s.aNonce s.sNonce) ptk], rfl, rfl⟩
      exact (hsearch.trans hadopted).issues

theorem enterPtkinitnegotiating_issues (s : Sm) : Issues s (enterPtkinitnegotiating c e s) := by
  unfold enterPtkinitnegotiating
  simp only
  split
  · exact .of_eq rfl
  split
  · exact .of_eq rfl
  split
  · have hkey : Still s ({ s.enter .ptkinitnegotiating with
        timeoutEvt := false, timeoutCtr := s.timeoutCtr + 1 }.out (.setKey .ptkinitnegotiating s.keyidxActive
          (s.ptk.tkBuf s.neg.pairwise.keyLen) e.setKey)) := ⟨rfl, rfl, [_], rfl, rfl⟩
    split
    · exact hkey.issues.trans (wpaSendEapol_issues _ _)
    · exact (hkey.trans (wpaStaDisconnect_still _)).issues
  · exact (wpaSendEapol_issues _ _).after (.of_eq rfl)

theorem openPort_still (site : Site) (s : Sm) : Still s (openPort site s) := by
  refine ⟨rfl, rfl, _, rfl, ?_⟩
  unfold portCalls
  split <;> rfl

theorem enterPtkinitdone_issues (s : Sm) : Issues s (enterPtkinitdone c e s) := by
  have hdone : Still s (doneEntered e s) := by
    refine ⟨rfl, rfl, (if s.pair then doneKeys e s else []) ++ [.ptkinitdone s.ptk], ?_, ?_⟩
    · show _ ++ _ :: _ = _
      rw [List.append_assoc]
      rfl
    · unfold doneKeys
      split
      · split <;> rfl
      · rfl
  have hset : Still s ({ doneEntered e s with pairwiseSet := true }.setPtkRekeyTimer c) := hdone.trans (.of_eq rfl)
  unfold enterPtkinitdone
  split
  · split
    · exact (hset.trans (openPort_still _ _)).issues
    · exact (hdone.trans (wpaStaDisconnect_still _)).issues
  · have hport : Still (doneEntered e s) (openPortNoPair (doneEntered e s)) :=
      ⟨rfl, rfl, [.portValid .ptkinitdone], rfl, rfl⟩
    exact (hdone.trans hport).issues

theorem smStepState_issues (s : Sm) : Issues s (smStepState c e s) := by
  have hstart := enterPtkstart_issues (c := c) (e := e) s
  have hcalc := enterPtkcalcnegotiating_issues (c := c) (e := e) s
  have hneg := enterPtkinitnegotiating_issues (c := c) (e := e) s
  have hpmk := enterInitpmk_issues (e := e) s
  have hdisc := enterDisconnect_issues (e := e) s
  unfold smStepState
  cases s.state with
  | initState | ptkinitdone => exact .refl s
  | disconnect | ptkcalcnegotiating2 =>
    first
    | exact hneg
    | exact .of_eq rfl
  | disconnected => exact enterInitialize_issues s
  | authentication => exact enterAuthentication2_issues s
  | authentication2 =>
    simp only
    split
    · exact hpmk
    split
    · exact .of_eq rfl
    split
    · exact hpmk
    · exact .refl s
  | initpmk | initpsk =>
    simp only
    split
    · exact hstart
    split
    · exact hstart
    · exact hdisc
  | ptkstart =>
    simp only
    split
    · exact hcalc
    split
    · exact hdisc
    split
    · exact hstart
    · exact .refl s
  | ptkcalcnegotiating =>
    simp only
    split
    · exact .of_eq rfl
    split
    · exact hcalc
    split
    · exact hstart
    · exact .refl s
  | ptkinitnegotiating =>
    simp only
    split
    · exact hcalc
    split
    · exact enterPtkinitdone_issues s
    split
    · exact hdisc
    split
    · exact hneg
    · exact .refl s

theorem smStepPtk_issues (s : Sm) : Issues s (smStepPtk c e s) := by
  unfold smStepPtk
  split
  · exact enterInitialize_issues s
  split
  · exact enterDisconnect_issues s
  split
  · exact .of_eq rfl
  split
  · have hcleared : Still s (enterAuthentication s) := ⟨rfl, rfl, [_], rfl, rfl⟩
    exact hcleared.issues
  split
  · exact enterAuthentication2_issues s
  split
  · cases e.random with
    | none => exact .of_eq rfl
    | some n => exact (enterPtkstart_issues _).after (.of_eq rfl)
  · exact smStepState_issues s

theorem enterRekeynegotiating_issues (s : Sm) : Issues s (enterRekeynegotiating c e s) := by
  unfold enterRekeynegotiating
  simp only
  split
  · exact .of_eq rfl
  split
  · exact .of_eq rfl
  · exact (wpaSendEapol_issues _ _).after (.of_eq rfl)

theorem smStepPtkGroup_issues (s : Sm) : Issues s (smStepPtkGroup c e s) := by
  have hneg := enterRekeynegotiating_issues (c := c) (e := e) s
  unfold smStepPtkGroup
  split
  · exact .of_eq rfl
  cases s.groupState with
  | idle =>
    simp only
    split
    · exact hneg
    · exact .refl s
  | rekeynegotiating =>
    simp only
    split
    · exact .of_eq rfl
    split
    · exact .of_eq rfl
    split
    · exact hneg
    · exact .refl s
  | keyerror | rekeyestablished => exact .of_eq rfl

/-- **`wpa_sm_step`** sends frames and leaves the counters of the others alone. -/
theorem wpaSmStep_issues (h : wpaSmStep c e s = some t) : Issues s t := by
  have hround : ∀ u, Issues s u → Issues s (smRound c e u) := by
    intro u hu
    have hclear : Issues u u.unchanged := .of_eq rfl
    exact hu.trans (hclear.trans ((smStepPtk_issues u.unchanged).trans (smStepPtkGroup_issues _)))
  exact smLoop_inv (I := Issues s) hround (.refl s) h

/-! ## Received frames -/

/-- A frame that is not a request gets past the checks of `wpa_receive`. -/
def taken (c : Conf) (e : Env) (f : EapolKey) (s : Sm) : Bool :=
  !decide (c.link = .wifi ∧ s.ptkValid ∧ s.pairwiseSet) && formatOk s f && !f.request &&
    (checkReplay s f).any fun r =>
      stateOk r (classify f) && !decide (classify f = .pairwise2 ∧ e.rejectForEntropy) && !f.ack && f.hasMic &&
        (checkMic c e f { r with micVerified := false }).1

theorem checkReplay_still (h : checkReplay s f = some t) : Still s t := by
  obtain ⟨_, _, _, _, rfl, -⟩ := checkReplay_eq h
  exact .of_eq rfl

theorem checkMic_still (c : Conf) (e : Env) (f : EapolKey) (s : Sm) : Still s (checkMic c e f s).2 := by
  have hcases := checkMic_cases c e f s
  generalize checkMic c e f s = q at hcases
  cases hcases with
  | unchecked | failed => exact .refl s
  | noMic => exact ⟨rfl, rfl, [.micSkipped], rfl, rfl⟩
  | verified => exact ⟨rfl, rfl, [.micVerified s.ptk], rfl, rfl⟩
  | alt =>
    have hlooked : sentCounters (searchOut (altSearch c e f s)) = [] := searchOut_still searchPmk_looked
    exact ⟨rfl, rfl, _ :: searchOut (altSearch c e f s), rfl, hlooked⟩
  | failedAlt => exact ⟨rfl, rfl, searchOut (altSearch c e f s), rfl, searchOut_still searchPmk_looked⟩

/-- What `wpa_receive` hands on has the counters of `s`. -/
def Next.Still (s : Sm) : Next → Prop
  | .ret t => Auth.Still s t
  | .step t => Auth.Still s t
  | .gone => True

theorem wpaRequestNewPtk_still (s : Sm) : Still s (wpaRequestNewPtk c s) := by
  unfold wpaRequestNewPtk
  split <;> exact .of_eq rfl

theorem handleRequest_still (h : Still s t) : Next.Still s (handleRequest c e f t) := by
  have hcounter : Still s (useRequestCounter f t) := h.trans (.of_eq rfl)
  have hnew : Still s (wpaRequestNewPtk c (useRequestCounter f t)) := hcounter.trans (wpaRequestNewPtk_still _)
  have hstored : Still s (storeFrame f (wpaRequestNewPtk c (useRequestCounter f t))) := hnew.trans (.of_eq rfl)
  unfold handleRequest
  split
  · exact h
  simp only
  split
  · split
    · trivial
    · exact hstored
  split
  · exact hstored
  · exact hcounter.trans (.of_eq rfl)

/-- **A frame** is taken and uses its counter, or the counters stay as they are. -/
theorem wpaReceive_counters (c : Conf) (e : Env) (f : EapolKey) (s : Sm) :
    taken c e f s = true ∧
      (∃ u, Still s u ∧ wpaReceive c e f s = .step (storeFrame f (useReplayCounter f u))) ∨
    taken c e f s = false ∧ Next.Still s (wpaReceive c e f s) := by
  unfold wpaReceive
  split
  · rename_i hdeaf
    exact .inr ⟨by simp [taken, hdeaf], .refl s⟩
  rename_i hdeaf
  split
  · rename_i hformat
    exact .inr ⟨by simp_all [taken], .refl s⟩
  rename_i hformat
  have hchecks : taken c e f s = (!f.request && (checkReplay s f).any fun r =>
      stateOk r (classify f) && !decide (classify f = .pairwise2 ∧ e.rejectForEntropy) && !f.ack && f.hasMic &&
        (checkMic c e f { r with micVerified := false }).1) := by
    simp only [Bool.not_eq_true', Bool.not_eq_false] at hformat
    unfold taken
    rw [decide_eq_false hdeaf, hformat]
    rfl
  rw [hchecks]
  cases hrep : checkReplay s f with
  | none => exact .inr ⟨by rw [Option.any_none, Bool.and_false], .refl s⟩
  | some r =>
    have hr := checkReplay_still hrep
    simp only [Option.any_some]
    split
    · rename_i hst
      exact .inr ⟨by simp_all, hr⟩
    rename_i hst
    split
    · rename_i hent
      exact .inr ⟨by simp [hent], hr.trans (wpaStaDisconnect_still r)⟩
    rename_i hent
    split
    · rename_i hbits
      refine .inr ⟨?_, hr⟩
      rcases hbits with h | h <;> simp_all
    rename_i hbits
    have hmic := checkMic_still c e f { r with micVerified := false }
    have hoff : Still s { r with micVerified := false } := hr.trans (.of_eq rfl)
    have hu : Still s (checkMic c e f { r with micVerified := false }).2 := hoff.trans hmic
    have hyes : (stateOk r (classify f) && !decide (classify f = .pairwise2 ∧ e.rejectForEntropy) && !f.ack &&
        f.hasMic) = true := by
      simp only [Bool.not_eq_true', Bool.not_eq_false, not_or] at hst hbits
      rw [hst, decide_eq_false hent, hbits.2]
      simp [hbits.1]
    rw [hyes, Bool.true_and]
    split
    · rename_i hno
      refine .inr ⟨?_, hu⟩
      rw [Bool.not_eq_true'] at hno
      rw [hno, Bool.and_false]
    rename_i hok
    rw [Bool.not_eq_true', Bool.not_eq_false] at hok
    rw [hok, Bool.and_true]
    split
    · rename_i hreq
      exact .inr ⟨by rw [hreq]; rfl, handleRequest_still hu⟩
    · rename_i hreq
      exact .inl ⟨by simpa using hreq, _, hu, rfl⟩

/-! ## Events -/

/-- No `wpa_auth_sta_associated`. -/
def Event.stays : Event × Env → Bool
  | (.staAssociated, _) => false
  | _ => true

/-- The machine after the counter of an answer has been used. -/
def answered (f : EapolKey) (u : Sm) : Sm := storeFrame f (useReplayCounter f u)

theorem tryInstall_still (site : Site) (ptk : Ptk) (s : Sm) : Still s (tryInstall c e site ptk s).2 := by
  rcases tryInstall_cases c e site ptk s with ⟨-, h⟩ | ⟨-, ⟨-, h⟩ | ⟨-, h⟩⟩ <;> rw [h]
  · exact ⟨rfl, rfl, [.newPtk .fork ptk], rfl, rfl⟩
  · exact ⟨rfl, rfl, [.setKey site 0 ptk.tk false, .newPtk .fork ptk], rfl, rfl⟩
  · exact ⟨rfl, rfl, [.setKey site 0 ptk.tk true, .newPtk .fork ptk], rfl, rfl⟩

theorem wpaAuthSmEvent_issues {w : WpaEvent} (h : wpaAuthSmEvent c e w s = some t) : Issues s t := by
  obtain ⟨u, hask, h⟩ := wpaAuthSmEvent_cases h
  have hu : Issues s u := by
    cases hask with
    | nothing => exact .refl s
    | @restart v hv =>
      have hv' : Issues s v := (wpaSmStep_issues hv).after (.of_eq rfl)
      exact hv'.trans (.of_eq rfl)
    | deauth | refuse | reauth => exact .of_eq rfl
  have hdrop : Still u u.ptkDropped := ⟨rfl, rfl, [.ptkCleared], rfl, rfl⟩
  rcases h with h | h | h
  · exact hu.trans (wpaSmStep_issues h)
  · exact hu.trans (hdrop.issues.trans (wpaSmStep_issues h))
  · exact hu.trans ((hdrop.trans (wpaRemovePtk_still _)).issues.trans (wpaSmStep_issues h))

theorem wpaRekeyPtk_issues (h : wpaRekeyPtk c e s = some t) : Issues s t := by
  have hoff : Still s { s with rekeyTimer := false } := .of_eq rfl
  unfold wpaRekeyPtk at h
  simp only at h
  split at h
  · have hin := hoff.trans (tryInstall_still (c := c) (e := e) .rekeyPtk customTestPtk _)
    split at h
    · exact Option.some.inj h ▸ hin.issues
    · exact (hin.trans (wpaRequestNewPtk_still _)).issues.trans (wpaSmStep_issues h)
  · exact (hoff.trans (wpaRequestNewPtk_still _)).issues.trans (wpaSmStep_issues h)

/-- **One event** sends frames, or takes an answer and then sends. -/
theorem step_counters (hx : Event.stays x = true) (h : step c s x = some t) :
    Issues s t ∨ ∃ f u, x.1 = .eapolKey f ∧ taken c x.2 f s = true ∧ Still s u ∧ Issues (answered f u) t := by
  obtain ⟨ev, e⟩ := x
  cases ev with
  | staAssociated => cases hx
  | eapolKey f =>
    rcases wpaReceive_counters c e f s with ⟨ht, u, hu, heq⟩ | ⟨-, hstill⟩
    · rw [step, heq] at h
      exact .inr ⟨f, u, rfl, ht, hu, wpaSmStep_issues h⟩
    · left
      rcases Next.run_cases h with hq | ⟨u, hq, h⟩ <;> rw [hq] at hstill
      · exact Still.issues hstill
      · exact (Still.issues hstill).trans (wpaSmStep_issues h)
  | sm w =>
    left
    simp only [step] at h
    split at h
    · have hassoc : Still s (s.out .associated) := ⟨rfl, rfl, [.associated], rfl, rfl⟩
      exact hassoc.issues.trans (wpaAuthSmEvent_issues h)
    · exact wpaAuthSmEvent_issues h
  | eapolTimeout =>
    left
    simp only [step] at h
    split at h
    · cases h
    · exact (wpaSmStep_issues h).after (.of_eq rfl)
  | rekeyPtk =>
    left
    simp only [step] at h
    split at h
    · exact wpaRekeyPtk_issues h
    · cases h
  | ptkTcp buf =>
    left
    simp only [step] at h
    split at h
    · obtain rfl := Option.some.inj h
      unfold wpaAuthInstallCustomPtkCb
      split
      · exact .refl s
      split
      · exact .refl s
      · exact (tryInstall_still _ _ s).issues
    · cases h
  | groupUpdate =>
    left
    simp only [step] at h
    split at h
    · exact (wpaSmStep_issues h).after (.of_eq rfl)
    · exact Option.some.inj h ▸ .of_eq rfl
  | notify => exact .inl (wpaSmStep_issues h)
  | assocReq | setPsks => exact .inl (Option.some.inj h ▸ .of_eq rfl)

/-! ## Frames that are sent, over runs -/

protected theorem Emits.refl (s : Sm) : Emits s s := (Issues.refl s).toEmits

theorem issued_answered (f : EapolKey) (u : Sm) : issued (answered f u).keyReplay = issued u.keyReplay :=
  (issued_mark _ _).trans (issued_mark _ _)

/-- An answer that is taken sends nothing yet. -/
theorem emits_answered (f : EapolKey) (u : Sm) : Emits u (answered f u) :=
  ⟨(issued_answered f u).ge, [], rfl, nofun, fun _ => .nil⟩

theorem step_emits (hx : Event.stays x = true) (h : step c s x = some t) : Emits s t := by
  rcases step_counters hx h with hi | ⟨f, u, -, -, hu, hi⟩
  · exact hi.toEmits
  · exact hu.issues.toEmits.trans ((emits_answered f u).trans hi.toEmits)

theorem run_emits (hes : ∀ x ∈ es, Event.stays x = true) (hr : run c s es = some t) : Emits s t :=
  Lib.run_inv_mem (I := Emits s) (fun _ x hx _ hs hstep => hs.trans (step_emits (hes x hx) hstep)) (.refl s) hr

/-- **Frames are sent in order.** Between two associations, and as long as the 8 octets of the counter are enough,
the counters of the frames that are sent grow, and all of them are new. -/
theorem sent_in_order (hes : ∀ x ∈ es, Event.stays x = true) (hr : run c s es = some t)
    (hlt : issued t.keyReplay < 2 ^ 64) :
    ∃ o, t.trace = o ++ s.trace ∧ (sentCounters o).Pairwise (· > ·) ∧
      ∀ n ∈ sentCounters o, issued s.keyReplay < n ∧ n ≤ issued t.keyReplay := by
  obtain ⟨o, ho, -, hin⟩ := (run_emits hes hr).trace
  exact ⟨o, ho, (hin hlt).sorted, (hin hlt).range⟩

theorem installCustomGtk_still (s : Sm) : Still s (installCustomGtk e s) := by
  unfold installCustomGtk
  split
  · exact ⟨rfl, rfl, [_], rfl, rfl⟩
  · exact .refl s

/-- **An association** starts the counters over, or goes on with them, or sends nothing. -/
theorem wpaAuthStaAssociated_issues (h : wpaAuthStaAssociated c e s = some t) :
    ∃ u, Still s u ∧ (Issues u t ∨ Issues { u with keyReplay := noCounters } t) := by
  have hstart : ∀ u : Sm, startAuthentication c e u = some t →
      Issues u t ∨ Issues { u with keyReplay := noCounters } t := by
    intro u hu
    unfold startAuthentication at hu
    split at hu
    · exact .inr ((wpaSmStep_issues hu).after (.of_eq rfl))
    · obtain ⟨v, hv, hu⟩ := Option.bind_eq_some_iff.1 hu
      have hv' : Issues u v := (wpaSmStep_issues hv).after (.of_eq rfl)
      have ht : Issues v t := (wpaSmStep_issues hu).after (.of_eq rfl)
      exact .inl (hv'.trans ht)
  have hin := tryInstall_still (c := c) (e := e) .fastPath customTestPtk s
  unfold wpaAuthStaAssociated at h
  split at h
  · simp only at h
    refine ⟨_, hin, ?_⟩
    split at h
    · have hdone : ∀ u, Still u (openPort .fastPath (installCustomGtk e u)) := fun u =>
        (installCustomGtk_still u).trans (openPort_still .fastPath _)
      exact .inl (Option.some.inj h ▸ (hdone _).issues)
    · exact hstart _ h
  · exact ⟨s, .refl s, hstart s h⟩

/-- No frame of an association is newer than the last one. -/
theorem associated_frames (h : step c s (.staAssociated, e) = some t) :
    ∃ o, t.trace = o ++ s.trace ∧ ∀ n ∈ sentCounters o, n ≤ issued t.keyReplay := by
  obtain ⟨u, hu, hi⟩ := wpaAuthStaAssociated_issues h
  obtain ⟨o, ho, hnone⟩ := hu.trace
  have hsent : ∃ o', t.trace = o' ++ u.trace ∧ ∀ n ∈ sentCounters o', n ≤ issued t.keyReplay := by
    rcases hi with hi | hi <;> obtain ⟨o', ho', hle, -⟩ := hi.trace <;> exact ⟨o', ho', hle⟩
  obtain ⟨o', ho', hle⟩ := hsent
  refine ⟨o' ++ (o ++ [.associated]), ?_, fun n hn => ?_⟩
  · rw [ho', ho]
    simp [Sm.out]
  · simp only [sentCounters, List.filterMap_append] at hn hnone hle
    rw [hnone] at hn
    rcases List.mem_append.1 hn with hn | hn
    · exact hle n hn
    · cases hn

/-- The plain station, associated: message 1/4 has been sent. -/
def associated : Sm :=
  (step (plainConf .lifi plainPrims) (.new wpa2Ccmp [plainPmk]) (.staAssociated, calm)).get rfl

theorem step_associated :
    step (plainConf .lifi plainPrims) (.new wpa2Ccmp [plainPmk]) (.staAssociated, calm) = some associated :=
  (Option.some_get _).symm

/-- The station's answers to messages 1/4 and 3/4. -/
def plainAnswers : List (Event × Env) :=
  [(.eapolKey (plainMsg2 1 (List.replicate 32 9) plainKeys.kck), calm), (.eapolKey (plainMsg4 2 plainKeys.kck), calm)]

theorem plainAnswers_stay : ∀ x ∈ plainAnswers, Event.stays x = true := by simp [plainAnswers, Event.stays]

/-- The plain station after its 4-way handshake. -/
def answeredBoth : Sm := (run (plainConf .lifi plainPrims) associated plainAnswers).get rfl

theorem run_plainAnswers : run (plainConf .lifi plainPrims) associated plainAnswers = some answeredBoth :=
  (Option.some_get _).symm

/-- Message 1/4 has the counter 1, message 3/4 the counter 2. -/
theorem sent_in_order_plain : issued associated.keyReplay = 1 ∧ sentCounters answeredBoth.trace = [2, 1] ∧
    ∃ o, answeredBoth.trace = o ++ associated.trace ∧ (sentCounters o).Pairwise (· > ·) ∧
      ∀ n ∈ sentCounters o, issued associated.keyReplay < n ∧ n ≤ issued answeredBoth.keyReplay :=
  ⟨rfl, rfl, sent_in_order plainAnswers_stay run_plainAnswers (by decide)⟩

/-! ## Answers -/

/-- The counters stand in order, whatever has happened. -/
theorem step_ordered (hs : Ordered s.keyReplay) (h : step c s x = some t) : Ordered t.keyReplay := by
  by_cases hx : Event.stays x = true
  · rcases step_counters hx h with hi | ⟨f, u, -, -, hu, hi⟩
    · exact hi.ordered hs
    · exact hi.ordered (((hu.key ▸ hs).mark _).mark _)
  obtain ⟨ev, e⟩ := x
  cases ev with
  | staAssociated =>
    obtain ⟨u, hu, hi | hi⟩ := wpaAuthStaAssociated_issues h
    · exact hi.ordered (hu.key ▸ hs)
    · exact hi.ordered ordered_noCounters
  | _ => exact absurd rfl hx

/-- Until the 8 octets are full a valid counter is the number of its frame. -/
theorem valid_number (ho : Ordered l) (hlt : issued l < 2 ^ 64) (hv : wpaReplayCounterValid l n = true) :
    n ∈ validNumbers l := by
  obtain ⟨m, hm, rfl⟩ := valid_iff.1 hv
  rw [Nat.mod_eq_of_lt ((ho.le_issued _ (mem_of_valid hm)).trans_lt hlt)]
  exact hm

/-- Whatever is not newer than `n` has been answered or is out of date. -/
structure Reached (n : ℕ) (s : Sm) : Prop where
  le : n ≤ issued s.keyReplay
  key : ∀ m, (⟨m, true⟩ : ReplayCounter) ∈ s.keyReplay → n < m
  prev : ∀ m ∈ validNumbers s.prevKeyReplay, n < m ∧ m ≤ issued s.keyReplay

namespace Reached

theorem of_le (hle : n ≤ m) (h : Reached m s) : Reached n s :=
  ⟨hle.trans h.le, fun k hk => hle.trans_lt (h.key k hk),
    fun k hk => ⟨hle.trans_lt (h.prev k hk).1, (h.prev k hk).2⟩⟩

/-- New frames have newer counters. -/
theorem issues (h : Reached n s) (hi : Issues s t) : Reached n t := by
  obtain ⟨k, hk⟩ := hi.pushed
  have hprev : ∀ m ∈ validNumbers t.prevKeyReplay, n < m ∧ m ≤ issued t.keyReplay := by
    rw [hi.prev]
    exact fun m hm => ⟨(h.prev m hm).1, (h.prev m hm).2.trans hi.le⟩
  refine ⟨h.le.trans hi.le, ?_, hprev⟩
  rw [hk]
  clear hk hi hprev
  induction k with
  | zero => exact h.key
  | succ k ih =>
    intro m hm
    rw [Function.iterate_succ_apply'] at hm
    rcases List.mem_cons.1 hm with heq | hm
    · obtain rfl := (ReplayCounter.mk.inj heq).1
      rw [push_iterate]
      exact Nat.lt_succ_of_le (h.le.trans (Nat.le_add_right _ _))
    · exact ih m (List.mem_of_mem_take hm)

/-- What an answer leaves is newer than `n` if what there was is. -/
theorem answered_of (ho : Ordered u.keyReplay) (hle : n ≤ issued u.keyReplay)
    (hprev : ∀ m ∈ validNumbers (wpaReplayCounterMarkInvalid u.keyReplay (some f.replayCounter)), n < m) :
    Reached n (answered f u) := by
  refine ⟨(issued_answered f u).symm ▸ hle, fun m hm => absurd (mark_none hm) Bool.noConfusion, fun m hm => ?_⟩
  rw [issued_answered]
  simp only [answered, storeFrame, useReplayCounter] at hm
  split at hm
  · exact ⟨hprev m hm, ho.le_issued _ (mark_mem (mem_of_valid hm))⟩
  · simp [validNumbers, noCounters] at hm

theorem answered (ho : Ordered u.keyReplay) (h : Reached n u) : Reached n (answered f u) :=
  answered_of ho h.le fun m hm => h.key m (mark_mem (mem_of_valid hm))

/-- **An answer** uses up what is not newer. -/
theorem of_valid (ho : Ordered u.keyReplay) (hlt : issued u.keyReplay < 2 ^ 64)
    (hv : wpaReplayCounterValid u.keyReplay f.replayCounter = true) :
    Reached f.replayCounter (Auth.answered f u) := by
  have hmem := valid_number ho hlt hv
  have hle := ho.le_issued _ (mem_of_valid hmem)
  exact answered_of ho hle fun _ hm => mark_valid_gt ho (mem_of_valid hmem) (hle.trans_lt hlt) hm

end Reached

/-- The counter of an answer to a frame that has not been answered. -/
def answerCounter (c : Conf) (s : Sm) : Event × Env → List ℕ
  | (.eapolKey f, e) =>
    if taken c e f s && wpaReplayCounterValid s.keyReplay f.replayCounter then [f.replayCounter] else []
  | _ => []

/-- The counters of the answers in a run. -/
def answerCounters (c : Conf) (s : Sm) (es : List (Event × Env)) : List ℕ :=
  Lib.emitted (step c) (answerCounter c) s es

theorem mem_answerCounter (h : n ∈ answerCounter c s x) :
    ∃ f, x.1 = .eapolKey f ∧ taken c x.2 f s = true ∧ f.replayCounter = n ∧
      wpaReplayCounterValid s.keyReplay f.replayCounter = true := by
  unfold answerCounter at h
  split at h
  · rename_i f e
    split at h
    · rename_i hv
      rw [Bool.and_eq_true] at hv
      exact ⟨f, rfl, hv.1, (List.mem_singleton.1 h).symm, hv.2⟩
    · cases h
  · cases h

/-- The counters stand in order, and the 8 octets have been enough. -/
structure Counts (s : Sm) : Prop where
  ordered : Ordered s.keyReplay
  fits : issued s.keyReplay < 2 ^ 64

/-- No association, and the 8 octets go on being enough. -/
def Stays (c : Conf) (s : Sm) (x : Event × Env) : Prop :=
  Event.stays x = true ∧ ∀ t ∈ step c s x, issued t.keyReplay < 2 ^ 64

theorem along_stays (hes : ∀ x ∈ es, Event.stays x = true) (hr : run c s es = some t)
    (hlt : issued t.keyReplay < 2 ^ 64) : Lib.Along (step c) (Stays c) s es := by
  induction es generalizing s with
  | nil => trivial
  | cons x es ih =>
    obtain ⟨u, hstep, hr'⟩ := Lib.run_cons.1 hr
    have hes' : ∀ y ∈ es, Event.stays y = true := fun y hy => hes y (List.mem_cons_of_mem _ hy)
    have hu : issued u.keyReplay < 2 ^ 64 := (run_emits hes' hr').le.trans_lt hlt
    refine .cons hstep ⟨hes x List.mem_cons_self, ?_⟩ (ih hes' hr')
    rintro v hv
    obtain rfl := Option.some.inj (hstep.symm.trans hv)
    exact hu

/-- **Answered counters are a watermark** of the machine between two associations. -/
theorem watermark (c : Conf) : Lib.Watermark (step c) (answerCounter c) (Stays c) Counts
    (fun n s => Ordered s.keyReplay ∧ Reached n s) where
  inv hx h hs := ⟨step_ordered hs.ordered h, hx.2 _ h⟩
  down hle h := ⟨h.1, h.2.of_le hle⟩
  keep := by
    rintro n s x t hx h ⟨ho, hn⟩
    refine ⟨step_ordered ho h, ?_⟩
    rcases step_counters hx.1 h with hi | ⟨f, u, -, -, hu, hi⟩
    · exact hn.issues hi
    · exact ((hn.issues hu.issues).answered (hu.key ▸ ho)).issues hi
  fresh := by
    rintro n s x hs hn ⟨-, hr⟩
    obtain ⟨f, -, -, rfl, hv⟩ := mem_answerCounter hn
    exact absurd (hr.key _ (mem_of_valid (valid_number hs.ordered hs.fits hv))) (lt_irrefl _)
  noted := by
    rintro n s ⟨ev, e⟩ t hs h hn
    obtain ⟨f, rfl, ht, rfl, hv⟩ := mem_answerCounter hn
    refine ⟨step_ordered hs.ordered h, ?_⟩
    rcases wpaReceive_counters c e f s with ⟨-, u, hu, heq⟩ | ⟨hno, -⟩
    · rw [step, heq] at h
      obtain ⟨ho, hlt⟩ := hs
      rw [← hu.key] at ho hlt hv
      exact (Reached.of_valid ho hlt hv).issues (wpaSmStep_issues h)
    · exact absurd (hno.symm.trans ht) Bool.false_ne_true
  sorted := by
    intro s x
    unfold answerCounter
    split
    · split
      · exact List.pairwise_singleton _ _
      · exact .nil
    · exact .nil

/-- A message 4/4 under the SNonce of an earlier message 2/4 has its own counter. -/
def SecondChance (s : Sm) (f : EapolKey) : Prop :=
  classify f = .pairwise4 ∧ s.altSnonceValid ∧ s.state = .ptkinitnegotiating ∧ f.replayCounter = s.altReplayCounter

/-- What is not newer than an answer is dropped, but for that message. -/
theorem eapolKey_refused (hs : Counts s) (h : Reached n s) (hf : f.request = false) (hle : f.replayCounter ≤ n)
    (hno : ¬ SecondChance s f) : step c s (.eapolKey f, e) = some s := by
  have hkey : ¬ wpaReplayCounterValid s.keyReplay f.replayCounter = true := fun hv =>
    absurd (h.key _ (mem_of_valid (valid_number hs.ordered hs.fits hv))) (not_lt.2 hle)
  have hprev : ¬ wpaReplayCounterValid s.prevKeyReplay f.replayCounter = true := by
    intro hv
    obtain ⟨m, hm, hcounter⟩ := valid_iff.1 hv
    obtain ⟨hgt, hm'⟩ := h.prev m hm
    rw [Nat.mod_eq_of_lt (hm'.trans_lt hs.fits)] at hcounter
    omega
  have hcheck : checkReplay s f = none := by
    unfold checkReplay
    rw [if_neg (by simp [hf]), if_neg hkey, if_neg fun hp => hprev hp.2.1]
    exact if_neg hno
  have hdrop : wpaReceive c e f s = .ret s := by
    unfold wpaReceive
    rw [hcheck]
    split
    · rfl
    split <;> rfl
  rw [step, hdrop]
  rfl

end Lightguard.Auth
