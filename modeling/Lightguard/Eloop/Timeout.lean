import Lightguard.Eloop.Clock
import Lightguard.Lib.Deadline
import Lightguard.Lib.History
import Lightguard.Lib.Run

/-!
# The timeouts of the event loop

`eloop.c`: `eloop_register_timeout`, `eloop_cancel_timeout`, `eloop_cancel_timeout_one`,
`eloop_is_timeout_registered`, `eloop_deplete_timeout`, `eloop_replenish_timeout`, and what one round of
the loop in `eloop_run` does with them. All timers of the daemons are such timeouts: the PTK rekey timer,
the retransmissions of EAPOL-Key frames, the expiration of PMKSA entries.

What a handler does when it is called is what happens next. The sockets are left out.

* `timeouts_law`: every timeout that is called was registered and is pending, due, and the first in order.
* `due_timeout_called`: a timeout that is due waits for no more rounds than there are timeouts before it.
* `cancelled_silent`: what has been cancelled is not called, until it is registered again.
* `deplete_replenish_bound`: how long the timeouts have left afterwards.
-/

namespace Lightguard.Eloop

variable {η γ : Type*}

/-- `struct eloop_timeout`. -/
structure Timeout (η γ : Type*) where
  time : Clock
  handler : η
  eloopData : γ
  userData : γ
deriving DecidableEq

/-- What happens to timeouts. -/
inductive Out (η γ : Type*) where
  | registered (t : Timeout η γ)
  /-- The handler is called, at this time. -/
  | called (t : Timeout η γ) (now : Clock)
  | cancelled (t : Timeout η γ)
deriving DecidableEq

/-- `eloop.timeout`, the clock, and what has happened, the newest first. -/
structure World (η γ : Type*) where
  now : Clock
  timeout : List (Timeout η γ)
  trace : List (Out η γ)

/-- After `eloop_init`. -/
def World.init (now : Clock) : World η γ := ⟨now, [], []⟩

/-- When a timeout is due. -/
def Timeout.due (t : Timeout η γ) : ℤ := t.time.micros

/-- `eloop_register_timeout`; `alloc`: there is memory for it. A timeout that is too long to ever happen is
ignored. -/
def eloopRegisterTimeout (secs usecs : UInt32) (h : η) (e u : γ) (alloc : Bool) (w : World η γ) :
    ℤ × World η γ :=
  if !alloc then (-1, w)
  else match w.now.after secs usecs with
    | none => (0, w)
    | some time =>
      let t : Timeout η γ := ⟨time, h, e, u⟩
      (0, { w with timeout := Lib.enqueue Timeout.due t w.timeout, trace := .registered t :: w.trace })

theorem eloopRegisterTimeout_cases (secs usecs : UInt32) (h : η) (e u : γ) (alloc : Bool) (w : World η γ) :
    (eloopRegisterTimeout secs usecs h e u alloc w).2 = w ∨
      alloc = true ∧ ∃ time, w.now.after secs usecs = some time ∧
        (eloopRegisterTimeout secs usecs h e u alloc w).2 =
          { w with
            timeout := Lib.enqueue Timeout.due ⟨time, h, e, u⟩ w.timeout
            trace := .registered ⟨time, h, e, u⟩ :: w.trace } := by
  unfold eloopRegisterTimeout
  cases alloc with
  | false => exact .inl rfl
  | true =>
    cases hafter : w.now.after secs usecs with
    | none => exact .inl rfl
    | some time => exact .inr ⟨rfl, time, rfl, rfl⟩

/-- What a round of the loop in `eloop_run` does with the timeouts: the first one is called when it is due. -/
def roundTimeouts (w : World η γ) : World η γ :=
  match w.timeout with
  | [] => w
  | t :: l => if w.now.1.before t.time.1 then w else { w with timeout := l, trace := .called t w.now :: w.trace }

/-- The first timeout is called when it is due. -/
theorem roundTimeouts_cases (w : World η γ) :
    roundTimeouts w = w ∧ (∀ t l, w.timeout = t :: l → w.now.micros < t.due) ∨
      ∃ t l, w.timeout = t :: l ∧ t.due ≤ w.now.micros ∧
        roundTimeouts w = { w with timeout := l, trace := .called t w.now :: w.trace } := by
  unfold roundTimeouts
  cases hl : w.timeout with
  | nil => exact .inl ⟨rfl, nofun⟩
  | cons t l =>
    by_cases hb : w.now.1.before t.time.1 = true
    · refine .inl ⟨if_pos hb, ?_⟩
      rintro t' l' heq
      obtain ⟨rfl, rfl⟩ := List.cons_eq_cons.1 heq
      exact Clock.before_iff.1 hb
    · exact .inr ⟨t, l, rfl, not_lt.1 (mt Clock.before_iff.2 hb), if_neg hb⟩

/-- The timeouts found with `dl_list_for_each`. -/
theorem find_split {m : Timeout η γ → Bool} {l : List (Timeout η γ)} {t : Timeout η γ}
    (h : l.find? m = some t) :
    ∃ p q, l = p ++ t :: q ∧ l.eraseP m = p ++ q ∧ m t = true ∧ ∀ x ∈ p, m x = false := by
  obtain ⟨ht, p, q, rfl, hp⟩ := List.find?_eq_some_iff_append.1 h
  have hp' : ∀ x ∈ p, m x = false := fun x hx => by simpa using hp x hx
  refine ⟨p, q, rfl, ?_, ht, hp'⟩
  rw [List.eraseP_append_right _ (by simpa using hp'), List.eraseP_cons_of_pos ht]

variable [DecidableEq η] [DecidableEq γ]

/-- The timeout is one of the handler with these data. -/
def Timeout.is (h : η) (e u : γ) (t : Timeout η γ) : Bool :=
  t.handler = h && t.eloopData = e && t.userData = u

/-- The handler and the data are those asked for, where `none` stands for `ELOOP_ALL_CTX`. -/
def covers (h : η) (e u : Option γ) (h' : η) (e' u' : γ) : Bool :=
  h' = h && e.all (e' = ·) && u.all (u' = ·)

/-- The timeout is one of those asked for. -/
def Timeout.isAny (h : η) (e u : Option γ) (t : Timeout η γ) : Bool :=
  covers h e u t.handler t.eloopData t.userData

/-- `eloop_cancel_timeout`: how many timeouts have been removed. -/
def eloopCancelTimeout (h : η) (e u : Option γ) (w : World η γ) : ℕ × World η γ :=
  let removed := w.timeout.filter (Timeout.isAny h e u)
  (removed.length,
    { w with
      timeout := w.timeout.filter fun t => !t.isAny h e u
      trace := (removed.map .cancelled).reverse ++ w.trace })

/-- `eloop_cancel_timeout_one`: what was left of the first timeout. -/
def eloopCancelTimeoutOne (h : η) (e u : γ) (w : World η γ) : Option Reltime × World η γ :=
  match w.timeout.find? (Timeout.is h e u) with
  | none => (none, w)
  | some t =>
    (some (if w.now.1.before t.time.1 then t.time.sub w.now else ⟨0, 0⟩),
      { w with timeout := w.timeout.eraseP (Timeout.is h e u), trace := .cancelled t :: w.trace })

/-- `eloop_is_timeout_registered`. -/
def eloopIsTimeoutRegistered (h : η) (e u : γ) (w : World η γ) : Bool := w.timeout.any (Timeout.is h e u)

/-- The end of `eloop_deplete_timeout` and `eloop_replenish_timeout`. -/
def restart (secs usecs : UInt32) (h : η) (e u : γ) (alloc : Bool) (w : World η γ) : World η γ :=
  (eloopRegisterTimeout secs usecs h e u alloc (eloopCancelTimeout h (some e) (some u) w).2).2

/-- `eloop_deplete_timeout`. -/
def eloopDepleteTimeout (secs usecs : UInt32) (h : η) (e u : γ) (alloc : Bool) (w : World η γ) :
    ℤ × World η γ :=
  match w.timeout.find? (Timeout.is h e u) with
  | none => (-1, w)
  | some tmp =>
    if Reltime.before ⟨Int64.ofNat secs.toNat, usecs.toNat⟩ (tmp.time.sub w.now) then
      (1, restart secs usecs h e u alloc w)
    else (0, w)

/-- `eloop_replenish_timeout`. -/
def eloopReplenishTimeout (secs usecs : UInt32) (h : η) (e u : γ) (alloc : Bool) (w : World η γ) :
    ℤ × World η γ :=
  match w.timeout.find? (Timeout.is h e u) with
  | none => (-1, w)
  | some tmp =>
    if (tmp.time.sub w.now).before ⟨Int64.ofNat secs.toNat, usecs.toNat⟩ then
      (1, restart secs usecs h e u alloc w)
    else (0, w)

/-- What happens. -/
inductive Event (η γ : Type*) where
  /-- The clock moves on. -/
  | pass (now : Clock)
  | register (secs usecs : UInt32) (h : η) (e u : γ) (alloc : Bool)
  | cancel (h : η) (e u : Option γ)
  | cancelOne (h : η) (e u : γ)
  | deplete (secs usecs : UInt32) (h : η) (e u : γ) (alloc : Bool)
  | replenish (secs usecs : UInt32) (h : η) (e u : γ) (alloc : Bool)
  | round
deriving DecidableEq

/-- One event. -/
def step (w : World η γ) : Event η γ → Option (World η γ)
  | .pass now => if now.1.before w.now.1 then none else some { w with now := now }
  | .register secs usecs h e u alloc => some (eloopRegisterTimeout secs usecs h e u alloc w).2
  | .cancel h e u => some (eloopCancelTimeout h e u w).2
  | .cancelOne h e u => some (eloopCancelTimeoutOne h e u w).2
  | .deplete secs usecs h e u alloc => some (eloopDepleteTimeout secs usecs h e u alloc w).2
  | .replenish secs usecs h e u alloc => some (eloopReplenishTimeout secs usecs h e u alloc w).2
  | .round => some (roundTimeouts w)

/-- A run of the loop. -/
abbrev run (w : World η γ) (es : List (Event η γ)) : Option (World η γ) := Lib.run step w es

/-! ## The law -/

/-- The timeouts that have been registered and neither called nor cancelled. -/
def pending : List (Out η γ) → List (Timeout η γ)
  | [] => []
  | .registered t :: l => t :: pending l
  | .called t _ :: l => (pending l).erase t
  | .cancelled t :: l => (pending l).erase t

/-- A call is of a pending timeout that is due, and no other one is due before it; what is cancelled is
pending. -/
def Legal (o : Out η γ) (old : List (Out η γ)) : Prop :=
  match o with
  | .registered _ => True
  | .called t now => t ∈ pending old ∧ t.due ≤ now.micros ∧ ∀ u ∈ pending old, t.due ≤ u.due
  | .cancelled t => t ∈ pending old

/-- What holds of every state. -/
structure Inv (w : World η γ) : Prop where
  inOrder : Lib.InOrder Timeout.due w.timeout
  waiting : w.timeout.Perm (pending w.trace)
  legal : Lib.Always Legal w.trace

variable {w w' : World η γ} {t : Timeout η γ} {h : η} {e u : γ} {secs usecs : UInt32} {alloc : Bool}

/-- **What is cancelled** is no longer pending. -/
theorem cancelled_law {l : List (Out η γ)} {removed kept : List (Timeout η γ)}
    (hl : (removed ++ kept).Perm (pending l)) (hlegal : Lib.Always Legal l) :
    kept.Perm (pending ((removed.map .cancelled).reverse ++ l)) ∧
      Lib.Always Legal ((removed.map .cancelled).reverse ++ l) := by
  induction removed generalizing l with
  | nil => exact ⟨hl, hlegal⟩
  | cons r removed ih =>
    have hr : r ∈ pending l := hl.subset (by simp)
    have herase := hl.erase r
    rw [List.cons_append, List.erase_cons_head] at herase
    simpa using ih (l := .cancelled r :: l) herase ⟨hr, hlegal⟩

theorem Inv.register (hw : Inv w) : Inv (eloopRegisterTimeout secs usecs h e u alloc w).2 := by
  rcases eloopRegisterTimeout_cases secs usecs h e u alloc w with heq | ⟨-, time, -, heq⟩
  · rwa [heq]
  · rw [heq]
    exact ⟨hw.inOrder.enqueue, (Lib.enqueue_perm _ _ _).trans (hw.waiting.cons _), trivial, hw.legal⟩

theorem Inv.cancel {e u : Option γ} (hw : Inv w) : Inv (eloopCancelTimeout h e u w).2 := by
  have hsplit := List.filter_append_perm (Timeout.isAny h e u) w.timeout
  obtain ⟨h1, h2⟩ := cancelled_law (hsplit.trans hw.waiting) hw.legal
  exact ⟨hw.inOrder.sublist List.filter_sublist, h1, h2⟩

theorem Inv.cancelOne (hw : Inv w) : Inv (eloopCancelTimeoutOne h e u w).2 := by
  unfold eloopCancelTimeoutOne
  cases hf : w.timeout.find? (Timeout.is h e u) with
  | none => exact hw
  | some t =>
    obtain ⟨p, q, hl, herase, -, -⟩ := find_split hf
    have hperm : ([t] ++ (p ++ q)).Perm (pending w.trace) := by
      rw [List.singleton_append, ← List.perm_middle.congr_left, ← hl]
      exact hw.waiting
    obtain ⟨h1, h2⟩ := cancelled_law hperm hw.legal
    refine ⟨hw.inOrder.sublist (List.eraseP_sublist), ?_, h2⟩
    simpa [herase] using h1

theorem Inv.deplete (hw : Inv w) : Inv (eloopDepleteTimeout secs usecs h e u alloc w).2 := by
  unfold eloopDepleteTimeout
  split
  · exact hw
  split
  · exact hw.cancel.register
  · exact hw

theorem Inv.replenish (hw : Inv w) : Inv (eloopReplenishTimeout secs usecs h e u alloc w).2 := by
  unfold eloopReplenishTimeout
  split
  · exact hw
  split
  · exact hw.cancel.register
  · exact hw

theorem Inv.round (hw : Inv w) : Inv (roundTimeouts w) := by
  rcases roundTimeouts_cases w with ⟨heq, -⟩ | ⟨t, l, hl, hdue, heq⟩
  · rwa [heq]
  · have hord := hw.inOrder
    have hperm := hw.waiting
    rw [hl] at hord hperm
    have herase := hperm.erase t
    rw [List.erase_cons_head] at herase
    rw [heq]
    refine ⟨hord.of_cons, herase, ⟨hperm.subset List.mem_cons_self, hdue, fun u hu => ?_⟩, hw.legal⟩
    exact hord.head_le (hperm.symm.subset hu)

theorem step_inv {ev : Event η γ} (hw : Inv w) (hs : step w ev = some w') : Inv w' := by
  cases ev with
  | pass now =>
    simp only [step] at hs
    split at hs
    · cases hs
    · obtain rfl := Option.some.inj hs
      exact ⟨hw.inOrder, hw.waiting, hw.legal⟩
  | register => exact Option.some.inj hs ▸ hw.register
  | cancel => exact Option.some.inj hs ▸ hw.cancel
  | cancelOne => exact Option.some.inj hs ▸ hw.cancelOne
  | deplete => exact Option.some.inj hs ▸ hw.deplete
  | replenish => exact Option.some.inj hs ▸ hw.replenish
  | round => exact Option.some.inj hs ▸ hw.round

theorem init_inv (now : Clock) : Inv (World.init now : World η γ) := ⟨List.Pairwise.nil, .nil, trivial⟩

theorem run_inv {now : Clock} {es : List (Event η γ)} (hr : run (World.init now) es = some w) : Inv w :=
  Lib.run_inv (fun _ _ _ => step_inv) (init_inv now) hr

/-- **The law of the timeouts.** In every run: what is called was registered and is pending, is due and is
the first of those pending; what is cancelled is pending; and what is pending is in the list. -/
theorem timeouts_law (now : Clock) (es : List (Event η γ)) :
    ∀ w ∈ run (World.init now) es,
      Lib.Always Legal w.trace ∧ w.timeout.Perm (pending w.trace) := by
  intro w hr
  have hw := run_inv hr
  exact ⟨hw.legal, hw.waiting⟩

/-- A round calls the first of two timeouts. -/
theorem timeouts_law_first : ∃ w, run (World.init Clock.zero : World ℕ ℕ)
    [.register 0 0 1 0 0 true, .register 0 0 2 0 0 true, .round] = some w ∧
      Lib.Always Legal w.trace ∧ w.timeout.Perm (pending w.trace) :=
  ⟨_, rfl, timeouts_law Clock.zero [.register 0 0 1 0 0 true, .register 0 0 2 0 0 true, .round] _ rfl⟩

/-! ## No timeout is starved -/

/-- The timeout has been called or cancelled. -/
def Gone (t : Timeout η γ) (l : List (Out η γ)) : Prop := .cancelled t ∈ l ∨ ∃ now, .called t now ∈ l

/-- The timeout is due, with at most `n` timeouts before it. -/
def Stands (t : Timeout η γ) (n : ℕ) (w : World η γ) : Prop :=
  t.due ≤ w.now.micros ∧ ∃ p q, w.timeout = p ++ t :: q ∧ p.length ≤ n

/-- What a step that adds `l` to the trace leaves of a timeout that is due. -/
def Leaves (t : Timeout η γ) (n : ℕ) (w w' : World η γ) : Prop :=
  ∃ l, w'.trace = l ++ w.trace ∧ (Gone t l ∨ Stands t n w')

variable {n : ℕ}

omit [DecidableEq η] [DecidableEq γ] in
theorem Gone.append {l l' : List (Out η γ)} (h : Gone t l ∨ Gone t l') : Gone t (l ++ l') := by
  rcases h with (h | ⟨now, h⟩) | (h | ⟨now, h⟩)
  · exact .inl (List.mem_append_left _ h)
  · exact .inr ⟨now, List.mem_append_left _ h⟩
  · exact .inl (List.mem_append_right _ h)
  · exact .inr ⟨now, List.mem_append_right _ h⟩

omit [DecidableEq η] [DecidableEq γ] in
theorem Stands.stay (h : Stands t n w) : Leaves t n w w := ⟨[], rfl, .inr h⟩

/-- A new timeout is due no earlier than now. -/
theorem Stands.register (hw : Inv w) (hst : Stands t n w) :
    Leaves t n w (eloopRegisterTimeout secs usecs h e u alloc w).2 := by
  obtain ⟨hdue, p, q, hl, hp⟩ := hst
  rcases eloopRegisterTimeout_cases secs usecs h e u alloc w with heq | ⟨-, time, hafter, heq⟩
  · rw [heq]
    exact ⟨[], rfl, .inr ⟨hdue, p, q, hl, hp⟩⟩
  · have htime := Clock.after_iff.1 hafter
    have hord := hw.inOrder
    rw [hl] at hord
    rw [heq]
    refine ⟨[_], rfl, .inr ⟨hdue, p, Lib.enqueue Timeout.due ⟨time, h, e, u⟩ q, ?_, hp⟩⟩
    rw [hl]
    exact Lib.enqueue_behind hord (by simp only [Timeout.due] at hdue ⊢; omega)

theorem Stands.cancel {e u : Option γ} (hst : Stands t n w) :
    Leaves t n w (eloopCancelTimeout h e u w).2 := by
  obtain ⟨hdue, p, q, hl, hp⟩ := hst
  refine ⟨_, rfl, ?_⟩
  by_cases hm : t.isAny h e u = true
  · refine .inl (.inl ?_)
    simp [hl, hm]
  · refine .inr ⟨hdue, p.filter (fun x => !x.isAny h e u), q.filter (fun x => !x.isAny h e u), ?_, ?_⟩
    · simp [eloopCancelTimeout, hl, hm]
    · exact (List.length_filter_le _ p).trans hp

theorem Stands.cancelOne (hst : Stands t n w) : Leaves t n w (eloopCancelTimeoutOne h e u w).2 := by
  obtain ⟨hdue, p, q, hl, hp⟩ := hst
  unfold eloopCancelTimeoutOne
  cases hf : w.timeout.find? (Timeout.is h e u) with
  | none => exact Stands.stay ⟨hdue, p, q, hl, hp⟩
  | some r =>
    refine ⟨[_], rfl, ?_⟩
    rw [hl, List.find?_append] at hf
    simp only [hl]
    cases hfp : p.find? (Timeout.is h e u) with
    | some x =>
      -- one before it goes
      have hany := List.find?_isSome.1 (Option.isSome_of_eq_some hfp)
      refine .inr ⟨hdue, p.eraseP (Timeout.is h e u), q, ?_, ?_⟩
      · obtain ⟨x, hx, hmx⟩ := hany
        exact List.eraseP_append_left hmx _ hx
      · exact (List.length_eraseP_le).trans hp
    | none =>
      have hnone : ∀ x ∈ p, ¬ Timeout.is h e u x = true := by simpa using hfp
      rw [hfp, Option.none_or, List.find?_cons] at hf
      cases hm : Timeout.is h e u t with
      | true =>
        rw [hm] at hf
        obtain rfl := Option.some.inj hf
        exact .inl (.inl List.mem_cons_self)
      | false =>
        refine .inr ⟨hdue, p, q.eraseP (Timeout.is h e u), ?_, hp⟩
        rw [List.eraseP_append_right _ hnone, List.eraseP_cons_of_neg (by simp [hm])]

omit [DecidableEq η] [DecidableEq γ] in
/-- Two steps, of which the second one is given. -/
theorem Leaves.then {v : World η γ} (h1 : Leaves t n w v) (h2 : ∃ l, w'.trace = l ++ v.trace)
    (h3 : Stands t n v → Leaves t n v w') : Leaves t n w w' := by
  obtain ⟨l, hl, hg | hst⟩ := h1
  · obtain ⟨l', hl'⟩ := h2
    exact ⟨l' ++ l, by rw [hl', hl, List.append_assoc], .inl (.append (.inr hg))⟩
  · obtain ⟨l', hl', h⟩ := h3 hst
    exact ⟨l' ++ l, by rw [hl', hl, List.append_assoc], h.imp (fun hg => .append (.inl hg)) id⟩

omit [DecidableEq η] [DecidableEq γ] in
theorem register_trace (secs usecs : UInt32) (h : η) (e u : γ) (alloc : Bool) (w : World η γ) :
    ∃ l, (eloopRegisterTimeout secs usecs h e u alloc w).2.trace = l ++ w.trace := by
  rcases eloopRegisterTimeout_cases secs usecs h e u alloc w with heq | ⟨-, time, -, heq⟩
  · exact ⟨[], by rw [heq]; rfl⟩
  · exact ⟨[_], by rw [heq]; rfl⟩

theorem Stands.restart (hw : Inv w) (hst : Stands t n w) :
    Leaves t n w (restart secs usecs h e u alloc w) :=
  hst.cancel.then (register_trace _ _ _ _ _ _ _) fun h' => h'.register hw.cancel

theorem Stands.deplete (hw : Inv w) (hst : Stands t n w) :
    Leaves t n w (eloopDepleteTimeout secs usecs h e u alloc w).2 := by
  unfold eloopDepleteTimeout
  split
  · exact hst.stay
  split
  · exact hst.restart hw
  · exact hst.stay

theorem Stands.replenish (hw : Inv w) (hst : Stands t n w) :
    Leaves t n w (eloopReplenishTimeout secs usecs h e u alloc w).2 := by
  unfold eloopReplenishTimeout
  split
  · exact hst.stay
  split
  · exact hst.restart hw
  · exact hst.stay

/-- In a round a timeout that is due is called, or one before it is. -/
theorem Stands.round (hw : Inv w) (hst : Stands t n w) :
    ∃ l, (roundTimeouts w).trace = l ++ w.trace ∧ (Gone t l ∨ ∃ m, n = m + 1 ∧ Stands t m (roundTimeouts w)) := by
  obtain ⟨hdue, p, q, hl, hp⟩ := hst
  rcases roundTimeouts_cases w with ⟨-, hlate⟩ | ⟨x, l, hx, hxdue, heq⟩
  · exfalso
    have hord := hw.inOrder
    cases p with
    | nil => exact absurd hdue (not_le.2 (hlate t q hl))
    | cons x p =>
      rw [hl] at hord
      have := hlate x _ hl
      have := hord.head_le (b := t) (by simp)
      omega
  · rw [heq]
    refine ⟨[_], rfl, ?_⟩
    rw [hl] at hx
    cases p with
    | nil =>
      obtain ⟨rfl, -⟩ := List.cons_eq_cons.1 hx
      exact .inl (.inr ⟨_, List.mem_cons_self⟩)
    | cons y p =>
      obtain ⟨rfl, rfl⟩ := List.cons_eq_cons.1 hx
      simp only [List.length_cons] at hp
      exact .inr ⟨n - 1, by omega, hdue, p, q, rfl, by omega⟩

/-- A step adds to the trace. -/
theorem step_trace {ev : Event η γ} (hs : step w ev = some w') : ∃ l, w'.trace = l ++ w.trace := by
  have hrestart : ∀ secs usecs h e u alloc, ∃ l, (restart secs usecs h e u alloc w).trace = l ++ w.trace := by
    intro secs usecs h e u alloc
    obtain ⟨l, hl⟩ := register_trace secs usecs h e u alloc (eloopCancelTimeout h (some e) (some u) w).2
    exact ⟨l ++ _, by rw [restart, hl, List.append_assoc]; rfl⟩
  cases ev with
  | pass now =>
    simp only [step] at hs
    split at hs
    · cases hs
    · obtain rfl := Option.some.inj hs
      exact ⟨[], rfl⟩
  | register =>
    obtain rfl := Option.some.inj hs
    exact register_trace _ _ _ _ _ _ w
  | cancel =>
    obtain rfl := Option.some.inj hs
    exact ⟨_, rfl⟩
  | cancelOne =>
    obtain rfl := Option.some.inj hs
    unfold eloopCancelTimeoutOne
    split
    · exact ⟨[], rfl⟩
    · exact ⟨[_], rfl⟩
  | deplete =>
    obtain rfl := Option.some.inj hs
    unfold eloopDepleteTimeout
    split
    · exact ⟨[], rfl⟩
    split
    · exact hrestart _ _ _ _ _ _
    · exact ⟨[], rfl⟩
  | replenish =>
    obtain rfl := Option.some.inj hs
    unfold eloopReplenishTimeout
    split
    · exact ⟨[], rfl⟩
    split
    · exact hrestart _ _ _ _ _ _
    · exact ⟨[], rfl⟩
  | round =>
    obtain rfl := Option.some.inj hs
    rcases roundTimeouts_cases w with ⟨heq, -⟩ | ⟨t, l, -, -, heq⟩
    · exact ⟨[], by rw [heq]; rfl⟩
    · exact ⟨[_], by rw [heq]; rfl⟩

theorem step_leaves {ev : Event η γ} (hw : Inv w) (hst : Stands t n w) (hs : step w ev = some w') :
    Leaves t n w w' := by
  cases ev with
  | pass now =>
    simp only [step] at hs
    split at hs
    · cases hs
    · rename_i hb
      obtain rfl := Option.some.inj hs
      have hle := not_lt.1 (mt Clock.before_iff.2 hb)
      exact ⟨[], rfl, .inr ⟨hst.1.trans hle, hst.2⟩⟩
  | register => exact Option.some.inj hs ▸ hst.register hw
  | cancel => exact Option.some.inj hs ▸ hst.cancel
  | cancelOne => exact Option.some.inj hs ▸ hst.cancelOne
  | deplete => exact Option.some.inj hs ▸ hst.deplete hw
  | replenish => exact Option.some.inj hs ▸ hst.replenish hw
  | round =>
    obtain rfl := Option.some.inj hs
    obtain ⟨l, hl, hg | ⟨m, rfl, hdue, p, q, hp, hlen⟩⟩ := hst.round hw
    · exact ⟨l, hl, .inl hg⟩
    · exact ⟨l, hl, .inr ⟨hdue, p, q, hp, by omega⟩⟩

theorem run_trace {es : List (Event η γ)} (hr : run w es = some w') : ∃ l, w'.trace = l ++ w.trace := by
  refine Lib.run_inv (I := fun v => ∃ l, v.trace = l ++ w.trace) ?_ ⟨[], rfl⟩ hr
  rintro v ev v' ⟨l, hl⟩ hs
  obtain ⟨l', hl'⟩ := step_trace hs
  exact ⟨l' ++ l, by rw [hl', hl, List.append_assoc]⟩

/-- The rounds that a timeout waits, from any state. -/
theorem stands_called {es : List (Event η γ)} (hw : Inv w) (hst : Stands t n w) (hr : run w es = some w')
    (hn : n < es.count .round) : ∃ l, w'.trace = l ++ w.trace ∧ Gone t l := by
  induction es generalizing w n with
  | nil => simp at hn
  | cons ev es ih =>
    obtain ⟨v, hs, hr'⟩ := Lib.run_cons.1 hr
    have hv := step_inv hw hs
    -- what is still to come, whichever way the timeout has gone
    have hrest : ∀ m l, v.trace = l ++ w.trace → (Gone t l ∨ Stands t m v ∧ m < es.count .round) →
        ∃ l, w'.trace = l ++ w.trace ∧ Gone t l := by
      rintro m l hl (hg | ⟨hst', hm⟩)
      · obtain ⟨l', hl'⟩ := run_trace hr'
        exact ⟨l' ++ l, by rw [hl', hl, List.append_assoc], .append (.inr hg)⟩
      · obtain ⟨l', hl', hg⟩ := ih hv hst' hr' hm
        exact ⟨l' ++ l, by rw [hl', hl, List.append_assoc], .append (.inl hg)⟩
    by_cases hround : ev = .round
    · subst hround
      obtain rfl := Option.some.inj hs
      rw [List.count_cons_self] at hn
      obtain ⟨l, hl, hg | ⟨m, rfl, hst'⟩⟩ := hst.round hw
      · exact hrest 0 l hl (.inl hg)
      · exact hrest m l hl (.inr ⟨hst', by omega⟩)
    · rw [List.count_cons_of_ne hround] at hn
      obtain ⟨l, hl, hg | hst'⟩ := step_leaves hw hst hs
      · exact hrest 0 l hl (.inl hg)
      · exact hrest n l hl (.inr ⟨hst', hn⟩)

/-- **No timeout is starved.** A timeout that is due with `p` before it has been called or cancelled after
`p.length + 1` rounds of the loop, whatever the handlers and sockets register meanwhile. Timeouts with the same
time, handler and data are not told apart. -/
theorem due_timeout_called {start : Clock} {es es' : List (Event η γ)} {p q : List (Timeout η γ)}
    (hw : run (World.init start) es = some w) (hl : w.timeout = p ++ t :: q) (hdue : t.due ≤ w.now.micros)
    (hr : run w es' = some w') (hn : p.length < es'.count .round) :
    ∃ l, w'.trace = l ++ w.trace ∧ (.cancelled t ∈ l ∨ ∃ now, .called t now ∈ l) :=
  stands_called (run_inv hw) ⟨hdue, p, q, hl, le_rfl⟩ hr hn

/-- The second of two timeouts is called in the second round, before one that is registered meanwhile. -/
theorem due_timeout_called_second : ∃ l, ([.called ⟨Clock.zero, 2, 0, 0⟩ Clock.zero,
      .registered ⟨Clock.zero, 3, 0, 0⟩, .called ⟨Clock.zero, 1, 0, 0⟩ Clock.zero,
      .registered ⟨Clock.zero, 2, 0, 0⟩, .registered ⟨Clock.zero, 1, 0, 0⟩] : List (Out ℕ ℕ)) =
        l ++ [.registered ⟨Clock.zero, 2, 0, 0⟩, .registered ⟨Clock.zero, 1, 0, 0⟩] ∧
      (.cancelled ⟨Clock.zero, 2, 0, 0⟩ ∈ l ∨ ∃ now, .called ⟨Clock.zero, 2, 0, 0⟩ now ∈ l) :=
  due_timeout_called
    (show run (World.init Clock.zero) [.register 0 0 1 0 0 true, .register 0 0 2 0 0 true] =
      some ⟨Clock.zero, [⟨Clock.zero, 1, 0, 0⟩, ⟨Clock.zero, 2, 0, 0⟩],
        [.registered ⟨Clock.zero, 2, 0, 0⟩, .registered ⟨Clock.zero, 1, 0, 0⟩]⟩ from rfl)
    (show _ = [⟨Clock.zero, 1, 0, 0⟩] ++ ⟨Clock.zero, 2, 0, 0⟩ :: [] from rfl) (by decide)
    (show run _ [.round, .register 0 0 3 0 0 true, .round] =
      some ⟨Clock.zero, [⟨Clock.zero, 3, 0, 0⟩], _⟩ from rfl) (by decide)

/-! ## What is cancelled stays silent -/

/-- The event registers a timeout of those asked for. -/
def Event.registers (h : η) (e u : Option γ) : Event η γ → Bool
  | .register _ _ h' e' u' _ => covers h e u h' e' u'
  | _ => false

/-- None of those asked for is pending, and none has been called since the trace `l`. -/
structure Silent (h : η) (e u : Option γ) (l : List (Out η γ)) (w : World η γ) : Prop where
  none : ∀ t ∈ w.timeout, t.isAny h e u = false
  trace : ∃ new, w.trace = new ++ l ∧ ∀ t now, .called t now ∈ new → t.isAny h e u = false

section Silent

variable {e u : Option γ} {l : List (Out η γ)}

theorem Silent.register {h' : η} {e' u' : γ} (hw : Silent h e u l w) (hno : covers h e u h' e' u' = false) :
    Silent h e u l (eloopRegisterTimeout secs usecs h' e' u' alloc w).2 := by
  rcases eloopRegisterTimeout_cases secs usecs h' e' u' alloc w with heq | ⟨-, time, -, heq⟩
  · rwa [heq]
  · rw [heq]
    obtain ⟨new, hnew, hcalled⟩ := hw.trace
    refine ⟨fun t ht => ?_, .registered ⟨time, h', e', u'⟩ :: new, by simp [hnew], fun t now ht => ?_⟩
    · rcases Lib.mem_enqueue.1 ht with rfl | ht
      · exact hno
      · exact hw.none t ht
    · exact hcalled t now (by simpa using ht)

theorem Silent.cancel {h' : η} {e' u' : Option γ} (hw : Silent h e u l w) :
    Silent h e u l (eloopCancelTimeout h' e' u' w).2 := by
  obtain ⟨new, hnew, hcalled⟩ := hw.trace
  refine ⟨fun t ht => hw.none t (List.filter_sublist.subset ht), _ ++ new,
    by rw [List.append_assoc, ← hnew]; rfl, fun t now ht => ?_⟩
  rw [List.mem_append] at ht
  exact hcalled t now (ht.resolve_left (by simp))

/-- The timeout is restarted only where there is one already. -/
theorem Silent.restart {h' : η} {e' u' : γ} (hw : Silent h e u l w)
    (hf : w.timeout.find? (Timeout.is h' e' u') = some t) :
    Silent h e u l (restart secs usecs h' e' u' alloc w) := by
  obtain ⟨p, q, hl, -, ht, -⟩ := find_split hf
  have hno := hw.none t (by rw [hl]; simp)
  simp only [Timeout.is, Bool.and_eq_true, decide_eq_true_eq] at ht
  obtain ⟨⟨rfl, rfl⟩, rfl⟩ := ht
  exact hw.cancel.register hno

theorem step_silent {ev : Event η γ} (hw : Silent h e u l w) (hev : ev.registers h e u = false)
    (hs : step w ev = some w') : Silent h e u l w' := by
  cases ev with
  | pass now =>
    simp only [step] at hs
    split at hs
    · cases hs
    · obtain rfl := Option.some.inj hs
      exact ⟨hw.none, hw.trace⟩
  | register => exact Option.some.inj hs ▸ hw.register hev
  | cancel => exact Option.some.inj hs ▸ hw.cancel
  | cancelOne h' e' u' =>
    obtain rfl := Option.some.inj hs
    unfold eloopCancelTimeoutOne
    split
    · exact hw
    · obtain ⟨new, hnew, hcalled⟩ := hw.trace
      refine ⟨fun t ht => hw.none t (List.mem_of_mem_eraseP ht), _ :: new, by rw [hnew]; rfl, fun t now ht => ?_⟩
      exact hcalled t now (by simpa using ht)
  | deplete =>
    obtain rfl := Option.some.inj hs
    unfold eloopDepleteTimeout
    split
    · exact hw
    split
    · exact hw.restart ‹_›
    · exact hw
  | replenish =>
    obtain rfl := Option.some.inj hs
    unfold eloopReplenishTimeout
    split
    · exact hw
    split
    · exact hw.restart ‹_›
    · exact hw
  | round =>
    obtain rfl := Option.some.inj hs
    rcases roundTimeouts_cases w with ⟨heq, -⟩ | ⟨t, k, hk, -, heq⟩
    · rwa [heq]
    · rw [heq]
      obtain ⟨new, hnew, hcalled⟩ := hw.trace
      refine ⟨fun x hx => hw.none x (by rw [hk]; exact List.mem_cons_of_mem _ hx), .called t w.now :: new,
        by simp [hnew], fun x now hx => ?_⟩
      rcases List.mem_cons.1 hx with hx | hx
      · cases hx
        exact hw.none t (by rw [hk]; exact List.mem_cons_self)
      · exact hcalled x now hx

/-- **What is cancelled stays silent.** After `eloop_cancel_timeout`, in any state, none of the timeouts
asked for is called in any run in which none of them is registered; depleting and replenishing bring none
of them back. -/
theorem cancelled_silent (w : World η γ) (h : η) (e u : Option γ) (es : List (Event η γ))
    (hes : ∀ ev ∈ es, ev.registers h e u = false) :
    ∀ w' ∈ run (eloopCancelTimeout h e u w).2 es,
      ∃ new, w'.trace = new ++ (eloopCancelTimeout h e u w).2.trace ∧
        ∀ t now, .called t now ∈ new → t.isAny h e u = false := by
  intro w' hr
  have hsilent : Silent h e u (eloopCancelTimeout h e u w).2.trace (eloopCancelTimeout h e u w).2 := by
    refine ⟨fun t ht => ?_, [], rfl, fun t now ht => ?_⟩
    · simpa using (List.mem_filter.1 ht).2
    · cases ht
  exact (Lib.run_inv_mem (fun _ ev hev _ hw => step_silent hw (hes ev hev)) hsilent hr).trace

/-- All timeouts of handler `1` are cancelled, and handler `2` goes on. -/
theorem cancelled_silent_other : ∃ w', run (eloopCancelTimeout 1 none none
      (⟨Clock.zero, [⟨Clock.zero, 1, 0, 0⟩, ⟨Clock.zero, 2, 0, 0⟩], []⟩ : World ℕ ℕ)).2
        [.round, .replenish 1 0 1 0 0 true, .round] = some w' ∧
    ∃ new, w'.trace = new ++ (eloopCancelTimeout 1 none none
        (⟨Clock.zero, [⟨Clock.zero, 1, 0, 0⟩, ⟨Clock.zero, 2, 0, 0⟩], []⟩ : World ℕ ℕ)).2.trace ∧
      ∀ t now, .called t now ∈ new → t.isAny 1 none none = false :=
  ⟨_, rfl, cancelled_silent _ 1 none none [.round, .replenish 1 0 1 0 0 true, .round] (by decide) _ rfl⟩

end Silent

/-! ## Depleting and replenishing -/

/-- What a restarted timeout leaves in the list. -/
theorem restart_timeout (hafter : (w.now.after secs usecs).isSome) :
    ∃ time : Clock, time.micros = w.now.micros + secs.toNat * 1000000 + usecs.toNat ∧
      (restart secs usecs h e u true w).timeout =
        Lib.enqueue Timeout.due ⟨time, h, e, u⟩ (w.timeout.filter fun t => !t.is h e u) := by
  obtain ⟨time, htime⟩ := Option.isSome_iff_exists.1 hafter
  refine ⟨time, Clock.after_iff.1 htime, ?_⟩
  have hcancel : (eloopCancelTimeout h (some e) (some u) w).2.timeout = w.timeout.filter fun t => !t.is h e u :=
    rfl
  rw [restart, eloopRegisterTimeout, if_neg (by simp), show (eloopCancelTimeout h (some e) (some u) w).2.now = w.now
    from rfl, htime]
  rw [← hcancel]

/-- **How long is left.** Where a timeout is registered, the time asked for has less than a second of microseconds
and does not overflow, and there is memory for a new entry: after `eloop_deplete_timeout` one of them is due within
that time, after `eloop_replenish_timeout` none is due before it, and the timeouts of other handlers and data stay
as they are. -/
theorem deplete_replenish_bound {start : Clock} {es : List (Event η γ)} (hw : run (World.init start) es = some w)
    (hreg : eloopIsTimeoutRegistered h e u w = true) (hu : usecs.toNat < 1000000)
    (hafter : (w.now.after secs usecs).isSome) :
    (∃ t ∈ (eloopDepleteTimeout secs usecs h e u true w).2.timeout, t.is h e u = true ∧
      t.due ≤ w.now.micros + secs.toNat * 1000000 + usecs.toNat) ∧
    (∀ t ∈ (eloopReplenishTimeout secs usecs h e u true w).2.timeout, t.is h e u = true →
      w.now.micros + secs.toNat * 1000000 + usecs.toNat ≤ t.due) ∧
    (eloopDepleteTimeout secs usecs h e u true w).2.timeout.filter (fun t => !t.is h e u) =
      w.timeout.filter (fun t => !t.is h e u) ∧
    (eloopReplenishTimeout secs usecs h e u true w).2.timeout.filter (fun t => !t.is h e u) =
      w.timeout.filter fun t => !t.is h e u := by
  have hord := (run_inv hw).inOrder
  obtain ⟨time, htime, hrestart⟩ := restart_timeout (h := h) (e := e) (u := u) hafter
  have his : (⟨time, h, e, u⟩ : Timeout η γ).is h e u = true := by simp [Timeout.is]
  have hothers : (restart secs usecs h e u true w).timeout.filter (fun t => !t.is h e u) =
      w.timeout.filter fun t => !t.is h e u := by
    rw [hrestart, Lib.filter_enqueue_of_neg (by simp [his]), List.filter_filter]
    simp
  obtain ⟨x, hx, hxis⟩ := List.any_eq_true.1 hreg
  cases hf : w.timeout.find? (Timeout.is h e u) with
  | none => exact absurd hxis (by simpa using List.find?_eq_none.1 hf x hx)
  | some tmp =>
    obtain ⟨p, q, hl, -, htmp, hp⟩ := find_split hf
    have hless := Clock.sub_before_iff (a := tmp.time) (b := w.now) hu secs
    refine ⟨?_, ?_, ?_, ?_⟩
    · rw [eloopDepleteTimeout, hf]
      simp only
      split
      · refine ⟨⟨time, h, e, u⟩, ?_, his, htime.le⟩
        rw [hrestart]
        exact Lib.mem_enqueue.2 (.inl rfl)
      · rename_i hb
        exact ⟨tmp, by rw [hl]; simp, htmp, not_lt.1 (mt hless.1.2 hb)⟩
    · intro t ht htis
      rw [eloopReplenishTimeout, hf] at ht
      simp only at ht
      split at ht
      · rw [hrestart] at ht
        rcases Lib.mem_enqueue.1 ht with rfl | ht
        · exact htime.ge
        · simp [htis] at ht
      · rename_i hb
        have hle := not_lt.1 (mt hless.2.2 hb)
        -- the first one found is the first one due
        rw [hl] at ht hord
        rcases List.mem_append.1 ht with ht | ht
        · simp [hp t ht] at htis
        · exact hle.trans ((hord.sublist (List.sublist_append_right p _)).head_le ht)
    · rw [eloopDepleteTimeout, hf]
      simp only
      split
      · exact hothers
      · rfl
    · rw [eloopReplenishTimeout, hf]
      simp only
      split
      · exact hothers
      · rfl

/-- A timeout of five seconds is depleted to three. -/
theorem deplete_replenish_bound_three : ∃ w, run (World.init Clock.zero) [.register 5 0 1 2 3 true] = some w ∧
    (∃ t ∈ (eloopDepleteTimeout 3 0 1 2 3 true w).2.timeout, t.is (1 : ℕ) (2 : ℕ) 3 = true ∧
      t.due ≤ w.now.micros + (3 : UInt32).toNat * 1000000 + (0 : UInt32).toNat) ∧
    (∀ t ∈ (eloopReplenishTimeout 3 0 1 2 3 true w).2.timeout, t.is 1 2 3 = true →
      w.now.micros + (3 : UInt32).toNat * 1000000 + (0 : UInt32).toNat ≤ t.due) ∧
    (eloopDepleteTimeout 3 0 1 2 3 true w).2.timeout.filter (fun t => !t.is 1 2 3) =
      w.timeout.filter (fun t => !t.is 1 2 3) ∧
    (eloopReplenishTimeout 3 0 1 2 3 true w).2.timeout.filter (fun t => !t.is 1 2 3) =
      w.timeout.filter fun t => !t.is 1 2 3 :=
  ⟨_, rfl, deplete_replenish_bound
    (show run (World.init Clock.zero) [.register 5 0 1 2 3 true] = some _ from rfl) (by decide) (by decide) (by decide)⟩

end Lightguard.Eloop
