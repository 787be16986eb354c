import Lightguard.Lib.Run
import Mathlib.Data.List.Count

/-!
# The rekey watchdog

`ptk_watchdog` of the two receivers with what it shares with other processes: the trigger file
that the passphrase scripts write and the time of the last PTK install. Both receivers run the
same loop. Times are in microseconds of the wall clock, `T` is `HANDSHAKE_TIMEOUT`.

* `Law`: no trigger is evaluated twice, and one without an install in its window disconnects
  WiFi exactly once.
* `step_law`: what a step has to meet to keep the law.
* `law_iff`: a run keeps the law if and only if all its steps meet that.
-/

namespace Lightguard.Watchdog

/-- `time.sleep(5)`. -/
def pollInterval : ℕ := 5000000

/-- What happens in a run. -/
inductive Out where
  /-- The receiver process starts. -/
  | started (t : ℕ)
  /-- The trigger file is written. -/
  | triggered (t : ℕ)
  /-- A PTK install succeeds. -/
  | installed (t : ℕ)
  /-- The watchdog gives its verdict on this trigger. -/
  | evaluated (t : ℕ)
  /-- `disconnect_wifi_link` is called on account of this trigger. -/
  | disconnected (t : ℕ)
deriving DecidableEq

/-- The receiver's process, the trigger file, and what has happened, the newest first. -/
structure Watch where
  now : ℕ
  /-- The contents of `REKEY_TRIGGER_FILE`. -/
  file : Option ℕ
  lastHandledRekey : ℕ
  lastPtkInstallTime : ℕ
  /-- When the sleep ends. -/
  wake : ℕ
  /-- When the watchdog has looked since the file was written, the last time first. Nothing reads
  it. -/
  polls : List ℕ
  trace : List Out

/-- The first start of the receiver, at any time past the epoch. -/
def Watch.new (start : ℕ) : Watch where
  now := start + 1
  file := none
  lastHandledRekey := 0
  lastPtkInstallTime := start + 1
  wake := start + 1 + pollInterval
  polls := []
  trace := [.started (start + 1)]

inductive Event where
  /-- Time passes. -/
  | pass (d : ℕ)
  | trigger
  | install
  | restart
  | poll
deriving DecidableEq

/-- One round of the loop in `ptk_watchdog`, at the end of the sleep. -/
def Watch.poll (T : ℕ) (w : Watch) : Watch :=
  let w := { w with wake := w.now + pollInterval, polls := w.now :: w.polls }
  match w.file with
  | none => w
  | some rekeyTime =>
    if rekeyTime ≤ w.lastHandledRekey then w
    else if w.now < rekeyTime + T then w
    else
      let w := { w with lastHandledRekey := rekeyTime, trace := .evaluated rekeyTime :: w.trace }
      if rekeyTime ≤ w.lastPtkInstallTime then w
      else { w with trace := .disconnected rekeyTime :: w.trace }

/-- One event. Triggers are at least `T` and five seconds apart; the watchdog polls as soon as
its sleep ends. -/
def step (T : ℕ) (w : Watch) (e : Event) : Option Watch :=
  match e with
  | .pass d => if w.now + d ≤ w.wake then some { w with now := w.now + d } else none
  | .trigger =>
    if ∀ t ∈ w.file, t + T + pollInterval ≤ w.now then
      some { w with file := some w.now, polls := [], trace := .triggered w.now :: w.trace }
    else none
  | .install =>
    some { w with lastPtkInstallTime := w.now, trace := .installed w.now :: w.trace }
  | .restart =>
    some { w with
      lastHandledRekey := 0
      lastPtkInstallTime := w.now
      wake := w.now + pollInterval
      trace := .started w.now :: w.trace }
  | .poll => if w.now = w.wake then some (w.poll T) else none

/-! ## The law -/

/-- A PTK install has succeeded in the window of the trigger `t`. -/
def InWindow (T t : ℕ) (l : List Out) : Prop := ∃ i, .installed i ∈ l ∧ t ≤ i ∧ i ≤ t + T

/-- **The watchdog's duty.** A trigger that is still to be evaluated is the one in the file, and
it is not overdue unless the receiver has just been started. -/
structure Law (T : ℕ) (w : Watch) : Prop where
  once : ∀ t, w.trace.count (.evaluated t) ≤ 1
  closed : ∀ t, .triggered t ∈ w.trace → ¬ InWindow T t w.trace →
    w.trace.count (.disconnected t) = 1 ∨
      w.trace.count (.disconnected t) = 0 ∧ w.file = some t ∧ .evaluated t ∉ w.trace
  prompt : ∀ t, w.file = some t → .evaluated t ∉ w.trace →
    w.now ≤ t + T + pollInterval ∨ ∃ s, .started s ∈ w.trace ∧ w.now ≤ s + pollInterval

/-- The time of an install. -/
def Out.install? : Out → Option ℕ
  | .installed i => some i
  | _ => none

theorem mem_installs {i : ℕ} {l : List Out} : i ∈ l.filterMap Out.install? ↔ .installed i ∈ l := by
  rw [List.mem_filterMap]
  constructor
  · rintro ⟨o, h1, h2⟩
    cases o with
    | installed j =>
      rw [Out.install?, Option.some.injEq] at h2
      rwa [← h2]
    | _ => cases h2
  · intro h
    exact ⟨_, h, rfl⟩

/-- The time of a start of the receiver. -/
def Out.start? : Out → Option ℕ
  | .started s => some s
  | _ => none

theorem mem_starts {i : ℕ} {l : List Out} : i ∈ l.filterMap Out.start? ↔ .started i ∈ l := by
  rw [List.mem_filterMap]
  constructor
  · rintro ⟨o, h1, h2⟩
    cases o with
    | started j =>
      rw [Out.start?, Option.some.injEq] at h2
      rwa [← h2]
    | _ => cases h2
  · intro h
    exact ⟨_, h, rfl⟩

/-- A poll has come behind the deadline of the trigger `t` in the file. -/
def Due (T t : ℕ) (w : Watch) : Prop := ∃ p ∈ w.polls, t + T ≤ p

/-- A poll has come behind the deadline, and the receiver has not been started since. -/
def Remembered (T t : ℕ) (w : Watch) : Prop :=
  ∃ p ∈ w.polls, t + T ≤ p ∧ ∀ s ∈ w.trace.filterMap Out.start?, s < p

/-- There has been an install or a start since the trigger. -/
def Renewed (t : ℕ) (l : List Out) : Prop :=
  (∃ i ∈ l.filterMap Out.install?, t ≤ i) ∨ ∃ s ∈ l.filterMap Out.start?, t ≤ s

/-- What a step has to meet. A poll behind the deadline: if it is not the first, there was no start
since the last one; if it is the first, an install or a start since the trigger does not come without
an install in the window. A trigger is overwritten only behind such a poll, or when it has had its
install. -/
def Sound (T : ℕ) (w : Watch) (e : Event) : Prop :=
  match e with
  | .poll => ∀ t ∈ w.file, t + T ≤ w.now →
      (Due T t w → Remembered T t w) ∧ (¬ Due T t w → Renewed t w.trace → InWindow T t w.trace)
  | .trigger => ∀ t ∈ w.file, Due T t w ∨ InWindow T t w.trace
  | _ => True

instance (T t : ℕ) (l : List Out) : Decidable (InWindow T t l) :=
  decidable_of_iff (∃ i ∈ l.filterMap Out.install?, t ≤ i ∧ i ≤ t + T) <| by
    simp only [mem_installs, InWindow]

instance (T t : ℕ) (w : Watch) : Decidable (Due T t w) :=
  inferInstanceAs (Decidable (∃ p ∈ w.polls, t + T ≤ p))

instance (T t : ℕ) (w : Watch) : Decidable (Remembered T t w) :=
  inferInstanceAs (Decidable (∃ p ∈ w.polls, t + T ≤ p ∧ ∀ s ∈ w.trace.filterMap Out.start?, s < p))

instance (t : ℕ) (l : List Out) : Decidable (Renewed t l) :=
  inferInstanceAs (Decidable ((∃ i ∈ l.filterMap Out.install?, t ≤ i) ∨
    ∃ s ∈ l.filterMap Out.start?, t ≤ s))

instance (T : ℕ) (w : Watch) (e : Event) : Decidable (Sound T w e) := by
  cases e <;> unfold Sound <;> infer_instance

/-! ## What every step keeps -/

structure Inv (T : ℕ) (w : Watch) : Prop where
  wake_ge : w.now ≤ w.wake
  wake_le : w.wake ≤ w.now + pollInterval
  file : ∀ t, w.file = some t → .triggered t ∈ w.trace ∧ 0 < t ∧ t ≤ w.now
  now_pos : 0 < w.now
  last : ∀ t, .triggered t ∈ w.trace → ∃ u, w.file = some u ∧ t ≤ u
  evaluated : ∀ t, .evaluated t ∈ w.trace → .triggered t ∈ w.trace
  disconnected : ∀ t, .disconnected t ∈ w.trace → .evaluated t ∈ w.trace
  handled : w.lastHandledRekey = 0 ∨ .evaluated w.lastHandledRekey ∈ w.trace
  deadline : ∀ t, w.file = some t → .evaluated t ∉ w.trace →
    w.wake ≤ t + T + pollInterval ∨ ∃ s, .started s ∈ w.trace ∧ w.wake ≤ s + pollInterval

variable {T : ℕ} {w w' : Watch}

/-- What has happened, after the verdict on the trigger `t`. -/
def verdict (t last : ℕ) (l : List Out) : List Out :=
  (if t ≤ last then [] else [.disconnected t]) ++ .evaluated t :: l

section Verdict

variable {t last : ℕ} {l : List Out} {o : Out}

theorem mem_verdict :
    o ∈ verdict t last l ↔ (¬ t ≤ last ∧ o = .disconnected t) ∨ o = .evaluated t ∨ o ∈ l := by
  unfold verdict
  split <;> rename_i hle <;> simp [hle]

theorem count_verdict_evaluated :
    (verdict t last l).count (.evaluated t) = l.count (.evaluated t) + 1 := by
  unfold verdict
  split <;> simp

theorem count_verdict_disconnected : (verdict t last l).count (.disconnected t) =
    l.count (.disconnected t) + if t ≤ last then 0 else 1 := by
  unfold verdict
  split <;> simp

/-- The entries of other triggers stay. -/
theorem count_verdict_other {u : ℕ} (hu : u ≠ t) :
    (verdict t last l).count (.evaluated u) = l.count (.evaluated u) ∧
      (verdict t last l).count (.disconnected u) = l.count (.disconnected u) := by
  have hu' : t ≠ u := Ne.symm hu
  unfold verdict
  split <;> simp [hu']

theorem inWindow_verdict {u : ℕ} : InWindow T u (verdict t last l) ↔ InWindow T u l := by
  simp [InWindow, mem_verdict]

end Verdict

/-- **What a poll does.** It leaves everything but the alarm clock, or gives a verdict on a due
trigger. -/
theorem poll_cases (T : ℕ) (w : Watch) :
    ((∀ t, w.file = some t → t ≤ w.lastHandledRekey ∨ w.now < t + T) ∧
        w.poll T = { w with wake := w.now + pollInterval, polls := w.now :: w.polls }) ∨
      ∃ t, w.file = some t ∧ w.lastHandledRekey < t ∧ t + T ≤ w.now ∧
        w.poll T = { w with
          wake := w.now + pollInterval
          polls := w.now :: w.polls
          lastHandledRekey := t
          trace := verdict t w.lastPtkInstallTime w.trace } := by
  unfold Watch.poll
  cases hf : w.file with
  | none => exact .inl ⟨by simp, by simp⟩
  | some t =>
    by_cases h1 : t ≤ w.lastHandledRekey
    · refine .inl ⟨?_, by simp [h1]⟩
      intro u hu
      rw [Option.some.injEq] at hu
      subst hu
      exact .inl h1
    · by_cases h2 : w.now < t + T
      · refine .inl ⟨?_, by simp [h2]⟩
        intro u hu
        rw [Option.some.injEq] at hu
        subst hu
        exact .inr h2
      · refine .inr ⟨t, rfl, by omega, by omega, ?_⟩
        by_cases h3 : t ≤ w.lastPtkInstallTime
        · simp [verdict, h1, h2, h3]
        · simp [verdict, h1, h2, h3]

theorem new_inv (T start : ℕ) : Inv T (Watch.new start) where
  wake_ge := by simp only [Watch.new]; omega
  wake_le := by simp only [Watch.new]; omega
  file t h := by cases h
  now_pos := by simp only [Watch.new]; omega
  last t h := by simp [Watch.new] at h
  evaluated t h := by simp [Watch.new] at h
  disconnected t h := by simp [Watch.new] at h
  handled := .inl rfl
  deadline t h := by cases h

/-- A trigger in the file that has not been evaluated is newer than the last handled one. -/
theorem Inv.not_handled (h : Inv T w) {t : ℕ} (hf : w.file = some t)
    (he : .evaluated t ∉ w.trace) : w.lastHandledRekey < t := by
  obtain ⟨-, h0, -⟩ := h.file t hf
  rcases h.handled with h1 | h1
  · omega
  · obtain ⟨u, hu, hle⟩ := h.last _ (h.evaluated _ h1)
    rw [hf, Option.some.injEq] at hu
    subst hu
    have hne : w.lastHandledRekey ≠ t := by
      intro heq
      rw [heq] at h1
      exact he h1
    omega

/-- The triggers and verdicts so far, behind an entry that is neither. -/
theorem Inv.past (h : Inv T w) {o : Out}
    (ho : ∀ t, o ≠ .triggered t ∧ o ≠ .evaluated t ∧ o ≠ .disconnected t) :
    (∀ t, w.file = some t → .triggered t ∈ o :: w.trace ∧ 0 < t ∧ t ≤ w.now) ∧
      (∀ t, .triggered t ∈ o :: w.trace → ∃ u, w.file = some u ∧ t ≤ u) ∧
      (∀ t, .evaluated t ∈ o :: w.trace → .triggered t ∈ o :: w.trace) ∧
      ∀ t, .disconnected t ∈ o :: w.trace → .evaluated t ∈ o :: w.trace := by
  refine ⟨fun t ht => ?_, fun t ht => ?_, fun t ht => ?_, fun t ht => ?_⟩
  · obtain ⟨h1, h2⟩ := h.file t ht
    exact ⟨List.mem_cons_of_mem _ h1, h2⟩
  · exact h.last t ((List.mem_cons.1 ht).resolve_left (ho t).1.symm)
  · exact List.mem_cons_of_mem _
      (h.evaluated t ((List.mem_cons.1 ht).resolve_left (ho t).2.1.symm))
  · exact List.mem_cons_of_mem _
      (h.disconnected t ((List.mem_cons.1 ht).resolve_left (ho t).2.2.symm))

/-- A new trigger replaces the one in the file, which is older. -/
theorem Inv.trigger (h : Inv T w) (hsp : ∀ t ∈ w.file, t + T + pollInterval ≤ w.now) :
    Inv T { w with file := some w.now, polls := [], trace := .triggered w.now :: w.trace } := by
  have hge := h.wake_ge
  have hle := h.wake_le
  have hpos := h.now_pos
  refine ⟨hge, hle, ?_, hpos, ?_, ?_, ?_, ?_, ?_⟩
  · intro t ht
    simp only [Option.some.injEq] at ht
    subst ht
    exact ⟨List.mem_cons_self, hpos, Nat.le_refl _⟩
  · intro t ht
    -- triggers are written in the order of their times
    refine ⟨w.now, rfl, ?_⟩
    rcases List.mem_cons.1 ht with h1 | h1
    · cases h1
      exact Nat.le_refl _
    · obtain ⟨u, hu, hlu⟩ := h.last t h1
      have := hsp u hu
      omega
  · intro t ht
    exact List.mem_cons_of_mem _ (h.evaluated t (by simpa using ht))
  · intro t ht
    exact List.mem_cons_of_mem _ (h.disconnected t (by simpa using ht))
  · exact h.handled.imp id fun h1 => List.mem_cons_of_mem _ h1
  · intro t ht _
    simp only [Option.some.injEq] at ht
    subst ht
    exact .inl (by simp only; omega)

/-- A poll on time. -/
theorem Inv.poll (h : Inv T w) (hnow : w.now = w.wake) : Inv T (w.poll T) := by
  have hge := h.wake_ge
  have hpos := h.now_pos
  rcases poll_cases T w with ⟨hno, heq⟩ | ⟨t, hf, hlt, hdue, heq⟩
  · rw [heq]
    refine { h with wake_ge := by simp only; omega, wake_le := Nat.le_refl _, deadline := ?_ }
    intro t ht hn
    -- a trigger that waits is not yet due
    have := h.not_handled ht hn
    rcases hno t ht with h1 | h1
    · omega
    · exact .inl (by simp only; omega)
  · rw [heq]
    have hmem : ∀ o ∈ w.trace, o ∈ verdict t w.lastPtkInstallTime w.trace :=
      fun o ho => mem_verdict.2 (.inr (.inr ho))
    have hev : .evaluated t ∈ verdict t w.lastPtkInstallTime w.trace :=
      mem_verdict.2 (.inr (.inl rfl))
    refine ⟨by simp only; omega, Nat.le_refl _, ?_, hpos, ?_, ?_, ?_, .inr hev, ?_⟩
    · intro u hu
      obtain ⟨h1, h2⟩ := h.file u hu
      exact ⟨hmem _ h1, h2⟩
    · intro u hu
      rcases mem_verdict.1 hu with ⟨-, h1⟩ | h1 | h1
      · cases h1
      · cases h1
      · exact h.last u h1
    · intro u hu
      rcases mem_verdict.1 hu with ⟨-, h1⟩ | h1 | h1
      · cases h1
      · cases h1
        exact hmem _ (h.file t hf).1
      · exact hmem _ (h.evaluated u h1)
    · intro u hu
      rcases mem_verdict.1 hu with ⟨-, h1⟩ | h1 | h1
      · cases h1
        exact hev
      · cases h1
      · exact hmem _ (h.disconnected u h1)
    · intro u hu hn
      -- the trigger in the file has just had its verdict, so it has no deadline any more
      have htu : t = u := Option.some.inj (hf.symm.trans hu)
      subst htu
      exact absurd hev hn

theorem step_inv {e : Event} (h : Inv T w) (hs : step T w e = some w') : Inv T w' := by
  have hge := h.wake_ge
  have hle := h.wake_le
  have hpos := h.now_pos
  cases e with
  | pass d =>
    simp only [step] at hs
    split at hs
    · rename_i hd
      rw [Option.some.injEq] at hs
      subst hs
      exact { h with
        wake_ge := hd
        wake_le := by simp only; omega
        now_pos := by simp only; omega
        file := fun t ht => by
          obtain ⟨h1, h2, h3⟩ := h.file t ht
          exact ⟨h1, h2, by simp only; omega⟩ }
    · cases hs
  | trigger =>
    simp only [step] at hs
    split at hs
    · rename_i hsp
      rw [Option.some.injEq] at hs
      subst hs
      exact h.trigger hsp
    · cases hs
  | install =>
    simp only [step, Option.some.injEq] at hs
    subst hs
    obtain ⟨hfile, hlast, hev, hdis⟩ := h.past (o := .installed w.now) fun _ => ⟨nofun, nofun, nofun⟩
    refine ⟨hge, hle, hfile, hpos, hlast, hev, hdis, ?_, ?_⟩
    · exact h.handled.imp id fun h1 => List.mem_cons_of_mem _ h1
    · intro t ht hn
      refine (h.deadline t ht fun h1 => hn (List.mem_cons_of_mem _ h1)).imp id ?_
      rintro ⟨s, h1, h2⟩
      exact ⟨s, List.mem_cons_of_mem _ h1, h2⟩
  | restart =>
    simp only [step, Option.some.injEq] at hs
    subst hs
    obtain ⟨hfile, hlast, hev, hdis⟩ := h.past (o := .started w.now) fun _ => ⟨nofun, nofun, nofun⟩
    refine ⟨by simp only; omega, Nat.le_refl _, hfile, hpos, hlast, hev, hdis, .inl rfl, ?_⟩
    -- the deadline is void: the new process sleeps first
    intro t _ _
    exact .inr ⟨w.now, List.mem_cons_self, Nat.le_refl _⟩
  | poll =>
    simp only [step] at hs
    split at hs
    · rename_i hnow
      rw [Option.some.injEq] at hs
      subst hs
      exact h.poll hnow
    · cases hs

/-! ## What the polls have seen -/

/-- The shared times are those of the last install or start, and of the verdict on the trigger in
the file since the last start. -/
structure Recorded (T : ℕ) (w : Watch) : Prop where
  starts : ∀ s, .started s ∈ w.trace → s + pollInterval ≤ w.wake
  polls : ∀ p ∈ w.polls, p ≤ w.now
  last_le : w.lastPtkInstallTime ≤ w.now
  last_mem : .installed w.lastPtkInstallTime ∈ w.trace ∨ .started w.lastPtkInstallTime ∈ w.trace
  newest : ∀ i, .installed i ∈ w.trace ∨ .started i ∈ w.trace → i ≤ w.lastPtkInstallTime
  evaluated : ∀ t, w.file = some t → (.evaluated t ∈ w.trace ↔ Due T t w)
  handled : ∀ t, w.file = some t → (t ≤ w.lastHandledRekey ↔ Remembered T t w)

theorem Remembered.due {t : ℕ} (h : Remembered T t w) : Due T t w := by
  obtain ⟨p, hp, hle, -⟩ := h
  exact ⟨p, hp, hle⟩

/-- The install time the watchdog reads is no older than the trigger exactly when there was an
install or a start since. -/
theorem Recorded.renewed (h : Recorded T w) (t : ℕ) :
    t ≤ w.lastPtkInstallTime ↔ Renewed t w.trace := by
  simp only [Renewed, mem_installs, mem_starts]
  constructor
  · intro hle
    exact h.last_mem.imp (fun hm => ⟨_, hm, hle⟩) (fun hm => ⟨_, hm, hle⟩)
  · rintro (⟨i, hi, hle⟩ | ⟨i, hi, hle⟩)
    · exact Nat.le_trans hle (h.newest i (.inl hi))
    · exact Nat.le_trans hle (h.newest i (.inr hi))

theorem new_recorded (T start : ℕ) : Recorded T (Watch.new start) where
  starts s h := by
    simp only [Watch.new, List.mem_singleton, Out.started.injEq] at h ⊢
    omega
  polls p h := by cases h
  last_le := Nat.le_refl _
  last_mem := .inr List.mem_cons_self
  newest i h := by
    simp only [Watch.new, List.mem_singleton, reduceCtorEq, Out.started.injEq, false_or] at h ⊢
    omega
  evaluated t h := by cases h
  handled t h := by cases h

/-- A poll on time. -/
theorem Recorded.poll (h : Recorded T w) (hnow : w.now = w.wake) : Recorded T (w.poll T) := by
  have hpolls : ∀ p ∈ w.now :: w.polls, p ≤ w.now := by
    intro p hp
    rcases List.mem_cons.1 hp with rfl | hp
    · exact Nat.le_refl _
    · exact h.polls p hp
  have hstarts : ∀ s, .started s ∈ w.trace → s + pollInterval ≤ w.now + pollInterval := by
    intro s hs
    have := h.starts s hs
    omega
  rcases poll_cases T w with ⟨hno, heq⟩ | ⟨t, hf, hlt, hdue, heq⟩
  · rw [heq]
    -- a trigger that is due and gets no verdict has had it from this process
    have hold : ∀ t, w.file = some t → t + T ≤ w.now → Remembered T t w := by
      intro t ht hle
      refine (h.handled t ht).1 ((hno t ht).resolve_right ?_)
      omega
    refine ⟨hstarts, hpolls, h.last_le, h.last_mem, h.newest, fun t ht => ?_, fun t ht => ?_⟩
    · rw [h.evaluated t ht]
      simp only [Due, List.mem_cons, or_and_right, exists_or, exists_eq_left]
      constructor
      · exact .inr
      · rintro (hle | hd)
        · exact (hold t ht hle).due
        · exact hd
    · rw [h.handled t ht]
      simp only [Remembered, List.mem_cons, or_and_right, exists_or, exists_eq_left]
      constructor
      · exact .inr
      · rintro (⟨hle, -⟩ | hd)
        · exact hold t ht hle
        · exact hd
  · rw [heq]
    have hmem : ∀ i, (.installed i ∈ verdict t w.lastPtkInstallTime w.trace ↔
        .installed i ∈ w.trace) ∧ (.started i ∈ verdict t w.lastPtkInstallTime w.trace ↔
        .started i ∈ w.trace) := fun i => by simp [mem_verdict]
    refine ⟨?_, hpolls, h.last_le, ?_, ?_, fun u hu => ?_, fun u hu => ?_⟩
    · intro s hs
      exact hstarts s ((hmem s).2.1 hs)
    · rw [(hmem _).1, (hmem _).2]
      exact h.last_mem
    · intro i hi
      rw [(hmem i).1, (hmem i).2] at hi
      exact h.newest i hi
    · obtain rfl : t = u := Option.some.inj (hf.symm.trans hu)
      exact iff_of_true (mem_verdict.2 (.inr (.inl rfl))) ⟨w.now, List.mem_cons_self, hdue⟩
    · obtain rfl : t = u := Option.some.inj (hf.symm.trans hu)
      refine iff_of_true (Nat.le_refl _) ⟨w.now, List.mem_cons_self, hdue, fun s hs => ?_⟩
      have hpos : 0 < pollInterval := by decide
      have := h.starts s ((hmem s).2.1 (mem_starts.1 hs))
      omega

/-- A trigger with the gap the schedule keeps. -/
theorem Recorded.trigger (hi : Inv T w) (h : Recorded T w)
    (hsp : ∀ t ∈ w.file, t + T + pollInterval ≤ w.now) :
    Recorded T { w with file := some w.now, polls := [], trace := .triggered w.now :: w.trace } := by
  have hpos : 0 < pollInterval := by decide
  -- the clock is past every earlier trigger
  have hold : ∀ u, .evaluated u ∈ w.trace → u < w.now := by
    intro u hu
    obtain ⟨v, hv, hle⟩ := hi.last _ (hi.evaluated _ hu)
    have := hsp v hv
    omega
  refine ⟨fun s hm => h.starts s (by simpa using hm), nofun, h.last_le, ?_, ?_, ?_, ?_⟩
  · simpa using h.last_mem
  · intro i hm
    exact h.newest i (by simpa using hm)
  · rintro t ⟨⟩
    refine iff_of_false (fun hm => ?_) (by simp [Due])
    have := hold w.now (by simpa using hm)
    omega
  · rintro t ⟨⟩
    refine iff_of_false (fun hle => ?_) (by simp [Remembered])
    have hnow := hi.now_pos
    simp only at hle
    rcases hi.handled with h0 | hm
    · omega
    · have := hold _ hm
      omega

theorem Recorded.install (h : Recorded T w) :
    Recorded T { w with lastPtkInstallTime := w.now, trace := .installed w.now :: w.trace } := by
  refine ⟨fun s hm => h.starts s (by simpa using hm), h.polls, Nat.le_refl _,
    .inl List.mem_cons_self, ?_, fun t ht => ?_, fun t ht => ?_⟩
  · intro i hm
    simp only [List.mem_cons, Out.installed.injEq, reduceCtorEq, false_or] at hm
    rcases hm with (rfl | hm) | hm
    · exact Nat.le_refl _
    · exact Nat.le_trans (h.newest i (.inl hm)) h.last_le
    · exact Nat.le_trans (h.newest i (.inr hm)) h.last_le
  · simpa [Due] using h.evaluated t ht
  · simpa [Remembered, Out.start?] using h.handled t ht

theorem Recorded.restart (hi : Inv T w) (h : Recorded T w) :
    Recorded T { w with
      lastHandledRekey := 0
      lastPtkInstallTime := w.now
      wake := w.now + pollInterval
      trace := .started w.now :: w.trace } := by
  refine ⟨?_, h.polls, Nat.le_refl _, .inr List.mem_cons_self, ?_, fun t ht => ?_, fun t ht => ?_⟩
  · intro s hm
    have hge := hi.wake_le
    simp only [List.mem_cons, Out.started.injEq] at hm
    rcases hm with rfl | hm
    · exact Nat.le_refl _
    · exact Nat.le_trans (h.starts s hm) hge
  · intro i hm
    simp only [List.mem_cons, Out.started.injEq, reduceCtorEq, false_or] at hm
    rcases hm with hm | rfl | hm
    · exact Nat.le_trans (h.newest i (.inl hm)) h.last_le
    · exact Nat.le_refl _
    · exact Nat.le_trans (h.newest i (.inr hm)) h.last_le
  · simpa [Due] using h.evaluated t ht
  · -- the new process has seen nothing
    have hpos : 0 < pollInterval := by decide
    obtain ⟨-, h0, -⟩ := hi.file t ht
    refine iff_of_false (by simp only; omega) ?_
    rintro ⟨p, hp, -, hall⟩
    have h1 := h.polls p hp
    have h2 := hall w.now (mem_starts.2 List.mem_cons_self)
    omega

theorem step_recorded {e : Event} (hi : Inv T w) (h : Recorded T w) (hs : step T w e = some w') :
    Recorded T w' := by
  cases e with
  | pass d =>
    simp only [step] at hs
    split at hs
    · obtain rfl := Option.some.inj hs
      exact { h with
        polls := fun p hp => Nat.le_trans (h.polls p hp) (Nat.le_add_right _ _)
        last_le := Nat.le_trans h.last_le (Nat.le_add_right _ _) }
    · cases hs
  | trigger =>
    simp only [step] at hs
    split at hs
    · rename_i hsp
      obtain rfl := Option.some.inj hs
      exact h.trigger hi hsp
    · cases hs
  | install =>
    obtain rfl := Option.some.inj hs
    exact h.install
  | restart =>
    obtain rfl := Option.some.inj hs
    exact h.restart hi
  | poll =>
    simp only [step] at hs
    split at hs
    · rename_i hnow
      obtain rfl := Option.some.inj hs
      exact h.poll hnow
    · cases hs

/-! ## When a step keeps the law -/

theorem Inv.prompt (h : Inv T w) {t : ℕ} (hf : w.file = some t) (hn : .evaluated t ∉ w.trace) :
    w.now ≤ t + T + pollInterval ∨ ∃ s, .started s ∈ w.trace ∧ w.now ≤ s + pollInterval := by
  have hge := h.wake_ge
  rcases h.deadline t hf hn with h1 | ⟨s, h1, h2⟩
  · exact .inl (by omega)
  · exact .inr ⟨s, h1, by omega⟩

theorem new_law (T start : ℕ) : Law T (Watch.new start) where
  once t := by simp [Watch.new]
  closed t h := by simp [Watch.new] at h
  prompt t h := by cases h

/-- Starts, installs and the passing of time leave the law as it is. -/
theorem Law.quiet (hl : Law T w) (hi : Inv T w') (hf : w'.file = w.file) {l : List Out}
    (ht : w'.trace = l ++ w.trace)
    (hq : ∀ o ∈ l, ∀ t, o ≠ .triggered t ∧ o ≠ .evaluated t ∧ o ≠ .disconnected t) :
    Law T w' := by
  have hcount : ∀ o, o ∉ l → w'.trace.count o = w.trace.count o := by
    intro o ho
    rw [ht, List.count_append, List.count_eq_zero_of_not_mem ho, Nat.zero_add]
  have hev : ∀ t, .evaluated t ∉ l := fun t h => (hq _ h t).2.1 rfl
  have hdis : ∀ t, .disconnected t ∉ l := fun t h => (hq _ h t).2.2 rfl
  refine ⟨?_, ?_, fun t h1 h2 => hi.prompt h1 h2⟩
  · intro t
    rw [hcount _ (hev t)]
    exact hl.once t
  · intro t htr hwin
    have htr' : .triggered t ∈ w.trace := by
      rw [ht, List.mem_append] at htr
      exact htr.resolve_left fun h => (hq _ h t).1 rfl
    have hwin' : ¬ InWindow T t w.trace := by
      rintro ⟨i, h1, h2⟩
      exact hwin ⟨i, by rw [ht]; exact List.mem_append_right _ h1, h2⟩
    rw [hcount _ (hdis t), hf]
    refine (hl.closed t htr' hwin').imp id ?_
    rintro ⟨h1, h2, h3⟩
    refine ⟨h1, h2, fun h4 => ?_⟩
    rw [ht, List.mem_append] at h4
    exact h4.elim (hev t) h3

/-- A disconnected trigger has been evaluated. -/
theorem Inv.count_disconnected (h : Inv T w) {t : ℕ} (hn : .evaluated t ∉ w.trace) :
    w.trace.count (.disconnected t) = 0 :=
  List.count_eq_zero_of_not_mem fun hd => hn (h.disconnected t hd)

theorem trigger_law (hi : Inv T w) (hr : Recorded T w) (hl : Law T w)
    (hs : step T w .trigger = some w') :
    Law T w' ↔ Sound T w .trigger := by
  have hi' := step_inv hi hs
  simp only [step] at hs
  split at hs
  · rename_i hsp
    rw [Option.some.injEq] at hs
    subst hs
    -- the clock is past every earlier trigger
    have hnew : .triggered w.now ∉ w.trace := by
      intro h
      obtain ⟨u, hu, hle⟩ := hi.last _ h
      have hgap := hsp u hu
      have hpos : 0 < pollInterval := by decide
      omega
    constructor
    · intro h t ht
      by_cases hwin : InWindow T t w.trace
      · exact .inr hwin
      · left
        -- `t` is not in the file any more, so its disconnect must have happened already
        have hold : .triggered t ∈ w.trace := (hi.file t ht).1
        have hne : w.now ≠ t := by
          intro heq
          rw [heq] at hnew
          exact hnew hold
        have hwin' : ¬ InWindow T t (.triggered w.now :: w.trace) := by
          rintro ⟨i, h1, h2⟩
          exact hwin ⟨i, by simpa using h1, h2⟩
        rcases h.closed t (List.mem_cons_of_mem _ hold) hwin' with h1 | ⟨-, h2, -⟩
        · rw [← hr.evaluated t ht]
          by_contra hn
          have hc := hi.count_disconnected hn
          simp only [List.count_cons_of_ne (by simp : Out.triggered w.now ≠ .disconnected t)] at h1
          omega
        · exact absurd (Option.some.inj h2) hne
    · intro hsound
      refine ⟨?_, ?_, fun t h1 h2 => hi'.prompt h1 h2⟩
      · intro t
        rw [List.count_cons_of_ne (by simp)]
        exact hl.once t
      · intro t ht hwin
        have hwin' : ¬ InWindow T t w.trace := by
          rintro ⟨i, h1, h2⟩
          exact hwin ⟨i, List.mem_cons_of_mem _ h1, h2⟩
        rw [List.count_cons_of_ne (by simp)]
        rcases List.mem_cons.1 ht with h1 | h1
        · rw [Out.triggered.injEq] at h1
          have hev : .evaluated t ∉ w.trace := by
            intro h2
            rw [h1] at h2
            exact hnew (hi.evaluated _ h2)
          exact .inr ⟨hi.count_disconnected hev, by rw [h1], by simpa using hev⟩
        · rcases hl.closed t h1 hwin' with h2 | ⟨-, h3, h4⟩
          · exact .inl h2
          · rw [hr.evaluated t h3] at h4
            exact ((hsound t h3).elim h4 hwin').elim
  · cases hs

/-- A poll that evaluates the trigger keeps the law only if it is sound. -/
theorem sound_of_verdict {t : ℕ} (hi : Inv T w) (hr : Recorded T w) (hf : w.file = some t)
    (htrace : w'.trace = verdict t w.lastPtkInstallTime w.trace) (h : Law T w') : Sound T w .poll := by
  obtain ⟨htr, -, -⟩ := hi.file t hf
  intro u hu _
  have hut : t = u := Option.some.inj (hf.symm.trans hu)
  subst hut
  have hfresh : .evaluated t ∉ w.trace := by
    have honce := h.once t
    rw [htrace, count_verdict_evaluated] at honce
    rw [← List.count_eq_zero]
    omega
  have hfirst : ¬ Due T t w := by rwa [← hr.evaluated t hf]
  refine ⟨fun hd => absurd hd hfirst, fun _ hnew => ?_⟩
  have hle := (hr.renewed t).2 hnew
  -- a trigger that is credited without an install in its window is never disconnected
  by_contra hn
  have htr' : .triggered t ∈ w'.trace := by
    rw [htrace]
    exact mem_verdict.2 (.inr (.inr htr))
  have hmem : .evaluated t ∈ w'.trace := by
    rw [htrace]
    exact mem_verdict.2 (.inr (.inl rfl))
  have hnw : ¬ InWindow T t w'.trace := by rwa [htrace, inWindow_verdict]
  rcases h.closed t htr' hnw with h1 | ⟨-, -, h2⟩
  · rw [htrace, count_verdict_disconnected, if_pos hle, hi.count_disconnected hfresh] at h1
    omega
  · exact h2 hmem

/-- A sound poll that evaluates the trigger keeps the law. -/
theorem Law.verdict {t : ℕ} (hi : Inv T w) (hr : Recorded T w) (hl : Law T w) (hi' : Inv T w')
    (hf : w.file = some t) (hforgot : ¬ Remembered T t w) (hdue : t + T ≤ w.now)
    (htrace : w'.trace = Watchdog.verdict t w.lastPtkInstallTime w.trace) (hsound : Sound T w .poll) :
    Law T w' := by
  obtain ⟨honce, hcredit⟩ := hsound t hf hdue
  have hfirst : ¬ Due T t w := fun hd => hforgot (honce hd)
  have hfresh : .evaluated t ∉ w.trace := by rwa [hr.evaluated t hf]
  refine ⟨?_, ?_, fun u h1 h2 => hi'.prompt h1 h2⟩
  · intro u
    rw [htrace]
    by_cases hu : u = t
    · have hnone := List.count_eq_zero_of_not_mem hfresh
      rw [hu, count_verdict_evaluated]
      omega
    · rw [(count_verdict_other hu).1]
      exact hl.once u
  · intro u hu hnw
    rw [htrace] at hu hnw ⊢
    rw [inWindow_verdict] at hnw
    by_cases hut : u = t
    · -- the verdict of a sound poll on a trigger without its install is the disconnect
      subst hut
      have hlate : ¬ u ≤ w.lastPtkInstallTime := fun hle => hnw (hcredit hfirst ((hr.renewed u).1 hle))
      rw [count_verdict_disconnected, if_neg hlate, hi.count_disconnected hfresh]
      exact .inl rfl
    · have hu' : .triggered u ∈ w.trace := by simpa [mem_verdict] using hu
      rw [(count_verdict_other hut).2]
      refine (hl.closed u hu' hnw).imp id ?_
      rintro ⟨-, h2, -⟩
      exact absurd (Option.some.inj (h2.symm.trans hf)) hut

theorem poll_law (hi : Inv T w) (hr : Recorded T w) (hl : Law T w)
    (hs : step T w .poll = some w') :
    Law T w' ↔ Sound T w .poll := by
  have hi' := step_inv hi hs
  simp only [step] at hs
  split at hs
  · rw [Option.some.injEq] at hs
    rcases poll_cases T w with ⟨hno, heq⟩ | ⟨t, hf, hlt, hdue, heq⟩
    · refine iff_of_true (hl.quiet hi' (by rw [← hs, heq]) (l := []) (by rw [← hs, heq]; rfl)
        (by simp)) ?_
      -- a trigger behind its deadline has had its verdict from this process
      intro t ht hdue
      have hrem : Remembered T t w := by
        refine (hr.handled t ht).1 ((hno t ht).resolve_right ?_)
        omega
      exact ⟨fun _ => hrem, fun hn => absurd hrem.due hn⟩
    · have hforgot : ¬ Remembered T t w := by
        rw [← hr.handled t hf]
        omega
      have htrace : w'.trace = Watchdog.verdict t w.lastPtkInstallTime w.trace := by rw [← hs, heq]
      exact ⟨sound_of_verdict hi hr hf htrace, fun hsound => hl.verdict hi hr hi' hf hforgot hdue htrace hsound⟩
  · cases hs

/-- **One step.** It keeps the law if and only if it is sound. -/
theorem step_law {e : Event} (hi : Inv T w) (hr : Recorded T w) (hl : Law T w)
    (hs : step T w e = some w') :
    Law T w' ↔ Sound T w e := by
  have hi' := step_inv hi hs
  cases e with
  | trigger => exact trigger_law hi hr hl hs
  | poll => exact poll_law hi hr hl hs
  | pass d =>
    simp only [step] at hs
    split at hs
    · rw [Option.some.injEq] at hs
      subst hs
      exact iff_of_true (hl.quiet hi' rfl (l := []) rfl (by simp)) trivial
    · cases hs
  | install =>
    simp only [step, Option.some.injEq] at hs
    subst hs
    exact iff_of_true (hl.quiet hi' rfl (l := [.installed w.now]) rfl (by simp)) trivial
  | restart =>
    simp only [step, Option.some.injEq] at hs
    subst hs
    exact iff_of_true (hl.quiet hi' rfl (l := [.started w.now]) rfl (by simp)) trivial

/-- **When the watchdog fails closed.** In every timed run, for both receivers: the law holds in
every state if and only if every step is sound. -/
theorem law_iff (T start : ℕ) {es : List Event} (h : Lib.run (step T) (Watch.new start) es = some w) :
    Lib.Throughout (step T) (Law T) (Watch.new start) es ↔
      Lib.Along (step T) (Sound T) (Watch.new start) es :=
  Lib.throughout_iff_along (J := fun w => Inv T w ∧ Recorded T w)
    (fun _ _ _ hj hs => ⟨step_inv hj.1 hs, step_recorded hj.1 hj.2 hs⟩)
    (fun _ _ _ hj hl hs => step_law hj.1 hj.2 hl hs)
    ⟨new_inv T start, new_recorded T start⟩ (new_law T start) h

/-- The watchdog polls `n` times in a row. -/
def polls (n : ℕ) : List Event := (List.replicate n [.pass 5000000, .poll]).flatten

/-- With a timeout of 30 seconds: a round whose PTK is installed, and one without an install. -/
def twoRounds : List Event :=
  [.pass 1, .trigger, .install, .pass 4999999, .poll] ++ polls 7 ++ [.trigger] ++ polls 6

theorem twoRounds_law : ∃ w, Lib.run (step 30000000) (Watch.new 0) twoRounds = some w ∧
    w.trace.count (.disconnected 2) = 0 ∧ w.trace.count (.disconnected 40000001) = 1 ∧
    Lib.Throughout (step 30000000) (Law 30000000) (Watch.new 0) twoRounds := by
  have h : (Lib.run (step 30000000) (Watch.new 0) twoRounds).any (fun w =>
      w.trace.count (.disconnected 2) = 0 ∧ w.trace.count (.disconnected 40000001) = 1) := by
    decide +kernel
  obtain ⟨w, hw, h12⟩ := (Option.any_eq_true _ _).1 h
  obtain ⟨h1, h2⟩ := of_decide_eq_true h12
  exact ⟨w, hw, h1, h2, (law_iff 30000000 0 hw).2 (by decide +kernel)⟩

/-- The PTK is installed a second behind the deadline, before the next poll. -/
def lateInstall : List Event :=
  [.pass 1, .trigger, .pass 4999999, .poll] ++ polls 5 ++ [.pass 1000001, .install,
    .pass 3999999, .poll]

/-- The receiver is restarted while a trigger waits for its install. -/
def restarted : List Event :=
  [.pass 1, .trigger, .pass 4999999, .poll, .restart] ++ polls 6

/-- A trigger without an install in its window is evaluated, and WiFi stays up. -/
def Credited (t : ℕ) (w : Watch) : Prop :=
  .triggered t ∈ w.trace ∧ .evaluated t ∈ w.trace ∧ ¬ InWindow 30000000 t w.trace ∧
    w.trace.count (.disconnected t) = 0

instance (t : ℕ) (w : Watch) : Decidable (Credited t w) := inferInstanceAs (Decidable (_ ∧ _))

theorem Credited.not_law {t : ℕ} (h : Credited t w) : ¬ Law 30000000 w := by
  obtain ⟨h1, h2, h3, h4⟩ := h
  intro hl
  rcases hl.closed t h1 h3 with h5 | ⟨-, -, h5⟩
  · omega
  · exact h5 h2

/-- Neither a late install nor a restart belongs to the round it is credited to. -/
theorem verdict_credited :
    (∃ w, Lib.run (step 30000000) (Watch.new 0) lateInstall = some w ∧ Credited 2 w ∧
      ¬ Law 30000000 w) ∧
    ∃ w, Lib.run (step 30000000) (Watch.new 0) restarted = some w ∧ Credited 2 w ∧
      ¬ Law 30000000 w := by
  have h1 : (Lib.run (step 30000000) (Watch.new 0) lateInstall).any (fun w => Credited 2 w) := by
    decide +kernel
  have h2 : (Lib.run (step 30000000) (Watch.new 0) restarted).any (fun w => Credited 2 w) := by
    decide +kernel
  obtain ⟨w, hw, hc⟩ := (Option.any_eq_true _ _).1 h1
  obtain ⟨v, hv, hd⟩ := (Option.any_eq_true _ _).1 h2
  have hc' := of_decide_eq_true hc
  have hd' := of_decide_eq_true hd
  exact ⟨⟨w, hw, hc', hc'.not_law⟩, v, hv, hd', hd'.not_law⟩

end Lightguard.Watchdog
