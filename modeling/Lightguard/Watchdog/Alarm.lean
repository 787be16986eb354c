import Lightguard.Watchdog.Timed

/-!
# False alarms of the watchdog

The rounds of `system_manager.py` beside the AP's receiver. A round sends the setptk line first and
records the time afterwards, in a file that it empties before it looks at the clock; hostapd's
handshake and the sync that follows it end whenever they end. The watchdog compares the time of the
last install with the recorded one.

* `poll_alarm`: the verdict on a trigger, in terms of the installs there have been.
* `no_false_alarm`: in which runs WiFi is never disconnected by the watchdog.
-/

namespace Lightguard.Watchdog

/-- Where a round of the system manager stands; the times are those of the setptk line and of the
call of `time.time()`. -/
inductive RoundPc where
  | idle
  | sent (s : ℕ)
  | opened (s : ℕ)
  | stamped (s t : ℕ)
deriving DecidableEq

/-- The receiver with its watchdog and the trigger file, the manager's round, and the rounds that
have recorded their trigger: when the line was sent, and the trigger. -/
structure Site where
  watch : Watch
  pc : RoundPc
  rounds : List (ℕ × ℕ)

/-- The receiver has just been started, and no round is under way. -/
def Site.new (start : ℕ) : Site := ⟨Watch.new start, .idle, []⟩

inductive SiteEvent where
  /-- Time passes. -/
  | pass (d : ℕ)
  /-- `send_rekey` has sent its line. -/
  | send
  /-- `open(REKEY_TRIGGER_FILE, "w")`. -/
  | truncate
  /-- `time.time()`. -/
  | stamp
  /-- The file is written and closed. -/
  | write
  /-- `mark_rekey_triggered` swallows an exception. -/
  | markFailed
  /-- A sync succeeds. -/
  | install
  | restart
  | poll
deriving DecidableEq

/-- One event. A poll may come late. -/
def siteStep (T : ℕ) (w : Site) (e : SiteEvent) : Option Site :=
  match e, w.pc with
  | .pass d, _ => some { w with watch := { w.watch with now := w.watch.now + d } }
  | .send, .idle => some { w with pc := .sent w.watch.now }
  | .truncate, .sent s => some { w with pc := .opened s, watch := { w.watch with file := none } }
  | .stamp, .opened s => some { w with pc := .stamped s w.watch.now }
  | .write, .stamped s t =>
    some { w with
      pc := .idle
      rounds := (s, t) :: w.rounds
      watch := { w.watch with
        file := some t
        polls := []
        trace := .triggered t :: w.watch.trace } }
  | .markFailed, .sent _ => some { w with pc := .idle }
  | .markFailed, .opened _ => some { w with pc := .idle }
  | .markFailed, .stamped _ _ => some { w with pc := .idle }
  | .install, _ =>
    some { w with watch := { w.watch with
      lastPtkInstallTime := w.watch.now
      trace := .installed w.watch.now :: w.watch.trace } }
  | .restart, _ =>
    some { w with watch := { w.watch with
      lastHandledRekey := 0
      lastPtkInstallTime := w.watch.now
      wake := w.watch.now + pollInterval
      trace := .started w.watch.now :: w.watch.trace } }
  | .poll, _ => if w.watch.wake ≤ w.watch.now then some { w with watch := w.watch.poll T } else none
  | _, _ => none

/-! ## Rounds and alarms -/

/-- The watchdog has not called `disconnect_wifi_link`. -/
def NoAlarm (w : Site) : Prop := ∀ t, .disconnected t ∉ w.watch.trace

/-- A sync has succeeded at one of these times. -/
def InstalledIn (a b : ℕ) (l : List Out) : Prop := ∃ i, .installed i ∈ l ∧ a ≤ i ∧ i < b

/-- Every round has had its install after the line was sent and before the deadline, once that has
passed. -/
def Punctual (T : ℕ) (w : Site) : Prop :=
  ∀ r ∈ w.rounds, r.2 + T ≤ w.watch.now → InstalledIn r.1 (r.2 + T) w.watch.trace

/-- Every round has had its install after the trigger time and before the deadline. -/
def Timely (T : ℕ) (w : Site) : Prop :=
  ∀ r ∈ w.rounds, r.2 + T ≤ w.watch.now → InstalledIn r.2 (r.2 + T) w.watch.trace

/-- A trigger that gets its verdict has been followed by an install, or by a start of the receiver. -/
def Covered (T : ℕ) (w : Site) (e : SiteEvent) : Prop :=
  e = .poll → ∀ t ∈ w.watch.file, w.watch.lastHandledRekey < t → t + T ≤ w.watch.now →
    ∃ i, t ≤ i ∧ (.installed i ∈ w.watch.trace ∨ .started i ∈ w.watch.trace)

/-- The install time is that of the last install or start, and the trigger in the file is one of a
round. -/
structure SiteInv (w : Site) : Prop where
  last : .installed w.watch.lastPtkInstallTime ∈ w.watch.trace ∨
    .started w.watch.lastPtkInstallTime ∈ w.watch.trace
  newest : ∀ i, .installed i ∈ w.watch.trace ∨ .started i ∈ w.watch.trace →
    i ≤ w.watch.lastPtkInstallTime
  past : w.watch.lastPtkInstallTime ≤ w.watch.now
  file : ∀ t, w.watch.file = some t → ∃ s, (s, t) ∈ w.rounds

variable {T start : ℕ} {w w' : Site} {e : SiteEvent}

theorem siteNew_inv (start : ℕ) : SiteInv (Site.new start) where
  last := .inr List.mem_cons_self
  newest i h := by
    simp only [Site.new, Watch.new, List.mem_singleton] at h ⊢
    rcases h with h | h
    · cases h
    · cases h
      exact Nat.le_refl _
  past := Nat.le_refl _
  file t h := by cases h

/-! ## What a step does -/

/-- **The verdict.** A poll disconnects on account of the trigger in the file when it is due and the
last install is older. -/
theorem poll_alarm (T : ℕ) (w : Watch) (u : ℕ) : .disconnected u ∈ (w.poll T).trace ↔
    .disconnected u ∈ w.trace ∨ w.file = some u ∧ w.lastHandledRekey < u ∧ u + T ≤ w.now ∧
      w.lastPtkInstallTime < u := by
  rcases poll_cases T w with ⟨hno, heq⟩ | ⟨t, hf, hlt, hdue, heq⟩
  · rw [heq]
    refine ⟨.inl, ?_⟩
    rintro (h | ⟨h1, h2, h3, -⟩)
    · exact h
    · rcases hno u h1 with h4 | h4 <;> omega
  · rw [heq]
    simp only [mem_verdict, reduceCtorEq, false_or, Out.disconnected.injEq, hf, Option.some.injEq]
    constructor
    · rintro (⟨h1, rfl⟩ | h)
      · exact .inr ⟨rfl, hlt, hdue, by omega⟩
      · exact .inl h
    · rintro (h | ⟨rfl, -, -, h⟩)
      · exact .inr h
      · exact .inl ⟨by omega, rfl⟩

/-- A poll leaves the installs, the starts and the file alone. -/
theorem poll_frame (T : ℕ) (w : Watch) :
    (w.poll T).lastPtkInstallTime = w.lastPtkInstallTime ∧ (w.poll T).now = w.now ∧
      (w.poll T).file = w.file ∧
      ∀ i, (.installed i ∈ (w.poll T).trace ↔ .installed i ∈ w.trace) ∧
        (.started i ∈ (w.poll T).trace ↔ .started i ∈ w.trace) := by
  rcases poll_cases T w with ⟨-, heq⟩ | ⟨t, -, -, -, heq⟩
  · rw [heq]
    exact ⟨rfl, rfl, rfl, fun i => ⟨Iff.rfl, Iff.rfl⟩⟩
  · rw [heq]
    refine ⟨rfl, rfl, rfl, fun i => ?_⟩
    simp [mem_verdict]

/-- Steps that are no install and no start. -/
theorem SiteInv.quiet (h : SiteInv w)
    (hlast : w'.watch.lastPtkInstallTime = w.watch.lastPtkInstallTime)
    (hnow : w.watch.now ≤ w'.watch.now)
    (htrace : ∀ i, (.installed i ∈ w'.watch.trace ↔ .installed i ∈ w.watch.trace) ∧
      (.started i ∈ w'.watch.trace ↔ .started i ∈ w.watch.trace))
    (hfile : ∀ t, w'.watch.file = some t → ∃ s, (s, t) ∈ w'.rounds) : SiteInv w' where
  last := by
    rw [hlast, (htrace _).1, (htrace _).2]
    exact h.last
  newest i := by
    rw [hlast, (htrace _).1, (htrace _).2]
    exact h.newest i
  past := by
    rw [hlast]
    exact Nat.le_trans h.past hnow
  file := hfile

/-- An install or a start happens now. -/
theorem SiteInv.fresh (h : SiteInv w) {o : Out} (ho : o = .installed w.watch.now ∨ o = .started w.watch.now)
    (hlast : w'.watch.lastPtkInstallTime = w.watch.now) (hnow : w'.watch.now = w.watch.now)
    (htrace : w'.watch.trace = o :: w.watch.trace) (hfile : w'.watch.file = w.watch.file)
    (hrounds : w'.rounds = w.rounds) : SiteInv w' where
  last := by
    rw [hlast, htrace]
    rcases ho with rfl | rfl
    · exact .inl List.mem_cons_self
    · exact .inr List.mem_cons_self
  newest i hi := by
    rw [hlast]
    rw [htrace, List.mem_cons, List.mem_cons] at hi
    rcases hi with (hi | hi) | (hi | hi)
    · rcases ho with rfl | rfl
      · cases hi
        exact Nat.le_refl _
      · cases hi
    · exact Nat.le_trans (h.newest i (.inl hi)) h.past
    · rcases ho with rfl | rfl
      · cases hi
      · cases hi
        exact Nat.le_refl _
    · exact Nat.le_trans (h.newest i (.inr hi)) h.past
  past := Nat.le_of_eq (hlast.trans hnow.symm)
  file t ht := by
    rw [hrounds]
    exact h.file t (hfile.symm.trans ht)

theorem step_siteInv (h : SiteInv w) (hs : siteStep T w e = some w') : SiteInv w' := by
  have hsame : ∀ i, (.installed i ∈ w.watch.trace ↔ .installed i ∈ w.watch.trace) ∧
      (.started i ∈ w.watch.trace ↔ .started i ∈ w.watch.trace) := fun i => ⟨Iff.rfl, Iff.rfl⟩
  unfold siteStep at hs
  split at hs
  · obtain rfl := Option.some.inj hs
    exact h.quiet rfl (Nat.le_add_right _ _) hsame h.file
  · obtain rfl := Option.some.inj hs
    exact h.quiet rfl (Nat.le_refl _) hsame h.file
  · obtain rfl := Option.some.inj hs
    exact h.quiet rfl (Nat.le_refl _) hsame nofun
  · obtain rfl := Option.some.inj hs
    exact h.quiet rfl (Nat.le_refl _) hsame h.file
  · obtain rfl := Option.some.inj hs
    refine h.quiet rfl (Nat.le_refl _) (fun i => by simp) ?_
    rintro u hu
    obtain rfl := Option.some.inj hu
    exact ⟨_, List.mem_cons_self⟩
  · obtain rfl := Option.some.inj hs
    exact h.quiet rfl (Nat.le_refl _) hsame h.file
  · obtain rfl := Option.some.inj hs
    exact h.quiet rfl (Nat.le_refl _) hsame h.file
  · obtain rfl := Option.some.inj hs
    exact h.quiet rfl (Nat.le_refl _) hsame h.file
  · obtain rfl := Option.some.inj hs
    exact h.fresh (.inl rfl) rfl rfl rfl rfl rfl
  · obtain rfl := Option.some.inj hs
    exact h.fresh (.inr rfl) rfl rfl rfl rfl rfl
  · split at hs
    · obtain rfl := Option.some.inj hs
      obtain ⟨hlast, hnow, hfile, htrace⟩ := poll_frame T w.watch
      exact h.quiet hlast (Nat.le_of_eq hnow.symm) htrace fun t ht => h.file t (hfile.symm.trans ht)
    · cases hs
  · cases hs

/-- Only a poll disconnects. -/
theorem step_alarm (hs : siteStep T w e = some w') (he : e ≠ .poll) (t : ℕ) :
    .disconnected t ∈ w'.watch.trace ↔ .disconnected t ∈ w.watch.trace := by
  unfold siteStep at hs
  split at hs <;> first
    | (obtain rfl := Option.some.inj hs; simp)
    | exact absurd rfl he
    | cases hs

/-- **One step** raises no alarm exactly when it is covered. -/
theorem step_noAlarm (hi : SiteInv w) (hn : NoAlarm w) (hs : siteStep T w e = some w') :
    NoAlarm w' ↔ Covered T w e := by
  by_cases he : e = .poll
  · subst he
    have hpoll : w'.watch = w.watch.poll T := by
      simp only [siteStep] at hs
      split at hs
      · obtain rfl := Option.some.inj hs
        rfl
      · cases hs
    unfold NoAlarm
    simp only [hpoll, poll_alarm]
    constructor
    · intro h _ t hf hlt hdue
      have hle : t ≤ w.watch.lastPtkInstallTime := by
        by_contra hlate
        exact h t (.inr ⟨hf, hlt, hdue, by omega⟩)
      exact ⟨_, hle, hi.last⟩
    · rintro hc t (h | ⟨hf, hlt, hdue, hlate⟩)
      · exact hn t h
      · obtain ⟨i, hti, hmem⟩ := hc rfl t hf hlt hdue
        have := hi.newest i hmem
        omega
  · refine iff_of_true (fun t => ?_) (fun h => absurd h he)
    rw [step_alarm hs he]
    exact hn t

/-- **When the watchdog raises no false alarm.** In every timed run of rounds, installs, restarts and
polls: exactly when every trigger that gets its verdict has been followed by an install or a start. In a
run whose rounds all have their install between the recorded time and the deadline, it raises none. -/
theorem no_false_alarm (T start : ℕ) (es : List SiteEvent) {w : Site}
    (h : Lib.run (siteStep T) (Site.new start) es = some w) :
    (Lib.Throughout (siteStep T) NoAlarm (Site.new start) es ↔
        Lib.Along (siteStep T) (Covered T) (Site.new start) es) ∧
      (Lib.Throughout (siteStep T) (Timely T) (Site.new start) es →
        Lib.Throughout (siteStep T) NoAlarm (Site.new start) es) := by
  have hiff : Lib.Throughout (siteStep T) NoAlarm (Site.new start) es ↔
      Lib.Along (siteStep T) (Covered T) (Site.new start) es :=
    Lib.throughout_iff_along (fun _ _ _ => step_siteInv) (fun _ _ _ => step_noAlarm)
      (siteNew_inv start) (by simp [NoAlarm, Site.new, Watch.new]) h
  refine ⟨hiff, fun ht => hiff.2 ?_⟩
  refine ht.along (fun _ _ _ => step_siteInv) (fun w e hi hw _ t hf _ hdue => ?_) (siteNew_inv start)
  -- the trigger is one of a round, and its deadline has passed
  obtain ⟨s, hmem⟩ := hi.file t hf
  obtain ⟨i, hin, hti, -⟩ := hw (s, t) hmem hdue
  exact ⟨i, hti, .inl hin⟩

instance (a b : ℕ) (l : List Out) : Decidable (InstalledIn a b l) :=
  decidable_of_iff (∃ i ∈ l.filterMap Out.install?, a ≤ i ∧ i < b) <| by
    simp only [mem_installs, InstalledIn]

instance (T : ℕ) : DecidablePred (Punctual T) := fun w =>
  inferInstanceAs (Decidable (∀ r ∈ w.rounds, _))

instance (T : ℕ) : DecidablePred (Timely T) := fun w =>
  inferInstanceAs (Decidable (∀ r ∈ w.rounds, _))

/-- The handshake and the sync end a second after the trigger has been written. -/
def timelyRound : List SiteEvent :=
  [.pass 1000, .send, .pass 100, .truncate, .stamp, .write, .pass 1000000, .install,
    .pass 30000000, .poll]

/-- They end before `mark_rekey_triggered` looks at the clock. -/
def earlyInstall : List SiteEvent :=
  [.pass 1000, .send, .pass 100, .install, .pass 100, .truncate, .stamp, .write, .pass 30000000, .poll]

/-- `no_false_alarm` for the first of them, with a timeout of 30 seconds. -/
theorem timelyRound_quiet : ∃ w, Lib.run (siteStep 30000000) (Site.new 0) timelyRound = some w ∧
    Lib.Throughout (siteStep 30000000) NoAlarm (Site.new 0) timelyRound := by
  have h : (Lib.run (siteStep 30000000) (Site.new 0) timelyRound).isSome := by decide
  obtain ⟨w, hw⟩ := Option.isSome_iff_exists.1 h
  exact ⟨w, hw, (no_false_alarm 30000000 0 timelyRound hw).2 (by decide +kernel)⟩

/-- The rekey of the second one has succeeded in time, and WiFi is disconnected. -/
theorem earlyInstall_alarm : ∃ w, Lib.run (siteStep 30000000) (Site.new 0) earlyInstall = some w ∧
    Lib.Throughout (siteStep 30000000) (Punctual 30000000) (Site.new 0) earlyInstall ∧ ¬ NoAlarm w := by
  have h : (Lib.run (siteStep 30000000) (Site.new 0) earlyInstall).any fun w =>
      Out.disconnected 1201 ∈ w.watch.trace := by decide
  obtain ⟨w, hw, halarm⟩ := (Option.any_eq_true _ _).1 h
  exact ⟨w, hw, by decide +kernel, fun hn => hn 1201 (of_decide_eq_true halarm)⟩

end Lightguard.Watchdog
