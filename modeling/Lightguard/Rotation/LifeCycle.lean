import Mathlib.Data.Int.Notation
import Mathlib.Data.List.Basic
import Mathlib.Logic.Function.Basic
import Lightguard.Lib.Run

/-!
# The life of the setptk listener

`lifi_listener_init` and `lifi_listener_deinit` over the instances of `hostapd_data`: a static flag says
that a listener has been started, and a pointer in the instance which one.

* `Inv`: what holds after any calls.
* `step_linked`: what the calls have done to the listener, the flag and the socket say.
* `silent_run`: a listener that has been taken down never comes back.
* `life_cycle_iff`: when success means that somebody listens.
-/

namespace Lightguard.Rotation.LifeCycle

/-- `struct lifi_ctx`; instances of `hostapd_data` are numbered as they are allocated. -/
structure LifiCtx where
  fd : ℕ
  hapd : ℕ
deriving DecidableEq

/-- What the two functions read and write. -/
structure Process where
  /-- The instances that are allocated and not freed. -/
  live : List ℕ
  next : ℕ
  gStarted : Bool
  lifiPriv : ℕ → Option LifiCtx
  /-- The read sockets of the event loop that `lifi_read_cb` serves. -/
  readers : List LifiCtx

/-- How the calls of `lifi_listener_init` end, if they are made; `inet_pton` has a constant to read. -/
structure InitOutcomes where
  zalloc : Bool
  socket : Option ℕ
  bind : Bool
  listen : Bool
  register : Bool
deriving DecidableEq

/-- All of them work. -/
def InitOutcomes.allWork (o : InitOutcomes) : Bool :=
  o.zalloc && o.socket.isSome && o.bind && o.listen && o.register

/-- `lifi_listener_init`, and its return value. -/
def lifiListenerInit (w : Process) (hapd : ℕ) (o : InitOutcomes) : Process × ℤ :=
  if w.gStarted then (w, 0)
  else if o.zalloc = false then (w, -1)
  else
    match o.socket with
    | none => (w, -1)
    | some fd =>
      -- what fails from here on closes the socket and frees the context
      if o.bind = false then (w, -1)
      else if o.listen = false then (w, -1)
      else if o.register = false then (w, -1)
      else
        let ctx : LifiCtx := ⟨fd, hapd⟩
        ({ w with
          readers := w.readers ++ [ctx]
          lifiPriv := Function.update w.lifiPriv hapd (some ctx)
          gStarted := true }, 0)

/-- `lifi_listener_deinit`, on an instance or NULL. -/
def lifiListenerDeinit (w : Process) (hapd : Option ℕ) : Process :=
  match hapd with
  | none => w
  | some h =>
    match w.lifiPriv h with
    | none => w
    | some ctx => { w with
        readers := w.readers.eraseP fun r => r.fd = ctx.fd
        lifiPriv := Function.update w.lifiPriv h none }

inductive Event where
  /-- `hostapd_alloc_bss_data`. -/
  | alloc
  | init (hapd : ℕ) (o : InitOutcomes)
  | deinit (hapd : Option ℕ)
  /-- The instance is freed, with the listener taken down before or not. -/
  | free (hapd : ℕ)
deriving DecidableEq

/-- One event. Instances are used while they are live, and `socket` returns a descriptor that is not in
use. -/
def step (w : Process) (e : Event) : Option Process :=
  match e with
  | .alloc => some { w with
      live := w.next :: w.live
      next := w.next + 1
      lifiPriv := Function.update w.lifiPriv w.next none }
  | .init h o =>
    if h ∈ w.live ∧ ∀ r ∈ w.readers, o.socket ≠ some r.fd then some (lifiListenerInit w h o).1 else none
  | .deinit h => if ∀ i ∈ h, i ∈ w.live then some (lifiListenerDeinit w h) else none
  | .free h => if h ∈ w.live then some { w with live := w.live.filter (· ≠ h) } else none

/-- hostapd starts. -/
def start : Process := ⟨[], 0, false, fun _ => none, []⟩

/-! ## The law -/

/-- A socket is registered whose handler is bound to a live instance. -/
def Listening (w : Process) : Prop := ∃ r ∈ w.readers, r.hapd ∈ w.live

/-- After an `init` that returns 0 somebody listens; after a `deinit` of the instance that owns the
listener, nobody does. -/
def Law (w : Process) : Event → Prop
  | .init h o =>
    h ∈ w.live → (lifiListenerInit w h o).2 = 0 → Listening (lifiListenerInit w h o).1
  | .deinit (some h) =>
    h ∈ w.live → (∃ r ∈ w.readers, r.hapd = h) → (lifiListenerDeinit w (some h)).readers = []
  | _ => True

instance (w : Process) : Decidable (Listening w) :=
  inferInstanceAs (Decidable (∃ r ∈ w.readers, r.hapd ∈ w.live))

instance (w : Process) : (e : Event) → Decidable (Law w e)
  | .init h o => inferInstanceAs (Decidable (h ∈ w.live → (lifiListenerInit w h o).2 = 0 →
      Listening (lifiListenerInit w h o).1))
  | .deinit (some h) => inferInstanceAs (Decidable (h ∈ w.live → (∃ r ∈ w.readers, r.hapd = h) →
      (lifiListenerDeinit w (some h)).readers = []))
  | .alloc | .deinit none | .free _ => isTrue trivial

/-- What has become of the listener: it has not been started, it belongs to an instance, or it is gone. -/
inductive Standing where
  | unstarted
  | owned (hapd : ℕ)
  | gone

/-- The first `init` all of whose calls work starts the listener. It is gone when its owner is taken down
or freed. -/
def Standing.after : Standing → Event → Standing
  | .unstarted, .init h o => if o.allWork then .owned h else .unstarted
  | .owned h, .deinit (some i) => if i = h then .gone else .owned h
  | .owned h, .free i => if i = h then .gone else .owned h
  | s, _ => s

/-- What the calls, in their order, have done to the listener. -/
def standing (es : List Event) : Standing := es.foldl Standing.after .unstarted

/-! ## What every step keeps -/

variable {w w' : Process} {e : Event}

structure Inv (w : Process) : Prop where
  /-- There is at most one listener. -/
  one : ∀ r ∈ w.readers, w.readers = [r]
  started : w.gStarted = false → w.readers = []
  /-- The pointer of a live instance is the listener that is bound to it. -/
  owner : ∀ h ∈ w.live, ∀ r, w.lifiPriv h = some r ↔ r ∈ w.readers ∧ r.hapd = h
  live_lt : ∀ h ∈ w.live, h < w.next
  bound_lt : ∀ r ∈ w.readers, r.hapd < w.next

theorem start_inv : Inv start where
  one := by simp [start]
  started _ := rfl
  owner := by simp [start]
  live_lt := by simp [start]
  bound_lt := by simp [start]

/-- **What an init does**: nothing, or it starts the one listener. -/
theorem init_cases (w : Process) (h : ℕ) (o : InitOutcomes) :
    (w.gStarted = true ∧ lifiListenerInit w h o = (w, 0)) ∨
      (w.gStarted = false ∧ o.allWork = false ∧ lifiListenerInit w h o = (w, -1)) ∨
      w.gStarted = false ∧ o.allWork = true ∧ ∃ fd, lifiListenerInit w h o =
        ({ w with
          readers := w.readers ++ [⟨fd, h⟩]
          lifiPriv := Function.update w.lifiPriv h (some ⟨fd, h⟩)
          gStarted := true }, 0) := by
  unfold lifiListenerInit InitOutcomes.allWork
  cases hg : w.gStarted with
  | true => exact .inl ⟨rfl, rfl⟩
  | false =>
    simp only [Bool.false_eq_true, if_false]
    split
    · rename_i hz
      exact .inr (.inl ⟨trivial, by rw [hz]; rfl, rfl⟩)
    split
    · rename_i hs
      exact .inr (.inl ⟨trivial, by simp [hs], rfl⟩)
    · rename_i hz _ fd hs
      split
      · rename_i hb
        exact .inr (.inl ⟨trivial, by simp [hb], rfl⟩)
      split
      · rename_i hli
        exact .inr (.inl ⟨trivial, by simp [hli], rfl⟩)
      split
      · rename_i hr
        exact .inr (.inl ⟨trivial, by simp [hr], rfl⟩)
      · rename_i hb hli hr
        exact .inr (.inr ⟨trivial, by simp_all, fd, rfl⟩)

/-- **What a deinit does**: nothing, or it takes the listener of its instance down. -/
theorem deinit_cases (hi : Inv w) {h : ℕ} (hl : h ∈ w.live) :
    ((∀ r ∈ w.readers, r.hapd ≠ h) ∧ lifiListenerDeinit w (some h) = w) ∨
      ∃ r, w.readers = [r] ∧ r.hapd = h ∧ lifiListenerDeinit w (some h) =
        { w with readers := [], lifiPriv := Function.update w.lifiPriv h none } := by
  unfold lifiListenerDeinit
  cases hp : w.lifiPriv h with
  | none =>
    refine .inl ⟨fun r hr hrh => ?_, by simp only [hp]⟩
    have := (hi.owner h hl r).2 ⟨hr, hrh⟩
    rw [hp] at this
    cases this
  | some r =>
    obtain ⟨hr, hrh⟩ := (hi.owner h hl r).1 hp
    have hone := hi.one r hr
    exact .inr ⟨r, hone, hrh, by simp only [hp, hone]; simp⟩

theorem init_inv (hi : Inv w) {h : ℕ} (hl : h ∈ w.live) (o : InitOutcomes) :
    Inv (lifiListenerInit w h o).1 := by
  rcases init_cases w h o with ⟨-, heq⟩ | ⟨-, -, heq⟩ | ⟨hg, -, fd, heq⟩
  · rw [heq]; exact hi
  · rw [heq]; exact hi
  · have hnil := hi.started hg
    rw [heq, hnil, List.nil_append]
    refine ⟨?_, fun h' => (by cases h'), ?_, hi.live_lt, ?_⟩
    · intro r hr
      rw [List.mem_singleton.1 hr]
    · intro i hil r
      have howner := hi.owner i hil r
      by_cases hih : i = h
      · subst hih
        simp only [Function.update_self, Option.some.injEq, List.mem_singleton]
        exact ⟨fun heq => ⟨heq.symm, by rw [← heq]⟩, fun heq => heq.1.symm⟩
      · simp only [Function.update_of_ne hih, List.mem_singleton]
        rw [howner, hnil]
        constructor
        · rintro ⟨hr, -⟩
          exact absurd hr List.not_mem_nil
        · rintro ⟨rfl, rfl⟩
          exact absurd rfl hih
    · intro r hr
      rw [List.mem_singleton.1 hr]
      exact hi.live_lt h hl

theorem deinit_inv (hi : Inv w) {h : ℕ} (hl : h ∈ w.live) : Inv (lifiListenerDeinit w (some h)) := by
  rcases deinit_cases hi hl with ⟨-, heq⟩ | ⟨r, hone, hrh, heq⟩
  · rw [heq]; exact hi
  · rw [heq]
    refine ⟨by simp, fun _ => rfl, ?_, hi.live_lt, by simp⟩
    intro i hil r'
    by_cases hih : i = h
    · subst hih
      simp
    · have howner := hi.owner i hil r'
      simp only [Function.update_of_ne hih, List.not_mem_nil, false_and, iff_false]
      rw [howner, hone]
      rintro ⟨hr', hr'i⟩
      rw [List.mem_singleton.1 hr'] at hr'i
      exact hih (by rw [← hr'i, hrh])

theorem step_inv (hi : Inv w) (hw : step w e = some w') : Inv w' := by
  cases e with
  | alloc =>
    obtain rfl := Option.some.inj hw
    refine ⟨hi.one, hi.started, ?_, ?_, fun r hr => Nat.lt_succ_of_lt (hi.bound_lt r hr)⟩
    · intro h hl r
      by_cases hn : h = w.next
      · subst hn
        simp only [Function.update_self, reduceCtorEq, false_iff]
        rintro ⟨hr, hrh⟩
        have := hi.bound_lt r hr
        omega
      · simp only [Function.update_of_ne hn]
        exact hi.owner h ((List.mem_cons.1 hl).resolve_left hn) r
    · intro h hl
      rcases List.mem_cons.1 hl with rfl | hl
      · exact Nat.lt_succ_self _
      · exact Nat.lt_succ_of_lt (hi.live_lt h hl)
  | init h o =>
    simp only [step] at hw
    split at hw
    · rename_i hen
      obtain rfl := Option.some.inj hw
      exact init_inv hi hen.1 o
    · cases hw
  | deinit h =>
    simp only [step] at hw
    split at hw
    · rename_i hen
      obtain rfl := Option.some.inj hw
      cases h with
      | none => exact hi
      | some h => exact deinit_inv hi (hen h rfl)
    · cases hw
  | free h =>
    simp only [step] at hw
    split at hw
    · obtain rfl := Option.some.inj hw
      exact ⟨hi.one, hi.started, fun i hil => hi.owner i (List.mem_filter.1 hil).1,
        fun i hil => hi.live_lt i (List.mem_filter.1 hil).1, hi.bound_lt⟩
    · cases hw

/-! ## The flag and the socket -/

variable {s : Standing}

/-- The flag and the socket say what has become of the listener. -/
def Linked (w : Process) : Standing → Prop
  | .unstarted => w.gStarted = false
  | .owned h => w.gStarted = true ∧ h ∈ w.live ∧ ∃ r ∈ w.readers, r.hapd = h
  | .gone => w.gStarted = true ∧ ¬ Listening w

theorem init_linked (hl : Linked w s) {h : ℕ} (hlive : h ∈ w.live) (o : InitOutcomes) :
    Linked (lifiListenerInit w h o).1 (s.after (.init h o)) := by
  rcases init_cases w h o with ⟨hg, heq⟩ | ⟨hg, hno, heq⟩ | ⟨hg, hall, fd, heq⟩
  · rw [heq]
    cases s with
    | unstarted => exact absurd (hg.symm.trans hl) (by decide)
    | owned _ | gone => exact hl
  · rw [heq]
    cases s with
    | unstarted =>
      rw [Standing.after, hno]
      exact hg
    | owned _ | gone => exact absurd (hg.symm.trans hl.1) (by decide)
  · rw [heq]
    cases s with
    | unstarted =>
      rw [Standing.after, hall]
      exact ⟨rfl, hlive, ⟨fd, h⟩, by simp, rfl⟩
    | owned _ | gone => exact absurd (hg.symm.trans hl.1) (by decide)

theorem deinit_linked (hi : Inv w) (hl : Linked w s) {i : ℕ} (hlive : i ∈ w.live) :
    Linked (lifiListenerDeinit w (some i)) (s.after (.deinit (some i))) := by
  rcases deinit_cases hi hlive with ⟨hno, heq⟩ | ⟨r, hone, hri, heq⟩
  · rw [heq]
    cases s with
    | unstarted | gone => exact hl
    | owned h =>
      -- the instance does not own the listener
      have hih : i ≠ h := by
        rintro rfl
        obtain ⟨-, -, r, hr, hrh⟩ := hl
        exact hno r hr hrh
      rw [Standing.after, if_neg hih]
      exact hl
  · rw [heq]
    have hnone : ¬ Listening { w with readers := [], lifiPriv := Function.update w.lifiPriv i none } :=
      fun ⟨_, hmem, _⟩ => List.not_mem_nil hmem
    cases s with
    | unstarted => exact hl
    | owned h =>
      obtain ⟨hg, -, r', hr', hrh⟩ := hl
      rw [hone, List.mem_singleton] at hr'
      rw [Standing.after, if_pos (by rw [← hri, ← hrh, hr'])]
      exact ⟨hg, hnone⟩
    | gone => exact ⟨hl.1, hnone⟩

theorem free_linked (hi : Inv w) (hl : Linked w s) (i : ℕ) :
    Linked { w with live := w.live.filter (· ≠ i) } (s.after (.free i)) := by
  cases s with
  | unstarted => exact hl
  | owned h =>
    obtain ⟨hg, hlive, r, hr, hrh⟩ := hl
    by_cases hih : i = h
    · rw [Standing.after, if_pos hih]
      refine ⟨hg, fun ⟨r', hr', hrl⟩ => ?_⟩
      rw [hi.one r hr, List.mem_singleton] at hr'
      simp [hr', hrh, hih] at hrl
    · rw [Standing.after, if_neg hih]
      exact ⟨hg, List.mem_filter.2 ⟨hlive, by simpa using Ne.symm hih⟩, r, hr, hrh⟩
  | gone => exact ⟨hl.1, fun ⟨r, hr, hrl⟩ => hl.2 ⟨r, hr, (List.mem_filter.1 hrl).1⟩⟩

/-- **One call keeps them in step.** -/
theorem step_linked (hi : Inv w) (hl : Linked w s) (hw : step w e = some w') :
    Linked w' (s.after e) := by
  cases e with
  | alloc =>
    obtain rfl := Option.some.inj hw
    cases s with
    | unstarted => exact hl
    | owned h => exact ⟨hl.1, List.mem_cons_of_mem _ hl.2.1, hl.2.2⟩
    | gone =>
      -- the new instance is not the one the handler is bound to
      refine ⟨hl.1, fun ⟨r, hr, hrl⟩ => hl.2 ⟨r, hr, ?_⟩⟩
      have hlt := hi.bound_lt r hr
      exact (List.mem_cons.1 hrl).resolve_left (by omega)
  | init h o =>
    simp only [step] at hw
    split at hw
    · rename_i hen
      obtain rfl := Option.some.inj hw
      exact init_linked hl hen.1 o
    · cases hw
  | deinit h =>
    simp only [step] at hw
    split at hw
    · rename_i hen
      obtain rfl := Option.some.inj hw
      cases h with
      | none => cases s <;> exact hl
      | some i => exact deinit_linked hi hl (hen i rfl)
    · cases hw
  | free i =>
    simp only [step] at hw
    split at hw
    · obtain rfl := Option.some.inj hw
      exact free_linked hi hl i
    · cases hw

theorem run_linked {es : List Event} (hi : Inv w) (hl : Linked w s) (hr : Lib.run step w es = some w') :
    Inv w' ∧ Linked w' (es.foldl Standing.after s) := by
  induction es generalizing w s with
  | nil =>
    obtain rfl := Option.some.inj hr
    exact ⟨hi, hl⟩
  | cons e es ih =>
    obtain ⟨w₁, h1, h2⟩ := Lib.run_cons.1 hr
    exact ih (step_inv hi h1) (step_linked hi hl h1) h2

/-! ## When somebody listens -/

/-- **One step.** A `deinit` always does what it should, and an `init` until the listener is gone. -/
theorem step_law_iff (hi : Inv w) (hl : Linked w s) (e : Event) :
    Law w e ↔ ∀ h o, e = .init h o → h ∈ w.live → s ≠ .gone := by
  match e with
  | .alloc | .free _ | .deinit none => exact iff_of_true trivial nofun
  | .deinit (some h) =>
    refine iff_of_true ?_ nofun
    rintro hlive ⟨r, hr, hrh⟩
    rcases deinit_cases hi hlive with ⟨hno, -⟩ | ⟨r', -, -, heq⟩
    · exact absurd hrh (hno r hr)
    · rw [heq]
  | .init h o =>
    constructor
    · rintro hlaw _ _ ⟨⟩ hlive rfl
      obtain ⟨hg, hno⟩ := hl
      have heq : lifiListenerInit w h o = (w, 0) := if_pos hg
      have hlistens := hlaw hlive (by rw [heq])
      rw [heq] at hlistens
      exact hno hlistens
    · intro hs hlive hret
      have hgone := hs h o rfl hlive
      rcases init_cases w h o with ⟨hg, heq⟩ | ⟨-, -, heq⟩ | ⟨-, -, fd, heq⟩
      · rw [heq]
        cases s with
        | unstarted => exact absurd (hg.symm.trans hl) (by decide)
        | owned i =>
          obtain ⟨-, hown, r, hr, rfl⟩ := hl
          exact ⟨r, hr, hown⟩
        | gone => exact absurd rfl hgone
      · rw [heq] at hret
        cases hret
      · rw [heq]
        exact ⟨⟨fd, h⟩, by simp, hlive⟩

/-- **When success means that somebody listens.** In every run, the law holds at every step if and only
if no `init` of an instance comes after calls that leave the listener gone: an `init` that started it, and
then a `deinit` of its owner or the end of it. -/
theorem life_cycle_iff (es : List Event) : Lib.Along step Law start es ↔
    ∀ pre h o post, es = pre ++ .init h o :: post → ∀ w ∈ Lib.run step start pre, h ∈ w.live →
      standing pre ≠ .gone := by
  rw [Lib.along_iff]
  constructor
  · intro hlaw pre h o post hes w hw hlive
    obtain ⟨hi, hl⟩ := run_linked start_inv (s := .unstarted) rfl hw
    exact (step_law_iff hi hl (.init h o)).1 (hlaw pre _ post hes w hw) h o rfl hlive
  · intro hno pre e post hes w hw
    obtain ⟨hi, hl⟩ := run_linked start_inv (s := .unstarted) rfl hw
    refine (step_law_iff hi hl e).2 ?_
    rintro h o rfl hlive
    exact hno pre h o post hes w hw hlive

/-- The flag is set and there is no listener. -/
def Silent (w : Process) : Prop := w.gStarted = true ∧ w.readers = []

/-- **A listener that has been taken down never comes back**, whatever is called; every `init` returns 0. -/
theorem silent_run {es : List Event} (hs : Silent w) (hr : Lib.run step w es = some w') :
    Silent w' ∧ ∀ h o, (lifiListenerInit w' h o).2 = 0 := by
  have hrun : Silent w' := by
    refine Lib.run_inv (fun s e s' hs hw => ?_) hs hr
    obtain ⟨hg, hnil⟩ := hs
    cases e with
    | alloc =>
      obtain rfl := Option.some.inj hw
      exact ⟨hg, hnil⟩
    | init h o =>
      simp only [step] at hw
      split at hw
      · obtain rfl := Option.some.inj hw
        rw [lifiListenerInit, if_pos hg]
        exact ⟨hg, hnil⟩
      · cases hw
    | deinit h =>
      simp only [step] at hw
      split at hw
      · obtain rfl := Option.some.inj hw
        unfold lifiListenerDeinit
        split
        · exact ⟨hg, hnil⟩
        split
        · exact ⟨hg, hnil⟩
        · exact ⟨hg, by simp only [hnil, List.eraseP_nil]⟩
      · cases hw
    | free h =>
      simp only [step] at hw
      split at hw
      · obtain rfl := Option.some.inj hw
        exact ⟨hg, hnil⟩
      · cases hw
  refine ⟨hrun, fun h o => ?_⟩
  rw [lifiListenerInit, if_pos hrun.1]

/-- Everything works. -/
def works (fd : ℕ) : InitOutcomes := ⟨true, some fd, true, true, true⟩

/-- A BSS is taken down and set up again. -/
def restart : List Event := [.alloc, .init 0 (works 5), .deinit (some 0), .init 0 (works 5)]

/-- After a restart `init` returns 0 and nobody listens. -/
theorem restart_deaf :
    (Lib.run step start (restart.take 3)).any (fun w =>
      (lifiListenerInit w 0 (works 5)).2 = 0 ∧ (lifiListenerInit w 0 (works 5)).1.readers = []) = true ∧
      ¬ ∀ es, Lib.Along step Law start es := by
  exact ⟨by decide, fun h => absurd (h restart) (by decide)⟩

end Lightguard.Rotation.LifeCycle
