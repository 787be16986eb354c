import Lightguard.Pmksa.Cache

/-!
# The PMKSA cache as a table

Without opportunistic key caching the cache of the access point is a table with one row for a station and room
for 1024 of them.

* `table_bounds`: one entry for a station, no more than 1024, and the timeout is due in time for each.
* `add_law`: a new entry replaces the one of its station, or else, when the table is full, the one that expires
  first.
* `expiry_bound`: no entry stays for more than a second after it has expired, but for the lateness of the event
  loop; in whole seconds, as all times of the cache.
-/

namespace Lightguard.Pmksa

open Lib (Distinct InOrder)

/-- What is right about the cache without OKC. -/
structure Exact (s : St) : Prop extends Inv s where
  spas : Distinct Entry.spa s.pmksa
  room : s.pmksa.length ≤ 1024
  due : ∀ e ∈ s.pmksa, ∃ d ∈ s.timer, d ≤ e.expiration + 1

theorem init_exact (now : ℤ) : Exact (.init now) where
  toInv := init_inv now
  spas := List.nodup_nil
  room := Nat.zero_le _
  due := by simp [St.init]

variable {c : Conf} {s s' : St} {e : Entry} {a : Addr} {r : AddArgs}

theorem Exact.congr (h : Exact s) (hinv : Inv s') (hp : s'.pmksa = s.pmksa) (ht : s'.timer = s.timer) : Exact s' where
  toInv := hinv
  spas := hp ▸ h.spas
  room := hp ▸ h.room
  due := by rw [hp, ht]; exact h.due

/-- The entry of a station. -/
def entryOf (s : St) (a : Addr) : Option Entry := authGet s (some a) none

theorem Exact.entryOf_eq_some (h : Exact s) : entryOf s a = some e ↔ e ∈ s.pmksa ∧ e.spa = a :=
  h.spas.find?_eq_some

theorem entryOf_eq_none : entryOf s a = none ↔ ∀ e ∈ s.pmksa, e.spa ≠ a := by
  simp [entryOf, authGet, List.find?_eq_none]

/-! ## Taking entries off -/

theorem Exact.freed {es : List Entry} (h : Exact s) (hes : Freed es s s') : Exact s' where
  toInv := hes.inv
  spas := h.spas.sublist (hes.pmksa ▸ List.filter_sublist)
  room := (hes.pmksa ▸ List.length_filter_le _ _ : s'.pmksa.length ≤ s.pmksa.length).trans h.room
  due e he := by
    rw [hes.pmksa] at he
    rw [hes.timer]
    exact h.due e (List.mem_filter.1 he).1

/-- Without what has expired the timeout can be set for the first entry. -/
theorem Exact.setExpiration (h : Exact s) (hlater : ∀ e ∈ s.pmksa, s.now < e.expiration) : Exact (setExpiration s) where
  toInv := setExpiration_inv h.toInv
  spas := h.spas
  room := h.room
  due e he := by
    change e ∈ s.pmksa at he
    obtain ⟨x, l, hl⟩ := List.exists_cons_of_ne_nil (List.ne_nil_of_mem he)
    have hfirst := (hl ▸ h.order : InOrder Entry.expiration (x :: l)).head_le (hl ▸ he)
    have hx := hlater x (hl ▸ List.mem_cons_self)
    refine ⟨s.now + max 0 (x.expiration - s.now) + 1, by simp [Pmksa.setExpiration, hl], ?_⟩
    omega

/-! ## A new entry -/

/-- The list when there is room for a new entry of a station. -/
def roomFor (spa : Addr) (l : List Entry) : List Entry :=
  let l' := l.filter (·.spa ≠ spa)
  if 1024 ≤ l'.length then l'.tail else l'

theorem dropSame_pmksa (h : Exact s) (spa : Addr) : (dropSame spa s).pmksa = s.pmksa.filter (·.spa ≠ spa) := by
  obtain ⟨es, -, hgone, hes⟩ := dropSame_freed h.toInv spa
  rw [hes.pmksa]
  refine List.filter_congr fun x hx => ?_
  rw [hgone x hx]
  change (!(entryOf s spa).any fun y => decide (x.ptr = y.ptr)) = _
  cases hof : entryOf s spa with
  | none => simpa using entryOf_eq_none.1 hof x hx
  | some y =>
    obtain ⟨hy, rfl⟩ := h.entryOf_eq_some.1 hof
    have hiff : x.ptr = y.ptr ↔ x.spa = y.spa :=
      ⟨fun hp => congrArg Entry.spa (h.distinct.eq hx hy hp), fun hp => congrArg Entry.ptr (h.spas.eq hx hy hp)⟩
    simp [hiff]

theorem dropOldest_pmksa (h : Inv s) :
    (dropOldest s).pmksa = if 1024 ≤ s.pmksa.length then s.pmksa.tail else s.pmksa := by
  unfold dropOldest
  have hcount : s.pmksaCount ≥ 1024 ↔ 1024 ≤ s.pmksa.length := by rw [h.count]; omega
  simp only [hcount]
  split
  · rename_i pos l hl
    simp only [hl, List.tail_cons]
    split
    · simp only [freeEntry, hl, Lib.unlink_cons_self]
    · exact hl
  · rename_i hl
    simp [hl]

theorem roomFor_sublist (spa : Addr) (l : List Entry) : (roomFor spa l).Sublist (l.filter (·.spa ≠ spa)) := by
  unfold roomFor
  simp only
  split
  · exact List.tail_sublist _
  · exact List.Sublist.refl _

theorem length_roomFor {spa : Addr} {l : List Entry} (h : l.length ≤ 1024) : (roomFor spa l).length < 1024 := by
  have hlen := List.length_filter_le (fun x : Entry => decide (x.spa ≠ spa)) l
  unfold roomFor
  simp only
  split
  · rw [List.length_tail]
    omega
  · omega

/-- **Who has to go.** With an entry of the station itself on the list there is room, and on a full list without
one the first goes, which expires first. -/
theorem Exact.victim (h : Exact s) (spa : Addr) : ∃ victim : Option Addr,
    (victim.isSome ↔ s.pmksa.length = 1024 ∧ entryOf s spa = none) ∧
    (∀ v ∈ victim, ∃ y, entryOf s v = some y ∧ ∀ x ∈ s.pmksa, y.expiration ≤ x.expiration) ∧
    ∀ x, x ∈ roomFor spa s.pmksa ↔ x ∈ s.pmksa ∧ x.spa ≠ spa ∧ victim ≠ some x.spa := by
  cases hof : entryOf s spa with
  | some y =>
    obtain ⟨hy, hya⟩ := h.entryOf_eq_some.1 hof
    have hlt : (s.pmksa.filter (·.spa ≠ spa)).length < s.pmksa.length :=
      List.length_filter_lt_length_iff_exists.2 ⟨y, hy, by simpa using hya⟩
    refine ⟨none, by simp, by simp, fun x => ?_⟩
    have hroom := h.room
    rw [roomFor, if_neg (by omega), List.mem_filter]
    simp
  | none =>
    have hne := entryOf_eq_none.1 hof
    have hself : s.pmksa.filter (·.spa ≠ spa) = s.pmksa := List.filter_eq_self.2 fun x hx => by simpa using hne x hx
    by_cases hfull : 1024 ≤ s.pmksa.length
    · cases hl : s.pmksa with
      | nil =>
        rw [hl] at hfull
        exact absurd hfull (by decide)
      | cons y l =>
        have hlen := h.room
        have hdist := Lib.distinct_cons.1 (hl ▸ h.spas)
        refine ⟨some y.spa, by simpa [← hl] using le_antisymm hlen hfull, fun v hv => ⟨y, ?_, fun x hx => ?_⟩,
          fun x => ?_⟩
        · rw [h.entryOf_eq_some, hl]
          exact ⟨List.mem_cons_self, Option.some.inj hv⟩
        · exact (hl ▸ h.order : InOrder Entry.expiration (y :: l)).head_le hx
        · rw [roomFor, ← hl, hself, if_pos hfull, hl, List.tail_cons, List.mem_cons]
          constructor
          · intro hx
            exact ⟨.inr hx, hne x (hl ▸ List.mem_cons_of_mem y hx), fun he => hdist.1 x hx (Option.some.inj he).symm⟩
          · rintro ⟨rfl | hx, -, hv⟩
            · exact absurd rfl hv
            · exact hx
    · refine ⟨none, by simp; omega, by simp, fun x => ?_⟩
      rw [roomFor, hself, if_neg hfull]
      simp only [ne_eq, reduceCtorEq, not_false_eq_true, and_true]
      exact ⟨fun hx => ⟨hx, hne x hx⟩, And.left⟩

theorem createEntry_spa (h : createEntry c r s = some e) : e.spa = r.spa ∧ s.now ≤ e.expiration := by
  unfold createEntry at h
  split at h
  · cases h
  · obtain rfl := Option.some.inj h
    refine ⟨rfl, ?_⟩
    simp only
    split <;> omega

/-- A new entry that does not come before the present goes on the list. -/
theorem Exact.linkEntry (h : Exact s) (hlink : Inv (linkEntry e s)) (hspa : ∀ x ∈ s.pmksa, x.spa ≠ e.spa)
    (hroom : s.pmksa.length < 1024) (hnow : s.now ≤ e.expiration) : Exact (linkEntry e s) := by
  refine ⟨hlink, ?_, ?_, fun x hx => ?_⟩
  · rw [linkEntry_pmksa]
    exact (Lib.distinct_cons.2 ⟨hspa, h.spas⟩).perm (Lib.enqueue_perm ..)
  · rw [linkEntry_pmksa, Lib.length_enqueue]
    exact hroom
  · rw [linkEntry_pmksa, Lib.mem_enqueue] at hx
    unfold Pmksa.linkEntry
    simp only
    split
    · -- the new entry is the first one, and the timeout is set for it
      rename_i hfirst
      have hhead : (Lib.enqueue Entry.expiration e s.pmksa).head? = some e := by
        cases hl : s.pmksa with
        | nil => rfl
        | cons y l =>
          rw [hl] at hfirst
          rw [Lib.enqueue_cons, if_pos (by simpa using hfirst)]
          rfl
      have hle : e.expiration ≤ x.expiration := by
        rcases hx with rfl | hx
        · exact le_rfl
        · obtain ⟨y, l, hl⟩ := List.exists_cons_of_ne_nil (List.ne_nil_of_mem hx)
          have hy := (hl ▸ h.order : InOrder Entry.expiration (y :: l)).head_le (hl ▸ hx)
          have hey : e.expiration < y.expiration := by simpa [hl] using hfirst
          omega
      refine ⟨s.now + max 0 (e.expiration - s.now) + 1, by simp [Pmksa.setExpiration, hhead], ?_⟩
      omega
    · -- the timeout is set for the first one, which expires no later
      rename_i hfirst
      rcases hx with rfl | hx
      · cases hl : s.pmksa with
        | nil => exact absurd (by simp [hl]) hfirst
        | cons y l =>
          obtain ⟨d, hd, hdy⟩ := h.due y (hl ▸ List.mem_cons_self)
          have hyx : y.expiration ≤ x.expiration := by simpa [hl] using hfirst
          exact ⟨d, hd, by omega⟩
      · exact h.due x hx

/-- What is left of the table in front of a new entry. -/
theorem Exact.makeRoom (h : Exact s) (spa : Addr) :
    Exact (dropOldest (dropSame spa s)) ∧ (dropOldest (dropSame spa s)).pmksa = roomFor spa s.pmksa ∧
    (dropOldest (dropSame spa s)).now = s.now ∧ (dropOldest (dropSame spa s)).fresh = s.fresh := by
  obtain ⟨es, -, -, hsame⟩ := dropSame_freed h.toInv spa
  obtain ⟨es', hold⟩ := dropOldest_freed hsame.inv
  refine ⟨(h.freed hsame).freed hold, ?_, hold.now.trans hsame.now, hold.fresh.trans hsame.fresh⟩
  rw [dropOldest_pmksa hsame.inv, dropSame_pmksa h, roomFor]

/-- **A new entry** comes into the table. -/
theorem Exact.authAdd (h : Exact s) (hnew : createEntry c r s = some e) :
    Exact (authAdd c r s) ∧ (authAdd c r s).pmksa = Lib.enqueue Entry.expiration e (roomFor r.spa s.pmksa) ∧
      (authAdd c r s).now = s.now := by
  obtain ⟨hroom, hpm, hnow, -⟩ := (h.congr h.toInv.freshen rfl rfl).makeRoom e.spa
  have hinv := h.toInv.authAdd (c := c) r
  obtain ⟨hspa, hexp⟩ := createEntry_spa hnew
  unfold Pmksa.authAdd at hinv ⊢
  rw [hnew] at hinv ⊢
  simp only [addEntry] at hinv ⊢
  refine ⟨hroom.linkEntry hinv (fun x hx => ?_) ?_ (hnow.trans_le hexp), ?_, linkEntry_now.trans hnow⟩
  · rw [hpm] at hx
    simpa using (List.mem_filter.1 ((roomFor_sublist _ _).subset hx)).2
  · rw [hpm]
    exact length_roomFor h.room
  · rw [linkEntry_pmksa, hpm, hspa]

/-! ## Whole runs -/

/-- **One event.** What it puts into the table does not expire before it. -/
theorem handle_exact {ev : Event} (hokc : c.okc = false) (h : Exact s) (hh : handle c s ev = some s') :
    Exact s' ∧ s'.now = s.now ∧ ∀ x ∈ s'.pmksa, x ∈ s.pmksa ∨ s.now ≤ x.expiration := by
  have hinv := handle_inv h.toInv hh
  -- the other events leave the list and the timeout as they are
  have hkeep : ∀ t, Inv t → t.pmksa = s.pmksa → t.timer = s.timer → t.now = s.now →
      Exact t ∧ t.now = s.now ∧ ∀ x ∈ t.pmksa, x ∈ s.pmksa ∨ s.now ≤ x.expiration :=
    fun t ht hp htimer hnow => ⟨h.congr ht hp htimer, hnow, fun x hx => .inl (hp ▸ hx)⟩
  cases hev : ev.removes with
  | true =>
    obtain ⟨es, t, hgone, hes, hst⟩ := handle_freed h.toInv hev hh
    have hold : ∀ x ∈ t.pmksa, x ∈ s.pmksa := fun x hx => (List.mem_filter.1 (hes.pmksa ▸ hx)).1
    rcases hst with rfl | ⟨rfl, rfl⟩
    · exact ⟨h.freed hes, hes.now, fun x hx => .inl (hold x hx)⟩
    · refine ⟨(h.freed hes).setExpiration fun x hx => ?_, hes.now, fun x hx => .inl (hold x hx)⟩
      rw [hes.pmksa] at hx
      obtain ⟨hxs, hx⟩ := List.mem_filter.1 hx
      rw [hgone x hxs] at hx
      rw [hes.now]
      simpa [drops] using hx
  | false =>
    cases ev with
    | add r =>
      obtain rfl := Option.some.inj hh
      cases hnew : createEntry c r s with
      | none => exact hkeep _ hinv (by simp [authAdd, hnew]) (by simp [authAdd, hnew]) (by simp [authAdd, hnew])
      | some e =>
        obtain ⟨hex, hpm, hnow⟩ := h.authAdd hnew
        refine ⟨hex, hnow, fun x hx => ?_⟩
        rw [hpm, Lib.mem_enqueue] at hx
        rcases hx with rfl | hx
        · exact .inr (createEntry_spa hnew).2
        · exact .inl (List.mem_filter.1 ((roomFor_sublist _ _).subset hx)).1
    | staInit a =>
      simp only [handle] at hh
      split at hh
      · obtain rfl := Option.some.inj hh
        exact hkeep _ hinv rfl rfl rfl
      · cases hh
    | staDeinit a =>
      obtain rfl := Option.some.inj hh
      exact hkeep _ hinv rfl rfl rfl
    | validate a pmkids before after =>
      simp only [handle] at hh
      split at hh
      · obtain rfl := Option.some.inj hh
        have hsm : ∃ q, validatePmkids c a pmkids before after s = { s with sms := Function.update s.sms a q } := by
          unfold validatePmkids
          simp only [hokc, Bool.false_eq_true, if_false]
          split <;> exact ⟨_, rfl⟩
        obtain ⟨q, hq⟩ := hsm
        rw [hq] at hinv ⊢
        exact hkeep _ hinv rfl rfl rfl
      · cases hh
    | clear a =>
      simp only [handle] at hh
      split at hh
      · obtain rfl := Option.some.inj hh
        exact hkeep _ hinv rfl rfl rfl
      · cases hh
    | _ => exact absurd hev (by simp [Event.removes])

theorem step_exact {w : ℤ × Event} (hokc : c.okc = false) (h : Exact s) (hs : step c s w = some s') :
    Exact s' ∧ s'.now = w.1 ∧ ∀ x ∈ s'.pmksa, x ∈ s.pmksa ∨ w.1 ≤ x.expiration :=
  handle_exact hokc (h.congr (h.toInv.setNow w.1) rfl rfl) (step_cases hs).2

variable {t t₀ : ℤ} {es : List (ℤ × Event)}

theorem run_exact (hokc : c.okc = false) (hrun : run c (.init t₀) es = some s) : Exact s :=
  Lib.run_inv (fun _ _ _ h hs => (step_exact hokc h hs).1) (init_exact t₀) hrun

/-- **The table.** Without OKC there is one entry for a station, there are no more than 1024, and for each of them
the timeout is due within a second of its expiration. -/
theorem table_bounds (hokc : c.okc = false) (hrun : run c (.init t₀) es = some s) :
    Distinct Entry.spa s.pmksa ∧ s.pmksa.length ≤ 1024 ∧ ∀ e ∈ s.pmksa, ∃ d ∈ s.timer, d ≤ e.expiration + 1 :=
  have h := run_exact hokc hrun
  ⟨h.spas, h.room, h.due⟩

theorem table_bounds_plain : plainSt.pmksa.length = 1 ∧ ∀ e ∈ plainSt.pmksa, ∃ d ∈ plainSt.timer, d ≤ e.expiration + 1 :=
  ⟨rfl, (table_bounds rfl plain_run).2.2⟩

/-- **A new entry** is what is found for its station from then on. It takes the place of the entry of the station;
when there is none and the table is full, that of an entry that expires first. Nothing else changes. -/
theorem add_law (hokc : c.okc = false) (hrun : run c (.init t₀) es = some s) (hlen : r.pmk.length ≤ 64)
    (h : step c s (t, .add r) = some s') : ∃ victim : Option Addr,
      (victim.isSome ↔ s.pmksa.length = 1024 ∧ entryOf s r.spa = none) ∧
      (∀ v ∈ victim, ∃ y, entryOf s v = some y ∧ ∀ x ∈ s.pmksa, y.expiration ≤ x.expiration) ∧
      ∀ a, entryOf s' a =
        if a = r.spa then createEntry c r { s with now := t } else if victim = some a then none else entryOf s a := by
  have hs := run_exact hokc hrun
  have ht := hs.congr (hs.toInv.setNow t) rfl rfl
  obtain ⟨e, hnew⟩ : ∃ e, createEntry c r { s with now := t } = some e := by
    unfold createEntry
    rw [if_neg (by omega)]
    exact ⟨_, rfl⟩
  obtain rfl := Option.some.inj (step_cases h).2
  obtain ⟨hex, hpm, -⟩ := ht.authAdd hnew
  change (authAdd c r { s with now := t }).pmksa = Lib.enqueue Entry.expiration e (roomFor r.spa s.pmksa) at hpm
  have hspa := (createEntry_spa hnew).1
  -- what is found afterwards is the new entry or stands where there was room for it
  have hfind : ∀ a x, entryOf (authAdd c r { s with now := t }) a = some x ↔
      (x = e ∨ x ∈ roomFor r.spa s.pmksa) ∧ x.spa = a := fun a x => by
    rw [hex.entryOf_eq_some, hpm, Lib.mem_enqueue]
  -- the others stay, with one exception when the table is full
  obtain ⟨victim, hsome, hfirst, hothers⟩ : ∃ victim : Option Addr,
      (victim.isSome ↔ s.pmksa.length = 1024 ∧ entryOf s r.spa = none) ∧
      (∀ v ∈ victim, ∃ y, entryOf s v = some y ∧ ∀ x ∈ s.pmksa, y.expiration ≤ x.expiration) ∧
      ∀ x, x ∈ roomFor r.spa s.pmksa ↔ x ∈ s.pmksa ∧ x.spa ≠ r.spa ∧ victim ≠ some x.spa := hs.victim r.spa
  refine ⟨victim, hsome, hfirst, fun a => ?_⟩
  rw [hnew]
  split
  · rename_i ha
    exact (hfind a e).2 ⟨.inl rfl, hspa.trans ha.symm⟩
  · rename_i ha
    refine Option.ext fun x => ?_
    rw [hfind, hothers]
    split
    · rename_i hv
      simp only [reduceCtorEq, iff_false, not_and]
      rintro (rfl | ⟨-, -, hx⟩) rfl
      · exact ha hspa
      · exact hx hv
    · rename_i hv
      rw [hs.entryOf_eq_some]
      constructor
      · rintro ⟨rfl | ⟨hx, -, -⟩, rfl⟩
        · exact absurd hspa ha
        · exact ⟨hx, rfl⟩
      · rintro ⟨hx, rfl⟩
        exact ⟨.inr ⟨hx, ha, hv⟩, rfl⟩

/-- A second authentication replaces the entry of the station. -/
theorem add_law_plain : entryOf (authAdd plainConf plainAdd { plainSt with now := 10 }) Addr.second =
    createEntry plainConf plainAdd { plainSt with now := 10 } := by
  have hstep : step plainConf plainSt (10, .add plainAdd) = some (authAdd plainConf plainAdd { plainSt with now := 10 }) :=
    rfl
  obtain ⟨_, -, -, h⟩ := add_law rfl plain_run (by decide) hstep
  exact (h Addr.second).trans (if_pos rfl)

/-- **Nothing stays for long.** In a run without OKC in which nothing happens later than `late` seconds after the
timeout is due, no entry is in the cache for more than a second and `late` seconds after its expiration. -/
theorem expiry_bound {late : ℤ} (hlate₀ : 0 ≤ late) (hokc : c.okc = false)
    (hlate : Lib.Along (step c) (fun s w => ∀ d ∈ s.timer, w.1 ≤ d + late) (.init t₀) es)
    (hrun : run c (.init t₀) es = some s) : ∀ e ∈ s.pmksa, s.now ≤ e.expiration + 1 + late := by
  have hinv := Lib.along_inv (I := fun s => Exact s ∧ ∀ e ∈ s.pmksa, s.now ≤ e.expiration + 1 + late)
    (fun s w s' ⟨hex, _⟩ hw hs => by
      obtain ⟨hex', hnow, hnew⟩ := step_exact hokc hex hs
      refine ⟨hex', fun e he => ?_⟩
      rcases hnew e he with hold | hexp
      · obtain ⟨d, hd, hde⟩ := hex.due e hold
        have hwd := hw d hd
        omega
      · omega) ⟨init_exact t₀, by simp [St.init]⟩ hlate hrun
  exact hinv.2

/-- An event loop that is never late. -/
theorem expiry_bound_plain : plainSt.pmksa.length = 1 ∧ ∀ e ∈ plainSt.pmksa, plainSt.now ≤ e.expiration + 1 + 0 :=
  ⟨rfl, expiry_bound le_rfl rfl (by decide) plain_run⟩

end Lightguard.Pmksa
