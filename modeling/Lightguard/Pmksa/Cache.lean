import Lightguard.Pmksa.Auth

/-!
# The PMKSA cache of the access point over whole runs

* `cache_inv`: in every run the chains, the number of entries and the order of the list are right, and a
  station points at nothing or at an entry of its own that is in the cache.
* `lookup_complete`: to look on one chain is to look on the list.
* `removal_law`: what takes entries away takes exactly those, and the pointers to them.
-/

namespace Lightguard.Pmksa

open Lib (Distinct Chained InOrder)

/-- What is right about the cache and about the pointers into it. -/
structure Inv (s : St) : Prop where
  distinct : Distinct Entry.ptr s.pmksa
  fresh : ∀ e ∈ s.pmksa, e.ptr < s.fresh
  chains : Chained Entry.chain s.pmksa s.pmkid
  count : s.pmksaCount = s.pmksa.length
  order : InOrder Entry.expiration s.pmksa
  live : ∀ a p, s.sms a = some (some p) → ∃ e ∈ s.pmksa, e.ptr = p ∧ e.spa = a
  timer : s.pmksa ≠ [] → s.timer.isSome

theorem init_inv (now : ℤ) : Inv (.init now) where
  distinct := List.nodup_nil
  fresh := by simp [St.init]
  chains := Lib.chained_nil _
  count := rfl
  order := List.Pairwise.nil
  live := by simp [St.init]
  timer h := absurd rfl h

variable {c : Conf} {s s' : St} {e : Entry} {a : Addr}

/-! ## Taking entries off -/

/-- Several entries are freed one after the other. -/
def freeAll (es : List Entry) (s : St) : St := es.foldl (fun s e => freeEntry e s) s

theorem clearCb_eq_some {p : Option ℕ} {n : ℕ} : clearCb e p = some n ↔ p = some n ∧ n ≠ e.ptr := by
  unfold clearCb
  split <;> aesop

/-- **To free an entry** keeps the cache right: the pointers to it go with it. -/
theorem Inv.freeEntry (h : Inv s) (he : e ∈ s.pmksa) : Inv (freeEntry e s) where
  distinct := h.distinct.sublist (Lib.unlink_sublist _ _ _)
  fresh x hx := h.fresh x ((Lib.unlink_sublist _ _ _).subset hx)
  chains := h.chains.unlink h.distinct he
  count := by
    have hlen : (Lib.unlink Entry.ptr e s.pmksa).length + 1 = s.pmksa.length := Lib.length_unlink he
    simp only [Pmksa.freeEntry, h.count]
    omega
  order := h.order.sublist (Lib.unlink_sublist _ _ _)
  live a p hp := by
    obtain ⟨q, hq, hqp⟩ := Option.map_eq_some_iff.1 hp
    obtain ⟨rfl, hne⟩ := clearCb_eq_some.1 hqp
    obtain ⟨x, hx, rfl, hxa⟩ := h.live a p hq
    exact ⟨x, (Lib.mem_unlink h.distinct).2 ⟨hx, hne⟩, rfl, hxa⟩
  timer hne := h.timer fun hnil => hne (by simp [Pmksa.freeEntry, hnil, Lib.unlink])

/-- An address at which one of the entries is. -/
def gone (es : List Entry) (p : ℕ) : Bool := es.any fun e => p = e.ptr

theorem gone_append {es es' : List Entry} {p : ℕ} : gone (es ++ es') p = (gone es p || gone es' p) := List.any_append

/-- What is left of the list and of the pointers when some entries are freed. -/
structure Freed (es : List Entry) (s s' : St) : Prop where
  inv : Inv s'
  pmksa : s'.pmksa = s.pmksa.filter fun x => !gone es x.ptr
  sms : ∀ a, s'.sms a = (s.sms a).map (Option.filter fun p => !gone es p)
  timer : s'.timer = s.timer
  now : s'.now = s.now
  fresh : s'.fresh = s.fresh

theorem freed_refl (h : Inv s) : Freed [] s s where
  inv := h
  pmksa := (List.filter_eq_self.2 fun _ _ => rfl).symm
  sms a := by
    have hself : (Option.filter fun p => !gone [] p) = id := funext fun p => by cases p <;> rfl
    rw [hself, Option.map_id, id]
  timer := rfl
  now := rfl
  fresh := rfl

theorem freed_one (h : Inv s) (he : e ∈ s.pmksa) : Freed [e] s (freeEntry e s) where
  inv := h.freeEntry he
  pmksa := by
    refine (Lib.unlink_eq_filter h.distinct).trans (List.filter_congr fun x _ => ?_)
    simp [gone]
  sms a := by
    refine congrArg (Option.map · (s.sms a)) (funext fun p => ?_)
    cases p with
    | none => rfl
    | some p => by_cases hp : p = e.ptr <;> simp [clearCb, gone, Option.filter_some, hp]
  timer := rfl
  now := rfl
  fresh := rfl

theorem Freed.trans {es es' : List Entry} {t u : St} (h : Freed es s t) (h' : Freed es' t u) : Freed (es ++ es') s u where
  inv := h'.inv
  pmksa := by
    rw [h'.pmksa, h.pmksa, List.filter_filter]
    refine List.filter_congr fun x _ => ?_
    rw [gone_append, Bool.not_or, Bool.and_comm]
  sms a := by
    rw [h'.sms, h.sms, Option.map_map]
    refine congrArg (Option.map · (s.sms a)) (funext fun p => ?_)
    cases p with
    | none => rfl
    | some p => cases hp : gone es p <;> simp [gone_append, Option.filter_some, hp]
  timer := h'.timer.trans h.timer
  now := h'.now.trans h.now
  fresh := h'.fresh.trans h.fresh

theorem freeAll_freed : ∀ {es : List Entry} {s : St}, Inv s → es.Sublist s.pmksa → Freed es s (freeAll es s)
  | [], s, h, _ => freed_refl h
  | e :: es, s, h, hes => by
    have he : e ∈ s.pmksa := hes.subset List.mem_cons_self
    have hd := Lib.distinct_cons.1 (h.distinct.sublist hes)
    -- the others are still on the list
    have hrest : es.Sublist (freeEntry e s).pmksa := by
      have hsub := hes.filter fun x => decide (x.ptr ≠ e.ptr)
      rw [List.filter_cons_of_neg (by simp), List.filter_eq_self.2 fun x hx => by simpa using hd.1 x hx] at hsub
      rw [freeEntry, Lib.unlink_eq_filter h.distinct]
      exact hsub
    exact (freed_one h he).trans (freeAll_freed (h.freeEntry he) hrest)

/-- The loop frees what is at the front. -/
theorem freeWhile_eq {f : Entry → Bool} : ∀ {l : List Entry} {s : St}, Inv s → s.pmksa = l →
    freeWhile f l.length s = freeAll (l.takeWhile f) s
  | [], _, _, _ => rfl
  | e :: l, s, h, hl => by
    rw [List.length_cons, freeWhile, hl]
    have hnext : (freeEntry e s).pmksa = l := by rw [freeEntry, hl, Lib.unlink_cons_self]
    cases hf : f e with
    | false => simp [hf, freeAll]
    | true =>
      have ih := freeWhile_eq (f := f) (h.freeEntry (hl ▸ List.mem_cons_self)) hnext
      simp only [hf, if_true, ih, List.takeWhile_cons_of_pos hf, freeAll, List.foldl_cons]

/-! ## Putting entries on -/

theorem setExpiration_inv (h : Inv s) : Inv (setExpiration s) :=
  { h with
    timer := fun hne => by
      obtain ⟨e, l, hl⟩ := List.exists_cons_of_ne_nil hne
      simp [setExpiration, show s.pmksa = e :: l from hl] }

@[simp] theorem linkEntry_pmksa : (linkEntry e s).pmksa = Lib.enqueue Entry.expiration e s.pmksa := by
  unfold linkEntry
  simp only
  split <;> rfl

@[simp] theorem linkEntry_now : (linkEntry e s).now = s.now := by
  unfold linkEntry
  simp only
  split <;> rfl

/-- **A new entry** keeps the cache right. -/
theorem Inv.linkEntry (h : Inv s) (hp : ∀ x ∈ s.pmksa, x.ptr ≠ e.ptr) (hf : e.ptr < s.fresh) : Inv (linkEntry e s) := by
  have hperm := Lib.enqueue_perm Entry.expiration e s.pmksa
  have hnew : (s.pmksa ≠ [] → s.timer.isSome) → ∀ t, (t = s.timer ∧ s.pmksa ≠ [] ∨ t.isSome) →
      Inv { s with
        pmksa := Lib.enqueue Entry.expiration e s.pmksa
        pmkid := Function.update s.pmkid e.chain (e :: s.pmkid e.chain)
        pmksaCount := s.pmksaCount + 1
        timer := t } := fun htimer t ht =>
    { distinct := (Lib.distinct_cons.2 ⟨hp, h.distinct⟩).perm hperm
      fresh := fun x hx => by
        rcases Lib.mem_enqueue.1 hx with rfl | hx
        · exact hf
        · exact h.fresh x hx
      chains := h.chains.link hperm
      count := by simp [h.count]
      order := h.order.enqueue
      live := fun a p hap => by
        obtain ⟨x, hx, hxp⟩ := h.live a p hap
        exact ⟨x, Lib.mem_enqueue.2 (.inr hx), hxp⟩
      timer := fun _ => by
        rcases ht with ⟨rfl, hne⟩ | ht
        · exact htimer hne
        · exact ht }
  unfold Pmksa.linkEntry
  simp only
  split
  · refine hnew h.timer _ (.inr ?_)
    have hne : Lib.enqueue Entry.expiration e s.pmksa ≠ [] := List.ne_nil_of_mem (Lib.mem_enqueue.2 (.inl rfl))
    obtain ⟨x, l, hl⟩ := List.exists_cons_of_ne_nil hne
    simp [hl]
  · rename_i hhead
    refine hnew h.timer _ (.inl ⟨rfl, fun hnil => hhead (by simp [hnil])⟩)

/-! ## Looking up -/

/-- The entries a search is about. -/
def Matches (spa : Option Addr) (pmkid : Option Pmkid) (e : Entry) : Prop :=
  (∀ a ∈ spa, e.spa = a) ∧ ∀ k ∈ pmkid, e.pmkid = k

/-- **To look on one chain is to look on the list.** -/
theorem Inv.authGet (h : Inv s) (spa : Option Addr) (pmkid : Option Pmkid) :
    (∀ e ∈ authGet s spa pmkid, e ∈ s.pmksa ∧ Matches spa pmkid e) ∧
    (authGet s spa pmkid = none ↔ ∀ e ∈ s.pmksa, ¬ Matches spa pmkid e) := by
  have hspa : ∀ e : Entry, spa.all (e.spa = ·) = true ↔ ∀ a ∈ spa, e.spa = a := by cases spa <;> simp
  cases pmkid with
  | none =>
    refine ⟨fun e he => ⟨List.mem_of_find?_eq_some he,
      (hspa e).1 (by simpa using List.find?_some (p := fun e : Entry => spa.all (e.spa = ·)) he), by simp⟩, ?_⟩
    rw [Pmksa.authGet, List.find?_eq_none]
    simp only [hspa, Matches, Option.not_mem_none, false_implies, implies_true, and_true]
  | some k =>
    refine ⟨fun e he => ?_, ?_⟩
    · obtain ⟨hmem, -⟩ := h.chains.mem.1 (List.mem_of_find?_eq_some he)
      have hf := List.find?_some he
      simp only [Bool.and_eq_true, hspa, decide_eq_true_eq] at hf
      exact ⟨hmem, hf.1, by simpa using hf.2⟩
    · rw [Pmksa.authGet, h.chains.find?_eq_none fun e he => ?_]
      · simp only [← Bool.not_eq_true, Bool.and_eq_true, hspa, decide_eq_true_eq, Matches, Option.mem_some_iff, forall_eq']
      · simp only [Bool.and_eq_true, decide_eq_true_eq] at he
        exact congrArg pmkidHash he.2

/-! ## One event -/

theorem Inv.setNow (h : Inv s) (t : ℤ) : Inv { s with now := t } :=
  ⟨h.distinct, h.fresh, h.chains, h.count, h.order, h.live, h.timer⟩

theorem Inv.setSm (h : Inv s) {q : Option (Option ℕ)}
    (hq : ∀ p, q = some (some p) → ∃ e ∈ s.pmksa, e.ptr = p ∧ e.spa = a) :
    Inv { s with sms := Function.update s.sms a q } := by
  refine ⟨h.distinct, h.fresh, h.chains, h.count, h.order, fun b p hb => ?_, h.timer⟩
  by_cases hba : b = a
  · subst hba
    exact hq p (by simpa using hb)
  · exact h.live b p (by simpa [Function.update_of_ne hba] using hb)

theorem Inv.freshen (h : Inv s) : Inv { s with fresh := s.fresh + 1 } :=
  ⟨h.distinct, fun e he => (h.fresh e he).trans (Nat.lt_succ_self _), h.chains, h.count, h.order, h.live, h.timer⟩

theorem dropSame_freed (h : Inv s) (spa : Addr) :
    ∃ es, es.Sublist s.pmksa ∧ (∀ x ∈ s.pmksa, gone es x.ptr = (authGet s (some spa) none).any (x.ptr = ·.ptr)) ∧
      Freed es s (dropSame spa s) := by
  unfold dropSame
  cases hget : authGet s (some spa) none with
  | none => exact ⟨[], List.nil_sublist _, fun _ _ => rfl, freed_refl h⟩
  | some pos =>
    have hpos := ((h.authGet (some spa) none).1 pos hget).1
    exact ⟨[pos], List.singleton_sublist.2 hpos, fun x _ => by simp [gone], freed_one h hpos⟩

theorem dropOldest_freed (h : Inv s) : ∃ es, Freed es s (dropOldest s) := by
  unfold dropOldest
  split
  · rename_i pos l hl
    split
    · exact ⟨[pos], freed_one h (hl ▸ List.mem_cons_self)⟩
    · exact ⟨[], freed_refl h⟩
  · exact ⟨[], freed_refl h⟩

theorem createEntry_ptr {r : AddArgs} (h : createEntry c r s = some e) : e.ptr = s.fresh := by
  unfold createEntry at h
  split at h
  · cases h
  · obtain rfl := Option.some.inj h
    rfl

/-- An entry at a new address is at none of the addresses of the list. -/
theorem Inv.ne_fresh (h : Inv s) : ∀ x ∈ s.pmksa, x.ptr ≠ s.fresh := fun x hx => (h.fresh x hx).ne

theorem Inv.authAdd (h : Inv s) (r : AddArgs) : Inv (authAdd c r s) := by
  unfold Pmksa.authAdd
  cases hnew : createEntry c r s with
  | none => exact h
  | some e =>
    obtain ⟨es, -, -, hsame⟩ := dropSame_freed h.freshen e.spa
    obtain ⟨es', hold⟩ := dropOldest_freed hsame.inv
    have hes := hsame.trans hold
    have hptr := createEntry_ptr hnew
    refine hes.inv.linkEntry (fun x hx => ?_) ?_
    · rw [hes.pmksa] at hx
      rw [hptr]
      exact h.ne_fresh x (List.mem_filter.1 hx).1
    · rw [hes.fresh, hptr]
      exact Nat.lt_succ_self _

theorem getOkc_spa {l : List Entry} {aa spa : Addr} {k : Pmkid} (h : getOkc c l aa spa k = some e) : e.spa = spa := by
  have hf := List.find?_some h
  simp only [Bool.and_eq_true, decide_eq_true_eq] at hf
  exact hf.1

theorem Inv.validatePmkids (h : Inv s) (a : Addr) (pmkids : List Pmkid) (before after : List (List Entry)) :
    Inv (validatePmkids c a pmkids before after s) := by
  unfold Pmksa.validatePmkids
  cases hown : pmkids.findSome? (Pmksa.authGet s (some a) ∘ some) with
  | some e =>
    refine h.setSm fun p hp => ?_
    obtain ⟨k, -, hk⟩ := List.exists_of_findSome?_eq_some hown
    obtain ⟨hmem, hspa, -⟩ := (h.authGet (some a) (some k)).1 e hk
    exact ⟨e, hmem, by simpa using hp, hspa a rfl⟩
  | none =>
    simp only
    split
    · rename_i old k hokc
      split at hokc
      · obtain ⟨k', -, hk'⟩ := List.exists_of_findSome?_eq_some hokc
        obtain ⟨e, he, hek⟩ := Option.map_eq_some_iff.1 hk'
        obtain ⟨l, -, hl⟩ := List.exists_of_findSome?_eq_some he
        obtain ⟨rfl, rfl⟩ : e = old ∧ k' = k := by simpa using hek
        have hlink : Inv (addOkc e k' s) := h.freshen.linkEntry h.ne_fresh (Nat.lt_succ_self _)
        refine hlink.setSm fun p hp => ⟨okcEntry e k' s, ?_, (Option.some.inj (Option.some.inj hp)),
          (getOkc_spa hl : e.spa = a)⟩
        exact linkEntry_pmksa ▸ Lib.mem_enqueue.2 (.inl rfl)
      · cases hokc
    · exact h.setSm (by simp)

/-- The entries that an event takes away at a time. -/
def drops (now : ℤ) (s : St) : Event → Entry → Bool
  | .expire, e => e.expiration ≤ now
  | .flush, _ => true
  | .remove spa, e => (authGet s (some spa) none).any (e.ptr = ·.ptr)
  | .dasDisconnect attr, e => !attr.acctSessionId && dasAttrMatch e attr ≠ 0
  | _, _ => false

/-- The events that only take entries away. -/
def Event.removes : Event → Bool
  | .expire | .flush | .remove _ | .dasDisconnect _ => true
  | _ => false

theorem gone_filter (h : Inv s) (f : Entry → Bool) : ∀ x ∈ s.pmksa, gone (s.pmksa.filter f) x.ptr = f x := by
  intro x hx
  rw [Bool.eq_iff_iff, gone, List.any_eq_true]
  constructor
  · rintro ⟨y, hy, hxy⟩
    obtain ⟨hys, hyf⟩ := List.mem_filter.1 hy
    rwa [h.distinct.eq hx hys (of_decide_eq_true hxy)]
  · intro hfx
    exact ⟨x, List.mem_filter.2 ⟨hx, hfx⟩, decide_eq_true rfl⟩

theorem foldl_freeEntry {f : Entry → Bool} (l : List Entry) (s : St) :
    l.foldl (fun s e => if f e then freeEntry e s else s) s = freeAll (l.filter f) s := by
  rw [freeAll, List.foldl_filter]

/-- What takes entries away frees them one after the other. -/
theorem handle_freed {ev : Event} (h : Inv s) (hev : ev.removes = true) (hh : handle c s ev = some s') :
    ∃ es t, (∀ x ∈ s.pmksa, gone es x.ptr = drops s.now s ev x) ∧ Freed es s t ∧
      (s' = t ∨ ev = .expire ∧ s' = setExpiration t) := by
  cases ev with
  | expire =>
    simp only [handle] at hh
    split at hh
    · obtain rfl := Option.some.inj hh
      have hloop := freeWhile_eq (f := fun e => decide (e.expiration ≤ s.now)) h rfl
      rw [h.order.takeWhile_eq] at hloop
      exact ⟨_, _, gone_filter h fun e => decide (e.expiration ≤ s.now), freeAll_freed h List.filter_sublist,
        .inr ⟨rfl, congrArg setExpiration hloop⟩⟩
    · cases hh
  | flush =>
    obtain rfl := Option.some.inj hh
    have hloop := freeWhile_eq (f := fun _ => true) h rfl
    rw [List.takeWhile_eq_self_iff.2 fun _ _ => rfl] at hloop
    refine ⟨_, _, fun x hx => ?_, freeAll_freed h (List.Sublist.refl _), .inl hloop⟩
    exact List.any_eq_true.2 ⟨x, hx, decide_eq_true rfl⟩
  | remove spa =>
    obtain rfl := Option.some.inj hh
    obtain ⟨es, -, hgone, hes⟩ := dropSame_freed h spa
    exact ⟨es, _, hgone, hes, .inl rfl⟩
  | dasDisconnect attr =>
    obtain rfl := Option.some.inj hh
    cases hid : attr.acctSessionId with
    | true => exact ⟨[], _, fun x _ => by simp [drops, hid, gone], freed_refl h, .inl (by simp [dasDisconnect, hid])⟩
    | false =>
      refine ⟨_, _, fun x hx => (gone_filter h (fun e => decide (dasAttrMatch e attr ≠ 0)) x hx).trans ?_,
        freeAll_freed h List.filter_sublist, .inl ?_⟩
      · simp [drops, hid]
      · rw [← foldl_freeEntry, dasDisconnect, hid]
        simp only [Bool.false_eq_true, if_false, decide_eq_true_eq]
  | _ => exact absurd hev (by simp [Event.removes])

theorem handle_inv {ev : Event} (h : Inv s) (hh : handle c s ev = some s') : Inv s' := by
  cases hev : ev.removes with
  | true =>
    obtain ⟨es, t, -, hes, rfl | ⟨-, rfl⟩⟩ := handle_freed h hev hh
    · exact hes.inv
    · exact setExpiration_inv hes.inv
  | false =>
    cases ev with
    | add r =>
      obtain rfl := Option.some.inj hh
      exact h.authAdd r
    | staInit a =>
      simp only [handle] at hh
      split at hh
      · obtain rfl := Option.some.inj hh
        exact h.setSm (by simp)
      · cases hh
    | staDeinit a =>
      obtain rfl := Option.some.inj hh
      exact h.setSm (by simp)
    | validate a pmkids before after =>
      simp only [handle] at hh
      split at hh
      · obtain rfl := Option.some.inj hh
        exact h.validatePmkids a pmkids before after
      · cases hh
    | clear a =>
      simp only [handle] at hh
      split at hh
      · obtain rfl := Option.some.inj hh
        exact h.setSm (by simp)
      · cases hh
    | _ => exact absurd hev (by simp [Event.removes])

theorem step_cases {w : ℤ × Event} (h : step c s w = some s') :
    s.now ≤ w.1 ∧ handle c { s with now := w.1 } w.2 = some s' := by
  unfold step at h
  split at h
  · exact ⟨‹_›, h⟩
  · cases h

theorem step_inv (h : Inv s) {w : ℤ × Event} (hs : step c s w = some s') : Inv s' :=
  handle_inv (h.setNow w.1) (step_cases hs).2

/-! ## Whole runs -/

variable {t : ℤ} {es : List (ℤ × Event)}

theorem run_inv (hrun : run c (.init t) es = some s) : Inv s :=
  Lib.run_inv (fun _ _ _ h hs => step_inv h hs) (init_inv t) hrun

/-- **In every run** the chains, the number and the order of the entries are right, and whatever is freed, a
station that points at an entry points at one that is in the cache and is its own. -/
theorem cache_inv (hrun : run c (.init t) es = some s) :
    Chained Entry.chain s.pmksa s.pmkid ∧ s.pmksaCount = s.pmksa.length ∧ InOrder Entry.expiration s.pmksa ∧
      (∀ a p, s.sms a = some (some p) → ∃ e ∈ s.pmksa, e.ptr = p ∧ e.spa = a) ∧ (s.pmksa ≠ [] → s.timer.isSome) := by
  have h := run_inv hrun
  exact ⟨h.chains, h.count, h.order, h.live, h.timer⟩

/-- The station of the plain run points at its entry. -/
theorem cache_inv_plain : (smPmksa plainSt Addr.second).isSome = true ∧
    Chained Entry.chain plainSt.pmksa plainSt.pmkid ∧ plainSt.pmksaCount = plainSt.pmksa.length ∧
      InOrder Entry.expiration plainSt.pmksa ∧
      (∀ a p, plainSt.sms a = some (some p) → ∃ e ∈ plainSt.pmksa, e.ptr = p ∧ e.spa = a) ∧
      (plainSt.pmksa ≠ [] → plainSt.timer.isSome) :=
  ⟨rfl, cache_inv plain_run⟩

/-- **A search by PMKID**, which looks at one chain only, finds an entry exactly when one is in the cache. -/
theorem lookup_complete (hrun : run c (.init t) es = some s) (spa : Option Addr) (pmkid : Option Pmkid) :
    (∀ e ∈ authGet s spa pmkid, e ∈ s.pmksa ∧ Matches spa pmkid e) ∧
    (authGet s spa pmkid = none ↔ ∀ e ∈ s.pmksa, ¬ Matches spa pmkid e) :=
  (run_inv hrun).authGet spa pmkid

theorem lookup_complete_plain : ∃ e ∈ plainSt.pmksa, Matches (some Addr.second) (some plainPmkid) e :=
  ⟨_, (lookup_complete plain_run (some Addr.second) (some plainPmkid)).1 _ rfl⟩

theorem smPmksa_eq_some (h : Inv s) : smPmksa s a = some e ↔ e ∈ s.pmksa ∧ s.sms a = some (some e.ptr) := by
  unfold smPmksa
  constructor
  · intro hp
    obtain ⟨p, hp, hfind⟩ := Option.bind_eq_some_iff.1 hp
    obtain ⟨he, rfl⟩ := h.distinct.find?_eq_some.1 hfind
    exact ⟨he, Option.join_eq_some_iff.1 hp⟩
  · rintro ⟨he, ha⟩
    rw [ha]
    exact h.distinct.find?_eq_some.2 ⟨he, rfl⟩

/-- **What takes entries away** takes exactly those it is about; the stations that point at one of them point at
nothing afterwards, and the others point where they did. -/
theorem removal_law (hrun : run c (.init t) es = some s) {now : ℤ} {ev : Event} (hev : ev.removes = true)
    (h : step c s (now, ev) = some s') :
    s'.pmksa = s.pmksa.filter (!drops now s ev ·) ∧
      ∀ a, smPmksa s' a = (smPmksa s a).filter (!drops now s ev ·) := by
  have hinv := run_inv hrun
  have hinv' := step_inv hinv h
  obtain ⟨es, u, hgone, hes, hu⟩ := handle_freed (hinv.setNow now) hev (step_cases h).2
  have hpm : s'.pmksa = u.pmksa := by rcases hu with rfl | ⟨-, rfl⟩ <;> rfl
  have hsms : s'.sms = u.sms := by rcases hu with rfl | ⟨-, rfl⟩ <;> rfl
  have hdrops : ∀ x ∈ s.pmksa, gone es x.ptr = drops now s ev x := by
    intro x hx
    rw [hgone x hx]
    cases ev <;> rfl
  have hfilter : s'.pmksa = s.pmksa.filter (!drops now s ev ·) := by
    rw [hpm, hes.pmksa]
    exact List.filter_congr fun x hx => by rw [hdrops x hx]
  refine ⟨hfilter, fun a => Option.ext fun e => ?_⟩
  rw [Option.filter_eq_some_iff, smPmksa_eq_some hinv', smPmksa_eq_some hinv, hfilter, List.mem_filter, hsms, hes.sms]
  simp only [Option.map_eq_some_iff, Option.filter_eq_some_iff]
  constructor
  · rintro ⟨⟨he, hd⟩, p, hp, rfl, -⟩
    exact ⟨⟨he, hp⟩, hd⟩
  · rintro ⟨⟨he, hp⟩, hd⟩
    exact ⟨⟨he, hd⟩, some e.ptr, hp, rfl, by rw [hdrops e he]; exact hd⟩

/-- The entry of the plain run expires. -/
theorem removal_law_plain : (expire { plainSt with now := 43201 }).pmksa = [] ∧
    smPmksa (expire { plainSt with now := 43201 }) Addr.second = none := by
  have hstep : step plainConf plainSt (43201, .expire) = some (expire { plainSt with now := 43201 }) := rfl
  have h := removal_law plain_run rfl hstep
  exact ⟨h.1.trans rfl, (h.2 Addr.second).trans rfl⟩

end Lightguard.Pmksa
