import Lightguard.Pmksa.Current

/-!
# What the station's cache lets go and what it uses

* `add_keeps`: a new entry takes the place of the old one of its access point, and of no more than it has to.
* `expire_law`: without OKC the timeout frees what has expired, and the station loses its association when its own
  PMK goes.
* `select_law`: the entry that is taken into use is one of the cache for what has been asked for.
-/

namespace Lightguard.Pmksa.Sta

open Wpa
open Lib (Distinct InOrder)

variable {c : Conf} {s s' t : St} {e x : Entry} {off l : List Entry} {t₀ now : ℤ} {es : List (ℤ × Event)} {r : AddArgs}

/-! ## New entries -/

/-- What has to go when `e` comes in: what an old entry of the access point takes with it, or the oldest entry
that is not in use, when there is no room for another one. -/
inductive Displaced (e : Entry) (s s' : St) (x : Entry) : Prop
  | sameAp (ha : x.aa = e.aa)
  | samePmk (pos : Entry) (hpos : pos ∈ s.pmksa) (ha : pos.aa = e.aa) (ho : pos.opportunistic = false)
      (hf : flushes e.networkCtx (some pos.pmk) false x = true)
  | oldest (hfull : s.pmksa.length = 32) (hidle : s.isCurrent x = false)
      (hfirst : ∀ y ∈ s'.pmksa, y = e ∨ s.isCurrent y = true ∨ [x, y].Sublist s.pmksa)

/-- What there is afterwards: the new entry, or one just like it, and the rest. -/
theorem addEntry_law (h : Inv s) (e : Entry) :
    (addEntry e s).1.aa = e.aa ∧ (addEntry e s).1.pmk = e.pmk ∧ (addEntry e s).1.pmkid = e.pmkid ∧
      (∀ x ∈ (addEntry e s).2.pmksa, x = (addEntry e s).1 ∨ x ∈ s.pmksa) ∧
      ∀ x ∈ s.pmksa, x ∉ (addEntry e s).2.pmksa → Displaced e s (addEntry e s).2 x := by
  rcases addEntry_cases h e with ⟨pos, hpos, ha, hk, hid, heq⟩ | ⟨t, hc, hr, hleft, hmem, heq⟩ <;> rw [heq]
  · exact ⟨ha, hk, hid, fun x hx => .inr hx, fun x hx hno => absurd hx hno⟩
  have hroom : ∀ x ∈ (makeRoom t).pmksa, x ∈ t.pmksa := fun x hx => (makeRoom_sublist hc hr).subset hx
  refine ⟨rfl, rfl, rfl, fun x hx => ?_, fun x hx hno => ?_⟩
  · exact (mem_fileEntry.1 hx).imp_right fun hx => hleft.sub.subset (hroom x hx)
  simp only [mem_fileEntry, not_or] at hno
  by_cases hxt : x ∈ t.pmksa
  -- the entry has been left, so it has made room
  · rcases makeRoom_cases hc hr.bound with ⟨-, heq'⟩ | ⟨hlen, v, hv, hidle, heq', hfirst⟩
    · rw [heq'] at hno
      exact absurd hxt hno.2
    have hxv : x = v := by
      have hnot := hno.2
      rw [heq', mem_freeEntry hc, not_and_not_right] at hnot
      exact hc.distinct_pmksa.eq hxt hv (hnot hxt)
    subst hxv
    have hsame : t.pmksa = s.pmksa := hleft.sub.eq_of_length_le (hlen ▸ h.bound)
    refine .oldest (hsame ▸ hlen) ?_ fun y hy => ?_
    · rw [Bool.eq_false_iff]
      exact fun hcur => Bool.false_ne_true (hidle.symm.trans (hleft.cur x hxt hcur))
    · rcases mem_fileEntry.1 hy with rfl | hy
      · exact .inl rfl
      · rw [heq', mem_freeEntry hc] at hy
        rw [← hsame]
        exact .inr ((hfirst y hy.1 hy.2).imp_left (hleft.was y))
  -- the entry has gone with an old entry of the access point
  · by_cases ha : x.aa = e.aa
    · exact .sameAp ha
    · have hnot : ¬ stays e s.pmksa x := fun hs => hxt ((hmem x).2 ⟨hx, hs⟩)
      simp only [stays, not_and, not_forall, Bool.not_eq_false] at hnot
      obtain ⟨pos, hpos, hpa, ho, hf⟩ := hnot ha
      exact .samePmk pos hpos hpa ho hf

/-- No other entry comes into use. -/
theorem addEntry_was (h : Inv s) (e : Entry) (hx : (addEntry e s).2.isCurrent x = true) : s.isCurrent x = true := by
  rcases addEntry_cases h e with ⟨pos, -, -, -, -, heq⟩ | ⟨t, hc, hr, hleft, -, heq⟩ <;> rw [heq] at hx
  · exact hx
  have hroom : (makeRoom t).isCurrent x = true := by
    have hfile : (fileEntry e (makeRoom t)).curPmksa = (makeRoom t).curPmksa := by
      unfold fileEntry setExpiration
      simp only
      split
      · split <;> rfl
      · rfl
    rwa [St.isCurrent, hfile] at hx
  refine hleft.was x ?_
  rcases makeRoom_cases hc hr.bound with ⟨-, heq'⟩ | ⟨-, v, -, -, heq', -⟩ <;> rw [heq'] at hroom
  · exact hroom
  · exact Left.was_current hroom

/-- What an event files in the cache by `pmksa_cache_add`. -/
def Event.adds : Event → Option AddArgs
  | .add r _ | .getPmkEap r _ => some r
  | _ => none

/-- The entry that such an event takes into use is the new one. -/
theorem handle_adds {ev : Event} (hev : ev.adds = some r) (h : handle c s ev = some s') :
    ∃ cur, s' = { (add c r s).2 with curPmksa := cur } ∧
      (∀ x ∈ cur, x ∈ (add c r s).1 ∨ x ∈ (add c r s).2.curPmksa) ∧
      (ev = .add r .always → cur = (add c r s).1) := by
  cases ev with
  | add r' u =>
    obtain rfl := Option.some.inj hev
    obtain rfl := Option.some.inj h
    refine ⟨_, rfl, fun x hx => mem_current hx, fun hu => ?_⟩
    obtain ⟨-, rfl⟩ := Event.add.inj hu
    rfl
  | getPmkEap r' k =>
    obtain rfl := Option.some.inj hev
    obtain rfl := Option.some.inj h
    rcases getPmkEap_cases c r' k s with ⟨-, heq⟩ | heq <;> rw [heq]
    · exact ⟨_, rfl, fun x hx => .inr hx, nofun⟩
    · exact ⟨_, rfl, fun x hx => mem_current hx, nofun⟩
  | _ => cases hev

/-- **A new entry** is in the cache afterwards, or one for the same access point with the same PMK and PMKID. What is
in use then is this entry or has been before, and `wpa_sm_pmksa_cache_add` takes it into use; of the others only
those are gone that had to. -/
theorem add_keeps (hrun : run c (.init t₀) es = some s) (hlen : r.pmk.length ≤ 64) {ev : Event}
    (hev : ev.adds = some r) (h : step c s (now, ev) = some s') :
    ∃ e ∈ s'.pmksa, e.aa = r.aa ∧ e.pmk = r.pmk ∧ e.pmkid = r.pmkid.getD (c.rsnPmkid r.pmk r.aa c.ownAddr r.akmp) ∧
      (∀ x, s'.isCurrent x = true → x.ptr = e.ptr ∨ s.isCurrent x = true) ∧
      (ev = .add r .always → s'.curPmksa = some e) ∧
      (∀ x ∈ s'.pmksa, x = e ∨ x ∈ s.pmksa) ∧
      ∀ x ∈ s.pmksa, x ∉ s'.pmksa → Displaced (newEntry c r { s with now := now }) s s' x := by
  have hs := run_inv hrun
  have hfresh : ∀ x ∈ s.pmksa, x.ptr ≠ s.fresh := fun x hx => (hs.fresh x hx).ne
  obtain ⟨cur, rfl, hcur, halways⟩ := handle_adds hev (step_cases h).2
  have hadd : add c r { s with now := now } = (addEntry (newEntry c r { s with now := now })
      { s with now := now, fresh := s.fresh + 1 }).map some id := if_neg (by omega)
  have hinv : Inv { s with now := now, fresh := s.fresh + 1 } := (hs.setNow now).freshen
  obtain ⟨-, hmem⟩ := hinv.addEntry (e := newEntry c r { s with now := now }) hfresh (Nat.lt_succ_self _)
  obtain ⟨ha, hk, hid, hrest, hgone⟩ := addEntry_law hinv (newEntry c r { s with now := now })
  have hwas : ∀ x, (addEntry (newEntry c r { s with now := now })
      { s with now := now, fresh := s.fresh + 1 }).2.isCurrent x = true → s.isCurrent x = true :=
    fun x => addEntry_was hinv _
  rw [hadd] at hcur halways ⊢
  generalize addEntry (newEntry c r { s with now := now }) { s with now := now, fresh := s.fresh + 1 } = p at *
  refine ⟨p.1, hmem, ha, hk, hid, fun x hx => ?_, halways, hrest, fun x hx hno => ?_⟩
  · obtain ⟨y, hy, hyx⟩ := (Option.any_eq_true _ _).1 hx
    rcases hcur y hy with hnew | hold
    · obtain rfl := Option.some.inj hnew
      exact .inl (of_decide_eq_true hyx).symm
    · exact .inr (hwas x ((Option.any_eq_true _ _).2 ⟨y, hold, hyx⟩))
  · cases hgone x hx hno with
    | sameAp ha => exact .sameAp ha
    | samePmk pos hpos ha ho hf => exact .samePmk pos hpos ha ho hf
    | oldest hfull hidle hfirst => exact .oldest hfull hidle hfirst

/-- A reauthentication: the new PMK takes the place of the old one. -/
theorem add_keeps_plain : ∃ e ∈ (add plainConf { plainAdd with pmkid := none, pmk := [1] } plainSt).2.pmksa,
    e.aa = Addr.first ∧ e.pmk = [1] ∧ e.pmkid = plainPmkid := by
  have hstep : step plainConf plainSt (0, .add { plainAdd with pmkid := none, pmk := [1] } .always) = some _ := rfl
  obtain ⟨e, he, ha, hk, hid, -⟩ := add_keeps plain_run (by decide) rfl hstep
  exact ⟨e, he, ha, hk, hid⟩

/-! ## Expiration -/

/-- The entry in use, or one with the PMK in use. -/
def Hit (s : St) (x : Entry) : Prop := s.isCurrent x = true ∨ s.pmk = x.pmk

/-- **An entry that expires** takes the association with it when it is hit, and nothing else otherwise. -/
theorem freeEntry_expire (s : St) (e : Entry) :
    Hit s e ∧ (freeEntry .expire e s).trace = [.deauthenticate, .removePmkid e.networkCtx e.aa e.pmkid] ++ s.trace ∨
    ¬ Hit s e ∧ (freeEntry .expire e s).curPmksa = s.curPmksa ∧ (freeEntry .expire e s).pmk = s.pmk ∧
      (freeEntry .expire e s).trace = [.removePmkid e.networkCtx e.aa e.pmkid] ++ s.trace := by
  unfold freeEntry freeCb Hit
  simp only [St.isCurrent]
  cases hcur : s.curPmksa.any (·.ptr = e.ptr) with
  | true => exact .inl ⟨.inl rfl, by simp⟩
  | false =>
    by_cases hk : s.pmk = e.pmk
    · exact .inl ⟨.inr hk, by simp [hk]⟩
    · exact .inr ⟨by simp [hk], by simp [hk], by simp [hk], by simp [hk]⟩

/-- The loop of the timeout, over the rest of a list that is in order. -/
theorem expireLoop_spec (h : Core off s) (hl : l.Sublist s.pmksa) (ho : InOrder Entry.expiration l) :
    (∀ x ∈ (expireLoop l s).pmksa, x ∈ s.pmksa ∧
      (x ∈ l → x.expiration ≤ s.now → x.akmp = .sae ∧ s.isCurrent x = true)) ∧
    (∀ x ∈ s.pmksa, x ∉ l ∨ s.now < x.expiration → x ∈ (expireLoop l s).pmksa) ∧
    ∃ o, (expireLoop l s).trace = o ++ s.trace ∧
      (.deauthenticate ∈ o ↔ ∃ x ∈ s.pmksa, x ∉ (expireLoop l s).pmksa ∧ Hit s x) := by
  induction l generalizing s with
  | nil =>
    refine ⟨fun x hx => ⟨hx, by simp⟩, fun x hx _ => hx, [], rfl, by simp, ?_⟩
    rintro ⟨x, hx, hno, -⟩
    exact absurd hx hno
  | cons e l ih =>
    obtain ⟨hle, ho'⟩ := List.pairwise_cons.1 ho
    have he : e ∈ s.pmksa := hl.subset List.mem_cons_self
    unfold expireLoop
    by_cases hexp : e.expiration ≤ s.now
    · rw [if_pos hexp]
      by_cases hkeep : e.akmp = .sae ∧ s.isCurrent e = true
      -- the entry in use is passed over
      · rw [if_pos hkeep]
        obtain ⟨h1, h2, h3⟩ := ih h (List.sublist_of_cons_sublist hl) ho'
        refine ⟨fun x hx => ⟨(h1 x hx).1, fun hxl hxe => ?_⟩, fun x hx hno => h2 x hx ?_, h3⟩
        · rcases List.mem_cons.1 hxl with rfl | hxl
          · exact hkeep
          · exact (h1 x hx).2 hxl hxe
        · exact hno.imp_left fun hn hxl => hn (List.mem_cons_of_mem _ hxl)
      · rw [if_neg hkeep]
        have hd := h.distinct_pmksa
        obtain ⟨h1, h2, o, ho, h3⟩ := ih (h.freeEntry (r := .expire) he) (sublist_unlink hd hl) ho'
        simp only [mem_freeEntry h, freeEntry_now] at h1 h2 h3
        have hout : ∀ x ∈ (expireLoop l (freeEntry .expire e s)).pmksa, x ≠ e := fun x hx hxe =>
          (h1 x hx).1.2 (hxe ▸ rfl)
        refine ⟨fun x hx => ⟨(h1 x hx).1.1, fun hxl hxe => ?_⟩, fun x hx hno => h2 x ⟨hx, fun hptr => ?_⟩ ?_, ?_⟩
        · have hxl' := List.mem_of_ne_of_mem (hout x hx) hxl
          exact ⟨((h1 x hx).2 hxl' hxe).1, Left.was_current ((h1 x hx).2 hxl' hxe).2⟩
        · obtain rfl := hd.eq hx he hptr
          exact hno.elim (fun hn => hn List.mem_cons_self) fun hlt => absurd hexp (not_le.2 hlt)
        · exact hno.imp_left fun hn hxl => hn (List.mem_cons_of_mem _ hxl)
        rcases freeEntry_expire s e with ⟨hhit, htr⟩ | ⟨hmiss, hcur, hpmk, htr⟩
        · refine ⟨o ++ [.deauthenticate, .removePmkid e.networkCtx e.aa e.pmkid], by rw [ho, htr, List.append_assoc], ?_⟩
          exact ⟨fun _ => ⟨e, he, fun hin => hout e hin rfl, hhit⟩, fun _ => by simp⟩
        · refine ⟨o ++ [.removePmkid e.networkCtx e.aa e.pmkid], by rw [ho, htr, List.append_assoc], ?_⟩
          have hsame : ∀ x, Hit (freeEntry .expire e s) x ↔ Hit s x := fun x => by
            rw [Hit, Hit, St.isCurrent, St.isCurrent, hcur, hpmk]
          rw [List.mem_append, h3]
          simp only [hsame, List.mem_singleton, reduceCtorEq, or_false]
          constructor
          · rintro ⟨x, ⟨hx, -⟩, hno, hh⟩
            exact ⟨x, hx, hno, hh⟩
          · rintro ⟨x, hx, hno, hh⟩
            refine ⟨x, ⟨hx, fun hptr => ?_⟩, hno, hh⟩
            exact hmiss (hd.eq hx he hptr ▸ hh)
    -- what follows expires later
    · rw [if_neg hexp]
      refine ⟨fun x hx => ⟨hx, fun hxl hxe => ?_⟩, fun x hx _ => hx, [], rfl, by simp, ?_⟩
      · rcases List.mem_cons.1 hxl with rfl | hxl
        · exact absurd hxe hexp
        · exact absurd ((hle x hxl).trans hxe) hexp
      · rintro ⟨x, hx, hno, -⟩
        exact absurd hx hno

/-- Without opportunistic key caching. -/
def Event.orderly : Event → Bool
  | .setCurrent _ _ _ tryOpportunistic _ => !tryOpportunistic
  | .opportunistic .. => false
  | _ => true

theorem expireLoop_sublist : (expireLoop l s).pmksa.Sublist s.pmksa := by
  induction l generalizing s with
  | nil => exact .refl _
  | cons e l ih =>
    unfold expireLoop
    split
    · split
      · exact ih
      · exact ih.trans (freeEntry_pmksa ▸ Lib.unlink_sublist _ _ _)
    · exact .refl _

theorem addEntry_order (h : Inv s) (ho : InOrder Entry.expiration s.pmksa) :
    InOrder Entry.expiration (addEntry e s).2.pmksa := by
  rcases addEntry_cases h e with ⟨pos, -, -, -, -, heq⟩ | ⟨t, hc, hr, hleft, -, heq⟩ <;> rw [heq]
  · exact ho
  · rw [fileEntry_pmksa]
    exact (ho.sublist ((makeRoom_sublist hc hr).trans hleft.sub)).enqueue

theorem add_order (h : Inv s) (ho : InOrder Entry.expiration s.pmksa) (r : AddArgs) :
    InOrder Entry.expiration (add c r s).2.pmksa := by
  unfold add
  split
  · exact ho
  · exact addEntry_order h.freshen ho

/-- Every event but the cloning of an entry keeps the list in order. -/
theorem handle_order {ev : Event} (h : Inv s) (ho : InOrder Entry.expiration s.pmksa) (hev : ev.orderly = true)
    (hh : handle c s ev = some s') : InOrder Entry.expiration s'.pmksa := by
  cases ev with
  | add r use =>
    obtain rfl := Option.some.inj hh
    exact add_order h ho r
  | getPmkEap r k =>
    obtain rfl := Option.some.inj hh
    rcases getPmkEap_cases c r k s with ⟨-, heq⟩ | heq <;> rw [heq] <;> exact add_order h ho r
  | opportunistic => cases hev
  | addExternal =>
    obtain rfl := Option.some.inj hh
    exact addEntry_order h.freshen ho
  | setCurrent k a n b m =>
    obtain rfl : b = false := by simpa [Event.orderly] using hev
    obtain rfl := Option.some.inj hh
    have hsame : (setCurrent c k a n false m s).pmksa = s.pmksa := by
      unfold setCurrent
      simp only [Bool.false_eq_true, if_false]
      split <;> rfl
    exact hsame ▸ ho
  | flush n b =>
    obtain rfl := Option.some.inj hh
    exact ho.sublist (Left.flush h.toCore n none b).sub
  | expire =>
    simp only [handle] at hh
    split at hh
    · obtain rfl := Option.some.inj hh
      rw [expire, setExpiration_pmksa]
      exact ho.sublist expireLoop_sublist
    · cases hh
  | negComplete =>
    obtain rfl := Option.some.inj hh
    refine List.Pairwise.map _ (fun x y hxy => ?_) ho
    split <;> split <;> exact hxy
  | getPmk | reauth =>
    simp only [handle] at hh
    split at hh
    · exact Option.some.inj hh ▸ ho
    · cases hh
  | clearCurrent | setPmk | setBssid => exact Option.some.inj hh ▸ ho

theorem run_order (hes : ∀ w ∈ es, w.2.orderly = true) (hrun : run c (.init t₀) es = some s) :
    Inv s ∧ InOrder Entry.expiration s.pmksa := by
  refine Lib.run_inv_mem (I := fun s => Inv s ∧ InOrder Entry.expiration s.pmksa) (fun s w hw s' hs h => ?_)
    ⟨init_inv t₀, List.Pairwise.nil⟩ hrun
  exact ⟨step_inv hs.1 h, handle_order (hs.1.setNow w.1) hs.2 (hes w hw) (step_cases h).2⟩

variable {k : Option Pmkid} {a : Option Addr} {n : Option ℕ} {m : Option KeyMgmt}

/-- The entry is for the network and the key management that have been asked for. -/
def Suits (n : Option ℕ) (m : Option KeyMgmt) (e : Entry) : Prop :=
  (∀ i ∈ n, e.networkCtx = some i) ∧ ∀ i ∈ m, e.akmp = i

theorem get_spec {b : Option Addr} {d : Option Pmkid} (h : get l b d n m = some e) :
    (∀ i ∈ b, e.aa = i) ∧ (∀ i ∈ d, e.pmkid = i) ∧ Suits n m e := by
  have hp := List.find?_some h
  simp only [Bool.and_eq_true, Option.all_eq_true, decide_eq_true_eq] at hp
  exact ⟨hp.1.1.1, hp.1.1.2, hp.2, hp.1.2⟩

theorem lookup_spec (h : lookup k a n m l = some e) : (k = some e.pmkid ∨ a = some e.aa) ∧ Suits n m e := by
  rcases Option.or_eq_some_iff.1 h with h | ⟨-, h⟩
  · obtain ⟨i, rfl, hget⟩ := Option.bind_eq_some_iff.1 h
    obtain ⟨-, hid, hsuits⟩ := get_spec hget
    exact ⟨.inl (congrArg some (hid i rfl).symm), hsuits⟩
  · obtain ⟨i, rfl, hget⟩ := Option.bind_eq_some_iff.1 h
    obtain ⟨haa, -, hsuits⟩ := get_spec hget
    exact ⟨.inr (congrArg some (haa i rfl).symm), hsuits⟩

theorem cloneEntry_spec (h : Inv s) {old : Entry} {i : Addr} (he : e ∈ (cloneEntry c old i s).1) :
    e.aa = i ∧ e.pmk = old.pmk := by
  simp only [cloneEntry, add] at he
  split at he
  · cases he
  · rename_i x hx
    split at hx
    · cases hx
    · obtain ⟨haa, hpmk, -⟩ := addEntry_law h.freshen
        (newEntry c ⟨old.pmk, if old.akmp = .sae then some old.pmkid else none, i, old.networkCtx, old.akmp⟩ s)
      obtain rfl := Option.some.inj hx
      obtain rfl := Option.some.inj he
      exact ⟨haa, hpmk⟩

/-- An entry of another access point of the network is found and cloned. -/
theorem getOpportunistic_spec (h : Inv s) {i : Addr} (he : e ∈ (getOpportunistic c n i m s).1) :
    e.aa = i ∧ ∃ old ∈ s.pmksa, old.pmk = e.pmk ∧ Suits n m old := by
  unfold getOpportunistic at he
  split at he
  · cases he
  · rename_i j
    split at he
    · rename_i old hold
      have hp := List.find?_some hold
      simp only [Bool.and_eq_true, Option.all_eq_true, decide_eq_true_eq] at hp
      obtain ⟨haa, hpmk⟩ := cloneEntry_spec h he
      exact ⟨haa, old, List.mem_of_find?_eq_some hold, hpmk.symm, fun _ hj => Option.some.inj hj ▸ hp.1.1, hp.1.2⟩
    · cases he

/-- **The entry that is taken into use** is in the cache, is not due for a reauthentication if it is of SAE, and has
the PMKID or the access point that has been asked for; its PMK is that of an entry for the same network. What is
found in the cache and not due is taken. -/
theorem select_law (hrun : run c (.init t₀) es = some s) {b : Bool}
    (h : step c s (now, .setCurrent k a n b m) = some s') :
    (∀ e ∈ s'.curPmksa, e ∈ s'.pmksa ∧ overdue s' e = false ∧ (k = some e.pmkid ∨ a = some e.aa) ∧
      ∃ old ∈ s.pmksa, old.pmk = e.pmk ∧ Suits n m old) ∧
    ∀ e, lookup k a n m s.pmksa = some e → overdue { s with now := now } e = false → s'.curPmksa = some e := by
  have hs : Inv { s with now := now, curPmksa := none } := ((run_inv hrun).setNow now).setCur (by simp)
  obtain rfl := Option.some.inj (step_cases h).2
  -- what has been found is not due
  have hdue : ∀ {p : Option Entry × St} {x : Entry}, x ∈ p.1.filter (!overdue p.2 ·) →
      x ∈ p.1 ∧ overdue p.2 x = false := fun hx => by simpa using Option.mem_filter_iff.1 hx
  unfold setCurrent
  simp only
  cases hfound : lookup k a n m s.pmksa with
  | some e =>
    obtain ⟨hkey, hsuits⟩ := lookup_spec hfound
    refine ⟨fun x hx => ?_, fun y hy hno => ?_⟩
    · obtain ⟨hx, hno⟩ := hdue hx
      obtain rfl := Option.some.inj hx
      exact ⟨mem_lookup hfound, hno, hkey, e, mem_lookup hfound, rfl, hsuits⟩
    · obtain rfl := Option.some.inj hy
      have hdue : (!overdue { s with now := now, curPmksa := none } e) = true := by
        rw [Bool.not_eq_true']
        exact hno
      exact Option.filter_some_pos hdue
  | none =>
    refine ⟨fun x hx => ?_, fun y hy => by cases hy⟩
    cases hopp : (if b = true then a else none) with
    | none =>
      rw [hopp] at hx
      cases hx
    | some i =>
      simp only [hopp] at hx ⊢
      have ha : a = some i := by
        split at hopp
        · exact hopp
        · cases hopp
      obtain ⟨hx, hno⟩ := hdue hx
      obtain ⟨haa, hold⟩ := getOpportunistic_spec hs hx
      exact ⟨(hs.getOpportunistic n i m).2 x hx, hno, .inr (haa ▸ ha), hold⟩

/-- The station selects its entry by the PMKID. -/
theorem select_law_plain : ∃ s', step plainConf plainSt (1, .setCurrent (some plainPmkid) none none false none) =
    some s' ∧ ∀ e ∈ s'.curPmksa, e ∈ s'.pmksa ∧ overdue s' e = false := by
  have hstep : step plainConf plainSt (1, .setCurrent (some plainPmkid) none none false none) = some _ := rfl
  refine ⟨_, hstep, fun e he => ?_⟩
  obtain ⟨hmem, hno, -⟩ := (select_law plain_run hstep).1 e he
  exact ⟨hmem, hno⟩

end Lightguard.Pmksa.Sta
