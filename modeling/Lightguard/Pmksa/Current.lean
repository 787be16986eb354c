import Lightguard.Pmksa.Sta

/-!
# The PMKSA cache of the station over whole runs

* `current_inv`: in every run the number of entries is right and at most 32, no access point has two of them, the
  entry in use is in the cache, and the driver's copy agrees.
-/

namespace Lightguard.Pmksa.Sta

open Wpa
open Lib (Distinct InOrder)

/-- What an entry is to the driver. -/
def Entry.key (e : Entry) : Option ℕ × Addr × Pmkid := (e.networkCtx, e.aa, e.pmkid)

/-- The driver's copy of the cache. -/
def held : List Out → List (Option ℕ × Addr × Pmkid)
  | [] => []
  | .addPmkid n a k :: l => (n, a, k) :: held l
  | .removePmkid n a k :: l => (held l).erase (n, a, k)
  | _ :: l => held l

/-- The same entry; its times and its mark may have changed. -/
structure Same (e x : Entry) : Prop where
  ptr : x.ptr = e.ptr
  pmkid : x.pmkid = e.pmkid
  pmk : x.pmk = e.pmk
  akmp : x.akmp = e.akmp
  aa : x.aa = e.aa
  networkCtx : x.networkCtx = e.networkCtx

protected theorem Same.refl (e : Entry) : Same e e := ⟨rfl, rfl, rfl, rfl, rfl, rfl⟩

/-- What is right about the entries; those of `off` have come off the list and are not freed yet. -/
structure Core (off : List Entry) (s : St) : Prop where
  distinct : Distinct Entry.ptr (off ++ s.pmksa)
  fresh : ∀ e ∈ off ++ s.pmksa, e.ptr < s.fresh
  aps : Distinct Entry.aa (off ++ s.pmksa)
  count : s.pmksaCount = (off ++ s.pmksa).length
  live : ∀ e ∈ s.curPmksa, ∃ x ∈ off ++ s.pmksa, Same e x
  driver : (held s.trace).Perm ((off ++ s.pmksa).map Entry.key)

variable {c : Conf} {s s' t : St} {e x : Entry} {r : FreeReason} {off off' l : List Entry} {f : Entry → Bool}

/-! ## Taking entries off -/

@[simp] theorem freeEntry_pmksa : (freeEntry r e s).pmksa = Lib.unlink Entry.ptr e s.pmksa := by
  unfold freeEntry freeCb
  simp only
  split <;> rfl

@[simp] theorem freeEntry_count : (freeEntry r e s).pmksaCount = s.pmksaCount - 1 := by
  unfold freeEntry freeCb
  simp only
  split <;> rfl

@[simp] theorem freeEntry_fresh : (freeEntry r e s).fresh = s.fresh := by
  unfold freeEntry freeCb
  simp only
  split <;> rfl

@[simp] theorem freeEntry_now : (freeEntry r e s).now = s.now := by
  unfold freeEntry freeCb
  simp only
  split <;> rfl

@[simp] theorem freeEntry_expireTimer : (freeEntry r e s).expireTimer = s.expireTimer := by
  unfold freeEntry freeCb
  simp only
  split <;> rfl

@[simp] theorem held_freeEntry : held (freeEntry r e s).trace = (held s.trace).erase e.key := by
  unfold freeEntry freeCb
  simp only
  split <;> rfl

/-- The entry in use stays when it is another one, and goes when it is this one. -/
theorem freeEntry_cur (hx : x ∈ (freeEntry r e s).curPmksa) : x ∈ s.curPmksa ∧ x.ptr ≠ e.ptr := by
  have hcur : (freeEntry r e s).curPmksa =
      if s.isCurrent e || decide (r = .expire ∧ s.pmk = e.pmk) then none else s.curPmksa := by
    unfold freeEntry freeCb
    simp only
    split <;> rfl
  rw [hcur] at hx
  split at hx
  · cases hx
  · rename_i hno
    refine ⟨hx, fun hptr => hno ?_⟩
    rw [Bool.or_eq_true]
    exact .inl ((Option.any_eq_true _ _).2 ⟨x, hx, decide_eq_true hptr⟩)

/-- **To free an entry** keeps the rest right, whether it is still on the list or not. -/
theorem Core.free (h : Core off s) (hp : (off ++ s.pmksa).Perm (e :: (off' ++ Lib.unlink Entry.ptr e s.pmksa))) :
    Core off' (freeEntry r e s) := by
  have hd := Lib.distinct_cons.1 (h.distinct.perm hp.symm)
  refine ⟨freeEntry_pmksa ▸ hd.2, fun y hy => ?_, ?_, ?_, fun y hy => ?_, ?_⟩
  · rw [freeEntry_pmksa] at hy
    rw [freeEntry_fresh]
    exact h.fresh y (hp.mem_iff.2 (List.mem_cons_of_mem _ hy))
  · rw [freeEntry_pmksa]
    exact (Lib.distinct_cons.1 (h.aps.perm hp.symm)).2
  · have hlen := hp.length_eq
    rw [List.length_cons] at hlen
    rw [freeEntry_pmksa, freeEntry_count, h.count, hlen]
    omega
  · obtain ⟨hs, hne⟩ := freeEntry_cur hy
    obtain ⟨z, hz, hsame⟩ := h.live y hs
    rw [freeEntry_pmksa]
    rcases List.mem_cons.1 (hp.mem_iff.1 hz) with rfl | hz
    · exact absurd hsame.ptr.symm hne
    · exact ⟨z, hz, hsame⟩
  · rw [freeEntry_pmksa, held_freeEntry]
    have hmap : (held s.trace).Perm (e.key :: (off' ++ Lib.unlink Entry.ptr e s.pmksa).map Entry.key) :=
      h.driver.trans (hp.map Entry.key)
    simpa using hmap.erase e.key

/-- An entry of the list is freed. -/
theorem Core.freeEntry (h : Core off s) (he : e ∈ s.pmksa) : Core off (freeEntry r e s) := by
  have hd : Distinct Entry.ptr s.pmksa := h.distinct.sublist (List.sublist_append_right off s.pmksa)
  exact h.free (((Lib.perm_unlink hd he).append_left off).trans List.perm_middle)

/-- An entry that has come off the list is freed. -/
theorem Core.freeOff (h : Core (e :: off) s) : Core off (Sta.freeEntry r e s) := by
  have hne : ∀ x ∈ s.pmksa, x.ptr ≠ e.ptr := fun x hx =>
    (Lib.distinct_cons.1 h.distinct).1 x (List.mem_append_right off hx)
  refine h.free ?_
  rw [Lib.unlink_of_forall_ne hne]
  rfl

/-- An entry comes off the list. -/
theorem Core.takeOff (h : Core [] s) (he : e ∈ s.pmksa) : Core [e] { s with pmksa := Lib.unlink Entry.ptr e s.pmksa } := by
  have hp : s.pmksa.Perm ([e] ++ Lib.unlink Entry.ptr e s.pmksa) := Lib.perm_unlink h.distinct he
  refine ⟨h.distinct.perm hp.symm, fun x hx => h.fresh x (hp.mem_iff.2 hx), h.aps.perm hp.symm, ?_, fun x hx => ?_,
    h.driver.trans (hp.map _)⟩
  · rw [← hp.length_eq]
    exact h.count
  · obtain ⟨y, hy, hsame⟩ := h.live x hx
    exact ⟨y, hp.mem_iff.1 hy, hsame⟩

/-- Timeouts do not matter. -/
theorem Core.setExpiration (h : Core off s) : Core off (setExpiration s) := by
  unfold Sta.setExpiration
  split <;> exact ⟨h.distinct, h.fresh, h.aps, h.count, h.live, h.driver⟩

@[simp] theorem setExpiration_pmksa : (setExpiration s).pmksa = s.pmksa := by
  unfold setExpiration
  split <;> rfl

@[simp] theorem setExpiration_now : (setExpiration s).now = s.now := by
  unfold setExpiration
  split <;> rfl

theorem setExpiration_timer (h : s.pmksa ≠ []) : (setExpiration s).expireTimer.isSome := by
  obtain ⟨e, l, hl⟩ := List.exists_cons_of_ne_nil h
  simp [setExpiration, hl]

/-- What follows an entry on the list is still there when it has been freed. -/
theorem sublist_unlink (hd : Distinct Entry.ptr s.pmksa) (hl : (e :: l).Sublist s.pmksa) :
    l.Sublist (Sta.freeEntry r e s).pmksa := by
  have hne := (Lib.distinct_cons.1 (hd.sublist hl)).1
  have hsub := hl.filter fun x => decide (x.ptr ≠ e.ptr)
  rw [List.filter_cons_of_neg (by simp), List.filter_eq_self.2 fun x hx => by simpa using hne x hx] at hsub
  rw [freeEntry_pmksa, Lib.unlink_eq_filter hd]
  exact hsub

theorem Core.distinct_pmksa (h : Core off s) : Distinct Entry.ptr s.pmksa :=
  h.distinct.sublist (List.sublist_append_right off s.pmksa)

theorem mem_freeEntry (h : Core off s) : x ∈ (Sta.freeEntry r e s).pmksa ↔ x ∈ s.pmksa ∧ x.ptr ≠ e.ptr := by
  rw [freeEntry_pmksa, Lib.mem_unlink h.distinct_pmksa]

/-- **The loop of a flush** frees what it is about. -/
theorem flushLoop_spec (h : Core off s) (hl : l.Sublist s.pmksa) :
    Core off (flushLoop f l s) ∧
      ∀ x, x ∈ (flushLoop f l s).pmksa ↔ x ∈ s.pmksa ∧ ¬ (x ∈ l ∧ f x = true) := by
  induction l generalizing s with
  | nil => exact ⟨h, fun x => by simp [flushLoop]⟩
  | cons e l ih =>
    have he : e ∈ s.pmksa := hl.subset List.mem_cons_self
    unfold flushLoop
    cases hf : f e with
    | false =>
      obtain ⟨hcore, hmem⟩ := ih h (List.sublist_of_cons_sublist hl)
      refine ⟨hcore, fun x => (hmem x).trans (and_congr_right fun _ => not_congr ?_)⟩
      rw [List.mem_cons, or_and_right]
      constructor
      · exact .inr
      · rintro (⟨rfl, hx⟩ | hx)
        · exact absurd (hf.symm.trans hx) Bool.false_ne_true
        · exact hx
    | true =>
      obtain ⟨hcore, hmem⟩ := ih (h.freeEntry (r := .free) he) (sublist_unlink h.distinct_pmksa hl)
      refine ⟨hcore, fun x => (hmem x).trans ?_⟩
      rw [mem_freeEntry h, and_assoc]
      refine and_congr_right fun hx => ?_
      -- at the address of `e` there is no other entry
      have hptr : x.ptr = e.ptr ↔ x = e := ⟨h.distinct_pmksa.eq hx he, fun hxe => hxe ▸ rfl⟩
      rw [ne_eq, hptr, ← not_or, List.mem_cons, or_and_right]
      refine not_congr (or_congr_left ⟨fun hxe => ⟨hxe, hxe ▸ hf⟩, And.left⟩)

theorem Core.flush (h : Core off s) (n : Option ℕ) (p : Option Bytes) (b : Bool) :
    Core off (flush n p b s) ∧
      ∀ x, x ∈ (flush n p b s).pmksa ↔ x ∈ s.pmksa ∧ flushes n p b x = false := by
  obtain ⟨hcore, hmem⟩ := flushLoop_spec (f := flushes n p b) h (.refl _)
  have hmem' : ∀ x, x ∈ (flushLoop (flushes n p b) s.pmksa s).pmksa ↔ x ∈ s.pmksa ∧ flushes n p b x = false :=
    fun x => (hmem x).trans (and_congr_right fun hx => by simp [hx])
  unfold Sta.flush
  simp only
  split
  · refine ⟨hcore.setExpiration, fun x => ?_⟩
    rw [setExpiration_pmksa]
    exact hmem' x
  · exact ⟨hcore, hmem'⟩

/-! ## Putting entries on -/

/-- What takes the place of an old entry of the access point `pos`. -/
theorem Core.replace (h : Core [] s) {pos : Entry} (hpos : pos ∈ s.pmksa) (e : Entry) :
    Core [] (replace pos e s) ∧ ∀ x, x ∈ (replace pos e s).pmksa ↔ x ∈ s.pmksa ∧ x.ptr ≠ pos.ptr ∧
      (pos.opportunistic = false → flushes e.networkCtx (some pos.pmk) false x = false) := by
  have hoff := h.takeOff hpos
  have hmem : ∀ x, x ∈ Lib.unlink Entry.ptr pos s.pmksa ↔ x ∈ s.pmksa ∧ x.ptr ≠ pos.ptr := fun x =>
    Lib.mem_unlink h.distinct_pmksa
  unfold Sta.replace
  simp only
  cases pos.opportunistic with
  | true =>
    refine ⟨hoff.freeOff, fun x => ?_⟩
    rw [if_pos rfl, mem_freeEntry hoff, hmem]
    simp
  | false =>
    obtain ⟨hflush, hleft⟩ := hoff.flush e.networkCtx (some pos.pmk) false
    refine ⟨hflush.freeOff, fun x => ?_⟩
    rw [if_neg Bool.false_ne_true, mem_freeEntry hflush, hleft, hmem]
    constructor
    · rintro ⟨⟨⟨hx, hne⟩, hf⟩, -⟩
      exact ⟨hx, hne, fun _ => hf⟩
    · rintro ⟨hx, hne, hf⟩
      exact ⟨⟨⟨hx, hne⟩, hf rfl⟩, hne⟩

/-- **A full cache** loses one entry, and not the one in use. -/
theorem makeRoom_cases (h : Core [] s) (hb : s.pmksa.length ≤ 32) :
    s.pmksa.length < 32 ∧ makeRoom s = s ∨
      s.pmksa.length = 32 ∧ ∃ v ∈ s.pmksa, s.isCurrent v = false ∧ makeRoom s = Sta.freeEntry .free v s ∧
        ∀ x ∈ s.pmksa, x.ptr ≠ v.ptr → s.isCurrent x = true ∨ [v, x].Sublist s.pmksa := by
  have hcount : s.pmksaCount = s.pmksa.length := h.count
  unfold makeRoom
  by_cases hfull : s.pmksaCount ≥ 32
  · rw [if_pos hfull]
    right
    refine ⟨by omega, ?_⟩
    split
    · rename_i hnil
      rw [hnil] at hcount
      simp at hcount
      omega
    · rename_i pos l hl
      have hd := h.distinct_pmksa
      rw [hl] at hd hcount
      cases hcur : s.isCurrent pos with
      | false =>
        rw [if_neg Bool.false_ne_true]
        refine ⟨pos, hl ▸ List.mem_cons_self, hcur, rfl, fun x hx hne => .inr ?_⟩
        rw [hl] at hx ⊢
        rcases List.mem_cons.1 hx with rfl | hx
        · exact absurd rfl hne
        · exact (List.singleton_sublist.2 hx).cons_cons pos
      | true =>
        rw [if_pos rfl]
        cases l with
        | nil => simp at hcount; omega
        | cons v l =>
          -- the first entry is in use, so the second one goes
          have hother : s.isCurrent v = false := by
            rw [Bool.eq_false_iff]
            intro hv
            obtain ⟨y, hy, hyv⟩ := (Option.any_eq_true _ _).1 hv
            obtain ⟨z, hz, hzp⟩ := (Option.any_eq_true _ _).1 hcur
            obtain rfl : y = z := Option.some.inj (hy.symm.trans hz)
            exact (Lib.distinct_cons.1 hd).1 v List.mem_cons_self
              ((of_decide_eq_true hyv).symm.trans (of_decide_eq_true hzp))
          refine ⟨v, by simp [hl], hother, rfl, fun x hx hne => ?_⟩
          rw [hl] at hx ⊢
          rcases List.mem_cons.1 hx with rfl | hx
          · exact .inl hcur
          rcases List.mem_cons.1 hx with rfl | hx
          · exact absurd rfl hne
          · exact .inr (((List.singleton_sublist.2 hx).cons_cons v).cons pos)
  · rw [if_neg hfull]
    exact .inl ⟨by omega, rfl⟩

theorem fileEntry_pmksa : (fileEntry e s).pmksa = Lib.enqueue Entry.expiration e s.pmksa := by
  unfold fileEntry
  simp only
  split
  · rw [setExpiration_pmksa]
  · rfl

@[simp] theorem mem_fileEntry : x ∈ (fileEntry e s).pmksa ↔ x = e ∨ x ∈ s.pmksa := by
  rw [fileEntry_pmksa, Lib.mem_enqueue]

/-- **A new entry** keeps the cache right. -/
theorem Core.fileEntry (h : Core [] s) (hp : ∀ x ∈ s.pmksa, x.ptr ≠ e.ptr) (ha : ∀ x ∈ s.pmksa, x.aa ≠ e.aa)
    (hf : e.ptr < s.fresh) : Core [] (fileEntry e s) := by
  have hperm := Lib.enqueue_perm Entry.expiration e s.pmksa
  have hmid : ∀ t : St, t.pmksa = Lib.enqueue Entry.expiration e s.pmksa → t.pmksaCount = s.pmksaCount →
      t.fresh = s.fresh → t.curPmksa = s.curPmksa → t.trace = s.trace →
      Core [] { t with pmksaCount := t.pmksaCount + 1, trace := .addPmkid e.networkCtx e.aa e.pmkid :: t.trace } := by
    intro t hl hc hfr hcur htr
    have hp' : t.pmksa.Perm (e :: s.pmksa) := hl ▸ hperm
    refine ⟨(Lib.distinct_cons.2 ⟨hp, h.distinct⟩).perm hp', fun x hx => ?_,
      (Lib.distinct_cons.2 ⟨ha, h.aps⟩).perm hp', ?_, fun x hx => ?_, ?_⟩
    · rcases List.mem_cons.1 (hp'.mem_iff.1 hx) with rfl | hx
      · exact hfr ▸ hf
      · exact hfr ▸ h.fresh x hx
    · have hlen := hp'.length_eq
      have hcount := h.count
      simp only [List.nil_append, List.length_cons] at hlen hcount ⊢
      omega
    · obtain ⟨y, hy, hsame⟩ := h.live x (hcur ▸ hx)
      exact ⟨y, hp'.mem_iff.2 (List.mem_cons_of_mem _ hy), hsame⟩
    · show (e.key :: held t.trace).Perm _
      rw [htr]
      exact (h.driver.cons _).trans (hp'.map Entry.key).symm
  unfold Sta.fileEntry
  simp only
  split
  · unfold Sta.setExpiration
    split <;> exact hmid _ rfl rfl rfl rfl rfl
  · exact hmid _ rfl rfl rfl rfl rfl

/-! ## Length and timeout -/

/-- There are at most `n` entries, and while there is one a timeout for the first one. -/
structure Room (n : ℕ) (s : St) : Prop where
  bound : s.pmksa.length ≤ n
  timer : s.pmksa ≠ [] → s.expireTimer.isSome

namespace Room

variable {n : ℕ}

/-- The list gets no longer, and the timeout stays. -/
theorem of_sublist (h : Room n s) (hs : t.pmksa.Sublist s.pmksa) (ht : t.expireTimer = s.expireTimer) : Room n t :=
  ⟨hs.length_le.trans h.bound, fun hne => ht ▸ h.timer fun hnil => hne (List.sublist_nil.1 (hnil ▸ hs))⟩

theorem freeEntry (h : Room n s) : Room n (Sta.freeEntry r e s) :=
  h.of_sublist (freeEntry_pmksa ▸ Lib.unlink_sublist _ _ _) freeEntry_expireTimer

theorem setExpiration (h : Room n s) : Room n (Sta.setExpiration s) :=
  ⟨by rw [setExpiration_pmksa]; exact h.bound, fun hne => setExpiration_timer (by rwa [setExpiration_pmksa] at hne)⟩

theorem flush (h : Room n s) (k : Option ℕ) (p : Option Bytes) (b : Bool) : Room n (Sta.flush k p b s) := by
  have hloop : ∀ (l : List Entry) (s : St), Room n s → Room n (flushLoop (flushes k p b) l s) := by
    intro l
    induction l with
    | nil => exact fun _ hs => hs
    | cons e l ih =>
      intro s hs
      unfold flushLoop
      refine ih _ ?_
      split
      · exact hs.freeEntry
      · exact hs
  unfold Sta.flush
  simp only
  split
  · exact (hloop _ _ h).setExpiration
  · exact hloop _ _ h

theorem replace (h : Room n s) (pos e : Entry) : Room n (Sta.replace pos e s) := by
  have hoff : Room n { s with pmksa := Lib.unlink Entry.ptr pos s.pmksa } := h.of_sublist (Lib.unlink_sublist _ _ _) rfl
  unfold Sta.replace
  simp only
  split
  · exact hoff.freeEntry
  · exact (hoff.flush _ _ _).freeEntry

/-- There is room for one more. -/
theorem makeRoom (h : Room 32 s) (hc : Core [] s) : Room 31 (Sta.makeRoom s) := by
  rcases makeRoom_cases hc h.bound with ⟨hlt, heq⟩ | ⟨hlen, v, hv, -, heq, -⟩ <;> rw [heq]
  · exact ⟨by omega, h.timer⟩
  · have hlen' : (Lib.unlink Entry.ptr v s.pmksa).length + 1 = s.pmksa.length := Lib.length_unlink hv
    exact ⟨by rw [freeEntry_pmksa]; omega, h.freeEntry.timer⟩

theorem fileEntry (h : Room 31 s) : Room 32 (fileEntry e s) := by
  have hb := h.bound
  unfold Sta.fileEntry
  simp only
  split
  · have hne : Lib.enqueue Entry.expiration e s.pmksa ≠ [] := List.ne_nil_of_mem (Lib.mem_enqueue.2 (.inl rfl))
    refine ⟨?_, fun _ => setExpiration_timer hne⟩
    rw [setExpiration_pmksa, Lib.length_enqueue]
    omega
  · rename_i hhead
    refine ⟨by rw [Lib.length_enqueue]; omega, fun _ => h.timer fun hnil => hhead (by simp [hnil])⟩

end Room

/-- What is right about the cache between two events. -/
structure Inv (s : St) : Prop extends Core [] s, Room 32 s

theorem init_inv (now : ℤ) : Inv (.init now) where
  distinct := List.nodup_nil
  fresh := by simp [St.init]
  aps := List.nodup_nil
  count := rfl
  live := by simp [St.init]
  driver := .refl _
  bound := by simp [St.init]
  timer h := absurd rfl h

/-! ## New entries -/

/-- The entries that are left stand in their order, and the one in use is in use if it is left. -/
structure Left (s t : St) : Prop where
  sub : t.pmksa.Sublist s.pmksa
  cur : ∀ x ∈ t.pmksa, s.isCurrent x = true → t.isCurrent x = true
  was : ∀ x, t.isCurrent x = true → s.isCurrent x = true
  fresh : t.fresh = s.fresh
  now : t.now = s.now

namespace Left

protected theorem refl (s : St) : Left s s := ⟨.refl _, fun _ _ h => h, fun _ h => h, rfl, rfl⟩

protected theorem trans {u : St} (h : Left s t) (h' : Left t u) : Left s u :=
  ⟨h'.sub.trans h.sub, fun x hx hs => h'.cur x hx (h.cur x (h'.sub.subset hx) hs), fun x hx => h.was x (h'.was x hx),
    h'.fresh.trans h.fresh, h'.now.trans h.now⟩

theorem was_current (h : (Sta.freeEntry r e s).isCurrent x = true) : s.isCurrent x = true := by
  obtain ⟨y, hy, hyx⟩ := (Option.any_eq_true _ _).1 h
  exact (Option.any_eq_true _ _).2 ⟨y, (freeEntry_cur hy).1, hyx⟩

/-- Only an expiration takes the current entry away with another one. -/
theorem freeEntry (hc : Core off s) (hr : r ≠ .expire) : Left s (Sta.freeEntry r e s) := by
  refine ⟨freeEntry_pmksa ▸ Lib.unlink_sublist _ _ _, fun x hx hcur => ?_, fun _ => was_current, freeEntry_fresh,
    freeEntry_now⟩
  obtain ⟨-, hne⟩ := (mem_freeEntry hc).1 hx
  obtain ⟨y, hy, hyx⟩ := (Option.any_eq_true _ _).1 hcur
  have hother : s.isCurrent e = false := by
    rw [Bool.eq_false_iff]
    intro he
    obtain ⟨z, hz, hze⟩ := (Option.any_eq_true _ _).1 he
    obtain rfl : y = z := Option.some.inj (hy.symm.trans hz)
    exact hne ((of_decide_eq_true hyx).symm.trans (of_decide_eq_true hze))
  have hsame : (Sta.freeEntry r e s).curPmksa = s.curPmksa := by
    unfold Sta.freeEntry freeCb
    simp only [St.isCurrent] at hother ⊢
    simp [hother, hr]
  rw [St.isCurrent, hsame]
  exact hcur

theorem setExpiration : Left s (Sta.setExpiration s) := by
  unfold Sta.setExpiration
  split <;> exact ⟨.refl _, fun _ _ h => h, fun _ h => h, rfl, rfl⟩

theorem flush (hc : Core off s) (n : Option ℕ) (p : Option Bytes) (b : Bool) : Left s (Sta.flush n p b s) := by
  have hloop : ∀ (l : List Entry) (s : St), Core off s → l.Sublist s.pmksa →
      Left s (flushLoop (flushes n p b) l s) := by
    intro l
    induction l with
    | nil => exact fun s _ _ => .refl s
    | cons e l ih =>
      intro s hc hl
      unfold flushLoop
      split
      · have hfree := hc.freeEntry (r := .free) (hl.subset List.mem_cons_self)
        exact (Left.freeEntry hc (by simp)).trans (ih _ hfree (sublist_unlink hc.distinct_pmksa hl))
      · exact ih _ hc (List.sublist_of_cons_sublist hl)
  unfold Sta.flush
  simp only
  split
  · exact (hloop _ _ hc (.refl _)).trans .setExpiration
  · exact hloop _ _ hc (.refl _)

theorem replace (hc : Core [] s) {pos : Entry} (hpos : pos ∈ s.pmksa) (e : Entry) : Left s (Sta.replace pos e s) := by
  have hoff := hc.takeOff hpos
  have htake : Left s { s with pmksa := Lib.unlink Entry.ptr pos s.pmksa } :=
    ⟨Lib.unlink_sublist _ _ _, fun _ _ h => h, fun _ h => h, rfl, rfl⟩
  unfold Sta.replace
  simp only
  split
  · exact htake.trans (.freeEntry hoff (by simp))
  · have hflush := hoff.flush e.networkCtx (some pos.pmk) false
    exact htake.trans ((Left.flush hoff _ _ _).trans (.freeEntry hflush.1 (by simp)))

end Left

/-- What stays when an entry for an access point comes in: nothing of the access point, and nothing that has the
PMK of its old entry, if that was in use. -/
def stays (e : Entry) (l : List Entry) (x : Entry) : Prop :=
  x.aa ≠ e.aa ∧ ∀ pos ∈ l, pos.aa = e.aa → pos.opportunistic = false →
    flushes e.networkCtx (some pos.pmk) false x = false

/-- **A new entry**: the same one is there already, or it comes in where there is room for it. -/
theorem addEntry_cases (h : Inv s) (e : Entry) :
    (∃ pos ∈ s.pmksa, pos.aa = e.aa ∧ pos.pmk = e.pmk ∧ pos.pmkid = e.pmkid ∧ addEntry e s = (pos, s)) ∨
    ∃ t, Core [] t ∧ Room 32 t ∧ Left s t ∧ (∀ x, x ∈ t.pmksa ↔ x ∈ s.pmksa ∧ stays e s.pmksa x) ∧
      addEntry e s = (e, fileEntry e (makeRoom t)) := by
  unfold addEntry
  cases hfind : s.pmksa.find? (·.aa = e.aa) with
  | none =>
    have hno : ∀ x ∈ s.pmksa, x.aa ≠ e.aa := by simpa using List.find?_eq_none.1 hfind
    refine .inr ⟨s, h.toCore, h.toRoom, .refl s, fun x => ⟨fun hx => ⟨hx, hno x hx, fun pos hpos ha => ?_⟩, And.left⟩,
      rfl⟩
    exact absurd ha (hno pos hpos)
  | some pos =>
    obtain ⟨hpos, ha⟩ : pos ∈ s.pmksa ∧ pos.aa = e.aa :=
      ⟨List.mem_of_find?_eq_some hfind, by simpa using List.find?_some hfind⟩
    -- the access point has no other entry
    have honly : ∀ x ∈ s.pmksa, x.aa = e.aa ↔ x.ptr = pos.ptr := fun x hx =>
      ⟨fun hxa => congrArg Entry.ptr (h.aps.eq hx hpos (hxa.trans ha.symm)),
        fun hxp => (congrArg Entry.aa (h.distinct.eq hx hpos hxp)).trans ha⟩
    simp only
    split
    · rename_i hk
      exact .inl ⟨pos, hpos, ha, hk.1, hk.2, rfl⟩
    · obtain ⟨hcore, hmem⟩ := h.toCore.replace hpos e
      refine .inr ⟨replace pos e s, hcore, h.toRoom.replace pos e, .replace h.toCore hpos e, fun x => ?_, rfl⟩
      rw [hmem]
      refine and_congr_right fun hx => ?_
      rw [stays, ne_eq, ne_eq, honly x hx]
      refine and_congr_right fun _ => ⟨fun hf y hy hya hyo => ?_, fun hf => hf pos hpos ha⟩
      obtain rfl : y = pos := h.aps.eq hy hpos (hya.trans ha.symm)
      exact hf hyo

theorem makeRoom_sublist (hc : Core [] t) (hr : Room 32 t) : (makeRoom t).pmksa.Sublist t.pmksa := by
  rcases makeRoom_cases hc hr.bound with ⟨-, heq⟩ | ⟨-, v, -, -, heq, -⟩
  · rw [heq]
  · rw [heq, freeEntry_pmksa]
    exact Lib.unlink_sublist _ _ _

theorem Inv.addEntry (h : Inv s) (hp : ∀ x ∈ s.pmksa, x.ptr ≠ e.ptr) (hf : e.ptr < s.fresh) :
    Inv (addEntry e s).2 ∧ (addEntry e s).1 ∈ (addEntry e s).2.pmksa := by
  rcases addEntry_cases h e with ⟨pos, hpos, -, -, -, heq⟩ | ⟨t, hc, hr, hleft, hmem, heq⟩ <;> rw [heq]
  · exact ⟨h, hpos⟩
  · obtain ⟨hroom, hfr⟩ : Core [] (makeRoom t) ∧ (makeRoom t).fresh = t.fresh := by
      rcases makeRoom_cases hc hr.bound with ⟨-, heq'⟩ | ⟨-, v, hv, -, heq', -⟩ <;> rw [heq']
      · exact ⟨hc, rfl⟩
      · exact ⟨hc.freeEntry hv, freeEntry_fresh⟩
    have hin : ∀ x ∈ (makeRoom t).pmksa, x ∈ s.pmksa ∧ stays e s.pmksa x := fun x hx =>
      (hmem x).1 ((makeRoom_sublist hc hr).subset hx)
    have hfile : Core [] (fileEntry e (makeRoom t)) :=
      hroom.fileEntry (fun x hx => hp x (hin x hx).1) (fun x hx => (hin x hx).2.1) (by rw [hfr, hleft.fresh]; exact hf)
    exact ⟨⟨hfile, (hr.makeRoom hc).fileEntry⟩, mem_fileEntry.2 (.inl rfl)⟩

/-! ## Expiration -/

theorem expireLoop_core (h : Core off s) (hl : l.Sublist s.pmksa) : Core off (expireLoop l s) := by
  induction l generalizing s with
  | nil => exact h
  | cons e l ih =>
    unfold expireLoop
    split
    · split
      · exact ih h (List.sublist_of_cons_sublist hl)
      · exact ih (h.freeEntry (hl.subset List.mem_cons_self)) (sublist_unlink h.distinct_pmksa hl)
    · exact h

theorem expireLoop_room {n : ℕ} (h : Room n s) : Room n (expireLoop l s) := by
  induction l generalizing s with
  | nil => exact h
  | cons e l ih =>
    unfold expireLoop
    split
    · refine ih ?_
      split
      · exact h
      · exact h.freeEntry
    · exact h

/-! ## One event -/

theorem Inv.setCur (h : Inv s) {cur : Option Entry} (hcur : ∀ e ∈ cur, ∃ x ∈ s.pmksa, Same e x) :
    Inv { s with curPmksa := cur } :=
  ⟨⟨h.distinct, h.fresh, h.aps, h.count, hcur, h.driver⟩, ⟨h.bound, h.timer⟩⟩

theorem Inv.freshen (h : Inv s) : Inv { s with fresh := s.fresh + 1 } :=
  ⟨⟨h.distinct, fun e he => (h.fresh e he).trans (Nat.lt_succ_self _), h.aps, h.count, h.live, h.driver⟩,
    ⟨h.bound, h.timer⟩⟩

/-- Times and marks change. -/
theorem Inv.map (h : Inv s) {g : Entry → Entry} (hg : ∀ e, Same e (g e)) : Inv { s with pmksa := s.pmksa.map g } := by
  have hkey : ∀ {β : Type} (k : Entry → β), (∀ e, k (g e) = k e) → (s.pmksa.map g).map k = s.pmksa.map k := by
    intro β k hk
    rw [List.map_map]
    exact List.map_congr_left fun e _ => hk e
  refine ⟨⟨?_, fun x hx => ?_, ?_, ?_, fun x hx => ?_, ?_⟩, ⟨?_, fun hne => h.timer fun hnil => hne (by simp [hnil])⟩⟩
  · show ((s.pmksa.map g).map Entry.ptr).Nodup
    rw [hkey Entry.ptr fun e => (hg e).ptr]
    exact h.distinct
  · obtain ⟨y, hy, rfl⟩ := List.mem_map.1 hx
    rw [(hg y).ptr]
    exact h.fresh y hy
  · show ((s.pmksa.map g).map Entry.aa).Nodup
    rw [hkey Entry.aa fun e => (hg e).aa]
    exact h.aps
  · simpa using h.count
  · obtain ⟨y, hy, hsame⟩ := h.live x hx
    refine ⟨g y, List.mem_map_of_mem hy, ?_⟩
    have hy' := hg y
    exact ⟨hy'.ptr.trans hsame.ptr, hy'.pmkid.trans hsame.pmkid, hy'.pmk.trans hsame.pmk, hy'.akmp.trans hsame.akmp,
      hy'.aa.trans hsame.aa, hy'.networkCtx.trans hsame.networkCtx⟩
  · show (held s.trace).Perm ((s.pmksa.map g).map Entry.key)
    rw [hkey Entry.key fun e => by rw [Entry.key, (hg e).networkCtx, (hg e).aa, (hg e).pmkid]; rfl]
    exact h.driver
  · simpa using h.bound

theorem Inv.add (h : Inv s) (r : AddArgs) :
    Inv (add c r s).2 ∧ ∀ e ∈ (add c r s).1, e ∈ (Sta.add c r s).2.pmksa := by
  unfold Sta.add
  split
  · exact ⟨h, by simp⟩
  · obtain ⟨hinv, hmem⟩ := h.freshen.addEntry (e := newEntry c r s) (fun x hx => (h.fresh x hx).ne)
      (Nat.lt_succ_self s.fresh)
    exact ⟨hinv, fun e he => (Option.some.inj he) ▸ hmem⟩

theorem same_cloned (old e : Entry) : Same e (cloned old e) := ⟨rfl, rfl, rfl, rfl, rfl, rfl⟩

theorem Inv.cloneEntry (h : Inv s) (old : Entry) (aa : Addr) :
    Inv (cloneEntry c old aa s).2 ∧ ∀ e ∈ (cloneEntry c old aa s).1, e ∈ (Sta.cloneEntry c old aa s).2.pmksa := by
  obtain ⟨hinv, hmem⟩ := h.add (c := c)
    ⟨old.pmk, if old.akmp = .sae then some old.pmkid else none, aa, old.networkCtx, old.akmp⟩
  unfold Sta.cloneEntry
  simp only
  generalize Sta.add c _ s = p at hinv hmem ⊢
  obtain ⟨a, u⟩ := p
  cases a with
  | none => exact ⟨hinv, by simp⟩
  | some e =>
    refine ⟨hinv.map fun x => ?_, fun y hy => ?_⟩
    · split
      · exact same_cloned old x
      · exact .refl x
    · obtain rfl := Option.some.inj hy
      exact List.mem_map.2 ⟨e, hmem e rfl, if_pos rfl⟩

theorem Inv.getOpportunistic (h : Inv s) (n : Option ℕ) (aa : Addr) (akmp : Option KeyMgmt) :
    Inv (getOpportunistic c n aa akmp s).2 ∧
      ∀ e ∈ (getOpportunistic c n aa akmp s).1, e ∈ (Sta.getOpportunistic c n aa akmp s).2.pmksa := by
  unfold Sta.getOpportunistic
  split
  · exact ⟨h, by simp⟩
  split
  · exact h.cloneEntry _ _
  · exact ⟨h, by simp⟩

theorem mem_lookup {k : Option Pmkid} {a : Option Addr} {n : Option ℕ} {m : Option KeyMgmt}
    (h : lookup k a n m l = some e) : e ∈ l := by
  rcases Option.or_eq_some_iff.1 h with h | ⟨-, h⟩ <;> obtain ⟨_, -, h⟩ := Option.bind_eq_some_iff.1 h <;>
    exact List.mem_of_find?_eq_some h

theorem Inv.setCurrent (h : Inv s) (k : Option Pmkid) (a : Option Addr) (n : Option ℕ) (b : Bool)
    (m : Option KeyMgmt) : Inv (setCurrent c k a n b m s) := by
  have hnone : Inv { s with curPmksa := none } := h.setCur (by simp)
  have hend : ∀ r : Option Entry × St, Inv r.2 → (∀ e ∈ r.1, e ∈ r.2.pmksa) →
      Inv { r.2 with curPmksa := r.1.filter (!overdue r.2 ·) } := fun r hr hmem =>
    hr.setCur fun e he => ⟨e, hmem e (Option.mem_filter_iff.1 he).1, .refl e⟩
  unfold Sta.setCurrent
  simp only
  split
  · rename_i e he
    exact hend (some e, _) hnone fun x hx => Option.some.inj hx ▸ mem_lookup he
  · split
    · exact hend _ (hnone.getOpportunistic n _ m).1 (hnone.getOpportunistic n _ m).2
    · exact hend (none, _) hnone (by simp)

/-- What is in use after an entry has been filed. -/
theorem mem_current {u : Use} {a cur : Option Entry} (h : e ∈ u.current a cur) : e ∈ a ∨ e ∈ cur := by
  cases u with
  | always => exact .inl h
  | vacant =>
    rcases Option.or_eq_some_iff.1 h with h | ⟨-, h⟩
    · exact .inr h
    · exact .inl h
  | never => exact .inr h

/-- **The end of the lookup**: no entry is in use and none has the PMKID, or the new one fills the vacancy. -/
theorem getPmkEap_cases (c : Conf) (r : AddArgs) (k : Option Pmkid) (s : St) :
    ((add c r s).2.curPmksa = none ∧ getPmkEap c r k s = (add c r s).2) ∨
      getPmkEap c r k s = { (add c r s).2 with
        curPmksa := Use.current .vacant (add c r s).1 (add c r s).2.curPmksa } := by
  unfold getPmkEap
  simp only
  split
  · rename_i hno
    simp only [Bool.and_eq_true, Option.isNone_iff_eq_none] at hno
    exact .inl ⟨hno.1.1.2, rfl⟩
  · exact .inr rfl

theorem handle_inv {ev : Event} (h : Inv s) (hh : handle c s ev = some s') : Inv s' := by
  cases ev with
  | add r use =>
    obtain rfl := Option.some.inj hh
    obtain ⟨hinv, hmem⟩ := h.add (c := c) r
    refine hinv.setCur fun e he => ?_
    rcases mem_current he with he | he
    · exact ⟨e, hmem e he, .refl e⟩
    · exact hinv.live e he
  | addExternal r expiration reauthTime opportunistic external =>
    obtain rfl := Option.some.inj hh
    exact (h.freshen.addEntry (fun x hx => (h.fresh x hx).ne) (Nat.lt_succ_self s.fresh)).1
  | opportunistic n aa m =>
    obtain rfl := Option.some.inj hh
    exact (h.getOpportunistic n aa m).1
  | getPmkEap r k =>
    obtain rfl := Option.some.inj hh
    obtain ⟨hinv, hmem⟩ := h.add (c := c) r
    rcases getPmkEap_cases c r k s with ⟨-, heq⟩ | heq <;> rw [heq]
    · exact hinv
    · refine hinv.setCur fun e he => ?_
      rcases mem_current (u := .vacant) he with he | he
      · exact ⟨e, hmem e he, .refl e⟩
      · exact hinv.live e he
  | getPmk aa k =>
    simp only [handle] at hh
    split at hh
    · obtain rfl := Option.some.inj hh
      exact h.setCur fun e he => ⟨e, List.mem_of_find?_eq_some he, .refl e⟩
    · cases hh
  | setCurrent k a n b m =>
    obtain rfl := Option.some.inj hh
    exact h.setCurrent k a n b m
  | clearCurrent =>
    obtain rfl := Option.some.inj hh
    exact h.setCur (by simp)
  | flush n b =>
    obtain rfl := Option.some.inj hh
    exact ⟨(h.toCore.flush n none b).1, h.toRoom.flush n none b⟩
  | expire =>
    simp only [handle] at hh
    split at hh
    · obtain rfl := Option.some.inj hh
      exact ⟨(expireLoop_core h.toCore (.refl _)).setExpiration, (expireLoop_room h.toRoom).setExpiration⟩
    · cases hh
  | reauth =>
    simp only [handle] at hh
    split at hh
    · obtain rfl := Option.some.inj hh
      exact ⟨⟨h.distinct, h.fresh, h.aps, h.count, by simp, h.driver⟩, ⟨h.bound, h.timer⟩⟩
    · cases hh
  | negComplete =>
    obtain rfl := Option.some.inj hh
    refine h.map fun e => ?_
    split
    · exact ⟨rfl, rfl, rfl, rfl, rfl, rfl⟩
    · exact .refl e
  | setPmk | setBssid =>
    obtain rfl := Option.some.inj hh
    exact ⟨⟨h.distinct, h.fresh, h.aps, h.count, h.live, h.driver⟩, ⟨h.bound, h.timer⟩⟩

theorem step_cases {w : ℤ × Event} (h : step c s w = some s') :
    s.now ≤ w.1 ∧ handle c { s with now := w.1 } w.2 = some s' := by
  unfold step at h
  split at h
  · exact ⟨‹_›, h⟩
  · cases h

theorem Inv.setNow (h : Inv s) (t : ℤ) : Inv { s with now := t } :=
  ⟨⟨h.distinct, h.fresh, h.aps, h.count, h.live, h.driver⟩, ⟨h.bound, h.timer⟩⟩

theorem step_inv (h : Inv s) {w : ℤ × Event} (hs : step c s w = some s') : Inv s' :=
  handle_inv (h.setNow w.1) (step_cases hs).2

/-! ## Whole runs -/

variable {t₀ : ℤ} {es : List (ℤ × Event)}

theorem run_inv (hrun : run c (.init t₀) es = some s) : Inv s :=
  Lib.run_inv (fun _ _ _ h hs => step_inv h hs) (init_inv t₀) hrun

/-- **In every run** there are at most 32 entries, as many as are counted, and no two for one access point; the
entry in use is in the cache, with the PMK it had; and the driver has been told of all of them and of no other. -/
theorem current_inv (hrun : run c (.init t₀) es = some s) :
    s.pmksaCount = s.pmksa.length ∧ s.pmksa.length ≤ 32 ∧ (s.pmksa.map Entry.aa).Nodup ∧
      (∀ e ∈ s.curPmksa, ∃ x ∈ s.pmksa, Same e x) ∧ (held s.trace).Perm (s.pmksa.map Entry.key) := by
  have h := run_inv hrun
  exact ⟨h.count, h.bound, h.aps, h.live, h.driver⟩

/-- The plain station uses its entry. -/
theorem current_inv_plain : plainSt.curPmksa.isSome = true ∧
    plainSt.pmksaCount = plainSt.pmksa.length ∧ plainSt.pmksa.length ≤ 32 ∧ (plainSt.pmksa.map Entry.aa).Nodup ∧
      (∀ e ∈ plainSt.curPmksa, ∃ x ∈ plainSt.pmksa, Same e x) ∧
      (held plainSt.trace).Perm (plainSt.pmksa.map Entry.key) :=
  ⟨rfl, current_inv plain_run⟩

end Lightguard.Pmksa.Sta
