import Lightguard.Fleet.GroupKey

/-!
# Group key agreement

Every station that is associated at both ends holds the key the access point sends group frames with, as
long as no update is pending, if the associations are made where the fast path of the two ends agrees:
hostapd overwrites the GTK at the index in use, wpa_supplicant fills slot 1.

* `step_inv`: what one event keeps.
* `group_agreement`: the agreement in every state of a run.
* `rekey_disagrees`: one rekey, and then one association.
-/

namespace Lightguard.Fleet.GroupKey

open Wpa
open Auth (Keyed Confirms)
open Supp (Up)

variable {ι : Type*} {p : Cipher} {c : ι → Link.Conf} {w w' : Net ι p} {i j : ι} {e : Auth.Env}
  {ev : Auth.Event}

/-! ## The property -/

/-- The station is associated: hostapd has it in PTKINITDONE and owes it no GTK, and the station has its
pairwise key in the driver. -/
structure Joined (w : Net ι p) (i : ι) : Prop where
  known : i ∈ w.stas
  keyed : Keyed (w.ap i)
  up : Up (w.sta i)

/-- The station's driver holds this GTK. -/
def Has (w : Net ι p) (i : ι) (idx : ℕ) (k : Gtk p) : Prop := Supp.HoldsGtk idx k.1 (w.sta i)

/-- No update of the group key is pending. -/
structure NoUpdatePending (w : Net ι p) : Prop where
  state : w.group.state = .setkeysdone
  rekey : w.group.gtkReKey = false
  marked : w.marked = false

/-- **Agreement.** Every associated station holds, at the index in use, what the access point sends with. -/
def Agree (w : Net ι p) : Prop :=
  NoUpdatePending w → ∀ i, Joined w i → ∃ k, w.tx = some (w.group.gn, k) ∧ Has w i w.group.gn k

/-! ## The condition -/

/-- What has filled the station's slots is the GTK in use: the fast path's at index 1, or the one of the
message 3/4. -/
def Suits (w : Net ι p) : Supp.Brought → Prop
  | .fast => w.group.gn = 1 ∧ w.group.current = customGtk p
  | .msg3 f => Supp.gtkOf f = some ⟨w.group.gn, w.group.current.1⟩

/-- What has filled the slots of the station suits. -/
def Suited (w : Net ι p) (i : ι) : Prop := ∃ b, Supp.brought (w.sta i).trace = some b ∧ Suits w b

/-- The machine of a station comes into PTKINITDONE. The fast path takes place at index 1, its GTK is in
use already when other stations are associated, and a station that is up first has taken the fast path too.
Otherwise a station that is up has got the GTK in use. -/
def ApSound (w : Net ι p) (i : ι) (e : Auth.Env) : Auth.Event → Prop
  | .staAssociated => w.group.gn = 1 ∧ e.setGroupKey = true ∧
      (Up (w.sta i) → Supp.brought (w.sta i).trace = some .fast) ∧
      ((∃ j, j ≠ i ∧ Joined w j) → w.group.current = customGtk p)
  | _ => Up (w.sta i) → Suited w i

/-- An event at the station's end, when hostapd has it in PTKINITDONE. The fast path takes place while its
GTK is in use at index 1, and a message 3/4 has the GTK in use. A pairwise key from elsewhere comes to a
station that is up or has got the GTK in use. -/
def StaSound (c : ι → Link.Conf) (w : Net ι p) (i : ι) (e : Supp.Env) : Supp.Event → Prop
  | .notifyAssoc _ => Supp.Takes e (w.sta i) → Suits w .fast
  | .rxEapol f => ¬ Up (w.sta i) → Supp.IsMsg3 (c i).sta f (w.sta i) → Suits w (.msg3 f)
  | .rekeyPtk | .ptkTcp _ => ¬ Up (w.sta i) → Suited w i
  | _ => True

/-- The condition on the events of a run. A station's group cipher is the one of the access point, its
driver takes the fast path's GTK, and a message 3/4 has a GTK it has not got yet. hostapd makes a GTK for
its first handshake only while no station is associated. hostapd's driver takes the GTKs that it gets
outside of a rekey. -/
def Sound (c : ι → Link.Conf) (w : Net ι p) : Event ι p → Prop
  | .ap i ev e => i ∈ w.stas → Confirms (c i).ap (w.env e) (w.ap i) ev → ApSound w i e ev
  | .sta i ev e => Supp.Fills (c i).sta (customGtk p).1 e (w.sta i) ev ∧
      (i ∈ w.stas → Keyed (w.ap i) → StaSound c w i e ev)
  | .ensureInit _ gmk _ ok => w.group.firstStaSeen = false → gmk = true →
      (∀ j, ¬ Joined w j) ∧ ok = true
  | .tkipCountermeasures _ _ _ ok | .reconfigGroupKeys ok => ok = true
  | _ => True

/-! ## The invariant -/

/-- What holds unless the group machine has failed. -/
structure Good (w : Net ι p) : Prop where
  rest : ∀ i ∈ w.stas, Auth.Rest (w.ap i)
  calm : ∀ i ∈ w.stas, Auth.GroupCalm (w.ap i)
  held : ∀ i, Joined w i → Has w i w.group.gn w.group.current
  sent : w.group.state = .setkeysdone → w.tx = some (w.group.gn, w.group.current)
  left : ∀ i, Supp.GtkOK (customGtk p).1 (w.sta i)

/-- What has filled the station's slots, it holds. -/
theorem Suited.has (h : Suited w i) (hs : Supp.GtkOK (customGtk p).1 (w.sta i)) :
    Has w i w.group.gn w.group.current := by
  obtain ⟨b, hb, hsuits⟩ := h
  have hleft := hs.left b hb
  cases b with
  | fast =>
    obtain ⟨hgn, hcur⟩ := hsuits
    rw [hgn, hcur]
    exact hleft
  | msg3 f => exact hleft _ hsuits

/-- **The invariant.** -/
def Inv (w : Net ι p) : Prop := w.group.state = .fatalFailure ∨ Good w

theorem Inv.agree (h : Inv w) : Agree w := by
  intro hp i hi
  rcases h with h | h
  · exact absurd (h.symm.trans hp.state) (by decide)
  · exact ⟨_, h.sent hp.state, h.held i hi⟩

/-! ## The GTKs from outside a rekey -/

theorem overwritten_eq (w : Net ι p) (ok : Bool) : (w.overwritten ok).stas = w.stas ∧
    (w.overwritten ok).sta = w.sta ∧ (w.overwritten ok).ap = w.ap ∧
    (w.overwritten ok).group.state = w.group.state ∧ (w.overwritten ok).group.gn = w.group.gn := by
  unfold Net.overwritten
  split <;> exact ⟨rfl, rfl, rfl, rfl, rfl⟩

/-- The fast path's GTK is the one in use then; a cipher without a key has only one GTK. -/
theorem overwritten_current (w : Net ι p) (ok : Bool) :
    (w.overwritten ok).group.current = customGtk p := by
  unfold Net.overwritten
  split
  · exact Function.update_self _ _ _
  · rename_i h0
    have hlen : ∀ k : Gtk p, k.1 = [] := by
      intro k
      exact List.eq_nil_of_length_eq_zero (by have := k.2; omega)
    exact Subtype.ext ((hlen _).trans (hlen _).symm)

theorem overwritten_sent (hs : w.group.state = .setkeysdone → w.tx = some (w.group.gn, w.group.current))
    (hst : (w.overwritten true).group.state = .setkeysdone) :
    (w.overwritten true).tx =
      some ((w.overwritten true).group.gn, (w.overwritten true).group.current) := by
  have hcur := overwritten_current w true
  unfold Net.overwritten at hst hcur ⊢
  split
  · rename_i hp
    rw [if_pos hp] at hcur
    rw [hcur]
    rfl
  · rename_i hp
    rw [if_neg hp] at hst
    exact hs hst

/-- The first handshake makes a new GTK. -/
theorem Good.ensureInit {ready gmk ok : Bool} {k : Gtk p} (h : Good w)
    (hs : w.group.firstStaSeen = false → gmk = true → (∀ j, ¬ Joined w j) ∧ ok = true) :
    Good (w.ensureInit ready gmk k ok) := by
  unfold Net.ensureInit
  split
  · exact h
  rename_i h1
  split
  · exact h
  rename_i h2
  obtain ⟨hnone, rfl⟩ := hs (by simpa using h1) (by simpa using h2)
  refine ⟨h.rest, h.calm, fun j hj => absurd ⟨hj.known, hj.keyed, hj.up⟩ (hnone j), fun _ => ?_, h.left⟩
  simp only [if_true, WpaGroup.current, Function.update_self]

/-- The countermeasures leave no station, and a new GTK in use. -/
theorem Good.tkipCountermeasures (h : Good w) (k₁ k₂ : Gtk p) (ok : Bool) :
    Good (w.tkipCountermeasures k₁ k₂ ok true) := by
  have hnone : ∀ i, i ∉ (w.tkipCountermeasures k₁ k₂ ok true).stas := fun _ => List.not_mem_nil
  refine ⟨fun i hi => absurd hi (hnone i), fun i hi => absurd hi (hnone i),
    fun i hi => absurd hi.known (hnone i), fun _ => ?_, h.left⟩
  simp only [Net.tkipCountermeasures, if_true, WpaGroup.current, Function.update_self]

/-- The GTK in use goes to the driver again. -/
theorem Good.reconfigGroupKeys (h : Good w) : Good (w.reconfigGroupKeys true) :=
  ⟨h.rest, h.calm, fun i hi => h.held i ⟨hi.known, hi.keyed, hi.up⟩, fun _ => rfl, h.left⟩

variable [DecidableEq ι]

/-! ## The group machine -/

/-- The GTK goes to the driver, or nothing works any more. -/
theorem Good.setkeysdone (h : Good w) (ok : Bool) : Inv (w.setkeysdone ok) := by
  unfold Net.setkeysdone
  cases ok with
  | false => exact .inl rfl
  | true =>
    refine .inr ⟨h.rest, h.calm, fun i hi => ?_, fun _ => rfl, h.left⟩
    exact h.held i ⟨hi.known, hi.keyed, hi.up⟩

/-- What the new machine and the others have, all have. -/
theorem forall_update {P : Auth.Sm → Prop} {q : ι → Prop} {m : ι → Auth.Sm} {s : Auth.Sm} (hs : P s)
    (h : ∀ j, j ≠ i → q j → P (m j)) : ∀ j, q j → P (Function.update m i s j) :=
  (Function.forall_update_iff m fun j t => q j → P t).2 ⟨fun _ => hs, h⟩

/-- Marking these stations leaves none of them with the GTK, as far as hostapd knows. -/
theorem updateStas_good {r : ι → Auth.Env} {l : List ι} (hl : ∀ i ∈ l, i ∈ w.stas)
    (hrest : ∀ i ∈ w.stas, Auth.Rest (w.ap i)) (hcalm : ∀ i ∈ w.stas, Auth.GroupCalm (w.ap i))
    (h : updateStas c r l w = some w') :
    (∀ i ∈ w.stas, Auth.Rest (w'.ap i)) ∧ (∀ i ∈ w.stas, Auth.GroupCalm (w'.ap i)) ∧
      ∀ i, i ∈ l ∨ ¬ Keyed (w.ap i) → ¬ Keyed (w'.ap i) := by
  induction l generalizing w with
  | nil =>
    obtain rfl := Option.some.inj h
    refine ⟨hrest, hcalm, ?_⟩
    rintro i (hi | hi)
    · cases hi
    · exact hi
  | cons a l ih =>
    obtain ⟨s, hs, h⟩ := Option.bind_eq_some_iff.1 h
    have ha : a ∈ w.stas := hl a List.mem_cons_self
    have hnot : ¬ Keyed s := Auth.groupUpdate_unkeyed (hrest a ha) (hcalm a ha) hs
    have hr : ∀ i ∈ w.stas, Auth.Rest (Function.update w.ap a s i) :=
      forall_update (Auth.step_acts (hrest a ha) hs).2 fun i _ => hrest i
    have hc : ∀ i ∈ w.stas, Auth.GroupCalm (Function.update w.ap a s i) :=
      forall_update (Auth.step_calm (hrest a ha) (hcalm a ha) hs) fun i _ => hcalm i
    obtain ⟨h1, h2, h3⟩ := ih (w := { w with ap := Function.update w.ap a s })
      (fun i hi => hl i (List.mem_cons_of_mem a hi)) hr hc h
    refine ⟨h1, h2, fun i hi => h3 i ?_⟩
    by_cases hia : i = a
    · subst hia
      simp only [Function.update_self]
      exact .inr hnot
    · simp only [Function.update_of_ne hia]
      exact hi.imp (fun hm => (List.mem_cons.1 hm).resolve_left hia) id

/-- **A new GTK** leaves no station associated without an update pending. -/
theorem Good.setkeys {r : GroupEnv ι p} (h : Good w) (hs : setkeys c r w = some w') : Good w' := by
  unfold GroupKey.setkeys at hs
  obtain ⟨hstas, hgroup, -, hsta⟩ := updateStas_eq c hs
  have hgood := fun hl hr hc => updateStas_good hl hr hc hs
  obtain ⟨hrest, hcalm, hnot⟩ := hgood (fun _ hi => hi) h.rest h.calm
  refine ⟨fun i hi => hrest i (hstas ▸ hi), fun i hi => hcalm i (hstas ▸ hi), fun i hi => ?_, ?_,
    fun i => hsta ▸ h.left i⟩
  · exact absurd hi.keyed (hnot i (.inl (hstas ▸ hi.known)))
  · intro hst
    rw [hgroup] at hst
    cases hst

theorem wpaGroupSmStep_inv {r : GroupEnv ι p} (h : Inv w) (hs : wpaGroupSmStep c r w = some w') :
    Inv w' := by
  rcases h with hf | h
  · simp only [wpaGroupSmStep, hf] at hs
    obtain rfl := Option.some.inj hs
    exact .inl hf
  unfold wpaGroupSmStep at hs
  cases hst : w.group.state with
  | fatalFailure =>
    simp only [hst] at hs
    obtain rfl := Option.some.inj hs
    exact .inr h
  | gtkInit =>
    simp only [hst] at hs
    obtain rfl := Option.some.inj hs
    exact h.setkeysdone _
  | setkeysdone =>
    simp only [hst] at hs
    split at hs
    · exact .inr (h.setkeys hs)
    · obtain rfl := Option.some.inj hs
      exact .inr h
  | setkeys =>
    simp only [hst] at hs
    split at hs
    · obtain rfl := Option.some.inj hs
      exact h.setkeysdone _
    split at hs
    · exact .inr (h.setkeys hs)
    · obtain rfl := Option.some.inj hs
      exact .inr h

/-! ## The events -/

/-- What an event of a station's machine leaves of the other stations. -/
theorem Joined.of_update {s : Auth.Sm} (hj : Joined { w with ap := Function.update w.ap i s } j)
    (hne : j ≠ i) : Joined w j := by
  have hk := hj.keyed
  simp only [Function.update_of_ne hne] at hk
  exact ⟨hj.known, hk, hj.up⟩

/-- **An event of a station's machine.** -/
theorem Good.ap (h : Good w) (hi : i ∈ w.stas) {s : Auth.Sm}
    (hs : Confirms (c i).ap (w.env e) (w.ap i) ev → ApSound w i e ev)
    (hstep : Auth.step (c i).ap (w.ap i) (ev, w.env e) = some s) :
    Good { (if Fast c i e w ev then w.overwritten e.setGroupKey else w) with
      ap := Function.update w.ap i s } := by
  have hkeyed := Auth.step_keyed (h.rest i hi) (h.calm i hi) hstep
  have hrest : ∀ j ∈ w.stas, Auth.Rest (Function.update w.ap i s j) :=
    forall_update (Auth.step_acts (h.rest i hi) hstep).2 fun j _ => h.rest j
  have hcalm : ∀ j ∈ w.stas, Auth.GroupCalm (Function.update w.ap i s j) :=
    forall_update (Auth.step_calm (h.rest i hi) (h.calm i hi) hstep) fun j _ => h.calm j
  -- only the fast path touches the group; everything else that keys a machine is sound
  by_cases hfast : Fast c i e w ev
  · rw [if_pos hfast]
    obtain ⟨h1, h2, h3, h4, h5⟩ := overwritten_eq w e.setGroupKey
    have hcur := overwritten_current w e.setGroupKey
    have hsound : ApSound w i e .staAssociated ∧ ev = .staAssociated := by
      cases ev with
      | staAssociated => exact ⟨hs hfast, rfl⟩
      | _ => exact absurd hfast id
    obtain ⟨⟨hgn, hset, hown, hothers⟩, rfl⟩ := hsound
    refine ⟨fun j hj => hrest j (h1 ▸ hj), fun j hj => hcalm j (h1 ▸ hj), fun j hj => ?_, ?_,
      fun j => h2 ▸ h.left j⟩
    · show Has _ j (w.overwritten e.setGroupKey).group.gn (w.overwritten e.setGroupKey).group.current
      rw [h5, hcur, hgn]
      have hsta : ∀ k, Has w j 1 k → Supp.HoldsGtk 1 k.1 ((w.overwritten e.setGroupKey).sta j) := by
        intro k hk
        rw [h2]
        exact hk
      -- the stations are not touched by what hostapd does
      have hup : Up (w.sta j) := by
        have := hj.up
        rwa [h2] at this
      by_cases hji : j = i
      · subst hji
        exact hsta _ ((h.left j).left .fast (hown hup))
      · -- the others have it already
        have hjoined : Joined w j := by
          refine ⟨h1 ▸ hj.known, ?_, hup⟩
          have := hj.keyed
          simp only [Function.update_of_ne hji] at this
          exact this
        have hheld := h.held j hjoined
        rw [hgn, hothers ⟨j, hji, hjoined⟩] at hheld
        exact hsta _ hheld
    · rw [hset]
      exact overwritten_sent h.sent
  · rw [if_neg hfast]
    refine ⟨hrest, hcalm, fun j hj => ?_, h.sent, h.left⟩
    by_cases hji : j = i
    · subst hji
      have hk : Keyed s := by
        have := hj.keyed
        simp only [Function.update_self] at this
        exact this
      -- the machine was keyed already, or the event has keyed it
      rcases hkeyed hk with hk | hcon
      · exact h.held j ⟨hi, hk, hj.up⟩
      · cases ev with
        | staAssociated => exact absurd hcon hfast
        | _ => exact (hs hcon hj.up).has (h.left j)
    · exact h.held j (hj.of_update hji)

/-- **An event at the station's end.** -/
theorem Good.sta {e : Supp.Env} {ev : Supp.Event} (hc : (c i).sta.link = .wifi) (h : Good w)
    (hf : Supp.Fills (c i).sta (customGtk p).1 e (w.sta i) ev)
    (hs : i ∈ w.stas → Keyed (w.ap i) → StaSound c w i e ev) {s : Supp.Sm}
    (hstep : Supp.step (c i).sta (w.sta i) (ev, e) = some s) :
    Good { w with sta := Function.update w.sta i s } := by
  have hok := Supp.step_gtkOK hc (h.left i) hf hstep
  have hleft : ∀ j, Supp.GtkOK (customGtk p).1 (Function.update w.sta i s j) :=
    (Function.forall_update_iff w.sta fun _ t => Supp.GtkOK (customGtk p).1 t).2 ⟨hok, fun j _ => h.left j⟩
  refine ⟨h.rest, h.calm, fun j hj => ?_, h.sent, hleft⟩
  have hup := hj.up
  show Supp.HoldsGtk w.group.gn w.group.current.1 (Function.update w.sta i s j)
  by_cases hji : j = i
  · subst hji
    simp only [Function.update_self] at hup ⊢
    have hsound := hs hj.known hj.keyed
    have hheld : Up (w.sta j) → Has w j w.group.gn w.group.current := fun hu =>
      h.held j ⟨hj.known, hj.keyed, hu⟩
    -- an event that is no association and no frame
    have hother : ev.fills = false → Has w j w.group.gn w.group.current →
        Supp.HoldsGtk w.group.gn w.group.current.1 s := by
      intro hfill hk
      rcases Supp.step_sameGtk hc hfill hstep with hsame | hlost
      · exact hsame.holds hk
      · exact absurd hup hlost.down
    cases ev with
    | notifyAssoc b =>
      obtain rfl := Option.some.inj hstep
      have ht := Supp.notifyAssoc_takes hc hup
      obtain ⟨hgn, hcur⟩ := hsound ht
      rw [hgn, hcur]
      exact hok.left .fast (Supp.notifyAssoc_brought hc ht b)
    | rxEapol f =>
      obtain rfl := Option.some.inj hstep
      by_cases hu : Up (w.sta j)
      · rw [Supp.wpaSmRxEapol_up hc hu]
        exact hheld hu
      · rcases Supp.wpaSmRxEapol_gtk (e := e) hc ⟨hu, (h.left j).fresh⟩ (hf hu) with ⟨-, hdown⟩ | ⟨h3, -, hhas⟩
        · exact absurd hup hdown
        · exact hhas _ (hsound hu h3)
    | rekeyPtk =>
      by_cases hu : Up (w.sta j)
      · exact hother rfl (hheld hu)
      · exact hother rfl ((hsound hu).has (h.left j))
    | ptkTcp buf =>
      by_cases hu : Up (w.sta j)
      · exact hother rfl (hheld hu)
      · exact hother rfl ((hsound hu).has (h.left j))
    | _ => exact hother rfl (hheld (Supp.step_up rfl hstep hup))
  · simp only [Function.update_of_ne hji] at hup ⊢
    exact h.held j ⟨hj.known, hj.keyed, hup⟩

/-- **One event keeps the invariant.** -/
theorem step_inv (hc : ∀ i, (c i).Wifi) {x : Event ι p} (h : Inv w) (hs : Sound c w x)
    (hstep : step c w x = some w') : Inv w' := by
  cases x with
  | staInit i n psks =>
    simp only [step] at hstep
    split at hstep
    · cases hstep
    rename_i hno
    obtain rfl := Option.some.inj hstep
    simp only [not_or] at hno
    have hgood := h.resolve_left hno.2
    have hold : ∀ j, j ≠ i → j ∈ i :: w.stas → j ∈ w.stas := fun j hne hj =>
      (List.mem_cons.1 hj).resolve_left hne
    -- a new machine is not keyed, and the others are as before
    refine .inr ⟨?_, ?_, fun j hj => ?_, hgood.sent, hgood.left⟩
    · exact forall_update (Auth.rest_new n psks) fun j hne hj => hgood.rest j (hold j hne hj)
    · exact forall_update (Auth.calm_new n psks) fun j hne hj => hgood.calm j (hold j hne hj)
    · have hk := hj.keyed
      by_cases hji : j = i
      · subst hji
        simp only [Function.update_self] at hk
        exact nomatch hk.state
      · simp only [Function.update_of_ne hji] at hk
        exact hgood.held j ⟨hold j hji hj.known, hk, hj.up⟩
  | staDeinit i =>
    obtain rfl := Option.some.inj hstep
    refine h.imp id fun h => ?_
    have hmem : ∀ j ∈ w.stas.filter (· ≠ i), j ∈ w.stas := fun j hj => (List.mem_filter.1 hj).1
    exact ⟨fun j hj => h.rest j (hmem j hj), fun j hj => h.calm j (hmem j hj),
      fun j hj => h.held j ⟨hmem j hj.known, hj.keyed, hj.up⟩, h.sent, h.left⟩
  | ap i ev e =>
    simp only [step] at hstep
    split at hstep
    · rename_i hi
      obtain ⟨s, h1, rfl⟩ := Option.map_eq_some_iff.1 hstep
      -- a group that has failed stays so, whatever the fast path writes
      refine h.imp (fun hf => ?_) fun h => h.ap hi (hs hi) h1
      simp only
      split
      · exact (overwritten_eq w e.setGroupKey).2.2.2.1.trans hf
      · exact hf
    · cases hstep
  | sta i ev e =>
    simp only [step] at hstep
    obtain ⟨s, h1, rfl⟩ := Option.map_eq_some_iff.1 hstep
    exact h.imp id fun h => h.sta (hc i).sta hs.1 hs.2 h1
  | rekeyGtk =>
    obtain rfl := Option.some.inj hstep
    exact h.imp id fun h =>
      ⟨h.rest, h.calm, fun j hj => h.held j ⟨hj.known, hj.keyed, hj.up⟩, h.sent, h.left⟩
  | groupStep r => exact wpaGroupSmStep_inv h hstep
  | ensureInit ready gmk k ok =>
    obtain rfl := Option.some.inj hstep
    refine h.imp (fun hf => ?_) fun h => h.ensureInit hs
    unfold Net.ensureInit
    split
    · exact hf
    split
    · exact hf
    · exact hf
  | tkipCountermeasures k₁ k₂ ok₁ ok₂ =>
    obtain rfl := Option.some.inj hstep
    obtain rfl : ok₂ = true := hs
    exact h.imp id fun h => h.tkipCountermeasures k₁ k₂ ok₁
  | reconfigGroupKeys ok =>
    obtain rfl := Option.some.inj hstep
    obtain rfl : ok = true := hs
    exact h.imp id Good.reconfigGroupKeys

/-- The station's slots have not been filled, and it is in no handshake. -/
structure Unfilled (s : Supp.Sm) : Prop where
  fresh : Supp.Fresh s
  none : Supp.brought s.trace = none

theorem start_inv {b : Bss ι} (hb : ∀ i, Unfilled (b.sta i)) (k : Gtk p) (ok : Bool) :
    Inv (Net.start b k ok) := by
  refine Good.setkeysdone ⟨?_, ?_, ?_, ?_, ?_⟩ ok
  · exact fun i hi => absurd hi (List.not_mem_nil (a := i))
  · exact fun i hi => absurd hi (List.not_mem_nil (a := i))
  · exact fun i hi => absurd hi.known (List.not_mem_nil (a := i))
  · intro h
    cases h
  · exact fun i => ⟨(hb i).fresh, Supp.owed_none (hb i).none⟩

/-- **Group key agreement.** In every run of an access point with any stations, all of whose events meet
the condition, every associated station holds the key the access point sends with, in every state in
which no update is pending. -/
theorem group_agreement (hc : ∀ i, (c i).Wifi) {b : Bss ι} (hb : ∀ i, Unfilled (b.sta i)) (k : Gtk p)
    (ok : Bool) {xs : List (Event ι p)} (h : Lib.Along (step c) (Sound c) (Net.start b k ok) xs) :
    Lib.Throughout (step c) Agree (Net.start b k ok) xs :=
  (Lib.along_throughout (fun _ _ _ => step_inv hc) (start_inv hb k ok) h).mono fun _ => Inv.agree

/-! ## Plain runs -/

/-- A station associates, and both ends take the fast path. -/
def plainJoin (i : ι) : List (Event ι .ccmp) :=
  [.staInit i Auth.wpa2Ccmp [plainPmk], .ap i .staAssociated Auth.calm,
    .sta i (.notifyAssoc Addr.first) Supp.calm]

/-- `group_agreement` for two rekeys and two associations. -/
theorem group_agreement_plain : Lib.Throughout (step fun _ => Link.plainConf .wifi) Agree (plainNet Bool)
    (plainRekey Bool 2 ++ plainRekey Bool 3 ++ plainJoin false ++ plainJoin true) := by
  refine group_agreement (fun _ => Link.plainConf_wifi) ?_ _ _ ?_
  · exact fun _ => ⟨rfl, rfl⟩
  -- neither station is up when hostapd takes the fast path
  have hdown : ∀ {s : Supp.Sm}, s.ptkSet = false → Up s → Supp.brought s.trace = some .fast :=
    fun hset hu => absurd (hset.symm.trans hu.set) Bool.false_ne_true
  have halone : ∀ {w : Net Bool .ccmp}, w.stas = [false] → (∃ j, j ≠ false ∧ Joined w j) →
      w.group.current = customGtk .ccmp := by
    rintro w hw ⟨j, hj, hjoined⟩
    have := hjoined.known
    rw [hw, List.mem_singleton] at this
    exact absurd this hj
  refine .cons rfl trivial (.cons rfl trivial (.cons rfl trivial ?_))
  refine .cons rfl trivial (.cons rfl trivial (.cons rfl trivial ?_))
  refine .cons rfl trivial (.cons rfl ?_ (.cons rfl ?_ ?_))
  · exact fun _ _ => ⟨rfl, rfl, hdown rfl, halone rfl⟩
  · exact ⟨fun _ => ⟨rfl, by decide, rfl⟩, fun _ _ _ => ⟨rfl, rfl⟩⟩
  refine .cons rfl trivial (.cons rfl ?_ (.cons rfl ?_ trivial))
  · exact fun _ _ => ⟨rfl, rfl, hdown rfl, fun _ => rfl⟩
  · exact ⟨fun _ => ⟨rfl, by decide, rfl⟩, fun _ _ _ => ⟨rfl, rfl⟩⟩

/-- One rekey, and then one association: the station has nothing at the index that is in use. -/
theorem rekey_disagrees : ∃ w, Lib.run (step fun _ => Link.plainConf .wifi) (plainNet Unit)
      (plainRekey Unit 2 ++ plainJoin ()) = some w ∧
    w.group.gn = 2 ∧ w.tx = some (2, customGtk .ccmp) ∧ NoUpdatePending w ∧ Joined w () ∧
    Supp.driverGtk 2 (w.sta ()).trace = none ∧ ¬ Agree w := by
  refine ⟨_, rfl, rfl, rfl, ⟨rfl, rfl, rfl⟩, ?_, rfl, fun h => ?_⟩
  · exact ⟨List.mem_singleton.2 rfl, ⟨rfl, rfl⟩, ⟨rfl, rfl⟩⟩
  · obtain ⟨k, -, hk⟩ := h ⟨rfl, rfl, rfl⟩ () ⟨List.mem_singleton.2 rfl, ⟨rfl, rfl⟩, ⟨rfl, rfl⟩⟩
    exact nomatch hk

end Lightguard.Fleet.GroupKey
