import Mathlib.Data.Fintype.Basic
import Mathlib.Data.List.Perm.Basic
import Mathlib.Data.List.Perm.Subperm
import Mathlib.Data.List.Nodup

/-!
# A linked list with hash chains

Items on one list that are also on the chain of their key. An item is its address (`ptr`): to unlink it is
to take away the first one at that address.

* `perm_unlink`: an item that comes off leaves the others.
* `Chained`: every chain holds the items of its key.
* `Chained.link`, `Chained.unlink`: what is linked and unlinked on both stays so.
* `Chained.find?_eq_none`, `Chained.mem`: the chain finds what is on the list.
-/

namespace Lib

variable {α κ ρ : Type*} {ptr : α → ρ} {key : α → κ} {a b : α} {l l' : List α} {chains : κ → List α} {k : κ}

/-- The addresses are different. -/
def Distinct (ptr : α → ρ) (l : List α) : Prop := (l.map ptr).Nodup

theorem Distinct.eq (h : Distinct ptr l) (ha : a ∈ l) (hb : b ∈ l) (hab : ptr a = ptr b) : a = b :=
  List.inj_on_of_nodup_map h ha hb hab

theorem Distinct.sublist (h : Distinct ptr l) (hs : l'.Sublist l) : Distinct ptr l' :=
  List.Nodup.sublist (hs.map ptr) h

theorem Distinct.perm (h : Distinct ptr l) (hp : l'.Perm l) : Distinct ptr l' := (hp.map ptr).nodup_iff.2 h

theorem distinct_cons : Distinct ptr (a :: l) ↔ (∀ b ∈ l, ptr b ≠ ptr a) ∧ Distinct ptr l := by
  simp [Distinct]

/-- The search for an address finds the item at it. -/
theorem Distinct.find?_eq_some [DecidableEq ρ] (h : Distinct ptr l) {p : ρ} :
    l.find? (fun b => decide (ptr b = p)) = some a ↔ a ∈ l ∧ ptr a = p := by
  constructor
  · intro hf
    exact ⟨List.mem_of_find?_eq_some hf, by simpa using List.find?_some hf⟩
  · rintro ⟨ha, rfl⟩
    obtain ⟨b, hb⟩ : ∃ b, l.find? (fun b => decide (ptr b = ptr a)) = some b :=
      Option.isSome_iff_exists.1 (List.find?_isSome.2 ⟨a, ha, decide_eq_true rfl⟩)
    rw [hb, h.eq (List.mem_of_find?_eq_some hb) ha (by simpa using List.find?_some hb)]

section Unlink

variable [DecidableEq ρ]

/-- Takes `a` off a list. -/
def unlink (ptr : α → ρ) (a : α) (l : List α) : List α := l.eraseP fun b => ptr b = ptr a

theorem unlink_sublist (ptr : α → ρ) (a : α) (l : List α) : (unlink ptr a l).Sublist l := List.eraseP_sublist

/-- To take away the first one is to take away the one. -/
theorem unlink_eq_filter (h : Distinct ptr l) : unlink ptr a l = l.filter fun b => ptr b ≠ ptr a := by
  induction l with
  | nil => rfl
  | cons b l ih =>
    obtain ⟨hb, hl⟩ := distinct_cons.1 h
    by_cases hba : ptr b = ptr a
    · rw [unlink, List.eraseP_cons_of_pos (by simpa using hba), List.filter_cons_of_neg (by simpa using hba)]
      exact (List.filter_eq_self.2 fun c hc => by simpa [hba] using hb c hc).symm
    · rw [unlink, List.eraseP_cons_of_neg (by simpa using hba), List.filter_cons_of_pos (by simpa using hba)]
      exact congrArg (b :: ·) (ih hl)

theorem mem_unlink (h : Distinct ptr l) : b ∈ unlink ptr a l ↔ b ∈ l ∧ ptr b ≠ ptr a := by
  simp [unlink_eq_filter h]

theorem length_unlink (ha : a ∈ l) : (unlink ptr a l).length + 1 = l.length := by
  have hlen := List.length_eraseP_of_mem (p := fun b => decide (ptr b = ptr a)) ha (by simp)
  have hpos := List.length_pos_of_mem ha
  rw [unlink, hlen]
  omega

/-- Nothing else comes off. -/
theorem perm_unlink (h : Distinct ptr l) (ha : a ∈ l) : l.Perm (a :: unlink ptr a l) := by
  induction l with
  | nil => cases ha
  | cons b l ih =>
    by_cases hba : ptr b = ptr a
    · obtain rfl : b = a := h.eq List.mem_cons_self ha hba
      simp [unlink]
    · have hne : a ≠ b := fun hab => hba (hab ▸ rfl)
      have htail := ih (distinct_cons.1 h).2 (List.mem_of_ne_of_mem hne ha)
      rw [unlink, List.eraseP_cons_of_neg (by simpa using hba)]
      exact (htail.cons b).trans (.swap a b _)

/-- What is not on the list does not come off. -/
theorem unlink_of_forall_ne (h : ∀ b ∈ l, ptr b ≠ ptr a) : unlink ptr a l = l :=
  List.eraseP_of_forall_not fun b hb => by simpa using h b hb

/-- The first item comes off first. -/
@[simp] theorem unlink_cons_self : unlink ptr a (a :: l) = l := by simp [unlink]

end Unlink

variable [DecidableEq κ]

/-- Every chain holds the items of its key. -/
def Chained (key : α → κ) (l : List α) (chains : κ → List α) : Prop :=
  ∀ k, (chains k).Perm (l.filter (key · = k))

theorem chained_nil (key : α → κ) : Chained key [] fun _ => [] := fun _ => .refl _

namespace Chained

/-- **The chain of a key** holds what is on the list and has the key. -/
theorem mem (h : Chained key l chains) : a ∈ chains k ↔ a ∈ l ∧ key a = k := by
  rw [(h k).mem_iff, List.mem_filter, decide_eq_true_iff]

/-- A search that asks for the key finds nothing in the chain exactly when there is nothing on the list. -/
theorem find?_eq_none (h : Chained key l chains) {f : α → Bool} (hf : ∀ a, f a = true → key a = k) :
    (chains k).find? f = none ↔ ∀ a ∈ l, f a = false := by
  simp only [List.find?_eq_none, h.mem, Bool.not_eq_true]
  refine ⟨fun hn a ha => ?_, fun hn a ha => hn a ha.1⟩
  by_contra hfa
  have hkey := hf a (by simpa using hfa)
  exact hfa (hn a ⟨ha, hkey⟩)

/-- A new item goes to the front of its chain. -/
theorem link (h : Chained key l chains) (hl : l'.Perm (a :: l)) :
    Chained key l' (Function.update chains (key a) (a :: chains (key a))) := by
  intro k
  refine List.Perm.trans ?_ (hl.filter _).symm
  by_cases hk : key a = k
  · subst hk
    rw [Function.update_self, List.filter_cons_of_pos (by simp)]
    exact (h _).cons a
  · rw [Function.update_of_ne (Ne.symm hk), List.filter_cons_of_neg (by simpa using hk)]
    exact h k

/-- An item comes off its chain and off the list. -/
theorem unlink [DecidableEq ρ] (h : Chained key l chains) (hd : Distinct ptr l) (ha : a ∈ l) :
    Chained key (Lib.unlink ptr a l)
      (Function.update chains (key a) (Lib.unlink ptr a (chains (key a)))) := by
  intro k
  rw [unlink_eq_filter hd]
  by_cases hk : key a = k
  · subst hk
    have hdc : Distinct ptr (chains (key a)) := (hd.sublist List.filter_sublist).perm (h _)
    rw [Function.update_self, unlink_eq_filter hdc, List.filter_comm]
    exact (h _).filter _
  · rw [Function.update_of_ne (Ne.symm hk), List.filter_comm]
    have hself : (l.filter (key · = k)).filter (fun b => ptr b ≠ ptr a) = l.filter (key · = k) := by
      refine List.filter_eq_self.2 fun b hb => ?_
      obtain ⟨hbl, hbk⟩ := List.mem_filter.1 hb
      have hne : ptr b ≠ ptr a := fun hba => hk (hd.eq hbl ha hba ▸ of_decide_eq_true hbk)
      simpa using hne
    rw [hself]
    exact h k

end Chained

end Lib
