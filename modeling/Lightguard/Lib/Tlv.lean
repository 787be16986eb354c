import Mathlib.Algebra.Order.Ring.Nat

/-!
# Elements with a length

Octets made of elements: one octet for the kind of the element, one for the length of its body, and the
body.

* `split`: the elements at the front that are complete, and what is left.
* `encode_split`, `split_encode`: to split and to put together undo each other.
-/

namespace Lib.Tlv

/-- An element. -/
structure Elem where
  id : UInt8
  body : List UInt8
  short : body.length < 256
deriving DecidableEq

/-- The octets of an element. -/
def Elem.octets (e : Elem) : List UInt8 := e.id :: UInt8.ofNat e.body.length :: e.body

/-- The octets of elements. -/
def encode (l : List Elem) : List UInt8 := l.flatMap Elem.octets

theorem length_take_lt (len : UInt8) (rest : List UInt8) : (rest.take len.toNat).length < 256 :=
  (List.length_take_le _ _).trans_lt len.toNat_lt

/-- The complete elements at the front, and what is left. -/
def split : List UInt8 → List Elem × List UInt8
  | id :: len :: rest =>
    if len.toNat ≤ rest.length then
      let q := split (rest.drop len.toNat)
      (⟨id, rest.take len.toNat, length_take_lt len rest⟩ :: q.1, q.2)
    else ([], id :: len :: rest)
  | l => ([], l)
termination_by l => l.length
decreasing_by
  simp only [List.length_drop, List.length_cons]
  omega

variable {e : Elem} {l : List Elem} {r b : List UInt8}

@[simp] theorem encode_nil : encode [] = [] := rfl

@[simp] theorem encode_cons : encode (e :: l) = e.octets ++ encode l := rfl

@[simp] theorem encode_append {l' : List Elem} : encode (l ++ l') = encode l ++ encode l' := List.flatMap_append

@[simp] theorem Elem.length_octets : e.octets.length = e.body.length + 2 := rfl

theorem Elem.length_toNat (e : Elem) : (UInt8.ofNat e.body.length).toNat = e.body.length := by
  rw [UInt8.toNat_ofNat', Nat.mod_eq_of_lt e.short]

/-- A complete element at the front. -/
theorem split_cons (e : Elem) (r : List UInt8) : split (e.octets ++ r) = (e :: (split r).1, (split r).2) := by
  simp [Elem.octets, split, e.length_toNat]

/-- **What was put together** is split at the same places. -/
theorem split_encode (l : List Elem) (r : List UInt8) : split (encode l ++ r) = (l ++ (split r).1, (split r).2) := by
  induction l with
  | nil => rfl
  | cons e l ih => rw [encode_cons, List.append_assoc, split_cons, ih]; rfl

/-- **What was split** is put together again. -/
theorem encode_split (b : List UInt8) : encode (split b).1 ++ (split b).2 = b := by
  fun_induction split b with
  | case1 id len rest h q ih =>
    have hlen : UInt8.ofNat (rest.take len.toNat).length = len := by
      rw [List.length_take, Nat.min_eq_left h, UInt8.ofNat_toNat]
    rw [encode_cons, List.append_assoc, ih, Elem.octets, hlen, List.cons_append, List.cons_append]
    exact congrArg (id :: len :: ·) (List.take_append_drop ..)
  | case2 => rfl
  | case3 => rfl

/-- What is left over is split no further. -/
theorem split_rest (b : List UInt8) : (split (split b).2).1 = [] := by
  have h := split_encode (split b).1 (split b).2
  rw [encode_split] at h
  have hlen := congrArg (fun q => q.1.length) h
  simp only [List.length_append] at hlen
  exact List.eq_nil_of_length_eq_zero (by omega)

end Lib.Tlv
