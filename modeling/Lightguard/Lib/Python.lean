import Lightguard.Lib.Text

/-!
# Python's texts

What a Python program does to the octets and the strings it is given. A text is a list of
Unicode characters; `nd` stands for the Unicode database's decimal digits beyond ASCII.

* `decode`: strict UTF-8 decoding, `none` for an exception.
* `strip`: `str.strip()`.
* `split`: `str.split()`.
* `int`: the constructor `int` on a string.
* `decode_encode`: what was encoded is decoded.
* `split_word`: `split` reads a word up to the white space behind it.
-/

namespace Lib.Python

/-- `str.encode()`. -/
def encode (t : List Char) : List UInt8 := t.flatMap String.utf8EncodeChar

/-- `bytes.decode()`. -/
def decode (b : List UInt8) : Option (List Char) :=
  b.toByteArray.utf8Decode?.map Array.toList

/-- `str.isspace()` of one character. -/
def isspace (c : Char) : Bool :=
  (9 ≤ c.toNat && c.toNat ≤ 13) || (28 ≤ c.toNat && c.toNat ≤ 32) ||
    (0x2000 ≤ c.toNat && c.toNat ≤ 0x200a) ||
    [0x85, 0xa0, 0x1680, 0x2028, 0x2029, 0x202f, 0x205f, 0x3000].contains c.toNat

/-- `str.strip()`. -/
def strip (t : List Char) : List Char := Lib.strip isspace t

/-- `str.split()`: the words between white space. -/
def split (t : List Char) : List (List Char) := (t.splitOnP isspace).filter (· ≠ [])

/-- How `subprocess.run` ends: the return code, negative after a signal, and the output of the command,
or an exception, such as the one of a timeout. -/
inductive Ran where
  | exited (status : ℤ) (stdout : List UInt8)
  | raised
deriving DecidableEq

variable (nd : Char → Option ℕ)

/-- The value of a decimal digit. -/
def decimal (c : Char) : Option ℕ :=
  if '0' ≤ c ∧ c ≤ '9' then some (c.toNat - '0'.toNat)
  else if c.toNat < 128 then none
  else nd c

/-- The digits of `int(..)` behind the first one, with single underscores between them. -/
def intDigits : ℕ → List Char → Option ℕ
  | n, [] => some n
  | n, '_' :: c :: t => (decimal nd c).bind fun d => intDigits (10 * n + d) t
  | n, c :: t => (decimal nd c).bind fun d => intDigits (10 * n + d) t

/-- The digits of `int(..)`. -/
def intAbs (t : List Char) : Option ℕ :=
  match t with
  | [] => none
  | c :: t => (decimal nd c).bind fun d => intDigits nd d t

/-- `int(t)`; `none` is a `ValueError`. -/
def int (t : List Char) : Option ℤ :=
  match strip t with
  | '-' :: t => (intAbs nd t).map fun n => -(n : ℤ)
  | '+' :: t => (intAbs nd t).map fun n => (n : ℤ)
  | t => (intAbs nd t).map fun n => (n : ℤ)

theorem decode_encode (t : List Char) : decode (encode t) = some t := by
  have h : (encode t).toByteArray = t.utf8Encode := rfl
  rw [decode, h, List.utf8Decode?_utf8Encode, Option.map_some]

/-- An ASCII character is one octet. -/
theorem utf8_ascii {c : Char} (h : c.toNat < 128) : (String.utf8EncodeChar c).length = 1 := by
  have hle : c.val.toNat ≤ 0x7f := Nat.le_of_lt_succ h
  rw [String.length_utf8EncodeChar, Char.utf8Size, if_pos]
  exact hle

/-- **What has arrived of an ASCII text** is the encoding of its beginning. -/
theorem encode_beginning {t : List Char} (h : ∀ c ∈ t, c.toNat < 128) {b : List UInt8}
    (hb : b <+: encode t) : ∃ u, u <+: t ∧ b = encode u := by
  induction t generalizing b with
  | nil => exact ⟨[], List.nil_prefix, List.prefix_nil.1 hb⟩
  | cons c t ih =>
    obtain ⟨x, hx⟩ := List.length_eq_one_iff.1 (utf8_ascii (h c List.mem_cons_self))
    have hcons : encode (c :: t) = x :: encode t := by
      rw [encode, List.flatMap_cons, hx]
      rfl
    rw [hcons] at hb
    cases b with
    | nil => exact ⟨[], List.nil_prefix, rfl⟩
    | cons y b =>
      obtain ⟨rfl, hb'⟩ := List.cons_prefix_cons.1 hb
      obtain ⟨u, hu, rfl⟩ := ih (fun d hd => h d (List.mem_cons_of_mem c hd)) hb'
      refine ⟨c :: u, List.cons_prefix_cons.2 ⟨rfl, hu⟩, ?_⟩
      rw [encode, encode, List.flatMap_cons, hx]
      rfl

theorem strip_strip (t : List Char) : strip (strip t) = strip t := Lib.strip_strip isspace t

theorem split_word {w r : List Char} {c : Char} (hw : w ≠ []) (h : ∀ x ∈ w, isspace x = false)
    (hc : isspace c = true) : split (w ++ c :: r) = w :: split r := by
  rw [split, List.splitOnP_append_cons_of_forall_mem h c hc, List.filter_cons_of_pos (by simpa using hw),
    split]

end Lib.Python
