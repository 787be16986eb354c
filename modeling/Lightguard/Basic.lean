import Mathlib.Data.Vector.Basic
import Lightguard.Lib.Text

/-!
# Bytes, addresses and texts

The data every component exchanges: octet strings, MAC addresses, and the ASCII
texts of the Python scripts and of the C string functions.
-/

namespace Lightguard

/-- Octets, as the C code passes them around. -/
abbrev Bytes := List UInt8

/-- A MAC address (`u8 addr[ETH_ALEN]`). -/
abbrev Addr := List.Vector UInt8 6

/-- `00:00:00:00:00:00`. -/
def Addr.zero : Addr := ⟨[0, 0, 0, 0, 0, 0], rfl⟩

/-- `02:00:00:00:00:01` and `02:00:00:00:00:02`, locally administered. -/
def Addr.first : Addr := ⟨[2, 0, 0, 0, 0, 1], rfl⟩
def Addr.second : Addr := ⟨[2, 0, 0, 0, 0, 2], rfl⟩

/-- A text on one of the sockets. All of them are ASCII, so a character is an octet. -/
abbrev Text := List Char

namespace Text

/-- Python's `str.isspace` on ASCII, the characters `str.strip()` removes. -/
def isspace (c : Char) : Bool :=
  (9 ≤ c.toNat && c.toNat ≤ 13) || (28 ≤ c.toNat && c.toNat ≤ 32)

/-- `str.strip()`. -/
def strip (t : Text) : Text := Lib.strip isspace t

/-- `str.strip(c)` for one character. -/
def stripChar (c : Char) (t : Text) : Text := Lib.strip (· == c) t

/-- The C string in a buffer: what stands before the first NUL. -/
def cstr (t : Text) : Text := t.takeWhile (· != '\x00')

@[simp] theorem strip_nil : strip [] = [] := Lib.strip_nil

theorem strip_strip (t : Text) : strip (strip t) = strip t := Lib.strip_strip isspace t

theorem length_strip_le (t : Text) : (strip t).length ≤ t.length :=
  Lib.length_strip_le isspace t

theorem cstr_of_not_mem {t : Text} (h : '\x00' ∉ t) : cstr t = t := by
  refine List.takeWhile_eq_self_iff.2 ?_
  intro c hc
  have : c ≠ '\x00' := fun hn => h (hn ▸ hc)
  simpa using this

end Text

end Lightguard
