import Mathlib.Data.List.DropRight
import Lightguard.Wpa.Common

/-!
# The payload of the PTK TCP ports

`wpa_auth_ptk_tcp_handler` of hostapd and `wpa_sm_ptk_tcp_handler` of wpa_supplicant read
one buffer each and decode it in the same way: blanks, an optional `PTK`, hexadecimal digits.

* `decodePtk_length`: a decoded PTK has 16 octets of KCK, 16 of KEK and a TK of the length
  the cipher asks for.
-/

namespace Lightguard.Wpa

/-- `sizeof(buf) - 1`: what one `recv` of the handlers returns at most. -/
def ptkTcpRecvMax : ℕ := 2 * (32 + 32) + 32 - 1

def isBlank (c : Char) : Bool := c == ' ' || c == '\t'

/-- `hex2num`. -/
def hex2num (c : Char) : Option ℕ :=
  if '0' ≤ c ∧ c ≤ '9' then some (c.toNat - '0'.toNat)
  else if 'a' ≤ c ∧ c ≤ 'f' then some (c.toNat - 'a'.toNat + 10)
  else if 'A' ≤ c ∧ c ≤ 'F' then some (c.toNat - 'A'.toNat + 10)
  else none

/-- `hexstr2bin` on a text of even length: two digits for each octet. -/
def hexstr2bin : Text → Option Bytes
  | [] => some []
  | [_] => none
  | a :: b :: t =>
    (hex2num a).bind fun a => (hex2num b).bind fun b =>
      (hexstr2bin t).map (UInt8.ofNat (16 * a + b) :: ·)

/-- `os_strncasecmp(hex, "PTK", 3) == 0`. -/
def startsWithPtk (t : Text) : Bool := (t.take 3).map Char.toLower == "ptk".toList

/-- What the handlers make of the buffer before they look at the cipher: white space at the
end and blanks at the start go, and so does `PTK` with the separators behind it. -/
def ptkTcpHex (buf : Text) : Text :=
  let buf := buf.rdropWhile fun c => c == '\n' || c == '\r' || isBlank c
  let hex := (Text.cstr buf).dropWhile isBlank
  if startsWithPtk hex then (hex.drop 3).dropWhile fun c => c == ':' || isBlank c else hex

/-- The PTK in a buffer, for a cipher with this key length. -/
def decodePtk (klen : ℕ) (buf : Text) : Option Ptk :=
  let hex := ptkTcpHex buf
  if hex = [] then none
  else if hex.length ≠ 2 * (32 + klen) then none
  else (hexstr2bin hex).map fun keybuf =>
    { kck := keybuf.take 16
      kek := (keybuf.drop 16).take 16
      tk := (keybuf.drop 32).take klen
      installed := false }

theorem hexstr2bin_length {t : Text} {b : Bytes} (h : hexstr2bin t = some b) :
    t.length = 2 * b.length := by
  induction t using hexstr2bin.induct generalizing b with
  | case1 =>
    obtain rfl : [] = b := by simpa [hexstr2bin] using h
    rfl
  | case2 x => simp [hexstr2bin] at h
  | case3 x y t ih =>
    simp only [hexstr2bin, Option.bind_eq_some_iff, Option.map_eq_some_iff] at h
    obtain ⟨a, -, d, -, b', hb', rfl⟩ := h
    have := ih hb'
    simp only [List.length_cons]; omega

/-- **A decoded PTK has the lengths the cipher asks for.** -/
theorem decodePtk_length {klen : ℕ} {buf : Text} {p : Ptk} (h : decodePtk klen buf = some p) :
    p.kck.length = 16 ∧ p.kek.length = 16 ∧ p.tk.length = klen ∧ p.installed = false := by
  unfold decodePtk at h
  simp only at h
  split at h
  · cases h
  split at h
  · cases h
  rename_i hlen
  simp only [Option.map_eq_some_iff] at h
  obtain ⟨b, hb, rfl⟩ := h
  have hb' := hexstr2bin_length hb
  refine ⟨?_, ?_, ?_, rfl⟩ <;> simp only [List.length_take, List.length_drop] <;> omega

/-- The 48 octets of the plain handshake as the management plane sends them. -/
def plainHex : Text :=
  "A1712137B441F5505E98F5CB07EDD0434D586DBD0CEA5517B24D18DEEF6E960CB1821521BFA80711CDEEEE1A5FF6E695".toList

end Lightguard.Wpa
