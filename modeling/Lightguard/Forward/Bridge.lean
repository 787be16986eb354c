import Mathlib.Tactic.IntervalCases
import Lightguard.Fleet.Update
import Lightguard.Lib.Stream
import Lightguard.Wpa.Grammar

/-!
# The manual bridge

`ap_ptk_sync.py` sends a PTK to `sta_ptk_sync.py`, which hands it to wpa_supplicant on its host and
answers, and then to hostapd on its own. Every connection may fail before, between or after the two.

* `apPtkSync_eq`: what both ends have been given, by how the connections end.
* `payloadPtk_read`: what a daemon decodes of a read, by how much of the payload is in it.
* `bridge_iff`: when both ends have been given the same PTK or none, and success is reported only of the
  former.
-/

namespace Lightguard.Forward

open Lib.Stream (segmentOf)
open Wpa Fleet

/-- How a connection ends: whether `create_connection` returns, how many characters are on the wire when
`sendall` raises (`none` if it does not), and what the one read at the other end returns of them, `none`
if that comes to nothing. -/
structure Leg where
  connected : Bool
  raised : Option ℕ
  read : Option ℕ
deriving DecidableEq

namespace Leg

/-- No exception on the sending side. -/
def ok (l : Leg) : Bool := l.connected && l.raised.isNone

/-- What is on the wire of a text. -/
def wire (l : Leg) (t : Text) : Text :=
  if l.connected then
    match l.raised with
    | none => t
    | some n => t.take n
  else []

/-- What a read into a buffer of this size returns. -/
def arrives (l : Leg) (max : ℕ) (t : Text) : Option Text :=
  l.read.bind fun n => if l.wire t = [] then none else some (segmentOf max n (l.wire t))

end Leg

/-- How the connections of one exchange end. `reply` is what `sock.recv(1024)` returns of the answer,
`none` an exception of it or of `sock.shutdown`. -/
structure Network where
  toBridge : Leg
  toSta : Leg
  reply : Option ℕ
  toAp : Leg
deriving DecidableEq

/-- The PTKs the two daemons have been given, and whether success is reported. -/
structure Given where
  sta : Option Ptk
  ap : Option Ptk
  success : Bool
deriving DecidableEq

/-- `payload`, with the option `--prefix` or without. -/
def bridgePayload (ptkHex : Text) (mark : Bool) : Text :=
  if mark then "PTK ".toList ++ ptkHex.strip else ptkHex.strip

/-- `sta_ptk_sync.py` on the result of its `recv(4096)`: the buffer that wpa_supplicant reads, and the
reply, which depends on `forward_to_local` only. -/
def staPtkSync (data : Option Text) (toSta : Leg) : Option Text × Text :=
  match data with
  | none => (none, [])
  | some data =>
    (toSta.arrives ptkTcpRecvMax (Text.strip data ++ ['\n']),
      if toSta.ok then "OK".toList else "FAIL".toList)

/-- `main` of `ap_ptk_sync.py`, with the ciphers of the two daemons. An exception ends it. -/
def apPtkSync (pSta pAp : Cipher) (payload : Text) (o : Network) : Given :=
  let msg := payload ++ ['\n']
  let (buf, reply) := staPtkSync (o.toBridge.arrives 4096 msg) o.toSta
  let sta := buf.bind (payloadPtk pSta)
  if o.toBridge.ok = false then ⟨sta, none, false⟩
  else
    match o.reply with
    | none => ⟨sta, none, false⟩
    | some n =>
      if Text.strip (reply.take n) = "OK".toList then
        ⟨sta, (o.toAp.arrives ptkTcpRecvMax msg).bind (payloadPtk pAp), o.toAp.ok⟩
      else ⟨sta, none, false⟩

/-! ## What both ends have been given -/

variable {pSta pAp : Cipher} {payload : Text} {o : Network}

/-- The PTK that wpa_supplicant decodes from what it reads. -/
def Network.staPtk (o : Network) (p : Cipher) (payload : Text) : Option Ptk :=
  ((o.toBridge.arrives 4096 (payload ++ ['\n'])).bind fun data =>
    o.toSta.arrives ptkTcpRecvMax (Text.strip data ++ ['\n'])).bind (payloadPtk p)

/-- The PTK that hostapd decodes from what it reads, if it is sent any. -/
def Network.apPtk (o : Network) (p : Cipher) (payload : Text) : Option Ptk :=
  (o.toAp.arrives ptkTcpRecvMax (payload ++ ['\n'])).bind (payloadPtk p)

/-- The bridge's `OK` is read: the payload has been sent and something of it has arrived, the bridge has
sent it on, and the reply comes back whole. -/
structure Network.Acknowledged (o : Network) (payload : Text) : Prop where
  sent : o.toBridge.ok = true
  arrived : (o.toBridge.arrives 4096 (payload ++ ['\n'])).isSome
  forwarded : o.toSta.ok = true
  reply : ∃ n, o.reply = some n ∧ 2 ≤ n

theorem reply_iff (n : ℕ) :
    (Text.strip ("OK".toList.take n) = "OK".toList ↔ 2 ≤ n) ∧
      Text.strip ("FAIL".toList.take n) ≠ "OK".toList := by
  rcases Nat.lt_or_ge n 4 with hn | hn
  · interval_cases n <;> decide
  · rw [List.take_of_length_le (Nat.le_of_succ_le (Nat.le_of_succ_le hn)), List.take_of_length_le hn]
    exact ⟨iff_of_true (by decide) (by omega), by decide⟩

theorem staPtkSync_reply (data : Option Text) (l : Leg) (n : ℕ) :
    Text.strip ((staPtkSync data l).2.take n) = "OK".toList ↔
      data.isSome ∧ l.ok = true ∧ 2 ≤ n := by
  cases data with
  | none => exact iff_of_false (by simp [staPtkSync]) (by simp)
  | some data =>
    cases hl : l.ok with
    | true =>
      simp only [staPtkSync, hl, if_true, (reply_iff n).1, Option.isSome_some, true_and]
    | false => exact iff_of_false (by simpa [staPtkSync, hl] using (reply_iff n).2) (by simp)

/-- **What both ends have been given.** The STA's daemon gets what it gets before the bridge answers; the
AP's is sent the payload when the bridge's `OK` is read. -/
theorem apPtkSync_eq [Decidable (o.Acknowledged payload)] :
    apPtkSync pSta pAp payload o =
      if o.Acknowledged payload then ⟨o.staPtk pSta payload, o.apPtk pAp payload, o.toAp.ok⟩
      else ⟨o.staPtk pSta payload, none, false⟩ := by
  have hsta : (staPtkSync (o.toBridge.arrives 4096 (payload ++ ['\n'])) o.toSta).1.bind
      (payloadPtk pSta) = o.staPtk pSta payload := by
    rw [Network.staPtk]
    cases o.toBridge.arrives 4096 (payload ++ ['\n']) with
    | none => rfl
    | some data => rfl
  unfold apPtkSync
  simp only [hsta]
  by_cases hsent : o.toBridge.ok = false
  · have hno : ¬ o.Acknowledged payload := fun h => by simp [h.sent] at hsent
    rw [if_pos hsent, if_neg hno]
  · rw [if_neg hsent]
    cases hreply : o.reply with
    | none =>
      have hno : ¬ o.Acknowledged payload := fun h => by simpa [hreply] using h.reply
      rw [if_neg hno]
    | some n =>
      have hack : Text.strip ((staPtkSync (o.toBridge.arrives 4096 (payload ++ ['\n'])) o.toSta).2.take n)
          = "OK".toList ↔ o.Acknowledged payload := by
        rw [staPtkSync_reply]
        constructor
        · rintro ⟨h1, h2, h3⟩
          exact ⟨by simpa using hsent, h1, h2, n, hreply, h3⟩
        · rintro ⟨-, h1, h2, m, hm, h3⟩
          obtain rfl : n = m := by simpa [hreply] using hm
          exact ⟨h1, h2, h3⟩
      by_cases h : o.Acknowledged payload
      · rw [if_pos h]
        simp only [if_pos (hack.2 h)]
        rfl
      · rw [if_neg h]
        simp only [if_neg fun h' => h (hack.1 h')]

/-- **All or nothing**: both ends have been given the same PTK or none, and success is reported only of
the former. -/
structure Given.AllOrNothing (g : Given) : Prop where
  same : g.sta = g.ap
  honest : g.success = true → g.sta.isSome

/-- The property, by how the connections end. -/
theorem allOrNothing_iff : (apPtkSync pSta pAp payload o).AllOrNothing ↔
    (o.Acknowledged payload →
      (∃ ptk, o.staPtk pSta payload = some ptk ∧ o.apPtk pAp payload = some ptk) ∨
        (o.staPtk pSta payload = none ∧ o.apPtk pAp payload = none ∧ o.toAp.ok = false)) ∧
      (¬ o.Acknowledged payload → o.staPtk pSta payload = none) := by
  classical
  rw [apPtkSync_eq]
  by_cases hack : o.Acknowledged payload
  · rw [if_pos hack]
    simp only [hack, forall_const, not_true_eq_false, false_implies, and_true]
    constructor
    · rintro ⟨hsame, hhonest⟩
      simp only at hsame hhonest
      cases hsta : o.staPtk pSta payload with
      | some ptk => exact .inl ⟨ptk, rfl, by rw [← hsame, hsta]⟩
      | none =>
        refine .inr ⟨rfl, by rw [← hsame, hsta], ?_⟩
        rw [← Bool.not_eq_true]
        intro hok
        simpa [hsta] using hhonest hok
    · rintro (⟨ptk, h1, h2⟩ | ⟨h1, h2, h3⟩)
      · exact ⟨by simp only [h1, h2], fun _ => by simp [h1]⟩
      · exact ⟨by simp only [h1, h2], fun hok => by simp [h3] at hok⟩
  · rw [if_neg hack]
    simp only [hack, not_false_eq_true, forall_const, false_implies, true_and]
    constructor
    · exact fun h => h.same
    · exact fun h => ⟨h, fun hok => by cases hok⟩

/-! ## What is read of a payload -/

namespace Leg

/-- How many of the first `len` characters of a longer text the read at the other end returns. -/
def carried (l : Leg) (max len : ℕ) : ℕ :=
  if l.connected then
    match l.read with
    | none => 0
    | some n => min (min (n + 1) max) (min len (l.raised.getD len))
  else 0

/-- A text cut off before. -/
theorem carried_min (l : Leg) (max : ℕ) {len len' : ℕ} (h : len' ≤ len) :
    l.carried max len' = min len' (l.carried max len) := by
  unfold carried
  split
  · cases l.read with
    | none => simp
    | some n =>
      simp only
      cases l.raised with
      | none =>
        simp only [Option.getD_none]
        omega
      | some w =>
        simp only [Option.getD_some]
        omega
  · simp

theorem carried_le (l : Leg) (max len : ℕ) : l.carried max len ≤ len := by
  rw [l.carried_min max le_rfl]
  exact Nat.min_le_left _ _

variable {l : Leg} {max : ℕ} {q b : Text}

/-- What a read of a line returns, in numbers. -/
theorem arrives_some (h : l.arrives max (q ++ ['\n']) = some b) :
    b <+: q ++ ['\n'] ∧ b.length ≤ max ∧ min q.length b.length = l.carried max q.length := by
  obtain ⟨n, hn, h⟩ := Option.bind_eq_some_iff.1 h
  split at h
  · cases h
  rename_i hne
  obtain rfl := Option.some.inj h
  unfold wire at hne ⊢
  unfold carried
  cases hc : l.connected with
  | false => simp [hc] at hne
  | true =>
    simp only [if_true, hn, segmentOf]
    cases l.raised with
    | none =>
      refine ⟨List.take_prefix _ _, ?_, ?_⟩
      · simp only [List.length_take]
        omega
      · simp only [List.length_take, List.length_append, List.length_singleton, Option.getD_none]
        omega
    | some w =>
      refine ⟨(List.take_prefix _ _).trans (List.take_prefix _ _), ?_, ?_⟩
      · simp only [List.length_take]
        omega
      · simp only [List.length_take, List.length_append, List.length_singleton, Option.getD_some]
        omega

theorem arrives_none (h : l.arrives max (q ++ ['\n']) = none) : l.carried max q.length = 0 := by
  unfold carried
  unfold arrives wire at h
  cases hc : l.connected with
  | false => simp
  | true =>
    cases hr : l.read with
    | none => simp
    | some n =>
      cases hw : l.raised with
      | none => simp [hc, hr, hw] at h
      | some w =>
        simp only [hc, hr, hw, if_true, Option.bind_some, ite_eq_left_iff, reduceCtorEq, imp_false,
          not_not, List.take_eq_nil_iff, List.append_eq_nil_iff, List.cons_ne_nil, and_false,
          or_false] at h
        simp [h]

end Leg

/-! ## Which reads are decoded -/

/-- The daemon has a cipher, and the first `m` of the `len` characters of a payload with a PTK for keys of
`k` octets have as many digits as a PTK for that cipher. -/
def Takes (p : Cipher) (k len m : ℕ) : Prop := p.validPairwise = true ∧ m + 2 * k = len + 2 * p.keyLen

instance (p : Cipher) (k len m : ℕ) : Decidable (Takes p k len m) := inferInstanceAs (Decidable (_ ∧ _))

/-- What wpa_supplicant reads of the payload, behind two connections, makes a PTK for its cipher. -/
def Network.StaDecodes (o : Network) (p : Cipher) (k len : ℕ) : Prop :=
  Takes p k len (min (o.toBridge.carried 4096 len) (o.toSta.carried ptkTcpRecvMax len))

/-- What hostapd reads of the payload, if it is sent any, makes a PTK for its cipher. -/
def Network.ApDecodes (o : Network) (p : Cipher) (k len : ℕ) : Prop :=
  Takes p k len (o.toAp.carried ptkTcpRecvMax len)

instance (o : Network) (p : Cipher) (k len : ℕ) : Decidable (o.StaDecodes p k len) :=
  inferInstanceAs (Decidable (Takes _ _ _ _))

instance (o : Network) (p : Cipher) (k len : ℕ) : Decidable (o.ApDecodes p k len) :=
  inferInstanceAs (Decidable (Takes _ _ _ _))

variable {p : Cipher} {k : ℕ} {hex q b : Text} {oct : Bytes} {ptk : Ptk}

/-- A read of a line has a beginning of the text in it, and maybe the newline. -/
theorem beginning_eq (hq : q <+: payload) (hb : b <+: q ++ ['\n']) :
    b = payload.take (min q.length b.length) ∨ b = payload.take (min q.length b.length) ++ ['\n'] := by
  rcases List.prefix_concat_iff.1 hb with heq | hbq
  · refine .inr ?_
    have hlen := congrArg List.length heq
    rw [List.length_append, List.length_singleton] at hlen
    rw [Nat.min_eq_left (by omega), ← List.prefix_iff_eq_take.1 hq]
    exact heq
  · refine .inl ?_
    rw [Nat.min_eq_right hbq.length_le]
    exact List.prefix_iff_eq_take.1 (hbq.trans hq)

/-- **What a daemon decodes** of a read, by how many characters of the payload are in it. -/
theorem payloadPtk_read (hbody : PtkBody (32 + k) payload hex)
    (hoct : hex.map Char.toLower = Lib.hexlify oct) (hq : q <+: payload) (hb : b <+: q ++ ['\n'])
    (hmax : b.length ≤ ptkTcpRecvMax) : payloadPtk p b = some ptk ↔
      Takes p k payload.length (min q.length b.length) ∧ ptk = ptkOfOctets p.keyLen oct := by
  have hn : 0 < 32 + k := by omega
  have hm : 0 < 32 + p.keyLen := by omega
  by_cases hv : p.validPairwise = true
  swap
  · rw [payloadPtk, if_neg hv]
    exact iff_of_false nofun fun h => hv h.1.1
  have hqle := hq.length_le
  -- the newline is trimmed
  have htrim : trimEnd b = trimEnd (payload.take (min q.length b.length)) := by
    rcases beginning_eq hq hb with heq | heq
    · rw [← heq]
    · rw [heq]
      conv_rhs => rw [← heq]
      exact Lib.rdropWhile_append_of_all (by simp [isTrail])
  set y := payload.take (min q.length b.length) with hy
  have hylen : y.length = min q.length b.length := by
    rw [hy, List.length_take]
    omega
  have hypre : y <+: payload := List.take_prefix _ _
  have hnul : '\x00' ∉ trimEnd y := fun h0 =>
    PtkLine.not_nul ⟨payload, [], by simp, hbody, by simp⟩
      (hypre.subset ((List.rdropWhile_prefix isTrail y).subset h0))
  rw [payloadPtk, if_pos hv, List.take_of_length_le hmax, decodePtk_iff, htrim, Text.cstr_of_not_mem hnul,
    Takes, ← hylen]
  have hlower : (hex.take (2 * (32 + p.keyLen))).map Char.toLower =
      Lib.hexlify (oct.take (32 + p.keyLen)) := by
    rw [List.map_take, hoct, Lib.hexlify_take]
  have hoctets : ptkOfOctets p.keyLen (oct.take (32 + p.keyLen)) = ptkOfOctets p.keyLen oct := by
    simp only [ptkOfOctets, List.take_take, List.drop_take, Ptk.mk.injEq, and_true]
    exact ⟨by congr 1; omega, by congr 1; omega, by congr 1; omega⟩
  constructor
  · rintro ⟨hex', oct', hx, hoct', rfl⟩
    rw [hbody.trimEnd_beginning hn hm hypre hx] at hx
    obtain ⟨hlen, rfl⟩ := (hbody.beginning_iff hn hm hypre).1 hx
    have hsame : oct' = oct.take (32 + p.keyLen) :=
      Option.some.inj ((hexstr2bin_iff.2 hoct').symm.trans (hexstr2bin_iff.2 hlower))
    exact ⟨⟨hv, by omega⟩, by rw [hsame, hoctets]⟩
  · rintro ⟨⟨-, hlen⟩, rfl⟩
    have hx := (hbody.beginning_iff hn hm hypre).2 ⟨by omega, rfl⟩
    have hnil : trimEnd y = y := by
      have := @PtkBody.trimEnd _ _ _ hm hx [] (by simp)
      rwa [List.append_nil] at this
    exact ⟨_, _, by rwa [hnil], hlower, hoctets.symm⟩

/-- hostapd. -/
theorem apPtk_iff (hbody : PtkBody (32 + k) payload hex) (hoct : hex.map Char.toLower = Lib.hexlify oct) :
    o.apPtk p payload = some ptk ↔
      o.ApDecodes p k payload.length ∧ ptk = ptkOfOctets p.keyLen oct := by
  rw [Network.apPtk, Network.ApDecodes]
  cases ha : o.toAp.arrives ptkTcpRecvMax (payload ++ ['\n']) with
  | none =>
    have hlen := hbody.length_le
    rw [Leg.arrives_none ha]
    refine iff_of_false nofun ?_
    rintro ⟨⟨-, h⟩, -⟩
    omega
  | some b =>
    obtain ⟨hb, hmax, hcarried⟩ := Leg.arrives_some ha
    rw [Option.bind_some, payloadPtk_read hbody hoct List.prefix_rfl hb hmax, hcarried]

/-- **What the bridge sends on** is what it has read, up to digits that it may have missed. -/
theorem strip_read (hbody : PtkBody (32 + k) payload hex)
    (hhead : ∀ h : payload ≠ [], ¬ Text.isspace (payload.head h)) (hb : b <+: payload ++ ['\n']) :
    Text.strip b <+: payload ∧ (Text.strip b).length ≤ min payload.length b.length ∧
      (payload.length < min payload.length b.length + 2 * (32 + k) →
        (Text.strip b).length = min payload.length b.length) := by
  have hstrip : Text.strip b = Text.strip (payload.take (min payload.length b.length)) := by
    rcases beginning_eq List.prefix_rfl hb with heq | heq
    · rw [← heq]
    · rw [heq]
      conv_rhs => rw [← heq]
      exact Lib.strip_append_of_all (by simp [Text.isspace])
  set y := payload.take (min payload.length b.length) with hy
  have hylen : y.length = min payload.length b.length := by
    rw [hy, List.length_take]
    omega
  have hypre : y <+: payload := List.take_prefix _ _
  have hyhead : ∀ h : y ≠ [], ¬ Text.isspace (y.head h) := by
    intro hne
    rw [hypre.head hne]
    exact hhead (hypre.ne_nil hne)
  have hpre : Text.strip y <+: y := Lib.strip_of_head hyhead
  rw [hstrip, ← hylen]
  refine ⟨hpre.trans hypre, hpre.length_le, fun hlt => ?_⟩
  -- the last character is a digit
  obtain ⟨j, hj⟩ : ∃ j, y.length + 2 * (32 + k) = payload.length + (j + 1) :=
    ⟨y.length + 2 * (32 + k) - payload.length - 1, by omega⟩
  have hle := hypre.length_le
  obtain ⟨blanks, mark, heq, -, -⟩ := hbody.beginning hypre hj
  have hne : hex.take (j + 1) ≠ [] := by
    rw [← List.length_pos_iff, List.length_take, hbody.length_digits]
    omega
  have hwhole : Text.strip y = y := by
    refine Lib.strip_eq_self_iff.2 ⟨hyhead, fun h => ?_⟩
    have hlast : y.getLast h ∈ hex := by
      have hmem : y.getLast h ∈ hex.take (j + 1) := by
        simp only [heq]
        rw [List.getLast_append_of_right_ne_nil _ _ (by simp [hne]),
          List.getLast_append_of_right_ne_nil _ _ hne]
        exact List.getLast_mem hne
      exact List.mem_of_mem_take hmem
    rw [(hbody.digits _ hlast).nospace]
    exact Bool.false_ne_true
  rw [hwhole]

/-- wpa_supplicant. -/
theorem staPtk_iff (hbody : PtkBody (32 + k) payload hex) (hoct : hex.map Char.toLower = Lib.hexlify oct)
    (hhead : ∀ h : payload ≠ [], ¬ Text.isspace (payload.head h)) :
    o.staPtk p payload = some ptk ↔
      o.StaDecodes p k payload.length ∧ ptk = ptkOfOctets p.keyLen oct := by
  have hlen := hbody.length_le
  rw [Network.staPtk, Network.StaDecodes]
  cases ha : o.toBridge.arrives 4096 (payload ++ ['\n']) with
  | none =>
    rw [Leg.arrives_none ha]
    refine iff_of_false nofun ?_
    rintro ⟨⟨-, h⟩, -⟩
    omega
  | some b =>
    obtain ⟨hb, -, hcarried⟩ := Leg.arrives_some ha
    obtain ⟨hq, hqle, hqeq⟩ := strip_read hbody hhead hb
    rw [hcarried] at hqle hqeq
    -- a PTK has some of the digits
    have htakes : Takes p k payload.length (o.toSta.carried ptkTcpRecvMax (Text.strip b).length) ↔
        Takes p k payload.length
          (min (o.toBridge.carried 4096 payload.length) (o.toSta.carried ptkTcpRecvMax payload.length)) := by
      rw [o.toSta.carried_min ptkTcpRecvMax hq.length_le]
      refine and_congr_right fun _ => ⟨fun h => ?_, fun h => ?_⟩
      · have := hqeq (by omega)
        omega
      · have := hqeq (by omega)
        omega
    rw [Option.bind_some, ← htakes]
    cases hs : o.toSta.arrives ptkTcpRecvMax (Text.strip b ++ ['\n']) with
    | none =>
      rw [Leg.arrives_none hs]
      refine iff_of_false nofun ?_
      rintro ⟨⟨-, h⟩, -⟩
      omega
    | some c =>
      obtain ⟨hc, hmax, hsent⟩ := Leg.arrives_some hs
      rw [Option.bind_some, payloadPtk_read hbody hoct hq hc hmax, hsent]

/-! ## The bridge -/

/-- A payload begins with no white space. -/
theorem head_bridgePayload (ptkHex : Text) (mark : Bool) :
    ∀ h : bridgePayload ptkHex mark ≠ [], ¬ Text.isspace ((bridgePayload ptkHex mark).head h) := by
  cases mark with
  | false => exact (Lib.strip_eq_self_iff.1 (Text.strip_strip ptkHex)).1
  | true =>
    intro h
    simp [bridgePayload, Text.isspace]

/-- PTKs for keys of different lengths differ. -/
theorem ptkOfOctets_inj {a c : ℕ} (ha : 32 + a ≤ oct.length) (hc : 32 + c ≤ oct.length)
    (h : ptkOfOctets a oct = ptkOfOctets c oct) : a = c := by
  have hlen := congrArg (fun q => q.tk.length) h
  simp only [ptkOfOctets, List.length_take, List.length_drop] at hlen
  omega

/-- **When the bridge is all or nothing.** For every payload with a PTK, any ciphers of the two daemons and
all outcomes of the connections: if the bridge's `OK` is read, as many digits as its cipher takes have to
reach both daemons or none, they have to take keys of one length if both do, and both have to if the
connection to hostapd does not raise; if it is not read, none may reach wpa_supplicant. -/
theorem bridge_iff (pSta pAp : Cipher) (k : ℕ) (ptkHex : Text) (mark : Bool) (o : Network)
    (h : ∃ hex, PtkBody (32 + k) (bridgePayload ptkHex mark) hex) :
    (apPtkSync pSta pAp (bridgePayload ptkHex mark) o).AllOrNothing ↔
      (o.Acknowledged (bridgePayload ptkHex mark) →
        (o.StaDecodes pSta k (bridgePayload ptkHex mark).length ↔
          o.ApDecodes pAp k (bridgePayload ptkHex mark).length) ∧
        (o.StaDecodes pSta k (bridgePayload ptkHex mark).length → pSta.keyLen = pAp.keyLen) ∧
        (o.toAp.ok = true → o.ApDecodes pAp k (bridgePayload ptkHex mark).length)) ∧
      (¬ o.Acknowledged (bridgePayload ptkHex mark) →
        ¬ o.StaDecodes pSta k (bridgePayload ptkHex mark).length) := by
  obtain ⟨hex, hbody⟩ := h
  obtain ⟨oct, hoct⟩ := exists_octets hbody.length_digits hbody.digits
  have hsta := fun ptk => @staPtk_iff _ o pSta k hex oct ptk hbody hoct (head_bridgePayload ptkHex mark)
  have hap := fun ptk => @apPtk_iff _ o pAp k hex oct ptk hbody hoct
  have hlen : oct.length = 32 + k := by
    have := congrArg List.length hoct
    rw [List.length_map, hbody.length_digits, Lib.length_hexlify] at this
    omega
  rw [allOrNothing_iff]
  set payload := bridgePayload ptkHex mark
  have hnone : o.staPtk pSta payload = none ↔ ¬ o.StaDecodes pSta k payload.length := by
    rw [Option.eq_none_iff_forall_ne_some]
    exact ⟨fun hno hd => hno _ ((hsta _).2 ⟨hd, rfl⟩), fun hno q hq => hno ((hsta q).1 hq).1⟩
  have hnone' : o.apPtk pAp payload = none ↔ ¬ o.ApDecodes pAp k payload.length := by
    rw [Option.eq_none_iff_forall_ne_some]
    exact ⟨fun hno hd => hno _ ((hap _).2 ⟨hd, rfl⟩), fun hno q hq => hno ((hap q).1 hq).1⟩
  have hboth : (∃ q, o.staPtk pSta payload = some q ∧ o.apPtk pAp payload = some q) ↔
      o.StaDecodes pSta k payload.length ∧ o.ApDecodes pAp k payload.length ∧
        pSta.keyLen = pAp.keyLen := by
    simp only [hsta, hap]
    constructor
    · rintro ⟨q, ⟨h1, rfl⟩, h2, heq⟩
      have hle := (o.toSta.carried_le ptkTcpRecvMax payload.length)
      have hle' := (o.toAp.carried_le ptkTcpRecvMax payload.length)
      have hk := h1.2
      have hk' := h2.2
      exact ⟨h1, h2, ptkOfOctets_inj (by omega) (by omega) heq⟩
    · rintro ⟨h1, h2, heq⟩
      exact ⟨_, ⟨h1, rfl⟩, h2, by rw [heq]⟩
  rw [hboth, hnone, hnone']
  refine and_congr (imp_congr_right fun _ => ?_) Iff.rfl
  constructor
  · rintro (⟨hs, ha, hkey⟩ | ⟨hs, ha, hok⟩)
    · exact ⟨iff_of_true hs ha, fun _ => hkey, fun _ => ha⟩
    · exact ⟨iff_of_false hs ha, fun h => absurd h hs, fun h => absurd h (by simp [hok])⟩
  · rintro ⟨hsame, hkey, htold⟩
    by_cases hs : o.StaDecodes pSta k payload.length
    · exact .inl ⟨hs, hsame.1 hs, hkey hs⟩
    · have ha : ¬ o.ApDecodes pAp k payload.length := fun ha => hs (hsame.2 ha)
      exact .inr ⟨hs, ha, Bool.eq_false_iff.2 fun hok => ha (htold hok)⟩

/-- A connection on which everything works. -/
def legUp : Leg := ⟨true, none, some 4096⟩

/-- hostapd refuses the connection. -/
def apRefuses : Network := ⟨legUp, legUp, some 2, ⟨false, none, none⟩⟩

theorem plainHex_body : ∃ hex, PtkBody (32 + 16) (bridgePayload plainHex false) hex :=
  ⟨plainHex, (ptkBody_iff (by decide)).2 ⟨rfl, rfl, List.all_eq_true.1 rfl⟩⟩

/-- `bridge_iff` where all connections work. -/
theorem bridge_up :
    (apPtkSync .ccmp .ccmp (bridgePayload plainHex false) ⟨legUp, legUp, some 2, legUp⟩).AllOrNothing :=
  (bridge_iff .ccmp .ccmp 16 plainHex false ⟨legUp, legUp, some 2, legUp⟩ plainHex_body).2
    ⟨fun _ => ⟨by decide, by decide, by decide⟩, fun h => absurd ⟨rfl, rfl, rfl, 2, rfl, le_rfl⟩ h⟩

/-- The STA has been given the PTK and the AP has not. -/
theorem apRefuses_splits :
    (((apPtkSync .ccmp .ccmp (bridgePayload plainHex false) apRefuses).sta.isSome = true ∧
      (apPtkSync .ccmp .ccmp (bridgePayload plainHex false) apRefuses).ap = none)) ∧
      ¬ ∀ (pSta pAp : Cipher) (k : ℕ) (ptkHex : Text) (mark : Bool) (o : Network),
        (∃ hex, PtkBody (32 + k) (bridgePayload ptkHex mark) hex) →
          (apPtkSync pSta pAp (bridgePayload ptkHex mark) o).AllOrNothing := by
  classical
  obtain ⟨hex, hbody⟩ := plainHex_body
  obtain ⟨oct, hoct⟩ := exists_octets hbody.length_digits hbody.digits
  have hack : apRefuses.Acknowledged (bridgePayload plainHex false) := ⟨rfl, rfl, rfl, 2, rfl, le_rfl⟩
  have hsta := (staPtk_iff hbody hoct (head_bridgePayload plainHex false)).2
    ⟨show apRefuses.StaDecodes .ccmp 16 (bridgePayload plainHex false).length by decide, rfl⟩
  have hap : apRefuses.apPtk .ccmp (bridgePayload plainHex false) = none := rfl
  have hgiven := @apPtkSync_eq .ccmp .ccmp (bridgePayload plainHex false) apRefuses _
  rw [if_pos hack, hsta, hap] at hgiven
  refine ⟨by rw [hgiven]; exact ⟨rfl, rfl⟩, fun h => ?_⟩
  have hsame := (h .ccmp .ccmp 16 plainHex false apRefuses plainHex_body).same
  rw [hgiven] at hsame
  cases hsame

end Lightguard.Forward
