import Lightguard.Lib.Stream
import Lightguard.Rotation.Line
import Lightguard.Sync.Invariant
import Lightguard.Wpa.Grammar

/-!
# Messages and reads

Every receiver reads a bounded number of times and takes what a read returns for a message. TCP keeps no
messages apart or together: a read returns any segment of the stream.

* `afterLine_newline`: for the setptk listener, the newline at the end of a line is no part of it.
* `handled_iff`: what a receiver of lines with one read makes of a stream.
* `framing_iff`: the streams and segmentations for which the receivers handle the messages sent.
-/

namespace Lightguard.Forward

open Lib.Stream (segmentOf)
open Rotation Sync Wpa

/-- A message of the line protocols. -/
abbrev Line := {l : Text // '\n' ∉ l}

/-- The lines as a client sends them. -/
def unlines (ls : List Line) : Text := ls.flatMap fun l => l.1 ++ ['\n']

/-- The octets of a PTK, as the LiFi daemons send them. -/
abbrev PtkMsg := List.Vector UInt8 48

/-! ## The receivers -/

/-- A receiver that takes the result of its one read for a message. -/
def handled (message : Text → Text) (chunk : Text) : List Text :=
  if chunk = [] then [] else [message chunk]

/-- What `lifi_handle_line` gets to see of a buffer: the C string, up to the newline at its end. -/
def listenerMessage (buf : Text) : Text := (Text.cstr buf).rdropWhile (· == '\n')

/-- `lifi_read_cb`, with `char buf[256]`. -/
def lifiReadCb (n : ℕ) (t : Text) : List Text := handled listenerMessage (segmentOf 255 n t)

/-- The main loops of `ptk_receiver_ap.py` and `ptk_receiver_sta.py`: anything but 48 octets is
rejected. -/
def ptkPort (n : ℕ) (t : Bytes) : List Bytes :=
  if (segmentOf 48 n t).length = 48 then [segmentOf 48 n t] else []

/-- What the PTK TCP handlers decode: the C string of the buffer without the white space at its end. -/
def tcpMessage (buf : Text) : Text := Text.cstr (trimEnd buf)

/-- `wpa_auth_ptk_tcp_handler` and `wpa_sm_ptk_tcp_handler`. -/
def ptkTcpHandler (n : ℕ) (t : Text) : List Text := handled tcpMessage (segmentOf ptkTcpRecvMax n t)

/-- `run_sync_server`, when WiFi is associated: the second message is read when the first one begins
with `SYNC`. -/
def syncServer (n₁ n₂ : ℕ) (t : Text) : List Text :=
  let sync := segmentOf 256 n₁ t
  if "SYNC ".toList <+: Text.strip sync then
    [Text.strip sync, Text.strip (segmentOf 64 n₂ (t.drop sync.length))]
  else [Text.strip sync]

/-! ## One line -/

section Listener

variable {σ : Type} (pbkdf2 : Text → Bytes → ℕ → Bytes) (reauth : σ → σ) {hapd : Hapd σ}
  {l mac n pass : Text}

theorem fields_newline (hl : '\n' ∉ l) : Fields (l ++ ['\n']) mac n pass ↔ Fields l mac n pass := by
  constructor
  · rintro ⟨⟨b, b', e, hline, hb, hb', he⟩, h1, h2, h3, h4, h5⟩
    refine ⟨⟨b, b', [], ?_, hb, hb', .inl rfl⟩, h1, h2, h3, h4, h5⟩
    obtain ⟨pre, hpre⟩ : ∃ pre, l ++ ['\n'] = pre ++ pass ++ e ∧
        b ++ "setptk".toList ++ ' ' :: (b' ++ mac ++ ' ' :: (n ++ pass ++ [])) = pre ++ pass :=
      ⟨b ++ "setptk".toList ++ ' ' :: (b' ++ mac ++ ' ' :: n), by simp [hline], by simp⟩
    rw [hpre.2]
    rcases he with rfl | ⟨r, rfl⟩
    · -- the newline would be the last character of the passphrase
      obtain ⟨q, c, rfl⟩ := (List.eq_nil_or_concat' pass).resolve_left h4
      have hlast := hpre.1
      rw [List.append_nil, ← List.append_assoc] at hlast
      obtain rfl := List.singleton_inj.1 (List.append_inj' hlast rfl).2
      exact absurd (by simp) h5
    · rcases r.eq_nil_or_concat' with rfl | ⟨r, c, rfl⟩
      · exact (List.append_inj' hpre.1 rfl).1
      · have hlast := hpre.1
        rw [← List.cons_append, ← List.append_assoc] at hlast
        have hin := (List.append_inj' hlast rfl).1
        exact absurd (by rw [hin]; simp) hl
  · rintro ⟨⟨b, b', e, hline, hb, hb', he⟩, h1, h2, h3, h4, h5⟩
    refine ⟨⟨b, b', ['\n'], ?_, hb, hb', .inr ⟨[], rfl⟩⟩, h1, h2, h3, h4, h5⟩
    rcases he with rfl | ⟨r, rfl⟩
    · simp [hline]
    · exact absurd (by simp [hline]) hl

/-- **The newline at the end of a line** makes no difference. -/
theorem afterLine_newline (hl : '\n' ∉ l) :
    afterLine pbkdf2 reauth hapd (l ++ ['\n']) = afterLine pbkdf2 reauth hapd l := by
  by_cases h : ∃ mac n pass a r, Fields l mac n pass ∧ hwaddrParse mac = some (a, r)
  · obtain ⟨mac, n, pass, a, r, hf, hm⟩ := h
    rw [afterLine_fields pbkdf2 reauth hf hm,
      afterLine_fields pbkdf2 reauth ((fields_newline hl).2 hf) hm]
  · have hno : ∀ mac n pass a r, Fields l mac n pass → hwaddrParse mac ≠ some (a, r) :=
      fun mac n pass a r hf hm => h ⟨mac, n, pass, a, r, hf, hm⟩
    rw [afterLine_other pbkdf2 reauth hno, afterLine_other pbkdf2 reauth
      fun mac n pass a r hf => hno mac n pass a r ((fields_newline hl).1 hf)]

end Listener

/-! ## One read -/

theorem segmentOf_ne_nil {α : Type} {max n : ℕ} {t : List α} (hmax : 0 < max) (ht : t ≠ []) :
    segmentOf max n t ≠ [] := by
  have hlen := List.length_pos_iff.2 ht
  intro h
  have h0 := congrArg List.length h
  rw [segmentOf, List.length_take, List.length_nil] at h0
  omega

/-- **A receiver of lines with one read** handles the messages of a stream when there is but one, and the
read returns enough of it. -/
theorem handled_iff {message : Text → Text} {max : ℕ} (hmax : 0 < max) (norm : Text → Text)
    (P : ℕ → Text → Prop)
    (h : ∀ (l : Line) (k : ℕ), message ((l.1 ++ ['\n']).take k) = norm l ↔ P k l) (ls : List Line)
    (n : ℕ) : handled message (segmentOf max n (unlines ls)) = (ls.map fun l => norm l.1) ↔
      ls = [] ∨ ∃ l, ls = [l] ∧ P (min (n + 1) max) l.1 := by
  match ls with
  | [] =>
    refine iff_of_true ?_ (.inl rfl)
    rw [unlines, List.flatMap_nil, segmentOf, List.take_nil]
    rfl
  | [l] =>
    have hone : unlines [l] = l.1 ++ ['\n'] := by rw [unlines, List.flatMap_cons, List.flatMap_nil, List.append_nil]
    have hne : segmentOf max n (l.1 ++ ['\n']) ≠ [] := segmentOf_ne_nil hmax (by simp)
    rw [hone, handled, if_neg hne, List.map_cons, List.map_nil, List.cons.injEq, segmentOf, h]
    simp
  | l₁ :: l₂ :: ls =>
    refine iff_of_false ?_ (by simp)
    rw [handled]
    split
    · simp
    · simp

/-- Cutting behind the last character that is not trimmed changes nothing. -/
theorem rdropWhile_take {q : Char → Bool} (hq : q '\n' = true) (l : Text) (k : ℕ) :
    ((l ++ ['\n']).take k).rdropWhile q = l.rdropWhile q ↔ (l.rdropWhile q).length ≤ k := by
  constructor
  · intro h
    rw [← h]
    exact (List.rdropWhile_prefix q _).length_le.trans (List.length_take_le _ _)
  · intro hk
    -- what stands behind the text that is left is trimmed, however much of it is there
    have hsplit : l ++ ['\n'] = l.rdropWhile q ++ (l.rtakeWhile q ++ ['\n']) := by
      rw [← List.append_assoc, List.rdropWhile_append_rtakeWhile]
    have htrim : ∀ c ∈ (l.rtakeWhile q ++ ['\n']).take (k - (l.rdropWhile q).length), q c = true := by
      intro c hc
      rcases List.mem_append.1 (List.mem_of_mem_take hc) with hc | hc
      · exact List.mem_rtakeWhile_imp hc
      · rwa [List.mem_singleton.1 hc]
    rw [hsplit, List.take_append, List.take_of_length_le hk, Lib.rdropWhile_append_of_all htrim,
      List.rdropWhile_idempotent]

/-- The setptk listener. -/
theorem listenerMessage_iff (l : Line) (k : ℕ) :
    listenerMessage ((l.1 ++ ['\n']).take k) = l.1 ↔ '\x00' ∉ l.1 ∧ l.1.length ≤ k := by
  have hline : l.1.rdropWhile (· == '\n') = l.1 := by
    refine List.rdropWhile_eq_self_iff.2 fun hne hlast => l.2 ?_
    have hmem := List.getLast_mem hne
    rwa [show l.1.getLast hne = '\n' by simpa using hlast] at hmem
  constructor
  · intro h
    have hnul : '\x00' ∉ l.1 := by
      intro hin
      rw [← h] at hin
      have hcstr := (List.rdropWhile_prefix _ _).subset hin
      simpa using List.mem_takeWhile_imp hcstr
    refine ⟨hnul, ?_⟩
    rw [← h]
    calc (listenerMessage ((l.1 ++ ['\n']).take k)).length
        ≤ (Text.cstr ((l.1 ++ ['\n']).take k)).length := (List.rdropWhile_prefix _ _).length_le
      _ ≤ ((l.1 ++ ['\n']).take k).length := (List.takeWhile_prefix _).length_le
      _ ≤ k := List.length_take_le _ _
  · rintro ⟨hnul, hk⟩
    have hno : '\x00' ∉ (l.1 ++ ['\n']).take k := by
      intro hin
      rcases List.mem_append.1 (List.mem_of_mem_take hin) with hin | hin
      · exact hnul hin
      · exact absurd (List.mem_singleton.1 hin) (by decide)
    rw [listenerMessage, Text.cstr_of_not_mem hno, (rdropWhile_take (by decide) l.1 k).2 (by rwa [hline]),
      hline]

/-- The PTK TCP handlers. -/
theorem tcpMessage_iff (l : Line) (k : ℕ) :
    tcpMessage ((l.1 ++ ['\n']).take k) = trimEnd l.1 ↔
      '\x00' ∉ trimEnd l.1 ∧ (trimEnd l.1).length ≤ k := by
  constructor
  · intro h
    refine ⟨fun hin => ?_, ?_⟩
    · rw [← h] at hin
      simpa using List.mem_takeWhile_imp hin
    · rw [← h]
      calc (tcpMessage ((l.1 ++ ['\n']).take k)).length
          ≤ (trimEnd ((l.1 ++ ['\n']).take k)).length := (List.takeWhile_prefix _).length_le
        _ ≤ ((l.1 ++ ['\n']).take k).length := (List.rdropWhile_prefix _ _).length_le
        _ ≤ k := List.length_take_le _ _
  · rintro ⟨hnul, hk⟩
    have hcut : trimEnd ((l.1 ++ ['\n']).take k) = trimEnd l.1 := (rdropWhile_take (by decide) l.1 k).2 hk
    rw [tcpMessage, hcut, Text.cstr_of_not_mem hnul]

theorem lifiReadCb_iff (ls : List Line) (n : ℕ) : lifiReadCb n (unlines ls) = (ls.map fun l => l.1) ↔
    ls = [] ∨ ∃ l, ls = [l] ∧ '\x00' ∉ l.1 ∧ l.1.length ≤ min (n + 1) 255 := by
  unfold lifiReadCb
  exact handled_iff (by decide) id (fun k l => '\x00' ∉ l ∧ l.length ≤ k) listenerMessage_iff ls n

theorem ptkTcpHandler_iff (ls : List Line) (n : ℕ) :
    ptkTcpHandler n (unlines ls) = (ls.map fun l => trimEnd l.1) ↔
      ls = [] ∨ ∃ l, ls = [l] ∧ '\x00' ∉ trimEnd l.1 ∧
        (trimEnd l.1).length ≤ min (n + 1) ptkTcpRecvMax := by
  unfold ptkTcpHandler
  exact handled_iff (by decide) trimEnd (fun k l => '\x00' ∉ trimEnd l ∧ (trimEnd l).length ≤ k)
    tcpMessage_iff ls n

/-! ## Octets -/

theorem ptkPort_iff (ms : List PtkMsg) (n : ℕ) :
    ptkPort n (ms.flatMap List.Vector.toList) = ms.map List.Vector.toList ↔
      ms = [] ∨ ms.length = 1 ∧ 48 ≤ n + 1 := by
  match ms with
  | [] =>
    refine iff_of_true ?_ (.inl rfl)
    rw [ptkPort, List.flatMap_nil, segmentOf, List.take_nil]
    rfl
  | [m] =>
    have hlen : (segmentOf 48 n m.toList).length = 48 ↔ 48 ≤ n + 1 := by
      rw [segmentOf, List.length_take, m.toList_length]
      omega
    have hone : [m].flatMap List.Vector.toList = m.toList := by
      rw [List.flatMap_cons, List.flatMap_nil, List.append_nil]
    rw [hone, ptkPort]
    by_cases hn : 48 ≤ n + 1
    · have hall : segmentOf 48 n m.toList = m.toList := by
        rw [segmentOf, List.take_of_length_le]
        rw [m.toList_length]
        omega
      rw [if_pos (hlen.2 hn), hall]
      exact iff_of_true rfl (.inr ⟨rfl, hn⟩)
    · rw [if_neg fun h => hn (hlen.1 h)]
      exact iff_of_false (by simp) (by simp; omega)
  | m₁ :: m₂ :: ms =>
    refine iff_of_false ?_ (by simp)
    rw [ptkPort]
    split
    · simp
    · simp

/-! ## Two lines -/

theorem install_iff (k : ℕ) :
    (Text.strip (("\nINSTALL\n".toList).take k) = "INSTALL".toList ↔ 8 ≤ k) ∧
      (Text.strip (installMsg.take k) = "INSTALL".toList ↔ 7 ≤ k) := by
  rcases Nat.lt_or_ge k 9 with hk | hk
  · interval_cases k <;> decide
  · rw [List.take_of_length_le hk, List.take_of_length_le (Nat.le_of_succ_le hk)]
    exact ⟨iff_of_true (by decide) (by omega), iff_of_true (by decide) (by omega)⟩

/-- The first read of the sync server. -/
theorem sync_iff {p : Text} (hp : IsHex p) (k : ℕ) :
    Text.strip ((syncMsg p ++ installMsg).take k) = "SYNC ".toList ++ p ↔
      p.length + 5 ≤ k ∧ k ≤ p.length + 6 := by
  have hlen := length_syncMsg p
  constructor
  · intro h
    refine ⟨?_, ?_⟩
    · have hle := Text.length_strip_le ((syncMsg p ++ installMsg).take k)
      rw [h, List.length_append] at hle
      have htake := List.length_take_le k (syncMsg p ++ installMsg)
      have h5 : "SYNC ".toList.length = 5 := rfl
      omega
    · -- a read that goes on has the first letter of `INSTALL`
      by_contra hk
      have hin : 'I' ∈ (syncMsg p ++ installMsg).take k := by
        rw [List.take_append, hlen]
        obtain ⟨j, hj⟩ : ∃ j, k - (p.length + 6) = j + 1 := ⟨k - (p.length + 7), by omega⟩
        rw [hj]
        exact List.mem_append_right _ List.mem_cons_self
      have hstrip := Lib.mem_strip (p := Text.isspace) hin (by decide)
      rw [show Lib.strip Text.isspace _ = _ from h] at hstrip
      refine hp.not_mem_syncMsg ?_
      rw [syncMsg_append, ← List.append_assoc]
      exact List.mem_append_left _ hstrip
  · rintro ⟨h1, h2⟩
    have hk : k ≤ (syncMsg p).length := by omega
    rw [List.take_append_of_le_length hk, ← strip_syncMsg hp]
    rcases Nat.lt_or_ge k (p.length + 6) with hlt | hge
    · have hcut : (syncMsg p).take k = "SYNC ".toList ++ p := by
        rw [syncMsg_append, ← List.append_assoc, List.take_append_of_le_length (by simp; omega),
          List.take_of_length_le (by simp; omega)]
      rw [hcut, ← strip_syncMsg hp, Text.strip_strip]
    · rw [List.take_of_length_le (by omega)]

/-- The second one, after a first read that has left at most the newline. -/
theorem install_read_iff {p : Text} {k : ℕ} (h1 : p.length + 5 ≤ k) (h2 : k ≤ p.length + 6) (j : ℕ) :
    Text.strip (((syncMsg p ++ installMsg).drop k).take j) = "INSTALL".toList ↔
      p.length + 13 ≤ k + j := by
  rcases Nat.lt_or_ge k (p.length + 6) with hlt | hge
  · have hdrop : (syncMsg p ++ installMsg).drop k = "\nINSTALL\n".toList := by
      rw [syncMsg_append, ← List.append_assoc, List.append_assoc]
      exact List.drop_left' (by simp; omega)
    rw [hdrop, (install_iff j).1]
    omega
  · have hdrop : (syncMsg p ++ installMsg).drop k = installMsg := List.drop_left' (by rw [length_syncMsg]; omega)
    rw [hdrop, (install_iff j).2]
    omega

theorem syncServer_iff {p : Text} (hp : IsHex p) (n₁ n₂ : ℕ) :
    syncServer n₁ n₂ (syncMsg p ++ installMsg) = ["SYNC ".toList ++ p, "INSTALL".toList] ↔
      p.length + 5 ≤ min (n₁ + 1) 256 ∧ min (n₁ + 1) 256 ≤ p.length + 6 ∧
        p.length + 13 ≤ min (n₁ + 1) 256 + min (n₂ + 1) 64 := by
  have hfirst := sync_iff hp (min (n₁ + 1) 256)
  have hread : ∀ {k : ℕ}, k ≤ p.length + 6 → ((syncMsg p ++ installMsg).take k).length = k := by
    intro k hk
    rw [List.length_take, List.length_append, length_syncMsg]
    omega
  rw [syncServer, segmentOf]
  constructor
  · intro h
    have hsync : Text.strip ((syncMsg p ++ installMsg).take (min (n₁ + 1) 256)) = "SYNC ".toList ++ p := by
      split at h
      · exact (List.cons_eq_cons.1 h).1
      · exact (List.cons_eq_cons.1 h).1
    obtain ⟨h1, h2⟩ := hfirst.1 hsync
    refine ⟨h1, h2, (install_read_iff h1 h2 _).1 ?_⟩
    rw [hsync, if_pos (List.prefix_append _ _), hread h2] at h
    exact (List.cons_eq_cons.1 (List.cons_eq_cons.1 h).2).1
  · rintro ⟨h1, h2, h3⟩
    have hinstall := (install_read_iff h1 h2 _).2 h3
    rw [hfirst.2 ⟨h1, h2⟩, if_pos (List.prefix_append _ _), hread h2, segmentOf, hinstall]

/-! ## The receivers together -/

/-- **When messages survive.** For every stream of messages and every segmentation: the setptk listener
and the PTK TCP handlers handle the lines sent if and only if there is at most one, without a NUL, and
the read returns the whole of it, up to what they trim; the PTK ports, if and only if there is at most
one PTK and the read returns all of it; the sync server, if and only if the first read returns the
`SYNC` line and nothing more, and the second one `INSTALL`. -/
theorem framing_iff (ls : List Line) (ms : List PtkMsg) (p : {p : Text // IsHex p}) (n n₂ : ℕ) :
    (lifiReadCb n (unlines ls) = (ls.map fun l => l.1) ↔
        ls = [] ∨ ∃ l, ls = [l] ∧ '\x00' ∉ l.1 ∧ l.1.length ≤ min (n + 1) 255) ∧
      (ptkPort n (ms.flatMap List.Vector.toList) = ms.map List.Vector.toList ↔
        ms = [] ∨ ms.length = 1 ∧ 48 ≤ n + 1) ∧
      (ptkTcpHandler n (unlines ls) = (ls.map fun l => trimEnd l.1) ↔
        ls = [] ∨ ∃ l, ls = [l] ∧ '\x00' ∉ trimEnd l.1 ∧
          (trimEnd l.1).length ≤ min (n + 1) ptkTcpRecvMax) ∧
      (syncServer n n₂ (syncMsg p.1 ++ installMsg) = ["SYNC ".toList ++ p.1, "INSTALL".toList] ↔
        p.1.length + 5 ≤ min (n + 1) 256 ∧ min (n + 1) 256 ≤ p.1.length + 6 ∧
          p.1.length + 13 ≤ min (n + 1) 256 + min (n₂ + 1) 64) :=
  ⟨lifiReadCb_iff ls n, ptkPort_iff ms n, ptkTcpHandler_iff ls n, syncServer_iff p.2 n n₂⟩

/-- A PTK that arrives in two pieces is rejected. -/
theorem split_ptk_rejected :
    ptkPort 19 (List.replicate 48 0x11) = [] ∧
      ¬ ∀ (ms : List PtkMsg) (n : ℕ),
        ptkPort n (ms.flatMap List.Vector.toList) = ms.map List.Vector.toList := by
  have hport : ptkPort 19 (List.replicate 48 0x11) = [] := by decide
  refine ⟨hport, fun h => ?_⟩
  have hall := h [List.Vector.replicate 48 0x11] 19
  have hone : [List.Vector.replicate 48 (0x11 : UInt8)].flatMap List.Vector.toList =
      List.replicate 48 0x11 := rfl
  rw [hone, hport] at hall
  cases hall

end Lightguard.Forward
