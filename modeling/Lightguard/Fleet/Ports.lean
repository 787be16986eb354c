import Lightguard.Fleet.Update
import Lightguard.Wpa.Grammar

/-!
# The two PTK TCP ports

`wpa_auth_ptk_tcp_handler` with its callback and `wpa_sm_ptk_tcp_handler` were written separately.
Here each has its checks in its own order, with the line it logs.

* `wpaAuthInstallCustomPtkCb_eq`, `wpaSmPtkTcpHandler_eq`: what the two do with a buffer.
* `decoders_agree`: they take the same buffers, for the same keys.
* `grammar_iff`: when hostapd takes exactly what the grammar allows.
-/

namespace Lightguard.Fleet

open Wpa

variable {p : Cipher} {buf : Text} {ptk : Ptk}

/-! ## The checks -/

/-- `WPA_TK_MAX_LEN`. -/
def wpaTkMaxLen : ℕ := 32

/-- hostapd: the handler looks for an empty payload, its callback at everything else; a cipher that
will not do is only counted. -/
def apDecode (p : Cipher) (buf : Text) : Except Text Ptk :=
  let hex := ptkTcpHex buf
  if hex = [] then .error "PTK TCP: empty payload".toList
  else if p = .none ∨ !p.validPairwise then .error []
  else if p.keyLen = 0 ∨ wpaTkMaxLen < p.keyLen then .error []
  else if hex.length ≠ 2 * (32 + p.keyLen) then
    .error "PTK TCP: invalid length for current cipher".toList
  else match hexstr2bin hex with
    | none => .error "PTK TCP: hex parse failed".toList
    | some keybuf => .ok (ptkOfOctets p.keyLen keybuf)

/-- wpa_supplicant. -/
def staDecode (p : Cipher) (buf : Text) : Except Text Ptk :=
  let hex := ptkTcpHex buf
  if hex = [] then .error "PTK TCP: empty payload".toList
  else if p = .none ∨ !p.validPairwise then .error "PTK TCP: invalid pairwise cipher".toList
  else if p.keyLen = 0 ∨ wpaTkMaxLen < p.keyLen then .error "PTK TCP: invalid key length".toList
  else if hex.length ≠ 2 * (32 + p.keyLen) then .error "PTK TCP: invalid hex length".toList
  else match hexstr2bin hex with
    | none => .error "PTK TCP: hex parse failed".toList
    | some keybuf => .ok (ptkOfOctets p.keyLen keybuf)

/-- The PTK in what `recv` has returned. -/
def tcpPtk (p : Cipher) (buf : Text) : Option Ptk :=
  if p.validPairwise then decodePtk p.keyLen buf else none

theorem payloadPtk_eq (p : Cipher) (buf : Text) : payloadPtk p buf = tcpPtk p (buf.take ptkTcpRecvMax) :=
  rfl

/-- The key length of a pairwise cipher is never out of bounds. -/
theorem keyLen_ok (hp : p ≠ .none) : ¬ (p.keyLen = 0 ∨ wpaTkMaxLen < p.keyLen) := by
  cases p with
  | none => exact absurd rfl hp
  | _ => decide

/-- The checks in the order of either daemon come to the same. -/
theorem decode_checks (p : Cipher) (buf : Text) (e₁ e₂ e₃ e₄ e₅ : Text) :
    (if ptkTcpHex buf = [] then .error e₁
      else if p = .none ∨ !p.validPairwise then .error e₂
      else if p.keyLen = 0 ∨ wpaTkMaxLen < p.keyLen then .error e₃
      else if (ptkTcpHex buf).length ≠ 2 * (32 + p.keyLen) then .error e₄
      else match hexstr2bin (ptkTcpHex buf) with
        | none => .error e₅
        | some keybuf => .ok (ptkOfOctets p.keyLen keybuf) : Except Text Ptk).toOption =
      tcpPtk p buf := by
  unfold tcpPtk decodePtk
  simp only
  generalize ptkTcpHex buf = hex
  by_cases h0 : hex = []
  · rw [if_pos h0, if_pos h0]
    split <;> rfl
  rw [if_neg h0, if_neg h0]
  by_cases hp : p = .none
  · subst hp
    rfl
  have hv : p.validPairwise = true := by simpa [Cipher.validPairwise] using hp
  rw [if_neg (by simp [hp, hv]), if_neg (keyLen_ok hp), if_pos hv]
  by_cases hlen : hex.length ≠ 2 * (32 + p.keyLen)
  · rw [if_pos hlen, if_pos hlen]
    rfl
  rw [if_neg hlen, if_neg hlen]
  cases hexstr2bin hex with
  | none => rfl
  | some b => rfl

theorem apDecode_eq (p : Cipher) (buf : Text) : (apDecode p buf).toOption = tcpPtk p buf :=
  decode_checks p buf _ _ _ _ _

theorem staDecode_eq (p : Cipher) (buf : Text) : (staDecode p buf).toOption = tcpPtk p buf :=
  decode_checks p buf _ _ _ _ _

/-- What is decoded has a TK of the length the cipher asks for. -/
theorem tcpPtk_length (h : tcpPtk p buf = some ptk) :
    0 < p.keyLen ∧ p.keyLen = ptk.tk.length ∧ ptk.installed = false := by
  unfold tcpPtk at h
  split at h
  · rename_i hv
    obtain ⟨-, -, h3, h4⟩ := decodePtk_length h
    exact ⟨keyLen_pos (by simpa [Cipher.validPairwise] using hv), h3.symm, h4⟩
  · cases h

/-! ## What the two handlers do -/

/-- **hostapd's callback** for one station. -/
theorem wpaAuthInstallCustomPtkCb_eq (c : Auth.Conf) (e : Auth.Env) (buf : Text) (s : Auth.Sm) :
    Auth.wpaAuthInstallCustomPtkCb c e buf s =
      match (apDecode s.neg.pairwise buf).toOption with
      | none => s
      | some ptk =>
        if e.setKey then Auth.ptkInstalled c (s.handed .ptkTcp ptk true)
        else s.handed .ptkTcp ptk false := by
  rw [apDecode_eq, Auth.wpaAuthInstallCustomPtkCb_match]
  rfl

/-- The call of `wpa_sm_set_key` in wpa_supplicant's handler. -/
def staHanded (ptk : Ptk) (ok : Bool) (s : Supp.Sm) : Supp.Sm :=
  (s.wrote .ptkTcp ptk).out (.setKey .ptkTcp s.keyidxActive ptk.tk ok)

/-- **wpa_supplicant's handler.** -/
theorem wpaSmPtkTcpHandler_eq (e : Supp.Env) (buf : Text) (s : Supp.Sm) :
    Supp.wpaSmPtkTcpHandler e buf s =
      match (staDecode s.par.pairwiseCipher buf).toOption with
      | none => s
      | some ptk =>
        if e.setKey then Supp.ptkInstalled (staHanded ptk true s) else staHanded ptk false s := by
  rw [staDecode_eq, Supp.wpaSmPtkTcpHandler_match]
  rfl

/-! ## The two decoders -/

/-- hostapd's callback records this PTK and hands its TK over, with this answer. -/
structure ApHands (s t : Auth.Sm) (ptk : Ptk) (ok : Bool) : Prop where
  stored : t.ptk = ptk
  trace : t.trace = .setKey .ptkTcp 0 ptk.tk ok :: .newPtk .fork ptk :: s.trace

/-- So does wpa_supplicant; it forgets the TK that the driver has taken. -/
structure StaHands (s t : Supp.Sm) (ptk : Ptk) (ok : Bool) : Prop where
  kck : t.ptk.kck = ptk.kck
  kek : t.ptk.kek = ptk.kek
  trace : t.trace = .setKey .ptkTcp s.keyidxActive ptk.tk ok :: .wrotePtk .ptkTcp ptk :: s.trace

theorem apHands (c : Auth.Conf) (e : Auth.Env) {s : Auth.Sm} (h : tcpPtk s.neg.pairwise buf = some ptk) :
    ApHands s (Auth.wpaAuthInstallCustomPtkCb c e buf s) ptk e.setKey := by
  rw [wpaAuthInstallCustomPtkCb_eq, apDecode_eq, h]
  cases e.setKey with
  | false => exact ⟨rfl, rfl⟩
  | true => exact ⟨rfl, rfl⟩

theorem apKeeps (c : Auth.Conf) (e : Auth.Env) {s : Auth.Sm} (h : tcpPtk s.neg.pairwise buf = none) :
    Auth.wpaAuthInstallCustomPtkCb c e buf s = s := by
  rw [wpaAuthInstallCustomPtkCb_eq, apDecode_eq, h]

theorem staHands (e : Supp.Env) {s : Supp.Sm} (h : tcpPtk s.par.pairwiseCipher buf = some ptk) :
    StaHands s (Supp.wpaSmPtkTcpHandler e buf s) ptk e.setKey := by
  rw [wpaSmPtkTcpHandler_eq, staDecode_eq, h]
  cases e.setKey with
  | false => exact ⟨rfl, rfl, rfl⟩
  | true => exact ⟨rfl, rfl, rfl⟩

theorem staKeeps (e : Supp.Env) {s : Supp.Sm} (h : tcpPtk s.par.pairwiseCipher buf = none) :
    Supp.wpaSmPtkTcpHandler e buf s = s := by
  rw [wpaSmPtkTcpHandler_eq, staDecode_eq, h]

/-- Nothing else is handed over. -/
theorem tcpPtk_of_ap {c : Auth.Conf} {e : Auth.Env} {s : Auth.Sm} {got : Ptk} {ok : Bool}
    (h : ApHands s (Auth.wpaAuthInstallCustomPtkCb c e buf s) got ok) :
    tcpPtk s.neg.pairwise buf = some got := by
  cases htcp : tcpPtk s.neg.pairwise buf with
  | none =>
    have := congrArg List.length (apKeeps c e htcp ▸ h.trace)
    simp only [List.length_cons] at this
    omega
  | some ptk => rw [← (apHands c e htcp).stored, h.stored]

theorem tcpPtk_of_sta {e : Supp.Env} {s : Supp.Sm} {got : Ptk} {ok : Bool}
    (h : StaHands s (Supp.wpaSmPtkTcpHandler e buf s) got ok) :
    ∃ ptk, tcpPtk s.par.pairwiseCipher buf = some ptk ∧ got.kck = ptk.kck ∧ got.kek = ptk.kek ∧
      got.tk = ptk.tk := by
  cases htcp : tcpPtk s.par.pairwiseCipher buf with
  | none =>
    have := congrArg List.length (staKeeps e htcp ▸ h.trace)
    simp only [List.length_cons] at this
    omega
  | some ptk =>
    have hptk := staHands e htcp
    have htk := h.trace.symm.trans hptk.trace
    simp only [List.cons.injEq, Supp.Out.setKey.injEq] at htk
    exact ⟨ptk, rfl, h.kck.symm.trans hptk.kck, h.kek.symm.trans hptk.kek, htk.1.2.2.1⟩

/-- **The decoders agree.** For every buffer and a cipher that both ends have, both handlers leave
everything as it is, or both record the same PTK and hand over its TK, which has the cipher's length. -/
theorem decoders_agree (c : Auth.Conf) (e : Auth.Env) (e' : Supp.Env) (buf : Text) {s : Auth.Sm}
    {t : Supp.Sm} (h : s.neg.pairwise = t.par.pairwiseCipher) :
    Auth.wpaAuthInstallCustomPtkCb c e buf s = s ∧ Supp.wpaSmPtkTcpHandler e' buf t = t ∨
    ∃ ptk, ptk.tk.length = s.neg.pairwise.keyLen ∧
      ApHands s (Auth.wpaAuthInstallCustomPtkCb c e buf s) ptk e.setKey ∧
      StaHands t (Supp.wpaSmPtkTcpHandler e' buf t) ptk e'.setKey := by
  cases htcp : tcpPtk s.neg.pairwise buf with
  | none => exact .inl ⟨apKeeps c e htcp, staKeeps e' (h ▸ htcp)⟩
  | some ptk =>
    obtain ⟨-, hlen, -⟩ := tcpPtk_length htcp
    exact .inr ⟨ptk, hlen.symm, apHands c e htcp, staHands e' (h ▸ htcp)⟩

/-- `decoders_agree` for a payload that both take. -/
theorem decoders_agree_plain :
    Auth.wpaAuthInstallCustomPtkCb (Link.plainConf .wifi).ap Auth.calm plainHex (Link.apWith .ccmp) =
          Link.apWith .ccmp ∧
        Supp.wpaSmPtkTcpHandler Supp.calm plainHex (Link.staWith .ccmp) = Link.staWith .ccmp ∨
      ∃ ptk, ptk.tk.length = (Link.apWith .ccmp).neg.pairwise.keyLen ∧
        ApHands (Link.apWith .ccmp) (Auth.wpaAuthInstallCustomPtkCb (Link.plainConf .wifi).ap Auth.calm
          plainHex (Link.apWith .ccmp)) ptk Auth.calm.setKey ∧
        StaHands (Link.staWith .ccmp) (Supp.wpaSmPtkTcpHandler Supp.calm plainHex (Link.staWith .ccmp))
          ptk Supp.calm.setKey :=
  decoders_agree _ _ _ _ rfl

/-! ## The grammar -/

/-- hostapd's callback hands this PTK over for a message of which `recv` returns what fits. -/
def Handed (c : Auth.Conf) (e : Auth.Env) (seq : Text) (s : Auth.Sm) (ptk : Ptk) : Prop :=
  ∃ ok, ApHands s (Auth.wpaAuthInstallCustomPtkCb c e (seq.take ptkTcpRecvMax) s) ptk ok

theorem handed_iff {c : Auth.Conf} {e : Auth.Env} {seq : Text} {s : Auth.Sm} :
    Handed c e seq s ptk ↔ payloadPtk s.neg.pairwise seq = some ptk := by
  rw [payloadPtk_eq]
  constructor
  · rintro ⟨ok, h⟩
    exact tcpPtk_of_ap h
  · intro h
    exact ⟨e.setKey, apHands c e h⟩

/-- **When hostapd accepts exactly the grammar.** For every message and every pairwise cipher: what is
decoded and handed to the driver is what the message says, exactly when the octets that fit the buffer
say what the whole message says. -/
theorem grammar_iff (c : Auth.Conf) (e : Auth.Env) (seq : Text) {s : Auth.Sm}
    (hv : s.neg.pairwise.validPairwise = true) :
    (∀ ptk, Handed c e seq s ptk ↔ PtkSpec s.neg.pairwise.keyLen seq ptk) ↔
      ReadWhole s.neg.pairwise.keyLen seq := by
  have hdec : ∀ ptk, Handed c e seq s ptk ↔
      decodePtk s.neg.pairwise.keyLen (seq.take ptkTcpRecvMax) = some ptk := by
    intro ptk
    rw [handed_iff, payloadPtk_eq, tcpPtk, if_pos hv]
  simp only [hdec]
  exact decoded_iff

/-- A message with a separator, and a line feed at its end. -/
def plainMessage : Text := " ptk: ".toList ++ plainHex ++ ['\n']

theorem plainMessage_whole : ReadWhole 16 plainMessage := by
  have hlen : plainMessage.take ptkTcpRecvMax = plainMessage := List.take_of_length_le (by decide)
  unfold ReadWhole
  rw [hlen, if_neg (by decide)]

/-- `grammar_iff` for a message that fits the buffer. -/
theorem grammar_plain : ReadWhole 16 plainMessage ∧
    ((∀ ptk, Handed (Link.plainConf .wifi).ap Auth.calm plainMessage (Link.apWith .ccmp) ptk ↔
      PtkSpec (Link.apWith .ccmp).neg.pairwise.keyLen plainMessage ptk) ↔
    ReadWhole (Link.apWith .ccmp).neg.pairwise.keyLen plainMessage) :=
  ⟨plainMessage_whole, grammar_iff _ _ _ rfl⟩

/-- 63 blanks fill the rest of the buffer. -/
def longMessage : Text := plainHex ++ List.replicate 63 ' ' ++ "garbage".toList

/-- Behind a NUL anything goes, and so it does behind the end of the buffer. -/
theorem garbage_accepted :
    (∃ ptk, Handed (Link.plainConf .wifi).ap Auth.calm (plainHex ++ "\x00garbage".toList)
      (Link.apWith .ccmp) ptk ∧ ¬ PtkSpec 16 (plainHex ++ "\x00garbage".toList) ptk) ∧
    ∃ ptk, Handed (Link.plainConf .wifi).ap Auth.calm longMessage (Link.apWith .ccmp) ptk ∧
      ¬ PtkSpec 16 longMessage ptk := by
  simp only [handed_iff]
  refine ⟨⟨_, rfl, ?_⟩, ⟨_, rfl, ?_⟩⟩
  · rintro ⟨hex, -, h, -⟩
    exact h.not_nul (by decide)
  · rintro ⟨hex, -, h, -⟩
    obtain ⟨rfl, hlen, -⟩ := (ptkBody_iff (by decide)).1 ((ptkLine_iff (by decide)).1 h)
    exact absurd hlen (by decide +kernel)

end Lightguard.Fleet
