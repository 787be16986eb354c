import Lightguard.Rotation.Psk

/-!
# Which setptk lines are carried out

The grammar of a setptk line, without the tokenizer that reads it, and what `lifi_handle_line` does
with the lines that are in it and with those that are not.

* `hwaddrParse_iff`: the address parser reads a complete address and stops.
* `fields_iff`: the three calls of `strtok` read the fields of the grammar.
* `afterLine_fields`, `afterLine_other`: the state after any line.
* `all_or_nothing`: a complete line has its whole effect, and a line that is none has no effect.
-/

namespace Lightguard.Rotation

variable {σ : Type} {hapd : Hapd σ} {line mac n pass t r : Text} {a : Addr}

/-! ## Addresses -/

/-- Two hexadecimal digits and the octet they stand for. -/
def OctetText (m : Text) (x : UInt8) : Prop :=
  ∃ c d i j, m = [c, d] ∧ hex2num c = some i ∧ hex2num d = some j ∧ x = UInt8.ofNat (i * 16 + j)

/-- Octets with colons between them. -/
inductive ColonText : Text → List UInt8 → Prop where
  | one {m : Text} {x : UInt8} : OctetText m x → ColonText m [x]
  | cons {m t : Text} {x : UInt8} {v : List UInt8} :
      OctetText m x → ColonText t v → ColonText (m ++ ':' :: t) (x :: v)

theorem hex2byte_iff {x : UInt8} :
    hex2byte t = some (x, r) ↔ ∃ m, t = m ++ r ∧ OctetText m x := by
  constructor
  · intro h
    match t with
    | [] | [_] => simp [hex2byte] at h
    | c :: d :: t =>
      simp only [hex2byte, Option.bind_eq_bind, Option.bind_eq_some_iff, Option.pure_def,
        Option.some.injEq, Prod.mk.injEq] at h
      obtain ⟨i, hi, j, hj, rfl, rfl⟩ := h
      exact ⟨[c, d], rfl, c, d, i, j, rfl, hi, hj, rfl⟩
  · rintro ⟨m, rfl, c, d, i, j, rfl, hi, hj, rfl⟩
    simp [hex2byte, hi, hj]

/-- **The loop of `hwaddr_parse`**, octet by octet. -/
theorem hwaddrLoop_iff : ∀ {k : ℕ} {t r : Text} {v : List.Vector UInt8 (k + 1)},
    hwaddrLoop (k + 1) t = some (v, r) ↔ ∃ m, t = m ++ r ∧ ColonText m v.toList
  | 0, t, r, v => by
    simp only [hwaddrLoop, Option.bind_eq_bind, Option.bind_eq_some_iff, Option.pure_def,
      Option.some.injEq, Prod.mk.injEq]
    constructor
    · rintro ⟨⟨x, t'⟩, h1, rfl, rfl⟩
      obtain ⟨m, rfl, hm⟩ := hex2byte_iff.1 h1
      exact ⟨m, rfl, .one hm⟩
    · rintro ⟨m, rfl, hm⟩
      have hv : v = .cons v.head .nil := by
        rw [← List.Vector.cons_head_tail v, List.Vector.eq_nil v.tail]
        rfl
      rw [hv] at hm
      cases hm with
      | one ho => exact ⟨(v.head, r), hex2byte_iff.2 ⟨m, rfl, ho⟩, hv.symm, rfl⟩
      | cons _ ht => cases ht
  | k + 1, t, r, v => by
    simp only [hwaddrLoop, Option.bind_eq_bind, Option.bind_eq_some_iff, Option.pure_def]
    constructor
    · rintro ⟨⟨x, t'⟩, h1, h2⟩
      obtain ⟨m, rfl, hm⟩ := hex2byte_iff.1 h1
      split at h2
      · rename_i t'' heq
        simp only at heq; subst heq
        obtain ⟨⟨w, r'⟩, h3, h4⟩ := Option.bind_eq_some_iff.1 h2
        simp only [Option.some.injEq, Prod.mk.injEq] at h4
        obtain ⟨rfl, rfl⟩ := h4
        obtain ⟨m', rfl, hm'⟩ := hwaddrLoop_iff.1 h3
        exact ⟨m ++ ':' :: m', by simp, .cons hm hm'⟩
      · cases h2
    · rintro ⟨m, rfl, hm⟩
      rw [← List.Vector.cons_head_tail v] at hm ⊢
      rw [List.Vector.toList_cons] at hm
      generalize hvs : v.tail.toList = vs at hm
      cases hm with
      | one ho => simp [List.eq_nil_iff_length_eq_zero] at hvs
      | @cons m₁ m₂ _ _ ho ht =>
        subst hvs
        refine ⟨(v.head, ':' :: (m₂ ++ r)), hex2byte_iff.2 ⟨m₁, by simp, ho⟩, ?_⟩
        simp only [hwaddrLoop_iff.2 ⟨m₂, rfl, ht⟩, Option.bind_some]

/-- **The address parser** reads a complete address; it does not look at what follows. -/
theorem hwaddrParse_iff : hwaddrParse t = some (a, r) ↔ ∃ m, t = m ++ r ∧ ColonText m a.toList :=
  hwaddrLoop_iff

/-! ## The fields of a line -/

/-- A line with the command `setptk`, a second field, and a passphrase up to the end of the line. Blanks
may stand around the command; `n` are the newlines that `strtok` skips before the passphrase. -/
structure Fields (line mac n pass : Text) : Prop where
  parts : ∃ b b' e, line = b ++ "setptk".toList ++ ' ' :: (b' ++ mac ++ ' ' :: (n ++ pass ++ e)) ∧
    (∀ c ∈ b, c = ' ') ∧ (∀ c ∈ b', c = ' ') ∧ (e = [] ∨ ∃ r, e = '\n' :: r)
  mac_ne : mac ≠ []
  mac_word : ' ' ∉ mac
  newlines : ∀ c ∈ n, c = '\n'
  pass_ne : pass ≠ []
  pass_line : '\n' ∉ pass

/-- What the three calls of `strtok` return. -/
def Tokens (line cmd mac pass : Text) : Prop :=
  ∃ r₁ r₂ r₃, Lib.strtok (· == ' ') line = some (cmd, r₁) ∧
    Lib.strtok (· == ' ') r₁ = some (mac, r₂) ∧ Lib.strtok (· == '\n') r₂ = some (pass, r₃)

theorem not_mem_iff {c : Char} : c ∉ t ↔ ∀ x ∈ t, (x == c) = false := by
  constructor
  · intro h x hx
    rw [beq_eq_false_iff_ne]
    rintro rfl
    exact h hx
  · intro h hc
    simpa using h c hc

/-- **The tokenizer reads the grammar.** -/
theorem fields_iff : Tokens line "setptk".toList mac pass ↔ ∃ n, Fields line mac n pass := by
  constructor
  · rintro ⟨r₁, r₂, r₃, h1, h2, h3⟩
    obtain ⟨b, e₁, rfl, hb, -, -, ht₁⟩ := Lib.strtok_iff.1 h1
    obtain ⟨b', e₂, hr₁, hb', hm, hmac, ht₂⟩ := Lib.strtok_iff.1 h2
    obtain ⟨n, e, hr₂, hn, hp, hpass, ht₃⟩ := Lib.strtok_iff.1 h3
    -- a token is followed by another one, so by a delimiter
    rcases ht₁ with ⟨-, rfl⟩ | ⟨c, hc, rfl⟩
    · simp [hm] at hr₁
    rcases ht₂ with ⟨-, rfl⟩ | ⟨c', hc', rfl⟩
    · simp [hp] at hr₂
    obtain rfl : c = ' ' := by simpa using hc
    obtain rfl : c' = ' ' := by simpa using hc'
    refine ⟨n, ⟨b, b', e, ?_, ?_, ?_, ?_⟩, hm, not_mem_iff.2 hmac, ?_, hp, not_mem_iff.2 hpass⟩
    · rw [hr₁, hr₂]
    · exact fun c hc => by simpa using hb c hc
    · exact fun c hc => by simpa using hb' c hc
    · rcases ht₃ with ⟨rfl, -⟩ | ⟨c, hc, rfl⟩
      · exact .inl rfl
      · exact .inr ⟨r₃, by rw [show c = '\n' by simpa using hc]⟩
    · exact fun c hc => by simpa using hn c hc
  · rintro ⟨n, ⟨b, b', e, rfl, hb, hb', he⟩, hm, hmac, hn, hp, hpass⟩
    have h1 : Lib.strtok (· == ' ')
        (b ++ "setptk".toList ++ ' ' :: (b' ++ mac ++ ' ' :: (n ++ pass ++ e))) =
          some ("setptk".toList, b' ++ mac ++ ' ' :: (n ++ pass ++ e)) :=
      Lib.strtok_token (fun x hx => by simpa using hb x hx) (by decide) (by simp) (by decide)
    have h2 : Lib.strtok (· == ' ') (b' ++ mac ++ ' ' :: (n ++ pass ++ e)) =
        some (mac, n ++ pass ++ e) :=
      Lib.strtok_token (fun x hx => by simpa using hb' x hx) hm (not_mem_iff.1 hmac) (by decide)
    have h3 : ∃ r₃, Lib.strtok (· == '\n') (n ++ pass ++ e) = some (pass, r₃) := by
      have hn' : ∀ x ∈ n, (x == '\n') = true := fun x hx => by simpa using hn x hx
      rcases he with rfl | ⟨r, rfl⟩
      · exact ⟨[], Lib.strtok_iff.2 ⟨n, [], rfl, hn', hp, not_mem_iff.1 hpass, .inl ⟨rfl, rfl⟩⟩⟩
      · exact ⟨r, Lib.strtok_token hn' hp (not_mem_iff.1 hpass) (by decide)⟩
    obtain ⟨r₃, h3⟩ := h3
    exact ⟨_, _, r₃, h1, h2, h3⟩

/-! ## What a line does -/

variable (pbkdf2 : Text → Bytes → ℕ → Bytes) (reauth : σ → σ)

/-- The state after a line. Nothing has been written when a line is refused. -/
def afterLine (hapd : Hapd σ) (line : Text) : Hapd σ :=
  match lifiHandleLine pbkdf2 reauth hapd line with
  | .ok hapd' => hapd'
  | .error _ => hapd

/-- The whole effect of a line for the station `a`: it is cached while the station is not known, and
refused while the station has no state machine or the BSS no SSID. -/
def carryOut (hapd : Hapd σ) (a : Addr) (pass : Text) : Hapd σ :=
  match hapd.sta a with
  | none => { hapd with cachedAddr := a, cachedPassphrase := pass, cachedValid := true }
  | some none => hapd
  | some (some sm) =>
    if hapd.ssid = [] then hapd
    else { hapd with
      wpaPsk := { hapd.wpaPsk with psk := pbkdf2 pass hapd.ssid 4096 }
      sta := fun b => if b = a then some (some (reauth sm)) else hapd.sta b }

/-- **A line with its fields**, whose second field begins with an address. -/
theorem afterLine_fields (h : Fields line mac n pass) (hm : hwaddrParse mac = some (a, r)) :
    afterLine pbkdf2 reauth hapd line =
      if hapd.sta a = none then carryOut pbkdf2 reauth hapd a (pass.take 63)
      else if pass.length < 8 ∨ 63 < pass.length then hapd
      else carryOut pbkdf2 reauth hapd a pass := by
  obtain ⟨r₁, r₂, r₃, h1, h2, h3⟩ := fields_iff.2 ⟨n, h⟩
  have hmac : hwaddrAton mac = some a := by rw [hwaddrAton, hm, Option.map_some]
  simp only [afterLine, lifiHandleLine, h1, h2, h3, hmac, ne_eq, not_true_eq_false, if_false, carryOut]
  cases hsta : hapd.sta a with
  | none => rfl
  | some o =>
    cases o with
    | none => simp
    | some sm =>
      by_cases hlen : pass.length < 8 ∨ 63 < pass.length
      · simp [hlen]
      · by_cases hssid : hapd.ssid = []
        · simp [hlen, hssid]
        · simp [hlen, hssid]

/-- **A line without them** does nothing. -/
theorem afterLine_other
    (h : ∀ mac n pass a r, Fields line mac n pass → hwaddrParse mac ≠ some (a, r)) :
    afterLine pbkdf2 reauth hapd line = hapd := by
  unfold afterLine lifiHandleLine
  cases h1 : Lib.strtok (· == ' ') line with
  | none => rfl
  | some p₁ =>
    obtain ⟨cmd, r₁⟩ := p₁
    cases h2 : Lib.strtok (· == ' ') r₁ with
    | none => simp only [h2]
    | some p₂ =>
      obtain ⟨mac, r₂⟩ := p₂
      cases h3 : Lib.strtok (· == '\n') r₂ with
      | none => simp only [h2, h3]
      | some p₃ =>
        obtain ⟨pass, r₃⟩ := p₃
        by_cases hcmd : cmd = "setptk".toList
        · subst hcmd
          obtain ⟨n, hf⟩ := fields_iff.1 ⟨r₁, r₂, r₃, h1, h2, h3⟩
          have hmac : hwaddrAton mac = none := by
            cases hp : hwaddrParse mac with
            | none => rw [hwaddrAton, hp, Option.map_none]
            | some v => exact absurd hp (h mac n pass v.1 v.2 hf)
          simp only [h2, h3, hmac, ne_eq, not_true_eq_false, if_false]
        · simp only [h2, h3, ne_eq, hcmd, not_false_eq_true, if_true]

/-- A complete line for the station `a`: nothing stands behind the address or between it and the
passphrase but one blank, and the passphrase has 8 to 63 characters. -/
structure Complete (line : Text) (a : Addr) (pass : Text) : Prop where
  fields : ∃ mac, Fields line mac [] pass ∧ ColonText mac a.toList
  min : 8 ≤ pass.length
  max : pass.length ≤ 63

/-- **All or nothing.** For every line and every state: a complete line has its whole effect, with the
whole passphrase; a line without the three fields, or whose second field does not begin with an address,
changes nothing, and neither does one with a passphrase of another length for a known station. -/
theorem all_or_nothing (hapd : Hapd σ) (line : Text) :
    (∀ a pass, Complete line a pass →
        afterLine pbkdf2 reauth hapd line = carryOut pbkdf2 reauth hapd a pass) ∧
      ((∀ mac n pass m r (a : Addr), Fields line mac n pass → ColonText m a.toList → mac ≠ m ++ r) →
        afterLine pbkdf2 reauth hapd line = hapd) ∧
      ∀ mac n pass (a : Addr), Fields line mac n pass → ColonText mac a.toList → hapd.sta a ≠ none →
        pass.length < 8 ∨ 63 < pass.length → afterLine pbkdf2 reauth hapd line = hapd := by
  have hwhole : ∀ {mac : Text} {a : Addr}, ColonText mac a.toList → hwaddrParse mac = some (a, []) :=
    fun hm => hwaddrParse_iff.2 ⟨_, (List.append_nil _).symm, hm⟩
  refine ⟨?_, ?_, ?_⟩
  · rintro a pass ⟨⟨mac, hf, hm⟩, hmin, hmax⟩
    rw [afterLine_fields pbkdf2 reauth hf (hwhole hm), List.take_of_length_le hmax,
      if_neg (c := _ ∨ _) (by omega), ite_self]
  · intro h
    refine afterLine_other pbkdf2 reauth fun mac n pass a r hf hp => ?_
    obtain ⟨m, hmac, hm⟩ := hwaddrParse_iff.1 hp
    exact h mac n pass m r a hf hm hmac
  · intro mac n pass a hf hm hsta hlen
    rw [afterLine_fields pbkdf2 reauth hf (hwhole hm), if_neg hsta, if_pos hlen]

theorem complete_lifi2024 : Complete (rekeyCmd staMac "lifi-2024".toList) staAddr "lifi-2024".toList where
  fields := by
    obtain ⟨m, hm, hc⟩ := hwaddrParse_iff.1 staMac_parse
    rw [List.append_nil] at hm
    exact ⟨staMac, ⟨⟨[], [], ['\n'], rfl, by simp, by simp, .inr ⟨[], rfl⟩⟩, by decide, by decide, by simp,
      by decide, by decide⟩, hm ▸ hc⟩
  min := by decide
  max := by decide

/-- The BSS of the examples, whose stations have no state machine yet. -/
def hapdNoSm : Hapd Unit := { hapdLifi with sta := fun _ => some none }

/-- A complete line changes nothing while the station has no state machine. -/
theorem complete_refused :
    Complete (rekeyCmd staMac "lifi-2024".toList) staAddr "lifi-2024".toList ∧
      afterLine pbkdf2Lifi id hapdNoSm (rekeyCmd staMac "lifi-2024".toList) = hapdNoSm ∧
      ¬ ∀ (hapd : Hapd Unit) (line : Text), afterLine pbkdf2Lifi id hapd line ≠ hapd ↔
        ∃ a pass, Complete line a pass := by
  have hsame : afterLine pbkdf2Lifi id hapdNoSm (rekeyCmd staMac "lifi-2024".toList) = hapdNoSm := rfl
  exact ⟨complete_lifi2024, hsame, fun h => (h _ _).2 ⟨_, _, complete_lifi2024⟩ hsame⟩

end Lightguard.Rotation
