import Lightguard.Lib.Hex
import Lightguard.Wpa.PtkTcp

/-!
# The grammar of the PTK TCP ports

What a message to one of the ports looks like, said without the parser: blanks, an optional
`PTK` with separators behind it, hexadecimal digits, white space at the end.

* `hexstr2bin_iff`: reading digits undoes writing them.
* `decodePtk_iff`: what the handlers decode, in terms of the grammar.
-/

namespace Lightguard.Wpa

variable {t u hex hex' : Text} {b : Bytes} {n k : ℕ}

/-! ## Digits -/

theorem hex2num_ascii : ∀ n < 128, ∀ d < 16,
    hex2num (Char.ofNat n) = some d ↔ (Char.ofNat n).toLower = Lib.hexDigit d := by
  decide +kernel

theorem hex2num_lt : ∀ n < 128, ∀ d ∈ hex2num (Char.ofNat n), d < 16 := by
  decide +kernel

theorem hexDigit_ascii (d : ℕ) : (Lib.hexDigit d).toNat < 128 := by
  have hall : Lib.hexDigits.all (·.toNat < 128) := by decide
  simpa using List.all_eq_true.1 hall _ (Lib.hexDigit_mem d)

/-- A digit in either case. -/
theorem hex2num_iff {c : Char} {d : ℕ} :
    hex2num c = some d ↔ d < 16 ∧ c.toLower = Lib.hexDigit d := by
  by_cases hc : c.toNat < 128
  · have hiff := hex2num_ascii c.toNat hc
    have hlt := hex2num_lt c.toNat hc
    rw [Char.ofNat_toNat] at hiff hlt
    constructor
    · intro h
      exact ⟨hlt d h, (hiff d (hlt d h)).1 h⟩
    · rintro ⟨h1, h2⟩
      exact (hiff d h1).2 h2
  · -- neither a digit nor a letter
    have hbig : ∀ x : Char, x.toNat < 128 → ¬ c ≤ x := by
      intro x hx h
      have : c.toNat ≤ x.toNat := h
      omega
    have hnone : hex2num c = none := by
      unfold hex2num
      rw [if_neg fun h => hbig '9' (by decide) h.2, if_neg fun h => hbig 'f' (by decide) h.2,
        if_neg fun h => hbig 'F' (by decide) h.2]
    have hlow : c.toLower = c := by
      unfold Char.toLower
      split
      · rename_i h
        exact absurd h.2 (hbig 'Z' (by decide))
      · rfl
    rw [hnone, hlow]
    constructor
    · intro h
      cases h
    · rintro ⟨-, rfl⟩
      exact absurd (hexDigit_ascii d) hc

/-- **Reading digits** undoes writing them, whatever their case. -/
theorem hexstr2bin_iff : hexstr2bin t = some b ↔ t.map Char.toLower = Lib.hexlify b := by
  induction t using hexstr2bin.induct generalizing b with
  | case1 =>
    cases b with
    | nil => simp [hexstr2bin, Lib.hexlify]
    | cons x b => simp [hexstr2bin, Lib.hexlify]
  | case2 x =>
    have hlen := Lib.length_hexlify b
    constructor
    · intro h
      cases h
    · intro h
      rw [← h] at hlen
      simp only [List.map_cons, List.map_nil, List.length_cons, List.length_nil] at hlen
      omega
  | case3 x y t ih =>
    simp only [hexstr2bin, Option.bind_eq_some_iff, Option.map_eq_some_iff, hex2num_iff, List.map_cons]
    constructor
    · rintro ⟨a, ⟨ha, hx⟩, d, ⟨hd, hy⟩, b', hb', rfl⟩
      have hval : (UInt8.ofNat (16 * a + d)).toNat = 16 * a + d := by
        rw [UInt8.toNat_ofNat']
        omega
      have h1 : (16 * a + d) / 16 = a := by omega
      have h2 : (16 * a + d) % 16 = d := by omega
      rw [hx, hy, ih.1 hb', Lib.hexlify, Lib.hexlify, List.flatMap_cons, hval, h1, h2]
      rfl
    · intro h
      cases b with
      | nil => cases h
      | cons z b =>
        rw [Lib.hexlify, List.flatMap_cons] at h
        simp only [List.cons_append, List.nil_append, List.cons.injEq] at h
        obtain ⟨hx, hy, ht⟩ := h
        have hz := z.toNat_lt
        refine ⟨z.toNat / 16, ⟨by omega, hx⟩, z.toNat % 16, ⟨by omega, hy⟩, b, ih.2 ht, ?_⟩
        rw [show 16 * (z.toNat / 16) + z.toNat % 16 = z.toNat by omega, UInt8.ofNat_toNat]

/-! ## The grammar -/

/-- A hexadecimal digit. -/
def IsDigit (c : Char) : Prop := (hex2num c).isSome = true

instance (c : Char) : Decidable (IsDigit c) := inferInstanceAs (Decidable (_ = true))

/-- What may stand between `PTK` and the digits. -/
def isSep (c : Char) : Bool := c == ':' || isBlank c

/-- What may stand behind the digits. -/
def isTrail (c : Char) : Bool := c == '\n' || c == '\r' || isBlank c

/-- `PTK` in either case with separators, or nothing. -/
def IsMark (m : Text) : Prop :=
  m = [] ∨ ∃ p seps, m = p ++ seps ∧ p.map Char.toLower = "ptk".toList ∧ ∀ c ∈ seps, isSep c = true

/-- Blanks, the mark, and `2 * n` digits. -/
def PtkBody (n : ℕ) (t hex : Text) : Prop :=
  ∃ blanks mark, t = blanks ++ (mark ++ hex) ∧ (∀ c ∈ blanks, isBlank c = true) ∧ IsMark mark ∧
    hex.length = 2 * n ∧ ∀ c ∈ hex, IsDigit c

/-- A whole message. -/
def PtkLine (n : ℕ) (t hex : Text) : Prop :=
  ∃ body trail, t = body ++ trail ∧ PtkBody n body hex ∧ ∀ c ∈ trail, isTrail c = true

/-- The PTK in the octets behind the digits, for a cipher with this key length. -/
def ptkOfOctets (k : ℕ) (b : Bytes) : Ptk where
  kck := b.take 16
  kek := (b.drop 16).take 16
  tk := (b.drop 32).take k
  installed := false

/-! ## The parser -/

/-- White space at the end of the buffer goes. -/
def trimEnd (t : Text) : Text := t.rdropWhile isTrail

/-- Without the end of the line the buffer is a beginning of the line. -/
theorem trimEnd_le (h : t <+: u ++ ['\n']) : trimEnd t <+: u := by
  have hpre : trimEnd t <+: u ++ ['\n'] := (List.rdropWhile_prefix isTrail t).trans h
  rcases List.prefix_concat_iff.1 hpre with heq | hpre
  · have hne : trimEnd t ≠ [] := by simp [heq]
    have hlast := List.rdropWhile_last_not isTrail t hne
    have hnl : (trimEnd t).getLast hne = '\n' := by simp [heq]
    exact absurd rfl (hnl ▸ hlast)
  · exact hpre

/-- Blanks at the start go, and `PTK` with the separators behind it. -/
def skipMark (t : Text) : Text :=
  if startsWithPtk (t.dropWhile isBlank) then ((t.dropWhile isBlank).drop 3).dropWhile isSep
  else t.dropWhile isBlank

theorem ptkTcpHex_eq (t : Text) : ptkTcpHex t = skipMark (Text.cstr (trimEnd t)) := rfl

/-- A digit is nothing else. -/
theorem IsDigit.plain {c : Char} (h : IsDigit c) :
    isBlank c = false ∧ isSep c = false ∧ isTrail c = false ∧ c.toLower ≠ 'p' ∧ c ≠ '\x00' := by
  obtain ⟨d, hd⟩ := Option.isSome_iff_exists.1 h
  have hne : ∀ x, hex2num x = none → c ≠ x := by
    rintro x hx rfl
    rw [hd] at hx
    cases hx
  have hp : c.toLower ≠ 'p' := by
    rw [(hex2num_iff.1 hd).2]
    intro hp
    have := Lib.hexDigit_mem d
    rw [hp] at this
    exact absurd this (by decide)
  have h1 : c ≠ ' ' := hne ' ' (by decide)
  have h2 : c ≠ '\t' := hne '\t' (by decide)
  have h3 : c ≠ ':' := hne ':' (by decide)
  have h4 : c ≠ '\n' := hne '\n' (by decide)
  have h5 : c ≠ '\r' := hne '\r' (by decide)
  have h6 : c ≠ '\x00' := hne '\x00' (by decide)
  simp [isBlank, isSep, isTrail, h1, h2, h3, h4, h5, h6, hp]

theorem IsDigit.nospace {c : Char} (h : IsDigit c) : Text.isspace c = false := by
  have hnone : ∀ n < 33, hex2num (Char.ofNat n) = none := by decide
  rw [← Bool.not_eq_true]
  intro hc
  simp only [Text.isspace, Bool.or_eq_true, Bool.and_eq_true, decide_eq_true_eq] at hc
  have hno := hnone c.toNat (by omega)
  rw [Char.ofNat_toNat] at hno
  rw [IsDigit, hno] at h
  cases h

/-- Behind blanks and the mark comes the first character that is neither. -/
theorem skipMark_eq {blanks mark : Text} (hb : ∀ c ∈ blanks, isBlank c = true) (hm : IsMark mark)
    {d : Char} (hd : IsDigit d) (t : Text) : skipMark (blanks ++ (mark ++ d :: t)) = d :: t := by
  obtain ⟨h1, h2, -, h4, -⟩ := hd.plain
  have hdrop : (blanks ++ (mark ++ d :: t)).dropWhile isBlank = mark ++ d :: t := by
    rw [List.dropWhile_append_of_pos hb]
    rcases hm with rfl | ⟨p, seps, rfl, hp, -⟩
    · rw [List.nil_append, List.dropWhile_cons_of_neg (by simp [h1])]
    · -- the mark begins with a letter
      cases p with
      | nil => cases hp
      | cons x p =>
        have hx : x.toLower = 'p' := (List.cons.inj hp).1
        have hnb : ¬ isBlank x = true := by
          intro hx'
          simp only [isBlank, Bool.or_eq_true, beq_iff_eq] at hx'
          rcases hx' with rfl | rfl <;> exact absurd hx (by decide)
        rw [List.cons_append, List.cons_append, List.dropWhile_cons_of_neg hnb]
  unfold skipMark
  rw [hdrop]
  rcases hm with rfl | ⟨p, seps, rfl, hp, hs⟩
  · have hno : ¬ startsWithPtk ([] ++ d :: t) = true := by
      intro h
      simp only [startsWithPtk, List.nil_append, List.take_succ_cons, List.map_cons, beq_iff_eq] at h
      exact h4 (List.cons.inj h).1
    rw [if_neg hno, List.nil_append]
  · have hlen : p.length = 3 := by
      have := congrArg List.length hp
      simpa using this
    have hyes : startsWithPtk (p ++ seps ++ d :: t) = true := by
      rw [startsWithPtk, List.append_assoc, List.take_left' hlen, hp]
      rfl
    rw [if_pos hyes, List.append_assoc, List.drop_left' hlen, List.dropWhile_append_of_pos hs,
      List.dropWhile_cons_of_neg (by simp [h2])]

/-- Whatever is skipped is blanks and a mark. -/
theorem skipMark_parts (t : Text) : ∃ blanks mark, t = blanks ++ (mark ++ skipMark t) ∧
    (∀ c ∈ blanks, isBlank c = true) ∧ IsMark mark := by
  have hcut := (List.takeWhile_append_dropWhile (p := isBlank) (l := t)).symm
  have hblank : ∀ c ∈ t.takeWhile isBlank, isBlank c = true := fun c hc =>
    List.mem_takeWhile_imp hc
  unfold skipMark
  generalize t.dropWhile isBlank = u at hcut ⊢
  refine ⟨t.takeWhile isBlank, ?_⟩
  split
  · rename_i hp
    refine ⟨u.take 3 ++ (u.drop 3).takeWhile isSep, ?_, hblank, .inr ⟨_, _, rfl, ?_, ?_⟩⟩
    · rw [List.append_assoc, List.takeWhile_append_dropWhile, List.take_append_drop]
      exact hcut
    · exact beq_iff_eq.1 hp
    · exact fun c hc => List.mem_takeWhile_imp hc
  · exact ⟨[], hcut, hblank, .inl rfl⟩

/-- **The parser behind the end of the buffer**, in terms of the grammar. -/
theorem ptkBody_iff (hn : 0 < n) :
    PtkBody n t hex ↔ skipMark t = hex ∧ hex.length = 2 * n ∧ ∀ c ∈ hex, IsDigit c := by
  constructor
  · rintro ⟨blanks, mark, rfl, hb, hm, hlen, hdig⟩
    refine ⟨?_, hlen, hdig⟩
    cases hex with
    | nil =>
      simp only [List.length_nil] at hlen
      omega
    | cons d hex => exact skipMark_eq hb hm (hdig d List.mem_cons_self) hex
  · rintro ⟨rfl, hlen, hdig⟩
    obtain ⟨blanks, mark, h1, h2, h3⟩ := skipMark_parts t
    exact ⟨blanks, mark, h1, h2, h3, hlen, hdig⟩

theorem PtkBody.length_digits (h : PtkBody n t hex) : hex.length = 2 * n := by
  obtain ⟨-, -, -, -, -, hlen, -⟩ := h
  exact hlen

theorem PtkBody.length_le (h : PtkBody n t hex) : 2 * n ≤ t.length := by
  obtain ⟨blanks, mark, rfl, -, -, hlen, -⟩ := h
  simp only [List.length_append]
  omega

theorem PtkBody.digits (h : PtkBody n t hex) : ∀ c ∈ hex, IsDigit c := by
  obtain ⟨-, -, -, -, -, -, hdig⟩ := h
  exact hdig

theorem PtkBody.unique (hn : 0 < n) (h : PtkBody n t hex) (h' : PtkBody n t hex') : hex = hex' :=
  ((ptkBody_iff hn).1 h).1.symm.trans ((ptkBody_iff hn).1 h').1

/-- The body ends with a digit. -/
theorem PtkBody.trimEnd (hn : 0 < n) (h : PtkBody n t hex) {trail : Text}
    (ht : ∀ c ∈ trail, isTrail c = true) : trimEnd (t ++ trail) = t := by
  obtain ⟨blanks, mark, rfl, -, -, hlen, hdig⟩ := h
  have hne : hex ≠ [] := by
    rintro rfl
    simp only [List.length_nil] at hlen
    omega
  rw [Wpa.trimEnd, Lib.rdropWhile_append_of_all ht]
  obtain ⟨init, d, rfl⟩ : ∃ init d, hex = init ++ [d] :=
    ⟨hex.dropLast, hex.getLast hne, (List.dropLast_append_getLast hne).symm⟩
  have hd := (hdig d (by simp)).plain.2.2.1
  rw [← List.append_assoc, ← List.append_assoc,
    List.rdropWhile_concat_neg _ _ _ (by simp [hd])]

/-- **White space at the end** is all that a message has besides its body. -/
theorem ptkLine_iff (hn : 0 < n) : PtkLine n t hex ↔ PtkBody n (trimEnd t) hex := by
  constructor
  · rintro ⟨body, trail, rfl, hb, ht⟩
    rwa [hb.trimEnd hn ht]
  · intro h
    refine ⟨trimEnd t, t.rtakeWhile isTrail, ?_, h, ?_⟩
    · exact List.rdropWhile_append_rtakeWhile.symm
    · exact fun c hc => List.mem_rtakeWhile_imp hc

theorem PtkLine.unique (hn : 0 < n) (h : PtkLine n t hex) (h' : PtkLine n t hex') : hex = hex' :=
  ((ptkLine_iff hn).1 h).unique hn ((ptkLine_iff hn).1 h')

/-! ## The decoder -/

theorem isDigit_of_octets (h : hex.map Char.toLower = Lib.hexlify b) : ∀ c ∈ hex, IsDigit c := by
  intro c hc
  have hmem : c.toLower ∈ Lib.hexlify b := h ▸ List.mem_map_of_mem hc
  obtain ⟨d, hd, hx⟩ := Lib.exists_hexDigit (Lib.mem_hexlify hmem)
  exact Option.isSome_iff_exists.2 ⟨d, hex2num_iff.2 ⟨hd, hx⟩⟩

/-- An even number of digits can be read. -/
theorem exists_octets (hlen : hex.length = 2 * n) (h : ∀ c ∈ hex, IsDigit c) :
    ∃ b, hex.map Char.toLower = Lib.hexlify b := by
  induction n generalizing hex with
  | zero =>
    obtain rfl : hex = [] := List.eq_nil_of_length_eq_zero hlen
    exact ⟨[], rfl⟩
  | succ n ih =>
    match hex, hlen with
    | x :: y :: hex, hlen =>
      have hlen' : hex.length = 2 * n := by
        simp only [List.length_cons] at hlen
        omega
      obtain ⟨b, hb⟩ := ih hlen' fun c hc => h c (by simp [hc])
      obtain ⟨d, hd⟩ := Option.isSome_iff_exists.1 (h x (by simp))
      obtain ⟨d', hd'⟩ := Option.isSome_iff_exists.1 (h y (by simp))
      have hread : hexstr2bin (x :: y :: hex) = some (UInt8.ofNat (16 * d + d') :: b) := by
        rw [hexstr2bin, hd, hd', hexstr2bin_iff.2 hb]
        rfl
      exact ⟨_, hexstr2bin_iff.1 hread⟩

/-- **What the handlers decode.** The octets are those of the digits behind blanks and the mark, up
to the first NUL of what white space at the end leaves. -/
theorem decodePtk_iff {p : Ptk} : decodePtk k t = some p ↔
    ∃ hex b, PtkBody (32 + k) (Text.cstr (trimEnd t)) hex ∧ hex.map Char.toLower = Lib.hexlify b ∧
      p = ptkOfOctets k b := by
  have hn : 0 < 32 + k := by omega
  have hraw : decodePtk k t = some p ↔ (ptkTcpHex t).length = 2 * (32 + k) ∧
      ∃ b, hexstr2bin (ptkTcpHex t) = some b ∧ p = ptkOfOctets k b := by
    unfold decodePtk
    simp only
    generalize ptkTcpHex t = hex
    by_cases h0 : hex = []
    · subst h0
      have hne : ¬ ([] : Text).length = 2 * (32 + k) := by
        rw [List.length_nil]
        omega
      rw [if_pos rfl]
      exact iff_of_false nofun fun h => hne h.1
    rw [if_neg h0]
    by_cases hlen : hex.length = 2 * (32 + k)
    · rw [if_neg (not_not.2 hlen), Option.map_eq_some_iff]
      simp [hlen, ptkOfOctets, eq_comm]
    · simp [hlen]
  rw [hraw]
  simp only [ptkBody_iff hn, ← ptkTcpHex_eq, hexstr2bin_iff]
  constructor
  · rintro ⟨hlen, b, hb, hp⟩
    exact ⟨_, b, ⟨rfl, hlen, isDigit_of_octets hb⟩, hb, hp⟩
  · rintro ⟨hex, b, ⟨rfl, hlen, -⟩, hb, hp⟩
    exact ⟨hlen, b, hb, hp⟩

/-- What a message says: the PTK in its digits. -/
def PtkSpec (k : ℕ) (t : Text) (p : Ptk) : Prop :=
  ∃ hex b, PtkLine (32 + k) t hex ∧ hex.map Char.toLower = Lib.hexlify b ∧ p = ptkOfOctets k b

/-- Without a NUL the handlers decode what the buffer says. -/
theorem decodePtk_spec {p : Ptk} (h0 : '\x00' ∉ trimEnd t) : decodePtk k t = some p ↔ PtkSpec k t p := by
  have hn : 0 < 32 + k := by omega
  rw [decodePtk_iff, Text.cstr_of_not_mem h0, PtkSpec]
  simp only [ptkLine_iff hn]

theorem exists_spec : (∃ p, PtkSpec k t p) ↔ ∃ hex, PtkLine (32 + k) t hex := by
  constructor
  · rintro ⟨-, hex, -, h, -⟩
    exact ⟨hex, h⟩
  · rintro ⟨hex, h⟩
    obtain ⟨-, -, -, -, -, hlen, hdig⟩ := (ptkLine_iff (by omega)).1 h
    obtain ⟨b, hb⟩ := exists_octets hlen hdig
    exact ⟨_, hex, b, h, hb, rfl⟩

/-- No message has a NUL. -/
theorem PtkLine.not_nul (h : PtkLine n t hex) : '\x00' ∉ t := by
  obtain ⟨body, trail, rfl, ⟨blanks, mark, rfl, hb, hm, -, hdig⟩, ht⟩ := h
  have hmark : '\x00' ∉ mark := by
    rcases hm with rfl | ⟨p, seps, rfl, hp, hs⟩
    · exact List.not_mem_nil
    · intro h0
      rcases List.mem_append.1 h0 with h0 | h0
      · have := List.mem_map_of_mem (f := Char.toLower) h0
        rw [hp] at this
        exact absurd this (by decide)
      · exact absurd (hs _ h0) (by decide)
  intro h0
  simp only [List.mem_append] at h0
  rcases h0 with (h0 | h0 | h0) | h0
  · exact absurd (hb _ h0) (by decide)
  · exact hmark h0
  · exact (hdig _ h0).plain.2.2.2.2 rfl
  · exact absurd (ht _ h0) (by decide)

/-- Behind a body a longer one goes on with digits. -/
theorem PtkBody.append_digits {m : ℕ} (hn : 0 < n) (hm : 0 < m) (h : PtkBody n (t ++ u) hex)
    (h' : PtkBody m t hex') : hex = hex' ++ u := by
  obtain ⟨blanks, mark, rfl, hb, hmark, hlen, hdig⟩ := h'
  obtain ⟨hskip, -, -⟩ := (ptkBody_iff hn).1 h
  cases hex' with
  | nil =>
    simp only [List.length_nil] at hlen
    omega
  | cons d hex' =>
    -- the parser stops at the same digit
    rw [List.append_assoc, List.append_assoc, List.cons_append,
      skipMark_eq hb hmark (hdig d List.mem_cons_self), ← List.cons_append] at hskip
    exact hskip.symm

/-- What a body begins with, as soon as there are digits in it. -/
theorem PtkBody.beginning (h : PtkBody n t hex) {j : ℕ} (hu : u <+: t)
    (hlen : u.length + 2 * n = t.length + j) :
    ∃ blanks mark, u = blanks ++ (mark ++ hex.take j) ∧ (∀ c ∈ blanks, isBlank c = true) ∧ IsMark mark := by
  obtain ⟨blanks, mark, rfl, hb, hmark, hlen', -⟩ := h
  refine ⟨blanks, mark, ?_, hb, hmark⟩
  have hcut : u.length = (blanks ++ mark).length + j := by
    simp only [List.length_append] at hlen ⊢
    omega
  rw [List.prefix_iff_eq_take.1 hu, hcut, ← List.append_assoc, List.take_append,
    List.take_of_length_le (by omega), List.append_assoc, Nat.add_sub_cancel_left]

/-- **The bodies that a body begins with** end behind an even number of its digits. -/
theorem PtkBody.beginning_iff {m : ℕ} (hn : 0 < n) (hm : 0 < m) (h : PtkBody n t hex) (hu : u <+: t) :
    PtkBody m u hex' ↔ u.length + 2 * n = t.length + 2 * m ∧ hex' = hex.take (2 * m) := by
  constructor
  · intro h'
    obtain ⟨r, rfl⟩ := hu
    have hhex := h.append_digits hn hm h'
    have hlen := h.length_digits
    have hlen' := h'.length_digits
    rw [hhex, List.length_append] at hlen
    rw [List.length_append, hhex]
    exact ⟨by omega, (List.take_left' hlen').symm⟩
  · rintro ⟨hlen, rfl⟩
    have hle := hu.length_le
    obtain ⟨blanks, mark, heq, hb, hmark⟩ := h.beginning (j := 2 * m) hu hlen
    refine ⟨blanks, mark, heq, hb, hmark, ?_, fun c hc => h.digits c (List.mem_of_mem_take hc)⟩
    rw [List.length_take, h.length_digits]
    omega

/-- Nothing is trimmed of a text that a body begins with, if what is left is a body. -/
theorem PtkBody.trimEnd_beginning {m : ℕ} (hn : 0 < n) (hm : 0 < m) (h : PtkBody n t hex) (hu : u <+: t)
    (h' : PtkBody m (Wpa.trimEnd u) hex') : Wpa.trimEnd u = u := by
  obtain ⟨r, rfl⟩ := hu
  have hsplit : Wpa.trimEnd u ++ u.rtakeWhile isTrail = u := List.rdropWhile_append_rtakeWhile
  cases htrail : u.rtakeWhile isTrail with
  | nil => rwa [htrail, List.append_nil] at hsplit
  | cons c trail =>
    -- it would go on with white space, and with a digit
    have hc : isTrail c = true := List.mem_rtakeWhile_imp (by rw [htrail]; exact List.mem_cons_self)
    rw [← hsplit, htrail, List.append_assoc] at h
    have hdig := h.digits c (by rw [h.append_digits hn hm h']; simp)
    rw [hdig.plain.2.2.1] at hc
    cases hc

/-- A longer text is no body, as it has the same number of digits. -/
theorem PtkBody.append_nil (hn : 0 < n) (h : PtkBody n t hex) (h' : PtkBody n (t ++ u) hex') : u = [] := by
  have hlen := ((h'.beginning_iff hn hn (List.prefix_append t u)).1 h).1
  rw [List.length_append] at hlen
  exact List.eq_nil_of_length_eq_zero (by omega)

theorem PtkBody.of_append (hn : 0 < n) (h : PtkBody n t hex) (h' : PtkBody n (t ++ u) hex') :
    hex = hex' := by
  rw [h.append_nil hn h', List.append_nil] at h'
  exact h.unique hn h'

/-- Two messages of which one begins like the other have the same digits. -/
theorem PtkLine.of_prefix (hn : 0 < n) (ht : t <+: u) (h : PtkLine n t hex) (h' : PtkLine n u hex') :
    hex = hex' := by
  have hb := (ptkLine_iff hn).1 h
  have hb' := (ptkLine_iff hn).1 h'
  have hp : trimEnd t <+: u := (List.rdropWhile_prefix isTrail t).trans ht
  have hp' : trimEnd u <+: u := List.rdropWhile_prefix isTrail u
  rcases List.prefix_or_prefix_of_prefix hp hp' with ⟨r, hr⟩ | ⟨r, hr⟩
  · exact hb.of_append hn (hr ▸ hb')
  · exact (hb'.of_append hn (hr ▸ hb)).symm

/-- The first octets of a message, as `recv` returns them, say what the whole message says: with a
NUL in them, the text before it is no body, and otherwise they are a message when the whole is one. -/
def ReadWhole (k : ℕ) (t : Text) : Prop :=
  if '\x00' ∈ trimEnd (t.take ptkTcpRecvMax) then
    ¬ ∃ hex, PtkBody (32 + k) (Text.cstr (trimEnd (t.take ptkTcpRecvMax))) hex
  else (∃ hex, PtkLine (32 + k) (t.take ptkTcpRecvMax) hex) ↔ ∃ hex, PtkLine (32 + k) t hex

/-- **When the handlers accept exactly the grammar.** -/
theorem decoded_iff : (∀ p, decodePtk k (t.take ptkTcpRecvMax) = some p ↔ PtkSpec k t p) ↔
    ReadWhole k t := by
  have hn : 0 < 32 + k := by omega
  unfold ReadWhole
  split
  · rename_i h0
    have hspec : ∀ p, ¬ PtkSpec k t p := by
      rintro p ⟨hex, b, h, -⟩
      exact h.not_nul (List.mem_of_mem_take ((List.rdropWhile_prefix isTrail _).subset h0))
    simp only [decodePtk_iff, hspec, iff_false]
    constructor
    · rintro h ⟨hex, hb⟩
      obtain ⟨-, -, -, -, -, hlen, hdig⟩ := id hb
      obtain ⟨b, hb'⟩ := exists_octets hlen hdig
      exact h _ ⟨hex, b, hb, hb', rfl⟩
    · rintro h p ⟨hex, -, hb, -⟩
      exact h ⟨hex, hb⟩
  · rename_i h0
    simp only [decodePtk_spec h0, ← exists_spec]
    constructor
    · intro h
      exact exists_congr h
    · intro h p
      have hsame : ∀ q q', PtkSpec k (t.take ptkTcpRecvMax) q → PtkSpec k t q' → q = q' := by
        rintro q q' ⟨hex, b, h1, h2, rfl⟩ ⟨hex', b', h1', h2', rfl⟩
        have heq : hex = hex' := h1.of_prefix hn (List.take_prefix _ _) h1'
        have hb : hexstr2bin hex = some b := hexstr2bin_iff.2 h2
        rw [heq, hexstr2bin_iff.2 h2', Option.some.injEq] at hb
        rw [hb]
      constructor
      · intro hp
        obtain ⟨q, hq⟩ := h.1 ⟨p, hp⟩
        rwa [hsame p q hp hq]
      · intro hp
        obtain ⟨q, hq⟩ := h.2 ⟨p, hp⟩
        rwa [← hsame q p hq hp]

end Lightguard.Wpa
