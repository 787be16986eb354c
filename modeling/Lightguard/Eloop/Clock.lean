import Mathlib.Algebra.Order.Ring.Int

/-!
# The clock of the event loop

`struct os_reltime` with `os_reltime_before` and `os_reltime_sub` (`os.h`), and the time at which a timeout
is due (`eloop_register_timeout`). Seconds are 64 bit integers that wrap around; the clock runs from the
start of the system.

* `before_iff`, `after_iff`, `sub_before_iff`: what the C code computes, in microseconds.
-/

namespace Lightguard.Eloop

/-- `struct os_reltime`. -/
structure Reltime where
  sec : Int64
  usec : ℕ
deriving DecidableEq

/-- `os_reltime_before`. -/
def Reltime.before (a b : Reltime) : Bool := a.sec < b.sec || a.sec == b.sec && a.usec < b.usec

/-- What `os_get_reltime` returns, and what is computed from it. -/
abbrev Clock := { t : Reltime // 0 ≤ t.sec ∧ t.usec < 1000000 }

/-- When the system starts. -/
def Clock.zero : Clock := ⟨⟨0, 0⟩, by decide⟩

namespace Clock

/-- The time in microseconds. -/
def micros (t : Clock) : ℤ := t.1.sec.toInt * 1000000 + t.1.usec

/-- `timeout->time` of a new timeout: `secs` and `usecs` from now on; `none` when the seconds overflow. The
loop of the source carries the whole seconds of `usec` one by one. -/
def after (now : Clock) (secs usecs : UInt32) : Option Clock :=
  let sec := now.1.sec + Int64.ofNat secs.toNat
  let usec := now.1.usec + usecs.toNat
  if sec < now.1.sec then none
  else if h : now.1.sec ≤ sec + Int64.ofNat (usec / 1000000) then
    some ⟨⟨sec + Int64.ofNat (usec / 1000000), usec % 1000000⟩,
      Int64.le_trans now.2.1 h, Nat.mod_lt _ (by decide)⟩
  else none

/-- `os_reltime_sub`. -/
def sub (a b : Clock) : Reltime :=
  if b.1.usec ≤ a.1.usec then ⟨a.1.sec - b.1.sec, a.1.usec - b.1.usec⟩
  else ⟨a.1.sec - b.1.sec - 1, a.1.usec + 1000000 - b.1.usec⟩

variable {a b now t : Clock} {secs usecs : UInt32}

theorem sec_nonneg (t : Clock) : 0 ≤ t.1.sec.toInt := Int64.le_iff_toInt_le.1 t.2.1

theorem before_iff : a.1.before b.1 = true ↔ a.micros < b.micros := by
  have ha := a.2.2
  have hb := b.2.2
  simp only [Reltime.before, Bool.or_eq_true, Bool.and_eq_true, beq_iff_eq, decide_eq_true_eq, micros,
    Int64.lt_iff_toInt_lt, ← Int64.toInt_inj]
  omega

theorem micros_inj (h : a.micros = b.micros) : a = b := by
  have ha := a.2.2
  have hb := b.2.2
  simp only [micros] at h
  have hsec : a.1.sec = b.1.sec := Int64.toInt_inj.1 (by omega)
  have husec : a.1.usec = b.1.usec := by
    rw [hsec] at h
    omega
  obtain ⟨⟨s, u⟩, hs⟩ := a
  obtain ⟨⟨s', u'⟩, hs'⟩ := b
  obtain rfl : s = s' := hsec
  obtain rfl : u = u' := husec
  rfl

/-- Adding to seconds that are no less than `r`: the sum has overflowed exactly when it is less. -/
theorem le_add_iff {r s : Int64} (hr : 0 ≤ r.toInt) (hs : r.toInt ≤ s.toInt) {n : ℕ} (hn : n < 2 ^ 33) :
    r ≤ s + Int64.ofNat n ↔ (s + Int64.ofNat n).toInt = s.toInt + n := by
  have hlt := s.toInt_lt
  rw [Int64.le_iff_toInt_le, Int64.toInt_add, Int64.toInt_ofNat_of_lt (by omega), Int.bmod_def]
  split <;> omega

/-- Without an overflow the sum is the one of the integers. -/
theorem toInt_add_ofNat {s : Int64} (hs : 0 ≤ s.toInt) {n : ℕ} (hn : n < 2 ^ 33) (h : s.toInt + n < 2 ^ 63) :
    (s + Int64.ofNat n).toInt = s.toInt + n := by
  rw [Int64.toInt_add, Int64.toInt_ofNat_of_lt (by omega), Int.bmod_def]
  split <;> omega

/-- **When a timeout is due.** -/
theorem after_iff : now.after secs usecs = some t ↔
    t.micros = now.micros + secs.toNat * 1000000 + usecs.toNat := by
  have hnow := now.sec_nonneg
  have hsecs := secs.toNat_lt
  have husecs := usecs.toNat_lt
  have husec := now.2.2
  have hfirst := le_add_iff hnow le_rfl (n := secs.toNat) (by omega)
  constructor
  · intro h
    unfold after at h
    simp only at h
    split at h
    · cases h
    split at h
    · rename_i h1 h2
      obtain rfl := Option.some.inj h
      have hs := hfirst.1 (Int64.not_lt.1 h1)
      have hcarry := (le_add_iff hnow (by omega) (by omega)).1 h2
      simp only [micros, hcarry, hs]
      omega
    · cases h
  · intro h
    have htlt := t.1.sec.toInt_lt
    have ht := t.2.2
    have hs := toInt_add_ofNat hnow (n := secs.toNat) (by omega) (by simp only [micros] at h; omega)
    have hcarry := toInt_add_ofNat (s := now.1.sec + Int64.ofNat secs.toNat) (by omega)
      (n := (now.1.usec + usecs.toNat) / 1000000) (by omega) (by simp only [micros] at h; omega)
    have h1 : ¬ now.1.sec + Int64.ofNat secs.toNat < now.1.sec := Int64.not_lt.2 (hfirst.2 hs)
    have h2 := (le_add_iff hnow (by omega) (by omega)).2 hcarry
    rw [after, if_neg h1, dif_pos h2, Option.some.injEq]
    refine micros_inj ?_
    rw [h]
    simp only [micros, hcarry, hs]
    omega

/-- What is left of a timeout is more (less) than what is asked for exactly when it is due after (before)
that much time from now. -/
theorem sub_before_iff {u : ℕ} (hu : u < 1000000) (secs : UInt32) :
    (Reltime.before ⟨Int64.ofNat secs.toNat, u⟩ (a.sub b) = true ↔
      b.micros + secs.toNat * 1000000 + u < a.micros) ∧
    ((a.sub b).before ⟨Int64.ofNat secs.toNat, u⟩ = true ↔
      a.micros < b.micros + secs.toNat * 1000000 + u) := by
  have ha := a.sec_nonneg
  have hb := b.sec_nonneg
  have halt := a.1.sec.toInt_lt
  have hblt := b.1.sec.toInt_lt
  have hau := a.2.2
  have hbu := b.2.2
  have hsecs := secs.toNat_lt
  have hsec := Int64.toInt_ofNat_of_lt (n := secs.toNat) (by omega)
  have hsub : (a.1.sec - b.1.sec).toInt = a.1.sec.toInt - b.1.sec.toInt := by
    rw [Int64.toInt_sub, Int.bmod_def]
    split <;> omega
  have hsub' : (a.1.sec - b.1.sec - 1).toInt = a.1.sec.toInt - b.1.sec.toInt - 1 := by
    rw [Int64.toInt_sub, hsub, show (1 : Int64).toInt = 1 from rfl, Int.bmod_def]
    split <;> omega
  unfold sub
  split
  · simp only [Reltime.before, Bool.or_eq_true, Bool.and_eq_true, beq_iff_eq, decide_eq_true_eq, micros,
      Int64.lt_iff_toInt_lt, ← Int64.toInt_inj, hsec, hsub]
    omega
  · simp only [Reltime.before, Bool.or_eq_true, Bool.and_eq_true, beq_iff_eq, decide_eq_true_eq, micros,
      Int64.lt_iff_toInt_lt, ← Int64.toInt_inj, hsec, hsub']
    omega

end Clock

end Lightguard.Eloop
