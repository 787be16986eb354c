import Lightguard.Lib.Python
import Lightguard.Rotation.Manager

/-!
# The rounds of the LiFi system manager

The loop of `system_manager.py`: fetch a passphrase, have it confirmed by the STA, flush hostapd's PMKSA
cache, write the setptk line and record the trigger. Every step may fail, and most of them keep it to
themselves.

* `round_confirmed`, `round_refused`: what a round does, by what the STA has confirmed.
* `failsClosed_iff`: the rounds of a run that fail closed.
-/

namespace Lightguard.Rotation

open Lib.Python (Ran)

/-- How the connection to the passphrase server ends: with what one `recv` returns, or an exception. -/
inductive Fetch where
  | received (data : Bytes)
  | raised

/-- How `connect` and `sendall` end for the setptk line: an exception leaves its first `n` characters on
the wire. -/
inductive LineSent where
  | ok
  | raised (n : ℕ)

/-- How every step of a round ends, if it is made. `ack` is what the STA's reply decodes to and `mark` the
time that is written, `none` standing for an exception. -/
structure RoundOutcomes where
  fetch : Fetch
  ack : Option Text
  flush : Ran
  line : LineSent
  mark : Option ℕ

/-- What a round does to others. -/
inductive Act where
  /-- `pmksa_flush`, and whether hostapd has done it. -/
  | flush (ok : Bool)
  /-- The line `cmd` is written, and `sent` of it gets through. -/
  | line (cmd sent : Text)
  | trigger (t : ℕ)
  /-- `disconnect_wifi_link` is called. -/
  | disconnect
deriving DecidableEq

/-- `data.decode('ascii')`. -/
def asciiDecode (data : Bytes) : Option Text :=
  if data.all (· < 128) then some (data.map fun b => Char.ofNat b.toNat) else none

/-- `get_passphrase` on `latest_passphrase`, and whether it returns True. -/
def getPassphrase (latest : Text) (o : Fetch) : Text × Bool :=
  match o with
  | .raised => (latest, false)
  | .received data =>
    match asciiDecode (data.take 64) with
    | none | some [] => (latest, false)
    | some passwd => (passwd, true)

/-- `_hostapd_cli_cmd`. -/
def hostapdCliCmd (o : Ran) : Bool :=
  match o with
  | .exited status _ => status = 0
  | .raised => false

/-- The part of the line that gets through. -/
def LineSent.part (o : LineSent) (cmd : Text) : Text :=
  match o with
  | .ok => cmd
  | .raised n => cmd.take n

variable (sha256 : Text → Text) (mac : Text)

/-- `send_to_sta`, by the STA's reply. -/
def sendToStaReply (passphrase : Text) (ack : Option Text) : Bool :=
  match ack with
  | none => false
  | some ack => checkAck (sha256 passphrase) ack

/-- `send_rekey`. -/
def sendRekey (latest : Text) (o : LineSent) : List Act :=
  [.line (rekeyCmd mac latest) (o.part (rekeyCmd mac latest))]

/-- `mark_rekey_triggered`. -/
def markRekeyTriggered (o : Option ℕ) : List Act :=
  match o with
  | some t => [.trigger t]
  | none => []

/-- One round of `main`, on `latest_passphrase`. -/
def managerRound (latest : Text) (o : RoundOutcomes) : Text × List Act :=
  match getPassphrase latest o.fetch with
  | (latest, false) => (latest, [.disconnect])
  | (latest, true) =>
    if sendToStaReply sha256 latest o.ack then
      -- the results of the three steps are not looked at
      (latest, .flush (hostapdCliCmd o.flush) ::
        (sendRekey mac latest o.line ++ markRekeyTriggered o.mark))
    else (latest, [.disconnect])

/-- `main`: what every round does. -/
def managerRounds : Text → List RoundOutcomes → List (List Act)
  | _, [] => []
  | latest, o :: os =>
    let (latest, acts) := managerRound sha256 mac latest o
    acts :: managerRounds latest os

/-! ## Failing closed -/

/-- A round **fails closed** when the whole line is written after a flush that hostapd has done, and the
trigger is recorded, or `disconnect_wifi_link` is called. -/
def FailsClosed (acts : List Act) : Prop :=
  (∃ cmd t, List.Sublist [.flush true, .line cmd cmd, .trigger t] acts) ∨ .disconnect ∈ acts

/-- The passphrase that a round fetches and the STA confirms. -/
def Confirmed (o : RoundOutcomes) (p : Text) : Prop :=
  (∃ data, o.fetch = .received data ∧ asciiDecode (data.take 64) = some p) ∧ p ≠ [] ∧
    ∃ ack, o.ack = some ack ∧ checkAck (sha256 p) ack = true

variable {sha256 mac} {latest p : Text} {o : RoundOutcomes}

theorem getPassphrase_true {q : Text} : getPassphrase latest o.fetch = (q, true) ↔
    (∃ data, o.fetch = .received data ∧ asciiDecode (data.take 64) = some q) ∧ q ≠ [] := by
  unfold getPassphrase
  constructor
  · intro h
    split at h
    · simp at h
    · rename_i data hdata
      split at h
      · simp at h
      · simp at h
      · rename_i passwd hne hdec
        simp only [Prod.mk.injEq, and_true] at h
        subst h
        exact ⟨⟨data, hdata, hdec⟩, hne⟩
  · rintro ⟨⟨data, hdata, hdec⟩, hne⟩
    obtain ⟨c, t, rfl⟩ := List.exists_cons_of_ne_nil hne
    simp only [hdata, hdec]

theorem confirmed_iff : Confirmed sha256 o p ↔
    getPassphrase latest o.fetch = (p, true) ∧ sendToStaReply sha256 p o.ack = true := by
  rw [getPassphrase_true, Confirmed, ← and_assoc]
  refine and_congr_right fun _ => ?_
  cases o.ack with
  | none => simp [sendToStaReply]
  | some ack => simp [sendToStaReply]

/-- **A round that rekeys**: the three steps, one after the other. -/
theorem round_confirmed (h : Confirmed sha256 o p) : managerRound sha256 mac latest o =
    (p, .flush (hostapdCliCmd o.flush) :: .line (rekeyCmd mac p) (o.line.part (rekeyCmd mac p)) ::
      markRekeyTriggered o.mark) := by
  obtain ⟨h1, h2⟩ := (@confirmed_iff sha256 latest p o).1 h
  simp only [managerRound, h1, h2, if_true, sendRekey, List.singleton_append]

/-- **A round that does not**: `disconnect_wifi_link` is called. -/
theorem round_refused (h : ∀ p, ¬ Confirmed sha256 o p) :
    (managerRound sha256 mac latest o).2 = [.disconnect] := by
  unfold managerRound
  split
  · rfl
  · rename_i q hq
    rw [if_neg fun hack => h q (confirmed_iff.2 ⟨hq, hack⟩)]

/-- What the three steps of a rekey leave. -/
theorem failsClosed_rekey {ok : Bool} {cmd sent : Text} {mark : Option ℕ} :
    FailsClosed (.flush ok :: .line cmd sent :: markRekeyTriggered mark) ↔
      ok = true ∧ sent = cmd ∧ ∃ t, mark = some t := by
  constructor
  · rintro (⟨c, t, hsub⟩ | hdisc)
    · have hflush : Act.flush true ∈ .flush ok :: .line cmd sent :: markRekeyTriggered mark :=
        hsub.subset (by simp)
      have hline : Act.line c c ∈ .flush ok :: .line cmd sent :: markRekeyTriggered mark :=
        hsub.subset (by simp)
      have hmark : Act.trigger t ∈ .flush ok :: .line cmd sent :: markRekeyTriggered mark :=
        hsub.subset (by simp)
      cases mark with
      | none => simp [markRekeyTriggered] at hmark
      | some u =>
        simp only [markRekeyTriggered, List.mem_cons, Act.flush.injEq, Act.line.injEq, reduceCtorEq,
          List.not_mem_nil, or_false, false_or] at hflush hline
        exact ⟨hflush.symm, hline.2.symm.trans hline.1, u, rfl⟩
    · cases mark <;> simp [markRekeyTriggered] at hdisc
  · rintro ⟨rfl, rfl, t, rfl⟩
    exact Or.inl ⟨sent, t, List.Sublist.refl _⟩

/-- **One round.** -/
theorem round_failsClosed_iff : FailsClosed (managerRound sha256 mac latest o).2 ↔
    ∀ p, Confirmed sha256 o p → hostapdCliCmd o.flush = true ∧
      o.line.part (rekeyCmd mac p) = rekeyCmd mac p ∧ ∃ t, o.mark = some t := by
  by_cases h : ∃ p, Confirmed sha256 o p
  · obtain ⟨p, hp⟩ := h
    have honly : ∀ q, Confirmed sha256 o q → q = p := by
      intro q hq
      have h1 := ((@confirmed_iff sha256 latest q o).1 hq).1
      have h2 := ((@confirmed_iff sha256 latest p o).1 hp).1
      rw [h1] at h2
      exact congrArg Prod.fst h2
    rw [round_confirmed hp, failsClosed_rekey]
    constructor
    · intro hall q hq
      rwa [honly q hq]
    · exact fun hall => hall p hp
  · push Not at h
    rw [round_refused h]
    exact iff_of_true (Or.inr (by simp)) fun p hp => absurd hp (h p)

/-- **When the rounds fail closed.** In every run of `main`, a round fails closed if and only if the
passphrase has not been fetched or the STA has not confirmed it, or hostapd has flushed its cache, the
whole line was written and the trigger was recorded. -/
theorem failsClosed_iff (sha256 : Text → Text) (mac latest : Text) (os : List RoundOutcomes) :
    List.Forall₂ (fun o acts => FailsClosed acts ↔
      ∀ p, Confirmed sha256 o p → hostapdCliCmd o.flush = true ∧
        o.line.part (rekeyCmd mac p) = rekeyCmd mac p ∧ ∃ t, o.mark = some t)
      os (managerRounds sha256 mac latest os) := by
  induction os generalizing latest with
  | nil => exact .nil
  | cons o os ih => exact .cons round_failsClosed_iff (ih _)

/-- A round in which only the flush fails. -/
def unflushed : RoundOutcomes where
  fetch := .received [108, 105, 102, 105, 45, 50, 48, 50, 52]
  ack := some ("ACK ".toList ++ List.replicate 64 'a')
  flush := .exited 255 []
  line := .ok
  mark := some 1

/-- The flush fails, and the rekey goes on. -/
theorem unflushed_goes_on :
    managerRounds (fun _ => List.replicate 64 'a') [] [] [unflushed] =
        [[.flush false, .line (rekeyCmd [] "lifi-2024".toList) (rekeyCmd [] "lifi-2024".toList),
          .trigger 1]] ∧
      ¬ ∀ (sha256 : Text → Text) (mac latest : Text) (os : List RoundOutcomes),
        ∀ acts ∈ managerRounds sha256 mac latest os, FailsClosed acts := by
  have hconf : Confirmed (fun _ => List.replicate 64 'a') unflushed "lifi-2024".toList :=
    ⟨⟨_, rfl, rfl⟩, by simp, _, rfl,
      checkAck_ack List.length_replicate fun c hc => by rw [List.eq_of_mem_replicate hc]; rfl⟩
  have hrun : managerRounds (fun _ => List.replicate 64 'a') [] [] [unflushed] =
      [[.flush false, .line (rekeyCmd [] "lifi-2024".toList) (rekeyCmd [] "lifi-2024".toList),
        .trigger 1]] := by
    simp only [managerRounds, round_confirmed hconf]
    rfl
  refine ⟨hrun, fun h => ?_⟩
  have hclosed := h (fun _ => List.replicate 64 'a') [] [] [unflushed]
  rw [hrun] at hclosed
  have hflush := (@failsClosed_rekey false _ _ (some 1)).1 (hclosed _ List.mem_cons_self)
  exact absurd hflush.1 (by decide)

end Lightguard.Rotation
