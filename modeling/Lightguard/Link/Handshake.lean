import Lightguard.Link.World

/-!
# The 4-way handshake on the WiFi link

hostapd installs the PTK it has derived, the station's `wpa_supplicant_install_ptk` the test
PTK.

* `handshake_agreement`: after PTKINITDONE on one end and message 3/4 on the other the keys
  agree exactly when hostapd's are those of the test PTK.
* `handshake_disagrees`: an undisturbed handshake as the fallback of the fast path.
-/

namespace Lightguard.Link

open Wpa

variable {c : Conf} {i : Start} {w : World} {es : List Event}

/-- The keys of the two ends agree: the TKs in the drivers, and KCK and KEK in the daemons. -/
structure Agree (w : World) : Prop where
  tk : Auth.driverTk w.1.trace = Supp.driverTk w.2.trace
  kck : w.1.ptk.kck = w.2.ptk.kck
  kek : w.1.ptk.kek = w.2.ptk.kek

/-- What hostapd keeps after PTKINITDONE, while nothing writes `sm->PTK`. -/
theorem ap_keys (hc : c.Wifi) (h : run c i.world es = some w) {K : Ptk} {new old : List Auth.Out}
    (htr : w.1.trace = new ++ .ptkinitdone K :: old) (hk : ∀ o ∈ new, o.keepsPtk = true) :
    w.1.ptk = K ∧ Auth.storedPtk (.ptkinitdone K :: old) = K := by
  have hends := Ends.of_run hc h
  have hold : Auth.storedPtk (.ptkinitdone K :: old) = K :=
    Lib.always_iff.1 hends.stored.always _ _ _ htr
  refine ⟨?_, hold⟩
  rw [← hends.stored.ptk, htr, Auth.storedPtk_keeps hk, hold]

/-- What the station keeps after a message 3/4, while nothing changes its keys. -/
theorem sta_keys (hc : c.Wifi) (h : run c i.world es = some w) {f : EapolKey}
    {new old : List Supp.Out} (htr : w.2.trace = new ++ .msg3Ok f :: old)
    (hk : ∀ o ∈ new, o.keepsKeys = true) (hi : f.install = true) (hlen : f.keyLength ≠ 0) :
    w.2.ptk.kck = customTestPtk.kck ∧ w.2.ptk.kek = customTestPtk.kek ∧
      Supp.driverTk w.2.trace = some customTestPtk.tk := by
  have hsta := (Ends.of_run hc h).sta
  have hrule : Supp.TestKeys old := Lib.always_iff.1 hsta.always _ _ _ htr hi hlen
  have hkeys : Supp.TestKeys w.2.trace := by
    rw [htr, ← List.singleton_append, ← List.append_assoc]
    refine hrule.keeps fun o ho => ?_
    rcases List.mem_append.1 ho with ho | ho
    · exact hk o ho
    · rw [List.mem_singleton.1 ho]
      rfl
  refine ⟨?_, ?_, hkeys.2⟩
  · rw [hsta.kck, hkeys.1]
  · rw [hsta.kek, hkeys.1]

/-- **When the handshake agrees.** In every run in which hostapd has entered PTKINITDONE with
`K` and its driver holds `tk`, and the station has processed a message 3/4 with the Install
bit for a cipher of 16 octets, and the keys were not touched since: the ends agree exactly
when `K` and `tk` are those of the test PTK. A TK that was handed over in PTKINITDONE is that
of `K`, and `K` was derived from a configured PMK or written by the fork. -/
theorem handshake_agreement (hc : c.Wifi) (h : run c i.world es = some w) {K : Ptk} {tk : Bytes}
    {newA oldA : List Auth.Out} (hA : w.1.trace = newA ++ .ptkinitdone K :: oldA)
    (hkA : ∀ o ∈ newA, o.keepsPtk = true) (htk : Auth.driverTk w.1.trace = some tk)
    {f : EapolKey} {newS oldS : List Supp.Out} (hS : w.2.trace = newS ++ .msg3Ok f :: oldS)
    (hkS : ∀ o ∈ newS, o.keepsKeys = true) (hi : f.install = true) (hlen : f.keyLength = 16) :
    (Agree w ↔ K.kck = customTestPtk.kck ∧ K.kek = customTestPtk.kek ∧ tk = customTestPtk.tk) ∧
      ((∃ site idx key, .setKey site idx key true ∈ newA) → tk = K.tkBuf tk.length) ∧
      ∃ src, Auth.lastPtk oldA = some (src, K) ∧
        Auth.Genuine c.ap (Auth.Configured i.neg i.psks (es.filterMap Sum.getLeft?)) K src := by
  obtain ⟨hptk, hold⟩ := ap_keys hc h hA hkA
  obtain ⟨hkck, hkek, hdrv⟩ := sta_keys hc h hS hkS hi (by rw [hlen]; decide)
  refine ⟨⟨fun hag => ?_, fun ⟨h1, h2, h3⟩ => ?_⟩, fun ⟨site, idx, key, hm⟩ => ?_, ?_⟩
  · refine ⟨?_, ?_, ?_⟩
    · rw [← hptk, hag.kck, hkck]
    · rw [← hptk, hag.kek, hkek]
    · have := hag.tk
      rw [htk, hdrv] at this
      exact Option.some.inj this
  · exact ⟨by rw [htk, hdrv, h3], by rw [hptk, h1, hkck], by rw [hptk, h2, hkek]⟩
  · have hal := (Ends.of_run hc h).stored.always
    rw [hA] at hal htk
    have := Auth.handed_of_keeps hal hkA hm htk
    rwa [hold] at this
  · have hport := (Auth.run_port (Lib.run_fst h)).always
    obtain ⟨src, h1, h2, -⟩ : Auth.VerifiedAs _ _ K oldA := Lib.always_iff.1 hport _ _ _ hA
    exact ⟨src, h1, h2⟩

/-- What message 3/4 was the last the station did: its Install bit and the key length. -/
def msg3Taken : List Supp.Out → Option (Bool × ℕ)
  | .msg3Ok f :: _ => some (f.install, f.keyLength)
  | _ => none

/-- **A plain handshake** ends with two different keys. -/
theorem plain_handshake : ∃ w, run (plainConf .wifi) plainStart.world (plainHandshake .wifi) = some w ∧
    w.1.trace.take 4 = [.portValid .ptkinitdone, .authorized .ptkinitdone,
      .setKey .ptkinitdone 0 plainKeys.tk true, .ptkinitdone plainKeys] ∧
    Auth.driverTk w.1.trace = some plainKeys.tk ∧
    Supp.driverTk w.2.trace = some customTestPtk.tk ∧ msg3Taken w.2.trace = some (true, 16) := by
  have heval : (run (plainConf .wifi) plainStart.world (plainHandshake .wifi)).map (fun w =>
      (w.1.trace.take 4, Auth.driverTk w.1.trace, Supp.driverTk w.2.trace, msg3Taken w.2.trace)) =
      some ([.portValid .ptkinitdone, .authorized .ptkinitdone,
        .setKey .ptkinitdone 0 plainKeys.tk true, .ptkinitdone plainKeys],
        some plainKeys.tk, some customTestPtk.tk, some (true, 16)) := rfl
  obtain ⟨w, hw, hval⟩ := Option.map_eq_some_iff.1 heval
  simp only [Prod.mk.injEq] at hval
  exact ⟨w, hw, hval⟩

/-- The traces of the two ends cut at PTKINITDONE and at message 3/4. -/
theorem plain_handshake_cut : ∃ w oldA oldS, ∃ f : EapolKey,
    run (plainConf .wifi) plainStart.world (plainHandshake .wifi) = some w ∧
    w.1.trace = [.portValid .ptkinitdone, .authorized .ptkinitdone,
      .setKey .ptkinitdone 0 plainKeys.tk true] ++ .ptkinitdone plainKeys :: oldA ∧
    Auth.driverTk w.1.trace = some plainKeys.tk ∧ w.2.trace = [] ++ .msg3Ok f :: oldS ∧
    f.install = true ∧ f.keyLength = 16 ∧ Supp.driverTk w.2.trace = some customTestPtk.tk := by
  obtain ⟨w, hw, h1, h2, h3, h4⟩ := plain_handshake
  have hA := (List.take_append_drop 4 w.1.trace).symm
  rw [h1] at hA
  cases hS : w.2.trace with
  | nil => rw [hS] at h4; cases h4
  | cons o oldS =>
    rw [hS] at h4
    cases o with
    | msg3Ok f =>
      simp only [msg3Taken, Option.some.injEq, Prod.mk.injEq] at h4
      exact ⟨w, _, oldS, f, hw, hA, h2, hS, h4.1, h4.2, h3⟩
    | _ => cases h4

/-- `handshake_agreement` for the plain handshake. -/
theorem handshake_agreement_plain : ∃ w,
    run (plainConf .wifi) plainStart.world (plainHandshake .wifi) = some w ∧ ¬ Agree w := by
  obtain ⟨w, oldA, oldS, f, hw, hA, htk, hS, hi, hlen, -⟩ := plain_handshake_cut
  refine ⟨w, hw, ?_⟩
  rw [(handshake_agreement plainConf_wifi hw hA (by decide) htk hS (by simp) hi hlen).1]
  rintro ⟨h, -⟩
  exact absurd h (by decide)

/-- The handshake does not always end with one key. -/
theorem handshake_disagrees : ¬ ∀ (c : Conf) (i : Start) (es : List Event) (w : World), c.Wifi →
    run c i.world es = some w → ∀ (K : Ptk) (tk : Bytes) (f : EapolKey) (newA oldA : List Auth.Out)
      (newS oldS : List Supp.Out), w.1.trace = newA ++ .ptkinitdone K :: oldA →
      (∀ o ∈ newA, o.keepsPtk = true) → Auth.driverTk w.1.trace = some tk →
      w.2.trace = newS ++ .msg3Ok f :: oldS → (∀ o ∈ newS, o.keepsKeys = true) →
      f.install = true → f.keyLength = 16 → Agree w := by
  intro hall
  obtain ⟨w, oldA, oldS, f, hw, hA, htk, hS, hi, hlen, hsta⟩ := plain_handshake_cut
  have hag := hall _ _ _ w plainConf_wifi hw _ _ f _ oldA [] oldS hA (by decide) htk hS (by simp) hi hlen
  have := hag.tk
  rw [htk, hsta] at this
  exact absurd this (by decide)

end Lightguard.Link
