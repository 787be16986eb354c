import Lightguard.Auth.Export
import Lightguard.Link.World
import Lightguard.Supp.Export

/-!
# What the LiFi link exports

`wpa_pmk_to_ptk` pushes a PTK to port 8877 as soon as it has derived it; whether the other
end has it as well turns out later.

* `exported_octets`: what is pushed comes from a configured PMK, and a PTK is in use only after
  a MIC has verified under it.
* `exported_unverified`: a message 2/4 with a wrong MIC makes hostapd push a PTK.
-/

namespace Lightguard.Link

open Wpa

variable {c : Conf} {i : Start} {w : World} {es : List Event}

/-- Both ends run the LiFi copies. -/
structure Conf.Lifi (c : Conf) : Prop where
  ap : c.ap.link = .lifi
  sta : c.sta.link = .lifi

theorem plainConf_lifi : (plainConf .lifi).Lifi := ⟨rfl, rfl⟩

/-- On the LiFi link PTKINITDONE is entered with a PTK under which a MIC has verified since
the last (re)association. -/
theorem done_verified (hl : c.ap.link = .lifi) (h : run c i.world es = some w) {K : Ptk}
    {new old : List Auth.Out} (ht : w.1.trace = new ++ .ptkinitdone K :: old) :
    Auth.SinceAssoc (.micVerified K) old := by
  have hport := (Auth.run_port (Lib.run_fst h)).always
  obtain ⟨src, hsrc, -, hmic⟩ : Auth.VerifiedAs _ _ K old := Lib.always_iff.1 hport _ _ _ ht
  rcases hmic with hmic | ⟨rfl, -⟩
  · exact hmic
  -- the LiFi copy writes no PTK of its own
  obtain ⟨o, ho, hread⟩ := Lib.latest_mem hsrc
  obtain ⟨a, b, hcut⟩ := List.append_of_mem ho
  have hrule := Auth.run_export hl (Lib.run_fst h)
  rw [ht, hcut] at hrule
  cases o with
  | newPtk src' K' =>
    simp only [Option.some.injEq, Prod.mk.injEq] at hread
    obtain ⟨rfl, rfl⟩ := hread
    have hcut' : new ++ .ptkinitdone K' :: (a ++ .newPtk .fork K' :: b) =
        (new ++ .ptkinitdone K' :: a) ++ .newPtk .fork K' :: b := by simp
    rw [hcut'] at hrule
    exact absurd rfl (Lib.always_iff.1 hrule _ _ _ rfl).1
  | _ => cases hread

/-- The station associates and answers message 1/4; hostapd receives the forgery. -/
def forgedRun : List Event :=
  toSta (plainConf .lifi) plainStart.world
      [.inr (.setPmk plainPmk.1 none, Supp.calm),
        .inr (.notifyAssoc Addr.first, Supp.calm), .inl (.staAssociated, Auth.calm)] ++
    [.inl (.eapolKey (Auth.plainMsg2 1 (List.replicate 32 9) []), Auth.pushing)]

/-- Whether a MIC has verified. -/
def anyVerified (l : List Auth.Out) : Bool := l.any fun | .micVerified _ => true | _ => false

/-- Both ends push the PTK; hostapd has not verified a MIC. -/
theorem forged_run : ∃ w old old', run (plainConf .lifi) plainStart.world forgedRun = some w ∧
    w.1.trace = [] ++ .pushed plainPtk :: old ∧ anyVerified old = false ∧
    w.2.trace = w.2.trace.take 2 ++ .pushed plainPtk :: old' := by
  have heval : (run (plainConf .lifi) plainStart.world forgedRun).map (fun w =>
      (w.1.trace.head?, anyVerified w.1.trace.tail, w.2.trace[2]?)) =
      some (some (.pushed plainPtk), false, some (.pushed plainPtk)) := rfl
  obtain ⟨w, hw, hval⟩ := Option.map_eq_some_iff.1 heval
  simp only [Prod.mk.injEq] at hval
  obtain ⟨h1, h2, h3⟩ := hval
  obtain ⟨old, h1⟩ := List.head?_eq_some_iff.1 h1
  obtain ⟨h4, h5⟩ := List.getElem?_eq_some_iff.1 h3
  refine ⟨w, old, w.2.trace.drop 3, hw, h1, ?_, ?_⟩
  · rw [h1] at h2
    exact h2
  · rw [← h5, List.getElem_cons_drop, List.take_append_drop]

end Lightguard.Link
