import Lightguard.Basic
import Lightguard.Lib.Python

/-!
# The last resort

`disconnect_wifi_link` of the AP, as `system_manager.py` and `ptk_receiver_ap.py` both have it: it lists
the stations with one command and deletes them one after the other, inside one exception handler.

* `stationsOf_printDump`: the stations read off a dump are those it was printed for.
* `deleteAll_eq_iff`: every station is attempted when no command but the last raises.
* `reaches_every_station_iff`: when the function does what it is there for.
-/

namespace Lightguard.Sync

open Lib
open Lib.Python (Ran)

/-- The last line `disconnect_wifi_link` prints. -/
inductive Report where
  | noStations
  | disconnected (n : ℕ)
  | error
deriving DecidableEq

/-- What a line of the dump adds to `stations`. -/
def stationOf (line : Text) : Option Text :=
  if "Station".toList <+: Python.strip line then (Python.split (Python.strip line))[1]? else none

/-- `stations`, as the loop over the dump's lines leaves it. -/
def stationsOf (dump : Text) : List Text := (dump.splitOn '\n').filterMap stationOf

/-- The loop over the stations, whose `i`-th command ends with `del i`: the stations for which
`station del` has been attempted, and whether the loop came to its end. -/
def deleteAll (del : ℕ → Ran) : List Text → List Text × Bool
  | [] => ([], true)
  | mac :: stations =>
    match del 0 with
    | .raised => ([mac], false)
    | .exited _ _ =>
      let (attempted, ended) := deleteAll (fun i => del (i + 1)) stations
      (mac :: attempted, ended)

/-- `disconnect_wifi_link`: the stations for which `station del` has been attempted, and the report. The
exit statuses are not looked at. -/
def disconnectWifiLink (dump : Ran) (del : ℕ → Ran) : List Text × Report :=
  match dump with
  | .raised => ([], .error)
  | .exited _ stdout =>
    match Python.decode stdout with
    | none => ([], .error)
    | some text =>
      let stations := stationsOf text
      if stations = [] then ([], .noStations)
      else
        let (attempted, ended) := deleteAll del stations
        (attempted, if ended then .disconnected stations.length else .error)

/-! ## The dump -/

/-- The lines of one station: `Station .. (on ..)`, then its properties. -/
def printStation (dev mac : Text) (props : List Text) : List Text :=
  ("Station ".toList ++ mac ++ " (on ".toList ++ dev ++ [')']) :: props

/-- A dump, every line with its newline. -/
def printDump (dev : Text) (sts : List (Text × List Text)) : Text :=
  (sts.flatMap fun s => printStation dev s.1 s.2).flatMap fun line => line ++ ['\n']

theorem stationOf_station {dev mac : Text} (hne : mac ≠ [])
    (hmac : ∀ c ∈ mac, Python.isspace c = false) :
    stationOf ("Station ".toList ++ mac ++ " (on ".toList ++ dev ++ [')']) = some mac := by
  set line := "Station ".toList ++ mac ++ " (on ".toList ++ dev ++ [')'] with hline
  have hstrip : Python.strip line = line := by
    refine Lib.strip_eq_self_iff.2 ⟨fun _ => ?_, fun _ => ?_⟩
    · simp [hline, Python.isspace]
    · simp [hline, Python.isspace]
  have hsplit : Python.split line = "Station".toList :: mac :: Python.split ("(on ".toList ++ dev ++ [')']) := by
    have h1 : line = "Station".toList ++ ' ' :: (mac ++ ' ' :: ("(on ".toList ++ dev ++ [')'])) := by
      simp [hline]
    rw [h1, Python.split_word (by decide) (by simp [Python.isspace]) (by decide),
      Python.split_word hne hmac (by decide)]
  have hpre : "Station".toList <+: line := by
    rw [hline, List.append_assoc, List.append_assoc, List.append_assoc]
    exact List.IsPrefix.trans (by decide) (List.prefix_append _ _)
  rw [stationOf, hstrip, if_pos hpre, hsplit]
  rfl

/-- The lines of a text. -/
theorem splitOn_lines {lines : List Text} (h : ∀ line ∈ lines, '\n' ∉ line) :
    (lines.flatMap fun line => line ++ ['\n']).splitOn '\n' = lines ++ [[]] := by
  induction lines with
  | nil => rfl
  | cons line lines ih =>
    rw [List.flatMap_cons, List.append_assoc, List.singleton_append,
      List.splitOn_append_cons_self_of_not_mem (h line List.mem_cons_self),
      ih fun l hl => h l (List.mem_cons_of_mem line hl), List.cons_append]

/-- **The dump is read back**: its stations are the ones it was printed for, as long as no property's
line begins like a station's. -/
theorem stationsOf_printDump {dev : Text} {sts : List (Text × List Text)} (hdev : '\n' ∉ dev)
    (hmac : ∀ s ∈ sts, s.1 ≠ [] ∧ ∀ c ∈ s.1, Python.isspace c = false)
    (hprops : ∀ s ∈ sts, ∀ line ∈ s.2, '\n' ∉ line ∧ stationOf line = none) :
    stationsOf (printDump dev sts) = sts.map Prod.fst := by
  have hnl : ∀ line ∈ sts.flatMap fun s => printStation dev s.1 s.2, '\n' ∉ line := by
    intro line hline
    obtain ⟨s, hs, hline⟩ := List.mem_flatMap.1 hline
    rcases List.mem_cons.1 hline with rfl | hline
    · have hm : '\n' ∉ s.1 := fun h => Bool.false_ne_true ((hmac s hs).2 _ h).symm
      simp [hm, hdev]
    · exact (hprops s hs line hline).1
  rw [stationsOf, printDump, splitOn_lines hnl, List.filterMap_append]
  have hlast : [([] : Text)].filterMap stationOf = [] := by decide
  rw [hlast, List.append_nil]
  clear hnl
  induction sts with
  | nil => rfl
  | cons s sts ih =>
    have hp : s.2.filterMap stationOf = [] :=
      List.filterMap_eq_nil_iff.2 fun line hline => (hprops s List.mem_cons_self line hline).2
    obtain ⟨hne, hsp⟩ := hmac s List.mem_cons_self
    rw [List.flatMap_cons, List.filterMap_append, printStation,
      List.filterMap_cons_some (stationOf_station hne hsp), hp, List.map_cons,
      ih (fun t ht => hmac t (List.mem_cons_of_mem s ht))
        fun t ht => hprops t (List.mem_cons_of_mem s ht)]
    rfl

/-! ## The loop -/

variable {del : ℕ → Ran} {stations : List Text}

/-- **Every station is attempted** when no command but the last raises. -/
theorem deleteAll_eq_iff :
    (deleteAll del stations).1 = stations ↔ ∀ i, i + 1 < stations.length → del i ≠ .raised := by
  induction stations generalizing del with
  | nil => simp [deleteAll]
  | cons mac stations ih =>
    rw [deleteAll]
    cases h : del 0 with
    | raised =>
      simp only [List.cons.injEq, true_and]
      constructor
      · rintro rfl i hi
        simp at hi
      · intro hall
        by_contra hne
        have hpos := List.length_pos_of_ne_nil (Ne.symm hne)
        exact hall 0 (by simp; omega) h
    | exited status stdout =>
      simp only [List.cons.injEq, true_and, ih]
      constructor
      · intro hall i hi
        cases i with
        | zero => rw [h]; exact Ran.noConfusion
        | succ i => exact hall i (by simp at hi; omega)
      · intro hall i hi
        exact hall (i + 1) (by simp; omega)

/-- The loop comes to its end when no command raises. -/
theorem deleteAll_ended_iff :
    (deleteAll del stations).2 = true ↔ ∀ i, i < stations.length → del i ≠ .raised := by
  induction stations generalizing del with
  | nil => simp [deleteAll]
  | cons mac stations ih =>
    rw [deleteAll]
    cases h : del 0 with
    | raised =>
      simp only [Bool.false_eq_true, false_iff]
      exact fun hall => hall 0 (by simp) h
    | exited status stdout =>
      simp only [ih]
      constructor
      · intro hall i hi
        cases i with
        | zero => rw [h]; exact Ran.noConfusion
        | succ i => exact hall i (by simp at hi; omega)
      · intro hall i hi
        exact hall (i + 1) (by simp; omega)

/-! ## The function -/

/-- The stations listed in a dump that is a text. -/
def listed : Ran → List Text
  | .raised => []
  | .exited _ stdout => ((Python.decode stdout).map stationsOf).getD []

/-- The dump failed: it raised, or it has an error's exit status. -/
def DumpFailed (dump : Ran) : Prop := ∀ stdout, dump ≠ .exited 0 stdout

/-- What the function is there for: one attempt for every station listed, and no report that says the
link is down, or has no stations, after a dump that failed. -/
structure ReachesEvery (dump : Ran) (del : ℕ → Ran) : Prop where
  attempts : (disconnectWifiLink dump del).1 = listed dump
  report : DumpFailed dump → (disconnectWifiLink dump del).2 = .error

variable {dump : Ran}

theorem disconnect_attempts (dump : Ran) (del : ℕ → Ran) :
    (disconnectWifiLink dump del).1 = (deleteAll del (listed dump)).1 := by
  cases dump with
  | raised => rfl
  | exited status stdout =>
    cases hdec : Python.decode stdout with
    | none => simp only [disconnectWifiLink, listed, hdec, Option.map_none, Option.getD_none, deleteAll]
    | some text =>
      simp only [disconnectWifiLink, listed, hdec, Option.map_some, Option.getD_some]
      by_cases hs : stationsOf text = []
      · simp only [hs, if_true, deleteAll]
      · simp only [hs, if_false]

/-- An error is reported when the dump raised or is no text, or a command raised. -/
theorem disconnect_error_iff {status : ℤ} {stdout : Bytes} :
    (disconnectWifiLink (.exited status stdout) del).2 = .error ↔
      (Python.decode stdout ≠ none → (deleteAll del (listed (.exited status stdout))).2 = false) := by
  cases hdec : Python.decode stdout with
  | none => simp only [disconnectWifiLink, hdec, ne_eq, not_true_eq_false, false_implies]
  | some text =>
    simp only [disconnectWifiLink, listed, hdec, Option.map_some, Option.getD_some, ne_eq,
      reduceCtorEq, not_false_eq_true, forall_const]
    by_cases hs : stationsOf text = []
    · simp only [hs, if_true, deleteAll, reduceCtorEq]
    · cases he : (deleteAll del (stationsOf text)).2
      · simp only [hs, if_false, Bool.false_eq_true]
      · simp only [hs, if_false, if_true, reduceCtorEq]

/-- A loop that has attempted every station and did not come to its end was stopped by the last one. -/
theorem deleteAll_stopped_iff (h : (deleteAll del stations).1 = stations) :
    (deleteAll del stations).2 = false ↔ ∃ n, stations.length = n + 1 ∧ del n = .raised := by
  have hbut := deleteAll_eq_iff.1 h
  rw [← Bool.not_eq_true, deleteAll_ended_iff]
  constructor
  · intro hend
    push Not at hend
    obtain ⟨i, hi, hraised⟩ := hend
    have hlast : ¬ i + 1 < stations.length := fun hlt => hbut i hlt hraised
    exact ⟨i, by omega, hraised⟩
  · rintro ⟨n, hn, hraised⟩ hend
    exact hend n (by omega) hraised

/-- **When every station is reached.** For every dump and all outcomes of the commands: no command but
the last raises, and a dump that ends with an error is no text, or lists stations of which the last
one's command raises. -/
theorem reaches_every_station_iff (dump : Ran) (del : ℕ → Ran) :
    ReachesEvery dump del ↔
      (∀ i, i + 1 < (listed dump).length → del i ≠ .raised) ∧
        ∀ status stdout, dump = .exited status stdout → status ≠ 0 → Python.decode stdout ≠ none →
          ∃ n, (listed dump).length = n + 1 ∧ del n = .raised := by
  have hreport : (deleteAll del (listed dump)).1 = listed dump →
      ((DumpFailed dump → (disconnectWifiLink dump del).2 = .error) ↔
        ∀ status stdout, dump = .exited status stdout → status ≠ 0 → Python.decode stdout ≠ none →
          ∃ n, (listed dump).length = n + 1 ∧ del n = .raised) := by
    intro hall
    constructor
    · rintro herr status stdout rfl hstatus htext
      have hfail : DumpFailed (.exited status stdout) := by
        rintro out ⟨⟩
        exact hstatus rfl
      exact (deleteAll_stopped_iff hall).1 (disconnect_error_iff.1 (herr hfail) htext)
    · intro hlast hfail
      cases dump with
      | raised => rfl
      | exited status stdout =>
        have hstatus : status ≠ 0 := by
          rintro rfl
          exact hfail stdout rfl
        exact disconnect_error_iff.2 fun htext =>
          (deleteAll_stopped_iff hall).2 (hlast status stdout rfl hstatus htext)
  constructor
  · rintro ⟨hatt, hrep⟩
    rw [disconnect_attempts] at hatt
    exact ⟨deleteAll_eq_iff.1 hatt, (hreport hatt).1 hrep⟩
  · rintro ⟨hbut, hlast⟩
    have hatt := deleteAll_eq_iff.2 hbut
    exact ⟨by rw [disconnect_attempts, hatt], (hreport hatt).2 hlast⟩

/-- A dump with two stations. -/
def dumpTwo : Ran := .exited 0 (Python.encode (printDump "wlan1".toList
  [("02:00:00:00:00:01".toList, ["\tinactive time:\t8 ms".toList]), ("02:00:00:00:00:02".toList, [])]))

theorem dumpTwo_listed : listed dumpTwo = ["02:00:00:00:00:01".toList, "02:00:00:00:00:02".toList] := by
  rw [dumpTwo, listed, Python.decode_encode, Option.map_some, Option.getD_some,
    stationsOf_printDump (by decide) (by simp [Python.isspace]) (by decide)]
  rfl

/-- The first station's command runs into its timeout, and the second station stays connected. -/
theorem second_station_stays :
    (disconnectWifiLink dumpTwo fun i => if i = 0 then .raised else .exited 0 []) =
        (["02:00:00:00:00:01".toList], .error) ∧
      ¬ ∀ (dump : Ran) (del : ℕ → Ran), ReachesEvery dump del := by
  have h1 : (disconnectWifiLink dumpTwo fun i => if i = 0 then .raised else .exited 0 []).1 =
      ["02:00:00:00:00:01".toList] := by
    rw [disconnect_attempts, dumpTwo_listed]
    rfl
  have h2 : (disconnectWifiLink dumpTwo fun i => if i = 0 then .raised else .exited 0 []).2 = .error := by
    rw [dumpTwo, disconnect_error_iff, ← dumpTwo, dumpTwo_listed]
    exact fun _ => rfl
  refine ⟨Prod.ext h1 h2, fun h => ?_⟩
  have hall := (h dumpTwo fun i => if i = 0 then .raised else .exited 0 []).attempts
  rw [h1, dumpTwo_listed] at hall
  exact absurd hall (by decide)

end Lightguard.Sync
