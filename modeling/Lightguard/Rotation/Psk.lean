import Lightguard.Rotation.Agreement

/-!
# The list of PSKs

`ssid.wpa_psk` of hostapd is shared by all stations: an entry serves one station or, as a group entry,
all of them. A setptk line names one station and writes to the first entry.

* `setupWpaPsk`: how the list is built; the last line of the file is the first entry.
* `rekeys_named_iff`: when a setptk line changes the PSK of the named station and of no other.
-/

namespace Lightguard.Rotation

variable {σ : Type} {hapd hapd' : Hapd σ} {a b : Addr} {psk : Bytes}

/-! ## How the list is built -/

/-- `00:00:00:00:00:00`, the address of the group entries in a PSK file. -/
def zeroAddr : Addr := Addr.zero

/-- `hostapd_config_read_wpa_psk` on the lines of the file: every entry becomes the first one. -/
def hostapdConfigReadWpaPsk (wpaPsk : List WpaPsk) (file : List (Addr × Bytes)) : List WpaPsk :=
  file.foldl (fun l line => ⟨line.1 = zeroAddr, line.1, line.2⟩ :: l) wpaPsk

/-- `hostapd_setup_wpa_psk`: the PSK of `wpa_psk` or `wpa_passphrase`, if any, and those of the file. -/
def hostapdSetupWpaPsk (psk : Option Bytes) (file : List (Addr × Bytes)) : List WpaPsk :=
  hostapdConfigReadWpaPsk (psk.map fun p => ⟨true, zeroAddr, p⟩).toList file

theorem setupWpaPsk_last (psk : Option Bytes) (file : List (Addr × Bytes)) (line : Addr × Bytes) :
    hostapdSetupWpaPsk psk (file ++ [line]) =
      ⟨line.1 = zeroAddr, line.1, line.2⟩ :: hostapdSetupWpaPsk psk file := by
  rw [hostapdSetupWpaPsk, hostapdConfigReadWpaPsk, List.foldl_append]
  rfl

/-! ## The frame of a setptk line -/

/-- The first PSK of the station is this one, and every other station's PSKs are as before. -/
structure RekeysOnly (hapd hapd' : Hapd σ) (a : Addr) (psk : Bytes) : Prop where
  named : hostapdGetPsk hapd' a = some psk
  others : ∀ b, b ≠ a → hostapdPsks hapd' b = hostapdPsks hapd b

/-- The first entry has got this PSK, and the list is otherwise as before. -/
structure FirstSet (hapd hapd' : Hapd σ) (psk : Bytes) : Prop where
  first : hapd'.wpaPsk = { hapd.wpaPsk with psk := psk }
  next : hapd'.wpaPskNext = hapd.wpaPskNext

theorem FirstSet.psks_served (h : FirstSet hapd hapd' psk) (hb : hapd.wpaPsk.serves b = true) :
    hostapdPsks hapd b = hapd.wpaPsk.psk :: (hapd.wpaPskNext.filter (·.serves b)).map (·.psk) ∧
      hostapdPsks hapd' b = psk :: (hapd.wpaPskNext.filter (·.serves b)).map (·.psk) := by
  have hb' : hapd'.wpaPsk.serves b = true := by rw [h.first]; exact hb
  constructor
  · rw [hostapdPsks, List.filter_cons_of_pos hb, List.map_cons]
  · rw [hostapdPsks, List.filter_cons_of_pos hb', List.map_cons, h.first, h.next]

theorem FirstSet.psks_other (h : FirstSet hapd hapd' psk) (hb : ¬ hapd.wpaPsk.serves b = true) :
    hostapdPsks hapd' b = hostapdPsks hapd b := by
  have hb' : ¬ hapd'.wpaPsk.serves b = true := by rw [h.first]; exact hb
  rw [hostapdPsks, hostapdPsks, List.filter_cons_of_neg hb, List.filter_cons_of_neg hb', h.next]

/-- There is always another station that a shared entry serves. -/
theorem exists_served (h : ¬ (hapd.wpaPsk.group = false ∧ hapd.wpaPsk.addr = a)) :
    ∃ b, b ≠ a ∧ hapd.wpaPsk.serves b = true := by
  cases hg : hapd.wpaPsk.group with
  | true =>
    by_cases ha : a = zeroAddr
    · refine ⟨⟨[1, 0, 0, 0, 0, 0], rfl⟩, ?_, by simp [WpaPsk.serves, hg]⟩
      intro h1
      exact absurd (congrArg Subtype.val (h1.trans ha)) (by decide)
    · exact ⟨zeroAddr, Ne.symm ha, by simp [WpaPsk.serves, hg]⟩
  | false =>
    exact ⟨hapd.wpaPsk.addr, fun ha => h ⟨hg, ha⟩, by simp [WpaPsk.serves]⟩

/-- **Writing to the first entry.** -/
theorem FirstSet.rekeysOnly_iff (h : FirstSet hapd hapd' psk) : RekeysOnly hapd hapd' a psk ↔
    hapd.wpaPsk.group = false ∧ hapd.wpaPsk.addr = a ∨
      hapd.wpaPsk.psk = psk ∧ hostapdGetPsk hapd a = some psk := by
  -- nothing changes when the first entry has the PSK already
  have hsame : hapd.wpaPsk.psk = psk → hapd'.wpaPsk :: hapd'.wpaPskNext = hapd.wpaPsk :: hapd.wpaPskNext := by
    rintro rfl
    rw [h.first, h.next]
  constructor
  · intro hr
    by_cases hown : hapd.wpaPsk.group = false ∧ hapd.wpaPsk.addr = a
    · exact .inl hown
    · obtain ⟨b, hb, hserves⟩ := exists_served hown
      obtain ⟨h1, h2⟩ := h.psks_served hserves
      have hpsk : psk = hapd.wpaPsk.psk := (List.cons.inj (h2.symm.trans ((hr.others b hb).trans h1))).1
      have hnamed := hr.named
      rw [hostapdGetPsk, hsame hpsk.symm] at hnamed
      exact .inr ⟨hpsk.symm, hnamed⟩
  · rintro (⟨hg, ha⟩ | ⟨hpsk, hget⟩)
    · constructor
      · have hserves : hapd'.wpaPsk.serves a = true := by rw [h.first]; simp [WpaPsk.serves, ha]
        rw [hostapdGetPsk, List.find?_cons_of_pos hserves, h.first]
        rfl
      · intro b hb
        refine h.psks_other ?_
        simp [WpaPsk.serves, hg, ha, Ne.symm hb]
    · constructor
      · rw [hostapdGetPsk, hsame hpsk]
        exact hget
      · intro b _
        rw [hostapdPsks, hsame hpsk]
        rfl

/-- **When a setptk line rekeys the named station only.** For every list of PSKs, every associated
station and every passphrase of 8 to 63 octets: the line is carried out, and it changes the PSK of this
station and of no other exactly when the first entry is the station's own, or there is nothing to change:
the first entry, and the first that serves the station, have this PSK already. -/
theorem rekeys_named_iff (pbkdf2 : Text → Bytes → ℕ → Bytes) (reauth : σ → σ) {line pass : Text} {sm : σ}
    (h : SetptkFor line a pass) (ha : hapd.sta a = some (some sm)) (hmin : 8 ≤ pass.length)
    (hmax : pass.length ≤ 63) (hssid : hapd.ssid ≠ []) :
    ∃ hapd', lifiHandleLine pbkdf2 reauth hapd line = .ok hapd' ∧
      (RekeysOnly hapd hapd' a (pbkdf2 pass hapd.ssid 4096) ↔
        hapd.wpaPsk.group = false ∧ hapd.wpaPsk.addr = a ∨
          hapd.wpaPsk.psk = pbkdf2 pass hapd.ssid 4096 ∧
            hostapdGetPsk hapd a = some (pbkdf2 pass hapd.ssid 4096)) := by
  rw [lifiHandleLine_for pbkdf2 reauth h ha, if_neg (by omega), if_neg hssid]
  exact ⟨_, rfl, FirstSet.rekeysOnly_iff ⟨rfl, rfl⟩⟩

/-- The first entry is the station's own when the last line of the PSK file is. -/
theorem own_first {p : Option Bytes} {file : List (Addr × Bytes)} (ha : a ≠ zeroAddr)
    (h : hapd.wpaPsk :: hapd.wpaPskNext = hostapdSetupWpaPsk p (file ++ [(a, psk)])) :
    hapd.wpaPsk.group = false ∧ hapd.wpaPsk.addr = a := by
  rw [setupWpaPsk_last] at h
  rw [(List.cons.inj h).1]
  exact ⟨decide_eq_false ha, rfl⟩

/-- The network of the examples with a PSK file of one line. -/
def hapdFile (line : Addr × Bytes) : Hapd Unit :=
  { hapdLifi with
    wpaPsk := ⟨line.1 = zeroAddr, line.1, line.2⟩
    wpaPskNext := hostapdSetupWpaPsk (some []) [] }

theorem setptkFor_lifi2024 : SetptkFor (rekeyCmd staMac "lifi-2024".toList) staAddr "lifi-2024".toList :=
  ⟨staMac, "e0:2b:e9:f6:16:3e lifi-2024\n".toList, "lifi-2024\n".toList, [], rfl, rfl, rfl, by decide⟩

theorem staAddr_ne : staAddr ≠ zeroAddr := by
  intro h
  exact absurd (congrArg Subtype.val h) (by decide)

/-- `rekeys_named_iff` for a file with a line for the station. -/
theorem rekeys_named_lifi2024 : ∃ hapd', lifiHandleLine pbkdf2Lifi id (hapdFile (staAddr, [1]))
      (rekeyCmd staMac "lifi-2024".toList) = .ok hapd' ∧
    RekeysOnly (hapdFile (staAddr, [1])) hapd' staAddr
      (pbkdf2Lifi "lifi-2024".toList (hapdFile (staAddr, [1])).ssid 4096) := by
  have hsta : (hapdFile (staAddr, [1])).sta staAddr = some (some ()) := rfl
  have hfile : (hapdFile (staAddr, [1])).wpaPsk :: (hapdFile (staAddr, [1])).wpaPskNext =
      hostapdSetupWpaPsk (some []) ([] ++ [(staAddr, [1])]) := rfl
  obtain ⟨hapd', hok, hiff⟩ := rekeys_named_iff pbkdf2Lifi id setptkFor_lifi2024 hsta (by decide)
    (by decide) (by decide)
  exact ⟨hapd', hok, hiff.2 (.inl (own_first staAddr_ne hfile))⟩

/-- With `wpa_passphrase` alone a line for one station rekeys them all. -/
theorem all_rekeyed : ∃ hapd', lifiHandleLine pbkdf2Lifi id hapdLifi
      (rekeyCmd staMac "lifi-2024".toList) = .ok hapd' ∧
    ¬ RekeysOnly hapdLifi hapd' staAddr (pbkdf2Lifi "lifi-2024".toList hapdLifi.ssid 4096) := by
  refine ⟨_, rfl, ?_⟩
  intro h
  exact absurd (h.others zeroAddr staAddr_ne.symm) (by decide)

end Lightguard.Rotation
