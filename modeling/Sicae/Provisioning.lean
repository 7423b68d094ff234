import Sicae.Routing
import Sicae.Transition

/-! # Provisioning the NVS at boot

`initialize_nvs_with_default_data` stores eight defaults and then the flag `initialized`, unless
the flag is found set.  Every failing call is only logged, so the nine writes are independent of
each other: a boot is one `KeyValue.writeAll` (`lookup_boot`).

* The flag vouches for the defaults exactly when it is not stored behind a default that failed;
* a boot keeps the settings of the user exactly when it can read the flag, or its writes change
  nothing: a failed read leaves `initialized` at 0 and is taken for a first boot. -/

namespace Sicae

open CString Transition

/-! ### The source -/

/-- The macro `FIRMWARE`. -/
def firmware : CStr := "1.0.1".toList

/-- The key of the provisioning flag. -/
def initializedKey : CStr := "initialized".toList

/-- Errors injected into `initialize_nvs_with_default_data`: those of its writes, and of the
`nvs_get_u8` that reads the flag. -/
structure InitFaults extends NvsWriteFaults where
  getErr : Option EspErr := none

/-- The condition for storing the defaults: `err == ESP_ERR_NVS_NOT_FOUND || initialized == 0`. -/
def needsDefaultData (nvs : Nvs) (getErr : Option EspErr) : Bool :=
  let err := nvsGetU8 nvs { getErr := getErr } initializedKey
  -- a read that fails leaves the variable at its initial 0
  let initialized := err.toOption.getD 0
  (err matches .error .nvsNotFound) || initialized == 0

/-- The writes of `initialize_nvs_with_default_data`. -/
def saveDefaultData (faults : NvsWriteFaults) (g : Globals) : Globals :=
  let s : NvsSession := { nvs := g.nvs }
  let s := s.set faults "firmware".toList (.str firmware)
  let s := s.set faults "wifi_ssid".toList (.str "Koba S21".toList)
  let s := s.set faults "wifi_password".toList (.str "koba1254".toList)
  let g := { g with url := snprintf 256 g.deviceId.dispUrl }
  let s := s.set faults "disp_url".toList (.str g.url)
  let g := { g with url := snprintf 256 g.deviceId.eventsUrl }
  let s := s.set faults "events_url".toList (.str g.url)
  let apSsid := snprintf 64 ("AP-".toList ++ g.deviceId.text)
  let s := s.set faults "ap_ssid".toList (.str apSsid)
  let apPassword := snprintf 64 (g.deviceId.text ++ "password".toList)
  let s := s.set faults "ap_password".toList (.str apPassword)
  let s := s.set faults (snprintf 16 "device-0".toList) (.u8 23)
  let s := s.set faults initializedKey (.u8 1)
  let s := s.commit faults
  { g with nvs := s.nvs }

/-- `initialize_nvs_with_default_data`. -/
def initializeNvsWithDefaultData (faults : InitFaults) (g : Globals) : Globals :=
  match faults.openErr with
  | some _ => g
  | none =>
      if needsDefaultData g.nvs faults.getErr then saveDefaultData faults.toNvsWriteFaults g else g

/-- What a boot of the device makes of the NVS content: `app_main` up to
`initialize_nvs_with_default_data`. -/
def boot (d : DeviceId) (nvs : Nvs) (faults : InitFaults) : Nvs :=
  (initializeNvsWithDefaultData faults (.initial d nvs)).nvs

/-- Boots as the steps of a transition system on the NVS content. -/
def bootStep (d : DeviceId) (nvs : Nvs) (faults : InitFaults) : Option Nvs :=
  some (boot d nvs faults)

/-! ### The defaults -/

/-- The defaults of a device. -/
def defaultData (d : DeviceId) : List (CStr × NvsValue) :=
  [("firmware".toList, .str firmware),
   ("wifi_ssid".toList, .str "Koba S21".toList),
   ("wifi_password".toList, .str "koba1254".toList),
   ("disp_url".toList, .str d.dispUrl),
   ("events_url".toList, .str d.eventsUrl),
   ("ap_ssid".toList, .str ("AP-".toList ++ d.text)),
   ("ap_password".toList, .str (d.text ++ "password".toList)),
   (deviceKey 0, .u8 23)]

/-- Everything a boot may write: the defaults, then the flag. -/
def provisioning (d : DeviceId) : List (CStr × NvsValue) :=
  defaultData d ++ [(initializedKey, .u8 1)]

/-- All defaults of the device are stored. -/
def Provisioned (d : DeviceId) (nvs : Nvs) : Prop :=
  ∀ p ∈ defaultData d, nvs.lookup p.1 = some p.2

/-- The flag is stored as 1. -/
def FlagSet (nvs : Nvs) : Prop := nvs.lookup initializedKey = some (.u8 1)

instance (d : DeviceId) : DecidablePred (Provisioned d) :=
  fun _ => inferInstanceAs (Decidable (∀ p ∈ defaultData d, _))

instance : DecidablePred FlagSet := fun _ => inferInstanceAs (Decidable (_ = _))

/-- The flag is set when it reads 1. -/
theorem flagSet_iff {nvs : Nvs} : FlagSet nvs ↔ nvsGetU8 nvs .none initializedKey = .ok 1 :=
  nvsGetU8_ok_iff.symm

/-- None of the formatted URLs is cut by its buffer. -/
theorem DeviceId.urls_fit (d : DeviceId) :
    snprintf 256 d.dispUrl = d.dispUrl ∧ snprintf 256 d.eventsUrl = d.eventsUrl := by
  have h1 := d.length_dispUrl
  have h2 := d.length_eventsUrl
  constructor
  · apply snprintf_of_length_lt
    omega
  · apply snprintf_of_length_lt
    omega

/-- Nor are the credentials of the access point. -/
theorem DeviceId.ap_fits (d : DeviceId) :
    snprintf 64 ("AP-".toList ++ d.text) = "AP-".toList ++ d.text ∧
      snprintf 64 (d.text ++ "password".toList) = d.text ++ "password".toList := by
  have h := d.length_le
  constructor
  · apply snprintf_of_length_lt
    simp
    omega
  · apply snprintf_of_length_lt
    simp
    omega

/-- The keys of a boot's writes do not depend on the device. -/
theorem provisioning_keys (d : DeviceId) :
    (provisioning d).map Prod.fst = ["firmware".toList, "wifi_ssid".toList,
      "wifi_password".toList, "disp_url".toList, "events_url".toList, "ap_ssid".toList,
      "ap_password".toList, deviceKey 0, initializedKey] := rfl

theorem provisioning_nodup (d : DeviceId) : ((provisioning d).map Prod.fst).Nodup := by
  rw [provisioning_keys]
  decide +kernel

/-- All keys are short enough for NVS. -/
theorem accepts_iff {d : DeviceId} {p : CStr × NvsValue} (hp : p ∈ provisioning d)
    (faults : NvsWriteFaults) : faults.Accepts p.1 ↔ faults.setErr p.1 = none := by
  have hk : ∀ k ∈ (provisioning d).map Prod.fst, k.length < 16 := by
    rw [provisioning_keys]
    decide +kernel
  exact and_iff_left (hk p.1 (List.mem_map_of_mem hp))

/-! ### One boot -/

/-- The writes of a boot, as writes to the content. -/
theorem lookup_saveDefaultData (faults : NvsWriteFaults) (g : Globals) :
    (saveDefaultData faults g).nvs.lookup =
      KeyValue.writeAll faults.Accepts g.nvs.lookup (provisioning g.deviceId) := by
  obtain ⟨h1, h2⟩ := g.deviceId.urls_fit
  obtain ⟨h3, h4⟩ := g.deviceId.ap_fits
  simp only [saveDefaultData, NvsSession.commit_nvs, NvsSession.lookup_set, h1, h2, h3, h4]
  rfl

/-- **What a boot does to the NVS content.** -/
theorem lookup_boot (d : DeviceId) (nvs : Nvs) (faults : InitFaults) :
    (boot d nvs faults).lookup =
      if faults.openErr = none ∧ needsDefaultData nvs faults.getErr = true then
        KeyValue.writeAll faults.Accepts nvs.lookup (provisioning d)
      else nvs.lookup := by
  have hn : (Globals.initial d nvs).nvs = nvs := rfl
  unfold boot initializeNvsWithDefaultData
  cases faults.openErr with
  | some e => simp [hn]
  | none =>
      cases h : needsDefaultData nvs faults.getErr with
      | false => simp [hn, h]
      | true =>
          simp only [hn, h, if_true, and_self]
          exact lookup_saveDefaultData _ _

/-- A boot takes the content for provisioned exactly if it reads a flag other than 0. -/
theorem needsDefaultData_eq_false {nvs : Nvs} {getErr : Option EspErr} :
    needsDefaultData nvs getErr = false ↔
      getErr = none ∧ ∃ v, v ≠ 0 ∧ nvs.lookup initializedKey = some (.u8 v) := by
  unfold needsDefaultData nvsGetU8
  cases getErr with
  | some e => simp [Except.toOption]
  | none =>
      cases nvs.lookup initializedKey with
      | none => simp [Except.toOption]
      | some v => cases v <;> simp [Except.toOption]

/-- A boot that reads the flag as 1 changes nothing. -/
theorem boot_of_flagSet {d : DeviceId} {nvs : Nvs} {faults : InitFaults} (hf : FlagSet nvs)
    (hg : faults.getErr = none) : boot d nvs faults = nvs := by
  have h : needsDefaultData nvs faults.getErr = false :=
    needsDefaultData_eq_false.mpr ⟨hg, 1, by decide, hf⟩
  apply Nvs.ext
  rw [lookup_boot, if_neg (by simp [h])]

/-- A boot that stores the defaults changes only the keys it writes. -/
theorem lookup_boot_of_not_mem {d : DeviceId} {nvs : Nvs} {faults : InitFaults} {key : CStr}
    (h : key ∉ (provisioning d).map Prod.fst) :
    (boot d nvs faults).lookup key = nvs.lookup key := by
  rw [lookup_boot]
  split_ifs
  · exact KeyValue.writeAll_of_not_mem h
  · rfl

/-- A key after a boot that goes into the writes. -/
theorem lookup_boot_of_mem {d : DeviceId} {nvs : Nvs} {faults : InitFaults}
    {p : CStr × NvsValue} (ho : faults.openErr = none)
    (hn : needsDefaultData nvs faults.getErr = true) (hp : p ∈ provisioning d) :
    (boot d nvs faults).lookup p.1 =
      if faults.setErr p.1 = none then some p.2 else nvs.lookup p.1 := by
  rw [lookup_boot, if_pos ⟨ho, hn⟩, KeyValue.writeAll_of_mem (provisioning_nodup d) hp]
  exact if_congr (accepts_iff hp _) rfl rfl

/-! ### What the flag vouches for -/

/-- The boot does not store the flag behind a default that failed: it does not get to its
writes, its write of the flag fails, or each default is written or was there before. -/
def Vouches (d : DeviceId) (nvs : Nvs) (faults : InitFaults) : Prop :=
  faults.openErr ≠ none ∨
    (faults.getErr = none ∧ ∃ v, v ≠ 0 ∧ nvs.lookup initializedKey = some (.u8 v)) ∨
    faults.setErr initializedKey ≠ none ∨
    ∀ p ∈ defaultData d, faults.setErr p.1 = none ∨ nvs.lookup p.1 = some p.2

/-- The flag is set by a boot whose write of it succeeds. -/
theorem flagSet_boot_iff {d : DeviceId} {nvs : Nvs} {faults : InitFaults} (h : ¬ FlagSet nvs) :
    FlagSet (boot d nvs faults) ↔ faults.openErr = none ∧
      needsDefaultData nvs faults.getErr = true ∧ faults.setErr initializedKey = none := by
  by_cases hw : faults.openErr = none ∧ needsDefaultData nvs faults.getErr = true
  · have hp : (initializedKey, NvsValue.u8 1) ∈ provisioning d :=
      List.mem_append_right _ (List.mem_singleton_self _)
    rw [FlagSet, lookup_boot_of_mem hw.1 hw.2 hp]
    unfold FlagSet at h
    split_ifs with hs
    · exact iff_of_true rfl ⟨hw.1, hw.2, hs⟩
    · exact iff_of_false h fun hc => hs hc.2.2
  · rw [FlagSet, lookup_boot, if_neg hw]
    exact iff_of_false h fun hc => hw ⟨hc.1, hc.2.1⟩

/-- The defaults after a boot that goes into the writes. -/
theorem provisioned_boot_iff {d : DeviceId} {nvs : Nvs} {faults : InitFaults}
    (ho : faults.openErr = none) (hn : needsDefaultData nvs faults.getErr = true) :
    Provisioned d (boot d nvs faults) ↔
      ∀ p ∈ defaultData d, faults.setErr p.1 = none ∨ nvs.lookup p.1 = some p.2 := by
  apply forall₂_congr
  intro p hp
  rw [lookup_boot_of_mem ho hn (List.mem_append_left _ hp)]
  by_cases h : faults.setErr p.1 = none <;> simp [h]

/-- Later boots that can read the flag stay with what the first one left. -/
theorem provisioned_later {d : DeviceId} {nvs : Nvs} (hf : FlagSet nvs) (hp : Provisioned d nvs)
    {later : List InitFaults} (hl : ∀ faults ∈ later, faults.getErr = none) :
    AllStates (bootStep d) (Provisioned d) nvs later := by
  apply @allStates_of_invariant _ _ (bootStep d) (fun s => FlagSet s ∧ Provisioned d s) _
    (fun _ faults => faults.getErr = none)
  · rintro s faults s' hs hg he
    obtain rfl := Option.some.inj he
    rw [boot_of_flagSet hs.1 hg]
    exact hs
  · exact fun s hs => hs.2
  · exact ⟨hf, hp⟩
  · exact .of_forall fun faults hm _ => hl faults hm

/-- **The flag and the defaults.**  From a content without the flag, a boot after which the flag
reads 1 leaves all defaults, for every later boot that finds the flag, exactly if it does not
store the flag behind a default that failed. -/
theorem provisioned_iff {d : DeviceId} {nvs : Nvs} {faults : InitFaults} (h : ¬ FlagSet nvs) :
    (∀ later : List InitFaults, (∀ f ∈ later, f.getErr = none) →
      FlagSet (boot d nvs faults) →
        AllStates (bootStep d) (Provisioned d) (boot d nvs faults) later) ↔
      Vouches d nvs faults := by
  unfold Vouches
  rw [← needsDefaultData_eq_false]
  constructor
  · intro hall
    by_contra hv
    push Not at hv
    obtain ⟨ho, hn, hs, hp⟩ := hv
    have hn' : needsDefaultData nvs faults.getErr = true := by simpa using hn
    have hf : FlagSet (boot d nvs faults) := (flagSet_boot_iff h).mpr ⟨ho, hn', hs⟩
    have hprov : Provisioned d (boot d nvs faults) := hall [] (by simp) hf
    obtain ⟨p, hm, hne, hlk⟩ := hp
    rcases (provisioned_boot_iff ho hn').mp hprov p hm with h1 | h1
    · exact hne h1
    · exact hlk h1
  · intro hv later hl hf
    obtain ⟨ho, hn, hs⟩ := (flagSet_boot_iff h).mp hf
    apply provisioned_later hf _ hl
    rw [provisioned_boot_iff ho hn]
    rcases hv with h1 | h1 | h1 | h1
    · exact absurd ho h1
    · rw [hn] at h1
      exact absurd h1 (by decide)
    · exact absurd hs h1
    · exact h1

/-- The example device, fresh from the factory, with every call of three boots succeeding. -/
theorem provisioned_factory :
    ¬ FlagSet .empty ∧ FlagSet (boot exampleId .empty {}) ∧
      AllStates (bootStep exampleId) (Provisioned exampleId) (boot exampleId .empty {}) [{}, {}] :=
  ⟨by decide +kernel, by decide +kernel,
    (provisioned_iff (by decide +kernel)).mpr (.inr (.inr (.inr fun _ _ => .inl rfl))) [{}, {}]
      (by simp) (by decide +kernel)⟩

/-- A nearly full partition: there is no room left for the long `disp_url`
(`ESP_ERR_NVS_NOT_ENOUGH_SPACE`). -/
def nearlyFull : InitFaults where
  setErr key := if key = "disp_url".toList then some (.other 0x1105) else none

/-- On it the first boot sets the flag and leaves the device without its URL, and the later boots
do not repair that. -/
theorem nearlyFull_sets_flag :
    ¬ FlagSet .empty ∧ FlagSet (boot exampleId .empty nearlyFull) ∧
      (boot exampleId .empty nearlyFull).lookup "disp_url".toList = none ∧
      ¬ Provisioned exampleId (boot exampleId .empty nearlyFull) ∧
      boot exampleId (boot exampleId .empty nearlyFull) {} = boot exampleId .empty nearlyFull :=
  ⟨by decide +kernel, by decide +kernel, by decide +kernel, by decide +kernel,
    boot_of_flagSet (by decide +kernel) rfl⟩

/-! ### Settings under boots -/

/-- The boot keeps what is stored: it does not get to its writes, or each default fails or is
what is there. -/
def KeepsSettings (d : DeviceId) (nvs : Nvs) (faults : InitFaults) : Prop :=
  faults.openErr ≠ none ∨ faults.getErr = none ∨
    ∀ p ∈ defaultData d, faults.setErr p.1 ≠ none ∨ nvs.lookup p.1 = some p.2

/-- With the flag stored, one boot changes nothing exactly if it keeps the settings. -/
theorem boot_eq_self_iff {d : DeviceId} {nvs : Nvs} {faults : InitFaults} (hf : FlagSet nvs) :
    boot d nvs faults = nvs ↔ KeepsSettings d nvs faults := by
  unfold KeepsSettings
  by_cases ho : faults.openErr = none
  · by_cases hg : faults.getErr = none
    · exact iff_of_true (boot_of_flagSet hf hg) (.inr (.inl hg))
    · have hn : needsDefaultData nvs faults.getErr = true := by
        by_contra hc
        exact hg (needsDefaultData_eq_false.mp (by simpa using hc)).1
      rw [Nvs.ext_iff, lookup_boot, if_pos ⟨ho, hn⟩,
        KeyValue.writeAll_eq_self_iff (provisioning_nodup d)]
      constructor
      · refine fun h => .inr (.inr fun p hp => ?_)
        by_cases hs : faults.setErr p.1 = none
        · have hm : p ∈ provisioning d := List.mem_append_left _ hp
          exact .inr (h p hm ((accepts_iff hm _).mpr hs))
        · exact .inl hs
      · rintro h p hp ha
        have hs := (accepts_iff hp _).mp ha
        rcases List.mem_append.mp hp with hm | hm
        · rcases h with h1 | h1 | h1
          · exact absurd ho h1
          · exact absurd h1 hg
          · exact (h1 p hm).resolve_left fun hne => hne hs
        · rw [List.mem_singleton.mp hm]
          exact hf
  · refine iff_of_true ?_ (.inl ho)
    apply Nvs.ext
    rw [lookup_boot, if_neg fun hc => ho hc.1]

/-- **Settings survive boots.**  With the flag stored, a sequence of boots never changes the
content exactly if each of them keeps the settings. -/
theorem settingsKept_iff {d : DeviceId} {nvs : Nvs} {boots : List InitFaults}
    (hf : FlagSet nvs) :
    AllStates (bootStep d) (fun s => s = nvs) nvs boots ↔
      ∀ faults ∈ boots, KeepsSettings d nvs faults := by
  have hstep : ∀ s faults s', True → s = nvs → bootStep d s faults = some s' →
      True ∧ (s' = nvs ↔ KeepsSettings d s faults) := by
    rintro s faults s' - rfl he
    obtain rfl := Option.some.inj he
    exact ⟨trivial, boot_eq_self_iff hf⟩
  rw [@allStates_iff_allSteps _ _ (bootStep d) (fun s => s = nvs) (fun _ => True)
    (KeepsSettings d) hstep boots nvs _ trivial rfl run_of_total]
  apply @allSteps_iff_forall _ _ (bootStep d) (fun s => s = nvs)
  · rintro s faults rfl
    exact Iff.rfl
  · rintro s faults rfl hk
    exact ⟨_, congrArg some ((boot_eq_self_iff hf).mpr hk), rfl⟩
  · rfl

/-- The example device in the hands of a user, who has chosen another network. -/
def homeNvs : Nvs :=
  (boot exampleId .empty {}).set "wifi_ssid".toList (.str "HomeNet".toList) (by decide)

/-- Its network survives three boots that read the flag. -/
theorem settingsKept_home :
    FlagSet homeNvs ∧ AllStates (bootStep exampleId) (fun s => s = homeNvs) homeNvs [{}, {}, {}] :=
  ⟨by decide +kernel, (settingsKept_iff (by decide +kernel)).mpr (by
    intro faults hm
    have hg : faults = {} := by simpa using hm
    exact .inr (.inl (by rw [hg])))⟩

/-- A boot at which reading the flag fails for a moment (`ESP_ERR_FLASH_OP_FAIL`). -/
def flashReadFails : InitFaults := { getErr := some (.other 0x6001) }

/-- It puts the factory network back. -/
theorem flashReadFails_resets :
    FlagSet homeNvs ∧ homeNvs.lookup "wifi_ssid".toList = some (.str "HomeNet".toList) ∧
      (boot exampleId homeNvs flashReadFails).lookup "wifi_ssid".toList =
        some (.str "Koba S21".toList) :=
  ⟨by decide +kernel, by decide +kernel, by decide +kernel⟩

end Sicae
