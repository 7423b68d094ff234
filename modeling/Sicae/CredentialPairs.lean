import Sicae.Credentials

/-! # Pairs of settings in NVS

The Wi-Fi credentials, those of the access point and the two server addresses are each stored under
two keys, by two calls of `nvs_set_str` and one of `nvs_commit`.  The sets are visible at once and
the commit does nothing, so a save is one `KeyValue.writeAll` of its pair (`PairSave.lookup_run`): a failed
set leaves its key as it was, the error is logged, and the other set is made all the same.

Hence a save is all or nothing exactly if the failed sets, or the others, would change nothing
(`savedTogether_iff`). -/

namespace Sicae

open CString Transition

/-! ### The source -/

/-- `save_server_credentials`. -/
def saveServerCredentials (faults : NvsWriteFaults) (g : Globals) (deviceId : CStr) : Globals :=
  match faults.openErr with
  | some _ => g
  | none =>
      let s : NvsSession := { nvs := g.nvs }
      let g := { g with
        url := snprintf 256 (dispBase ++ "/".toList ++ deviceId ++ "/data/".toList) }
      let s := s.set faults "disp_url".toList (.str g.url)
      let g := { g with
        url := snprintf 256 (eventsBase ++ "/".toList ++ deviceId ++ "/".toList) }
      let s := s.set faults "events_url".toList (.str g.url)
      let s := s.commit faults
      { g with nvs := s.nvs }

/-- The calls that save a pair of strings, with their arguments. -/
inductive PairSave where
  | wifiCredentials (ssid password : CStr)
  | apCredentials (ssid password : CStr)
  | serverCredentials (deviceId : CStr)
deriving DecidableEq, Repr

/-- The call. -/
def PairSave.run (faults : NvsWriteFaults) (g : Globals) : PairSave → Globals
  | wifiCredentials ssid password =>
      { g with nvs := (saveWifiCredentials faults g.nvs ssid password).nvs }
  | apCredentials ssid password =>
      { g with nvs := (saveApCredentials faults g.nvs ssid password).nvs }
  | serverCredentials deviceId => saveServerCredentials faults g deviceId

/-! ### One save -/

/-- The two keys with the values a save is to store under them. -/
def PairSave.pair : PairSave → List (CStr × NvsValue)
  | wifiCredentials ssid password =>
      [("wifi_ssid".toList, .str ssid), ("wifi_password".toList, .str password)]
  | apCredentials ssid password =>
      [("ap_ssid".toList, .str ssid), ("ap_password".toList, .str password)]
  | serverCredentials deviceId =>
      [("disp_url".toList,
          .str (snprintf 256 (dispBase ++ "/".toList ++ deviceId ++ "/data/".toList))),
       ("events_url".toList,
          .str (snprintf 256 (eventsBase ++ "/".toList ++ deviceId ++ "/".toList)))]

/-- Both keys hold what they held before the save, or both hold the new values. -/
def PairSave.SavedTogether (faults : NvsWriteFaults) (g : Globals) (save : PairSave) : Prop :=
  KeyValue.AllOrNothing g.nvs.lookup (save.run faults g).nvs.lookup save.pair

theorem PairSave.nodup_keys (save : PairSave) : (save.pair.map Prod.fst).Nodup := by
  cases save with
  | wifiCredentials ssid password =>
      show ["wifi_ssid".toList, "wifi_password".toList].Nodup
      decide
  | apCredentials ssid password =>
      show ["ap_ssid".toList, "ap_password".toList].Nodup
      decide
  | serverCredentials deviceId =>
      show ["disp_url".toList, "events_url".toList].Nodup
      decide

theorem lookup_saveCredentials_of_open {ssidKey passwordKey ssid password : CStr} {nvs : Nvs}
    {faults : NvsWriteFaults} (ho : faults.openErr = none) :
    (saveCredentials ssidKey passwordKey faults nvs ssid password).nvs.lookup =
      KeyValue.writeAll faults.Accepts nvs.lookup
        [(ssidKey, .str ssid), (passwordKey, .str password)] := by
  simp only [saveCredentials, ho, NvsSession.commit_nvs, NvsSession.lookup_set]
  rfl

theorem lookup_saveServerCredentials_of_open {deviceId : CStr} {g : Globals}
    {faults : NvsWriteFaults} (ho : faults.openErr = none) :
    (saveServerCredentials faults g deviceId).nvs.lookup =
      KeyValue.writeAll faults.Accepts g.nvs.lookup (PairSave.serverCredentials deviceId).pair := by
  simp only [saveServerCredentials, ho, NvsSession.commit_nvs, NvsSession.lookup_set]
  rfl

/-- A save is the writes of its pair, once the namespace is open. -/
theorem PairSave.lookup_run (faults : NvsWriteFaults) (g : Globals) (save : PairSave)
    (ho : faults.openErr = none) :
    (save.run faults g).nvs.lookup =
      KeyValue.writeAll faults.Accepts g.nvs.lookup save.pair := by
  cases save with
  | wifiCredentials ssid password => exact lookup_saveCredentials_of_open ho
  | apCredentials ssid password => exact lookup_saveCredentials_of_open ho
  | serverCredentials deviceId => exact lookup_saveServerCredentials_of_open ho

/-- Nothing is saved into a namespace that cannot be opened. -/
theorem PairSave.run_of_openErr {faults : NvsWriteFaults} {e : EspErr}
    (ho : faults.openErr = some e) (g : Globals) (save : PairSave) : save.run faults g = g := by
  cases save with
  | wifiCredentials ssid password => simp only [run, saveWifiCredentials, saveCredentials, ho]
  | apCredentials ssid password => simp only [run, saveApCredentials, saveCredentials, ho]
  | serverCredentials deviceId => simp only [run, saveServerCredentials, ho]

/-- **A pair is saved as a whole or not at all** exactly if the namespace cannot be opened, the sets
that succeed store what was there before, or those that fail were to. -/
theorem PairSave.savedTogether_iff (faults : NvsWriteFaults) (g : Globals) (save : PairSave) :
    save.SavedTogether faults g ↔
      faults.openErr ≠ none ∨
        (∀ p ∈ save.pair, faults.Accepts p.1 → g.nvs.lookup p.1 = some p.2) ∨
        ∀ p ∈ save.pair, ¬ faults.Accepts p.1 → g.nvs.lookup p.1 = some p.2 := by
  unfold SavedTogether
  cases ho : faults.openErr with
  | some e =>
      rw [run_of_openErr ho]
      exact iff_of_true (KeyValue.AllOrNothing.refl ..) (.inl (by simp))
  | none =>
      rw [lookup_run faults g save ho, KeyValue.allOrNothing_iff save.nodup_keys]
      simp

/-- A set of the password alone fails. -/
def passwordFaults : NvsWriteFaults where
  setErr key := if key = "wifi_password".toList then some (.other 0x1105) else none

/-- The new network is then stored without its password. -/
theorem wifiSave_halfDone :
    ¬ (PairSave.wifiCredentials "HomeNet".toList "correct horse".toList).SavedTogether
      passwordFaults exampleGlobals := by
  rintro (h | h)
  · exact absurd (h _ List.mem_cons_self) (by decide +kernel)
  · exact absurd (h _ (List.mem_cons_of_mem _ List.mem_cons_self)) (by decide +kernel)

/-! ### Sequences of saves -/

/-- Saves as the steps of a transition system, each with the errors injected into it. -/
def saveStep (g : Globals) (s : NvsWriteFaults × PairSave) : Option Globals :=
  some (s.2.run s.1 g)

/-- The stored network and the stored password belong together. -/
def WifiPair (belong : CStr → CStr → Prop) (g : Globals) : Prop :=
  ∃ ssid password, g.nvs.lookup "wifi_ssid".toList = some (.str ssid) ∧
    g.nvs.lookup "wifi_password".toList = some (.str password) ∧ belong ssid password

/-- So do those of a save. -/
def PairSave.Belong (belong : CStr → CStr → Prop) : PairSave → Prop
  | wifiCredentials ssid password => belong ssid password
  | apCredentials _ _ | serverCredentials _ => True

/-- A save leaves the keys of the other pairs alone. -/
theorem PairSave.lookup_run_of_not_mem (faults : NvsWriteFaults) (g : Globals) {save : PairSave}
    {key : CStr} (h : key ∉ save.pair.map Prod.fst) :
    (save.run faults g).nvs.lookup key = g.nvs.lookup key := by
  cases ho : faults.openErr with
  | some e => rw [run_of_openErr ho]
  | none => rw [lookup_run faults g save ho, KeyValue.writeAll_of_not_mem h]

/-- The stored pair stays a pair under a save that is all or nothing. -/
theorem wifiPair_run {belong : CStr → CStr → Prop} {g : Globals} {faults : NvsWriteFaults}
    {save : PairSave} (hg : WifiPair belong g) (hs : save.SavedTogether faults g)
    (hb : save.Belong belong) : WifiPair belong (save.run faults g) := by
  obtain ⟨ssid, password, h1, h2, h3⟩ := hg
  have hkept : "wifi_ssid".toList ∉ save.pair.map Prod.fst →
      "wifi_password".toList ∉ save.pair.map Prod.fst → WifiPair belong (save.run faults g) :=
    fun hssid hpassword =>
      ⟨ssid, password, (PairSave.lookup_run_of_not_mem faults g hssid).trans h1,
        (PairSave.lookup_run_of_not_mem faults g hpassword).trans h2, h3⟩
  cases save with
  | wifiCredentials ssid' password' =>
      rcases hs with hs | hs
      · refine ⟨ssid, password, ?_, ?_, h3⟩
        · exact (hs _ List.mem_cons_self).trans h1
        · exact (hs _ (List.mem_cons_of_mem _ List.mem_cons_self)).trans h2
      · refine ⟨ssid', password', ?_, ?_, hb⟩
        · exact hs _ List.mem_cons_self
        · exact hs _ (List.mem_cons_of_mem _ List.mem_cons_self)
  | apCredentials ssid' password' =>
      have hkeys : ∀ key ∈ ["wifi_ssid".toList, "wifi_password".toList],
          key ∉ ["ap_ssid".toList, "ap_password".toList] := by decide
      exact hkept (hkeys _ List.mem_cons_self) (hkeys _ (by simp))
  | serverCredentials deviceId =>
      have hkeys : ∀ key ∈ ["wifi_ssid".toList, "wifi_password".toList],
          key ∉ ["disp_url".toList, "events_url".toList] := by decide
      exact hkept (hkeys _ List.mem_cons_self) (hkeys _ (by simp))

/-- **In a run of saves that are all or nothing** the next boot always finds a network with a
password that was saved for it. -/
theorem wifiPair_saves {belong : CStr → CStr → Prop} {g g' : Globals}
    {saves : List (NvsWriteFaults × PairSave)} (hg : WifiPair belong g)
    (hs : AllSteps saveStep (fun g s => s.2.SavedTogether s.1 g ∧ s.2.Belong belong) g saves)
    (hr : run saveStep g saves = some g') : WifiPair belong g' :=
  run_invariant (fun _ _ _ hi ho he => Option.some.inj he ▸ wifiPair_run hi ho.1 ho.2) hg hs hr

end Sicae
