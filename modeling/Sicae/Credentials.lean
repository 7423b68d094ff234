import Sicae.Provisioning

/-! # Wi-Fi credentials from the web form to the driver

The credentials cross four buffers.  `save_wifi_credentials` hands two strings to NVS, which
stores them with their terminators; after a restart `read_wifi_credentials` reads them into
`wifiSsid` and `wifiPassword`, and `wifi_init_sta` copies these with `strncpy` into the fields of
`wifi_config`, which need no terminator.

`wifiSsid` has the 32 bytes of the driver's field and so no room for the terminator that NVS
counts: an SSID of 32 bytes is stored and then never read (`readStr_zero`). -/

namespace Sicae

open CString Transition

/-! ### The source -/

/-- The macro `WIFI_SSID_MAX_LEN`. -/
def wifiSsidMaxLen : ℕ := 32

/-- The macro `WIFI_PASS_MAX_LEN`. -/
def wifiPassMaxLen : ℕ := 64

/-- Two strings saved under two keys, in one session. -/
def saveCredentials (ssidKey passwordKey : CStr) (faults : NvsWriteFaults) (nvs : Nvs)
    (ssid password : CStr) : NvsSession :=
  match faults.openErr with
  | some e => { nvs := nvs, errors := [e] }
  | none =>
      let s : NvsSession := { nvs := nvs }
      let s := s.set faults ssidKey (.str ssid)
      let s := s.set faults passwordKey (.str password)
      s.commit faults

/-- `save_wifi_credentials`.  Its third argument `url` is not used. -/
def saveWifiCredentials : NvsWriteFaults → Nvs → CStr → CStr → NvsSession :=
  saveCredentials "wifi_ssid".toList "wifi_password".toList

/-- `save_ap_credentials`. -/
def saveApCredentials : NvsWriteFaults → Nvs → CStr → CStr → NvsSession :=
  saveCredentials "ap_ssid".toList "ap_password".toList

/-- `nvs_get_str` into an array whose size is passed as `length`.  NVS counts the terminator; a
string that does not fit is `ESP_ERR_NVS_INVALID_LENGTH`, and then nothing is written. -/
def nvsGetStr {n : ℕ} (nvs : Nvs) (getErr : Option EspErr) (key : CStr) (out : CharArray n) :
    Except EspErr (CharArray n) :=
  match getErr with
  | some e => .error e
  | none =>
    match nvs.lookup key with
    | some (.str s) =>
        if h : (s ++ ['\x00']).length ≤ n then .ok (out.write (s ++ ['\x00']) h)
        else .error (.other 0x110c)
    | some _ => .error .nvsTypeMismatch
    | none => .error .nvsNotFound

/-- Errors injected into one reading function: `nvs_open` and the `nvs_get` of each key. -/
structure NvsReadFaults where
  openErr : Option EspErr := none
  getErr : CStr → Option EspErr := fun _ => none

/-- One read of `read_wifi_credentials`: an error is logged and leaves the array as it was. -/
def readStr {n : ℕ} (nvs : Nvs) (faults : NvsReadFaults) (key : CStr) (out : CharArray n) :
    CharArray n :=
  match nvsGetStr nvs (faults.getErr key) key out with
  | .ok out => out
  | .error _ => out

/-- `read_wifi_credentials`. -/
def readWifiCredentials {n m : ℕ} (nvs : Nvs) (faults : NvsReadFaults) (ssid : CharArray n)
    (password : CharArray m) : CharArray n × CharArray m :=
  match faults.openErr with
  | some _ => (ssid, password)
  | none =>
      (readStr nvs faults "wifi_ssid".toList ssid,
       readStr nvs faults "wifi_password".toList password)

/-- The credentials in `wifi_config.sta`. -/
structure StaConfig where
  ssid : CharArray 32
  password : CharArray 64
deriving DecidableEq

/-- What `wifi_init_sta` copies into `wifi_config.sta`. -/
def wifiInitSta {n m : ℕ} (wifiSsid : CharArray n) (wifiPassword : CharArray m) : StaConfig where
  ssid := .strncpy 32 wifiSsid.str
  password := .strncpy 64 wifiPassword.str

/-- The credentials that `app_main` hands to the driver after a restart. -/
def staConfigAfterRestart (nvs : Nvs) (faults : NvsReadFaults) : StaConfig :=
  let read := readWifiCredentials nvs faults (.zero wifiSsidMaxLen) (.zero wifiPassMaxLen)
  wifiInitSta read.1 read.2

/-! ### Saving -/

/-- A save without an error reported has changed its two keys and nothing else. -/
theorem lookup_saveCredentials {ssidKey passwordKey ssid password : CStr} {nvs : Nvs}
    {faults : NvsWriteFaults}
    (h : (saveCredentials ssidKey passwordKey faults nvs ssid password).errors = []) :
    (saveCredentials ssidKey passwordKey faults nvs ssid password).nvs.lookup =
      Function.update (Function.update nvs.lookup ssidKey (some (.str ssid))) passwordKey
        (some (.str password)) := by
  unfold saveCredentials at h ⊢
  cases ho : faults.openErr with
  | some e => simp [ho] at h
  | none =>
      simp only [ho, NvsSession.errors_commit, NvsSession.errors_set] at h
      obtain ⟨⟨⟨-, hs⟩, hp⟩, -⟩ := h
      simp only [NvsSession.commit_nvs, NvsSession.lookup_set, KeyValue.write, if_pos hs,
        if_pos hp]

theorem lookup_keys_saveCredentials {ssidKey passwordKey ssid password : CStr} {nvs : Nvs}
    {faults : NvsWriteFaults} (hne : ssidKey ≠ passwordKey)
    (h : (saveCredentials ssidKey passwordKey faults nvs ssid password).errors = []) :
    (saveCredentials ssidKey passwordKey faults nvs ssid password).nvs.lookup ssidKey =
        some (.str ssid) ∧
      (saveCredentials ssidKey passwordKey faults nvs ssid password).nvs.lookup passwordKey =
        some (.str password) := by
  rw [lookup_saveCredentials h]
  constructor
  · rw [Function.update_of_ne hne, Function.update_self]
  · exact Function.update_self ..

theorem lookup_saveWifiCredentials {ssid password : CStr} {nvs : Nvs} {faults : NvsWriteFaults}
    (h : (saveWifiCredentials faults nvs ssid password).errors = []) :
    (saveWifiCredentials faults nvs ssid password).nvs.lookup "wifi_ssid".toList =
        some (.str ssid) ∧
      (saveWifiCredentials faults nvs ssid password).nvs.lookup "wifi_password".toList =
        some (.str password) :=
  lookup_keys_saveCredentials (by decide) h

/-- Saving does not touch the provisioning flag. -/
theorem flagSet_saveCredentials {ssidKey passwordKey ssid password : CStr} {nvs : Nvs}
    {faults : NvsWriteFaults} (hs : initializedKey ≠ ssidKey) (hp : initializedKey ≠ passwordKey)
    (h : (saveCredentials ssidKey passwordKey faults nvs ssid password).errors = [])
    (hf : FlagSet nvs) :
    FlagSet (saveCredentials ssidKey passwordKey faults nvs ssid password).nvs := by
  unfold FlagSet
  rw [lookup_saveCredentials h, Function.update_of_ne hp, Function.update_of_ne hs]
  exact hf

/-! ### Reading -/

/-- A stored string that leaves room for its terminator is read. -/
theorem str_readStr {n : ℕ} {nvs : Nvs} {faults : NvsReadFaults} {key s : CStr}
    (hs : nvs.lookup key = some (.str s)) (hz : '\x00' ∉ s) (hg : faults.getErr key = none)
    (hn : s.length < n) (out : CharArray n) : (readStr nvs faults key out).str = s := by
  have hl : (s ++ ['\x00']).length ≤ n := by
    rw [List.length_append, List.length_singleton]
    omega
  simp only [readStr, nvsGetStr, hg, hs, dif_pos hl]
  exact CharArray.str_write _ hz hl

/-- **What arrives in a cleared array**: the stored string if it can be read and leaves room for
its terminator, and nothing otherwise. -/
theorem readStr_zero {n : ℕ} {nvs : Nvs} {faults : NvsReadFaults} {key s : CStr}
    (hs : nvs.lookup key = some (.str s)) (hz : '\x00' ∉ s) :
    (readStr nvs faults key (.zero n)).str =
      if faults.getErr key = none ∧ s.length < n then s else [] := by
  split_ifs with h
  · exact str_readStr hs hz h.1 h.2 _
  · unfold readStr nvsGetStr
    cases hg : faults.getErr key with
    | some e => simp
    | none =>
        have hl : ¬ (s ++ ['\x00']).length ≤ n := by
          rw [List.length_append, List.length_singleton]
          exact fun hle => h ⟨hg, hle⟩
        simp only [hs, dif_neg hl]
        exact CharArray.str_zero

/-- An array read back is a copy of the saved string. -/
theorem padded_readStr_iff {n m : ℕ} {nvs : Nvs} {faults : NvsReadFaults} {key s : CStr}
    (hs : nvs.lookup key = some (.str s)) (hz : '\x00' ∉ s) (hm : m ≤ n) :
    (CharArray.strncpy n (readStr nvs faults key (.zero m)).str).Padded s ↔
      faults.getErr key = none ∧ s.length < m ∨ s = [] := by
  rw [CharArray.padded_strncpy_iff hz (CharArray.nul_not_mem_str _)
    ((CharArray.length_str_le _).trans hm), readStr_zero hs hz]
  by_cases h : faults.getErr key = none ∧ s.length < m
  · rw [if_pos h]
    exact iff_of_true rfl (.inl h)
  · rw [if_neg h]
    constructor
    · exact fun e => .inr e.symm
    · exact fun hc => (hc.resolve_left h).symm

/-! ### The credentials after a restart -/

/-- **Saved credentials and used credentials.**  After a save without an error reported, the
driver gets the saved bytes exactly if the SSID leaves room for a terminator in `wifiSsid` and the
reads after the restart succeed (the read of an empty password need not). -/
theorem staConfig_iff {ssid password : CStr} {nvs : Nvs} {faults : NvsWriteFaults}
    {readFaults : NvsReadFaults} (hs : 1 ≤ ssid.length ∧ ssid.length ≤ 32)
    (hp : password.length ≤ 63) (hsz : '\x00' ∉ ssid) (hpz : '\x00' ∉ password)
    (hok : (saveWifiCredentials faults nvs ssid password).errors = []) :
    (staConfigAfterRestart (saveWifiCredentials faults nvs ssid password).nvs
          readFaults).ssid.Padded ssid ∧
        (staConfigAfterRestart (saveWifiCredentials faults nvs ssid password).nvs
          readFaults).password.Padded password ↔
      ssid.length ≤ 31 ∧ readFaults.openErr = none ∧
        readFaults.getErr "wifi_ssid".toList = none ∧
        (readFaults.getErr "wifi_password".toList = none ∨ password = []) := by
  obtain ⟨h1, h2⟩ := lookup_saveWifiCredentials hok
  have hne : ssid ≠ [] := by
    rintro rfl
    exact absurd hs.1 (by decide)
  unfold staConfigAfterRestart readWifiCredentials wifiInitSta wifiSsidMaxLen wifiPassMaxLen
  cases ho : readFaults.openErr with
  | some e =>
      simp only [CharArray.str_zero]
      rw [CharArray.padded_strncpy_iff hsz (by simp) (by simp)]
      exact iff_of_false (fun hc => hne hc.1.symm) (by simp)
  | none =>
      simp only []
      rw [padded_readStr_iff h1 hsz le_rfl, padded_readStr_iff h2 hpz le_rfl]
      constructor
      · rintro ⟨ha, hb⟩
        obtain ⟨hg, hl⟩ := ha.resolve_right hne
        exact ⟨by omega, trivial, hg, hb.imp_left And.left⟩
      · rintro ⟨hl, -, hg, hb⟩
        exact ⟨.inl ⟨hg, by omega⟩, hb.imp_left fun hg' => ⟨hg', by omega⟩⟩

/-- The credentials of a home network. -/
theorem staConfig_home :
    (staConfigAfterRestart (saveWifiCredentials {} .empty "HomeNet".toList
          "correct horse".toList).nvs {}).ssid.Padded "HomeNet".toList ∧
      (staConfigAfterRestart (saveWifiCredentials {} .empty "HomeNet".toList
          "correct horse".toList).nvs {}).password.Padded "correct horse".toList :=
  (staConfig_iff (by decide) (by decide) (by decide) (by decide) (by decide +kernel)).mpr
    ⟨by decide, rfl, rfl, .inl rfl⟩

/-- An SSID of 32 bytes, the longest that 802.11 allows. -/
def longSsid : CStr := List.replicate 32 'x'

/-- It is saved without an error, and the driver is handed an empty SSID after the restart. -/
theorem longSsid_lost :
    (saveWifiCredentials {} .empty longSsid "correct horse".toList).errors = [] ∧
      (staConfigAfterRestart (saveWifiCredentials {} .empty longSsid
        "correct horse".toList).nvs {}).ssid = .zero 32 ∧
      ¬ (staConfigAfterRestart (saveWifiCredentials {} .empty longSsid
        "correct horse".toList).nvs {}).ssid.Padded longSsid :=
  ⟨by decide +kernel, by decide +kernel, by decide +kernel⟩

/-! ### Restarts in between -/

/-- Boots that can read the flag leave the content alone. -/
theorem foldl_boot_of_flagSet {d : DeviceId} {nvs : Nvs} (hf : FlagSet nvs)
    {boots : List InitFaults} (hb : ∀ faults ∈ boots, faults.getErr = none) :
    boots.foldl (boot d) nvs = nvs := by
  induction boots with
  | nil => rfl
  | cons faults boots ih =>
      rw [List.foldl_cons, boot_of_flagSet hf (hb faults List.mem_cons_self)]
      exact ih fun f hm => hb f (List.mem_cons_of_mem _ hm)

/-- **Credentials saved on a provisioned device last.**  Any number of boots that can read the
flag leave the driver with what it gets at the first one. -/
theorem staConfig_foldl_boot {d : DeviceId} {ssid password : CStr} {nvs : Nvs}
    {faults : NvsWriteFaults} {readFaults : NvsReadFaults} (hf : FlagSet nvs)
    (hok : (saveWifiCredentials faults nvs ssid password).errors = [])
    {boots : List InitFaults} (hb : ∀ faults ∈ boots, faults.getErr = none) :
    staConfigAfterRestart
        (boots.foldl (boot d) (saveWifiCredentials faults nvs ssid password).nvs) readFaults =
      staConfigAfterRestart (saveWifiCredentials faults nvs ssid password).nvs readFaults := by
  have h := flagSet_saveCredentials (by decide) (by decide) hok hf
  exact congrArg (staConfigAfterRestart · readFaults) (foldl_boot_of_flagSet h hb)

/-- So do the credentials of the access point, which stay in NVS. -/
theorem apCredentials_foldl_boot {d : DeviceId} {ssid password : CStr} {nvs : Nvs}
    {faults : NvsWriteFaults} (hf : FlagSet nvs)
    (hok : (saveApCredentials faults nvs ssid password).errors = [])
    {boots : List InitFaults} (hb : ∀ faults ∈ boots, faults.getErr = none) :
    (boots.foldl (boot d) (saveApCredentials faults nvs ssid password).nvs).lookup
        "ap_ssid".toList = some (.str ssid) ∧
      (boots.foldl (boot d) (saveApCredentials faults nvs ssid password).nvs).lookup
        "ap_password".toList = some (.str password) := by
  have h := flagSet_saveCredentials (by decide) (by decide) hok hf
  rw [saveApCredentials, foldl_boot_of_flagSet h hb]
  exact lookup_keys_saveCredentials (by decide) hok

end Sicae
