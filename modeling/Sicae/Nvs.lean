import Sicae.CString
import Sicae.KeyValue

/-! # The `storage` namespace of the NVS partition

An `Nvs` is the content of the namespace: typed values under keys of at most 15 characters
(`NVS_KEY_NAME_MAX_SIZE` counts the terminator).  Every access may in addition fail for
reasons outside the content (`NvsFaults`, `NvsWriteFaults`). -/

namespace Sicae

open CString

/-- The `esp_err_t` codes that matter here; every other code is `other`. -/
inductive EspErr where
  | nvsNotFound
  | nvsTypeMismatch
  | other (code : ℤ)
deriving DecidableEq, Repr

/-- A stored value.  The types that the firmware never reads are not told apart. -/
inductive NvsValue where
  | u8 (v : BitVec 8)
  | str (s : CStr)
  | otherType
deriving DecidableEq, Repr

/-- Content of the namespace. -/
structure Nvs where
  lookup : CStr → Option NvsValue
  key_lt : ∀ key, (lookup key).isSome → key.length < 16

/-- The empty namespace. -/
def Nvs.empty : Nvs := ⟨fun _ => none, by simp⟩

/-- The namespace that stores one value. -/
def Nvs.single (key : CStr) (v : NvsValue) (h : key.length < 16) : Nvs :=
  ⟨fun k => if k = key then some v else none, by
    intro k hk
    by_cases e : k = key
    · rw [e]; exact h
    · simp [e] at hk⟩

theorem Nvs.lookup_single (key : CStr) (v : NvsValue) (h : key.length < 16) :
    (Nvs.single key v h).lookup key = some v := if_pos rfl

/-- Errors injected into one access: `nvs_open` or the `nvs_get` that follows it. -/
structure NvsFaults where
  openErr : Option EspErr := none
  getErr : Option EspErr := none

/-- An access without injected errors. -/
def NvsFaults.none : NvsFaults := {}

/-- `nvs_get_u8`. -/
def nvsGetU8 (nvs : Nvs) (faults : NvsFaults) (key : CStr) : Except EspErr (BitVec 8) :=
  match faults.getErr with
  | some e => .error e
  | .none =>
    match nvs.lookup key with
    | some (.u8 v) => .ok v
    | some _ => .error .nvsTypeMismatch
    | .none => .error .nvsNotFound

/-- Without injected errors a `u8` is read exactly if one is stored. -/
theorem nvsGetU8_ok_iff {nvs : Nvs} {key : CStr} {v : BitVec 8} :
    nvsGetU8 nvs .none key = .ok v ↔ nvs.lookup key = some (.u8 v) := by
  unfold nvsGetU8 NvsFaults.none
  cases nvs.lookup key with
  | none => simp
  | some w => cases w <;> simp

/-- The key of a device, `device-%d` formatted into 16 bytes. -/
def deviceKey (deviceNumber : ℤ) : CStr :=
  snprintf 16 ("device-".toList ++ decimal deviceNumber)

/-- A key holds eight characters of the number. -/
theorem deviceKey_eq (n : ℤ) : deviceKey n = "device-".toList ++ (decimal n).take 8 := by
  have hlen : "device-".toList.length = 7 := rfl
  rw [deviceKey, snprintf, List.take_append, List.take_of_length_le (by omega), hlen]

/-- A number of at most eight characters is not cut. -/
theorem deviceKey_of_length_le {n : ℤ} (h : (decimal n).length ≤ 8) :
    deviceKey n = "device-".toList ++ decimal n := by
  rw [deviceKey_eq, List.take_of_length_le h]

/-- `read_device_pin_from_nvs`. -/
def readDevicePinFromNvs (nvs : Nvs) (faults : NvsFaults) (deviceNumber : ℤ) :
    Except EspErr (BitVec 8) :=
  match faults.openErr with
  | some e => .error e
  | .none => nvsGetU8 nvs faults (deviceKey deviceNumber)

/-- Without injected errors a pin is read exactly if a `u8` is stored under the device's key. -/
theorem readDevicePinFromNvs_ok_iff {nvs : Nvs} {n : ℤ} {p : BitVec 8} :
    readDevicePinFromNvs nvs .none n = .ok p ↔ nvs.lookup (deviceKey n) = some (.u8 p) :=
  nvsGetU8_ok_iff

/-- A key that is stored is not cut by the 16-byte key buffer. -/
theorem deviceKey_of_stored {nvs : Nvs} {n : ℤ} {v : NvsValue}
    (h : nvs.lookup ("device-".toList ++ decimal n) = some v) :
    deviceKey n = "device-".toList ++ decimal n :=
  snprintf_of_length_lt (nvs.key_lt _ (by rw [h]; rfl))

/-! ### Writing -/

/-- The namespace after a successful `nvs_set`, which is visible at once. -/
def Nvs.set (nvs : Nvs) (key : CStr) (v : NvsValue) (h : key.length < 16) : Nvs :=
  ⟨Function.update nvs.lookup key (some v), by
    intro k hk
    by_cases e : k = key
    · rw [e]; exact h
    · rw [Function.update_of_ne e] at hk
      exact nvs.key_lt k hk⟩

/-- Errors injected into one writing function: `nvs_open`, the `nvs_set` of each key and
`nvs_commit`. -/
structure NvsWriteFaults where
  openErr : Option EspErr := none
  setErr : CStr → Option EspErr := fun _ => none
  commitErr : Option EspErr := none

/-- `nvs_set_str`, `nvs_set_u8`.  A key of more than 15 characters is
`ESP_ERR_NVS_KEY_TOO_LONG`. -/
def nvsSet (nvs : Nvs) (faults : NvsWriteFaults) (key : CStr) (v : NvsValue) :
    Except EspErr Nvs :=
  match faults.setErr key with
  | some e => .error e
  | none => if h : key.length < 16 then .ok (nvs.set key v h) else .error (.other 0x1109)

/-- An open handle: the namespace and the errors of the calls so far, which the firmware logs
and otherwise ignores. -/
structure NvsSession where
  nvs : Nvs
  errors : List EspErr := []

/-- An `nvs_set` whose error is logged. -/
def NvsSession.set (s : NvsSession) (faults : NvsWriteFaults) (key : CStr) (v : NvsValue) :
    NvsSession :=
  match nvsSet s.nvs faults key v with
  | .ok nvs => { s with nvs := nvs }
  | .error e => { s with errors := s.errors ++ [e] }

/-- `nvs_commit`, which does nothing, with its error logged. -/
def NvsSession.commit (s : NvsSession) (faults : NvsWriteFaults) : NvsSession :=
  match faults.commitErr with
  | some e => { s with errors := s.errors ++ [e] }
  | none => s

/-- The `nvs_set` of the key succeeds. -/
def NvsWriteFaults.Accepts (faults : NvsWriteFaults) (key : CStr) : Prop :=
  faults.setErr key = none ∧ key.length < 16

instance (faults : NvsWriteFaults) : DecidablePred faults.Accepts :=
  fun _ => inferInstanceAs (Decidable (_ ∧ _))

theorem nvsSet_of_accepts {nvs : Nvs} {faults : NvsWriteFaults} {key : CStr} {v : NvsValue}
    (h : faults.Accepts key) : nvsSet nvs faults key v = .ok (nvs.set key v h.2) := by
  obtain ⟨he, hl⟩ := h
  simp only [nvsSet, he]
  exact dif_pos hl

theorem nvsSet_of_not_accepts {nvs : Nvs} {faults : NvsWriteFaults} {key : CStr} {v : NvsValue}
    (h : ¬ faults.Accepts key) : ∃ e, nvsSet nvs faults key v = .error e := by
  unfold nvsSet
  cases he : faults.setErr key with
  | some e => exact ⟨e, rfl⟩
  | none => exact ⟨_, dif_neg fun hl => h ⟨he, hl⟩⟩

/-- A call of `nvs_set` is a write to the content that may fail. -/
theorem NvsSession.lookup_set (s : NvsSession) (faults : NvsWriteFaults) (key : CStr)
    (v : NvsValue) :
    (s.set faults key v).nvs.lookup = KeyValue.write faults.Accepts s.nvs.lookup (key, v) := by
  unfold NvsSession.set KeyValue.write
  by_cases h : faults.Accepts key
  · rw [nvsSet_of_accepts h, if_pos h]
    rfl
  · obtain ⟨e, he⟩ := @nvsSet_of_not_accepts s.nvs faults key v h
    rw [he, if_neg h]

/-- A call of `nvs_set` logs nothing exactly if it succeeds. -/
theorem NvsSession.errors_set (s : NvsSession) (faults : NvsWriteFaults) (key : CStr)
    (v : NvsValue) :
    (s.set faults key v).errors = [] ↔ s.errors = [] ∧ faults.Accepts key := by
  unfold NvsSession.set
  by_cases h : faults.Accepts key
  · rw [nvsSet_of_accepts h]
    simp [h]
  · obtain ⟨e, he⟩ := @nvsSet_of_not_accepts s.nvs faults key v h
    rw [he]
    simp [h]

@[simp] theorem NvsSession.commit_nvs (s : NvsSession) (faults : NvsWriteFaults) :
    (s.commit faults).nvs = s.nvs := by
  unfold NvsSession.commit
  cases faults.commitErr <;> rfl

theorem NvsSession.errors_commit (s : NvsSession) (faults : NvsWriteFaults) :
    (s.commit faults).errors = [] ↔ s.errors = [] ∧ faults.commitErr = none := by
  unfold NvsSession.commit
  cases faults.commitErr <;> simp

@[ext] theorem Nvs.ext {a b : Nvs} (h : a.lookup = b.lookup) : a = b := by
  obtain ⟨f, hf⟩ := a
  obtain ⟨f', hf'⟩ := b
  obtain rfl : f = f' := h
  rfl

end Sicae
