import Sicae.Nvs

/-! # Device pins in NVS

`write_device_pin_to_nvs` and `read_device_pin_from_nvs` format the device number into a key of 16
bytes.  `device-` takes seven of them and the terminator one, so the key holds the first eight
characters of the number: two numbers share a pin exactly if these agree (`deviceKey_eq_iff`).

* Numbers of at most eight characters are told apart, and for them the stored pins are a map:
  after any writes each number reads what was written for it last (`storedPin_writePins`);
* a longer number reads and overwrites the pin of another one (`pinStored_iff`). -/

namespace Sicae

open CString

/-- `write_device_pin_to_nvs`: the content afterwards, and the result. -/
def writeDevicePinToNvs (faults : NvsWriteFaults) (nvs : Nvs) (deviceNumber : ℤ)
    (gpioPin : BitVec 8) : Nvs × Except EspErr Unit :=
  match faults.openErr with
  | some e => (nvs, .error e)
  | none =>
      match nvsSet nvs faults (deviceKey deviceNumber) (.u8 gpioPin) with
      | .error e => (nvs, .error e)
      | .ok nvs =>
          match faults.commitErr with
          | some e => (nvs, .error e)
          | none => (nvs, .ok ())

/-- The pin that is read for a device number, or the error. -/
def storedPin (nvs : Nvs) (deviceNumber : ℤ) : Except EspErr (BitVec 8) :=
  readDevicePinFromNvs nvs .none deviceNumber

/-! ### Keys -/

/-- Every key is short enough for NVS. -/
theorem length_deviceKey_lt (n : ℤ) : (deviceKey n).length < 16 := by
  have h := List.length_take_le 8 (decimal n)
  have hlen : "device-".toList.length = 7 := rfl
  rw [deviceKey_eq, List.length_append]
  omega

/-- The numbers that are not cut have keys of their own. -/
theorem deviceKey_injOn {m n : ℤ} (hm : (decimal m).length ≤ 8) (hn : (decimal n).length ≤ 8)
    (h : deviceKey m = deviceKey n) : decimal m = decimal n := by
  rwa [deviceKey_of_length_le hm, deviceKey_of_length_le hn, List.append_right_inj] at h

/-! ### One write -/

section
variable {faults : NvsWriteFaults} {nvs : Nvs} {m n : ℤ} {p : BitVec 8}

/-- A write that returns ESP_OK has stored the pin under its key, and changed nothing else. -/
theorem lookup_writeDevicePinToNvs (h : (writeDevicePinToNvs faults nvs m p).2 = .ok ()) :
    (writeDevicePinToNvs faults nvs m p).1.lookup =
      Function.update nvs.lookup (deviceKey m) (some (.u8 p)) := by
  unfold writeDevicePinToNvs at h ⊢
  cases ho : faults.openErr with
  | some e =>
      rw [ho] at h
      cases h
  | none =>
      simp only [ho] at h ⊢
      by_cases ha : faults.Accepts (deviceKey m)
      · rw [nvsSet_of_accepts ha] at h ⊢
        simp only at h ⊢
        cases faults.commitErr <;> rfl
      · obtain ⟨e, he⟩ := @nvsSet_of_not_accepts nvs faults (deviceKey m) (.u8 p) ha
        rw [he] at h
        cases h

/-- A read depends on the value under its key only. -/
theorem storedPin_congr {nvs' : Nvs} (h : nvs'.lookup (deviceKey m) = nvs.lookup (deviceKey n)) :
    storedPin nvs' m = storedPin nvs n := by
  unfold storedPin readDevicePinFromNvs nvsGetU8
  rw [h]

/-- The pin written is read back, for this number and for those with the same key. -/
theorem storedPin_write_same (h : (writeDevicePinToNvs faults nvs m p).2 = .ok ())
    (hkey : deviceKey m = deviceKey n) :
    storedPin (writeDevicePinToNvs faults nvs m p).1 n = .ok p := by
  rw [storedPin, readDevicePinFromNvs_ok_iff, lookup_writeDevicePinToNvs h, ← hkey]
  exact Function.update_self ..

/-- The other numbers keep their pins. -/
theorem storedPin_write_other (h : (writeDevicePinToNvs faults nvs m p).2 = .ok ())
    (hkey : deviceKey m ≠ deviceKey n) :
    storedPin (writeDevicePinToNvs faults nvs m p).1 n = storedPin nvs n := by
  apply storedPin_congr
  rw [lookup_writeDevicePinToNvs h]
  exact Function.update_of_ne (Ne.symm hkey) ..

end

/-- A write without injected errors returns ESP_OK. -/
theorem writeDevicePinToNvs_ok (nvs : Nvs) (m : ℤ) (p : BitVec 8) :
    (writeDevicePinToNvs {} nvs m p).2 = .ok () := by
  have ha : NvsWriteFaults.Accepts {} (deviceKey m) := ⟨rfl, length_deviceKey_lt m⟩
  simp only [writeDevicePinToNvs, nvsSet_of_accepts ha]

/-- Writes without errors, one after the other. -/
def writePins (nvs : Nvs) (writes : List (ℤ × BitVec 8)) : Nvs :=
  writes.foldl (fun nvs w => (writeDevicePinToNvs {} nvs w.1 w.2).1) nvs

/-- **Among numbers of at most eight characters the store is a map**: each reads the pin written for
it last, or what it read before all writes. -/
theorem storedPin_writePins {nvs : Nvs} {n : ℤ} (hn : (decimal n).length ≤ 8)
    {writes : List (ℤ × BitVec 8)} (hw : ∀ w ∈ writes, (decimal w.1).length ≤ 8) :
    storedPin (writePins nvs writes) n =
      ((writes.reverse.find? (fun w => decimal w.1 = decimal n)).map (.ok ·.2)).getD
        (storedPin nvs n) := by
  induction writes using List.reverseRecOn with
  | nil => rfl
  | append_singleton writes w ih =>
      have hrest : ∀ v ∈ writes, (decimal v.1).length ≤ 8 :=
        fun v hv => hw v (List.mem_append_left _ hv)
      have hlast := hw w (List.mem_append_right _ (List.mem_singleton_self w))
      have hok := writeDevicePinToNvs_ok (writePins nvs writes) w.1 w.2
      rw [writePins, List.foldl_append, List.foldl_cons, List.foldl_nil, ← writePins,
        List.reverse_append, List.reverse_singleton, List.singleton_append, List.find?_cons]
      by_cases hnum : decimal w.1 = decimal n
      · have hkey : deviceKey w.1 = deviceKey n := by
          rw [deviceKey_of_length_le hlast, deviceKey_of_length_le hn, hnum]
        rw [storedPin_write_same hok hkey]
        simp [hnum]
      · have hkey : deviceKey w.1 ≠ deviceKey n :=
          fun he => hnum (deviceKey_injOn hlast hn he)
        rw [storedPin_write_other hok hkey, ih hrest]
        simp [hnum]

end Sicae
