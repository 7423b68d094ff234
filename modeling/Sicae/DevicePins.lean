import Sicae.DeviceTable

/-! # The pins of the device table

The loop of `ON_FINISH` fills `devices[index].pin`, a 32-bit `gpio_num_t`, through the `uint8_t *`
of `read_device_pin_from_nvs`: the byte found in NVS replaces the lowest byte of the field, and
the other three keep what the block held before.  A failed lookup sets the field to -1.

`setPower` gets the field narrowed to a byte, so the leftover bytes do not reach the pins, but -1
does: it becomes the pin 255.  And a key of more than 15 characters is cut by the key buffer, so
that the lookup finds the pin of another device.  An entry is as it should be exactly if none of
the three happens (`pinOk_storeDevice_iff`). -/

namespace Sicae

open CString

/-! ### The field -/

/-- The byte in the lowest place is the field's value exactly if the other three are zero. -/
theorem append_eq_setWidth_iff (upper : BitVec 24) (p : BitVec 8) :
    upper ++ p = p.setWidth 32 ↔ upper = 0#24 := by
  have happend : p.setWidth 32 = 0#24 ++ p := BitVec.setWidth_eq_append (by omega)
  rw [happend]
  constructor
  · intro h
    have hupper := congrArg (BitVec.extractLsb' 8 24) h
    rwa [BitVec.extractLsb'_append_eq_left, BitVec.extractLsb'_append_eq_left] at hupper
  · rintro rfl
    rfl

/-- Narrowed to a byte, the field is the byte stored. -/
theorem setWidth_append_byte (upper : BitVec 24) (p : BitVec 8) : (upper ++ p).setWidth 8 = p := by
  rw [BitVec.setWidth_append, dif_pos le_rfl, BitVec.setWidth_eq]

/-! ### The lookup -/

/-- A pin that was read is stored under the formatted key. -/
theorem lookup_of_read {nvs : Nvs} {faults : NvsFaults} {n : ℤ} {p : BitVec 8}
    (h : readDevicePinFromNvs nvs faults n = .ok p) : nvs.lookup (deviceKey n) = some (.u8 p) := by
  unfold readDevicePinFromNvs nvsGetU8 at h
  split at h
  · cases h
  · split at h
    · cases h
    · split at h
      · rename_i v hv
        obtain rfl := Except.ok.inj h
        exact hv
      · cases h
      · cases h

/-- The key of a device fits into the key buffer exactly if its number has at most 8 characters;
only then can a value be stored under it. -/
theorem stored_iff {nvs : Nvs} {faults : NvsFaults} {n : ℤ} {p : BitVec 8}
    (h : readDevicePinFromNvs nvs faults n = .ok p) :
    nvs.lookup ("device-".toList ++ decimal n) = some (.u8 p) ↔ (decimal n).length ≤ 8 := by
  have hlen : ("device-".toList ++ decimal n).length = 7 + (decimal n).length := by
    rw [List.length_append]
    rfl
  constructor
  · intro hstored
    have hlt := nvs.key_lt _ (by rw [hstored]; rfl)
    omega
  · intro hshort
    rw [← deviceKey_of_length_le hshort]
    exact lookup_of_read h

/-! ### One entry -/

/-- The entry `d` is as it should be after the lookup of its pin: the field is the byte stored under
the key of the device, or -1 after a failure, and if it is a relay, the byte that `driveRelay`
hands to `setPower` is the pin found in NVS. -/
structure PinOk (nvs : Nvs) (read : Except EspErr (BitVec 8)) (d : Device) : Prop where
  found : ∀ p, read = .ok p →
    nvs.lookup ("device-".toList ++ decimal d.id) = some (.u8 p) ∧ d.pin = p.setWidth 32
  failed : ∀ e, read = .error e → d.pin = -1#32
  power : d.isRelay = true → ∃ p, read = .ok p ∧ d.pin.setWidth 8 = p

/-- The condition on an element: if its lookup succeeds, the number of the device has at most 8
characters and the block left zeros above the lowest byte of the field; and the lookup of a relay
succeeds. -/
def LookupOk (read : Except EspErr (BitVec 8)) (leftover : BitVec 32) (x : DeviceData) : Prop :=
  (∀ p, read = .ok p → (decimal x.id).length ≤ 8 ∧ leftover.extractLsb' 8 24 = 0#24) ∧
    (x.type = "relay".toList → ∃ p, read = .ok p)

/-- **An entry is as it should be exactly under that condition.** -/
theorem pinOk_storeDevice_iff (nvs : Nvs) (faults : NvsFaults) (leftover : BitVec 32)
    (x : DeviceData) :
    PinOk nvs (readDevicePinFromNvs nvs faults x.id) (storeDevice nvs faults leftover x) ↔
      LookupOk (readDevicePinFromNvs nvs faults x.id) leftover x := by
  have hrelay : (storeDevice nvs faults leftover x).isRelay = true ↔ x.type = "relay".toList :=
    beq_iff_eq
  have hpin : (storeDevice nvs faults leftover x).pin =
      loadPin leftover (readDevicePinFromNvs nvs faults x.id) := rfl
  cases hread : readDevicePinFromNvs nvs faults x.id with
  | ok p =>
      rw [hread, loadPin] at hpin
      constructor
      · intro h
        obtain ⟨hstored, hfield⟩ := h.found p rfl
        rw [hpin, append_eq_setWidth_iff] at hfield
        exact ⟨fun q _ => ⟨(stored_iff hread).mp hstored, hfield⟩, fun _ => ⟨p, rfl⟩⟩
      · rintro ⟨hfound, -⟩
        obtain ⟨hshort, hzero⟩ := hfound p rfl
        constructor
        · intro q hq
          obtain rfl := Except.ok.inj hq
          exact ⟨(stored_iff hread).mpr hshort, hpin.trans ((append_eq_setWidth_iff _ _).mpr hzero)⟩
        · intro e he
          cases he
        · intro _
          exact ⟨p, rfl, by rw [hpin, setWidth_append_byte]⟩
  | error e =>
      rw [hread, loadPin] at hpin
      constructor
      · intro h
        refine ⟨fun p hp => (by cases hp), fun htype => ?_⟩
        obtain ⟨p, hp, -⟩ := h.power (hrelay.mpr htype)
        cases hp
      · rintro ⟨-, hlookup⟩
        constructor
        · intro p hp
          cases hp
        · intro _ _
          exact hpin
        · intro hd
          obtain ⟨p, hp⟩ := hlookup (hrelay.mp hd)
          cases hp

/-! ### The whole table -/

/-- The entry that the loop stores for the element at a position of an array of valid elements. -/
theorem storedDevices_getElem? (nvs : Nvs) (env : Env) (heap : ℕ → BitVec 32) :
    ∀ (items : List Json) (pos : ℕ), (∀ item ∈ items, ValidElement item) → ∀ j : ℕ,
      (storedDevices nvs env heap items pos pos)[j]? =
        ((items.filterMap deviceData)[j]?).map
          (storeDevice nvs (env.pinFaults (pos + j)) (heap (pos + j)))
  | [], _, _, _ => rfl
  | item :: items, pos, hvalid, j => by
      obtain ⟨hitem, hitems⟩ := List.forall_mem_cons.mp hvalid
      obtain ⟨x, hx⟩ := Option.isSome_iff_exists.mp (deviceData_isSome_iff.mpr hitem)
      rw [storedDevices, hx, List.filterMap_cons_some hx]
      cases j with
      | zero => rfl
      | succ j =>
          rw [List.getElem?_cons_succ, List.getElem?_cons_succ,
            storedDevices_getElem? nvs env heap items (pos + 1) hitems j]
          rw [show pos + 1 + j = pos + (j + 1) by omega]

/-- The lookup of the pin for the element at a position. -/
def pinRead (nvs : Nvs) (env : Env) (j : ℕ) (x : DeviceData) : Except EspErr (BitVec 8) :=
  readDevicePinFromNvs nvs (env.pinFaults j) x.id

/-- Every element of the array has its entry in the table, and it is as it should be. -/
def PinsOk (env : Env) (items : List Json) (g g' : Globals) : Prop :=
  ∀ j x, (items.filterMap deviceData)[j]? = some x →
    ∃ d, g'.device? j = some d ∧ d.data = x ∧ PinOk g.nvs (pinRead g.nvs env j x) d

/-- **Each table entry carries the pin stored for its id, and only such pins are driven, exactly if
no successful lookup has leftover bytes above it or a number too long for its key, and no lookup
of a relay fails.** -/
theorem pinsOk_devicesBranch_iff {env : Env} {items : List Json} {g : Globals}
    {heap : ℕ → BitVec 32} (hvalid : ∀ item ∈ items, ValidElement item)
    (hm : env.malloc items.length = some heap) :
    PinsOk env items g (devicesBranch env items g).1 ↔
      ∀ j x, (items.filterMap deviceData)[j]? = some x →
        LookupOk (pinRead g.nvs env j x) (heap j) x := by
  have hentry : ∀ j x, (items.filterMap deviceData)[j]? = some x →
      (devicesBranch env items g).1.device? j =
        some (storeDevice g.nvs (env.pinFaults j) (heap j) x) := by
    intro j x hx
    rw [device?_devicesBranch hm, storedDevices_getElem? _ _ _ _ _ hvalid, hx, Nat.zero_add]
    rfl
  constructor
  · intro h j x hx
    obtain ⟨d, hd, -, hok⟩ := h j x hx
    obtain rfl := Option.some.inj ((hentry j x hx).symm.trans hd)
    exact (pinOk_storeDevice_iff g.nvs (env.pinFaults j) (heap j) x).mp hok
  · intro h j x hx
    exact ⟨_, hentry j x hx, rfl,
      (pinOk_storeDevice_iff g.nvs (env.pinFaults j) (heap j) x).mpr (h j x hx)⟩

/-- The data of the example relay. -/
def exampleRelayData : DeviceData := ⟨"Luz".toList, "relay".toList, 0, true⟩

theorem deviceData_exampleRelay : deviceData exampleRelay = some exampleRelayData := by
  decide +kernel

theorem validElement_exampleRelay : ∀ item ∈ [exampleRelay], ValidElement item := by
  intro item hitem
  rw [List.mem_singleton.mp hitem, ← deviceData_isSome_iff, deviceData_exampleRelay]
  rfl

/-- In zeroed memory the relay gets its pin. -/
theorem pinsOk_zeroedHeap :
    PinsOk zeroedHeap [exampleRelay] exampleGlobals
        (devicesBranch zeroedHeap [exampleRelay] exampleGlobals).1 ↔
      ∀ j x, ([exampleRelay].filterMap deviceData)[j]? = some x →
        LookupOk (pinRead exampleGlobals.nvs zeroedHeap j x) 0#32 x :=
  pinsOk_devicesBranch_iff validElement_exampleRelay rfl

/-- A heap whose blocks hold 256 in every word. -/
def usedHeap : Env where
  malloc _ := some (fun _ => 0x100#32)
  pinFaults _ := .none

/-- The relay on GPIO 23 gets the pin 279. -/
theorem not_pinsOk_usedHeap :
    ¬ PinsOk usedHeap [exampleRelay] exampleGlobals
      (devicesBranch usedHeap [exampleRelay] exampleGlobals).1 := by
  intro h
  have hdata : ([exampleRelay].filterMap deviceData)[0]? = some exampleRelayData := by
    rw [List.filterMap_cons_some deviceData_exampleRelay]
    rfl
  have hpin : ((devicesBranch usedHeap [exampleRelay] exampleGlobals).1.device? 0).map Device.pin =
      some 0x117#32 := by
    decide +kernel
  obtain ⟨d, hd, -, hok⟩ := h 0 exampleRelayData hdata
  have hfound := (hok.found 23#8 rfl).2
  rw [hd, Option.map_some, hfound] at hpin
  exact absurd hpin (by decide)

end Sicae
