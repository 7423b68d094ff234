import Sicae.Webserver

/-! # The device table after a refresh

`ON_FINISH` for `devices.json` stores the valid elements of the array one after the other, but
takes `deviceCount` from the length of the array, before the loop and before `malloc`.  Hence
the table is the list of valid devices exactly when every element is valid and the block could
be allocated, or the array is empty. -/

namespace Sicae

open CString

/-- The members of a table entry that come from the JSON element. -/
def Device.data (d : Device) : DeviceData := ⟨d.name, d.type, d.id, d.state⟩

/-- The table is exactly the list of the valid elements: the first `deviceCount` entries are
initialised and are, in order, their data; without a table the count is zero. -/
def TableExact (items : List Json) (g : Globals) : Prop :=
  match g.devices with
  | none => g.deviceCount = 0
  | some _ =>
      g.deviceCount = (items.filterMap deviceData).length ∧
      ∀ i, i < g.deviceCount →
        ∃ x, (items.filterMap deviceData)[i]? = some x ∧ (g.device? i).map Device.data = some x

/-- An exact table has no uninitialised entry below its count, which is what the loops of
`free_devices_array`, `populate_device_menu` and `read_acs712_task` rely on. -/
theorem TableExact.initialised {items : List Json} {g : Globals} (h : TableExact items g) {i : ℕ}
    (hi : i < g.deviceCount) : (g.device? i).isSome := by
  rw [TableExact] at h
  cases hd : g.devices with
  | none =>
      rw [hd] at h
      omega
  | some t =>
      rw [hd] at h
      obtain ⟨x, -, hx⟩ := h.2 i hi
      rw [← Option.isSome_map, hx, Option.isSome_some]

theorem not_tableExact_of_slot {items : List Json} {g : Globals} {i : ℕ} (hi : i < g.deviceCount)
    (hn : g.device? i = none) : ¬ TableExact items g := fun h => by
  have := h.initialised hi
  rw [hn] at this
  cases this

theorem length_filterMap_deviceData_eq_iff {items : List Json} :
    (items.filterMap deviceData).length = items.length ↔ ∀ x ∈ items, ValidElement x := by
  rw [List.length_filterMap_eq_countP, List.countP_eq_length]
  simp only [deviceData_isSome_iff]

@[simp] theorem storeDevice_data (nvs : Nvs) (faults : NvsFaults) (leftover : BitVec 32)
    (x : DeviceData) : (storeDevice nvs faults leftover x).data = x := rfl

/-- The stored entries carry the data of the valid elements. -/
theorem storedDevices_data (nvs : Nvs) (env : Env) (heap : ℕ → BitVec 32) :
    ∀ (items : List Json) (pos index : ℕ),
      (storedDevices nvs env heap items pos index).map Device.data = items.filterMap deviceData
  | [], _, _ => rfl
  | device :: items, pos, index => by
      have ih := storedDevices_data nvs env heap items (pos + 1)
      cases h : deviceData device with
      | none => simp [storedDevices, h, ih]
      | some x => simp [storedDevices, h, ih]

/-- The slots of the table that a refresh leaves behind. -/
theorem device?_devicesBranch {env : Env} {items : List Json} {g : Globals} {heap : ℕ → BitVec 32}
    (hm : env.malloc items.length = some heap) (i : ℕ) :
    (devicesBranch env items g).1.device? i = (storedDevices g.nvs env heap items 0 0)[i]? := by
  rw [devicesBranch_eq, hm]
  simp only [Globals.device?, Option.bind_some]
  rcases Nat.lt_or_ge i (storedDevices g.nvs env heap items 0 0).length with h | h
  · rw [List.getElem?_append_left (by simpa using h), List.getElem?_map]
    simp [List.getElem?_eq_getElem h]
  · rw [List.getElem?_append_right (by simpa using h), List.getElem?_replicate,
      List.getElem?_eq_none h]
    split <;> rfl

/-- The branch for an array leaves the exact table behind exactly when every element is valid
and the block could be allocated, or the array is empty. -/
theorem tableExact_devicesBranch_iff (env : Env) (items : List Json) (g : Globals) :
    TableExact items (devicesBranch env items g).1 ↔
      items = [] ∨ ((env.malloc items.length).isSome ∧ ∀ x ∈ items, ValidElement x) := by
  rw [← length_filterMap_deviceData_eq_iff]
  cases hm : env.malloc items.length with
  | none =>
      rw [devicesBranch_eq, hm]
      simp [TableExact]
  | some heap =>
      have hslot := device?_devicesBranch (g := g) hm
      have hcount : (devicesBranch env items g).1.deviceCount = items.length := by
        rw [devicesBranch_eq, hm]
      have hdev : ∃ t, (devicesBranch env items g).1.devices = some t := by
        rw [devicesBranch_eq, hm]
        exact ⟨_, rfl⟩
      obtain ⟨t, ht⟩ := hdev
      rw [TableExact, ht]
      simp only [hcount, hslot, Option.isSome_some, true_and]
      constructor
      · rintro ⟨h, -⟩
        exact Or.inr h.symm
      · intro h
        have he : items.length = (items.filterMap deviceData).length := by
          rcases h with rfl | h
          · rfl
          · exact h.symm
        refine ⟨he, fun i hi => ?_⟩
        rw [he] at hi
        refine ⟨_, List.getElem?_eq_getElem hi, ?_⟩
        rw [← List.getElem?_map, storedDevices_data, List.getElem?_eq_getElem hi]

/-- The tail of `ON_FINISH` does not touch the table. -/
theorem tableExact_handleAnswer_iff (env : Env) (items : List Json) (g : Globals) :
    TableExact items (handleAnswer env .devices (some (.array items)) g).1 ↔
      TableExact items (devicesBranch env items g).1 := by
  have h : answerBranch env .devices (some (.array items)) g = devicesBranch env items g := rfl
  simp only [handleAnswer, h]
  split_ifs <;> rfl

section handler
variable {parse : CStr → Option Json} {env : Env} {clientUrl : Option CStr} {g : Globals}
  {buf : List Char} {items : List Json}

/-- **The table after `ON_FINISH` for `devices.json`** is the list of the valid elements exactly
when every element of the array is valid and the table could be allocated, or the array is
empty. -/
theorem tableExact_onFinish_iff (hbuf : g.response.data = some buf)
    (hroute : route (urlAfter clientUrl g) = .devices)
    (hparse : parse (cstr buf) = some (.array items)) :
    TableExact items (clientEventGetHandler parse env clientUrl .onFinish g) ↔
      items = [] ∨ ((env.malloc items.length).isSome ∧ ∀ x ∈ items, ValidElement x) := by
  rw [← tableExact_devicesBranch_iff env items (received clientUrl buf g),
    ← tableExact_handleAnswer_iff]
  simp only [clientEventGetHandler, onFinish, hbuf, hroute, hparse]
  split_ifs <;> rfl

end handler

/-- The body `[{"deviceType":"relay",...}]` and the state in which its last chunk has arrived. -/
def oneRelayText : CStr := "[\x7b\"deviceType\":\"relay\",\"id\":0,\"name\":\"Luz\",\"status\":true\x7d]".toList

/-- The same body padded with `null`, as Firebase pads an array whose index 0 is unused. -/
def paddedRelayText : CStr :=
  "[null,\x7b\"deviceType\":\"relay\",\"id\":0,\"name\":\"Luz\",\"status\":true\x7d]".toList

/-- The state of the example device when a body has arrived. -/
def afterBody (text : CStr) : Globals :=
  { exampleGlobals with response := ResponseBuffer.empty.append text }

theorem tableExact_onFinish_oneRelay :
    TableExact [exampleRelay]
      (clientEventGetHandler (parseOnly oneRelayText (.array [exampleRelay])) zeroedHeap
        (some (Request.getDevices.url exampleId)) .onFinish (afterBody oneRelayText)) ↔
      [exampleRelay] = [] ∨ ((zeroedHeap.malloc [exampleRelay].length).isSome ∧
        ∀ x ∈ [exampleRelay], ValidElement x) :=
  tableExact_onFinish_iff (show (afterBody oneRelayText).response.data = some oneRelayText from rfl)
    (by decide +kernel) (by
      rw [show cstr oneRelayText = oneRelayText by decide +kernel]
      exact parseOnly_self _ _)

/-- The padded body leaves a count of two and an uninitialised second entry. -/
theorem not_tableExact_paddedRelay :
    ¬ TableExact [.null, exampleRelay]
      (clientEventGetHandler (parseOnly paddedRelayText (.array [.null, exampleRelay])) zeroedHeap
        (some (Request.getDevices.url exampleId)) .onFinish (afterBody paddedRelayText)) :=
  not_tableExact_of_slot (i := 1) (by decide +kernel) (by decide +kernel)

end Sicae
