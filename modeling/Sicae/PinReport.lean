import Sicae.PinStorage
import Sicae.Routing

/-! # The report of the pins

`send_devices_pins` goes through the entries of the namespace with an iterator and reports those
whose key contains `device-`.  `nvs_entry_next` wants the address of the iterator variable and
returns an error code; the firmware passes the iterator itself and takes the code for the next
iterator:

* the call takes the first word of the iterator, its field `type`, for the iterator, and follows
  the number 0xff as an address; what comes of it is a parameter (`wild`), and on the ESP32, where
  nothing lies there, it is a fault;
* a code that comes back is no iterator: `ESP_OK` is `NULL` and ends the loop, any other number is
  followed by `nvs_entry_info`.

So at most the first entry is ever reported (`pinReportOk_iff`). -/

namespace Sicae

open CString

/-! ### The iterator -/

/-- An `nvs_iterator_t`: `NULL`, an iterator with the entry it stands at and those to come, or an
address at which there is no iterator. -/
inductive NvsIterator where
  | null
  | entry (current : CStr × NvsValue) (rest : List (CStr × NvsValue))
  | address (a : ℤ)

/-- The iterator that `nvs_entry_find` creates for the entries of the namespace. -/
def nvsEntryFind : List (CStr × NvsValue) → NvsIterator
  | [] => .null
  | e :: rest => .entry e rest

/-- `nvs_entry_next(iterator)`, by what the `nvs_iterator_t` at `iterator` is: the code returned and
what is there afterwards, `none` for a fault.  `wild` is what the code comes to at an address where
there is no iterator. -/
def nvsEntryNext (wild : Option ℤ) : NvsIterator → Option (ℤ × NvsIterator)
  | .entry _ (e :: rest) => some (0, .entry e rest)
  | .entry _ [] => some (0x1102, .null)
  | .null => none
  | .address a => wild.map (·, .address a)

/-- `nvs_entry_info(it, &info)`: the key and the value of the entry, `none` for a fault. -/
def nvsEntryInfo : NvsIterator → Option (CStr × NvsValue)
  | .entry current _ => some current
  | .null | .address _ => none

/-- `NVS_TYPE_ANY`. -/
def nvsTypeAny : ℤ := 0xff

/-- What is found at an iterator that is passed where the address of one is expected: its first
word, the `type` it was created with. -/
def NvsIterator.firstWord : NvsIterator → NvsIterator
  | .entry _ _ => .address nvsTypeAny
  | .null | .address _ => .null

/-- A number taken for an iterator. -/
def NvsIterator.ofCode (code : ℤ) : NvsIterator := if code = 0 then .null else .address code

/-! ### The report -/

/-- How a call of `send_devices_pins` ends: with a fault, not within the fuel, or with a report,
whose members in front of the three fixed ones are `pins`. -/
inductive PinReport where
  | fault
  | running
  | sent (pins : List (CStr × Json))

/-- The members of the report after one entry: `cJSON_AddNumberToObject` for a key that contains
`device-` and holds a `u8`. -/
def addPin (nvs : Nvs) (pins : List (CStr × Json)) (key : CStr) : List (CStr × Json) :=
  if contains key "device-" then
    match nvsGetU8 nvs .none key with
    | .ok pin => pins ++ [(key, .createNumber pin.toNat)]
    | .error _ => pins
  else pins

/-- The `while` loop. -/
def pinLoop (nvs : Nvs) (wild : Option ℤ) : ℕ → NvsIterator → List (CStr × Json) → PinReport
  | 0, _, _ => .running
  | fuel + 1, it, pins =>
      match it with
      | .null => .sent pins
      | it =>
        match nvsEntryInfo it with
        | none => .fault
        | some info =>
            -- it = nvs_entry_next(it)
            match nvsEntryNext wild it.firstWord with
            | none => .fault
            | some (code, _) => pinLoop nvs wild fuel (.ofCode code) (addPin nvs pins info.1)

/-- `send_devices_pins`, with the namespace opened. -/
def sendDevicesPins (nvs : Nvs) (entries : List (CStr × NvsValue)) (wild : Option ℤ) (fuel : ℕ) :
    PinReport :=
  pinLoop nvs wild fuel (nvsEntryFind entries) []

/-- The members that every report ends with. -/
def reportFields : List (CStr × Json) :=
  [("section".toList, .string "devices_pins".toList), ("feedback".toList, .string "200".toList),
    ("status".toList, .bool true)]

/-- The JSON object that is sent. -/
def PinReport.payload : PinReport → Option Json
  | .sent pins => some (.object (pins ++ reportFields))
  | .fault | .running => none

/-! ### What the report should be -/

/-- The entries, in the order of the iterator, are the content of the namespace. -/
structure Enumerates (entries : List (CStr × NvsValue)) (nvs : Nvs) : Prop where
  nodup : (entries.map Prod.fst).Nodup
  mem_iff : ∀ e, e ∈ entries ↔ nvs.lookup e.1 = some e.2

/-- The key is `device-<n>`. -/
def IsDeviceKey (key : CStr) : Prop := ∃ n : ℤ, key = "device-".toList ++ decimal n

/-- The entry is the pin of a device. -/
def IsPin (e : CStr × NvsValue) : Prop := IsDeviceKey e.1 ∧ ∃ p, e.2 = .u8 p

/-- The call ends with a report that has exactly one member for each pin of a device, its value, and
none in front of the fixed ones for an entry with a key of another form. -/
def PinReportOk (nvs : Nvs) (entries : List (CStr × NvsValue)) (wild : Option ℤ) : Prop :=
  ∃ pins : List (CStr × Json),
    (∃ bound, ∀ fuel, bound ≤ fuel → (sendDevicesPins nvs entries wild fuel).payload =
      some (.object (pins ++ reportFields))) ∧
    (∀ key p, (key, .u8 p) ∈ entries → IsDeviceKey key →
      (pins ++ reportFields).filter (fun m => m.1 = key) = [(key, .createNumber p.toNat)]) ∧
    ∀ e ∈ entries, ¬ IsDeviceKey e.1 → e.1 ∉ pins.map Prod.fst

section
variable {nvs : Nvs} {entries rest : List (CStr × NvsValue)} {e : CStr × NvsValue} {fuel : ℕ}
  {wild : Option ℤ} {pins : List (CStr × Json)}

/-- An empty namespace is reported as such. -/
theorem sendDevicesPins_nil :
    sendDevicesPins nvs [] wild (fuel + 1) = .sent [] := rfl

/-- A fault in the first call of `nvs_entry_next`. -/
theorem sendDevicesPins_fault : sendDevicesPins nvs (e :: rest) none (fuel + 1) = .fault := rfl

/-- The loop ends after the first entry when the call returns `ESP_OK`. -/
theorem sendDevicesPins_zero :
    sendDevicesPins nvs (e :: rest) (some 0) (fuel + 2) = .sent (addPin nvs [] e.1) := rfl

/-- It follows any other code, and faults. -/
theorem sendDevicesPins_code {code : ℤ} (h : code ≠ 0) :
    sendDevicesPins nvs (e :: rest) (some code) (fuel + 2) = .fault := by
  have hcode : NvsIterator.ofCode code = .address code := if_neg h
  show pinLoop nvs (some code) (fuel + 1) (.ofCode code) _ = _
  rw [hcode]
  rfl

/-- What the first entry adds: nothing, or its own member. -/
theorem addPin_nil (hlookup : nvs.lookup e.1 = some e.2) :
    (addPin nvs [] e.1 = [] ∧ ¬ (contains e.1 "device-" = true ∧ ∃ p, e.2 = .u8 p)) ∨
      ∃ p, e.2 = .u8 p ∧ contains e.1 "device-" = true ∧
        addPin nvs [] e.1 = [(e.1, .createNumber p.toNat)] := by
  by_cases hkey : contains e.1 "device-" = true
  · cases hget : nvsGetU8 nvs .none e.1 with
    | error err =>
        left
        refine ⟨by rw [addPin, if_pos hkey, hget], ?_⟩
        rintro ⟨-, p, hp⟩
        rw [hp, ← nvsGetU8_ok_iff, hget] at hlookup
        cases hlookup
    | ok p =>
        right
        rw [nvsGetU8_ok_iff, hlookup] at hget
        refine ⟨p, Option.some.inj hget, hkey, ?_⟩
        rw [addPin, if_pos hkey, nvsGetU8_ok_iff.mpr (hlookup.trans hget)]
        rfl
  · left
    exact ⟨by rw [addPin, if_neg hkey], fun h => hkey h.1⟩

/-- The key of a device passes the filter. -/
theorem contains_of_isDeviceKey {key : CStr} (h : IsDeviceKey key) :
    contains key "device-" = true := by
  obtain ⟨n, rfl⟩ := h
  exact contains_iff.mpr (List.prefix_append _ _).isInfix

/-- None of the fixed members is taken for a device's. -/
theorem filter_reportFields {key : CStr} (h : IsDeviceKey key) :
    reportFields.filter (fun m => m.1 = key) = [] := by
  have hfields : ∀ m ∈ reportFields, contains m.1 "device-" = false := by decide
  rw [List.filter_eq_nil_iff]
  intro m hm he
  have hfalse := hfields m hm
  rw [of_decide_eq_true he, contains_of_isDeviceKey h] at hfalse
  cases hfalse

/-- The pins of a report are determined by its payload. -/
theorem PinReport.payload_sent {report : PinReport}
    (h : report.payload = some (.object (pins ++ reportFields))) : report = .sent pins := by
  cases report with
  | fault | running => cases h
  | sent pins' =>
      have heq := Json.object.inj (Option.some.inj h)
      rw [List.append_cancel_right heq]

/-- The members for a device's key are those in front of the fixed ones. -/
theorem filter_report {key : CStr} (h : IsDeviceKey key) (pins : List (CStr × Json)) :
    (pins ++ reportFields).filter (fun m => m.1 = key) = pins.filter (fun m => m.1 = key) := by
  rw [List.filter_append, filter_reportFields h, List.append_nil]

/-- A report that is sent with some entries needs the call of `nvs_entry_next` to return
`ESP_OK`. -/
theorem eq_zero_of_sent {bound : ℕ}
    (h : ∀ fuel, bound ≤ fuel → (sendDevicesPins nvs (e :: rest) wild fuel).payload =
      some (.object (pins ++ reportFields))) :
    wild = some 0 ∧ pins = addPin nvs [] e.1 := by
  have hrun := PinReport.payload_sent (h (bound + 2) (by omega))
  cases wild with
  | none =>
      rw [sendDevicesPins_fault] at hrun
      cases hrun
  | some code =>
      by_cases hcode : code = 0
      · subst hcode
        rw [sendDevicesPins_zero] at hrun
        exact ⟨rfl, (PinReport.sent.inj hrun).symm⟩
      · rw [sendDevicesPins_code hcode] at hrun
        cases hrun

/-- Nothing is missing from an empty report on an empty namespace. -/
theorem pinReportOk_nil : PinReportOk nvs [] wild := by
  refine ⟨[], ⟨1, ?_⟩, fun _ _ hm => absurd hm List.not_mem_nil,
    fun _ hm => absurd hm List.not_mem_nil⟩
  intro fuel hfuel
  obtain ⟨k, rfl⟩ := Nat.exists_eq_add_of_le' hfuel
  rw [sendDevicesPins_nil]
  rfl

/-- The first entry's pin is reported as it should be, unless its key is of another form. -/
theorem addPin_iff (hlookup : nvs.lookup e.1 = some e.2) :
    (∀ p, e.2 = .u8 p → IsDeviceKey e.1 → addPin nvs [] e.1 = [(e.1, .createNumber p.toNat)]) ∧
      ((¬ IsDeviceKey e.1 → e.1 ∉ (addPin nvs [] e.1).map Prod.fst) ↔
        (contains e.1 "device-" = true → (∃ p, e.2 = .u8 p) → IsDeviceKey e.1)) := by
  rcases addPin_nil hlookup with ⟨hadd, hnot⟩ | ⟨q, hq, hcontains, hadd⟩
  · rw [hadd]
    constructor
    · intro p hp hkey
      exact absurd ⟨contains_of_isDeviceKey hkey, p, hp⟩ hnot
    · exact iff_of_true (fun _ => List.not_mem_nil) (fun hc hp => absurd ⟨hc, hp⟩ hnot)
  · rw [hadd]
    constructor
    · intro p hp _
      obtain rfl := NvsValue.u8.inj (hq.symm.trans hp)
      rfl
    · constructor
      · intro h _ _
        by_contra hkey
        exact h hkey (by simp)
      · intro h hkey
        exact absurd (h hcontains ⟨q, hq⟩) hkey

/-- The other keys are not the one that the first entry adds. -/
theorem filter_addPin_ne {key : CStr} (hne : e.1 ≠ key) (hlookup : nvs.lookup e.1 = some e.2) :
    (addPin nvs [] e.1).filter (fun m => m.1 = key) = [] := by
  rcases addPin_nil hlookup with ⟨hadd, -⟩ | ⟨q, -, -, hadd⟩
  · rw [hadd]
    rfl
  · simp [hadd, hne]

/-- With `ESP_OK` returned, the report is right exactly if the first entry is all there is to
report. -/
theorem pinReportOk_zero_iff (h : Enumerates (e :: rest) nvs) :
    PinReportOk nvs (e :: rest) (some 0) ↔
      (∀ e' ∈ rest, ¬ IsPin e') ∧
        (contains e.1 "device-" = true → (∃ p, e.2 = .u8 p) → IsDeviceKey e.1) := by
  obtain ⟨hfirst, -⟩ := List.nodup_cons.mp h.nodup
  have hlookup := (h.mem_iff e).mp List.mem_cons_self
  have hne : ∀ e' ∈ rest, e.1 ≠ e'.1 := fun e' he heq => hfirst (heq ▸ List.mem_map_of_mem he)
  obtain ⟨hown, hother⟩ := addPin_iff hlookup
  constructor
  · rintro ⟨pins, ⟨bound, hsent⟩, hpins, hothers⟩
    obtain ⟨-, rfl⟩ := eq_zero_of_sent hsent
    refine ⟨?_, hother.mp (hothers e List.mem_cons_self)⟩
    rintro ⟨key, v⟩ he ⟨hkey, p, hp⟩
    obtain rfl : v = .u8 p := hp
    have hone := hpins key p (List.mem_cons_of_mem _ he) hkey
    rw [filter_report hkey, filter_addPin_ne (hne _ he) hlookup] at hone
    exact List.cons_ne_nil _ _ hone.symm
  · rintro ⟨hrest, hfilter⟩
    refine ⟨addPin nvs [] e.1, ⟨2, ?_⟩, ?_, ?_⟩
    · intro fuel hfuel
      obtain ⟨k, rfl⟩ := Nat.exists_eq_add_of_le' hfuel
      rw [sendDevicesPins_zero]
      rfl
    · intro key p hm hkey
      rcases List.mem_cons.mp hm with rfl | hm
      · rw [filter_report hkey, hown p rfl hkey]
        simp
      · exact absurd ⟨hkey, p, rfl⟩ (hrest _ hm)
    · intro e' hm hkey
      rcases List.mem_cons.mp hm with rfl | hm
      · exact hother.mpr hfilter hkey
      · intro hin
        have hempty := filter_addPin_ne (hne e' hm) hlookup
        obtain ⟨m, hm', heq⟩ := List.mem_map.mp hin
        exact List.filter_eq_nil_iff.mp hempty m hm' (decide_eq_true heq)

/-- **The pin report lists every mapped device** exactly if there is nothing to list, or the call
with the wild pointer returns `ESP_OK`, no pin is stored behind the first entry, and the first entry
is not a `u8` under another key that contains `device-`. -/
theorem pinReportOk_iff (h : Enumerates entries nvs) :
    PinReportOk nvs entries wild ↔
      entries = [] ∨ (wild = some 0 ∧ ∃ first rest, entries = first :: rest ∧
        (∀ e ∈ rest, ¬ IsPin e) ∧
        (contains first.1 "device-" = true → (∃ p, first.2 = .u8 p) → IsDeviceKey first.1)) := by
  cases entries with
  | nil => exact iff_of_true pinReportOk_nil (.inl rfl)
  | cons first rest =>
      constructor
      · intro hok
        have ⟨_, ⟨_, hsent⟩, _⟩ := hok
        obtain ⟨rfl, -⟩ := eq_zero_of_sent hsent
        exact .inr ⟨rfl, first, rest, rfl, (pinReportOk_zero_iff h).mp hok⟩
      · rintro (hnil | ⟨rfl, first', rest', heq, hrest⟩)
        · cases hnil
        · obtain ⟨rfl, rfl⟩ := List.cons.inj heq
          exact (pinReportOk_zero_iff h).mpr hrest

end

/-- The pins of two relays. -/
def twoPins : Nvs := exampleNvs.set (deviceKey 1) (.u8 22#8) (length_deviceKey_lt 1)

/-- Their entries. -/
def twoPinEntries : List (CStr × NvsValue) := [(deviceKey 0, .u8 23#8), (deviceKey 1, .u8 22#8)]

theorem enumerates_twoPins : Enumerates twoPinEntries twoPins where
  nodup := by decide
  mem_iff := by
    rintro ⟨key, v⟩
    have hne : deviceKey 0 ≠ deviceKey 1 := by decide
    show (key, v) ∈ twoPinEntries ↔ Function.update
      (fun k => if k = deviceKey 0 then some (NvsValue.u8 23#8) else none) (deviceKey 1)
      (some (.u8 22#8)) key = some v
    by_cases h1 : key = deviceKey 1
    · subst h1
      simp [twoPinEntries, Ne.symm hne, eq_comm]
    · by_cases h0 : key = deviceKey 0
      · subst h0
        simp [twoPinEntries, hne, eq_comm]
      · simp [twoPinEntries, h0, h1]

theorem pinReportOk_twoPins :
    PinReportOk twoPins twoPinEntries none ↔
      twoPinEntries = [] ∨ (none = some (0 : ℤ) ∧ ∃ first rest, twoPinEntries = first :: rest ∧
        (∀ e ∈ rest, ¬ IsPin e) ∧
        (contains first.1 "device-" = true → (∃ p, first.2 = .u8 p) → IsDeviceKey first.1)) :=
  pinReportOk_iff enumerates_twoPins

/-- They are not reported: on the ESP32 the call faults, and even if it returned `ESP_OK`, the
second pin would be missing. -/
theorem twoPins_notReported :
    ¬ PinReportOk twoPins twoPinEntries none ∧ ¬ PinReportOk twoPins twoPinEntries (some 0) := by
  constructor
  · rintro ⟨pins, ⟨bound, hsent⟩, -⟩
    obtain ⟨hwild, -⟩ := eq_zero_of_sent hsent
    cases hwild
  · intro hok
    have hkey : IsDeviceKey (deviceKey 1) := ⟨1, by decide⟩
    have hsecond : (deviceKey 1, .u8 22#8) ∈ [(deviceKey 1, NvsValue.u8 22#8)] :=
      List.mem_singleton_self _
    exact ((pinReportOk_zero_iff enumerates_twoPins).mp hok).1 _ hsecond ⟨hkey, 22#8, rfl⟩

end Sicae
