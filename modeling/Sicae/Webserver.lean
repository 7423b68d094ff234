import Sicae.Routing

/-! # The HTTP client event handler

`clientEventGetHandler` is `client_event_get_handler`, which every HTTP client of the firmware
installs: `ON_DATA` appends a chunk to the global response buffer, `ON_FINISH` hands the buffer
to `cJSON_Parse` and dispatches on the URL.

The parser is a parameter, so every statement holds for any text-to-tree function.  What the
heap and NVS contribute to one call is an `Env`: the outcome of the table's `malloc`, with the
bytes left over in the `pin` fields of the block, and errors injected into the pin lookups.

`handleAnswer` is the body of `ON_FINISH` on a parsed answer; its `Bool` is `false` when the
branch leaves the `switch` early, before the test of the request flags and the `free` of the
buffer. -/

namespace Sicae

open CString

/-- What the surroundings contribute to one handler call. -/
structure Env where
  /-- `malloc` of a table of `n` entries: the words left in the `pin` fields. -/
  malloc : ℕ → Option (ℕ → BitVec 32)
  /-- Errors injected into the pin lookup for the element at a position of the array. -/
  pinFaults : ℕ → NvsFaults

/-! ### The `newData.json` branch -/

/-- The flag raised for a section. -/
def dispatchSection (sectionValue : CStr) (f : Flags) : Flags :=
  if "set/".toList <+: sectionValue then
    if "devices/".toList <+: sectionValue.drop 4 then { f with setNewDeviceData := true }
    else if sectionValue.drop 4 = "info".toList then { f with setNewInfoData := true }
    else if "time/".toList <+: sectionValue.drop 4 then { f with setNewDatetime := true }
    else f
  else if "get/".toList <+: sectionValue then
    if sectionValue.drop 4 = "info".toList then { f with fetchNewInfoData := true }
    else if sectionValue.drop 4 = "devices".toList then { f with fetchNewDevicesData := true }
    else if sectionValue.drop 4 = "firmware".toList then { f with fetchNewFirmwareData := true }
    else if sectionValue.drop 4 = "datetime".toList then { f with fetchNewDatetimeData := true }
    else if sectionValue.drop 4 = "alive".toList then { f with fetchNewAlive := true }
    else f
  else f

/-- The branch for a parsed answer of `newData.json`. -/
def newDataBranch (json : Json) (g : Globals) : Globals :=
  if Json.isTrueBool (json.getObjectItem "status".toList) then
    match json.getObjectItem "section".toList with
    | some (.string sectionValue) =>
        { g with
          lcd := .text "DATOS NUEVOS".toList "DETECTADOS".toList
          urlSection := snprintf 80 sectionValue
          flags := dispatchSection sectionValue g.flags }
    | _ => { g with lcd := .text "DATOS NUEVOS".toList "DETECTADOS".toList }
  else g

/-! ### The `devices.json` branch -/

/-- The `pin` field after the lookup, which stores one byte of the word or fails; a failure is
followed by `pin = -1`. -/
def loadPin (leftover : BitVec 32) : Except EspErr (BitVec 8) → BitVec 32
  | .ok p => leftover.extractLsb' 8 24 ++ p
  | .error _ => -1#32

/-- The entry stored for a valid element. -/
def storeDevice (nvs : Nvs) (faults : NvsFaults) (leftover : BitVec 32) (x : DeviceData) :
    Device where
  name := x.name
  id := x.id
  pin := loadPin leftover (readDevicePinFromNvs nvs faults x.id)
  state := x.state
  type := x.type

/-- `if (strcmp(type, "relay") == 0) setPower(state, pin)`; the pin is narrowed to a byte. -/
def driveRelay (gpio : Gpio) (d : Device) : Gpio :=
  if d.isRelay then setPower gpio d.state (d.pin.setWidth 8) else gpio

/-- The loop over the array: `pos` counts the elements, `index` the entries stored. -/
def devicesLoop (nvs : Nvs) (env : Env) (heap : ℕ → BitVec 32) :
    List Json → ℕ → ℕ → DeviceTable → Gpio → DeviceTable × Gpio
  | [], _, _, table, gpio => (table, gpio)
  | device :: items, pos, index, table, gpio =>
      match deviceData device with
      | some x =>
          let d := storeDevice nvs (env.pinFaults pos) (heap index) x
          devicesLoop nvs env heap items (pos + 1) (index + 1) (table.set index (some d))
            (driveRelay gpio d)
      | none => devicesLoop nvs env heap items (pos + 1) index table gpio

/-- The branch for a parsed array; `false` when the table could not be allocated. -/
def devicesBranch (env : Env) (items : List Json) (g : Globals) : Globals × Bool :=
  match env.malloc items.length with
  | none => ({ g with deviceCount := items.length, devices := none }, false)
  | some heap =>
      let loop := devicesLoop g.nvs env heap items 0 0 (List.replicate items.length none) g.gpio
      ({ g with
          deviceCount := items.length
          devices := some loop.1
          gpio := loop.2
          flags := { g.flags with populateDevices := true } }, true)

/-! ### `ON_FINISH` -/

/-- The chain of branches on a parsed answer; `false` when a branch breaks off. -/
def answerBranch (env : Env) (r : Route) (json : Option Json) (g : Globals) : Globals × Bool :=
  match r, json with
  | .newData, some j => (newDataBranch j g, true)
  | .devices, some (.array items) => devicesBranch env items g
  | .devices, _ => (g, false)
  | _, _ => (g, true)

/-- The test at the end of the branch, on the flags. -/
def Flags.postTest (f : Flags) : Flags :=
  if f.requestPending then { f with postNoNewData := true } else f

/-- The test at the end of the branch. -/
def postNoNewDataTest (g : Globals) : Globals := { g with flags := g.flags.postTest }

/-- `ON_FINISH` on a parsed answer, without the handling of the buffer. -/
def handleAnswer (env : Env) (r : Route) (json : Option Json) (g : Globals) : Globals × Bool :=
  let answered := answerBranch env r json g
  (if answered.2 then postNoNewDataTest answered.1 else answered.1, answered.2)

/-- The content of `url` after `esp_http_client_get_url(client, url, sizeof(url))`; on an error
it keeps its value. -/
def urlAfter (clientUrl : Option CStr) (g : Globals) : CStr :=
  match clientUrl with
  | some u => snprintf 256 u
  | none => g.url

@[simp] theorem urlAfter_some (u : CStr) (g : Globals) : urlAfter (some u) g = snprintf 256 u := rfl

/-- The state in which the branch for a complete answer runs.  Every branch but the last, which
logs an unknown URL, first hands the text to `cJSON_Parse`. -/
def received (clientUrl : Option CStr) (buf : List Char) (g : Globals) : Globals :=
  { g with
    url := urlAfter clientUrl g
    parsed := if route (urlAfter clientUrl g) = .unknown then g.parsed else cstr buf :: g.parsed }

variable (parse : CStr → Option Json)

/-- The `ON_FINISH` case. -/
def onFinish (env : Env) (clientUrl : Option CStr) (g : Globals) : Globals :=
  match g.response.data with
  | none => g
  | some buf =>
      let handled := handleAnswer env (route (urlAfter clientUrl g)) (parse (cstr buf))
        (received clientUrl buf g)
      -- a branch that breaks off leaves the buffer as it is
      if handled.2 then { handled.1 with response := .empty } else handled.1

/-- The events that the handler tells apart. -/
inductive HttpEvent where
  | onData (isChunked : Bool) (data : List Char)
  | onFinish
  | other

/-- `client_event_get_handler`. -/
def clientEventGetHandler (env : Env) (clientUrl : Option CStr) (ev : HttpEvent) (g : Globals) :
    Globals :=
  match ev with
  | .onData isChunked data =>
      let g := if isChunked then g else { g with response := g.response.append data }
      { g with url := urlAfter clientUrl g }
  | .onFinish => onFinish parse env clientUrl g
  | .other => g

/-- The `ON_DATA` events of a body. -/
def onDataEvents (env : Env) (clientUrl : Option CStr) (isChunked : Bool)
    (chunks : List (List Char)) (g : Globals) : Globals :=
  chunks.foldl (fun g data => clientEventGetHandler parse env clientUrl (.onData isChunked data) g) g

variable {parse}

/-- `ON_DATA` changes the buffer and the scratch variable `url` only. -/
theorem onDataEvents_eq (env : Env) (clientUrl : Option CStr) (isChunked : Bool) :
    ∀ (chunks : List (List Char)) (g : Globals),
      ∃ u, onDataEvents parse env clientUrl isChunked chunks g =
        { g with
          response := if isChunked then g.response
            else chunks.foldl ResponseBuffer.append g.response
          url := u }
  | [], g => ⟨g.url, by cases isChunked <;> rfl⟩
  | data :: chunks, g => by
      obtain ⟨u, hu⟩ := onDataEvents_eq env clientUrl isChunked chunks
        (clientEventGetHandler parse env clientUrl (.onData isChunked data) g)
      refine ⟨u, ?_⟩
      rw [onDataEvents, List.foldl_cons]
      refine hu.trans ?_
      cases isChunked <;> rfl

/-- The buffer after a list of chunks. -/
theorem foldl_append_data : ∀ (chunks : List (List Char)) (b : ResponseBuffer),
    (chunks.foldl ResponseBuffer.append b).data =
      if chunks = [] then b.data else some (b.data.getD [] ++ chunks.flatten)
  | [], _ => rfl
  | data :: chunks, b => by
      rw [List.foldl_cons, foldl_append_data chunks, if_neg (List.cons_ne_nil _ _)]
      split_ifs with h
      · simp [h]
      · simp

/-! ### What the branches leave alone -/

/-- `g'` agrees with `g` on the globals that no branch of `ON_FINISH` writes. -/
structure SameOutside (g g' : Globals) : Prop where
  url : g'.url = g.url
  deviceId : g'.deviceId = g.deviceId
  response : g'.response = g.response
  currentDeviceIndex : g'.currentDeviceIndex = g.currentDeviceIndex
  deviceCurrents : g'.deviceCurrents = g.deviceCurrents
  nvs : g'.nvs = g.nvs
  menu : g'.menu = g.menu
  tasks : g'.tasks = g.tasks
  sent : g'.sent = g.sent
  parsed : g'.parsed = g.parsed

theorem SameOutside.refl (g : Globals) : SameOutside g g :=
  ⟨rfl, rfl, rfl, rfl, rfl, rfl, rfl, rfl, rfl, rfl⟩

theorem SameOutside.trans {g g' g'' : Globals} (h : SameOutside g g') (h' : SameOutside g' g'') :
    SameOutside g g'' where
  url := h'.url.trans h.url
  deviceId := h'.deviceId.trans h.deviceId
  response := h'.response.trans h.response
  currentDeviceIndex := h'.currentDeviceIndex.trans h.currentDeviceIndex
  deviceCurrents := h'.deviceCurrents.trans h.deviceCurrents
  nvs := h'.nvs.trans h.nvs
  menu := h'.menu.trans h.menu
  tasks := h'.tasks.trans h.tasks
  sent := h'.sent.trans h.sent
  parsed := h'.parsed.trans h.parsed

theorem postNoNewDataTest_same (g : Globals) : SameOutside g (postNoNewDataTest g) :=
  ⟨rfl, rfl, rfl, rfl, rfl, rfl, rfl, rfl, rfl, rfl⟩

theorem newDataBranch_same (json : Json) (g : Globals) : SameOutside g (newDataBranch json g) := by
  unfold newDataBranch
  split_ifs
  · split <;> exact ⟨rfl, rfl, rfl, rfl, rfl, rfl, rfl, rfl, rfl, rfl⟩
  · exact .refl g

theorem devicesBranch_same (env : Env) (items : List Json) (g : Globals) :
    SameOutside g (devicesBranch env items g).1 := by
  unfold devicesBranch
  split <;> exact ⟨rfl, rfl, rfl, rfl, rfl, rfl, rfl, rfl, rfl, rfl⟩

theorem answerBranch_same (env : Env) (r : Route) (json : Option Json) (g : Globals) :
    SameOutside g (answerBranch env r json g).1 := by
  unfold answerBranch
  split
  · exact newDataBranch_same _ _
  · exact devicesBranch_same _ _ _
  · exact .refl g
  · exact .refl g

theorem handleAnswer_same (env : Env) (r : Route) (json : Option Json) (g : Globals) :
    SameOutside g (handleAnswer env r json g).1 := by
  have h := answerBranch_same env r json g
  simp only [handleAnswer]
  split_ifs
  · exact h.trans (postNoNewDataTest_same _)
  · exact h

/-- The answer gets as far as the test at the end of the branch. -/
def reachesTest (env : Env) (r : Route) (json : Option Json) : Bool :=
  match r with
  | .devices =>
      match json with
      | some (.array items) => (env.malloc items.length).isSome
      | _ => false
  | .newData | .device | .info | .unknown => true

theorem answerBranch_snd (env : Env) (r : Route) (json : Option Json) (g : Globals) :
    (answerBranch env r json g).2 = reachesTest env r json := by
  cases r with
  | devices =>
      cases json with
      | none => rfl
      | some j =>
          cases j with
          | array items =>
              simp only [answerBranch, devicesBranch, reachesTest]
              cases env.malloc items.length <;> rfl
          | null | bool | number | string | object => rfl
  | newData => cases json <;> rfl
  | device | info | unknown => rfl

theorem handleAnswer_snd (env : Env) (r : Route) (json : Option Json) (g : Globals) :
    (handleAnswer env r json g).2 = reachesTest env r json := answerBranch_snd env r json g

/-- Only the table branch can break off: when the answer is no array, or the table cannot be
allocated. -/
theorem reachesTest_iff {env : Env} {r : Route} {json : Option Json} :
    reachesTest env r json = true ↔
      (r = .devices → ∃ items, json = some (.array items) ∧ (env.malloc items.length).isSome) := by
  cases r with
  | devices =>
      simp only [reachesTest, forall_const]
      split
      · simp
      · rename_i hne
        exact iff_of_false Bool.false_ne_true (fun ⟨items, h, _⟩ => hne items h)
  | newData | device | info | unknown => simp [reachesTest]

theorem answerBranch_passive {env : Env} {r : Route} {json : Option Json} {g : Globals}
    (h : r.passive = true) : answerBranch env r json g = (g, true) := by
  cases r <;> first | rfl | cases h

/-- The answer to a refresh whose table could be allocated. -/
theorem handleAnswer_devices {env : Env} {items : List Json} {g : Globals} {heap : ℕ → BitVec 32}
    (hm : env.malloc items.length = some heap) :
    handleAnswer env .devices (some (.array items)) g =
      (postNoNewDataTest (devicesBranch env items g).1, true) := by
  have h : (answerBranch env .devices (some (.array items)) g).2 = true := by
    rw [answerBranch_snd, reachesTest, hm]
    rfl
  simp only [handleAnswer, h]
  rfl

/-- The answer to a refresh sets the count, and there is a table if it could be allocated. -/
theorem handleAnswer_array (env : Env) (items : List Json) (g : Globals) :
    (handleAnswer env .devices (some (.array items)) g).1.devices.isSome =
        (env.malloc items.length).isSome ∧
      (handleAnswer env .devices (some (.array items)) g).1.deviceCount = items.length := by
  cases hm : env.malloc items.length with
  | none =>
      simp only [handleAnswer, answerBranch, devicesBranch, hm]
      exact ⟨rfl, rfl⟩
  | some heap =>
      rw [handleAnswer_devices hm]
      simp only [devicesBranch, hm]
      exact ⟨rfl, rfl⟩

section onFinish
variable {env : Env} {clientUrl : Option CStr} {g : Globals} {buf : List Char}

/-- `ON_FINISH` with an empty buffer does nothing. -/
theorem onFinish_empty (h : g.response = .empty) : onFinish parse env clientUrl g = g := by
  rw [onFinish, h]
  rfl

/-- The text handed to `cJSON_Parse` is the string in the buffer. -/
theorem onFinish_parsed (hbuf : g.response.data = some buf) :
    (onFinish parse env clientUrl g).parsed =
      if route (urlAfter clientUrl g) = .unknown then g.parsed else cstr buf :: g.parsed := by
  have h := handleAnswer_same env (route (urlAfter clientUrl g)) (parse (cstr buf))
    (received clientUrl buf g)
  simp only [onFinish, hbuf]
  split_ifs <;> exact h.parsed.trans (by simp_all [received])

/-- The buffer is freed unless the branch breaks off. -/
theorem onFinish_response (hbuf : g.response.data = some buf) :
    (onFinish parse env clientUrl g).response =
      if reachesTest env (route (urlAfter clientUrl g)) (parse (cstr buf)) then .empty
      else g.response := by
  have h := handleAnswer_same env (route (urlAfter clientUrl g)) (parse (cstr buf))
    (received clientUrl buf g)
  simp only [onFinish, hbuf, handleAnswer_snd]
  split_ifs
  · rfl
  · exact h.response

/-- `ON_FINISH` of an answer that is only parsed. -/
theorem onFinish_passive (hbuf : g.response.data = some buf)
    (h : (route (urlAfter clientUrl g)).passive = true) :
    onFinish parse env clientUrl g =
      { received clientUrl buf g with flags := g.flags.postTest, response := .empty } := by
  simp only [onFinish, hbuf, handleAnswer, answerBranch_passive h]
  rfl

end onFinish

/-! ### Flags and answers -/

/-- The test at the end of the branch finds a flag raised for this section. -/
def raises (sectionValue : CStr) : Bool := (dispatchSection sectionValue {}).requestPending

theorem requestPending_dispatchSection (s : CStr) (f : Flags) :
    (dispatchSection s f).requestPending = (f.requestPending || raises s) := by
  unfold raises dispatchSection
  split_ifs <;> simp [Flags.requestPending]

@[simp] theorem postNoNewData_dispatchSection (s : CStr) (f : Flags) :
    (dispatchSection s f).postNoNewData = f.postNoNewData := by
  unfold dispatchSection
  split_ifs <;> rfl

theorem Flags.postTest_eq (f : Flags) :
    f.postTest = { f with postNoNewData := f.postNoNewData || f.requestPending } := by
  unfold postTest
  split_ifs with h
  · rw [h, Bool.or_true]
  · rw [Bool.not_eq_true] at h
    rw [h, Bool.or_false]

@[simp] theorem requestPending_postTest (f : Flags) :
    f.postTest.requestPending = f.requestPending := by rw [f.postTest_eq]; rfl

/-- The section of an answer to a poll with status true. -/
def commandSection (r : Route) (json : Option Json) : Option CStr :=
  match r, json with
  | .newData, some j =>
      if Json.isTrueBool (j.getObjectItem "status".toList) then
        match j.getObjectItem "section".toList with
        | some (.string sectionValue) => some sectionValue
        | _ => none
      else none
  | _, _ => none

/-- The flags with POPULATEDEVICES set to `b`. -/
def Flags.withPopulate (f : Flags) (b : Bool) : Flags := { f with populateDevices := b }

theorem Flags.postTest_withPopulate (f : Flags) (b : Bool) :
    (f.withPopulate b).postTest = f.postTest.withPopulate b := by
  rw [Flags.postTest_eq, Flags.postTest_eq]
  rfl

/-- An answer that is no command raises no request flag; the test at the end of the branch, if it
is reached, decides on POSTNONEWDATA. -/
theorem handleAnswer_flags {env : Env} {r : Route} {json : Option Json} {g : Globals}
    (h : commandSection r json = none) :
    ∃ b, (handleAnswer env r json g).1.flags =
      (if reachesTest env r json then g.flags.postTest else g.flags).withPopulate b := by
  have hsame : ∃ b, (answerBranch env r json g).1.flags = g.flags.withPopulate b := by
    unfold answerBranch
    split
    · refine ⟨g.flags.populateDevices, ?_⟩
      simp only [commandSection] at h
      unfold newDataBranch
      split_ifs at h ⊢
      · split
        · simp_all
        · rfl
      · rfl
    · rw [devicesBranch]
      split
      · exact ⟨g.flags.populateDevices, rfl⟩
      · exact ⟨true, rfl⟩
    · exact ⟨g.flags.populateDevices, rfl⟩
    · exact ⟨g.flags.populateDevices, rfl⟩
  obtain ⟨b, hs⟩ := hsame
  refine ⟨b, ?_⟩
  rw [← answerBranch_snd env r json g, handleAnswer]
  cases (answerBranch env r json g).2 with
  | true =>
      rw [if_pos rfl, if_pos rfl, ← Flags.postTest_withPopulate, ← hs]
      rfl
  | false => exact hs

/-! ### A new command -/

/-- The state after the branch for a new command. -/
def dispatched (sectionValue : CStr) (g : Globals) : Globals :=
  { g with
    lcd := .text "DATOS NUEVOS".toList "DETECTADOS".toList
    urlSection := snprintf 80 sectionValue
    flags := (dispatchSection sectionValue g.flags).postTest }

theorem newDataBranch_dispatched {json : Json} {g : Globals} {s : CStr}
    (hstatus : json.getObjectItem "status".toList = some (.bool true))
    (hsection : json.getObjectItem "section".toList = some (.string s)) :
    postNoNewDataTest (newDataBranch json g) = dispatched s g := by
  simp only [newDataBranch, hstatus, hsection]
  rfl

theorem handleAnswer_dispatched {env : Env} {json : Json} {g : Globals} {s : CStr}
    (hstatus : json.getObjectItem "status".toList = some (.bool true))
    (hsection : json.getObjectItem "section".toList = some (.string s)) :
    handleAnswer env .newData (some json) g = (dispatched s g, true) :=
  congrArg (·, true) (newDataBranch_dispatched hstatus hsection)

/-- An answer that is a command is dispatched. -/
theorem handleAnswer_command {env : Env} {r : Route} {json : Option Json} {g : Globals} {s : CStr}
    (h : commandSection r json = some s) : handleAnswer env r json g = (dispatched s g, true) := by
  unfold commandSection at h
  split at h
  · rename_i j
    split_ifs at h with hstatus
    split at h
    · rename_i hsection
      obtain rfl := Option.some.inj h
      refine handleAnswer_dispatched ?_ hsection
      unfold Json.isTrueBool at hstatus
      split at hstatus
      · rename_i hb
        rw [hb, hstatus]
      · cases hstatus
    · cases h
  · cases h

section onFinish_flags
variable {env : Env} {clientUrl : Option CStr} {g : Globals} {buf : List Char}

theorem onFinish_sent : (onFinish parse env clientUrl g).sent = g.sent := by
  unfold onFinish
  split
  · rfl
  · have h := handleAnswer_same env (route (urlAfter clientUrl g)) (parse (cstr ‹_›))
      (received clientUrl ‹_› g)
    simp only
    split_ifs <;> exact h.sent

theorem onFinish_flags (hbuf : g.response.data = some buf) :
    (onFinish parse env clientUrl g).flags =
      (handleAnswer env (route (urlAfter clientUrl g)) (parse (cstr buf))
        (received clientUrl buf g)).1.flags := by
  simp only [onFinish, hbuf]
  split_ifs <;> rfl

/-- A command raises its flag. -/
theorem onFinish_flags_command {s : CStr} (hbuf : g.response.data = some buf)
    (h : commandSection (route (urlAfter clientUrl g)) (parse (cstr buf)) = some s) :
    (onFinish parse env clientUrl g).flags = (dispatchSection s g.flags).postTest := by
  rw [onFinish_flags hbuf, handleAnswer_command h]
  rfl

/-- Any other answer raises none. -/
theorem onFinish_flags_other (hbuf : g.response.data = some buf)
    (h : commandSection (route (urlAfter clientUrl g)) (parse (cstr buf)) = none) :
    ∃ b, (onFinish parse env clientUrl g).flags =
      (if reachesTest env (route (urlAfter clientUrl g)) (parse (cstr buf)) then g.flags.postTest
        else g.flags).withPopulate b := by
  rw [onFinish_flags hbuf]
  exact handleAnswer_flags h

end onFinish_flags

/-- The buffer holds an answer of `newData.json` with status true and section `s`. -/
def Delivers (parse : CStr → Option Json) (clientUrl : Option CStr) (g : Globals) (s : CStr) :
    Prop :=
  ∃ buf json, g.response.data = some buf ∧ route (urlAfter clientUrl g) = .newData ∧
    parse (cstr buf) = some json ∧ json.getObjectItem "status".toList = some (.bool true) ∧
    json.getObjectItem "section".toList = some (.string s)

/-- The section `s` has been copied to the mailbox and has raised its flag; apart from the
display and the record of parsed texts nothing else has changed. -/
structure Dispatched (s : CStr) (g g' : Globals) : Prop where
  flags : g'.flags = (dispatchSection s g.flags).postTest
  urlSection : g'.urlSection = snprintf 80 s
  deviceId : g'.deviceId = g.deviceId
  response : g'.response = .empty
  devices : g'.devices = g.devices
  deviceCount : g'.deviceCount = g.deviceCount
  currentDeviceIndex : g'.currentDeviceIndex = g.currentDeviceIndex
  nvs : g'.nvs = g.nvs
  gpio : g'.gpio = g.gpio
  menu : g'.menu = g.menu
  tasks : g'.tasks = g.tasks
  sent : g'.sent = g.sent

theorem Delivers.dispatched {env : Env} {clientUrl : Option CStr} {g : Globals} {s : CStr}
    (h : Delivers parse clientUrl g s) : Dispatched s g (onFinish parse env clientUrl g) := by
  obtain ⟨buf, json, hbuf, hroute, hjson, hstatus, hsection⟩ := h
  simp only [onFinish, hbuf, hroute, hjson, handleAnswer_dispatched hstatus hsection]
  exact ⟨rfl, rfl, rfl, rfl, rfl, rfl, rfl, rfl, rfl, rfl, rfl, rfl⟩

/-! ### The loop in closed form -/

/-- The entries that the loop stores, in order. -/
def storedDevices (nvs : Nvs) (env : Env) (heap : ℕ → BitVec 32) :
    List Json → ℕ → ℕ → List Device
  | [], _, _ => []
  | device :: items, pos, index =>
      match deviceData device with
      | some x => storeDevice nvs (env.pinFaults pos) (heap index) x ::
          storedDevices nvs env heap items (pos + 1) (index + 1)
      | none => storedDevices nvs env heap items (pos + 1) index

theorem length_storedDevices (nvs : Nvs) (env : Env) (heap : ℕ → BitVec 32) :
    ∀ (items : List Json) (pos index : ℕ),
      (storedDevices nvs env heap items pos index).length = (items.filterMap deviceData).length
  | [], _, _ => rfl
  | device :: items, pos, index => by
      have ih := length_storedDevices nvs env heap items (pos + 1)
      cases h : deviceData device with
      | none => simp [storedDevices, h, ih]
      | some x => simp [storedDevices, h, ih]

/-- The loop fills the block from `index` on with the stored entries and drives their relays. -/
theorem devicesLoop_eq (nvs : Nvs) (env : Env) (heap : ℕ → BitVec 32) :
    ∀ (items : List Json) (pos index : ℕ) (filled : List Device) (free : ℕ) (gpio : Gpio),
      filled.length = index → items.length ≤ free →
      devicesLoop nvs env heap items pos index (filled.map some ++ List.replicate free none) gpio =
        ((filled ++ storedDevices nvs env heap items pos index).map some ++
            List.replicate (free - (storedDevices nvs env heap items pos index).length) none,
          (storedDevices nvs env heap items pos index).foldl driveRelay gpio)
  | [], _, _, filled, free, gpio, _, _ => by simp [devicesLoop, storedDevices]
  | device :: items, pos, index, filled, free, gpio, hi, hf => by
      rw [List.length_cons] at hf
      cases h : deviceData device with
      | none =>
          simp only [devicesLoop, storedDevices, h]
          exact devicesLoop_eq nvs env heap items _ _ filled free gpio hi (by omega)
      | some x =>
          obtain ⟨free, rfl⟩ : ∃ k, free = k + 1 := ⟨free - 1, by omega⟩
          have hset : ∀ d : Device,
              (filled.map some ++ List.replicate (free + 1) none).set index (some d) =
                (filled ++ [d]).map some ++ List.replicate free none := by
            intro d
            rw [List.set_append_right _ _ (by simp [hi]), List.replicate_succ]
            simp [hi]
          simp only [devicesLoop, storedDevices, h, hset]
          rw [devicesLoop_eq nvs env heap items _ _ _ free _ (by simp [hi]) (by omega)]
          simp

/-- The branch for an array in closed form. -/
theorem devicesBranch_eq (env : Env) (items : List Json) (g : Globals) :
    devicesBranch env items g =
      match env.malloc items.length with
      | none => ({ g with deviceCount := items.length, devices := none }, false)
      | some heap =>
          ({ g with
              deviceCount := items.length
              devices := some ((storedDevices g.nvs env heap items 0 0).map some ++
                List.replicate (items.length - (items.filterMap deviceData).length) none)
              gpio := (storedDevices g.nvs env heap items 0 0).foldl driveRelay g.gpio
              flags := { g.flags with populateDevices := true } }, true) := by
  unfold devicesBranch
  cases env.malloc items.length with
  | none => rfl
  | some heap =>
      have h := devicesLoop_eq g.nvs env heap items 0 0 [] items.length g.gpio rfl le_rfl
      simp only [List.map_nil, List.nil_append, length_storedDevices] at h
      simp only [h]

/-! ### Example surroundings -/

/-- A parser on a single text. -/
def parseOnly (text : CStr) (json : Json) (t : CStr) : Option Json :=
  if t = text then some json else none

theorem parseOnly_self (text : CStr) (json : Json) : parseOnly text json text = some json :=
  if_pos rfl

/-- Every allocation of non-zero size succeeds with zeroed memory, `malloc(0)` is `NULL`. -/
def zeroedHeap : Env where
  malloc n := if n = 0 then none else some (fun _ => 0#32)
  pinFaults _ := .none

/-- The element `{"deviceType":"relay","id":0,"name":"Luz","status":true}`. -/
def exampleRelay : Json :=
  .object [("deviceType".toList, .string "relay".toList), ("id".toList, .createNumber 0),
    ("name".toList, .string "Luz".toList), ("status".toList, .bool true)]

/-- The JSON of an answer of `newData.json` with status true. -/
def newDataJson (sectionValue : CStr) : Json :=
  .object [("section".toList, .string sectionValue), ("status".toList, .bool true)]

/-- Its text. -/
def newDataText (sectionValue : CStr) : CStr :=
  "\x7b\"section\":\"".toList ++ sectionValue ++ "\",\"status\":true\x7d".toList

/-- A parser on that text. -/
def parseNewData (sectionValue : CStr) : CStr → Option Json :=
  parseOnly (newDataText sectionValue) (newDataJson sectionValue)

/-- The example device with that answer in the buffer. -/
def newDataAnswered (sectionValue : CStr) : Globals :=
  { exampleGlobals with response := ResponseBuffer.empty.append (newDataText sectionValue) }

theorem newDataAnswered_delivers (sectionValue : CStr) (h : '\x00' ∉ sectionValue) :
    Delivers (parseNewData sectionValue) (some (Request.getNewData.url exampleId))
      (newDataAnswered sectionValue) sectionValue := by
  have hn : '\x00' ∉ newDataText sectionValue := by
    unfold newDataText
    rw [List.mem_append, List.mem_append]
    rintro ((hm | hm) | hm)
    · exact absurd hm (by decide)
    · exact h hm
    · exact absurd hm (by decide)
  refine ⟨newDataText sectionValue, newDataJson sectionValue, rfl, ?_, ?_, rfl, rfl⟩
  · rw [urlAfter_some, Request.snprintf_url]
    exact route_getNewData exampleId
  · rw [cstr_eq_self_iff.mpr hn]
    exact parseOnly_self _ _

end Sicae
