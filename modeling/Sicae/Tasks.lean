import Sicae.Webserver
import Sicae.Menu
import Mathlib.Logic.Function.Basic

/-! # HTTP requests and the tasks

`perform` is one request of `firebaseFns.c` with what the server answers to it; the answer runs
through the event handler inside the call.  On top of it stand the branches of
`data_processing_task`, one definition each in the order of the loop, and the functions of the
other tasks that touch the device table.

Every answer, and whatever else a task reads from outside, is an argument: `Io` collects it for
one iteration of the loop. -/

namespace Sicae

open CString

/-! ### Requests -/

/-- What happens to a request: the chunks of the body that arrive, and the status code of a
complete answer, `none` if the request fails before its end. -/
structure Reply where
  isChunked : Bool := false
  chunks : List (List Char)
  status : Option ℕ

variable (parse : CStr → Option Json)

/-- The events that a reply causes in the handler. -/
def Reply.deliver (env : Env) (clientUrl : CStr) (reply : Reply) (g : Globals) : Globals :=
  let g := onDataEvents parse env (some clientUrl) reply.isChunked reply.chunks g
  if reply.status.isSome then clientEventGetHandler parse env (some clientUrl) .onFinish g else g

/-- One request: format its URL, send it, run the handler on the events. -/
def perform (env : Env) (r : Request) (reply : Reply) (g : Globals) : Globals :=
  reply.deliver parse env (r.url g.deviceId)
    { g with url := r.url g.deviceId, sent := r :: g.sent }

/-- What one iteration of `data_processing_task` finds outside: the reply to each request, the
surroundings of the handler, errors of the pin lookup, the uninitialised stack byte `gpio_pin`,
and the outcome of the `malloc` of the menu items. -/
structure Io where
  reply : Request → Reply
  env : Env
  pinFaults : NvsFaults
  gpioPin : BitVec 8
  menuAllocated : Bool

/-- The request `r` of an iteration. -/
def Io.perform (io : Io) (r : Request) (g : Globals) : Globals :=
  Sicae.perform parse io.env r (io.reply r) g

/-! ### `data_processing_task` -/

/-- `free_devices_array`. -/
def freeDevicesArray (g : Globals) : Globals :=
  if g.devices.isSome then { g with devices := none, deviceCount := 0 } else g

/-- Freeing touches the table and its count only. -/
theorem freeDevicesArray_eq (g : Globals) :
    freeDevicesArray g =
      { g with
        devices := none
        deviceCount := if g.devices.isSome then 0 else g.deviceCount } := by
  unfold freeDevicesArray
  split_ifs with h
  · rfl
  · rw [← Option.not_isSome_iff_eq_none.mp h]

/-- The FETCHNEWINFODATA branch up to its request. -/
def fetchInfoStart (g : Globals) : Globals :=
  { g with
    flags := { g.flags with fetchNewInfoData := false }
    lcd := .text "ACTUALIZANDO".toList "OBTENIENDO INFO".toList
    tasks := { g.tasks with dataFetchSuspended := true } }

/-- The FETCHNEWINFODATA branch. -/
def fetchInfoBranch (io : Io) (g : Globals) : Globals :=
  if g.flags.fetchNewInfoData then io.perform parse .getInfo (fetchInfoStart g) else g

/-- The FETCHNEWDEVICESDATA branch up to its request. -/
def fetchDevicesStart (g : Globals) : Globals :=
  let g := freeDevicesArray { g with flags := { g.flags with fetchNewDevicesData := false } }
  { g with
    lcd := .text "ACTUALIZANDO".toList "OBTENIENDO DISP".toList
    tasks := { g.tasks with dataFetchSuspended := true } }

theorem fetchDevicesStart_eq (g : Globals) :
    fetchDevicesStart g =
      { g with
        flags := { g.flags with fetchNewDevicesData := false }
        devices := none
        deviceCount := if g.devices.isSome then 0 else g.deviceCount
        lcd := .text "ACTUALIZANDO".toList "OBTENIENDO DISP".toList
        tasks := { g.tasks with dataFetchSuspended := true } } := by
  rw [fetchDevicesStart, freeDevicesArray_eq]

/-- The FETCHNEWDEVICESDATA branch. -/
def fetchDevicesBranch (io : Io) (g : Globals) : Globals :=
  if g.flags.fetchNewDevicesData then io.perform parse .getDevices (fetchDevicesStart g) else g

/-- The SETCONSUMEDCURRENT branch up to its request. -/
def consumedCurrentStart (g : Globals) : Globals :=
  { g with
    flags := { g.flags with setConsumedCurrent := false }
    tasks := { g.tasks with acsReadSuspended := true } }

/-- `vTaskResume(aCSReadHandler)`. -/
def resumeAcsRead (g : Globals) : Globals :=
  { g with tasks := { g.tasks with acsReadSuspended := false } }

/-- The request of the SETCONSUMEDCURRENT branch. -/
def currentRequest (g : Globals) : Request :=
  .updateDeviceCurrent g.currentDeviceIndex (g.deviceCurrents g.currentDeviceIndex)

/-- The SETCONSUMEDCURRENT branch. -/
def consumedCurrentBranch (io : Io) (g : Globals) : Globals :=
  if g.flags.setConsumedCurrent then
    resumeAcsRead (io.perform parse (currentRequest g) (consumedCurrentStart g))
  else g

/-- A switch command as the SETNEWDEVICEDATA branch reads it from `urlSection`. -/
structure SwitchCommand where
  numberText : CStr
  desiredStatus : Bool
deriving DecidableEq, Repr

/-- `atoi(device_str)`. -/
def SwitchCommand.deviceNumber (c : SwitchCommand) : ℤ := atoi c.numberText

/-- The two tests of the branch: `urlSection` starts with `set/devices/`, and `/status/` follows
somewhere.  The status is on only for the word `true`. -/
def readSwitchCommand (urlSection : CStr) : Option SwitchCommand :=
  if "set/devices/".toList <+: urlSection then
    (strstr "/status/".toList (urlSection.drop 12)).map (fun p =>
      { numberText := p.1, desiredStatus := p.2.drop 8 == "true".toList })
  else none

/-- The local variable `gpio_pin` after the lookup: the stored pin, or still the stack byte. -/
def Io.gpioPinAfter (io : Io) (nvs : Nvs) (deviceNumber : ℤ) : BitVec 8 :=
  match readDevicePinFromNvs nvs io.pinFaults deviceNumber with
  | .ok p => p
  | .error _ => io.gpioPin

/-- The SETNEWDEVICEDATA branch up to its request: `*status_str = 0` cuts the command in place,
then the pin is looked up and driven, whether or not the lookup succeeded. -/
def switchStart (io : Io) (c : SwitchCommand) (g : Globals) : Globals :=
  { g with
    urlSection := "set/devices/".toList ++ c.numberText
    gpio := setPower g.gpio c.desiredStatus (io.gpioPinAfter g.nvs c.deviceNumber) }

/-- `SETNEWDEVICEDATA = 0`. -/
def setDeviceStart (g : Globals) : Globals :=
  { g with flags := { g.flags with setNewDeviceData := false } }

/-- `POSTNONEWDATA = 1`. -/
def raisePost (g : Globals) : Globals :=
  { g with flags := { g.flags with postNoNewData := true } }

/-- The SETNEWDEVICEDATA branch. -/
def setDeviceBranch (io : Io) (g : Globals) : Globals :=
  if g.flags.setNewDeviceData then
    match readSwitchCommand g.urlSection with
    | some c => raisePost (io.perform parse (.updateDeviceStatus c.deviceNumber c.desiredStatus)
        (switchStart io c (setDeviceStart g)))
    | none => raisePost (setDeviceStart g)
  else g

/-- The flags zeroed by `clear_new_data_section` on status 200. -/
def clearFlags (g : Globals) : Globals :=
  { g with flags := { g.flags with
      postNoNewData := false
      fetchNewInfoData := false
      fetchNewDevicesData := false
      fetchNewDatetimeData := false
      fetchNewFirmwareData := false
      fetchNewAlive := false } }

/-- `clear_new_data_section`. -/
def clearNewDataSection (io : Io) (g : Globals) : Globals :=
  let g := io.perform parse .clearNewData g
  if (io.reply .clearNewData).status = some 200 then clearFlags g else g

/-- `POSTNONEWDATA = 0`. -/
def postStart (g : Globals) : Globals :=
  { g with flags := { g.flags with postNoNewData := false } }

/-- The end of the POSTNONEWDATA branch: resume the polling task, refill the menu. -/
def postEnd (menuAllocated : Bool) (g : Globals) : Globals :=
  let g := { g with tasks := { g.tasks with dataFetchSuspended := false } }
  if g.flags.populateDevices then
    populateDeviceMenu menuAllocated { g with flags := { g.flags with populateDevices := false } }
  else g

/-- The POSTNONEWDATA branch. -/
def postBranch (io : Io) (g : Globals) : Globals :=
  if g.flags.postNoNewData then
    postEnd io.menuAllocated (clearNewDataSection parse io (postStart g))
  else g

/-- One iteration of `data_processing_task`. -/
def dataProcessingTask (io : Io) (g : Globals) : Globals :=
  postBranch parse io (setDeviceBranch parse io (consumedCurrentBranch parse io
    (fetchDevicesBranch parse io (fetchInfoBranch parse io g))))

/-! ### The other tasks -/

/-- The PATCH of `firebase_update_task`: the negated state of the entry at `currentDeviceIndex`,
both read when the task runs. -/
def firebaseUpdateRequest (g : Globals) : Option Request :=
  (g.device? g.currentDeviceIndex).map (fun d =>
    .updateDeviceStatus g.currentDeviceIndex (!d.state))

/-- `firebase_update_task`. -/
def firebaseUpdateTask (env : Env) (reply : Reply) (g : Globals) : Option Globals :=
  (firebaseUpdateRequest g).map (fun r => perform parse env r reply g)

/-- A completed measurement of `read_acs712_task` for entry `i`. -/
def measured (i : ℕ) (current : ℚ) (g : Globals) : Globals :=
  { g with
    deviceCurrents := Function.update g.deviceCurrents i current
    currentDeviceIndex := i
    flags := { g.flags with setConsumedCurrent := true } }

/-! ### What a request leaves alone -/

/-- `g'` differs from `g` only in the response buffer, the scratch `url`, the record of parsed
texts, and perhaps in POSTNONEWDATA, raised by the test at the end of `ON_FINISH`. -/
structure ParsedOnly (g g' : Globals) : Prop where
  flags : g'.flags = g.flags ∨ g'.flags = g.flags.postTest
  urlSection : g'.urlSection = g.urlSection
  deviceId : g'.deviceId = g.deviceId
  devices : g'.devices = g.devices
  deviceCount : g'.deviceCount = g.deviceCount
  currentDeviceIndex : g'.currentDeviceIndex = g.currentDeviceIndex
  deviceCurrents : g'.deviceCurrents = g.deviceCurrents
  nvs : g'.nvs = g.nvs
  gpio : g'.gpio = g.gpio
  menu : g'.menu = g.menu
  lcd : g'.lcd = g.lcd
  tasks : g'.tasks = g.tasks
  sent : g'.sent = g.sent

variable {parse}

theorem ParsedOnly.device? {g g' : Globals} (h : ParsedOnly g g') (i : ℕ) :
    g'.device? i = g.device? i := device?_congr h.devices i

theorem onFinish_parsedOnly {env : Env} {clientUrl : CStr} {g : Globals}
    (h : (route (snprintf 256 clientUrl)).passive = true) :
    ParsedOnly g (onFinish parse env (some clientUrl) g) := by
  cases hb : g.response.data with
  | none =>
      rw [onFinish_empty (ResponseBuffer.ext hb)]
      exact ⟨Or.inl rfl, rfl, rfl, rfl, rfl, rfl, rfl, rfl, rfl, rfl, rfl, rfl, rfl⟩
  | some buf =>
      rw [@onFinish_passive parse env (some clientUrl) g buf hb h]
      exact ⟨Or.inr rfl, rfl, rfl, rfl, rfl, rfl, rfl, rfl, rfl, rfl, rfl, rfl, rfl⟩

/-- An answer that reaches a branch that only parses changes nothing else. -/
theorem Reply.deliver_passive {env : Env} {clientUrl : CStr} {reply : Reply} {g : Globals}
    (h : (route (snprintf 256 clientUrl)).passive = true) :
    ParsedOnly g (reply.deliver parse env clientUrl g) := by
  obtain ⟨u, hu⟩ := @onDataEvents_eq parse env (some clientUrl) reply.isChunked reply.chunks g
  rw [Reply.deliver, hu]
  cases hs : reply.status.isSome with
  | true =>
      have hf := @onFinish_parsedOnly parse env clientUrl { g with
        response := if reply.isChunked then g.response
          else reply.chunks.foldl ResponseBuffer.append g.response
        url := u } h
      exact ⟨hf.flags, hf.urlSection, hf.deviceId, hf.devices, hf.deviceCount,
        hf.currentDeviceIndex, hf.deviceCurrents, hf.nvs, hf.gpio, hf.menu, hf.lcd, hf.tasks, hf.sent⟩
  | false => exact ⟨Or.inl rfl, rfl, rfl, rfl, rfl, rfl, rfl, rfl, rfl, rfl, rfl, rfl, rfl⟩

/-- The buffer after the `ON_DATA` events of a reply. -/
def Reply.buffered (reply : Reply) (b : ResponseBuffer) : ResponseBuffer :=
  if reply.isChunked then b else reply.chunks.foldl ResponseBuffer.append b

/-- The part of the body that reaches the buffer. -/
def Reply.body (reply : Reply) : List Char := if reply.isChunked then [] else reply.chunks.flatten

theorem Reply.buffered_data (reply : Reply) (b : ResponseBuffer) :
    (reply.buffered b).data.getD [] = b.data.getD [] ++ reply.body := by
  unfold Reply.buffered Reply.body
  split_ifs
  · rw [List.append_nil]
  · rw [foldl_append_data]
    split_ifs with h
    · rw [h, List.flatten_nil, List.append_nil]
    · rfl

/-- A reply runs `ON_FINISH`, if it is complete, on its body behind what was in the buffer. -/
theorem Reply.deliver_eq (env : Env) (clientUrl : CStr) (reply : Reply) (g : Globals) :
    ∃ g', g'.response = reply.buffered g.response ∧ g'.flags = g.flags ∧ g'.sent = g.sent ∧
      reply.deliver parse env clientUrl g =
        if reply.status.isSome then onFinish parse env (some clientUrl) g' else g' := by
  obtain ⟨u, hu⟩ := @onDataEvents_eq parse env (some clientUrl) reply.isChunked reply.chunks g
  refine ⟨onDataEvents parse env (some clientUrl) reply.isChunked reply.chunks g, ?_, ?_, ?_, rfl⟩
  · rw [hu]
    rfl
  · rw [hu]
  · rw [hu]

/-- Where the text in the buffer is no command, no request flag is raised. -/
theorem Reply.deliver_other {env : Env} {clientUrl : CStr} {reply : Reply} {g : Globals}
    (h : ∀ buf, (reply.buffered g.response).data = some buf →
      commandSection (route (snprintf 256 clientUrl)) (parse (cstr buf)) = none) :
    (reply.deliver parse env clientUrl g).sent = g.sent ∧
    (∃ b, (reply.deliver parse env clientUrl g).flags = g.flags.withPopulate b ∨
      (reply.deliver parse env clientUrl g).flags = g.flags.postTest.withPopulate b) ∧
    ((reply.deliver parse env clientUrl g).response = reply.buffered g.response ∨
      (reply.deliver parse env clientUrl g).response = .empty) := by
  obtain ⟨g', hresp, hflags, hsent, hg⟩ := @Reply.deliver_eq parse env clientUrl reply g
  rw [hg]
  split_ifs
  · cases hbuf : g'.response.data with
    | none =>
        rw [onFinish_empty (ResponseBuffer.ext hbuf)]
        exact ⟨hsent, ⟨g.flags.populateDevices, Or.inl hflags⟩, Or.inl hresp⟩
    | some buf =>
        refine ⟨onFinish_sent.trans hsent, ?_, ?_⟩
        · obtain ⟨b, hb⟩ := @onFinish_flags_other parse env (some clientUrl) g' buf hbuf
            (h buf (by rw [← hresp, hbuf]))
          refine ⟨b, ?_⟩
          rw [hb, hflags]
          split_ifs
          · exact Or.inr rfl
          · exact Or.inl rfl
        · rw [onFinish_response hbuf]
          split_ifs
          · exact Or.inr rfl
          · exact Or.inl hresp
  · exact ⟨hsent, ⟨g.flags.populateDevices, Or.inl hflags⟩, Or.inl hresp⟩

/-- The info request and the uploads add themselves to the record of requests and change
nothing else of what the tasks work on. -/
theorem perform_passive {env : Env} {r : Request} {reply : Reply} {g : Globals}
    (hr : r.toDisp = true) (hne : r ≠ .getDevices) :
    ParsedOnly { g with sent := r :: g.sent } (perform parse env r reply g) := by
  have hroute : (route (snprintf 256 (r.url g.deviceId))).passive = true := by
    rw [Request.snprintf_url]
    exact route_passive hr hne
  have h := @Reply.deliver_passive parse env _ reply
    { g with url := r.url g.deviceId, sent := r :: g.sent } hroute
  exact ⟨h.flags, h.urlSection, h.deviceId, h.devices, h.deviceCount, h.currentDeviceIndex,
    h.deviceCurrents, h.nvs, h.gpio, h.menu, h.lcd, h.tasks, h.sent⟩

/-! ### Example surroundings -/

/-- No request is answered, no error is injected, and GPIO 22 is left in the stack byte. -/
def exampleIo : Io where
  reply _ := { chunks := [], status := none }
  env := zeroedHeap
  pinFaults := .none
  gpioPin := 22#8
  menuAllocated := true

end Sicae
