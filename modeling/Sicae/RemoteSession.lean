import Sicae.JsonAnswers
import Sicae.SwitchCommand
import Sicae.Acknowledge
import Sicae.FailedRefresh

/-! # A session of remote commands

A switch command on its whole way: the answer of the server arrives in chunks, is parsed and
dispatched; the processing task reads the mailbox, looks the pin up, drives it, reports the new
status and clears `newData.json`.

When every answer arrives whole or not at all, a command for a stored pin leaves the firmware ready
for the next one (`Ready`), has driven this pin once, and has sent three requests (`Carried`).  By
induction a session leaves every pin at the level of the last command for it, and the server with
the statuses in the order of the commands (`remote_session`). -/

namespace Sicae

open CString Codec

/-! ### Requests without consequences -/

/-- A reply that is complete, or of which nothing reaches the buffer. -/
def Reply.Whole (reply : Reply) : Prop :=
  reply.status.isSome = true ∨ reply.isChunked = true ∨ reply.chunks = []

/-- The request `r` has been sent, and nothing has come of its answer but the record of it. -/
structure Uneventful (r : Request) (g g' : Globals) : Prop where
  flags : g'.flags = g.flags
  response : g'.response = .empty
  urlSection : g'.urlSection = g.urlSection
  deviceId : g'.deviceId = g.deviceId
  devices : g'.devices = g.devices
  nvs : g'.nvs = g.nvs
  gpio : g'.gpio = g.gpio
  sent : g'.sent = r :: g.sent

/-- Nothing of an incomplete reply that is whole reaches the buffer. -/
theorem Reply.Whole.buffered_empty {reply : Reply} (h : reply.Whole)
    (hs : reply.status.isSome = false) : reply.buffered .empty = .empty := by
  rcases h with h | h | h
  · exact absurd (hs.symm.trans h) Bool.false_ne_true
  · rw [buffered, h]
    rfl
  · rw [buffered, h]
    exact ite_self _

section
variable {parse : CStr → Option Json} {env : Env} {g : Globals}

/-- An answer that is no command and no table changes nothing but the display. -/
theorem answerBranch_uneventful {r : Route} {json : Option Json} (hr : r ≠ .devices)
    (h : commandSection r json = none) :
    ∃ lcd, answerBranch env r json g = ({ g with lcd := lcd }, true) := by
  cases r with
  | devices => exact absurd rfl hr
  | device | info | unknown => exact ⟨g.lcd, rfl⟩
  | newData =>
      cases json with
      | none => exact ⟨g.lcd, rfl⟩
      | some v =>
          simp only [commandSection] at h
          simp only [answerBranch, newDataBranch]
          split_ifs at h ⊢
          · split
            · simp_all
            · exact ⟨_, rfl⟩
          · exact ⟨g.lcd, rfl⟩

/-- **A request whose answer is no command** leaves no trace but itself, if the test at the end of
`ON_FINISH` has nothing to raise. -/
theorem perform_uneventful {r : Request} {reply : Reply} (hr : r ≠ .getDevices) (hw : reply.Whole)
    (hg : g.response = .empty) (ht : g.flags.postTest = g.flags)
    (hother : commandSection (route (r.url g.deviceId)) (parse (cstr reply.body)) = none) :
    Uneventful r g (perform parse env r reply g) := by
  obtain ⟨u, hu⟩ := @onDataEvents_eq parse env (some (r.url g.deviceId)) reply.isChunked
    reply.chunks { g with url := r.url g.deviceId, sent := r :: g.sent }
  have hbuf := reply.buffered_data g.response
  rw [hg, ResponseBuffer.empty_data, Option.getD_none, List.nil_append] at hbuf
  rw [perform, Reply.deliver, hu]
  cases hs : reply.status.isSome with
  | false =>
      have hempty := hw.buffered_empty hs
      refine ⟨rfl, ?_, rfl, rfl, rfl, rfl, rfl, rfl⟩
      show reply.buffered g.response = .empty
      rw [hg, hempty]
  | true =>
      rw [if_pos rfl]
      show Uneventful r g (onFinish parse env (some (r.url g.deviceId))
        { g with url := u, sent := r :: g.sent, response := reply.buffered g.response })
      rw [hg]
      cases hdata : (reply.buffered .empty).data with
      | none =>
          have hempty : reply.buffered .empty = .empty := ResponseBuffer.ext hdata
          rw [hempty, onFinish_empty rfl]
          exact ⟨rfl, rfl, rfl, rfl, rfl, rfl, rfl, rfl⟩
      | some buf =>
          rw [hdata, Option.getD_some] at hbuf
          have hurl : snprintf 256 (r.url g.deviceId) = r.url g.deviceId := Request.snprintf_url ..
          obtain ⟨lcd, hbranch⟩ := @answerBranch_uneventful env
            (received (some (r.url g.deviceId)) buf { g with
              url := u, sent := r :: g.sent, response := reply.buffered .empty })
            (route (r.url g.deviceId)) (parse (cstr buf)) (route_ne_devices hr) (hbuf ▸ hother)
          have hflags : g.flags.postTest = g.flags := ht
          simp only [onFinish, hdata, urlAfter_some, hurl, handleAnswer, hbranch, if_true,
            postNoNewDataTest]
          exact ⟨hflags, rfl, rfl, rfl, rfl, rfl, rfl, rfl⟩

end

/-! ### Polls -/

/-- A switch command that is short enough for the mailbox. -/
structure SwitchOrder where
  text : CStr
  device : ℕ
  status : Bool
  isCommand : IsSwitchCommand text device status
  short : text.length ≤ if status then 79 else 84

/-- A poll and the pass of the processing task behind it: the answer is a tree that the server
prints, with a switch command in it or none; the other answers arrive whole or not at all, and the
answer to the clear is no command. -/
structure PollRound where
  env : Env
  reply : Reply
  answer : Json
  format : Bool
  order : Option SwitchOrder
  io : Io
  answer_fits : Json.Fits Json.nestingLimit answer
  complete : reply.status.isSome = true
  body_eq : reply.body = Json.print format answer
  heard : commandSection .newData (some answer) = order.map SwitchOrder.text
  pinFaults : io.pinFaults = .none
  whole : ∀ r, (io.reply r).Whole
  echo : commandSection .newData (Json.parse (cstr (io.reply .clearNewData).body)) = none

/-- What a poll makes the firmware do. -/
def PollRound.run (g : Globals) (x : PollRound) : Globals :=
  dataProcessingTask Json.parse x.io (perform Json.parse x.env .getNewData x.reply g)

/-- The requests of a poll, newest first. -/
def PollRound.requests (x : PollRound) : List Request :=
  match x.order with
  | none => [.getNewData]
  | some o => [.clearNewData, .updateDeviceStatus o.device o.status, .getNewData]

/-- The pins after a poll. -/
def PollRound.drive (pin : ℕ → BitVec 8) (gpio : Gpio) (x : PollRound) : Gpio :=
  match x.order with
  | none => gpio
  | some o => setPower gpio o.status (pin o.device)

/-- The firmware waits for a command: no request is pending and nothing is left in the buffer. -/
structure Ready (g : Globals) : Prop where
  pending : g.flags.requestPending = false
  post : g.flags.postNoNewData = false
  current : g.flags.setConsumedCurrent = false
  response : g.response = .empty

/-- A poll has been carried out. -/
structure Carried (pin : ℕ → BitVec 8) (x : PollRound) (g g' : Globals) : Prop where
  ready : Ready g'
  nvs : g'.nvs = g.nvs
  devices : g'.devices = g.devices
  gpio : g'.gpio = x.drive pin g.gpio
  sent : g'.sent = x.requests ++ g.sent

/-! ### One poll -/

section
variable {g : Globals} {x : PollRound} {pin : ℕ → BitVec 8}

theorem Ready.idle (h : Ready g) : Idle g.flags := idle_of_requestPending h.pending h.current h.post

/-- A poll without a command. -/
theorem PollRound.carried_none (h : Ready g) (ho : x.order = none) : Carried pin x g (x.run g) := by
  have hparse : Json.parse (cstr x.reply.body) = some x.answer := by
    rw [x.body_eq]
    exact Json.parse_cstr_print x.answer_fits x.format
  have hquiet : Uneventful .getNewData g (perform Json.parse x.env .getNewData x.reply g) := by
    refine perform_uneventful (by simp) (.inl x.complete) h.response
      (Flags.postTest_of_not h.pending) ?_
    rw [route_getNewData, hparse, x.heard, ho]
    rfl
  have hidle : Idle (perform Json.parse x.env .getNewData x.reply g).flags := by
    rw [hquiet.flags]
    exact h.idle
  rw [PollRound.run, dataProcessingTask_idle hidle]
  refine ⟨⟨?_, ?_, ?_, hquiet.response⟩, hquiet.nvs, hquiet.devices, ?_, ?_⟩
  · rw [hquiet.flags]
    exact h.pending
  · rw [hquiet.flags]
    exact h.post
  · rw [hquiet.flags]
    exact h.current
  · rw [PollRound.drive, ho]
    exact hquiet.gpio
  · rw [PollRound.requests, ho]
    exact hquiet.sent

/-- A command as the branch reads it. -/
theorem SwitchOrder.read (o : SwitchOrder) :
    "set/devices/".toList <+: o.text ∧ ∃ c, readSwitchCommand (snprintf 80 o.text) = some c ∧
      c.deviceNumber = o.device ∧ c.desiredStatus = o.status := by
  obtain ⟨text, n, b, ⟨ds, -, hds, hn, hlt, rfl⟩, hshort⟩ := o
  refine ⟨prefix_switchText ds b, ?_⟩
  have hread := readSwitchCommand_switchText (slash_not_mem_of_digits hds) b
  have hlen := length_switchText ds b
  have h59 : ds.length ≤ 59 := by
    split_ifs at hshort hlen <;> omega
  rw [if_pos h59] at hread
  refine ⟨_, hread, ?_, ?_⟩
  · dsimp only
    rw [SwitchCommand.deviceNumber, atoi_digits hds (hn ▸ hlt), hn]
  · cases b with
    | false => rfl
    | true =>
        have h55 : ds.length ≤ 55 := by
          simp only [if_true] at hshort hlen
          omega
        show (true && decide (ds.length ≤ 55)) = true
        rw [decide_eq_true h55]
        rfl

/-- The poll of a command dispatches it. -/
theorem PollRound.polled {o : SwitchOrder} (h : Ready g) (ho : x.order = some o) :
    Dispatched o.text { g with sent := .getNewData :: g.sent }
      (perform Json.parse x.env .getNewData x.reply g) := by
  have hcommand : commandSection .newData (some x.answer) = some o.text := by
    rw [x.heard, ho]
    rfl
  have hroute : route (Request.getNewData.url g.deviceId) = .newData := route_getNewData g.deviceId
  have hne : x.reply.body ≠ [] := x.body_eq ▸ Json.print_ne_nil x.format x.answer
  have hdata : (x.reply.buffered g.response).data = some (Json.print x.format x.answer) := by
    rw [h.response, ← x.body_eq]
    exact Reply.buffered_empty hne
  rw [perform_eq_actOn x.complete hdata (Json.parse_cstr_print x.answer_fits x.format)]
  simp only [actOn, answered, hroute, handleAnswer_command hcommand, if_true, received]
  exact ⟨rfl, rfl, rfl, rfl, rfl, rfl, rfl, rfl, rfl, rfl, rfl, rfl⟩

/-- The flags then. -/
theorem SwitchOrder.flags (o : SwitchOrder) (f : Flags) :
    (dispatchSection o.text f).postTest =
      { f with setNewDeviceData := true, postNoNewData := true } := by
  rw [dispatchSection_setDevices o.read.1, Flags.postTest_eq]
  simp [Flags.requestPending]

/-- The branches before the command have nothing to do. -/
theorem dataProcessingTask_ordered {parse : CStr → Option Json} {io : Io}
    (hinfo : g.flags.fetchNewInfoData = false) (hdevices : g.flags.fetchNewDevicesData = false)
    (hcurrent : g.flags.setConsumedCurrent = false) :
    dataProcessingTask parse io g = postBranch parse io (setDeviceBranch parse io g) := by
  have h1 : fetchInfoBranch parse io g = g := by rw [fetchInfoBranch, hinfo]; rfl
  have h2 : fetchDevicesBranch parse io g = g := by rw [fetchDevicesBranch, hdevices]; rfl
  have h3 : consumedCurrentBranch parse io g = g := by rw [consumedCurrentBranch, hcurrent]; rfl
  rw [dataProcessingTask, h1, h2, h3]

/-- The branch of the command drives the pin and reports, and asks for the clear. -/
theorem setDeviceBranch_ordered {parse : CStr → Option Json} {io : Io} {c : SwitchCommand}
    {p : BitVec 8} (hf : g.flags.setNewDeviceData = true) (hpost : g.flags.postNoNewData = true)
    (hc : readSwitchCommand g.urlSection = some c) (hg : g.response = .empty)
    (hw : ∀ r, (io.reply r).Whole) (hfaults : io.pinFaults = .none)
    (hp : PinStored g.nvs c.deviceNumber p) :
    let g' := setDeviceBranch parse io g
    g'.flags = { g.flags with setNewDeviceData := false } ∧ g'.response = .empty ∧
      g'.deviceId = g.deviceId ∧ g'.devices = g.devices ∧ g'.nvs = g.nvs ∧
      g'.gpio = setPower g.gpio c.desiredStatus p ∧
      g'.sent = .updateDeviceStatus c.deviceNumber c.desiredStatus :: g.sent := by
  intro g'
  have hroute := @route_passive (switchStart io c (setDeviceStart g)).deviceId
    (.updateDeviceStatus c.deviceNumber c.desiredStatus) rfl (by simp)
  have hquiet : Uneventful (.updateDeviceStatus c.deviceNumber c.desiredStatus)
      (switchStart io c (setDeviceStart g))
      (io.perform parse (.updateDeviceStatus c.deviceNumber c.desiredStatus)
        (switchStart io c (setDeviceStart g))) := by
    refine perform_uneventful (by simp) (hw _) hg (Flags.postTest_of_post hpost) ?_
    refine commandSection_of_ne fun he => ?_
    rw [he] at hroute
    cases hroute
  have hpin : io.gpioPinAfter g.nvs c.deviceNumber = p := by
    rw [Io.gpioPinAfter, hfaults, hp.read]
  have hg' : g' = raisePost (io.perform parse (.updateDeviceStatus c.deviceNumber c.desiredStatus)
      (switchStart io c (setDeviceStart g))) := by
    show setDeviceBranch parse io g = _
    rw [setDeviceBranch, if_pos hf, hc]
  rw [hg']
  refine ⟨?_, hquiet.response, hquiet.deviceId, hquiet.devices, hquiet.nvs, ?_, hquiet.sent⟩
  · show { (io.perform parse _ _).flags with postNoNewData := true } = _
    rw [hquiet.flags]
    show { g.flags with setNewDeviceData := false, postNoNewData := true } = _
    rw [← hpost]
  · show (io.perform parse _ _).gpio = _
    rw [hquiet.gpio]
    show setPower g.gpio c.desiredStatus (io.gpioPinAfter g.nvs c.deviceNumber) = _
    rw [hpin]

/-- The last branch clears the command and leaves nothing to do. -/
theorem postBranch_ordered {io : Io} (hpost : g.flags.postNoNewData = true)
    (hpend : g.flags.requestPending = false) (hcurrent : g.flags.setConsumedCurrent = false)
    (hg : g.response = .empty) (hw : ∀ r, (io.reply r).Whole)
    (hecho : commandSection .newData (Json.parse (cstr (io.reply .clearNewData).body)) = none) :
    let g' := postBranch Json.parse io g
    Ready g' ∧ g'.devices = g.devices ∧ g'.nvs = g.nvs ∧ g'.gpio = g.gpio ∧
      g'.sent = .clearNewData :: g.sent := by
  intro g'
  have hquiet : Uneventful .clearNewData (postStart g)
      (io.perform Json.parse .clearNewData (postStart g)) := by
    refine perform_uneventful (by simp) (hw _) hg (Flags.postTest_of_not hpend) ?_
    rw [route_clearNewData]
    exact hecho
  have hclear : ∃ f : Flags, f.requestPending = false ∧ f.postNoNewData = false ∧
      f.setConsumedCurrent = false ∧ clearNewDataSection Json.parse io (postStart g) =
        { io.perform Json.parse .clearNewData (postStart g) with flags := f } := by
    have hpend' := requestPending_eq_false_iff.mp hpend
    unfold clearNewDataSection
    split_ifs
    · refine ⟨_, ?_, rfl, ?_, rfl⟩
      · rw [hquiet.flags]
        exact requestPending_eq_false_iff.mpr
          ⟨rfl, rfl, rfl, rfl, hpend'.2.2.2.2.1, hpend'.2.2.2.2.2.1, hpend'.2.2.2.2.2.2⟩
      · rw [hquiet.flags]
        exact hcurrent
    · refine ⟨(postStart g).flags, hpend, rfl, hcurrent, ?_⟩
      rw [← hquiet.flags]
  obtain ⟨f, hf, hfpost, hfcurrent, hcleared⟩ := hclear
  obtain ⟨b, menu, lcd, hend⟩ := postEnd_eq io.menuAllocated
    (clearNewDataSection Json.parse io (postStart g))
  have hg' : g' = _ := (if_pos hpost).trans hend
  rw [hg', hcleared]
  exact ⟨⟨hf, hfpost, hfcurrent, hquiet.response⟩, hquiet.devices, hquiet.nvs, hquiet.gpio,
    hquiet.sent⟩

/-- A poll with a command. -/
theorem PollRound.carried_some {o : SwitchOrder} (h : Ready g) (ho : x.order = some o)
    (hp : PinStored g.nvs o.device (pin o.device)) : Carried pin x g (x.run g) := by
  obtain ⟨-, c, hc, hn, hb⟩ := o.read
  have hd := x.polled h ho
  have hpend := requestPending_eq_false_iff.mp h.pending
  rw [PollRound.run]
  generalize perform Json.parse x.env .getNewData x.reply g = g₁ at hd
  have hflags := hd.flags.trans (o.flags g.flags)
  rw [dataProcessingTask_ordered (by rw [hflags]; exact hpend.1) (by rw [hflags]; exact hpend.2.1)
    (by rw [hflags]; exact h.current)]
  obtain ⟨hf₂, hresp₂, -, hdev₂, hnvs₂, hgpio₂, hsent₂⟩ :=
    @setDeviceBranch_ordered g₁ Json.parse x.io c (pin o.device) (by rw [hflags])
      (by rw [hflags]) (by rw [hd.urlSection, hc]) hd.response x.whole x.pinFaults
      (by rw [hd.nvs, hn]; exact hp)
  generalize setDeviceBranch Json.parse x.io g₁ = g₂ at hf₂ hresp₂ hdev₂ hnvs₂ hgpio₂ hsent₂
  rw [hflags] at hf₂
  obtain ⟨hready, hdev, hnvs, hgpio, hsent⟩ := @postBranch_ordered g₂ x.io (by rw [hf₂])
    (by
      rw [hf₂]
      exact requestPending_eq_false_iff.mpr ⟨hpend.1, hpend.2.1, hpend.2.2.1, hpend.2.2.2.1,
        hpend.2.2.2.2.1, rfl, hpend.2.2.2.2.2.2⟩)
    (by rw [hf₂]; exact h.current) hresp₂ x.whole x.echo
  refine ⟨hready, ?_, ?_, ?_, ?_⟩
  · rw [hnvs, hnvs₂, hd.nvs]
  · rw [hdev, hdev₂, hd.devices]
  · rw [hgpio, hgpio₂, hd.gpio, PollRound.drive, ho, hb]
  · rw [hsent, hsent₂, hd.sent, PollRound.requests, ho, hn, hb]
    rfl

/-- **One poll** of a session. -/
theorem PollRound.carried (h : Ready g)
    (hp : ∀ o ∈ x.order, PinStored g.nvs o.device (pin o.device)) : Carried pin x g (x.run g) := by
  cases ho : x.order with
  | none => exact x.carried_none h ho
  | some o => exact x.carried_some h ho (hp o ho)

end

/-! ### Sessions -/

/-- The commands of a session, in their order. -/
def orders (xs : List PollRound) : List SwitchOrder := xs.filterMap PollRound.order

section
variable {g : Globals} {xs : List PollRound} {pin : ℕ → BitVec 8}

/-- A session, poll by poll. -/
theorem foldl_run_carried (hg : Ready g)
    (hpin : ∀ o ∈ orders xs, PinStored g.nvs o.device (pin o.device)) :
    Ready (xs.foldl PollRound.run g) ∧ (xs.foldl PollRound.run g).devices = g.devices ∧
      (xs.foldl PollRound.run g).gpio = xs.foldl (PollRound.drive pin) g.gpio ∧
      (xs.foldl PollRound.run g).sent = xs.reverse.flatMap PollRound.requests ++ g.sent := by
  induction xs generalizing g with
  | nil => exact ⟨hg, rfl, rfl, rfl⟩
  | cons x xs ih =>
      have hx : ∀ o ∈ x.order, PinStored g.nvs o.device (pin o.device) := fun o ho =>
        hpin o (List.mem_filterMap.mpr ⟨x, List.mem_cons_self, ho⟩)
      have hstep := x.carried hg hx
      obtain ⟨hready, hdevices, hgpio, hsent⟩ := ih hstep.ready (fun o ho => by
        obtain ⟨y, hy, hyo⟩ := List.mem_filterMap.mp ho
        rw [hstep.nvs]
        exact hpin o (List.mem_filterMap.mpr ⟨y, List.mem_cons_of_mem x hy, hyo⟩))
      refine ⟨hready, hdevices.trans hstep.devices, ?_, ?_⟩
      · rw [List.foldl_cons, hgpio, hstep.gpio, List.foldl_cons]
      · rw [List.foldl_cons, hsent, hstep.sent, List.reverse_cons, List.flatMap_append,
          List.flatMap_singleton, List.append_assoc]

/-- The last command for a pin. -/
def lastOrder (pin : ℕ → BitVec 8) (q : ℤ) (os : List SwitchOrder) : Option SwitchOrder :=
  os.reverse.find? fun o => ((pin o.device).toNat : ℤ) = q

/-- A pin has the level of the last command for it. -/
theorem lastLevel_foldl_drive (gpio : Gpio)
    (hvalid : ∀ o ∈ orders xs, gpioIsValidOutputGpio (pin o.device).toNat = true) (q : ℤ) :
    lastLevel (xs.foldl (PollRound.drive pin) gpio) q =
      ((lastOrder pin q (orders xs)).map fun o => powerLevel o.status).or (lastLevel gpio q) := by
  induction xs using List.reverseRecOn with
  | nil => rfl
  | append_singleton xs x ih =>
      have horders : orders (xs ++ [x]) = orders xs ++ x.order.toList := by
        rw [orders, List.filterMap_append]
        cases hx : x.order <;> simp [hx, orders]
      rw [horders] at hvalid ⊢
      have ih := ih fun o ho => hvalid o (List.mem_append_left _ ho)
      rw [List.foldl_append, List.foldl_cons, List.foldl_nil, PollRound.drive]
      cases hx : x.order with
      | none =>
          rw [Option.toList_none, List.append_nil]
          exact ih
      | some o =>
          have ho := hvalid o (by rw [hx]; simp)
          dsimp only
          rw [Option.toList_some, lastOrder, List.reverse_append, List.reverse_singleton,
            List.singleton_append, List.find?_cons, setPower_eq]
          by_cases hq : ((pin o.device).toNat : ℤ) = q
          · rw [decide_eq_true hq, ← hq, lastLevel_gpioSetLevel_self ho]
            rfl
          · rw [decide_eq_false hq, lastLevel_gpioSetLevel_ne fun e => hq e.symm, ih]
            rfl

/-- **A session of remote commands**: if every command names a stored output pin, the firmware is
ready again, every pin has the level of the last command for it, and the server has been told the
statuses in the order of the commands, each before its command was cleared. -/
theorem remote_session (hg : Ready g)
    (hpin : ∀ o ∈ orders xs, PinStored g.nvs o.device (pin o.device) ∧
      gpioIsValidOutputGpio (pin o.device).toNat = true) :
    Ready (xs.foldl PollRound.run g) ∧ (xs.foldl PollRound.run g).devices = g.devices ∧
      (∀ q, lastLevel (xs.foldl PollRound.run g).gpio q =
        ((lastOrder pin q (orders xs)).map fun o => powerLevel o.status).or (lastLevel g.gpio q)) ∧
      (xs.foldl PollRound.run g).sent = xs.reverse.flatMap PollRound.requests ++ g.sent := by
  obtain ⟨hready, hdevices, hgpio, hsent⟩ := foldl_run_carried hg fun o ho => (hpin o ho).1
  refine ⟨hready, hdevices, fun q => ?_, hsent⟩
  rw [hgpio]
  exact lastLevel_foldl_drive g.gpio (fun o ho => (hpin o ho).2) q

end

/-! ### An example -/

/-- The command to switch device 0 on. -/
def plainOrder : SwitchOrder where
  text := plainCommand
  device := 0
  status := true
  isCommand := ⟨['0'], List.cons_ne_nil _ _, List.forall_mem_singleton.mpr rfl, rfl, by decide, rfl⟩
  short := by decide

/-- The answer that carries it, in two chunks. -/
def plainReply : Reply where
  chunks := [(Json.print true (newDataJson plainCommand)).take 9,
    (Json.print true (newDataJson plainCommand)).drop 9]
  status := some 200

theorem plainReply_body : plainReply.body = Json.print true (newDataJson plainCommand) := by
  show List.take 9 _ ++ (List.drop 9 _ ++ []) = _
  rw [List.append_nil, List.take_append_drop]

theorem plainReply_complete : plainReply.status.isSome = true :=
  rfl

theorem newDataJson_fits : Json.Fits Json.nestingLimit (newDataJson plainCommand) := by
  have h : '\x00' ∉ plainCommand := by decide
  simp [Json.Nests, newDataJson, Json.nestingLimit, h]

theorem commandSection_plainCommand :
    commandSection .newData (some (newDataJson plainCommand)) =
      (some plainOrder).map SwitchOrder.text :=
  rfl

theorem exampleIo_pinFaults : exampleIo.pinFaults = .none :=
  rfl

theorem exampleIo_whole (r : Request) : (exampleIo.reply r).Whole :=
  .inr (.inr rfl)

theorem exampleIo_echo :
    commandSection .newData (Json.parse (cstr (exampleIo.reply .clearNewData).body)) = none := by
  decide +kernel

/-- Its poll; no other request is answered. -/
def plainPoll : PollRound where
  env := zeroedHeap
  reply := plainReply
  answer := newDataJson plainCommand
  format := true
  order := some plainOrder
  io := exampleIo
  answer_fits := newDataJson_fits
  complete := plainReply_complete
  body_eq := plainReply_body
  heard := commandSection_plainCommand
  pinFaults := exampleIo_pinFaults
  whole := exampleIo_whole
  echo := exampleIo_echo

theorem pinStored_example : PinStored exampleNvs 0 23#8 := by
  have h : "device-".toList ++ decimal 0 = deviceKey 0 := by decide
  rw [PinStored, h]
  exact Nvs.lookup_single ..

theorem remote_session_plain :
    Ready ([plainPoll].foldl PollRound.run exampleGlobals) ∧
      ([plainPoll].foldl PollRound.run exampleGlobals).devices = none ∧
      (∀ q, lastLevel ([plainPoll].foldl PollRound.run exampleGlobals).gpio q =
        ((lastOrder (fun _ => 23#8) q [plainOrder]).map fun o => powerLevel o.status).or none) ∧
      ([plainPoll].foldl PollRound.run exampleGlobals).sent =
        [.clearNewData, .updateDeviceStatus 0 true, .getNewData] :=
  remote_session ⟨rfl, rfl, rfl, rfl⟩ (by
    intro o ho
    obtain rfl : o = plainOrder := List.mem_singleton.mp ho
    exact ⟨pinStored_example, by decide⟩)

end Sicae
