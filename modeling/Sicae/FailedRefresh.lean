import Sicae.MenuSelection
import Sicae.Tasks

/-! # A refresh that fails

The FETCHNEWDEVICESDATA branch calls `free_devices_array` before it sends its request, so an
answer without an array finds the old table gone already.  All other branches of the iteration,
and all answers but an array from `devices.json`, leave table and menu alone (`SameTable`); hence
the table survives a failed refresh exactly if there was none, and the device menu then still
shows the entries that were freed. -/

namespace Sicae

open CString

/-! ### Table and menu -/

/-- All entries of the table are initialised, and `submenu1` is filled from it or waits for its
refill; without a table the count is zero and no refill is pending. -/
structure TableWellFormed (g : Globals) : Prop where
  entries : ∀ i < g.deviceCount, (g.device? i).isSome
  menu : (g.menu.items1 = .block (deviceItems g) ∧ g.menu.itemCount1 = g.deviceCount + 1) ∨
    g.flags.populateDevices = true ∨ g.devices = none
  count : g.devices = none → g.deviceCount = 0
  settled : g.devices = none → g.flags.populateDevices = false

/-- The table, its count and `submenu1` are the same in `g'` as in `g`. -/
structure RefreshKept (g g' : Globals) : Prop where
  devices : g'.devices = g.devices
  deviceCount : g'.deviceCount = g.deviceCount
  items1 : g'.menu.items1 = g.menu.items1
  itemCount1 : g'.menu.itemCount1 = g.menu.itemCount1
  parent1 : g'.menu.parent1 = g.menu.parent1

/-- `g'` agrees with `g` on the table, the menus and POPULATEDEVICES. -/
structure SameTable (g g' : Globals) : Prop where
  devices : g'.devices = g.devices
  deviceCount : g'.deviceCount = g.deviceCount
  menu : g'.menu = g.menu
  populate : g'.flags.populateDevices = g.flags.populateDevices

theorem SameTable.refl (g : Globals) : SameTable g g := ⟨rfl, rfl, rfl, rfl⟩

theorem SameTable.trans {g g' g'' : Globals} (h : SameTable g g') (h' : SameTable g' g'') :
    SameTable g g'' where
  devices := h'.devices.trans h.devices
  deviceCount := h'.deviceCount.trans h.deviceCount
  menu := h'.menu.trans h.menu
  populate := h'.populate.trans h.populate

theorem SameTable.kept {g g' : Globals} (h : SameTable g g') : RefreshKept g g' where
  devices := h.devices
  deviceCount := h.deviceCount
  items1 := by rw [h.menu]
  itemCount1 := by rw [h.menu]
  parent1 := by rw [h.menu]

/-! ### Answers without an array -/

theorem dispatchSection_populateDevices (s : CStr) (f : Flags) :
    (dispatchSection s f).populateDevices = f.populateDevices := by
  unfold dispatchSection
  split_ifs <;> rfl

theorem newDataBranch_sameTable (json : Json) (g : Globals) :
    SameTable g (newDataBranch json g) := by
  unfold newDataBranch
  split_ifs
  · split
    · exact ⟨rfl, rfl, rfl, dispatchSection_populateDevices _ _⟩
    · exact ⟨rfl, rfl, rfl, rfl⟩
  · exact .refl g

theorem postNoNewDataTest_sameTable (g : Globals) : SameTable g (postNoNewDataTest g) := by
  refine ⟨rfl, rfl, rfl, ?_⟩
  show g.flags.postTest.populateDevices = g.flags.populateDevices
  rw [Flags.postTest_eq]

/-- The branch taken does not build a table. -/
def BuildsNone (r : Route) (json : Option Json) : Prop :=
  r = .devices → ∀ items, json ≠ some (.array items)

theorem answerBranch_sameTable {env : Env} {r : Route} {json : Option Json} {g : Globals}
    (h : BuildsNone r json) : SameTable g (answerBranch env r json g).1 := by
  unfold answerBranch
  split
  · exact newDataBranch_sameTable _ _
  · exact absurd rfl (h rfl _)
  · exact .refl g
  · exact .refl g

theorem handleAnswer_sameTable {env : Env} {r : Route} {json : Option Json} {g : Globals}
    (h : BuildsNone r json) : SameTable g (handleAnswer env r json g).1 := by
  have hbranch := @answerBranch_sameTable env r json g h
  simp only [handleAnswer]
  split_ifs
  · exact hbranch.trans (postNoNewDataTest_sameTable _)
  · exact hbranch

variable {parse : CStr → Option Json}

theorem onFinish_sameTable {env : Env} {clientUrl : CStr} {g : Globals}
    (h : ∀ buf, g.response.data = some buf →
      BuildsNone (route (snprintf 256 clientUrl)) (parse (cstr buf))) :
    SameTable g (onFinish parse env (some clientUrl) g) := by
  unfold onFinish
  cases hbuf : g.response.data with
  | none => exact .refl g
  | some buf =>
      have hanswer := @handleAnswer_sameTable env _ _ (received (some clientUrl) buf g) (h buf hbuf)
      simp only [urlAfter_some, handleAnswer_snd]
      cases reachesTest env (route (snprintf 256 clientUrl)) (parse (cstr buf)) with
      | true => exact ⟨hanswer.devices, hanswer.deviceCount, hanswer.menu, hanswer.populate⟩
      | false => exact ⟨hanswer.devices, hanswer.deviceCount, hanswer.menu, hanswer.populate⟩

/-- What a reply brings leaves the table alone, unless it completes an array of devices. -/
theorem Reply.deliver_sameTable {env : Env} {clientUrl : CStr} {reply : Reply} {g : Globals}
    (h : reply.status.isSome → ∀ buf, (reply.buffered g.response).data = some buf →
      BuildsNone (route (snprintf 256 clientUrl)) (parse (cstr buf))) :
    SameTable g (reply.deliver parse env clientUrl g) := by
  obtain ⟨u, hu⟩ := @onDataEvents_eq parse env (some clientUrl) reply.isChunked reply.chunks g
  rw [Reply.deliver, hu]
  cases hs : reply.status.isSome with
  | true =>
      have hf := @onFinish_sameTable parse env clientUrl
        { g with response := reply.buffered g.response, url := u } (h hs)
      exact ⟨hf.devices, hf.deviceCount, hf.menu, hf.populate⟩
  | false => exact ⟨rfl, rfl, rfl, rfl⟩

theorem route_ne_devices {d : DeviceId} {r : Request} (hne : r ≠ .getDevices) :
    route (r.url d) ≠ .devices := by
  cases hr : r.toDisp with
  | true =>
      have h := route_passive (d := d) hr hne
      intro he
      rw [he] at h
      cases h
  | false =>
      have h : route (r.url d) = .newData := by
        cases r with
        | getNewData => exact route_getNewData d
        | clearNewData => exact route_clearNewData d
        | getInfo | getDevices | updateDeviceStatus n b | updateDeviceCurrent n v => cases hr
      rw [h]
      decide

/-- The requests of the other branches leave the table alone. -/
theorem perform_sameTable {env : Env} {r : Request} {reply : Reply} {g : Globals}
    (hne : r ≠ .getDevices) : SameTable g (perform parse env r reply g) := by
  have h := @Reply.deliver_sameTable parse env (r.url g.deviceId) reply
    { g with url := r.url g.deviceId, sent := r :: g.sent } (by
      intro _ buf _ hroute
      rw [Request.snprintf_url] at hroute
      exact absurd hroute (route_ne_devices hne))
  exact ⟨h.devices, h.deviceCount, h.menu, h.populate⟩

/-! ### The branches of the iteration -/

section
variable {io : Io} {g : Globals}

theorem fetchInfoBranch_sameTable : SameTable g (fetchInfoBranch parse io g) := by
  unfold fetchInfoBranch
  split_ifs
  · have h := @perform_sameTable parse io.env .getInfo (io.reply .getInfo) (fetchInfoStart g)
      (by decide)
    exact ⟨h.devices, h.deviceCount, h.menu, h.populate⟩
  · exact .refl g

theorem consumedCurrentBranch_sameTable : SameTable g (consumedCurrentBranch parse io g) := by
  unfold consumedCurrentBranch
  split_ifs
  · have h := @perform_sameTable parse io.env (currentRequest g) (io.reply (currentRequest g))
      (consumedCurrentStart g) (by unfold currentRequest; exact nofun)
    exact ⟨h.devices, h.deviceCount, h.menu, h.populate⟩
  · exact .refl g

theorem setDeviceBranch_sameTable : SameTable g (setDeviceBranch parse io g) := by
  unfold setDeviceBranch
  split_ifs
  · split
    · rename_i c _
      have h := @perform_sameTable parse io.env
        (.updateDeviceStatus c.deviceNumber c.desiredStatus)
        (io.reply (.updateDeviceStatus c.deviceNumber c.desiredStatus))
        (switchStart io c (setDeviceStart g)) nofun
      exact ⟨h.devices, h.deviceCount, h.menu, h.populate⟩
    · exact ⟨rfl, rfl, rfl, rfl⟩
  · exact .refl g

theorem clearNewDataSection_sameTable : SameTable g (clearNewDataSection parse io g) := by
  have h := @perform_sameTable parse io.env .clearNewData (io.reply .clearNewData) g (by decide)
  unfold clearNewDataSection
  simp only
  split_ifs
  · exact ⟨h.devices, h.deviceCount, h.menu, h.populate⟩
  · exact h

/-- A refill leaves the table alone. -/
theorem postEnd_devices (allocated : Bool) : (postEnd allocated g).devices = g.devices := by
  unfold postEnd
  simp only
  split_ifs
  · obtain ⟨menu, lcd, he, -⟩ := populateDeviceMenu_eq allocated
      { g with
        tasks := { g.tasks with dataFetchSuspended := false }
        flags := { g.flags with populateDevices := false } }
    rw [he]
  · rfl

theorem postBranch_devices : (postBranch parse io g).devices = g.devices := by
  unfold postBranch
  split_ifs
  · rw [postEnd_devices]
    exact (@clearNewDataSection_sameTable parse io (postStart g)).devices
  · rfl

/-- Without a refill pending the last branch leaves the menus alone. -/
theorem postBranch_sameTable (hfill : g.flags.populateDevices = false) :
    SameTable g (postBranch parse io g) := by
  unfold postBranch
  split_ifs
  · have h := @clearNewDataSection_sameTable parse io (postStart g)
    have hnone : ¬ (clearNewDataSection parse io (postStart g)).flags.populateDevices = true := by
      rw [h.populate]
      exact Bool.eq_false_iff.mp hfill
    simp only [postEnd, if_neg hnone]
    exact ⟨h.devices, h.deviceCount, h.menu, h.populate⟩
  · exact .refl g

/-! ### The failed refresh -/

/-- The GET of the FETCHNEWDEVICESDATA branch completes, and what its handler then finds in the
buffer is a JSON array. -/
def DeliversArray (parse : CStr → Option Json) (io : Io) (g : Globals) : Prop :=
  (io.reply .getDevices).status.isSome ∧
    ∃ buf items,
      ((io.reply .getDevices).buffered (fetchInfoBranch parse io g).response).data = some buf ∧
        parse (cstr buf) = some (.array items)

/-- The state in which the request is sent: table freed, count zero, menus as they were. -/
structure Freed (g g' : Globals) : Prop where
  devices : g'.devices = none
  deviceCount : g'.deviceCount = if g.devices.isSome then 0 else g.deviceCount
  menu : g'.menu = g.menu
  populate : g'.flags.populateDevices = g.flags.populateDevices

theorem fetchDevicesStart_freed : Freed g (fetchDevicesStart g) := by
  rw [fetchDevicesStart_eq]
  exact ⟨rfl, rfl, rfl, rfl⟩

theorem Freed.trans {g' g'' : Globals} (h : Freed g g') (h' : SameTable g' g'') : Freed g g'' where
  devices := h'.devices.trans h.devices
  deviceCount := h'.deviceCount.trans h.deviceCount
  menu := h'.menu.trans h.menu
  populate := h'.populate.trans h.populate

theorem Freed.of_same {g' g'' : Globals} (h : SameTable g g') (h' : Freed g' g'') :
    Freed g g'' where
  devices := h'.devices
  deviceCount := by rw [h'.deviceCount, h.devices, h.deviceCount]
  menu := h'.menu.trans h.menu
  populate := h'.populate.trans h.populate

theorem fetchDevicesBranch_freed (hf : g.flags.fetchNewDevicesData = true)
    (hfail : (io.reply .getDevices).status.isSome → ∀ buf items,
      ((io.reply .getDevices).buffered g.response).data = some buf →
        parse (cstr buf) ≠ some (.array items)) :
    Freed g (fetchDevicesBranch parse io g) := by
  rw [fetchDevicesBranch, if_pos hf]
  have hresp : (fetchDevicesStart g).response = g.response := by rw [fetchDevicesStart_eq]
  have h := @Reply.deliver_sameTable parse io.env
    (Request.getDevices.url (fetchDevicesStart g).deviceId) (io.reply .getDevices)
    { fetchDevicesStart g with
      url := Request.getDevices.url (fetchDevicesStart g).deviceId
      sent := .getDevices :: (fetchDevicesStart g).sent } (by
      intro hs buf hbuf _ items
      rw [← hresp] at hfail
      exact hfail hs buf items hbuf)
  exact fetchDevicesStart_freed.trans ⟨h.devices, h.deviceCount, h.menu, h.populate⟩

theorem fetchInfoBranch_fetchNewDevicesData (hf : g.flags.fetchNewDevicesData = true) :
    (fetchInfoBranch parse io g).flags.fetchNewDevicesData = true := by
  unfold fetchInfoBranch
  split_ifs
  · have h := @perform_passive parse io.env .getInfo (io.reply .getInfo) (fetchInfoStart g) rfl
      (by decide)
    rcases h.flags with he | he
    · exact (congrArg Flags.fetchNewDevicesData he).trans hf
    · rw [Flags.postTest_eq] at he
      exact (congrArg Flags.fetchNewDevicesData he).trans hf
  · exact hf

/-- Up to the last branch, an iteration with a failed refresh frees the table and leaves the
menus, with the names of its entries, as they were. -/
theorem beforePost_freed (hf : g.flags.fetchNewDevicesData = true)
    (hfail : ¬ DeliversArray parse io g) :
    Freed g (setDeviceBranch parse io (consumedCurrentBranch parse io
      (fetchDevicesBranch parse io (fetchInfoBranch parse io g)))) := by
  have hinfo := @fetchInfoBranch_sameTable parse io g
  have hfetch := @fetchDevicesBranch_freed parse io (fetchInfoBranch parse io g)
    (fetchInfoBranch_fetchNewDevicesData hf)
    (fun hs buf items hbuf hparse => hfail ⟨hs, buf, items, hbuf, hparse⟩)
  have hcurrent := hfetch.trans (@consumedCurrentBranch_sameTable parse io _)
  exact Freed.of_same hinfo (hcurrent.trans (@setDeviceBranch_sameTable parse io _))

/-- **The device list survives a failed refresh** exactly if there is no table. -/
theorem failedRefresh_kept_iff (hw : TableWellFormed g) (hf : g.flags.fetchNewDevicesData = true)
    (hfail : ¬ DeliversArray parse io g) :
    RefreshKept g (dataProcessingTask parse io g) ↔ g.devices = none := by
  have hfreed := beforePost_freed hf hfail
  constructor
  · intro hk
    rw [← hk.devices, dataProcessingTask, postBranch_devices]
    exact hfreed.devices
  · intro hnone
    have hcount := hfreed.deviceCount
    rw [hnone] at hcount
    have hbefore : SameTable g _ :=
      ⟨hfreed.devices.trans hnone.symm, hcount, hfreed.menu, hfreed.populate⟩
    exact (hbefore.trans (postBranch_sameTable (hbefore.populate.trans (hw.settled hnone)))).kept

end

/-! ### A refresh without an answer -/

/-- A device list of two relays, shown in the menu, with a refresh requested. -/
def twoRelaysShown : Globals :=
  let g := populateDeviceMenu true (withTable twoRelays 0 exampleGlobals)
  { g with flags := { g.flags with fetchNewDevicesData := true } }

/-- The state after an iteration in which no request is answered. -/
def twoRelaysRefreshed : Globals :=
  dataProcessingTask (parseOnly "null".toList .null) exampleIo twoRelaysShown

theorem twoRelaysShown_wellFormed : TableWellFormed twoRelaysShown where
  entries := by decide +kernel
  menu := Or.inl ⟨by decide +kernel, by decide +kernel⟩
  count := by decide +kernel
  settled := by decide +kernel

theorem not_deliversArray_exampleIo (parse : CStr → Option Json) (g : Globals) :
    ¬ DeliversArray parse exampleIo g := by
  rintro ⟨hs, -⟩
  cases hs

theorem failedRefresh_kept_twoRelays :
    RefreshKept twoRelaysShown twoRelaysRefreshed ↔ twoRelaysShown.devices = none :=
  failedRefresh_kept_iff twoRelaysShown_wellFormed (by decide +kernel)
    (not_deliversArray_exampleIo _ _)

theorem devices_after_failedRefresh : twoRelaysRefreshed.devices = none := by
  decide +kernel

/-- The request fails, and the list is gone. -/
theorem failedRefresh_loses_twoRelays : ¬ RefreshKept twoRelaysShown twoRelaysRefreshed := by
  intro h
  have hkept := h.devices
  rw [devices_after_failedRefresh] at hkept
  exact absurd hkept (by decide +kernel)

end Sicae
