import Sicae.Nvs
import Sicae.Gpio
import Sicae.Json
import Mathlib.Algebra.Order.Ring.Rat

/-! # The globals of the firmware

The variables that the tasks and the HTTP event handler share, as one record `Globals`:

* the request and button flags of `btnFlag`, `btnFlag2`, `btnFlag3` (one `Bool` a bit);
* the mailbox `urlSection`, the scratch buffer `url` and the server addresses;
* the accumulation buffer `response_data` with its length;
* the device table: `devices` is `NULL` or a block of slots, and a slot is `none` while nothing
  has been stored in it;
* the menus, the last thing drawn on the LCD, the relay pins and the NVS content.

`sent` and `parsed` record what the firmware does to the outside: the HTTP requests it issues
and the texts it hands to `cJSON_Parse`, newest first. -/

namespace Sicae

open CString

/-! ### Flags -/

/-- The bits of `btnFlag`, `btnFlag2` and `btnFlag3` used by the tasks. -/
structure Flags where
  btnUpReleased : Bool := false
  btnDownReleased : Bool := false
  btnEnterReleased : Bool := false
  fetchNewInfoData : Bool := false
  fetchNewDevicesData : Bool := false
  postNoNewData : Bool := false
  fetchNewAlive : Bool := false
  fetchNewFirmwareData : Bool := false
  fetchNewDatetimeData : Bool := false
  setNewInfoData : Bool := false
  setNewDeviceData : Bool := false
  setNewDatetime : Bool := false
  setConsumedCurrent : Bool := false
  populateDevices : Bool := false
deriving DecidableEq, Repr

/-- The condition at the end of `ON_FINISH`: some request is pending.  `FETCHNEWALIVE` is not
in the list. -/
def Flags.requestPending (f : Flags) : Bool :=
  f.fetchNewInfoData || f.fetchNewDevicesData || f.fetchNewFirmwareData ||
    f.fetchNewDatetimeData || f.setNewInfoData || f.setNewDeviceData || f.setNewDatetime

/-! ### Server addresses -/

/-- A hexadecimal digit, of either case. -/
def isHexDigit (c : Char) : Bool :=
  c.isDigit || ('A' ≤ c && c ≤ 'F') || ('a' ≤ c && c ≤ 'f')

/-- The `device_id` from which the server addresses in NVS are formatted. -/
structure DeviceId where
  text : CStr
  isHex : ∀ c ∈ text, isHexDigit c = true
  length_le : text.length ≤ 17

/-- The part of the `disp_url` format before the device id. -/
def dispBase : CStr := "https://sicaewebapp-default-rtdb.firebaseio.com/dispositivos".toList

/-- The part of the `events_url` format before the device id. -/
def eventsBase : CStr := "https://sicaewebapp-default-rtdb.firebaseio.com/events".toList

/-- `disp_url`, as `initialize_nvs_with_default_data` and `save_server_credentials` store it:
`<dispBase>/%s/data/`. -/
def DeviceId.dispUrl (d : DeviceId) : CStr :=
  dispBase ++ "/".toList ++ d.text ++ "/data/".toList

/-- `events_url`, as they store it: `<eventsBase>/%s/`. -/
def DeviceId.eventsUrl (d : DeviceId) : CStr :=
  eventsBase ++ "/".toList ++ d.text ++ "/".toList

/-! ### Requests -/

/-- The HTTP requests of the polling and processing tasks. -/
inductive Request where
  | getNewData
  | clearNewData
  | getInfo
  | getDevices
  | updateDeviceStatus (deviceNumber : ℤ) (status : Bool)
  | updateDeviceCurrent (deviceNumber : ℤ) (averageCurrent : ℚ)
deriving DecidableEq, Repr

/-! ### Devices -/

/-- An entry of the device table.  `pin` is the 32-bit `gpio_num_t` as it lies in memory. -/
structure Device where
  name : CStr
  id : ℤ
  pin : BitVec 32
  state : Bool
  type : CStr
deriving DecidableEq, Repr

/-- `strcmp(type, "relay") == 0`. -/
def Device.isRelay (d : Device) : Bool := d.type == "relay".toList

/-- The block `devices` points to: a slot is `none` until something is stored in it. -/
abbrev DeviceTable := List (Option Device)

/-! ### Response buffer -/

/-- `response_data` (without its terminator) and `response_data_len`. -/
structure ResponseBuffer where
  data : Option (List Char)
  len : ℕ
  len_eq : len = (data.getD []).length

/-- `response_data == NULL`. -/
def ResponseBuffer.empty : ResponseBuffer := ⟨none, 0, rfl⟩

/-- The `malloc`/`realloc` and `memcpy` of one `ON_DATA` event. -/
def ResponseBuffer.append (b : ResponseBuffer) (data : List Char) : ResponseBuffer :=
  match h : b.data with
  | none => ⟨some data, data.length, rfl⟩
  | some old => ⟨some (old ++ data), b.len + data.length, by
      rw [b.len_eq, h, Option.getD_some, Option.getD_some, List.length_append]⟩

@[ext] theorem ResponseBuffer.ext {a b : ResponseBuffer} (h : a.data = b.data) : a = b := by
  obtain ⟨d, l, hl⟩ := a
  obtain ⟨d', l', hl'⟩ := b
  obtain rfl : d = d' := h
  obtain rfl : l = l' := hl.trans hl'.symm
  rfl

@[simp] theorem ResponseBuffer.empty_data : ResponseBuffer.empty.data = none := rfl

@[simp] theorem ResponseBuffer.append_data (b : ResponseBuffer) (data : List Char) :
    (b.append data).data = some (b.data.getD [] ++ data) := by
  unfold ResponseBuffer.append
  split <;> rename_i h <;> simp [h]

/-! ### Menus -/

/-- The four `SubMenu` variables. -/
inductive MenuId where
  | mainMenu
  | submenu1
  | submenu2
  | submenu3
deriving DecidableEq, Repr

/-- The functions stored in menu items. -/
inductive MenuFunction where
  | submenu1Fn
  | submenu2Fn
  | submenu3Fn
  | volver
  | deviceAction
deriving DecidableEq, Repr

/-- A `MenuItem`; `name = none` is a pointer copied from an uninitialised table slot. -/
structure MenuItem where
  name : Option CStr
  action : Option MenuFunction := none
  submenu : Option MenuId := none
deriving DecidableEq, Repr

/-- What the `items` pointer of a menu points to. -/
inductive MenuItems where
  | null
  | freed
  | block (items : List MenuItem)
deriving DecidableEq, Repr

/-- The menu state: `menuSystem.currentMenu`, the static index of `navigate_menu`, and the fields
of `submenu1` that change at run time.  The global `submenu1Items` is the block `items1` points
to, and `NULL` when that is not live. -/
structure Menu where
  currentMenu : MenuId := .mainMenu
  currentMenuIndex : ℤ := 0
  items1 : MenuItems := .null
  itemCount1 : ℤ := 0
  parent1 : Option MenuId := none
deriving DecidableEq, Repr

/-- What the LCD shows: the last complete drawing. -/
inductive Lcd where
  | text (line1 line2 : CStr)
  | currentIp
  | menu (menu : MenuId) (selectedIndex : ℤ)
deriving DecidableEq, Repr

/-! ### Tasks -/

/-- The FreeRTOS calls made so far on the other tasks, and the number of firebase_update_task
instances created. -/
structure Tasks where
  dataFetchSuspended : Bool := false
  acsReadSuspended : Bool := false
  dataProcessDeleted : Bool := false
  firebaseUpdateCreated : ℕ := 0
deriving DecidableEq, Repr

/-! ### The record of globals -/

structure Globals where
  flags : Flags
  urlSection : CStr
  url : CStr
  deviceId : DeviceId
  response : ResponseBuffer
  devices : Option DeviceTable
  deviceCount : ℕ
  currentDeviceIndex : ℕ
  deviceCurrents : ℕ → ℚ
  nvs : Nvs
  gpio : Gpio
  menu : Menu
  lcd : Lcd
  tasks : Tasks
  sent : List Request
  parsed : List CStr

/-- `devices[i]`, `none` when there is no table, the index is outside the block or the slot is
uninitialised. -/
def Globals.device? (g : Globals) (i : ℕ) : Option Device :=
  (g.devices.bind (fun table => table[i]?)).join

theorem device?_congr {g g' : Globals} (h : g'.devices = g.devices) (i : ℕ) :
    g'.device? i = g.device? i := by
  rw [Globals.device?, h, Globals.device?]

/-- The globals at power-up, for a given device and NVS content. -/
def Globals.initial (deviceId : DeviceId) (nvs : Nvs) : Globals where
  flags := {}
  urlSection := []
  url := []
  deviceId := deviceId
  response := .empty
  devices := none
  deviceCount := 0
  currentDeviceIndex := 0
  deviceCurrents := fun _ => 0
  nvs := nvs
  gpio := []
  menu := {}
  lcd := .text [] []
  tasks := {}
  sent := []
  parsed := []

/-! ### An example device -/

/-- A device id as `app_main` formats it from the MAC address. -/
def exampleId : DeviceId := ⟨"A0B1C2D3E4F5".toList, List.all_eq_true.mp (by decide), by decide⟩

/-- The only pin that `initialize_nvs_with_default_data` stores: relay 0 on GPIO 23. -/
def exampleNvs : Nvs := .single (deviceKey 0) (.u8 23#8) (by decide)

/-- The globals of that device at power-up. -/
def exampleGlobals : Globals := .initial exampleId exampleNvs

end Sicae
