import Sicae.Globals

/-! # Menus and the device action

The menu functions of `menuTypes.c`, `populate_device_menu`, `navigate_menu` and the action of a
device item.  A function returns `none` where the C code would read through `NULL` or a freed
pointer, outside a block, or in an uninitialised slot. -/

namespace Sicae

open CString

/-! ### The menu variables -/

/-- `submenu2Items` and `submenu3Items`. -/
def optionItems : List MenuItem :=
  [{ name := some "Option 1".toList }, { name := some "Option 2".toList },
    { name := some "VOLVER".toList, action := some .volver }]

/-- `mainMenuItems`. -/
def mainMenuItems : List MenuItem :=
  [{ name := some "Dispositivos".toList, action := some .submenu1Fn },
    { name := some "SubMenu 2".toList, action := some .submenu2Fn },
    { name := some "SubMenu 3".toList, action := some .submenu3Fn },
    { name := some "VOLVER".toList, action := some .volver }]

/-- The `items` field of a menu. -/
def Menu.items (m : Menu) : MenuId → MenuItems
  | .mainMenu => .block mainMenuItems
  | .submenu1 => m.items1
  | .submenu2 | .submenu3 => .block optionItems

/-- The `itemCount` field of a menu. -/
def Menu.itemCount (m : Menu) : MenuId → ℤ
  | .mainMenu => 4
  | .submenu1 => m.itemCount1
  | .submenu2 | .submenu3 => 3

/-- The `parent` field of a menu. -/
def Menu.parent (m : Menu) : MenuId → Option MenuId
  | .mainMenu => none
  | .submenu1 => m.parent1
  | .submenu2 | .submenu3 => some .mainMenu

/-- `items[index]`, read from the block. -/
def MenuItems.get? : MenuItems → ℤ → Option MenuItem
  | .block items, .ofNat i => items[i]?
  | _, _ => none

/-! ### Display and navigation -/

/-- `displayMenu(&menuSystem, selectedIndex)`. -/
def displayMenu (selectedIndex : ℤ) (g : Globals) : Globals :=
  { g with lcd := .menu g.menu.currentMenu selectedIndex }

/-- `submenu1Fn`, `submenu2Fn` and `submenu3Fn`. -/
def submenuFn (menu : MenuId) (g : Globals) : Globals :=
  displayMenu 0 { g with menu := { g.menu with currentMenu := menu } }

/-- `volver`. -/
def volver (g : Globals) : Globals :=
  if g.menu.currentMenu = .mainMenu then { g with lcd := .currentIp }
  else
    match g.menu.parent g.menu.currentMenu with
    | some parent => displayMenu 0 { g with menu := { g.menu with currentMenu := parent } }
    | none => g

/-- The items written by `populate_device_menu`. -/
def deviceItems (g : Globals) : List MenuItem :=
  (List.range g.deviceCount).map (fun i =>
      { name := (g.device? i).map Device.name, action := some .deviceAction }) ++
    [{ name := some "VOLVER".toList, action := some .volver }]

/-- `free(submenu1Items)` as `submenu1.items` sees it. -/
def MenuItems.free : MenuItems → MenuItems
  | .null => .null
  | .freed | .block _ => .freed

/-- `populate_device_menu`; `allocated` is the outcome of the `malloc` of the items, which comes
after the old block was freed. -/
def populateDeviceMenu (allocated : Bool) (g : Globals) : Globals :=
  if allocated then
    let g := { g with menu := { g.menu with
      items1 := .block (deviceItems g)
      itemCount1 := g.deviceCount + 1 } }
    if g.menu.currentMenu = .submenu1 then displayMenu 0 g else g
  else { g with menu := { g.menu with items1 := g.menu.items1.free } }

/-! ### The device action -/

/-- Stores an entry of the device table. -/
def Globals.setDevice (g : Globals) (i : ℕ) (d : Device) : Globals :=
  { g with devices := g.devices.map (fun table => table.set i (some d)) }

/-- `selectedDevice->state = !selectedDevice->state`. -/
def Device.toggled (d : Device) : Device := { d with state := !d.state }

theorem Device.toggled_ne (d : Device) : d.toggled ≠ d := fun h => by
  have := congrArg Device.state h
  simp [Device.toggled] at this

/-- The relay branch of `deviceAction`: negate the state, drive the pin with the new state as
level, and create a `firebase_update_task`. -/
def toggleRelay (d : Device) (g : Globals) : Globals :=
  { g.setDevice g.currentDeviceIndex d.toggled with
    gpio := gpioSetLevel g.gpio d.pin.toInt (if d.toggled.state then 1 else 0)
    tasks := { g.tasks with firebaseUpdateCreated := g.tasks.firebaseUpdateCreated + 1 } }

/-- `deviceAction`: toggles the device at `currentDeviceIndex` if it is a relay. -/
def deviceAction (g : Globals) : Option Globals :=
  match g.device? g.currentDeviceIndex with
  | none => none
  | some d => some (if d.isRelay then toggleRelay d g else g)

/-- Calls the function of a menu item. -/
def MenuFunction.call : MenuFunction → Globals → Option Globals
  | submenu1Fn, g => some (submenuFn .submenu1 g)
  | submenu2Fn, g => some (submenuFn .submenu2 g)
  | submenu3Fn, g => some (submenuFn .submenu3 g)
  | volver, g => some (Sicae.volver g)
  | deviceAction, g => Sicae.deviceAction g

/-! ### `navigate_menu` -/

/-- The UP branch. -/
def navigateUp (g : Globals) : Globals :=
  if g.flags.btnUpReleased then
    let index := g.menu.currentMenuIndex - 1
    let index := if index < 0 then g.menu.itemCount g.menu.currentMenu - 1 else index
    displayMenu index { g with
      flags := { g.flags with btnUpReleased := false }
      menu := { g.menu with currentMenuIndex := index } }
  else g

/-- The DOWN branch. -/
def navigateDown (g : Globals) : Globals :=
  if g.flags.btnDownReleased then
    let index := g.menu.currentMenuIndex + 1
    let index := if index ≥ g.menu.itemCount g.menu.currentMenu then 0 else index
    displayMenu index { g with
      flags := { g.flags with btnDownReleased := false }
      menu := { g.menu with currentMenuIndex := index } }
  else g

/-- The ENTER branch. -/
def navigateEnter (g : Globals) : Option Globals :=
  if g.flags.btnEnterReleased then
    let g := { g with flags := { g.flags with btnEnterReleased := false } }
    match (g.menu.items g.menu.currentMenu).get? g.menu.currentMenuIndex with
    | none => none
    | some item =>
        match item.name with
        | none => none
        | some name =>
            if name = "VOLVER".toList then some (volver g)
            else
              match item.action, item.submenu with
              | some action, _ => action.call g
              | none, some submenu =>
                  some (displayMenu 0 { g with
                    menu := { g.menu with currentMenu := submenu, currentMenuIndex := 0 } })
              | none, none => some g
  else some g

/-- `navigate_menu`. -/
def navigateMenu (g : Globals) : Option Globals := navigateEnter (navigateDown (navigateUp g))

/-! ### What the table sees -/

theorem device?_setDevice (g : Globals) {i : ℕ} {d d' : Device} (h : g.device? i = some d) (j : ℕ) :
    (g.setDevice i d').device? j = if j = i then some d' else g.device? j := by
  unfold Globals.device? at h
  cases ht : g.devices with
  | none => simp [ht] at h
  | some table =>
      simp only [ht, Option.bind_some] at h
      have hi : i < table.length := by
        by_contra hlt
        rw [List.getElem?_eq_none (by omega)] at h
        cases h
      simp only [Globals.device?, Globals.setDevice, ht, Option.map_some, Option.bind_some,
        List.getElem?_set]
      split_ifs with h1 h2 h2
      · rfl
      · exact absurd h1.symm h2
      · exact absurd h2.symm h1
      · rfl

theorem device?_toggleRelay {g : Globals} {d : Device}
    (h : g.device? g.currentDeviceIndex = some d) (j : ℕ) :
    (toggleRelay d g).device? j =
      if j = g.currentDeviceIndex then some d.toggled else g.device? j :=
  device?_setDevice g h j

/-- The relay at an index of the table. -/
def relay? (g : Globals) (i : ℕ) : Option Device := (g.device? i).filter Device.isRelay

theorem relay?_eq_some_iff {g : Globals} {i : ℕ} {d : Device} :
    relay? g i = some d ↔ g.device? i = some d ∧ d.isRelay = true := by
  rw [relay?, Option.filter_eq_some_iff]

theorem relay?_congr {g g' : Globals} (h : g'.devices = g.devices) (i : ℕ) :
    relay? g' i = relay? g i := by
  rw [relay?, device?_congr h, relay?]

theorem relay?_toggleRelay {g : Globals} {d : Device}
    (hd : relay? g g.currentDeviceIndex = some d) (j : ℕ) :
    relay? (toggleRelay d g) j =
      if j = g.currentDeviceIndex then some d.toggled else relay? g j := by
  obtain ⟨hslot, hr⟩ := relay?_eq_some_iff.mp hd
  rw [relay?, device?_toggleRelay hslot]
  split_ifs
  · exact Option.filter_eq_some_iff.mpr ⟨rfl, hr⟩
  · rfl

/-- Going up in the menus leaves the table and the relays alone. -/
theorem volver_devices (g : Globals) :
    (volver g).devices = g.devices ∧ (volver g).gpio = g.gpio := by
  unfold volver
  split_ifs
  · exact ⟨rfl, rfl⟩
  · split <;> exact ⟨rfl, rfl⟩

theorem deviceAction_relay {g : Globals} {d : Device}
    (hd : relay? g g.currentDeviceIndex = some d) : deviceAction g = some (toggleRelay d g) := by
  obtain ⟨hslot, hr⟩ := relay?_eq_some_iff.mp hd
  simp only [deviceAction, hslot, hr, ↓reduceIte]

/-- Without a relay at the index the action changes nothing. -/
theorem deviceAction_other {g g' : Globals} (hd : relay? g g.currentDeviceIndex = none)
    (h : deviceAction g = some g') : g' = g := by
  cases hslot : g.device? g.currentDeviceIndex with
  | none => simp [deviceAction, hslot] at h
  | some d =>
      have hr : d.isRelay = false := by
        rw [relay?, hslot, Option.filter_eq_none_iff] at hd
        simpa using hd d rfl
      simpa [deviceAction, hslot, hr] using h.symm

/-- Filling the menu changes the menu and the display only. -/
theorem populateDeviceMenu_eq (allocated : Bool) (g : Globals) :
    ∃ menu lcd, populateDeviceMenu allocated g = { g with menu := menu, lcd := lcd } ∧
      menu.items1 = if allocated then .block (deviceItems g) else g.menu.items1.free := by
  unfold populateDeviceMenu
  cases allocated with
  | false => exact ⟨_, g.lcd, rfl, rfl⟩
  | true =>
      simp only [↓reduceIte]
      split_ifs
      · exact ⟨_, _, rfl, rfl⟩
      · exact ⟨_, g.lcd, rfl, rfl⟩

/-- The items of the filled menu: the entries of the table, then VOLVER. -/
theorem get?_deviceItems (g : Globals) {i : ℕ} (h : i < g.deviceCount) :
    (MenuItems.block (deviceItems g)).get? i =
      some { name := (g.device? i).map Device.name, action := some .deviceAction } := by
  show (deviceItems g)[i]? = _
  rw [deviceItems, List.getElem?_append_left (by simpa using h)]
  simp [h]

theorem get?_deviceItems_last (g : Globals) :
    (MenuItems.block (deviceItems g)).get? g.deviceCount =
      some { name := some "VOLVER".toList, action := some .volver } := by
  show (deviceItems g)[g.deviceCount]? = _
  rw [deviceItems, List.getElem?_append_right (by simp)]
  simp

/-! ### ENTER alone -/

section enter
variable {g : Globals}

theorem navigateMenu_enter_only (hup : g.flags.btnUpReleased = false)
    (hdown : g.flags.btnDownReleased = false) : navigateMenu g = navigateEnter g := by
  have h1 : navigateUp g = g := by rw [navigateUp, hup]; rfl
  have h2 : navigateDown g = g := by rw [navigateDown, hdown]; rfl
  rw [navigateMenu, h1, h2]

/-- The state in which ENTER acts: its flag has been cleared. -/
def enterTaken (g : Globals) : Globals :=
  { g with flags := { g.flags with btnEnterReleased := false } }

theorem enterTaken_eq_self (he : g.flags.btnEnterReleased = false) : enterTaken g = g := by
  rw [enterTaken, ← he]

/-- What ENTER can do: call a function of the menus, go to a submenu, or just clear its flag. -/
theorem navigateEnter_cases {g' : Globals} (h : navigateEnter g = some g') :
    (∃ f : MenuFunction, f.call (enterTaken g) = some g') ∨
      (∃ submenu, g' = displayMenu 0 { enterTaken g with
        menu := { g.menu with currentMenu := submenu, currentMenuIndex := 0 } }) ∨
      g' = enterTaken g := by
  simp only [navigateEnter] at h
  split at h
  · split at h
    · cases h
    · split at h
      · cases h
      · split at h
        · -- back to the parent menu
          exact .inl ⟨.volver, h⟩
        · split at h
          · exact .inl ⟨_, h⟩
          · exact .inr (.inl ⟨_, (Option.some.inj h).symm⟩)
          · exact .inr (.inr (Option.some.inj h).symm)
  · rename_i henter
    rw [enterTaken_eq_self (Bool.eq_false_iff.mpr henter)]
    exact .inr (.inr (Option.some.inj h).symm)

/-- Without an item to read, ENTER reads outside the menu. -/
theorem navigateEnter_none (he : g.flags.btnEnterReleased = true)
    (hi : (g.menu.items g.menu.currentMenu).get? g.menu.currentMenuIndex = none) :
    navigateEnter g = none := by
  simp only [navigateEnter, he, ↓reduceIte, hi]

/-- ENTER on a device item goes back if the item is named `VOLVER`, and calls `deviceAction`
otherwise. -/
theorem navigateEnter_device {name : CStr} (he : g.flags.btnEnterReleased = true)
    (hi : (g.menu.items g.menu.currentMenu).get? g.menu.currentMenuIndex =
      some { name := some name, action := some .deviceAction }) :
    navigateEnter g =
      if name = "VOLVER".toList then some (volver (enterTaken g))
      else deviceAction (enterTaken g) := by
  simp only [navigateEnter, he, ↓reduceIte, hi]
  rfl

end enter

end Sicae
