import Sicae.Menu

/-! # What ENTER does on an item of the device menu

`populate_device_menu` gives every device the same action, `deviceAction`, and that acts on the
entry at the global `currentDeviceIndex`, which only the measuring task moves.  So ENTER on item
`k` acts on entry `k` exactly when the two indices agree, or when it does nothing and entry `k`
is no relay; an entry named `VOLVER` is taken for the way back (`MenuSelects`). -/

namespace Sicae

open CString

/-- The globals with a table of initialised entries, and `currentDeviceIndex` as the measuring
task left it. -/
def withTable (ds : List Device) (c : ℕ) (g : Globals) : Globals :=
  { g with devices := some (ds.map some), deviceCount := ds.length, currentDeviceIndex := c }

/-- `submenu1` is current, the index is `k`, and the only button released is ENTER. -/
def enterReleased (k : ℕ) (g : Globals) : Globals :=
  { g with
    menu := { g.menu with currentMenu := .submenu1, currentMenuIndex := k }
    flags := { g.flags with
      btnUpReleased := false, btnDownReleased := false, btnEnterReleased := true } }

/-- The outcome `r` is the device action on entry `d` at `k`: a relay has its state negated and
its pin is the only one driven; any other device leaves table and pins as they are. -/
def ActsOn (ds : List Device) (k : ℕ) (d : Device) (gpio : Gpio) (r : Option Globals) : Prop :=
  ∃ g', r = some g' ∧
    if d.isRelay then
      g'.devices = some ((ds.set k d.toggled).map some) ∧
        ∃ level, g'.gpio = gpioSetLevel gpio d.pin.toInt level
    else g'.devices = some (ds.map some) ∧ g'.gpio = gpio

/-- The condition on the table, the item and the index left behind: a relay is not named `VOLVER`
and the index is its own; for another device the name is `VOLVER`, or the index names an entry
that is no relay either. -/
def MenuSelects (ds : List Device) (k : Fin ds.length) (c : ℕ) : Prop :=
  if ds[k].isRelay then ds[k].name ≠ "VOLVER".toList ∧ c = k
  else ds[k].name = "VOLVER".toList ∨ ∃ d, ds[c]? = some d ∧ d.isRelay = false

section
variable {ds : List Device} {c : ℕ} {g : Globals}

theorem device?_withTable (i : ℕ) : (withTable ds c g).device? i = ds[i]? := by
  simp only [Globals.device?, withTable, Option.bind_some, List.getElem?_map]
  cases ds[i]? <;> rfl

/-- Item `k` of the menu filled from the table. -/
theorem deviceItems_get? (k : Fin ds.length) :
    (MenuItems.block (deviceItems (withTable ds c g))).get? (k : ℕ) =
      some { name := some ds[k].name, action := some .deviceAction } := by
  rw [get?_deviceItems _ (show (k : ℕ) < (withTable ds c g).deviceCount from k.isLt),
    device?_withTable, List.getElem?_eq_getElem k.isLt]
  rfl

/-- The state in which ENTER acts on the filled menu: same table, same index, same pins. -/
theorem enterTaken_populated (allocated : Bool) (k : ℕ) :
    let g' := enterTaken (enterReleased k (populateDeviceMenu allocated (withTable ds c g)))
    g'.devices = some (ds.map some) ∧ g'.currentDeviceIndex = c ∧ g'.gpio = g.gpio := by
  obtain ⟨menu, lcd, h, -⟩ := populateDeviceMenu_eq allocated (withTable ds c g)
  rw [h]
  exact ⟨rfl, rfl, rfl⟩

/-- ENTER on item `k` after filling the menu. -/
theorem navigateMenu_populated (k : Fin ds.length) :
    navigateMenu (enterReleased k (populateDeviceMenu true (withTable ds c g))) =
      if ds[k].name = "VOLVER".toList then
        some (volver (enterTaken (enterReleased k (populateDeviceMenu true (withTable ds c g)))))
      else deviceAction (enterTaken (enterReleased k (populateDeviceMenu true (withTable ds c g)))) := by
  obtain ⟨menu, lcd, h, hm⟩ := populateDeviceMenu_eq true (withTable ds c g)
  rw [navigateMenu_enter_only rfl rfl]
  refine navigateEnter_device rfl ?_
  rw [h]
  show menu.items1.get? (k : ℕ) = _
  rw [hm]
  exact deviceItems_get? k

/-- When the items could not be allocated, ENTER reads through a dead pointer. -/
theorem navigateMenu_not_allocated (k : ℕ) :
    navigateMenu (enterReleased k (populateDeviceMenu false (withTable ds c g))) = none := by
  rw [navigateMenu_enter_only rfl rfl]
  refine navigateEnter_none rfl ?_
  show (withTable ds c g).menu.items1.free.get? (k : ℕ) = none
  cases (withTable ds c g).menu.items1 <;> rfl

/-! ### The device action against the item shown -/

section
variable {k : ℕ} {d : Device}

theorem actsOn_some_iff {es : List Device} {gpio : Gpio} {g' : Globals}
    (hdev : g'.devices = some (es.map some)) :
    ActsOn ds k d gpio (some g') ↔
      if d.isRelay then es = ds.set k d.toggled ∧ ∃ level, g'.gpio = gpioSetLevel gpio d.pin.toInt level
      else es = ds ∧ g'.gpio = gpio := by
  have hmap : ∀ fs : List Device, some (es.map some) = some (fs.map some) ↔ es = fs := fun fs => by
    rw [Option.some.injEq, (List.map_injective_iff.mpr (Option.some_injective _)).eq_iff]
  simp only [ActsOn, Option.some.injEq, exists_eq_left', hdev, hmap]

theorem set_toggled_ne (hd : ds[k]? = some d) : ds ≠ ds.set k d.toggled := fun h => by
  have hk : k < ds.length := (List.getElem?_eq_some_iff.mp hd).1
  have := congrArg (·[k]?) h
  simp only [List.getElem?_set_self hk, hd, Option.some.injEq] at this
  exact d.toggled_ne this.symm

theorem set_toggled_eq_iff {e : Device} (hd : ds[k]? = some d) (he : ds[c]? = some e) :
    ds.set c e.toggled = ds.set k d.toggled ↔ c = k := by
  constructor
  · intro h
    by_contra hck
    have hk : k < ds.length := (List.getElem?_eq_some_iff.mp hd).1
    have := congrArg (·[k]?) h
    simp only [List.getElem?_set_ne hck, List.getElem?_set_self hk, hd, Option.some.injEq] at this
    exact d.toggled_ne this.symm
  · rintro rfl
    rw [hd] at he
    rw [Option.some.inj he]

/-- An outcome that changes nothing is right exactly for an entry that is no relay. -/
theorem actsOn_same_iff {gpio : Gpio} {g' : Globals} (hd : ds[k]? = some d)
    (hdev : g'.devices = some (ds.map some)) (hgpio : g'.gpio = gpio) :
    ActsOn ds k d gpio (some g') ↔ d.isRelay = false := by
  rw [actsOn_some_iff hdev]
  by_cases hr : d.isRelay
  · simp [hr, set_toggled_ne hd]
  · simp [hr, hgpio]

/-- `deviceAction` is right for entry `k` exactly when it acts on that entry, or neither entry
is a relay. -/
theorem actsOn_deviceAction_iff {g' : Globals} (hd : ds[k]? = some d)
    (hdev : g'.devices = some (ds.map some)) (hindex : g'.currentDeviceIndex = c) :
    ActsOn ds k d g'.gpio (deviceAction g') ↔
      if d.isRelay then c = k else ∃ e, ds[c]? = some e ∧ e.isRelay = false := by
  have hc : g'.device? g'.currentDeviceIndex = ds[c]? := by
    simp only [Globals.device?, hdev, hindex, Option.bind_some, List.getElem?_map]
    cases ds[c]? <;> rfl
  cases he : ds[c]? with
  | none =>
      have hck : c ≠ k := by rintro rfl; rw [hd] at he; cases he
      rw [deviceAction, hc, he]
      simp [ActsOn, hck]
  | some e =>
      simp only [deviceAction, hc, he]
      by_cases her : e.isRelay
      · have hset : (toggleRelay e g').devices = some ((ds.set c e.toggled).map some) := by
          simp [toggleRelay, Globals.setDevice, hdev, hindex, List.map_set]
        rw [if_pos her, actsOn_some_iff hset, set_toggled_eq_iff hd he]
        by_cases hr : d.isRelay
        · simp only [hr, ↓reduceIte, and_iff_left_iff_imp]
          rintro rfl
          rw [hd] at he
          rw [Option.some.inj he]
          exact ⟨_, rfl⟩
        · have hne : ds.set c e.toggled ≠ ds := fun h => set_toggled_ne he h.symm
          simp [hr, hne, her]
      · rw [if_neg her, actsOn_same_iff hd hdev rfl]
        by_cases hr : d.isRelay
        · have hck : c ≠ k := by
            rintro rfl
            rw [hd] at he
            exact her (Option.some.inj he ▸ hr)
          simp [hr, hck]
        · simp [hr, her]

end

/-- **ENTER on item `k` of the device menu** is the device action on entry `k` exactly when the
menu items could be allocated and the item shown is the one the global index names, as far as
relays are concerned. -/
theorem menu_actsOn_iff (ds : List Device) (k : Fin ds.length) (c : ℕ) (allocated : Bool)
    (g : Globals) :
    ActsOn ds k ds[k] g.gpio
        (navigateMenu (enterReleased k (populateDeviceMenu allocated (withTable ds c g)))) ↔
      allocated = true ∧ MenuSelects ds k c := by
  have hd : ds[(k : ℕ)]? = some ds[k] := List.getElem?_eq_getElem k.isLt
  cases allocated with
  | false =>
      rw [navigateMenu_not_allocated]
      simp [ActsOn]
  | true =>
      obtain ⟨hdev, hindex, hgpio⟩ := @enterTaken_populated ds c g true k
      rw [navigateMenu_populated]
      by_cases hn : ds[k].name = "VOLVER".toList
      · obtain ⟨h1, h2⟩ := volver_devices
          (enterTaken (enterReleased k (populateDeviceMenu true (withTable ds c g))))
        rw [if_pos hn, actsOn_same_iff hd (h1.trans hdev) (h2.trans hgpio)]
        by_cases hr : ds[k].isRelay <;> simp_all [MenuSelects]
      · rw [if_neg hn, ← hgpio, actsOn_deviceAction_iff hd hdev hindex, MenuSelects]
        by_cases hr : ds[k].isRelay <;> simp_all

end

/-! ### Two relays -/

/-- Two relays on the pins 23 and 22. -/
def twoRelays : List Device :=
  [{ name := "Luz".toList, id := 0, pin := 23#32, state := false, type := "relay".toList },
    { name := "Aire".toList, id := 1, pin := 22#32, state := false, type := "relay".toList }]

theorem navigateMenu_twoRelays :
    (navigateMenu (enterReleased 1 (populateDeviceMenu true
      (withTable twoRelays 0 exampleGlobals)))).map (fun g => (g.devices, g.gpio)) =
      some (some ((twoRelays.set 0 (twoRelays[0].toggled)).map some), [(23, 1)]) := by
  decide +kernel

/-- ENTER on the second relay, with the index left on the first one, toggles the first one. -/
theorem menu_toggles_other_relay :
    ¬ ActsOn twoRelays 1 twoRelays[1] exampleGlobals.gpio
      (navigateMenu (enterReleased 1 (populateDeviceMenu true
        (withTable twoRelays 0 exampleGlobals)))) := by
  rintro ⟨g', he, h⟩
  have hdev := navigateMenu_twoRelays
  rw [he, Option.map_some, Option.some.injEq, Prod.mk.injEq] at hdev
  rw [if_pos (by decide), hdev.1] at h
  exact absurd h.1 (by decide)

end Sicae
