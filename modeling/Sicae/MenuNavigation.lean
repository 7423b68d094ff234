import Sicae.MenuSelection
import Sicae.Transition

/-! # Navigation through the menus

`navigate_menu` keeps its index in a static variable while the current menu changes under it:
ENTER opens a submenu or goes back without touching the index, and a refill may shrink the
device menu.  What ENTER does is summed up once, by the menu it leads to (`enterTarget`,
`navigateEnter_spec`).

The index read by ENTER stays inside the menu over a run exactly if three things do not happen:
the device menu is opened before it is first filled, it is left from a position that the main
menu does not have, or it is refilled with fewer items than the index needs. -/

namespace Sicae

open CString Transition

/-! ### Runs of the menu -/

/-- The buttons released since the last call. -/
def released (up down enter : Bool) (g : Globals) : Globals :=
  { g with flags := { g.flags with
      btnUpReleased := up, btnDownReleased := down, btnEnterReleased := enter } }

/-- A call of `navigate_menu`, and a call of `populate_device_menu` that completes, with any
table. -/
inductive MenuAct where
  | navigate (up down enter : Bool)
  | refill (ds : List Device)

def menuStep (g : Globals) : MenuAct → Option Globals
  | .navigate up down enter => navigateMenu (released up down enter g)
  | .refill ds => some (populateDeviceMenu true (withTable ds g.currentDeviceIndex g))

/-- The menus as `app_main` leaves them, before the device menu is first filled. -/
def menuInitial (g : Globals) : Globals :=
  { g with menu := { parent1 := some .mainMenu }, lcd := .currentIp }

/-! ### UP and DOWN -/

/-- The index after UP and DOWN, in a menu of `count` items. -/
def moved (up down : Bool) (count index : ℤ) : ℤ :=
  let index := if up then (if index - 1 < 0 then count - 1 else index - 1) else index
  if down then (if index + 1 ≥ count then 0 else index + 1) else index

/-- The index that ENTER reads in this call. -/
def Menu.enterIndex (m : Menu) (up down : Bool) : ℤ :=
  moved up down (m.itemCount m.currentMenu) m.currentMenuIndex

/-- The state in which the ENTER branch is reached. -/
theorem navigateDown_navigateUp (up down enter : Bool) (g : Globals) :
    navigateDown (navigateUp (released up down enter g)) =
      { released false false enter g with
        menu := { g.menu with currentMenuIndex := g.menu.enterIndex up down }
        lcd := if up || down then .menu g.menu.currentMenu (g.menu.enterIndex up down)
          else g.lcd } := by
  cases up <;> cases down <;> rfl

/-- UP and DOWN keep an index inside its menu. -/
theorem moved_inside {up down : Bool} {count index : ℤ} (hlo : 0 ≤ index) (hhi : index < count) :
    0 ≤ moved up down count index ∧ moved up down count index < count := by
  have hup : ∀ i : ℤ, 0 ≤ i → i < count →
      0 ≤ (if i - 1 < 0 then count - 1 else i - 1) ∧
        (if i - 1 < 0 then count - 1 else i - 1) < count := by
    intro i h0 h1
    split_ifs <;> omega
  have hdown : ∀ i : ℤ, 0 ≤ i → i < count →
      0 ≤ (if i + 1 ≥ count then 0 else i + 1) ∧ (if i + 1 ≥ count then 0 else i + 1) < count := by
    intro i h0 h1
    split_ifs <;> omega
  unfold moved
  cases up with
  | true =>
      obtain ⟨h0, h1⟩ := hup index hlo hhi
      cases down with
      | true => exact hdown _ h0 h1
      | false => exact ⟨h0, h1⟩
  | false =>
      cases down with
      | true => exact hdown _ hlo hhi
      | false => exact ⟨hlo, hhi⟩

/-! ### ENTER -/

/-- The menu that ENTER on an item leads to, if it leaves a menu with this parent. -/
def MenuItem.target (parent : Option MenuId) (item : MenuItem) : Option MenuId :=
  if item.name = some "VOLVER".toList then parent
  else
    match item.action with
    | some .submenu1Fn => some .submenu1
    | some .submenu2Fn => some .submenu2
    | some .submenu3Fn => some .submenu3
    | _ => none

/-- The menu that ENTER at `index` leads to, if it leaves the current one. -/
def enterTarget (m : Menu) (index : ℤ) : Option MenuId :=
  ((m.items m.currentMenu).get? index).bind (MenuItem.target (m.parent m.currentMenu))

/-- The items of a filled device menu: all are named, and those not named `VOLVER` have the
device action. -/
structure DeviceMenuItems (items : List MenuItem) : Prop where
  nonempty : items ≠ []
  named : ∀ item ∈ items, ∃ name, item.name = some name ∧
    (name ≠ "VOLVER".toList → item.action = some .deviceAction)

/-- The device menu is empty before its first filling and as filled later, and its parent is the
main menu. -/
structure MenuOk (m : Menu) : Prop where
  parent : m.parent1 = some .mainMenu
  items : (m.items1 = .null ∧ m.itemCount1 = 0) ∨
    ∃ items, DeviceMenuItems items ∧ m.items1 = .block items ∧ m.itemCount1 = items.length

/-- No item but `VOLVER` has the function of that name, and none is a link to a submenu. -/
def MenuItem.Plain (item : MenuItem) : Prop :=
  item.name = some "VOLVER".toList ∨
    match item.action with
    | some .volver => False
    | some _ => True
    | none => item.submenu = none

theorem plain_mainMenuItems : ∀ item ∈ mainMenuItems, item.Plain := by
  unfold mainMenuItems
  simp only [List.forall_mem_cons, List.not_mem_nil, false_imp_iff, implies_true, and_true]
  exact ⟨Or.inr trivial, Or.inr trivial, Or.inr trivial, Or.inl rfl⟩

theorem plain_optionItems : ∀ item ∈ optionItems, item.Plain := by
  unfold optionItems
  simp only [List.forall_mem_cons, List.not_mem_nil, false_imp_iff, implies_true, and_true]
  exact ⟨Or.inr rfl, Or.inr rfl, Or.inl rfl⟩

theorem DeviceMenuItems.plain {items : List MenuItem} (h : DeviceMenuItems items) :
    ∀ item ∈ items, item.Plain := by
  intro item hm
  obtain ⟨name, hname, haction⟩ := h.named item hm
  by_cases hv : name = "VOLVER".toList
  · exact Or.inl (hname.trans (congrArg some hv))
  · rw [MenuItem.Plain, haction hv]
    exact Or.inr trivial

theorem get?_block_some {items : List MenuItem} {index : ℤ} {item : MenuItem}
    (h : (MenuItems.block items).get? index = some item) :
    ∃ i : ℕ, index = i ∧ items[i]? = some item := by
  cases index with
  | ofNat i => exact ⟨i, rfl, h⟩
  | negSucc i => cases h

/-- The device action leaves menu and display alone. -/
theorem deviceAction_menu {g g' : Globals} (h : deviceAction g = some g') :
    g'.menu = g.menu ∧ g'.lcd = g.lcd := by
  unfold deviceAction at h
  split at h
  · cases h
  · obtain rfl := Option.some.inj h
    split_ifs <;> exact ⟨rfl, rfl⟩

section
variable {g g' : Globals}

/-- `VOLVER` in a submenu leads to the main menu, in the main menu it shows the address. -/
theorem volver_menu (hok : MenuOk g.menu) :
    match g.menu.parent g.menu.currentMenu with
    | some m => (volver g).menu = { g.menu with currentMenu := m } ∧ (volver g).lcd = .menu m 0
    | none => (volver g).menu = g.menu ∧ (volver g).lcd = .currentIp := by
  have hp := hok.parent
  cases hc : g.menu.currentMenu with
  | mainMenu => simp [volver, Menu.parent, hc]
  | submenu1 => simp [volver, Menu.parent, hc, hp, displayMenu]
  | submenu2 | submenu3 => simp [volver, Menu.parent, hc, displayMenu]

theorem MenuOk.plain {m : Menu} (hok : MenuOk m) {menu : MenuId} {index : ℤ} {item : MenuItem}
    (h : (m.items menu).get? index = some item) : item.Plain := by
  have hmem : ∀ {items : List MenuItem}, (MenuItems.block items).get? index = some item →
      item ∈ items := by
    intro items hi
    obtain ⟨i, -, hi⟩ := get?_block_some hi
    exact List.mem_of_getElem? hi
  cases menu with
  | mainMenu => exact plain_mainMenuItems item (hmem h)
  | submenu2 | submenu3 => exact plain_optionItems item (hmem h)
  | submenu1 =>
      rcases hok.items with ⟨hnull, -⟩ | ⟨items, hitems, hblock, -⟩
      · rw [Menu.items, hnull] at h
        cases h
      · rw [Menu.items, hblock] at h
        exact hitems.plain item (hmem h)

/-- What ENTER does to menu and display: it leads to its target and draws that with index 0, or
it stays, and then draws nothing but the address. -/
theorem navigateEnter_spec (hok : MenuOk g.menu) (he : g.flags.btnEnterReleased = true)
    (h : navigateEnter g = some g') :
    match enterTarget g.menu g.menu.currentMenuIndex with
    | some m => g'.menu = { g.menu with currentMenu := m } ∧ g'.lcd = .menu m 0
    | none => g'.menu = g.menu ∧ (g'.lcd = g.lcd ∨ g'.lcd = .currentIp) := by
  simp only [navigateEnter, he, ↓reduceIte] at h
  unfold enterTarget
  cases hitem : (g.menu.items g.menu.currentMenu).get? g.menu.currentMenuIndex with
  | none =>
      rw [hitem] at h
      cases h
  | some item =>
      have hplain := hok.plain hitem
      rw [hitem] at h
      simp only [Option.bind_some, MenuItem.target] at h ⊢
      cases hname : item.name with
      | none =>
          rw [hname] at h
          cases h
      | some name =>
          rw [hname] at h
          simp only [Option.some.injEq] at h ⊢
          by_cases hv : name = "VOLVER".toList
          · rw [if_pos hv] at h ⊢
            have hvol := @volver_menu (enterTaken g) hok
            obtain rfl := Option.some.inj h
            revert hvol
            show (match g.menu.parent g.menu.currentMenu with | some m => _ | none => _) → _
            cases g.menu.parent g.menu.currentMenu with
            | some m => exact id
            | none => exact fun hvol => ⟨hvol.1, Or.inr hvol.2⟩
          · rw [if_neg hv] at h ⊢
            have haction := hplain.resolve_left (fun hn => hv (Option.some.inj (hname ▸ hn)))
            cases hact : item.action with
            | none =>
                rw [hact] at h haction
                simp only [haction] at h
                obtain rfl := Option.some.inj h
                exact ⟨rfl, Or.inl rfl⟩
            | some action =>
                rw [hact] at h haction
                cases action with
                | volver => exact haction.elim
                | deviceAction =>
                    obtain ⟨hm, hl⟩ := deviceAction_menu h
                    exact ⟨hm, Or.inl hl⟩
                | submenu1Fn | submenu2Fn | submenu3Fn =>
                    obtain rfl := Option.some.inj h
                    exact ⟨rfl, rfl⟩

/-! ### One step -/

/-- The menu that ENTER would lead to in a call with these releases. -/
def Menu.target (m : Menu) (up down : Bool) : Option MenuId :=
  enterTarget m (m.enterIndex up down)

/-- The menu after UP and DOWN. -/
def Menu.move (m : Menu) (up down : Bool) : Menu :=
  { m with currentMenuIndex := m.enterIndex up down }

/-- The display after UP and DOWN. -/
def movedLcd (up down : Bool) (g : Globals) : Lcd :=
  if up || down then .menu g.menu.currentMenu (g.menu.enterIndex up down) else g.lcd

theorem navigate_noEnter {up down : Bool} (h : menuStep g (.navigate up down false) = some g') :
    g'.menu = g.menu.move up down ∧ g'.lcd = movedLcd up down g := by
  rw [menuStep, navigateMenu, navigateDown_navigateUp] at h
  obtain rfl := Option.some.inj h
  exact ⟨rfl, rfl⟩

theorem navigate_enter {up down : Bool} (hok : MenuOk g.menu)
    (h : menuStep g (.navigate up down true) = some g') :
    match g.menu.target up down with
    | some m => g'.menu = { g.menu.move up down with currentMenu := m } ∧ g'.lcd = .menu m 0
    | none => g'.menu = g.menu.move up down ∧
        (g'.lcd = movedLcd up down g ∨ g'.lcd = .currentIp) := by
  rw [menuStep, navigateMenu, navigateDown_navigateUp] at h
  have hmoved : MenuOk (g.menu.move up down) := ⟨hok.parent, hok.items⟩
  exact navigateEnter_spec hmoved rfl h

theorem refill_spec {ds : List Device} (h : menuStep g (.refill ds) = some g') :
    g'.menu = { g.menu with
        items1 := .block (deviceItems (withTable ds g.currentDeviceIndex g))
        itemCount1 := ds.length + 1 } ∧
      g'.lcd = if g.menu.currentMenu = .submenu1 then .menu .submenu1 0 else g.lcd := by
  obtain rfl := Option.some.inj h
  have hcur : (withTable ds g.currentDeviceIndex g).menu.currentMenu = g.menu.currentMenu := rfl
  by_cases hc : g.menu.currentMenu = .submenu1
  · simp only [populateDeviceMenu, ↓reduceIte, hcur, hc]
    refine ⟨?_, rfl⟩
    rw [← hc]
    rfl
  · simp only [populateDeviceMenu, ↓reduceIte, hcur, hc]
    exact ⟨rfl, rfl⟩

theorem length_deviceItems (ds : List Device) (c : ℕ) (g : Globals) :
    (deviceItems (withTable ds c g)).length = ds.length + 1 := by
  simp [deviceItems, withTable]

theorem deviceItems_ok (ds : List Device) (c : ℕ) (g : Globals) :
    DeviceMenuItems (deviceItems (withTable ds c g)) where
  nonempty := List.append_ne_nil_of_right_ne_nil _ (List.cons_ne_nil _ _)
  named item hm := by
    rcases List.mem_append.mp hm with hm | hm
    · obtain ⟨i, hi, rfl⟩ := List.mem_map.mp hm
      have hlt : i < ds.length := List.mem_range.mp hi
      refine ⟨ds[i].name, ?_, fun _ => rfl⟩
      rw [device?_withTable, List.getElem?_eq_getElem hlt]
      rfl
    · rw [List.mem_singleton.mp hm]
      exact ⟨_, rfl, fun hv => absurd rfl hv⟩

theorem menuOk_initial (g : Globals) : MenuOk (menuInitial g).menu :=
  ⟨rfl, Or.inl ⟨rfl, rfl⟩⟩

/-- The menus stay in order. -/
theorem menuStep_ok {a : MenuAct} (hok : MenuOk g.menu) (h : menuStep g a = some g') :
    MenuOk g'.menu := by
  cases a with
  | navigate up down enter =>
      cases enter with
      | false =>
          rw [(navigate_noEnter h).1]
          exact ⟨hok.parent, hok.items⟩
      | true =>
          have hspec := navigate_enter hok h
          cases ht : g.menu.target up down with
          | none =>
              rw [ht] at hspec
              rw [hspec.1]
              exact ⟨hok.parent, hok.items⟩
          | some m =>
              rw [ht] at hspec
              rw [hspec.1]
              exact ⟨hok.parent, hok.items⟩
  | refill ds =>
      rw [(refill_spec h).1]
      refine ⟨hok.parent, Or.inr ⟨_, deviceItems_ok ds g.currentDeviceIndex g, rfl, ?_⟩⟩
      rw [length_deviceItems]
      rfl

/-! ### The index inside its menu -/

/-- Whatever the buttons, the next ENTER reads an item of the current menu. -/
def EnterInside (g : Globals) : Prop :=
  ∀ up down : Bool,
    let g' := navigateDown (navigateUp (released up down true g))
    g'.menu.items g'.menu.currentMenu ≠ .null ∧ 0 ≤ g'.menu.currentMenuIndex ∧
      g'.menu.currentMenuIndex < g'.menu.itemCount g'.menu.currentMenu

/-- The condition on a step: ENTER does not open the device menu before it is filled, nor leave it
from a position that the main menu does not have, and the device menu is not refilled under an
index that the new table is too short for. -/
def EnterFits (g : Globals) : MenuAct → Prop
  | .navigate up down enter => enter = true →
      (g.menu.target up down = some .submenu1 → g.menu.items1 ≠ .null) ∧
      (g.menu.currentMenu = .submenu1 → g.menu.target up down = some .mainMenu →
        g.menu.enterIndex up down < 4)
  | .refill ds => g.menu.currentMenu = .submenu1 → g.menu.currentMenuIndex ≤ ds.length

/-- The index is inside the current menu. -/
def Menu.Inside (m : Menu) : Prop :=
  m.items m.currentMenu ≠ .null ∧ 0 ≤ m.currentMenuIndex ∧
    m.currentMenuIndex < m.itemCount m.currentMenu

theorem Menu.Inside.move {m : Menu} (h : m.Inside) (up down : Bool) : (m.move up down).Inside :=
  ⟨h.1, moved_inside h.2.1 h.2.2⟩

theorem enterInside_iff_inside : EnterInside g ↔ g.menu.Inside := by
  have hmove : ∀ up down : Bool,
      (navigateDown (navigateUp (released up down true g))).menu = g.menu.move up down := by
    intro up down
    rw [navigateDown_navigateUp]
    rfl
  constructor
  · intro h
    have h0 := h false false
    simp only [hmove] at h0
    exact h0
  · intro h up down
    simp only [hmove]
    exact h.move up down

/-- From an item of the device menu ENTER leads to its parent only. -/
theorem DeviceMenuItems.target {items : List MenuItem} (h : DeviceMenuItems items)
    {item : MenuItem} (hm : item ∈ items) {p : Option MenuId} {t : MenuId}
    (ht : item.target p = some t) : p = some t := by
  obtain ⟨name, hname, haction⟩ := h.named item hm
  by_cases hv : name = "VOLVER".toList
  · rw [MenuItem.target, hname, if_pos (congrArg some hv)] at ht
    exact ht
  · rw [MenuItem.target, hname, if_neg (fun he => hv (Option.some.inj he)), haction hv] at ht
    cases ht

theorem target_optionItems {item : MenuItem} (hm : item ∈ optionItems) {p : Option MenuId}
    {t : MenuId} (ht : item.target p = some t) : p = some t := by
  unfold optionItems at hm
  rcases List.mem_cons.mp hm with rfl | hm
  · rw [MenuItem.target, if_neg (by decide)] at ht
    cases ht
  rcases List.mem_cons.mp hm with rfl | hm
  · rw [MenuItem.target, if_neg (by decide)] at ht
    cases ht
  · rw [List.mem_singleton.mp hm] at ht
    exact ht

theorem target_mainMenuItems {i : ℕ} {item : MenuItem} (hi : mainMenuItems[i]? = some item)
    {t : MenuId} (ht : item.target none = some t) :
    (t = .submenu1 ∧ i = 0) ∨ (t = .submenu2 ∧ i = 1) ∨ (t = .submenu3 ∧ i = 2) := by
  match i with
  | 0 =>
      obtain rfl := Option.some.inj hi
      rw [MenuItem.target, if_neg (by decide)] at ht
      exact Or.inl ⟨(Option.some.inj ht).symm, rfl⟩
  | 1 =>
      obtain rfl := Option.some.inj hi
      rw [MenuItem.target, if_neg (by decide)] at ht
      exact Or.inr (Or.inl ⟨(Option.some.inj ht).symm, rfl⟩)
  | 2 =>
      obtain rfl := Option.some.inj hi
      rw [MenuItem.target, if_neg (by decide)] at ht
      exact Or.inr (Or.inr ⟨(Option.some.inj ht).symm, rfl⟩)
  | 3 =>
      obtain rfl := Option.some.inj hi
      cases ht
  | n + 4 => cases hi

/-- Where ENTER leads: from the first three items of the main menu to the submenus, and from a
submenu back. -/
theorem enterTarget_cases {m : Menu} (hok : MenuOk m) {index : ℤ} {t : MenuId}
    (ht : enterTarget m index = some t) :
    (m.currentMenu = .mainMenu ∧ ((t = .submenu1 ∧ index = 0) ∨
      (t = .submenu2 ∧ index = 1) ∨ (t = .submenu3 ∧ index = 2))) ∨
    (m.currentMenu ≠ .mainMenu ∧ t = .mainMenu) := by
  obtain ⟨item, hitem, hitarget⟩ := Option.bind_eq_some_iff.mp ht
  cases hc : m.currentMenu with
  | mainMenu =>
      rw [hc] at hitem hitarget
      obtain ⟨i, rfl, hi⟩ := get?_block_some hitem
      refine Or.inl ⟨rfl, ?_⟩
      rcases target_mainMenuItems hi hitarget with ⟨h, rfl⟩ | ⟨h, rfl⟩ | ⟨h, rfl⟩
      · exact Or.inl ⟨h, rfl⟩
      · exact Or.inr (Or.inl ⟨h, rfl⟩)
      · exact Or.inr (Or.inr ⟨h, rfl⟩)
  | submenu1 =>
      rw [hc] at hitem hitarget
      refine Or.inr ⟨by decide, ?_⟩
      rcases hok.items with ⟨hnull, -⟩ | ⟨items, hitems, hblock, -⟩
      · rw [Menu.items, hnull] at hitem
        cases hitem
      · rw [Menu.items, hblock] at hitem
        obtain ⟨i, -, hi⟩ := get?_block_some hitem
        have hp := hitems.target (List.mem_of_getElem? hi) hitarget
        rw [Menu.parent, hok.parent] at hp
        exact (Option.some.inj hp).symm
  | submenu2 | submenu3 =>
      rw [hc] at hitem hitarget
      obtain ⟨i, -, hi⟩ := get?_block_some hitem
      refine Or.inr ⟨by decide, ?_⟩
      exact (Option.some.inj (target_optionItems (List.mem_of_getElem? hi) hitarget)).symm

/-- A filled device menu has an item at index 0. -/
theorem MenuOk.itemCount1_pos {m : Menu} (hok : MenuOk m) (h : m.items1 ≠ .null) :
    0 < m.itemCount1 := by
  rcases hok.items with ⟨hnull, -⟩ | ⟨items, hitems, -, hcount⟩
  · exact absurd hnull h
  · rw [hcount]
    have := List.length_pos_iff.mpr hitems.nonempty
    omega

/-- A switch to the menu `t` leaves the index inside exactly as the condition says. -/
theorem inside_target_iff {up down : Bool} {t : MenuId} (hok : MenuOk g.menu)
    (hin : g.menu.Inside) (ht : g.menu.target up down = some t) :
    Menu.Inside { g.menu.move up down with currentMenu := t } ↔
      EnterFits g (.navigate up down true) := by
  have hmove := hin.move up down
  rw [EnterFits, forall_prop_of_true rfl, ht]
  rcases enterTarget_cases hok ht with ⟨hc, ⟨rfl, hi⟩ | ⟨rfl, hi⟩ | ⟨rfl, hi⟩⟩ | ⟨hc, rfl⟩
  · simp only [Menu.Inside, Menu.move, Menu.items, Menu.itemCount, hi, hc]
    constructor
    · exact fun h => ⟨fun _ => h.1, fun hne => by cases hne⟩
    · exact fun h => ⟨h.1 trivial, le_rfl, hok.itemCount1_pos (h.1 trivial)⟩
  · refine iff_of_true ⟨nofun, ?_⟩ ⟨by simp, fun he => by rw [hc] at he; cases he⟩
    simp [Menu.move, Menu.itemCount, hi]
  · refine iff_of_true ⟨nofun, ?_⟩ ⟨by simp, fun he => by rw [hc] at he; cases he⟩
    simp [Menu.move, Menu.itemCount, hi]
  · have hlo : 0 ≤ g.menu.enterIndex up down := hmove.2.1
    have hhi : g.menu.enterIndex up down < g.menu.itemCount g.menu.currentMenu := hmove.2.2
    have hmain : Menu.Inside { g.menu.move up down with currentMenu := .mainMenu } ↔
        g.menu.enterIndex up down < 4 := by
      constructor
      · exact fun h => h.2.2
      · exact fun h => ⟨nofun, hlo, h⟩
    rw [hmain]
    by_cases hsub : g.menu.currentMenu = .submenu1
    · simp [hsub]
    · have hcount : g.menu.itemCount g.menu.currentMenu = 3 := by
        cases hcur : g.menu.currentMenu with
        | mainMenu => exact absurd hcur hc
        | submenu1 => exact absurd hcur hsub
        | submenu2 | submenu3 => rfl
      rw [hcount] at hhi
      refine iff_of_true (by omega) ⟨by simp, fun he => absurd he hsub⟩

/-- A step keeps the index inside exactly when it meets the condition. -/
theorem menuStep_inside_iff {a : MenuAct} (hok : MenuOk g.menu) (hin : g.menu.Inside)
    (h : menuStep g a = some g') : g'.menu.Inside ↔ EnterFits g a := by
  cases a with
  | navigate up down enter =>
      cases enter with
      | false =>
          rw [(navigate_noEnter h).1]
          exact iff_of_true (hin.move up down) (fun he => absurd he (by decide))
      | true =>
          have hspec := navigate_enter hok h
          cases ht : g.menu.target up down with
          | none =>
              rw [ht] at hspec
              rw [hspec.1, EnterFits, ht]
              exact iff_of_true (hin.move up down) (fun _ => ⟨by simp, by simp⟩)
          | some t =>
              rw [ht] at hspec
              rw [hspec.1]
              exact inside_target_iff hok hin ht
  | refill ds =>
      rw [(refill_spec h).1, EnterFits]
      cases hc : g.menu.currentMenu with
      | submenu1 =>
          simp only [Menu.Inside, Menu.items, Menu.itemCount, hc, forall_const]
          constructor
          · intro hi
            omega
          · intro hi
            exact ⟨nofun, hin.2.1, by omega⟩
      | mainMenu | submenu2 | submenu3 =>
          have hin' := hin
          simp only [Menu.Inside, Menu.items, Menu.itemCount, hc] at hin' ⊢
          exact iff_of_true hin' (fun he => by cases he)

/-- **ENTER reads inside the current menu at every call of a run** exactly if each ENTER and each
refill of the run fits the index. -/
theorem enterInside_iff {as : List MenuAct} {t : Globals}
    (hr : run menuStep (menuInitial g) as = some t) :
    AllStates menuStep EnterInside (menuInitial g) as ↔
      AllSteps menuStep EnterFits (menuInitial g) as := by
  refine allStates_iff_allSteps (J := fun g => MenuOk g.menu) ?_ (menuOk_initial g) ?_ hr
  · intro s a s' hok hin h
    rw [enterInside_iff_inside] at hin ⊢
    exact ⟨menuStep_ok hok h, menuStep_inside_iff hok hin h⟩
  · rw [enterInside_iff_inside]
    exact ⟨nofun, le_rfl, show (0 : ℤ) < 4 by decide⟩

end

/-! ### The device menu before it is filled -/

/-- The device menu is filled with two relays, opened, and left by its last item. -/
def visitDevices : List MenuAct :=
  [.refill twoRelays, .navigate false false true, .navigate true false true]

/-- `Dispositivos` is selected before the first `populate_device_menu`. -/
def enterUnfilled : List MenuAct := [.navigate false false true]

theorem run_visitDevices :
    (run menuStep (menuInitial exampleGlobals) visitDevices).map Globals.menu = some {
      currentMenu := .mainMenu
      currentMenuIndex := 2
      items1 := .block (deviceItems (withTable twoRelays 0 exampleGlobals))
      itemCount1 := 3
      parent1 := some .mainMenu } := by
  decide +kernel

theorem enterInside_visitDevices :
    AllStates menuStep EnterInside (menuInitial exampleGlobals) visitDevices ↔
      AllSteps menuStep EnterFits (menuInitial exampleGlobals) visitDevices := by
  obtain ⟨t, ht, -⟩ := Option.map_eq_some_iff.mp run_visitDevices
  exact enterInside_iff ht

/-- After one ENTER the current menu has no items to read. -/
theorem enterUnfilled_outside :
    ¬ AllStates menuStep EnterInside (menuInitial exampleGlobals) enterUnfilled := by
  intro h
  obtain ⟨-, h1⟩ := h
  have hnull := (h1 _ rfl) false false
  exact hnull.1 rfl

end Sicae
