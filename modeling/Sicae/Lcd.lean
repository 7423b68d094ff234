import Sicae.Menu
import Sicae.Ring

/-! # What the display shows of a menu

An HD44780 display in two-line mode has 40 cells a line, of which 16 are visible, at the addresses
0x00–0x27 and 0x40–0x67.  The cursor passes from the end of each line to the start of the other, so
the two lines are one ring of 80 cells (`Hd44780.Shows`), in which `displayMenu` writes 70 blanks,
the title from cell 0 and the item from cell 40, all without a limit on their length.

Hence the title and the item are shown exactly if what runs over the end of a line does no harm
(`NamesFit`, `showing_lcdDisplayMenu_iff`); names of at most 40 characters do none. -/

namespace Sicae

open CString

/-! ### The display -/

/-- The display: the data memory by address, and the address counter. -/
structure Hd44780 where
  ddram : ℕ → Char
  address : ℕ

/-- The address after a data byte was written. -/
def nextAddress (a : ℕ) : ℕ := if a = 0x27 then 0x40 else if a = 0x67 then 0x00 else a + 1

/-- A data byte. -/
def lcdSendData (d : Hd44780) (data : Char) : Hd44780 where
  ddram := Function.update d.ddram d.address data
  address := nextAddress d.address

/-- An instruction: with the top bit set, the other seven are the new address.  No other instruction
is sent after `lcd_init`. -/
def lcdSendCmd (d : Hd44780) (cmd : ℕ) : Hd44780 :=
  if 0x80 ≤ cmd then { d with address := cmd - 0x80 } else d

/-! ### The source -/

/-- `lcd_send_string`. -/
def lcdSendString (d : Hd44780) (str : CStr) : Hd44780 := str.foldl lcdSendData d

/-- `lcd_clear`. -/
def lcdClear (d : Hd44780) : Hd44780 :=
  (List.range 70).foldl (fun d _ => lcdSendData d ' ') (lcdSendCmd d 0x80)

/-- `lcd_put_cur`. -/
def lcdPutCur (d : Hd44780) (row col : ℕ) : Hd44780 :=
  match row with
  | 0 => lcdSendCmd d (col ||| 0x80)
  | 1 => lcdSendCmd d (col ||| 0xC0)
  | _ => lcdSendCmd d col

/-- A `SubMenu`, without its parent. -/
structure SubMenu where
  name : CStr
  items : MenuItems
  itemCount : ℤ

/-- One pass of the loop of `displayMenu`; `none` when it would read a name that is not there. -/
def displayItem (menu : SubMenu) (selectedIndex : ℤ) (d : Hd44780) (i : ℕ) : Option Hd44780 :=
  if (i : ℤ) = selectedIndex then
    ((menu.items.get? i).bind MenuItem.name).map (lcdSendString (lcdPutCur d 1 0))
  else some d

/-- `displayMenu`, byte by byte. -/
def lcdDisplayMenu (menu : SubMenu) (selectedIndex : ℤ) (d : Hd44780) : Option Hd44780 :=
  let d := lcdClear d
  let d := lcdSendString (lcdPutCur d 0 0) menu.name
  (List.range menu.itemCount.toNat).foldlM (displayItem menu selectedIndex) d

/-- The `name` field of a menu. -/
def MenuId.title : MenuId → CStr
  | .mainMenu => "Main Menu".toList
  | .submenu1 => "Dispositivos".toList
  | .submenu2 => "SubMenu 2".toList
  | .submenu3 => "SubMenu 3".toList

/-- A menu variable of the firmware, as `displayMenu` reads it. -/
def Menu.subMenu (m : Menu) (id : MenuId) : SubMenu := ⟨id.title, m.items id, m.itemCount id⟩

/-! ### The ring of cells -/

/-- The address of a cell: 40 in each line. -/
def cellAddress (k : ℕ) : ℕ := if k % 80 < 40 then k % 80 else 0x40 + (k % 80 - 40)

theorem nextAddress_cellAddress (k : ℕ) : nextAddress (cellAddress k) = cellAddress (k + 1) := by
  unfold nextAddress cellAddress
  split_ifs <;> omega

theorem cellAddress_inj {i k : ℕ} : cellAddress i = cellAddress k ↔ i % 80 = k % 80 := by
  unfold cellAddress
  constructor
  · split_ifs <;> omega
  · intro h
    rw [h]

/-- The display holds the cells `f`, and its cursor is at the position `p`. -/
def Hd44780.Shows (d : Hd44780) (f : ℕ → Char) (p : ℕ) : Prop :=
  d.address = cellAddress p ∧ ∀ k, d.ddram (cellAddress k) = f (k % 80)

variable {d : Hd44780} {f : ℕ → Char} {p : ℕ}

/-- A data byte is written into the ring. -/
theorem Hd44780.Shows.sendData (h : d.Shows f p) (c : Char) :
    (lcdSendData d c).Shows (Function.update f (p % 80) c) (p + 1) := by
  obtain ⟨ha, hf⟩ := h
  constructor
  · show nextAddress d.address = _
    rw [ha, nextAddress_cellAddress]
  · intro k
    show Function.update d.ddram d.address c (cellAddress k) = _
    by_cases hk : k % 80 = p % 80
    · rw [hk, Function.update_self, ha, cellAddress_inj.mpr hk, Function.update_self]
    · rw [ha, Function.update_of_ne hk, Function.update_of_ne (mt cellAddress_inj.mp hk), hf]

/-- So is a string. -/
theorem Hd44780.Shows.sendString (h : d.Shows f p) (s : CStr) :
    (lcdSendString d s).Shows (Ring.write 80 f p s) (p + s.length) := by
  induction s generalizing d f p with
  | nil => exact h
  | cons c s ih =>
      rw [List.length_cons, Nat.add_comm s.length 1, ← Nat.add_assoc]
      exact ih (h.sendData c)

/-- The cursor set to a line. -/
theorem Hd44780.Shows.setLine (h : d.Shows f p) (row : ℕ) (hrow : row < 2) :
    (lcdPutCur d row 0).Shows f (40 * row) := by
  obtain ⟨-, hf⟩ := h
  have hline : row = 0 ∨ row = 1 := by omega
  rcases hline with rfl | rfl
  · exact ⟨rfl, hf⟩
  · exact ⟨rfl, hf⟩

/-- Clearing leaves blanks in line 1, in the visible part of line 2 and in 14 cells more. -/
theorem Hd44780.shows_lcdClear (d : Hd44780) :
    ∃ f p, (lcdClear d).Shows f p ∧ ∀ k < 70, f k = ' ' := by
  have hstart : (lcdSendCmd d 0x80).Shows (fun k => d.ddram (cellAddress k)) 0 :=
    ⟨rfl, fun k => congrArg d.ddram (cellAddress_inj.mpr (by omega))⟩
  have hloop : lcdClear d = lcdSendString (lcdSendCmd d 0x80) (List.replicate 70 ' ') := by
    have hblanks : List.replicate 70 ' ' = (List.range 70).map (fun _ => ' ') := rfl
    rw [lcdClear, lcdSendString, hblanks, List.foldl_map]
  rw [hloop]
  refine ⟨_, _, hstart.sendString _, ?_⟩
  intro k hk
  have hlands := @Ring.lastAt_of_length_le _ 80 0 k (List.replicate 70 ' ') (by simp) (by omega)
  rw [Nat.zero_add, Nat.mod_eq_of_lt (by omega), List.getElem?_replicate, if_pos hk] at hlands
  rw [Ring.write_apply, hlands, Option.getD_some]

/-! ### One drawing -/

/-- The 16 visible columns of each line show the start of two texts, padded with blanks. -/
def Hd44780.Showing (d : Hd44780) (line1 line2 : CStr) : Prop :=
  ∀ j < 16, d.ddram j = line1.getD j ' ' ∧ d.ddram (0x40 + j) = line2.getD j ' '

/-- What runs over the end of a line does no harm in the visible columns: the last character of the
item to land in line 1 is that of the title there; where the item leaves line 1 alone, so is the
last character of the title; the last character of the item to land in line 2 is its own there; and
where the item leaves line 2 alone, the last character of the title is a blank. -/
structure NamesFit (title item : CStr) : Prop where
  itemOnTitle : ∀ j < 16, ∀ c, Ring.lastAt 80 40 item j = some c → c = title.getD j ' '
  titleOnTitle : ∀ j < 16, Ring.lastAt 80 40 item j = none →
    ∀ c, Ring.lastAt 80 0 title j = some c → title[j]? = some c
  itemOnItem : ∀ j < 16, ∀ c, Ring.lastAt 80 40 item (40 + j) = some c → item[j]? = some c
  titleOnItem : ∀ j < 16, Ring.lastAt 80 40 item (40 + j) = none →
    ∀ c, Ring.lastAt 80 0 title (40 + j) = some c → c = ' '

/-- The loop draws the selected item. -/
theorem foldlM_displayItem {menu : SubMenu} {i : ℕ} {name : CStr}
    (hname : (menu.items.get? i).bind MenuItem.name = some name) (n : ℕ) (d : Hd44780) :
    (List.range n).foldlM (displayItem menu i) d =
      some (if i < n then lcdSendString (lcdPutCur d 1 0) name else d) := by
  induction n with
  | zero => rfl
  | succ n ih =>
      rw [List.range_succ, List.foldlM_append, ih]
      by_cases hn : n = i
      · subst hn
        simp [displayItem, hname]
      · have hne : (n : ℤ) ≠ i := by omega
        have hlt : i < n + 1 ↔ i < n := by omega
        simp [displayItem, hne, hlt]

/-- The drawing: each cell holds the last character of the item to land there, or that of the title,
or a blank. -/
theorem lcdDisplayMenu_eq {menu : SubMenu} {i : ℕ} {name : CStr} (hi : i < menu.itemCount)
    (hname : (menu.items.get? i).bind MenuItem.name = some name) (d : Hd44780) :
    ∃ d', lcdDisplayMenu menu i d = some d' ∧ ∀ k < 70, d'.ddram (cellAddress k) =
      (Ring.lastAt 80 40 name k).getD ((Ring.lastAt 80 0 menu.name k).getD ' ') := by
  obtain ⟨f, p, hclear, hblank⟩ := d.shows_lcdClear
  have hshows := (((hclear.setLine 0 (by omega)).sendString menu.name).setLine 1
    (by omega)).sendString name
  refine ⟨lcdSendString (lcdPutCur (lcdSendString (lcdPutCur (lcdClear d) 0 0) menu.name) 1 0) name,
    ?_, ?_⟩
  · rw [lcdDisplayMenu, foldlM_displayItem hname, if_pos (by omega)]
  · intro k hk
    rw [hshows.2, Nat.mod_eq_of_lt (by omega), Ring.write_apply, Ring.write_apply, hblank k hk]

/-- One visible column of line 1. -/
theorem line1_iff {title item : CStr} {j : ℕ} (hj : j < 16) :
    (Ring.lastAt 80 40 item j).getD ((Ring.lastAt 80 0 title j).getD ' ') = title.getD j ' ' ↔
      (∀ c, Ring.lastAt 80 40 item j = some c → c = title.getD j ' ') ∧
        (Ring.lastAt 80 40 item j = none →
          ∀ c, Ring.lastAt 80 0 title j = some c → title[j]? = some c) := by
  cases Ring.lastAt 80 40 item j with
  | some c => simp
  | none =>
      cases ht : Ring.lastAt 80 0 title j with
      | none =>
          have hcell : (0 + j) % 80 = j := by omega
          have hnone : title[j]? = none :=
            Ring.getElem?_eq_none_of_lastAt (hcell.symm ▸ ht)
          simp [List.getD, hnone]
      | some c =>
          have hlt : j < title.length := Ring.lt_length_of_lastAt ((Nat.zero_add j).symm ▸ ht)
          simp [List.getD, List.getElem?_eq_getElem hlt, eq_comm]

/-- One visible column of line 2. -/
theorem line2_iff {title item : CStr} {j : ℕ} (hj : j < 16) :
    (Ring.lastAt 80 40 item (40 + j)).getD ((Ring.lastAt 80 0 title (40 + j)).getD ' ') =
        item.getD j ' ' ↔
      (∀ c, Ring.lastAt 80 40 item (40 + j) = some c → item[j]? = some c) ∧
        (Ring.lastAt 80 40 item (40 + j) = none →
          ∀ c, Ring.lastAt 80 0 title (40 + j) = some c → c = ' ') := by
  cases hi : Ring.lastAt 80 40 item (40 + j) with
  | none =>
      have hcell : (40 + j) % 80 = 40 + j := by omega
      have hnone : item[j]? = none := Ring.getElem?_eq_none_of_lastAt (hcell.symm ▸ hi)
      cases Ring.lastAt 80 0 title (40 + j) with
      | none => simp [List.getD, hnone]
      | some c => simp [List.getD, hnone]
  | some c =>
      have hlt : j < item.length := Ring.lt_length_of_lastAt hi
      simp [List.getD, List.getElem?_eq_getElem hlt, eq_comm]

/-- The drawing of a menu and an item. -/
theorem exists_lcdDisplayMenu {menu : SubMenu} {i : ℕ} {name : CStr} (hi : i < menu.itemCount)
    (hname : (menu.items.get? i).bind MenuItem.name = some name) (d : Hd44780) :
    ∃ d', lcdDisplayMenu menu i d = some d' ∧
      (d'.Showing menu.name name ↔ NamesFit menu.name name) := by
  obtain ⟨d', hdraw, hcells⟩ := lcdDisplayMenu_eq hi hname d
  have hline1 : ∀ j < 16, d'.ddram j =
      (Ring.lastAt 80 40 name j).getD ((Ring.lastAt 80 0 menu.name j).getD ' ') := by
    intro j hj
    have h := hcells j (by omega)
    rwa [cellAddress, if_pos (by omega), Nat.mod_eq_of_lt (by omega)] at h
  have hline2 : ∀ j < 16, d'.ddram (0x40 + j) =
      (Ring.lastAt 80 40 name (40 + j)).getD ((Ring.lastAt 80 0 menu.name (40 + j)).getD ' ') := by
    intro j hj
    have h := hcells (40 + j) (by omega)
    rwa [cellAddress, if_neg (by omega), Nat.mod_eq_of_lt (by omega), Nat.add_sub_cancel_left] at h
  refine ⟨d', hdraw, ?_⟩
  constructor
  · intro h
    have h1 := fun j hj => (line1_iff hj).mp ((hline1 j hj).symm.trans (h j hj).1)
    have h2 := fun j hj => (line2_iff hj).mp ((hline2 j hj).symm.trans (h j hj).2)
    exact ⟨fun j hj => (h1 j hj).1, fun j hj => (h1 j hj).2, fun j hj => (h2 j hj).1,
      fun j hj => (h2 j hj).2⟩
  · intro h j hj
    exact ⟨(hline1 j hj).trans ((line1_iff hj).mpr ⟨h.itemOnTitle j hj, h.titleOnTitle j hj⟩),
      (hline2 j hj).trans ((line2_iff hj).mpr ⟨h.itemOnItem j hj, h.titleOnItem j hj⟩)⟩

/-- **The display shows the title and the selected item, and nothing else**, exactly if what runs
over the end of a line does no harm. -/
theorem showing_lcdDisplayMenu_iff {menu : SubMenu} {i : ℕ} {name : CStr} (hi : i < menu.itemCount)
    (hname : (menu.items.get? i).bind MenuItem.name = some name) (d : Hd44780) :
    (∃ d', lcdDisplayMenu menu i d = some d' ∧ d'.Showing menu.name name) ↔
      NamesFit menu.name name := by
  obtain ⟨d', hdraw, hshowing⟩ := exists_lcdDisplayMenu hi hname d
  rw [← hshowing]
  constructor
  · rintro ⟨d'', hdraw', h⟩
    obtain rfl := Option.some.inj (hdraw.symm.trans hdraw')
    exact h
  · exact fun h => ⟨d', hdraw, h⟩

/-- Names of at most 40 characters do not run over. -/
theorem namesFit_of_length_le {title item : CStr} (ht : title.length ≤ 40)
    (hi : item.length ≤ 40) : NamesFit title item where
  itemOnTitle j hj c h := by
    obtain ⟨k, hk, he⟩ := Ring.exists_of_lastAt h
    have := (List.getElem?_eq_some_iff.mp hk).1
    omega
  titleOnTitle j hj _ c h := by
    obtain ⟨k, hk, he⟩ := Ring.exists_of_lastAt h
    have := (List.getElem?_eq_some_iff.mp hk).1
    obtain rfl : k = j := by omega
    exact hk
  itemOnItem j hj c h := by
    obtain ⟨k, hk, he⟩ := Ring.exists_of_lastAt h
    have := (List.getElem?_eq_some_iff.mp hk).1
    obtain rfl : k = j := by omega
    exact hk
  titleOnItem j hj _ c h := by
    obtain ⟨k, hk, he⟩ := Ring.exists_of_lastAt h
    have := (List.getElem?_eq_some_iff.mp hk).1
    omega

/-- **The menus of the firmware** are shown as they are, up to item names of 40 characters. -/
theorem showing_subMenu {m : Menu} {id : MenuId} {i : ℕ} {name : CStr} (hi : i < m.itemCount id)
    (hname : ((m.items id).get? i).bind MenuItem.name = some name) (hlen : name.length ≤ 40)
    (d : Hd44780) :
    ∃ d', lcdDisplayMenu (m.subMenu id) i d = some d' ∧ d'.Showing id.title name := by
  have htitle : id.title.length ≤ 40 := by cases id <;> decide
  obtain ⟨d', hdraw, hshowing⟩ := @exists_lcdDisplayMenu (m.subMenu id) i name hi hname d
  exact ⟨d', hdraw, hshowing.mpr (namesFit_of_length_le htitle hlen)⟩

/-- The menu of the devices with one device of a given name. -/
def deviceMenu (name : CStr) : SubMenu where
  name := MenuId.submenu1.title
  items := .block [{ name := some name, action := some .deviceAction },
    { name := some "VOLVER".toList, action := some .volver }]
  itemCount := 2

/-- A display that shows blanks. -/
def blankDisplay : Hd44780 := ⟨fun _ => ' ', 0⟩

theorem showing_luz :
    (∃ d', lcdDisplayMenu (deviceMenu "Luz".toList) (0 : ℕ) blankDisplay = some d' ∧
      d'.Showing (deviceMenu "Luz".toList).name "Luz".toList) ↔
      NamesFit (deviceMenu "Luz".toList).name "Luz".toList :=
  showing_lcdDisplayMenu_iff (by decide) rfl blankDisplay

/-- A device name of 41 characters. -/
def longDeviceName : CStr := List.replicate 40 'a' ++ ['b']

/-- Its last character replaces the first one of the title. -/
theorem longDeviceName_overruns :
    (lcdDisplayMenu (deviceMenu longDeviceName) 0 blankDisplay).map (fun d => d.ddram 0) =
        some 'b' ∧
      ¬ ∃ d', lcdDisplayMenu (deviceMenu longDeviceName) 0 blankDisplay = some d' ∧
        d'.Showing (deviceMenu longDeviceName).name longDeviceName := by
  have hcell : (lcdDisplayMenu (deviceMenu longDeviceName) 0 blankDisplay).map
      (fun d => d.ddram 0) = some 'b' := by
    decide +kernel
  refine ⟨hcell, ?_⟩
  rintro ⟨d', hd, h⟩
  rw [hd, Option.map_some, (h 0 (by omega)).1] at hcell
  exact absurd hcell (by decide)

end Sicae
