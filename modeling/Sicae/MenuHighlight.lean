import Sicae.MenuNavigation

/-! # What the LCD highlights

`displayMenu` shows the item at the index it is given.  UP and DOWN pass the static index of
`navigate_menu`; the functions that change the menu, and a refill of the current one, pass the
literal 0 and leave the index alone.  So the LCD shows the item that the next ENTER acts on
exactly as long as menus are left, and the current one refilled, with index 0. -/

namespace Sicae

open CString Transition

/-- If the last thing drawn is a menu, it is the current one, with the index of ENTER. -/
def Highlighted (g : Globals) : Prop :=
  ∀ menu index, g.lcd = .menu menu index →
    menu = g.menu.currentMenu ∧ index = g.menu.currentMenuIndex

/-- The condition on a step: ENTER changes the menu, and a refill draws it again, only with
index 0. -/
def DrawnAtZero (g : Globals) : MenuAct → Prop
  | .navigate up down enter => enter = true → g.menu.target up down ≠ none →
      g.menu.enterIndex up down = 0
  | .refill _ => g.menu.currentMenu = .submenu1 → g.menu.currentMenuIndex = 0

section
variable {g g' : Globals}

theorem highlighted_of_lcd {menu : MenuId} {index : ℤ} (h : g.lcd = .menu menu index) :
    Highlighted g ↔ menu = g.menu.currentMenu ∧ index = g.menu.currentMenuIndex := by
  unfold Highlighted
  rw [h]
  constructor
  · exact fun hall => hall menu index rfl
  · rintro hm m i ⟨⟩
    exact hm

theorem highlighted_of_currentIp (h : g.lcd = .currentIp) : Highlighted g := by
  intro m i hl
  rw [h] at hl
  cases hl

/-- UP and DOWN draw the menu with their index, or nothing. -/
theorem highlighted_moved {up down : Bool} (hh : Highlighted g)
    (hmenu : g'.menu = g.menu.move up down) (hlcd : g'.lcd = movedLcd up down g) :
    Highlighted g' := by
  intro m i hl
  rw [hmenu]
  rw [hlcd, movedLcd] at hl
  split_ifs at hl with hmove
  · obtain ⟨rfl, rfl⟩ := Lcd.menu.inj hl
    exact ⟨rfl, rfl⟩
  · obtain ⟨hup, hdown⟩ := Bool.or_eq_false_iff.mp (Bool.eq_false_iff.mpr hmove)
    subst hup hdown
    exact hh m i hl

/-- A step keeps the LCD right exactly when it meets the condition. -/
theorem menuStep_highlighted_iff {a : MenuAct} (hok : MenuOk g.menu) (hh : Highlighted g)
    (h : menuStep g a = some g') : Highlighted g' ↔ DrawnAtZero g a := by
  cases a with
  | navigate up down enter =>
      cases enter with
      | false =>
          obtain ⟨hmenu, hlcd⟩ := navigate_noEnter h
          exact iff_of_true (highlighted_moved hh hmenu hlcd) (fun he => absurd he (by decide))
      | true =>
          have hspec := navigate_enter hok h
          rw [DrawnAtZero, forall_prop_of_true rfl]
          cases ht : g.menu.target up down with
          | none =>
              rw [ht] at hspec
              obtain ⟨hmenu, hlcd | hlcd⟩ := hspec
              · exact iff_of_true (highlighted_moved hh hmenu hlcd) (fun he => absurd rfl he)
              · exact iff_of_true (highlighted_of_currentIp hlcd) (fun he => absurd rfl he)
          | some t =>
              rw [ht] at hspec
              obtain ⟨hmenu, hlcd⟩ := hspec
              rw [highlighted_of_lcd hlcd, hmenu]
              constructor
              · exact fun hi _ => hi.2.symm
              · exact fun hi => ⟨rfl, (hi (Option.some_ne_none t)).symm⟩
  | refill ds =>
      obtain ⟨hmenu, hlcd⟩ := refill_spec h
      rw [DrawnAtZero]
      by_cases hc : g.menu.currentMenu = .submenu1
      · rw [if_pos hc] at hlcd
        rw [highlighted_of_lcd hlcd, hmenu]
        constructor
        · exact fun hi _ => hi.2.symm
        · exact fun hi => ⟨hc.symm, (hi hc).symm⟩
      · rw [if_neg hc] at hlcd
        refine iff_of_true ?_ (fun he => absurd he hc)
        intro m i hl
        rw [hmenu]
        exact hh m i (hlcd ▸ hl)

/-- **The LCD highlights what ENTER selects, all through a run**, exactly if menus change and are
drawn again only with index 0. -/
theorem highlighted_iff {as : List MenuAct} {t : Globals}
    (hr : run menuStep (menuInitial g) as = some t) :
    AllStates menuStep Highlighted (menuInitial g) as ↔
      AllSteps menuStep DrawnAtZero (menuInitial g) as := by
  apply allStates_iff_allSteps (J := fun g => MenuOk g.menu) _ (menuOk_initial g) _ hr
  · intro s a s' hok hh h
    exact ⟨menuStep_ok hok h, menuStep_highlighted_iff hok hh h⟩
  · exact highlighted_of_currentIp rfl

end

/-! ### The second submenu -/

/-- DOWN and ENTER open the second submenu. -/
def openSecond : List MenuAct := [.navigate false true false, .navigate false false true]

theorem run_openSecond :
    (run menuStep (menuInitial exampleGlobals) openSecond).map
      (fun g => (g.lcd, g.menu.currentMenu, g.menu.currentMenuIndex)) =
      some (.menu .submenu2 0, .submenu2, 1) := by
  decide +kernel

theorem highlighted_openSecond :
    AllStates menuStep Highlighted (menuInitial exampleGlobals) openSecond ↔
      AllSteps menuStep DrawnAtZero (menuInitial exampleGlobals) openSecond := by
  obtain ⟨t, ht, -⟩ := Option.map_eq_some_iff.mp run_openSecond
  exact highlighted_iff ht

/-- It is drawn with its first item, while ENTER would act on the second. -/
theorem openSecond_misleads :
    ¬ AllStates menuStep Highlighted (menuInitial exampleGlobals) openSecond := by
  intro h
  obtain ⟨t, ht, he⟩ := Option.map_eq_some_iff.mp run_openSecond
  obtain ⟨hlcd, -, hindex⟩ := Prod.mk.inj he |>.imp id Prod.mk.inj
  have hlast := (h.last ht) .submenu2 0 hlcd
  rw [hindex] at hlast
  exact absurd hlast.2 (by decide)

end Sicae
