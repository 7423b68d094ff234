import Sicae.MenuNavigation

/-! # Scrolling through one menu

Between two presses of ENTER the index of `navigate_menu` goes up and down a menu of `n` items and
around its ends.  A call is one step on the ring of the residues modulo `n` (`moved_eq_emod`), so a
sequence of calls is the sum of its steps (`scrolled_run`). -/

namespace Sicae

open Transition

/-- The calls of `navigate_menu` with these releases of UP and DOWN, and none of ENTER. -/
def scrolling (calls : List (Bool × Bool)) : List MenuAct :=
  calls.map (fun c => .navigate c.1 c.2 false)

/-- The releases of UP handled by the calls. -/
def ups (calls : List (Bool × Bool)) : ℕ := calls.countP Prod.fst

/-- The releases of DOWN. -/
def downs (calls : List (Bool × Bool)) : ℕ := calls.countP Prod.snd

theorem ups_append (calls : List (Bool × Bool)) (up down : Bool) :
    ups (calls ++ [(up, down)]) = ups calls + up.toNat := by
  rw [ups, List.countP_append]
  cases up <;> rfl

theorem downs_append (calls : List (Bool × Bool)) (up down : Bool) :
    downs (calls ++ [(up, down)]) = downs calls + down.toNat := by
  rw [downs, List.countP_append]
  cases down <;> rfl

/-- What a sequence of calls has made of the menu in which it began, with `n` items. -/
structure Scrolled (n : ℤ) (g : Globals) (calls : List (Bool × Bool)) (g' : Globals) : Prop where
  sameMenu : g'.menu.currentMenu = g.menu.currentMenu
  sameCount : g'.menu.itemCount g'.menu.currentMenu = n
  inside : 0 ≤ g'.menu.currentMenuIndex ∧ g'.menu.currentMenuIndex < n
  index : g'.menu.currentMenuIndex = (g.menu.currentMenuIndex + downs calls - ups calls) % n
  drawn : g'.lcd = if 0 < ups calls + downs calls then
    .menu g.menu.currentMenu g'.menu.currentMenuIndex else g.lcd
  cleared : calls ≠ [] → g'.flags.btnUpReleased = false ∧ g'.flags.btnDownReleased = false

/-! ### One call -/

theorem emod_eq_of_add_mul {n r k : ℤ} (hlo : 0 ≤ r) (hhi : r < n) : (r + n * k) % n = r := by
  rw [Int.add_mul_emod_self_left, Int.emod_eq_of_lt hlo hhi]

/-- UP and DOWN are steps on the residues modulo the number of items. -/
theorem moved_eq_emod (up down : Bool) {n i : ℤ} (hlo : 0 ≤ i) (hhi : i < n) :
    moved up down n i = (i + down.toNat - up.toNat) % n := by
  have hup : ∀ i : ℤ, 0 ≤ i → i < n → (if i - 1 < 0 then n - 1 else i - 1) = (i - 1) % n := by
    intro i h0 h1
    split_ifs with h
    · obtain rfl : i = 0 := by omega
      have hmod := @emod_eq_of_add_mul n (n - 1) (-1) (by omega) (by omega)
      rw [← hmod]
      congr 1
      omega
    · exact (Int.emod_eq_of_lt (by omega) (by omega)).symm
  have hdown : ∀ i : ℤ, 0 ≤ i → i < n → (if i + 1 ≥ n then 0 else i + 1) = (i + 1) % n := by
    intro i h0 h1
    split_ifs with h
    · obtain rfl : i + 1 = n := by omega
      exact Int.emod_self.symm
    · exact (Int.emod_eq_of_lt (by omega) (by omega)).symm
  unfold moved
  cases up with
  | false =>
      cases down with
      | false => simp [Int.emod_eq_of_lt hlo hhi]
      | true => simpa using hdown i hlo hhi
  | true =>
      have hpos : 0 < n := by omega
      cases down with
      | false => simpa using hup i hlo hhi
      | true =>
          simp only [if_true, hup i hlo hhi]
          rw [hdown _ (Int.emod_nonneg _ (by omega)) (Int.emod_lt_of_pos _ hpos),
            Int.emod_add_emod]
          congr 1
          simp

/-- **One call more.** -/
theorem Scrolled.step {n : ℤ} {g g' : Globals} {calls : List (Bool × Bool)}
    (h : Scrolled n g calls g') (up down : Bool) :
    ∃ g'', menuStep g' (.navigate up down false) = some g'' ∧
      Scrolled n g (calls ++ [(up, down)]) g'' := by
  obtain ⟨hlo, hhi⟩ := h.inside
  have hindex : g'.menu.enterIndex up down =
      (g.menu.currentMenuIndex + downs (calls ++ [(up, down)]) -
        ups (calls ++ [(up, down)])) % n := by
    rw [Menu.enterIndex, h.sameCount, moved_eq_emod up down hlo hhi, h.index, ups_append,
      downs_append, Int.add_sub_assoc, Int.emod_add_emod]
    congr 1
    push_cast
    omega
  refine ⟨_, by rw [menuStep, navigateMenu, navigateDown_navigateUp]; rfl, ?_⟩
  refine ⟨h.sameMenu, h.sameCount, ?_, hindex, ?_, fun _ => ⟨rfl, rfl⟩⟩
  · show 0 ≤ g'.menu.enterIndex up down ∧ g'.menu.enterIndex up down < n
    rw [Menu.enterIndex, h.sameCount]
    exact moved_inside hlo hhi
  · show (if up || down then Lcd.menu g'.menu.currentMenu (g'.menu.enterIndex up down)
        else g'.lcd) =
      if 0 < ups (calls ++ [(up, down)]) + downs (calls ++ [(up, down)]) then
        Lcd.menu g.menu.currentMenu (g'.menu.enterIndex up down) else g.lcd
    rw [ups_append, downs_append, h.sameMenu]
    cases hany : up || down with
    | false =>
        obtain ⟨rfl, rfl⟩ := Bool.or_eq_false_iff.mp hany
        exact h.drawn
    | true =>
        have hpos : 0 < up.toNat + down.toNat := by
          cases up with
          | true => exact Nat.add_pos_left Nat.one_pos _
          | false =>
              obtain rfl : down = true := hany
              exact Nat.one_pos
        rw [if_pos rfl, if_pos (by omega)]

/-! ### A sequence of calls -/

/-- **Scrolling is cyclic and stays in range**, over any sequence of calls in a menu with at least
one item, from any index inside it. -/
theorem scrolled_run {g : Globals} {n : ℤ} (hn : g.menu.itemCount g.menu.currentMenu = n)
    (hlo : 0 ≤ g.menu.currentMenuIndex) (hhi : g.menu.currentMenuIndex < n)
    (calls : List (Bool × Bool)) :
    ∃ g', run menuStep g (scrolling calls) = some g' ∧ Scrolled n g calls g' := by
  induction calls using List.reverseRecOn with
  | nil =>
      refine ⟨g, rfl, rfl, hn, ⟨hlo, hhi⟩, ?_, rfl, fun h => absurd rfl h⟩
      simp [ups, downs, Int.emod_eq_of_lt hlo hhi]
  | append_singleton calls c ih =>
      obtain ⟨g', hrun, h⟩ := ih
      obtain ⟨g'', hstep, h'⟩ := h.step c.1 c.2
      refine ⟨g'', ?_, h'⟩
      rw [scrolling, List.map_append, run_append, ← scrolling, hrun, Option.bind_some]
      exact run_cons_some.mpr ⟨g'', hstep, rfl⟩

/-- Once up and twice both in the main menu. -/
theorem scrolled_mainMenu :
    ∃ g', run menuStep exampleGlobals (scrolling [(true, false), (true, true), (true, true)]) =
        some g' ∧
      Scrolled 4 exampleGlobals [(true, false), (true, true), (true, true)] g' :=
  scrolled_run rfl (by decide) (by decide) _

end Sicae
