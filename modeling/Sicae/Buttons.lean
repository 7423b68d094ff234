import Sicae.Menu
import Sicae.Transition

/-! # Buttons

`check_buttons` debounces the three buttons, notes the time of a press and, at a release, raises
the short-release or the long-press flag by the time in between; `button_task` calls
`navigate_menu` when a short-release flag is raised.  The clock is the tick count times the tick
period, both modulo 2³².

What a button does is said by an automaton over the iterations of the task (`specStep`): a press
is answered by nothing, the release after it by one menu step, by the long-press flag or by
nothing.  `ButtonInv` relates its state to the variables of the code, iteration by iteration. -/

namespace Sicae

open Transition

/-! ### The clock -/

/-- `xTaskGetTickCount() * portTICK_PERIOD_MS`, with a counter and a product of `w` bits. -/
def clock (w period ticks : ℕ) : BitVec w := BitVec.ofNat w ticks * BitVec.ofNat w period

theorem clock_eq (w period ticks : ℕ) : clock w period ticks = BitVec.ofNat w (ticks * period) := by
  rw [clock, BitVec.ofNat_mul]

/-- The difference of two readings is the time between them, modulo the range of the clock. -/
theorem toNat_clock_sub (w period : ℕ) {t t' : ℕ} (h : t ≤ t') :
    (clock w period t' - clock w period t).toNat = (t' * period - t * period) % 2 ^ w := by
  have hle : t * period ≤ t' * period := Nat.mul_le_mul_right period h
  have hsum : BitVec.ofNat w (t' * period - t * period) + BitVec.ofNat w (t * period) =
      BitVec.ofNat w (t' * period) := by
    rw [← BitVec.ofNat_add, Nat.sub_add_cancel hle]
  rw [clock_eq, clock_eq, ← BitVec.eq_sub_iff_add_eq.mpr hsum, BitVec.toNat_ofNat]

/-! ### `check_buttons` -/

/-- The three buttons, in the order of `check_buttons`. -/
inductive ButtonId where
  | enter
  | up
  | down
deriving DecidableEq, Repr

/-- The variables of a button: its PRESSED flag, its RELEASED_LONGPRESS flag and its duration,
which holds the time of the press. -/
structure Button where
  pressed : Bool := false
  releasedLongpress : Bool := false
  duration : BitVec 32 := 0
deriving DecidableEq, Repr

/-- The levels that one call of `debounce` reads. -/
abbrev Samples := Fin 10 → Bool

/-- `debounce`: more than half of the samples are high. -/
def debounce (samples : Samples) : Bool := decide ((List.ofFn samples).count true > 10 / 2)

/-- BTN_PRESS_TIME. -/
def btnPressTime : BitVec 32 := 30

/-- BTN_LONGPRESS_TIME. -/
def btnLongpressTime : BitVec 32 := 1500

/-- The branch of one button in `check_buttons`, which may debounce the pin twice; the result is
the button and whether its RELEASED flag is raised. -/
def checkButton (currentTime : BitVec 32) (first second : Samples) (b : Button) : Button × Bool :=
  if debounce first && !b.pressed then
    ({ b with pressed := true, duration := currentTime }, false)
  else if !debounce second && b.pressed then
    let elapsed := currentTime - b.duration
    let b := { b with pressed := false, duration := 0 }
    if btnPressTime ≤ elapsed ∧ elapsed < btnLongpressTime then (b, true)
    else if btnLongpressTime ≤ elapsed then ({ b with releasedLongpress := true }, false)
    else (b, false)
  else (b, false)

/-- What one iteration of `button_task` saw and did, button by button: the time of its clock
reading, the PRESSED and RELEASED_LONGPRESS flags after it, and how often it entered the branch of
`navigate_menu`. -/
structure Iteration where
  time : ℕ
  pressed : ButtonId → Bool
  longpress : ButtonId → Bool
  steps : ButtonId → ℕ

/-- The variables of the buttons besides the RELEASED flags, the tick count since power-up, whether
the task has crashed in `navigate_menu`, and its iterations so far. -/
structure ButtonState where
  globals : Globals
  enter : Button := {}
  up : Button := {}
  down : Button := {}
  ticks : ℕ := 0
  crashed : Bool := false
  history : List Iteration := []

def ButtonState.button (s : ButtonState) : ButtonId → Button
  | .enter => s.enter
  | .up => s.up
  | .down => s.down

/-- The RELEASED flag of a button. -/
def Flags.btnReleased (f : Flags) : ButtonId → Bool
  | .enter => f.btnEnterReleased
  | .up => f.btnUpReleased
  | .down => f.btnDownReleased

/-- An iteration of `button_task`: the ticks since the last one, and the samples of both calls of
`debounce` for each button. -/
structure Poll where
  elapsed : ℕ
  enter : Samples × Samples
  up : Samples × Samples
  down : Samples × Samples

def Poll.samples (p : Poll) : ButtonId → Samples × Samples
  | .enter => p.enter
  | .up => p.up
  | .down => p.down

/-- BTN ENTER. -/
def checkEnter (currentTime : BitVec 32) (p : Poll) (s : ButtonState) : ButtonState :=
  let r := checkButton currentTime p.enter.1 p.enter.2 s.enter
  { s with
    enter := r.1
    globals.flags.btnEnterReleased := s.globals.flags.btnEnterReleased || r.2 }

/-- BTN UP. -/
def checkUp (currentTime : BitVec 32) (p : Poll) (s : ButtonState) : ButtonState :=
  let r := checkButton currentTime p.up.1 p.up.2 s.up
  { s with
    up := r.1
    globals.flags.btnUpReleased := s.globals.flags.btnUpReleased || r.2 }

/-- BTN DOWN. -/
def checkDown (currentTime : BitVec 32) (p : Poll) (s : ButtonState) : ButtonState :=
  let r := checkButton currentTime p.down.1 p.down.2 s.down
  { s with
    down := r.1
    globals.flags.btnDownReleased := s.globals.flags.btnDownReleased || r.2 }

/-- `check_buttons`. -/
def checkButtons (currentTime : BitVec 32) (p : Poll) (s : ButtonState) : ButtonState :=
  checkDown currentTime p (checkUp currentTime p (checkEnter currentTime p s))

/-! ### `button_task` -/

/-- How often `navigate_menu` enters the branch of a button: each branch tests its flag in the
state the branches before it leave. -/
def menuSteps (g : Globals) : ButtonId → ℕ
  | .up => g.flags.btnUpReleased.toNat
  | .down => (navigateUp g).flags.btnDownReleased.toNat
  | .enter => (navigateDown (navigateUp g)).flags.btnEnterReleased.toNat

/-- The call of `navigate_menu` in `button_task`, and the steps it makes. -/
def navigateIfReleased (s : ButtonState) : ButtonState × (ButtonId → ℕ) :=
  let f := s.globals.flags
  if f.btnUpReleased || f.btnDownReleased || f.btnEnterReleased then
    match navigateMenu s.globals with
    | some g => ({ s with globals := g }, menuSteps s.globals)
    | none => ({ s with crashed := true }, menuSteps s.globals)
  else (s, fun _ => 0)

/-- An iteration of `button_task`. -/
def buttonTask (period : ℕ) (p : Poll) (s : ButtonState) : ButtonState :=
  let ticks := s.ticks + p.elapsed
  let r := navigateIfReleased (checkButtons (clock 32 period ticks) p { s with ticks := ticks })
  { r.1 with history := s.history ++
      [{ time := ticks * period
         pressed := fun b => (r.1.button b).pressed
         longpress := fun b => (r.1.button b).releasedLongpress
         steps := r.2 }] }

/-- The task makes an iteration, or other tasks change the globals; these have no access to the
RELEASED flags. -/
inductive ButtonAct where
  | poll (p : Poll)
  | others (g : Globals)

/-- One step; a crashed task makes none. -/
def buttonStep (period : ℕ) (s : ButtonState) : ButtonAct → Option ButtonState
  | .poll p => if s.crashed then none else some (buttonTask period p s)
  | .others g =>
      if s.crashed then none
      else some { s with globals := { g with flags := { g.flags with
        btnUpReleased := s.globals.flags.btnUpReleased
        btnDownReleased := s.globals.flags.btnDownReleased
        btnEnterReleased := s.globals.flags.btnEnterReleased } } }

/-! ### What a button does -/

/-- An iteration as one button sees it. -/
structure ButtonView where
  time : ℕ
  pressed : Bool
  longpress : Bool
  steps : ℕ

def Iteration.view (i : Iteration) (b : ButtonId) : ButtonView :=
  ⟨i.time, i.pressed b, i.longpress b, i.steps b⟩

/-- A button: the time of a press that was not released yet, and the long-press flag. -/
structure ButtonSpec where
  held : Option ℕ := none
  longpress : Bool := false

/-- The menu steps that a release `ms` milliseconds after the press makes. -/
def releaseSteps (ms : ℕ) : ℕ := if 30 ≤ ms ∧ ms < 1500 then 1 else 0

/-- An iteration that agrees with what the button is to do: a release makes its menu step, raises
the long-press flag, or does nothing, by the time since the press; every other iteration does
nothing.  The time is known modulo 2³² ms, and is the remainder if it is below that. -/
def specStep (s : ButtonSpec) (v : ButtonView) : Option ButtonSpec :=
  match s.held, v.pressed with
  | some t, false =>
      let ms := (v.time - t) % 2 ^ 32
      if v.steps = releaseSteps ms ∧ v.longpress = (s.longpress || decide (1500 ≤ ms)) then
        some { held := none, longpress := v.longpress }
      else none
  | none, true =>
      if v.steps = 0 ∧ v.longpress = s.longpress then some { s with held := some v.time } else none
  | _, _ => if v.steps = 0 ∧ v.longpress = s.longpress then some s else none

/-- The variables of a button hold the state of the automaton. -/
def Tracks (period ticks : ℕ) (b : Button) (s : ButtonSpec) : Prop :=
  b.releasedLongpress = s.longpress ∧
    match s.held with
    | none => b.pressed = false
    | some t => b.pressed = true ∧ ∃ k ≤ ticks, t = k * period ∧ b.duration = clock 32 period k

/-- A release reads the time since the press as a number of milliseconds. -/
theorem checkButton_release {currentTime : BitVec 32} {first second : Samples} {b : Button} {ms : ℕ}
    (hpressed : b.pressed = true) (hd : debounce second = false)
    (hms : (currentTime - b.duration).toNat = ms) :
    checkButton currentTime first second b =
      ({ b with
          pressed := false
          releasedLongpress := b.releasedLongpress || decide (1500 ≤ ms)
          duration := 0 },
        decide (30 ≤ ms ∧ ms < 1500)) := by
  have hpress : btnPressTime ≤ currentTime - b.duration ↔ 30 ≤ ms := by
    rw [BitVec.le_def, hms]
    rfl
  have hlong : btnLongpressTime ≤ currentTime - b.duration ↔ 1500 ≤ ms := by
    rw [BitVec.le_def, hms]
    rfl
  have hshort : currentTime - b.duration < btnLongpressTime ↔ ms < 1500 := by
    rw [BitVec.lt_def, hms]
    rfl
  simp only [checkButton, hpressed, hd, Bool.not_true, Bool.and_false, Bool.false_eq_true,
    ↓reduceIte, Bool.not_false, Bool.and_self, hpress, hlong, hshort]
  by_cases h30 : 30 ≤ ms <;> by_cases h1500 : 1500 ≤ ms
  · simp [h30, h1500, Nat.not_lt.mpr h1500]
  · simp [h30, h1500, Nat.lt_of_not_le h1500]
  · omega
  · simp [h30, h1500]

/-- The branch of a button does what the automaton allows, whatever the samples are. -/
theorem checkButton_spec {period ticks now : ℕ} {b : Button} {s : ButtonSpec}
    (h : Tracks period ticks b s) (hnow : ticks ≤ now) (first second : Samples) :
    let r := checkButton (clock 32 period now) first second b
    ∃ s', specStep s ⟨now * period, r.1.pressed, r.1.releasedLongpress, r.2.toNat⟩ = some s' ∧
      Tracks period now r.1 s' := by
  obtain ⟨hlong, hheld⟩ := h
  cases hs : s.held with
  | none =>
      rw [hs] at hheld
      by_cases hd : debounce first = true
      · -- the press
        refine ⟨{ s with held := some (now * period) }, ?_, ?_⟩
        · simp [checkButton, specStep, hs, hheld, hd, hlong]
        · simp only [checkButton, hd, hheld, Bool.not_false, Bool.and_self, ↓reduceIte]
          exact ⟨hlong, rfl, now, le_rfl, rfl, rfl⟩
      · refine ⟨s, ?_, ?_⟩
        · simp [checkButton, specStep, hs, hheld, hd, hlong]
        · simp only [checkButton, hd, hheld, Bool.false_and, Bool.and_false, Bool.false_eq_true,
            ↓reduceIte]
          exact ⟨hlong, by rw [hs]; exact hheld⟩
  | some t =>
      rw [hs] at hheld
      obtain ⟨hpressed, k, hk, rfl, hdur⟩ := hheld
      by_cases hd : debounce second = true
      · refine ⟨s, ?_, ?_⟩
        · simp [checkButton, specStep, hs, hpressed, hd, hlong]
        · simp only [checkButton, hd, hpressed, Bool.not_true, Bool.and_false, Bool.false_and,
            Bool.false_eq_true, ↓reduceIte]
          exact ⟨hlong, by rw [hs]; exact ⟨hpressed, k, hk.trans hnow, rfl, hdur⟩⟩
      · -- the release
        have hms : (clock 32 period now - b.duration).toNat =
            (now * period - k * period) % 2 ^ 32 := by
          rw [hdur, toNat_clock_sub 32 period (hk.trans hnow)]
        have hsteps : ∀ ms : ℕ, (decide (30 ≤ ms ∧ ms < 1500)).toNat = releaseSteps ms := by
          intro ms
          unfold releaseSteps
          by_cases h : 30 ≤ ms ∧ ms < 1500
          · rw [if_pos h, decide_eq_true h]
            rfl
          · rw [if_neg h, decide_eq_false h]
            rfl
        rw [checkButton_release hpressed (by simpa using hd) hms]
        refine ⟨{ held := none, longpress := _ }, ?_, rfl, rfl⟩
        simp only [specStep, hs]
        exact if_pos ⟨hsteps _, by rw [hlong]⟩

/-! ### The flags in `navigate_menu` -/

theorem navigateUp_flags (g : Globals) :
    (navigateUp g).flags = { g.flags with btnUpReleased := false } := by
  cases hup : g.flags.btnUpReleased with
  | true => simp [navigateUp, hup, displayMenu]
  | false =>
      simp only [navigateUp, hup, Bool.false_eq_true, ↓reduceIte]
      rw [← hup]

theorem navigateDown_flags (g : Globals) :
    (navigateDown g).flags = { g.flags with btnDownReleased := false } := by
  cases hdown : g.flags.btnDownReleased with
  | true => simp [navigateDown, hdown, displayMenu]
  | false =>
      simp only [navigateDown, hdown, Bool.false_eq_true, ↓reduceIte]
      rw [← hdown]

/-- Calling the function of a menu item leaves the flags alone. -/
theorem MenuFunction.call_flags {f : MenuFunction} {g g' : Globals} (h : f.call g = some g') :
    g'.flags = g.flags := by
  cases f with
  | submenu1Fn | submenu2Fn | submenu3Fn =>
      obtain rfl := Option.some.inj h
      rfl
  | volver =>
      obtain rfl := Option.some.inj h
      unfold Sicae.volver
      split_ifs
      · rfl
      · split <;> rfl
  | deviceAction =>
      simp only [MenuFunction.call, Sicae.deviceAction] at h
      split at h
      · cases h
      · obtain rfl := Option.some.inj h
        split_ifs <;> rfl

theorem navigateEnter_flags {g g' : Globals} (h : navigateEnter g = some g') :
    g'.flags = { g.flags with btnEnterReleased := false } := by
  rcases navigateEnter_cases h with ⟨f, hf⟩ | ⟨submenu, rfl⟩ | rfl
  · exact MenuFunction.call_flags hf
  · rfl
  · rfl

/-- `navigate_menu` takes back the three RELEASED flags. -/
theorem navigateMenu_released {g g' : Globals} (h : navigateMenu g = some g') (b : ButtonId) :
    g'.flags.btnReleased b = false := by
  have hflags := navigateEnter_flags h
  rw [navigateDown_flags, navigateUp_flags] at hflags
  rw [hflags]
  cases b <;> rfl

/-- It enters the branch of a button once if the RELEASED flag of the button is raised. -/
theorem menuSteps_eq (g : Globals) (b : ButtonId) : menuSteps g b = (g.flags.btnReleased b).toNat := by
  cases b with
  | up => rfl
  | down =>
      show (navigateUp g).flags.btnDownReleased.toNat = _
      rw [navigateUp_flags]
      rfl
  | enter =>
      show (navigateDown (navigateUp g)).flags.btnEnterReleased.toNat = _
      rw [navigateDown_flags, navigateUp_flags]
      rfl

/-! ### One iteration -/

/-- The branches of `check_buttons` do not interfere. -/
theorem checkButtons_button (currentTime : BitVec 32) (p : Poll) (s : ButtonState) (b : ButtonId) :
    (checkButtons currentTime p s).button b =
        (checkButton currentTime (p.samples b).1 (p.samples b).2 (s.button b)).1 ∧
      (checkButtons currentTime p s).globals.flags.btnReleased b =
        (s.globals.flags.btnReleased b ||
          (checkButton currentTime (p.samples b).1 (p.samples b).2 (s.button b)).2) := by
  cases b <;> exact ⟨rfl, rfl⟩

/-- The call of `navigate_menu` does what the RELEASED flags say, and leaves none of them raised
unless it crashes. -/
theorem navigateIfReleased_spec (s : ButtonState) (b : ButtonId) :
    (navigateIfReleased s).1.button b = s.button b ∧
      (navigateIfReleased s).2 b = (s.globals.flags.btnReleased b).toNat ∧
      (navigateIfReleased s).1.ticks = s.ticks ∧
      ((navigateIfReleased s).1.crashed = false →
        (navigateIfReleased s).1.globals.flags.btnReleased b = false) := by
  by_cases hany : (s.globals.flags.btnUpReleased || s.globals.flags.btnDownReleased ||
      s.globals.flags.btnEnterReleased) = true
  · cases hnav : navigateMenu s.globals with
    | some g =>
        have hcall : navigateIfReleased s = ({ s with globals := g }, menuSteps s.globals) := by
          simp only [navigateIfReleased, hany, ↓reduceIte, hnav]
        rw [hcall]
        exact ⟨by cases b <;> rfl, menuSteps_eq _ b, rfl, fun _ => navigateMenu_released hnav b⟩
    | none =>
        have hcall : navigateIfReleased s = ({ s with crashed := true }, menuSteps s.globals) := by
          simp only [navigateIfReleased, hany, ↓reduceIte, hnav]
        rw [hcall]
        exact ⟨by cases b <;> rfl, menuSteps_eq _ b, rfl, by simp⟩
  · have hnone : s.globals.flags.btnReleased b = false := by
      simp only [Bool.or_eq_true, not_or, Bool.not_eq_true] at hany
      cases b with
      | enter => exact hany.2
      | up => exact hany.1.1
      | down => exact hany.1.2
    have hcall : navigateIfReleased s = (s, fun _ => 0) := if_neg hany
    rw [hcall]
    exact ⟨rfl, by rw [hnone]; rfl, rfl, fun _ => hnone⟩

/-! ### Whole runs -/

/-- What each button saw and did so far is allowed by its automaton, whose state the variables
hold; and the RELEASED flags are clear. -/
def ButtonInv (period : ℕ) (s : ButtonState) : Prop :=
  (s.crashed = false → ∀ b, s.globals.flags.btnReleased b = false) ∧
    ∀ b, ∃ st, run specStep {} (s.history.map (·.view b)) = some st ∧
      Tracks period s.ticks (s.button b) st

/-- An iteration of the task, as a button sees it, is the call of `checkButton` for the button. -/
theorem buttonTask_button (period : ℕ) (p : Poll) {s : ButtonState} {b : ButtonId}
    (hflag : s.globals.flags.btnReleased b = false) :
    let now := s.ticks + p.elapsed
    let r := checkButton (clock 32 period now) (p.samples b).1 (p.samples b).2 (s.button b)
    (buttonTask period p s).button b = r.1 ∧ (buttonTask period p s).ticks = now ∧
      (buttonTask period p s).history.map (·.view b) = s.history.map (·.view b) ++
        [⟨now * period, r.1.pressed, r.1.releasedLongpress, r.2.toNat⟩] := by
  intro now r
  obtain ⟨hcheck, hrel⟩ := checkButtons_button (clock 32 period now) p { s with ticks := now } b
  obtain ⟨hbutton, hsteps, hticks, -⟩ := navigateIfReleased_spec
    (checkButtons (clock 32 period now) p { s with ticks := now }) b
  have hb : (buttonTask period p s).button b = r.1 := by
    calc (buttonTask period p s).button b
        = (navigateIfReleased (checkButtons (clock 32 period now) p { s with ticks := now })).1.button
            b := by cases b <;> rfl
      _ = r.1 := by rw [hbutton, hcheck]; cases b <;> rfl
  have hn : (navigateIfReleased (checkButtons (clock 32 period now) p { s with ticks := now })).2 b =
      r.2.toNat := by
    rw [hsteps, hrel]
    show (s.globals.flags.btnReleased b || _).toNat = _
    rw [hflag, Bool.false_or]
    cases b <;> rfl
  refine ⟨hb, hticks, ?_⟩
  rw [← hb, ← hn]
  unfold buttonTask
  rw [List.map_append]
  cases b <;> rfl

/-- An iteration of the task answers each button as its automaton says. -/
theorem ButtonInv.poll {period : ℕ} {s : ButtonState} (hs : ButtonInv period s)
    (hc : s.crashed = false) (p : Poll) : ButtonInv period (buttonTask period p s) := by
  obtain ⟨hflags, hviews⟩ := hs
  refine ⟨fun hc' b => (navigateIfReleased_spec _ b).2.2.2 hc', fun b => ?_⟩
  obtain ⟨hbutton, hticks, hhistory⟩ := buttonTask_button period p (hflags hc b)
  obtain ⟨st, hrun, htracks⟩ := hviews b
  obtain ⟨st', hstep, htracks'⟩ := checkButton_spec htracks (Nat.le_add_right s.ticks p.elapsed)
    (p.samples b).1 (p.samples b).2
  refine ⟨st', ?_, by rw [hbutton, hticks]; exact htracks'⟩
  rw [hhistory, run_append, hrun, Option.bind_some, run, hstep]
  rfl

theorem ButtonInv.step {period : ℕ} {s s' : ButtonState} {a : ButtonAct} (hs : ButtonInv period s)
    (h : buttonStep period s a = some s') : ButtonInv period s' := by
  unfold buttonStep at h
  cases a with
  | poll p =>
      simp only at h
      split at h
      · cases h
      · obtain rfl := Option.some.inj h
        exact hs.poll (by simpa using ‹¬ s.crashed = true›) p
  | others g =>
      simp only at h
      split at h
      · cases h
      · obtain rfl := Option.some.inj h
        refine ⟨fun hc b => ?_, fun b => ?_⟩
        · have hflag := hs.1 hc b
          cases b <;> exact hflag
        · obtain ⟨st, hrun, htracks⟩ := hs.2 b
          refine ⟨st, hrun, ?_⟩
          cases b <;> exact htracks

/-- Before the first iteration: all flags of the buttons are clear. -/
def buttonInitial (g : Globals) (ticks : ℕ) (duration : ButtonId → BitVec 32) : ButtonState where
  globals := { g with flags := { g.flags with
    btnUpReleased := false, btnDownReleased := false, btnEnterReleased := false } }
  enter := { duration := duration .enter }
  up := { duration := duration .up }
  down := { duration := duration .down }
  ticks := ticks

theorem buttonInv_initial (period : ℕ) (g : Globals) (ticks : ℕ) (duration : ButtonId → BitVec 32) :
    ButtonInv period (buttonInitial g ticks duration) := by
  refine ⟨fun _ b => by cases b <;> rfl, fun b => ⟨{}, rfl, ?_⟩⟩
  cases b <;> exact ⟨rfl, rfl⟩

/-- The iterations seen by a button are allowed by its automaton. -/
def OneToOne (views : List ButtonView) : Prop := (run specStep {} views).isSome = true

/-- **Button presses become menu steps one to one.**  In every state of every run from clear flags,
whatever the samples, the tick period, the tick count at the start and the steps of other tasks,
each button was answered as its automaton says, and after every iteration the three RELEASED flags
are clear. -/
theorem presses_oneToOne (period : ℕ) (g : Globals) (ticks : ℕ) (duration : ButtonId → BitVec 32)
    (as : List ButtonAct) :
    AllStates (buttonStep period)
      (fun s => ∀ b, OneToOne (s.history.map (·.view b)) ∧
        (s.crashed = false → s.globals.flags.btnReleased b = false))
      (buttonInitial g ticks duration) as := by
  refine allStates_of_invariant (I := ButtonInv period)
    (fun s a s' hs (_ : True) h => hs.step h) (fun s hs b => ⟨?_, fun hc => hs.1 hc b⟩)
    (buttonInv_initial period g ticks duration) (.of_forall fun _ _ _ => trivial)
  obtain ⟨st, hrun, -⟩ := hs.2 b
  rw [OneToOne, hrun]
  rfl

/-- UP is held for 200 ms across the overflow of the tick count. -/
example :
    let high : Samples × Samples := (fun _ => true, fun _ => true)
    let low : Samples × Samples := (fun _ => false, fun _ => false)
    let s := buttonTask 10 ⟨0, low, high, low⟩
      (buttonInitial exampleGlobals (2 ^ 32 - 10) fun _ => 0)
    (buttonTask 10 ⟨20, low, low, low⟩ s).history.map (·.steps .up) = [0, 1] := by
  decide +kernel

end Sicae
