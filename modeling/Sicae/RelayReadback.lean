import Sicae.Gpio
import Sicae.Transition

/-! # Reading relay levels back from the registers

The ESP32 has two banks of output registers, `out` and `enable` for the pins 0–31 and `out1` and
`enable1` for the pins 32–39.  `gpio_set_level` writes a pin in its own bank;
`get_gpio_output_gpio_level` reads it there, but asks `enable` alone whether the pin is an output,
so no pin of the upper bank is ever found to be one (`getGpioOutputGpioLevel_of_le`).

The level read back is the one driven exactly on the pins of the lower bank that `gpio_set_level`
does not refuse (`readbackOk_iff`). -/

namespace Sicae

open Transition

/-! ### The source -/

/-- The output registers of `gpio_dev_s`. -/
structure GpioDev where
  out : BitVec 32
  out1 : BitVec 32
  enable : BitVec 32
  enable1 : BitVec 32
deriving DecidableEq, Repr

/-- The 8 bits `data` of a register of the upper bank. -/
def dataMask : BitVec 32 := 0xFF#32

/-- `gpio_ll_set_level`.  Writing to `out_w1ts` sets the bits of `out` written as 1, writing to
`out_w1tc` clears them; the upper bank takes the field `data`. -/
def gpioLlSetLevel (hw : GpioDev) (gpioNum level : ℕ) : GpioDev :=
  if level ≠ 0 then
    if gpioNum < 32 then { hw with out := hw.out ||| 1#32 <<< gpioNum }
    else { hw with out1 := hw.out1 ||| (1#32 <<< (gpioNum - 32) &&& dataMask) }
  else
    if gpioNum < 32 then { hw with out := hw.out &&& ~~~(1#32 <<< gpioNum) }
    else { hw with out1 := hw.out1 &&& ~~~(1#32 <<< (gpioNum - 32) &&& dataMask) }

/-- `gpio_set_level` on the registers. -/
def gpioSetLevelDev (hw : GpioDev) (gpioNum level : ℕ) : GpioDev :=
  if gpioIsValidOutputGpio gpioNum then gpioLlSetLevel hw gpioNum level else hw

/-- `setPower` on the registers. -/
def setPowerDev (isPowered : Bool) (gpioPort : BitVec 8) (hw : GpioDev) : GpioDev :=
  if isPowered then gpioSetLevelDev hw gpioPort.toNat 0 else gpioSetLevelDev hw gpioPort.toNat 1

/-- `get_gpio_output_gpio_level`. -/
def getGpioOutputGpioLevel (hw : GpioDev) (pin : ℕ) : ℤ :=
  if hw.enable.setWidth 64 &&& 1#64 <<< pin ≠ 0 then
    if pin < 32 then (hw.out >>> pin &&& 1#32).toNat
    else (hw.out1 >>> (pin - 32) &&& 1#32).toNat
  else -1

/-! ### Bits -/

theorem and_one_shiftLeft_ne_zero_iff {w i : ℕ} (x : BitVec w) :
    x &&& 1#w <<< i ≠ 0 ↔ x.getLsbD i = true := by
  rw [← BitVec.twoPow_eq, BitVec.and_twoPow]
  cases h : x.getLsbD i with
  | false => simp
  | true =>
      have hi := BitVec.lt_of_getLsbD h
      simp only [if_true, iff_true]
      intro hzero
      have hbit := congrArg (fun y => BitVec.getLsbD y i) hzero
      simp [hi] at hbit

theorem shiftRight_and_one {w i : ℕ} (x : BitVec w) (hw : 0 < w) :
    (x >>> i &&& 1#w).toNat = (x.getLsbD i).toNat := by
  rw [BitVec.and_one_eq_setWidth_ofBool_getLsbD, BitVec.getLsbD_ushiftRight, Nat.add_zero]
  cases x.getLsbD i <;> simp [Nat.one_mod_eq_one]
  omega

/-- The bits after one of them was set. -/
theorem getLsbD_or_one_shiftLeft {w i j : ℕ} (x : BitVec w) (hi : i < w) :
    (x ||| 1#w <<< i).getLsbD j = if j = i then true else x.getLsbD j := by
  rw [← BitVec.twoPow_eq, BitVec.getLsbD_or, BitVec.getLsbD_twoPow]
  by_cases h : j = i
  · simp [h, hi]
  · simp [h, Ne.symm h]

/-- The bits after one of them was cleared. -/
theorem getLsbD_and_not_one_shiftLeft {w i j : ℕ} (x : BitVec w) (hi : i < w) :
    (x &&& ~~~(1#w <<< i)).getLsbD j = if j = i then false else x.getLsbD j := by
  rw [← BitVec.twoPow_eq, BitVec.getLsbD_and, BitVec.getLsbD_not, BitVec.getLsbD_twoPow]
  by_cases h : j = i
  · simp [h, hi]
  · cases hx : x.getLsbD j with
    | false => simp [h]
    | true => simp [h, Ne.symm h, BitVec.lt_of_getLsbD hx]

/-! ### One bank -/

/-- The bit of a pin in its bank's output register. -/
def GpioDev.outBit (hw : GpioDev) (pin : ℕ) : Bool :=
  if pin < 32 then hw.out.getLsbD pin else hw.out1.getLsbD (pin - 32)

/-- The pin is enabled as an output in its bank's enable register. -/
def GpioDev.Enabled (hw : GpioDev) (pin : ℕ) : Prop :=
  (if pin < 32 then hw.enable.getLsbD pin else hw.enable1.getLsbD (pin - 32)) = true

instance (hw : GpioDev) : DecidablePred hw.Enabled := fun _ => inferInstanceAs (Decidable (_ = _))

/-- A write to the registers changes the bit of its pin in its bank. -/
theorem outBit_gpioLlSetLevel (hw : GpioDev) {gpioNum : ℕ} (level q : ℕ) (hlt : gpioNum < 40) :
    (gpioLlSetLevel hw gpioNum level).outBit q =
      if q = gpioNum then decide (level ≠ 0) else hw.outBit q := by
  have hmask : ∀ i < 8, 1#32 <<< i &&& dataMask = 1#32 <<< i := by decide
  unfold gpioLlSetLevel GpioDev.outBit
  by_cases hbank : gpioNum < 32
  · by_cases hlevel : level = 0
    · simp only [hlevel, hbank, ne_eq, not_true, if_false, if_true, decide_false]
      rw [getLsbD_and_not_one_shiftLeft _ hbank]
      split_ifs <;> first | rfl | omega
    · simp only [hlevel, hbank, ne_eq, not_false_iff, if_true, decide_true]
      rw [getLsbD_or_one_shiftLeft _ hbank]
      split_ifs <;> first | rfl | omega
  · have hi : gpioNum - 32 < 32 := by omega
    by_cases hlevel : level = 0
    · simp only [hlevel, hbank, ne_eq, not_true, if_false, decide_false]
      rw [hmask _ (by omega), getLsbD_and_not_one_shiftLeft _ hi]
      split_ifs <;> first | rfl | omega
    · simp only [hlevel, hbank, ne_eq, not_false_iff, if_true, if_false, decide_true]
      rw [hmask _ (by omega), getLsbD_or_one_shiftLeft _ hi]
      split_ifs <;> first | rfl | omega

theorem gpioLlSetLevel_enable (hw : GpioDev) (gpioNum level : ℕ) :
    (gpioLlSetLevel hw gpioNum level).enable = hw.enable ∧
      (gpioLlSetLevel hw gpioNum level).enable1 = hw.enable1 := by
  unfold gpioLlSetLevel
  split_ifs <;> exact ⟨rfl, rfl⟩

/-- No pin above 33 is an output pin. -/
theorem lt_of_validOutput {pin : ℕ} (h : gpioIsValidOutputGpio pin = true) : pin < 34 := by
  have hlt := (lt_of_gpioIsValidOutputGpio h).2
  have hall : ∀ n : ℕ, n < 64 → gpioIsValidOutputGpio n = true → n < 34 := by decide
  exact hall pin (by omega) h

theorem setPowerDev_eq (on : Bool) (port : BitVec 8) (hw : GpioDev) :
    setPowerDev on port hw = gpioSetLevelDev hw port.toNat (powerLevel on) := by
  cases on <;> rfl

/-- **What `setPower` does to the registers.** -/
theorem outBit_setPowerDev (on : Bool) (port : BitVec 8) (hw : GpioDev) (q : ℕ) :
    (setPowerDev on port hw).outBit q =
      if q = port.toNat ∧ gpioIsValidOutputGpio port.toNat = true then !on else hw.outBit q := by
  rw [setPowerDev_eq, gpioSetLevelDev]
  by_cases hvalid : gpioIsValidOutputGpio port.toNat = true
  · have hlt := lt_of_validOutput hvalid
    rw [if_pos hvalid, outBit_gpioLlSetLevel _ _ _ (by omega)]
    simp only [hvalid, and_true]
    cases on <;> rfl
  · rw [if_neg hvalid, if_neg (fun h => hvalid h.2)]

theorem setPowerDev_enable (on : Bool) (port : BitVec 8) (hw : GpioDev) :
    (setPowerDev on port hw).enable = hw.enable := by
  rw [setPowerDev_eq, gpioSetLevelDev]
  split_ifs
  · exact (gpioLlSetLevel_enable ..).1
  · rfl

/-! ### Reading back -/

/-- The level read is the bit in `out` of a pin that is enabled in `enable`. -/
theorem getGpioOutputGpioLevel_eq (hw : GpioDev) (pin : ℕ) :
    getGpioOutputGpioLevel hw pin =
      if hw.enable.getLsbD pin = true then ((hw.outBit pin).toNat : ℤ) else -1 := by
  have htest : (hw.enable.setWidth 64).getLsbD pin = true ↔ hw.enable.getLsbD pin = true := by
    rw [BitVec.getLsbD_setWidth, Bool.and_eq_true, decide_eq_true_eq, and_iff_right_iff_imp]
    intro h
    have := BitVec.lt_of_getLsbD h
    omega
  unfold getGpioOutputGpioLevel GpioDev.outBit
  by_cases hen : hw.enable.getLsbD pin = true
  · have hpin := BitVec.lt_of_getLsbD hen
    rw [if_pos ((and_one_shiftLeft_ne_zero_iff _).mpr (htest.mpr hen)), if_pos hpin, if_pos hen,
      if_pos hpin, shiftRight_and_one _ (by decide)]
  · rw [if_neg (fun h => hen (htest.mp ((and_one_shiftLeft_ne_zero_iff _).mp h))), if_neg hen]

/-- **No pin of the upper bank is found to be an output.** -/
theorem getGpioOutputGpioLevel_of_le (hw : GpioDev) {pin : ℕ} (h : 32 ≤ pin) :
    getGpioOutputGpioLevel hw pin = -1 := by
  rw [getGpioOutputGpioLevel_eq, BitVec.getLsbD_of_ge _ _ h]
  exact if_neg Bool.false_ne_true

/-- A pin that is not enabled in its bank reads as no output, after any write. -/
theorem getGpioOutputGpioLevel_of_not_enabled {hw : GpioDev} {q : ℕ} (hen : ¬ hw.Enabled q)
    (on : Bool) (port : BitVec 8) :
    getGpioOutputGpioLevel (setPowerDev on port hw) q = -1 := by
  by_cases hq : q < 32
  · rw [GpioDev.Enabled, if_pos hq] at hen
    rw [getGpioOutputGpioLevel_eq, setPowerDev_enable]
    exact if_neg hen
  · exact getGpioOutputGpioLevel_of_le _ (by omega)

/-- The other pins are read as before. -/
theorem getGpioOutputGpioLevel_ne (hw : GpioDev) (on : Bool) {port : BitVec 8} {q : ℕ}
    (hq : q ≠ port.toNat) :
    getGpioOutputGpioLevel (setPowerDev on port hw) q = getGpioOutputGpioLevel hw q := by
  have hbit : (setPowerDev on port hw).outBit q = hw.outBit q := by
    rw [outBit_setPowerDev, if_neg (fun h => hq h.1)]
  rw [getGpioOutputGpioLevel_eq, getGpioOutputGpioLevel_eq, setPowerDev_enable, hbit]

/-- The pin of the lower bank that was driven. -/
theorem getGpioOutputGpioLevel_self (hw : GpioDev) (on : Bool) {port : BitVec 8}
    (hen : hw.enable.getLsbD port.toNat = true) :
    getGpioOutputGpioLevel (setPowerDev on port hw) port.toNat = powerLevel on ↔
      gpioIsValidOutputGpio port.toNat = true ∨ hw.out.getLsbD port.toNat = !on := by
  have hbank := BitVec.lt_of_getLsbD hen
  have hlevel : ((!on).toNat : ℤ) = powerLevel on := by cases on <;> rfl
  rw [getGpioOutputGpioLevel_eq, setPowerDev_enable, if_pos hen, outBit_setPowerDev,
    GpioDev.outBit, if_pos hbank, ← hlevel]
  by_cases hvalid : gpioIsValidOutputGpio port.toNat = true
  · simp [hvalid]
  · simp only [hvalid, Bool.false_eq_true, and_false, if_false, false_or]
    cases hw.out.getLsbD port.toNat <;> cases on <;> simp

/-- What reading back should give after `setPower`. -/
structure ReadbackOk (hw : GpioDev) (on : Bool) (port : BitVec 8) : Prop where
  driven : hw.Enabled port.toNat →
    getGpioOutputGpioLevel (setPowerDev on port hw) port.toNat = powerLevel on
  others : ∀ q ≤ 39, q ≠ port.toNat →
    getGpioOutputGpioLevel (setPowerDev on port hw) q = getGpioOutputGpioLevel hw q
  notOutput : ∀ q ≤ 39, ¬ hw.Enabled q →
    getGpioOutputGpioLevel (setPowerDev on port hw) q = -1

/-- **The level read back is the one that was driven**, and nothing else has changed, exactly if the
pin is not enabled at all, or it is in the lower bank and `gpio_set_level` takes it or has nothing
to change. -/
theorem readbackOk_iff (hw : GpioDev) (on : Bool) (port : BitVec 8) :
    ReadbackOk hw on port ↔
      ¬ hw.Enabled port.toNat ∨
        (port.toNat < 32 ∧ (gpioIsValidOutputGpio port.toNat = true ∨
          hw.out.getLsbD port.toNat = !on)) := by
  constructor
  · intro h
    by_cases hen : hw.Enabled port.toNat
    · have hdriven := h.driven hen
      by_cases hbank : port.toNat < 32
      · rw [GpioDev.Enabled, if_pos hbank] at hen
        exact .inr ⟨hbank, (getGpioOutputGpioLevel_self hw on hen).mp hdriven⟩
      · rw [getGpioOutputGpioLevel_of_le _ (by omega)] at hdriven
        omega
    · exact .inl hen
  · intro h
    refine ⟨?_, fun _ _ hq => getGpioOutputGpioLevel_ne hw on hq,
      fun _ _ hen => getGpioOutputGpioLevel_of_not_enabled hen on port⟩
    intro hen
    obtain ⟨hbank, hout⟩ := h.resolve_left (not_not_intro hen)
    rw [GpioDev.Enabled, if_pos hbank] at hen
    exact (getGpioOutputGpioLevel_self hw on hen).mpr hout

/-- Registers with every pin enabled. -/
def allEnabled : GpioDev := ⟨0#32, 0#32, BitVec.allOnes 32, 0xFF#32⟩

/-- A relay on GPIO 32 that is switched on reads as no output. -/
theorem not_readbackOk_32 :
    getGpioOutputGpioLevel (setPowerDev true 32#8 allEnabled) 32 = -1 ∧
      ¬ ReadbackOk allEnabled true 32#8 := by
  refine ⟨by decide, fun h => ?_⟩
  have hread := h.driven (by decide)
  exact absurd hread (by decide)

/-! ### Registers and history -/

/-- The registers hold the last levels driven. -/
def RegistersMirror (gpio : Gpio) (hw : GpioDev) : Prop :=
  ∀ (pin level : ℕ), lastLevel gpio pin = some level → hw.outBit pin = decide (level ≠ 0)

/-- The registers follow the history of the levels. -/
theorem RegistersMirror.setPower {gpio : Gpio} {hw : GpioDev} (h : RegistersMirror gpio hw)
    (on : Bool) (port : BitVec 8) :
    RegistersMirror (setPower gpio on port) (setPowerDev on port hw) := by
  intro pin level hlast
  rw [outBit_setPowerDev]
  rw [setPower_eq] at hlast
  by_cases hpin : pin = port.toNat
  · subst hpin
    by_cases hvalid : gpioIsValidOutputGpio port.toNat = true
    · rw [lastLevel_gpioSetLevel_self hvalid] at hlast
      obtain rfl := Option.some.inj hlast
      rw [if_pos ⟨rfl, hvalid⟩]
      cases on <;> rfl
    · rw [gpioSetLevel, if_neg hvalid] at hlast
      rw [if_neg (fun hc => hvalid hc.2), h _ _ hlast]
  · rw [lastLevel_gpioSetLevel_ne (by omega)] at hlast
    rw [if_neg (fun hc => hpin hc.1), h _ _ hlast]

/-- So they do over any sequence of calls. -/
theorem RegistersMirror.foldl {gpio : Gpio} {hw : GpioDev} (h : RegistersMirror gpio hw)
    (writes : List (Bool × BitVec 8)) :
    RegistersMirror (writes.foldl (fun gpio w => Sicae.setPower gpio w.1 w.2) gpio)
      (writes.foldl (fun hw w => setPowerDev w.1 w.2 hw) hw) := by
  induction writes generalizing gpio hw with
  | nil => exact h
  | cons w writes ih => exact ih (h.setPower w.1 w.2)

/-- **What `read_acs712_task` relies on**: over any sequence of calls, a pin enabled in the lower
bank that was last driven low is read as 0, and one last driven high is not. -/
theorem reads_on_iff {gpio : Gpio} {hw : GpioDev} (h : RegistersMirror gpio hw) {pin level : ℕ}
    (hen : hw.enable.getLsbD pin = true) (hlast : lastLevel gpio pin = some level) :
    getGpioOutputGpioLevel hw pin = 0 ↔ level = 0 := by
  rw [getGpioOutputGpioLevel_eq, if_pos hen, h pin level hlast]
  by_cases hl : level = 0 <;> simp [hl]

end Sicae
