import Mathlib.Data.List.Basic
import Mathlib.Data.Int.Notation

/-! # GPIO output levels

The output side of the GPIO driver.  A `Gpio` is the history of the levels driven, newest
first, as pairs of a pin and a level; `gpioSetLevel` refuses pins that the ESP32 cannot drive.
The relays are active low (`setPower`). -/

namespace Sicae

/-- The levels driven so far, newest first. -/
abbrev Gpio := List (ℤ × ℕ)

/-- `BITn` as a 64-bit mask. -/
def bitMask (n : ℕ) : BitVec 64 := 1#64 <<< n

/-- `SOC_GPIO_VALID_GPIO_MASK` of the ESP32. -/
def socGpioValidGpioMask : BitVec 64 :=
  0xFFFFFFFFFF#64 &&& ~~~(bitMask 24 ||| bitMask 28 ||| bitMask 29 ||| bitMask 30 ||| bitMask 31)

/-- `SOC_GPIO_VALID_OUTPUT_GPIO_MASK` of the ESP32. -/
def socGpioValidOutputGpioMask : BitVec 64 :=
  socGpioValidGpioMask &&& ~~~(bitMask 34 ||| bitMask 35 ||| bitMask 36 ||| bitMask 37 |||
    bitMask 38 ||| bitMask 39)

/-- `GPIO_IS_VALID_OUTPUT_GPIO`: the pin is not negative and its bit is set in the mask.  The
mask has no bit from 64 on, so a larger number is refused. -/
def gpioIsValidOutputGpio (gpioNum : ℤ) : Bool :=
  decide (0 ≤ gpioNum) && socGpioValidOutputGpioMask.getLsbD gpioNum.toNat

/-- `gpio_set_level`: drives the pin if it is an output pin, and does nothing otherwise. -/
def gpioSetLevel (gpio : Gpio) (gpioNum : ℤ) (level : ℕ) : Gpio :=
  if gpioIsValidOutputGpio gpioNum then (gpioNum, level) :: gpio else gpio

/-- `setPower`: low switches the relay on, high switches it off. -/
def setPower (gpio : Gpio) (isPowered : Bool) (gpioPort : BitVec 8) : Gpio :=
  if isPowered then gpioSetLevel gpio gpioPort.toNat 0 else gpioSetLevel gpio gpioPort.toNat 1

/-- The last level driven on a pin. -/
def lastLevel (gpio : Gpio) (pin : ℤ) : Option ℕ := gpio.lookup pin

/-- The level that `setPower` drives. -/
def powerLevel (isPowered : Bool) : ℕ := if isPowered then 0 else 1

theorem setPower_eq (gpio : Gpio) (b : Bool) (port : BitVec 8) :
    setPower gpio b port = gpioSetLevel gpio port.toNat (powerLevel b) := by
  cases b <;> rfl

theorem powerLevel_eq_zero {b : Bool} : powerLevel b = 0 ↔ b = true := by
  cases b <;> simp [powerLevel]

theorem gpioSetLevel_valid {gpio : Gpio} {pin : ℤ} {level : ℕ}
    (h : gpioIsValidOutputGpio pin = true) : gpioSetLevel gpio pin level = (pin, level) :: gpio :=
  if_pos h

/-- The number of an output pin is small. -/
theorem lt_of_gpioIsValidOutputGpio {pin : ℤ} (h : gpioIsValidOutputGpio pin = true) :
    0 ≤ pin ∧ pin < 64 := by
  simp only [gpioIsValidOutputGpio, Bool.and_eq_true, decide_eq_true_eq] at h
  have hlt := BitVec.lt_of_getLsbD h.2
  omega

theorem lastLevel_gpioSetLevel_self {gpio : Gpio} {pin : ℤ} {level : ℕ}
    (h : gpioIsValidOutputGpio pin = true) :
    lastLevel (gpioSetLevel gpio pin level) pin = some level := by
  rw [gpioSetLevel_valid h, lastLevel, List.lookup_cons_self]

theorem lastLevel_gpioSetLevel_ne {gpio : Gpio} {pin q : ℤ} {level : ℕ} (h : q ≠ pin) :
    lastLevel (gpioSetLevel gpio pin level) q = lastLevel gpio q := by
  unfold gpioSetLevel lastLevel
  split
  · rw [List.lookup_cons, beq_false_of_ne h]
  · rfl

end Sicae
