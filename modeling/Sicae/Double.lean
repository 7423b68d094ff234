import Mathlib.Algebra.Order.Field.Power
import Mathlib.Data.Int.Log
import Mathlib.Data.Rat.Floor
import Mathlib.Tactic.Linarith
import Mathlib.Tactic.NormNum
import Mathlib.Tactic.Positivity

/-! # Double precision

The numbers of the type `double` (IEEE 754 binary64): a sign, and a magnitude of at most 53
significant bits down to the bit `2 ^ -1074` and below `2 ^ 1024`, or an infinity.  There is a
negative zero; there is no NaN.

`nearest` rounds a rational number, ties to even.  A `double` is a fixed point of it
(`nearest_magnitude`), also if the number to round is off by less than one part in `2 ^ 54`
(`nearest_of_near`); that is why 17 decimal digits are enough to write one down. -/

namespace Binary64

/-! ### Rounding -/

/-- The nearest integer; of two as near, the even one. -/
def roundEven (x : ℚ) : ℤ :=
  let f := ⌊x⌋
  if x - f < 1 / 2 then f
  else if 1 / 2 < x - f then f + 1
  else if f % 2 = 0 then f
  else f + 1

/-- The exponent of the last bit of a number of this size. -/
def ulpExponent (x : ℚ) : ℤ := max (Int.log 2 x - 52) (-1074)

/-- The nearest multiple of the last bit. -/
def roundBits (x : ℚ) : ℚ := roundEven (x / 2 ^ ulpExponent x) * 2 ^ ulpExponent x

theorem roundEven_cases (x : ℚ) :
    (roundEven x = ⌊x⌋ ∧ x - ⌊x⌋ ≤ 1 / 2) ∨ (roundEven x = ⌊x⌋ + 1 ∧ 1 / 2 ≤ x - ⌊x⌋) := by
  unfold roundEven
  dsimp only
  split_ifs with h1 h2 h3
  · exact .inl ⟨rfl, h1.le⟩
  · exact .inr ⟨rfl, h2.le⟩
  · exact .inl ⟨rfl, not_lt.mp h2⟩
  · exact .inr ⟨rfl, not_lt.mp h1⟩

theorem abs_roundEven_sub_le (x : ℚ) : |(roundEven x : ℚ) - x| ≤ 1 / 2 := by
  have h1 := Int.floor_le x
  have h2 := Int.lt_floor_add_one x
  rcases roundEven_cases x with ⟨h, hle⟩ | ⟨h, hle⟩
  · rw [h, abs_le]
    constructor <;> linarith
  · rw [h, Int.cast_add, Int.cast_one, abs_le]
    constructor <;> linarith

/-- An integer that is nearer than one half is the nearest one. -/
theorem roundEven_of_near {x : ℚ} {n : ℤ} (h : |x - n| < 1 / 2) : roundEven x = n := by
  have h1 := abs_le.mp (abs_roundEven_sub_le x)
  have h2 := abs_lt.mp h
  have hlt : ((roundEven x - n : ℤ) : ℚ) < 1 := by
    push_cast
    linarith
  have hgt : (-1 : ℚ) < ((roundEven x - n : ℤ) : ℚ) := by
    push_cast
    linarith
  have h3 : roundEven x - n < 1 := by exact_mod_cast hlt
  have h4 : -1 < roundEven x - n := by exact_mod_cast hgt
  omega

theorem roundEven_intCast (n : ℤ) : roundEven n = n := by
  apply roundEven_of_near
  simp

/-- Rounding stays between integers. -/
theorem roundEven_le {x : ℚ} {n : ℤ} (h : x ≤ n) : roundEven x ≤ n := by
  have h1 := abs_le.mp (abs_roundEven_sub_le x)
  have hlt : (roundEven x : ℚ) < n + 1 := by linarith
  have : roundEven x < n + 1 := by exact_mod_cast hlt
  omega

theorem le_roundEven {x : ℚ} {n : ℤ} (h : n ≤ x) : n ≤ roundEven x := by
  have h1 := abs_le.mp (abs_roundEven_sub_le x)
  have hlt : (n : ℚ) - 1 < roundEven x := by linarith
  have : n - 1 < roundEven x := by exact_mod_cast hlt
  omega

theorem roundBits_nonneg {x : ℚ} (h : 0 ≤ x) : 0 ≤ roundBits x := by
  have hdiv : ((0 : ℤ) : ℚ) ≤ x / 2 ^ ulpExponent x := by
    rw [Int.cast_zero]
    positivity
  have hround : (0 : ℚ) ≤ roundEven (x / 2 ^ ulpExponent x) := by exact_mod_cast le_roundEven hdiv
  unfold roundBits
  positivity

theorem roundBits_zero : roundBits 0 = 0 := by
  have h : roundEven 0 = 0 := roundEven_intCast 0
  simp [roundBits, h]

/-- A bit is a multiple of each lower one. -/
theorem exists_zpow_eq {e f : ℤ} (h : e ≤ f) : ∃ k : ℤ, (2 : ℚ) ^ f = k * 2 ^ e := by
  obtain ⟨d, rfl⟩ := Int.le.dest h
  refine ⟨2 ^ d, ?_⟩
  rw [zpow_add₀ two_ne_zero, zpow_natCast, mul_comm]
  push_cast
  rfl

/-- A multiple of a bit that is not below the last one is not rounded. -/
theorem roundBits_of_multiple {x : ℚ} {k e : ℤ} (hx : x = k * 2 ^ e) (he : ulpExponent x ≤ e) :
    roundBits x = x := by
  obtain ⟨d, hd⟩ := exists_zpow_eq he
  have hdiv : x / 2 ^ ulpExponent x = ((k * d : ℤ) : ℚ) := by
    rw [div_eq_iff (zpow_ne_zero _ two_ne_zero), Int.cast_mul, mul_assoc, ← hd]
    exact hx
  rw [roundBits, hdiv, roundEven_intCast, ← hdiv]
  exact div_mul_cancel₀ _ (zpow_ne_zero _ two_ne_zero)

theorem log_lt_of_lt {x : ℚ} {n : ℤ} (hpos : 0 < x) (h : x < 2 ^ n) : Int.log 2 x < n :=
  (Int.lt_zpow_iff_log_lt (by decide) hpos).mp (by exact_mod_cast h)

theorem le_log_of_le {x : ℚ} {n : ℤ} (hpos : 0 < x) (h : 2 ^ n ≤ x) : n ≤ Int.log 2 x :=
  (Int.zpow_le_iff_le_log (by decide) hpos).mp (by exact_mod_cast h)

theorem two_zpow_log_le {x : ℚ} (hpos : 0 < x) : 2 ^ Int.log 2 x ≤ x := by
  exact_mod_cast Int.zpow_log_le_self (by decide) hpos

theorem lt_two_zpow_log (x : ℚ) : x < 2 ^ (Int.log 2 x + 1) := by
  exact_mod_cast Int.lt_zpow_succ_log_self (by decide) x

/-- 53 bits are not rounded. -/
theorem roundBits_of_digits {k e : ℤ} (hk : 0 ≤ k) (hlt : k ≤ 2 ^ 53) (he : -1074 ≤ e) :
    roundBits (k * 2 ^ e) = k * 2 ^ e := by
  rcases hk.eq_or_lt with rfl | hpos
  · simp [roundBits_zero]
  have hq : (0 : ℚ) < k := by exact_mod_cast hpos
  have hx : (0 : ℚ) < k * 2 ^ e := by positivity
  rcases hlt.eq_or_lt with rfl | hlt
  · -- the power of two above them has a single bit
    have hpow : ((2 ^ 53 : ℤ) : ℚ) * 2 ^ e = 2 ^ (e + 53) := by
      rw [zpow_add₀ two_ne_zero, mul_comm]
      norm_num
    have hone : (2 : ℚ) ^ (e + 53) = ((1 : ℤ) : ℚ) * 2 ^ (e + 53) := by simp
    rw [hpow] at hx ⊢
    refine roundBits_of_multiple hone ?_
    have hlog := log_lt_of_lt hx (zpow_lt_zpow_right₀ one_lt_two (show e + 53 < e + 54 by omega))
    unfold ulpExponent
    omega
  · refine roundBits_of_multiple rfl ?_
    have hbound : (k : ℚ) * 2 ^ e < 2 ^ (e + 53) := by
      have hk' : (k : ℚ) < 2 ^ 53 := by exact_mod_cast hlt
      have hmul := mul_lt_mul_of_pos_right hk' (zpow_pos two_pos e)
      rw [zpow_add₀ two_ne_zero, mul_comm (2 ^ e)]
      exact_mod_cast hmul
    have hlog := log_lt_of_lt hx hbound
    unfold ulpExponent
    omega

/-- A rounded number is not rounded again. -/
theorem roundBits_roundBits {x : ℚ} (h : 0 ≤ x) : roundBits (roundBits x) = roundBits x := by
  have hdiv : ((0 : ℤ) : ℚ) ≤ x / 2 ^ ulpExponent x := by
    rw [Int.cast_zero]
    positivity
  have hlt : x / 2 ^ ulpExponent x ≤ ((2 ^ 53 : ℤ) : ℚ) := by
    have hup : Int.log 2 x + 1 ≤ 53 + ulpExponent x := by
      unfold ulpExponent
      omega
    have hle : x ≤ 2 ^ (53 + ulpExponent x) :=
      (lt_two_zpow_log x).le.trans (zpow_le_zpow_right₀ one_le_two hup)
    rw [zpow_add₀ two_ne_zero] at hle
    rw [div_le_iff₀ (zpow_pos two_pos _)]
    exact_mod_cast hle
  exact roundBits_of_digits (le_roundEven hdiv) (roundEven_le hlt) (le_max_right _ _)

/-- A natural number below `2 ^ 53` is not rounded. -/
theorem roundBits_natCast {n : ℕ} (h : n < 2 ^ 53) : roundBits n = n := by
  have hk : (n : ℤ) ≤ 2 ^ 53 := by exact_mod_cast h.le
  have hdigits := roundBits_of_digits (Int.natCast_nonneg n) hk (show (-1074 : ℤ) ≤ 0 by decide)
  rwa [zpow_zero, mul_one, Int.cast_natCast] at hdigits

/-- A number that needs no rounding is a multiple of its last bit. -/
theorem exists_multiple {x : ℚ} (h : roundBits x = x) : ∃ k : ℤ, x = k * 2 ^ ulpExponent x :=
  ⟨_, h.symm⟩

/-- It is not below it, unless it is zero. -/
theorem zpow_ulpExponent_le {x : ℚ} (h : roundBits x = x) (hpos : 0 < x) :
    2 ^ ulpExponent x ≤ x := by
  obtain ⟨k, hk⟩ := exists_multiple h
  have hu : (0 : ℚ) < 2 ^ ulpExponent x := zpow_pos two_pos _
  have hkpos : 0 < k := by
    have : (0 : ℚ) < k * 2 ^ ulpExponent x := hk ▸ hpos
    exact_mod_cast pos_of_mul_pos_left this hu.le
  have h1 : (1 : ℚ) ≤ k := by exact_mod_cast hkpos
  calc (2 : ℚ) ^ ulpExponent x = 1 * 2 ^ ulpExponent x := (one_mul _).symm
    _ ≤ k * 2 ^ ulpExponent x := mul_le_mul_of_nonneg_right h1 hu.le
    _ = x := hk.symm

/-- What is less than a part in `2 ^ 54` away has no higher leading bit. -/
theorem log_le_of_near {x y : ℚ} (hx : roundBits x = x) (hpos : 0 < x)
    (hnear : |y - x| ≤ y / 2 ^ 54) : Int.log 2 y ≤ Int.log 2 x := by
  obtain ⟨k, hk⟩ := exists_multiple hx
  by_contra hlog
  have hu : (0 : ℚ) < 2 ^ ulpExponent x := zpow_pos two_pos _
  have hpow : (0 : ℚ) < 2 ^ (Int.log 2 x + 1) := zpow_pos two_pos _
  have hypos : 0 < y := by
    have := (abs_le.mp hnear).1
    linarith
  have hy : (2 : ℚ) ^ (Int.log 2 x + 1) ≤ y :=
    (zpow_le_zpow_right₀ one_le_two (by omega)).trans (two_zpow_log_le hypos)
  -- the next power of two is a multiple of the last bit of `x` as well
  have hle : ulpExponent x ≤ Int.log 2 x := le_log_of_le hpos (zpow_ulpExponent_le hx hpos)
  obtain ⟨d, htop⟩ := exists_zpow_eq (show ulpExponent x ≤ Int.log 2 x + 1 by omega)
  have hgap : x + 2 ^ ulpExponent x ≤ 2 ^ (Int.log 2 x + 1) := by
    have hlt : (k : ℚ) * 2 ^ ulpExponent x < d * 2 ^ ulpExponent x := by
      rw [← hk, ← htop]
      exact lt_two_zpow_log x
    have hkd : k + 1 ≤ d := by exact_mod_cast lt_of_mul_lt_mul_right hlt hu.le
    have hcast : (k : ℚ) + 1 ≤ d := by exact_mod_cast hkd
    calc x + 2 ^ ulpExponent x = (k + 1) * 2 ^ ulpExponent x := by rw [add_mul, ← hk, one_mul]
      _ ≤ d * 2 ^ ulpExponent x := mul_le_mul_of_nonneg_right hcast hu.le
      _ = 2 ^ (Int.log 2 x + 1) := htop.symm
  have hulp : (2 : ℚ) ^ (Int.log 2 x + 1) / 2 ^ 53 ≤ 2 ^ ulpExponent x := by
    have hle : Int.log 2 x + 1 - 53 ≤ ulpExponent x := by
      unfold ulpExponent
      omega
    have hmono := zpow_le_zpow_right₀ (one_le_two (α := ℚ)) hle
    rw [zpow_sub₀ two_ne_zero] at hmono
    exact_mod_cast hmono
  have hfar := (abs_le.mp hnear).2
  linarith

/-- **What is less than a part in `2 ^ 54` away** is rounded to the number. -/
theorem roundBits_of_near {x y : ℚ} (hx : roundBits x = x) (hpos : 0 < x)
    (hnear : |y - x| ≤ y / 2 ^ 54) : roundBits y = x := by
  obtain ⟨k, hk⟩ := exists_multiple hx
  have hlog := log_le_of_near hx hpos hnear
  have hle : ulpExponent y ≤ ulpExponent x := by
    unfold ulpExponent
    omega
  obtain ⟨d, hd⟩ := exists_zpow_eq hle
  have hu : (0 : ℚ) < 2 ^ ulpExponent y := zpow_pos two_pos _
  have hmul : x = ((k * d : ℤ) : ℚ) * 2 ^ ulpExponent y := by
    rw [Int.cast_mul, mul_assoc, ← hd]
    exact hk
  have hround : roundEven (y / 2 ^ ulpExponent y) = k * d := by
    refine roundEven_of_near ?_
    have hsub : y / 2 ^ ulpExponent y - ((k * d : ℤ) : ℚ) = (y - x) / 2 ^ ulpExponent y := by
      rw [sub_div]
      congr 1
      rw [eq_div_iff hu.ne', ← hmul]
    have hup : Int.log 2 y + 1 ≤ 53 + ulpExponent y := by
      unfold ulpExponent
      omega
    have hy : y < 2 ^ 53 * 2 ^ ulpExponent y := by
      have := (lt_two_zpow_log y).trans_le (zpow_le_zpow_right₀ one_le_two hup)
      rw [zpow_add₀ two_ne_zero] at this
      exact_mod_cast this
    rw [hsub, abs_div, abs_of_pos hu, div_lt_iff₀ hu]
    linarith
  rw [roundBits, hround, ← hmul]

/-! ### The type -/

/-- A finite magnitude. -/
@[ext]
structure Magnitude where
  val : ℚ
  nonneg : 0 ≤ val
  rounded : roundBits val = val
  lt : val < 2 ^ 1024
deriving DecidableEq

/-- A `double` that is a number. -/
inductive Double where
  | finite (negative : Bool) (magnitude : Magnitude)
  | infinite (negative : Bool)
deriving DecidableEq

/-- The least magnitude. -/
theorem Magnitude.zpow_le {m : Magnitude} (h : 0 < m.val) : 2 ^ (-1074 : ℤ) ≤ m.val :=
  (zpow_le_zpow_right₀ one_le_two (le_max_right _ _)).trans (zpow_ulpExponent_le m.rounded h)

/-- A number with its sign. -/
def signed (negative : Bool) (x : ℚ) : ℚ := if negative then -x else x

@[simp] theorem abs_signed (negative : Bool) (x : ℚ) : |signed negative x| = |x| := by
  cases negative <;> simp [signed]

/-- The magnitude nearest to a number, if there is one. -/
def Magnitude.round (x : ℚ) (h : roundBits |x| < 2 ^ 1024) : Magnitude where
  val := roundBits |x|
  nonneg := roundBits_nonneg (abs_nonneg x)
  rounded := roundBits_roundBits (abs_nonneg x)
  lt := h

/-- A sign with the magnitude nearest to a number. -/
def nearest (negative : Bool) (x : ℚ) : Double :=
  if h : roundBits |x| < 2 ^ 1024 then .finite negative (.round x h) else .infinite negative

theorem nearest_eq {negative : Bool} {x : ℚ} {m : Magnitude} (h : roundBits |x| = m.val) :
    nearest negative x = .finite negative m := by
  obtain ⟨val, _, _, hlt⟩ := m
  subst h
  exact dif_pos hlt

/-- Only the magnitude of the number counts. -/
theorem nearest_abs (negative : Bool) (x : ℚ) : nearest negative |x| = nearest negative x := by
  have hround : roundBits |(|x|)| = roundBits |x| := by rw [abs_abs]
  by_cases h : roundBits |x| < 2 ^ 1024
  · have hround' : roundBits |(|x|)| = (Magnitude.round x h).val := hround
    rw [nearest_eq hround', nearest, dif_pos h]
  · have h' : ¬ roundBits |(|x|)| < 2 ^ 1024 := by rwa [hround]
    rw [nearest, nearest, dif_neg h, dif_neg h']

/-- A magnitude is nearest to itself. -/
theorem nearest_magnitude (negative : Bool) (m : Magnitude) :
    nearest negative m.val = .finite negative m :=
  nearest_eq (by rw [abs_of_nonneg m.nonneg, m.rounded])

/-- **A magnitude is nearest to what is less than a part in `2 ^ 54` away.** -/
theorem nearest_of_near {negative : Bool} {m : Magnitude} (hpos : 0 < m.val) {y : ℚ} (hy : 0 ≤ y)
    (hnear : |y - m.val| ≤ y / 2 ^ 54) : nearest negative y = .finite negative m :=
  nearest_eq (by rw [abs_of_nonneg hy, roundBits_of_near m.rounded hpos hnear])

/-- An integer as a `double`. -/
def Double.ofInt (n : ℤ) : Double := nearest (n < 0) n

/-- A natural number below `2 ^ 53` as a magnitude. -/
def Magnitude.ofNat (n : ℕ) (h : n < 2 ^ 53) : Magnitude where
  val := n
  nonneg := Nat.cast_nonneg n
  rounded := roundBits_natCast h
  lt := by
    have : (n : ℚ) < 2 ^ 53 := by exact_mod_cast h
    exact this.trans (pow_lt_pow_right₀ one_lt_two (by decide))

theorem Double.ofInt_eq {n : ℤ} (h : n.natAbs < 2 ^ 53) :
    Double.ofInt n = .finite (n < 0) (.ofNat n.natAbs h) := by
  refine nearest_eq ?_
  have habs : |(n : ℚ)| = n.natAbs := by rw [Nat.cast_natAbs, Int.cast_abs]
  rw [habs]
  exact roundBits_natCast h

end Binary64
