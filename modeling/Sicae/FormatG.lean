import Mathlib.Data.List.DropRight
import Mathlib.Tactic.Ring
import Sicae.Strtod

/-! # Numbers printed by `%g`

The conversions `%d` and `%.<precision>g` of `<stdio.h>`, and that `strtod` reads back what they
print:

* `%g` rounds to significant decimal digits, ties to even (`Scientific`), lays them out with a
  point or an exponent, and drops the last zeros;
* what is read back is the `double` nearest to the rounded number (`strtod_formatG`), which for 17
  digits is the number itself (`nearest_roundDigits`);
* a number printed by `%d` is read back (`strtod_decimal`);
* the text has at most seven characters more than digits (`length_formatG_le`). -/

namespace CString

open Binary64

/-! ### Significant digits -/

/-- A decimal number with `mantissa` as its digits and a point behind the first of them, times a
power of ten. -/
structure Scientific where
  mantissa : ℕ
  exponent : ℤ

/-- The nearest number with `k` digits behind the first one. -/
def scientific (k : ℕ) (x : ℚ) : Scientific :=
  let e := Int.log 10 x
  let m := (roundEven (x / 10 ^ (e - k))).toNat
  if m = 10 ^ (k + 1) then ⟨10 ^ k, e + 1⟩ else ⟨m, e⟩

/-- A number rounded to `k` digits behind the first one. -/
def roundDigits (k : ℕ) (x : ℚ) : ℚ :=
  (scientific k x).mantissa * 10 ^ ((scientific k x).exponent - k)

/-! ### Texts -/

/-- The text of a sign. -/
def signText (negative : Bool) : CStr := if negative then ['-'] else []

/-- The text of a fraction, without its last zeros, and without the point if nothing is left. -/
def fractionText (ds : CStr) : CStr :=
  let kept := ds.rdropWhile (· = '0')
  if kept = [] then [] else '.' :: kept

/-- The digits of a number with a point behind the first ones. -/
def pointed (k : ℕ) (ds : CStr) : CStr := ds.take k ++ fractionText (ds.drop k)

/-- An exponent of at least two digits. -/
def exponentText (e : ℤ) : CStr :=
  'e' :: (if e < 0 then '-' else '+') :: Codec.zeroPadded 2 (Nat.toDigits 10 e.natAbs)

/-- The layout of `%g`, with `k` digits behind the first one. -/
def scientificText (k : ℕ) (s : Scientific) : CStr :=
  let ds := Nat.toDigits 10 s.mantissa
  if -4 ≤ s.exponent ∧ s.exponent ≤ k then
    pointed (s.exponent.toNat + 1) (List.replicate (-s.exponent).toNat '0' ++ ds)
  else pointed 1 ds ++ exponentText s.exponent

/-- `%.<precision>g`. -/
def formatG (precision : ℕ) : Double → CStr
  | .finite negative m =>
      signText negative ++ scientificText (precision - 1) (scientific (precision - 1) m.val)
  | .infinite negative => signText negative ++ "inf".toList

/-! ### Rounding to significant digits -/

theorem ten_zpow_log_le {x : ℚ} (hpos : 0 < x) : 10 ^ Int.log 10 x ≤ x := by
  exact_mod_cast Int.zpow_log_le_self (by decide) hpos

theorem lt_ten_zpow_log (x : ℚ) : x < 10 ^ (Int.log 10 x + 1) := by
  exact_mod_cast Int.lt_zpow_succ_log_self (by decide) x

/-- The digits of a positive number before the rounding. -/
theorem div_bounds {x : ℚ} (hpos : 0 < x) (k : ℕ) :
    ((10 ^ k : ℤ) : ℚ) ≤ x / 10 ^ (Int.log 10 x - k) ∧
      x / 10 ^ (Int.log 10 x - k) ≤ ((10 ^ (k + 1) : ℤ) : ℚ) := by
  have hunit : (0 : ℚ) < 10 ^ (Int.log 10 x - k) := by positivity
  have hpow : ∀ j : ℕ, ((10 ^ j : ℤ) : ℚ) * 10 ^ (Int.log 10 x - k) =
      10 ^ (Int.log 10 x - k + j) := by
    intro j
    rw [zpow_add₀ (by norm_num), zpow_natCast, mul_comm]
    push_cast
    rfl
  rw [le_div_iff₀ hunit, div_le_iff₀ hunit, hpow, hpow]
  constructor
  · rw [sub_add_cancel]
    exact ten_zpow_log_le hpos
  · have he : Int.log 10 x - k + (k + 1 : ℕ) = Int.log 10 x + 1 := by
      push_cast
      ring
    rw [he]
    exact (lt_ten_zpow_log x).le

/-- What `scientific` returns for a positive number. -/
theorem scientific_spec {x : ℚ} (hpos : 0 < x) (k : ℕ) :
    10 ^ k ≤ (scientific k x).mantissa ∧ (scientific k x).mantissa < 10 ^ (k + 1) ∧
      ((scientific k x).exponent = Int.log 10 x ∨ (scientific k x).exponent = Int.log 10 x + 1) ∧
      roundDigits k x =
        roundEven (x / 10 ^ (Int.log 10 x - k)) * 10 ^ (Int.log 10 x - k) := by
  obtain ⟨hlow, hup⟩ := div_bounds hpos k
  have h1 := le_roundEven hlow
  have h2 := roundEven_le hup
  have hnat : ((roundEven (x / 10 ^ (Int.log 10 x - k))).toNat : ℤ) =
      roundEven (x / 10 ^ (Int.log 10 x - k)) :=
    Int.toNat_of_nonneg (le_trans (by positivity) h1)
  rw [← hnat] at h1 h2
  have h1' : 10 ^ k ≤ (roundEven (x / 10 ^ (Int.log 10 x - k))).toNat := by exact_mod_cast h1
  have h2' : (roundEven (x / 10 ^ (Int.log 10 x - k))).toNat ≤ 10 ^ (k + 1) := by exact_mod_cast h2
  have hcast : ((roundEven (x / 10 ^ (Int.log 10 x - k))).toNat : ℚ) =
      roundEven (x / 10 ^ (Int.log 10 x - k)) := by exact_mod_cast congrArg (Int.cast : ℤ → ℚ) hnat
  unfold roundDigits scientific
  dsimp only
  split_ifs with hcarry
  · refine ⟨le_rfl, Nat.pow_lt_pow_right (by decide) (Nat.lt_succ_self k), .inr rfl, ?_⟩
    rw [← hcast, hcarry]
    push_cast
    rw [pow_succ, mul_assoc, ← zpow_one_add₀ (by norm_num)]
    congr 2
    ring
  · refine ⟨h1', lt_of_le_of_ne h2' hcarry, .inl rfl, ?_⟩
    rw [hcast]

theorem abs_roundDigits_sub_le {x : ℚ} (hpos : 0 < x) (k : ℕ) :
    |roundDigits k x - x| ≤ 10 ^ (Int.log 10 x - k) / 2 := by
  have hunit : (0 : ℚ) < 10 ^ (Int.log 10 x - k) := by positivity
  have hround := abs_roundEven_sub_le (x / 10 ^ (Int.log 10 x - k))
  have hsub : roundDigits k x - x = (roundEven (x / 10 ^ (Int.log 10 x - k)) -
      x / 10 ^ (Int.log 10 x - k)) * 10 ^ (Int.log 10 x - k) := by
    rw [(scientific_spec hpos k).2.2.2, sub_mul, div_mul_cancel₀ _ hunit.ne']
  rw [hsub, abs_mul, abs_of_pos hunit]
  have := mul_le_mul_of_nonneg_right hround hunit.le
  linarith

theorem zpow_le_roundDigits {x : ℚ} (hpos : 0 < x) (k : ℕ) :
    10 ^ Int.log 10 x ≤ roundDigits k x := by
  have hunit : (0 : ℚ) < 10 ^ (Int.log 10 x - k) := by positivity
  have hround : ((10 ^ k : ℤ) : ℚ) ≤ roundEven (x / 10 ^ (Int.log 10 x - k)) := by
    exact_mod_cast le_roundEven (div_bounds hpos k).1
  calc (10 : ℚ) ^ Int.log 10 x = ((10 ^ k : ℤ) : ℚ) * 10 ^ (Int.log 10 x - k) := by
        push_cast
        rw [← zpow_natCast, ← zpow_add₀ (by norm_num)]
        congr 1
        ring
    _ ≤ roundEven (x / 10 ^ (Int.log 10 x - k)) * 10 ^ (Int.log 10 x - k) :=
        mul_le_mul_of_nonneg_right hround hunit.le
    _ = roundDigits k x := (scientific_spec hpos k).2.2.2.symm

/-- **17 digits are near enough** to tell a `double` from the others. -/
theorem nearest_roundDigits {negative : Bool} {m : Magnitude} (hpos : 0 < m.val) :
    nearest negative (roundDigits 16 m.val) = .finite negative m := by
  have hlow := zpow_le_roundDigits hpos 16
  have hnear := abs_roundDigits_sub_le hpos 16
  have hunit : (0 : ℚ) < 10 ^ Int.log 10 m.val := by positivity
  refine nearest_of_near hpos (hunit.le.trans hlow) (hnear.trans ?_)
  rw [zpow_sub₀ (by norm_num)]
  norm_num
  linarith

theorem roundDigits_zero (k : ℕ) : roundDigits k 0 = 0 := by
  have hround : roundEven 0 = 0 := roundEven_intCast 0
  have hcarry : ¬ (0 = 10 ^ (k + 1)) := (pow_pos (by decide) _).ne
  simp [roundDigits, scientific, hround, hcarry]

/-- A natural number is not rounded to more digits than it has. -/
theorem roundDigits_natCast {k n : ℕ} (h : n < 10 ^ (k + 1)) : roundDigits k (n : ℚ) = n := by
  rcases Nat.eq_zero_or_pos n with rfl | hpos
  · rw [Nat.cast_zero, roundDigits_zero]
  have hq : (0 : ℚ) < n := by exact_mod_cast hpos
  have hlog : Int.log 10 (n : ℚ) ≤ k := by
    have hlt : (n : ℚ) < ((10 : ℕ) : ℚ) ^ ((k + 1 : ℕ) : ℤ) := by
      rw [zpow_natCast]
      exact_mod_cast h
    have := (Int.lt_zpow_iff_log_lt (by decide) hq).mp hlt
    omega
  obtain ⟨d, hd⟩ := Int.le.dest hlog
  have he : Int.log 10 (n : ℚ) - k = -(d : ℤ) := by omega
  have hdiv : (n : ℚ) / 10 ^ (-(d : ℤ)) = ((n * 10 ^ d : ℕ) : ℤ) := by
    rw [zpow_neg, div_inv_eq_mul, zpow_natCast]
    push_cast
    rfl
  rw [(scientific_spec hq k).2.2.2, he, hdiv, roundEven_intCast, ← hdiv]
  exact div_mul_cancel₀ _ (zpow_ne_zero _ (by norm_num))

/-- The exponent of a `double` has three digits at most. -/
theorem natAbs_exponent_le {m : Magnitude} (hpos : 0 < m.val) (k : ℕ) :
    (scientific k m.val).exponent.natAbs < 1000 := by
  have hup : Int.log 10 m.val < 309 := by
    have hpow : (2 : ℚ) ^ 1024 ≤ 10 ^ 309 := by
      exact_mod_cast (by decide +kernel : 2 ^ 1024 ≤ 10 ^ 309)
    exact (Int.lt_zpow_iff_log_lt (by decide) hpos).mp (m.lt.trans_le (by exact_mod_cast hpow))
  have hlow : -324 ≤ Int.log 10 m.val := by
    have hpow : (2 : ℚ) ^ 1074 ≤ 10 ^ 324 := by
      exact_mod_cast (by decide +kernel : 2 ^ 1074 ≤ 10 ^ 324)
    have hinv : (10 : ℚ) ^ (-324 : ℤ) ≤ 2 ^ (-1074 : ℤ) := by
      rw [zpow_neg, zpow_neg]
      exact inv_anti₀ (by positivity) (by exact_mod_cast hpow)
    exact (Int.zpow_le_iff_le_log (by decide) hpos).mp
      (le_trans (by exact_mod_cast hinv) (Magnitude.zpow_le hpos))
  rcases (scientific_spec hpos k).2.2.1 with h | h <;> omega

/-- The digits are as many as asked for. -/
theorem length_mantissa {x : ℚ} (hpos : 0 < x) (k : ℕ) :
    (Nat.toDigits 10 (scientific k x).mantissa).length = k + 1 := by
  obtain ⟨hlow, hup, -⟩ := scientific_spec hpos k
  have hle := (Nat.length_toDigits_le_iff (by decide) (Nat.succ_pos k)).mpr hup
  have hpos' := @Nat.length_toDigits_pos 10 (scientific k x).mantissa
  rcases Nat.eq_zero_or_pos k with rfl | hk
  · omega
  · have hgt : ¬ (Nat.toDigits 10 (scientific k x).mantissa).length ≤ k := fun h =>
      absurd ((Nat.length_toDigits_le_iff (by decide) hk).mp h) (not_lt.mpr hlow)
    omega

/-! ### Reading the parts -/

/-- A digit behind an optional minus. -/
theorem signOf_signText (negative : Bool) {c : Char} (hc : c.isDigit = true) (s : CStr) :
    signOf (signText negative ++ c :: s) = (negative, c :: s) := by
  cases negative
  · show signOf (c :: s) = _
    unfold signOf
    split
    · rename_i h
      cases h
      exact absurd hc (by decide)
    · rename_i h
      cases h
      exact absurd hc (by decide)
    · rfl
  · rfl

theorem fractionOf_fractionText {ds tail : CStr} (hd : ∀ c ∈ ds, c.isDigit = true)
    (ht : Codec.Stops (fun c => c.isDigit || c = '.') tail) :
    fractionOf (fractionText ds ++ tail) = (ds.rdropWhile (· = '0'), tail) := by
  have hstop : Codec.Stops Char.isDigit tail := fun c hc => (Bool.or_eq_false_iff.mp (ht c hc)).1
  unfold fractionText
  dsimp only
  split_ifs with hkept
  · rw [hkept, List.nil_append]
    unfold fractionOf
    split
    · exact absurd (Codec.stops_cons.mp ht) (by decide)
    · rfl
  · have hall : ∀ c ∈ ds.rdropWhile (· = '0'), c.isDigit = true := fun c hc =>
      hd c ((List.rdropWhile_prefix _ ds).subset hc)
    rw [List.cons_append, fractionOf, Codec.takeWhile_append_stops hall hstop,
      Codec.dropWhile_append_stops hall hstop]

/-- Zeros behind digits shift them. -/
theorem ofDigitChars_append_rdropWhile (whole ds : CStr) :
    ∃ z, ds.length = (ds.rdropWhile (· = '0')).length + z ∧
      Nat.ofDigitChars 10 (whole ++ ds) 0 =
        Nat.ofDigitChars 10 (whole ++ ds.rdropWhile (· = '0')) 0 * 10 ^ z := by
  have hsplit : ds = ds.rdropWhile (· = '0') ++ ds.rtakeWhile (· = '0') :=
    List.rdropWhile_append_rtakeWhile.symm
  have hzeros : ds.rtakeWhile (· = '0') =
      List.replicate (ds.rtakeWhile (· = '0')).length '0' :=
    List.eq_replicate_iff.mpr ⟨rfl, fun c hc => by simpa using List.mem_rtakeWhile_imp hc⟩
  refine ⟨(ds.rtakeWhile (· = '0')).length, ?_, ?_⟩
  · rw [← List.length_append, ← hsplit]
  · conv_lhs => rw [hsplit, ← List.append_assoc, Nat.ofDigitChars_append, hzeros,
      Nat.ofDigitChars_replicate_zero]
    rw [Nat.mul_comm]

/-- **The digits of a number are read** with their point and what is read as an exponent. -/
theorem strtod_pointed {negative : Bool} {ds tail rest : CStr} {k : ℕ} {e : ℤ}
    (hd : ∀ c ∈ ds, c.isDigit = true) (hk : 0 < k) (hle : k ≤ ds.length)
    (ht : Codec.Stops (fun c => c.isDigit || c = '.') tail) (he : exponentOf tail = (e, rest)) :
    strtod (signText negative ++ (pointed k ds ++ tail)) =
      some (nearest negative (Nat.ofDigitChars 10 ds 0 * 10 ^ (e - (ds.length - k : ℕ))), rest) := by
  have htake : ∀ c ∈ ds.take k, c.isDigit = true := fun c hc => hd c (List.mem_of_mem_take hc)
  have hdrop : ∀ c ∈ ds.drop k, c.isDigit = true := fun c hc => hd c (List.mem_of_mem_drop hc)
  have hne : ds.take k ≠ [] := by
    rw [← List.length_pos_iff, List.length_take]
    omega
  have hsign : signOf (signText negative ++ (pointed k ds ++ tail)) =
      (negative, ds.take k ++ (fractionText (ds.drop k) ++ tail)) := by
    obtain ⟨c, s, hc⟩ := List.exists_cons_of_ne_nil hne
    rw [pointed, List.append_assoc, hc]
    exact signOf_signText negative (htake c (hc ▸ List.mem_cons_self)) _
  have hstop : Codec.Stops Char.isDigit (fractionText (ds.drop k) ++ tail) := by
    unfold fractionText
    dsimp only
    split_ifs
    · exact fun c hc => (Bool.or_eq_false_iff.mp (ht c hc)).1
    · exact Codec.stops_cons.mpr (by decide)
  obtain ⟨z, hlen, hvalue⟩ := ofDigitChars_append_rdropWhile (ds.take k) (ds.drop k)
  rw [List.take_append_drop] at hvalue
  rw [List.length_drop] at hlen
  unfold strtod
  simp only [hsign, Codec.takeWhile_append_stops htake hstop,
    Codec.dropWhile_append_stops htake hstop, fractionOf_fractionText hdrop ht, he, hne, false_and,
    if_false]
  rw [hvalue, hlen]
  push_cast
  have hshift : (10 : ℚ) ^ z * 10 ^ (e - (((ds.drop k).rdropWhile (· = '0')).length + z : ℤ)) =
      10 ^ (e - ((ds.drop k).rdropWhile (· = '0')).length) := by
    rw [← zpow_natCast, ← zpow_add₀ (by norm_num)]
    congr 1
    omega
  rw [mul_assoc, hshift]

theorem isDigit_of_mem_digits {n : ℕ} {c : Char} (h : c ∈ Nat.toDigits 10 n) : c.isDigit = true :=
  Nat.isDigit_of_mem_toDigits (by decide) (by decide) h

theorem isDigit_of_mem_zeros {z : ℕ} {ds : CStr} (hd : ∀ c ∈ ds, c.isDigit = true) :
    ∀ c ∈ List.replicate z '0' ++ ds, c.isDigit = true := by
  intro c hc
  rcases List.mem_append.mp hc with hc | hc
  · rw [List.eq_of_mem_replicate hc]
    rfl
  · exact hd c hc

/-- Zeros in front of digits do not count. -/
theorem ofDigitChars_zeros (z n : ℕ) :
    Nat.ofDigitChars 10 (List.replicate z '0' ++ Nat.toDigits 10 n) 0 = n := by
  rw [Nat.ofDigitChars_append, Nat.ofDigitChars_replicate_zero, Nat.mul_zero,
    Nat.ofDigitChars_ten_toDigits]

/-- An exponent is read back. -/
theorem exponentOf_exponentText {e : ℤ} (he : e.natAbs ≤ 19999) {rest : CStr}
    (hr : Codec.Stops isNumberTail rest) : exponentOf (exponentText e ++ rest) = (e, rest) := by
  have hstop : Codec.Stops Char.isDigit rest := fun c hc => isDigit_false_of_isNumberTail (hr c hc)
  have hd : ∀ c ∈ Codec.zeroPadded 2 (Nat.toDigits 10 e.natAbs), c.isDigit = true :=
    isDigit_of_mem_zeros fun c hc => isDigit_of_mem_digits hc
  have hne : Codec.zeroPadded 2 (Nat.toDigits 10 e.natAbs) ≠ [] := by
    simp [Codec.zeroPadded, Nat.toDigits_ne_nil]
  have htake := Codec.takeWhile_append_stops hd hstop
  have hvalue : leadingNat (Codec.zeroPadded 2 (Nat.toDigits 10 e.natAbs) ++ rest) = e.natAbs := by
    rw [leadingNat, htake]
    exact ofDigitChars_zeros _ _
  have hsign : signOf ((if e < 0 then '-' else '+') ::
      (Codec.zeroPadded 2 (Nat.toDigits 10 e.natAbs) ++ rest)) =
        (decide (e < 0), Codec.zeroPadded 2 (Nat.toDigits 10 e.natAbs) ++ rest) := by
    by_cases hneg : e < 0
    · simp [hneg, signOf]
    · simp [hneg, signOf]
  have hmin : min (e.natAbs : ℤ) 19999 = e.natAbs := by omega
  simp only [exponentText, List.cons_append, exponentOf, hsign, htake, hvalue, hne, hmin,
    Codec.dropWhile_append_stops hd hstop, ne_eq, not_false_eq_true, true_or, and_self, if_true,
    decide_eq_true_eq, Prod.mk.injEq, and_true]
  split_ifs <;> omega

/-- What may stand behind the digits of a number and their point. -/
theorem stops_of_isNumberTail {rest : CStr} (hr : Codec.Stops isNumberTail rest) :
    Codec.Stops (fun c => c.isDigit || c = '.') rest := fun c hc => by
  have h := hr c hc
  simp only [isNumberTail, Bool.or_eq_false_iff] at h ⊢
  exact h.1.1

/-- **The layout of `%g` is read back.** -/
theorem strtod_scientificText {negative : Bool} {k : ℕ} {s : Scientific}
    (hlen : (Nat.toDigits 10 s.mantissa).length = k + 1) (he : s.exponent.natAbs ≤ 19999)
    {rest : CStr} (hr : Codec.Stops isNumberTail rest) :
    strtod (signText negative ++ (scientificText k s ++ rest)) =
      some (nearest negative (s.mantissa * 10 ^ (s.exponent - k)), rest) := by
  have hd : ∀ c ∈ Nat.toDigits 10 s.mantissa, c.isDigit = true := fun c hc =>
    isDigit_of_mem_digits hc
  unfold scientificText
  dsimp only
  split_ifs with hfixed
  · have hlength : (List.replicate (-s.exponent).toNat '0' ++ Nat.toDigits 10 s.mantissa).length =
        (-s.exponent).toNat + (k + 1) := by
      rw [List.length_append, List.length_replicate, hlen]
    rw [strtod_pointed (isDigit_of_mem_zeros hd) (Nat.succ_pos _) (by omega)
      (stops_of_isNumberTail hr) (exponentOf_of_stops hr), ofDigitChars_zeros, hlength]
    have hshift : (0 : ℤ) - ((-s.exponent).toNat + (k + 1) - (s.exponent.toNat + 1) : ℕ) =
        s.exponent - k := by omega
    rw [hshift]
  · have htail : Codec.Stops (fun c => c.isDigit || c = '.') (exponentText s.exponent ++ rest) :=
      Codec.stops_cons.mpr (by decide)
    rw [List.append_assoc, strtod_pointed hd Nat.one_pos (by omega) htail
      (exponentOf_exponentText he hr), Nat.ofDigitChars_ten_toDigits, hlen, Nat.add_sub_cancel]

/-! ### Printed numbers -/

/-- **A number printed by `%g` is read back** rounded to the digits, up to the end of the number. -/
theorem strtod_formatG {precision : ℕ} {negative : Bool} {m : Magnitude} (hpos : 0 < m.val)
    {rest : CStr} (hr : Codec.Stops isNumberTail rest) :
    strtod (formatG precision (.finite negative m) ++ rest) =
      some (nearest negative (roundDigits (precision - 1) m.val), rest) := by
  have he := natAbs_exponent_le hpos (precision - 1)
  rw [formatG, List.append_assoc]
  exact strtod_scientificText (length_mantissa hpos _) (by omega) hr

/-- **A number printed by `%d` is read back**, up to the end of the number. -/
theorem strtod_decimal (n : ℤ) {rest : CStr} (hr : Codec.Stops isNumberTail rest) :
    strtod (decimal n ++ rest) = some (Double.ofInt n, rest) := by
  have htext : decimal n ++ rest = signText (n < 0) ++
      (pointed (Nat.toDigits 10 n.natAbs).length (Nat.toDigits 10 n.natAbs) ++ rest) := by
    have hpointed : ∀ ds, pointed ds.length ds = ds := fun ds => by
      simp [pointed, fractionText]
    rw [hpointed]
    cases n with
    | ofNat n => rfl
    | negSucc n =>
        rw [decide_eq_true (Int.negSucc_lt_zero n)]
        rfl
  rw [htext, strtod_pointed (fun c hc => isDigit_of_mem_digits hc) Nat.length_toDigits_pos le_rfl
    (stops_of_isNumberTail hr) (exponentOf_of_stops hr), Nat.ofDigitChars_ten_toDigits,
    Nat.sub_self, Nat.cast_zero, sub_zero, zpow_zero, mul_one, Double.ofInt, ← nearest_abs _ (n : ℚ),
    Nat.cast_natAbs, Int.cast_abs]

/-! ### The characters of a number -/

theorem mem_pointed {k : ℕ} {ds : CStr} (hd : ∀ c ∈ ds, c.isDigit = true) {c : Char}
    (hc : c ∈ pointed k ds) : isNumberTail c = true := by
  have hdigit : c ∈ ds → isNumberTail c = true := fun h => by simp [isNumberTail, hd c h]
  rcases List.mem_append.mp hc with hc | hc
  · exact hdigit (List.mem_of_mem_take hc)
  · unfold fractionText at hc
    dsimp only at hc
    split_ifs at hc
    · exact absurd hc List.not_mem_nil
    · rcases List.mem_cons.mp hc with rfl | hc
      · decide
      · exact hdigit (List.mem_of_mem_drop ((List.rdropWhile_prefix _ _).subset hc))

/-- The characters of a number: those that may go on one, and the signs. -/
theorem mem_formatG {precision : ℕ} {negative : Bool} {m : Magnitude} {c : Char}
    (hc : c ∈ formatG precision (.finite negative m)) :
    isNumberTail c = true ∨ c = '+' ∨ c = '-' := by
  have hd : ∀ n, ∀ c ∈ Nat.toDigits 10 n, c.isDigit = true := fun n c h => isDigit_of_mem_digits h
  rcases List.mem_append.mp hc with hc | hc
  · unfold signText at hc
    split_ifs at hc
    · exact .inr (.inr (List.mem_singleton.mp hc))
    · exact absurd hc List.not_mem_nil
  · unfold scientificText at hc
    dsimp only at hc
    split_ifs at hc
    · exact .inl (mem_pointed (isDigit_of_mem_zeros (hd _)) hc)
    · rcases List.mem_append.mp hc with hc | hc
      · exact .inl (mem_pointed (hd _) hc)
      · rcases List.mem_cons.mp hc with rfl | hc
        · exact .inl (by decide)
        · rcases List.mem_cons.mp hc with rfl | hc
          · split_ifs <;> simp
          · exact .inl (by simp [isNumberTail, isDigit_of_mem_zeros (hd _) c hc])

/-- A number starts with a minus or a digit. -/
theorem signText_pointed_cons (negative : Bool) (k : ℕ) {ds : CStr} (hne : ds ≠ [])
    (hd : ∀ c ∈ ds, c.isDigit = true) (tail : CStr) :
    ∃ c s, signText negative ++ (pointed (k + 1) ds ++ tail) = c :: s ∧
      (c = '-' ∨ c.isDigit = true) := by
  obtain ⟨c, s, rfl⟩ := List.exists_cons_of_ne_nil hne
  cases negative
  · exact ⟨c, _, rfl, .inr (hd c List.mem_cons_self)⟩
  · exact ⟨'-', _, rfl, .inl rfl⟩

theorem formatG_cons (precision : ℕ) (negative : Bool) (m : Magnitude) :
    ∃ c s, formatG precision (.finite negative m) = c :: s ∧ (c = '-' ∨ c.isDigit = true) := by
  have hd : ∀ c ∈ Nat.toDigits 10 (scientific (precision - 1) m.val).mantissa, c.isDigit = true :=
    fun c h => isDigit_of_mem_digits h
  unfold formatG scientificText
  dsimp only
  split_ifs
  · rw [← List.append_nil (pointed _ _)]
    exact signText_pointed_cons negative _
      (List.append_ne_nil_of_right_ne_nil _ Nat.toDigits_ne_nil) (isDigit_of_mem_zeros hd) []
  · exact signText_pointed_cons negative 0 Nat.toDigits_ne_nil hd _

theorem length_pointed_le (k : ℕ) (ds : CStr) : (pointed k ds).length ≤ ds.length + 1 := by
  have hkept := (List.rdropWhile_prefix (· = '0') (ds.drop k)).length_le
  rw [List.length_drop] at hkept
  unfold pointed fractionText
  dsimp only
  split_ifs
  · rw [List.append_nil, List.length_take]
    omega
  · rw [List.length_append, List.length_take, List.length_cons]
    omega

/-- The sign, the point and the exponent, or the zeros in front, are seven characters. -/
theorem length_formatG_le {precision : ℕ} (hp : 0 < precision) {negative : Bool} {m : Magnitude}
    (hpos : 0 < m.val) : (formatG precision (.finite negative m)).length ≤ precision + 7 := by
  have hlen := length_mantissa hpos (precision - 1)
  have hsign : (signText negative).length ≤ 1 := by cases negative <;> decide
  have hbody : (scientificText (precision - 1) (scientific (precision - 1) m.val)).length ≤
      precision + 6 := by
    unfold scientificText
    dsimp only
    split_ifs with hfixed
    · refine (length_pointed_le _ _).trans ?_
      rw [List.length_append, List.length_replicate, hlen]
      omega
    · have hdigits := length_pointed_le 1 (Nat.toDigits 10 (scientific (precision - 1) m.val).mantissa)
      have hexp : (Nat.toDigits 10 (scientific (precision - 1) m.val).exponent.natAbs).length ≤ 3 :=
        (Nat.length_toDigits_le_iff (by decide) (by decide)).mpr (natAbs_exponent_le hpos _)
      rw [List.length_append, exponentText, List.length_cons, List.length_cons, Codec.zeroPadded,
        List.length_append, List.length_replicate]
      omega
  rw [formatG, List.length_append]
  omega

end CString
