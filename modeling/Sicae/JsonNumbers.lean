import Sicae.JsonText

/-! # Printed numbers are read back

What `parse_number` makes of the text that `print_number` writes (`printNumber_spec`), as a
function of the number (`readBackNumber`):

* an infinity is printed as `null`, and is none any more;
* an `int` comes back, but `-0` as `0`;
* any other number is printed with 15 digits if `compare_double` takes the result for the same
  number, which it does up to a relative difference of `2 ^ -52`, and with 17 otherwise.

So a number comes back unless it is an infinity or `-0`, or 15 digits change it by less than
`compare_double` notices (`readBackNumber_eq_iff`). -/

namespace Sicae

namespace Json

open CString Codec Binary64

/-- A `double` rounded to 15 digits. -/
def shortened (negative : Bool) (m : Magnitude) : Double :=
  nearest negative (roundDigits 14 m.val)

/-- What a printed number is read as. -/
def readBackNumber : Double → Json
  | .infinite _ => null
  | .finite negative m =>
      let d : Double := .finite negative m
      if signed negative m.val = valueint d then createNumber (valueint d)
      else if compareDouble (shortened negative m) d then number (shortened negative m)
      else number d

/-- The number is neither an infinity nor `-0`, and 15 digits either keep it or change it so that
`compare_double` notices. -/
def Survives : Double → Prop
  | .infinite _ => False
  | .finite negative m =>
      ¬ (negative = true ∧ m.val = 0) ∧ (shortened negative m = .finite negative m ∨
        compareDouble (shortened negative m) (.finite negative m) = false)

/-! ### Integers -/

theorem cutToInt_range (x : ℚ) : -2 ^ 31 ≤ cutToInt x ∧ cutToInt x < 2 ^ 31 := by
  unfold cutToInt
  split_ifs with h1 h2
  · decide
  · decide
  · have hden : (0 : ℤ) < x.den := by exact_mod_cast x.den_pos
    have hx : (x.num : ℚ) / x.den = x := Rat.num_div_den x
    have hq : (0 : ℚ) < x.den := by exact_mod_cast x.den_pos
    have hup : x.num < 2147483647 * x.den := by
      have : (x.num : ℚ) < 2147483647 * x.den := by
        rw [← div_lt_iff₀ hq, hx]
        exact not_le.mp h1
      exact_mod_cast this
    have hlow : -2147483648 * (x.den : ℤ) < x.num := by
      have : (-2147483648 : ℚ) * x.den < x.num := by
        rw [← lt_div_iff₀ hq, hx]
        exact not_le.mp h2
      exact_mod_cast this
    have hmul : (x.den : ℤ) * x.num.tdiv x.den + x.num.tmod x.den = x.num :=
      Int.mul_tdiv_add_tmod _ _
    have hmod : |x.num.tmod x.den| < x.den := by
      rw [Int.abs_eq_natAbs, Int.natAbs_tmod]
      exact_mod_cast Nat.mod_lt _ x.den_pos
    obtain ⟨hm1, hm2⟩ := abs_lt.mp hmod
    constructor
    · nlinarith
    · nlinarith

theorem cutToInt_intCast {n : ℤ} (hlo : -2 ^ 31 ≤ n) (hhi : n < 2 ^ 31) : cutToInt n = n := by
  unfold cutToInt
  split_ifs with h1 h2
  · have : (2147483647 : ℤ) ≤ n := by exact_mod_cast h1
    omega
  · have : n ≤ (-2147483648 : ℤ) := by exact_mod_cast h2
    omega
  · simp

theorem valueint_range (x : Double) : -2 ^ 31 ≤ valueint x ∧ valueint x < 2 ^ 31 := by
  cases x with
  | finite negative m => exact cutToInt_range _
  | infinite negative => cases negative <;> decide

/-- An `int` as a `double`. -/
theorem exists_ofInt {n : ℤ} (hlo : -2 ^ 31 ≤ n) (hhi : n < 2 ^ 31) :
    ∃ m : Magnitude, m.val = n.natAbs ∧ Double.ofInt n = .finite (n < 0) m ∧
      signed (n < 0) m.val = n := by
  have h : n.natAbs < 2 ^ 53 := by omega
  refine ⟨.ofNat n.natAbs h, rfl, Double.ofInt_eq h, ?_⟩
  show signed _ (n.natAbs : ℚ) = n
  rw [Nat.cast_natAbs, Int.cast_abs, signed]
  by_cases hneg : n < 0
  · have hq : (n : ℚ) < 0 := by exact_mod_cast hneg
    rw [decide_eq_true hneg, if_pos rfl, abs_of_neg hq, neg_neg]
  · have hq : (0 : ℚ) ≤ n := by exact_mod_cast not_lt.mp hneg
    rw [decide_eq_false hneg, abs_of_nonneg hq]
    rfl

/-- `valueint` of an `int` is the `int`. -/
theorem valueint_ofInt {n : ℤ} (hlo : -2 ^ 31 ≤ n) (hhi : n < 2 ^ 31) :
    valueint (.ofInt n) = n := by
  obtain ⟨m, -, hm, hsigned⟩ := exists_ofInt hlo hhi
  rw [hm, valueint, hsigned, cutToInt_intCast hlo hhi]

/-- 15 digits are enough for it. -/
theorem shortened_natCast {n : ℕ} (h : n < 10 ^ 15) (negative : Bool) {m : Magnitude}
    (hm : m.val = n) : shortened negative m = .finite negative m := by
  rw [shortened, hm, roundDigits_natCast h, ← hm, nearest_magnitude]

/-! ### Texts -/

theorem isNumberChar_of_mem_decimal {n : ℤ} {c : Char} (hc : c ∈ decimal n) :
    isNumberChar c = true := by
  have hdig : ∀ m, c ∈ Nat.toDigits 10 m → isNumberChar c = true := fun m h => by
    simp [isNumberChar, isNumberTail, isDigit_of_mem_digits h]
  cases n with
  | ofNat n => exact hdig n hc
  | negSucc n =>
      rcases List.mem_cons.mp hc with rfl | hc
      · decide
      · exact hdig _ hc

theorem decimal_cons (n : ℤ) : ∃ c s, decimal n = c :: s ∧ (c = '-' ∨ c.isDigit = true) := by
  cases n with
  | ofNat n =>
      obtain ⟨c, s, he⟩ := List.exists_cons_of_ne_nil (@Nat.toDigits_ne_nil n 10)
      exact ⟨c, s, he, .inr (isDigit_of_mem_digits (he ▸ List.mem_cons_self : c ∈ Nat.toDigits 10 n))⟩
  | negSucc n => exact ⟨'-', _, rfl, .inl rfl⟩

/-- The text is a number that fits the buffers of `print_number` and `parse_number`, and it is read
as `x`. -/
structure NumberText (text : CStr) (x : Double) : Prop where
  read : strtod text = some (x, [])
  chars : ∀ c ∈ text, isNumberChar c = true
  length : text.length ≤ 25
  cons : ∃ c s, text = c :: s ∧ (c = '-' ∨ c.isDigit = true)

theorem numberText_decimal {n : ℤ} (hlo : -2 ^ 31 ≤ n) (hhi : n < 2 ^ 31) :
    NumberText (decimal n) (.ofInt n) where
  read := by
    have h := strtod_decimal n (stops_nil isNumberTail)
    rwa [List.append_nil] at h
  chars := fun _ hc => isNumberChar_of_mem_decimal hc
  length := (length_decimal_le hlo hhi).trans (by decide)
  cons := decimal_cons n

theorem numberText_formatG {precision : ℕ} (h0 : 0 < precision) (h17 : precision ≤ 17)
    (negative : Bool) {m : Magnitude} (hpos : 0 < m.val) :
    NumberText (formatG precision (.finite negative m))
      (nearest negative (roundDigits (precision - 1) m.val)) where
  read := by
    have h := @strtod_formatG precision negative m hpos [] (stops_nil isNumberTail)
    rwa [List.append_nil] at h
  chars := by
    intro c hc
    rcases mem_formatG hc with h | rfl | rfl
    · simp [isNumberChar, h]
    · decide
    · decide
  length := (length_formatG_le h0 hpos).trans (by omega)
  cons := formatG_cons precision negative m

/-- A number is read up to its end. -/
theorem NumberText.parseNumber {text : CStr} {x : Double} (h : NumberText text x) {rest : CStr}
    (hr : Stops isNumberChar rest) : parseNumber (text ++ rest) = some (x, rest) := by
  have htext : numberText (text ++ rest) = text := by
    have hlen := h.length
    rw [numberText, takeWhile_append_stops h.chars hr]
    exact List.take_of_length_le (by omega)
  rw [Json.parseNumber, htext, h.read, Option.map_some]
  simp

/-- A number that is no `int` is not zero. -/
theorem pos_of_not_int {negative : Bool} {m : Magnitude}
    (h : signed negative m.val ≠ valueint (.finite negative m)) : 0 < m.val := by
  refine lt_of_le_of_ne m.nonneg fun h0 => h ?_
  have hz : signed negative m.val = ((0 : ℤ) : ℚ) := by
    rw [← h0]
    cases negative <;> simp [signed]
  rw [valueint, hz, cutToInt_intCast (by decide) (by decide)]

/-- **What is written for a number** fits the buffer, and is read as `readBackNumber` says. -/
theorem printNumber_spec (negative : Bool) (m : Magnitude) :
    ∃ y, readBackNumber (.finite negative m) = number y ∧
      NumberText (printNumber (.finite negative m)) y := by
  unfold readBackNumber printNumber
  dsimp only
  by_cases hint : signed negative m.val = valueint (.finite negative m)
  · obtain ⟨hlo, hhi⟩ := valueint_range (.finite negative m)
    rw [if_pos hint, if_pos hint]
    exact ⟨_, rfl, numberText_decimal hlo hhi⟩
  · have hpos := pos_of_not_int hint
    have h15 : NumberText (formatG 15 (.finite negative m)) (shortened negative m) :=
      numberText_formatG (by decide) (by decide) negative hpos
    have h17 := numberText_formatG (by decide : 0 < 17) le_rfl negative hpos
    rw [nearest_roundDigits hpos] at h17
    rw [if_neg hint, if_neg hint, h15.read]
    dsimp only
    split_ifs
    · exact ⟨_, rfl, h15⟩
    · exact ⟨_, rfl, h17⟩

/-! ### Main results -/

theorem val_of_int {negative : Bool} {m : Magnitude} {n : ℤ} (h : signed negative m.val = n) :
    m.val = n.natAbs := by
  rw [Nat.cast_natAbs, Int.cast_abs, ← h, abs_signed, abs_of_nonneg m.nonneg]

/-- A number that is an `int` is written as one, and loses the sign of `-0`. -/
theorem createNumber_valueint {negative : Bool} {m : Magnitude}
    (h : signed negative m.val = valueint (.finite negative m)) :
    createNumber (valueint (.finite negative m)) =
      number (.finite (negative && decide (m.val ≠ 0)) m) := by
  obtain ⟨hlo, hhi⟩ := valueint_range (.finite negative m)
  generalize valueint (.finite negative m) = n at h hlo hhi
  obtain ⟨m', hval, hm', -⟩ := exists_ofInt hlo hhi
  obtain rfl : m' = m := Magnitude.ext (hval.trans (val_of_int h).symm)
  have hsign : decide (n < 0) = (negative && decide (m'.val ≠ 0)) := by
    cases negative with
    | false =>
        have hle : ((0 : ℤ) : ℚ) ≤ n := by
          rw [Int.cast_zero, ← h]
          exact m'.nonneg
        exact decide_eq_false (not_lt.mpr (by exact_mod_cast hle))
    | true =>
        have hneg : -m'.val = n := h
        have hle : (n : ℚ) ≤ ((0 : ℤ) : ℚ) := by
          rw [Int.cast_zero, ← hneg]
          exact neg_nonpos.mpr m'.nonneg
        have hle' : n ≤ 0 := by exact_mod_cast hle
        have hiff : m'.val = 0 ↔ n = 0 := by
          rw [← neg_eq_zero, hneg]
          exact_mod_cast Iff.rfl
        rw [Bool.true_and, decide_eq_decide, Ne, hiff]
        omega
  rw [createNumber, hm', hsign]

/-- **What may come back for a finite number**: itself, `0` for `-0`, or the number with 15 digits if
`compare_double` takes it for the same. -/
theorem readBackNumber_cases (negative : Bool) (m : Magnitude) :
    readBackNumber (.finite negative m) = number (.finite negative m) ∨
      (m.val = 0 ∧ readBackNumber (.finite negative m) = number (.finite false m)) ∨
      (compareDouble (shortened negative m) (.finite negative m) = true ∧
        readBackNumber (.finite negative m) = number (shortened negative m)) := by
  unfold readBackNumber
  dsimp only
  split_ifs with hint hcompare
  · rw [createNumber_valueint hint]
    by_cases h0 : m.val = 0
    · exact .inr (.inl ⟨h0, by simp [h0]⟩)
    · exact .inl (by simp [h0])
  · exact .inr (.inr ⟨hcompare, rfl⟩)
  · exact .inl rfl

/-- An `int` other than `-0` survives. -/
theorem createNumber_eq_iff {negative : Bool} {m : Magnitude}
    (h : signed negative m.val = valueint (.finite negative m)) :
    createNumber (valueint (.finite negative m)) = number (.finite negative m) ↔
      Survives (.finite negative m) := by
  obtain ⟨hlo, hhi⟩ := valueint_range (.finite negative m)
  have hshort := shortened_natCast (by omega) negative (val_of_int h)
  rw [createNumber_valueint h, Survives]
  cases negative <;> simp [hshort]

/-- An `int` is no `-0`. -/
theorem survives_ofInt {n : ℤ} (hlo : -2 ^ 31 ≤ n) (hhi : n < 2 ^ 31) : Survives (.ofInt n) := by
  obtain ⟨m, -, hm, hsigned⟩ := exists_ofInt hlo hhi
  have hvalue : valueint (.finite (n < 0) m) = n := hm ▸ valueint_ofInt hlo hhi
  have hback := (createNumber_eq_iff (hsigned.trans (by rw [hvalue]))).mp (by
    rw [hvalue, createNumber, hm])
  rwa [hm]

/-- **A number comes back from its print exactly if it survives.** -/
theorem readBackNumber_eq_iff (x : Double) : readBackNumber x = number x ↔ Survives x := by
  cases x with
  | infinite negative => exact ⟨nofun, False.elim⟩
  | finite negative m =>
      unfold readBackNumber
      dsimp only
      split_ifs with hint hcompare
      · exact createNumber_eq_iff hint
      · rw [Survives]
        simp only [number.injEq, hcompare, Bool.true_eq_false, or_false]
        refine ⟨fun h => ⟨?_, h⟩, And.right⟩
        exact fun h0 => (pos_of_not_int hint).ne' h0.2
      · rw [Survives]
        refine iff_of_true rfl ⟨?_, .inr (by simpa using hcompare)⟩
        exact fun h0 => (pos_of_not_int hint).ne' h0.2

/-- The `double` next to `0.3` is printed like `0.3`, and does not survive. -/
example : printNumber (nearest false (3 / 10 + 1 / 2 ^ 54)) = "0.3".toList ∧
    nearest false (3 / 10 + 1 / 2 ^ 54) ≠ nearest false (3 / 10) := by decide +kernel

end Json

end Sicae
