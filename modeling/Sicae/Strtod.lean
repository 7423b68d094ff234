import Sicae.CString
import Sicae.Codec
import Sicae.Double

/-! # Numbers read by `strtod`

The decimal floating-point numbers of `<stdlib.h>`: an optional sign, digits with an optional
point, an optional exponent, and the nearest `double`.  The hexadecimal numbers, and the names of
the infinities and of NaN, are left out. -/

namespace CString

open Binary64

/-- An optional sign: whether it is a minus, and the text behind it. -/
def signOf : CStr → Bool × CStr
  | '-' :: s => (true, s)
  | '+' :: s => (false, s)
  | s => (false, s)

/-- An optional point: the digits behind it, and the text behind them. -/
def fractionOf : CStr → CStr × CStr
  | '.' :: s => (s.takeWhile Char.isDigit, s.dropWhile Char.isDigit)
  | s => ([], s)

/-- An optional exponent, which needs a digit; its value is cut at 19999. -/
def exponentOf : CStr → ℤ × CStr
  | [] => (0, [])
  | c :: s =>
      let behind := (signOf s).2
      if (c = 'e' ∨ c = 'E') ∧ behind.takeWhile Char.isDigit ≠ [] then
        let n : ℤ := min (leadingNat behind) 19999
        (if (signOf s).1 then -n else n, behind.dropWhile Char.isDigit)
      else (0, c :: s)

/-- `strtod`: the number and the text behind it, `none` if there is no number. -/
def strtod (s : CStr) : Option (Double × CStr) :=
  let unsigned := (signOf s).2
  let whole := unsigned.takeWhile Char.isDigit
  let fraction := fractionOf (unsigned.dropWhile Char.isDigit)
  if whole = [] ∧ fraction.1 = [] then none
  else
    let exponent := exponentOf fraction.2
    let mantissa : ℚ := Nat.ofDigitChars 10 (whole ++ fraction.1) 0
    some (nearest (signOf s).1 (mantissa * 10 ^ (exponent.1 - fraction.1.length)), exponent.2)

/-! ### The end of a number -/

/-- The characters that may go on a number that has started. -/
def isNumberTail (c : Char) : Bool := c.isDigit || c = '.' || c = 'e' || c = 'E'

theorem isDigit_false_of_isNumberTail {c : Char} (h : isNumberTail c = false) :
    c.isDigit = false := by
  simp only [isNumberTail, Bool.or_eq_false_iff] at h
  exact h.1.1.1

theorem exponentOf_of_stops {rest : CStr} (h : Codec.Stops isNumberTail rest) :
    exponentOf rest = (0, rest) := by
  cases rest with
  | nil => rfl
  | cons c s =>
      have hc := Codec.stops_cons.mp h
      simp only [isNumberTail, Bool.or_eq_false_iff, decide_eq_false_iff_not] at hc
      exact if_neg (by tauto)

/-! ### The length of a number -/

theorem length_dropWhile_le (p : Char → Bool) (s : CStr) : (s.dropWhile p).length ≤ s.length :=
  (List.dropWhile_suffix p).length_le

theorem length_signOf_le (s : CStr) : (signOf s).2.length ≤ s.length := by
  unfold signOf
  split <;> simp

theorem length_fractionOf_le (s : CStr) : (fractionOf s).2.length ≤ s.length := by
  unfold fractionOf
  split
  · rename_i s'
    exact (length_dropWhile_le _ s').trans (Nat.le_succ _)
  · exact le_rfl

theorem length_fractionOf_lt {s : CStr} (h : (fractionOf s).1 ≠ []) :
    (fractionOf s).2.length < s.length := by
  unfold fractionOf at h ⊢
  split at h
  · rename_i s'
    exact Nat.lt_succ_of_le (length_dropWhile_le _ s')
  · exact absurd rfl h

theorem length_exponentOf_le : ∀ s : CStr, (exponentOf s).2.length ≤ s.length
  | [] => le_rfl
  | c :: s => by
      rw [exponentOf]
      dsimp only
      split
      · exact (length_dropWhile_le _ _).trans ((length_signOf_le s).trans (Nat.le_succ _))
      · exact Nat.le_refl _

/-- A number has at least one character. -/
theorem progress_strtod : Codec.Progress strtod := by
  intro s x rest h
  simp only [strtod] at h
  split at h
  · cases h
  rename_i hnone
  obtain ⟨-, rfl⟩ := Prod.mk.inj (Option.some.inj h)
  have h1 := length_signOf_le s
  have h2 := length_exponentOf_le (fractionOf ((signOf s).2.dropWhile Char.isDigit)).2
  have hsplit := congrArg List.length
    (@List.takeWhile_append_dropWhile _ Char.isDigit (signOf s).2)
  rw [List.length_append] at hsplit
  rcases not_and_or.mp hnone with hw | hf
  · have h3 := length_fractionOf_le ((signOf s).2.dropWhile Char.isDigit)
    have h4 := List.length_pos_of_ne_nil hw
    omega
  · have h3 := length_fractionOf_lt hf
    omega

end CString
