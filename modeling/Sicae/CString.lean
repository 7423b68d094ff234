import Mathlib.Data.List.Infix
import Mathlib.Data.List.TakeWhile
import Mathlib.Algebra.Order.Ring.Int

/-! # C strings

The part of `<string.h>`, `<stdlib.h>` and `<stdio.h>` that byte-string programs rely on,
over lists of characters.  A `CStr` is the text of a NUL-terminated string without its
terminator, one `Char` per byte.

* `cstr` reads a C string out of a byte buffer (everything before the first NUL);
* a `CharArray n` is a buffer of `n` bytes, and `strncpy` pads a string to fill one;
* `strstr` splits a string at the first occurrence of a needle;
* `snprintf` cuts a formatted text to the size of its buffer;
* `atoi` and `decimal` are the decimal conversions of a 32-bit `int`, inverse to each other
  on the range of `int` (`atoi_decimal`).

`infix_joinSegments` reduces the search for a needle that starts with a separator to the
separated segments, which is how routing by substring is decided. -/

namespace CString

/-- A C string: its bytes before the terminator. -/
abbrev CStr := List Char

/-! ### Buffers -/

/-- The string read from a byte buffer: everything before the first NUL. -/
def cstr (buf : List Char) : CStr := buf.takeWhile (· ≠ '\x00')

theorem cstr_eq_self_iff {buf : List Char} : cstr buf = buf ↔ '\x00' ∉ buf := by
  rw [cstr, List.takeWhile_eq_self_iff]
  simp only [decide_not, Bool.not_eq_true', decide_eq_false_iff_not]
  exact ⟨fun h hm => h _ hm rfl, fun h c hc e => h (e ▸ hc)⟩

theorem cstr_append {s rest : List Char} (h : '\x00' ∉ s) : cstr (s ++ rest) = s ++ cstr rest :=
  List.takeWhile_append_of_pos fun c hc => by
    simp only [decide_eq_true_eq]
    rintro rfl
    exact h hc

@[simp] theorem cstr_nul_cons (rest : List Char) : cstr ('\x00' :: rest) = [] := rfl

@[simp] theorem cstr_replicate_nul (n : ℕ) : cstr (List.replicate n '\x00') = [] := by
  cases n <;> rfl

/-- `snprintf` into `size` bytes: the text cut to leave room for the terminator. -/
def snprintf (size : ℕ) (text : CStr) : CStr := text.take (size - 1)

theorem snprintf_of_length_lt {size : ℕ} {text : CStr} (h : text.length < size) :
    snprintf size text = text := List.take_of_length_le (by omega)

/-- A text that fits the buffer is not cut a second time. -/
theorem snprintf_snprintf (size : ℕ) (text : CStr) :
    snprintf size (snprintf size text) = snprintf size text := by
  rw [snprintf, snprintf, List.take_take, Nat.min_self]

/-! ### Character arrays -/

/-- A `char` array of `n` bytes. -/
structure CharArray (n : ℕ) where
  bytes : List Char
  length_eq : bytes.length = n
deriving DecidableEq

namespace CharArray

variable {n : ℕ}

/-- An array of NULs. -/
def zero (n : ℕ) : CharArray n := ⟨List.replicate n '\x00', List.length_replicate⟩

/-- The array with its first bytes overwritten. -/
def write (a : CharArray n) (data : List Char) (h : data.length ≤ n) : CharArray n :=
  ⟨data ++ a.bytes.drop data.length, by
    rw [List.length_append, List.length_drop, a.length_eq]
    omega⟩

/-- The string in the array, which ends at the latest where the array does. -/
def str (a : CharArray n) : CStr := cstr a.bytes

/-- `strncpy` of `n` bytes, which overwrites the whole array: the string, cut or padded with
NULs. -/
def strncpy (n : ℕ) (s : CStr) : CharArray n :=
  ⟨s.take n ++ List.replicate (n - s.length) '\x00', by
    rw [List.length_append, List.length_take, List.length_replicate]
    omega⟩

/-- The array holds the bytes `s` and NULs behind them. -/
def Padded (a : CharArray n) (s : List Char) : Prop :=
  a.bytes = s ++ List.replicate (n - s.length) '\x00'

instance (a : CharArray n) (s : List Char) : Decidable (a.Padded s) :=
  inferInstanceAs (Decidable (_ = _))

@[simp] theorem str_zero : (zero n).str = [] := cstr_replicate_nul n

theorem nul_not_mem_str (a : CharArray n) : '\x00' ∉ a.str := by
  intro h
  have h' := List.mem_takeWhile_imp h
  simp at h'

theorem length_str_le (a : CharArray n) : a.str.length ≤ n :=
  (List.takeWhile_prefix _).length_le.trans_eq a.length_eq

/-- A string written with its terminator is read back. -/
theorem str_write (a : CharArray n) {s : CStr} (hs : '\x00' ∉ s)
    (h : (s ++ ['\x00']).length ≤ n) : (a.write (s ++ ['\x00']) h).str = s := by
  show cstr (s ++ ['\x00'] ++ a.bytes.drop _) = s
  rw [List.append_assoc, cstr_append hs, List.singleton_append, cstr_nul_cons, List.append_nil]

/-- A padded copy holds the string it was made from, and no other. -/
theorem padded_strncpy_iff {s t : CStr} (hs : '\x00' ∉ s) (ht : '\x00' ∉ t) (hl : t.length ≤ n) :
    (strncpy n t).Padded s ↔ t = s := by
  have hb : (strncpy n t).bytes = t ++ List.replicate (n - t.length) '\x00' := by
    show t.take n ++ _ = _
    rw [List.take_of_length_le hl]
  unfold Padded
  rw [hb]
  constructor
  · intro h
    have hc := congrArg cstr h
    rwa [cstr_append ht, cstr_append hs, cstr_replicate_nul, cstr_replicate_nul, List.append_nil,
      List.append_nil] at hc
  · rintro rfl
    rfl

end CharArray

/-! ### Substring search -/

/-- `strstr(hay, needle)`: the text before the first occurrence of the needle and the text
from that occurrence on. -/
def strstr (needle : CStr) : CStr → Option (CStr × CStr)
  | [] => if needle = [] then some ([], []) else none
  | c :: hay =>
      if needle <+: c :: hay then some ([], c :: hay)
      else (strstr needle hay).map (fun p => (c :: p.1, p.2))

theorem strstr_eq_none {needle : CStr} : ∀ {hay : CStr},
    strstr needle hay = none ↔ ¬ needle <:+: hay
  | [] => by simp [strstr]
  | c :: hay => by
      have ih := @strstr_eq_none needle hay
      rw [strstr, List.infix_cons_iff]
      by_cases h : needle <+: c :: hay
      · simp [h]
      · simp [h, ih]

/-- A needle whose first character does not occur earlier is found where it stands. -/
theorem strstr_append {c : Char} {needle rest : CStr} : ∀ {before : CStr}, c ∉ before →
    strstr (c :: needle) (before ++ (c :: needle ++ rest)) = some (before, c :: needle ++ rest)
  | [], _ => by
      rw [List.nil_append, List.cons_append, strstr, if_pos (by simp)]
  | b :: before, hb => by
      obtain ⟨hne, hb'⟩ := List.ne_and_not_mem_of_not_mem_cons hb
      have h : ¬ c :: needle <+: b :: (before ++ (c :: needle ++ rest)) := by
        rw [List.cons_prefix_cons]
        exact fun h => hne h.1
      rw [List.cons_append, strstr, if_neg h, strstr_append hb', Option.map_some]

/-- Text without the needle's first character in front of the hay does not matter. -/
theorem infix_append_of_not_mem {c : Char} {needle rest : CStr} : ∀ {before : CStr}, c ∉ before →
    (c :: needle <:+: before ++ rest ↔ c :: needle <:+: rest)
  | [], _ => Iff.rfl
  | b :: before, hb => by
      obtain ⟨hne, hb'⟩ := List.ne_and_not_mem_of_not_mem_cons hb
      rw [List.cons_append, List.infix_cons_iff, List.cons_prefix_cons,
        infix_append_of_not_mem hb']
      simp [hne]

/-- The search in a text that was cut: the needle is found where it stands, or part of it is
gone. -/
theorem strstr_take_append {c : Char} {needle rest before : CStr} (hb : c ∉ before) (k : ℕ) :
    strstr (c :: needle) ((before ++ (c :: needle ++ rest)).take k) =
      if before.length + (c :: needle).length ≤ k then
        some (before, c :: needle ++ rest.take (k - before.length - (c :: needle).length))
      else none := by
  rw [List.take_append]
  split_ifs with h
  · rw [List.take_of_length_le (by omega), List.take_append, List.take_of_length_le (by omega)]
    exact strstr_append hb
  · rw [strstr_eq_none, infix_append_of_not_mem (fun hm => hb (List.mem_of_mem_take hm))]
    intro hi
    have hle := hi.length_le.trans (List.length_take_le _ _)
    rw [List.length_cons] at h hle
    omega

/-! ### Needles that start a path segment -/

theorem prefix_append_cons {c : Char} {w b : CStr} (hw : c ∉ w) : ∀ {a : CStr},
    w <+: a ++ c :: b ↔ w <+: a := by
  induction w with
  | nil => simp
  | cons x w ih =>
      obtain ⟨hx, hw'⟩ := List.ne_and_not_mem_of_not_mem_cons hw
      intro a
      cases a with
      | nil => simp [Ne.symm hx]
      | cons y a => simp [ih hw']

/-- A needle `c :: w` with no further `c` occurs in `a ++ c :: b`, where `c` does not occur
in `b`, exactly if it occurs in `a` or `w` starts `b`. -/
theorem infix_segment {c : Char} {w b : CStr} (hw : c ∉ w) (hb : c ∉ b) : ∀ {a : CStr},
    c :: w <:+: a ++ c :: b ↔ c :: w <:+: a ∨ w <+: b
  | [] => by
      have h : ¬ c :: w <:+: b := fun h => hb (h.subset List.mem_cons_self)
      rw [List.nil_append, List.infix_cons_iff, List.cons_prefix_cons]
      simp [h]
  | x :: a => by
      have ih := infix_segment hw hb (a := a)
      rw [List.cons_append, List.infix_cons_iff, List.infix_cons_iff, ih,
        List.cons_prefix_cons, List.cons_prefix_cons, prefix_append_cons hw, or_assoc]

/-- `a` followed by segments, each led by the separator `c`. -/
def joinSegments (c : Char) (a : CStr) (segments : List CStr) : CStr :=
  segments.foldl (fun a s => a ++ c :: s) a

theorem infix_joinSegments {c : Char} {w : CStr} (hw : c ∉ w) : ∀ {segments : List CStr} {a : CStr},
    (∀ s ∈ segments, c ∉ s) →
    (c :: w <:+: joinSegments c a segments ↔ c :: w <:+: a ∨ ∃ s ∈ segments, w <+: s)
  | [], a, _ => by simp [joinSegments]
  | s :: segments, a, hs => by
      have ih := @infix_joinSegments c w hw segments (a ++ c :: s)
        (fun t ht => hs t (List.mem_cons_of_mem _ ht))
      rw [joinSegments, List.foldl_cons, ← joinSegments, ih,
        infix_segment hw (hs s List.mem_cons_self), or_assoc, List.exists_mem_cons_iff]

/-- A needle that is not in a text is not in the text cut to a buffer. -/
theorem not_infix_snprintf {needle text : CStr} {size : ℕ} (h : ¬ needle <:+: text) :
    ¬ needle <:+: snprintf size text :=
  fun hi => h (hi.trans (List.take_prefix _ _).isInfix)

/-! ### Decimal numbers -/

/-- `isspace` in the C locale. -/
def isSpace (c : Char) : Bool := c = ' ' || (9 ≤ c.toNat && c.toNat ≤ 13)

/-- The value of the digits a string starts with (`0` if there are none). -/
def leadingNat (s : CStr) : ℕ := Nat.ofDigitChars 10 (s.takeWhile Char.isDigit) 0

/-- `atoi` on a machine with a 32-bit `long`: white space, an optional sign, digits up to
the first other character, saturating at the ends of the range. -/
def atoi (s : CStr) : ℤ :=
  match s.dropWhile isSpace with
  | '-' :: ds => max (-(leadingNat ds : ℤ)) (-2 ^ 31)
  | '+' :: ds => min (leadingNat ds) (2 ^ 31 - 1)
  | ds => min (leadingNat ds) (2 ^ 31 - 1)

/-- The `%d` conversion. -/
def decimal : ℤ → CStr
  | .ofNat n => Nat.toDigits 10 n
  | .negSucc n => '-' :: Nat.toDigits 10 (n + 1)

theorem isSpace_of_isDigit {c : Char} (h : c.isDigit = true) : isSpace c = false := by
  simp only [Char.isDigit, Bool.and_eq_true, decide_eq_true_eq, ge_iff_le] at h
  have h0 : 48 ≤ c.toNat := h.1
  have hne : c ≠ ' ' := by
    rintro rfl
    revert h0
    decide
  simp only [isSpace, hne, decide_false, Bool.false_or, Bool.and_eq_false_imp, decide_eq_true_eq,
    decide_eq_false_iff_not]
  omega

theorem leadingNat_digits {ds : CStr} (h : ∀ c ∈ ds, c.isDigit = true) :
    leadingNat ds = Nat.ofDigitChars 10 ds 0 := by
  rw [leadingNat, List.takeWhile_eq_self_iff.mpr h]

/-- A string of digits in the range of `int` is read as its value. -/
theorem atoi_digits {ds : CStr} (h : ∀ c ∈ ds, c.isDigit = true)
    (hlt : Nat.ofDigitChars 10 ds 0 < 2 ^ 31) : atoi ds = Nat.ofDigitChars 10 ds 0 := by
  have hn := leadingNat_digits h
  cases ds with
  | nil => rfl
  | cons c ds =>
      have hc := h c List.mem_cons_self
      have hm : c ≠ '-' := by rintro rfl; exact absurd hc (by decide)
      have hp : c ≠ '+' := by rintro rfl; exact absurd hc (by decide)
      rw [atoi, List.dropWhile_cons_of_neg (by simp [isSpace_of_isDigit hc])]
      split
      · simp_all
      · simp_all
      · rw [hn]
        exact min_eq_left (by omega)

/-- `atoi` undoes `%d` on the whole range of `int`. -/
theorem atoi_decimal {n : ℤ} (hlo : -2 ^ 31 ≤ n) (hhi : n < 2 ^ 31) : atoi (decimal n) = n := by
  have hdig : ∀ m, ∀ c ∈ Nat.toDigits 10 m, c.isDigit = true := fun m c hc =>
    Nat.isDigit_of_mem_toDigits (by decide) (by decide) hc
  cases n with
  | ofNat n =>
      rw [decimal, atoi_digits (hdig n) (by rw [Nat.ofDigitChars_ten_toDigits]; simp at hhi; omega),
        Nat.ofDigitChars_ten_toDigits]
      rfl
  | negSucc n =>
      have h : List.dropWhile isSpace ('-' :: Nat.toDigits 10 (n + 1)) =
          '-' :: Nat.toDigits 10 (n + 1) := List.dropWhile_cons_of_neg (by decide)
      rw [decimal, atoi, h]
      simp only [leadingNat_digits (hdig _), Nat.ofDigitChars_ten_toDigits]
      rw [max_eq_left (by omega)]
      omega

theorem not_mem_decimal {c : Char} (h : c.isDigit = false) (hm : c ≠ '-') (n : ℤ) :
    c ∉ decimal n := by
  have hdig : ∀ m, c ∉ Nat.toDigits 10 m := fun m hc => by
    simp [Nat.isDigit_of_mem_toDigits (by decide) (by decide) hc] at h
  cases n with
  | ofNat n => exact hdig n
  | negSucc n => exact List.not_mem_cons_of_ne_of_not_mem hm (hdig _)

theorem length_decimal_le {n : ℤ} (hlo : -2 ^ 31 ≤ n) (hhi : n < 2 ^ 31) :
    (decimal n).length ≤ 11 := by
  cases n with
  | ofNat n =>
      have h : (Nat.toDigits 10 n).length ≤ 10 :=
        (Nat.length_toDigits_le_iff (by decide) (by decide)).mpr (by simp at hhi; omega)
      rw [decimal]
      omega
  | negSucc n =>
      have h : (Nat.toDigits 10 (n + 1)).length ≤ 10 :=
        (Nat.length_toDigits_le_iff (by decide) (by decide)).mpr (by omega)
      rw [decimal, List.length_cons]
      omega

end CString
