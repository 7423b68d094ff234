import Mathlib.Data.List.TakeWhile
import Mathlib.Data.Nat.Notation
import Mathlib.Tactic.Common

/-! # Reading values off a text

A reader takes a value off the front of a text and returns it with the text behind it.

* `Reads p ok text v`: the reader takes `v` off every text that starts with `text` and goes on
  as `ok` allows;
* `Progress p`: a reader that succeeds leaves less than it was given;
* `readItems` is the loop over items with a separator between them and a closing character:
  `readItems_sep` and `readItems_close` are its two rules, `readItems_forall` says that every
  item of the result was read by the item reader, `readItems_stable` that the bound on the
  number of rounds plays no role once it exceeds the length of the text, and `readItems_append`
  that what follows the closing character plays none;
* `ofDigits` is the value of a numeral in any base, and undoes `Nat.toDigits`
  (`ofDigits_toDigits`), leading zeros included (`ofDigits_zeroPadded`). -/

namespace Codec

variable {α β : Type*}

/-! ### Readers -/

/-- The value at the front of a text and the text behind it. -/
abbrev Reader (α β : Type*) := List α → Option (β × List α)

/-- The reader takes `v` off `text`, whatever follows it as far as `ok` allows. -/
def Reads (p : Reader α β) (ok : List α → Prop) (text : List α) (v : β) : Prop :=
  ∀ rest, ok rest → p (text ++ rest) = some (v, rest)

/-- A reader that succeeds leaves less than it was given. -/
def Progress (p : Reader α β) : Prop :=
  ∀ s v rest, p s = some (v, rest) → rest.length < s.length

theorem Reads.mono {p : Reader α β} {ok ok' : List α → Prop} {text : List α} {v : β}
    (h : Reads p ok text v) (hok : ∀ rest, ok' rest → ok rest) : Reads p ok' text v :=
  fun rest hr => h rest (hok rest hr)

/-- The values that a reader takes off the same text are the same. -/
theorem Reads.unique {p : Reader α β} {ok ok' : List α → Prop} {text rest : List α} {v w : β}
    (hv : Reads p ok text v) (hw : Reads p ok' text w) (hr : ok rest) (hr' : ok' rest) :
    v = w := by
  have h := (hv rest hr).symm.trans (hw rest hr')
  exact congrArg Prod.fst (Option.some.inj h)

/-! ### What a text may go on with -/

/-- The text does not go on with a character of the class. -/
def Stops (p : α → Bool) (rest : List α) : Prop := ∀ c ∈ rest.head?, p c = false

theorem stops_nil (p : α → Bool) : Stops p [] := nofun

theorem stops_cons {p : α → Bool} {c : α} {rest : List α} :
    Stops p (c :: rest) ↔ p c = false := by
  simp [Stops]

/-- The longest prefix in a class is what stands in front of a character outside it. -/
theorem takeWhile_append_stops {p : α → Bool} {used rest : List α} (hu : ∀ c ∈ used, p c = true)
    (hr : Stops p rest) : (used ++ rest).takeWhile p = used := by
  rw [List.takeWhile_append_of_pos hu]
  cases rest with
  | nil => simp
  | cons c rest => rw [List.takeWhile_cons_of_neg (by simp [stops_cons.mp hr]), List.append_nil]

theorem dropWhile_append_stops {p : α → Bool} {used rest : List α} (hu : ∀ c ∈ used, p c = true)
    (hr : Stops p rest) : (used ++ rest).dropWhile p = rest := by
  rw [List.dropWhile_append_of_pos hu]
  cases rest with
  | nil => rfl
  | cons c rest => rw [List.dropWhile_cons_of_neg (by simp [stops_cons.mp hr])]

/-! ### Separated items -/

section Items

variable [DecidableEq α] (item : Reader α β) (sep close : α)

/-- `do` read an item `while` a separator follows; then the closing character.  The number
bounds the rounds. -/
def readItems : ℕ → Reader α (List β)
  | 0, _ => none
  | n + 1, text =>
      (item text).bind fun r =>
        match r.2 with
        | [] => none
        | c :: rest =>
            if c = sep then (readItems n rest).map (fun q => (r.1 :: q.1, q.2))
            else if c = close then some ([r.1], rest)
            else none

variable {item sep close}

/-- An item with a separator behind it is followed by the others. -/
theorem readItems_sep {text rest : List α} {v : β} (h : item text = some (v, sep :: rest)) (n : ℕ) :
    readItems item sep close (n + 1) text =
      (readItems item sep close n rest).map (fun q => (v :: q.1, q.2)) := by
  rw [readItems, h, Option.bind_some]
  exact if_pos rfl

/-- An item with the closing character behind it is the last one. -/
theorem readItems_close (hne : sep ≠ close) {text rest : List α} {v : β}
    (h : item text = some (v, close :: rest)) (n : ℕ) :
    readItems item sep close (n + 1) text = some ([v], rest) := by
  rw [readItems, h, Option.bind_some]
  exact (if_neg (Ne.symm hne)).trans (if_pos rfl)

/-- What a successful round of the loop read: an item and a separator, or the last item. -/
theorem readItems_succ_some {n : ℕ} {text rest : List α} {vs : List β}
    (h : readItems item sep close (n + 1) text = some (vs, rest)) :
    (∃ v mid ws, item text = some (v, sep :: mid) ∧
      readItems item sep close n mid = some (ws, rest) ∧ vs = v :: ws) ∨
    (∃ v, item text = some (v, close :: rest) ∧ vs = [v]) := by
  obtain ⟨⟨v, behind⟩, hv, hb⟩ := Option.bind_eq_some_iff.mp h
  clear h
  cases behind with
  | nil => simp at hb
  | cons c mid =>
      dsimp only at hb
      split_ifs at hb with hsep hclose
      · subst hsep
        obtain ⟨⟨ws, r⟩, hq, he⟩ := Option.map_eq_some_iff.mp hb
        cases he
        exact .inl ⟨v, mid, ws, hv, hq, rfl⟩
      · subst hclose
        cases hb
        exact .inr ⟨v, hv, rfl⟩

/-- Every item of the result was read by the item reader. -/
theorem readItems_forall {P : β → Prop} (hP : ∀ s v r, item s = some (v, r) → P v) :
    ∀ {n : ℕ} {text rest : List α} {vs : List β},
      readItems item sep close n text = some (vs, rest) → ∀ v ∈ vs, P v
  | 0, _, _, _, h => by simp [readItems] at h
  | n + 1, text, rest, vs, h => by
      rcases readItems_succ_some h with ⟨v, mid, ws, hv, hq, rfl⟩ | ⟨v, hv, rfl⟩
      · intro w hw
        rcases List.mem_cons.mp hw with rfl | hw
        · exact hP _ _ _ hv
        · exact readItems_forall hP hq w hw
      · intro w hw
        rw [List.mem_singleton.mp hw]
        exact hP _ _ _ hv

theorem readItems_progress (hp : Progress item) : ∀ n, Progress (readItems item sep close n)
  | 0, _, _, _, h => by simp [readItems] at h
  | n + 1, text, vs, rest, h => by
      rcases readItems_succ_some h with ⟨v, mid, ws, hv, hq, -⟩ | ⟨v, hv, -⟩
      · have h1 := hp _ _ _ hv
        have h2 := readItems_progress hp n _ _ _ hq
        rw [List.length_cons] at h1
        omega
      · have h1 := hp _ _ _ hv
        rw [List.length_cons] at h1
        omega

/-- **The bound on the rounds** plays no role once it exceeds the length of the text. -/
theorem readItems_stable (hp : Progress item) : ∀ {n m : ℕ} {text : List α},
    text.length < n → text.length < m →
      readItems item sep close n text = readItems item sep close m text
  | 0, _, _, hn, _ => absurd hn (Nat.not_lt_zero _)
  | _ + 1, 0, _, _, hm => absurd hm (Nat.not_lt_zero _)
  | n + 1, m + 1, text, hn, hm => by
      rw [readItems, readItems]
      cases hi : item text with
      | none => rfl
      | some r =>
          obtain ⟨v, behind⟩ := r
          have hlt := hp _ _ _ hi
          cases behind with
          | nil => rfl
          | cons c rest =>
              rw [List.length_cons] at hlt
              have ih : readItems item sep close n rest = readItems item sep close m rest :=
                readItems_stable hp (by omega) (by omega)
              simp only [Option.bind_some, ih]

/-- More rounds do not change a result. -/
theorem readItems_mono (hne : sep ≠ close) : ∀ {n m : ℕ} {text rest : List α} {vs : List β}, n ≤ m →
    readItems item sep close n text = some (vs, rest) →
      readItems item sep close m text = some (vs, rest)
  | 0, _, _, _, _, _, h => by simp [readItems] at h
  | _ + 1, 0, _, _, _, hle, _ => absurd hle (Nat.not_succ_le_zero _)
  | n + 1, m + 1, text, rest, vs, hle, h => by
      rcases readItems_succ_some h with ⟨v, mid, ws, hv, hq, rfl⟩ | ⟨v, hv, rfl⟩
      · rw [readItems_sep hv, readItems_mono hne (Nat.le_of_succ_le_succ hle) hq]
        rfl
      · exact readItems_close hne hv m

/-- If the item reader does not look behind the separator or the closing character, the loop does
not look behind the closing character. -/
theorem readItems_append (hne : sep ≠ close)
    (hitem : ∀ s v c rest, item s = some (v, c :: rest) → c = sep ∨ c = close →
      ∀ more, item (s ++ more) = some (v, c :: (rest ++ more))) :
    ∀ {n : ℕ} {text rest : List α} {vs : List β},
      readItems item sep close n text = some (vs, rest) →
        ∀ more, readItems item sep close n (text ++ more) = some (vs, rest ++ more)
  | 0, _, _, _, h => by simp [readItems] at h
  | n + 1, text, rest, vs, h => by
      intro more
      rcases readItems_succ_some h with ⟨v, mid, ws, hv, hq, rfl⟩ | ⟨v, hv, rfl⟩
      · rw [readItems_sep (hitem _ _ _ _ hv (.inl rfl) more), readItems_append hne hitem hq more]
        rfl
      · exact readItems_close hne (hitem _ _ _ _ hv (.inr rfl) more) n

end Items

/-! ### Numerals -/

/-- The value of a hexadecimal digit, of either case. -/
def hexValue (c : Char) : Option ℕ :=
  if '0' ≤ c ∧ c ≤ '9' then some (c.toNat - '0'.toNat)
  else if 'A' ≤ c ∧ c ≤ 'F' then some (10 + c.toNat - 'A'.toNat)
  else if 'a' ≤ c ∧ c ≤ 'f' then some (10 + c.toNat - 'a'.toNat)
  else none

theorem hexValue_digitChar {d : ℕ} (h : d < 16) : hexValue (Nat.digitChar d) = some d :=
  (by decide : ∀ d < 16, hexValue (Nat.digitChar d) = some d) d h

/-- The value of a numeral in base `b`, for the values of its digits. -/
def ofDigits (value : Char → ℕ) (b : ℕ) (ds : List Char) : ℕ :=
  ds.foldl (fun a c => a * b + value c) 0

/-- The digits with zeros in front, up to a width. -/
def zeroPadded (width : ℕ) (ds : List Char) : List Char :=
  List.replicate (width - ds.length) '0' ++ ds

theorem length_zeroPadded {width : ℕ} {ds : List Char} (h : ds.length ≤ width) :
    (zeroPadded width ds).length = width := by
  rw [zeroPadded, List.length_append, List.length_replicate]
  omega

section Numerals

variable {value : Char → ℕ} {b : ℕ}

/-- The characters of a numeral are digits of its base. -/
theorem mem_toDigits (hb : 1 < b) {c : Char} {n : ℕ} (hc : c ∈ Nat.toDigits b n) :
    ∃ d < b, c = Nat.digitChar d := by
  induction n using Nat.strongRecOn with
  | _ n ih =>
      by_cases h : n < b
      · rw [Nat.toDigits_of_lt_base h, List.mem_singleton] at hc
        exact ⟨n, h, hc⟩
      · rw [Nat.toDigits_of_base_le hb (by omega), List.mem_append, List.mem_singleton] at hc
        rcases hc with hc | hc
        · exact ih _ (Nat.div_lt_self (by omega) hb) hc
        · exact ⟨n % b, Nat.mod_lt n (by omega), hc⟩

theorem mem_zeroPadded (hb : 1 < b) {c : Char} {width n : ℕ}
    (hc : c ∈ zeroPadded width (Nat.toDigits b n)) : ∃ d < b, c = Nat.digitChar d := by
  rcases List.mem_append.mp hc with hc | hc
  · exact ⟨0, by omega, List.eq_of_mem_replicate hc⟩
  · exact mem_toDigits hb hc

/-- A last digit is worth itself, and the digits before it are worth the base times more. -/
theorem ofDigits_concat (ds : List Char) (c : Char) :
    ofDigits value b (ds ++ [c]) = ofDigits value b ds * b + value c := by
  rw [ofDigits, List.foldl_append]
  rfl

/-- **A number is read back from its digits** in every base the digits are told apart in. -/
theorem ofDigits_toDigits (hb : 1 < b) (hvalue : ∀ d, d < b → value (Nat.digitChar d) = d) (n : ℕ) :
    ofDigits value b (Nat.toDigits b n) = n := by
  induction n using Nat.strongRecOn with
  | _ n ih =>
      by_cases h : n < b
      · rw [Nat.toDigits_of_lt_base h]
        have := hvalue n h
        simp [ofDigits, this]
      · have hlt : n / b < n := Nat.div_lt_self (by omega) hb
        rw [Nat.toDigits_of_base_le hb (by omega), ofDigits_concat, ih _ hlt,
          hvalue _ (Nat.mod_lt n (by omega))]
        exact Nat.div_add_mod' n b

/-- Zeros in front do not change the value. -/
theorem ofDigits_zeroPadded (h0 : value '0' = 0) (width : ℕ) (ds : List Char) :
    ofDigits value b (zeroPadded width ds) = ofDigits value b ds := by
  have hz : ∀ k, (List.replicate k '0').foldl (fun a c => a * b + value c) 0 = 0 := by
    intro k
    induction k with
    | zero => rfl
    | succ k ih => rw [List.replicate_succ, List.foldl_cons, h0, Nat.zero_mul, ih]
  rw [ofDigits, zeroPadded, List.foldl_append, hz]
  rfl

end Numerals

end Codec
