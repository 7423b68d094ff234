import Sicae.JsonText

/-! # What the parser takes off a text

`parse_value` case by case, whatever the text is: `Parsed` lists what a successful call took off
it (`parsed_iff`), every value has a character (`progress_parseValue`), which makes the bound of the
loop irrelevant, and the tree is one of C strings that nests at most as deeply as was allowed
(`wellFormed_of_parseValue`). -/

namespace Sicae

namespace Json

open CString Codec Binary64

/-! ### Trees -/

/-- The trees that nest at most `levels` arrays and objects, and hold C strings and the numbers of a
kind. -/
def Nests (kind : Double → Prop) : ℕ → Json → Prop
  | _, null => True
  | _, bool _ => True
  | _, number x => kind x
  | _, string s => '\x00' ∉ s
  | 0, array _ => False
  | 0, object _ => False
  | levels + 1, array items => ∀ v ∈ items, Nests kind levels v
  | levels + 1, object members => ∀ m ∈ members, '\x00' ∉ m.1 ∧ Nests kind levels m.2

/-- With any numbers. -/
abbrev WellFormed : ℕ → Json → Prop := Nests fun _ => True

theorem Nests.mono {kind kind' : Double → Prop} (hk : ∀ x, kind x → kind' x) {levels : ℕ} {v : Json}
    (h : Nests kind levels v) : Nests kind' levels v := by
  induction levels using Nat.strongRecOn generalizing v with
  | _ levels ih =>
      cases v with
      | null => simp [Nests]
      | bool b => simp [Nests]
      | string s => simpa [Nests] using h
      | number x =>
          rw [Nests] at h ⊢
          exact hk x h
      | array items =>
          cases levels with
          | zero => exact absurd h (by simp [Nests])
          | succ levels =>
              rw [Nests] at h ⊢
              exact fun v hv => ih levels levels.lt_succ_self (h v hv)
      | object members =>
          cases levels with
          | zero => exact absurd h (by simp [Nests])
          | succ levels =>
              rw [Nests] at h ⊢
              exact fun m hm => ⟨(h m hm).1, ih levels levels.lt_succ_self (h m hm).2⟩

theorem Nests.wellFormed {kind : Double → Prop} {levels : ℕ} {v : Json} (h : Nests kind levels v) :
    WellFormed levels v :=
  h.mono fun _ _ => trivial

/-! ### Values -/

theorem parseValue_null (levels : ℕ) (rest : CStr) :
    parseValue levels ("null".toList ++ rest) = some (null, rest) := by
  unfold parseValue
  rw [if_pos (List.prefix_append _ _)]
  rfl

theorem parseValue_false (levels : ℕ) (rest : CStr) :
    parseValue levels ("false".toList ++ rest) = some (bool false, rest) := by
  unfold parseValue
  rw [if_neg (by simp), if_pos (List.prefix_append _ _)]
  rfl

theorem parseValue_true (levels : ℕ) (rest : CStr) :
    parseValue levels ("true".toList ++ rest) = some (bool true, rest) := by
  unfold parseValue
  rw [if_neg (by simp), if_neg (by simp), if_pos (List.prefix_append _ _)]
  rfl

theorem parseValue_string (levels : ℕ) (s : CStr) :
    parseValue levels ('"' :: s) = (parseString ('"' :: s)).map (fun p => (string p.1, p.2)) := by
  unfold parseValue
  rw [if_neg (by simp), if_neg (by simp), if_neg (by simp)]
  rfl

theorem parseValue_number (levels : ℕ) {c : Char} (hc : c = '-' ∨ c.isDigit = true) (s : CStr) :
    parseValue levels (c :: s) = (parseNumber (c :: s)).map (fun p => (number p.1, p.2)) := by
  have hne : ∀ d, d ≠ '-' → d.isDigit = false → c ≠ d := by
    rintro d h1 h2 rfl
    rcases hc with h | h
    · exact h1 h
    · simp [h2] at h
  unfold parseValue
  rw [if_neg (by simp [Ne.symm (hne 'n' (by decide) (by decide))]),
    if_neg (by simp [Ne.symm (hne 'f' (by decide) (by decide))]),
    if_neg (by simp [Ne.symm (hne 't' (by decide) (by decide))])]
  split
  · contradiction
  all_goals
    first
    | (rename_i h; cases h; exact absurd rfl (hne _ (by decide) (by decide)))
    | skip
  rename_i h _ _ _ _
  cases h
  exact if_pos hc

theorem parseValue_array (levels : ℕ) (s : CStr) :
    parseValue (levels + 1) ('[' :: s) =
      (parseItems (parseItem (parseValue levels)) ']' s).map (fun p => (array p.1, p.2)) := by
  rw [parseValue, if_neg (by simp), if_neg (by simp), if_neg (by simp)]

theorem parseValue_object (levels : ℕ) (s : CStr) :
    parseValue (levels + 1) ('\x7b' :: s) =
      (parseItems (parseMember (parseValue levels)) '\x7d' s).map (fun p => (object p.1, p.2)) := by
  rw [parseValue, if_neg (by simp), if_neg (by simp), if_neg (by simp)]

/-! ### The parser moves on

Every value has at least one character, so the bound of `parseItems` on the rounds of its loop is
never what ends it. -/

theorem length_skipWhitespace_le (text : CStr) : (skipWhitespace text).length ≤ text.length :=
  length_dropWhile_le _ text

theorem progress_scanString : Progress scanString := by
  intro s
  fun_induction scanString s with
  | case1 => nofun
  | case2 => nofun
  | case3 rest =>
      intro v r h
      cases h
      exact Nat.lt_succ_self _
  | case4 c rest ih =>
      intro v r h
      obtain ⟨p, hp, he⟩ := Option.map_eq_some_iff.mp h
      cases he
      have := ih _ _ hp
      simp only [List.length_cons]
      omega
  | case5 c rest _ _ _ ih =>
      intro v r h
      obtain ⟨p, hp, he⟩ := Option.map_eq_some_iff.mp h
      cases he
      have := ih _ _ hp
      simp only [List.length_cons]
      omega

theorem progress_parseString : Progress parseString := by
  intro s v r h
  unfold parseString at h
  split at h
  · obtain ⟨p, hp, h⟩ := Option.bind_eq_some_iff.mp h
    obtain ⟨t, -, he⟩ := Option.map_eq_some_iff.mp h
    cases he
    have := progress_scanString _ _ _ hp
    rw [List.length_cons]
    omega
  · cases h

theorem progress_parseNumber : Progress parseNumber := by
  intro s v r h
  obtain ⟨p, hp, he⟩ := Option.map_eq_some_iff.mp h
  cases he
  have h1 := progress_strtod _ _ _ hp
  have h2 : (numberText s).length ≤ s.length :=
    (List.length_take_le' _ _).trans (List.takeWhile_prefix _).length_le
  rw [List.length_drop]
  omega

theorem progress_parseItem {value : Reader Char Json} (hv : Progress value) :
    Progress (parseItem value) := by
  intro s v r h
  obtain ⟨p, hp, he⟩ := Option.map_eq_some_iff.mp h
  cases he
  have h1 := hv _ _ _ hp
  have h2 := length_skipWhitespace_le s
  have h3 := length_skipWhitespace_le p.2
  omega

theorem progress_parseMember {value : Reader Char Json} (hv : Progress value) :
    Progress (parseMember value) := by
  intro s v r h
  obtain ⟨p, hp, hm⟩ := Option.bind_eq_some_iff.mp h
  have h1 := progress_parseString _ _ _ hp
  have h2 := length_skipWhitespace_le s
  have h3 := length_skipWhitespace_le p.2
  split at hm
  · rename_i rest hc
    obtain ⟨q, hq, he⟩ := Option.map_eq_some_iff.mp hm
    cases he
    have h4 := progress_parseItem hv _ _ _ hq
    rw [hc, List.length_cons] at h3
    omega
  · cases hm

theorem progress_parseItems {β : Type} {item : Reader Char β} (hi : Progress item) (close : Char) :
    Progress (parseItems item close) := by
  intro s v r h
  have h1 := length_skipWhitespace_le s
  unfold parseItems at h
  split at h
  · cases h
  · rename_i c rest hc
    rw [hc, List.length_cons] at h1
    split_ifs at h
    · cases h
      omega
    · have h2 := readItems_progress hi _ _ _ _ h
      rw [List.length_cons] at h2
      omega

/-- What `parse_value` takes off a text. -/
inductive Parsed : ℕ → CStr → Json → CStr → Prop
  | null (levels : ℕ) (rest : CStr) : Parsed levels ("null".toList ++ rest) null rest
  | false (levels : ℕ) (rest : CStr) : Parsed levels ("false".toList ++ rest) (bool false) rest
  | true (levels : ℕ) (rest : CStr) : Parsed levels ("true".toList ++ rest) (bool true) rest
  | string (levels : ℕ) {s t rest : CStr} (h : parseString ('"' :: s) = some (t, rest)) :
      Parsed levels ('"' :: s) (string t) rest
  | number (levels : ℕ) {c : Char} {s rest : CStr} {x : Double} (hc : c = '-' ∨ c.isDigit = true)
      (h : parseNumber (c :: s) = some (x, rest)) : Parsed levels (c :: s) (number x) rest
  | array {levels : ℕ} {s rest : CStr} {items : List Json}
      (h : parseItems (parseItem (parseValue levels)) ']' s = some (items, rest)) :
      Parsed (levels + 1) ('[' :: s) (array items) rest
  | object {levels : ℕ} {s rest : CStr} {members : List (CStr × Json)}
      (h : parseItems (parseMember (parseValue levels)) '\x7d' s = some (members, rest)) :
      Parsed (levels + 1) ('\x7b' :: s) (object members) rest

/-- A successful `parse_value` in its cases. -/
theorem parsed_iff {levels : ℕ} {text rest : CStr} {v : Json} :
    parseValue levels text = some (v, rest) ↔ Parsed levels text v rest := by
  constructor
  · intro h
    unfold parseValue at h
    split_ifs at h with h1 h2 h3
    · obtain ⟨behind, rfl⟩ := h1
      cases h
      exact .null levels behind
    · obtain ⟨behind, rfl⟩ := h2
      cases h
      exact .false levels behind
    · obtain ⟨behind, rfl⟩ := h3
      cases h
      exact .true levels behind
    · split at h
      · cases h
      · obtain ⟨p, hp, he⟩ := Option.map_eq_some_iff.mp h
        cases he
        exact .string levels hp
      · cases h
      · cases h
      · obtain ⟨p, hp, he⟩ := Option.map_eq_some_iff.mp h
        cases he
        exact .array hp
      · obtain ⟨p, hp, he⟩ := Option.map_eq_some_iff.mp h
        cases he
        exact .object hp
      · split_ifs at h with hc
        obtain ⟨p, hp, he⟩ := Option.map_eq_some_iff.mp h
        cases he
        exact .number levels hc hp
  · intro h
    cases h with
    | null => exact parseValue_null levels rest
    | false => exact parseValue_false levels rest
    | true => exact parseValue_true levels rest
    | string _ h => rw [parseValue_string, h]; rfl
    | number _ hc h => rw [parseValue_number levels hc, h]; rfl
    | array h => rw [parseValue_array, h]; rfl
    | object h => rw [parseValue_object, h]; rfl

/-- **Every value has at least one character.** -/
theorem progress_parseValue (levels : ℕ) : Progress (parseValue levels) := by
  have hword : ∀ {word rest : CStr}, word ≠ [] → rest.length < (word ++ rest).length := by
    intro word rest hw
    have := List.length_pos_of_ne_nil hw
    rw [List.length_append]
    omega
  induction levels using Nat.strongRecOn with
  | _ levels ih =>
      intro s v r h
      cases parsed_iff.mp h with
      | null => exact hword (by decide)
      | false => exact hword (by decide)
      | true => exact hword (by decide)
      | string _ h => exact progress_parseString _ _ _ h
      | number _ _ h => exact progress_parseNumber _ _ _ h
      | @array l _ _ _ h =>
          have := progress_parseItems (progress_parseItem (ih l l.lt_succ_self)) _ _ _ _ h
          rw [List.length_cons]
          omega
      | @object l _ _ _ h =>
          have := progress_parseItems (progress_parseMember (ih l l.lt_succ_self)) _ _ _ _ h
          rw [List.length_cons]
          omega

/-! ### What the parser accepts -/

theorem nul_not_mem_parseString {text s rest : CStr} (h : parseString text = some (s, rest)) :
    '\x00' ∉ s := by
  unfold parseString at h
  split at h
  · obtain ⟨p, -, h⟩ := Option.bind_eq_some_iff.mp h
    obtain ⟨t, -, he⟩ := Option.map_eq_some_iff.mp h
    cases he
    intro hm
    have := List.mem_takeWhile_imp hm
    simp at this
  · cases h

theorem parseItems_forall {β : Type} {item : Reader Char β} {P : β → Prop}
    (hP : ∀ s v r, item s = some (v, r) → P v) {close : Char} {text rest : CStr} {vs : List β}
    (h : parseItems item close text = some (vs, rest)) : ∀ v ∈ vs, P v := by
  unfold parseItems at h
  split at h
  · cases h
  · split_ifs at h
    · cases h
      exact fun v hv => absurd hv List.not_mem_nil
    · exact readItems_forall hP h

/-- **A tree that the parser returns** nests as deeply as was allowed, and holds C strings. -/
theorem wellFormed_of_parseValue {levels : ℕ} {text rest : CStr} {v : Json}
    (h : parseValue levels text = some (v, rest)) : WellFormed levels v := by
  induction levels using Nat.strongRecOn generalizing text rest v with
  | _ levels ih =>
      cases parsed_iff.mp h with
      | null => simp [Nests]
      | false => simp [Nests]
      | true => simp [Nests]
      | string _ ht => simpa [Nests] using nul_not_mem_parseString ht
      | number => simp [Nests]
      | @array l _ _ _ hi =>
          rw [WellFormed, Nests]
          refine parseItems_forall (fun s w r hw => ?_) hi
          obtain ⟨p, hp, he⟩ := Option.map_eq_some_iff.mp hw
          cases he
          exact ih l l.lt_succ_self hp
      | @object l _ _ _ hm =>
          rw [WellFormed, Nests]
          refine parseItems_forall (fun s w r hw => ?_) hm
          obtain ⟨p, hp, hq⟩ := Option.bind_eq_some_iff.mp hw
          split at hq
          · obtain ⟨q, hq, he⟩ := Option.map_eq_some_iff.mp hq
            obtain ⟨q', hq', he'⟩ := Option.map_eq_some_iff.mp hq
            cases he
            cases he'
            exact ⟨nul_not_mem_parseString hp, ih l l.lt_succ_self hq'⟩
          · cases hq

theorem wellFormed_of_parse {text : CStr} {v : Json} (h : parse text = some v) :
    WellFormed nestingLimit v := by
  obtain ⟨p, hp, rfl⟩ := Option.map_eq_some_iff.mp h
  exact wellFormed_of_parseValue hp

end Json

end Sicae
