import Sicae.JsonRoundTrip

/-! # The first value of a text decides

`cJSON_Parse` does not ask for the end of the text behind the value.  Whatever is appended to a
text that parses is therefore ignored (`parse_append`), unless the value is a number, which what
follows may go on: `1` and `2` make `12`. -/

namespace Sicae

namespace Json

open CString Codec

/-! ### Readers that do not look behind the value -/

theorem skipWhitespace_append_of_ne_nil {s : CStr} (h : skipWhitespace s ≠ []) (more : CStr) :
    skipWhitespace (s ++ more) = skipWhitespace s ++ more := by
  rw [skipWhitespace, List.dropWhile_append, if_neg (by simpa [skipWhitespace] using h)]
  rfl

theorem scanString_append {s body rest : CStr} (h : scanString s = some (body, rest)) (more : CStr) :
    scanString (s ++ more) = some (body, rest ++ more) := by
  fun_induction scanString s generalizing body rest with
  | case1 => cases h
  | case2 => cases h
  | case3 s =>
      cases h
      rfl
  | case4 c s ih =>
      obtain ⟨p, hp, he⟩ := Option.map_eq_some_iff.mp h
      cases he
      rw [List.cons_append, List.cons_append, scanString, ih hp]
      rfl
  | case5 c s h1 h2 h3 ih =>
      obtain ⟨p, hp, he⟩ := Option.map_eq_some_iff.mp h
      cases he
      have hb : c ≠ '\\' := by
        rintro rfl
        cases s with
        | nil => exact h1 rfl rfl
        | cons d s => exact h3 d s rfl rfl
      rw [List.cons_append, scanString_plain (fun e => h2 e) hb, ih hp]
      rfl

theorem parseString_append {s t rest : CStr} (h : parseString s = some (t, rest)) (more : CStr) :
    parseString (s ++ more) = some (t, rest ++ more) := by
  unfold parseString at h
  split at h
  · rename_i s
    obtain ⟨p, hp, hdecode⟩ := Option.bind_eq_some_iff.mp h
    obtain ⟨u, hu, he⟩ := Option.map_eq_some_iff.mp hdecode
    cases he
    rw [List.cons_append, parseString, scanString_append hp more, Option.bind_some]
    dsimp only
    rw [hu]
    rfl
  · cases h

/-- A number with a character behind it that does not go on numbers. -/
theorem parseNumber_append {s rest : CStr} {x : Binary64.Double}
    (h : parseNumber s = some (x, rest)) (hne : rest ≠ []) (hr : Stops isNumberChar rest)
    (more : CStr) : parseNumber (s ++ more) = some (x, rest ++ more) := by
  obtain ⟨p, hp, he⟩ := Option.map_eq_some_iff.mp h
  obtain ⟨rfl, rfl⟩ := Prod.mk.inj he
  -- the text given to `strtod` ends inside `s`
  have hinside : (s.takeWhile isNumberChar).length ≠ s.length := by
    intro hlen
    have hall : s.takeWhile isNumberChar = s :=
      (List.takeWhile_prefix _).eq_of_length hlen
    obtain ⟨c, t, hc⟩ := List.exists_cons_of_ne_nil hne
    have hmem : c ∈ s := List.mem_of_mem_drop (hc ▸ List.mem_cons_self)
    rw [← hall] at hmem
    rw [hc] at hr
    exact Bool.false_ne_true ((stops_cons.mp hr).symm.trans (List.mem_takeWhile_imp hmem))
  have htext : numberText (s ++ more) = numberText s := by
    rw [numberText, List.takeWhile_append, if_neg hinside]
    rfl
  have hle : (numberText s).length - p.2.length ≤ s.length := by
    have : (numberText s).length ≤ s.length :=
      (List.length_take_le' _ _).trans (List.takeWhile_prefix _).length_le
    omega
  rw [parseNumber, htext, hp, Option.map_some, List.drop_append_of_le_length hle]

/-- A value keeps its end if it is no number or a character outside numbers follows. -/
def Closed (v : Json) (rest : CStr) : Prop :=
  (∀ n, v ≠ number n) ∨ (rest ≠ [] ∧ Stops isNumberChar rest)

/-- The reader does not look behind a value that keeps its end. -/
def ReadsOn (value : Reader Char Json) : Prop :=
  ∀ s v rest, value s = some (v, rest) → Closed v rest → ∀ more,
    value (s ++ more) = some (v, rest ++ more)

/-- White space or a delimiter in front: no number goes on there. -/
theorem stops_of_skipWhitespace {rest s : CStr} {c : Char} (h : skipWhitespace rest = c :: s)
    (hc : Delimiter c) : rest ≠ [] ∧ Stops isNumberChar rest := by
  cases rest with
  | nil => cases h
  | cons d rest =>
      refine ⟨nofun, stops_cons.mpr ?_⟩
      by_cases hd : d.toNat ≤ 32
      · exact stops_cons.mp (ends_blanks (by simpa [Blank] using hd : Blank [d]) hc s (createNumber 0))
      · rw [skipWhitespace_cons (by omega)] at h
        cases h
        exact hc.2

section Items

variable {value : Reader Char Json}

theorem parseItem_append (hv : ReadsOn value) (hp : Progress value) {s rest : CStr} {v : Json}
    {c : Char} (h : parseItem value s = some (v, c :: rest)) (hc : Delimiter c) (more : CStr) :
    parseItem value (s ++ more) = some (v, c :: (rest ++ more)) := by
  obtain ⟨⟨w, r⟩, hr, he⟩ := Option.map_eq_some_iff.mp h
  obtain ⟨rfl, hskip⟩ := Prod.mk.inj he
  have hs : skipWhitespace s ≠ [] := by
    intro hnil
    have := hp _ _ _ hr
    simp [hnil] at this
  have hread := hv _ _ _ hr (.inr (stops_of_skipWhitespace hskip hc)) more
  dsimp only at hskip
  rw [parseItem, skipWhitespace_append_of_ne_nil hs, hread, Option.map_some,
    skipWhitespace_append_of_ne_nil (by simp [hskip]), hskip]
  rfl

theorem parseMember_append (hv : ReadsOn value) (hp : Progress value) {s rest : CStr}
    {m : CStr × Json} {c : Char} (h : parseMember value s = some (m, c :: rest)) (hc : Delimiter c)
    (more : CStr) : parseMember value (s ++ more) = some (m, c :: (rest ++ more)) := by
  obtain ⟨⟨name, r⟩, hr, hm⟩ := Option.bind_eq_some_iff.mp h
  split at hm
  · rename_i t hcolon
    obtain ⟨q, hq, he⟩ := Option.map_eq_some_iff.mp hm
    obtain ⟨rfl, hrest⟩ := Prod.mk.inj he
    have hs : skipWhitespace s ≠ [] := by
      intro hnil
      have := progress_parseString _ _ _ hr
      simp [hnil] at this
    have hq' : parseItem value t = some (q.1, c :: rest) := by rw [hq, ← hrest]
    have hitem := parseItem_append hv hp hq' hc more
    dsimp only at hcolon
    rw [parseMember, skipWhitespace_append_of_ne_nil hs, parseString_append hr, Option.bind_some]
    dsimp only
    rw [skipWhitespace_append_of_ne_nil (by simp [hcolon]), hcolon, List.cons_append]
    show Option.map _ (parseItem value _) = _
    rw [hitem]
    rfl
  · cases hm

/-- The items of an array, or the members of an object, up to the closing bracket. -/
theorem parseItems_append {β : Type} {item : Reader Char β} {close : Char} (hne : ',' ≠ close)
    (hitem : ∀ s v c rest, item s = some (v, c :: rest) → c = ',' ∨ c = close →
      ∀ more, item (s ++ more) = some (v, c :: (rest ++ more)))
    {s rest : CStr} {vs : List β} (h : parseItems item close s = some (vs, rest)) (more : CStr) :
    parseItems item close (s ++ more) = some (vs, rest ++ more) := by
  unfold parseItems at h ⊢
  split at h
  · cases h
  · rename_i c t hc
    rw [skipWhitespace_append_of_ne_nil (by simp [hc]), hc, List.cons_append]
    dsimp only
    split_ifs at h ⊢
    · cases h
      rfl
    · have hlen : t.length + 2 ≤ (t ++ more).length + 2 := by
        rw [List.length_append]
        omega
      exact readItems_mono hne hlen (readItems_append hne hitem h more)

end Items

/-- **No value looks behind its end**, numbers aside. -/
theorem readsOn_parseValue (levels : ℕ) : ReadsOn (parseValue levels) := by
  induction levels using Nat.strongRecOn with
  | _ levels ih =>
      intro s v rest h hclosed more
      rw [parsed_iff]
      cases parsed_iff.mp h with
      | null => exact List.append_assoc _ _ more ▸ .null levels (rest ++ more)
      | false => exact List.append_assoc _ _ more ▸ .false levels (rest ++ more)
      | true => exact List.append_assoc _ _ more ▸ .true levels (rest ++ more)
      | string _ h => exact .string levels (parseString_append h more)
      | @number _ c t _ n hc h =>
          rcases hclosed with hn | ⟨hne, hr⟩
          · exact absurd rfl (hn n)
          · exact .number levels hc (parseNumber_append h hne hr more)
      | @array l _ _ _ h =>
          refine .array (parseItems_append (by decide) (fun t w c r hw hc m => ?_) h more)
          have hd : Delimiter c := by rcases hc with rfl | rfl <;> exact ⟨by decide, by decide⟩
          exact parseItem_append (ih l l.lt_succ_self) (progress_parseValue l) hw hd m
      | @object l _ _ _ h =>
          refine .object (parseItems_append (by decide) (fun t w c r hw hc m => ?_) h more)
          have hd : Delimiter c := by rcases hc with rfl | rfl <;> exact ⟨by decide, by decide⟩
          exact parseMember_append (ih l l.lt_succ_self) (progress_parseValue l) hw hd m

/-! ### Main result -/

/-- A text that starts like a byte order mark is no value. -/
theorem not_bom_of_parseValue {levels : ℕ} {s rest : CStr} {v : Json}
    (h : parseValue levels (skipWhitespace ('\xEF' :: s)) = some (v, rest)) : False := by
  rw [skipWhitespace_cons (by decide)] at h
  generalize ht : '\xEF' :: s = text at h
  cases parsed_iff.mp h with
  | null => exact absurd (List.cons.inj ht).1 (by decide)
  | false => exact absurd (List.cons.inj ht).1 (by decide)
  | true => exact absurd (List.cons.inj ht).1 (by decide)
  | string => exact absurd (List.cons.inj ht).1 (by decide)
  | number _ hc =>
      obtain ⟨rfl, -⟩ := List.cons.inj ht
      exact absurd hc (by decide)
  | array => exact absurd (List.cons.inj ht).1 (by decide)
  | object => exact absurd (List.cons.inj ht).1 (by decide)

/-- A text that parses is read up to the same place with more behind it. -/
theorem parseValue_append {text rest : CStr} {v : Json}
    (h : parseValue nestingLimit (skipWhitespace (skipUtf8Bom text)) = some (v, rest))
    (hv : Closed v rest) (more : CStr) :
    parseValue nestingLimit (skipWhitespace (skipUtf8Bom (text ++ more))) =
      some (v, rest ++ more) := by
  have hne : skipWhitespace (skipUtf8Bom text) ≠ [] := by
    intro hnil
    have := progress_parseValue _ _ _ _ h
    simp [hnil] at this
  have hbom : skipUtf8Bom (text ++ more) = skipUtf8Bom text ++ more := by
    unfold skipUtf8Bom
    by_cases hb : 4 ≤ text.length ∧ ['\xEF', '\xBB', '\xBF'] <+: text
    · obtain ⟨behind, rfl⟩ := hb.2
      rw [if_pos hb, if_pos ⟨by rw [List.length_append]; omega, by simp⟩]
      rfl
    · rw [if_neg hb, if_neg]
      rintro ⟨-, hpre⟩
      -- the mark cannot start in front of the end of `text`, which would be no value
      have htext : skipUtf8Bom text = text := if_neg hb
      cases text with
      | nil => exact hne (by rw [htext]; rfl)
      | cons c s =>
          obtain ⟨rfl, -⟩ := List.cons_prefix_cons.mp hpre
          rw [htext] at h
          exact not_bom_of_parseValue h
  rw [hbom, skipWhitespace_append_of_ne_nil hne]
  exact readsOn_parseValue nestingLimit _ _ _ h hv more

/-- **What is appended to a text that parses is ignored**, unless its value is a number. -/
theorem parse_append {text : CStr} {v : Json} (h : parse text = some v) (hv : ∀ n, v ≠ number n)
    (more : CStr) : parse (text ++ more) = some v := by
  obtain ⟨⟨w, rest⟩, hread, rfl⟩ := Option.map_eq_some_iff.mp h
  rw [parse, parseValue_append hread (.inl hv)]
  rfl

theorem parse_null : parse "null".toList = some null := by
  have hnil : Ends null [] := ends_of_stops (stops_nil _) null
  have h := parse_print_append (by simp [Nests] : WellFormed nestingLimit null) false hnil
  rwa [List.append_nil] at h

/-- The tree `{"a":[1,{"b":null}]}`. -/
def nested : Json :=
  object [("a".toList, array [createNumber 1, object [("b".toList, null)]])]

theorem nested_fits : Fits nestingLimit nested := by
  have h := survives_ofInt (show -2 ^ 31 ≤ (1 : ℤ) by decide) (by decide)
  simpa [nested, createNumber, Nests, nestingLimit] using h

theorem parse_append_nested :
    parse (print true nested ++ "[1]".toList) = some nested := by
  have h := parse_print_of_fits nested_fits true (ends_of_stops (stops_nil _) nested)
  rw [List.append_nil] at h
  exact parse_append h nofun "[1]".toList

end Json

end Sicae
