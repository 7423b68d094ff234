import Sicae.JsonNumbers
import Sicae.JsonParser
import Sicae.JsonStrings

/-! # Printed trees are parsed back

What `parse` makes of the print of a tree, in both formats (`parse_print_append`): the tree with
every number as it is read back (`readBack`).  So the two are inverse exactly on the trees that
cJSON can build from texts and whose numbers survive their print (`parse_print_iff`): strings
without NUL, and at most `nestingLimit` arrays and objects inside each other.  The print of a tree
that the parser returned parses to one that differs only in what `compare_double` does not tell
apart and in infinities, which become `null` (`parse_reprint`).

A printed value is read off the front of a text by `parseValue_printValue`; the induction is on the
nesting levels that are left, and inside one level the items and the members are read by the rules
of `Codec.readItems`. -/

namespace Sicae

namespace Json

open CString Codec Binary64

/-- With numbers that come back from their print. -/
abbrev Fits : ℕ → Json → Prop := Nests Survives

mutual

/-- The tree with every number as it is read back from its print. -/
def readBack : Json → Json
  | null => null
  | bool b => bool b
  | number x => readBackNumber x
  | string s => string s
  | array items => array (readBackItems items)
  | object members => object (readBackMembers members)

def readBackItems : List Json → List Json
  | [] => []
  | v :: items => readBack v :: readBackItems items

def readBackMembers : List (CStr × Json) → List (CStr × Json)
  | [] => []
  | (name, v) :: members => (name, readBack v) :: readBackMembers members

end

/-- The trees are the same, but numbers may have been rounded to 15 digits if `compare_double` takes
the result for the same, `-0` may have become `0`, and infinities have become `null`. -/
inductive Alike : Json → Json → Prop
  | null : Alike null null
  | bool (b : Bool) : Alike (bool b) (bool b)
  | string (s : CStr) : Alike (string s) (string s)
  | number (negative : Bool) (m : Magnitude) :
      Alike (number (.finite negative m)) (number (.finite negative m))
  | zero (negative : Bool) {m : Magnitude} (h : m.val = 0) :
      Alike (number (.finite negative m)) (number (.finite false m))
  | shortened (negative : Bool) {m : Magnitude}
      (h : compareDouble (shortened negative m) (.finite negative m) = true) :
      Alike (number (.finite negative m)) (number (shortened negative m))
  | infinite (negative : Bool) : Alike (number (.infinite negative)) null
  | array {items items' : List Json} (h : List.Forall₂ Alike items items') :
      Alike (array items) (array items')
  | object {members members' : List (CStr × Json)}
      (hnames : members.map Prod.fst = members'.map Prod.fst)
      (h : List.Forall₂ Alike (members.map Prod.snd) (members'.map Prod.snd)) :
      Alike (object members) (object members')

/-- A text may follow a number only if it does not go on with a character of numbers. -/
def Ends : Json → CStr → Prop
  | number _, rest => Stops isNumberChar rest
  | _, _ => True

theorem ends_of_stops {rest : CStr} (h : Stops isNumberChar rest) (v : Json) : Ends v rest := by
  cases v <;> first | exact h | trivial

/-! ### Numbers read back -/

theorem readBackItems_eq : ∀ items, readBackItems items = items.map readBack
  | [] => rfl
  | v :: items => congrArg (readBack v :: ·) (readBackItems_eq items)

theorem readBackMembers_eq : ∀ members,
    readBackMembers members = members.map (fun m => (m.1, readBack m.2))
  | [] => rfl
  | (name, v) :: members => congrArg ((name, readBack v) :: ·) (readBackMembers_eq members)

/-- A tree comes back exactly if its numbers do. -/
theorem readBack_eq_iff {levels : ℕ} {v : Json} (hv : WellFormed levels v) :
    readBack v = v ↔ Fits levels v := by
  induction levels using Nat.strongRecOn generalizing v with
  | _ levels ih =>
      cases v with
      | null => simp [readBack, Nests]
      | bool b => simp [readBack, Nests]
      | string s => simpa [readBack, Nests] using hv
      | number x =>
          rw [readBack, readBackNumber_eq_iff]
          simp [Nests]
      | array items =>
          cases levels with
          | zero => exact absurd hv (by simp [Nests])
          | succ levels =>
              have hitems : ∀ v ∈ items, WellFormed levels v := by simpa [Nests] using hv
              have hmap := List.map_eq_map_iff (f := readBack) (g := id) (l := items)
              rw [List.map_id] at hmap
              rw [readBack, readBackItems_eq, array.injEq, hmap, Fits, Nests]
              exact forall₂_congr fun v hm => ih levels levels.lt_succ_self (hitems v hm)
      | object members =>
          cases levels with
          | zero => exact absurd hv (by simp [Nests])
          | succ levels =>
              have hmembers : ∀ m ∈ members, '\x00' ∉ m.1 ∧ WellFormed levels m.2 := by
                simpa [Nests] using hv
              have hmap := List.map_eq_map_iff (f := fun m : CStr × Json => (m.1, readBack m.2))
                (g := id) (l := members)
              rw [List.map_id] at hmap
              rw [readBack, readBackMembers_eq, object.injEq, hmap, Fits, Nests]
              refine forall₂_congr fun m hm => ?_
              have hback := ih levels levels.lt_succ_self (hmembers m hm).2
              exact ⟨fun h => ⟨(hmembers m hm).1, hback.mp (congrArg Prod.snd h)⟩,
                fun h => Prod.ext rfl (hback.mpr h.2)⟩

theorem names_readBackMembers (members : List (CStr × Json)) :
    members.map Prod.fst = (readBackMembers members).map Prod.fst := by
  rw [readBackMembers_eq, List.map_map]
  rfl

mutual

/-- **What comes back is alike.** -/
theorem alike_readBack : ∀ v : Json, Alike v (readBack v)
  | null => .null
  | bool b => .bool b
  | number (.infinite negative) => .infinite negative
  | number (.finite negative m) => by
      rw [readBack]
      rcases readBackNumber_cases negative m with h | ⟨h0, h⟩ | ⟨hcompare, h⟩
      · exact h ▸ .number negative m
      · exact h ▸ .zero negative h0
      · exact h ▸ .shortened negative hcompare
  | string s => .string s
  | array items => .array (alike_readBackItems items)
  | object members => .object (names_readBackMembers members) (alike_readBackMembers members)

theorem alike_readBackItems : ∀ items : List Json,
    List.Forall₂ Alike items (readBackItems items)
  | [] => .nil
  | v :: items => .cons (alike_readBack v) (alike_readBackItems items)

theorem alike_readBackMembers : ∀ members : List (CStr × Json),
    List.Forall₂ Alike (members.map Prod.snd) ((readBackMembers members).map Prod.snd)
  | [] => .nil
  | (_, v) :: members => .cons (alike_readBack v) (alike_readBackMembers members)

end

/-! ### Values -/

theorem toNat_of_isDigit {c : Char} (h : c.isDigit = true) : 48 ≤ c.toNat ∧ c.toNat ≤ 57 := by
  simp only [Char.isDigit, Bool.and_eq_true, decide_eq_true_eq, ge_iff_le] at h
  exact h

/-- A printed value starts with an ASCII character that is neither white space nor a closing
bracket. -/
theorem printValue_cons (format : Bool) (depth : ℕ) (v : Json) :
    ∃ c s, printValue format depth v = c :: s ∧ (32 < c.toNat ∧ c.toNat < 128) ∧ c ≠ ']' := by
  cases v with
  | null => exact ⟨_, _, by rw [printValue]; rfl, by decide, by decide⟩
  | bool b => cases b <;> exact ⟨_, _, by rw [printValue]; rfl, by decide, by decide⟩
  | string s => exact ⟨_, _, by rw [printValue]; rfl, by decide, by decide⟩
  | array items => exact ⟨_, _, by rw [printValue], by decide, by decide⟩
  | object members => exact ⟨_, _, by rw [printValue], by decide, by decide⟩
  | number x =>
      cases x with
      | infinite negative => exact ⟨_, _, by rw [printValue]; rfl, by decide, by decide⟩
      | finite negative m =>
          obtain ⟨y, -, htext⟩ := printNumber_spec negative m
          obtain ⟨c, s, he, hc⟩ := htext.cons
          refine ⟨c, s, by rw [printValue, he], ?_⟩
          rcases hc with rfl | hc
          · decide
          · have hn := toNat_of_isDigit hc
            refine ⟨by omega, ?_⟩
            rintro rfl
            exact absurd hn (by decide)

/-! ### Items and members -/

/-- What may stand behind an item: a character that neither is white space nor belongs to
numbers. -/
def Delimiter (c : Char) : Prop := 32 < c.toNat ∧ isNumberChar c = false

theorem ends_blanks {blanks : CStr} (hb : Blank blanks) {c : Char} (hc : Delimiter c) (rest : CStr)
    (v : Json) : Ends v (blanks ++ c :: rest) := by
  refine ends_of_stops ?_ v
  cases blanks with
  | nil => exact stops_cons.mpr hc.2
  | cons b blanks =>
      have hle := hb b List.mem_cons_self
      refine stops_cons.mpr ?_
      by_contra hn
      have hne : ∀ d : Char, 32 < d.toNat → b ≠ d := by
        rintro d hd rfl
        omega
      have hd : b.isDigit = false := by
        by_contra h
        have := toNat_of_isDigit (by simpa using h)
        omega
      simp [isNumberChar, isNumberTail, hd, hne '.' (by decide), hne 'e' (by decide),
        hne 'E' (by decide), hne '+' (by decide), hne '-' (by decide)] at hn

section Levels

variable {value : Reader Char Json} {format : Bool} {depth : ℕ}

/-- A value with white space around it is read as an item. -/
theorem parseItem_reads {v : Json} (hv : Reads value (Ends v) (printValue format depth v) (readBack v))
    {before after : CStr} (hb : Blank before) (ha : Blank after) {c : Char} (hc : Delimiter c)
    (rest : CStr) :
    parseItem value (before ++ (printValue format depth v ++ (after ++ c :: rest))) =
      some (readBack v, c :: rest) := by
  obtain ⟨d, s, he, ⟨hd, -⟩, -⟩ := printValue_cons format depth v
  have hskip : skipWhitespace (before ++ (printValue format depth v ++ (after ++ c :: rest))) =
      printValue format depth v ++ (after ++ c :: rest) := by
    rw [skipWhitespace_append hb, he, List.cons_append, skipWhitespace_cons hd]
  rw [parseItem, hskip, hv _ (ends_blanks ha hc rest v), Option.map_some,
    skipWhitespace_append ha, skipWhitespace_cons hc.1]

/-- The loop of `parse_array` reads what the loop of `print_array` wrote. -/
theorem readItems_printItems : ∀ {items : List Json} {n : ℕ} {before : CStr} (rest : CStr),
    (∀ v ∈ items, Reads value (Ends v) (printValue format depth v) (readBack v)) → items ≠ [] →
    items.length ≤ n → Blank before →
    readItems (parseItem value) ',' ']' n
      (before ++ (printItems format depth items ++ ']' :: rest)) = some (readBackItems items, rest)
  | [], _, _, _, _, hne, _, _ => absurd rfl hne
  | _ :: _, 0, _, _, _, _, hn, _ => by simp at hn
  | [v], n + 1, before, rest, hv, _, _, hb => by
      have h := parseItem_reads (hv v List.mem_cons_self) hb blank_nil
        (show Delimiter ']' from ⟨by decide, by decide⟩) rest
      rw [printItems]
      exact readItems_close (by decide) h n
  | v :: w :: items, n + 1, before, rest, hv, _, hn, hb => by
      have hspace : Blank (if format then [' '] else []) := blank_ite format (by decide)
      have hlen : (w :: items).length ≤ n := Nat.le_of_succ_le_succ hn
      have ih := readItems_printItems rest (fun u hu => hv u (List.mem_cons_of_mem _ hu)) nofun hlen
        hspace
      have h := parseItem_reads (hv v List.mem_cons_self) hb blank_nil
        (show Delimiter ',' from ⟨by decide, by decide⟩)
        ((if format then [' '] else []) ++ (printItems format depth (w :: items) ++ ']' :: rest))
      have htext : before ++ (printItems format depth (v :: w :: items) ++ ']' :: rest) =
          before ++ (printValue format depth v ++ ([] ++ ',' :: ((if format then [' '] else []) ++
            (printItems format depth (w :: items) ++ ']' :: rest)))) := by
        rw [printItems]
        simp only [List.append_assoc, List.cons_append, List.nil_append]
      rw [htext, readItems_sep h, ih]
      rfl

/-- A member with white space around it is read as one. -/
theorem parseMember_reads {name : CStr} (hname : '\x00' ∉ name) {v : Json}
    (hv : Reads value (Ends v) (printValue format depth v) (readBack v)) {before between after : CStr}
    (hb : Blank before) (hm : Blank between) (ha : Blank after) {c : Char} (hc : Delimiter c)
    (rest : CStr) :
    parseMember value (before ++ (printString name ++ (':' :: (between ++
      (printValue format depth v ++ (after ++ c :: rest)))))) = some ((name, readBack v), c :: rest) := by
  have hquote : ∀ s, skipWhitespace (printString name ++ s) = printString name ++ s := fun s =>
    skipWhitespace_cons (by decide) _
  have hcolon : ∀ s, skipWhitespace (':' :: s) = ':' :: s := fun s =>
    skipWhitespace_cons (by decide) s
  rw [parseMember, skipWhitespace_append hb, hquote, parseString_printString hname,
    Option.bind_some, hcolon]
  show Option.map _ (parseItem value _) = _
  rw [parseItem_reads hv hm ha hc rest]
  rfl

/-- The loop of `parse_object` reads what the loop of `print_object` wrote. -/
theorem readItems_printMembers : ∀ {members : List (CStr × Json)} {n : ℕ} {before after : CStr}
    (rest : CStr),
    (∀ m ∈ members, '\x00' ∉ m.1 ∧ Reads value (Ends m.2) (printValue format depth m.2) (readBack m.2)) →
    members ≠ [] → members.length ≤ n → Blank before → Blank after →
    readItems (parseMember value) ',' '\x7d' n
      (before ++ (printMembers format depth members ++ (after ++ '\x7d' :: rest))) =
        some (readBackMembers members, rest)
  | [], _, _, _, _, _, hne, _, _, _ => absurd rfl hne
  | _ :: _, 0, _, _, _, _, _, hn, _, _ => by simp at hn
  | (name, v) :: members, n + 1, before, after, rest, hm, _, hn, hb, ha => by
      have htabs : Blank (before ++ if format then List.replicate depth '\t' else []) :=
        blank_append hb (blank_ite format (blank_tabs depth))
      have htab : Blank (if format then ['\t'] else []) := blank_ite format (by decide)
      have hline : Blank (if format then ['\n'] else []) := blank_ite format (by decide)
      obtain ⟨hname, hv⟩ := hm (name, v) List.mem_cons_self
      cases members with
      | nil =>
          have h := parseMember_reads hname hv htabs htab (blank_append hline ha)
            (show Delimiter '\x7d' from ⟨by decide, by decide⟩) rest
          have htext : before ++ (printMembers format depth [(name, v)] ++ (after ++ '\x7d' :: rest)) =
              (before ++ if format then List.replicate depth '\t' else []) ++ (printString name ++
                (':' :: ((if format then ['\t'] else []) ++ (printValue format depth v ++
                  (((if format then ['\n'] else []) ++ after) ++ '\x7d' :: rest))))) := by
            rw [printMembers, printMembers]
            simp only [List.append_assoc, List.cons_append, List.nil_append, if_true]
          rw [htext]
          exact readItems_close (by decide) h n
      | cons m members =>
          have hlen : (m :: members).length ≤ n := Nat.le_of_succ_le_succ hn
          have ih := readItems_printMembers rest (fun u hu => hm u (List.mem_cons_of_mem _ hu)) nofun
            hlen hline ha
          have h := parseMember_reads hname hv htabs htab blank_nil
            (show Delimiter ',' from ⟨by decide, by decide⟩) ((if format then ['\n'] else []) ++
              (printMembers format depth (m :: members) ++ (after ++ '\x7d' :: rest)))
          have htext : before ++ (printMembers format depth ((name, v) :: m :: members) ++
              (after ++ '\x7d' :: rest)) =
              (before ++ if format then List.replicate depth '\t' else []) ++ (printString name ++
                (':' :: ((if format then ['\t'] else []) ++ (printValue format depth v ++ ([] ++
                  ',' :: ((if format then ['\n'] else []) ++
                    (printMembers format depth (m :: members) ++ (after ++ '\x7d' :: rest)))))))) := by
            rw [printMembers]
            simp only [List.append_assoc, List.cons_append, List.nil_append, reduceCtorEq, if_false]
          rw [htext, readItems_sep h, ih]
          rfl

end Levels

/-! ### The round trip -/

/-- Nothing but the closing bracket. -/
theorem parseItems_nil {β : Type} {item : Reader Char β} {close : Char} {text rest : CStr}
    (h : skipWhitespace text = close :: rest) : parseItems item close text = some ([], rest) := by
  unfold parseItems
  rw [h]
  exact if_pos rfl

/-- The loop over the items, with any bound on its rounds that is high enough. -/
theorem parseItems_of_readItems {β : Type} {item : Reader Char β} (hp : Progress item)
    {close c : Char} {text s rest : CStr} {vs : List β} (hc : skipWhitespace text = c :: s)
    (hne : c ≠ close) {k : ℕ}
    (h : ∀ n, k ≤ n → readItems item ',' close n (c :: s) = some (vs, rest)) :
    parseItems item close text = some (vs, rest) := by
  unfold parseItems
  rw [hc]
  dsimp only
  rw [if_neg hne, ← h (k + (s.length + 2)) (Nat.le_add_right _ _)]
  exact readItems_stable hp (by rw [List.length_cons]; omega) (by rw [List.length_cons]; omega)

theorem parseItems_printItems {value : Reader Char Json} (hp : Progress value) {format : Bool}
    {depth : ℕ} {items : List Json}
    (hv : ∀ v ∈ items, Reads value (Ends v) (printValue format depth v) (readBack v)) (rest : CStr) :
    parseItems (parseItem value) ']' (printItems format depth items ++ ']' :: rest) =
      some (readBackItems items, rest) := by
  cases items with
  | nil => exact parseItems_nil (skipWhitespace_cons (by decide) rest)
  | cons v items =>
      have hread := fun (n : ℕ) hn => @readItems_printItems _ format depth _ n [] rest hv nofun hn
        blank_nil
      obtain ⟨c, s, he, ⟨hc, -⟩, hne⟩ := printValue_cons format depth v
      obtain ⟨t, ht⟩ : ∃ t, printItems format depth (v :: items) ++ ']' :: rest = c :: t := by
        cases items <;> rw [printItems, he] <;> exact ⟨_, rfl⟩
      rw [ht] at hread ⊢
      exact parseItems_of_readItems (progress_parseItem hp) (skipWhitespace_cons hc t) hne hread

/-- White space in front of the first member does not matter to the loop. -/
theorem readItems_skipWhitespace {value : Reader Char Json} (n : ℕ) (text : CStr) :
    readItems (parseMember value) ',' '\x7d' n (skipWhitespace text) =
      readItems (parseMember value) ',' '\x7d' n text := by
  have hidem : skipWhitespace (skipWhitespace text) = skipWhitespace text :=
    List.dropWhile_idempotent _ _
  cases n with
  | zero => rfl
  | succ n => rw [readItems, readItems, parseMember, parseMember, hidem]

theorem parseItems_printMembers {value : Reader Char Json} (hp : Progress value) {format : Bool}
    {depth : ℕ} {members : List (CStr × Json)}
    (hm : ∀ m ∈ members, '\x00' ∉ m.1 ∧ Reads value (Ends m.2) (printValue format depth m.2) (readBack m.2))
    {before after : CStr} (hb : Blank before) (ha : Blank after) (rest : CStr) :
    parseItems (parseMember value) '\x7d'
      (before ++ (printMembers format depth members ++ (after ++ '\x7d' :: rest))) =
        some (readBackMembers members, rest) := by
  cases members with
  | nil =>
      rw [printMembers, List.nil_append]
      exact parseItems_nil (by
        rw [skipWhitespace_append hb, skipWhitespace_append ha, skipWhitespace_cons (by decide)])
  | cons m members =>
      have hread := fun (n : ℕ) hn => @readItems_printMembers _ format depth _ n before after rest hm
        nofun hn hb ha
      obtain ⟨t, ht⟩ : ∃ t, skipWhitespace (before ++ (printMembers format depth (m :: members) ++
          (after ++ '\x7d' :: rest))) = '"' :: t := by
        rw [skipWhitespace_append hb, printMembers]
        simp only [List.append_assoc]
        rw [skipWhitespace_append (blank_ite format (blank_tabs depth)), printString,
          List.cons_append, skipWhitespace_cons (by decide)]
        exact ⟨_, rfl⟩
      have hskip : ∀ n, (m :: members).length ≤ n →
          readItems (parseMember value) ',' '\x7d' n ('"' :: t) =
            some (readBackMembers (m :: members), rest) := by
        intro n hn
        rw [← ht, readItems_skipWhitespace]
        exact hread n hn
      exact parseItems_of_readItems (progress_parseMember hp) ht (by decide) hskip

/-- **A printed value is read back** in front of any text that may follow it. -/
theorem parseValue_printValue (format : Bool) : ∀ {levels : ℕ} {v : Json}, WellFormed levels v →
    ∀ depth, Reads (parseValue levels) (Ends v) (printValue format depth v) (readBack v) := by
  intro levels
  induction levels using Nat.strongRecOn with
  | _ levels ih =>
      intro v hv depth rest hr
      cases v with
      | null =>
          rw [printValue]
          exact parseValue_null levels rest
      | bool b =>
          cases b
          · rw [printValue]
            exact parseValue_false levels rest
          · rw [printValue]
            exact parseValue_true levels rest
      | string s =>
          have hs : '\x00' ∉ s := by simpa [Nests] using hv
          have h := parseString_printString hs rest
          rw [printValue]
          exact (parseValue_string levels _).trans (congrArg (Option.map _) h)
      | number x =>
          rw [printValue, readBack]
          cases x with
          | infinite negative => exact parseValue_null levels rest
          | finite negative m =>
              obtain ⟨y, hy, htext⟩ := printNumber_spec negative m
              have h := htext.parseNumber hr
              obtain ⟨c, s, he, hc⟩ := htext.cons
              rw [hy]
              rw [he, List.cons_append] at h ⊢
              rw [parseValue_number levels hc, h]
              rfl
      | array items =>
          cases levels with
          | zero => exact absurd hv (by simp [Nests])
          | succ levels =>
              have hitems : ∀ v ∈ items, WellFormed levels v := by simpa [Nests] using hv
              have htext : printValue format depth (array items) ++ rest =
                  '[' :: (printItems format (depth + 1) items ++ ']' :: rest) := by
                rw [printValue]
                simp only [List.cons_append, List.append_assoc, List.nil_append]
              have hread : parseItems (parseItem (parseValue levels)) ']'
                  (printItems format (depth + 1) items ++ ']' :: rest) =
                    some (readBackItems items, rest) :=
                parseItems_printItems (progress_parseValue levels)
                  (fun v hv' => ih levels levels.lt_succ_self (hitems v hv') (depth + 1)) rest
              rw [htext, parseValue_array, hread]
              rfl
      | object members =>
          cases levels with
          | zero => exact absurd hv (by simp [Nests])
          | succ levels =>
              have hmembers : ∀ m ∈ members, '\x00' ∉ m.1 ∧ WellFormed levels m.2 := by
                simpa [Nests] using hv
              have hread := parseItems_printMembers (progress_parseValue levels)
                (fun m hm => ⟨(hmembers m hm).1, ih levels levels.lt_succ_self (hmembers m hm).2
                  (depth + 1)⟩) (blank_ite format (by decide : Blank ['\n']))
                (blank_ite format (blank_tabs depth)) rest
              have htext : printValue format depth (object members) ++ rest =
                  '\x7b' :: ((if format then ['\n'] else []) ++
                    (printMembers format (depth + 1) members ++
                      ((if format then List.replicate depth '\t' else []) ++ '\x7d' :: rest))) := by
                rw [printValue]
                simp only [List.cons_append, List.append_assoc, List.nil_append]
              rw [htext, parseValue_object, hread]
              rfl

/-! ### Main results -/

theorem parse_print_append {v : Json} (hv : WellFormed nestingLimit v) (format : Bool) {rest : CStr}
    (hr : Ends v rest) : parse (print format v ++ rest) = some (readBack v) := by
  have hread := parseValue_printValue format hv 0 rest hr
  obtain ⟨c, s, he, ⟨hc, hlt⟩, -⟩ := printValue_cons format 0 v
  have hbom : skipUtf8Bom (print format v ++ rest) = print format v ++ rest := by
    refine if_neg fun h => ?_
    rw [print, he, List.cons_append, List.cons_prefix_cons] at h
    rw [← h.2.1] at hlt
    exact absurd hlt (by decide)
  have hskip : skipWhitespace (print format v ++ rest) = print format v ++ rest := by
    rw [print, he, List.cons_append, skipWhitespace_cons hc]
  rw [parse, hbom, hskip, print, hread]
  rfl

/-- A tree whose numbers survive comes back. -/
theorem parse_print_of_fits {v : Json} (hv : Fits nestingLimit v) (format : Bool) {rest : CStr}
    (hr : Ends v rest) : parse (print format v ++ rest) = some v := by
  rw [parse_print_append hv.wellFormed format hr, (readBack_eq_iff hv.wellFormed).mpr hv]

/-- **Printing and parsing are inverse** exactly on the trees of C strings and numbers that survive
their print and nest at most `nestingLimit` deep, in both formats and in front of any text that does
not go on a number. -/
theorem parse_print_iff (format : Bool) (v : Json) :
    (∀ rest, Ends v rest → parse (print format v ++ rest) = some v) ↔ Fits nestingLimit v := by
  constructor
  · intro h
    have hnil := h [] (ends_of_stops (stops_nil _) v)
    have hv := wellFormed_of_parse hnil
    rw [parse_print_append hv format (ends_of_stops (stops_nil _) v)] at hnil
    exact (readBack_eq_iff hv).mp (Option.some.inj hnil)
  · exact fun hv rest hr => parse_print_of_fits hv format hr

/-- **Every accepted text means what its reprint means**, up to what `compare_double` does not tell
apart. -/
theorem parse_reprint {text : CStr} {v : Json} (h : parse text = some v) :
    WellFormed nestingLimit v ∧
      ∃ w, Alike v w ∧ ∀ format, parse (print format v) = some w := by
  have hv := wellFormed_of_parse h
  refine ⟨hv, readBack v, alike_readBack v, fun format => ?_⟩
  have hp := parse_print_append hv format (ends_of_stops (stops_nil _) v)
  rwa [List.append_nil] at hp

/-- A text with an array in an object, a number that 15 digits change, `-0` and a number that is too
large for a `double`. -/
def mixedText : CStr :=
  "\x7b\"a\":[0.30000000000000004,-0,1e400,\x7b\"b\":null\x7d],\"c\":-1.5e3\x7d".toList

theorem parse_reprint_mixed :
    ∃ v, parse mixedText = some v ∧ WellFormed nestingLimit v ∧
      ∃ w, Alike v w ∧ ∀ format, parse (print format v) = some w := by
  obtain ⟨v, hv⟩ := Option.isSome_iff_exists.mp (by decide +kernel : (parse mixedText).isSome = true)
  exact ⟨v, hv, parse_reprint hv⟩

end Json

end Sicae
