import Sicae.CString

/-! # Query strings

`httpd_query_key_value` looks a parameter up in a query.  It searches the `=` first and the `&`
behind it, so that a name may hold an `&`: a parameter without `=` runs into the name of the next
one and hides it.

Every query is a series of pairs, a name without `=` and a value without `&`, and a rest without `=`
(`exists_text`).  What is found is the value of the first pair whose name is the key in any case,
cut to the buffer (`httpdQueryKeyValue_eq_lookup`). -/

namespace Sicae

open CString

/-! ### The source -/

/-- `strchr`: the text from the first occurrence of a character on. -/
def strchr (c : Char) : CStr → Option CStr
  | [] => none
  | d :: s => if d = c then some (d :: s) else strchr c s

/-- `strncasecmp(s, t, n) == 0`. -/
def strncasecmpEq (s t : CStr) (n : ℕ) : Bool :=
  (s.take n).map Char.toLower == (t.take n).map Char.toLower

/-- The results of a look-up, with the content of the buffer. -/
inductive QueryValue where
  | ok (val : CStr)
  | trunc (val : CStr)
  | notFound
deriving DecidableEq, Repr

/-- A value in a buffer of `bufLen` bytes. -/
def QueryValue.copy (bufLen : ℕ) (value : CStr) : QueryValue :=
  let valSize := value.length + 1
  let val := value.take (min valSize bufLen - 1)
  if bufLen < valSize then .trunc val else .ok val

/-- The loop of `httpd_query_key_value`, for at most `fuel` pairs. -/
def queryLoop (key : CStr) (bufLen : ℕ) : ℕ → CStr → QueryValue
  | 0, _ => .notFound
  | fuel + 1, qry =>
      if qry.length = 0 then .notFound
      else
        match strchr '=' qry with
        | none => .notFound
        | some valPtr =>
            let offset := qry.length - valPtr.length
            if offset ≠ key.length || !strncasecmpEq qry key offset then
              match strchr '&' valPtr with
              | none => .notFound
              | some next => queryLoop key bufLen fuel (next.drop 1)
            else
              let valPtr := valPtr.drop 1
              let next := (strchr '&' valPtr).getD []
              .copy bufLen (valPtr.take (valPtr.length - next.length))

/-- `httpd_query_key_value`; every pass drops a character. -/
def httpdQueryKeyValue (qry key : CStr) (valSize : ℕ) : QueryValue :=
  queryLoop key valSize (qry.length + 1) qry

/-! ### Queries by their pairs -/

/-- A parameter of a query. -/
structure QueryPair where
  name : CStr
  value : CStr
  name_eq : '=' ∉ name
  value_amp : '&' ∉ value

/-- A query: its pairs, and what follows the last `&` if that is no pair. -/
structure Query where
  pairs : List QueryPair
  rest : Option CStr
  rest_eq : ∀ r ∈ rest, '=' ∉ r

/-- The text of a query. -/
def queryText : List QueryPair → Option CStr → CStr
  | [], rest => rest.getD []
  | [pair], none => pair.name ++ '=' :: pair.value
  | pair :: pairs, rest => pair.name ++ '=' :: pair.value ++ '&' :: queryText pairs rest

/-- The text of a query. -/
def Query.text (q : Query) : CStr := queryText q.pairs q.rest

/-- Names are compared in any case. -/
def QueryPair.Named (key : CStr) (pair : QueryPair) : Bool :=
  pair.name.map Char.toLower == key.map Char.toLower

/-- The parameter of a query. -/
def Query.find (q : Query) (key : CStr) : Option QueryPair := q.pairs.find? (QueryPair.Named key)

/-- The parameter of a query in a buffer. -/
def Query.lookup (q : Query) (key : CStr) (valSize : ℕ) : QueryValue :=
  match q.find key with
  | none => .notFound
  | some pair => .copy valSize pair.value

/-! ### One pass -/

theorem strchr_eq_none_iff {c : Char} {s : CStr} : strchr c s = none ↔ c ∉ s := by
  induction s with
  | nil => simp [strchr]
  | cons d s ih =>
      rw [strchr, List.mem_cons, not_or]
      split_ifs with h
      · simp [h]
      · rw [ih]
        exact ⟨fun hs => ⟨fun e => h e.symm, hs⟩, fun hs => hs.2⟩

/-- The first occurrence. -/
theorem strchr_append {c : Char} {s : CStr} (hs : c ∉ s) (t : CStr) :
    strchr c (s ++ c :: t) = some (c :: t) := by
  induction s with
  | nil => exact if_pos rfl
  | cons d s ih =>
      obtain ⟨hd, hs⟩ := not_or.mp (fun h => hs (List.mem_cons.mpr h))
      rw [List.cons_append, strchr, if_neg fun e => hd e.symm, ih hs]

/-- The value behind a name, up to the next pair or the end. -/
def behindValue (more : Option CStr) : CStr := (more.map ('&' :: ·)).getD []

theorem strchr_behindValue {value : CStr} (hv : '&' ∉ value) (more : Option CStr) :
    (strchr '&' (value ++ behindValue more)).getD [] = behindValue more ∧
      (more = none → strchr '&' (value ++ behindValue more) = none) := by
  cases more with
  | none =>
      have h := strchr_eq_none_iff.mpr hv
      rw [behindValue, Option.map_none, Option.getD_none, List.append_nil, h]
      exact ⟨rfl, fun _ => rfl⟩
  | some t => exact ⟨congrArg (Option.getD · []) (strchr_append hv t), nofun⟩

/-- A name has the length of the key and its characters, in any case. -/
theorem named_iff (pair : QueryPair) (key behind : CStr) :
    (decide (pair.name.length ≠ key.length) ||
      !strncasecmpEq (pair.name ++ behind) key pair.name.length) = !pair.Named key := by
  unfold strncasecmpEq QueryPair.Named
  rw [List.take_left]
  by_cases hlen : pair.name.length = key.length
  · rw [hlen, List.take_length, decide_eq_false (not_not.mpr rfl), Bool.false_or]
  · rw [decide_eq_true hlen, Bool.true_or, eq_comm, Bool.not_eq_true', beq_eq_false_iff_ne]
    intro h
    exact hlen (by simpa using congrArg List.length h)

/-- **One pass of the loop**: the pair in front is the one or is skipped. -/
theorem queryLoop_pair (key : CStr) (bufLen fuel : ℕ) (pair : QueryPair) (more : Option CStr) :
    queryLoop key bufLen (fuel + 1) (pair.name ++ '=' :: pair.value ++ behindValue more) =
      if pair.Named key then .copy bufLen pair.value
      else (more.map (queryLoop key bufLen fuel)).getD .notFound := by
  have hfind : strchr '=' (pair.name ++ '=' :: pair.value ++ behindValue more) =
      some ('=' :: (pair.value ++ behindValue more)) := by
    rw [List.append_assoc]
    exact strchr_append pair.name_eq _
  have hoffset : (pair.name ++ '=' :: pair.value ++ behindValue more).length -
      ('=' :: (pair.value ++ behindValue more)).length = pair.name.length := by
    simp only [List.length_append, List.length_cons]
    omega
  have hne : ¬(pair.name ++ '=' :: pair.value ++ behindValue more).length = 0 := by simp
  have hnamed := named_iff pair key ('=' :: pair.value ++ behindValue more)
  rw [← List.append_assoc] at hnamed
  obtain ⟨hbehind, hnone⟩ := strchr_behindValue pair.value_amp more
  rw [queryLoop, if_neg hne, hfind]
  dsimp only
  rw [hoffset, hnamed]
  cases pair.Named key with
  | true =>
      rw [Bool.not_true, if_neg Bool.false_ne_true, if_pos rfl, List.drop_one, List.tail_cons,
        hbehind, List.length_append, Nat.add_sub_cancel, List.take_left]
  | false =>
      rw [Bool.not_false, if_pos rfl, if_neg Bool.false_ne_true]
      have hskip : strchr '&' ('=' :: (pair.value ++ behindValue more)) =
          strchr '&' (pair.value ++ behindValue more) := if_neg (by decide)
      rw [hskip]
      cases more with
      | none =>
          rw [hnone rfl]
          rfl
      | some t =>
          have hamp : strchr '&' (pair.value ++ behindValue (some t)) = some ('&' :: t) :=
            strchr_append pair.value_amp t
          rw [hamp]
          rfl

/-! ### All pairs -/

/-- A text without `=` holds no pair. -/
theorem queryLoop_rest {rest : CStr} (h : '=' ∉ rest) (key : CStr) (bufLen fuel : ℕ) :
    queryLoop key bufLen fuel rest = .notFound := by
  cases fuel with
  | zero => rfl
  | succ fuel =>
      rw [queryLoop, strchr_eq_none_iff.mpr h]
      exact ite_self _

theorem queryText_cons (pair : QueryPair) (pairs : List QueryPair) (rest : Option CStr) :
    queryText (pair :: pairs) rest = pair.name ++ '=' :: pair.value ++
      behindValue (if pairs = [] ∧ rest = none then none else some (queryText pairs rest)) := by
  cases pairs with
  | cons => rfl
  | nil =>
      cases rest with
      | none => simp [queryText, behindValue]
      | some r => rfl

/-- The loop over the text of a query, with a pass for each of its characters. -/
theorem queryLoop_text (key : CStr) (bufLen : ℕ) {pairs : List QueryPair} {rest : Option CStr}
    (hrest : ∀ r ∈ rest, '=' ∉ r) {fuel : ℕ} (hfuel : (queryText pairs rest).length < fuel) :
    queryLoop key bufLen fuel (queryText pairs rest) =
      match pairs.find? (QueryPair.Named key) with
      | none => .notFound
      | some pair => .copy bufLen pair.value := by
  induction pairs generalizing fuel with
  | nil =>
      refine queryLoop_rest ?_ key bufLen fuel
      cases rest with
      | none => exact List.not_mem_nil
      | some r => exact hrest r rfl
  | cons pair pairs ih =>
      cases fuel with
      | zero => exact absurd hfuel (Nat.not_lt_zero _)
      | succ fuel =>
          rw [queryText_cons] at hfuel ⊢
          rw [queryLoop_pair]
          cases hnamed : pair.Named key with
          | true => rw [List.find?_cons_of_pos hnamed, if_pos rfl]
          | false =>
              rw [List.find?_cons_of_neg (Bool.eq_false_iff.mp hnamed), if_neg Bool.false_ne_true]
              split_ifs at hfuel ⊢ with hlast
              · rw [hlast.1]
                rfl
              · have hlen : (queryText pairs rest).length < fuel := by
                  simp only [behindValue, List.length_append, List.length_cons, Option.map_some,
                    Option.getD_some] at hfuel
                  omega
                exact ih hlen

/-! ### Every text is a query -/

/-- A text with a character in it, cut at the first one. -/
theorem exists_first {c : Char} {s : CStr} (h : c ∈ s) : ∃ a b, s = a ++ c :: b ∧ c ∉ a := by
  induction s with
  | nil => cases h
  | cons d s ih =>
      by_cases hd : d = c
      · exact ⟨[], s, by rw [hd]; rfl, List.not_mem_nil⟩
      · obtain ⟨a, b, rfl, ha⟩ := ih ((List.mem_cons.mp h).resolve_left fun e => hd e.symm)
        exact ⟨d :: a, b, rfl, fun hm =>
          (List.mem_cons.mp hm).elim (fun e => hd e.symm) ha⟩

/-- A pair in front of a query. -/
theorem Query.exists_cons (pair : QueryPair) (q : Query) :
    ∃ q' : Query, q'.text = pair.name ++ '=' :: pair.value ++ '&' :: q.text := by
  by_cases hlast : q.pairs = [] ∧ q.rest = none
  · -- an empty text behind the `&` is a rest
    refine ⟨⟨[pair], some [], fun r hr => by cases hr; exact List.not_mem_nil⟩, ?_⟩
    have htext : q.text = [] := by
      rw [Query.text, hlast.1, hlast.2]
      rfl
    rw [htext]
    rfl
  · refine ⟨⟨pair :: q.pairs, q.rest, q.rest_eq⟩, ?_⟩
    rw [Query.text, queryText_cons, if_neg hlast]
    rfl

/-- **Every text is the text of a query.** -/
theorem Query.exists_text (s : CStr) : ∃ q : Query, q.text = s := by
  induction hn : s.length using Nat.strongRecOn generalizing s with
  | _ n ih =>
      by_cases heq : '=' ∈ s
      · obtain ⟨name, t, rfl, hname⟩ := exists_first heq
        by_cases hamp : '&' ∈ t
        · obtain ⟨value, more, rfl, hvalue⟩ := exists_first hamp
          obtain ⟨q, hq⟩ := ih more.length
            (by simp only [List.length_append, List.length_cons] at hn; omega) more rfl
          obtain ⟨q', hq'⟩ := q.exists_cons ⟨name, value, hname, hvalue⟩
          exact ⟨q', by rw [hq', hq, List.append_assoc]; rfl⟩
        · exact ⟨⟨[⟨name, t, hname, hamp⟩], none, nofun⟩, rfl⟩
      · exact ⟨⟨[], some s, fun r hr => by cases hr; exact heq⟩, rfl⟩

/-! ### Main result -/

/-- The look-up in the text of a query. -/
theorem httpdQueryKeyValue_text (q : Query) (key : CStr) (valSize : ℕ) :
    httpdQueryKeyValue q.text key valSize = q.lookup key valSize :=
  queryLoop_text key valSize q.rest_eq (Nat.lt_succ_self _)

/-- **The look-up finds the first pair with the name**: every query has its pairs, and whatever they
are, the result is the value of the first one whose name is the key in any case. -/
theorem httpdQueryKeyValue_eq_lookup (qry key : CStr) (valSize : ℕ) :
    (∃ q : Query, q.text = qry) ∧
      ∀ q : Query, q.text = qry → httpdQueryKeyValue qry key valSize = q.lookup key valSize := by
  refine ⟨Query.exists_text qry, ?_⟩
  rintro q rfl
  exact httpdQueryKeyValue_text q key valSize

/-- A parameter without `=` hides the next one. -/
example : httpdQueryKeyValue "x&file=a.js&FILE=b.js".toList "file".toList 256 =
    .ok "b.js".toList := by decide

end Sicae
