import Sicae.CString
import Mathlib.Logic.Function.Basic

/-! # The fields of a URL

`http_parser_parse_url` runs the state machine of `parse_url_char` over a URL and notes, for each
field, where it starts and how long it is; `http_parse_host` takes the host apart.  The server keeps
the result and reads the path and the query through it.

A URL that starts with a slash is accepted exactly if it is a path, a query behind the first `?`
and a fragment behind the first `#`.  The fields noted are these parts as long as the URL has less
than `2 ^ 16` characters, since offsets and lengths have 16 bits (`parseUrl_origin_iff`).  A query
that is empty is not noted. -/

namespace Sicae

open CString

/-! ### The source -/

/-- The states of `parse_url_char`. -/
inductive UrlState where
  | dead
  | spacesBeforeUrl
  | schema
  | schemaSlash
  | schemaSlashSlash
  | serverStart
  | server
  | serverWithAt
  | path
  | queryStringStart
  | queryString
  | fragmentStart
  | fragment
deriving DecidableEq, Repr

/-- IS_URL_CHAR, the table `normal_url_char` of the strict parser. -/
def isUrlChar (c : Char) : Bool := 33 ≤ c.toNat && c.toNat ≤ 126 && c != '#' && c != '?'

/-- IS_MARK. -/
def isMark (c : Char) : Bool := c ∈ ['-', '_', '.', '!', '~', '*', '\'', '(', ')']

/-- IS_USERINFO_CHAR. -/
def isUserinfoChar (c : Char) : Bool :=
  c.isAlphanum || isMark c || c ∈ ['%', ';', ':', '&', '=', '+', '$', ',']

/-- The cases `s_req_server_start` and `s_req_server`. -/
def parseServerChar (ch : Char) : UrlState :=
  if ch = '/' then .path
  else if ch = '?' then .queryStringStart
  else if ch = '@' then .serverWithAt
  else if isUserinfoChar ch || ch = '[' || ch = ']' then .server
  else .dead

/-- `parse_url_char`, with HTTP_PARSER_STRICT. -/
def parseUrlChar (s : UrlState) (ch : Char) : UrlState :=
  if ch = ' ' || ch = '\r' || ch = '\n' then .dead
  else if ch = '\t' || ch = '\x0C' then .dead
  else
    match s with
    | .spacesBeforeUrl =>
        if ch = '/' || ch = '*' then .path else if ch.isAlpha then .schema else .dead
    | .schema => if ch.isAlpha then .schema else if ch = ':' then .schemaSlash else .dead
    | .schemaSlash => if ch = '/' then .schemaSlashSlash else .dead
    | .schemaSlashSlash => if ch = '/' then .serverStart else .dead
    | .serverWithAt => if ch = '@' then .dead else parseServerChar ch
    | .serverStart | .server => parseServerChar ch
    | .path =>
        if isUrlChar ch then .path
        else if ch = '?' then .queryStringStart
        else if ch = '#' then .fragmentStart
        else .dead
    | .queryStringStart | .queryString =>
        if isUrlChar ch then .queryString
        else if ch = '?' then .queryString
        else if ch = '#' then .fragmentStart
        else .dead
    | .fragmentStart =>
        if isUrlChar ch then .fragment
        else if ch = '?' then .fragment
        else if ch = '#' then .fragmentStart
        else .dead
    | .fragment => if isUrlChar ch || ch = '?' || ch = '#' then .fragment else .dead
    | .dead => .dead

/-- `enum http_parser_url_fields`. -/
inductive UrlField where
  | schema
  | host
  | port
  | path
  | query
  | fragment
  | userinfo
deriving DecidableEq, Repr

/-- `field_set` and `field_data` of `struct http_parser_url`: where the fields that are set start,
and their lengths. -/
abbrev UrlData := UrlField → Option (BitVec 16 × BitVec 16)

/-- An element of `field_data`. -/
def fieldData (off len : ℕ) : BitVec 16 × BitVec 16 := (BitVec.ofNat 16 off, BitVec.ofNat 16 len)

/-- A field that starts at `off` with one character. -/
def UrlData.start (u : UrlData) (uf : UrlField) (off : ℕ) : UrlData :=
  Function.update u uf (some (fieldData off 1))

/-- One more character in a field. -/
def UrlData.extend (u : UrlData) (uf : UrlField) : UrlData :=
  Function.update u uf ((u uf).map fun d => (d.1, d.2 + 1))

/-- What the loop of `http_parser_parse_url` does in a state. -/
inductive UrlVisit where
  | fail
  | skip
  | field (uf : UrlField)

/-- The `switch` of that loop. -/
def UrlState.visit : UrlState → UrlVisit
  | .dead => .fail
  | .schemaSlash | .schemaSlashSlash | .serverStart | .queryStringStart | .fragmentStart => .skip
  | .schema => .field .schema
  | .serverWithAt | .server => .field .host
  | .path => .field .path
  | .queryString => .field .query
  | .fragment => .field .fragment
  | .spacesBeforeUrl => .fail

/-- The loop of `http_parser_parse_url` from position `p` on, with `found_at` in the result. -/
def parseUrlLoop : CStr → ℕ → UrlState → Option UrlField → Bool → UrlData → Option (Bool × UrlData)
  | [], _, _, _, foundAt, u => some (foundAt, u)
  | ch :: rest, p, s, oldUf, foundAt, u =>
      let s' := parseUrlChar s ch
      match s'.visit with
      | .fail => none
      | .skip => parseUrlLoop rest (p + 1) s' oldUf foundAt u
      | .field uf =>
          let foundAt' := foundAt || s' = .serverWithAt
          if oldUf = some uf then parseUrlLoop rest (p + 1) s' oldUf foundAt' (u.extend uf)
          else parseUrlLoop rest (p + 1) s' (some uf) foundAt' (u.start uf p)

/-! The host -/

/-- `enum http_host_state`. -/
inductive HostState where
  | dead
  | userinfoStart
  | userinfo
  | hostStart
  | hostV6Start
  | host
  | hostV6
  | hostV6End
  | hostV6ZoneStart
  | hostV6Zone
  | portStart
  | port
deriving DecidableEq, Repr

/-- IS_HOST_CHAR. -/
def isHostChar (c : Char) : Bool := c.isAlphanum || c = '.' || c = '-'

/-- IS_HEX. -/
def isHexChar (c : Char) : Bool := c.isDigit || c.toLower ∈ ['a', 'b', 'c', 'd', 'e', 'f']

/-- The characters of a zone. -/
def isZoneChar (c : Char) : Bool := c.isAlphanum || c ∈ ['%', '.', '-', '_', '~']

/-- `http_parse_host_char`. -/
def parseHostChar (s : HostState) (ch : Char) : HostState :=
  match s with
  | .userinfo | .userinfoStart =>
      if ch = '@' then .hostStart else if isUserinfoChar ch then .userinfo else .dead
  | .hostStart => if ch = '[' then .hostV6Start else if isHostChar ch then .host else .dead
  | .host => if isHostChar ch then .host else if ch = ':' then .portStart else .dead
  | .hostV6End => if ch = ':' then .portStart else .dead
  | .hostV6 =>
      if ch = ']' then .hostV6End
      else if isHexChar ch || ch = ':' || ch = '.' then .hostV6
      else if ch = '%' then .hostV6ZoneStart
      else .dead
  | .hostV6Start => if isHexChar ch || ch = ':' || ch = '.' then .hostV6 else .dead
  | .hostV6Zone =>
      if ch = ']' then .hostV6End else if isZoneChar ch then .hostV6Zone else .dead
  | .hostV6ZoneStart => if isZoneChar ch then .hostV6Zone else .dead
  | .port | .portStart => if ch.isDigit then .port else .dead
  | .dead => .dead

/-- The host goes on at `p`, or starts there. -/
def UrlData.host (u : UrlData) (goesOn : Bool) (p : ℕ) : UrlData :=
  Function.update u .host
    ((u .host).map fun d => (if goesOn then d.1 else BitVec.ofNat 16 p, d.2 + 1))

/-- The `switch` of the loop of `http_parse_host`, from `s` to `s'`. -/
def visitHost (s s' : HostState) (p : ℕ) (u : UrlData) : UrlData :=
  match s' with
  | .host | .hostV6 => u.host (s = s') p
  | .hostV6ZoneStart | .hostV6Zone => u.host true p
  | .port => if s = s' then u.extend .port else u.start .port p
  | .userinfo => if s = s' then u.extend .userinfo else u.start .userinfo p
  | _ => u

/-- That loop, over the text of the host. -/
def parseHostLoop : CStr → ℕ → HostState → UrlData → Option (HostState × UrlData)
  | [], _, s, u => some (s, u)
  | ch :: rest, p, s, u =>
      let s' := parseHostChar s ch
      if s' = .dead then none else parseHostLoop rest (p + 1) s' (visitHost s s' p u)

/-- `http_parse_host`, for the host at `off` with `len` characters. -/
def parseHost (buf : CStr) (u : UrlData) (foundAt : Bool) (off len : BitVec 16) : Option UrlData :=
  let u := Function.update u .host (some (off, 0))
  match parseHostLoop ((buf.drop off.toNat).take len.toNat) off.toNat
      (if foundAt then .userinfoStart else .hostStart) u with
  | none => none
  | some (s, u) => if s ∈ [.host, .hostV6End, .port] then some u else none

/-- `strtoul` on a text that starts with a digit. -/
def strtoul (s : CStr) : ℕ := (s.takeWhile Char.isDigit).foldl (fun n c => 10 * n + (c.toNat - 48)) 0

/-- The checks of `http_parser_parse_url` behind its loop. -/
def checkUrl (isConnect : Bool) (buf : CStr) (u : UrlData) : Option UrlData :=
  if isConnect && ((u .host).isNone || (u .port).isNone ||
      [UrlField.schema, .path, .query, .fragment, .userinfo].any fun uf => (u uf).isSome) then none
  else
    match u .port with
    | some (off, _) => if strtoul (buf.drop off.toNat) > 0xffff then none else some u
    | none => some u

/-- `http_parser_parse_url`. -/
def parseUrl (isConnect : Bool) (buf : CStr) : Option UrlData :=
  match parseUrlLoop buf 0 (if isConnect then .serverStart else .spacesBeforeUrl) none false
      fun _ => none with
  | none => none
  | some (foundAt, u) =>
      match u .host with
      | none => if (u .schema).isSome then none else checkUrl isConnect buf u
      | some (off, len) =>
          match parseHost buf u foundAt off len with
          | none => none
          | some u => checkUrl isConnect buf u

/-- The text of a field. -/
def UrlData.slice (u : UrlData) (buf : CStr) (uf : UrlField) : Option CStr :=
  (u uf).map fun d => (buf.drop d.1.toNat).take d.2.toNat

/-! ### Single characters -/

/-- The characters of a query. -/
def isQueryChar (c : Char) : Bool := isUrlChar c || c = '?'

/-- The characters of a fragment. -/
def isFragmentChar (c : Char) : Bool := isUrlChar c || c = '?' || c = '#'

/-- The characters that no state takes. -/
def urlBlanks : List Char := [' ', '\r', '\n', '\t', '\x0C']

theorem mem_urlBlanks {c : Char} (h : c ∈ urlBlanks) :
    c = ' ' ∨ c = '\r' ∨ c = '\n' ∨ c = '\t' ∨ c = '\x0C' := by
  simpa [urlBlanks] using h

theorem not_blank_of_not_mem {c : Char} (h : c ∉ urlBlanks) :
    (c = ' ' || c = '\r' || c = '\n') = false ∧ (c = '\t' || c = '\x0C') = false := by
  simp only [urlBlanks, List.mem_cons, List.not_mem_nil, or_false, not_or] at h
  simp [h]

theorem parseUrlChar_path (c : Char) :
    parseUrlChar .path c =
      if isUrlChar c then .path
      else if c = '?' then .queryStringStart
      else if c = '#' then .fragmentStart
      else .dead := by
  by_cases hc : c ∈ urlBlanks
  · rcases mem_urlBlanks hc with rfl | rfl | rfl | rfl | rfl <;> decide
  · simp [parseUrlChar, not_blank_of_not_mem hc]

theorem parseUrlChar_query {s : UrlState} (hs : s = .queryStringStart ∨ s = .queryString)
    (c : Char) :
    parseUrlChar s c =
      if isQueryChar c then .queryString else if c = '#' then .fragmentStart else .dead := by
  by_cases hc : c ∈ urlBlanks
  · rcases hs with rfl | rfl <;>
      rcases mem_urlBlanks hc with rfl | rfl | rfl | rfl | rfl <;> decide
  · rcases hs with rfl | rfl <;>
      simp [parseUrlChar, not_blank_of_not_mem hc, isQueryChar, ite_or]

theorem parseUrlChar_fragmentStart (c : Char) :
    parseUrlChar .fragmentStart c =
      if c = '#' then .fragmentStart else if isFragmentChar c then .fragment else .dead := by
  by_cases hc : c ∈ urlBlanks
  · rcases mem_urlBlanks hc with rfl | rfl | rfl | rfl | rfl <;> decide
  · by_cases hh : c = '#'
    · subst hh
      decide
    · simp [parseUrlChar, not_blank_of_not_mem hc, isFragmentChar, hh, ite_or]

theorem parseUrlChar_fragment (c : Char) :
    parseUrlChar .fragment c = if isFragmentChar c then .fragment else .dead := by
  by_cases hc : c ∈ urlBlanks
  · rcases mem_urlBlanks hc with rfl | rfl | rfl | rfl | rfl <;> decide
  · simp [parseUrlChar, not_blank_of_not_mem hc, isFragmentChar]

/-! ### Runs of the loop -/

theorem parseUrlLoop_cons (ch : Char) (rest : CStr) (p : ℕ) (s : UrlState) (oldUf : Option UrlField)
    (foundAt : Bool) (u : UrlData) :
    parseUrlLoop (ch :: rest) p s oldUf foundAt u =
      match (parseUrlChar s ch).visit with
      | .fail => none
      | .skip => parseUrlLoop rest (p + 1) (parseUrlChar s ch) oldUf foundAt u
      | .field uf =>
          if oldUf = some uf then
            parseUrlLoop rest (p + 1) (parseUrlChar s ch) oldUf
              (foundAt || parseUrlChar s ch = .serverWithAt) (u.extend uf)
          else
            parseUrlLoop rest (p + 1) (parseUrlChar s ch) (some uf)
              (foundAt || parseUrlChar s ch = .serverWithAt) (u.start uf p) :=
  rfl

theorem fieldData_succ (off len : ℕ) :
    ((fieldData off len).1, (fieldData off len).2 + 1) = fieldData off (len + 1) := by
  rw [fieldData, fieldData, BitVec.ofNat_add]
  rfl

theorem UrlData.extend_update (u : UrlData) (uf : UrlField) (off len : ℕ) :
    UrlData.extend (Function.update u uf (some (fieldData off len))) uf =
      Function.update u uf (some (fieldData off (len + 1))) := by
  rw [UrlData.extend, Function.update_self, Option.map_some, Function.update_idem, fieldData_succ]

/-- A field whose offset and length have 16 bits is cut out as it is. -/
theorem UrlData.slice_fieldData {u : UrlData} {uf : UrlField} {off len : ℕ}
    (h : u uf = some (fieldData off len)) (hoff : off < 2 ^ 16) (hlen : len < 2 ^ 16) (buf : CStr) :
    u.slice buf uf = some ((buf.drop off).take len) := by
  rw [UrlData.slice, h, Option.map_some, fieldData, BitVec.toNat_ofNat, BitVec.toNat_ofNat,
    Nat.mod_eq_of_lt hoff, Nat.mod_eq_of_lt hlen]

/-- A run of characters that keep the state and go on a field. -/
theorem parseUrlLoop_run {s : UrlState} {uf : UrlField} (hs : s ≠ .serverWithAt)
    (hv : s.visit = .field uf) (rest : CStr) (foundAt : Bool) (u : UrlData) (off : ℕ) {text : CStr}
    (htext : ∀ c ∈ text, parseUrlChar s c = s) (p len : ℕ) :
    parseUrlLoop (text ++ rest) p s (some uf) foundAt (Function.update u uf (some (fieldData off len))) =
      parseUrlLoop rest (p + text.length) s (some uf) foundAt
        (Function.update u uf (some (fieldData off (len + text.length)))) := by
  induction text generalizing p len with
  | nil => rfl
  | cons c text ih =>
      obtain ⟨hc, htext⟩ := List.forall_mem_cons.mp htext
      rw [List.cons_append, parseUrlLoop_cons, hc, hv]
      dsimp only
      rw [if_pos rfl, decide_eq_false hs, Bool.or_false, UrlData.extend_update, ih htext,
        List.length_cons, Nat.add_assoc, Nat.add_assoc, Nat.add_comm 1]

/-- A field that starts with the character at hand, and goes on. -/
theorem parseUrlLoop_field {s s' : UrlState} {uf : UrlField} {oldUf : Option UrlField}
    (hs : s' ≠ .serverWithAt) (hv : s'.visit = .field uf) (hold : oldUf ≠ some uf) (rest : CStr)
    (foundAt : Bool) (u : UrlData) {c : Char} {text : CStr} (hc : parseUrlChar s c = s')
    (htext : ∀ c ∈ text, parseUrlChar s' c = s') (p : ℕ) :
    parseUrlLoop (c :: text ++ rest) p s oldUf foundAt u =
      parseUrlLoop rest (p + (c :: text).length) s' (some uf) foundAt
        (Function.update u uf (some (fieldData p (c :: text).length))) := by
  rw [List.cons_append, parseUrlLoop_cons, hc, hv]
  dsimp only
  rw [if_neg hold, decide_eq_false hs, Bool.or_false, UrlData.start,
    parseUrlLoop_run hs hv rest foundAt u p htext, List.length_cons, Nat.add_assoc, Nat.add_comm 1]

/-- One character of a fragment, which changes no other field. -/
theorem parseUrlLoop_fragment_cons {s : UrlState} (hs : s = .fragmentStart ∨ s = .fragment) {c : Char}
    (hc : isFragmentChar c = true) (text : CStr) (p : ℕ) (oldUf : Option UrlField) (foundAt : Bool)
    (u : UrlData) :
    ∃ s' oldUf' u', (s' = .fragmentStart ∨ s' = .fragment) ∧
      parseUrlLoop (c :: text) p s oldUf foundAt u =
        parseUrlLoop text (p + 1) s' oldUf' foundAt u' ∧
      ∀ uf, uf ≠ .fragment → u' uf = u uf := by
  by_cases hskip : parseUrlChar s c = .fragmentStart
  · exact ⟨.fragmentStart, oldUf, u, .inl rfl, by rw [parseUrlLoop_cons, hskip]; rfl,
      fun _ _ => rfl⟩
  · have hstep : parseUrlChar s c = .fragment := by
      rcases hs with rfl | rfl
      · rw [parseUrlChar_fragmentStart] at hskip ⊢
        rw [if_neg fun hh => hskip (if_pos hh), if_pos hc]
      · rw [parseUrlChar_fragment, if_pos hc]
    by_cases hold : oldUf = some .fragment
    · refine ⟨.fragment, oldUf, u.extend .fragment, .inr rfl, ?_, fun uf hne => ?_⟩
      · simp [parseUrlLoop_cons, hstep, UrlState.visit, hold]
      · exact Function.update_of_ne hne ..
    · refine ⟨.fragment, some .fragment, u.start .fragment p, .inr rfl, ?_, fun uf hne => ?_⟩
      · simp [parseUrlLoop_cons, hstep, UrlState.visit, hold]
      · exact Function.update_of_ne hne ..

theorem parseUrlChar_of_not_fragment {s : UrlState} (hs : s = .fragmentStart ∨ s = .fragment)
    {c : Char} (hc : isFragmentChar c = false) : parseUrlChar s c = .dead := by
  have hn : ¬isFragmentChar c = true := Bool.eq_false_iff.mp hc
  rcases hs with rfl | rfl
  · rw [parseUrlChar_fragmentStart, if_neg, if_neg hn]
    rintro rfl
    exact hn (by decide)
  · rw [parseUrlChar_fragment, if_neg hn]

/-- A fragment is taken if its characters are, and changes no other field. -/
theorem parseUrlLoop_fragment {s : UrlState} (hs : s = .fragmentStart ∨ s = .fragment) (text : CStr)
    (p : ℕ) (oldUf : Option UrlField) (foundAt : Bool) (u : UrlData) :
    if text.all isFragmentChar then
      ∃ u', parseUrlLoop text p s oldUf foundAt u = some (foundAt, u') ∧
        ∀ uf, uf ≠ .fragment → u' uf = u uf
    else parseUrlLoop text p s oldUf foundAt u = none := by
  induction text generalizing s p oldUf u with
  | nil => exact ⟨u, rfl, fun _ _ => rfl⟩
  | cons c text ih =>
      rw [List.all_cons]
      cases hc : isFragmentChar c with
      | true =>
          obtain ⟨s', oldUf', u', hs', hloop, hu'⟩ :=
            parseUrlLoop_fragment_cons hs hc text p oldUf foundAt u
          have ih := ih hs' (p + 1) oldUf' u'
          rw [Bool.true_and, hloop]
          split_ifs at ih ⊢
          · obtain ⟨v, hv, hframe⟩ := ih
            exact ⟨v, hv, fun uf hne => (hframe uf hne).trans (hu' uf hne)⟩
          · exact ih
      | false =>
          rw [Bool.false_and, if_neg Bool.false_ne_true, parseUrlLoop_cons,
            parseUrlChar_of_not_fragment hs hc]
          rfl

/-! ### URLs that start with a slash -/

/-- A URL that is a path, a query and a fragment. -/
structure OriginForm where
  path : CStr
  query : Option CStr
  fragment : Option CStr
  path_head : path.head? = some '/'
  path_all : path.all isUrlChar = true
  query_all : ∀ q ∈ query, q.all isQueryChar = true
  fragment_all : ∀ f ∈ fragment, f.all isFragmentChar = true

/-- What follows the query. -/
def behindQuery (fragment : Option CStr) : CStr := (fragment.map ('#' :: ·)).getD []

/-- What follows the path. -/
def behindPath (query fragment : Option CStr) : CStr :=
  (query.map ('?' :: ·)).getD [] ++ behindQuery fragment

/-- The URL. -/
def OriginForm.text (o : OriginForm) : CStr := o.path ++ behindPath o.query o.fragment

/-- The query as it is noted: an empty one is not. -/
def OriginForm.noted (o : OriginForm) : Option CStr := o.query.filter (· ≠ [])

/-- A query, behind its question mark. -/
theorem parseUrlLoop_query {q : CStr} (hq : q.all isQueryChar = true) (rest : CStr) (p : ℕ)
    (foundAt : Bool) {u : UrlData} (hu : u .query = none) :
    ∃ s oldUf u', (s = .queryStringStart ∨ s = .queryString) ∧
      parseUrlLoop (q ++ rest) p .queryStringStart (some .path) foundAt u =
        parseUrlLoop rest (p + q.length) s oldUf foundAt u' ∧
      u' .query = ((some q).filter (· ≠ [])).map (fun q => fieldData p q.length) ∧
      ∀ uf, uf ≠ .query → u' uf = u uf := by
  cases q with
  | nil => exact ⟨_, _, u, .inl rfl, rfl, hu, fun _ _ => rfl⟩
  | cons c q =>
      have hall := List.all_eq_true.mp hq
      have hstay : ∀ d ∈ q, parseUrlChar .queryString d = .queryString := fun d hd => by
        rw [parseUrlChar_query (.inr rfl), if_pos (hall d (List.mem_cons_of_mem c hd))]
      have hstart : parseUrlChar .queryStringStart c = .queryString := by
        rw [parseUrlChar_query (.inl rfl), if_pos (hall c List.mem_cons_self)]
      refine ⟨_, _, _, .inr rfl,
        parseUrlLoop_field (by decide) rfl (by decide) rest foundAt u hstart hstay p, ?_,
        fun uf hne => Function.update_of_ne hne ..⟩
      rw [Function.update_self]
      rfl

/-- The number sign ends a path and a query. -/
theorem parseUrlLoop_numberSign {s : UrlState}
    (hs : s = .path ∨ s = .queryStringStart ∨ s = .queryString) (text : CStr) (p : ℕ)
    (oldUf : Option UrlField) (foundAt : Bool) (u : UrlData) :
    parseUrlLoop ('#' :: text) p s oldUf foundAt u =
      parseUrlLoop text (p + 1) .fragmentStart oldUf foundAt u := by
  rcases hs with rfl | rfl | rfl <;> rfl

theorem parseUrlLoop_behindQuery {s : UrlState}
    (hs : s = .path ∨ s = .queryStringStart ∨ s = .queryString) {fragment : Option CStr}
    (hf : ∀ f ∈ fragment, f.all isFragmentChar = true) (p : ℕ) (oldUf : Option UrlField)
    (foundAt : Bool) (u : UrlData) :
    ∃ u', parseUrlLoop (behindQuery fragment) p s oldUf foundAt u = some (foundAt, u') ∧
      ∀ uf, uf ≠ .fragment → u' uf = u uf := by
  cases fragment with
  | none => exact ⟨u, rfl, fun _ _ => rfl⟩
  | some f =>
      have h := parseUrlLoop_fragment (.inl rfl) f (p + 1) oldUf foundAt u
      rw [if_pos (hf f rfl)] at h
      rwa [show behindQuery (some f) = '#' :: f from rfl, parseUrlLoop_numberSign hs]

theorem parseUrlLoop_behindPath {query fragment : Option CStr}
    (hq : ∀ q ∈ query, q.all isQueryChar = true)
    (hf : ∀ f ∈ fragment, f.all isFragmentChar = true) (p : ℕ) (foundAt : Bool) {u : UrlData}
    (hu : u .query = none) :
    ∃ u', parseUrlLoop (behindPath query fragment) p .path (some .path) foundAt u =
        some (foundAt, u') ∧
      u' .query = (query.filter (· ≠ [])).map (fun q => fieldData (p + 1) q.length) ∧
      ∀ uf, uf ≠ .query → uf ≠ .fragment → u' uf = u uf := by
  cases query with
  | none =>
      obtain ⟨u', hloop, hframe⟩ :=
        parseUrlLoop_behindQuery (.inl rfl) hf p (some .path) foundAt u
      exact ⟨u', hloop, (hframe .query (by decide)).trans hu, fun uf _ hne => hframe uf hne⟩
  | some q =>
      obtain ⟨s, oldUf, v, hs, hquery, hv, hvframe⟩ :=
        parseUrlLoop_query (hq q rfl) (behindQuery fragment) (p + 1) foundAt hu
      obtain ⟨u', hloop, hframe⟩ :=
        parseUrlLoop_behindQuery (.inr hs) hf (p + 1 + q.length) oldUf foundAt v
      refine ⟨u', ?_, (hframe .query (by decide)).trans hv,
        fun uf h1 h2 => (hframe uf h2).trans (hvframe uf h1)⟩
      show parseUrlLoop ('?' :: (q ++ behindQuery fragment)) p .path (some .path) foundAt u = _
      rw [← hloop, ← hquery]
      rfl

/-- The path of a URL that starts with a slash. -/
theorem parseUrlLoop_path {path : CStr} (hhead : path.head? = some '/')
    (hall : path.all isUrlChar = true) (rest : CStr) :
    parseUrlLoop (path ++ rest) 0 .spacesBeforeUrl none false (fun _ => none) =
      parseUrlLoop rest path.length .path (some .path) false
        (Function.update (fun _ => none) .path (some (fieldData 0 path.length))) := by
  cases path with
  | nil => cases hhead
  | cons c path =>
      obtain rfl := Option.some.inj hhead
      have hstay : ∀ c ∈ path, parseUrlChar .path c = .path := fun c hc => by
        rw [parseUrlChar_path, if_pos (List.all_eq_true.mp hall c (List.mem_cons_of_mem _ hc))]
      have h := @parseUrlLoop_field .spacesBeforeUrl .path .path none (by decide) rfl (by decide) rest
        false (fun _ => none) '/' path rfl hstay 0
      rwa [Nat.zero_add] at h

/-- The checks behind the loop pass a URL without a host. -/
theorem parseUrl_of_loop {buf : CStr} {foundAt : Bool} {u : UrlData}
    (h : parseUrlLoop buf 0 .spacesBeforeUrl none false (fun _ => none) = some (foundAt, u))
    (hschema : u .schema = none) (hhost : u .host = none) (hport : u .port = none) :
    parseUrl false buf = some u := by
  simp [parseUrl, h, hhost, hschema, checkUrl, hport]

/-- **A URL made of a path, a query and a fragment** is accepted, with these fields. -/
theorem parseUrl_text (o : OriginForm) :
    ∃ u, parseUrl false o.text = some u ∧ u .path = some (fieldData 0 o.path.length) ∧
      u .query = o.noted.map fun q => fieldData (o.path.length + 1) q.length := by
  obtain ⟨u, hloop, hquery, hframe⟩ := @parseUrlLoop_behindPath _ _ o.query_all o.fragment_all
    o.path.length false (Function.update (fun _ => none) .path (some (fieldData 0 o.path.length))) rfl
  rw [← parseUrlLoop_path o.path_head o.path_all] at hloop
  exact ⟨u, parseUrl_of_loop hloop (hframe .schema (by decide) (by decide))
    (hframe .host (by decide) (by decide)) (hframe .port (by decide) (by decide)),
    hframe .path (by decide) (by decide), hquery⟩

/-! ### What is accepted -/

/-- The first character behind a prefix that was taken as long as possible. -/
theorem head_dropWhile {α : Type} (p : α → Bool) {l t : List α} {c : α}
    (h : l.dropWhile p = c :: t) : p c = false := by
  have hd := List.head_dropWhile_not p (by rw [h]; exact List.cons_ne_nil c t)
  simpa only [h, List.head_cons] using hd

/-- What is accepted in a state that takes a query character or `#`. -/
theorem behindQuery_of_accepted {s : UrlState} (hs : s = .queryStringStart ∨ s = .queryString)
    {text : CStr} {p : ℕ} {oldUf : Option UrlField} {foundAt : Bool} {u : UrlData}
    (hstop : ∀ c ∈ text.head?, isQueryChar c = false)
    (h : (parseUrlLoop text p s oldUf foundAt u).isSome = true) :
    ∃ fragment, text = behindQuery fragment ∧ ∀ f ∈ fragment, f.all isFragmentChar = true := by
  cases text with
  | nil => exact ⟨none, rfl, nofun⟩
  | cons c f =>
      by_cases hc : c = '#'
      · subst hc
        rw [parseUrlLoop_numberSign (.inr hs)] at h
        refine ⟨some f, rfl, fun g hg => ?_⟩
        cases hg
        by_contra hall
        have hnone := parseUrlLoop_fragment (.inl rfl) f (p + 1) oldUf foundAt u
        rw [if_neg hall] at hnone
        rw [hnone] at h
        exact absurd h nofun
      · rw [parseUrlLoop_cons, parseUrlChar_query hs,
          if_neg (Bool.eq_false_iff.mp (hstop c rfl)), if_neg hc] at h
        exact absurd h nofun

/-- What is accepted behind a path. -/
theorem behindPath_of_accepted {text : CStr} {p : ℕ} {foundAt : Bool} {u : UrlData}
    (hu : u .query = none) (hstop : ∀ c ∈ text.head?, isUrlChar c = false)
    (h : (parseUrlLoop text p .path (some .path) foundAt u).isSome = true) :
    ∃ query fragment, text = behindPath query fragment ∧
      (∀ q ∈ query, q.all isQueryChar = true) ∧
      ∀ f ∈ fragment, f.all isFragmentChar = true := by
  cases text with
  | nil => exact ⟨none, none, rfl, nofun, nofun⟩
  | cons c text =>
      have hc : ¬isUrlChar c = true := Bool.eq_false_iff.mp (hstop c rfl)
      by_cases hquery : c = '?'
      · subst hquery
        -- the query is taken as long as possible
        have hsplit := List.takeWhile_append_dropWhile (p := isQueryChar) (l := text)
        have hall := @List.all_takeWhile _ isQueryChar text
        obtain ⟨s, oldUf, v, hs, hloop, -, -⟩ := parseUrlLoop_query hall
          (text.dropWhile isQueryChar) (p + 1) foundAt hu
        have hrest : (parseUrlLoop (text.dropWhile isQueryChar)
            (p + 1 + (text.takeWhile isQueryChar).length) s oldUf foundAt v).isSome = true := by
          rw [← hloop, hsplit]
          exact h
        obtain ⟨fragment, htext, hf⟩ := behindQuery_of_accepted hs
          (fun d hd => by
            obtain ⟨t, ht⟩ := List.head?_eq_some_iff.mp hd
            exact head_dropWhile isQueryChar ht) hrest
        refine ⟨some (text.takeWhile isQueryChar), fragment, ?_, fun q hq => ?_, hf⟩
        · rw [behindPath, ← htext, Option.map_some, Option.getD_some, List.cons_append, hsplit]
        · cases hq
          exact hall
      · by_cases hsign : c = '#'
        · subst hsign
          rw [parseUrlLoop_numberSign (.inl rfl),
            ← @parseUrlLoop_numberSign .queryString (.inr (.inr rfl))] at h
          obtain ⟨fragment, htext, hf⟩ :=
            behindQuery_of_accepted (.inr rfl) (fun d hd => by cases hd; decide) h
          exact ⟨none, fragment, htext, nofun, hf⟩
        · rw [parseUrlLoop_cons, parseUrlChar_path, if_neg hc, if_neg hquery, if_neg hsign] at h
          exact absurd h nofun

/-- **A URL that starts with a slash is accepted only in this form.** -/
theorem originForm_of_accepted {s : CStr} (hhead : s.head? = some '/')
    (h : (parseUrl false s).isSome = true) : ∃ o : OriginForm, o.text = s := by
  have hsplit := List.takeWhile_append_dropWhile (p := isUrlChar) (l := s)
  have hpath : (s.takeWhile isUrlChar).head? = some '/' := by
    obtain ⟨t, rfl⟩ := List.head?_eq_some_iff.mp hhead
    rfl
  have hall := @List.all_takeWhile _ isUrlChar s
  have hloop := parseUrlLoop_path hpath hall (s.dropWhile isUrlChar)
  rw [hsplit] at hloop
  have haccepted : (parseUrlLoop (s.dropWhile isUrlChar) (s.takeWhile isUrlChar).length .path
      (some .path) false (Function.update (fun _ => none) .path
        (some (fieldData 0 (s.takeWhile isUrlChar).length)))).isSome = true := by
    rw [← hloop]
    by_contra hnone
    have hn := Option.not_isSome_iff_eq_none.mp hnone
    simp [parseUrl, hn] at h
  obtain ⟨query, fragment, htext, hq, hf⟩ := behindPath_of_accepted rfl
    (fun c hc => by
      obtain ⟨t, ht⟩ := List.head?_eq_some_iff.mp hc
      exact head_dropWhile isUrlChar ht) haccepted
  exact ⟨⟨_, query, fragment, hpath, hall, hq, hf⟩, by rw [OriginForm.text, ← htext, hsplit]⟩

/-! ### Main result -/

/-- The fields of a URL of this form, cut out of it. -/
theorem slice_text {o : OriginForm} {u : UrlData} (hlen : o.text.length < 2 ^ 16)
    (hpath : u .path = some (fieldData 0 o.path.length))
    (hquery : u .query = o.noted.map fun q => fieldData (o.path.length + 1) q.length) :
    u.slice o.text .path = some o.path ∧ u.slice o.text .query = o.noted := by
  have hle : o.path.length ≤ o.text.length := by
    rw [OriginForm.text, List.length_append]
    exact Nat.le_add_right _ _
  constructor
  · rw [UrlData.slice_fieldData hpath (by omega) (by omega), List.drop_zero, OriginForm.text,
      List.take_left]
  · cases hn : o.noted with
    | none =>
        rw [hn, Option.map_none] at hquery
        rw [UrlData.slice, hquery, Option.map_none]
    | some q =>
        obtain ⟨hq, -⟩ := Option.filter_eq_some_iff.mp hn
        have htext : o.text = (o.path ++ ['?']) ++ (q ++ behindQuery o.fragment) := by
          rw [OriginForm.text, behindPath, hq]
          simp
        have hoff : o.path.length + 1 = (o.path ++ ['?']).length := by simp
        have hsum : o.text.length = o.path.length + 1 + (q.length + (behindQuery o.fragment).length) := by
          rw [htext, List.length_append, ← hoff, List.length_append]
        rw [hn, Option.map_some] at hquery
        rw [UrlData.slice_fieldData hquery (by omega) (by omega), htext, hoff, List.drop_left,
          List.take_left]

/-- **The state machine splits a URL at its first `?` and `#`**: a URL of less than `2 ^ 16`
characters that starts with a slash is accepted with a path and a query noted if and only if it
consists of this path, a query that is noted so, and a fragment. -/
theorem parseUrl_origin_iff {s : CStr} (hhead : s.head? = some '/') (hlen : s.length < 2 ^ 16)
    (path : CStr) (query : Option CStr) :
    (∃ u, parseUrl false s = some u ∧ u.slice s .path = some path ∧ u.slice s .query = query) ↔
      ∃ o : OriginForm, o.text = s ∧ o.path = path ∧ o.noted = query := by
  constructor
  · rintro ⟨u, hu, hp, hq⟩
    obtain ⟨o, rfl⟩ := originForm_of_accepted hhead (by rw [hu]; rfl)
    obtain ⟨v, hv, hpath, hquery⟩ := parseUrl_text o
    obtain rfl : u = v := Option.some.inj (hu.symm.trans hv)
    obtain ⟨hp', hq'⟩ := slice_text hlen hpath hquery
    exact ⟨o, rfl, Option.some.inj (hp'.symm.trans hp), hq'.symm.trans hq⟩
  · rintro ⟨o, rfl, rfl, rfl⟩
    obtain ⟨u, hu, hpath, hquery⟩ := parseUrl_text o
    exact ⟨u, hu, slice_text hlen hpath hquery⟩

/-- The URL of a file. -/
theorem parseUrl_origin_file :
    (∃ u, parseUrl false "/file?file=a.js".toList = some u ∧
      u.slice "/file?file=a.js".toList .path = some "/file".toList ∧
      u.slice "/file?file=a.js".toList .query = some "file=a.js".toList) ↔
    ∃ o : OriginForm, o.text = "/file?file=a.js".toList ∧ o.path = "/file".toList ∧
      o.noted = some "file=a.js".toList :=
  parseUrl_origin_iff rfl (by decide) _ _

end Sicae
