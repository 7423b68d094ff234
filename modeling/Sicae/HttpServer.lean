import Sicae.CString

/-! # The HTTP server

`start_webserver` starts the server with or without TLS and registers four handlers.  The look-up
of a handler in `httpd_find_uri_handler` compares the path of the request with the registered
URIs by the configured `uri_match_fn`, and for equality when none is set.  Only the configuration
without TLS sets it, to `httpd_uri_match_wildcard`.

The URI `/` and `/file` mean the same to both (`httpdUriMatchWildcard_plain`); `/*` stands for
every path that starts with a slash to the wildcard match (`httpdUriMatchWildcard_asterisk`) and
for itself otherwise. -/

namespace Sicae

open CString

/-! ### Matching a URI -/

/-- `strncmp(s, t, n) == 0`. -/
def strncmpEq (s t : CStr) (n : ℕ) : Bool := s.take n == t.take n

/-- `httpd_uri_match_simple`. -/
def httpdUriMatchSimple (uri1 uri2 : CStr) : Bool :=
  uri1.length == uri2.length && strncmpEq uri1 uri2 uri2.length

/-- `httpd_uri_match_wildcard`. -/
def httpdUriMatchWildcard (template uri : CStr) : Bool :=
  let tplLen := template.length
  -- a trailing question mark and asterisk
  let last := if tplLen > 0 then template.getD (tplLen - 1) '\x00' else '\x00'
  let prevlast := if tplLen > 1 then template.getD (tplLen - 2) '\x00' else '\x00'
  let asterisk := last == '*' || (prevlast == '*' && last == '?')
  let quest := last == '?' || (prevlast == '?' && last == '*')
  let special := asterisk.toNat + quest.toNat * 2
  if tplLen < special then false
  else
    let exactMatchChars := tplLen - special
    if uri.length < exactMatchChars then false
    else if !quest then
      if !asterisk && uri.length != exactMatchChars then false
      else strncmpEq template uri exactMatchChars
    else if uri.length > exactMatchChars &&
        template.getD exactMatchChars '\x00' != uri.getD exactMatchChars '\x00' then false
    else if !strncmpEq template uri exactMatchChars then false
    else asterisk || uri.length ≤ exactMatchChars + 1

theorem httpdUriMatchSimple_iff {uri1 uri2 : CStr} :
    httpdUriMatchSimple uri1 uri2 = true ↔ uri1 = uri2 := by
  unfold httpdUriMatchSimple strncmpEq
  rw [Bool.and_eq_true, beq_iff_eq, beq_iff_eq]
  constructor
  · rintro ⟨hlen, htake⟩
    rwa [← hlen, List.take_length, hlen, List.take_length] at htake
  · rintro rfl
    exact ⟨rfl, rfl⟩

/-- The match of a template without a trailing special character. -/
theorem strncmpEq_length_iff {template uri : CStr} :
    (if uri.length < template.length then false
      else if uri.length != template.length then false
      else strncmpEq template uri template.length) = true ↔ template = uri := by
  unfold strncmpEq
  constructor
  · intro h
    split_ifs at h with h1 h2
    have hlen : uri.length = template.length := by simpa using h2
    rw [beq_iff_eq, List.take_length, ← hlen, List.take_length] at h
    exact h
  · rintro rfl
    simp

/-- A template without a trailing special character matches itself only. -/
theorem httpdUriMatchWildcard_plain {stem uri : CStr} {c : Char} (hast : c ≠ '*') (hquest : c ≠ '?') :
    httpdUriMatchWildcard (stem ++ [c]) uri = true ↔ stem ++ [c] = uri := by
  have hlast : (stem ++ [c]).getD ((stem ++ [c]).length - 1) '\x00' = c := by simp
  have hpos : (stem ++ [c]).length > 0 := by simp
  have h1 : (c == '*') = false := beq_eq_false_iff_ne.mpr hast
  have h2 : (c == '?') = false := beq_eq_false_iff_ne.mpr hquest
  rw [← strncmpEq_length_iff]
  simp only [httpdUriMatchWildcard, if_pos hpos, hlast, h1, h2, Bool.and_false, Bool.or_false,
    Bool.toNat_false, Nat.zero_mul, Nat.add_zero, Nat.not_lt_zero, if_false, Nat.sub_zero,
    Bool.not_false, if_true, Bool.true_and]

/-- The character before a trailing asterisk. -/
theorem prevlast_asterisk {stem : CStr} (hquest : stem.getLast? ≠ some '?') :
    ((if (stem ++ ['*']).length > 1 then
      (stem ++ ['*']).getD ((stem ++ ['*']).length - 2) '\x00' else '\x00') == '?') = false := by
  induction stem using List.reverseRecOn with
  | nil => rfl
  | append_singleton stem d _ =>
      have hd : d ≠ '?' := by
        intro e
        exact hquest (by rw [List.getLast?_concat, e])
      simpa using hd

/-- A template that ends in an asterisk matches the paths that start with the rest of it. -/
theorem httpdUriMatchWildcard_asterisk {stem uri : CStr} (hquest : stem.getLast? ≠ some '?') :
    httpdUriMatchWildcard (stem ++ ['*']) uri = true ↔ stem <+: uri := by
  have hlast : (stem ++ ['*']).getD ((stem ++ ['*']).length - 1) '\x00' = '*' := by simp
  have hpos : (stem ++ ['*']).length > 0 := by simp
  have hstem : strncmpEq (stem ++ ['*']) uri stem.length = (stem == uri.take stem.length) := by
    rw [strncmpEq, List.take_left]
  simp only [httpdUriMatchWildcard, if_pos hpos, hlast, prevlast_asterisk hquest, beq_self_eq_true,
    Bool.true_or, Bool.false_and, Bool.or_false, Bool.toNat_true, Bool.toNat_false,
    show ('*' == '?') = false from rfl, Nat.zero_mul, Nat.add_zero, Bool.not_true, Bool.not_false,
    Bool.false_eq_true, if_false, if_true]
  rw [List.length_append, List.length_singleton, Nat.add_sub_cancel, hstem, if_neg (by omega),
    List.prefix_iff_eq_take]
  split_ifs with hlen
  · simp only [false_iff]
    intro h
    have := congrArg List.length h
    rw [List.length_take] at this
    omega
  · exact beq_iff_eq

/-! ### The handlers -/

/-- `httpd_method_t`. -/
inductive HttpMethod where
  | get
  | post
  | other (code : ℕ)
deriving DecidableEq, Repr

/-- The handler functions of `webserver.c`. -/
inductive UriHandler where
  | indexGet
  | fileGet
  | apiGet
  | serverPost
deriving DecidableEq, Repr

/-- `httpd_uri_t`. -/
structure HttpdUri where
  uri : CStr
  method : HttpMethod
  handler : UriHandler
deriving DecidableEq, Repr

/-- The errors of a look-up, `httpd_err_code_t`. -/
inductive HttpdErrCode where
  | notFound
  | methodNotAllowed
deriving DecidableEq, Repr

/-- The errors of a registration. -/
inductive HttpdRegisterErr where
  | handlerExists
  | handlersFull
  | allocMem
deriving DecidableEq, Repr

/-- The fields of `httpd_config_t` that the look-up reads. -/
structure HttpdConfig where
  maxUriHandlers : ℕ
  uriMatchFn : Option (CStr → CStr → Bool)

/-- `struct httpd_data`: the configuration, and `hd_calls` up to its first `NULL`. -/
structure HttpdData where
  config : HttpdConfig
  calls : List HttpdUri

/-- The comparison of the look-up. -/
def HttpdConfig.uriMatch (config : HttpdConfig) : CStr → CStr → Bool :=
  config.uriMatchFn.getD httpdUriMatchSimple

/-- The loop of `httpd_find_uri_handler` over the registered URIs; `err` is the error so far. -/
def findLoop (uriMatch : CStr → CStr → Bool) (uri : CStr) (method : HttpMethod) :
    List HttpdUri → HttpdErrCode → Except HttpdErrCode HttpdUri
  | [], err => .error err
  | call :: calls, err =>
      if uriMatch call.uri uri then
        if call.method = method then .ok call
        else findLoop uriMatch uri method calls .methodNotAllowed
      else findLoop uriMatch uri method calls err

/-- `httpd_find_uri_handler`. -/
def httpdFindUriHandler (hd : HttpdData) (uri : CStr) (method : HttpMethod) :
    Except HttpdErrCode HttpdUri :=
  findLoop hd.config.uriMatch uri method (hd.calls.take hd.config.maxUriHandlers) .notFound

/-- `httpd_register_uri_handler`; `allocated` is the outcome of its allocations. -/
def httpdRegisterUriHandler (allocated : Bool) (hd : HttpdData) (handler : HttpdUri) :
    Except HttpdRegisterErr HttpdData :=
  match httpdFindUriHandler hd handler.uri handler.method with
  | .ok _ => .error .handlerExists
  | .error _ =>
      if hd.calls.length < hd.config.maxUriHandlers then
        if allocated then .ok { hd with calls := hd.calls ++ [handler] } else .error .allocMem
      else .error .handlersFull

/-! ### `start_webserver` -/

/-- `index_get`. -/
def indexGet : HttpdUri := ⟨"/".toList, .get, .indexGet⟩

/-- `file_query`. -/
def fileQuery : HttpdUri := ⟨"/file".toList, .get, .fileGet⟩

/-- `api_get`. -/
def apiGet : HttpdUri := ⟨"/*".toList, .get, .apiGet⟩

/-- `server_uri_post`. -/
def serverUriPost : HttpdUri := ⟨"/".toList, .post, .serverPost⟩

/-- HTTPD_SSL_CONFIG_DEFAULT. -/
def httpdSslConfigDefault : HttpdConfig := ⟨8, none⟩

/-- HTTPD_DEFAULT_CONFIG. -/
def httpdDefaultConfig : HttpdConfig := ⟨8, none⟩

/-- A registration of `start_webserver`, which does not look at the result. -/
def register (hd : HttpdData) (handler : HttpdUri) : HttpdData :=
  match httpdRegisterUriHandler true hd handler with
  | .ok hd => hd
  | .error _ => hd

/-- `start_webserver`, when the server starts and its allocations succeed. -/
def startWebserver (useSsl : Bool) : HttpdData :=
  let config :=
    if useSsl then httpdSslConfigDefault
    else { httpdDefaultConfig with uriMatchFn := some httpdUriMatchWildcard }
  [indexGet, fileQuery, apiGet, serverUriPost].foldl register ⟨config, []⟩

/-- The handler selected for a request, or the error sent instead. -/
def selectHandler (useSsl : Bool) (method : HttpMethod) (path : CStr) : Except HttpdErrCode HttpdUri :=
  httpdFindUriHandler (startWebserver useSsl) path method

/-! ### Both configurations -/

theorem startWebserver_calls (useSsl : Bool) :
    (startWebserver useSsl).calls = [indexGet, fileQuery, apiGet, serverUriPost] := by
  cases useSsl <;> decide +kernel

theorem startWebserver_config (useSsl : Bool) :
    (startWebserver useSsl).config =
      ⟨8, if useSsl then none else some httpdUriMatchWildcard⟩ := by
  cases useSsl <;> rfl

/-- The selection by whether the path matches `/`, `/file` and `/*`. -/
def chosen (root file api : Bool) (method : HttpMethod) : Except HttpdErrCode HttpdUri :=
  if root then
    match method with
    | .get => .ok indexGet
    | .post => .ok serverUriPost
    | .other _ => .error .methodNotAllowed
  else if file then if method = .get then .ok fileQuery else .error .methodNotAllowed
  else if api then if method = .get then .ok apiGet else .error .methodNotAllowed
  else .error .notFound

/-- The look-up among the four handlers. -/
theorem findLoop_eq_chosen (uriMatch : CStr → CStr → Bool) (path : CStr) (method : HttpMethod) :
    findLoop uriMatch path method [indexGet, fileQuery, apiGet, serverUriPost] .notFound =
      chosen (uriMatch "/".toList path) (uriMatch "/file".toList path)
        (uriMatch "/*".toList path) method := by
  show _ = chosen (uriMatch indexGet.uri path) (uriMatch fileQuery.uri path)
    (uriMatch apiGet.uri path) method
  have hpost : serverUriPost.uri = indexGet.uri := rfl
  simp only [findLoop, hpost]
  -- what is left depends on the method and the outcomes of three comparisons
  generalize uriMatch indexGet.uri path = root
  generalize uriMatch fileQuery.uri path = file
  generalize uriMatch apiGet.uri path = api
  cases root <;> cases file <;> cases api <;> cases method <;> rfl

/-- A path that matches `/` or `/file` is not looked up further. -/
theorem chosen_eq_iff {root file api api' : Bool} {method : HttpMethod} :
    chosen root file api method = chosen root file api' method ↔
      root = true ∨ file = true ∨ api = api' := by
  cases root with
  | true => simp [chosen]
  | false =>
      cases file with
      | true => simp [chosen]
      | false => cases api <;> cases api' <;> cases method <;> simp [chosen]

/-- What the third URI matches. -/
def apiMatches (useSsl : Bool) (path : CStr) : Bool :=
  if useSsl then decide ("/*".toList = path) else decide ("/".toList <+: path)

/-- Both servers take the first two URIs literally. -/
theorem selectHandler_eq (useSsl : Bool) (method : HttpMethod) (path : CStr) :
    selectHandler useSsl method path =
      chosen (decide ("/".toList = path)) (decide ("/file".toList = path))
        (apiMatches useSsl path) method := by
  rw [selectHandler, httpdFindUriHandler, startWebserver_calls, startWebserver_config,
    List.take_of_length_le (show 4 ≤ 8 by omega), findLoop_eq_chosen]
  cases useSsl with
  | true =>
      have hsimple : ∀ t, httpdUriMatchSimple t path = decide (t = path) :=
        fun t => Bool.eq_iff_iff.mpr (httpdUriMatchSimple_iff.trans decide_eq_true_iff.symm)
      simp only [HttpdConfig.uriMatch, if_true, Option.getD_none, hsimple, apiMatches]
  | false =>
      have hroot : httpdUriMatchWildcard "/".toList path = decide ("/".toList = path) :=
        Bool.eq_iff_iff.mpr ((@httpdUriMatchWildcard_plain [] path '/' (by decide) (by decide)).trans
          decide_eq_true_iff.symm)
      have hfile : httpdUriMatchWildcard "/file".toList path = decide ("/file".toList = path) :=
        Bool.eq_iff_iff.mpr ((@httpdUriMatchWildcard_plain "/fil".toList path 'e' (by decide)
          (by decide)).trans decide_eq_true_iff.symm)
      have hapi : httpdUriMatchWildcard "/*".toList path = decide ("/".toList <+: path) :=
        Bool.eq_iff_iff.mpr ((@httpdUriMatchWildcard_asterisk "/".toList path (by decide)).trans
          decide_eq_true_iff.symm)
      simp only [HttpdConfig.uriMatch, Bool.false_eq_true, if_false, Option.getD_some, hroot, hfile,
        hapi, apiMatches]

/-- **TLS and plain servers select the same handler exactly for the registered URIs and for the
paths that no handler of either takes**, those that do not start with a slash. -/
theorem selectHandler_ssl_iff (method : HttpMethod) (path : CStr) :
    selectHandler true method path = selectHandler false method path ↔
      path ∈ ["/".toList, "/file".toList, "/*".toList] ∨ path.head? ≠ some '/' := by
  have hprefix : "/".toList <+: path ↔ path.head? = some '/' := by
    cases path with
    | nil => simp
    | cons c path => simp [List.cons_prefix_cons, eq_comm]
  have hstar : "/*".toList = path → path.head? = some '/' := by
    rintro rfl
    rfl
  rw [selectHandler_eq, selectHandler_eq, chosen_eq_iff]
  simp only [decide_eq_true_eq, apiMatches, if_true, Bool.false_eq_true, if_false, decide_eq_decide,
    hprefix, List.mem_cons, List.not_mem_nil, or_false]
  constructor
  · rintro (h | h | h)
    · exact .inl (.inl h.symm)
    · exact .inl (.inr (.inl h.symm))
    · by_cases hhead : path.head? = some '/'
      · exact .inl (.inr (.inr (h.mpr hhead).symm))
      · exact .inr hhead
  · rintro ((h | h | h) | h)
    · exact .inl h.symm
    · exact .inr (.inl h.symm)
    · exact .inr (.inr ⟨hstar, fun _ => h.symm⟩)
    · exact .inr (.inr ⟨hstar, fun hhead => absurd hhead h⟩)

/-- A GET of `/connectionInfo` reaches `api_get` without TLS, and no handler with it. -/
theorem selectHandler_connectionInfo : ¬ ∀ method path,
    selectHandler true method path = selectHandler false method path := by
  intro h
  exact absurd (h .get "/connectionInfo".toList) (by decide +kernel)

end Sicae
