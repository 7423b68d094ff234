import Sicae.HttpServer

/-! # Files sent in chunks

`file_get_handler` and `index_get_handler` read a file in pieces of up to 1024 bytes, send each
piece as a chunk, and end the answer with the empty chunk.  `sendLoop` is that loop, over any counts
that `fread` returns and any outcomes of the sends; it ends with the file (`sendLoop_eq`).

The result of `httpd_resp_send_chunk` is ignored, so a failed send leaves a hole and the answer is
ended all the same.  An answer that is ended is the file exactly if no send of a piece has failed
(`answerOk_iff`). -/

namespace Sicae

open CString

/-! ### The source -/

/-- What the loop has done: the rest of the file, the counts that `fread` will return, the number of
calls of `httpd_resp_send_chunk`, and the chunks that were delivered. -/
structure Sending where
  rest : List Char
  counts : List ℕ
  calls : ℕ := 0
  delivered : List (List Char) := []

/-- `httpd_resp_send_chunk`: a failing call delivers nothing of its chunk. -/
def Sending.sendChunk (sent : ℕ → Bool) (s : Sending) (chunk : List Char) : Sending :=
  { s with
    calls := s.calls + 1
    delivered := if sent s.calls then s.delivered ++ [chunk] else s.delivered }

/-- `fread(chunk, 1, 1024, file)`, with the chunk read. -/
def Sending.fread (s : Sending) : List Char × Sending :=
  match s.counts with
  | [] => ([], s)
  | count :: counts =>
      (s.rest.take count, { s with rest := s.rest.drop count, counts := counts })

/-- The `do` loop; `none` when it has not ended after `fuel` passes. -/
def sendLoop (sent : ℕ → Bool) : ℕ → Sending → Option Sending
  | 0, _ => none
  | fuel + 1, s =>
      let (chunk, s) := s.fread
      if chunk.length > 0 then sendLoop sent fuel (s.sendChunk sent chunk) else some s

/-- The errors of the two handlers, each returned as `ESP_FAIL`. -/
inductive FileErr where
  | badRequest
  | notFound
  | internalServerError
deriving DecidableEq, Repr

/-- The part that the handlers share, from `fopen` on.  An answer is the list of the chunks
delivered, with `ESP_OK`. -/
def answerFile (files : CStr → Option (List Char)) (counts : List ℕ) (sent : ℕ → Bool) (fuel : ℕ)
    (filepath : CStr) : Option (Except FileErr (List (List Char))) :=
  match files filepath with
  | none => some (.error .notFound)
  | some content =>
      (sendLoop sent fuel { rest := content, counts := counts }).map fun s =>
        .ok (s.sendChunk sent []).delivered

/-- `file_get_handler`; `file` is the parameter of the query, if there is one. -/
def fileGetHandler (file : Option CStr) (files : CStr → Option (List Char)) (counts : List ℕ)
    (sent : ℕ → Bool) (fuel : ℕ) : Option (Except FileErr (List (List Char))) :=
  match file with
  | none => some (.error .badRequest)
  | some file =>
      if file.length + "/spiffs/".length + 1 > 264 then some (.error .internalServerError)
      else answerFile files counts sent fuel ("/spiffs/".toList ++ file)

/-- `index_get_handler`. -/
def indexGetHandler (files : CStr → Option (List Char)) (counts : List ℕ) (sent : ℕ → Bool)
    (fuel : ℕ) : Option (Except FileErr (List (List Char))) :=
  answerFile files counts sent fuel "/spiffs/index.html".toList

/-! ### The loop -/

/-- The counts that `fread` may return for a file before it returns 0. -/
structure ReadsOf (counts : List ℕ) (content : List Char) : Prop where
  bounds : ∀ count ∈ counts, 0 < count ∧ count ≤ 1024
  total : counts.sum = content.length

/-- The pieces of a file. -/
def pieces : List ℕ → List Char → List (List Char)
  | [], _ => []
  | count :: counts, content => content.take count :: pieces counts (content.drop count)

/-- The pieces that are delivered, when their sends are numbered from `call` on. -/
def keptFrom (sent : ℕ → Bool) : ℕ → List (List Char) → List (List Char)
  | _, [] => []
  | call, piece :: rest =>
      if sent call then piece :: keptFrom sent (call + 1) rest else keptFrom sent (call + 1) rest

theorem ReadsOf.tail {count : ℕ} {counts : List ℕ} {content : List Char}
    (h : ReadsOf (count :: counts) content) : ReadsOf counts (content.drop count) where
  bounds := (List.forall_mem_cons.mp h.bounds).2
  total := by
    have htotal := h.total
    rw [List.sum_cons] at htotal
    rw [List.length_drop]
    omega

theorem ReadsOf.head {count : ℕ} {counts : List ℕ} {content : List Char}
    (h : ReadsOf (count :: counts) content) : (content.take count).length = count := by
  have htotal := h.total
  rw [List.sum_cons] at htotal
  rw [List.length_take]
  omega

theorem length_pieces (counts : List ℕ) (content : List Char) :
    (pieces counts content).length = counts.length := by
  induction counts generalizing content with
  | nil => rfl
  | cons count counts ih => rw [pieces, List.length_cons, ih, List.length_cons]

/-- The pieces are the file. -/
theorem flatten_pieces {counts : List ℕ} {content : List Char} (h : ReadsOf counts content) :
    (pieces counts content).flatten = content := by
  induction counts generalizing content with
  | nil =>
      have hlen : content.length = 0 := h.total.symm
      exact (List.length_eq_zero_iff.mp hlen).symm
  | cons count counts ih =>
      rw [pieces, List.flatten_cons, ih h.tail, List.take_append_drop]

/-- None is empty. -/
theorem ne_nil_of_mem_pieces {counts : List ℕ} {content : List Char} (h : ReadsOf counts content) :
    ∀ piece ∈ pieces counts content, piece ≠ [] := by
  induction counts generalizing content with
  | nil => exact fun _ hp => absurd hp List.not_mem_nil
  | cons count counts ih =>
      rw [pieces]
      intro piece hp
      rcases List.mem_cons.mp hp with rfl | hp
      · have hhead := h.head
        have hpos := (h.bounds count List.mem_cons_self).1
        intro hnil
        rw [hnil, List.length_nil] at hhead
        omega
      · exact ih h.tail piece hp

/-- One pass of the loop, when `fread` has something to return. -/
theorem sendLoop_read (sent : ℕ → Bool) (fuel : ℕ) (rest : List Char) (count : ℕ) (counts : List ℕ)
    (calls : ℕ) (delivered : List (List Char)) (h : (rest.take count).length > 0) :
    sendLoop sent (fuel + 1) ⟨rest, count :: counts, calls, delivered⟩ =
      sendLoop sent fuel
        (Sending.sendChunk sent ⟨rest.drop count, counts, calls, delivered⟩ (rest.take count)) :=
  if_pos h

/-- **The loop ends**, with the whole file read and the pieces delivered whose sends succeeded. -/
theorem sendLoop_eq {sent : ℕ → Bool} {fuel : ℕ} {s : Sending} (h : ReadsOf s.counts s.rest)
    (hfuel : s.counts.length < fuel) :
    sendLoop sent fuel s = some
      { rest := []
        counts := []
        calls := s.calls + s.counts.length
        delivered := s.delivered ++ keptFrom sent s.calls (pieces s.counts s.rest) } := by
  induction fuel generalizing s with
  | zero => omega
  | succ fuel ih =>
      obtain ⟨rest, counts, calls, delivered⟩ := s
      cases counts with
      | nil =>
          have hrest : rest = [] := List.length_eq_zero_iff.mp h.total.symm
          simp [sendLoop, Sending.fread, hrest, pieces, keptFrom]
      | cons count counts =>
          have hpos : (rest.take count).length > 0 := by
            rw [h.head]
            exact (h.bounds count List.mem_cons_self).1
          rw [List.length_cons] at hfuel
          rw [sendLoop_read sent fuel rest count counts calls delivered hpos,
            ih h.tail (by show counts.length < fuel; omega)]
          simp only [Sending.sendChunk, pieces, keptFrom, List.length_cons]
          split_ifs
          · rw [List.append_assoc, List.singleton_append, Nat.add_assoc, Nat.add_comm 1]
          · rw [Nat.add_assoc, Nat.add_comm 1]

/-! ### What is delivered -/

theorem keptFrom_of_all {sent : ℕ → Bool} {call : ℕ} {ps : List (List Char)}
    (h : ∀ i < ps.length, sent (call + i) = true) : keptFrom sent call ps = ps := by
  induction ps generalizing call with
  | nil => rfl
  | cons p ps ih =>
      have hfirst : sent call = true := h 0 (by simp)
      have hrest : ∀ i < ps.length, sent (call + 1 + i) = true := by
        intro i hi
        rw [Nat.add_assoc, Nat.add_comm 1]
        exact h (i + 1) (by simpa using hi)
      rw [keptFrom, if_pos hfirst, ih hrest]

theorem mem_of_mem_keptFrom {sent : ℕ → Bool} {call : ℕ} {ps : List (List Char)} {p : List Char}
    (h : p ∈ keptFrom sent call ps) : p ∈ ps := by
  induction ps generalizing call with
  | nil => exact h
  | cons q ps ih =>
      rw [keptFrom] at h
      split_ifs at h with hq
      · rcases List.mem_cons.mp h with rfl | h
        · exact List.mem_cons_self
        · exact List.mem_cons_of_mem _ (ih h)
      · exact List.mem_cons_of_mem _ (ih h)

/-- What is delivered is never more than the pieces. -/
theorem length_keptFrom_le (sent : ℕ → Bool) (call : ℕ) (ps : List (List Char)) :
    (keptFrom sent call ps).flatten.length ≤ ps.flatten.length := by
  induction ps generalizing call with
  | nil => exact le_rfl
  | cons p ps ih =>
      have hrest := ih (call + 1)
      rw [keptFrom]
      split_ifs
      · rw [List.flatten_cons, List.flatten_cons, List.length_append, List.length_append]
        omega
      · rw [List.flatten_cons, List.length_append]
        omega

/-- Where a piece is missing, it is less. -/
theorem keptFrom_flatten_iff {sent : ℕ → Bool} {call : ℕ} {ps : List (List Char)}
    (hps : ∀ p ∈ ps, p ≠ []) :
    (keptFrom sent call ps).flatten = ps.flatten ↔ ∀ i < ps.length, sent (call + i) = true := by
  constructor
  · intro h
    induction ps generalizing call with
    | nil => exact fun i hi => absurd hi (Nat.not_lt_zero i)
    | cons p ps ih =>
        obtain ⟨hp, hrest⟩ := List.forall_mem_cons.mp hps
        rw [keptFrom] at h
        split_ifs at h with hsent
        · rw [List.flatten_cons, List.flatten_cons, List.append_right_inj] at h
          intro i hi
          cases i with
          | zero => exact hsent
          | succ i =>
              have hi' := ih hrest h i (by simpa using hi)
              rwa [Nat.add_assoc, Nat.add_comm 1] at hi'
        · have hle := length_keptFrom_le sent (call + 1) ps
          have hpos := List.length_pos_of_ne_nil hp
          rw [h, List.flatten_cons, List.length_append] at hle
          omega
  · intro h
    rw [keptFrom_of_all h]

/-! ### The answer -/

/-- The two handlers, and the path of the file that each opens. -/
inductive FileHandler where
  | fileGet (file : CStr)
  | indexGet
deriving DecidableEq, Repr

/-- The handler on a request that names a file. -/
def FileHandler.run (files : CStr → Option (List Char)) (counts : List ℕ) (sent : ℕ → Bool)
    (fuel : ℕ) : FileHandler → Option (Except FileErr (List (List Char)))
  | fileGet file => fileGetHandler (some file) files counts sent fuel
  | indexGet => indexGetHandler files counts sent fuel

/-- The handler gets as far as the file with this content. -/
def FileHandler.Opens (files : CStr → Option (List Char)) (content : List Char) :
    FileHandler → Prop
  | fileGet file => file.length + 9 ≤ 264 ∧ files ("/spiffs/".toList ++ file) = some content
  | indexGet => files "/spiffs/index.html".toList = some content

/-- The chunks that an answer delivers: the pieces whose sends succeed, and the empty chunk if its
send does. -/
theorem FileHandler.run_eq {files : CStr → Option (List Char)} {counts : List ℕ}
    {content : List Char} {sent : ℕ → Bool} {fuel : ℕ} {handler : FileHandler}
    (ho : handler.Opens files content) (h : ReadsOf counts content) (hfuel : counts.length < fuel) :
    handler.run files counts sent fuel = some (.ok
      (keptFrom sent 0 (pieces counts content) ++ if sent counts.length then [[]] else [])) := by
  have hanswer : ∀ path, files path = some content → answerFile files counts sent fuel path =
      some (.ok (keptFrom sent 0 (pieces counts content) ++
        if sent counts.length then [[]] else [])) := by
    intro path hpath
    have hloop := @sendLoop_eq sent fuel ⟨content, counts, 0, []⟩ h hfuel
    rw [answerFile, hpath]
    simp only [hloop, Option.map_some, Sending.sendChunk, Nat.zero_add, List.nil_append]
    split_ifs
    · rfl
    · rw [List.append_nil]
  cases handler with
  | fileGet file =>
      have hlen : ¬ file.length + "/spiffs/".length + 1 > 264 := by
        have h9 : "/spiffs/".length = 8 := rfl
        have hfits := ho.1
        omega
      rw [run, fileGetHandler, if_neg hlen]
      exact hanswer _ ho.2
  | indexGet => exact hanswer _ ho

/-- What an answer should be: the handler returns; if every send succeeds, it is the file in pieces
that are not empty, and then one empty chunk; and if the empty chunk is delivered, it is the
file. -/
def AnswerOk (files : CStr → Option (List Char)) (counts : List ℕ) (content : List Char)
    (sent : ℕ → Bool) (handler : FileHandler) : Prop :=
  ∃ delivered,
    (∀ fuel, counts.length < fuel → handler.run files counts sent fuel = some (.ok delivered)) ∧
    ((∀ i ≤ counts.length, sent i = true) →
      ∃ data, delivered = data ++ [[]] ∧ [] ∉ data ∧ data.flatten = content) ∧
    ([] ∈ delivered → delivered.flatten = content)

/-- **A file answer that ends normally is the file** exactly if the empty chunk is not delivered or
every piece is. -/
theorem answerOk_iff {files : CStr → Option (List Char)} {counts : List ℕ} {content : List Char}
    {sent : ℕ → Bool} {handler : FileHandler} (ho : handler.Opens files content)
    (h : ReadsOf counts content) :
    AnswerOk files counts content sent handler ↔
      sent counts.length = false ∨ ∀ i < counts.length, sent i = true := by
  have hnonempty := ne_nil_of_mem_pieces h
  have hnotin : [] ∉ keptFrom sent 0 (pieces counts content) :=
    fun hm => hnonempty [] (mem_of_mem_keptFrom hm) rfl
  have hwhole := @keptFrom_flatten_iff sent 0 (pieces counts content) hnonempty
  rw [flatten_pieces h, length_pieces] at hwhole
  simp only [Nat.zero_add] at hwhole
  constructor
  · rintro ⟨delivered, hrun, -, hend⟩
    obtain rfl := Except.ok.inj (Option.some.inj
      ((hrun _ (Nat.lt_succ_self _)).symm.trans (FileHandler.run_eq ho h (Nat.lt_succ_self _))))
    cases hlast : sent counts.length with
    | false => exact .inl rfl
    | true =>
        rw [hlast] at hend
        right
        rw [← hwhole]
        simpa using hend (by simp)
  · intro hcond
    refine ⟨_, fun fuel hfuel => FileHandler.run_eq ho h hfuel, ?_, ?_⟩
    · intro hall
      have hkept := hwhole.mpr fun i hi => hall i (by omega)
      rw [hall _ le_rfl]
      exact ⟨_, rfl, hnotin, hkept⟩
    · intro hmem
      cases hlast : sent counts.length with
      | false =>
          rw [hlast] at hmem
          exact absurd (by simpa using hmem) hnotin
      | true =>
          have hkept := hwhole.mpr (hcond.resolve_left (by simp [hlast]))
          simpa using hkept

/-- A page of 1025 bytes, which `fread` returns in two pieces. -/
def page : List Char := List.replicate 1025 'x'

/-- A file system that holds the page. -/
def pageFiles (path : CStr) : Option (List Char) :=
  if path = "/spiffs/index.html".toList then some page else none

theorem readsOf_page : ReadsOf [1024, 1] page where
  bounds := by decide
  total := List.length_replicate.symm

/-- The page when every send succeeds. -/
theorem answerOk_page :
    AnswerOk pageFiles [1024, 1] page (fun _ => true) .indexGet ↔
      true = false ∨ ∀ i < 2, true = true :=
  answerOk_iff (if_pos rfl) readsOf_page

/-- When the send of the first piece fails, the second and the empty chunk follow all the same. -/
theorem answer_withHole :
    ¬ AnswerOk pageFiles [1024, 1] page (fun i => i != 0) .indexGet := by
  rintro ⟨delivered, hrun, -, hend⟩
  have hchunks : keptFrom (fun i => i != 0) 0 (pieces [1024, 1] page) = [['x']] := by
    decide +kernel
  have heq := @FileHandler.run_eq pageFiles [1024, 1] page (fun i => i != 0) 3 .indexGet
    (if_pos rfl) readsOf_page (by decide)
  rw [hchunks] at heq
  obtain rfl := Except.ok.inj (Option.some.inj ((hrun 3 (by decide)).symm.trans heq))
  have hlen := congrArg List.length (hend (by decide))
  rw [page, List.length_replicate] at hlen
  exact absurd hlen (by decide)

end Sicae
