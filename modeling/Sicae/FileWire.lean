import Sicae.Chunked
import Sicae.FileAnswer

/-! # File answers on the wire

`httpd_resp_send_chunk` writes a chunk to the socket in several calls of `httpd_send_all`, and
before the first chunk the head of the answer.  A call of `send_fn` writes part of what it is given
or fails, so a call of `httpd_resp_send_chunk` that fails may have written some of its bytes.  The
handlers of `FileAnswer.lean` ignore its result and go on with the next piece.

The client is the receiver of `Chunked.lean`.

* When no send works again after one that failed, the client has a complete answer only if none
  failed, and it is the file (`fileWire_breaksOff`).
* When a call that fails writes nothing and later ones work, the client has a complete answer as
  soon as the empty chunk arrives, and its body is the chunks delivered (`fileWire_allOrNothing`):
  it cannot notice the hole. -/

namespace Sicae

open CString Chunked

/-! ### The source -/

/-- `httpd_send_all`, given what the calls of `send_fn` return: a number of bytes written, or an
error, as when the list ends.  Its success, the bytes written, and the calls to come. -/
def httpdSendAll : List (Option ℕ) → List Char → Bool × List Char × List (Option ℕ)
  | results, [] => (true, [], results)
  | [], _ :: _ => (false, [], [])
  | none :: results, _ :: _ => (false, [], results)
  | some n :: results, c :: buf =>
      let more := httpdSendAll results ((c :: buf).drop n)
      (more.1, (c :: buf).take n ++ more.2.1, more.2.2)

/-- Calls of `httpd_send_all` up to the first that fails. -/
def sendSeries : List (Option ℕ) → List (List Char) → Bool × List Char × List (Option ℕ)
  | results, [] => (true, [], results)
  | results, buf :: bufs =>
      let first := httpdSendAll results buf
      if first.1 then
        let more := sendSeries first.2.2 bufs
        (more.1, first.2.1 ++ more.2.1, more.2.2)
      else first

/-- The socket of a request: the bytes written, `first_chunk_sent`, and what the calls of `send_fn`
will return. -/
structure Socket where
  wire : List Char := []
  firstChunkSent : Bool := false
  results : List (Option ℕ)

/-- The buffers of the head of an answer with status 200; no header has been added. -/
def chunkedHead (contentType : CStr) : List (List Char) :=
  ["HTTP/1.1 200 OK\r\nContent-Type: ".toList ++ contentType ++
    "\r\nTransfer-Encoding: chunked\r\n".toList, "\r\n".toList]

/-- `len_str`. -/
def lenStr (n : ℕ) : CStr := snprintf 10 (Nat.toDigits 16 n ++ "\r\n".toList)

/-- `httpd_resp_send_chunk`, with its success. -/
def httpdRespSendChunk (head : List (List Char)) (buf : List Char) (s : Socket) : Bool × Socket :=
  let first := if s.firstChunkSent then (true, [], s.results) else sendSeries s.results head
  if first.1 then
    let chunk := sendSeries first.2.2 [lenStr buf.length, buf, "\r\n".toList]
    (chunk.1, ⟨s.wire ++ first.2.1 ++ chunk.2.1, true, chunk.2.2⟩)
  else (false, ⟨s.wire ++ first.2.1, s.firstChunkSent, first.2.2⟩)

/-- The calls of a handler one after the other, with their successes. -/
def respSendChunks (head : List (List Char)) : List (List Char) → Socket → List Bool × Socket
  | [], s => ([], s)
  | buf :: bufs, s =>
      let first := httpdRespSendChunk head buf s
      let more := respSendChunks head bufs first.2
      (first.1 :: more.1, more.2)

/-! ### A series of sends -/

/-- A series writes all of its bytes or is cut short. -/
def Wrote (text : List Char) (r : Bool × List Char × List (Option ℕ)) : Prop :=
  if r.1 then r.2.1 = text else r.2.1 <+: text ∧ r.2.1 ≠ text

theorem Wrote.whole {text : List Char} {r : Bool × List Char × List (Option ℕ)} (h : Wrote text r)
    (hok : r.1 = true) : r.2.1 = text := by
  rwa [Wrote, if_pos hok] at h

theorem Wrote.part {text : List Char} {r : Bool × List Char × List (Option ℕ)} (h : Wrote text r)
    (hok : r.1 = false) : r.2.1 <+: text ∧ r.2.1 ≠ text := by
  rwa [Wrote, if_neg (by rw [hok]; exact Bool.false_ne_true)] at h

theorem wrote_httpdSendAll : ∀ (results : List (Option ℕ)) (buf : List Char),
    Wrote buf (httpdSendAll results buf)
  | results, [] => by simp [Wrote, httpdSendAll]
  | [], c :: buf => by simp [Wrote, httpdSendAll]
  | none :: results, c :: buf => by simp [Wrote, httpdSendAll]
  | some n :: results, c :: buf => by
      have ih := wrote_httpdSendAll results ((c :: buf).drop n)
      have hsplit : (c :: buf).take n ++ (c :: buf).drop n = c :: buf := List.take_append_drop ..
      unfold Wrote at ih ⊢
      rw [httpdSendAll]
      dsimp only
      split_ifs at ih ⊢
      · rw [ih, hsplit]
      · refine ⟨?_, fun h => ih.2 ?_⟩
        · have := List.prefix_append_right_inj ((c :: buf).take n) |>.mpr ih.1
          rwa [hsplit] at this
        · have := h.trans hsplit.symm
          exact List.append_cancel_left this

theorem wrote_sendSeries : ∀ (results : List (Option ℕ)) (bufs : List (List Char)),
    Wrote bufs.flatten (sendSeries results bufs)
  | results, [] => by simp [Wrote, sendSeries]
  | results, buf :: bufs => by
      have hfirst := wrote_httpdSendAll results buf
      have ih := wrote_sendSeries (httpdSendAll results buf).2.2 bufs
      rw [Wrote, sendSeries, List.flatten_cons]
      cases hok : (httpdSendAll results buf).1 with
      | true =>
          rw [if_pos rfl]
          dsimp only
          rw [hfirst.whole hok]
          cases hrest : (sendSeries (httpdSendAll results buf).2.2 bufs).1 with
          | true => rw [if_pos rfl, ih.whole hrest]
          | false =>
              have hpart := ih.part hrest
              rw [if_neg Bool.false_ne_true]
              exact ⟨(List.prefix_append_right_inj buf).mpr hpart.1,
                fun h => hpart.2 (List.append_cancel_left h)⟩
      | false =>
          have hpart := hfirst.part hok
          rw [if_neg Bool.false_ne_true, hok, if_neg Bool.false_ne_true]
          refine ⟨hpart.1.trans (List.prefix_append buf _), fun h => hpart.2 ?_⟩
          exact hpart.1.eq_of_length_le (by rw [h, List.length_append]; omega)

/-- What a call of `httpd_resp_send_chunk` is to write. -/
def toWrite (head : List (List Char)) (buf : List Char) (s : Socket) : List Char :=
  (if s.firstChunkSent then [] else head.flatten) ++ (lenStr buf.length ++ buf ++ "\r\n".toList)

/-- The buffers of a chunk. -/
theorem lenStr_eq {n : ℕ} (h : n < 16 ^ 7) : lenStr n = Nat.toDigits 16 n ++ crlf := by
  have hlen : (Nat.toDigits 16 n).length ≤ 7 :=
    (Nat.length_toDigits_le_iff (by decide) (by decide)).mpr h
  have hcrlf : "\r\n".toList = crlf := by decide
  rw [lenStr, hcrlf]
  refine snprintf_of_length_lt ?_
  have : crlf.length = 2 := rfl
  rw [List.length_append]
  omega

theorem frame_eq {buf : List Char} (h : buf.length < 16 ^ 7) :
    lenStr buf.length ++ buf ++ "\r\n".toList = frame buf := by
  have hcrlf : "\r\n".toList = crlf := by decide
  rw [lenStr_eq h, hcrlf, frame]

/-- The outcome of a call of `httpd_resp_send_chunk` in its cases. -/
structure ChunkSent (head : List (List Char)) (buf : List Char) (s : Socket) (ok : Bool)
    (s' : Socket) (written : List Char) : Prop where
  wire : s'.wire = s.wire ++ written
  whole : ok = true → written = toWrite head buf s ∧ s'.firstChunkSent = true
  part : ok = false → written <+: toWrite head buf s ∧ written ≠ toWrite head buf s
  /-- Without the head nothing has been marked as sent. -/
  marked : ok = false → s'.firstChunkSent = s.firstChunkSent ∨ head.flatten <+: written

/-- The buffers of a chunk, with the size in front. -/
def chunkBuffers (buf : List Char) : List (List Char) := [lenStr buf.length, buf, "\r\n".toList]

theorem flatten_chunkBuffers (buf : List Char) :
    (chunkBuffers buf).flatten = lenStr buf.length ++ buf ++ "\r\n".toList := by
  rw [chunkBuffers, List.flatten_cons, List.flatten_cons, List.flatten_cons, List.flatten_nil,
    List.append_nil, List.append_assoc]

/-- A call when the head has been sent. -/
theorem httpdRespSendChunk_marked {head : List (List Char)} {buf : List Char} {s : Socket}
    (h : s.firstChunkSent = true) :
    httpdRespSendChunk head buf s =
      ((sendSeries s.results (chunkBuffers buf)).1,
        ⟨s.wire ++ (sendSeries s.results (chunkBuffers buf)).2.1, true,
          (sendSeries s.results (chunkBuffers buf)).2.2⟩) := by
  rw [httpdRespSendChunk, h]
  simp only [if_true, List.append_nil, chunkBuffers]

/-- A call that sends the head. -/
theorem httpdRespSendChunk_head {head : List (List Char)} {buf : List Char} {s : Socket}
    (h : s.firstChunkSent = false) (hok : (sendSeries s.results head).1 = true) :
    httpdRespSendChunk head buf s =
      ((sendSeries (sendSeries s.results head).2.2 (chunkBuffers buf)).1,
        ⟨s.wire ++ (sendSeries s.results head).2.1 ++
          (sendSeries (sendSeries s.results head).2.2 (chunkBuffers buf)).2.1, true,
          (sendSeries (sendSeries s.results head).2.2 (chunkBuffers buf)).2.2⟩) := by
  simp only [httpdRespSendChunk, h, hok, if_true, chunkBuffers, Bool.false_eq_true, if_false]

/-- A call that fails in the head. -/
theorem httpdRespSendChunk_noHead {head : List (List Char)} {buf : List Char} {s : Socket}
    (h : s.firstChunkSent = false) (hok : (sendSeries s.results head).1 = false) :
    httpdRespSendChunk head buf s =
      (false, ⟨s.wire ++ (sendSeries s.results head).2.1, false,
        (sendSeries s.results head).2.2⟩) := by
  simp only [httpdRespSendChunk, h, hok, Bool.false_eq_true, if_false]

/-- **A call of `httpd_resp_send_chunk`** writes all of its bytes or is cut short. -/
theorem chunkSent (head : List (List Char)) (buf : List Char) (s : Socket) :
    ∃ written, ChunkSent head buf s (httpdRespSendChunk head buf s).1
      (httpdRespSendChunk head buf s).2 written := by
  cases hmark : s.firstChunkSent with
  | true =>
      have h := wrote_sendSeries s.results (chunkBuffers buf)
      rw [flatten_chunkBuffers] at h
      rw [httpdRespSendChunk_marked hmark]
      refine ⟨_, ⟨rfl, fun hok => ?_, fun hok => ?_, fun _ => .inl hmark.symm⟩⟩
      · exact ⟨by rw [h.whole hok, toWrite, hmark]; rfl, rfl⟩
      · rw [toWrite, hmark]
        exact h.part hok
  | false =>
      have hhead := wrote_sendSeries s.results head
      cases hok : (sendSeries s.results head).1 with
      | true =>
          have h := wrote_sendSeries (sendSeries s.results head).2.2 (chunkBuffers buf)
          rw [flatten_chunkBuffers] at h
          rw [httpdRespSendChunk_head hmark hok, hhead.whole hok]
          refine ⟨_, ⟨List.append_assoc .., fun hok' => ?_, fun hok' => ?_,
            fun _ => .inr (List.prefix_append _ _)⟩⟩
          · exact ⟨by rw [h.whole hok', toWrite, hmark]; rfl, rfl⟩
          · have hpart := h.part hok'
            rw [toWrite, hmark]
            exact ⟨(List.prefix_append_right_inj _).mpr hpart.1,
              fun he => hpart.2 (List.append_cancel_left he)⟩
      | false =>
          have hpart := hhead.part hok
          rw [httpdRespSendChunk_noHead hmark hok]
          refine ⟨_, ⟨rfl, nofun, fun _ => ?_, fun _ => .inl hmark.symm⟩⟩
          rw [toWrite, hmark]
          refine ⟨hpart.1.trans (List.prefix_append _ _), fun he => hpart.2 ?_⟩
          exact hpart.1.eq_of_length_le (by rw [he]; simp)

/-! ### Calls that write all or nothing -/

/-- No call of the run is cut in the middle: one that fails has written nothing. -/
def AllOrNothing (head : List (List Char)) : List (List Char) → Socket → Prop
  | [], _ => True
  | buf :: bufs, s =>
      ((httpdRespSendChunk head buf s).1 = false →
        (httpdRespSendChunk head buf s).2.wire = s.wire) ∧
      AllOrNothing head bufs (httpdRespSendChunk head buf s).2

/-- The wire holds the head, once it has been sent, and these chunks. -/
def Holds (head : List (List Char)) (s : Socket) (data : List (List Char)) : Prop :=
  s.wire = (if s.firstChunkSent then head.flatten ++ (data.map frame).flatten else []) ∧
    (s.firstChunkSent = false → data = [])

/-- A call adds its chunk, or nothing. -/
theorem Holds.step {head : List (List Char)} {s : Socket} {data : List (List Char)}
    {buf : List Char} (h : Holds head s data) (hne : head.flatten ≠ []) (hbuf : buf.length < 16 ^ 7)
    (hall : (httpdRespSendChunk head buf s).1 = false →
      (httpdRespSendChunk head buf s).2.wire = s.wire) :
    Holds head (httpdRespSendChunk head buf s).2
      (data ++ if (httpdRespSendChunk head buf s).1 then [buf] else []) := by
  obtain ⟨written, hsent⟩ := chunkSent head buf s
  cases hok : (httpdRespSendChunk head buf s).1 with
  | true =>
      obtain ⟨hw, hmark⟩ := hsent.whole hok
      refine ⟨?_, fun hf => absurd (hmark.symm.trans hf) nofun⟩
      rw [hsent.wire, hw, toWrite, frame_eq hbuf, hmark, if_pos rfl, if_pos rfl, h.1]
      cases hs : s.firstChunkSent with
      | true => simp
      | false => simp [h.2 hs]
  | false =>
      have hwire := hall hok
      have hnil : written = [] := by
        have := hsent.wire.symm.trans hwire
        rwa [List.append_right_eq_self] at this
      have hmark : (httpdRespSendChunk head buf s).2.firstChunkSent = s.firstChunkSent := by
        rcases hsent.marked hok with hm | hm
        · exact hm
        · rw [hnil, List.prefix_nil] at hm
          exact absurd hm hne
      rw [if_neg Bool.false_ne_true, List.append_nil]
      exact ⟨by rw [hwire, hmark]; exact h.1, fun hf => h.2 (hmark.symm.trans hf)⟩

/-- The run adds the chunks whose calls succeed. -/
theorem Holds.run {head : List (List Char)} {sent : ℕ → Bool} (hne : head.flatten ≠ []) :
    ∀ {bufs : List (List Char)} {s : Socket} {data : List (List Char)} {call : ℕ},
      Holds head s data → (∀ buf ∈ bufs, buf.length < 16 ^ 7) → AllOrNothing head bufs s →
      (∀ i, sent (call + i) = (respSendChunks head bufs s).1.getD i false) →
      Holds head (respSendChunks head bufs s).2 (data ++ keptFrom sent call bufs)
  | [], s, data, call, h, _, _, _ => by
      rw [keptFrom, List.append_nil]
      exact h
  | buf :: bufs, s, data, call, h, hlen, hall, hsent => by
      obtain ⟨hbuf, hlen'⟩ := List.forall_mem_cons.mp hlen
      have hnext : ∀ i, sent (call + 1 + i) =
          (respSendChunks head bufs (httpdRespSendChunk head buf s).2).1.getD i false := by
        intro i
        rw [Nat.add_assoc, Nat.add_comm 1]
        exact hsent (i + 1)
      have hrun := (h.step hne hbuf hall.1).run hne hlen' hall.2 hnext
      have hfirst : sent call = (httpdRespSendChunk head buf s).1 := hsent 0
      rw [keptFrom, hfirst]
      rw [List.append_assoc] at hrun
      split_ifs at hrun ⊢ <;> exact hrun

theorem keptFrom_append (sent : ℕ → Bool) : ∀ (ps qs : List (List Char)) (call : ℕ),
    keptFrom sent call (ps ++ qs) = keptFrom sent call ps ++ keptFrom sent (call + ps.length) qs
  | [], qs, call => rfl
  | p :: ps, qs, call => by
      have ih := keptFrom_append sent ps qs (call + 1)
      rw [List.cons_append, keptFrom, keptFrom, ih, List.length_cons, Nat.add_assoc,
        Nat.add_comm 1 ps.length]
      split_ifs <;> rfl

/-! ### Connections that break off -/

/-- No call of `send_fn` works any more. -/
def Dead (results : List (Option ℕ)) : Prop := ∀ result ∈ results, result = none

/-- Once a call of `send_fn` has failed, none works any more. -/
def BreaksOff : List (Option ℕ) → Prop
  | [] => True
  | none :: results => Dead results
  | some _ :: results => BreaksOff results

theorem Dead.breaksOff : ∀ {results : List (Option ℕ)}, Dead results → BreaksOff results
  | [], _ => trivial
  | none :: _, h => fun r hr => h r (List.mem_cons_of_mem none hr)
  | some _ :: _, h => absurd (h _ List.mem_cons_self) nofun

theorem httpdSendAll_breaksOff : ∀ {results : List (Option ℕ)} (buf : List Char),
    BreaksOff results →
      if (httpdSendAll results buf).1 then BreaksOff (httpdSendAll results buf).2.2
      else Dead (httpdSendAll results buf).2.2
  | results, [], h => by simpa [httpdSendAll] using h
  | [], c :: buf, _ => by simp [httpdSendAll, Dead]
  | none :: results, c :: buf, h => h
  | some n :: results, c :: buf, h => httpdSendAll_breaksOff ((c :: buf).drop n) h

theorem sendSeries_breaksOff : ∀ {bufs : List (List Char)} {results : List (Option ℕ)},
    BreaksOff results →
      if (sendSeries results bufs).1 then BreaksOff (sendSeries results bufs).2.2
      else Dead (sendSeries results bufs).2.2
  | [], _, h => h
  | buf :: bufs, results, h => by
      have hfirst := httpdSendAll_breaksOff buf h
      rw [sendSeries]
      cases hok : (httpdSendAll results buf).1 with
      | true =>
          rw [hok, if_pos rfl] at hfirst
          rw [if_pos rfl]
          exact sendSeries_breaksOff hfirst
      | false =>
          rw [hok, if_neg Bool.false_ne_true] at hfirst
          rw [if_neg Bool.false_ne_true, hok, if_neg Bool.false_ne_true]
          exact hfirst

theorem httpdRespSendChunk_breaksOff {head : List (List Char)} {buf : List Char} {s : Socket}
    (h : BreaksOff s.results) :
    if (httpdRespSendChunk head buf s).1 then
      BreaksOff (httpdRespSendChunk head buf s).2.results
    else Dead (httpdRespSendChunk head buf s).2.results := by
  cases hmark : s.firstChunkSent with
  | true =>
      rw [httpdRespSendChunk_marked hmark]
      exact sendSeries_breaksOff h
  | false =>
      have hhead := @sendSeries_breaksOff head _ h
      cases hok : (sendSeries s.results head).1 with
      | true =>
          rw [hok, if_pos rfl] at hhead
          rw [httpdRespSendChunk_head hmark hok]
          exact sendSeries_breaksOff hhead
      | false =>
          rw [hok, if_neg Bool.false_ne_true] at hhead
          rw [httpdRespSendChunk_noHead hmark hok, if_neg Bool.false_ne_true]
          exact hhead

/-- Nothing is written to a dead connection. -/
theorem httpdSendAll_dead : ∀ {results : List (Option ℕ)} {buf : List Char}, Dead results →
    (httpdSendAll results buf).2.1 = []
  | _, [], _ => by simp [httpdSendAll]
  | [], _ :: _, _ => rfl
  | none :: _, _ :: _, _ => rfl
  | some _ :: _, _ :: _, h => absurd (h _ List.mem_cons_self) nofun

theorem sendSeries_dead : ∀ {bufs : List (List Char)} {results : List (Option ℕ)}, Dead results →
    (sendSeries results bufs).2.1 = []
  | [], _, _ => rfl
  | buf :: bufs, results, h => by
      have hfirst := @httpdSendAll_dead _ buf h
      have hwrote := wrote_httpdSendAll results buf
      rw [sendSeries]
      cases hok : (httpdSendAll results buf).1 with
      | true =>
          -- only an empty buffer is sent, which uses up no result
          have hbuf : buf = [] := (hwrote.whole hok).symm.trans hfirst
          subst hbuf
          have hsame : (httpdSendAll results []).2.2 = results := by simp [httpdSendAll]
          rw [if_pos rfl]
          dsimp only
          rw [hfirst, hsame, sendSeries_dead h]
          rfl
      | false =>
          rw [if_neg Bool.false_ne_true]
          exact hfirst

theorem httpdRespSendChunk_dead {head : List (List Char)} {buf : List Char} {s : Socket}
    (h : Dead s.results) (hne : head.flatten ≠ []) :
    (httpdRespSendChunk head buf s).1 = false ∧
      (httpdRespSendChunk head buf s).2.wire = s.wire := by
  cases hmark : s.firstChunkSent with
  | true =>
      have hnil := @sendSeries_dead (chunkBuffers buf) _ h
      have hwrote := wrote_sendSeries s.results (chunkBuffers buf)
      rw [httpdRespSendChunk_marked hmark]
      refine ⟨?_, by rw [hnil, List.append_nil]⟩
      cases hok : (sendSeries s.results (chunkBuffers buf)).1 with
      | false => rfl
      | true =>
          have hempty := (hwrote.whole hok).symm.trans hnil
          rw [flatten_chunkBuffers] at hempty
          simp at hempty
  | false =>
      have hnil := @sendSeries_dead head _ h
      have hwrote := wrote_sendSeries s.results head
      cases hok : (sendSeries s.results head).1 with
      | false =>
          rw [httpdRespSendChunk_noHead hmark hok, hnil, List.append_nil]
          exact ⟨rfl, rfl⟩
      | true => exact absurd ((hwrote.whole hok).symm.trans hnil) hne

theorem respSendChunks_dead {head : List (List Char)} (hne : head.flatten ≠ []) :
    ∀ {bufs : List (List Char)} {s : Socket}, Dead s.results →
      (respSendChunks head bufs s).2.wire = s.wire
  | [], _, _ => rfl
  | buf :: bufs, s, h => by
      obtain ⟨hok, hwire⟩ := @httpdRespSendChunk_dead head buf s h hne
      have hdead := @httpdRespSendChunk_breaksOff head buf s h.breaksOff
      rw [hok, if_neg Bool.false_ne_true] at hdead
      exact (respSendChunks_dead hne hdead).trans hwire

/-- What a run of calls is to write. -/
def allToWrite (head : List (List Char)) : List (List Char) → Socket → List Char
  | [], _ => []
  | buf :: bufs, s => toWrite head buf s ++ (bufs.map frame).flatten

/-- **A connection that breaks off** has carried all that was to be written, or a part of it. -/
theorem respSendChunks_breaksOff {head : List (List Char)} (hne : head.flatten ≠ []) :
    ∀ {bufs : List (List Char)} {s : Socket}, BreaksOff s.results →
      (∀ buf ∈ bufs, buf.length < 16 ^ 7) →
      ∃ written, (respSendChunks head bufs s).2.wire = s.wire ++ written ∧
        if ∀ ok ∈ (respSendChunks head bufs s).1, ok = true then written = allToWrite head bufs s
        else written <+: allToWrite head bufs s ∧ written ≠ allToWrite head bufs s
  | [], s, _, _ => ⟨[], by simp [respSendChunks], by simp [respSendChunks, allToWrite]⟩
  | buf :: bufs, s, h, hlen => by
      obtain ⟨hbuf, hlen'⟩ := List.forall_mem_cons.mp hlen
      obtain ⟨written, hsent⟩ := chunkSent head buf s
      have hnext := @httpdRespSendChunk_breaksOff head buf s h
      rw [respSendChunks]
      dsimp only
      simp only [List.forall_mem_cons]
      cases hok : (httpdRespSendChunk head buf s).1 with
      | true =>
          obtain ⟨hw, hmark⟩ := hsent.whole hok
          rw [hok, if_pos rfl] at hnext
          obtain ⟨more, hmore, hrest⟩ := respSendChunks_breaksOff hne hnext hlen'
          have hall : allToWrite head bufs (httpdRespSendChunk head buf s).2 =
              (bufs.map frame).flatten := by
            cases bufs with
            | nil => rfl
            | cons b bs =>
                rw [allToWrite, toWrite, hmark, if_pos rfl, List.nil_append,
                  frame_eq (hlen' b List.mem_cons_self), List.map_cons, List.flatten_cons]
          rw [hall] at hrest
          refine ⟨written ++ more, by rw [hmore, hsent.wire, List.append_assoc], ?_⟩
          rw [hw, allToWrite]
          simp only [true_and]
          split_ifs at hrest ⊢
          · rw [hrest]
          · exact ⟨(List.prefix_append_right_inj _).mpr hrest.1,
              fun he => hrest.2 (List.append_cancel_left he)⟩
      | false =>
          rw [hok, if_neg Bool.false_ne_true] at hnext
          have hpart := hsent.part hok
          refine ⟨written, by rw [respSendChunks_dead hne hnext, hsent.wire], ?_⟩
          rw [if_neg (by simp), allToWrite]
          refine ⟨hpart.1.trans (List.prefix_append _ _), fun he => hpart.2 ?_⟩
          exact hpart.1.eq_of_length_le (by rw [he]; simp)

/-! ### Main results -/

/-- The head is one to the client, and is not empty. -/
theorem receive_chunkedHead {contentType : CStr} (hcr : '\r' ∉ contentType)
    (hlf : '\n' ∉ contentType) :
    Receiver.start.receive (chunkedHead contentType).flatten = ⟨.size none, []⟩ := by
  have htext : (chunkedHead contentType).flatten = headText ["HTTP/1.1 200 OK".toList,
      "Content-Type: ".toList ++ contentType, "Transfer-Encoding: chunked".toList] := by
    simp [chunkedHead, headText, crlf]
  rw [htext]
  refine receive_headText ?_ (List.cons_ne_nil _ _)
  intro line hline
  rcases List.mem_cons.mp hline with rfl | hline
  · exact ⟨by decide, by decide, by decide⟩
  rcases List.mem_cons.mp hline with rfl | hline
  · refine ⟨by simp, ?_, ?_⟩
    · rw [List.mem_append]
      exact fun h => h.elim (by decide) hcr
    · rw [List.mem_append]
      exact fun h => h.elim (by decide) hlf
  · rw [List.mem_singleton.mp hline]
    exact ⟨by decide, by decide, by decide⟩

theorem chunkedHead_ne_nil (contentType : CStr) : (chunkedHead contentType).flatten ≠ [] := by
  simp [chunkedHead]

/-- The calls of a handler for a file. -/
def fileCalls (counts : List ℕ) (content : List Char) : List (List Char) :=
  pieces counts content ++ [[]]

theorem length_mem_pieces {counts : List ℕ} {content : List Char} (h : ReadsOf counts content) :
    ∀ piece ∈ pieces counts content, piece.length ≤ 1024 := by
  induction counts generalizing content with
  | nil => exact fun _ hp => absurd hp List.not_mem_nil
  | cons count counts ih =>
      rw [pieces]
      intro piece hp
      rcases List.mem_cons.mp hp with rfl | hp
      · rw [h.head]
        exact (h.bounds count List.mem_cons_self).2
      · exact ih h.tail piece hp

theorem length_mem_fileCalls {counts : List ℕ} {content : List Char} (h : ReadsOf counts content) :
    ∀ buf ∈ fileCalls counts content, buf.length < 16 ^ 7 := by
  intro buf hb
  rcases List.mem_append.mp hb with hb | hb
  · exact (length_mem_pieces h buf hb).trans_lt (by decide)
  · rw [List.mem_singleton.mp hb]
    decide

section Main

variable {contentType : CStr} {counts : List ℕ} {content : List Char}

/-- **When a connection breaks off for good**, the client has a complete answer only if no call has
failed, and then it is the file; otherwise the client knows that the answer is incomplete. -/
theorem fileWire_breaksOff (hcr : '\r' ∉ contentType) (hlf : '\n' ∉ contentType)
    (h : ReadsOf counts content) {results : List (Option ℕ)} (hb : BreaksOff results) :
    let calls := respSendChunks (chunkedHead contentType) (fileCalls counts content)
      { results := results }
    if ∀ ok ∈ calls.1, ok = true then Receiver.start.receive calls.2.wire = ⟨.done, content⟩
    else (Receiver.start.receive calls.2.wire).phase.Unfinished := by
  intro calls
  have hhead := receive_chunkedHead hcr hlf
  have hnonempty := ne_nil_of_mem_pieces h
  obtain ⟨written, hwire, hcase⟩ := @respSendChunks_breaksOff _ (chunkedHead_ne_nil contentType)
    (fileCalls counts content) { results := results } hb (length_mem_fileCalls h)
  have hall : allToWrite (chunkedHead contentType) (fileCalls counts content)
      { results := results } =
      (chunkedHead contentType).flatten ++ encode (pieces counts content) := by
    have hframes : ∀ bufs : List (List Char), (∀ buf ∈ bufs, buf.length < 16 ^ 7) → bufs ≠ [] →
        allToWrite (chunkedHead contentType) bufs { results := results } =
          (chunkedHead contentType).flatten ++ (bufs.map frame).flatten := by
      intro bufs hlen hne
      cases bufs with
      | nil => exact absurd rfl hne
      | cons buf bufs =>
          rw [allToWrite, toWrite, frame_eq (hlen buf List.mem_cons_self), List.append_assoc]
          rfl
    rw [hframes _ (length_mem_fileCalls h) (by simp [fileCalls]), fileCalls, encode, List.map_append,
      List.flatten_append]
    simp
  rw [List.nil_append] at hwire
  rw [hall] at hcase
  have hcalls : calls.2.wire = written := hwire
  split_ifs with hok
  · rw [if_pos hok] at hcase
    rw [hcalls, hcase, receive_encode hhead hnonempty, flatten_pieces h]
  · rw [if_neg hok] at hcase
    rw [hcalls]
    exact unfinished_of_prefix hhead hnonempty hcase.1 hcase.2

/-- **When a call that fails writes nothing**, the client has a complete answer exactly if the empty
chunk has been sent, and what it has is the chunks delivered, whether or not one is missing. -/
theorem fileWire_allOrNothing (hcr : '\r' ∉ contentType) (hlf : '\n' ∉ contentType)
    (h : ReadsOf counts content) {files : CStr → Option (List Char)} {handler : FileHandler}
    (ho : handler.Opens files content) {results : List (Option ℕ)}
    (hall : AllOrNothing (chunkedHead contentType) (fileCalls counts content)
      { results := results }) :
    let calls := respSendChunks (chunkedHead contentType) (fileCalls counts content)
      { results := results }
    ∃ delivered,
      (∀ fuel, counts.length < fuel →
        handler.run files counts (fun i => calls.1.getD i false) fuel = some (.ok delivered)) ∧
      if calls.1.getD counts.length false then
        Receiver.start.receive calls.2.wire = ⟨.done, delivered.flatten⟩
      else (Receiver.start.receive calls.2.wire).phase.Unfinished := by
  intro calls
  have hhead := receive_chunkedHead hcr hlf
  have hkept : ∀ piece ∈ keptFrom (fun i => calls.1.getD i false) 0 (pieces counts content),
      piece ≠ [] := fun p hp => ne_nil_of_mem_pieces h p (mem_of_mem_keptFrom hp)
  have hstart : Holds (chunkedHead contentType) { results := results } [] := ⟨rfl, fun _ => rfl⟩
  have hsent : ∀ i, calls.1.getD (0 + i) false = calls.1.getD i false := fun i => by
    rw [Nat.zero_add]
  have hrun := @Holds.run _ (fun i => calls.1.getD i false) (chunkedHead_ne_nil contentType) _ _ []
    0 hstart (length_mem_fileCalls h) hall hsent
  rw [List.nil_append, fileCalls, keptFrom_append, length_pieces, Nat.zero_add, keptFrom,
    keptFrom] at hrun
  refine ⟨_, fun fuel hfuel => FileHandler.run_eq ho h hfuel, ?_⟩
  split_ifs with hlast
  · rw [if_pos hlast] at hrun
    have hmark : calls.2.firstChunkSent = true := by
      by_contra hf
      have hnil := hrun.2 (Bool.eq_false_of_not_eq_true hf)
      simp at hnil
    have hwire : calls.2.wire = (chunkedHead contentType).flatten ++
        encode (keptFrom (fun i => calls.1.getD i false) 0 (pieces counts content)) := by
      have hw := hrun.1
      rw [show (respSendChunks (chunkedHead contentType) (pieces counts content ++ [[]])
        { results := results }).2.firstChunkSent = true from hmark, if_pos rfl] at hw
      rw [encode]
      refine hw.trans ?_
      simp
    rw [hwire, receive_encode hhead hkept]
    simp
  · rw [if_neg hlast, List.append_nil] at hrun
    have hw : calls.2.wire = _ := hrun.1
    have hframe : (frame []).length = 5 := by decide
    refine unfinished_of_prefix hhead hkept ?_ ?_
    · rw [hw, encode, ← List.append_assoc]
      split_ifs
      · exact List.prefix_append _ _
      · exact List.nil_prefix
    · intro he
      have hlen := congrArg List.length (hw.symm.trans he)
      rw [encode, List.length_append, List.length_append, hframe] at hlen
      split_ifs at hlen
      · rw [List.length_append] at hlen
        omega

end Main

/-- The page on a connection that breaks off in the head. -/
theorem fileWire_breaksOff_page :
    let calls := respSendChunks (chunkedHead "text/html".toList) (fileCalls [1024, 1] page)
      { results := [some 20, none] }
    if ∀ ok ∈ calls.1, ok = true then Receiver.start.receive calls.2.wire = ⟨.done, page⟩
    else (Receiver.start.receive calls.2.wire).phase.Unfinished :=
  fileWire_breaksOff (by decide) (by decide) readsOf_page (show Dead [] from nofun)

/-- The page when the first call fails at once and all others work. -/
def holeResults : List (Option ℕ) :=
  [none, some 80, some 2, some 3, some 1, some 2, some 3, some 2]

theorem fileWire_allOrNothing_page :
    let calls := respSendChunks (chunkedHead "text/html".toList) (fileCalls [1024, 1] page)
      { results := holeResults }
    ∃ delivered,
      (∀ fuel, [1024, 1].length < fuel → FileHandler.indexGet.run pageFiles [1024, 1]
        (fun i => calls.1.getD i false) fuel = some (.ok delivered)) ∧
      if calls.1.getD 2 false then
        Receiver.start.receive calls.2.wire = ⟨.done, delivered.flatten⟩
      else (Receiver.start.receive calls.2.wire).phase.Unfinished :=
  fileWire_allOrNothing (by decide) (by decide) readsOf_page
    (show FileHandler.indexGet.Opens pageFiles page from if_pos rfl)
    (by
      refine ⟨fun _ => rfl, fun h => ?_, fun h => ?_, trivial⟩
      · exact absurd h (by decide +kernel)
      · exact absurd h (by decide +kernel))

end Sicae
