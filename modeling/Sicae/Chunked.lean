import Sicae.Codec

/-! # Messages in chunks

The transfer coding in which a body is sent as chunks: the size in hexadecimal, an end of line,
the bytes of the chunk, an end of line; and a chunk of size 0 at the end.  In front of the chunks
stands a head, which ends with an empty line.

A `Receiver` takes the bytes of a message one by one.  It is `done` when the message is complete
and `malformed` when it is none; both are final.

* `receive_encode`: a head and non-empty chunks are received as their concatenation;
* `unfinished_of_prefix`: a message that is cut anywhere is neither complete nor malformed, so it
  is not taken for a shorter one. -/

namespace Chunked

open Codec

/-- Where a receiver stands. -/
inductive Phase where
  /-- In the head, behind so many characters of `CR LF CR LF`. -/
  | head (seen : ℕ)
  | size (value : Option ℕ)
  | sizeEnd (value : ℕ)
  /-- So many bytes of the chunk are still to come. -/
  | data (left : ℕ)
  | dataEnd
  | dataLf
  | lastEnd
  | lastLf
  | done
  | malformed
deriving DecidableEq, Repr

/-- A receiver and the body received so far. -/
structure Receiver where
  phase : Phase
  body : List Char
deriving DecidableEq, Repr

/-- The search for the empty line. -/
def headNext (seen : ℕ) (c : Char) : Phase :=
  if c = '\r' then .head (if seen = 2 then 3 else 1)
  else if c = '\n' then (if seen = 3 then .size none else .head (if seen = 1 then 2 else 0))
  else .head 0

/-- A character of the size. -/
def sizeNext (value : Option ℕ) (c : Char) : Phase :=
  match hexValue c, value with
  | some d, _ => .size (some (value.getD 0 * 16 + d))
  | none, some n => if c = '\r' then .sizeEnd n else .malformed
  | none, none => .malformed

/-- One character, which has to be `expected`. -/
def expect (expected : Char) (next : Phase) (c : Char) : Phase :=
  if c = expected then next else .malformed

/-- One byte of the message. -/
def Receiver.step (r : Receiver) (c : Char) : Receiver :=
  match r.phase with
  | .head seen => { r with phase := headNext seen c }
  | .size value => { r with phase := sizeNext value c }
  | .sizeEnd n => { r with phase := expect '\n' (if n = 0 then .lastEnd else .data n) c }
  | .data left => ⟨if left ≤ 1 then .dataEnd else .data (left - 1), r.body ++ [c]⟩
  | .dataEnd => { r with phase := expect '\r' .dataLf c }
  | .dataLf => { r with phase := expect '\n' (.size none) c }
  | .lastEnd => { r with phase := expect '\r' .lastLf c }
  | .lastLf => { r with phase := expect '\n' .done c }
  | .done => r
  | .malformed => r

/-- The bytes of a text one after the other. -/
def Receiver.receive (r : Receiver) (text : List Char) : Receiver := text.foldl Receiver.step r

/-- The receiver of a message of which nothing has come. -/
def Receiver.start : Receiver := ⟨.head 0, []⟩

/-- An end of line. -/
def crlf : List Char := ['\r', '\n']

/-- A chunk on the wire; the empty one ends the message. -/
def frame (chunk : List Char) : List Char :=
  Nat.toDigits 16 chunk.length ++ crlf ++ chunk ++ crlf

/-- The chunks of a body and the end. -/
def encode (chunks : List (List Char)) : List Char := (chunks.map frame).flatten ++ frame []

theorem receive_append (r : Receiver) (s t : List Char) :
    r.receive (s ++ t) = (r.receive s).receive t :=
  List.foldl_append

/-! ### A chunk -/

/-- The digits of a size. -/
theorem receive_digits : ∀ {ds : List Char} {value : Option ℕ} (body : List Char),
    (∀ c ∈ ds, ∃ d, hexValue c = some d) → ds ≠ [] →
    Receiver.receive ⟨.size value, body⟩ ds =
      ⟨.size (some (ds.foldl (fun a c => a * 16 + (hexValue c).getD 0) (value.getD 0))), body⟩
  | [], _, _, _, hne => absurd rfl hne
  | c :: ds, value, body, h, _ => by
      obtain ⟨d, hd⟩ := h c List.mem_cons_self
      have hstep : Receiver.step ⟨.size value, body⟩ c =
          ⟨.size (some (value.getD 0 * 16 + d)), body⟩ := by
        simp only [Receiver.step, sizeNext, hd]
      rw [Receiver.receive, List.foldl_cons, hstep, List.foldl_cons, hd]
      cases ds with
      | nil => rfl
      | cons c' ds =>
          exact receive_digits body (fun x hx => h x (List.mem_cons_of_mem c hx)) nofun

/-- A size with its end of line. -/
theorem receive_size (n : ℕ) (body : List Char) :
    Receiver.receive ⟨.size none, body⟩ (Nat.toDigits 16 n ++ crlf) =
      ⟨if n = 0 then .lastEnd else .data n, body⟩ := by
  have hhex : ∀ c ∈ Nat.toDigits 16 n, ∃ d, hexValue c = some d := by
    intro c hc
    obtain ⟨d, hd, rfl⟩ := mem_toDigits (by decide) hc
    exact ⟨d, hexValue_digitChar hd⟩
  have hvalue : (Nat.toDigits 16 n).foldl (fun a c => a * 16 + (hexValue c).getD 0) 0 = n :=
    ofDigits_toDigits (by decide) (fun d hd => by rw [hexValue_digitChar hd]; rfl) n
  rw [receive_append, receive_digits body hhex Nat.toDigits_ne_nil, Option.getD_none, hvalue]
  have hcr : sizeNext (some n) '\r' = .sizeEnd n := by
    have : hexValue '\r' = none := by decide
    simp only [sizeNext, this]
    rfl
  simp only [Receiver.receive, crlf, List.foldl_cons, List.foldl_nil, Receiver.step, hcr, expect,
    if_true]

/-- The bytes of a chunk. -/
theorem receive_data : ∀ {chunk : List Char} (body : List Char), chunk ≠ [] →
    Receiver.receive ⟨.data chunk.length, body⟩ chunk = ⟨.dataEnd, body ++ chunk⟩
  | [], _, hne => absurd rfl hne
  | [c], _, _ => rfl
  | c :: c' :: chunk, body, _ => by
      have ih := receive_data (body ++ [c]) (List.cons_ne_nil c' chunk)
      have hstep : Receiver.step ⟨.data (c :: c' :: chunk).length, body⟩ c =
          ⟨.data (c' :: chunk).length, body ++ [c]⟩ := by
        simp [Receiver.step]
      rw [Receiver.receive, List.foldl_cons, hstep]
      refine ih.trans ?_
      rw [List.append_assoc]
      rfl

/-- **A chunk is received.** -/
theorem receive_frame {chunk : List Char} (h : chunk ≠ []) (body : List Char) :
    Receiver.receive ⟨.size none, body⟩ (frame chunk) = ⟨.size none, body ++ chunk⟩ := by
  have hlen : chunk.length ≠ 0 := fun h0 => h (List.length_eq_zero_iff.mp h0)
  rw [frame, receive_append, receive_append, receive_size, if_neg hlen, receive_data body h]
  rfl

theorem receive_frames : ∀ {chunks : List (List Char)} (body : List Char),
    (∀ chunk ∈ chunks, chunk ≠ []) →
    Receiver.receive ⟨.size none, body⟩ (chunks.map frame).flatten =
      ⟨.size none, body ++ chunks.flatten⟩
  | [], body, _ => by simp [Receiver.receive]
  | chunk :: chunks, body, h => by
      have ih := receive_frames (body ++ chunk) (fun c hc => h c (List.mem_cons_of_mem chunk hc))
      rw [List.map_cons, List.flatten_cons, receive_append, receive_frame (h chunk List.mem_cons_self),
        ih, List.flatten_cons, List.append_assoc]

/-- The last byte of the last chunk completes the message. -/
theorem receive_last (body : List Char) :
    Receiver.receive ⟨.size none, body⟩ (frame []).dropLast = ⟨.lastLf, body⟩ ∧
      Receiver.receive ⟨.size none, body⟩ (frame []) = ⟨.done, body⟩ := by
  have hframe : frame [] = ['0', '\r', '\n', '\r', '\n'] := by decide
  rw [hframe]
  exact ⟨rfl, rfl⟩

/-! ### A head -/

/-- A line of a head: not empty, and without ends of line. -/
def Line (line : List Char) : Prop := line ≠ [] ∧ '\r' ∉ line ∧ '\n' ∉ line

theorem receive_line : ∀ {line : List Char} {seen : ℕ} (body : List Char), Line line →
    Receiver.receive ⟨.head seen, body⟩ line = ⟨.head 0, body⟩
  | [], _, _, h => absurd rfl h.1
  | c :: line, seen, body, h => by
      obtain ⟨hcr, hcr'⟩ := List.ne_and_not_mem_of_not_mem_cons h.2.1
      obtain ⟨hlf, hlf'⟩ := List.ne_and_not_mem_of_not_mem_cons h.2.2
      have hstep : Receiver.step ⟨.head seen, body⟩ c = ⟨.head 0, body⟩ := by
        simp [Receiver.step, headNext, Ne.symm hcr, Ne.symm hlf]
      rw [Receiver.receive, List.foldl_cons, hstep]
      cases line with
      | nil => rfl
      | cons d line => exact receive_line body ⟨List.cons_ne_nil d line, hcr', hlf'⟩

/-- The lines of a head and the empty line behind them. -/
def headText (lines : List (List Char)) : List Char :=
  (lines.map (fun line => line ++ crlf)).flatten ++ crlf

theorem receive_lines : ∀ {lines : List (List Char)} {seen : ℕ} (body : List Char),
    (∀ line ∈ lines, Line line) → lines ≠ [] →
    Receiver.receive ⟨.head seen, body⟩ (lines.map (fun line => line ++ crlf)).flatten =
      ⟨.head 2, body⟩
  | [], _, _, _, hne => absurd rfl hne
  | line :: lines, seen, body, h, _ => by
      have hend : Receiver.receive ⟨.head seen, body⟩ (line ++ crlf) = ⟨.head 2, body⟩ := by
        rw [receive_append, receive_line body (h line List.mem_cons_self)]
        rfl
      rw [List.map_cons, List.flatten_cons, receive_append, hend]
      cases lines with
      | nil => rfl
      | cons l lines =>
          exact receive_lines body (fun x hx => h x (List.mem_cons_of_mem line hx)) nofun

/-- A head is received. -/
theorem receive_headText {lines : List (List Char)} (h : ∀ line ∈ lines, Line line)
    (hne : lines ≠ []) : Receiver.start.receive (headText lines) = ⟨.size none, []⟩ := by
  rw [headText, receive_append, Receiver.start, receive_lines [] h hne]
  rfl

/-! ### A message -/

/-- **A message is received**: its body is the concatenation of its chunks. -/
theorem receive_encode {head : List Char} {chunks : List (List Char)}
    (hhead : Receiver.start.receive head = ⟨.size none, []⟩)
    (h : ∀ chunk ∈ chunks, chunk ≠ []) :
    Receiver.start.receive (head ++ encode chunks) = ⟨.done, chunks.flatten⟩ := by
  rw [encode, receive_append, hhead, receive_append, receive_frames [] h, (receive_last _).2,
    List.nil_append]

/-- The receiver has not ended. -/
def Phase.Unfinished (p : Phase) : Prop := p ≠ .done ∧ p ≠ .malformed

/-- Once ended, a receiver stays as it is. -/
theorem receive_final {r : Receiver} (h : ¬ r.phase.Unfinished) (text : List Char) :
    r.receive text = r := by
  have hstep : ∀ c, r.step c = r := by
    intro c
    obtain ⟨phase, body⟩ := r
    cases phase <;> first | rfl | exact absurd ⟨nofun, nofun⟩ h
  induction text with
  | nil => rfl
  | cons c text ih => rw [Receiver.receive, List.foldl_cons, hstep]; exact ih

theorem unfinished_of_append {r : Receiver} {s t : List Char}
    (h : (r.receive (s ++ t)).phase.Unfinished) : (r.receive s).phase.Unfinished := by
  by_contra hs
  rw [receive_append, receive_final hs] at h
  exact hs h

/-- **A message that is cut anywhere is incomplete** to its receiver. -/
theorem unfinished_of_prefix {head text : List Char} {chunks : List (List Char)}
    (hhead : Receiver.start.receive head = ⟨.size none, []⟩)
    (h : ∀ chunk ∈ chunks, chunk ≠ []) (hp : text <+: head ++ encode chunks)
    (hne : text ≠ head ++ encode chunks) :
    (Receiver.start.receive text).phase.Unfinished := by
  have hlast : encode chunks = (chunks.map frame).flatten ++ (frame []).dropLast ++ ['\n'] := by
    have : frame [] = (frame []).dropLast ++ ['\n'] := by decide
    rw [encode, List.append_assoc, ← this]
  -- everything but the last byte
  have hall : (Receiver.start.receive (head ++ ((chunks.map frame).flatten ++
      (frame []).dropLast))).phase.Unfinished := by
    rw [receive_append, hhead, receive_append, receive_frames [] h, (receive_last _).1]
    exact ⟨nofun, nofun⟩
  obtain ⟨more, hmore⟩ := hp
  have hmore' : more ≠ [] := by
    rintro rfl
    exact hne (by rw [← hmore, List.append_nil])
  obtain ⟨more', c, rfl⟩ := List.eq_nil_or_concat more |>.resolve_left hmore'
  rw [hlast, ← List.append_assoc, List.concat_eq_append, ← List.append_assoc] at hmore
  have hcut := (List.append_inj' hmore rfl).1
  rw [← hcut] at hall
  exact unfinished_of_append hall

end Chunked
