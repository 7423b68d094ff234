import Sicae.JsonAppend
import Sicae.Tasks

/-! # Answers as trees

The tasks with the parser of `JsonText.lean`.  A server that prints a tree whose numbers survive it,
in either format and cut into any chunks, makes the firmware do what the branch of the URL does on
that tree (`perform_print`): the chunks, the buffer and the parser add nothing of their own.

That holds for an empty buffer.  A text left over in it decides instead of the answer, if it parses
to anything but a number (`perform_leftover`); so the command in the first answer after a refresh
that found no array is lost (`command_lost`). -/

namespace Sicae

open CString Codec Json

/-! ### Printed texts are C strings -/

namespace Json

theorem nul_not_mem_escapeChar {c : Char} (h : c ≠ '\x00') : '\x00' ∉ escapeChar c := by
  rcases escapeChar_cases c with ⟨he, -⟩ | ⟨e, he, hs⟩ | ⟨he, -⟩
  · rw [he]
    simpa using h.symm
  · rw [he]
    have hne : e ≠ '\x00' := by
      rintro rfl
      have hnone : escapeSequence ['\x00'] = none := by decide
      exact absurd (hnone.symm.trans (hs [])) nofun
    simpa using hne.symm
  · have hhex : '\x00' ∉ hex04 c.toNat := by
      intro hm
      obtain ⟨d, hd, h0⟩ := mem_zeroPadded (by decide) hm
      exact absurd h0 ((by decide : ∀ d < 16, '\x00' ≠ Nat.digitChar d) d hd)
    rw [he]
    simpa using hhex

theorem nul_not_mem_printString {s : CStr} (h : '\x00' ∉ s) : '\x00' ∉ printString s := by
  simp only [printString, List.mem_cons, List.mem_append, List.mem_flatMap, not_or]
  refine ⟨by decide, ⟨?_, by decide, List.not_mem_nil⟩⟩
  rintro ⟨c, hc, hm⟩
  exact nul_not_mem_escapeChar (fun e => h (e ▸ hc)) hm

theorem nul_not_mem_printItems {format : Bool} {depth : ℕ} : ∀ {items : List Json},
    (∀ v ∈ items, '\x00' ∉ printValue format depth v) → '\x00' ∉ printItems format depth items
  | [], _ => nofun
  | [v], h => by
      rw [printItems]
      exact h v List.mem_cons_self
  | v :: w :: items, h => by
      have ih := nul_not_mem_printItems (fun u hu => h u (List.mem_cons_of_mem v hu))
      have hv := h v List.mem_cons_self
      rw [printItems]
      cases format <;> simp [hv, ih]

theorem nul_not_mem_printMembers {format : Bool} {depth : ℕ} :
    ∀ {members : List (CStr × Json)},
      (∀ m ∈ members, '\x00' ∉ m.1 ∧ '\x00' ∉ printValue format depth m.2) →
      '\x00' ∉ printMembers format depth members
  | [], _ => by
      rw [printMembers]
      exact List.not_mem_nil
  | (name, v) :: members, h => by
      have ih := nul_not_mem_printMembers (fun u hu => h u (List.mem_cons_of_mem (name, v) hu))
      obtain ⟨hn, hv⟩ := h (name, v) List.mem_cons_self
      have hs := nul_not_mem_printString hn
      have htabs : '\x00' ∉ List.replicate depth '\t' := fun hm =>
        absurd (List.eq_of_mem_replicate hm) (by decide)
      rw [printMembers]
      cases format <;> split_ifs <;> simp_all

theorem nul_not_mem_printValue (format : Bool) {levels : ℕ} : ∀ {v : Json}, WellFormed levels v →
    ∀ depth, '\x00' ∉ printValue format depth v := by
  induction levels using Nat.strongRecOn with
  | _ levels ih =>
      intro v hv depth
      cases v with
      | null => rw [printValue]; decide
      | bool b => cases b <;> rw [printValue] <;> decide
      | number x =>
          rw [printValue]
          cases x with
          | infinite negative => rw [printNumber]; decide
          | finite negative m =>
              obtain ⟨y, -, htext⟩ := printNumber_spec negative m
              exact fun h => absurd (htext.chars _ h) (by decide)
      | string s => rw [printValue]; exact nul_not_mem_printString (by simpa [Nests] using hv)
      | array items =>
          cases levels with
          | zero => exact absurd hv (by simp [Nests])
          | succ levels =>
              have hitems : ∀ v ∈ items, WellFormed levels v := by simpa [Nests] using hv
              have h := nul_not_mem_printItems
                (fun v hm => ih levels levels.lt_succ_self (hitems v hm) (depth + 1))
              rw [printValue]
              simp [h]
      | object members =>
          cases levels with
          | zero => exact absurd hv (by simp [Nests])
          | succ levels =>
              have hmembers : ∀ m ∈ members, '\x00' ∉ m.1 ∧ WellFormed levels m.2 := by
                simpa [Nests] using hv
              have h := nul_not_mem_printMembers (fun m hm => ⟨(hmembers m hm).1,
                ih levels levels.lt_succ_self (hmembers m hm).2 (depth + 1)⟩)
              have htabs : '\x00' ∉ List.replicate depth '\t' := fun hm =>
                absurd (List.eq_of_mem_replicate hm) (by decide)
              rw [printValue]
              cases format <;> simp [h, htabs]

/-- The parser reads the C string in a buffer that holds a printed tree. -/
theorem parse_cstr_print {v : Json} (hv : Fits nestingLimit v) (format : Bool) :
    parse (cstr (print format v)) = some v := by
  have h := parse_print_of_fits hv format (ends_of_stops (stops_nil _) v)
  have hc : cstr (print format v) = print format v :=
    cstr_eq_self_iff.mpr (nul_not_mem_printValue format hv.wellFormed 0)
  rwa [hc, ← List.append_nil (print format v)]

end Json

/-! ### Acting on a tree -/

/-- The request `r` under way, with the buffer that its complete answer leaves for `ON_FINISH`. -/
def answered (r : Request) (buffer : ResponseBuffer) (g : Globals) : Globals :=
  received (some (r.url g.deviceId)) (buffer.data.getD [])
    { g with sent := r :: g.sent, response := buffer }

/-- What `ON_FINISH` does on the tree of an answer to `r`. -/
def actOn (env : Env) (r : Request) (v : Json) (g : Globals) : Globals :=
  let handled := handleAnswer env (route (r.url g.deviceId)) (some v) g
  if handled.2 then { handled.1 with response := .empty } else handled.1

/-- A complete answer is acted on as the tree of the text in the buffer. -/
theorem perform_eq_actOn {parse : CStr → Option Json} {env : Env} {r : Request} {reply : Reply}
    {g : Globals} {buf : List Char} {v : Json} (hs : reply.status.isSome = true)
    (hb : (reply.buffered g.response).data = some buf) (hp : parse (cstr buf) = some v) :
    perform parse env r reply g = actOn env r v (answered r (reply.buffered g.response) g) := by
  obtain ⟨u, hu⟩ := @onDataEvents_eq parse env (some (r.url g.deviceId)) reply.isChunked
    reply.chunks { g with url := r.url g.deviceId, sent := r :: g.sent }
  have hurl : snprintf 256 (r.url g.deviceId) = r.url g.deviceId := Request.snprintf_url ..
  rw [perform, Reply.deliver, hu, if_pos hs]
  show onFinish parse env (some (r.url g.deviceId))
    { g with url := u, sent := r :: g.sent, response := reply.buffered g.response } = _
  simp only [onFinish, hb, hp, actOn, answered, received, urlAfter_some, hurl, Option.getD_some]

/-- A body that arrives in an empty buffer. -/
theorem Reply.buffered_empty {reply : Reply} (h : reply.body ≠ []) :
    (reply.buffered .empty).data = some reply.body := by
  unfold Reply.body at h ⊢
  unfold Reply.buffered
  split_ifs at h ⊢
  · exact absurd rfl h
  · rw [foldl_append_data, if_neg (by rintro hnil; exact h (by rw [hnil]; rfl))]
    rfl

/-- The buffer then. -/
theorem Reply.buffered_append {reply : Reply} (h : reply.body ≠ []) :
    reply.buffered .empty = ResponseBuffer.empty.append reply.body := by
  apply ResponseBuffer.ext
  rw [Reply.buffered_empty h, ResponseBuffer.append_data]
  rfl

theorem Json.print_ne_nil (format : Bool) (v : Json) : print format v ≠ [] := by
  obtain ⟨c, s, he, -⟩ := printValue_cons format 0 v
  rw [print, he]
  exact List.cons_ne_nil c s

/-- **What the server prints is what the firmware acts on**, in either format and however the text
is cut, as long as the buffer was empty. -/
theorem perform_print {env : Env} {r : Request} {reply : Reply} {g : Globals} {v : Json}
    {format : Bool} (hv : Fits nestingLimit v) (hg : g.response = .empty)
    (hs : reply.status.isSome = true) (hbody : reply.body = print format v) :
    perform Json.parse env r reply g =
      actOn env r v (answered r (ResponseBuffer.empty.append (print format v)) g) := by
  have hne : reply.body ≠ [] := hbody ▸ print_ne_nil format v
  have hdata := Reply.buffered_empty hne
  have hbuf := Reply.buffered_append hne
  rw [hbody] at hdata hbuf
  rw [← hbuf, ← hg]
  exact perform_eq_actOn hs (hg ▸ hdata) (parse_cstr_print hv format)

/-! ### Leftovers -/

/-- Appending does not change what a C string in a buffer parses to. -/
theorem parse_cstr_append {buf : List Char} {v : Json} (hp : Json.parse (cstr buf) = some v)
    (hnum : ∀ n, v ≠ .number n) (body : List Char) :
    Json.parse (cstr (buf ++ body)) = some v := by
  by_cases h : '\x00' ∈ buf
  · have hcut : cstr (buf ++ body) = cstr buf := by
      rw [cstr, cstr, List.takeWhile_append, if_neg]
      intro hlen
      have hall : cstr buf = buf := (List.takeWhile_prefix _).eq_of_length hlen
      exact cstr_eq_self_iff.mp hall h
    rw [hcut]
    exact hp
  · rw [cstr_append h]
    rw [cstr_eq_self_iff.mpr h] at hp
    obtain ⟨⟨w, rest⟩, hread, rfl⟩ := Option.map_eq_some_iff.mp hp
    rw [parse, parseValue_append hread (.inl hnum)]
    rfl

/-- A text left over in the buffer decides instead of the answer. -/
theorem perform_leftover {env : Env} {r : Request} {reply : Reply} {g : Globals} {buf : List Char}
    {v : Json} (hbuf : g.response.data = some buf) (hp : Json.parse (cstr buf) = some v)
    (hnum : ∀ n, v ≠ .number n) (hs : reply.status.isSome = true) :
    perform Json.parse env r reply g =
      actOn env r v (answered r (reply.buffered g.response) g) := by
  have hdata := reply.buffered_data g.response
  rw [hbuf, Option.getD_some] at hdata
  cases hb : (reply.buffered g.response).data with
  | none =>
      unfold Reply.buffered at hb
      split_ifs at hb
      · rw [hbuf] at hb
        cases hb
      · rw [foldl_append_data, hbuf] at hb
        split_ifs at hb
  | some all =>
      rw [hb, Option.getD_some] at hdata
      exact perform_eq_actOn hs hb (hdata ▸ parse_cstr_append hp hnum reply.body)

/-- An answer of `newData.json` that is no command sets neither the mailbox nor a flag. -/
theorem newDataBranch_other {v : Json} {g : Globals}
    (h : commandSection .newData (some v) = none) :
    (newDataBranch v g).urlSection = g.urlSection ∧ (newDataBranch v g).flags = g.flags := by
  simp only [commandSection] at h
  unfold newDataBranch
  split_ifs at h ⊢
  · split
    · simp_all
    · exact ⟨rfl, rfl⟩
  · exact ⟨rfl, rfl⟩

theorem actOn_getNewData (env : Env) (v : Json) (g : Globals) :
    actOn env .getNewData v g =
      { postNoNewDataTest (newDataBranch v g) with response := .empty } := by
  have hroute : route (Request.getNewData.url g.deviceId) = .newData := route_getNewData g.deviceId
  simp only [actOn, hroute]
  rfl

/-- The branch of the table breaks off on a tree that is no array, and leaves the buffer. -/
theorem actOn_getDevices_other {env : Env} {v : Json} {g : Globals}
    (h : ∀ items, v ≠ .array items) : actOn env .getDevices v g = g := by
  have hroute : route (Request.getDevices.url g.deviceId) = .devices := route_getDevices g.deviceId
  have hbranch : handleAnswer env .devices (some v) g = (g, false) := by
    cases v with
    | array items => exact absurd rfl (h items)
    | null | bool | number | string | object => rfl
  simp only [actOn, hroute, hbranch]
  rfl

/-- **A command is lost** if it comes in the first answer after a refresh that found a text which
is neither an array nor a number: the poll acts on that text again. -/
theorem command_lost {env env' : Env} {refresh poll : Reply} {g : Globals} {v : Json}
    (hg : g.response = .empty) (hs : refresh.status.isSome = true)
    (hs' : poll.status.isSome = true) (hbody : Json.parse (cstr refresh.body) = some v)
    (harray : ∀ items, v ≠ .array items) (hnum : ∀ n, v ≠ .number n)
    (hcmd : commandSection .newData (some v) = none) :
    let g' := perform Json.parse env' .getNewData poll
      (perform Json.parse env .getDevices refresh g)
    g'.urlSection = g.urlSection ∧ g'.flags = g.flags.postTest ∧ g'.response = .empty := by
  have hne : refresh.body ≠ [] := by
    intro hnil
    rw [hnil] at hbody
    obtain ⟨p, hp, -⟩ := Option.map_eq_some_iff.mp hbody
    exact Nat.not_lt_zero _ (progress_parseValue _ _ _ _ hp)
  have hdata : (refresh.buffered g.response).data = some refresh.body := by
    rw [hg]
    exact Reply.buffered_empty hne
  intro g'
  -- the text stays in the buffer, and the poll acts on it
  have hrefresh : perform Json.parse env .getDevices refresh g =
      answered .getDevices (refresh.buffered g.response) g :=
    (perform_eq_actOn hs hdata hbody).trans (actOn_getDevices_other harray)
  have hpoll : g' = { postNoNewDataTest (newDataBranch v (answered .getNewData
      (poll.buffered (refresh.buffered g.response))
      (answered .getDevices (refresh.buffered g.response) g))) with response := .empty } :=
    (congrArg _ hrefresh).trans ((@perform_leftover env' .getNewData poll
      (answered .getDevices (refresh.buffered g.response) g) _ v hdata hbody hnum hs').trans
        (actOn_getNewData env' v _))
  have hother := @newDataBranch_other v (answered .getNewData
    (poll.buffered (refresh.buffered g.response))
    (answered .getDevices (refresh.buffered g.response) g)) hcmd
  rw [hpoll]
  exact ⟨hother.1, congrArg Flags.postTest hother.2, rfl⟩

/-! ### An example -/

/-- The text `null` in answer to a refresh. -/
def nullReply : Reply := { chunks := ["null".toList], status := some 200 }

theorem command_lost_null :
    let g' := perform Json.parse zeroedHeap .getNewData
      { chunks := [newDataText "get/info".toList], status := some 200 }
      (perform Json.parse zeroedHeap .getDevices nullReply exampleGlobals)
    g'.urlSection = [] ∧ g'.flags = ({} : Flags).postTest ∧ g'.response = .empty :=
  command_lost rfl rfl rfl
    (by
      have hc : cstr nullReply.body = "null".toList := by decide
      rw [hc]
      exact parse_null)
    (fun _ h => by cases h) (fun _ h => by cases h) rfl

/-- The tree of a command, printed with the format and cut behind its first character. -/
def printedReply : Reply :=
  { chunks := [(print true (newDataJson "get/info".toList)).take 1,
      (print true (newDataJson "get/info".toList)).drop 1]
    status := some 200 }

theorem perform_print_command :
    perform Json.parse zeroedHeap .getNewData printedReply exampleGlobals =
      actOn zeroedHeap .getNewData (newDataJson "get/info".toList)
        (answered .getNewData
          (ResponseBuffer.empty.append (print true (newDataJson "get/info".toList)))
          exampleGlobals) :=
  perform_print (by simp [Nests, newDataJson, nestingLimit]) rfl rfl
    (by
      show List.take 1 _ ++ (List.drop 1 _ ++ []) = _
      rw [List.append_nil, List.take_append_drop])

end Sicae
