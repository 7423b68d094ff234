import Sicae.ResponseBuffer
import Mathlib.Logic.Function.Basic

/-! # One response buffer for all clients

Every HTTP client installs the same handler, which appends to the one global `response_data` and
has no record of whose body that is.  Beside the globals a state carries what each client should
have in a buffer of its own: the chunks it has received since its last `ON_FINISH` (`pending`).

The bodies are those of the well-behaved server: not chunked, without NUL, complete, and with an
answer that fits the endpoint, so that no branch breaks off.  Even so, in runs of any number of
clients every `ON_FINISH` parses the body of its own client exactly if no client receives data
while another one has an unfinished body. -/

namespace Sicae

open CString Transition

/-! ### The clients -/

/-- The data of an `ON_DATA` event: part of a JSON text. -/
structure Chunk where
  data : List Char
  ne_nil : data ≠ []
  noNul : '\x00' ∉ data

/-- The globals, and the part of its body that each client has received. -/
structure ClientsState (κ : Type*) where
  globals : Globals
  pending : κ → List Char

/-- `ON_DATA` and `ON_FINISH` of a client, with the URL it was opened with. -/
inductive ClientEvent (κ : Type*) where
  | data (client : κ) (env : Env) (url : CStr) (chunk : Chunk)
  | finish (client : κ) (env : Env) (url : CStr)

/-- A complete body that its endpoint accepts: the URL is one of the known ones, and the answer
gets to the end of its branch. -/
def FitsEndpoint (parse : CStr → Option Json) (env : Env) (url : CStr) (body : List Char) : Prop :=
  body ≠ [] ∧ route (snprintf 256 url) ≠ .unknown ∧
    reachesTest env (route (snprintf 256 url)) (parse body) = true

instance (parse : CStr → Option Json) (env : Env) (url : CStr) (body : List Char) :
    Decidable (FitsEndpoint parse env url body) := inferInstanceAs (Decidable (_ ∧ _ ∧ _))

section
variable {κ : Type*} (parse : CStr → Option Json)

/-- One event; the handler runs as one step. -/
def clientStep [DecidableEq κ] (s : ClientsState κ) : ClientEvent κ → Option (ClientsState κ)
  | .data client env url chunk =>
      some {
        globals := clientEventGetHandler parse env (some url) (.onData false chunk.data) s.globals
        pending := Function.update s.pending client (s.pending client ++ chunk.data) }
  | .finish client env url =>
      if FitsEndpoint parse env url (s.pending client) then
        some {
          globals := clientEventGetHandler parse env (some url) .onFinish s.globals
          pending := Function.update s.pending client [] }
      else none

/-- No body is under way and the buffer is empty. -/
def ClientsState.initial (g : Globals) : ClientsState κ where
  globals := { g with response := .empty }
  pending := fun _ => []

/-- All bodies are finished. -/
def ClientsState.Finished (s : ClientsState κ) : Prop := ∀ client, s.pending client = []

/-- `ON_FINISH` hands the body of its own client to `cJSON_Parse`, and nothing else. -/
def ParsesOwn (s : ClientsState κ) : ClientEvent κ → Prop
  | .data _ _ _ _ => True
  | .finish client env url =>
      (clientEventGetHandler parse env (some url) .onFinish s.globals).parsed =
        s.pending client :: s.globals.parsed

/-- The condition on an event: data arrives only while no other client has an unfinished body. -/
def OthersFinished (s : ClientsState κ) : ClientEvent κ → Prop
  | .data client _ _ _ => ∀ other, other ≠ client → s.pending other = []
  | .finish _ _ _ => True

/-! ### Own buffers and the shared one -/

/-- The buffer is empty, or it holds what its only owner has received. -/
structure Separate (s : ClientsState κ) : Prop where
  noNul : ∀ client, '\x00' ∉ s.pending client
  owner : ∀ client, s.pending client ≠ [] → s.globals.response.data = some (s.pending client)
  only : ∀ client other, s.pending client ≠ [] → s.pending other ≠ [] → client = other
  empty : s.Finished → s.globals.response.data = none

/-- The buffer holds more than any client has received, and some client is waiting for it. -/
structure Overlapping (s : ClientsState κ) : Prop where
  noNul : '\x00' ∉ s.globals.response.data.getD []
  longer : ∀ client, (s.pending client).length < (s.globals.response.data.getD []).length
  waiting : ¬ s.Finished

variable {parse} {s s' : ClientsState κ}

/-- Own text is parsed exactly if it is what the string in the buffer is. -/
theorem parsesOwn_iff {client : κ} {env : Env} {url : CStr}
    (hfit : FitsEndpoint parse env url (s.pending client)) :
    ParsesOwn parse s (.finish client env url) ↔
      s.globals.response.data.map cstr = some (s.pending client) := by
  have hroute : route (urlAfter (some url) s.globals) ≠ .unknown := hfit.2.1
  rw [ParsesOwn, clientEventGetHandler]
  cases hbuf : s.globals.response.data with
  | none =>
      rw [onFinish_empty (ResponseBuffer.ext hbuf)]
      exact iff_of_false (List.cons_ne_self _ _).symm (by simp)
  | some buf =>
      rw [onFinish_parsed hbuf, if_neg hroute, List.cons.injEq, and_iff_left rfl, Option.map_some,
        Option.some.injEq]

/-- In an overlapping state no `ON_FINISH` finds its own body. -/
theorem Overlapping.not_parsesOwn (h : Overlapping s) {client : κ} {env : Env} {url : CStr}
    (hfit : FitsEndpoint parse env url (s.pending client)) :
    ¬ ParsesOwn parse s (.finish client env url) := by
  rw [parsesOwn_iff hfit]
  have hlonger := h.longer client
  have hnul := h.noNul
  cases hbuf : s.globals.response.data with
  | none => simp
  | some buf =>
      rw [hbuf, Option.getD_some] at hlonger hnul
      intro he
      rw [Option.map_some, cstr_eq_self_iff.mpr hnul, Option.some.injEq] at he
      rw [he] at hlonger
      exact lt_irrefl _ hlonger

variable [DecidableEq κ]

/-- The buffer after the data of a client. -/
theorem data_response {client : κ} {env : Env} {url : CStr} {chunk : Chunk}
    (hstep : clientStep parse s (.data client env url chunk) = some s') :
    s'.globals.response.data = some (s.globals.response.data.getD [] ++ chunk.data) ∧
      s'.pending = Function.update s.pending client (s.pending client ++ chunk.data) := by
  obtain rfl := Option.some.inj hstep
  exact ⟨ResponseBuffer.append_data _ _, rfl⟩

theorem data_not_finished {client : κ} {env : Env} {url : CStr} {chunk : Chunk}
    (hstep : clientStep parse s (.data client env url chunk) = some s') : ¬ s'.Finished := by
  intro hfin
  have hc := hfin client
  rw [(data_response hstep).2, Function.update_self] at hc
  exact chunk.ne_nil (List.append_eq_nil_iff.mp hc).2

/-- Data that arrives alone extends the body of its client. -/
theorem separate_data {client : κ} {env : Env} {url : CStr} {chunk : Chunk} (h : Separate s)
    (halone : OthersFinished s (.data client env url chunk))
    (hstep : clientStep parse s (.data client env url chunk) = some s') : Separate s' := by
  obtain ⟨hbuf, hpend⟩ := data_response hstep
  have hother : ∀ other, other ≠ client → s'.pending other = [] := by
    intro other hne
    rw [hpend, Function.update_of_ne hne]
    exact halone other hne
  have hself : s'.pending client = s.pending client ++ chunk.data := by
    rw [hpend, Function.update_self]
  have hold : s.globals.response.data.getD [] = s.pending client := by
    by_cases hc : s.pending client = []
    · have hfin : s.Finished := by
        intro other
        by_cases he : other = client
        · rw [he, hc]
        · exact halone other he
      rw [h.empty hfin, hc]
      rfl
    · rw [h.owner client hc]
      rfl
  refine ⟨?_, ?_, ?_, fun hfin => absurd hfin (data_not_finished hstep)⟩
  · intro other
    by_cases he : other = client
    · rw [he, hself, List.mem_append, not_or]
      exact ⟨h.noNul client, chunk.noNul⟩
    · rw [hother other he]
      exact List.not_mem_nil
  · intro other hne
    by_cases he : other = client
    · rw [he, hself, hbuf, hold]
    · exact absurd (hother other he) hne
  · intro a b ha hb
    have hone : ∀ c, s'.pending c ≠ [] → c = client := by
      intro c hc
      by_contra hne
      exact hc (hother c hne)
    rw [hone a ha, hone b hb]

/-- An own body is parsed, and the buffer is empty afterwards. -/
theorem separate_finish {client : κ} {env : Env} {url : CStr} (h : Separate s)
    (hstep : clientStep parse s (.finish client env url) = some s') :
    ParsesOwn parse s (.finish client env url) ∧ Separate s' := by
  simp only [clientStep] at hstep
  split_ifs at hstep with hfit
  obtain rfl := Option.some.inj hstep
  have hbuf := h.owner client hfit.1
  have hcstr : cstr (s.pending client) = s.pending client :=
    cstr_eq_self_iff.mpr (h.noNul client)
  have hnone : ∀ other, Function.update s.pending client [] other = [] := by
    intro other
    by_cases he : other = client
    · rw [he, Function.update_self]
    · rw [Function.update_of_ne he]
      by_contra hne
      exact he (h.only other client hne hfit.1)
  constructor
  · rw [parsesOwn_iff hfit, hbuf, Option.map_some, hcstr]
  · refine ⟨?_, ?_, ?_, fun _ => ?_⟩
    · intro other
      show '\x00' ∉ Function.update s.pending client [] other
      rw [hnone other]
      exact List.not_mem_nil
    · exact fun other hne => absurd (hnone other) hne
    · exact fun other _ hne => absurd (hnone other) hne
    · rw [clientEventGetHandler, onFinish_response hbuf, hcstr, urlAfter_some, if_pos hfit.2.2]
      rfl

/-- Events that meet the condition keep the bodies apart. -/
theorem clientStep_separate {e : ClientEvent κ} (h : Separate s) (halone : OthersFinished s e)
    (hstep : clientStep parse s e = some s') : ParsesOwn parse s e ∧ Separate s' := by
  cases e with
  | data client env url chunk => exact ⟨trivial, separate_data h halone hstep⟩
  | finish client env url => exact separate_finish h hstep

/-- Data on top of another body makes the bodies overlap. -/
theorem clientStep_overlaps {e : ClientEvent κ} (h : Separate s) (hno : ¬ OthersFinished s e)
    (hstep : clientStep parse s e = some s') : Overlapping s' := by
  cases e with
  | finish client env url => exact absurd trivial hno
  | data client env url chunk =>
      obtain ⟨hbuf, hpend⟩ := data_response hstep
      obtain ⟨other, hne, hother⟩ : ∃ other, other ≠ client ∧ s.pending other ≠ [] := by
        by_contra hall
        refine hno (fun c hc => ?_)
        by_contra hp
        exact hall ⟨c, hc, hp⟩
      have hclient : s.pending client = [] := by
        by_contra hc
        exact hne (h.only other client hother hc)
      have hlen := List.length_pos_iff.mpr hother
      have hchunk := List.length_pos_iff.mpr chunk.ne_nil
      rw [h.owner other hother, Option.getD_some] at hbuf
      refine ⟨?_, ?_, data_not_finished hstep⟩
      · rw [hbuf, Option.getD_some, List.mem_append, not_or]
        exact ⟨h.noNul other, chunk.noNul⟩
      · intro c
        rw [hbuf, Option.getD_some, List.length_append, hpend]
        by_cases hc : c = client
        · rw [hc, Function.update_self, hclient, List.nil_append]
          omega
        · rw [Function.update_of_ne hc]
          by_cases hp : s.pending c = []
          · rw [hp, List.length_nil]
            omega
          · rw [h.only c other hp hother]
            omega

/-- Overlapping bodies stay so until an `ON_FINISH` goes wrong. -/
theorem clientStep_overlapping {e : ClientEvent κ} (h : Overlapping s) (hp : ParsesOwn parse s e)
    (hstep : clientStep parse s e = some s') : Overlapping s' := by
  cases e with
  | finish client env url =>
      simp only [clientStep] at hstep
      split_ifs at hstep with hfit
      exact absurd hp (h.not_parsesOwn hfit)
  | data client env url chunk =>
      obtain ⟨hbuf, hpend⟩ := data_response hstep
      refine ⟨?_, ?_, data_not_finished hstep⟩
      · rw [hbuf, Option.getD_some, List.mem_append, not_or]
        exact ⟨h.noNul, chunk.noNul⟩
      · intro c
        have hc := h.longer c
        rw [hbuf, Option.getD_some, List.length_append, hpend]
        by_cases he : c = client
        · rw [he] at hc
          rw [he, Function.update_self, List.length_append]
          omega
        · rw [Function.update_of_ne he]
          omega

/-- **Every client's body is parsed as its own** in a run in which all bodies are finished,
exactly if data arrives only while no other client has an unfinished body. -/
theorem ownBodies_iff {g : Globals} {es : List (ClientEvent κ)} {t : ClientsState κ}
    (hr : run (clientStep parse) (.initial g) es = some t) (hfin : t.Finished) :
    AllSteps (clientStep parse) (ParsesOwn parse) (.initial g) es ↔
      AllSteps (clientStep parse) OthersFinished (.initial g) es := by
  refine allSteps_iff_of_doomed (D := Overlapping) (fun _ _ _ => clientStep_separate)
    (fun _ _ _ hi hno _ => clientStep_overlaps hi hno) (fun _ _ _ => clientStep_overlapping)
    ⟨?_, ?_, ?_, fun _ => rfl⟩ hr (fun h => h.waiting hfin)
  · exact fun _ => List.not_mem_nil
  · exact fun _ hne => absurd rfl hne
  · exact fun _ _ hne => absurd rfl hne

end

/-! ### A poll and an alive package -/

/-- Two of the tasks. -/
inductive ExampleClient where
  | poll
  | alive
deriving DecidableEq

/-- The body `{"status":true}` or `{"status":false}`, in one chunk. -/
def statusChunk (b : Bool) : Chunk :=
  ⟨if b then "\x7b\"status\":true\x7d".toList else "\x7b\"status\":false\x7d".toList,
    by cases b <;> decide, by cases b <;> decide⟩

/-- The parser on texts that start with one of these. -/
def parseStatus (t : CStr) : Option Json :=
  if (statusChunk false).data <+: t then some (.object [("status".toList, .bool false)])
  else if (statusChunk true).data <+: t then some (.object [("status".toList, .bool true)])
  else none

/-- The URLs of the poll and of the alive package. -/
def pollUrl : CStr := Request.getNewData.url exampleId
def aliveUrl : CStr := Request.getInfo.url exampleId

/-- The answer to the poll, then the answer to the alive package. -/
def oneByOne : List (ClientEvent ExampleClient) :=
  [.data .poll zeroedHeap pollUrl (statusChunk false), .finish .poll zeroedHeap pollUrl,
    .data .alive zeroedHeap aliveUrl (statusChunk true), .finish .alive zeroedHeap aliveUrl]

/-- The answer to the alive package arrives before the poll is finished. -/
def overlapped : List (ClientEvent ExampleClient) :=
  [.data .poll zeroedHeap pollUrl (statusChunk false),
    .data .alive zeroedHeap aliveUrl (statusChunk true),
    .finish .poll zeroedHeap pollUrl, .finish .alive zeroedHeap aliveUrl]

/-- Both runs finish all bodies. -/
theorem finished_of_examples {es : List (ClientEvent ExampleClient)}
    (h : (run (clientStep parseStatus) (.initial exampleGlobals) es).map
      (fun t => (t.pending .poll, t.pending .alive)) = some ([], [])) :
    ∃ t, run (clientStep parseStatus) (.initial exampleGlobals) es = some t ∧ t.Finished := by
  obtain ⟨t, ht, hp⟩ := Option.map_eq_some_iff.mp h
  obtain ⟨hpoll, halive⟩ := Prod.mk.inj hp
  refine ⟨t, ht, fun client => ?_⟩
  cases client with
  | poll => exact hpoll
  | alive => exact halive

theorem ownBodies_oneByOne :
    AllSteps (clientStep parseStatus) (ParsesOwn parseStatus) (.initial exampleGlobals) oneByOne ↔
      AllSteps (clientStep parseStatus) OthersFinished (.initial exampleGlobals) oneByOne := by
  obtain ⟨t, ht, hfin⟩ := @finished_of_examples oneByOne (by decide +kernel)
  exact ownBodies_iff ht hfin

/-- The poll parses both bodies as one text, and the alive package finds the buffer consumed. -/
theorem overlapped_mixes :
    (∃ t, run (clientStep parseStatus) (.initial exampleGlobals) overlapped = some t ∧
      t.Finished) ∧
    ¬ AllSteps (clientStep parseStatus) (ParsesOwn parseStatus) (.initial exampleGlobals)
      overlapped := by
  refine ⟨finished_of_examples (by decide +kernel), ?_⟩
  rintro ⟨-, h1⟩
  obtain ⟨-, h2⟩ := h1 _ rfl
  obtain ⟨hown, -⟩ := h2 _ rfl
  have hlen := congrArg (fun texts => (texts.map List.length).head?) hown
  exact absurd hlen (by decide +kernel)

end Sicae
