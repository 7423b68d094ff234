import Sicae.Interleaving
import Sicae.Transition

/-! # Acknowledgements

A command is acknowledged by one `clear_new_data_section`.  Three lists of flags decide on that:
the flags that the dispatcher raises, the flags that the test at the end of `ON_FINISH` looks at
before it raises POSTNONEWDATA, and the flags that are cleared again.  FETCHNEWALIVE is missing
from the second, SETNEWINFODATA and SETNEWDATETIME from the third.

So get/alive is not acknowledged; and once set/info or set/time/ has been dispatched the test
always succeeds (`stuck`), and every answer that reaches it causes a clear.  Responses are handled
one at a time here, and after each one the processing task runs until it makes no more
requests. -/

namespace Sicae

open CString Transition

/-! ### Responses and commands -/

/-- A complete response, handled by `ON_FINISH`. -/
structure Response where
  env : Env
  url : CStr
  isChunked : Bool := false
  chunks : List (List Char)

/-- Its events. -/
def Response.reply (x : Response) : Reply :=
  { isChunked := x.isChunked, chunks := x.chunks, status := some 200 }

/-- The branch for its URL. -/
def Response.route (x : Response) : Route := Sicae.route (snprintf 256 x.url)

/-- The text that `ON_FINISH` finds, with `b` in the buffer before the response. -/
def Response.text (x : Response) (b : ResponseBuffer) : Option (List Char) :=
  (x.reply.buffered b).data

/-- The dispatcher raises a flag for the section. -/
def recognised (s : CStr) : Bool := decide (dispatchSection s {} ≠ {})

/-- One of the two flags that are never reset is set. -/
def stuck (f : Flags) : Bool := f.setNewInfoData || f.setNewDatetime

/-- The number of clears sent so far. -/
def clears (g : Globals) : ℕ := g.sent.count .clearNewData

/-- Nothing is left to do for the processing task. -/
structure Idle (f : Flags) : Prop where
  fetchNewInfoData : f.fetchNewInfoData = false
  fetchNewDevicesData : f.fetchNewDevicesData = false
  fetchNewFirmwareData : f.fetchNewFirmwareData = false
  fetchNewDatetimeData : f.fetchNewDatetimeData = false
  setNewDeviceData : f.setNewDeviceData = false
  setConsumedCurrent : f.setConsumedCurrent = false
  postNoNewData : f.postNoNewData = false

section
variable (parse : CStr → Option Json)

/-- The section of a response whose body is a command. -/
def Response.command (x : Response) : Option CStr :=
  commandSection x.route (parse (cstr x.chunks.flatten))

/-- The section of the command that `ON_FINISH` finds. -/
def Response.heard (x : Response) (b : ResponseBuffer) : Option CStr :=
  (x.text b).bind (fun buf => commandSection x.route (parse (cstr buf)))

/-- `ON_FINISH` finds a text and gets as far as the test of the flags. -/
def Response.tested (x : Response) (b : ResponseBuffer) : Bool :=
  (x.text b).any (fun buf => reachesTest x.env x.route (parse (cstr buf)))

/-- The clears that a response should cause. -/
def Response.expected (x : Response) : ℕ :=
  if (x.command parse).any recognised then 1 else 0

/-- The processing task runs until an iteration sends no request; `none` if the given iterations
do not get that far. -/
def settle : List Io → Globals → Option Globals
  | [], _ => none
  | io :: ios, g =>
      if (dataProcessingTask parse io g).sent = g.sent then some (dataProcessingTask parse io g)
      else settle ios (dataProcessingTask parse io g)

/-- A response is handled, and the processing task runs. -/
def ackStep (g : Globals) (a : Response × List Io) : Option Globals :=
  settle parse a.2 (a.1.reply.deliver parse a.1.env a.1.url g)

/-- The task comes to rest, and the response has caused the clears it should. -/
def Acknowledged (g : Globals) (a : Response × List Io) : Prop :=
  ∃ g', ackStep parse g a = some g' ∧ clears g' = clears g + a.1.expected parse

/-- The clear is answered with status 200 and its echo, and no text made of bodies of the task's
other requests and the echo reads as a command. -/
structure Io.Answers (io : Io) : Prop where
  status : (io.reply .clearNewData).status = some 200
  unchunked : (io.reply .clearNewData).isChunked = false
  echo : ∀ rs : List Request, (∀ r ∈ rs, r.toDisp = true) →
    commandSection .newData (parse (cstr (rs.flatMap (fun r => (io.reply r).body) ++
      (io.reply .clearNewData).chunks.flatten))) = none

/-- The surroundings of a step: the task runs long enough and its requests are answered, and what
`ON_FINISH` finds in the buffer reads as the same command as the body of the response. -/
structure Served (g : Globals) (a : Response × List Io) : Prop where
  enough : 2 ≤ a.2.length
  answers : ∀ io ∈ a.2, io.Answers parse
  heard : a.1.heard parse g.response = a.1.command parse

/-- The condition on the flags: get/alive comes only while one of the two flags is stuck, and
what is no recognised command but reaches the test only while none is. -/
def FlagsFit (g : Globals) (a : Response × List Io) : Prop :=
  if (a.1.command parse).any recognised then
    a.1.command parse = some "get/alive".toList → stuck g.flags = true
  else a.1.tested parse g.response = true → stuck g.flags = false

/-- POSTNONEWDATA is set after the response. -/
def Response.posts (x : Response) (b : ResponseBuffer) (f : Flags) : Bool :=
  x.tested parse b && (stuck f || (x.heard parse b).any raises)

end

/-! ### The dispatcher against the test -/

theorem dispatchSection_eq_or {s : CStr} :
    dispatchSection s {} = {} ∨ raises s = true ∨ s = "get/alive".toList := by
  unfold raises
  unfold dispatchSection
  split_ifs with hset _ _ _ hget _ _ _ _ halive
  all_goals first
    | exact Or.inl rfl
    | exact Or.inr (Or.inl rfl)
    | skip
  obtain ⟨t, rfl⟩ := hget
  exact Or.inr (Or.inr (congrArg ("get/".toList ++ ·) halive))

/-- Every recognised section but get/alive raises a flag of the test. -/
theorem recognised_iff {s : CStr} :
    recognised s = true ↔ raises s = true ∨ s = "get/alive".toList := by
  rw [recognised, decide_eq_true_iff]
  constructor
  · exact dispatchSection_eq_or.resolve_left
  · rintro (h | rfl) he
    · rw [raises, he] at h
      cases h
    · revert he
      decide

theorem raises_alive : raises "get/alive".toList = false := by decide

theorem dispatchSection_setConsumedCurrent (s : CStr) (f : Flags) :
    (dispatchSection s f).setConsumedCurrent = f.setConsumedCurrent := by
  unfold dispatchSection
  split_ifs <;> rfl

/-! ### Idle flags -/

theorem Idle.requestPending {f : Flags} (h : Idle f) : f.requestPending = stuck f := by
  simp only [Flags.requestPending, h.fetchNewInfoData, h.fetchNewDevicesData,
    h.fetchNewFirmwareData, h.fetchNewDatetimeData, h.setNewDeviceData, Bool.false_or,
    Bool.or_false, stuck]

theorem Idle.withPopulate {f : Flags} (h : Idle f) (b : Bool) : Idle (f.withPopulate b) :=
  ⟨h.1, h.2, h.3, h.4, h.5, h.6, h.7⟩

theorem idle_of_requestPending {f : Flags} (hr : f.requestPending = false)
    (hc : f.setConsumedCurrent = false) (hp : f.postNoNewData = false) : Idle f := by
  obtain ⟨hinfo, hdevices, hfirmware, hdatetime, -, hset, -⟩ := requestPending_eq_false_iff.mp hr
  exact ⟨hinfo, hdevices, hfirmware, hdatetime, hset, hc, hp⟩

theorem Flags.postTest_of_not {f : Flags} (h : f.requestPending = false) : f.postTest = f := by
  rw [postTest, h, if_neg Bool.false_ne_true]

/-- The test of the flags, where neither of the two that a body leaves alone is set: it leaves the
task idle, or sets POSTNONEWDATA. -/
theorem postTest_ends {f : Flags} (hc : f.setConsumedCurrent = false)
    (hp : f.postNoNewData = false) :
    (f.requestPending = false → Idle f.postTest) ∧
      (f.requestPending = true →
        f.postTest.postNoNewData = true ∧ f.postTest.setConsumedCurrent = false) := by
  constructor
  · intro hr
    rw [Flags.postTest_of_not hr]
    exact idle_of_requestPending hr hc hp
  · intro hr
    rw [Flags.postTest_eq, hr, Bool.or_true]
    exact ⟨rfl, hc⟩

theorem Flags.postTest_of_post {f : Flags} (h : f.postNoNewData = true) : f.postTest = f := by
  rw [postTest_eq, h, Bool.true_or, ← h]

/-- An idle task does nothing. -/
theorem dataProcessingTask_idle {parse : CStr → Option Json} {io : Io} {g : Globals}
    (h : Idle g.flags) : dataProcessingTask parse io g = g := by
  have h1 : fetchInfoBranch parse io g = g := by rw [fetchInfoBranch, h.fetchNewInfoData]; rfl
  have h2 : fetchDevicesBranch parse io g = g := by
    rw [fetchDevicesBranch, h.fetchNewDevicesData]; rfl
  have h3 : consumedCurrentBranch parse io g = g := by
    rw [consumedCurrentBranch, h.setConsumedCurrent]; rfl
  have h4 : setDeviceBranch parse io g = g := by rw [setDeviceBranch, h.setNewDeviceData]; rfl
  have h5 : postBranch parse io g = g := by rw [postBranch, h.postNoNewData]; rfl
  rw [dataProcessingTask, h1, h2, h3, h4, h5]

theorem settle_idle {parse : CStr → Option Json} {io : Io} {ios : List Io} {g : Globals}
    (h : Idle g.flags) : settle parse (io :: ios) g = some g := by
  rw [settle, dataProcessingTask_idle h, if_pos rfl]

/-! ### The response -/

section
variable {parse : CStr → Option Json} {x : Response} {g : Globals}

theorem route_of_command {r : Route} {json : Option Json} {s : CStr}
    (h : commandSection r json = some s) : r = .newData := by
  cases r with
  | newData => rfl
  | devices | device | info | unknown => cases h

theorem commandSection_of_ne {r : Route} {json : Option Json} (h : r ≠ .newData) :
    commandSection r json = none :=
  Option.eq_none_iff_forall_ne_some.mpr fun _ hs => h (route_of_command hs)

/-- The response leaves the task idle, or sets POSTNONEWDATA with the buffer freed. -/
theorem Response.deliver_posts (h : Idle g.flags) :
    (x.reply.deliver parse x.env x.url g).sent = g.sent ∧
    (x.posts parse g.response g.flags = false →
      Idle (x.reply.deliver parse x.env x.url g).flags) ∧
    (x.posts parse g.response g.flags = true →
      (x.reply.deliver parse x.env x.url g).flags.postNoNewData = true ∧
      (x.reply.deliver parse x.env x.url g).flags.setConsumedCurrent = false ∧
      (x.reply.deliver parse x.env x.url g).response = .empty) := by
  obtain ⟨g', hresp, hflags, hsent, hg⟩ := @Reply.deliver_eq parse x.env x.url x.reply g
  rw [hg, if_pos (show x.reply.status.isSome = true from rfl)]
  have htext : g'.response.data = x.text g.response := by rw [hresp]; rfl
  cases hbuf : x.text g.response with
  | none =>
      rw [onFinish_empty (ResponseBuffer.ext (htext.trans hbuf)), hflags]
      refine ⟨hsent, fun _ => h, fun hp => ?_⟩
      rw [posts, tested, hbuf] at hp
      cases hp
  | some buf =>
      rw [hbuf] at htext
      have htested : x.tested parse g.response = reachesTest x.env x.route (parse (cstr buf)) := by
        rw [tested, hbuf]; rfl
      have hheard : x.heard parse g.response = commandSection x.route (parse (cstr buf)) := by
        rw [heard, hbuf]; rfl
      have hfreed : x.tested parse g.response = true →
          (onFinish parse x.env (some x.url) g').response = .empty := by
        intro ht
        rw [onFinish_response htext, urlAfter_some]
        exact if_pos (htested ▸ ht)
      refine ⟨onFinish_sent.trans hsent, ?_⟩
      cases hc : commandSection x.route (parse (cstr buf)) with
      | some s =>
          have ht : x.tested parse g.response = true := by
            rw [htested, route_of_command hc]; rfl
          have hf := @onFinish_flags_command parse x.env (some x.url) g' buf s htext hc
          have hpend : (dispatchSection s g.flags).requestPending =
              x.posts parse g.response g.flags := by
            rw [requestPending_dispatchSection, h.requestPending, posts, ht, hheard, hc]
            rfl
          have hcur := (dispatchSection_setConsumedCurrent s g.flags).trans h.setConsumedCurrent
          have hpost := (postNoNewData_dispatchSection s g.flags).trans h.postNoNewData
          obtain ⟨hidle, hset⟩ := postTest_ends hcur hpost
          rw [hf, hflags]
          refine ⟨fun hp => hidle (hpend.trans hp), fun hp => ?_⟩
          obtain ⟨hpn, hcc⟩ := hset (hpend.trans hp)
          exact ⟨hpn, hcc, hfreed ht⟩
      | none =>
          obtain ⟨b, hf⟩ := @onFinish_flags_other parse x.env (some x.url) g' buf htext hc
          have hposts : x.posts parse g.response g.flags =
              (x.tested parse g.response && g.flags.requestPending) := by
            rw [posts, hheard, hc, h.requestPending, Option.any_none, Bool.or_false]
          obtain ⟨hidle, hset⟩ := postTest_ends h.setConsumedCurrent h.postNoNewData
          rw [hf, hflags, hposts]
          refine ⟨fun hp => Idle.withPopulate ?_ b, fun hp => ?_⟩
          · split_ifs with ht
            · rw [htested, show reachesTest x.env x.route (parse (cstr buf)) = true from ht,
                Bool.true_and] at hp
              exact hidle hp
            · exact h
          · obtain ⟨ht, hr⟩ := Bool.and_eq_true_iff.mp hp
            obtain ⟨hpn, hcc⟩ := hset hr
            rw [urlAfter_some, if_pos (htested ▸ ht)]
            exact ⟨hpn, hcc, hfreed ht⟩

end

/-! ### The pass that acknowledges -/

/-- On the way to the clear: POSTNONEWDATA is set, `n` clears have been sent, and the buffer holds
at most bodies of answers to the task's other requests. -/
structure Posting (io : Io) (n : ℕ) (g : Globals) : Prop where
  postNoNewData : g.flags.postNoNewData = true
  setConsumedCurrent : g.flags.setConsumedCurrent = false
  count : clears g = n
  leftover : ∃ rs : List Request, (∀ r ∈ rs, r.toDisp = true) ∧
    g.response.data.getD [] = rs.flatMap (fun r => (io.reply r).body)

section
variable {parse : CStr → Option Json} {io : Io} {n : ℕ} {g : Globals}

theorem ne_clearNewData_of_toDisp {r : Request} (h : r.toDisp = true) : r ≠ .clearNewData := by
  rintro rfl
  cases h

/-- The flags after a request while POSTNONEWDATA is set. -/
theorem perform_flags {r : Request} (hp : g.flags.postNoNewData = true) (hr : r.toDisp = true) :
    ∃ b, (io.perform parse r g).flags = g.flags.withPopulate b := by
  have hroute : route (snprintf 256 (r.url g.deviceId)) ≠ .newData := by
    rw [Request.snprintf_url]
    exact route_ne_newData hr
  obtain ⟨-, ⟨b, hf⟩, -⟩ := @Reply.deliver_other parse io.env (r.url g.deviceId) (io.reply r)
    { g with url := r.url g.deviceId, sent := r :: g.sent }
    (fun _ _ => commandSection_of_ne hroute)
  refine ⟨b, hf.elim id (fun h => h.trans ?_)⟩
  exact congrArg (·.withPopulate b) (Flags.postTest_of_post hp)

/-- A request other than the clear keeps the task on the way. -/
theorem Posting.perform {r : Request} (h : Posting io n g) (hr : r.toDisp = true) :
    Posting io n (io.perform parse r g) := by
  have hroute : route (snprintf 256 (r.url g.deviceId)) ≠ .newData := by
    rw [Request.snprintf_url]
    exact route_ne_newData hr
  obtain ⟨hsent, -, hresp⟩ := @Reply.deliver_other parse io.env (r.url g.deviceId) (io.reply r)
    { g with url := r.url g.deviceId, sent := r :: g.sent }
    (fun _ _ => commandSection_of_ne hroute)
  obtain ⟨b, hf⟩ := @perform_flags parse io g r h.postNoNewData hr
  refine ⟨?_, ?_, ?_, ?_⟩
  · rw [hf]
    exact h.postNoNewData
  · rw [hf]
    exact h.setConsumedCurrent
  · rw [← h.count]
    refine (congrArg (List.count Request.clearNewData) hsent).trans ?_
    exact List.count_cons_of_ne (ne_clearNewData_of_toDisp hr)
  · obtain ⟨rs, hrs, hbuf⟩ := h.leftover
    rcases hresp with he | he
    · refine ⟨rs ++ [r], ?_, ?_⟩
      · simpa [or_imp, forall_and] using ⟨hrs, hr⟩
      · rw [List.flatMap_append, List.flatMap_singleton, ← hbuf, ← Reply.buffered_data]
        exact congrArg (fun b => b.data.getD []) he
    · exact ⟨[], fun _ hm => absurd hm List.not_mem_nil, congrArg (fun b => b.data.getD []) he⟩

theorem Posting.fetchInfoBranch (h : Posting io n g) :
    Posting io n (fetchInfoBranch parse io g) := by
  rw [Sicae.fetchInfoBranch]
  split_ifs
  · exact Posting.perform ⟨h.1, h.2, h.3, h.4⟩ rfl
  · exact h

theorem Posting.fetchDevicesStart (h : Posting io n g) : Posting io n (fetchDevicesStart g) := by
  rw [fetchDevicesStart_eq]
  exact ⟨h.postNoNewData, h.setConsumedCurrent, h.count, h.leftover⟩

theorem Posting.fetchDevicesBranch (h : Posting io n g) :
    Posting io n (fetchDevicesBranch parse io g) := by
  rw [Sicae.fetchDevicesBranch]
  split_ifs
  · exact Posting.perform h.fetchDevicesStart rfl
  · exact h

theorem Posting.consumedCurrentBranch (h : Posting io n g) :
    consumedCurrentBranch parse io g = g := by
  rw [Sicae.consumedCurrentBranch, h.setConsumedCurrent, if_neg Bool.false_ne_true]

/-- After its branch SETNEWDEVICEDATA is clear. -/
theorem Posting.setDeviceBranch (h : Posting io n g) :
    Posting io n (setDeviceBranch parse io g) ∧
      (setDeviceBranch parse io g).flags.setNewDeviceData = false := by
  rw [Sicae.setDeviceBranch]
  split_ifs with hf
  · split
    · rename_i c _
      have hs : Posting io n (switchStart io c (setDeviceStart g)) := ⟨h.1, h.2, h.3, h.4⟩
      have hp := @Posting.perform parse io n _ (.updateDeviceStatus c.deviceNumber c.desiredStatus)
        hs rfl
      obtain ⟨b, hflags⟩ := @perform_flags parse io (switchStart io c (setDeviceStart g))
        (.updateDeviceStatus c.deviceNumber c.desiredStatus) hs.postNoNewData rfl
      exact ⟨⟨rfl, hp.2, hp.3, hp.4⟩, congrArg Flags.setNewDeviceData hflags⟩
    · exact ⟨⟨rfl, h.2, h.3, h.4⟩, rfl⟩
  · exact ⟨h, Bool.not_eq_true _ ▸ hf⟩

theorem idle_clearFlags (hs : g.flags.setNewDeviceData = false)
    (hc : g.flags.setConsumedCurrent = false) : Idle (clearFlags g).flags :=
  ⟨rfl, rfl, rfl, rfl, hs, hc, rfl⟩

/-- The clear is sent once, and leaves the task idle. -/
theorem Posting.postBranch (h : Posting io n g) (hio : io.Answers parse)
    (hset : g.flags.setNewDeviceData = false) :
    clears (postBranch parse io g) = n + 1 ∧ Idle (postBranch parse io g).flags := by
  obtain ⟨rs, hrs, hbuf⟩ := h.leftover
  have hroute : route (snprintf 256 (Request.clearNewData.url g.deviceId)) = .newData := by
    rw [Request.snprintf_url]
    exact route_clearNewData g.deviceId
  have hecho : ∀ buf, ((io.reply .clearNewData).buffered g.response).data = some buf →
      commandSection (route (snprintf 256 (Request.clearNewData.url g.deviceId)))
        (parse (cstr buf)) = none := by
    intro buf hb
    have hdata := Reply.buffered_data (io.reply .clearNewData) g.response
    rw [hb, Option.getD_some, hbuf, Reply.body, hio.unchunked, if_neg Bool.false_ne_true] at hdata
    rw [hroute, hdata]
    exact hio.echo rs hrs
  obtain ⟨hsent, ⟨b, hf⟩, -⟩ := @Reply.deliver_other parse io.env
    (Request.clearNewData.url g.deviceId) (io.reply .clearNewData)
    { postStart g with
      url := Request.clearNewData.url g.deviceId, sent := .clearNewData :: g.sent } hecho
  have hpass : Sicae.postBranch parse io g =
      postEnd io.menuAllocated (clearFlags (io.perform parse .clearNewData (postStart g))) := by
    rw [Sicae.postBranch, h.postNoNewData, if_pos rfl, clearNewDataSection, if_pos hio.status]
  have hkept : (io.perform parse .clearNewData (postStart g)).flags.setNewDeviceData = false ∧
      (io.perform parse .clearNewData (postStart g)).flags.setConsumedCurrent = false := by
    rcases hf with hf | hf
    · exact ⟨(congrArg Flags.setNewDeviceData hf).trans hset,
        (congrArg Flags.setConsumedCurrent hf).trans h.setConsumedCurrent⟩
    · rw [Flags.postTest_eq] at hf
      exact ⟨(congrArg Flags.setNewDeviceData hf).trans hset,
        (congrArg Flags.setConsumedCurrent hf).trans h.setConsumedCurrent⟩
  obtain ⟨populate, menu, lcd, hend⟩ := postEnd_eq io.menuAllocated
    (clearFlags (io.perform parse .clearNewData (postStart g)))
  rw [hpass, hend, ← h.count]
  constructor
  · exact (congrArg (List.count Request.clearNewData) hsent).trans List.count_cons_self
  · exact (idle_clearFlags hkept.1 hkept.2).withPopulate populate

/-- One iteration with POSTNONEWDATA set sends one clear. -/
theorem Posting.dataProcessingTask (h : Posting io n g) (hio : io.Answers parse) :
    clears (dataProcessingTask parse io g) = n + 1 ∧
      Idle (dataProcessingTask parse io g).flags := by
  have hfetch :
      Posting io n (Sicae.fetchDevicesBranch parse io (Sicae.fetchInfoBranch parse io g)) :=
    h.fetchInfoBranch.fetchDevicesBranch
  obtain ⟨hs, hset⟩ := @Posting.setDeviceBranch parse io n _ hfetch
  rw [Sicae.dataProcessingTask, hfetch.consumedCurrentBranch]
  exact hs.postBranch hio hset

/-- The task comes to rest in the second iteration. -/
theorem Posting.settle {io' : Io} {ios : List Io} (h : Posting io n g) (hio : io.Answers parse) :
    ∃ g', settle parse (io :: io' :: ios) g = some g' ∧ Idle g'.flags ∧ clears g' = n + 1 := by
  obtain ⟨hclears, hidle⟩ := h.dataProcessingTask hio
  have hne : (Sicae.dataProcessingTask parse io g).sent ≠ g.sent := by
    intro he
    have hsame : clears (Sicae.dataProcessingTask parse io g) = clears g :=
      congrArg (List.count Request.clearNewData) he
    rw [hclears, h.count] at hsame
    omega
  refine ⟨Sicae.dataProcessingTask parse io g, ?_, hidle, hclears⟩
  rw [Sicae.settle, if_neg hne, settle_idle hidle]

end

/-! ### Runs -/

section
variable {parse : CStr → Option Json} {g : Globals} {a : Response × List Io}

/-- What a response causes: one clear if POSTNONEWDATA is set after it, and none otherwise. -/
theorem ackStep_of_idle (h : Idle g.flags) (hs : Served parse g a) :
    ∃ g', ackStep parse g a = some g' ∧ Idle g'.flags ∧
      clears g' = clears g + (a.1.posts parse g.response g.flags).toNat := by
  obtain ⟨x, ios⟩ := a
  obtain ⟨io, io', ios, rfl⟩ : ∃ io io' ios', ios = io :: io' :: ios' := by
    match ios, hs.enough with
    | io :: io' :: ios', _ => exact ⟨io, io', ios', rfl⟩
  obtain ⟨hsent, hidle, hpost⟩ := @Response.deliver_posts parse x g h
  have hcount : clears (x.reply.deliver parse x.env x.url g) = clears g :=
    congrArg (List.count Request.clearNewData) hsent
  rw [ackStep]
  cases hp : x.posts parse g.response g.flags with
  | false => exact ⟨_, settle_idle (hidle hp), hidle hp, hcount⟩
  | true =>
      obtain ⟨hflag, hcur, hresp⟩ := hpost hp
      have hstart : Posting io (clears g) (x.reply.deliver parse x.env x.url g) :=
        ⟨hflag, hcur, hcount, [], fun _ hm => absurd hm List.not_mem_nil, by rw [hresp]; rfl⟩
      exact hstart.settle (hs.answers io List.mem_cons_self)

theorem Response.tested_of_heard {x : Response} {b : ResponseBuffer} {s : CStr}
    (h : x.heard parse b = some s) : x.tested parse b = true := by
  obtain ⟨buf, hbuf, hc⟩ := Option.bind_eq_some_iff.mp h
  rw [tested, hbuf, Option.any_some, route_of_command hc]
  rfl

/-- POSTNONEWDATA is set after the right responses exactly when the flags fit. -/
theorem posts_eq_expected_iff (hs : Served parse g a) :
    (a.1.posts parse g.response g.flags).toNat = a.1.expected parse ↔ FlagsFit parse g a := by
  have htested := @Response.tested_of_heard parse a.1 g.response
  rw [hs.heard] at htested
  rw [Response.posts, Response.expected, FlagsFit, hs.heard]
  cases hc : a.1.command parse with
  | none =>
      cases a.1.tested parse g.response <;> cases stuck g.flags <;> simp
  | some s =>
      rw [htested hc]
      simp only [Option.any_some, Bool.true_and, Option.some.injEq, forall_const]
      by_cases hr : recognised s = true
      · rw [if_pos hr, if_pos hr]
        rcases recognised_iff.mp hr with h | rfl
        · have hne : s ≠ "get/alive".toList := by
            rintro rfl
            rw [raises_alive] at h
            cases h
          rw [h, Bool.or_true]
          exact ⟨fun _ he => absurd he hne, fun _ => rfl⟩
        · rw [raises_alive]
          cases stuck g.flags <;> simp
      · have h : raises s = false := by
          rw [← Bool.not_eq_true]
          exact fun hn => hr (recognised_iff.mpr (Or.inl hn))
        rw [if_neg hr, if_neg hr, h]
        cases stuck g.flags <;> simp

/-- **A response is acknowledged exactly when the flags fit.** -/
theorem acknowledged_iff (h : Idle g.flags) (hs : Served parse g a) :
    Acknowledged parse g a ↔ FlagsFit parse g a := by
  obtain ⟨g', hstep, -, hcount⟩ := ackStep_of_idle h hs
  rw [← posts_eq_expected_iff hs, Acknowledged]
  constructor
  · rintro ⟨g'', hstep', hcount'⟩
    obtain rfl : g' = g'' := Option.some.inj (hstep.symm.trans hstep')
    omega
  · intro he
    exact ⟨g', hstep, by rw [hcount, he]⟩

theorem idle_of_ackStep {g' : Globals} (h : Idle g.flags) (hs : Served parse g a)
    (hstep : ackStep parse g a = some g') : Idle g'.flags := by
  obtain ⟨g'', hstep', hidle, -⟩ := ackStep_of_idle h hs
  rw [hstep] at hstep'
  exact Option.some.inj hstep' ▸ hidle

/-- **Every response of a run is acknowledged exactly when the flags fit at each of its steps.** -/
theorem acknowledged_run_iff {as : List (Response × List Io)} (h : Idle g.flags)
    (hs : AllSteps (ackStep parse) (Served parse) g as) :
    AllSteps (ackStep parse) (Acknowledged parse) g as ↔
      AllSteps (ackStep parse) (FlagsFit parse) g as :=
  allSteps_congr (fun _ _ _ hi hok hstep => idle_of_ackStep hi hok hstep)
    (fun _ _ hi hok => acknowledged_iff hi hok) h hs

end

/-! ### The command get/alive -/

/-- The text that `clear_new_data_section` sends, and that the server echoes. -/
def echoText : CStr := "\x7b\"section\":\"\",\"status\":false\x7d".toList

/-- Its JSON. -/
def echoJson : Json :=
  .object [("section".toList, .string []), ("status".toList, .bool false)]

/-- A parser on the answer for section `s` and on the echo. -/
def parseAnswers (s t : CStr) : Option Json :=
  if t = echoText then some echoJson else parseNewData s t

/-- Clears are echoed, other requests fail. -/
def echoIo : Io :=
  { exampleIo with
    reply := fun r =>
      if r = .clearNewData then { chunks := [echoText], status := some 200 }
      else { chunks := [], status := none } }

/-- The answer to a poll with status true and section `s`, and two iterations. -/
def pollAnswered (s : CStr) : Response × List Io :=
  ({ env := zeroedHeap, url := Request.getNewData.url exampleId, chunks := [newDataText s] },
    [echoIo, echoIo])

theorem echoIo_answers (s : CStr) : echoIo.Answers (parseAnswers s) where
  status := rfl
  unchunked := rfl
  echo rs hrs := by
    have hnil : rs.flatMap (fun r => (echoIo.reply r).body) = [] := by
      rw [List.flatMap_eq_nil_iff]
      intro r hr
      have hne := ne_clearNewData_of_toDisp (hrs r hr)
      simp only [echoIo, if_neg hne]
      rfl
    have hc : cstr echoText = echoText := by decide +kernel
    rw [hnil, List.nil_append]
    show commandSection .newData (parseAnswers s (cstr (echoText ++ []))) = none
    rw [List.append_nil, hc, parseAnswers, if_pos rfl]
    rfl

theorem pollAnswered_served (s : CStr) :
    Served (parseAnswers s) exampleGlobals (pollAnswered s) where
  enough := le_rfl
  answers io hio := by
    obtain rfl : io = echoIo := by simpa [pollAnswered] using hio
    exact echoIo_answers s
  heard := by
    show commandSection _ (parseAnswers s (cstr ([] ++ newDataText s))) =
      commandSection _ (parseAnswers s (cstr (newDataText s ++ [])))
    rw [List.nil_append, List.append_nil]

theorem acknowledged_run_getInfo :
    AllSteps (ackStep (parseAnswers "get/info".toList))
        (Acknowledged (parseAnswers "get/info".toList)) exampleGlobals
        [pollAnswered "get/info".toList] ↔
      AllSteps (ackStep (parseAnswers "get/info".toList))
        (FlagsFit (parseAnswers "get/info".toList)) exampleGlobals
        [pollAnswered "get/info".toList] :=
  acknowledged_run_iff ⟨rfl, rfl, rfl, rfl, rfl, rfl, rfl⟩
    ⟨pollAnswered_served _, fun _ _ => trivial⟩

/-- The command get/alive, answered to a poll at power-up, is never acknowledged. -/
theorem alive_unacknowledged :
    AllSteps (ackStep (parseAnswers "get/alive".toList))
        (Served (parseAnswers "get/alive".toList)) exampleGlobals
        [pollAnswered "get/alive".toList] ∧
      ¬ AllSteps (ackStep (parseAnswers "get/alive".toList))
        (Acknowledged (parseAnswers "get/alive".toList)) exampleGlobals
        [pollAnswered "get/alive".toList] := by
  refine ⟨⟨pollAnswered_served _, fun _ _ => trivial⟩, fun h => ?_⟩
  have hfit := (acknowledged_iff ⟨rfl, rfl, rfl, rfl, rfl, rfl, rfl⟩ (pollAnswered_served _)).mp h.1
  have hcommand : (pollAnswered "get/alive".toList).1.command
      (parseAnswers "get/alive".toList) = some "get/alive".toList := by decide +kernel
  rw [FlagsFit, hcommand, if_pos (by decide +kernel)] at hfit
  exact absurd (hfit rfl) Bool.false_ne_true

end Sicae
