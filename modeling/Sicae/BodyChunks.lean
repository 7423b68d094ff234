import Sicae.DevicePins
import Sicae.Transition

/-! # Bodies that arrive in chunks

`ON_DATA` grows the block of `response_data` with `malloc` or `realloc`, copies the chunk behind
what is there and puts a terminator behind it.  On the bytes of the block (`DataBlock.onData`) no
write leaves the block, and what it holds afterwards is the appended text with its terminator
(`holds_onData`), so the chunks of a body leave the block that the body would leave in one piece.

With the buffer, everything that `ON_FINISH` reads from the globals is the same for two ways of
splitting a body.  What is not is the heap: the block of the device table is not initialised, and
what it holds depends on the calls of `realloc` made before.  The outcomes agree exactly if these
leftovers agree where the loop stores a byte into them (`sameOutcome_iff`). -/

namespace Sicae

open CString Transition

/-! ### The block -/

/-- The bytes of the block `response_data` points to, and `response_data_len`. -/
structure DataBlock where
  bytes : Option (List Char)
  len : ℕ
deriving DecidableEq

/-- `malloc` and `realloc` to `size` bytes: what the old block held, as far as it goes, and behind
it what the heap held. -/
def reallocate (old : List Char) (heap : ℕ → Char) (size : ℕ) : List Char :=
  old.take size ++ (List.range (size - old.length)).map heap

/-- `memcpy(block + offset, data, ...)`, `none` when it would write outside the block. -/
def copyInto (block : List Char) (offset : ℕ) (data : List Char) : Option (List Char) :=
  if offset + data.length ≤ block.length then
    some (block.take offset ++ data ++ block.drop (offset + data.length))
  else none

/-- The `memcpy` of a chunk to the end of a block of `len + 1` bytes, and the terminator. -/
def copyChunk (block : List Char) (len : ℕ) (data : List Char) : Option (List Char) :=
  (copyInto block (len - data.length) data).bind (copyInto · len ['\x00'])

/-- `ON_DATA` on the block, for a chunk together with what the heap holds. -/
def DataBlock.onData (b : DataBlock) (chunk : (ℕ → Char) × List Char) : Option DataBlock :=
  let grown : List Char × ℕ :=
    match b.bytes with
    | none => (reallocate [] chunk.1 (chunk.2.length + 1), chunk.2.length)
    | some bytes =>
        (reallocate bytes chunk.1 (b.len + chunk.2.length + 1), b.len + chunk.2.length)
  (copyChunk grown.1 grown.2 chunk.2).map fun bytes => ⟨some bytes, grown.2⟩

/-- The block is the one of the buffer: the text and its terminator. -/
def DataBlock.Holds (b : DataBlock) (r : ResponseBuffer) : Prop :=
  b.bytes = r.data.map (· ++ ['\x00']) ∧ b.len = r.len

theorem DataBlock.Holds.unique {b b' : DataBlock} {r : ResponseBuffer} (h : b.Holds r)
    (h' : b'.Holds r) : b = b' := by
  obtain ⟨bytes, len⟩ := b
  obtain ⟨bytes', len'⟩ := b'
  obtain ⟨rfl, rfl⟩ := h
  obtain ⟨rfl, rfl⟩ := h'
  rfl

theorem length_reallocate (old : List Char) (heap : ℕ → Char) (size : ℕ) :
    (reallocate old heap size).length = size := by
  rw [reallocate, List.length_append, List.length_take, List.length_map, List.length_range]
  omega

/-- What the old block held is still there, if it is not longer than the new one. -/
theorem take_reallocate {old : List Char} {heap : ℕ → Char} {n size : ℕ} (h : n ≤ old.length)
    (hs : old.length ≤ size) : (reallocate old heap size).take n = old.take n := by
  rw [reallocate, List.take_of_length_le hs, List.take_append_of_le_length h]

/-- Both copies stay inside a block that has room for the text and its terminator. -/
theorem copyChunk_eq {block data : List Char} {len : ℕ} (hblock : block.length = len + 1)
    (hdata : data.length ≤ len) :
    copyChunk block len data = some (block.take (len - data.length) ++ data ++ ['\x00']) := by
  have hend : len - data.length + data.length = len := by omega
  have htext : (block.take (len - data.length) ++ data).length = len := by
    rw [List.length_append, List.length_take]
    omega
  have hrest : (block.drop len).length = 1 := by
    rw [List.length_drop]
    omega
  rw [copyChunk, copyInto, hend, if_pos (by omega), Option.bind_some, copyInto,
    List.length_append, htext, hrest, List.length_singleton, if_pos le_rfl, List.take_left' htext,
    List.drop_of_length_le (by rw [List.length_append, htext, hrest]), List.append_nil]

/-- **A chunk is appended inside the block.** -/
theorem holds_onData {b : DataBlock} {r : ResponseBuffer} (h : b.Holds r)
    (chunk : (ℕ → Char) × List Char) :
    ∃ b', b.onData chunk = some b' ∧ b'.Holds (r.append chunk.2) := by
  obtain ⟨heap, data⟩ := chunk
  obtain ⟨bytes, len⟩ := b
  obtain ⟨hbytes, hlen⟩ := h
  have hr := r.len_eq
  have hlen' := (r.append data).len_eq
  rw [ResponseBuffer.append_data, Option.getD_some, List.length_append] at hlen'
  cases hd : r.data with
  | none =>
      rw [hd] at hbytes hr hlen'
      obtain rfl : bytes = none := hbytes
      have hcopy := copyChunk_eq (length_reallocate [] heap (data.length + 1)) le_rfl
      rw [Nat.sub_self, List.take_zero, List.nil_append] at hcopy
      refine ⟨⟨some (data ++ ['\x00']), data.length⟩, ?_, ?_, ?_⟩
      · rw [DataBlock.onData, hcopy]
        rfl
      · rw [ResponseBuffer.append_data, hd]
        rfl
      · rw [hlen']
        exact (Nat.zero_add _).symm
  | some old =>
      rw [hd] at hbytes hr hlen'
      obtain rfl : bytes = some (old ++ ['\x00']) := hbytes
      obtain rfl : len = old.length := hlen.trans hr
      have hgrow : (old ++ ['\x00']).length ≤ old.length + data.length + 1 := by
        rw [List.length_append, List.length_singleton]
        omega
      have hcopy := copyChunk_eq
        (length_reallocate (old ++ ['\x00']) heap (old.length + data.length + 1))
        (Nat.le_add_left data.length old.length)
      rw [Nat.add_sub_cancel, take_reallocate (by simp) hgrow, List.take_left] at hcopy
      refine ⟨⟨some (old ++ data ++ ['\x00']), old.length + data.length⟩, ?_, ?_, ?_⟩
      · rw [DataBlock.onData, hcopy]
        rfl
      · rw [ResponseBuffer.append_data, hd]
        rfl
      · rw [hlen']
        rfl

/-- So are the chunks of a body, one after the other. -/
theorem holds_run {b : DataBlock} {r : ResponseBuffer} (h : b.Holds r)
    (chunks : List ((ℕ → Char) × List Char)) :
    ∃ b', run DataBlock.onData b chunks = some b' ∧
      b'.Holds ((chunks.map Prod.snd).foldl ResponseBuffer.append r) := by
  induction chunks generalizing b r with
  | nil => exact ⟨b, rfl, h⟩
  | cons chunk chunks ih =>
      obtain ⟨b', hb', h'⟩ := holds_onData h chunk
      obtain ⟨b'', hr, h''⟩ := ih h'
      exact ⟨b'', run_cons_some.mpr ⟨b', hb', hr⟩, h''⟩

theorem foldl_append_eq {chunks : List (List Char)} (h : chunks ≠ []) (b : ResponseBuffer) :
    chunks.foldl ResponseBuffer.append b = b.append chunks.flatten := by
  apply ResponseBuffer.ext
  rw [foldl_append_data, if_neg h, ResponseBuffer.append_data]

/-- **The chunks of a body leave one and the same block**, whatever the heap holds. -/
theorem run_onData_eq {b : DataBlock} {r : ResponseBuffer} (h : b.Holds r)
    {chunks chunks' : List ((ℕ → Char) × List Char)} (hne : chunks ≠ []) (hne' : chunks' ≠ [])
    (hflat : (chunks.map Prod.snd).flatten = (chunks'.map Prod.snd).flatten) :
    run DataBlock.onData b chunks = run DataBlock.onData b chunks' := by
  obtain ⟨b₁, hr₁, h₁⟩ := holds_run h chunks
  obtain ⟨b₂, hr₂, h₂⟩ := holds_run h chunks'
  rw [foldl_append_eq (by simpa using hne)] at h₁
  rw [foldl_append_eq (by simpa using hne'), ← hflat] at h₂
  rw [hr₁, hr₂, h₁.unique h₂]

/-! ### The handler -/

section
variable {parse : CStr → Option Json} {env : Env} {clientUrl : Option CStr}

/-- `ON_DATA` on the globals. -/
theorem onData_eq (data : List Char) (g : Globals) :
    clientEventGetHandler parse env clientUrl (.onData false data) g =
      { g with response := g.response.append data, url := urlAfter clientUrl g } := by
  cases clientUrl <;> rfl

theorem onDataEvents_cons (data : List Char) (chunks : List (List Char)) (g : Globals) :
    onDataEvents parse env clientUrl false (data :: chunks) g =
      { g with
        response := (data :: chunks).foldl ResponseBuffer.append g.response
        url := urlAfter clientUrl g } := by
  induction chunks generalizing data g with
  | nil => exact @onData_eq parse env clientUrl data g
  | cons next chunks ih =>
      show onDataEvents parse env clientUrl false (next :: chunks)
        (clientEventGetHandler parse env clientUrl (.onData false data) g) = _
      rw [ih, onData_eq]
      cases clientUrl <;> rfl

/-- **The chunks of a body leave the globals that the body leaves in one piece.** -/
theorem onDataEvents_flatten {chunks : List (List Char)} (h : chunks ≠ []) (g : Globals) :
    onDataEvents parse env clientUrl false chunks g =
      clientEventGetHandler parse env clientUrl (.onData false chunks.flatten) g := by
  obtain ⟨data, rest, rfl⟩ := List.exists_cons_of_ne_nil h
  rw [onDataEvents_cons, foldl_append_eq h, onData_eq]

end

/-! ### The table of two runs -/

/-- The position in the table of what the loop stores for the element at `pos`. -/
def storedIndex (items : List Json) (pos : ℕ) : ℕ := ((items.take pos).filterMap deviceData).length

/-- The bytes of the pin fields that no lookup overwrites are the same in two blocks. -/
def LeftoversAgree (nvs : Nvs) (pinFaults : ℕ → NvsFaults) (heap heap' : ℕ → BitVec 32)
    (items : List Json) : Prop :=
  ∀ pos x p, items[pos]?.bind deviceData = some x →
    readDevicePinFromNvs nvs (pinFaults pos) x.id = .ok p →
    (heap (storedIndex items pos)).extractLsb' 8 24 =
      (heap' (storedIndex items pos)).extractLsb' 8 24

theorem storedIndex_succ (item : Json) (items : List Json) (pos : ℕ) :
    storedIndex (item :: items) (pos + 1) =
      storedIndex items pos + if (deviceData item).isSome then 1 else 0 := by
  unfold storedIndex
  cases hx : deviceData item <;> simp [hx]

theorem leftoversAgree_cons_none {nvs : Nvs} {pinFaults : ℕ → NvsFaults}
    {heap heap' : ℕ → BitVec 32} {item : Json} {items : List Json} (hx : deviceData item = none) :
    LeftoversAgree nvs pinFaults heap heap' (item :: items) ↔
      LeftoversAgree nvs (fun p => pinFaults (p + 1)) heap heap' items := by
  unfold LeftoversAgree
  rw [← Nat.and_forall_add_one]
  simp [hx, storedIndex_succ]

theorem leftoversAgree_cons_some {nvs : Nvs} {pinFaults : ℕ → NvsFaults}
    {heap heap' : ℕ → BitVec 32} {item : Json} {items : List Json} {x : DeviceData}
    (hx : deviceData item = some x) :
    LeftoversAgree nvs pinFaults heap heap' (item :: items) ↔
      (∀ p, readDevicePinFromNvs nvs (pinFaults 0) x.id = .ok p →
        (heap 0).extractLsb' 8 24 = (heap' 0).extractLsb' 8 24) ∧
      LeftoversAgree nvs (fun p => pinFaults (p + 1)) (fun k => heap (k + 1))
        (fun k => heap' (k + 1)) items := by
  unfold LeftoversAgree
  rw [← Nat.and_forall_add_one]
  apply and_congr
  · constructor
    · intro h p hp
      exact h x p hx hp
    · intro h y p hy hp
      obtain rfl := Option.some.inj (hx.symm.trans hy)
      exact h p hp
  · simp [hx, storedIndex_succ]

theorem storeDevice_eq_iff {nvs : Nvs} {faults : NvsFaults} {leftover leftover' : BitVec 32}
    {x : DeviceData} :
    storeDevice nvs faults leftover x = storeDevice nvs faults leftover' x ↔
      ∀ p, readDevicePinFromNvs nvs faults x.id = .ok p →
        leftover.extractLsb' 8 24 = leftover'.extractLsb' 8 24 := by
  unfold storeDevice
  rw [Device.mk.injEq]
  cases readDevicePinFromNvs nvs faults x.id with
  | error e => simp [loadPin]
  | ok p =>
      constructor
      · rintro ⟨-, -, hpin, -⟩ q -
        have hupper := congrArg (BitVec.extractLsb' 8 24) hpin
        simp only [loadPin] at hupper
        rwa [BitVec.extractLsb'_append_eq_left, BitVec.extractLsb'_append_eq_left] at hupper
      · intro h
        simp only [loadPin, h p rfl, and_self]

/-- What reaches the relay does not depend on the leftovers. -/
theorem driveRelay_storeDevice (gpio : Gpio) (nvs : Nvs) (faults : NvsFaults)
    (leftover leftover' : BitVec 32) (x : DeviceData) :
    driveRelay gpio (storeDevice nvs faults leftover x) =
      driveRelay gpio (storeDevice nvs faults leftover' x) := by
  have hbyte : (storeDevice nvs faults leftover x).pin.setWidth 8 =
      (storeDevice nvs faults leftover' x).pin.setWidth 8 := by
    unfold storeDevice
    cases readDevicePinFromNvs nvs faults x.id with
    | error e => rfl
    | ok p => simp only [loadPin, setWidth_append_byte]
  unfold driveRelay
  rw [hbyte]
  rfl

section
variable {nvs : Nvs} {env env' : Env} {heap heap' : ℕ → BitVec 32}

/-- The pins are driven alike. -/
theorem foldl_driveRelay_storedDevices (hf : env.pinFaults = env'.pinFaults) (items : List Json)
    (pos index : ℕ) (gpio : Gpio) :
    (storedDevices nvs env heap items pos index).foldl driveRelay gpio =
      (storedDevices nvs env' heap' items pos index).foldl driveRelay gpio := by
  induction items generalizing pos index gpio with
  | nil => rfl
  | cons item items ih =>
      cases hx : deviceData item with
      | none =>
          simp only [storedDevices, hx]
          exact ih ..
      | some x =>
          simp only [storedDevices, hx, List.foldl_cons]
          rw [hf, driveRelay_storeDevice gpio nvs _ (heap index) (heap' index)]
          exact ih ..

/-- The entries are the same exactly if the leftovers agree. -/
theorem storedDevices_eq_iff (hf : env.pinFaults = env'.pinFaults) (items : List Json)
    (pos index : ℕ) :
    storedDevices nvs env heap items pos index = storedDevices nvs env' heap' items pos index ↔
      LeftoversAgree nvs (fun p => env.pinFaults (pos + p)) (fun k => heap (index + k))
        (fun k => heap' (index + k)) items := by
  induction items generalizing pos index with
  | nil => exact iff_of_true rfl (fun _ _ _ h => by cases h)
  | cons item items ih =>
      cases hx : deviceData item with
      | none =>
          simp only [storedDevices, hx]
          rw [ih, leftoversAgree_cons_none hx]
          simp only [Nat.add_assoc, Nat.add_comm 1]
      | some x =>
          simp only [storedDevices, hx, List.cons.injEq]
          rw [ih, ← hf, storeDevice_eq_iff, leftoversAgree_cons_some hx]
          simp only [Nat.add_assoc, Nat.add_comm 1]
          rfl

end

/-! ### Two ways of splitting a body -/

section
variable (parse : CStr → Option Json) (clientUrl : Option CStr)

/-- The events of a body that is not chunked by its transfer coding, up to `ON_FINISH`. -/
def receiveBody (env : Env) (chunks : List (List Char)) (g : Globals) : Globals :=
  clientEventGetHandler parse env clientUrl .onFinish
    (onDataEvents parse env clientUrl false chunks g)

/-- **With the heap given, how the body is split does not matter.** -/
theorem receiveBody_flatten (env : Env) {chunks : List (List Char)} (h : chunks ≠ [])
    (g : Globals) :
    receiveBody parse clientUrl env chunks g =
      onFinish parse env clientUrl
        { g with response := g.response.append chunks.flatten, url := urlAfter clientUrl g } := by
  rw [receiveBody, onDataEvents_flatten h, onData_eq]
  rfl

/-- Two runs end in the same flags, section, device table and buffer, and have driven the pins
alike. -/
structure SameOutcome (g g' : Globals) : Prop where
  flags : g.flags = g'.flags
  urlSection : g.urlSection = g'.urlSection
  devices : g.devices = g'.devices
  deviceCount : g.deviceCount = g'.deviceCount
  response : g.response = g'.response
  gpio : g.gpio = g'.gpio

theorem SameOutcome.refl (g : Globals) : SameOutcome g g := ⟨rfl, rfl, rfl, rfl, rfl, rfl⟩

/-- The surroundings of two runs: NVS answers alike, and allocations succeed alike. -/
structure SameAnswers (env env' : Env) : Prop where
  pinFaults : env.pinFaults = env'.pinFaults
  malloc : ∀ n, (env.malloc n).isSome = (env'.malloc n).isSome

/-- Where a complete body is turned into a table, the leftovers of the two blocks agree. -/
def TablesAgree (env env' : Env) (g : Globals) (body : List Char) : Prop :=
  ∀ items heap heap', route (urlAfter clientUrl g) = .devices →
    parse (cstr (g.response.data.getD [] ++ body)) = some (.array items) →
    env.malloc items.length = some heap → env'.malloc items.length = some heap' →
    LeftoversAgree g.nvs env.pinFaults heap heap' items

variable {parse clientUrl} {env env' : Env}

/-- The surroundings matter to the answer that is turned into a table only. -/
theorem handleAnswer_congr {r : Route} {json : Option Json}
    (h : ∀ items, ¬ (r = .devices ∧ json = some (.array items))) (g : Globals) :
    handleAnswer env r json g = handleAnswer env' r json g := by
  have hbranch : answerBranch env r json g = answerBranch env' r json g := by
    unfold answerBranch
    split
    · rfl
    · rename_i items
      exact absurd ⟨rfl, rfl⟩ (h items)
    · rfl
    · rfl
  rw [handleAnswer, handleAnswer, hbranch]

/-- The outcome of a complete table answer. -/
theorem sameOutcome_handleAnswer_iff (hs : SameAnswers env env') {items : List Json}
    {heap heap' : ℕ → BitVec 32} (hm : env.malloc items.length = some heap)
    (hm' : env'.malloc items.length = some heap') (g : Globals) :
    SameOutcome (handleAnswer env .devices (some (.array items)) g).1
        (handleAnswer env' .devices (some (.array items)) g).1 ↔
      LeftoversAgree g.nvs env.pinFaults heap heap' items := by
  have hentries := @storedDevices_eq_iff g.nvs env env' heap heap' hs.pinFaults items 0 0
  have hgpio := @foldl_driveRelay_storedDevices g.nvs env env' heap heap' hs.pinFaults items 0 0
    g.gpio
  simp only [Nat.zero_add] at hentries
  rw [← hentries, handleAnswer_devices hm, handleAnswer_devices hm', devicesBranch_eq,
    devicesBranch_eq, hm, hm']
  constructor
  · intro h
    have hd := Option.some.inj h.devices
    rw [List.append_left_inj] at hd
    exact List.map_injective_iff.mpr (Option.some_injective _) hd
  · intro h
    refine ⟨rfl, rfl, ?_, rfl, rfl, hgpio⟩
    show some _ = some _
    rw [h]

/-- The outcome of any complete answer. -/
theorem sameOutcome_handleAnswer (hs : SameAnswers env env') (r : Route) (json : Option Json)
    (g : Globals) :
    SameOutcome (handleAnswer env r json g).1 (handleAnswer env' r json g).1 ↔
      ∀ items heap heap', r = .devices → json = some (.array items) →
        env.malloc items.length = some heap → env'.malloc items.length = some heap' →
        LeftoversAgree g.nvs env.pinFaults heap heap' items := by
  by_cases htable : ∃ items, r = .devices ∧ json = some (.array items)
  · obtain ⟨items, rfl, rfl⟩ := htable
    have hsome := hs.malloc items.length
    cases hm : env.malloc items.length with
    | none =>
        rw [hm, Option.isSome_none] at hsome
        have hm' := Option.isNone_iff_eq_none.mp (Option.isSome_eq_false_iff.mp hsome.symm)
        simp only [handleAnswer, answerBranch, devicesBranch, hm, hm']
        refine iff_of_true (.refl _) fun items' heap _ _ hp hheap => ?_
        obtain rfl := Json.array.inj (Option.some.inj hp)
        cases hm.symm.trans hheap
    | some heap =>
        rw [hm, Option.isSome_some] at hsome
        obtain ⟨heap', hm'⟩ := Option.isSome_iff_exists.mp hsome.symm
        rw [sameOutcome_handleAnswer_iff hs hm hm']
        constructor
        · intro h items' heap₁ heap₁' _ hp hheap hheap'
          obtain rfl := Json.array.inj (Option.some.inj hp)
          obtain rfl := Option.some.inj (hm.symm.trans hheap)
          obtain rfl := Option.some.inj (hm'.symm.trans hheap')
          exact h
        · intro h
          exact h items heap heap' rfl rfl hm hm'
  · have hother : ∀ items, ¬ (r = .devices ∧ json = some (.array items)) := not_exists.mp htable
    rw [@handleAnswer_congr env env' _ _ hother]
    exact iff_of_true (.refl _) fun items _ _ hr hp _ _ => absurd ⟨hr, hp⟩ (hother items)

/-- Whether the buffer is freed does not depend on the heap either. -/
theorem reachesTest_congr (hs : SameAnswers env env') (r : Route) (json : Option Json) :
    reachesTest env r json = reachesTest env' r json := by
  unfold reachesTest
  split
  · split
    · exact hs.malloc _
    · rfl
  · rfl
  · rfl
  · rfl
  · rfl

/-- The handling of the buffer keeps what the branch has made equal or different. -/
theorem sameOutcome_onFinish_iff (hs : SameAnswers env env') {g : Globals} {buf : List Char}
    (hbuf : g.response.data = some buf) :
    SameOutcome (onFinish parse env clientUrl g) (onFinish parse env' clientUrl g) ↔
      SameOutcome
        (handleAnswer env (route (urlAfter clientUrl g)) (parse (cstr buf))
          (received clientUrl buf g)).1
        (handleAnswer env' (route (urlAfter clientUrl g)) (parse (cstr buf))
          (received clientUrl buf g)).1 := by
  have hr := handleAnswer_same env (route (urlAfter clientUrl g)) (parse (cstr buf))
    (received clientUrl buf g)
  have hr' := handleAnswer_same env' (route (urlAfter clientUrl g)) (parse (cstr buf))
    (received clientUrl buf g)
  simp only [onFinish, hbuf, handleAnswer_snd, reachesTest_congr hs]
  split_ifs
  · constructor
    · intro h
      exact ⟨h.flags, h.urlSection, h.devices, h.deviceCount, hr.response.trans hr'.response.symm,
        h.gpio⟩
    · intro h
      exact ⟨h.flags, h.urlSection, h.devices, h.deviceCount, rfl, h.gpio⟩
  · exact Iff.rfl

/-- **How a body is split into packets does not matter**, exactly as far as the heap does not: two
runs on the same body end alike exactly if, where a table is built from it, the leftovers in the two
blocks agree under the bytes that the lookups store. -/
theorem sameOutcome_iff (hs : SameAnswers env env') {g : Globals} {body : List Char}
    {chunks chunks' : List (List Char)} (hbody : body ≠ []) (hchunks : chunks.flatten = body)
    (hchunks' : chunks'.flatten = body) :
    SameOutcome (receiveBody parse clientUrl env chunks g)
        (receiveBody parse clientUrl env' chunks' g) ↔
      TablesAgree parse clientUrl env env' g body := by
  have hne : ∀ {cs : List (List Char)}, cs.flatten = body → cs ≠ [] := by
    rintro cs hcs rfl
    exact hbody hcs.symm
  rw [receiveBody_flatten parse clientUrl env (hne hchunks),
    receiveBody_flatten parse clientUrl env' (hne hchunks'), hchunks, hchunks']
  rw [sameOutcome_onFinish_iff hs (ResponseBuffer.append_data ..)]
  have hurl : urlAfter clientUrl { g with
      response := g.response.append body, url := urlAfter clientUrl g } = urlAfter clientUrl g := by
    cases clientUrl <;> rfl
  rw [hurl]
  exact sameOutcome_handleAnswer hs ..

end

/-- The body of the example refresh in one piece, and in two. -/
def relayBody : List (List Char) := [oneRelayText]

def relayBodyInTwo : List (List Char) := [oneRelayText.take 19, oneRelayText.drop 19]

/-- The heap when the 20 bytes of the first chunk, which `realloc` has freed, are reused for a table
of one entry: the pin is where the text has `eTyp`. -/
def chunkHeap : Env where
  malloc n := if n = 0 then none else some (fun _ => 0x70795465#32)
  pinFaults _ := .none

/-- The parser on the text of the example refresh. -/
def parseRelay : CStr → Option Json := parseOnly oneRelayText (.array [exampleRelay])

theorem relayBodyInTwo_flatten : relayBodyInTwo.flatten = oneRelayText := by
  rw [relayBodyInTwo, List.flatten_cons, List.flatten_singleton, List.take_append_drop]

theorem sameAnswers_chunkHeap : SameAnswers zeroedHeap chunkHeap where
  pinFaults := rfl
  malloc n := by
    by_cases h : n = 0 <;> simp [zeroedHeap, chunkHeap, h]

/-- In zeroed memory both end alike. -/
theorem relayBody_sameOutcome :
    SameOutcome
        (receiveBody parseRelay (some (Request.getDevices.url exampleId)) zeroedHeap relayBody
          exampleGlobals)
        (receiveBody parseRelay (some (Request.getDevices.url exampleId)) zeroedHeap relayBodyInTwo
          exampleGlobals) ↔
      TablesAgree parseRelay (some (Request.getDevices.url exampleId)) zeroedHeap zeroedHeap
        exampleGlobals oneRelayText :=
  sameOutcome_iff ⟨rfl, fun _ => rfl⟩ (by decide) List.flatten_singleton relayBodyInTwo_flatten

/-- With the first chunk's text in the block the relay is left with another pin. -/
theorem relayBody_pins :
    ¬ SameOutcome
      (receiveBody parseRelay (some (Request.getDevices.url exampleId)) zeroedHeap relayBody
        exampleGlobals)
      (receiveBody parseRelay (some (Request.getDevices.url exampleId)) chunkHeap relayBodyInTwo
        exampleGlobals) := by
  intro h
  have hone : relayBody.flatten = oneRelayText := List.flatten_singleton
  have hbuf : (exampleGlobals.response.append oneRelayText).data = some oneRelayText := rfl
  rw [receiveBody_flatten _ _ _ (by decide), receiveBody_flatten _ _ _ (by decide), hone,
    relayBodyInTwo_flatten,
    sameOutcome_onFinish_iff sameAnswers_chunkHeap hbuf,
    sameOutcome_handleAnswer sameAnswers_chunkHeap, urlAfter_some,
    Request.snprintf_url] at h
  have hparse : parseRelay (cstr oneRelayText) = some (.array [exampleRelay]) := by
    rw [show cstr oneRelayText = oneRelayText by decide +kernel]
    exact parseOnly_self ..
  have hagree := h [exampleRelay] (fun _ => 0#32) (fun _ => 0x70795465#32) (route_getDevices _)
    hparse rfl rfl
  have hread : readDevicePinFromNvs exampleNvs .none exampleRelayData.id = .ok 23#8 := by
    decide +kernel
  have hupper := hagree 0 exampleRelayData 23#8 deviceData_exampleRelay hread
  exact absurd hupper (by decide)

end Sicae
